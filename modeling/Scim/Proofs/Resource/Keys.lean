import Scim.Proofs.Resource.Reading

/-! Changes keep a resource unambiguous. Wherever something is written, a key that is there in any
spelling is taken up again, so no key comes to stand beside another that differs in case only. -/
namespace Scim

namespace Fields

theorem mem_set {fields : Fields} {key : String} {value : Json} {field : String × Json}
    (member : field ∈ fields.set key value) : field.2 = value ∨ field ∈ fields := by
  induction fields with
  | nil =>
    rw [List.mem_singleton.mp member]
    exact .inl rfl
  | cons first rest ih =>
    obtain ⟨k, v⟩ := first
    rw [set] at member
    split at member
    · rcases List.mem_cons.mp member with rfl | later
      · exact .inl rfl
      · exact .inr (List.mem_cons_of_mem _ later)
    · rcases List.mem_cons.mp member with rfl | later
      · exact .inr List.mem_cons_self
      · exact (ih later).imp_right (List.mem_cons_of_mem _)

end Fields

namespace Json

variable {fields : Fields} {value : Json}

/-- Writing under a name keeps an object unambiguous. -/
theorem Unambiguous.set_keyFor (clear : (object fields).Unambiguous) (name : String)
    (written : value.Unambiguous) :
    (object (fields.set (fields.keyFor name) value)).Unambiguous := by
  obtain ⟨distinct, held⟩ := (unambiguous_object fields).mp clear
  refine (unambiguous_object _).mpr ⟨Fields.distinct_set_keyFor distinct name value, ?_⟩
  intro field member
  rcases Fields.mem_set member with same | before
  · exact same ▸ written
  · exact held field before

theorem Unambiguous.erase (clear : (object fields).Unambiguous) (key : String) :
    (object (fields.erase key)).Unambiguous := by
  obtain ⟨distinct, held⟩ := (unambiguous_object fields).mp clear
  refine (unambiguous_object _).mpr ⟨?_, fun field member => held field (List.mem_of_mem_filter member)⟩
  exact distinct.sublist (List.filter_sublist.map _)

end Json

namespace Focus

mutual

/-- What is singled out and what stands beside it is unambiguous, and a field is written under the
spelling in which it is there. -/
def Tidy : Focus → Prop
  | .target value => value.Unambiguous
  | .plain value => value.Unambiguous
  | .member fields key inner =>
    (Json.object fields).Unambiguous ∧ (∃ name, key = Fields.keyFor fields name) ∧ inner.Tidy
  | .elements items => allTidy items

def allTidy : List Focus → Prop
  | [] => True
  | item :: rest => item.Tidy ∧ allTidy rest

end

theorem allTidy_iff (items : List Focus) : allTidy items ↔ ∀ item ∈ items, item.Tidy := by
  induction items with
  | nil => simp [allTidy]
  | cons item rest ih => simp [allTidy, ih]

mutual

theorem unambiguous_document (focus : Focus) (tidy : focus.Tidy) : focus.document.Unambiguous := by
  cases focus with
  | target value => exact tidy
  | plain value => exact tidy
  | member fields key inner =>
    obtain ⟨clear, ⟨name, rfl⟩, within⟩ := tidy
    exact clear.set_keyFor name (unambiguous_document inner within)
  | elements items => exact (Json.unambiguous_array _).mpr (unambiguous_documents items tidy)

theorem unambiguous_documents (items : List Focus) (tidy : allTidy items) :
    ∀ item ∈ documents items, item.Unambiguous := by
  cases items with
  | nil => simp [documents]
  | cons item rest =>
    simp only [documents, List.forall_mem_cons]
    exact ⟨unambiguous_document item tidy.1, unambiguous_documents rest tidy.2⟩

end

section

variable {ε : Type} {change : Json → Outcome ε Json}

mutual

/-- A change that keeps values unambiguous keeps the document so, also where it stops half-way. -/
theorem unambiguous_edit (kept : ∀ value, value.Unambiguous → (change value).value.Unambiguous)
    (focus : Focus) (tidy : focus.Tidy) : (focus.edit change).value.Unambiguous := by
  cases focus with
  | target value => exact kept value tidy
  | plain value => exact tidy
  | member fields key inner =>
    obtain ⟨clear, ⟨name, rfl⟩, within⟩ := tidy
    exact clear.set_keyFor name (unambiguous_edit kept inner within)
  | elements items => exact (Json.unambiguous_array _).mpr (unambiguous_editAll kept items tidy)

theorem unambiguous_editAll (kept : ∀ value, value.Unambiguous → (change value).value.Unambiguous)
    (items : List Focus) (tidy : allTidy items) :
    ∀ item ∈ (editAll change items).value, item.Unambiguous := by
  cases items with
  | nil => simp [editAll, Outcome.done]
  | cons item rest =>
    have head := unambiguous_edit kept item tidy.1
    have tail := unambiguous_editAll kept rest tidy.2
    have untouched := unambiguous_documents rest tidy.2
    rw [editAll]
    split
    next changed fault same =>
      rw [same] at head
      exact List.forall_mem_cons.mpr ⟨head, untouched⟩
    next changed same =>
      rw [same] at head
      exact List.forall_mem_cons.mpr ⟨head, tail⟩

end

end

section

variable {f : Json → Focus}

mutual

theorem tidy_refine (kept : ∀ value, value.Unambiguous → (f value).Tidy) (focus : Focus)
    (tidy : focus.Tidy) : (focus.refine f).Tidy := by
  cases focus with
  | target value => exact kept value tidy
  | plain value => exact tidy
  | member fields key inner => exact ⟨tidy.1, tidy.2.1, tidy_refine kept inner tidy.2.2⟩
  | elements items => exact allTidy_refineAll kept items tidy

theorem allTidy_refineAll (kept : ∀ value, value.Unambiguous → (f value).Tidy)
    (items : List Focus) (tidy : allTidy items) : allTidy (refineAll f items) := by
  cases items with
  | nil => trivial
  | cons item rest =>
    exact ⟨tidy_refine kept item tidy.1, allTidy_refineAll kept rest tidy.2⟩

end

end

theorem tidy_selectIf (condition : Json → Bool) (value : Json) (clear : value.Unambiguous) :
    (selectIf condition value).Tidy := by
  rw [selectIf]
  split <;> exact clear

theorem tidy_select (condition : Json → Bool) (value : Json) (clear : value.Unambiguous) :
    (select condition value).Tidy := by
  cases value with
  | array items =>
    refine (allTidy_iff _).mpr fun item member => ?_
    obtain ⟨original, among, rfl⟩ := List.mem_map.mp member
    exact tidy_selectIf condition original ((Json.unambiguous_array items).mp clear original among)
  | _ => exact tidy_selectIf condition _ clear

theorem tidy_descend (name : String) (create : Bool) (value : Json) (clear : value.Unambiguous) :
    (descend name create value).Tidy := by
  have within := clear_descend name create value clear
  cases value with
  | object fields =>
    rw [descend] at within ⊢
    cases slot : Fields.slot? fields name create with
    | none => exact clear
    | some value =>
      rw [slot] at within
      exact ⟨clear, ⟨name, rfl⟩, within value (by simp [targets])⟩
  | _ => exact clear

theorem tidy_enter {focus : Focus} (tidy : focus.Tidy) (create : Bool) (segment : Segment)
    (definition : Attribute) : (focus.enter create segment definition).Tidy := by
  have reached := tidy_refine
    (tidy_descend segment.name (create && definition.isComplex && !definition.multiValued)) focus tidy
  simp only [enter]
  cases segment.filter with
  | none => exact reached
  | some filter => exact tidy_refine (tidy_select _) _ reached

theorem tidy_follow {focus : Focus} (tidy : focus.Tidy) (create : Bool) (path : String)
    (segments : List (Segment × Attribute)) :
    (focus.follow create path segments).value.Tidy := by
  induction segments generalizing focus with
  | nil => exact tidy
  | cons first more ih =>
    obtain ⟨segment, definition⟩ := first
    have entered := tidy_enter tidy create segment definition
    rw [follow_cons]
    cases more with
    | nil => exact tidy_refine (tidy_selectIf _) _ entered
    | cons next more =>
      rw [pursue]
      split
      · exact entered
      · exact ih (tidy_refine (tidy_select _) _ entered)

end Focus

namespace Resource

variable {type : ResourceType} {resource : Resource}

theorem tidy_home (type : ResourceType) (create : Bool) (urn : Option String)
    (clear : resource.document.Unambiguous) : (resource.home type create urn).value.Tidy := by
  simp only [home]
  split
  · exact clear
  next schema _ =>
    have inner := Focus.tidy_descend schema.id create _ clear
    simp only [Focus.descend, document] at inner
    split
    next fields slot =>
      rw [slot] at inner
      exact inner
    · exact clear
    · exact clear
    · exact clear

theorem tidy_containers (type : ResourceType) (create : Bool) (base : Path)
    (clear : resource.document.Unambiguous) : (resource.containers type create base).value.Tidy := by
  have home := tidy_home type create base.schema clear
  unfold containers
  dsimp only
  split
  · exact home
  · split
    · exact Focus.tidy_follow home create base.render _
    · exact home

theorem unambiguous_ofDocument {value : Json} (clear : value.Unambiguous) :
    (ofDocument value).document.Unambiguous := by
  cases value with
  | object fields => exact clear
  | _ => simp [ofDocument, document, Fields.Distinct, Fields.keys]

/-- Changes that keep containers unambiguous keep the resource so. -/
theorem unambiguous_changeContainers {create : Bool} {path : Path}
    {change : Segment → Json → Outcome PatchError Json}
    (kept : ∀ last value, value.Unambiguous → (change last value).value.Unambiguous)
    (clear : resource.document.Unambiguous) :
    (resource.changeContainers type create path change).value.document.Unambiguous := by
  unfold changeContainers
  split
  · exact clear
  next base last split =>
    have places := tidy_containers type create base clear
    dsimp only
    split
    · exact unambiguous_ofDocument (Focus.unambiguous_edit (kept last) _ places)
    · exact unambiguous_ofDocument (Focus.unambiguous_document _ places)

end Resource

theorem Json.unambiguous_elementsOf {value : Json} (clear : value.Unambiguous) :
    ∀ element ∈ MultiValued.elementsOf value, element.Unambiguous := by
  intro element member
  cases value with
  | array items => exact (Json.unambiguous_array items).mp clear element member
  | _ =>
    rw [List.mem_singleton.mp member]
    exact clear

namespace Fields

variable {fields : Fields}

/-- The elements of an attribute are unambiguous with the object that holds it. -/
theorem unambiguous_ofField (clear : (Json.object fields).Unambiguous) (key : String) :
    ∀ item ∈ (MultiValued.ofField (fields.get? key)).items, item.Unambiguous := by
  intro item member
  cases held : fields.get? key with
  | none =>
    rw [held] at member
    cases member
  | some value =>
    rw [held] at member
    have elements := Json.unambiguous_elementsOf (clear.of_get? held)
    cases value with
    | null => cases member
    | _ => exact elements item member

theorem unambiguous_addField (clear : (Json.object fields).Unambiguous) (name : String)
    (definition : Attribute) {value : Json} (added : value.Unambiguous) :
    (Json.object (fields.addField name definition value)).Unambiguous := by
  rw [addField]
  split
  · refine clear.set_keyFor name ((Json.unambiguous_array _).mpr ?_)
    intro item member
    rcases List.mem_append.mp member with before | new
    · exact unambiguous_ofField clear _ item before
    · exact Json.unambiguous_elementsOf added item new
  · exact clear.set_keyFor name added

theorem unambiguous_removeField (clear : (Json.object fields).Unambiguous) (name : String)
    (filter : Option Filter) (scope : Scope) :
    (Json.object (fields.removeField name filter scope)).Unambiguous := by
  unfold removeField
  split
  · exact clear
  · exact clear.erase _
  next key filter spelled =>
    have keyed : fields.keyFor name = key := by rw [keyFor, spelled, Option.getD_some]
    have elements := unambiguous_ofField clear key
    unfold removeElements
    split
    · exact clear
    · exact clear
    next value held =>
      dsimp only
      split
      · exact clear.erase key
      · rw [← keyed]
        refine clear.set_keyFor name ((Json.unambiguous_array _).mpr fun item member => ?_)
        exact elements item (held ▸ List.mem_of_mem_filter member)

end Fields

theorem unambiguous_changeObjects {path : String} {change : Fields → Fields}
    (kept : ∀ fields, (Json.object fields).Unambiguous → (Json.object (change fields)).Unambiguous)
    (value : Json) (clear : value.Unambiguous) :
    (changeObjects path change value).value.Unambiguous := by
  have element (item : Json) (clear : item.Unambiguous) :
      (changeElement path change item).value.Unambiguous := by
    cases item with
    | object fields => exact kept fields clear
    | _ => exact clear
  have all (items : List Json) (clear : ∀ item ∈ items, item.Unambiguous) :
      ∀ item ∈ (Outcome.each (changeElement path change) items).value, item.Unambiguous := by
    induction items with
    | nil => simp [Outcome.each, Outcome.done]
    | cons item rest ih =>
      obtain ⟨first, others⟩ := List.forall_mem_cons.mp clear
      have head := element item first
      rw [Outcome.each]
      split
      next changed fault same =>
        rw [same] at head
        exact List.forall_mem_cons.mpr ⟨head, others⟩
      next changed same =>
        rw [same] at head
        exact List.forall_mem_cons.mpr ⟨head, ih others⟩
  cases value with
  | object fields => exact kept fields clear
  | array items =>
    exact (Json.unambiguous_array _).mpr (all items ((Json.unambiguous_array items).mp clear))
  | _ => exact clear

theorem unambiguous_addAt {path name : String} {definition : Attribute} {value : Json}
    (added : value.Unambiguous) (place : Json) (clear : place.Unambiguous) :
    (addAt path name definition value place).value.Unambiguous := by
  have set (fields : Fields) (clear : (Json.object fields).Unambiguous) :
      (Json.object (fields.setField name value)).Unambiguous := clear.set_keyFor name added
  cases place with
  | object fields => exact Fields.unambiguous_addField clear name definition added
  | _ => exact unambiguous_changeObjects set _ clear

end Scim
