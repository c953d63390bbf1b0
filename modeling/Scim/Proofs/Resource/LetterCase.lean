import Scim.Proofs.Filter.LetterCase
import Scim.Proofs.Patch.Narrowing
import Scim.Proofs.Resource.Keys

/-! The three operations on an unambiguous resource at paths that differ within filters. Such paths
lead to the same places, so the same is left of the resource; only what an error tells of the path
can differ. -/
namespace Scim

namespace Outcome

/-- Changes that leave the same value, and both come to the end or stop with errors of one
variant. -/
structure Alike {α : Type} (outcome other : Outcome PatchError α) : Prop where
  value : outcome.value = other.value
  variant : outcome.fault.map PatchError.ctorIdx = other.fault.map PatchError.ctorIdx

namespace Alike

variable {α β : Type} {outcome other : Outcome PatchError α}

theorem refl (outcome : Outcome PatchError α) : outcome.Alike outcome := ⟨rfl, rfl⟩

theorem stopped (value : α) {error other : PatchError} (variant : error.ctorIdx = other.ctorIdx) :
    (Outcome.stopped value error).Alike (Outcome.stopped value other) :=
  ⟨rfl, congrArg some variant⟩

theorem map (alike : outcome.Alike other) (f : α → β) : (outcome.map f).Alike (other.map f) :=
  ⟨congrArg f alike.value, alike.variant⟩

theorem ends (alike : outcome.Alike other) :
    (∃ value, outcome = done value ∧ other = done value) ∨
      ∃ value error otherError, outcome = Outcome.stopped value error ∧
        other = Outcome.stopped value otherError ∧ error.ctorIdx = otherError.ctorIdx := by
  obtain ⟨value, fault⟩ := outcome
  obtain ⟨_, otherFault⟩ := other
  obtain ⟨rfl, variant⟩ := alike
  cases fault with
  | none =>
    cases otherFault with
    | none => exact .inl ⟨value, rfl, rfl⟩
    | some => cases variant
  | some error =>
    cases otherFault with
    | none => cases variant
    | some otherError => exact .inr ⟨value, error, otherError, rfl, rfl, Option.some.inj variant⟩

end Alike

/-- Changes that run alike on the items of a list run alike on the list. -/
theorem each_alike {α : Type} {change other : α → Outcome PatchError α} {items : List α}
    (same : ∀ item ∈ items, (change item).Alike (other item)) :
    (each change items).Alike (each other items) := by
  induction items with
  | nil => exact .refl _
  | cons item rest ih =>
    obtain ⟨head, tail⟩ := List.forall_mem_cons.mp same
    rw [each, each]
    rcases head.ends with ⟨changed, first, second⟩ | ⟨changed, _, _, first, second, variant⟩
    · rw [first, second]
      exact (ih tail).map (changed :: ·)
    · rw [first, second]
      exact .stopped _ variant

end Outcome

namespace Focus

mutual

theorem refine_congr {f g : Json → Focus} (focus : Focus)
    (same : ∀ value ∈ focus.targets, f value = g value) : focus.refine f = focus.refine g := by
  cases focus with
  | target value => exact same value (by simp [targets])
  | plain value => rfl
  | member fields key inner => rw [refine, refine, refine_congr inner same]
  | elements items => rw [refine, refine, refineAll_congr items same]

theorem refineAll_congr {f g : Json → Focus} (items : List Focus)
    (same : ∀ value ∈ targetsOf items, f value = g value) : refineAll f items = refineAll g items := by
  cases items with
  | nil => rfl
  | cons item rest =>
    have head := refine_congr item fun value member => same value (List.mem_append_left _ member)
    have tail := refineAll_congr rest fun value member => same value (List.mem_append_right _ member)
    rw [refineAll, refineAll, head, tail]

end

mutual

/-- Changes that run alike at the places run alike on the document. -/
theorem edit_alike {change other : Json → Outcome PatchError Json} (focus : Focus)
    (same : ∀ value ∈ focus.targets, (change value).Alike (other value)) :
    (focus.edit change).Alike (focus.edit other) := by
  cases focus with
  | target value => exact same value (by simp [targets])
  | plain value => exact .refl _
  | member fields key inner => exact (edit_alike inner same).map _
  | elements items => exact (editAll_alike items same).map _

theorem editAll_alike {change other : Json → Outcome PatchError Json} (items : List Focus)
    (same : ∀ value ∈ targetsOf items, (change value).Alike (other value)) :
    (editAll change items).Alike (editAll other items) := by
  cases items with
  | nil => exact .refl _
  | cons item rest =>
    have head := edit_alike item fun value member => same value (List.mem_append_left _ member)
    have tail := editAll_alike rest fun value member => same value (List.mem_append_right _ member)
    rw [editAll, editAll]
    rcases head.ends with ⟨changed, first, second⟩ | ⟨changed, _, _, first, second, variant⟩
    · rw [first, second]
      exact tail.map (changed :: ·)
    · rw [first, second]
      exact .stopped _ variant

end

/-- Conditions that agree on unambiguous values select the same of one. -/
theorem select_congr {condition other : Json → Bool}
    (same : ∀ value, value.Unambiguous → condition value = other value) {value : Json}
    (clear : value.Unambiguous) : select condition value = select other value := by
  have alone (value : Json) (clear : value.Unambiguous) :
      selectIf condition value = selectIf other value := by
    rw [selectIf, selectIf, same value clear]
  cases value with
  | array items =>
    have each : items.map (selectIf condition) = items.map (selectIf other) :=
      List.map_congr_left fun item member => alone item ((Json.unambiguous_array items).mp clear item member)
    rw [select, select, each]
  | _ => exact alone _ clear

theorem enter_congr {segment other : Segment} (alike : segment.Alike other) (create : Bool)
    (definition : Attribute) {focus : Focus} (clear : focus.Clear) :
    focus.enter create segment definition = focus.enter create other definition := by
  have reached := clear_refine clear
    (clear_descend segment.name (create && definition.isComplex && !definition.multiValued))
  obtain ⟨name, filter⟩ := segment
  obtain ⟨_, otherFilter⟩ := other
  obtain ⟨rfl, filters⟩ := alike
  cases filters with
  | none => rfl
  | some same =>
    refine refine_congr _ fun value member => select_congr ?_ (reached value member)
    exact fun value clear => Filter.holds_congr _ same clear

/-- The path is named in an obstacle and counts for nothing else. -/
theorem obstacle?_variant (path other : String) (value : Json) :
    (obstacle? path value).map PatchError.ctorIdx = (obstacle? other value).map PatchError.ctorIdx := by
  cases value with
  | array items =>
    rw [obstacle?, obstacle?]
    split <;> rfl
  | _ => rfl

/-- Segments that differ within filters, with their definitions, lead to the same places, or stop
at the same obstacle. -/
theorem follow_alike (create : Bool) (path other : String)
    {segments others : List (Segment × Attribute)}
    (pairs : List.Forall₂ (fun first second => first.1.Alike second.1 ∧ first.2 = second.2)
      segments others) {focus : Focus} (clear : focus.Clear) :
    (focus.follow create path segments).Alike (focus.follow create other others) := by
  induction pairs generalizing focus with
  | nil => exact .refl _
  | @cons first second _ _ head rest ih =>
    obtain ⟨segment, definition⟩ := first
    obtain ⟨otherSegment, otherDefinition⟩ := second
    obtain ⟨alike, rfl⟩ : segment.Alike otherSegment ∧ definition = otherDefinition := head
    have entered := clear_enter clear create otherSegment definition
    rw [follow_cons, follow_cons, enter_congr alike create definition clear]
    cases rest with
    | nil => exact .refl _
    | cons =>
      generalize focus.enter create otherSegment definition = reached at entered
      have obstacles : (reached.targets.findSome? (obstacle? path)).map PatchError.ctorIdx =
          (reached.targets.findSome? (obstacle? other)).map PatchError.ctorIdx := by
        rw [List.map_findSome?, List.map_findSome?]
        exact congrArg (List.findSome? · reached.targets) (funext (obstacle?_variant path other))
      rw [pursue, pursue]
      cases blocked : reached.targets.findSome? (obstacle? path) with
      | none =>
        rw [blocked, Option.map_none, eq_comm, Option.map_eq_none_iff] at obstacles
        rw [obstacles]
        exact ih (clear_refine entered (clear_select _))
      | some error =>
        rw [blocked, Option.map_some, eq_comm, Option.map_eq_some_iff] at obstacles
        obtain ⟨otherError, otherBlocked, variant⟩ := obstacles
        rw [otherBlocked]
        exact .stopped _ variant.symm

end Focus

theorem Segment.forall₂_zip {segments others : List Segment}
    (alike : List.Forall₂ Segment.Alike segments others) (chain : List Attribute) :
    List.Forall₂ (fun first second => first.1.Alike second.1 ∧ first.2 = second.2)
      (segments.zip chain) (others.zip chain) := by
  induction alike generalizing chain with
  | nil => exact .nil
  | cons first _ ih =>
    cases chain with
    | nil => exact .nil
    | cons definition more => exact .cons ⟨first, rfl⟩ (ih more)

/-- Changes of objects that agree on unambiguous ones run alike, whatever path their errors
name. -/
theorem changeObjects_alike (path other : String) {change changeOther : Fields → Fields}
    (same : ∀ fields : Fields, (Json.object fields).Unambiguous → change fields = changeOther fields)
    {value : Json} (clear : value.Unambiguous) :
    (changeObjects path change value).Alike (changeObjects other changeOther value) := by
  cases value with
  | object fields =>
    rw [changeObjects, changeObjects, same fields clear]
    exact .refl _
  | array items =>
    refine (Outcome.each_alike fun item member => ?_).map _
    cases item with
    | object fields =>
      rw [changeElement, changeElement, same fields ((Json.unambiguous_array items).mp clear _ member)]
      exact .refl _
    | null => exact .refl _
    | _ => exact .stopped _ rfl
  | _ => exact .stopped _ rfl

theorem addAt_alike (path other name : String) (definition : Attribute) (value : Json) {place : Json}
    (clear : place.Unambiguous) :
    (addAt path name definition value place).Alike (addAt other name definition value place) := by
  cases place with
  | object fields => exact .refl _
  | _ =>
    simp only [addAt]
    exact changeObjects_alike path other (fun _ _ => rfl) clear

theorem Fields.removeField_congr {fields : Fields} (clear : (Json.object fields).Unambiguous)
    (name : String) {filter other : Option Filter}
    (alike : Option.Rel (fun first second => first.lowered = second.lowered) filter other)
    (scope : Scope) :
    fields.removeField name filter scope = fields.removeField name other scope := by
  cases alike with
  | none => rfl
  | @some filter other same =>
    unfold removeField
    cases fields.key? name with
    | none => rfl
    | some key =>
      have elements := unambiguous_ofField clear key
      dsimp only
      unfold removeElements
      cases held : fields.get? key with
      | none => rfl
      | some value =>
        have kept : (MultiValued.ofField (some value)).filter (.not filter) scope =
            (MultiValued.ofField (some value)).filter (.not other) scope := by
          refine congrArg MultiValued.mk (List.filter_congr fun item member => ?_)
          rw [Filter.holds, Filter.holds,
            Filter.holds_congr scope same (elements item (held ▸ member))]
        cases value with
        | null => rfl
        | _ => simp only [kept]

namespace Resource

variable {type : ResourceType} {path other : Path} {resource : Resource}

theorem containers_alike (type : ResourceType) (create : Bool) (alike : path.Alike other)
    (clear : resource.document.Unambiguous) :
    (resource.containers type create path).Alike (resource.containers type create other) := by
  have home := clear_home type create other.schema clear
  unfold containers
  dsimp only
  rw [alike.schema, alike.isRoot, ResourceType.lookup_congr type alike.schema alike.names]
  split
  · exact .refl _
  · split
    · exact Focus.follow_alike create _ _ (Segment.forall₂_zip alike.segments _) home
    · exact .stopped _ rfl

theorem changeContainers_alike (create : Bool) (alike : path.Alike other)
    {change changeOther : Segment → Json → Outcome PatchError Json}
    (same : ∀ {last lastOther : Segment}, last.Alike lastOther → ∀ value, value.Unambiguous →
      (change last value).Alike (changeOther lastOther value))
    (clear : resource.document.Unambiguous) :
    (resource.changeContainers type create path change).Alike
      (resource.changeContainers type create other changeOther) := by
  unfold changeContainers
  rcases alike.split? with ⟨whole, wholeOther⟩ | ⟨base, last, baseOther, lastOther, parts, partsOther,
    bases, lasts⟩
  · rw [whole, wholeOther]
    exact .stopped _ rfl
  · rw [parts, partsOther]
    have places := clear_containers type create base clear
    dsimp only
    rcases (containers_alike type create bases clear).ends with ⟨focus, first, second⟩ |
      ⟨focus, _, _, first, second, variant⟩
    · rw [first] at places
      rw [first, second]
      exact (focus.edit_alike fun value member => same lasts value (places value member)).map _
    · rw [first, second]
      exact .stopped _ variant

theorem add_alike (alike : path.Alike other) (definition : Attribute) (value : Json)
    (clear : resource.document.Unambiguous) :
    (resource.add type path definition value).Alike (resource.add type other definition value) := by
  refine changeContainers_alike true alike ?_ clear
  intro last lastOther same place placeClear
  rw [same.name]
  exact addAt_alike _ _ _ definition value placeClear

theorem replace_alike (alike : path.Alike other) (value : Json)
    (clear : resource.document.Unambiguous) :
    (resource.replace type path value).Alike (resource.replace type other value) := by
  refine changeContainers_alike true alike ?_ clear
  intro last lastOther same place placeClear
  rw [same.name]
  exact changeObjects_alike _ _ (fun _ _ => rfl) placeClear

theorem remove_alike (alike : path.Alike other) (definition : Attribute)
    (clear : resource.document.Unambiguous) :
    (resource.remove type path definition).Alike (resource.remove type other definition) := by
  refine changeContainers_alike false alike ?_ clear
  intro last lastOther same place placeClear
  refine changeObjects_alike _ _ (fun fields fieldsClear => ?_) placeClear
  rw [same.name]
  refine Fields.removeField_congr fieldsClear _ ?_ _
  split
  · exact same.filter
  · exact .none

end Resource
end Scim
