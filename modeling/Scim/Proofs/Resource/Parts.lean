import Scim.Patch.Apply
import Scim.Proofs.Json.Unambiguous
import Scim.Proofs.Resource.Locality

/-! What navigation reaches in an unambiguous resource is unambiguous itself, so two changes that
agree on unambiguous values change such a resource alike. -/
namespace Scim

theorem Outcome.each_congr {ε α : Type} {change other : α → Outcome ε α} {items : List α}
    (same : ∀ item ∈ items, change item = other item) : each change items = each other items := by
  induction items with
  | nil => rfl
  | cons item rest ih =>
    have tail := ih fun later member => same later (List.mem_cons_of_mem _ member)
    rw [each, each, same item List.mem_cons_self, tail]

namespace Focus

mutual

theorem edit_congr {ε : Type} {change other : Json → Outcome ε Json} (focus : Focus)
    (same : ∀ value ∈ focus.targets, change value = other value) :
    focus.edit change = focus.edit other := by
  cases focus with
  | target value => exact same value (by simp [targets])
  | plain value => rfl
  | member fields key inner => rw [edit, edit, edit_congr inner same]
  | elements items => rw [edit, edit, editAll_congr items same]

theorem editAll_congr {ε : Type} {change other : Json → Outcome ε Json} (items : List Focus)
    (same : ∀ value ∈ targetsOf items, change value = other value) :
    editAll change items = editAll other items := by
  cases items with
  | nil => rfl
  | cons item rest =>
    have head := edit_congr item fun value member => same value (List.mem_append_left _ member)
    have tail := editAll_congr rest fun value member => same value (List.mem_append_right _ member)
    rw [editAll, editAll, head, tail]

end

def Clear (focus : Focus) : Prop := ∀ value ∈ focus.targets, value.Unambiguous

theorem clear_target {value : Json} (clear : value.Unambiguous) : (target value).Clear := by
  intro other member
  rw [List.mem_singleton.mp member]
  exact clear

theorem clear_plain (value : Json) : (plain value).Clear := by
  intro other member
  cases member

theorem clear_refine {f : Json → Focus} {focus : Focus} (clear : focus.Clear)
    (kept : ∀ value, value.Unambiguous → (f value).Clear) : (focus.refine f).Clear := by
  intro part member
  rw [targets_refine] at member
  obtain ⟨value, among, within⟩ := List.mem_flatMap.mp member
  exact kept value (clear value among) part within

theorem clear_selectIf (condition : Json → Bool) {value : Json} (clear : value.Unambiguous) :
    (selectIf condition value).Clear := by
  simp only [selectIf]
  split
  · exact clear_target clear
  · exact clear_plain value

theorem clear_elements {items : List Focus} (clear : ∀ item ∈ items, item.Clear) :
    (elements items).Clear := by
  intro value member
  induction items with
  | nil => cases member
  | cons item rest ih =>
    rcases List.mem_append.mp member with first | later
    · exact clear item List.mem_cons_self value first
    · exact ih (fun other among => clear other (List.mem_cons_of_mem _ among)) later

theorem clear_select (condition : Json → Bool) (value : Json) (clear : value.Unambiguous) :
    (select condition value).Clear := by
  cases value with
  | array items =>
    apply clear_elements
    intro item member
    obtain ⟨original, among, rfl⟩ := List.mem_map.mp member
    exact clear_selectIf condition ((Json.unambiguous_array items).mp clear original among)
  | _ => exact clear_selectIf condition clear

theorem clear_descend (name : String) (create : Bool) (value : Json) (clear : value.Unambiguous) :
    (descend name create value).Clear := by
  cases value with
  | object fields =>
    rw [descend, Fields.slot?_eq_entrySlot]
    cases slot : entrySlot (Fields.find? fields name) create with
    | none => exact clear_plain _
    | some inner =>
      apply clear_target
      unfold entrySlot at slot
      split at slot
      · cases slot
        simp [Fields.Distinct, Fields.keys]
      · cases slot
        simp [Fields.Distinct, Fields.keys]
      · exact clear.of_find? slot
  | _ => exact clear_plain _

theorem clear_enter {focus : Focus} (clear : focus.Clear) (create : Bool) (segment : Segment)
    (definition : Attribute) : (focus.enter create segment definition).Clear := by
  have reached := clear_refine clear
    (clear_descend segment.name (create && definition.isComplex && !definition.multiValued))
  simp only [enter]
  cases segment.filter with
  | none => exact reached
  | some filter => exact clear_refine reached (clear_select _)

theorem clear_follow {focus : Focus} (clear : focus.Clear) (create : Bool) (path : String)
    (segments : List (Segment × Attribute)) :
    (focus.follow create path segments).value.Clear := by
  induction segments generalizing focus with
  | nil => exact clear
  | cons first more ih =>
    obtain ⟨segment, definition⟩ := first
    have entered := clear_enter clear create segment definition
    rw [follow_cons]
    cases more with
    | nil => exact clear_refine entered fun value among => clear_selectIf _ among
    | cons next more =>
      rw [pursue]
      split
      · exact entered
      · exact ih (clear_refine entered (clear_select _))

end Focus

namespace Resource

theorem clear_home (type : ResourceType) (create : Bool) (urn : Option String)
    {resource : Resource} (clear : resource.document.Unambiguous) :
    (resource.home type create urn).value.Clear := by
  simp only [home]
  split
  · exact Focus.clear_target clear
  next schema _ =>
    have inner := Focus.clear_descend schema.id create _ clear
    simp only [Focus.descend, document] at inner
    split
    next fields slot =>
      rw [slot] at inner
      exact inner
    · exact Focus.clear_plain _
    · exact Focus.clear_plain _
    · exact Focus.clear_plain _

theorem clear_containers (type : ResourceType) (create : Bool) (base : Path)
    {resource : Resource} (clear : resource.document.Unambiguous) :
    (resource.containers type create base).value.Clear := by
  have home := clear_home type create base.schema clear
  unfold containers
  dsimp only
  split
  · exact home
  · split
    · exact Focus.clear_follow home create base.render _
    · exact home

/-- Changes that agree on the containers change them alike. -/
theorem changeContainers_congr_places {type : ResourceType} {create : Bool} {path other base : Path}
    {last lastOther : Segment} (split : path.split? = some (base, last))
    (splitOther : other.split? = some (base, lastOther))
    {change changeOther : Segment → Json → Outcome PatchError Json} {resource : Resource}
    (same : ∀ place ∈ (resource.containers type create base).value.targets,
      change last place = changeOther lastOther place) :
    resource.changeContainers type create path change =
      resource.changeContainers type create other changeOther := by
  simp only [changeContainers, split, splitOther]
  rw [Focus.edit_congr _ same]

/-- Changes that agree on unambiguous values change the same containers alike. -/
theorem changeContainers_congr (type : ResourceType) (create : Bool) {path other base : Path}
    {last lastOther : Segment} (split : path.split? = some (base, last))
    (splitOther : other.split? = some (base, lastOther))
    {change changeOther : Segment → Json → Outcome PatchError Json}
    (same : ∀ value, value.Unambiguous → change last value = changeOther lastOther value)
    {resource : Resource} (clear : resource.document.Unambiguous) :
    resource.changeContainers type create path change =
      resource.changeContainers type create other changeOther :=
  changeContainers_congr_places split splitOther fun place member =>
    same place (clear_containers type create base clear place member)

end Resource

theorem changeObjects_congr (path : String) {change other : Fields → Fields}
    (same : ∀ fields : Fields, (Json.object fields).Unambiguous → change fields = other fields)
    (value : Json) (clear : value.Unambiguous) :
    changeObjects path change value = changeObjects path other value := by
  cases value with
  | object fields => rw [changeObjects, changeObjects, same fields clear]
  | array items =>
    have each : Outcome.each (changeElement path change) items =
        Outcome.each (changeElement path other) items := by
      apply Outcome.each_congr
      intro item member
      cases item with
      | object fields =>
        rw [changeElement, changeElement,
          same fields ((Json.unambiguous_array items).mp clear _ member)]
      | _ => rfl
    rw [changeObjects, changeObjects, each]
  | _ => rfl

end Scim
