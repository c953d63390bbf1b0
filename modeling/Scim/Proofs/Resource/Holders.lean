import Scim.Proofs.Resource.Keys
import Scim.Proofs.Resource.Writing

/-! The objects that hold an attribute, and changes of nothing else. Where nothing is created on the
way to them, a document whose holders are left as they are is left as it is. -/
namespace Scim

def Json.objects : Json → List Fields
  | .object fields => [fields]
  | .array items => items.filterMap fun item =>
    match item with
    | .object fields => some fields
    | _ => none
  | _ => []

/-- The objects that may hold the attribute which comes after `base`. -/
def Resource.holders (type : ResourceType) (base : Path) (resource : Resource) : List Fields :=
  (resource.containers type false base).value.targets.flatMap Json.objects

namespace Focus

/-- Changes that give back what they are given leave the document. -/
theorem traverse_eq_document {change : Json → Option Json} {focus : Focus} {result : Json}
    (kept : ∀ value ∈ focus.targets, ∀ changed, change value = some changed → changed = value)
    (traversed : focus.traverse change = some result) : result = focus.document := by
  rw [eq_rewrite_of_traverse kept traversed, rewrite, document_refine fun _ => rfl]

theorem document_selectIf (condition : Json → Bool) (value : Json) :
    (selectIf condition value).document = value := by
  rw [selectIf]
  split <;> rfl

theorem document_select (condition : Json → Bool) (value : Json) :
    (select condition value).document = value := by
  cases value with
  | array items =>
    have each : documents (items.map (selectIf condition)) = items := by
      induction items with
      | nil => rfl
      | cons item rest ih => rw [List.map_cons, documents, document_selectIf, ih]
    rw [select, document, each]
  | _ => exact document_selectIf condition _

theorem document_descend (name : String) (value : Json) :
    (descend name false value).document = value := by
  cases value with
  | object fields =>
    rw [descend]
    cases slot : Fields.slot? fields name false with
    | none => rfl
    | some value =>
      have held : Fields.get? fields (Fields.keyFor fields name) = some value := by
        rwa [Fields.slot?_keep, ← Fields.get?_keyFor] at slot
      exact congrArg Json.object (Fields.set_self held)
  | _ => rfl

theorem document_enter (focus : Focus) (segment : Segment) (definition : Attribute) :
    (focus.enter false segment definition).document = focus.document := by
  simp only [enter, Bool.false_and]
  cases segment.filter with
  | none => exact document_refine (document_descend segment.name) focus
  | some filter =>
    rw [document_refine (document_select _), document_refine (document_descend segment.name)]

theorem document_follow (focus : Focus) (path : String) (segments : List (Segment × Attribute)) :
    (focus.follow false path segments).value.document = focus.document := by
  induction segments generalizing focus with
  | nil => rfl
  | cons first more ih =>
    obtain ⟨segment, definition⟩ := first
    have entered := document_enter focus segment definition
    rw [follow_cons]
    cases more with
    | nil => exact (document_refine (document_selectIf _) _).trans entered
    | cons next more =>
      rw [pursue]
      split
      · exact entered
      · rw [ih, parents, document_refine (document_select _), entered]

end Focus

namespace Resource

theorem document_home (type : ResourceType) (urn : Option String) (resource : Resource) :
    (resource.home type false urn).value.document = resource.document := by
  unfold home
  split
  · rfl
  next schema _ =>
    split
    next inner slot =>
      rw [Fields.slot?_keep, ← Fields.get?_keyFor] at slot
      exact congrArg Json.object (Fields.set_self slot)
    · rfl
    · rfl
    · rfl

/-- The way to the containers leaves no trace where nothing is created. -/
theorem document_containers (type : ResourceType) (base : Path) (resource : Resource) :
    (resource.containers type false base).value.document = resource.document := by
  have home := document_home type base.schema resource
  unfold containers
  dsimp only
  split
  · exact home
  · split
    · exact (Focus.document_follow ..).trans home
    · exact home

end Resource

theorem mapM_congr {α β : Type} {f g : α → Option β} {items : List α}
    (same : ∀ item ∈ items, f item = g item) : items.mapM f = items.mapM g := by
  induction items with
  | nil => rfl
  | cons item rest ih =>
    obtain ⟨here, later⟩ := List.forall_mem_cons.mp same
    rw [List.mapM_cons, List.mapM_cons, here, ih later]

theorem Json.mem_objects {fields : Fields} {items : List Json} (member : .object fields ∈ items) :
    fields ∈ (Json.array items).objects :=
  List.mem_filterMap.mpr ⟨.object fields, member, rfl⟩

section

variable {change other : Fields → Fields} {container : Json}

/-- Only what a change does with the objects of a container counts; faults aside. -/
theorem done?_changeObjects_congr (path text : String)
    (same : ∀ fields ∈ container.objects, change fields = other fields) :
    (changeObjects path change container).done? = (changeObjects text other container).done? := by
  cases container with
  | object fields =>
    rw [changeObjects, changeObjects, same fields (List.mem_singleton_self fields)]
  | array items =>
    have each : items.mapM (Json.throughItem fun fields => some (change fields)) =
        items.mapM (Json.throughItem fun fields => some (other fields)) := by
      apply mapM_congr
      intro item member
      cases item with
      | object fields => rw [Json.throughItem, Json.throughItem, same fields (Json.mem_objects member)]
      | _ => rfl
    rw [done?_changeObjects _ _ _ Json.noConfusion, done?_changeObjects _ _ _ Json.noConfusion,
      Json.through, Json.through, each]
  | _ => rfl

/-- A container whose objects are left as they are is left as it is. -/
theorem eq_of_done?_changeObjects {path : String} {result : Json}
    (kept : ∀ fields ∈ container.objects, change fields = fields)
    (done : (changeObjects path change container).done? = some result) : result = container := by
  rw [eq_mapObjects_of_done? done]
  cases container with
  | object fields => exact congrArg Json.object (kept fields (List.mem_singleton_self fields))
  | array items =>
    have each : ∀ item ∈ items, item.mapObject change = item := by
      intro item member
      cases item with
      | object fields => exact congrArg Json.object (kept fields (Json.mem_objects member))
      | _ => rfl
    rw [Json.mapObjects, List.map_congr_left each, List.map_id']
  | _ => rfl

end

namespace Resource

variable {type : ResourceType} {path base : Path} {last : Segment} {resource : Resource}

theorem mem_holders {places : Focus} {value : Json} {fields : Fields}
    (reached : (resource.containers type false base).done? = some places)
    (member : value ∈ places.targets) (among : fields ∈ value.objects) :
    fields ∈ resource.holders type base := by
  rw [Outcome.done?_eq_some_iff] at reached
  rw [holders, reached]
  exact List.mem_flatMap.mpr ⟨value, member, among⟩

/-- Changes that agree on the holders of an attribute change a resource alike; faults aside. -/
theorem done?_changeContainers_congr {other : Path} {lastOther : Segment}
    (split : path.split? = some (base, last)) (splitOther : other.split? = some (base, lastOther))
    (text textOther : String) {change changeOther : Segment → Fields → Fields}
    (same : ∀ fields ∈ resource.holders type base, change last fields = changeOther lastOther fields) :
    (resource.changeContainers type false path fun last => changeObjects text (change last)).done? =
      (resource.changeContainers type false other fun last =>
        changeObjects textOther (changeOther last)).done? := by
  rw [done?_changeContainers _ _ _ _ _ split, done?_changeContainers _ _ _ _ _ splitOther]
  cases reached : (resource.containers type false base).done? with
  | none => rfl
  | some places =>
    have agree := Focus.traverse_congr places fun value member =>
      done?_changeObjects_congr text textOther fun fields among =>
        same fields (mem_holders reached member among)
    rw [Option.bind_some, Option.bind_some, agree]

/-- Where the holders of an attribute are left as they are, the resource is. -/
theorem eq_of_changeContainers (split : path.split? = some (base, last)) {text : String}
    {change : Segment → Fields → Fields} {result : Resource}
    (kept : ∀ fields ∈ resource.holders type base, change last fields = fields)
    (done : (resource.changeContainers type false path fun last =>
      changeObjects text (change last)) = .done result) : result = resource := by
  rw [← Outcome.done?_eq_some_iff, done?_changeContainers _ _ _ _ _ split] at done
  obtain ⟨document, traversed, rfl⟩ := Option.map_eq_some_iff.mp done
  obtain ⟨places, reached, traversed⟩ := Option.bind_eq_some_iff.mp traversed
  have same := Focus.traverse_eq_document (fun value member changed went =>
    eq_of_done?_changeObjects (fun fields among => kept fields (mem_holders reached member among))
      went) traversed
  have whole := document_containers type base resource
  rw [(Outcome.done?_eq_some_iff _ _).mp reached] at whole
  rw [same]
  exact congrArg ofDocument whole

end Resource
end Scim
