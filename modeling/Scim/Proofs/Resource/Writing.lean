import Scim.Proofs.Resource.Descent

/-! What a change leaves that comes to the end: the document with another value at each place. -/
namespace Scim

namespace Json

def mapObject (change : Fields → Fields) : Json → Json
  | .object fields => .object (change fields)
  | value => value

def mapObjects (change : Fields → Fields) : Json → Json
  | .array items => .array (items.map (mapObject change))
  | value => value.mapObject change

end Json

theorem eq_map_of_mapM {α β : Type} {f : α → Option β} {g : α → β} {items : List α}
    {results : List β} (each : ∀ item ∈ items, ∀ result, f item = some result → result = g item)
    (mapped : items.mapM f = some results) : results = items.map g := by
  induction items generalizing results with
  | nil => exact (Option.some.inj mapped).symm
  | cons item rest ih =>
    obtain ⟨here, later⟩ := List.forall_mem_cons.mp each
    simp only [List.mapM_cons, Option.bind_eq_bind, Option.pure_def, Option.bind_eq_some_iff,
      Option.some.injEq] at mapped
    obtain ⟨head, headMapped, tail, tailMapped, rfl⟩ := mapped
    rw [here head headMapped, ih later tailMapped, List.map_cons]

/-- Nothing but objects is changed. -/
theorem eq_mapObjects_of_done? {path : String} {change : Fields → Fields} {value result : Json}
    (done : (changeObjects path change value).done? = some result) :
    result = value.mapObjects change := by
  cases value with
  | object fields => exact (Option.some.inj done).symm
  | array items =>
    rw [done?_changeObjects _ _ _ Json.noConfusion] at done
    obtain ⟨results, mapped, rfl⟩ := Option.map_eq_some_iff.mp done
    refine congrArg Json.array (eq_map_of_mapM (fun item _ result went => ?_) mapped)
    cases item with
    | object | null => exact (Option.some.inj went).symm
    | _ => cases went
  | _ => cases done

namespace Focus

theorem traverse_some (focus : Focus) : focus.traverse some = some focus.document := by
  have done := congrArg Outcome.done? (focus.edit_done (ε := Unit))
  rwa [done?_edit] at done

def rewrite (f : Json → Json) (focus : Focus) : Json :=
  (focus.refine fun value => .target (f value)).document

theorem traverse_rewrite (f : Json → Json) (focus : Focus) :
    focus.traverse (fun value => some (f value)) = some (focus.rewrite f) := by
  rw [rewrite, ← traverse_some, traverse_refine]
  rfl

/-- What is written at each place tells what becomes of the document. -/
theorem eq_rewrite_of_traverse {change : Json → Option Json} {f : Json → Json} {focus : Focus}
    {document : Json}
    (each : ∀ value ∈ focus.targets, ∀ changed, change value = some changed → changed = f value)
    (traversed : focus.traverse change = some document) : document = focus.rewrite f := by
  have same : focus.traverse change = focus.traverse fun value => some (f value) := by
    apply traverse_congr
    intro value member
    obtain ⟨changed, went⟩ := exists_changed traversed member
    rw [went, each value member changed went]
  rw [same, traverse_rewrite] at traversed
  exact (Option.some.inj traversed).symm

theorem traverse_objects {change : Json → Option Json} {edit : Fields → Fields}
    (edits : ∀ fields : Fields, change (.object fields) = some (.object (edit fields))) {focus : Focus}
    (objects : ∀ place ∈ focus.targets, place.isObject = true) :
    focus.traverse change = some (focus.rewrite (Json.mapObject edit)) := by
  rw [← traverse_rewrite]
  apply traverse_congr
  intro place member
  cases place with
  | object fields => exact edits fields
  | _ => cases objects _ member

end Focus

/-- A patch that comes to the end has changed the containers of its attribute. -/
theorem Patch.Addresses.done?_apply {patch : Patch} {type : ResourceType} {options : PatchOptions}
    {kind : OpKind} {create : Bool} {written base : Path} {found : Resolution}
    {definition : Attribute} {value : Json} {last : Segment}
    (addressed : patch.Addresses type kind written found)
    (target : found.chain.getLast? = some definition)
    (kept : patch.removeByValueIf options.removeByValue (type.respell found written) definition =
      .ok none)
    (prepared : kind = .remove ∨ patch.preparedValue options kind definition = .ok value)
    (split : (type.respell found written).split? = some (base, last))
    (creates : (kind != .remove) = create) (resource : Resource) :
    (patch.apply type options resource).done? =
      ((resource.containers type create base).done?.bind fun places =>
        places.traverse fun place => (Resource.containerChange kind (type.respell found written)
          definition value last place).done?).map Resource.ofDocument := by
  rw [addressed.apply_of_kept target kept, applyResolved_eq _ _ _ _ _ _ _ prepared,
    Resource.done?_changeContainers _ _ _ _ _ split, creates]

end Scim
