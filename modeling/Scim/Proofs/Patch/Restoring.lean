import Scim.Proofs.Patch.Narrowing
import Scim.Proofs.Resource.Composition
import Scim.Proofs.Resource.Holders

/-! Additions undone. Where no object held the attribute, the removal at the same path takes away
what was added, and nothing is left but the objects that were created on the way. -/
namespace Scim

namespace Fields

variable {fields : Fields} {name : String}

/-- A field that was not there comes last, and leaves no trace when it is removed. -/
theorem removeField_setField (absent : fields.key? name = none) (value : Json) (scope : Scope) :
    (fields.setField name value).removeField name none scope = fields := by
  have fresh : fields.keyFor name ∉ fields.keys := by
    rw [keyFor, absent]
    exact key?_eq_none absent
  simp only [setField, removeField, key?_set_keyFor]
  rw [erase_set, erase_of_not_mem fresh]

theorem removeField_addField (absent : fields.key? name = none) (definition : Attribute)
    (value : Json) (scope : Scope) :
    (fields.addField name definition value).removeField name none scope = fields := by
  rw [addField]
  split <;> exact removeField_setField absent _ scope

end Fields

namespace Resource

variable {last : Segment} {place changed : Json}

/-- What was added to the objects of a container is removed from them. -/
theorem containerChange_undone (path : Path) (definition : Attribute) (value other : Json)
    (plain : last.filter = none) (absent : ∀ fields ∈ place.objects, fields.key? last.name = none)
    (ran : (containerChange .add path definition value last place).done? = some changed) :
    (containerChange .remove path definition other last changed).done? = some place := by
  cases place with
  | object fields =>
    rw [done?_containerChange _ _ _ _ _ _ Json.noConfusion] at ran
    cases ran
    have undone := Fields.removeField_addField (absent fields (List.mem_singleton_self fields))
      definition value (.element definition)
    rw [done?_containerChange _ _ _ _ _ _ Json.noConfusion]
    simp only [OpKind.holderEdit, Json.through, plain, ite_self, undone, Option.map_some]
  | array items =>
    rw [done?_containerChange _ _ _ _ _ _ Json.noConfusion] at ran
    obtain ⟨results, mapped, rfl⟩ := Option.map_eq_some_iff.mp ran
    have undone : Composes (fun item => item ∈ items)
        (Json.throughItem fun fields => some (fields.setField last.name value))
        (Json.throughItem fun fields =>
          some (fields.removeField last.name none (.element definition))) some := by
      intro item middle member went
      cases item with
      | object fields =>
        cases went
        have held := absent fields (Json.mem_objects member)
        simp only [Json.throughItem, Fields.removeField_setField held, Option.map_some]
      | null =>
        cases went
        rfl
      | _ => cases went
    have restored := undone.mapM (fun _ member => member) mapped
    rw [done?_containerChange _ _ _ _ _ _ Json.noConfusion]
    simp only [OpKind.holderEdit, Json.through, plain, ite_self, restored]
    exact congrArg (Option.map Json.array) (List.mapM_pure.trans (congrArg some (List.map_id' items)))
  | _ => cases ran

theorem traverse_undone (path : Path) (definition : Attribute) (value other : Json)
    (plain : last.filter = none) {places : Focus} {document : Json}
    (absent : ∀ fields ∈ places.targets.flatMap Json.objects,
      ∀ key ∈ fields.keys, ¬ Caseless key last.name)
    (added : (places.traverse fun place =>
      (containerChange .add path definition value last place).done?) = some document) :
    (places.traverse fun place => (containerChange .add path definition value last place).done?.bind
      fun place => (containerChange .remove path definition other last place).done?) =
        some places.document := by
  rw [← Focus.traverse_some]
  apply Focus.traverse_congr
  intro place member
  obtain ⟨changed, went⟩ := Focus.exists_changed added member
  rw [went, Option.bind_some]
  refine containerChange_undone path definition value other plain (fun fields among => ?_) went
  rw [Fields.key?_eq_none_iff]
  exact absent fields (List.mem_flatMap.mpr ⟨place, member, among⟩)

end Resource

namespace Patch

variable {patch : Patch} {type : ResourceType} {written base : Path} {found : Resolution}
  {definition : Attribute} {last : Segment} {resource middle : Resource}

/-- **A removal undoes an addition.** If none of the objects that the path leads to holds the
attribute, in any case, and an addition succeeds, the removal at the same path succeeds and leaves
what the way to these objects had left: the resource itself, if nothing was created on it. -/
theorem apply_remove_added (distinct : type.Distinct)
    (addressed : patch.Addresses type .add written found)
    (plain : ∀ segment ∈ written.segments, segment.filter = none)
    (split : (type.respell found written).split? = some (base, last))
    (absent : ∀ fields ∈ (resource.containers type true base).value.targets.flatMap Json.objects,
      ∀ key ∈ fields.keys, ¬ Caseless key last.name)
    {options : PatchOptions} (done : patch.apply type options resource = .done middle)
    (others : PatchOptions) :
    (remove patch.path).apply type others middle =
        .done (.ofDocument (resource.containers type true base).value.document) ∧
      (resource.containers type true base = resource.containers type false base →
        (remove patch.path).apply type others middle = .done resource) := by
  obtain ⟨definition, target⟩ := ResourceType.exists_target addressed.resolved
  have kept (wanted : Bool) := removeByValueIf_of_kind addressed.known OpKind.noConfusion wanted
    (type.respell found written) definition
  obtain ⟨value, prepared⟩ := exists_prepared ((addressed.apply_of_kept target (kept _) _).symm.trans done)
  obtain ⟨_, _, parts, segments, _, leads⟩ := ResourceType.split_respell distinct addressed.resolved
  cases split.symm.trans parts
  have unfiltered : ∀ segment ∈ (type.respell found written).segments, segment.filter = none :=
    ResourceType.unfiltered_respell plain
  rw [segments, List.forall_mem_append, List.forall_mem_singleton] at unfiltered
  -- the places that the addition has changed
  have ran := congrArg Outcome.done? done
  rw [addressed.done?_apply target (kept _) prepared split (Eq.refl true)] at ran
  obtain ⟨document, added, rfl⟩ := Option.map_eq_some_iff.mp ran
  obtain ⟨places, reached, traversed⟩ := Option.bind_eq_some_iff.mp added
  have whole := (Outcome.done?_eq_some_iff _ _).mp reached
  rw [whole] at absent
  -- the removal, which creates nothing, finds them again
  have again := Resource.containers_again type leads unfiltered.1
    (fun creates : false = true => Bool.noConfusion creates)
    (Resource.keepsShape_containerChange .add (type.respell found written) definition value last)
    (Resource.keepsShape_containerChange .remove (type.respell found written) definition .null last)
    added
  rw [reached, Option.bind_some] at again
  have undone := again.trans (Resource.traverse_undone _ definition value .null unfiltered.2 absent
    traversed)
  have restored : (remove patch.path).apply type others (.ofDocument document) =
      .done (.ofDocument places.document) := by
    have removal : (remove patch.path).Addresses type .remove written found :=
      addressed.toLeadsTo.addresses rfl (OpKind.ofWord?_word .remove)
    rw [← Outcome.done?_eq_some_iff, removal.done?_apply target (removeByValueIf_remove ..)
      (.inl rfl) split (Eq.refl false)]
    exact congrArg (Option.map Resource.ofDocument) undone
  rw [whole]
  refine ⟨restored, fun same => ?_⟩
  have kept := Resource.document_containers type base resource
  rw [← same] at kept
  rw [restored]
  exact congrArg (fun document => Outcome.done (Resource.ofDocument document)) kept

def addLabel : Patch := ⟨"add", "Emails.labels", some (.string "new")⟩

theorem addLabel_addresses :
    addLabel.Addresses staffType .add ⟨none, [⟨"Emails", none⟩, ⟨"labels", none⟩]⟩
      ⟨[{ name := "emails", type := .complex, multiValued := true, subAttributes := [
        { name := "type" }, { name := "labels", multiValued := true }] },
        { name := "labels", multiValued := true }], .core⟩ where
  known := by decide
  nonempty := by decide
  parsed := by decide +kernel
  resolved := rfl

def unlabelledMails : Resource :=
  ⟨[("emails", .array [.object [("type", .string "work")], .null, .object []])]⟩

theorem addLabel_removed :
    addLabel.apply staffType {} unlabelledMails = .done ⟨[("emails", .array [
      .object [("type", .string "work"), ("labels", .string "new")], .null,
      .object [("labels", .string "new")]])]⟩ ∧
    (remove addLabel.path).apply staffType {} ⟨[("emails", .array [
      .object [("type", .string "work"), ("labels", .string "new")], .null,
      .object [("labels", .string "new")]])]⟩ = .done unlabelledMails := by
  have done : addLabel.apply staffType {} unlabelledMails = .done ⟨[("emails", .array [
      .object [("type", .string "work"), ("labels", .string "new")], .null,
      .object [("labels", .string "new")]])]⟩ :=
    (addLabel_addresses.apply_of_kept rfl
      (removeByValueIf_of_kind addLabel_addresses.known OpKind.noConfusion ..) _).trans rfl
  have absent : ∀ fields ∈ (unlabelledMails.containers staffType true
      ⟨none, [⟨"emails", none⟩]⟩).value.targets.flatMap Json.objects,
        ∀ key ∈ fields.keys, ¬ Caseless key "labels" := by decide
  have removed := apply_remove_added staffType_distinct addLabel_addresses (by decide) rfl absent done {}
  exact ⟨done, removed.2 rfl⟩

end Patch
end Scim
