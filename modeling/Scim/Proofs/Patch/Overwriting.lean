import Scim.Proofs.Resource.Selection
import Scim.Proofs.Resource.Writing

/-! Additions that overwrite. The field is set, as by a replacement, in the items of an array, and
wherever the attribute has a single value. In an object that stands by itself a multi-valued
attribute is extended instead, also where a filter of the base has chosen this object from an array. -/
namespace Scim

theorem Fields.addField_single {definition : Attribute} (single : definition.multiValued = false)
    (fields : Fields) (name : String) (value : Json) :
    fields.addField name definition value = fields.setField name value := by
  simp [addField, single]

namespace Resource

variable {definition : Attribute} {last : Segment}

theorem done?_containerChange_congr (kind : OpKind) (path text : Path) (definition : Attribute)
    (value : Json) (last : Segment) (place : Json) :
    (containerChange kind path definition value last place).done? =
      (containerChange kind text definition value last place).done? := by
  by_cases null : place = .null
  · subst null
    cases kind <;> rfl
  · rw [done?_containerChange _ _ _ _ _ _ null, done?_containerChange _ _ _ _ _ _ null]

/-- In a container an addition does what a replacement does, unless it extends an object. -/
theorem containerChange_add_eq_replace (path : Path) (value : Json) (last : Segment) {place : Json}
    (overwrites : definition.multiValued = false ∨ place.isObject = false) :
    containerChange .add path definition value last place =
      containerChange .replace path definition value last place := by
  cases place with
  | object fields =>
    have single := overwrites.resolve_right Bool.noConfusion
    simp only [containerChange, addAt, changeObjects, Fields.addField_single single]
  | _ => rfl

/-- The objects of an array are overwritten as objects by themselves, if the attribute has a single
value. -/
theorem spreads_add (single : definition.multiValued = false) (path : Path) (value : Json)
    (last : Segment) :
    Json.Spreads fun place => (containerChange .add path definition value last place).done? := by
  intro items objects
  have each : (items.mapM fun item => (containerChange .add path definition value last item).done?) =
      items.mapM (Json.throughItem fun fields => some (fields.setField last.name value)) := by
    apply mapM_congr
    intro item member
    cases item with
    | object fields =>
      simp only [containerChange, addAt, Fields.addField_single single]
      rfl
    | _ => cases objects _ member
  dsimp only
  rw [each, done?_containerChange _ _ _ _ _ _ Json.noConfusion]
  rfl

end Resource

namespace Patch

variable {patch : Patch} {type : ResourceType} {written base : Path} {found : Resolution}
  {definition : Attribute} {value : Json} {last : Segment} {options : PatchOptions}

theorem Addresses.replacement (addressed : patch.Addresses type .add written found) :
    ({ patch with op := OpKind.replace.word } : Patch).Addresses type .replace written found :=
  addressed.toLeadsTo.addresses rfl (OpKind.ofWord?_word .replace)

theorem preparedValue_replacement (prepared : patch.preparedValue options .add definition = .ok value) :
    ({ patch with op := OpKind.replace.word } : Patch).preparedValue options .replace definition =
      .ok value := by
  unfold preparedValue at prepared ⊢
  cases given : patch.value with
  | none => simp [given] at prepared
  | some payload => simpa only [given] using prepared

theorem Addresses.apply_add_eq_replace (addressed : patch.Addresses type .add written found)
    (target : found.chain.getLast? = some definition)
    (prepared : patch.preparedValue options .add definition = .ok value)
    (split : (type.respell found written).split? = some (base, last)) {resource : Resource}
    (overwrites : definition.multiValued = false ∨
      ∀ place ∈ (resource.containers type true base).value.targets, place.isObject = false) :
    patch.apply type options resource =
      ({ patch with op := OpKind.replace.word } : Patch).apply type options resource := by
  rw [addressed.apply_of_kept target
      (removeByValueIf_of_kind addressed.known OpKind.noConfusion ..),
    addressed.replacement.apply_of_kept target
      (removeByValueIf_of_kind addressed.replacement.known OpKind.noConfusion ..),
    applyResolved_eq _ _ _ _ _ _ value (.inr prepared),
    applyResolved_eq _ _ _ _ _ _ value (.inr (preparedValue_replacement prepared))]
  exact Resource.changeContainers_congr_places split split fun place member =>
    Resource.containerChange_add_eq_replace _ value last
      (overwrites.imp_right fun arrays => arrays place member)

/-- A replacement that succeeds leaves its value in every object that it reaches. -/
theorem Addresses.eq_of_replace (addressed : patch.Addresses type .replace written found)
    (target : found.chain.getLast? = some definition)
    (prepared : patch.preparedValue options .replace definition = .ok value)
    (split : (type.respell found written).split? = some (base, last)) {resource result : Resource}
    (done : patch.apply type options resource = .done result) :
    result = .ofDocument ((resource.containers type true base).value.rewrite
      (Json.mapObjects fun fields => fields.setField last.name value)) := by
  rw [← Outcome.done?_eq_some_iff, addressed.done?_apply target
    (removeByValueIf_of_kind addressed.known OpKind.noConfusion ..) (.inr prepared) split
    (Eq.refl true)] at done
  obtain ⟨document, changed, rfl⟩ := Option.map_eq_some_iff.mp done
  obtain ⟨places, reached, traversed⟩ := Option.bind_eq_some_iff.mp changed
  rw [(Outcome.done?_eq_some_iff _ _).mp reached]
  exact congrArg _ (Focus.eq_rewrite_of_traverse (fun _ _ _ went => eq_mapObjects_of_done? went)
    traversed)

/-- **Additions under chosen elements overwrite, where they do not extend.** If the attribute has a
single value, or the base of the path leads to no object that stands by itself, an addition is the
replacement, and a success leaves the value in every object that is reached. Beside a filter of the
base that holds of everything there, the path without it makes the same change, if the attribute has
a single value or the base goes on behind the filter. -/
theorem apply_add_overwrites (addressed : patch.Addresses type .add written found)
    (target : found.chain.getLast? = some definition)
    (prepared : patch.preparedValue options .add definition = .ok value)
    (split : (type.respell found written).split? = some (base, last)) (resource : Resource) :
    ((definition.multiValued = false ∨
        ∀ place ∈ (resource.containers type true base).value.targets, place.isObject = false) →
      patch.apply type options resource =
        ({ patch with op := OpKind.replace.word } : Patch).apply type options resource ∧
      ∀ result, patch.apply type options resource = .done result →
        result = .ofDocument ((resource.containers type true base).value.rewrite
          (Json.mapObjects fun fields => fields.setField last.name value))) ∧
    ∀ bare ahead name filter step behind,
      resource.SelectsAll type base bare ahead name filter step behind →
      definition.multiValued = false ∨ behind ≠ [] →
      ∀ (other : Patch) (plain : Path), other.Addresses type .add plain found →
        other.preparedValue options .add definition = .ok value →
        (type.respell found plain).split? = some (bare, last) →
        ∀ result, patch.apply type options resource = .done result ↔
          other.apply type options resource = .done result := by
  refine ⟨fun overwrites => ?_, fun bare ahead name filter step behind selects spreads other plain
    addressedOther preparedOther splitOther result => ?_⟩
  · have same := addressed.apply_add_eq_replace target prepared split overwrites
    refine ⟨same, fun result done => ?_⟩
    rw [same] at done
    exact addressed.replacement.eq_of_replace target (preparedValue_replacement prepared) split done
  · have alike := selects.containers_traverse (spreads.symm.imp_right fun single =>
      Resource.spreads_add single (type.respell found written) value last)
    rw [← Outcome.done?_eq_some_iff, ← Outcome.done?_eq_some_iff,
      addressed.done?_apply target (removeByValueIf_of_kind addressed.known OpKind.noConfusion ..)
        (.inr prepared) split (Eq.refl true),
      addressedOther.done?_apply target
        (removeByValueIf_of_kind addressedOther.known OpKind.noConfusion ..) (.inr preparedOther)
        splitOther (Eq.refl true), alike]
    simp only [Resource.done?_containerChange_congr .add (type.respell found written)
      (type.respell found plain)]

def addWorkValue : Patch := { replaceWorkMails with op := "add" }

theorem addWorkValue_addresses :
    addWorkValue.Addresses sampleType .add ⟨none, [⟨"Emails",
        some (.compare ⟨none, [⟨"type", none⟩]⟩ .equal (.string "work"))⟩, ⟨"value", none⟩]⟩
      ⟨[{ name := "emails", type := .complex, multiValued := true, subAttributes := [
        { name := "value" }, { name := "type" }] }, { name := "value" }], .core⟩ :=
  replaceWorkMails_addresses.addresses rfl (OpKind.ofWord?_word .add)

def workMails : Resource :=
  ⟨[("emails", .array [.object [("type", .string "work"), ("value", .string "a@x")],
    .object [("type", .string "Work")]])]⟩

theorem workMails_selectsAll :
    workMails.SelectsAll sampleType
      ⟨none, [⟨"emails", some (.compare ⟨none, [⟨"type", none⟩]⟩ .equal (.string "work"))⟩]⟩
      ⟨none, [⟨"emails", none⟩]⟩ [] "emails"
      (.compare ⟨none, [⟨"type", none⟩]⟩ .equal (.string "work"))
      { name := "emails", type := .complex, multiValued := true, subAttributes := [
        { name := "value" }, { name := "type" }] } [] where
  steps := rfl
  without := rfl
  all := by
    intro home places atHome reached place member
    cases atHome
    cases reached
    rw [List.mem_singleton.mp member]
    exact ⟨_, rfl, by decide⟩

theorem addWorkValue_overwrites :
    addWorkValue.apply sampleType {} workMails =
        ({ addWorkValue with op := OpKind.replace.word } : Patch).apply sampleType {} workMails ∧
      addWorkValue.apply sampleType {} workMails = .done ⟨[("emails", .array [
        .object [("type", .string "work"), ("value", .string "b@x")],
        .object [("type", .string "Work"), ("value", .string "b@x")]])]⟩ := by
  have prepared : addWorkValue.preparedValue {} .add { name := "value" } = .ok (.string "b@x") := rfl
  have overwrites := apply_add_overwrites addWorkValue_addresses rfl prepared rfl workMails
  have leads : (Patch.add "emails.value" (.string "b@x")).LeadsTo sampleType
      ⟨none, [⟨"emails", none⟩, ⟨"value", none⟩]⟩ _ :=
    ⟨by decide, by decide +kernel, addWorkValue_addresses.resolved⟩
  have everywhere : (Patch.add "emails.value" (.string "b@x")).apply sampleType {} workMails =
      .done ⟨[("emails", .array [
        .object [("type", .string "work"), ("value", .string "b@x")],
        .object [("type", .string "Work"), ("value", .string "b@x")]])]⟩ :=
    ((leads.addresses rfl (OpKind.ofWord?_word .add)).apply_of_kept rfl rfl _).trans rfl
  exact ⟨(overwrites.1 (.inl rfl)).1, (overwrites.2 _ _ _ _ _ _ workMails_selectsAll (.inl rfl) _ _
    (leads.addresses rfl (OpKind.ofWord?_word .add)) rfl rfl _).mpr everywhere⟩

/-- Beside a filter of the base a multi-valued attribute is extended, though every element passes
the filter: a replacement, or the path without it, leaves the added value alone. -/
theorem addWorkLabel_extends :
    let mails : Resource := ⟨[("emails", .array [
      .object [("type", .string "work"), ("labels", .array [.string "x"])]])]⟩
    (⟨"add", "emails[type eq \"work\"].labels", some (.array [.string "z"])⟩ : Patch).apply staffType {}
        mails = .done ⟨[("emails", .array [
      .object [("type", .string "work"), ("labels", .array [.string "x", .string "z"])]])]⟩ ∧
    (⟨"replace", "emails[type eq \"work\"].labels", some (.array [.string "z"])⟩ : Patch).apply
        staffType {} mails = .done ⟨[("emails", .array [
      .object [("type", .string "work"), ("labels", .array [.string "z"])]])]⟩ ∧
    (⟨"add", "emails.labels", some (.array [.string "z"])⟩ : Patch).apply staffType {}
        mails = .done ⟨[("emails", .array [
      .object [("type", .string "work"), ("labels", .array [.string "z"])]])]⟩ := by
  decide +kernel

end Patch
end Scim
