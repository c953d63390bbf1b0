import Scim.Patch.Wire
import Scim.Proofs.Schema.Wire

/-! Schemas and requests survive being encoded and decoded, but for what the JSON form cannot say:
the extensions of a resource type, and null as the payload of a patch. -/
namespace Scim

/-- Null is the one payload that is not kept. -/
theorem Json.optionalValue?_eq_some (value : Json) (payload : Option Json) :
    value.optionalValue? = some payload ↔
      payload = if value = .null then none else some value := by
  cases value <;> simp [optionalValue?, eq_comm]

namespace Patch

theorem ofJson?_toJson (patch : Patch) (present : patch.value ≠ some .null) :
    ofJson? patch.toJson = some patch := by
  obtain ⟨op, path, value⟩ := patch
  have addressed : ((if path = "" then none else some (Json.string path)).map Json.text?).getD
      (some "") = some path := by
    by_cases empty : path = ""
    · simp [empty]
    · simp [empty, Json.text?]
  cases value with
  | none =>
    simp [ofJson?, toJson, Json.record?, Fields.required, Fields.optional_eq, Fields.get?_cons,
      Json.text?, addressed]
  | some value =>
    have kept : value.optionalValue? = some (some value) := by
      have given : value ≠ .null := fun null => present (by rw [null])
      simp [Json.optionalValue?_eq_some, given]
    simp [ofJson?, toJson, Json.record?, Fields.required, Fields.optional_eq, Fields.get?_cons,
      Json.text?, addressed, kept]

theorem value_of_ofJson? {json : Json} {patch : Patch} (decoded : ofJson? json = some patch) :
    patch.value ≠ some .null := by
  simp only [ofJson?, Option.bind_eq_bind, Option.bind_eq_some_iff, Option.some.injEq] at decoded
  obtain ⟨fields, -, op, -, path, -, payload, given, rfl⟩ := decoded
  simp only [Fields.optional] at given
  split at given
  next value _ =>
    rw [Json.optionalValue?_eq_some] at given
    by_cases null : value = .null
    · simp [given, null]
    · simp [given, null]
  next => simp [← Option.some.inj given]

end Patch

namespace Request

theorem ofJson?_toJson (request : Request)
    (present : ∀ patch ∈ request.operations, patch.value ≠ some .null) :
    ofJson? request.toJson = some request := by
  have decoded := mapM_map_eq_some fun patch member =>
    Patch.ofJson?_toJson patch (present patch member)
  simp [ofJson?, toJson, Json.record?, Fields.optional_eq, Fields.get?_cons, Json.array?,
    Json.texts?_ofTexts, decoded]

theorem value_of_ofJson? {json : Json} {request : Request}
    (decoded : ofJson? json = some request) :
    ∀ patch ∈ request.operations, patch.value ≠ some .null := by
  simp only [ofJson?, Option.bind_eq_bind, Option.bind_eq_some_iff, Option.some.injEq] at decoded
  obtain ⟨fields, -, schemas, -, operations, given, rfl⟩ := decoded
  simp only [Fields.optional] at given
  split at given
  next value _ =>
    obtain ⟨items, -, decoded⟩ := Option.bind_eq_some_iff.mp given
    clear given
    induction items generalizing operations with
    | nil => cases decoded; simp
    | cons item rest ih =>
      simp only [List.mapM_cons, Option.bind_eq_bind, Option.pure_def, Option.bind_eq_some_iff,
        Option.some.injEq] at decoded
      obtain ⟨patch, first, later, others, rfl⟩ := decoded
      exact List.forall_mem_cons.mpr ⟨Patch.value_of_ofJson? first, ih later others⟩
  next => simp [← Option.some.inj given]

end Request

/-- Whatever is decoded is encoded in a form that decoding and encoding again do not change. -/
def NormalizedBy {α : Type} (encode : α → Json) (decode : Json → Option α) : Prop :=
  ∀ json value, decode json = some value →
    (decode (encode value)).map encode = some (encode value)

theorem NormalizedBy.of_inverse {α : Type} {encode : α → Json} {decode : Json → Option α}
    (inverse : ∀ json value, decode json = some value → decode (encode value) = some value) :
    NormalizedBy encode decode := fun json value decoded => by
  rw [inverse json value decoded, Option.map_some]

/-- What is encoded is decoded as it was, a resource type without its extensions and a request if
no payload is null; and these are just the values that decoding gives. -/
theorem wire_roundTrip :
    (∀ definition : Attribute, Attribute.ofJson? definition.toJson = some definition) ∧
    (∀ type : ResourceType, ResourceType.ofJson? type.toJson = some { type with extensions := [] }) ∧
    (∀ request : Request, (∀ patch ∈ request.operations, patch.value ≠ some .null) →
      Request.ofJson? request.toJson = some request) ∧
    (∀ json type, ResourceType.ofJson? json = some type → type.extensions = []) ∧
    (∀ json request, Request.ofJson? json = some request →
      ∀ patch ∈ request.operations, patch.value ≠ some .null) ∧
    NormalizedBy Attribute.toJson Attribute.ofJson? ∧
    NormalizedBy ResourceType.toJson ResourceType.ofJson? ∧
    NormalizedBy Request.toJson Request.ofJson? := by
  refine ⟨Attribute.ofJson?_toJson, ResourceType.ofJson?_toJson, Request.ofJson?_toJson,
    fun _ _ => ResourceType.extensions_of_ofJson?, fun _ _ => Request.value_of_ofJson?, ?_, ?_, ?_⟩
  · exact .of_inverse fun _ definition _ => definition.ofJson?_toJson
  · refine .of_inverse fun _ type decoded => ?_
    rw [type.ofJson?_toJson, ← ResourceType.extensions_of_ofJson? decoded]
  · exact .of_inverse fun _ request decoded =>
      request.ofJson?_toJson (Request.value_of_ofJson? decoded)

/-- A remove of one value, and one of the whole attribute. -/
theorem wire_roundTrip_removes :
    let request : Request :=
      ⟨[requestUrn], [(Patch.remove "members").withValue (.string "2819"), Patch.remove "title"]⟩
    (∀ patch ∈ request.operations, patch.value ≠ some .null) ∧
      Request.ofJson? request.toJson = some request := by
  have present : ∀ patch ∈ [(Patch.remove "members").withValue (.string "2819"),
      Patch.remove "title"], patch.value ≠ some .null := by decide
  exact ⟨present, wire_roundTrip.2.2.1 ⟨[requestUrn], _⟩ present⟩

end Scim
