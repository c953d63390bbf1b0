import Scim.Proofs.Patch.Overwriting
import Scim.Proofs.Patch.Querying

/-! Wrapped payloads for single texts and truth values. One wrapper is taken off; so what is written
is no object or array, and stays as it is when it comes once more, unless the payload is a wrapper in
a wrapper. -/
namespace Scim

namespace Json

/-- A wrapper that holds an object or array in turn, under `value` in any case. -/
def isNested : Json → Bool
  | .object fields | .array (.object fields :: _) => (Fields.find? fields "value").any isWrapper
  | _ => false

theorem isWrapper_of_unwrap {payload inner : Json} (wrapped : payload.isWrapper = true)
    (inside : payload.unwrap = some inner) : inner.isWrapper = payload.isNested := by
  cases payload with
  | object fields =>
    have held : Fields.find? fields "value" = some inner := inside
    rw [isNested, held, Option.any_some]
  | array items =>
    cases items with
    | nil => cases inside
    | cons first rest =>
      cases first with
      | object fields =>
        have held : Fields.find? fields "value" = some inner := inside
        rw [isNested, held, Option.any_some]
      | array => cases inside
      | _ =>
        cases inside
        rfl
  | _ => cases wrapped

end Json

namespace Attribute

variable {definition : Attribute} {path : String} {payload result : Json}

theorem isWrapper_coerce (definition : Attribute) (value : Json) :
    (definition.coerce value).isWrapper = value.isWrapper := by
  unfold coerce
  split
  next spelled => rw [spelled.2]; rfl
  · split
    next spelled => rw [spelled.2]; rfl
    · rfl

/-- What is no wrapper is taken as it is. -/
theorem normalize_of_unwrapped (definition : Attribute) (path : String)
    (unwrapped : payload.isWrapper = false) : definition.normalize path payload = .ok payload := by
  rw [normalize, unwrapped, Bool.and_false]
  rfl

/-- An accepted payload turns into an object or array only out of a wrapper in a wrapper. -/
theorem isWrapper_of_normalize (plain : definition.holdsPlainValue = true)
    (accepted : definition.normalize path payload = .ok result) :
    result.isWrapper = payload.isNested := by
  cases wrapped : payload.isWrapper with
  | false =>
    rw [normalize_of_unwrapped definition path wrapped] at accepted
    cases accepted
    rw [wrapped]
    cases payload <;> first | rfl | cases wrapped
  | true =>
    rw [normalize, plain, wrapped] at accepted
    simp only [Bool.and_self, if_true] at accepted
    split at accepted
    next inner inside =>
      cases accepted
      rw [isWrapper_coerce, Json.isWrapper_of_unwrap wrapped inside]
    next => cases accepted

theorem single_of_holdsPlainValue (plain : definition.holdsPlainValue = true) :
    definition.multiValued = false := by
  cases multiValued : definition.multiValued with
  | false => rfl
  | true => simp [holdsPlainValue, multiValued] at plain

end Attribute

namespace Patch

variable {patch : Patch} {type : ResourceType} {options : PatchOptions} {kind : OpKind}
  {written : Path} {found : Resolution} {definition : Attribute} {value : Json}

/-- Where one value stands, additions and replacements overwrite it. -/
theorem Addresses.applyAtPath_single (addressed : patch.Addresses type kind written found)
    (target : found.chain.getLast? = some definition) (writes : kind ≠ .remove)
    (single : definition.multiValued = false)
    (prepared : patch.preparedValue options kind definition = .ok value) (resource : Resource) :
    patch.applyAtPath type options kind resource =
      resource.changeContainers type true (type.respell found written) fun last =>
        changeObjects (type.respell found written).render fun fields =>
          fields.setField last.name value := by
  rw [← addressed.apply_eq_applyAtPath, addressed.apply_of_kept target
      (removeByValueIf_of_kind addressed.known writes ..),
    applyResolved_eq _ _ _ _ _ _ value (.inr prepared), bne_iff_ne.mpr writes]
  cases kind with
  | remove => exact absurd rfl writes
  | replace => rfl
  | add =>
    congr 1
    funext last place
    exact Resource.containerChange_add_eq_replace _ value last (.inl single)

theorem Addresses.applyAtPath_refused (addressed : patch.Addresses type kind written found)
    (target : found.chain.getLast? = some definition) (writes : kind ≠ .remove) {error : PatchError}
    (refused : patch.preparedValue options kind definition = .error error) (resource : Resource) :
    patch.applyAtPath type options kind resource = .stopped resource error := by
  rw [← addressed.apply_eq_applyAtPath, addressed.apply_of_kept target
      (removeByValueIf_of_kind addressed.known writes ..),
    applyResolved_refused writes refused]

/-- What is prepared for a single text or truth value is no object or array, unless it comes in a
wrapper in a wrapper. -/
theorem isWrapper_of_prepared (plain : definition.holdsPlainValue = true)
    (normalizes : options.normalizeValues = true)
    (flat : ∀ payload ∈ patch.value, payload.isNested = false)
    (prepared : patch.preparedValue options kind definition = .ok value) :
    value.isWrapper = false := by
  unfold preparedValue at prepared
  split at prepared
  · cases prepared
  next payload given =>
    rw [if_pos normalizes] at prepared
    exact (Attribute.isWrapper_of_normalize plain prepared).trans (flat payload given)

/-- **Normalized values are plain, but for wrappers in wrappers.** For a single text or truth value
an accepted payload turns into an object or array just if it is a wrapper in a wrapper. Any other is
accepted again as what it has turned into; and a patch at a path, be it one of those that an addition
without a path consists of, writes no object or array for it. -/
theorem normalized_plain (plain : definition.holdsPlainValue = true) :
    (∀ path payload result, definition.normalize path payload = .ok result →
      result.isWrapper = payload.isNested ∧
        (payload.isNested = false → ∀ text, definition.normalize text result = .ok result)) ∧
    ∀ (type : ResourceType) (options : PatchOptions) (kind : OpKind) (patch : Patch) (written : Path)
      (found : Resolution), options.normalizeValues = true → kind ≠ .remove →
      patch.Addresses type kind written found → found.chain.getLast? = some definition →
      (∀ payload ∈ patch.value, payload.isNested = false) →
      (∃ error, ∀ resource, patch.applyAtPath type options kind resource = .stopped resource error) ∨
      ∃ stored, stored.isWrapper = false ∧ ∀ resource,
        patch.applyAtPath type options kind resource =
          resource.changeContainers type true (type.respell found written) fun last =>
            changeObjects (type.respell found written).render fun fields =>
              fields.setField last.name stored := by
  refine ⟨fun path payload result accepted => ?_, fun type options kind patch written found normalizes
    writes addressed target flat => ?_⟩
  · have shape := Attribute.isWrapper_of_normalize plain accepted
    exact ⟨shape, fun flat text => Attribute.normalize_of_unwrapped definition text (shape.trans flat)⟩
  · cases prepared : patch.preparedValue options kind definition with
    | error error => exact .inl ⟨error, addressed.applyAtPath_refused target writes prepared⟩
    | ok stored =>
      exact .inr ⟨stored, isWrapper_of_prepared plain normalizes flat prepared,
        addressed.applyAtPath_single target writes
          (Attribute.single_of_holdsPlainValue plain) prepared⟩

def addWrappedDepartment : Patch :=
  addDepartment.withValue (.array [.object [("Value", .string "Sales")]])

theorem addWrappedDepartment_plain :
    let department : Attribute := { name := "department" }
    (Json.string "Sales").isWrapper = (Json.object [("Value", .string "Sales")]).isNested ∧
    department.normalize "department" (.string "Sales") = .ok (.string "Sales") ∧
    ∃ stored, stored.isWrapper = false ∧ ∀ resource,
      addWrappedDepartment.applyAtPath staffType {} .add resource =
        resource.changeContainers staffType true ⟨some "urn:ext:Work", [⟨"department", none⟩]⟩
          fun last => changeObjects "urn:ext:Work:department" fun fields =>
            fields.setField last.name stored := by
  intro department
  have plain : department.holdsPlainValue = true := by decide
  obtain ⟨accepts, writes⟩ := normalized_plain plain
  have accepted : department.normalize "department" (.object [("Value", .string "Sales")]) =
      .ok (.string "Sales") := by decide
  obtain ⟨shape, again⟩ := accepts _ _ _ accepted
  have addressed : addWrappedDepartment.Addresses staffType .add _ _ :=
    addDepartment_writes.toLeadsTo.addresses rfl (OpKind.ofWord?_word .add)
  have goes : ¬ ∃ error, ∀ resource,
      addWrappedDepartment.applyAtPath staffType {} .add resource = .stopped resource error := by
    rintro ⟨error, stops⟩
    have applied := addressed.applyAtPath_single rfl OpKind.noConfusion rfl
      (show addWrappedDepartment.preparedValue {} .add department = .ok (.string "Sales") from rfl) ⟨[]⟩
    rw [stops] at applied
    have fault : some error = none := congrArg Outcome.fault applied
    cases fault
  exact ⟨shape, again (by decide) _, (writes staffType {} .add addWrappedDepartment _ _ rfl
    OpKind.noConfusion addressed rfl (by decide)).resolve_left goes⟩

/-- A wrapper in a wrapper is accepted, with an object left of it, which would be taken for a wrapper
the next time; and it is stored. -/
theorem addNestedDepartment_wraps :
    let department : Attribute := { name := "department" }
    let nested := Json.object [("value", .object [("value", .string "deep")])]
    department.normalize "department" nested = .ok (.object [("value", .string "deep")]) ∧
    department.normalize "department" (.object [("value", .string "deep")]) = .ok (.string "deep") ∧
    (addDepartment.withValue nested).apply staffType {} ⟨[]⟩ =
      .done ⟨[("urn:ext:Work", .object [("department", .object [("value", .string "deep")])])]⟩ := by
  intro department nested
  have addressed : (addDepartment.withValue nested).Addresses staffType .add _ _ :=
    addDepartment_writes.toLeadsTo.addresses rfl addDepartment_writes.known
  exact ⟨by decide, by decide, (addressed.apply_of_kept rfl
    (removeByValueIf_of_kind addressed.known OpKind.noConfusion ..) _).trans rfl⟩

end Patch
end Scim
