import Scim.Proofs.Patch.Refusal

/-! What validation leaves to be refused. A request that passes it is refused for the text of a path,
for want of an attribute, for a value or for the shape of the document, and never for its own form,
but for one case: an addition without a path whose value holds something else than an object under
an empty key. -/
namespace Scim

/-- Faults in the form of a request, which validation looks for. -/
def PatchError.isFormal : PatchError → Bool
  | validation _ | invalidOperation _ | missingPath _ | missingValue _ | pathlessAddNotObject => true
  | _ => false

namespace Json

mutual

/-- The value of an addition without a path that comes apart into additions with one: an object in
which every empty key holds such an object in turn, or the fields of a schema. -/
def decomposes (type : ResourceType) : Json → Bool
  | .object fields => fieldsDecompose type fields
  | _ => false

def fieldsDecompose (type : ResourceType) : List (String × Json) → Bool
  | [] => true
  | (key, value) :: rest =>
    ((type.schema? key).isSome && value.isObject || !key.isEmpty || value.decomposes type) &&
      fieldsDecompose type rest

end

end Json

namespace Outcome

variable {α : Type} {outcome : Outcome PatchError α} {reason further : Prop}

/-- No fault of form stops the change, but that of an addition without a path, for a reason. -/
def FormalOnlyFor (reason : Prop) (outcome : Outcome PatchError α) : Prop :=
  ∀ error ∈ outcome.fault, error.isFormal = true → error = .pathlessAddNotObject ∧ reason

theorem formalOnlyFor_done (reason : Prop) (value : α) : (done value).FormalOnlyFor reason := by
  intro error member
  cases member

theorem formalOnlyFor_stopped (reason : Prop) (value : α) {fault : PatchError}
    (other : fault.isFormal = false) : (stopped value fault).FormalOnlyFor reason := by
  intro error member formal
  cases member
  rw [other] at formal
  cases formal

theorem StopsByShape.formalOnlyFor (shaped : outcome.StopsByShape) (reason : Prop) :
    outcome.FormalOnlyFor reason := by
  intro error member formal
  have structural := shaped error member
  cases error <;> cases formal <;> cases structural

theorem fault_andThen_eq_none {next : α → Outcome PatchError α} :
    (outcome.andThen next).fault = none ↔
      outcome.fault = none ∧ (next outcome.value).fault = none := by
  unfold Outcome.andThen
  cases fault : outcome.fault <;> simp [fault]

namespace FormalOnlyFor

theorem mono (formed : outcome.FormalOnlyFor reason) (stronger : reason → further) :
    outcome.FormalOnlyFor further :=
  fun error member formal => (formed error member formal).imp_right stronger

theorem andThen {next : α → Outcome PatchError α} (formed : outcome.FormalOnlyFor reason)
    (later : ∀ value, (next value).FormalOnlyFor reason) :
    (outcome.andThen next).FormalOnlyFor reason := by
  unfold Outcome.andThen
  split
  · exact later _
  · exact formed

end FormalOnlyFor
end Outcome

open Outcome

namespace Resource

/-- Navigation is stopped by the document or for want of an attribute. -/
theorem formalOnlyFor_containers (reason : Prop) (type : ResourceType) (create : Bool) (base : Path)
    (resource : Resource) : (resource.containers type create base).FormalOnlyFor reason := by
  unfold containers
  dsimp only
  split
  next => exact StopsByShape.formalOnlyFor (stopsByShape_home _ _ _ _) reason
  next =>
    split
    next => exact StopsByShape.formalOnlyFor (Focus.stopsByShape_follow _ _ _ _) reason
    next => exact formalOnlyFor_stopped reason _ rfl

theorem formalOnlyFor_changeContainers (reason : Prop) (type : ResourceType) (create : Bool)
    (path : Path) {change : Segment → Json → Outcome PatchError Json}
    (shaped : ∀ last place, (change last place).StopsByShape) (resource : Resource) :
    (resource.changeContainers type create path change).FormalOnlyFor reason := by
  unfold changeContainers
  split
  next => exact formalOnlyFor_stopped reason _ rfl
  next base last _ =>
    have reached := formalOnlyFor_containers reason type create base resource
    dsimp only
    split
    next => exact ((Focus.stopsByShape_edit (shaped last) _).map _).formalOnlyFor reason
    next fault stop =>
      intro error member formal
      cases member
      exact reached fault stop formal

end Resource

theorem ResourceType.isFormal_of_resolveText {type : ResourceType} {text : String}
    {error : PatchError} (refused : type.resolveText text = .error error) :
    error.isFormal = false := by
  rcases resolveText_eq_error refused with ⟨fault, rfl⟩ | rfl <;> rfl

namespace Patch

variable {patch : Patch} {type : ResourceType} {options : PatchOptions} {kind : OpKind}

theorem formalOnlyFor_applyResolved (reason : Prop) (given : kind = .remove ∨ patch.value ≠ none)
    (path : Path) (definition : Attribute) (resource : Resource) :
    (patch.applyResolved type options kind path definition resource).FormalOnlyFor reason := by
  have changes (value : Json)
      (prepared : kind = .remove ∨ patch.preparedValue options kind definition = .ok value) :
      (patch.applyResolved type options kind path definition resource).FormalOnlyFor reason := by
    rw [applyResolved_eq patch type options kind path definition value prepared]
    exact Resource.formalOnlyFor_changeContainers reason type _ path
      (Resource.stopsByShape_containerChange kind path definition value) resource
  by_cases removal : kind = .remove
  · exact changes .null (.inl removal)
  · cases prepared : patch.preparedValue options kind definition with
    | ok value => exact changes value (.inr prepared)
    | error error =>
      rw [applyResolved_refused removal prepared]
      rcases preparedValue_eq_error prepared with ⟨missing, _⟩ | ⟨fault, rfl⟩
      · exact absurd missing (given.resolve_left removal)
      · exact formalOnlyFor_stopped reason _ rfl

/-- A patch with a path needs a value, or is a removal. -/
theorem formalOnlyFor_applyAtPath (reason : Prop) (given : kind = .remove ∨ patch.value ≠ none)
    (resource : Resource) :
    (patch.applyAtPath type options kind resource).FormalOnlyFor reason := by
  unfold applyAtPath
  split
  next error refused =>
    exact formalOnlyFor_stopped reason _ (ResourceType.isFormal_of_resolveText refused)
  next path resolved _ =>
    split
    next error refused =>
      rw [removeByValueIf_eq_error refused]
      exact formalOnlyFor_stopped reason _ rfl
    next => exact formalOnlyFor_applyResolved reason given path resolved.definition resource
    next removal _ =>
      split
      next error refused =>
        exact formalOnlyFor_stopped reason _ (ResourceType.isFormal_of_resolveText refused)
      next path resolved _ =>
        exact Resource.formalOnlyFor_changeContainers reason type false path
          (Resource.stopsByShape_containerChange .remove path resolved.definition .null) resource

theorem formalOnlyFor_add (reason : Prop) (path : String) (value : Json) (resource : Resource) :
    ((Patch.add path value).applyAtPath type options .add resource).FormalOnlyFor reason :=
  formalOnlyFor_applyAtPath reason (.inr (by simp [Patch.add])) resource

/-- Under a URN every addition has a path. -/
theorem formalOnlyFor_addQualified (reason : Prop) (urn : String) (fields : List (String × Json))
    (resource : Resource) :
    (addQualified type options urn fields resource).FormalOnlyFor reason := by
  induction fields generalizing resource with
  | nil => exact formalOnlyFor_done reason resource
  | cons field rest ih => exact (formalOnlyFor_add reason _ field.2 resource).andThen ih

mutual

/-- Without a path an addition fails in form where its value does not come apart. -/
theorem formalOnlyFor_addPathless (resource : Resource) (value : Json) :
    (addPathless type options resource value).FormalOnlyFor (value.decomposes type = false) := by
  cases value with
  | object fields =>
    rw [addPathless, Json.decomposes]
    exact formalOnlyFor_addFields fields resource
  | _ =>
    intro error member _
    cases member
    exact ⟨rfl, rfl⟩

theorem formalOnlyFor_addFields (fields : List (String × Json)) (resource : Resource) :
    (addFields type options fields resource).FormalOnlyFor
      (Json.fieldsDecompose type fields = false) := by
  cases fields with
  | nil => exact formalOnlyFor_done _ resource
  | cons field rest =>
    obtain ⟨key, held⟩ := field
    have nested := formalOnlyFor_addPathless resource held
    unfold addFields
    refine FormalOnlyFor.andThen ?_ fun middle => (formalOnlyFor_addFields rest middle).mono ?_
    · split
      next schema fields _ => exact formalOnlyFor_addQualified _ schema.id fields resource
      next held _ _ other =>
        split
        next empty =>
          have unowned : ((type.schema? key).isSome && held.isObject) = false := by
            cases owner : type.schema? key <;> cases held <;> simp_all [Json.isObject]
          exact nested.mono fun whole => by simp [Json.fieldsDecompose, unowned, empty, whole]
        next => exact formalOnlyFor_add _ _ _ resource
    · intro later
      simp [Json.fieldsDecompose, later]

end

mutual

/-- A value that does not come apart is never added whole. -/
theorem decomposes_of_addPathless {resource : Resource} {value : Json}
    (whole : (addPathless type options resource value).fault = none) :
    value.decomposes type = true := by
  cases value with
  | object fields =>
    rw [addPathless] at whole
    rw [Json.decomposes]
    exact fieldsDecompose_of_addFields fields whole
  | _ => cases whole

theorem fieldsDecompose_of_addFields (fields : List (String × Json)) {resource : Resource}
    (whole : (addFields type options fields resource).fault = none) :
    Json.fieldsDecompose type fields = true := by
  cases fields with
  | nil => rfl
  | cons field rest =>
    obtain ⟨key, held⟩ := field
    unfold addFields at whole
    obtain ⟨first, later⟩ := fault_andThen_eq_none.mp whole
    rw [Json.fieldsDecompose, fieldsDecompose_of_addFields rest later, Bool.and_true]
    split at first
    next owner => simp [owner, Json.isObject]
    next =>
      split at first
      next => simp [decomposes_of_addPathless first]
      next named => simp [named]

end

/-- A valid patch has a known operation, a value if it writes and a path unless it adds. -/
theorem validate_eq_ok {index : Nat} (accepted : patch.validate index = .ok ()) :
    ∃ kind, patch.kind? = some kind ∧ (kind = .remove ∨ patch.value ≠ none) ∧
      (patch.path = "" → kind = .add) := by
  have given (valued : patch.hasValue = true) : patch.value ≠ none := by
    intro none
    simp [hasValue, none] at valued
  unfold validate at accepted
  split at accepted
  next => cases accepted
  next added =>
    split at accepted
    next => cases accepted
    next valued => exact ⟨.add, added, .inr (given (by simpa using valued)), fun _ => rfl⟩
  next replaced =>
    split at accepted
    next => cases accepted
    next valued =>
      split at accepted
      next => cases accepted
      next located =>
        exact ⟨.replace, replaced, .inr (given (by simpa using valued)),
          fun root => absurd root (by simpa using located)⟩
  next removed =>
    split at accepted
    next => cases accepted
    next located => exact ⟨.remove, removed, .inl rfl, fun root => absurd root (by simpa using located)⟩

/-- The value of an addition without a path comes apart. -/
def Decomposes (type : ResourceType) (patch : Patch) : Prop :=
  patch.path = "" → ∀ value ∈ patch.value, value.decomposes type = true

instance (type : ResourceType) (patch : Patch) : Decidable (patch.Decomposes type) :=
  inferInstanceAs (Decidable (_ → ∀ value ∈ patch.value, value.decomposes type = true))

theorem formalOnlyFor_apply {index : Nat} (accepted : patch.validate index = .ok ())
    (resource : Resource) :
    (patch.apply type options resource).FormalOnlyFor (¬ patch.Decomposes type) := by
  obtain ⟨kind, known, given, added⟩ := validate_eq_ok accepted
  unfold apply
  simp only [known]
  split
  next => exact formalOnlyFor_applyAtPath _ given resource
  next located =>
    have root : patch.path = "" := by simpa using located
    cases added root
    obtain ⟨value, held⟩ := Option.ne_none_iff_exists'.mp (given.resolve_left (by decide))
    simp only [held]
    refine (formalOnlyFor_addPathless resource value).mono fun whole decomposes => ?_
    rw [decomposes root value held] at whole
    cases whole

theorem formalOnlyFor_applyAll {patches : List Patch} {index : Nat}
    (accepted : Request.validateFrom index patches = .ok ()) (resource : Resource) :
    (applyAll type options patches resource).FormalOnlyFor
      (∃ patch ∈ patches, ¬ patch.Decomposes type) := by
  induction patches generalizing index resource with
  | nil => exact formalOnlyFor_done _ resource
  | cons patch rest ih =>
    obtain ⟨_, first, later⟩ := bind_eq_ok.mp accepted
    refine FormalOnlyFor.andThen ?_ fun middle => (ih later middle).mono ?_
    · exact (formalOnlyFor_apply first resource).mono fun whole => ⟨patch, List.mem_cons_self, whole⟩
    · rintro ⟨other, member, whole⟩
      exact ⟨other, List.mem_cons_of_mem _ member, whole⟩

/-- Patches are applied whole only if the values added without a path come apart. -/
theorem decomposes_of_applyAll {patches : List Patch}
    {resource : Resource} (whole : (applyAll type options patches resource).fault = none) :
    ∀ patch ∈ patches, patch.Decomposes type := by
  induction patches generalizing resource with
  | nil => simp
  | cons patch rest ih =>
    obtain ⟨first, later⟩ := fault_andThen_eq_none.mp whole
    refine List.forall_mem_cons.mpr ⟨fun root value held => ?_, ih later⟩
    unfold apply at first
    split at first
    next => cases first
    next kind _ =>
      simp only [root, Option.mem_def.mp held] at first
      cases kind with
      | add => exact decomposes_of_addPathless first
      | replace | remove => cases first

end Patch

namespace Request

variable {request : Request} {type : ResourceType} {options : PatchOptions}

theorem validateFrom_of_validate (accepted : request.validate = .ok ()) :
    validateFrom 0 request.operations = .ok () := by
  unfold validate at accepted
  split at accepted
  next => cases accepted
  next =>
    split at accepted
    next => cases accepted
    next => exact accepted

/-- **What passes validation is well formed, but for empty keys.** A valid request is never refused
for anything that validation looks for, if the value of every addition without a path comes apart
into additions with one. In any case the one such fault is an addition without a path that holds no
object. -/
theorem apply_fault_of_validate (accepted : request.validate = .ok ()) (type : ResourceType)
    (options : PatchOptions) (resource : Resource) {error : PatchError}
    (failed : (request.apply type options resource).fault = some error) :
    ((∀ patch ∈ request.operations, patch.Decomposes type) → error.isFormal = false) ∧
      (error.isFormal = true → error = .pathlessAddNotObject) := by
  have whole : (Patch.applyAll type options request.operations resource).fault = some error := by
    simpa only [apply, accepted] using failed
  have formed :=
    Patch.formalOnlyFor_applyAll (validateFrom_of_validate accepted) resource error whole
  refine ⟨fun decompose => ?_, fun formal => (formed formal).1⟩
  by_contra formal
  obtain ⟨patch, member, whole⟩ := (formed (by simpa using formal)).2
  exact whole (decompose patch member)

def settle : Request where
  schemas := [requestUrn]
  operations := [
    ⟨"add", "", some (.object [
      ("URN:EXT:Work", .object [("department", .string "Sales")]),
      ("", .object [("", .object [("name", .object [("givenName", .string "Ann")])])])])⟩,
    ⟨"Remove", "emails", some (.object [("type", .string "work")])⟩]

theorem settle_refused :
    settle.validate = .ok () ∧ (∀ patch ∈ settle.operations, patch.Decomposes staffType) ∧
      (settle.apply staffType {} ⟨[]⟩).fault =
        some (.invalidValue "emails" .noScalarPayload) ∧
      PatchError.isFormal (.invalidValue "emails" .noScalarPayload) = false := by
  have accepted : settle.validate = .ok () := by decide +kernel
  have decompose : ∀ patch ∈ settle.operations, patch.Decomposes staffType := by decide +kernel
  have failed : (settle.apply staffType {} ⟨[]⟩).fault =
      some (.invalidValue "emails" .noScalarPayload) := by decide +kernel
  exact ⟨accepted, decompose, failed,
    (apply_fault_of_validate accepted staffType {} ⟨[]⟩ failed).1 decompose⟩

def addUnderEmptyKey : Request where
  schemas := [requestUrn]
  operations := [⟨"add", "", some (.object [("", .bool true)])⟩]

/-- Validation looks for an addition without a path that holds no object at the top of a request
only. -/
theorem addUnderEmptyKey_refused :
    addUnderEmptyKey.validate = .ok () ∧
      (addUnderEmptyKey.apply staffType {} ⟨[]⟩).fault = some .pathlessAddNotObject := by
  decide +kernel

end Request
end Scim
