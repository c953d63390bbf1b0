import Scim.Proofs.Patch.Narrowing
import Scim.Proofs.Resource.Locality

/-! What a patch that fails leaves behind. Its own faults come before anything is changed; on the
way through a resource it is stopped by nothing but a value that has not the shape of its schema. -/
namespace Scim

/-- Faults of a document: a value where an object or an array of objects was to be. -/
def PatchError.isStructural : PatchError → Bool
  | invalidBase _ | nonObjectElement _ => true
  | _ => false

namespace Outcome

variable {α β : Type}

def StopsByShape (outcome : Outcome PatchError α) : Prop :=
  ∀ error ∈ outcome.fault, error.isStructural = true

theorem stopsByShape_done (value : α) : (done value).StopsByShape := by
  intro error member
  cases member

theorem stopsByShape_stopped (value : α) {fault : PatchError} (shape : fault.isStructural = true) :
    (stopped value fault).StopsByShape := by
  intro error member
  cases member
  exact shape

theorem StopsByShape.map {outcome : Outcome PatchError α} (shaped : outcome.StopsByShape)
    (f : α → β) : (outcome.map f).StopsByShape := shaped

theorem stopsByShape_each {change : α → Outcome PatchError α}
    (shaped : ∀ item, (change item).StopsByShape) (items : List α) :
    (each change items).StopsByShape := by
  induction items with
  | nil => exact stopsByShape_done _
  | cons item rest ih =>
    have first := shaped item
    rw [each]
    split
    next changed fault stop =>
      rw [stop] at first
      exact stopsByShape_stopped _ (first fault rfl)
    next => exact ih.map _

end Outcome

open Outcome

theorem stopsByShape_changeElement (path : String) (change : Fields → Fields) (item : Json) :
    (changeElement path change item).StopsByShape := by
  cases item with
  | object | null => exact stopsByShape_done _
  | _ => exact stopsByShape_stopped _ rfl

theorem stopsByShape_changeObjects (path : String) (change : Fields → Fields) (place : Json) :
    (changeObjects path change place).StopsByShape := by
  cases place with
  | object => exact stopsByShape_done _
  | array items => exact (stopsByShape_each (stopsByShape_changeElement path change) items).map _
  | _ => exact stopsByShape_stopped _ rfl

theorem stopsByShape_addAt (path name : String) (definition : Attribute) (value place : Json) :
    (addAt path name definition value place).StopsByShape := by
  cases place with
  | object => exact stopsByShape_done _
  | _ => exact stopsByShape_changeObjects _ _ _

namespace Focus

mutual

/-- A change of many places is stopped as the change of one. -/
theorem stopsByShape_edit {change : Json → Outcome PatchError Json}
    (shaped : ∀ place, (change place).StopsByShape) (focus : Focus) :
    (focus.edit change).StopsByShape := by
  cases focus with
  | target value => exact shaped value
  | plain value => exact stopsByShape_done _
  | member fields key inner => exact (stopsByShape_edit shaped inner).map _
  | elements items => exact (stopsByShape_editAll shaped items).map _

theorem stopsByShape_editAll {change : Json → Outcome PatchError Json}
    (shaped : ∀ place, (change place).StopsByShape) (items : List Focus) :
    (editAll change items).StopsByShape := by
  cases items with
  | nil => exact stopsByShape_done _
  | cons item rest =>
    have first := stopsByShape_edit shaped item
    rw [editAll]
    split
    next changed fault stop =>
      rw [stop] at first
      exact stopsByShape_stopped _ (first fault rfl)
    next => exact (stopsByShape_editAll shaped rest).map _

end

theorem isStructural_of_obstacle? {path : String} {value : Json} {fault : PatchError}
    (blocked : obstacle? path value = some fault) : fault.isStructural = true := by
  cases value with
  | object | null => cases blocked
  | array items =>
    rw [obstacle?] at blocked
    split at blocked
    · cases blocked
    · cases blocked
      rfl
  | _ =>
    cases blocked
    rfl

theorem stopsByShape_follow (create : Bool) (path : String) (segments : List (Segment × Attribute))
    (focus : Focus) : (focus.follow create path segments).StopsByShape := by
  induction segments generalizing focus with
  | nil => exact stopsByShape_done _
  | cons first more ih =>
    obtain ⟨segment, definition⟩ := first
    rw [follow_cons]
    cases more with
    | nil => exact stopsByShape_done _
    | cons next more =>
      rw [pursue]
      split
      next fault blocked =>
        obtain ⟨value, _, obstacle⟩ := List.exists_of_findSome?_eq_some blocked
        exact stopsByShape_stopped _ (isStructural_of_obstacle? obstacle)
      next => exact ih _

end Focus

namespace Resource

variable {type : ResourceType}

theorem stopsByShape_home (type : ResourceType) (create : Bool) (urn : Option String)
    (resource : Resource) : (resource.home type create urn).StopsByShape := by
  simp only [home]
  split
  · exact stopsByShape_done _
  · split
    · exact stopsByShape_done _
    · exact stopsByShape_done _
    · exact stopsByShape_done _
    · exact stopsByShape_stopped _ rfl

/-- The base of a resolved path resolves, so navigation finds a definition for every segment. -/
theorem stopsByShape_containers (create : Bool) {base : Path}
    (leads : base.isRoot = true ∨ ∃ part, type.lookup base = some part) (resource : Resource) :
    (resource.containers type create base).StopsByShape := by
  have home := stopsByShape_home type create base.schema resource
  unfold containers
  dsimp only
  split
  next => exact home
  next onward =>
    rcases leads with root | ⟨part, looked⟩
    · simp [root] at onward
    · rw [looked]
      exact Focus.stopsByShape_follow _ _ _ _

theorem stopsByShape_changeContainers (distinct : type.Distinct) {written : Path}
    {found : Resolution} (looked : type.lookup written = some found) (create : Bool)
    {change : Segment → Json → Outcome PatchError Json}
    (shaped : ∀ last place, (change last place).StopsByShape) (resource : Resource) :
    (resource.changeContainers type create (type.respell found written) change).StopsByShape := by
  obtain ⟨base, last, split, _, _, leads⟩ := ResourceType.split_respell distinct looked
  have reached := stopsByShape_containers create leads resource
  simp only [changeContainers, split]
  split
  next => exact (Focus.stopsByShape_edit (shaped last) _).map _
  next fault stop => exact stopsByShape_stopped _ (reached fault stop)

theorem stopsByShape_containerChange (kind : OpKind) (path : Path) (definition : Attribute)
    (value : Json) (last : Segment) (place : Json) :
    (containerChange kind path definition value last place).StopsByShape := by
  cases kind with
  | add => exact stopsByShape_addAt _ _ _ _ _
  | replace | remove => exact stopsByShape_changeObjects _ _ _

end Resource

/-- A change that is stopped either by the shape of the document or before it has begun, and never
for want of an attribute. -/
def Outcome.RefusesWhole {α : Type} (given : α) (outcome : Outcome PatchError α) : Prop :=
  ∀ error ∈ outcome.fault, error.isStructural = true ∨
    outcome.value = given ∧ ∀ text, error ≠ .noAttribute text

namespace Outcome

variable {α : Type} {outcome : Outcome PatchError α}

theorem StopsByShape.refusesWhole (shaped : outcome.StopsByShape) (given : α) :
    outcome.RefusesWhole given :=
  fun error member => .inl (shaped error member)

theorem refusesWhole_stopped (given : α) {error : PatchError}
    (known : ∀ text, error ≠ .noAttribute text) : (stopped given error).RefusesWhole given := by
  intro other member
  cases member
  exact .inr ⟨rfl, known⟩

end Outcome

namespace Patch

variable {patch : Patch} {type : ResourceType} {written : Path} {found : Resolution}

theorem preparedValue_eq_error {options : PatchOptions} {kind : OpKind} {definition : Attribute}
    {error : PatchError} (refused : patch.preparedValue options kind definition = .error error) :
    patch.value = none ∧ error = .missingValue kind ∨
      ∃ fault, error = .invalidValue patch.path fault := by
  unfold preparedValue Attribute.normalize at refused
  split at refused
  next missing =>
    cases refused
    exact .inl ⟨missing, rfl⟩
  next value _ =>
    split at refused
    · split at refused
      · split at refused <;> cases refused
        exact .inr ⟨.notUnwrappable value, rfl⟩
      · cases refused
    · cases refused

theorem refusesWhole_applyResolved (distinct : type.Distinct)
    (looked : type.lookup written = some found) (patch : Patch) (options : PatchOptions)
    (kind : OpKind) (definition : Attribute) (resource : Resource) :
    (patch.applyResolved type options kind (type.respell found written) definition
      resource).RefusesWhole resource := by
  have changes (value : Json)
      (prepared : kind = .remove ∨ patch.preparedValue options kind definition = .ok value) :
      (patch.applyResolved type options kind (type.respell found written) definition
        resource).RefusesWhole resource := by
    rw [applyResolved_eq patch type options kind _ definition value prepared]
    exact (Resource.stopsByShape_changeContainers distinct looked _
      (Resource.stopsByShape_containerChange kind _ definition value) resource).refusesWhole _
  by_cases removal : kind = .remove
  · exact changes .null (.inl removal)
  · cases prepared : patch.preparedValue options kind definition with
    | ok value => exact changes value (.inr prepared)
    | error error =>
      rw [applyResolved_refused removal prepared]
      refine refusesWhole_stopped _ fun text => ?_
      rcases preparedValue_eq_error prepared with ⟨_, rfl⟩ | ⟨fault, rfl⟩ <;>
        exact PatchError.noConfusion

theorem refusesWhole_applyAtPath (distinct : type.Distinct)
    (leads : patch.LeadsTo type written found) (options : PatchOptions) (kind : OpKind)
    (resource : Resource) :
    (patch.applyAtPath type options kind resource).RefusesWhole resource := by
  rcases applyAtPath_cases distinct leads options kind with
    ⟨error, known, stops⟩ | ⟨further, read, operation, definition, looked, applies⟩
  · rw [stops]
    exact refusesWhole_stopped _ known
  · rw [applies]
    exact refusesWhole_applyResolved distinct looked further options operation definition resource

theorem refusesWhole_apply (distinct : type.Distinct) (leads : patch.LeadsTo type written found)
    (options : PatchOptions) (resource : Resource) :
    (patch.apply type options resource).RefusesWhole resource := by
  have given : patch.path.isEmpty = false := by simpa using leads.nonempty
  unfold apply
  cases patch.kind? with
  | none => exact refusesWhole_stopped _ (by simp)
  | some kind =>
    simp only [given, Bool.not_false, if_true]
    exact refusesWhole_applyAtPath distinct leads options kind resource

/-- A path that does not resolve is refused before anything else. -/
theorem apply_value_of_unresolved {error : PatchError} (given : patch.path ≠ "")
    (unresolved : type.resolveText patch.path = .error error) (options : PatchOptions)
    (resource : Resource) : (patch.apply type options resource).value = resource := by
  have given : patch.path.isEmpty = false := by simpa using given
  unfold apply
  cases patch.kind? with
  | none => rfl
  | some kind => simp only [given, Bool.not_false, if_true, applyAtPath, unresolved, stopped]

/-- **What is refused leaves no trace.** Unless the document has not the shape of its schema, a
patch with a path that fails leaves the resource as it was. Once the path has resolved it never
fails for want of an attribute, and no resolved path leads navigation to such a fault. -/
theorem apply_value_of_not_structural (distinct : type.Distinct) (options : PatchOptions)
    (patch : Patch) (given : patch.path ≠ "") (resource : Resource) :
    (∀ error, (patch.apply type options resource).fault = some error →
      error.isStructural = false → (patch.apply type options resource).value = resource) ∧
    (∀ written found, Path.parse patch.path = .ok written → type.lookup written = some found →
      ∀ text, (patch.apply type options resource).fault ≠ some (.noAttribute text)) ∧
    ∀ written found base last, type.lookup written = some found →
      (type.respell found written).split? = some (base, last) →
      ∀ create text, (resource.containers type create base).fault ≠ some (.noAttribute text) := by
  refine ⟨?_, ?_, ?_⟩
  · intro error failed unstructured
    cases spelled : type.resolveText patch.path with
    | error refused => exact apply_value_of_unresolved given spelled options resource
    | ok resolved =>
      obtain ⟨path, attributed⟩ := resolved
      obtain ⟨written, found, parsed, looked, rfl⟩ := ResourceType.resolveText_eq_ok spelled
      rcases refusesWhole_apply distinct ⟨given, parsed, looked⟩ options resource error failed with
        structural | ⟨kept, _⟩
      · rw [structural] at unstructured
        cases unstructured
      · exact kept
  · intro written found parsed looked text failed
    rcases refusesWhole_apply distinct ⟨given, parsed, looked⟩ options resource _ failed with
      structural | ⟨_, known⟩
    · cases structural
    · exact known text rfl
  · intro written found base last looked split create text failed
    obtain ⟨_, _, same, _, _, leads⟩ := ResourceType.split_respell distinct looked
    rw [split] at same
    cases same
    cases Resource.stopsByShape_containers create leads resource _ failed

def addEmptyName : Patch := ⟨"add", "name.givenName", some (.object [])⟩

theorem addEmptyName_refused :
    (addEmptyName.apply staffType {} ⟨[]⟩).fault =
      some (.invalidValue "name.givenName" (.notUnwrappable (.object []))) ∧
    (addEmptyName.apply staffType {} ⟨[]⟩).value = ⟨[]⟩ := by
  have failed : (addEmptyName.apply staffType {} ⟨[]⟩).fault =
      some (.invalidValue "name.givenName" (.notUnwrappable (.object []))) := by decide +kernel
  exact ⟨failed, (apply_value_of_not_structural staffType_distinct {} addEmptyName (by decide)
    ⟨[]⟩).1 _ failed rfl⟩

end Patch
end Scim
