import Scim.Proofs.Patch.Narrowing
import Scim.Proofs.Resource.Keys

/-! The keys of a resource over a run of patches. The resource stays unambiguous, and what is new at
its top is spelled as it is declared, whichever patches succeed. -/
namespace Scim

def ResourceType.topNames (type : ResourceType) : List String :=
  (commonAttributes ++ type.core.attributes).map (·.name) ++ type.extensions.map (·.id)

/-- What changes of an unambiguous resource keep of its keys. -/
structure Resource.KeepsKeys (type : ResourceType) (before after : Resource) : Prop where
  clear : after.document.Unambiguous
  declared : ∀ key ∈ after.fields.keys, key ∈ before.fields.keys ∨ key ∈ type.topNames

/-- The resources after each patch of a run. A patch that fails leaves what it had changed by then,
and the run goes on from there. -/
def Patch.afterEach (type : ResourceType) (options : PatchOptions) :
    List Patch → Resource → List Resource
  | [], _ => []
  | patch :: rest, resource =>
    let after := (patch.apply type options resource).value
    after :: afterEach type options rest after

theorem Fields.mem_keys_put {fields : Fields} {name key : String} {entry : Option Json}
    (member : key ∈ (fields.put (fields.keyFor name) entry).keys) :
    key ∈ fields.keys ∨ key = name := by
  have spelled : fields.keyFor name ∈ fields.keys ∨ fields.keyFor name = name := by
    rw [keyFor]
    cases found : fields.key? name with
    | none => exact .inr rfl
    | some other => exact .inl (key?_mem found)
  cases entry with
  | none =>
    rw [put, keys_erase] at member
    exact .inl (List.mem_of_mem_filter member)
  | some value =>
    rw [put, keys_set] at member
    split at member
    · exact .inl member
    · rcases List.mem_append.mp member with before | new
      · exact .inl before
      · rw [List.mem_singleton.mp new]
        exact spelled

theorem Resource.Local.mem_keys {name key : String}
    {change : Resource → Outcome PatchError Resource} (placed : Local name change)
    {resource : Resource} (member : key ∈ (change resource).value.fields.keys) :
    key ∈ resource.fields.keys ∨ key = name := by
  obtain ⟨act, acts⟩ := placed
  rw [acts] at member
  exact Fields.mem_keys_put member

namespace ResourceType

variable {type : ResourceType} {path : Path} {found : Resolution}

theorem extension_mem_topNames {urn : String} {schema : Schema}
    (extension : type.extension? urn = some schema) : schema.id ∈ type.topNames :=
  List.mem_append_right _ (List.mem_map_of_mem (List.mem_of_find?_eq_some extension))

theorem exists_extension? {schema : Schema} (member : schema ∈ type.extensions) :
    ∃ first, type.extension? schema.id = some first := by
  apply Option.isSome_iff_exists.mp
  rw [extension?, List.find?_isSome]
  exact ⟨schema, member, decide_eq_true (Caseless.refl _)⟩

/-- A canonical path that leads into no extension starts at a common or core attribute. -/
theorem head_mem_topNames (looked : type.lookup path = some found)
    (unowned : (type.respell found path).schema.bind type.extension? = none) {segment : Segment}
    (starts : (type.respell found path).segments.head? = some segment) :
    segment.name ∈ type.topNames := by
  obtain ⟨attributes, held, walked⟩ := lookup_holds looked
  have declared : attributes ⊆ commonAttributes ++ type.core.attributes := by
    cases owner : found.owner with
    | common =>
      rw [owner] at held
      exact held ▸ List.subset_append_left ..
    | core =>
      rw [owner] at held
      exact held ▸ List.subset_append_right ..
    | extension schema =>
      rw [owner] at held
      obtain ⟨first, extension⟩ := exists_extension? held.1
      rw [respell, owner, canonicalUrn, Option.bind_some, extension] at unowned
      cases unowned
  have named : found.chain.head?.map (·.name) = some segment.name := by
    rw [← List.head?_map, ← names_respell looked, Path.names, List.head?_map, starts, Option.map_some]
  obtain ⟨definition, first, same⟩ := Option.map_eq_some_iff.mp named
  have member : definition ∈ attributes := by
    cases names : path.names with
    | nil =>
      rw [names, walk] at walked
      rw [← Option.some.inj walked] at first
      cases first
    | cons name more =>
      rw [names, walk] at walked
      split at walked
      next atName =>
        obtain ⟨rest, _, same⟩ := Option.map_eq_some_iff.mp walked
        rw [← same] at first
        cases first
        exact List.mem_of_find?_eq_some atName
      next => cases walked
  exact List.mem_append_left _ (same ▸ List.mem_map_of_mem (declared member))

end ResourceType

namespace Resource

variable {type : ResourceType}

theorem changeContainers_unresolved {create : Bool} {path base : Path} {last : Segment}
    (split : path.split? = some (base, last)) (unowned : base.schema.bind type.extension? = none)
    (below : base.isRoot = false) (missing : type.lookup base = none)
    (change : Segment → Json → Outcome PatchError Json) :
    changeContainers type create path change =
      fun resource => .stopped resource (.noAttribute base.render) := by
  funext resource
  simp [changeContainers, split, containers, home, unowned, below, missing, Outcome.done,
    Outcome.stopped, Focus.targets, Focus.document]

/-- A change at a canonical path is local to an entry whose name is declared. -/
theorem exists_local_changeContainers {written : Path} {found : Resolution}
    (looked : type.lookup written = some found) :
    ∃ name ∈ type.topNames, ∀ (create : Bool) (kind : OpKind) (definition : Attribute) (value : Json),
      Local name (changeContainers type create (type.respell found written)
        (containerChange kind (type.respell found written) definition value)) := by
  obtain ⟨base, last, split, parts, schema⟩ := ResourceType.respell_parts looked
  cases owned : base.schema.bind type.extension? with
  | some extended =>
    obtain ⟨urn, _, extension⟩ := Option.bind_eq_some_iff.mp owned
    exact ⟨extended.id, ResourceType.extension_mem_topNames extension, fun create kind definition value =>
      local_of_containers split (containersLocal_of_extension create base owned) _⟩
  | none =>
    have declared {segment : Segment} (first : (base.segments ++ [last]).head? = some segment) :
        segment.name ∈ type.topNames :=
      ResourceType.head_mem_topNames looked (schema ▸ owned) (parts ▸ first)
    cases starts : base.segments with
    | nil =>
      refine ⟨last.name, declared (by simp [starts]), fun create kind definition value => ?_⟩
      exact local_of_root split (by simp [Path.isRoot, starts]) owned ..
    | cons segment more =>
      refine ⟨segment.name, declared (by simp [starts]), fun create kind definition value => ?_⟩
      cases led : type.lookup base with
      | some part =>
        exact local_of_containers split (containersLocal_of_segment create base owned starts led) _
      | none =>
        rw [changeContainers_unresolved split owned (by simp [Path.isRoot, starts]) led]
        exact local_stopped ..

theorem unambiguous_containerChange (kind : OpKind) (path : Path) (definition : Attribute)
    {value : Json} (written : value.Unambiguous) (last : Segment) (place : Json)
    (clear : place.Unambiguous) :
    (containerChange kind path definition value last place).value.Unambiguous := by
  cases kind with
  | add => exact unambiguous_addAt written place clear
  | replace =>
    exact unambiguous_changeObjects (fun _ clear => clear.set_keyFor last.name written) place clear
  | remove =>
    exact unambiguous_changeObjects
      (fun _ clear => Fields.unambiguous_removeField clear last.name ..) place clear

namespace KeepsKeys

variable {before middle after : Resource}

theorem refl (clear : before.document.Unambiguous) : KeepsKeys type before before :=
  ⟨clear, fun _ member => .inl member⟩

theorem trans (one : KeepsKeys type before middle) (other : KeepsKeys type middle after) :
    KeepsKeys type before after := by
  refine ⟨other.clear, fun key member => ?_⟩
  rcases other.declared key member with there | new
  · exact one.declared key there
  · exact .inr new

theorem andThen {outcome : Outcome PatchError Resource}
    {next : Resource → Outcome PatchError Resource} (one : KeepsKeys type before outcome.value)
    (other : ∀ middle, middle.document.Unambiguous → KeepsKeys type middle (next middle).value) :
    KeepsKeys type before (outcome.andThen next).value := by
  unfold Outcome.andThen
  split
  · exact one.trans (other _ one.clear)
  · exact one

end KeepsKeys
end Resource

theorem Json.unambiguous_unwrap {value inner : Json} (clear : value.Unambiguous)
    (unwrapped : value.unwrap = some inner) : inner.Unambiguous := by
  have object {value : Json} (clear : value.Unambiguous)
      (unwrapped : value.unwrapObject = some inner) : inner.Unambiguous := by
    cases value with
    | object fields => exact clear.of_find? unwrapped
    | _ =>
      cases unwrapped
      exact clear
  unfold unwrap at unwrapped
  split at unwrapped
  · cases unwrapped
  next first rest _ =>
    exact object ((unambiguous_array _).mp clear first List.mem_cons_self) unwrapped
  · cases unwrapped
  · exact object clear unwrapped

namespace Patch

variable {patch : Patch} {type : ResourceType} {options : PatchOptions} {kind : OpKind}
  {resource : Resource}

theorem unambiguous_preparedValue (supplied : ∀ value ∈ patch.value, value.Unambiguous)
    {definition : Attribute} {value : Json}
    (prepared : patch.preparedValue options kind definition = .ok value) : value.Unambiguous := by
  unfold preparedValue at prepared
  split at prepared
  · cases prepared
  next given held =>
    have clear := supplied given held
    split at prepared
    · unfold Attribute.normalize at prepared
      split at prepared
      · split at prepared
        next inner unwrapped =>
          cases prepared
          unfold Attribute.coerce
          split
          · trivial
          · split
            · trivial
            · exact Json.unambiguous_unwrap clear unwrapped
        next => cases prepared
      · cases prepared
        exact clear
    · cases prepared
      exact clear

theorem keepsKeys_applyResolved (supplied : ∀ value ∈ patch.value, value.Unambiguous)
    {written : Path} {found : Resolution} (looked : type.lookup written = some found)
    (definition : Attribute) (clear : resource.document.Unambiguous) :
    resource.KeepsKeys type
      (patch.applyResolved type options kind (type.respell found written) definition resource).value := by
  rcases patch.applyResolved_cases type options kind (type.respell found written) definition with
    ⟨error, stops⟩ | ⟨value, given, changes⟩
  · rw [stops]
    exact .refl clear
  · have written : value.Unambiguous := by
      rcases given with rfl | prepared
      · trivial
      · exact unambiguous_preparedValue supplied prepared
    obtain ⟨name, declared, placed⟩ := Resource.exists_local_changeContainers looked
    rw [changes]
    refine ⟨Resource.unambiguous_changeContainers
      (Resource.unambiguous_containerChange kind _ definition written) clear, ?_⟩
    intro key member
    rcases (placed ..).mem_keys member with before | rfl
    · exact .inl before
    · exact .inr declared

/-- All that a patch with a path can do: it is refused at once, or it is applied at a path in
canonical spelling, by its own operation. -/
theorem applyAtPath_resolved (patch : Patch) (type : ResourceType) (options : PatchOptions)
    (kind : OpKind) :
    (∃ error, ∀ resource,
      patch.applyAtPath type options kind resource = .stopped resource error) ∨
    ∃ read found operation definition, type.lookup read = some found ∧
      (patch.kind? = some kind → operation = kind) ∧ ∀ resource,
      patch.applyAtPath type options kind resource =
        patch.applyResolved type options operation (type.respell found read) definition resource := by
  simp only [applyAtPath]
  cases spelled : type.resolveText patch.path with
  | error error => exact .inl ⟨error, fun _ => rfl⟩
  | ok resolved =>
    obtain ⟨_, attributed⟩ := resolved
    obtain ⟨read, found, _, looked, rfl⟩ := ResourceType.resolveText_eq_ok spelled
    dsimp only
    cases rewritten : patch.removeByValueIf options.removeByValue (type.respell found read)
        attributed.definition with
    | error error => exact .inl ⟨error, fun _ => rfl⟩
    | ok removal =>
      cases removal with
      | none =>
        exact .inr ⟨read, found, kind, attributed.definition, looked, fun _ => rfl, fun _ => rfl⟩
      | some removal =>
        have own (known : patch.kind? = some kind) : OpKind.remove = kind := by
          by_contra other
          rw [removeByValueIf_of_kind known (Ne.symm other)] at rewritten
          cases rewritten
        cases again : type.resolveText removal.path with
        | error error => exact .inl ⟨error, fun _ => by simp only [again]⟩
        | ok resolved =>
          obtain ⟨_, reattributed⟩ := resolved
          obtain ⟨reread, refound, _, relooked, rfl⟩ := ResourceType.resolveText_eq_ok again
          exact .inr ⟨reread, refound, .remove, reattributed.definition, relooked, own,
            fun _ => by simp only [again]; rfl⟩

theorem keepsKeys_applyAtPath (supplied : ∀ value ∈ patch.value, value.Unambiguous)
    (clear : resource.document.Unambiguous) :
    resource.KeepsKeys type (patch.applyAtPath type options kind resource).value := by
  rcases patch.applyAtPath_resolved type options kind with
    ⟨error, stops⟩ | ⟨read, found, operation, definition, looked, -, applies⟩
  · rw [stops]
    exact .refl clear
  · rw [applies]
    exact keepsKeys_applyResolved supplied looked definition clear

theorem keepsKeys_add {path : String} {value : Json} (supplied : value.Unambiguous)
    (clear : resource.document.Unambiguous) :
    resource.KeepsKeys type ((Patch.add path value).applyAtPath type options .add resource).value := by
  refine keepsKeys_applyAtPath (fun given member => ?_) clear
  cases member
  exact supplied

theorem keepsKeys_addQualified (urn : String) (fields : List (String × Json))
    (supplied : ∀ field ∈ fields, field.2.Unambiguous) (clear : resource.document.Unambiguous) :
    resource.KeepsKeys type (addQualified type options urn fields resource).value := by
  induction fields generalizing resource with
  | nil => exact .refl clear
  | cons field rest ih =>
    obtain ⟨first, others⟩ := List.forall_mem_cons.mp supplied
    exact (keepsKeys_add first clear).andThen fun _ => ih others

mutual

theorem keepsKeys_addPathless (value : Json) (supplied : value.Unambiguous)
    (resource : Resource) (clear : resource.document.Unambiguous) :
    resource.KeepsKeys type (addPathless type options resource value).value := by
  cases value with
  | object fields =>
    rw [addPathless]
    exact keepsKeys_addFields fields ((Json.unambiguous_object fields).mp supplied).2 resource clear
  | _ => exact .refl clear

theorem keepsKeys_addFields (fields : List (String × Json))
    (supplied : ∀ field ∈ fields, field.2.Unambiguous) (resource : Resource)
    (clear : resource.document.Unambiguous) :
    resource.KeepsKeys type (addFields type options fields resource).value := by
  cases fields with
  | nil => exact .refl clear
  | cons field rest =>
    obtain ⟨key, value⟩ := field
    obtain ⟨first, others⟩ := List.forall_mem_cons.mp supplied
    have nested := keepsKeys_addPathless value first resource clear
    have named : resource.KeepsKeys type
        ((Patch.add key value).applyAtPath type options .add resource).value :=
      keepsKeys_add first clear
    unfold addFields
    refine Resource.KeepsKeys.andThen ?_ (keepsKeys_addFields rest others)
    split
    next schema fields _ =>
      exact keepsKeys_addQualified schema.id fields ((Json.unambiguous_object fields).mp first).2 clear
    next =>
      split
      · exact nested
      · exact named

end

theorem keepsKeys_apply (supplied : ∀ value ∈ patch.value, value.Unambiguous)
    (clear : resource.document.Unambiguous) :
    resource.KeepsKeys type (patch.apply type options resource).value := by
  unfold apply
  split
  · exact .refl clear
  next kind _ =>
    split
    · exact keepsKeys_applyAtPath supplied clear
    · split
      next value given _ => exact keepsKeys_addPathless value (supplied value given) resource clear
      next => exact .refl clear
      next => exact .refl clear

/-- A run that stops at the first failure ends at one of the resources after each patch. -/
theorem applyAll_mem_afterEach (patches : List Patch) (resource : Resource) :
    (applyAll type options patches resource).value ∈
      resource :: afterEach type options patches resource := by
  induction patches generalizing resource with
  | nil => exact List.mem_cons_self
  | cons patch rest ih =>
    refine List.mem_cons_of_mem _ ?_
    rw [applyAll, Outcome.andThen]
    split
    · exact ih _
    · exact List.mem_cons_self

/-- **Keys stay in order.** Over a run of patches with unambiguous values an unambiguous resource
stays unambiguous after every patch, and each key that it gets at the top is spelled as a common
attribute, a core attribute or an extension is declared. -/
theorem keepsKeys_run {patches : List Patch}
    (supplied : ∀ patch ∈ patches, ∀ value ∈ patch.value, value.Unambiguous)
    (clear : resource.document.Unambiguous) :
    (∀ after ∈ afterEach type options patches resource, resource.KeepsKeys type after) ∧
      resource.KeepsKeys type (applyAll type options patches resource).value := by
  have each : ∀ after ∈ afterEach type options patches resource, resource.KeepsKeys type after := by
    induction patches generalizing resource with
    | nil => simp [afterEach]
    | cons patch rest ih =>
      obtain ⟨first, others⟩ := List.forall_mem_cons.mp supplied
      have step : resource.KeepsKeys type (patch.apply type options resource).value :=
        keepsKeys_apply first clear
      intro after member
      rcases List.mem_cons.mp member with rfl | later
      · exact step
      · exact step.trans (ih others step.clear after later)
  refine ⟨each, ?_⟩
  rcases List.mem_cons.mp (applyAll_mem_afterEach patches resource) with same | later
  · rw [same]
    exact .refl clear
  · exact each _ later

def nameAndDepartment : List Patch :=
  [⟨"add", "name.GivenName", some (.string "Kim")⟩,
    ⟨"replace", "urn:EXT:work:department.code", some (.string "S")⟩,
    ⟨"add", "", some (.object [("URN:ext:WORK", .object [("Department", .string "Sales")])])⟩]

theorem nameAndDepartment_keys :
    (∀ after ∈ afterEach staffType {} nameAndDepartment ⟨[("NAME", .null)]⟩,
      Resource.KeepsKeys staffType ⟨[("NAME", .null)]⟩ after) ∧
    (afterEach staffType {} nameAndDepartment ⟨[("NAME", .null)]⟩).map (·.fields.keys) =
      [["NAME"], ["NAME"], ["NAME", "urn:ext:Work"]] := by
  refine ⟨(keepsKeys_run ?_ ?_).1, by decide +kernel⟩
  · simp only [nameAndDepartment, List.forall_mem_cons, Option.mem_def, Option.some.injEq,
      forall_eq', Json.Unambiguous, Json.fieldsUnambiguous, Fields.Distinct, Fields.keys]
    simp
  · simp [Resource.document, Fields.Distinct, Fields.keys, Json.Unambiguous]

end Patch
end Scim
