import Scim.Proofs.Filter.Qualified
import Scim.Proofs.Patch.Locality
import Scim.Proofs.Path.Qualified
import Scim.Proofs.Schema.Extensions

/-! Additions under the URN of an extension. Each key is read behind the URN, so what it holds stays
in the extension unless URN and key together go on to the URN of another schema. -/
namespace Scim

/-- Read behind a URN, a key goes on to the URN of a schema: cut at its last colon ahead of any
filter, it leaves one. -/
def ResourceType.diverts (type : ResourceType) (urn key : String) : Bool :=
  match splitLastColon (key.toList.takeWhile (· != '[')) with
  | some (before, _) =>
    type.ids.any fun id => decide (Caseless id (urn ++ ":" ++ String.ofList before))
  | none => false

namespace ResourceType

variable {type : ResourceType} {schema : Schema} {path : Path} {found : Resolution}

theorem schema?_of_extension (distinct : type.Distinct) (attached : schema ∈ type.extensions)
    {urn : String} (own : Caseless urn schema.id) : type.schema? urn = some schema := by
  have foreign : ¬ Caseless type.core.id urn :=
    fun same => not_caseless_core distinct attached (same.trans own)
  rw [schema?, if_neg foreign, extension?_congr type own, extension?_self distinct attached]

/-- What an extension's own URN qualifies is found in that extension. -/
theorem owner_of_extension (distinct : type.Distinct) (attached : schema ∈ type.extensions)
    (qualified : path.schema = some schema.id) (looked : type.lookup path = some found) :
    found.owner = .extension schema := by
  rw [lookup_of_extension distinct attached qualified (Caseless.refl _)] at looked
  split at looked
  · cases looked
  · obtain ⟨chain, _, rfl⟩ := Option.map_eq_some_iff.mp looked
    rfl

/-- Where no URN goes on from another, no key does. -/
theorem diverts_eq_false {urn : String}
    (apart : ∀ id ∈ type.ids, ¬ folded (urn ++ ":") <+: folded id) (key : String) :
    type.diverts urn key = false := by
  unfold diverts
  split
  next before after _ =>
    refine List.any_eq_false.mpr fun id member same => apart id member ?_
    refine ⟨folded (String.ofList before), ?_⟩
    rw [of_decide_eq_true same, folded, folded, folded, ← List.map_append, ← String.toList_append]
  next => rfl

/-- A key that does not go on to the URN of another schema is looked up in the extension. -/
theorem owner_of_parse_qualified (distinct : type.Distinct) (spells : type.SpellsUrns)
    (attached : schema ∈ type.extensions) {key : String}
    (straight : type.diverts schema.id key = false)
    (parsed : Path.parse (schema.id ++ ":" ++ key) = .ok path)
    (looked : type.lookup path = some found) : found.owner = .extension schema := by
  obtain ⟨starts, unfiltered⟩ :=
    spells schema.id (List.mem_cons_of_mem _ (List.mem_map_of_mem attached))
  have qualified := Path.schema_of_parse_qualified starts unfiltered parsed
  rw [diverts] at straight
  split at qualified
  next before after cut =>
    rw [cut] at straight
    obtain ⟨id, member, same⟩ := exists_id_of_lookup looked qualified
    exact absurd (decide_eq_true same) (List.any_eq_false.mp straight id member)
  next => exact owner_of_extension distinct attached qualified looked

/-- A key that does go on is never looked up in the extension. -/
theorem owner_ne_of_diverts (spells : type.SpellsUrns) (attached : schema ∈ type.extensions)
    {key : String} (further : type.diverts schema.id key = true)
    (parsed : Path.parse (schema.id ++ ":" ++ key) = .ok path)
    (looked : type.lookup path = some found) : found.owner ≠ .extension schema := by
  obtain ⟨starts, unfiltered⟩ :=
    spells schema.id (List.mem_cons_of_mem _ (List.mem_map_of_mem attached))
  have qualified := Path.schema_of_parse_qualified starts unfiltered parsed
  rw [diverts] at further
  split at qualified
  next before after cut =>
    intro owned
    rcases qualifier_cases looked qualified with ⟨unowned, _⟩ | ⟨other, extension, own⟩
    · rw [owned] at unowned
      cases unowned
    · rw [owned] at extension
      cases extension
      have longer := congrArg List.length own
      simp [folded] at longer
  next cut =>
    rw [cut] at further
    cases further

end ResourceType

namespace Resource

variable {name : String} {change : Resource → Outcome PatchError Resource}

namespace LocalKeeping

theorem done (name : String) : LocalKeeping name .done :=
  ⟨.done, fun _ taken => taken, fun resource => by
    simp [Outcome.done, Outcome.map, Fields.put_find?]⟩

theorem stopped (name : String) (error : PatchError) :
    LocalKeeping name fun resource => .stopped resource error :=
  ⟨fun entry => .stopped entry error, fun _ taken => taken, fun resource => by
    simp [Outcome.stopped, Outcome.map, Fields.put_find?]⟩

/-- The second of two changes finds the entry that the first has put. -/
theorem andThen {next : Resource → Outcome PatchError Resource} (placed : LocalKeeping name change)
    (later : LocalKeeping name next) :
    LocalKeeping name fun resource => (change resource).andThen next := by
  obtain ⟨act, keeps, acts⟩ := placed
  obtain ⟨actLater, keepsLater, actsLater⟩ := later
  refine ⟨fun entry => (act entry).andThen actLater, fun entry taken => ?_, fun resource => ?_⟩
  · simp only [Outcome.andThen] at taken
    split at taken
    · exact keeps entry (keepsLater _ taken)
    · exact keeps entry taken
  · have kept := keeps (resource.fields.find? name)
    simp only [acts]
    generalize act (resource.fields.find? name) = first at kept ⊢
    obtain ⟨entry, fault⟩ := first
    cases fault with
    | some fault => rfl
    | none =>
      simp only [Outcome.map, Outcome.andThen, actsLater]
      cases entry with
      | none =>
        have unchanged := resource.fields.put_find? name
        rw [kept rfl] at unchanged
        simp only [unchanged, kept rfl]
      | some value =>
        simp only [Fields.put_some, Fields.keyFor_set_keyFor, Fields.find?_written, Fields.put_set]

end LocalKeeping
end Resource

namespace Patch

variable {patch : Patch} {type : ResourceType} {schema : Schema} {written : Path}
  {found : Resolution}

theorem localKeeping_applyResolved (distinct : type.Distinct)
    (looked : type.lookup written = some found) (owned : found.owner = .extension schema)
    (patch : Patch) (options : PatchOptions) (kind : OpKind) (definition : Attribute) :
    Resource.LocalKeeping schema.id
      (patch.applyResolved type options kind (type.respell found written) definition) := by
  rcases patch.applyResolved_cases type options kind (type.respell found written) definition with
    ⟨error, stops⟩ | ⟨value, _, changes⟩
  · rw [funext stops]
    exact .stopped schema.id error
  · obtain ⟨base, last, split, _, sameSchema, _⟩ := ResourceType.split_respell distinct looked
    have extension := ResourceType.extension?_canonicalUrn distinct looked
    rw [← sameSchema, owned] at extension
    rw [funext changes]
    exact Resource.localKeeping_of_containers split
      (Resource.containersLocal_of_extension _ base extension) _

/-- A patch whose path leads into an extension changes the entry of that extension, and does not
take it away. -/
theorem localKeeping_applyAtPath (distinct : type.Distinct)
    (leads : patch.LeadsTo type written found) (owned : found.owner = .extension schema)
    (options : PatchOptions) (kind : OpKind) :
    Resource.LocalKeeping schema.id (patch.applyAtPath type options kind) := by
  rcases applyAtPath_cases distinct leads options kind with
    ⟨error, _, stops⟩ | ⟨further, read, operation, definition, looked, applies⟩
  · rw [funext stops]
    exact .stopped schema.id error
  · rw [funext applies]
    exact localKeeping_applyResolved distinct looked owned further options operation definition

/-- One field under the URN of an extension. -/
theorem localKeeping_add (distinct : type.Distinct) (spells : type.SpellsUrns)
    (attached : schema ∈ type.extensions) {key : String}
    (straight : type.diverts schema.id key = true →
      ∀ resolved, type.resolveText (schema.id ++ ":" ++ key) ≠ .ok resolved)
    (options : PatchOptions) (value : Json) :
    Resource.LocalKeeping schema.id
      ((Patch.add (schema.id ++ ":" ++ key) value).applyAtPath type options .add) := by
  cases spelled : type.resolveText (schema.id ++ ":" ++ key) with
  | error error =>
    have stops (resource : Resource) :
        (Patch.add (schema.id ++ ":" ++ key) value).applyAtPath type options .add resource =
          .stopped resource error := by
      simp only [applyAtPath, Patch.add, spelled]
    rw [funext stops]
    exact .stopped schema.id error
  | ok resolved =>
    obtain ⟨path, attributed⟩ := resolved
    obtain ⟨read, found, parsed, looked, rfl⟩ := ResourceType.resolveText_eq_ok spelled
    have leads : (Patch.add (schema.id ++ ":" ++ key) value).LeadsTo type read found :=
      ⟨by simp [Patch.add], parsed, looked⟩
    have stays : type.diverts schema.id key = false :=
      Bool.eq_false_iff.mpr fun further => straight further _ spelled
    exact localKeeping_applyAtPath distinct leads
      (ResourceType.owner_of_parse_qualified distinct spells attached stays parsed looked)
      options .add

theorem localKeeping_addQualified (distinct : type.Distinct) (spells : type.SpellsUrns)
    (attached : schema ∈ type.extensions) (options : PatchOptions)
    (fields : List (String × Json))
    (straight : ∀ field ∈ fields, type.diverts schema.id field.1 = true →
      ∀ resolved, type.resolveText (schema.id ++ ":" ++ field.1) ≠ .ok resolved) :
    Resource.LocalKeeping schema.id (addQualified type options schema.id fields) := by
  induction fields with
  | nil => exact .done schema.id
  | cons field rest ih =>
    obtain ⟨first, others⟩ := List.forall_mem_cons.mp straight
    exact (localKeeping_add distinct spells attached first options field.2).andThen (ih others)

variable {key : String} {fields : List (String × Json)}

theorem apply_eq_addQualified (distinct : type.Distinct) (attached : schema ∈ type.extensions)
    (own : Caseless key schema.id) (options : PatchOptions) (added : patch.kind? = some .add)
    (root : patch.path = "") (held : patch.value = some (.object [(key, .object fields)])) :
    patch.apply type options = addQualified type options schema.id fields := by
  funext resource
  have led := ResourceType.schema?_of_extension distinct attached own
  have empty : patch.path.isEmpty = true := by simpa using root
  have whole (outcome : Outcome PatchError Resource) :
      outcome.andThen (addFields type options []) = outcome := by
    obtain ⟨value, fault⟩ := outcome
    cases fault <;> rfl
  unfold apply
  simp only [added, empty, Bool.not_true, Bool.false_eq_true, if_false, held]
  rw [addPathless]
  unfold addFields
  simp only [led, whole]

/-- **What is added under an extension stays there.** An addition without a path whose value holds
an object under the URN of an extension reads and changes the entry of that extension alone, whether
it succeeds or stops at one of the fields, if no key goes on from the URN to that of another schema
and leads to an attribute there. -/
theorem confinedTo_extension (distinct : type.Distinct) (spells : type.SpellsUrns)
    (attached : schema ∈ type.extensions) (own : Caseless key schema.id)
    (straight : ∀ field ∈ fields, type.diverts schema.id field.1 = true →
      ∀ resolved, type.resolveText (schema.id ++ ":" ++ field.1) ≠ .ok resolved)
    (options : PatchOptions) (added : patch.kind? = some .add) (root : patch.path = "")
    (held : patch.value = some (.object [(key, .object fields)])) :
    Resource.ConfinedTo schema.id (patch.apply type options) ∧
      ∀ (resource : Resource) (name : String), ¬ Caseless name schema.id →
        (patch.apply type options resource).value.fields.find? name = resource.fields.find? name := by
  have placed : Resource.Local schema.id (patch.apply type options) := by
    rw [apply_eq_addQualified distinct attached own options added root held]
    exact (localKeeping_addQualified distinct spells attached options fields straight).toLocal
  refine ⟨placed.confinedTo, fun resource name other => ?_⟩
  obtain ⟨act, acts⟩ := placed
  rw [acts]
  refine Fields.find?_put_other _ (fun same => other ?_) _
  exact same.symm.trans (Fields.keyFor_caseless resource.fields schema.id)

def addDepartmentAndName : Patch :=
  ⟨"add", "", some (.object [("URN:EXT:Work", .object [
    ("Department", .string "Sales"), ("name:givenName", .string "Ann")])])⟩

theorem addDepartmentAndName_confined :
    addDepartmentAndName.apply staffType {} ⟨[("name", .null)]⟩ =
      .stopped ⟨[("name", .null), ("urn:ext:Work", .object [("department", .string "Sales")])]⟩
        (.noAttribute "urn:ext:Work:name:givenName") ∧
    Resource.ConfinedTo "urn:ext:Work" (addDepartmentAndName.apply staffType {}) := by
  have apart : ∀ id ∈ staffType.ids, ¬ folded ("urn:ext:Work" ++ ":") <+: folded id := by
    decide +kernel
  refine ⟨by decide +kernel, (confinedTo_extension staffType_distinct staffType_spellsUrns
    List.mem_cons_self (by decide) (fun field _ further => ?_) {} (by decide) rfl rfl).1⟩
  rw [ResourceType.diverts_eq_false apart] at further
  cases further

def memberType : ResourceType where
  core := { id := "urn:acme:User", attributes := [{ name := "userName" }] }
  extensions := [{ id := "urn:acme", attributes := [{ name := "department" }] }]

def addUserName : Patch :=
  ⟨"add", "", some (.object [("urn:acme", .object [("User:userName", .string "Ann")])])⟩

/-- URN and key together name the core schema, and its attribute is changed. -/
theorem addUserName_diverted :
    memberType.Distinct ∧ memberType.SpellsUrns ∧
      memberType.diverts "urn:acme" "User:userName" = true ∧
      addUserName.apply memberType {} ⟨[]⟩ = .done ⟨[("userName", .string "Ann")]⟩ := by
  refine ⟨?_, ?_, by decide +kernel, by decide +kernel⟩
  · simp only [ResourceType.Distinct]
    decide
  · unfold ResourceType.SpellsUrns StartsUrn
    decide

end Patch
end Scim
