import Scim.Proofs.Filter.Operators
import Scim.Proofs.Filter.Qualified
import Scim.Proofs.Patch.Narrowing
import Scim.Proofs.Resource.Reading

/-! What a patch writes is found again by a comparison of the same path. The writer resolves the path
and the comparison walks its names through the document, from the entry of its URN if it has one. -/
namespace Scim

/-- An addition or replacement at a path without filters, and the value it is to write. -/
structure Patch.Writes (patch : Patch) (type : ResourceType) (options : PatchOptions)
    (kind : OpKind) (written : Path) (found : Resolution) (definition : Attribute) (value : Json) :
    Prop extends patch.Addresses type kind written found where
  writes : kind ≠ .remove
  plain : ∀ segment ∈ written.segments, segment.filter = none
  target : found.chain.getLast? = some definition
  prepared : patch.preparedValue options kind definition = .ok value

def Json.holdsObject : Json → Bool
  | .object _ => true
  | .array items => items.any Json.isObject
  | _ => false

/-- The containers of an attribute, created where they can be, have an object among them. -/
def Resource.ReachesObject (type : ResourceType) (path : Path) (resource : Resource) : Prop :=
  ∃ base last, path.split? = some (base, last) ∧
    ∃ place ∈ (resource.containers type true base).value.targets, place.holdsObject = true

namespace Json

variable {value : Json}

theorem present_of_isScalar (scalar : value.isScalar = true) : value.present = [value] := by
  cases value with
  | string | number | bool => rfl
  | null | array | object => cases scalar

theorem elementsOf_of_isScalar (scalar : value.isScalar = true) :
    MultiValued.elementsOf value = [value] := by
  cases value with
  | string | number | bool => rfl
  | null | array | object => cases scalar

theorem mem_present_array {items : List Json} (scalar : value.isScalar = true)
    (member : value ∈ items) : value ∈ (Json.array items).present := by
  refine List.mem_filter.mpr ⟨member, ?_⟩
  cases value with
  | string | number | bool => rfl
  | null | array | object => cases scalar

end Json

/-- What an entry holds after a scalar was written to it has the scalar among its elements. -/
theorem OpKind.exists_entryEdit {kind : OpKind} (writes : kind ≠ .remove) (definition : Attribute)
    {value : Json} (scalar : value.isScalar = true) (last : Segment) (held : Option Json) :
    ∃ entry, kind.entryEdit definition value last held = some entry ∧ value ∈ entry.present := by
  have single : value ∈ value.present := by
    rw [Json.present_of_isScalar scalar]
    exact List.mem_cons_self
  cases kind with
  | remove => exact absurd rfl writes
  | replace => exact ⟨value, rfl, single⟩
  | add =>
    rw [entryEdit]
    split
    · refine ⟨_, rfl, Json.mem_present_array scalar ?_⟩
      rw [MultiValued.add, Json.elementsOf_of_isScalar scalar]
      exact List.mem_append_right _ List.mem_cons_self
    · exact ⟨value, rfl, single⟩

/-- From a container the name of the attribute leads to what was written, in any case. -/
theorem Resource.exists_written {kind : OpKind} (writes : kind ≠ .remove) {path : Path}
    {definition : Attribute} {value : Json} (scalar : value.isScalar = true) {last : Segment}
    {place changed : Json} (clear : place.Unambiguous) (holds : place.holdsObject = true)
    (made : (containerChange kind path definition value last place).done? = some changed)
    {spelled : String} (same : Caseless spelled last.name) :
    ∃ entry, Json.Leads [spelled] changed entry ∧ value ∈ entry.present := by
  have present : place ≠ .null := by
    rintro rfl
    cases holds
  rw [done?_containerChange kind path definition value last place present] at made
  cases place with
  | object fields =>
    have distinct := ((Json.unambiguous_object fields).mp clear).1
    obtain ⟨entry, edited, within⟩ := OpKind.exists_entryEdit writes definition scalar last
      (Fields.find? fields last.name)
    rw [Json.through, kind.inObject_eq_put, edited] at made
    cases made
    have leads : Json.Leads [] entry entry := rfl
    exact ⟨entry, leads.of_find? (Fields.find?_set_keyFor distinct same entry), within⟩
  | array items =>
    obtain ⟨item, member, object⟩ := List.any_eq_true.mp holds
    obtain ⟨results, mapped, rfl⟩ := Option.map_eq_some_iff.mp made
    obtain ⟨result, among, edited⟩ := exists_mem_of_mapM mapped member
    cases item with
    | object fields =>
      have distinct := ((Json.unambiguous_object fields).mp
        ((Json.unambiguous_array items).mp clear _ member)).1
      have overwritten : (kind.holderEdit definition value last).inItem fields =
          Fields.set fields (Fields.keyFor fields last.name) value := by
        cases kind with
        | remove => exact absurd rfl writes
        | add | replace => rfl
      rw [Json.throughItem, Option.map_some, overwritten] at edited
      cases edited
      have leads : Json.Leads [] value value := rfl
      refine ⟨value, (leads.of_find? (Fields.find?_set_keyFor distinct same value)).of_item
        (List.cons_ne_nil _ _) among, ?_⟩
      rw [Json.present_of_isScalar scalar]
      exact List.mem_cons_self
    | _ => cases object
  | _ => cases holds

namespace ResourceType

variable {type : ResourceType} {path : Path} {found : Resolution}

/-- A name of a path that was read is no URN. -/
theorem not_caseless_topName {text : String} (parsed : Path.parse text = .ok path)
    (looked : type.lookup path = some found) (unowned : found.owner.extension? = none) {urn : String}
    (qualified : path.schema = some urn) : ¬ Caseless found.topName urn := by
  intro same
  have spelled := isSpelled_of_parse parsed looked
  obtain ⟨u, r, n, rest, starts, _⟩ := (startsUrn_iff urn.toList).mp (spelled.urn urn qualified).1
  have colon : ':' ∈ found.topName.toList :=
    mem_of_lowered (by decide) (Eq.symm same) (by rw [starts]; simp)
  have names := chain_caseless looked
  rw [Resolution.topName_of_unowned unowned] at colon
  cases chain : found.chain with
  | nil => simp [chain] at colon
  | cons definition others =>
    rw [chain, List.map_cons] at names
    obtain ⟨name, more, sameName, _, given⟩ := List.forall₂_cons_left_iff.mp names
    have first : name ∈ path.names := given ▸ List.mem_cons_self
    obtain ⟨segment, member, rfl⟩ := List.mem_map.mp first
    rw [chain] at colon
    have allowed := (spelled.named segment member).allowed ':'
      (mem_of_lowered (by decide) sameName colon)
    cases allowed

end ResourceType

/-- What the names of a path lead to, from the entry of its URN if that is to be entered, is
compared. -/
theorem Path.mem_select_of_leads {path : Path} {fields : Fields} {home : List String}
    {entry value : Json} (leads : Json.Leads (home ++ path.names) (.object fields) entry)
    (within : value ∈ entry.present)
    (starts : home = path.schema.toList ∨
      home = [] ∧ ∀ urn ∈ path.schema, fields.find? urn = none) :
    value ∈ path.select (.object fields) := by
  have onward {start : Json} (leads : Json.Leads path.names start entry)
      (begins : path.start (.object fields) = start) : value ∈ path.select (.object fields) := by
    rw [select, begins]
    exact List.mem_flatMap.mpr ⟨entry, leads.mem_reached List.mem_cons_self, within⟩
  cases qualified : path.schema with
  | none =>
    rw [qualified] at starts
    have unentered : home = [] := by
      rcases starts with same | ⟨same, _⟩ <;> exact same
    rw [unentered] at leads
    refine onward leads ?_
    simp only [Path.start, qualified]
  | some urn =>
    rw [qualified] at starts
    rcases starts with same | ⟨same, absent⟩
    · rw [same] at leads
      obtain ⟨child, held, further⟩ := leads
      rw [Json.children, Option.mem_toList] at held
      refine onward further ?_
      simp only [Path.start, qualified, Option.mem_def.mp held, Option.getD_some]
    · rw [same] at leads
      refine onward leads ?_
      simp only [Path.start, qualified, absent urn rfl, Option.getD_none]

namespace Patch

variable {patch : Patch} {type : ResourceType} {options : PatchOptions} {kind : OpKind}
  {written : Path} {found : Resolution} {definition : Attribute} {value : Json}

namespace Writes

theorem apply_eq (writes : patch.Writes type options kind written found definition value)
    (resource : Resource) :
    patch.apply type options resource =
      resource.changeContainers type true (type.respell found written)
        (Resource.containerChange kind (type.respell found written) definition value) := by
  have creates : (kind != .remove) = true := bne_iff_ne.mpr writes.writes
  rw [writes.apply_of_kept writes.target
    (removeByValueIf_of_kind writes.known writes.writes ..),
    applyResolved_eq _ _ _ _ _ _ value (.inr writes.prepared), creates]

/-- Where the core or the common attributes own the target, no entry comes up under the URN of the
path. -/
theorem find?_qualifier (distinct : type.Distinct)
    (writes : patch.Writes type options kind written found definition value)
    (unowned : found.owner.extension? = none) {resource result : Resource}
    (unshadowed : ∀ key ∈ resource.fields.keys, ¬ Caseless key type.core.id)
    (done : patch.apply type options resource = .done result) {urn : String}
    (qualified : written.schema = some urn) : result.fields.find? urn = none := by
  obtain ⟨act, acts⟩ := local_applyResolved distinct writes.resolved patch options kind definition
  rw [writes.apply_of_kept writes.target (removeByValueIf_of_kind writes.known writes.writes ..),
    acts] at done
  have fields := congrArg (fun outcome => outcome.value.fields) done
  have foreign : ¬ Caseless (resource.fields.keyFor found.topName) urn := fun same =>
    ResourceType.not_caseless_topName writes.parsed writes.resolved unowned qualified
      ((Fields.keyFor_caseless resource.fields found.topName).symm.trans same)
  have core : Caseless type.core.id urn := by
    rcases ResourceType.qualifier_cases writes.resolved qualified with
      ⟨_, same⟩ | ⟨schema, owned, _⟩
    · exact same
    · rw [unowned] at owned
      cases owned
  have kept : result.fields.find? urn = resource.fields.find? urn := by
    rw [← Fields.find?_put_other resource.fields foreign]
    exact congrArg (Fields.find? · urn) fields.symm
  rw [kept, Fields.find?_eq_none_iff, Fields.key?_eq_none_iff]
  exact fun key member same => unshadowed key member (same.trans core.symm)

/-- Written names are those of the canonical path in another case, ahead of the last and in it. -/
theorem names_parts (writes : patch.Writes type options kind written found definition value)
    {init : List Segment} {last : Segment}
    (parts : (type.respell found written).segments = init ++ [last]) :
    ∃ ahead spelled, written.names = ahead ++ [spelled] ∧
      List.Forall₂ Caseless ahead (init.map (·.name)) ∧ Caseless spelled last.name := by
  have names : List.Forall₂ Caseless written.names (init.map (·.name) ++ [last.name]) := by
    have canonical : (type.respell found written).names = init.map (·.name) ++ [last.name] := by
      rw [Path.names, parts, List.map_append, List.map_singleton]
    rw [← canonical, ResourceType.names_respell writes.resolved]
    exact (ResourceType.chain_caseless writes.resolved).flip.imp fun _ _ => Caseless.symm
  have before := List.forall₂_take_append _ _ _ names
  have behind := List.forall₂_drop_append _ _ _ names
  obtain ⟨spelled, _, same, none, rest⟩ := List.forall₂_cons_right_iff.mp behind
  cases none
  exact ⟨_, spelled, by rw [← rest, List.take_append_drop], before, same⟩

theorem plain_respell (writes : patch.Writes type options kind written found definition value) :
    ∀ segment ∈ (type.respell found written).segments, segment.filter = none :=
  ResourceType.unfiltered_respell writes.plain

/-- The names from the root of the document to the home of the attribute, in the spelling of the
path. -/
theorem exists_home (distinct : type.Distinct)
    (writes : patch.Writes type options kind written found definition value)
    (placed : written.schema ≠ none ∨ found.owner.extension? = none) {resource result : Resource}
    (unshadowed : ∀ key ∈ resource.fields.keys, ¬ Caseless key type.core.id)
    (done : patch.apply type options resource = .done result) :
    ∃ home, List.Forall₂ Caseless home (found.owner.extension?.toList.map (·.id)) ∧
      (home = written.schema.toList ∨
        home = [] ∧ ∀ urn ∈ written.schema, result.fields.find? urn = none) := by
  cases owned : found.owner.extension? with
  | none =>
    refine ⟨[], .nil, .inr ⟨rfl, ?_⟩⟩
    intro urn qualified
    exact writes.find?_qualifier distinct owned unshadowed done qualified
  | some schema =>
    cases qualified : written.schema with
    | none =>
      rcases placed with given | unowned
      · exact absurd qualified given
      · rw [owned] at unowned
        cases unowned
    | some urn =>
      rcases ResourceType.qualifier_cases writes.resolved qualified with
        ⟨unowned, _⟩ | ⟨other, same, spelled⟩
      · rw [owned] at unowned
        cases unowned
      · rw [owned] at same
        cases same
        exact ⟨[urn], .cons spelled.symm .nil, .inl rfl⟩

end Writes

/-- **What is written is found.** After an addition or replacement of a scalar that has reached an
object, the comparison of the same path with the scalar holds of the document, if the path is
qualified or its attribute is one of the core or a common one. -/
theorem holds_of_written (distinct : type.Distinct)
    (writes : patch.Writes type options kind written found definition value)
    (scalar : value.isScalar = true)
    (placed : written.schema ≠ none ∨ found.owner.extension? = none) {resource result : Resource}
    (clear : resource.document.Unambiguous)
    (unshadowed : ∀ key ∈ resource.fields.keys, ¬ Caseless key type.core.id)
    (reaches : resource.ReachesObject type (type.respell found written))
    (done : patch.apply type options resource = .done result) :
    (Filter.compare written .equal value).holds (.resource type) result.document = true := by
  obtain ⟨base, last, split, parts, schema, leads⟩ :=
    ResourceType.split_respell distinct writes.resolved
  obtain ⟨_, _, again, place, member, holds⟩ := reaches
  rw [split] at again
  cases again
  obtain ⟨ahead, spelled, names, sameAhead, sameLast⟩ := writes.names_parts parts
  obtain ⟨home, sameHome, starts⟩ := writes.exists_home distinct placed unshadowed done
  have owned := ResourceType.extension?_canonicalUrn distinct writes.resolved
  rw [← schema] at owned
  -- the changed document is an object, and a change of all the containers
  have finished := congrArg Outcome.done? done
  rw [writes.apply_eq, Resource.done?_changeContainers _ _ _ _ _ split] at finished
  obtain ⟨document, edited, rfl⟩ := Option.map_eq_some_iff.mp finished
  obtain ⟨places, reached, traversed⟩ := Option.bind_eq_some_iff.mp edited
  have recursion := Resource.containers_traverse type true found.owner base owned leads
    (Resource.done?_containerChange kind (type.respell found written) definition value last) resource
  rw [reached, Option.bind_some, traversed] at recursion
  obtain ⟨fields, _, rfl⟩ := Option.map_eq_some_iff.mp recursion.symm
  have passed := (Outcome.done?_eq_some_iff _ _).mp reached
  -- one of them is an object with the value, and the names lead there
  have trail := Resource.readUnder_containers
    (fun segment given => writes.plain_respell segment (parts ▸ List.mem_append_left _ given))
    (owned ▸ sameHome) sameAhead clear (congrArg Outcome.fault passed)
  have placeClear := Resource.clear_containers type true base clear place member
  rw [passed] at member trail
  obtain ⟨changed, made⟩ := Focus.exists_changed traversed member
  obtain ⟨entry, leadsEntry, within⟩ :=
    Resource.exists_written writes.writes scalar placeClear holds made sameLast
  have read := trail _ _ place changed traversed member made _ entry (List.cons_ne_nil _ _) leadsEntry
  rw [List.append_assoc, ← names] at read
  have selected := Path.mem_select_of_leads read within starts
  exact List.any_eq_true.mpr ⟨value, selected, CompareOp.holds_equal_self scalar _⟩

def addDepartment : Patch := ⟨"add", "URN:Ext:Work:Department", some (.string "Sales")⟩

theorem addDepartment_writes : addDepartment.Writes staffType {} .add
    ⟨some "URN:Ext:Work", [⟨"Department", none⟩]⟩
    ⟨[{ name := "department" }], .extension
      { id := "urn:ext:Work", attributes := [{ name := "department" }] }⟩
    { name := "department" } (.string "Sales") where
  known := by decide
  nonempty := by decide
  parsed := by decide +kernel
  resolved := rfl
  writes := by decide
  plain := by simp
  target := rfl
  prepared := rfl

theorem addDepartment_found :
    addDepartment.apply staffType {} ⟨[("urn:ext:WORK", .null), ("department", .string "Support")]⟩ =
      .done ⟨[("urn:ext:WORK", .object [("department", .string "Sales")]),
        ("department", .string "Support")]⟩ ∧
    (Filter.compare ⟨some "URN:Ext:Work", [⟨"Department", none⟩]⟩ .equal (.string "Sales")).holds
      (.resource staffType) (.object [("urn:ext:WORK", .object [("department", .string "Sales")]),
        ("department", .string "Support")]) = true := by
  have done : addDepartment.apply staffType {}
      ⟨[("urn:ext:WORK", .null), ("department", .string "Support")]⟩ =
      .done ⟨[("urn:ext:WORK", .object [("department", .string "Sales")]),
        ("department", .string "Support")]⟩ := by decide +kernel
  refine ⟨done, holds_of_written staffType_distinct addDepartment_writes rfl (.inl (by simp)) ?_ ?_
    ⟨⟨some "urn:ext:Work", []⟩, ⟨"department", none⟩, rfl, .object [], ?_, rfl⟩ done⟩
  · simp only [Resource.document, Json.Unambiguous, Json.fieldsUnambiguous, Fields.Distinct,
      Fields.keys]
    decide
  · simp only [Fields.keys]
    decide
  · exact List.mem_cons_self

def addGivenName : Patch := ⟨"add", "name.givenName", some (.string "Ann")⟩

/-- An empty array is a container in which nothing is written. Without a URN in its path, what is
written to an extension is looked for at the top. -/
theorem written_not_found :
    (addGivenName.apply staffType {} ⟨[("name", .array [])]⟩ = .done ⟨[("name", .array [])]⟩ ∧
      ((Resource.mk [("name", .array [])]).containers staffType true
        ⟨none, [⟨"name", none⟩]⟩).value.targets = [.array []] ∧
      (Filter.compare ⟨none, [⟨"name", none⟩, ⟨"givenName", none⟩]⟩ .equal (.string "Ann")).holds
        (.resource staffType) (.object [("name", .array [])]) = false) ∧
    (Patch.add "department" (.string "Sales")).apply staffType {} ⟨[]⟩ =
      .done ⟨[("urn:ext:Work", .object [("department", .string "Sales")])]⟩ ∧
    (Filter.compare ⟨none, [⟨"department", none⟩]⟩ .equal (.string "Sales")).holds
      (.resource staffType)
      (.object [("urn:ext:Work", .object [("department", .string "Sales")])]) = false := by
  decide +kernel

end Patch
end Scim
