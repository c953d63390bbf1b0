import Scim.Proofs.Filter.Respelling
import Scim.Proofs.Patch.Narrowing
import Scim.Proofs.Path.Rereading
import Scim.Proofs.Path.Scalars
import Scim.Proofs.Resource.Keys

/-! A remove by value removes the elements of that value, though it goes through the text of a path
that is read and resolved again. -/
namespace Scim

/-- Keeps of a field the elements of which a condition holds. A lone value is its only element, null
is left, and with the last element the field goes. -/
def Fields.keepElements (fields : Fields) (name : String) (keep : Json → Bool) : Fields :=
  match fields.find? name with
  | none | some .null => fields
  | some value =>
    let kept := (MultiValued.elementsOf value).filter keep
    if kept.isEmpty then fields.erase (fields.keyFor name)
    else fields.set (fields.keyFor name) (.array kept)

/-- Removes in each container the elements of which a condition holds. Faults name `text`. -/
def Resource.removeElements (type : ResourceType) (path : Path) (text : String)
    (condition : Json → Bool) : Resource → Outcome PatchError Resource :=
  changeContainers type false path fun last =>
    changeObjects text fun fields =>
      Fields.keepElements fields last.name fun element => !condition element

/-- An element has the value, and a filter holds of it if one is given. -/
def Attribute.selects (definition : Attribute) (given : Option Filter) (value element : Json) :
    Bool :=
  given.all (fun filter => filter.holds (.element definition) element) &&
    (Filter.valueEquals value).holds (.element definition) element

/-- A remove from a multi-valued attribute whose payload carries a scalar. -/
structure Patch.RemovesValue (patch : Patch) (type : ResourceType) (written : Path)
    (found : Resolution) (definition : Attribute) (value : Json) : Prop
    extends patch.Addresses type .remove written found where
  target : found.chain.getLast? = some definition
  multiValued : definition.multiValued = true
  payload : ∃ payload, patch.value = some payload ∧ payload.unwrap = some value
  scalar : value.isScalar = true
  held : value.InDocument

/-- A remove from a multi-valued attribute whose payload names an element. Its path selects among
the elements of that attribute only. -/
structure Patch.NamesElement (patch : Patch) (type : ResourceType) (written : Path)
    (found : Resolution) (definition : Attribute) (value : Json) : Prop
    extends patch.Addresses type .remove written found where
  target : found.chain.getLast? = some definition
  multiValued : definition.multiValued = true
  unfiltered : ∀ segment ∈ written.segments.dropLast, segment.filter = none
  payload : ∃ payload, patch.value = some payload ∧ payload.unwrap = some value
  scalar : value.isScalar = true
  held : value.InDocument

namespace Fields

variable {fields : Fields}

/-- A filter removes the elements that its negation does not keep. -/
theorem removeField_filter (fields : Fields) (name : String) (filter : Filter) (scope : Scope) :
    fields.removeField name (some filter) scope =
      fields.keepElements name fun element => !filter.holds scope element := by
  unfold removeField keepElements
  cases spelled : fields.key? name with
  | none =>
    rw [(find?_eq_none_iff fields name).mpr spelled]
  | some key =>
    have keyed : fields.keyFor name = key := by rw [keyFor, spelled, Option.getD_some]
    have held : fields.find? name = fields.get? key := by rw [← get?_keyFor, keyed]
    simp only [removeElements, held, keyed]
    cases got : fields.get? key with
    | none => rfl
    | some value => cases value <;> rfl

/-- What is kept of the elements of an unambiguous object depends on unambiguous elements alone. -/
theorem keepElements_congr (clear : (Json.object fields).Unambiguous) (name : String)
    {keep other : Json → Bool} (same : ∀ element, element.Unambiguous → keep element = other element) :
    fields.keepElements name keep = fields.keepElements name other := by
  unfold keepElements
  cases found : fields.find? name with
  | none => rfl
  | some value =>
    have kept : (MultiValued.elementsOf value).filter keep =
        (MultiValued.elementsOf value).filter other := by
      apply List.filter_congr
      intro element member
      exact same element (Json.unambiguous_elementsOf (clear.of_find? found) element member)
    cases value with
    | null => rfl
    | _ => simp only [kept]

theorem removeField_eq_keepElements {name : String} {filter : Filter}
    {scope : Scope} {condition : Json → Bool} (clear : (Json.object fields).Unambiguous)
    (same : ∀ element, element.Unambiguous → filter.holds scope element = condition element) :
    fields.removeField name (some filter) scope =
      fields.keepElements name fun element => !condition element := by
  rw [removeField_filter]
  exact keepElements_congr clear name fun element elementClear => by rw [same element elementClear]

end Fields

namespace Segment

/-- Respelled as often as may be, and with a value read back that compares alike, the narrowed
filter selects what is asked for. -/
theorem holds_narrowed (definition : Attribute) {value read : Json}
    (alike : ∀ (op : CompareOp) (ignoreCase : Bool) (actual : Json),
      op.holds ignoreCase actual read = op.holds ignoreCase actual value)
    (given : Option Filter) {element : Json} (clear : element.Unambiguous) :
    ((narrowed read (given.map (·.mapPaths definition.respellPath))).mapPaths
        definition.respellPath).holds (.element definition) element =
      definition.selects given value element := by
  rw [Filter.holds_respelled definition _ clear, Attribute.selects]
  have byValue : (Filter.valueEquals read).holds (.element definition) element =
      (Filter.valueEquals value).holds (.element definition) element :=
    Filter.holds_compare_congr alike ..
  cases given with
  | none => simpa [narrowed] using byValue
  | some filter =>
    rw [Option.map_some, narrowed, Filter.both, Filter.holds, byValue,
      Filter.holds_respelled definition filter clear]
    rfl

theorem reread?_narrowed {value read : Json} (reread : value.reread? = some read)
    {given : Option Filter} (givenRead : ∀ filter ∈ given, filter.reread? = some filter) :
    (narrowed value given).reread? = some (narrowed read given) := by
  have byValue : (Filter.valueEquals value).reread? = some (Filter.valueEquals read) := by
    simp [Filter.valueEquals, Filter.reread?, reread]
  cases given with
  | none => exact byValue
  | some filter =>
    rw [narrowed, Filter.both, Filter.reread?, givenRead filter rfl, byValue]
    rfl

end Segment

namespace Path

theorem split?_concat (schema : Option String) (init : List Segment) (last : Segment) :
    (Path.mk schema (init ++ [last])).split? = some (⟨schema, init⟩, last) := by
  simp [split?]

/-- Ahead of a filter on the last segment there is no other. -/
theorem IsSpelled.plain_ahead {schema : Option String} {init : List Segment} {last : Segment}
    (spelled : IsSpelled ⟨schema, init ++ [last]⟩) (filtered : last.filter.isSome = true) :
    ∀ segment ∈ init, segment.filter = none := by
  have single := spelled.single
  simp only [filterCount, List.countP_append, List.countP_singleton, filtered, if_true] at single
  have none : init.countP (·.filter.isSome) = 0 := by omega
  intro segment member
  simpa using List.countP_eq_zero.mp none segment member

theorem narrow_concat (schema : Option String) (init : List Segment) (last : Segment)
    (value : Json) :
    (Path.mk schema (init ++ [last])).narrow value =
      some ⟨schema, init ++ [last.narrow value]⟩ := by
  rw [narrow, split?_concat, Option.map_some]

theorem reread?_unfiltered (names : List String) :
    (unfiltered names).mapM Segment.reread? = some (unfiltered names) :=
  reread?_segments fun segment member filter given => by
    obtain ⟨name, _, rfl⟩ := List.mem_map.mp member
    cases given

/-- Only the value of the last filter is read back as another. -/
theorem reread?_concat_narrow {value read : Json} (reread : value.reread? = some read)
    (schema : Option String) (names : List String) {last : Segment}
    (givenRead : ∀ filter ∈ last.filter, filter.reread? = some filter) :
    (Path.mk schema (unfiltered names ++ [last.narrow value])).reread? =
      some ⟨schema, unfiltered names ++ [last.narrow read]⟩ := by
  have lastRead : (last.narrow value).reread? = some (last.narrow read) := by
    rw [Segment.narrow_eq, Segment.narrow_eq, Segment.reread?]
    dsimp only
    rw [Segment.reread?_narrowed reread givenRead, Option.map_some]
  rw [Path.reread?, List.mapM_append, reread?_unfiltered, List.mapM_cons, lastRead]
  rfl

end Path

namespace ResourceType

variable {type : ResourceType} {written : Path} {found : Resolution}

theorem respell_append (type : ResourceType) {init : List Segment} {chain : List Attribute}
    (length : init.length = chain.length) (schema : Option String) (last : Segment)
    (definition : Attribute) (owner : Owner) :
    type.respell ⟨chain ++ [definition], owner⟩ ⟨schema, init ++ [last]⟩ =
      ⟨type.canonicalUrn owner schema,
        List.zipWith (fun segment definition => definition.respellSegment segment) init chain ++
          [definition.respellSegment last]⟩ := by
  rw [respell, List.zipWith_append length]
  rfl

/-- Segments without filters are respelled by the names of their definitions alone. -/
theorem respell_concat (type : ResourceType) {init : List Segment} {chain : List Attribute}
    (length : init.length = chain.length)
    (plain : ∀ segment ∈ init, segment.filter = none) (schema : Option String) (last : Segment)
    (definition : Attribute) (owner : Owner) :
    type.respell ⟨chain ++ [definition], owner⟩ ⟨schema, init ++ [last]⟩ =
      ⟨type.canonicalUrn owner schema,
        unfiltered (chain.map (·.name)) ++ [definition.respellSegment last]⟩ := by
  have respelled : List.zipWith (fun segment definition => definition.respellSegment segment)
      init chain = unfiltered (chain.map (·.name)) := by
    induction chain generalizing init with
    | nil => rw [List.length_eq_zero_iff.mp length]; rfl
    | cons first more ih =>
      cases init with
      | nil => cases length
      | cons segment rest =>
        have tail := ih (Nat.succ.inj length)
          fun other member => plain other (List.mem_cons_of_mem _ member)
        rw [unfiltered] at tail
        rw [List.zipWith_cons_cons, tail, Attribute.respellSegment,
          plain segment List.mem_cons_self]
        rfl
  rw [type.respell_append length, respelled]

section

variable {text : String} {schema : Option String} {init : List Segment} {last : Segment}
  {chain : List Attribute} {definition : Attribute} {owner : Owner} {value read : Json}

theorem isSpelled_narrowed
    (spells : ∀ urn ∈ type.canonicalUrn owner schema, StartsUrn urn.toList ∧ '[' ∉ urn.toList)
    (parsed : Path.parse text = .ok ⟨schema, init ++ [last]⟩)
    (looked : type.lookup ⟨schema, init ++ [last]⟩ = some ⟨chain ++ [definition], owner⟩)
    (length : init.length = chain.length) (plain : ∀ segment ∈ init, segment.filter = none)
    (scalar : value.isScalar = true) :
    Path.IsSpelled ⟨type.canonicalUrn owner schema, unfiltered (chain.map (·.name)) ++
      [(definition.respellSegment last).narrow value]⟩ := by
  have narrow := Path.narrow_concat (type.canonicalUrn owner schema)
    (unfiltered (chain.map (·.name))) (definition.respellSegment last) value
  rw [← type.respell_concat length plain schema last definition owner] at narrow
  have spelled := isSpelled_of_parse parsed looked
  constructor
  · simp
  · exact Path.named_narrow narrow (named_respell looked spelled.named)
  · have none : Path.filterCount (unfiltered (chain.map (·.name))) = 0 := by
      simp [Path.filterCount, unfiltered]
    rw [Path.filterCount] at none ⊢
    rw [List.countP_append, none, Nat.zero_add]
    exact List.countP_le_length
  · exact Path.printable_narrow narrow (Json.isAtom_of_isScalar scalar)
      (printable_respell spelled.printable)
  · exact spells

/-- A filter that was read comes back unchanged in canonical spelling. -/
theorem reread?_respellSegment (definition : Attribute) (parsed : Path.parse text = .ok written)
    {segment : Segment} (given : segment ∈ written.segments) :
    ∀ filter ∈ (definition.respellSegment segment).filter, filter.reread? = some filter := by
  intro filter member
  obtain ⟨spelled, within, rfl⟩ := Option.map_eq_some_iff.mp member
  rcases Path.wellFormed_of_parse parsed with rfl | ⟨_, formed⟩
  · cases given
  · rw [Filter.reread?_mapPaths, (formed segment given spelled within).reread?, Option.map_some]

/-- Where it is read and leads to the attribute again, the text of the narrowed path is respelled
once more, and only its value may be another. -/
theorem resolveText_narrowed_of_lookup
    (reparsed : Path.parse (Path.mk (type.canonicalUrn owner schema)
        (unfiltered (chain.map (·.name)) ++ [(definition.respellSegment last).narrow value])).render =
      .ok ⟨type.canonicalUrn owner schema,
        unfiltered (chain.map (·.name)) ++ [(definition.respellSegment last).narrow read]⟩)
    (again : type.lookup ⟨type.canonicalUrn owner schema,
        unfiltered (chain.map (·.name)) ++ [(definition.respellSegment last).narrow read]⟩ =
      some ⟨chain ++ [definition], owner⟩) :
    type.resolveText (Path.mk (type.canonicalUrn owner schema) (unfiltered (chain.map (·.name)) ++
        [(definition.respellSegment last).narrow value])).render =
      .ok (⟨type.canonicalUrn owner schema, unfiltered (chain.map (·.name)) ++
          [definition.respellSegment ((definition.respellSegment last).narrow read)]⟩,
        ⟨definition, type.fullPath ⟨chain ++ [definition], owner⟩, type.urn? owner⟩) := by
  have names : (unfiltered (chain.map (·.name))).length = chain.length := by
    simp [unfiltered]
  have respelled := type.respell_concat names (by simp [unfiltered])
    (type.canonicalUrn owner schema) ((definition.respellSegment last).narrow read) definition owner
  rw [canonicalUrn_again] at respelled
  have target : (Resolution.mk (chain ++ [definition]) owner).chain.getLast? = some definition := by
    simp
  simp only [resolveText, reparsed, resolve_of_lookup again target, respelled]

/-- The text of the narrowed path leads to the attribute again. Only the value may be another, and
the filter is respelled once more. -/
theorem resolveText_narrowed (distinct : type.Distinct) (spells : type.SpellsUrns)
    (parsed : Path.parse text = .ok ⟨schema, init ++ [last]⟩)
    (looked : type.lookup ⟨schema, init ++ [last]⟩ = some ⟨chain ++ [definition], owner⟩)
    (length : init.length = chain.length) (plain : ∀ segment ∈ init, segment.filter = none)
    (scalar : value.isScalar = true) (reread : value.reread? = some read) :
    type.resolveText (Path.mk (type.canonicalUrn owner schema) (unfiltered (chain.map (·.name)) ++
        [(definition.respellSegment last).narrow value])).render =
      .ok (⟨type.canonicalUrn owner schema, unfiltered (chain.map (·.name)) ++
          [definition.respellSegment ((definition.respellSegment last).narrow read)]⟩,
        ⟨definition, type.fullPath ⟨chain ++ [definition], owner⟩, type.urn? owner⟩) := by
  have narrow := Path.narrow_concat (type.canonicalUrn owner schema)
    (unfiltered (chain.map (·.name))) (definition.respellSegment last) value
  rw [← type.respell_concat length plain schema last definition owner] at narrow
  have urn (urn : String) (member : urn ∈ type.canonicalUrn owner schema) :=
    spells urn (canonicalUrn_mem looked urn member)
  have reparsed := Path.parse_render_of_reread?
    (isSpelled_narrowed urn parsed looked length plain scalar)
    (Path.reread?_concat_narrow reread _ _ (reread?_respellSegment definition parsed (by simp)))
  exact resolveText_narrowed_of_lookup reparsed
    (lookup_of_parse_narrow distinct parsed looked scalar narrow reparsed)

/-- Whatever the text of the narrowed path leads to, it is the attribute again, under any URNs. -/
theorem resolveText_narrowed_eq
    (parsed : Path.parse text = .ok ⟨schema, init ++ [last]⟩)
    (looked : type.lookup ⟨schema, init ++ [last]⟩ = some ⟨chain ++ [definition], owner⟩)
    (length : init.length = chain.length) (plain : ∀ segment ∈ init, segment.filter = none)
    (scalar : value.isScalar = true) (reread : value.reread? = some read)
    {resolved : Path × ResolvedAttribute}
    (spelled : type.resolveText (Path.mk (type.canonicalUrn owner schema)
        (unfiltered (chain.map (·.name)) ++
          [(definition.respellSegment last).narrow value])).render = .ok resolved) :
    resolved = (⟨type.canonicalUrn owner schema, unfiltered (chain.map (·.name)) ++
          [definition.respellSegment ((definition.respellSegment last).narrow read)]⟩,
        ⟨definition, type.fullPath ⟨chain ++ [definition], owner⟩, type.urn? owner⟩) := by
  have narrow := Path.narrow_concat (type.canonicalUrn owner schema)
    (unfiltered (chain.map (·.name))) (definition.respellSegment last) value
  have canonical := type.respell_concat length plain schema last definition owner
  rw [← canonical] at narrow
  have written := isSpelled_of_parse parsed looked
  obtain ⟨path, attributed⟩ := resolved
  obtain ⟨other, found, taken, led, -⟩ := resolveText_eq_ok spelled
  obtain ⟨sameSchema, sameNames⟩ := Path.parse_render_names
    (Path.named_narrow narrow (named_respell looked written.named))
    (Path.printable_narrow narrow (Json.isAtom_of_isScalar scalar)
      (printable_respell written.printable))
    (Path.endsInFilter_narrow narrow) taken
  have urn (urn : String) (member : urn ∈ type.canonicalUrn owner schema) :=
    (isSpelled_of_parse taken led).urn urn (sameSchema ▸ member)
  have reparsed := Path.parse_render_of_reread?
    (isSpelled_narrowed urn parsed looked length plain scalar)
    (Path.reread?_concat_narrow reread _ _ (reread?_respellSegment definition parsed (by simp)))
  have same := reparsed.symm.trans taken
  cases same
  have narrowNames := Path.names_narrow narrow
  have respelled := led
  rw [lookup_congr type (sameSchema.trans narrowNames.1) (sameNames.trans narrowNames.2)] at respelled
  cases eq_of_lookup_respell looked respelled
  exact Except.ok.inj (spelled.symm.trans (resolveText_narrowed_of_lookup reparsed led))

end

end ResourceType

/-- A remove at a path that ends in a filter removes the elements of which the filter holds, in the
containers of any path that differs in its last filter only. -/
theorem Resource.remove_eq_removeElements (type : ResourceType) {definition : Attribute}
    (multiValued : definition.multiValued = true) {path other base : Path} {last lastOther : Segment}
    (split : path.split? = some (base, last)) (splitOther : other.split? = some (base, lastOther))
    (name : last.name = lastOther.name) {filter : Filter} (given : last.filter = some filter)
    {condition : Json → Bool}
    (same : ∀ element : Json, element.Unambiguous →
      filter.holds (.element definition) element = condition element)
    {resource : Resource} (clear : resource.document.Unambiguous) :
    resource.remove type path definition =
      resource.removeElements type other path.render condition := by
  apply changeContainers_congr type false split splitOther _ clear
  intro place placeClear
  apply changeObjects_congr _ _ _ placeClear
  intro fields fieldsClear
  simp only [multiValued, if_true, given, name]
  exact Fields.removeField_eq_keepElements fieldsClear same

namespace Patch

variable {patch : Patch} {type : ResourceType} {written : Path} {found : Resolution}
  {definition : Attribute} {value : Json}

theorem NamesElement.removesValue
    (named : patch.NamesElement type written found definition value) :
    patch.RemovesValue type written found definition value :=
  ⟨named.toAddresses, named.target, named.multiValued, named.payload, named.scalar, named.held⟩

theorem RemovesValue.removeByValue_eq
    (removes : patch.RemovesValue type written found definition value) (path : Path) :
    patch.removeByValue path definition =
      .ok ((path.narrow value).map fun narrowed => .remove narrowed.render) := by
  obtain ⟨payload, given, unwrapped⟩ := removes.payload
  have some : payload.isNull = false := by
    cases payload with
    | null =>
      cases unwrapped
      cases removes.scalar
    | _ => rfl
  have element : patch.elementPayload? definition = Option.some payload := by
    rw [elementPayload?, given, removes.known]
    simp [some, removes.multiValued]
  have scalar : payload.unwrap.filter Json.isScalar = Option.some value := by
    rw [unwrapped, Option.filter_some, if_pos removes.scalar]
  simp only [removeByValue, element, scalar]

theorem NamesElement.removeByValue_eq (named : patch.NamesElement type written found definition value)
    (path : Path) :
    patch.removeByValue path definition =
      .ok ((path.narrow value).map fun narrowed => .remove narrowed.render) :=
  named.removesValue.removeByValue_eq path

/-- **A remove by value removes the elements of the value.** Printing the narrowed path and reading
it again never changes what is selected and never fails; only faults name the narrowed path. -/
theorem apply_eq_removeElements (distinct : type.Distinct) (spells : type.SpellsUrns)
    (options : PatchOptions) (wanted : options.removeByValue = true)
    (named : patch.NamesElement type written found definition value) :
    ∃ text, ∀ resource : Resource, resource.document.Unambiguous →
      patch.apply type options resource =
        resource.removeElements type (type.respell found written) text
          (definition.selects (written.last?.bind (·.filter)) value) := by
  obtain ⟨schema, segments⟩ := written
  obtain ⟨chain, owner⟩ := found
  obtain ⟨init, last, rfl⟩ : ∃ init last, segments = init ++ [last] := by
    have segments : segments ≠ [] := by
      simpa [Path.isRoot] using (ResourceType.lookup_cases named.resolved).1
    exact ⟨_, _, (List.dropLast_append_getLast segments).symm⟩
  obtain ⟨definitions, rfl⟩ := List.getLast?_eq_some_iff.mp named.target
  have length : init.length = definitions.length := by
    have same := ResourceType.chain_length named.resolved
    simp only [List.length_append, List.length_singleton] at same
    omega
  have plain : ∀ segment ∈ init, segment.filter = none := by
    simpa using named.unfiltered
  obtain ⟨read, reread, alike⟩ := Json.exists_reread? named.scalar named.held
  have resolved := ResourceType.resolveText_narrowed distinct spells named.parsed named.resolved
    length plain named.scalar reread
  have canonical := type.respell_concat length plain schema last definition owner
  have given : (Path.mk schema (init ++ [last])).last?.bind (·.filter) = last.filter := by
    simp [Path.last?]
  refine ⟨(Path.mk (type.canonicalUrn owner schema) (unfiltered (definitions.map (·.name)) ++
    [definition.respellSegment ((definition.respellSegment last).narrow read)])).render, ?_⟩
  intro resource clear
  rw [named.apply_eq_applyAtPath, applyAtPath, named.resolveText named.target, canonical, given]
  simp only [removeByValueIf, wanted, if_true, named.removeByValue_eq, Path.narrow_concat,
    Option.map_some, Patch.remove, resolved]
  have narrowed : (definition.respellSegment ((definition.respellSegment last).narrow read)).filter =
      some ((Segment.narrowed read (last.filter.map (·.mapPaths definition.respellPath))).mapPaths
        definition.respellPath) := by
    rw [Segment.narrow_eq]
    rfl
  refine Resource.remove_eq_removeElements type named.multiValued (Path.split?_concat ..)
    (Path.split?_concat ..) (by rfl) narrowed ?_ clear
  intro element elementClear
  exact Segment.holds_narrowed definition alike last.filter elementClear

def removeWorkMail : Patch :=
  ⟨"remove", "Emails[Type eq \"work\"]", some (.object [("Value", .string "a@x")])⟩

theorem removeWorkMail_namesElement : removeWorkMail.NamesElement sampleType
    ⟨none, [⟨"Emails", some (.compare ⟨none, [⟨"Type", none⟩]⟩ .equal (.string "work"))⟩]⟩
    ⟨[{ name := "emails", type := .complex, multiValued := true, subAttributes := [
      { name := "value" }, { name := "type" }] }], .core⟩
    { name := "emails", type := .complex, multiValued := true, subAttributes := [
      { name := "value" }, { name := "type" }] } (.string "a@x") where
  known := by decide
  nonempty := by decide
  parsed := by decide +kernel
  resolved := rfl
  target := rfl
  multiValued := rfl
  unfiltered := by decide
  payload := ⟨_, rfl, rfl⟩
  scalar := rfl
  held := trivial

theorem sampleType_spellsUrns : sampleType.SpellsUrns := by
  unfold ResourceType.SpellsUrns StartsUrn
  decide

theorem removeWorkMail_removes :
    removeWorkMail.apply sampleType {} ⟨[("emails", .array [
      .object [("type", .string "home"), ("value", .string "a@x")],
      .object [("TYPE", .string "Work"), ("value", .string "A@x")]])]⟩ = .done ⟨[("emails", .array [
      .object [("type", .string "home"), ("value", .string "a@x")]])]⟩ := by
  obtain ⟨text, removes⟩ := apply_eq_removeElements sampleType_distinct sampleType_spellsUrns {} rfl
    removeWorkMail_namesElement
  refine (removes _ ?_).trans rfl
  simp only [Resource.document, Json.Unambiguous, Json.itemsUnambiguous, Json.fieldsUnambiguous,
    Fields.Distinct, Fields.keys]
  decide

end Patch
end Scim
