import Scim.Proofs.Patch.RemoveByValue

/-! The path that a remove by value is rewritten to. It leads to the same attribute, but for a path
that selects elements ahead of its last segment: there the rewritten path has two filters, and its
text is refused. -/
namespace Scim

namespace Path

theorem takeSegments_filtered {segment : Segment} (named : segment.IsNamed) {filter : Filter}
    (given : segment.filter = some filter) :
    takeSegments true (segmentsChars [segment]) =
      .error ⟨.nestedFilter, '[' :: filter.chars ++ [']']⟩ := by
  cases segment with
  | mk name selection =>
    cases given
    have spelled : name.toList ≠ [] := by simpa using named.some
    have stops : Stops isNameChar ('[' :: filter.chars ++ [']']) :=
      (stops_cons _ _ _).mpr rfl
    obtain ⟨shorter, taken⟩ := takeRun_append spelled named.allowed stops
    have text : segmentsChars [⟨name, some filter⟩] =
        name.toList ++ ('[' :: filter.chars ++ [']']) := by
      simp [segmentsChars, Segment.chars, moreSegmentsChars]
    rw [takeSegments_eq, text, taken]
    rfl

/-- Segments with a filter among them are read up to a filter on the last, which is refused. -/
theorem takeSegments_nested {init : List Segment} {last : Segment} {filter : Filter}
    (named : ∀ segment ∈ init ++ [last], segment.IsNamed)
    (printable : ∀ segment ∈ init, ∀ filter ∈ segment.filter, filter.Printable)
    (reread : ∀ segment ∈ init, ∀ filter ∈ segment.filter, filter.reread? = some filter)
    (given : last.filter = some filter) (filtered : Bool)
    (single : filterCount init + (if filtered then 1 else 0) = 1) :
    takeSegments filtered (segmentsChars (init ++ [last])) =
      .error ⟨.nestedFilter, '[' :: filter.chars ++ [']']⟩ := by
  induction init generalizing filtered with
  | nil =>
    cases filtered with
    | false => cases single
    | true => exact takeSegments_filtered (named last List.mem_cons_self) given
  | cons segment more ih =>
    rw [List.cons_append] at named ⊢
    simp only [List.forall_mem_cons] at named printable reread
    have count : filterCount (segment :: more) =
        filterCount more + (if segment.filter.isSome then 1 else 0) := by
      simp [filterCount, List.countP_cons]
    have unfiltered : filtered = true → segment.filter = none := by
      rintro rfl
      cases selection : segment.filter with
      | none => rfl
      | some filter =>
        simp only [selection, Option.isSome_some, if_true] at count single
        omega
    have later := ih named.2 printable.2 reread.2 (filtered || segment.filter.isSome) (by
      cases filtered <;> cases selected : segment.filter.isSome <;> simp_all)
    rw [takeSegments_cons named.1 printable.1 (reread?_segment reread.1) unfiltered]
    cases tail : more ++ [last] with
    | nil => simp at tail
    | cons next others =>
      rw [tail] at later
      dsimp only
      rw [later]
      rfl

end Path

namespace ResourceType

theorem filterCount_respelled : ∀ (segments : List Segment) (chain : List Attribute),
    segments.length = chain.length →
      Path.filterCount (List.zipWith (fun segment definition => definition.respellSegment segment)
        segments chain) = Path.filterCount segments
  | [], [], _ => rfl
  | segment :: segments, definition :: chain, same => by
    have rest := filterCount_respelled segments chain (by simpa using same)
    simp only [Path.filterCount] at rest ⊢
    rw [List.zipWith_cons_cons, List.countP_cons, List.countP_cons, rest]
    simp [Attribute.respellSegment]

end ResourceType

namespace Patch

variable {patch : Patch} {type : ResourceType} {written : Path} {found : Resolution}
  {definition : Attribute} {value : Json}

section

variable {schema : Option String} {init : List Segment} {last : Segment} {chain : List Attribute}
  {owner : Owner}

/-- A filter ahead of the last segment and the one that a value is looked for by are one too
many. -/
theorem parse_narrowed_of_filtered (spells : type.SpellsUrns)
    (removes : patch.RemovesValue type ⟨schema, init ++ [last]⟩ ⟨chain ++ [definition], owner⟩
      definition value)
    (length : init.length = chain.length) (filtered : ∃ segment ∈ init, segment.filter ≠ none)
    {narrowed : Path} (narrow : (type.respell ⟨chain ++ [definition], owner⟩
      ⟨schema, init ++ [last]⟩).narrow value = some narrowed) :
    ∃ offset, Path.parse narrowed.render = .error ⟨.nestedFilter, narrowed.render, offset⟩ := by
  have spelled := ResourceType.isSpelled_of_parse removes.parsed removes.resolved
  have named := Path.named_narrow narrow
    (ResourceType.named_respell removes.resolved spelled.named)
  have printable : ∀ segment ∈ (type.respell ⟨chain ++ [definition], owner⟩
      ⟨schema, init ++ [last]⟩).segments, ∀ filter ∈ segment.filter, filter.Printable :=
    ResourceType.printable_respell spelled.printable
  have given : ((definition.respellSegment last).narrow value).filter =
      some (Segment.narrowed value (definition.respellSegment last).filter) := by
    rw [Segment.narrow_eq]
  rw [type.respell_append length] at narrow printable
  rw [Path.narrow_concat] at narrow
  cases narrow
  have single : Path.filterCount
      (List.zipWith (fun segment definition => definition.respellSegment segment) init chain) = 1 := by
    have atMost := spelled.single
    have least : 0 < Path.filterCount init := by
      obtain ⟨segment, member, selects⟩ := filtered
      exact List.countP_pos_iff.mpr ⟨segment, member, Option.isSome_iff_ne_none.mpr selects⟩
    rw [ResourceType.filterCount_respelled init chain length]
    simp only [Path.filterCount, List.countP_append] at atMost least ⊢
    omega
  have refused := Path.takeSegments_nested named
    (fun segment member => printable segment (List.mem_append_left _ member))
    (by
      intro segment member
      obtain ⟨original, among, respelled, _, rfl⟩ := exists_of_mem_zipWith member
      exact ResourceType.reread?_respellSegment respelled removes.parsed
        (List.mem_append_left _ among))
    given false (by simpa using single)
  rw [Path.parse_render (by simp) named
    (fun urn member => spells urn (ResourceType.canonicalUrn_mem removes.resolved urn member)), refused]
  exact ⟨_, rfl⟩

end

/-- **A remove by value keeps its attribute.** The path it is rewritten to is read and resolves to
the same definition if no segment ahead of the last has a filter. Otherwise the text of that path is
refused for its second filter. -/
theorem removeByValue_resolves (distinct : type.Distinct) (spells : type.SpellsUrns)
    (removes : patch.RemovesValue type written found definition value) :
    ∃ removal, patch.removeByValue (type.respell found written) definition = .ok (some removal) ∧
      ((∀ segment ∈ written.segments.dropLast, segment.filter = none) →
        ∃ path, type.resolveText removal.path =
          .ok (path, ⟨definition, type.fullPath found, type.urn? found.owner⟩)) ∧
      ((∃ segment ∈ written.segments.dropLast, segment.filter ≠ none) →
        ∃ offset, Path.parse removal.path = .error ⟨.nestedFilter, removal.path, offset⟩) := by
  obtain ⟨schema, segments⟩ := written
  obtain ⟨_, owner⟩ := found
  obtain ⟨init, last, rfl⟩ : ∃ init last, segments = init ++ [last] := by
    have some : segments ≠ [] := by
      simpa [Path.isRoot] using (ResourceType.lookup_cases removes.resolved).1
    exact ⟨_, _, (List.dropLast_append_getLast some).symm⟩
  obtain ⟨chain, rfl⟩ := List.getLast?_eq_some_iff.mp removes.target
  have length : init.length = chain.length := by
    have same := ResourceType.chain_length removes.resolved
    simp only [List.length_append, List.length_singleton] at same
    omega
  obtain ⟨narrowed, narrow⟩ : ∃ narrowed, (type.respell ⟨chain ++ [definition], owner⟩
      ⟨schema, init ++ [last]⟩).narrow value = some narrowed := by
    rw [type.respell_append length, Path.narrow_concat]
    exact ⟨_, rfl⟩
  refine ⟨.remove narrowed.render, ?_, ?_, ?_⟩
  · rw [removes.removeByValue_eq, narrow]
    rfl
  · intro plain
    rw [List.dropLast_concat] at plain
    obtain ⟨read, reread, _⟩ := Json.exists_reread? removes.scalar removes.held
    rw [type.respell_concat length plain, Path.narrow_concat] at narrow
    cases narrow
    exact ⟨_, ResourceType.resolveText_narrowed distinct spells removes.parsed removes.resolved
      length plain removes.scalar reread⟩
  · intro filtered
    rw [List.dropLast_concat] at filtered
    exact parse_narrowed_of_filtered spells removes length filtered narrow

def removeWorkLabel : Patch :=
  ⟨"remove", "emails[type eq \"work\"].labels", some (.string "x")⟩

theorem removeWorkLabel_removesValue : removeWorkLabel.RemovesValue staffType
    ⟨none, [⟨"emails", some (.compare ⟨none, [⟨"type", none⟩]⟩ .equal (.string "work"))⟩,
      ⟨"labels", none⟩]⟩
    ⟨[{ name := "emails", type := .complex, multiValued := true, subAttributes := [
      { name := "type" }, { name := "labels", multiValued := true }] },
      { name := "labels", multiValued := true }], .core⟩
    { name := "labels", multiValued := true } (.string "x") where
  known := by decide
  nonempty := by decide
  parsed := by decide +kernel
  resolved := rfl
  target := rfl
  multiValued := rfl
  payload := ⟨_, rfl, rfl⟩
  scalar := rfl
  held := trivial

/-- A filter on the last segment is joined to the value, one ahead of it is in the way. -/
theorem removeWorkLabel_rewritten :
    (∃ removal,
      removeWorkMail.removeByValue
          ⟨none, [⟨"emails", some (.compare ⟨none, [⟨"type", none⟩]⟩ .equal (.string "work"))⟩]⟩
          { name := "emails", type := .complex, multiValued := true, subAttributes := [
            { name := "value" }, { name := "type" }] } = .ok (some removal) ∧
        ∃ path, sampleType.resolveText removal.path =
          .ok (path, ⟨{ name := "emails", type := .complex, multiValued := true, subAttributes := [
            { name := "value" }, { name := "type" }] },
            "urn:core:User:emails", some "urn:core:User"⟩)) ∧
    ∃ removal,
      removeWorkLabel.removeByValue
          ⟨none, [⟨"emails", some (.compare ⟨none, [⟨"type", none⟩]⟩ .equal (.string "work"))⟩,
            ⟨"labels", none⟩]⟩
          { name := "labels", multiValued := true } = .ok (some removal) ∧
        ∃ offset, Path.parse removal.path = .error ⟨.nestedFilter, removal.path, offset⟩ := by
  constructor
  · obtain ⟨removal, rewritten, resolves, _⟩ := removeByValue_resolves sampleType_distinct
      sampleType_spellsUrns removeWorkMail_namesElement.removesValue
    exact ⟨removal, rewritten, resolves (by decide)⟩
  · obtain ⟨removal, rewritten, _, refused⟩ := removeByValue_resolves staffType_distinct
      staffType_spellsUrns removeWorkLabel_removesValue
    exact ⟨removal, rewritten, refused ⟨_, List.mem_cons_self, by simp⟩⟩

/-- The path resolves, and the patch is refused for the path that it is rewritten to. -/
theorem removeWorkLabel_refused :
    (∃ path resolved, staffType.resolveText removeWorkLabel.path = .ok (path, resolved) ∧
      resolved.definition.multiValued = true) ∧
    (removeWorkLabel.apply staffType {} ⟨[("emails", .array [
      .object [("type", .string "work"), ("labels", .array [.string "x", .string "y"])]])]⟩).fault =
    some (.parse ⟨.nestedFilter, "emails[type eq \"work\"].labels[value eq \"x\"]", 29⟩) :=
  ⟨⟨_, _, removeWorkLabel_removesValue.toLeadsTo.resolveText removeWorkLabel_removesValue.target,
    rfl⟩, by decide +kernel⟩

end Patch
end Scim
