import Scim.Proofs.Filter.Respelling
import Scim.Proofs.Path.Lowering

/-! Resolution is stable. The canonical spelling of a path resolves to what the path resolves to and
is its own canonical spelling, and it differs from the path in the case of names and in the URN
alone. -/
namespace Scim

theorem walk_lowered (attributes : List Attribute) (path : Path) :
    walk attributes path.lowered.names = walk attributes path.names :=
  walk_congr attributes path.names_lowered_caseless

theorem zipWith_again {α β : Type} {f : α → β → α} (again : ∀ a b, f (f a b) b = f a b)
    (first : List α) (second : List β) :
    List.zipWith f (List.zipWith f first second) second = List.zipWith f first second := by
  induction first generalizing second with
  | nil => rfl
  | cons a rest ih =>
    cases second with
    | nil => rfl
    | cons b more => simp only [List.zipWith_cons_cons, again, ih]

theorem lowered_zipWith {respelled : Segment → Attribute → Segment} {segments : List Segment}
    {chain : List Attribute}
    (named : List.Forall₂ Caseless (chain.map (·.name)) (segments.map (·.name)))
    (kept : ∀ (segment : Segment) (definition : Attribute),
      Caseless definition.name segment.name →
        (respelled segment definition).lowered = segment.lowered) :
    (List.zipWith respelled segments chain).map Segment.lowered = segments.map Segment.lowered := by
  induction segments generalizing chain with
  | nil => rfl
  | cons segment rest ih =>
    cases chain with
    | nil => cases named
    | cons definition more =>
      obtain ⟨same, others⟩ := List.forall₂_cons.mp named
      rw [List.zipWith_cons_cons, List.map_cons, List.map_cons, kept segment definition same,
        ih others]

namespace Attribute

variable (scope : Attribute)

/-- What leads through an attribute is respelled once and for all. -/
theorem respellPath_again (path : Path) :
    scope.respellPath (scope.respellPath path) = scope.respellPath path := by
  rcases scope.respellPath_cases path with same | ⟨chain, _, walked, schema, segments, names⟩
  · rw [same, same]
  · have again : respellSegments (respellSegments path.segments chain) chain =
        respellSegments path.segments chain := by
      apply zipWith_again
      exact fun _ _ => rfl
    generalize scope.respellPath path = canonical at schema segments names
    obtain ⟨_, spelled⟩ := canonical
    subst schema segments
    simp only [respellPath, names, walk_respelled walked, again]

theorem lowered_respellPath (path : Path) : (scope.respellPath path).lowered = path.lowered := by
  rcases scope.respellPath_cases path with same | ⟨chain, unqualified, walked, schema, segments, _⟩
  · rw [same]
  · rw [Path.lowered_eq, Path.lowered_eq, schema, unqualified, segments, respellSegments,
      lowered_zipWith (walk_caseless walked)]
    intro segment definition same
    exact Segment.lowered_eq_iff.mpr ⟨same, rfl⟩

end Attribute

namespace Filter

theorem mapPaths_mapPaths (f g : Path → Path) (filter : Filter) :
    (filter.mapPaths f).mapPaths g = filter.mapPaths fun path => g (f path) := by
  induction filter with
  | compare path op value => rfl
  | logical op left right left_ih right_ih => simp only [mapPaths, left_ih, right_ih]
  | not inner ih => simp only [mapPaths, ih]

theorem respelled_again (definition : Attribute) (filter : Filter) :
    (filter.mapPaths definition.respellPath).mapPaths definition.respellPath =
      filter.mapPaths definition.respellPath := by
  simp only [mapPaths_mapPaths, definition.respellPath_again]

theorem lowered_mapPaths {f : Path → Path} (kept : ∀ path : Path, (f path).lowered = path.lowered)
    (filter : Filter) : (filter.mapPaths f).lowered = filter.lowered := by
  induction filter with
  | compare path op value => rw [mapPaths, lowered, lowered, kept]
  | logical op left right left_ih right_ih => rw [mapPaths, lowered, lowered, left_ih, right_ih]
  | not inner ih => rw [mapPaths, lowered, lowered, ih]

end Filter

namespace Attribute

theorem respellSegment_again (definition : Attribute) (segment : Segment) :
    definition.respellSegment (definition.respellSegment segment) =
      definition.respellSegment segment := by
  obtain ⟨name, filter⟩ := segment
  cases filter with
  | none => rfl
  | some filter => simp only [respellSegment, Option.map_some, filter.respelled_again]

theorem lowered_respellSegment {definition : Attribute} {segment : Segment}
    (named : Caseless definition.name segment.name) :
    (definition.respellSegment segment).lowered = segment.lowered := by
  obtain ⟨name, filter⟩ := segment
  refine Segment.lowered_eq_iff.mpr ⟨named, ?_⟩
  cases filter with
  | none => rfl
  | some filter =>
    simp only [respellSegment, Option.map_some, filter.lowered_mapPaths definition.lowered_respellPath]

end Attribute

namespace ResourceType

variable {type : ResourceType} {path canonical : Path} {found : Resolution}
  {resolved : ResolvedAttribute}

/-- A path in canonical spelling is left alone. -/
theorem respell_again (type : ResourceType) (found : Resolution) (path : Path) :
    type.respell found (type.respell found path) = type.respell found path := by
  rw [respell, respell, canonicalUrn_again,
    zipWith_again fun segment definition => definition.respellSegment_again segment]

/-- The canonical spelling has the segments of the path in another case. -/
theorem lowered_respell (looked : type.lookup path = some found) :
    (type.respell found path).segments.map Segment.lowered = path.segments.map Segment.lowered :=
  lowered_zipWith (chain_caseless looked) fun _ _ => Attribute.lowered_respellSegment

/-- **Resolution is stable.** What a path resolves to is what its canonical spelling resolves to,
which is left as it is. The canonical spelling differs from the path in the case of names, and its
URN is absent or that of the owner. -/
theorem resolve_stable (distinct : type.Distinct)
    (resolves : type.resolve path = some (canonical, resolved)) :
    type.resolve canonical = some (canonical, resolved) ∧
      type.lookup canonical = type.lookup path ∧
      type.attribute? path = some resolved ∧ type.attribute? canonical = some resolved ∧
      type.correctCase path = some canonical ∧ type.correctCase canonical = some canonical ∧
      canonical.segments.map Segment.lowered = path.segments.map Segment.lowered ∧
      (canonical.schema = none ∨ canonical.schema = resolved.urn) := by
  obtain ⟨found, looked, described⟩ := Option.bind_eq_some_iff.mp resolves
  obtain ⟨_, described, same⟩ := Option.map_eq_some_iff.mp described
  cases same
  have again := lookup_respell distinct looked
  have urn : resolved.urn = type.urn? found.owner := by
    obtain ⟨definition, _, rfl⟩ := Option.map_eq_some_iff.mp described
    rfl
  refine ⟨?_, again.trans looked.symm, ?_, ?_, ?_, ?_, lowered_respell looked, ?_⟩
  · rw [resolve, again, Option.bind_some, described, Option.map_some, respell_again]
  · rw [attribute?, looked, Option.bind_some, described]
  · rw [attribute?, again, Option.bind_some, described]
  · rw [correctCase, looked, Option.map_some]
  · rw [correctCase, again, Option.map_some, respell_again]
  · rw [urn]
    exact type.canonicalUrn_cases found.owner path.schema

def workLabels : Path :=
  ⟨some "URN:Core:user", [⟨"EMAILS", some (.not (.compare ⟨none, [⟨"Type", none⟩]⟩ .equal
    (.string "Work")))⟩, ⟨"LABELS", none⟩]⟩

theorem workLabels_stable : ∃ canonical resolved,
    staffType.resolve workLabels = some (canonical, resolved) ∧
      staffType.resolve canonical = some (canonical, resolved) ∧
      canonical.render = "urn:core:User:emails[not (type eq \"Work\")].labels" := by
  have resolves : staffType.resolve workLabels = some
      (⟨some "urn:core:User", [⟨"emails", some (.not (.compare ⟨none, [⟨"type", none⟩]⟩ .equal
        (.string "Work")))⟩, ⟨"labels", none⟩]⟩,
        ⟨{ name := "labels", multiValued := true }, "urn:core:User:emails.labels",
          some "urn:core:User"⟩) := by decide +kernel
  exact ⟨_, _, resolves, (resolve_stable staffType_distinct resolves).1, by decide +kernel⟩

end ResourceType
end Scim
