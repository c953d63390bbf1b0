import Scim.Proofs.Filter.Qualified
import Scim.Proofs.Schema.Stability

/-! Resolution and filters do not see the case of letters in paths. A path with its names lowered
resolves as the path does, and a filter with its names lowered holds of the same values, where no
object has two keys that are equal but for case. -/
namespace Scim

namespace Path

theorem start_lowered (path : Path) {fragment : Json} (clear : fragment.Unambiguous) :
    path.lowered.start fragment = path.start fragment := by
  rw [lowered_eq]
  unfold start
  cases path.schema with
  | none => rfl
  | some urn =>
    cases fragment with
    | object fields =>
      have distinct := ((Json.unambiguous_object fields).mp clear).1
      simp only [Option.map_some, Fields.find?_congr distinct (lowered_caseless urn)]
    | _ => rfl

theorem start_unambiguous (path : Path) {fragment : Json} (clear : fragment.Unambiguous) :
    (path.start fragment).Unambiguous := by
  unfold start
  split
  next urn fields _ =>
    cases held : Fields.find? fields urn with
    | none => exact clear
    | some value => exact clear.of_find? held
  next => exact clear

/-- In another case a path selects the same values. -/
theorem select_lowered (path : Path) {fragment : Json} (clear : fragment.Unambiguous) :
    path.lowered.select fragment = path.select fragment := by
  rw [select, select, path.start_lowered clear, reached_congr path.names_lowered_caseless]
  intro value member
  rw [List.mem_singleton.mp member]
  exact path.start_unambiguous clear

end Path

namespace ResourceType

theorem lookupQualified_congr (type : ResourceType) {urn other : String} (same : Caseless urn other)
    {names others : List String} (spelled : List.Forall₂ Caseless names others) :
    type.lookupQualified urn names = type.lookupQualified other others := by
  simp only [lookupQualified, same.congr_right, type.extension?_congr same, walk_congr _ spelled]

theorem lookupUnqualified_congr (type : ResourceType) {names others : List String}
    (spelled : List.Forall₂ Caseless names others) :
    type.lookupUnqualified names = type.lookupUnqualified others := by
  simp only [lookupUnqualified, extensionMatches, walk_congr _ spelled]

theorem lookup_lowered (type : ResourceType) (path : Path) :
    type.lookup path.lowered = type.lookup path := by
  have names := path.names_lowered_caseless
  have schema : path.lowered.schema = path.schema.map lowered := by rw [Path.lowered_eq]
  rw [lookup, lookup, path.isRoot_lowered, schema, type.lookupUnqualified_congr names]
  cases path.schema with
  | none => rfl
  | some urn =>
    simp only [Option.map_some, type.lookupQualified_congr (lowered_caseless urn) names]

end ResourceType

theorem Attribute.find?_lowered (definition : Attribute) (path : Path) :
    definition.find? path.lowered = definition.find? path := by
  unfold find?
  simp only [walk_lowered]
  rw [Path.lowered_eq]
  cases definition.subAttributes with
  | cons => rfl
  | nil =>
    cases path.segments with
    | nil => rfl
    | cons segment more =>
      cases more with
      | cons => rfl
      | nil =>
        have element : Caseless segment.lowered.name "value" ↔ Caseless segment.name "value" := by
          rw [Segment.lowered_eq]
          exact ⟨(lowered_caseless segment.name).symm.trans, (lowered_caseless segment.name).trans⟩
        simp only [List.map_cons, List.map_nil, element]

theorem Scope.find?_lowered (scope : Scope) (path : Path) :
    scope.find? path.lowered = scope.find? path := by
  cases scope with
  | resource type => rw [find?, find?, ResourceType.find?, ResourceType.find?, type.lookup_lowered]
  | element definition => exact definition.find?_lowered path

namespace Filter

theorem holds_lowered (scope : Scope) (filter : Filter) {fragment : Json}
    (clear : fragment.Unambiguous) :
    filter.lowered.holds scope fragment = filter.holds scope fragment := by
  induction filter with
  | compare path op value =>
    rw [lowered, holds, holds, path.select_lowered clear, scope.find?_lowered]
  | logical op left right left_ih right_ih =>
    cases op <;> rw [lowered, holds, holds, left_ih, right_ih]
  | not inner ih => rw [lowered, holds, holds, ih]

/-- **The case of names does not count.** Filters that differ in it hold of the same values. -/
theorem holds_congr (scope : Scope) {filter other : Filter} (same : filter.lowered = other.lowered)
    {fragment : Json} (clear : fragment.Unambiguous) :
    filter.holds scope fragment = other.holds scope fragment := by
  rw [← holds_lowered scope filter clear, same, holds_lowered scope other clear]

end Filter

theorem Attribute.respellSegment_alike (definition : Attribute) {segment other : Segment}
    (same : segment.lowered = other.lowered) :
    (definition.respellSegment segment).Alike (definition.respellSegment other) := by
  have kept (filter : Filter) : (filter.mapPaths definition.respellPath).lowered = filter.lowered :=
    filter.lowered_mapPaths definition.lowered_respellPath
  obtain ⟨_, filters⟩ := Segment.lowered_eq_iff.mp same
  refine ⟨rfl, ?_⟩
  rw [respellSegment, respellSegment]
  cases given : segment.filter with
  | none =>
    rw [given, Option.map_none, eq_comm, Option.map_eq_none_iff] at filters
    rw [filters]
    exact .none
  | some filter =>
    rw [given, Option.map_some, eq_comm, Option.map_eq_some_iff] at filters
    obtain ⟨otherFilter, otherGiven, lowered⟩ := filters
    rw [otherGiven]
    exact .some (by rw [kept, kept, lowered])

/-- Paths that differ in case have canonical spellings that differ within filters at most. What a
filter names beyond the definitions keeps the case it was given in. -/
theorem ResourceType.respell_alike (type : ResourceType) (found : Resolution) {path other : Path}
    (same : path.lowered = other.lowered) :
    (type.respell found path).Alike (type.respell found other) := by
  rw [Path.lowered_eq, Path.lowered_eq, Path.mk.injEq] at same
  obtain ⟨schemas, segments⟩ := same
  constructor
  · simp only [respell, canonicalUrn]
    cases found.owner with
    | common | extension => rfl
    | core =>
      have given := congrArg (Option.map fun _ => type.core.id) schemas
      simpa only [Option.map_map, Function.comp_def] using given
  · rw [← List.forall₂_eq_eq_eq, List.forall₂_map_left_iff, List.forall₂_map_right_iff] at segments
    rw [respell, respell]
    generalize found.chain = chain, path.segments = spelled, other.segments = others at segments
    induction segments generalizing chain with
    | nil => exact .nil
    | cons first _ ih =>
      cases chain with
      | nil => exact .nil
      | cons definition more => exact .cons (definition.respellSegment_alike first) (ih more)

end Scim
