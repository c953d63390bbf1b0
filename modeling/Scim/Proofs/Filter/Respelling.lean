import Scim.Filter.Evaluation
import Scim.Proofs.Json.Unambiguous
import Scim.Proofs.Path.WellFormed
import Scim.Proofs.Schema.Respelling

/-! A filter in the spelling of an attribute holds of the same elements, where no element has two
keys that are equal but for case. -/
namespace Scim

namespace Path

theorem reached_congr {names others : List String} (same : List.Forall₂ Caseless names others)
    {reached : List Json} (clear : ∀ value ∈ reached, value.Unambiguous) :
    names.foldl (fun reached name => reached.flatMap (Json.children name)) reached =
      others.foldl (fun reached name => reached.flatMap (Json.children name)) reached := by
  induction same generalizing reached with
  | nil => rfl
  | @cons name other _ _ head _ ih =>
    have step : reached.flatMap (Json.children name) = reached.flatMap (Json.children other) :=
      List.flatMap_congr fun value member => Json.children_congr (clear value member) head
    rw [List.foldl_cons, List.foldl_cons, step]
    apply ih
    intro child member
    obtain ⟨value, among, within⟩ := List.mem_flatMap.mp member
    exact Json.children_unambiguous other (clear value among) child within

theorem select_congr {path other : Path} (schema : path.schema = other.schema)
    (unqualified : path.schema = none) (same : List.Forall₂ Caseless path.names other.names)
    {fragment : Json} (clear : fragment.Unambiguous) :
    path.select fragment = other.select fragment := by
  have start (path : Path) (unqualified : path.schema = none) : path.start fragment = fragment := by
    unfold Path.start
    rw [unqualified]
  unfold select
  rw [start path unqualified, start other (schema ▸ unqualified), reached_congr same]
  intro value member
  rw [List.mem_singleton.mp member]
  exact clear

end Path

namespace Attribute

/-- A path within an attribute either stays as it is, or takes the names of the definitions that
it leads to. -/
theorem respellPath_cases (scope : Attribute) (path : Path) :
    scope.respellPath path = path ∨
      ∃ chain, path.schema = none ∧ walk scope.subAttributes path.names = some chain ∧
        (scope.respellPath path).schema = none ∧
        (scope.respellPath path).segments = respellSegments path.segments chain ∧
        (scope.respellPath path).names = chain.map (·.name) := by
  simp only [respellPath]
  split
  next chain unqualified walked =>
    refine .inr ⟨chain, unqualified, walked, unqualified, rfl, ?_⟩
    refine ResourceType.names_zipWith (fun _ _ => rfl) _ _ ?_
    rw [walk_length walked, Path.names, List.length_map]
  next => exact .inl rfl

theorem select_respellPath (scope : Attribute) (path : Path) {fragment : Json}
    (clear : fragment.Unambiguous) :
    (scope.respellPath path).select fragment = path.select fragment := by
  rcases scope.respellPath_cases path with same | ⟨chain, unqualified, walked, schema, _, names⟩
  · rw [same]
  · apply Path.select_congr (schema.trans unqualified.symm) schema _ clear
    rw [names]
    exact walk_caseless walked

theorem find?_respellPath (scope : Attribute) (path : Path) :
    scope.find? (scope.respellPath path) = scope.find? path := by
  rcases scope.respellPath_cases path with same | ⟨chain, _, walked, _, segments, names⟩
  · rw [same]
  · unfold find?
    rw [names]
    cases subAttributes : scope.subAttributes with
    | cons first rest =>
      rw [subAttributes] at walked
      simp only [walk_respelled walked, walked]
    | nil =>
      -- without sub-attributes only the empty path is a walk
      rw [subAttributes] at walked
      cases given : path.segments with
      | nil =>
        rw [segments, given]
        simp only [respellSegments, List.zipWith_nil_left, walk_respelled walked, walked]
      | cons segment rest =>
        rw [Path.names, given, List.map_cons, walk] at walked
        cases walked

end Attribute

namespace Filter

/-- **Spelling does not count.** A filter in canonical spelling holds of the same elements. -/
theorem holds_respelled (definition : Attribute) (filter : Filter) {fragment : Json}
    (clear : fragment.Unambiguous) :
    (filter.mapPaths definition.respellPath).holds (.element definition) fragment =
      filter.holds (.element definition) fragment := by
  induction filter with
  | compare path op value =>
    rw [mapPaths, holds, holds, definition.select_respellPath path clear, Scope.find?, Scope.find?,
      definition.find?_respellPath]
  | logical op left right left_ih right_ih =>
    cases op <;> rw [mapPaths, holds, holds, left_ih, right_ih]
  | not inner ih => rw [mapPaths, holds, holds, ih]

theorem reread?_mapPaths (f : Path → Path) (filter : Filter) :
    (filter.mapPaths f).reread? = filter.reread?.map (mapPaths f) := by
  induction filter with
  | compare path op value =>
    rw [mapPaths, reread?, reread?]
    split
    · rfl
    · cases value.reread? <;> rfl
  | logical op left right left_ih right_ih =>
    rw [mapPaths, reread?, reread?, left_ih, right_ih]
    cases left.reread? <;> cases right.reread? <;> rfl
  | not inner ih =>
    rw [mapPaths, reread?, reread?, ih]
    cases inner.reread? <;> rfl

end Filter
end Scim
