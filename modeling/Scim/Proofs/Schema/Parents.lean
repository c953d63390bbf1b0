import Scim.Proofs.Schema.Respelling

/-! What stands ahead of an attribute. The canonical path parts into its last segment and a base,
and looked up by itself the base leads through the definitions ahead of the attribute's own, unless
common attributes stand in front of them. -/
namespace Scim

/-- What holds the attribute: the definitions ahead of its own, of the same owner. -/
def Resolution.parent (found : Resolution) : Resolution :=
  { found with chain := found.chain.dropLast }

/-- Common attributes stand in front of what holds the attribute: it belongs to the core schema, the
path says so by no URN, and the names ahead of the last lead through common attributes too. -/
structure Resolution.Overshadowed (found : Resolution) (path : Path) : Prop where
  core : found.owner = .core
  unqualified : path.schema = none
  shared : (walk commonAttributes path.names.dropLast).isSome = true

namespace ResourceType

variable {type : ResourceType} {path base : Path} {found : Resolution} {last : Segment}

theorem respell_parts (looked : type.lookup path = some found) :
    ∃ base last, (type.respell found path).split? = some (base, last) ∧
      (type.respell found path).segments = base.segments ++ [last] ∧
      base.schema = (type.respell found path).schema := by
  have segments : (type.respell found path).segments ≠ [] := by
    simpa [Path.isRoot] using isRoot_respell looked
  refine ⟨⟨(type.respell found path).schema, (type.respell found path).segments.dropLast⟩,
    (type.respell found path).segments.getLast segments, ?_,
    (List.dropLast_append_getLast segments).symm, rfl⟩
  rw [Path.split?, List.getLast?_eq_some_getLast segments, Option.map_some]

theorem names_base (looked : type.lookup path = some found)
    (parts : (type.respell found path).segments = base.segments ++ [last]) :
    List.Forall₂ Caseless base.names path.names.dropLast := by
  have names : base.names = (found.chain.map (·.name)).dropLast := by
    rw [← names_respell looked, Path.names, Path.names, parts]
    simp
  have same := chain_caseless looked
  rw [names, List.dropLast_eq_take, List.dropLast_eq_take, same.length_eq]
  exact List.forall₂_take _ same

section

variable (looked : type.lookup path = some found)
  (parts : (type.respell found path).segments = base.segments ++ [last])
  (schema : base.schema = (type.respell found path).schema) (below : base.isRoot = false)

include looked parts schema below

/-- Common attributes in front are what the base leads through. -/
theorem lookup_base_of_overshadowed (overshadowed : found.Overshadowed path) :
    ∃ chain, type.lookup base = some ⟨chain, .common⟩ := by
  obtain ⟨core, unqualified, shared⟩ := overshadowed
  obtain ⟨chain, walked⟩ := Option.isSome_iff_exists.mp shared
  have bare : base.schema = none := by
    rw [schema, respell, core, unqualified]
    rfl
  refine ⟨chain, ?_⟩
  rw [← walk_congr _ (names_base looked parts)] at walked
  simp [lookup, below, bare, lookupUnqualified, walked]

theorem lookup_base_of_clear (distinct : type.Distinct) (clear : ¬ found.Overshadowed path) :
    type.lookup base = some found.parent := by
  have same := names_base looked parts
  obtain ⟨attributes, held, walked⟩ := lookup_holds looked
  have walkedBase := (walk_congr attributes same).trans (walk_dropLast walked)
  obtain ⟨urn, segments⟩ := base
  subst schema
  rcases lookup_canonical distinct found.owner path.schema attributes held _ _ walkedBase segments
    rfl (by simpa [Path.isRoot] using below) with led | ⟨core, unqualified, others, common, _⟩
  · exact led
  · have shared := (walk_congr commonAttributes same).symm.trans common
    exact absurd ⟨core, unqualified, by rw [shared]; rfl⟩ clear

/-- The base leads to what holds the attribute just if no common attributes stand in front of it. -/
theorem lookup_base_iff (distinct : type.Distinct) :
    type.lookup base = some found.parent ↔ ¬ found.Overshadowed path := by
  constructor
  · intro led overshadowed
    obtain ⟨chain, common⟩ := lookup_base_of_overshadowed looked parts schema below overshadowed
    rw [led] at common
    have owner : found.owner = .common := congrArg Resolution.owner (Option.some.inj common)
    exact Owner.noConfusion (overshadowed.core.symm.trans owner)
  · exact lookup_base_of_clear looked parts schema below distinct

end

/-- The canonical path parts into its last segment and a path that leads to the containers. -/
theorem split_respell (distinct : type.Distinct) (looked : type.lookup path = some found) :
    ∃ base last, (type.respell found path).split? = some (base, last) ∧
      (type.respell found path).segments = base.segments ++ [last] ∧
      base.schema = (type.respell found path).schema ∧
      (base.isRoot = true ∨ ∃ part, type.lookup base = some part) := by
  obtain ⟨base, last, split, parts, schema⟩ := respell_parts looked
  refine ⟨base, last, split, parts, schema, ?_⟩
  cases root : base.isRoot with
  | true => exact .inl rfl
  | false =>
    by_cases overshadowed : found.Overshadowed path
    · obtain ⟨chain, led⟩ := lookup_base_of_overshadowed looked parts schema root overshadowed
      exact .inr ⟨_, led⟩
    · exact .inr ⟨_, lookup_base_of_clear looked parts schema root distinct overshadowed⟩

end ResourceType
end Scim
