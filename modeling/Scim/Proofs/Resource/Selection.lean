import Scim.Proofs.Patch.Narrowing
import Scim.Proofs.Resource.Holders
import Scim.Proofs.Resource.Passage

/-! Filters on the way that choose everything. Where a filter holds of all items of the arrays that
it chooses among, and these are objects, the path leads on as it would without the filter. -/
namespace Scim

/-- The filter holds of each item of an array of objects. -/
def Filter.HoldsThroughout (filter : Filter) (definition : Attribute) (value : Json) : Prop :=
  ∃ items, value = .array items ∧
    ∀ item ∈ items, item.isObject = true ∧ filter.holds (.element definition) item = true

def Json.Spreads (change : Json → Option Json) : Prop :=
  ∀ items : List Json, (∀ item ∈ items, item.isObject = true) →
    change (.array items) = (items.mapM change).map .array

theorem Segment.among_of_holdsThroughout {segment : Segment} {filter : Filter}
    {definition : Attribute} {change : Json → Option Json} {value : Json}
    (given : segment.filter = some filter) (all : filter.HoldsThroughout definition value)
    (spreads : Json.Spreads change) : segment.among definition change value = change value := by
  obtain ⟨items, rfl, each⟩ := all
  have chosen : items.mapM (selecting (filter.holds (.element definition)) change) =
      items.mapM change :=
    mapM_congr fun item member => if_pos (each item member).2
  rw [among_filtered given, spreads items fun item member => (each item member).1, ← chosen]
  exact traverse_select_items change items

namespace Focus

variable {change : Json → Option Json} {create : Bool} {path : String} {filter : Filter}
  {definition : Attribute} {name : String}

theorem passing_congr (path text : String) (change : Json → Option Json) :
    passing path change = passing text change := by
  funext value
  have same : (obstacle? path value).isSome = (obstacle? text value).isSome := by
    cases value with
    | array items =>
      simp only [obstacle?]
      split <;> rfl
    | _ => rfl
  rw [passing, passing, same]

theorem following_congr (create : Bool) (path text : String) (change : Json → Option Json)
    (segments : List (Segment × Attribute)) :
    following create path change segments = following create text change segments := by
  induction segments with
  | nil => rfl
  | cons first more ih =>
    obtain ⟨segment, definition⟩ := first
    cases more with
    | nil => rfl
    | cons next more =>
      simp only [following] at ih ⊢
      rw [ih, passing_congr path text]

theorem spreads_passing (path : String) (change : Json → Option Json) :
    Json.Spreads (passing path change) := by
  intro items objects
  have passable : (items.all fun item => item.isObject || item.isNull) = true := by
    rw [List.all_eq_true]
    intro item member
    rw [objects item member, Bool.true_or]
  have each : items.mapM (selecting Json.isObject change) = items.mapM (passing path change) := by
    apply mapM_congr
    intro item member
    cases item with
    | object fields => rfl
    | _ => cases objects _ member
  rw [passing, obstacle?, if_pos passable, ← each]
  exact traverse_select_items change items

theorem spreads_present (spreads : Json.Spreads change) :
    Json.Spreads fun value => (present value).traverse change := by
  intro items objects
  have each : (items.mapM fun item => (present item).traverse change) = items.mapM change := by
    apply mapM_congr
    intro item member
    cases item with
    | object fields => rfl
    | _ => cases objects _ member
  rw [each, ← spreads items objects]
  rfl

/-- One segment further, a filter that chooses everything chooses nothing. -/
theorem entering_unfiltered (spreads : Json.Spreads change) (passes : change .null = some .null)
    {value : Json}
    (all : ∀ child ∈ (descend name (create && definition.isComplex && !definition.multiValued)
      value).targets, child = .null ∨ filter.HoldsThroughout definition child) :
    entering create ⟨name, some filter⟩ definition change value =
      entering create ⟨name, none⟩ definition change value := by
  rw [entering_eq_among, entering_eq_among]
  apply traverse_congr
  intro child member
  rcases all child member with rfl | throughout
  · rw [among_null passes, among_null passes]
  · rw [Segment.among_of_holdsThroughout rfl throughout spreads, Segment.among_unfiltered rfl]

theorem pursue_append_cons (create : Bool) (path : String) (ahead : List (Segment × Attribute))
    (entry : Segment × Attribute) (more : List (Segment × Attribute)) (reached : Focus) :
    reached.pursue create path (ahead ++ entry :: more) =
      match reached.targets.findSome? (obstacle? path) with
      | some fault => .stopped reached fault
      | none => follow create path (ahead ++ entry :: more) (reached.refine parents) := by
  cases ahead <;> rfl

/-- A filter of one of the segments may be left out, if it holds of everything in the places that
the segments up to there lead to. -/
theorem follow_unfiltered (ahead behind : List (Segment × Attribute))
    (spreads : behind ≠ [] ∨ Json.Spreads change) (focus : Focus)
    (all : ∀ places, focus.follow create path (ahead ++ [(⟨name, none⟩, definition)]) = .done places →
      ∀ place ∈ places.targets, filter.HoldsThroughout definition place) :
    (focus.follow create path (ahead ++ (⟨name, some filter⟩, definition) :: behind)).done?.bind
        (·.traverse change) =
      (focus.follow create path (ahead ++ (⟨name, none⟩, definition) :: behind)).done?.bind
        (·.traverse change) := by
  induction ahead generalizing focus with
  | nil =>
    rw [List.nil_append, List.nil_append, follow_traverse, follow_traverse]
    apply traverse_congr
    intro value member
    have here : ∀ child ∈ (descend name (create && definition.isComplex && !definition.multiValued)
        value).targets, child = .null ∨ filter.HoldsThroughout definition child := by
      intro child among
      by_cases null : child = .null
      · exact .inl null
      · refine .inr (all _ rfl child ?_)
        simp only [enter, targets_refine]
        refine List.mem_flatMap.mpr ⟨child, List.mem_flatMap.mpr ⟨value, member, among⟩, ?_⟩
        cases child <;> first | exact absurd rfl null | exact List.mem_singleton_self _
    cases behind with
    | nil =>
      have ends := spreads.resolve_left fun further => further rfl
      exact entering_unfiltered (spreads_present ends) rfl here
    | cons next more => exact entering_unfiltered (spreads_passing path _) rfl here
  | cons first ahead ih =>
    obtain ⟨segment, step⟩ := first
    simp only [List.cons_append, follow_cons, pursue_append_cons] at all ⊢
    cases blocked : (focus.enter create segment step).targets.findSome? (obstacle? path) with
    | some fault => rfl
    | none =>
      simp only [blocked] at all
      exact ih _ all

end Focus

/-- In a resource, the filter of one segment of `base` holds of everything that it chooses among,
and `bare` is the path without this filter. The segments are given with their definitions. -/
structure Resource.SelectsAll (resource : Resource) (type : ResourceType) (base bare : Path)
    (ahead : List (Segment × Attribute)) (name : String) (filter : Filter) (definition : Attribute)
    (behind : List (Segment × Attribute)) : Prop where
  steps : type.definitions base = ahead ++ (⟨name, some filter⟩, definition) :: behind
  without : bare = ⟨base.schema, (ahead ++ (⟨name, none⟩, definition) :: behind).map Prod.fst⟩
  all : ∀ home places, resource.home type true base.schema = .done home →
    home.follow true base.render (ahead ++ [(⟨name, none⟩, definition)]) = .done places →
      ∀ place ∈ places.targets, filter.HoldsThroughout definition place

namespace Resource.SelectsAll

variable {resource : Resource} {type : ResourceType} {base bare : Path}
  {ahead behind : List (Segment × Attribute)} {name : String} {filter : Filter}
  {definition : Attribute} {change : Json → Option Json}

theorem definitions_bare
    (selects : resource.SelectsAll type base bare ahead name filter definition behind) :
    ∃ found, type.lookup base = some found ∧ type.lookup bare = some found ∧
      type.definitions bare = ahead ++ (⟨name, none⟩, definition) :: behind := by
  have steps := selects.steps
  cases looked : type.lookup base with
  | none =>
    simp only [ResourceType.definitions, looked] at steps
    exact absurd steps.symm (by simp)
  | some found =>
    simp only [ResourceType.definitions, looked] at steps
    have length := ResourceType.chain_length looked
    have segments : base.segments =
        (ahead ++ (⟨name, some filter⟩, definition) :: behind).map Prod.fst := by
      rw [← steps, List.map_fst_zip (Nat.le_of_eq length.symm)]
    have chain : (ahead ++ (⟨name, none⟩, definition) :: behind).map Prod.snd = found.chain := by
      have held := congrArg (List.map Prod.snd) steps
      rw [List.map_snd_zip (Nat.le_of_eq length)] at held
      rw [held, List.map_append, List.map_append]
      rfl
    have same : type.lookup bare = some found := by
      rw [← looked, selects.without]
      refine type.lookup_congr rfl ?_
      simp [Path.names, segments]
    refine ⟨found, rfl, same, ?_⟩
    rw [ResourceType.definitions, same]
    simp only [selects.without]
    exact (List.zip_of_prod rfl chain).symm

/-- The containers are those of the path without the filter, as far as changes go. -/
theorem containers_traverse
    (selects : resource.SelectsAll type base bare ahead name filter definition behind)
    (spreads : behind ≠ [] ∨ Json.Spreads change) :
    (resource.containers type true base).done?.bind (·.traverse change) =
      (resource.containers type true bare).done?.bind (·.traverse change) := by
  obtain ⟨found, looked, lookedBare, steps⟩ := selects.definitions_bare
  have schema : bare.schema = base.schema := by rw [selects.without]
  rw [containers_bind_traverse type true base (.inr ⟨found, looked⟩),
    containers_bind_traverse type true bare (.inr ⟨found, lookedBare⟩), schema, selects.steps, steps,
    Focus.following_congr true bare.render base.render]
  cases place : resource.home type true base.schema with
  | mk home fault =>
    cases fault with
    | some fault => rfl
    | none =>
      simp only [← Focus.follow_traverse]
      exact Focus.follow_unfiltered ahead behind spreads home fun places => selects.all home places place

end Resource.SelectsAll
end Scim
