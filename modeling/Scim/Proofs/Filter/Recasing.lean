import Scim.Proofs.Json.Lowering
import Scim.Proofs.Resource.LetterCase

/-! Filters see the case of names neither in themselves nor in what they are evaluated on. A path
selects of a value with its keys lowered what it selects of the value, but for the case of the keys
within, and no comparison looks at those. -/
namespace Scim

namespace Path

variable {fragment : Json}

/-- What the names reach in values with their keys lowered is what they reach in the values. -/
theorem reached_lowered (names : List String) {values : List Json}
    (clear : ∀ value ∈ values, value.Unambiguous) :
    names.foldl (fun reached name => reached.flatMap (Json.children name))
        (values.map Json.lowered) =
      (names.foldl (fun reached name => reached.flatMap (Json.children name)) values).map
        Json.lowered := by
  induction names generalizing values with
  | nil => rfl
  | cons name names ih =>
    have step : (values.map Json.lowered).flatMap (Json.children name) =
        (values.flatMap (Json.children name)).map Json.lowered := by
      rw [List.flatMap_map, List.map_flatMap]
      exact List.flatMap_congr fun value member => Json.children_lowered name (clear value member)
    rw [List.foldl_cons, List.foldl_cons, step]
    apply ih
    intro child member
    obtain ⟨value, among, within⟩ := List.mem_flatMap.mp member
    exact Json.children_unambiguous name (clear value among) child within

theorem start_fragment_lowered (path : Path) (clear : fragment.Unambiguous) :
    path.start fragment.lowered = (path.start fragment).lowered := by
  unfold start
  cases path.schema with
  | none => rfl
  | some urn =>
    cases fragment with
    | object fields =>
      have distinct := ((Json.unambiguous_object fields).mp clear).1
      rw [Json.lowered_object]
      simp only [Fields.find?_lowered distinct]
      cases Fields.find? fields urn with
      | none => rw [Option.map_none, Option.getD_none, Option.getD_none, Json.lowered_object]
      | some value => rfl
    | _ => rfl

theorem select_fragment_lowered (path : Path) (clear : fragment.Unambiguous) :
    path.select fragment.lowered = (path.select fragment).map Json.lowered := by
  have start : ∀ value ∈ [path.start fragment], value.Unambiguous := by
    intro value member
    rw [List.mem_singleton.mp member]
    exact path.start_unambiguous clear
  rw [select, select, path.start_fragment_lowered clear, ← List.map_singleton,
    reached_lowered path.names start, List.flatMap_map, List.map_flatMap]
  simp only [Json.present_lowered]

end Path

theorem CompareOp.holds_fragment_lowered (op : CompareOp) (ignoreCase : Bool)
    (actual expected : Json) :
    op.holds ignoreCase actual.lowered expected = op.holds ignoreCase actual expected := by
  cases actual <;> cases expected <;> rfl

namespace Filter

variable {fragment : Json}

theorem holdsOfAny_lowered (op : CompareOp) (ignoreCase : Bool) (expected : Json)
    (reached : List Json) :
    holdsOfAny op ignoreCase expected (reached.map Json.lowered) =
      holdsOfAny op ignoreCase expected reached := by
  have each : reached.any ((fun actual => op.holds ignoreCase actual expected) ∘ Json.lowered) =
      reached.any fun actual => op.holds ignoreCase actual expected :=
    congrArg reached.any (funext fun actual => op.holds_fragment_lowered ignoreCase actual expected)
  cases op with
  | present => rw [holdsOfAny, holdsOfAny, List.isEmpty_map]
  | _ => rw [holdsOfAny, holdsOfAny, List.any_map, each] <;> exact nofun

theorem holds_fragment_lowered (scope : Scope) (filter : Filter) (clear : fragment.Unambiguous) :
    filter.holds scope fragment.lowered = filter.holds scope fragment := by
  induction filter with
  | compare path op value =>
    rw [holds, holds, path.select_fragment_lowered clear, holdsOfAny_lowered]
  | logical op left right left_ih right_ih =>
    cases op <;> rw [holds, holds, left_ih, right_ih]
  | not inner ih => rw [holds, holds, ih]

/-- The filter of a segment in canonical spelling selects the same of an attribute. -/
theorem select_respelled (definition : Attribute) (filter : Filter)
    (clear : fragment.Unambiguous) :
    Focus.select ((filter.mapPaths definition.respellPath).holds (.element definition)) fragment =
      Focus.select (filter.holds (.element definition)) fragment :=
  Focus.select_congr (fun _ clear => holds_respelled definition filter clear) clear

/-- **The case of names counts on neither side.** On a value in which no object has two keys that
are equal but for case, a filter holds in any case of its names and URNs as in any other, and on the
value in any case of its keys. Where resolution brings the filters of a path into the spelling of
their attributes, each of them holds of the value as it did and selects the same of it. -/
theorem holds_recased (clear : fragment.Unambiguous) :
    (∀ (scope : Scope) {filter other : Filter} {recased : Json}, filter.lowered = other.lowered →
      fragment.lowered = recased.lowered →
        other.holds scope recased = filter.holds scope fragment) ∧
    ∀ (type : ResourceType) {path canonical : Path} {resolved : ResolvedAttribute},
      type.resolve path = some (canonical, resolved) →
        ∃ found, type.lookup path = some found ∧
          ∀ (i : Nat) {segment : Segment} {filter : Filter}, path.segments[i]? = some segment →
            segment.filter = some filter →
              ∃ definition corrected, found.chain[i]? = some definition ∧
                canonical.segments[i]? = some ⟨definition.name, some corrected⟩ ∧
                corrected.holds (.element definition) fragment =
                  filter.holds (.element definition) fragment ∧
                Focus.select (corrected.holds (.element definition)) fragment =
                  Focus.select (filter.holds (.element definition)) fragment := by
  constructor
  case left =>
    intro scope filter other recased names keys
    have recasedClear := clear.of_lowered keys
    rw [← other.holds_fragment_lowered scope recasedClear, ← keys,
      other.holds_fragment_lowered scope clear, ← holds_congr scope names clear]
  case right =>
    intro type path canonical resolved resolves
    obtain ⟨found, looked, described⟩ := Option.bind_eq_some_iff.mp resolves
    obtain ⟨_, _, same⟩ := Option.map_eq_some_iff.mp described
    cases same
    refine ⟨found, looked, ?_⟩
    intro i segment filter at_i filtered
    -- a resolution has a definition for every segment
    have shorter : i < found.chain.length := by
      obtain ⟨bound, _⟩ := List.getElem?_eq_some_iff.mp at_i
      have paired := (ResourceType.chain_caseless looked).length_eq
      rw [List.length_map, Path.names, List.length_map] at paired
      omega
    have defined := List.getElem?_eq_getElem shorter
    refine ⟨found.chain[i], filter.mapPaths (found.chain[i]).respellPath, defined, ?_,
      holds_respelled _ filter clear, select_respelled _ filter clear⟩
    rw [ResourceType.respell, List.getElem?_zipWith, at_i, defined]
    simp only [Attribute.respellSegment, filtered, Option.map_some]

def typedMails : Json :=
  .array [.object [("Type", .string "work")], .object [("type", .string "home")]]

def isForWork (name : String) : Filter :=
  .compare ⟨none, [⟨name, none⟩]⟩ .equal (.string "work")

theorem typedMails_recased :
    (isForWork "TYPE").holds (.resource staffType) typedMails = true ∧
    (isForWork "tYPE").holds (.resource staffType)
      (.array [.object [("tyPE", .string "work")], .object [("TYPE", .string "home")]]) = true ∧
    ∃ found definition,
      staffType.lookup ⟨none, [⟨"EMAILS", some (isForWork "TYPE")⟩]⟩ = some found ∧
      found.chain[0]? = some definition ∧
      Focus.select ((isForWork "type").holds (.element definition)) typedMails =
        Focus.select ((isForWork "TYPE").holds (.element definition)) typedMails := by
  have clear : typedMails.Unambiguous := by
    simp only [typedMails, Json.Unambiguous, Json.itemsUnambiguous, Json.fieldsUnambiguous,
      Fields.Distinct, Fields.keys]
    decide
  have held : (isForWork "TYPE").holds (.resource staffType) typedMails = true := by rfl
  obtain ⟨found, looked, each⟩ := (holds_recased clear).2 staffType
    (show staffType.resolve ⟨none, [⟨"EMAILS", some (isForWork "TYPE")⟩]⟩ = some (_, _) from rfl)
  obtain ⟨definition, corrected, defined, spelled, _, selects⟩ := each 0 rfl rfl
  have same : isForWork "type" = corrected :=
    Option.some.inj (Segment.mk.inj (Option.some.inj spelled)).2
  refine ⟨held, ?_, found, definition, looked, defined, same ▸ selects⟩
  rw [← held]
  exact (holds_recased clear).1 _ (by rfl) (by decide)

end Filter
end Scim
