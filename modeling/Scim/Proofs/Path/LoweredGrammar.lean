import Scim.Proofs.Path.Brackets
import Scim.Proofs.Path.LoweredTokens

/-! Reading does not see the case of letters outside string literals. Of a text with those letters
lowered the same path is read with its names lowered, or both texts are refused. -/
namespace Scim

namespace Filter

theorem takeComparison_lowers (text : List Char) :
    ReadsLowered lowered lowerOutside (reading (takeComparison text))
      (reading (takeComparison (lowerOutside text))) := by
  rw [reading_takeComparison, reading_takeComparison]
  refine (takeAttribute_lowers text).bind fun (path, rest) _ => ?_
  refine (takeBlank_lowers rest).bind fun (_, rest) _ => ?_
  refine (takeOperator_lowers rest).bind fun (op, rest) _ => ?_
  dsimp only [Prod.map, id]
  split
  · exact .pair (Filter.compare path .present .null) rest
  · refine (takeBlank_lowers rest).bind fun (_, rest) _ => ?_
    refine (takeLiteral_lowers rest).bind fun (value, rest) _ => ?_
    exact .pair (Filter.compare path op value) rest

theorem takeNot?_lowerOutside (text : List Char) :
    (takeNot? (lowerOutside text)).map Taken.pair =
      ((takeNot? text).map Taken.pair).map (Prod.map (List.map Char.toLower) lowerOutside) := by
  rw [pair_takeNot?, pair_takeNot?, takeRun_lowerOutside isAlpha_toLower (by decide)]
  cases (takeRun Char.isAlpha text).map Taken.pair with
  | none => rfl
  | some found =>
    obtain ⟨word, rest⟩ := found
    have keyword : Caseless (String.ofList (word.map Char.toLower)) "not" ↔
        Caseless (String.ofList word) "not" :=
      ⟨(lowered_word word).symm.trans, (lowered_word word).trans⟩
    simp only [Option.map_some, Option.filter_some, Prod.map, keyword, startsParenthesis_lowerOutside,
      startsBlank_lowerOutside]
    split <;> rfl

theorem takeLogical?_lowerOutside (text : List Char) :
    (takeLogical? (lowerOutside text)).map Taken.pair =
      ((takeLogical? text).map Taken.pair).map (Prod.map id lowerOutside) := by
  rw [pair_takeLogical?, pair_takeLogical?, takeRun_lowerOutside isAlpha_toLower (by decide)]
  cases (takeRun Char.isAlpha text).map Taken.pair with
  | none => rfl
  | some found =>
    obtain ⟨word, rest⟩ := found
    simp only [Option.map_some, Option.bind_some, Prod.map, LogicalOp.ofWord?_lowered]
    cases LogicalOp.ofWord? (String.ofList word) <;> rfl

def loweredMore (more : List (LogicalOp × Filter)) : List (LogicalOp × Filter) :=
  more.map (Prod.map id lowered)

theorem lowered_join (first : Filter) (more : List (LogicalOp × Filter)) :
    (join first more).lowered = join first.lowered (loweredMore more) := by
  induction more generalizing first with
  | nil => rfl
  | cons next more ih => exact ih (.logical next.1 first next.2)

structure LowersUpTo (length : Nat) : Prop where
  operand : ∀ {text}, text.length ≤ length → ReadsLowered lowered lowerOutside
    (reading (takeOperand text)) (reading (takeOperand (lowerOutside text)))
  expression : ∀ {text}, text.length ≤ length → ReadsLowered lowered lowerOutside
    (reading (takeExpression text)) (reading (takeExpression (lowerOutside text)))
  more : ∀ {text}, text.length ≤ length → ReadsLowered loweredMore lowerOutside
    (passing (takeMore text)) (passing (takeMore (lowerOutside text)))

theorem takeOperand_lowers {length : Nat} (shorter : ∀ less < length, LowersUpTo less)
    {text : List Char} (bounded : text.length ≤ length) :
    ReadsLowered lowered lowerOutside (reading (takeOperand text))
      (reading (takeOperand (lowerOutside text))) := by
  have unblank := length_skipBlank_le text
  have blanks := skipBlank_lowerOutside text
  rcases lowerOutside_mark '(' (by decide) (by decide) (Text.skipBlank text) with
    ⟨inside, opened, loweredOpened⟩ | ⟨unopened, loweredUnopened⟩
  · rw [reading_takeOperand_opened opened, reading_takeOperand_opened (blanks.trans loweredOpened)]
    rw [opened, List.length_cons] at unblank
    have inner := (shorter inside.length (by omega)).expression (Nat.le_refl _)
    refine inner.bind fun (filter, rest) _ => ?_
    dsimp only [Prod.map]
    rw [skipBlank_lowerOutside]
    rcases lowerOutside_mark ')' (by decide) (by decide) (Text.skipBlank rest) with
      ⟨last, closed, loweredClosed⟩ | ⟨unclosed, loweredUnclosed⟩
    · rw [closed, ← closed, loweredClosed, closed]
      exact .pair filter last
    · split
      next last closed => exact absurd (congrArg List.head? closed) unclosed
      next =>
        split
        next last closed => exact absurd (congrArg List.head? closed) loweredUnclosed
        next => exact .error ..
  · rw [reading_takeOperand (startsParenthesis_of_unopened unopened),
      reading_takeOperand (blanks ▸ startsParenthesis_of_unopened loweredUnopened), blanks,
      takeNot?_lowerOutside]
    cases keyword : takeNot? (Text.skipBlank text) with
    | none => exact takeComparison_lowers _
    | some word =>
      have less := word.shorter
      have inner := (shorter word.rest.length (by omega)).operand (Nat.le_refl _)
      exact inner.bind fun (filter, rest) _ => .pair (Filter.not filter) rest

theorem takeMore_lowers {length : Nat} (shorter : ∀ less < length, LowersUpTo less)
    {text : List Char} (bounded : text.length ≤ length) :
    ReadsLowered loweredMore lowerOutside (passing (takeMore text))
      (passing (takeMore (lowerOutside text))) := by
  have unblank := length_skipBlank_le text
  rw [passing_takeMore, passing_takeMore, skipBlank_lowerOutside, takeLogical?_lowerOutside]
  cases takeLogical? (Text.skipBlank text) with
  | none => exact .pair [] _
  | some word =>
    have less := word.shorter
    simp only [Option.map_some, Taken.pair, Prod.map, id, startsParenthesis_lowerOutside,
      startsBlank_lowerOutside]
    split
    · have operand := (shorter word.rest.length (by omega)).operand (Nat.le_refl _)
      refine operand.bind fun found read => ?_
      obtain ⟨filter, rest⟩ := found
      have left := length_of_reading read
      have more := (shorter rest.length (by omega)).more (Nat.le_refl _)
      exact more.bind fun others _ => .pair ((word.value, filter) :: others.1) others.2
    · exact .error ..

theorem lowersUpTo (length : Nat) : LowersUpTo length := by
  induction length using Nat.strong_induction_on with
  | _ length shorter =>
  refine ⟨takeOperand_lowers shorter, fun {text} bounded => ?_, takeMore_lowers shorter⟩
  rw [reading_takeExpression, reading_takeExpression]
  refine (takeOperand_lowers shorter bounded).bind fun (first, rest) read => ?_
  have left := length_of_reading read
  have more := (shorter rest.length (by omega)).more (Nat.le_refl _)
  refine more.bind fun (others, last) _ => ?_
  dsimp only [Prod.map]
  rw [← lowered_join]
  exact .pair ..

theorem takeExpression_lowers (text : List Char) :
    ReadsLowered lowered lowerOutside (reading (takeExpression text))
      (reading (takeExpression (lowerOutside text))) :=
  (lowersUpTo text.length).expression (Nat.le_refl _)

end Filter

namespace Path

theorem takeSelection_lowers (filtered : Bool) (text : List Char) :
    ReadsLowered (Option.map Filter.lowered) lowerOutside (readingOption (takeSelection filtered text))
      (readingOption (takeSelection filtered (lowerOutside text))) := by
  rcases lowerOutside_mark '[' (by decide) (by decide) text with
    ⟨inside, rfl, lowered⟩ | ⟨unopened, loweredUnopened⟩
  · rw [lowered]
    cases filtered with
    | true => exact .error ..
    | false =>
      rw [readingOption_takeSelection, readingOption_takeSelection]
      refine (Filter.takeExpression_lowers inside).bind fun (filter, rest) _ => ?_
      dsimp only [Prod.map]
      rw [Filter.skipBlank_lowerOutside]
      rcases lowerOutside_mark ']' (by decide) (by decide) (Text.skipBlank rest) with
        ⟨last, closed, loweredClosed⟩ | ⟨unclosed, loweredUnclosed⟩
      · rw [closed, ← closed, loweredClosed, closed]
        exact .pair (some filter) last
      · split
        next last closed => exact absurd (congrArg List.head? closed) unclosed
        next =>
          split
          next last closed => exact absurd (congrArg List.head? closed) loweredUnclosed
          next => exact .error ..
  · rw [takeSelection_unopened filtered unopened, takeSelection_unopened filtered loweredUnopened]
    exact .pair none text

theorem takeSegments_lowers (filtered : Bool) (text : List Char) :
    LowersTo (List.map Segment.lowered) (takeSegments filtered text)
      (takeSegments filtered (lowerOutside text)) := by
  induction h : text.length using Nat.strong_induction_on generalizing text filtered with
  | _ length ih =>
  subst h
  rw [takeSegments_eq, takeSegments_eq, takeRun_lowerOutside isNameChar_toLower (by decide)]
  cases takeRun isNameChar text with
  | none => exact .error ..
  | some name =>
    have less := name.shorter
    dsimp only [Option.map_some, Taken.pair, Prod.map]
    refine (takeSelection_lowers filtered name.rest).bind fun (filter, rest) read => ?_
    have left := length_of_readingOption read
    have segment : Segment.lowered ⟨String.ofList name.value, filter⟩ =
        ⟨String.ofList (name.value.map Char.toLower), filter.map Filter.lowered⟩ := by
      rw [Segment.lowered_eq, lowered_ofList]
    dsimp only [Prod.map]
    rw [← segment, Option.isSome_map]
    rcases lowerOutside_mark '.' (by decide) (by decide) rest with
      ⟨more, rfl, lowered⟩ | ⟨unparted, loweredUnparted⟩
    · rw [List.length_cons] at left
      rw [lowered]
      exact (ih more.length (by omega) _ more rfl).bind fun segments _ => .ok _
    · cases rest with
      | nil =>
        rw [lowerOutside_nil]
        exact .ok [_]
      | cons c others =>
        obtain ⟨last, more⟩ : ∃ last, lowerOutside (c :: others) = c.toLower :: last :=
          List.head?_eq_some_iff.mp (head?_lowerOutside (c :: others))
        rw [more] at loweredUnparted ⊢
        split
        next none => cases none
        next parted => exact absurd (congrArg List.head? parted) unparted
        next =>
          split
          next none => cases none
          next parted => exact absurd (congrArg List.head? parted) loweredUnparted
          next => exact .error ..

/-- The text of a path with the letters outside string literals lowered. A literal stands in a
filter only, so a quote in a URN opens none. -/
def loweredText (text : List Char) : List Char :=
  (text.takeWhile (· != '[')).map Char.toLower ++ lowerOutside (text.dropWhile (· != '['))

theorem bracket_toLower (c : Char) : (c.toLower != '[') = (c != '[') := by
  rw [Bool.eq_iff_iff, bne_iff_ne, bne_iff_ne, ne_eq, toLower_eq_iff (by decide)]

theorem takeWhile_loweredText (text : List Char) :
    (loweredText text).takeWhile (· != '[') = (text.takeWhile (· != '[')).map Char.toLower ∧
      (loweredText text).dropWhile (· != '[') = lowerOutside (text.dropWhile (· != '[')) := by
  have all : ∀ c ∈ (text.takeWhile (· != '[')).map Char.toLower, (c != '[') = true :=
    all_of_lowered bracket_toLower (map_toLower_again _)
      fun c member => List.mem_takeWhile_imp (p := (· != '[')) member
  have stops : Stops (· != '[') (lowerOutside (text.dropWhile (· != '['))) :=
    stops_lowerOutside bracket_toLower (stops_dropWhile _ text)
  exact ⟨takeWhile_append_of_stops all stops, dropWhile_append_of_stops all stops⟩

theorem loweredText_eq_nil {text : List Char} : loweredText text = [] ↔ text = [] := by
  rw [loweredText, List.append_eq_nil_iff, List.map_eq_nil_iff, lowerOutside_eq_nil,
    ← List.append_eq_nil_iff, List.takeWhile_append_dropWhile]

/-- Ahead of a bracket an accepted text has no quote. -/
theorem noQuote_of_takeSegments {body tail : List Char} {segments : List Segment}
    (noBracket : ∀ c ∈ body, (c != '[') = true) (stops : Stops (· != '[') tail)
    (accepted : takeSegments false (body ++ tail) = .ok segments) : '"' ∉ body := by
  intro member
  have ahead := allowed_ahead accepted '"'
  rw [takeWhile_append_of_stops noBracket stops] at ahead
  rcases ahead member with name | point
  · simp [isNameChar] at name
  · cases point

theorem takeSegments_qualified_lowers {body tail : List Char}
    (noBracket : ∀ c ∈ body, (c != '[') = true) (stops : Stops (· != '[') tail) :
    LowersTo (List.map Segment.lowered) (takeSegments false (body ++ tail))
      (takeSegments false (body.map Char.toLower ++ lowerOutside tail)) := by
  by_cases quote : '"' ∈ body
  · -- a quote in a name is refused, so no literal is opened by it
    apply LowersTo.of_ok
    · exact fun segments accepted => absurd quote (noQuote_of_takeSegments noBracket stops accepted)
    · intro segments accepted
      exact absurd (List.mem_map_of_mem (f := Char.toLower) quote) (noQuote_of_takeSegments
        (all_of_lowered bracket_toLower (map_toLower_again body) noBracket)
        (stops_lowerOutside bracket_toLower stops) accepted)
  · rw [← lowerOutside_append quote]
    exact takeSegments_lowers false _

theorem toOption_mapError {ε ε' α : Type} (f : ε → ε') (result : Except ε α) :
    (result.mapError f).toOption = result.toOption := by
  cases result <;> rfl

theorem toOption_map {ε α β : Type} (f : α → β) (result : Except ε α) :
    (result.map f).toOption = result.toOption.map f := by
  cases result <;> rfl

/-- **Reading does not see the case of letters.** A text with the letters outside string literals
lowered is accepted just if the text is, for the same path with its names lowered. -/
theorem parse_loweredText (text : String) :
    (parse (String.ofList (loweredText text.toList))).toOption =
      (parse text).toOption.map lowered := by
  obtain ⟨ahead, behind⟩ := takeWhile_loweredText text.toList
  by_cases empty : text.toList = []
  · have none : text = "" := by simpa using empty
    rw [none]
    rfl
  · have given : text.isEmpty = false := by simpa using empty
    have loweredGiven : (String.ofList (loweredText text.toList)).isEmpty = false := by
      simpa using mt loweredText_eq_nil.mp empty
    have noBracket : ∀ c ∈ (splitUrn (text.toList.takeWhile (· != '['))).2, (c != '[') = true := by
      intro c member
      apply List.mem_takeWhile_imp (p := (· != '[')) (l := text.toList)
      rcases splitUrn_cases (text.toList.takeWhile (· != '[')) with
        whole | ⟨urn, dotted, cut, parts, _⟩
      · rwa [whole] at member
      · rw [cut] at member
        rw [parts]
        exact List.mem_append_right _ (List.mem_cons_of_mem _ member)
    have segments := takeSegments_qualified_lowers noBracket (stops_dropWhile (· != '[') text.toList)
    rw [parse, parse, given, loweredGiven]
    simp only [Bool.false_eq_true, if_false, String.toList_ofList, ahead, behind,
      Filter.splitUrn_toLower, toOption_mapError, toOption_map]
    rw [segments]
    cases (takeSegments false ((splitUrn (text.toList.takeWhile (· != '['))).2 ++
        text.toList.dropWhile (· != '['))).toOption with
    | none => rfl
    | some read =>
      simp only [Option.map_some, lowered_eq, Option.map_map, Function.comp_def, lowered_ofList]

end Path
end Scim
