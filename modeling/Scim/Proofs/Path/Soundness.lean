import Scim.Proofs.Path.Quoting

/-! Whatever is read is well-formed, and was read from a text that keeps its brackets between
quotes. -/
namespace Scim

theorem passes_takeDigits {text rest run : List Char}
    (read : reading (takeDigits text) = .ok (run, rest)) : Passes text rest := by
  obtain ⟨shorter, read⟩ := reading_eq_ok.mp read
  simp only [takeDigits] at read
  split at read
  next digits found =>
    cases read
    exact passes_takeRun found (by decide) (by decide) (by decide) (by decide)
  next => cases read

theorem passes_takeFraction {text rest : List Char} {run : Option (List Char)}
    (read : readingOption (takeFraction text) = .ok (run, rest)) : Passes text rest := by
  unfold takeFraction at read
  split at read
  next after =>
    cases digits : takeDigits after with
    | error fault =>
      rw [digits] at read
      cases read
    | ok taken =>
      rw [digits] at read
      cases read
      have passed : reading (takeDigits after) = .ok (taken.value, taken.rest) := by
        rw [digits]
        rfl
      exact (passes_takeDigits passed).cons (by decide)
  next =>
    cases read
    exact .refl _

theorem passes_takeExponentDigits {negative : Bool} {text : List Char} {taken : Taken Int text}
    (read : takeExponentDigits negative text = .ok taken) : Passes text taken.rest := by
  obtain ⟨digits, digitsRead, same⟩ := bind_eq_ok.mp read
  cases same
  exact passes_takeDigits (reading_eq_ok.mpr ⟨digits.shorter, digitsRead⟩)

theorem passes_takeExponent {text rest : List Char} {exponent : Option Int}
    (read : readingOption (takeExponent text) = .ok (exponent, rest)) : Passes text rest := by
  cases taken : takeExponent text with
  | error fault =>
    rw [taken] at read
    cases read
  | ok found =>
    rw [taken] at read
    cases read
    unfold takeExponent at taken
    split at taken
    next =>
      cases taken
      exact .refl _
    next mark after =>
      split at taken
      next marked =>
        have plain : IsPlain mark := by rcases marked with rfl | rfl <;> decide
        split at taken
        next digits =>
          obtain ⟨size, sizeRead, same⟩ := bind_eq_ok.mp taken
          cases same
          exact ((passes_takeExponentDigits sizeRead).cons (by decide)).cons plain
        next digits =>
          obtain ⟨size, sizeRead, same⟩ := bind_eq_ok.mp taken
          cases same
          exact ((passes_takeExponentDigits sizeRead).cons (by decide)).cons plain
        next =>
          obtain ⟨size, sizeRead, same⟩ := bind_eq_ok.mp taken
          cases same
          exact (passes_takeExponentDigits sizeRead).cons plain
      next =>
        cases taken
        exact .refl _

theorem passes_takeUnsigned {negative : Bool} {text rest : List Char} {n : Numeral}
    (read : reading (takeUnsigned negative text) = .ok (n, rest)) : Passes text rest := by
  rw [reading_takeUnsigned] at read
  obtain ⟨⟨whole, left⟩, wholeRead, read⟩ := bind_eq_ok.mp read
  obtain ⟨⟨fraction, others⟩, fractionRead, read⟩ := bind_eq_ok.mp read
  obtain ⟨⟨exponent, last⟩, exponentRead, same⟩ := bind_eq_ok.mp read
  cases same
  exact ((passes_takeDigits wholeRead).trans (passes_takeFraction fractionRead)).trans
    (passes_takeExponent exponentRead)

theorem passes_takeNumeral {text rest : List Char} {n : Numeral}
    (read : reading (takeNumeral text) = .ok (n, rest)) : Passes text rest := by
  obtain ⟨shorter, read⟩ := reading_eq_ok.mp read
  unfold takeNumeral at read
  split at read
  next after =>
    obtain ⟨unsigned, unsignedRead, same⟩ := bind_eq_ok.mp read
    cases same
    exact (passes_takeUnsigned (reading_eq_ok.mpr ⟨unsigned.shorter, unsignedRead⟩)).cons
      (by decide)
  next => exact passes_takeUnsigned (reading_eq_ok.mpr ⟨shorter, read⟩)

namespace Filter

theorem passes_takeLiteral {text rest : List Char} {value : Json}
    (read : reading (takeLiteral text) = .ok (value, rest)) : Passes text rest := by
  obtain ⟨shorter, read⟩ := reading_eq_ok.mp read
  unfold takeLiteral at read
  split at read
  next body =>
    obtain ⟨string, stringRead, same⟩ := bind_eq_ok.mp read
    cases same
    obtain ⟨consumed, parts, closed⟩ :=
      Text.scan?_takeStringBody _ _ (reading_eq_ok.mpr ⟨string.shorter, stringRead⟩)
    refine ⟨'"' :: consumed, congrArg ('"' :: ·) parts, ?_⟩
    rw [Balanced, QuoteMode.scan?_cons]
    exact closed
  next =>
    split at read
    next =>
      obtain ⟨numeral, numeralRead, same⟩ := bind_eq_ok.mp read
      split at same
      next =>
        cases same
        exact passes_takeNumeral (reading_eq_ok.mpr ⟨numeral.shorter, numeralRead⟩)
      next => cases same
    next =>
      simp only [takeWordValue] at read
      split at read
      next => cases read
      next word found =>
        split at read
        next =>
          cases read
          exact passes_takeRun found (by decide) (by decide) (by decide) (by decide)
        next => cases read
  next => cases read

theorem passes_takeBlank {text rest blank : List Char}
    (read : reading (takeBlank text) = .ok (blank, rest)) :
    Passes text rest ∧ startsBlank text = true := by
  obtain ⟨shorter, read⟩ := reading_eq_ok.mp read
  simp only [takeBlank] at read
  split at read
  next run found =>
    cases read
    refine ⟨passes_takeRun found (by decide) (by decide) (by decide) (by decide), ?_⟩
    obtain ⟨parts, nonempty, all, _⟩ := takeRun_eq_some found
    obtain ⟨c, more, rfl⟩ := List.exists_cons_of_ne_nil nonempty
    rw [parts]
    exact all c (by simp)
  next => cases read

theorem passes_takeOperator {text rest : List Char} {op : CompareOp}
    (read : reading (takeOperator text) = .ok (op, rest)) : Passes text rest := by
  obtain ⟨shorter, read⟩ := reading_eq_ok.mp read
  simp only [takeOperator] at read
  split at read
  next => cases read
  next word found =>
    split at read
    next =>
      cases read
      exact passes_takeRun found (by decide) (by decide) (by decide) (by decide)
    next => cases read

/-- A comparison that is no negation is well-formed. -/
theorem takeComparison_sound {text rest : List Char} {filter : Filter}
    (read : reading (takeComparison text) = .ok (filter, rest))
    (noKeyword : takeNot? text = none) : filter.WellFormed ∧ Passes text rest := by
  rw [reading_takeComparison] at read
  obtain ⟨⟨path, afterPath⟩, pathRead, read⟩ := bind_eq_ok.mp read
  obtain ⟨⟨before, afterBlank⟩, blankRead, read⟩ := bind_eq_ok.mp read
  obtain ⟨⟨op, afterOp⟩, opRead, read⟩ := bind_eq_ok.mp read
  obtain ⟨parts, stops, attributed⟩ := takeAttribute_sound pathRead
  obtain ⟨passed, blank⟩ := passes_takeBlank blankRead
  have notKeyword : ¬ Caseless path.render "not" := by
    intro keyword
    have noLetter : Stops Char.isAlpha afterPath := fun c first =>
      Bool.eq_false_iff.mpr fun letter =>
        absurd (isAttributeChar_of_isAlpha letter) (by simp [stops c first])
    have taken := takeNot?_keyword keyword noLetter (.inr blank)
    rw [← parts, noKeyword] at taken
    cases taken
  have attributed := attributed notKeyword
  have head : Passes text afterOp := by
    have first : Passes text afterPath :=
      ⟨path.chars, parts, .of_class attributed.allowed (by decide) (by decide) (by decide)
        (by decide)⟩
    exact (first.trans passed).trans (passes_takeOperator opRead)
  dsimp only at read
  split at read
  next =>
    cases read
    exact ⟨⟨attributed, trivial, fun _ => rfl⟩, head⟩
  next other =>
    obtain ⟨⟨second, afterSecond⟩, secondRead, read⟩ := bind_eq_ok.mp read
    obtain ⟨⟨value, last⟩, valueRead, same⟩ := bind_eq_ok.mp read
    cases same
    exact ⟨⟨attributed, isLiteral_of_takeLiteral valueRead, fun present => absurd present other⟩,
      (head.trans (passes_takeBlank secondRead).1).trans (passes_takeLiteral valueRead)⟩

theorem passes_takeNot? {text rest word : List Char}
    (found : (takeNot? text).map Taken.pair = some (word, rest)) :
    Passes text rest ∧ rest.length < text.length := by
  obtain ⟨taken, keyword, same⟩ := Option.map_eq_some_iff.mp found
  cases same
  refine ⟨?_, taken.shorter⟩
  simp only [takeNot?] at keyword
  split at keyword
  next run foundRun =>
    split at keyword
    next =>
      cases keyword
      exact passes_takeRun foundRun (by decide) (by decide) (by decide) (by decide)
    next => cases keyword
  next => cases keyword

theorem passes_takeLogical? {text rest : List Char} {op : LogicalOp}
    (found : (takeLogical? text).map Taken.pair = some (op, rest)) :
    Passes text rest ∧ rest.length < text.length := by
  obtain ⟨taken, keyword, same⟩ := Option.map_eq_some_iff.mp found
  cases same
  refine ⟨?_, taken.shorter⟩
  simp only [takeLogical?] at keyword
  split at keyword
  next run foundRun =>
    obtain ⟨op, _, same⟩ := Option.map_eq_some_iff.mp keyword
    cases same
    exact passes_takeRun foundRun (by decide) (by decide) (by decide) (by decide)
  next => cases keyword

theorem join_wellFormed {first : Filter} (formed : first.WellFormed)
    {more : List (LogicalOp × Filter)} (others : ∀ next ∈ more, next.2.WellFormed) :
    (join first more).WellFormed := by
  induction more generalizing first with
  | nil => exact formed
  | cons next more ih =>
    simp only [List.forall_mem_cons] at others
    exact ih ⟨formed, others.1⟩ others.2

structure SoundUpTo (length : Nat) : Prop where
  operand : ∀ {text rest filter}, text.length ≤ length →
    reading (takeOperand text) = .ok (filter, rest) → filter.WellFormed ∧ Passes text rest
  expression : ∀ {text rest filter}, text.length ≤ length →
    reading (takeExpression text) = .ok (filter, rest) → filter.WellFormed ∧ Passes text rest
  more : ∀ {text rest others}, text.length ≤ length →
    passing (takeMore text) = .ok (others, rest) →
      (∀ next ∈ others, next.2.WellFormed) ∧ Passes text rest

theorem takeOperand_sound {length : Nat} (shorter : ∀ less < length, SoundUpTo less)
    {text rest : List Char} {filter : Filter} (bounded : text.length ≤ length)
    (read : reading (takeOperand text) = .ok (filter, rest)) :
    filter.WellFormed ∧ Passes text rest := by
  have blanks := passes_skipBlank text
  have unblank := length_skipBlank_le text
  cases opens : startsParenthesis (Text.skipBlank text) with
  | true =>
    unfold startsParenthesis at opens
    split at opens
    next inside opened =>
      rw [reading_takeOperand_opened opened] at read
      obtain ⟨⟨inner, left⟩, innerRead, read⟩ := bind_eq_ok.mp read
      rw [opened, List.length_cons] at unblank
      obtain ⟨formed, passed⟩ :=
        (shorter inside.length (by omega)).expression (Nat.le_refl _) innerRead
      dsimp only at read
      split at read
      next closed =>
        cases read
        refine ⟨formed, blanks.trans ?_⟩
        rw [opened]
        refine (passed.trans (passes_skipBlank left)).trans ?_ |>.cons (by decide)
        rw [closed]
        exact (Passes.refl _).cons (by decide)
      next => cases read
    next => cases opens
  | false =>
    rw [reading_takeOperand opens] at read
    cases keyword : takeNot? (Text.skipBlank text) with
    | none =>
      rw [keyword] at read
      obtain ⟨formed, passed⟩ := takeComparison_sound read keyword
      exact ⟨formed, blanks.trans passed⟩
    | some word =>
      obtain ⟨passedWord, less⟩ :=
        passes_takeNot? ((congrArg (Option.map Taken.pair) keyword).trans rfl)
      rw [keyword] at read
      obtain ⟨⟨inner, left⟩, innerRead, same⟩ := bind_eq_ok.mp read
      cases same
      obtain ⟨formed, passed⟩ :=
        (shorter word.rest.length (by omega)).operand (Nat.le_refl _) innerRead
      exact ⟨formed, (blanks.trans passedWord).trans passed⟩

theorem takeMore_sound {length : Nat} (shorter : ∀ less < length, SoundUpTo less)
    {text rest : List Char} {others : List (LogicalOp × Filter)} (bounded : text.length ≤ length)
    (read : passing (takeMore text) = .ok (others, rest)) :
    (∀ next ∈ others, next.2.WellFormed) ∧ Passes text rest := by
  have blanks := passes_skipBlank text
  have unblank := length_skipBlank_le text
  rw [passing_takeMore] at read
  cases keyword : (takeLogical? (Text.skipBlank text)).map Taken.pair with
  | none =>
    rw [keyword] at read
    cases read
    exact ⟨by simp, blanks⟩
  | some found =>
    obtain ⟨op, after⟩ := found
    obtain ⟨passedWord, less⟩ := passes_takeLogical? keyword
    rw [keyword] at read
    dsimp only at read
    split at read
    next =>
      obtain ⟨⟨operand, left⟩, operandRead, read⟩ := bind_eq_ok.mp read
      obtain ⟨⟨more, last⟩, moreRead, same⟩ := bind_eq_ok.mp read
      cases same
      have left_lt := length_of_reading operandRead
      obtain ⟨formed, passed⟩ :=
        (shorter after.length (by omega)).operand (Nat.le_refl _) operandRead
      obtain ⟨others, passedMore⟩ :=
        (shorter left.length (by omega)).more (Nat.le_refl _) moreRead
      exact ⟨List.forall_mem_cons.mpr ⟨formed, others⟩,
        ((blanks.trans passedWord).trans passed).trans passedMore⟩
    next => cases read

/-- Everything that is read as a filter is well-formed, whatever the length of the text. -/
theorem soundUpTo (length : Nat) : SoundUpTo length := by
  induction length using Nat.strong_induction_on with
  | _ length shorter =>
  refine ⟨takeOperand_sound shorter, fun bounded read => ?_, takeMore_sound shorter⟩
  rw [reading_takeExpression] at read
  obtain ⟨⟨first, left⟩, firstRead, read⟩ := bind_eq_ok.mp read
  obtain ⟨⟨more, last⟩, moreRead, same⟩ := bind_eq_ok.mp read
  cases same
  have less := length_of_reading firstRead
  obtain ⟨formed, passed⟩ := takeOperand_sound shorter bounded firstRead
  obtain ⟨others, passedMore⟩ :=
    (shorter left.length (by omega)).more (Nat.le_refl _) moreRead
  exact ⟨join_wellFormed formed others, passed.trans passedMore⟩

theorem takeExpression_sound {text rest : List Char} {filter : Filter}
    (read : reading (takeExpression text) = .ok (filter, rest)) :
    filter.WellFormed ∧ Passes text rest :=
  (soundUpTo text.length).expression (Nat.le_refl _) read

/-- An accepted filter is well-formed. -/
theorem wellFormed_of_parse {text : String} {filter : Filter}
    (parsed : parse text = .ok filter) : filter.WellFormed := by
  simp only [parse] at parsed
  cases taken : takeExpression text.toList with
  | error fault =>
    rw [taken] at parsed
    cases parsed
  | ok found =>
    have sound := takeExpression_sound (reading_eq_ok.mpr ⟨found.shorter, taken⟩)
    rw [taken] at parsed
    dsimp only [bind, Except.bind] at parsed
    split at parsed
    next =>
      cases parsed
      exact sound.1
    next => cases parsed

end Filter
namespace Path

theorem takeSelection_sound {filtered : Bool} {text rest : List Char} {filter : Option Filter}
    (read : readingOption (takeSelection filtered text) = .ok (filter, rest)) :
    filter = none ∧ rest = text ∧ text.head? ≠ some '[' ∨
      filtered = false ∧ ∃ found inside, filter = some found ∧ text = '[' :: inside ∧
        found.WellFormed ∧ Passes inside (']' :: rest) := by
  by_cases opened : text.head? = some '['
  · obtain ⟨inside, rfl⟩ := List.head?_eq_some_iff.mp opened
    cases filtered with
    | true => simp [takeSelection] at read
    | false =>
      rw [readingOption_takeSelection] at read
      obtain ⟨⟨found, left⟩, foundRead, read⟩ := bind_eq_ok.mp read
      obtain ⟨formed, passed⟩ := Filter.takeExpression_sound foundRead
      dsimp only at read
      split at read
      next closed =>
        cases read
        have blanks := passes_skipBlank left
        rw [closed] at blanks
        exact .inr ⟨rfl, found, inside, rfl, rfl, formed, passed.trans blanks⟩
      next => cases read
  · rw [takeSelection_unopened filtered opened] at read
    cases read
    exact .inl ⟨rfl, rfl, opened⟩

/-- How an accepted text of segments starts, and what it leaves. -/
theorem takeSegments_parts {filtered : Bool} {text : List Char} {segments : List Segment}
    (read : takeSegments filtered text = .ok segments) :
    ∃ name filter tail rest more, text = name ++ tail ∧ name ≠ [] ∧
      (∀ c ∈ name, isNameChar c = true) ∧ Stops isNameChar tail ∧
      readingOption (takeSelection filtered tail) = .ok (filter, rest) ∧
      segments = ⟨String.ofList name, filter⟩ :: more ∧
      (rest = [] ∧ more = [] ∨ ∃ after, rest = '.' :: after ∧ after.length < text.length ∧
        takeSegments (filtered || filter.isSome) after = .ok more) := by
  rw [takeSegments_eq] at read
  cases found : takeRun isNameChar text with
  | none =>
    rw [found] at read
    cases read
  | some name =>
    obtain ⟨parts, nonempty, all, stops⟩ := takeRun_eq_some found
    rw [found] at read
    obtain ⟨⟨filter, rest⟩, selected, read⟩ := bind_eq_ok.mp read
    have shorter : rest.length ≤ name.rest.length := by
      cases selection : takeSelection filtered name.rest with
      | error fault =>
        rw [selection] at selected
        cases selected
      | ok taken =>
        rw [selection] at selected
        cases selected
        exact Taken.remaining_length_le taken
    have less := name.shorter
    refine ⟨name.value, filter, name.rest, rest, ?_⟩
    dsimp only at read
    split at read
    next =>
      cases read
      exact ⟨[], parts, nonempty, all, stops, selected, rfl, .inl ⟨rfl, rfl⟩⟩
    next after =>
      obtain ⟨more, moreRead, same⟩ := bind_eq_ok.mp read
      cases same
      rw [List.length_cons] at shorter
      exact ⟨more, parts, nonempty, all, stops, selected, rfl,
        .inr ⟨after, rfl, by omega, moreRead⟩⟩
    next => cases read

theorem takeSegments_sound {filtered : Bool} {text : List Char} {segments : List Segment}
    (read : takeSegments filtered text = .ok segments) :
    segments ≠ [] ∧ (∀ segment ∈ segments, segment.IsNamed) ∧
      filterCount segments + (if filtered then 1 else 0) ≤ 1 ∧
      ∀ segment ∈ segments, ∀ filter ∈ segment.filter, filter.WellFormed := by
  induction h : text.length using Nat.strong_induction_on generalizing filtered text segments with
  | _ length ih =>
  subst h
  obtain ⟨name, filter, tail, rest, more, rfl, nonempty, all, _, selected, rfl, next⟩ :=
    takeSegments_parts read
  have named : Segment.IsNamed ⟨String.ofList name, filter⟩ :=
    ⟨by simpa using nonempty, by simpa using all⟩
  have count : filterCount (⟨String.ofList name, filter⟩ :: more) =
      filterCount more + (if filter.isSome then 1 else 0) := by
    simp [filterCount, List.countP_cons]
  have selection := takeSelection_sound selected
  have formed : ∀ found ∈ filter, found.WellFormed := by
    intro found member
    rcases selection with ⟨absent, _⟩ | ⟨_, read, _, same, _, formed, _⟩
    · simp [absent] at member
    · cases same
      cases member
      exact formed
  have single : (if filter.isSome then 1 else 0) + (if filtered then 1 else 0) ≤ 1 := by
    rcases selection with ⟨absent, _⟩ | ⟨unfiltered, _⟩
    · cases filtered <;> simp [absent]
    · cases filter <;> simp [unfiltered]
  refine ⟨by simp, ?_⟩
  rcases next with ⟨_, rfl⟩ | ⟨after, _, less, moreRead⟩
  · refine ⟨by simpa using named, ?_, by simpa using formed⟩
    rw [count]
    simpa [filterCount] using single
  · obtain ⟨_, others, counted, othersFormed⟩ := ih after.length less moreRead rfl
    refine ⟨List.forall_mem_cons.mpr ⟨named, others⟩, ?_,
      List.forall_mem_cons.mpr ⟨formed, othersFormed⟩⟩
    rw [count]
    cases filtered <;> cases filter <;> simp_all

/-- An accepted path is well-formed. -/
theorem wellFormed_of_parse {text : String} {path : Path} (parsed : parse text = .ok path) :
    path.WellFormed := by
  cases given : text.isEmpty with
  | true =>
    rw [parse, given] at parsed
    cases parsed
    exact .inl rfl
  | false =>
    obtain ⟨spelled, accepted⟩ := (parse_eq_ok_iff given).mp parsed
    obtain ⟨nonempty, named, single, formed⟩ := takeSegments_sound accepted
    refine .inr ⟨⟨nonempty, named, by simpa using single, fun segment member filter within =>
      (formed segment member filter within).printable, fun schema written => ?_⟩, formed⟩
    generalize headIs : text.toList.takeWhile (· != '[') = head at spelled
    rw [Option.mem_def.mp written] at spelled
    rcases splitUrn_cases head with absent | ⟨urn, dotted, cut, parts, starts, _⟩
    · simp [absent] at spelled
    · rw [cut] at spelled
      cases spelled
      rw [String.toList_ofList]
      refine ⟨starts, fun bracket => ?_⟩
      have inHead : '[' ∈ head := by
        rw [parts]
        exact List.mem_append_left _ bracket
      rw [← headIs] at inHead
      simpa using List.mem_takeWhile_imp inHead

end Path
end Scim
