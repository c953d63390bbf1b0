import Scim.Proofs.Number.Numerals
import Scim.Proofs.Path.Spelling
import Scim.Proofs.Path.Words

/-! Readers within longer texts. A reader looks one character past what it takes, so it takes the
same with more text behind, unless it comes to the end and could go on in what follows. -/
namespace Scim

def EndsFilter (after : List Char) : Prop := ∀ c ∈ after.head?, c = ')' ∨ c = ']'

/-- What may follow a comparison: no character that goes on with its last word or value. -/
def EndsToken (after : List Char) : Prop :=
  ∀ c ∈ after.head?, Text.isBlank c = true ∨ c = ')' ∨ c = ']'

def EndsApart (text : List Char) : Prop := ∃ c ∈ text.getLast?, Text.isBlank c = true ∨ c = ')'

namespace EndsFilter

variable {after : List Char}

@[simp] theorem nil : EndsFilter [] := by simp [EndsFilter]

@[simp] theorem parenthesis (rest : List Char) : EndsFilter (')' :: rest) := by simp [EndsFilter]

@[simp] theorem bracket (rest : List Char) : EndsFilter (']' :: rest) := by simp [EndsFilter]

theorem token (ends : EndsFilter after) : EndsToken after := fun c first => .inr (ends c first)

theorem stops (ends : EndsFilter after) {p : Char → Bool} (parenthesis : p ')' = false)
    (bracket : p ']' = false) : Stops p after := by
  intro c first
  rcases ends c first with rfl | rfl
  · exact parenthesis
  · exact bracket

end EndsFilter

namespace EndsToken

variable {after : List Char}

/-- No attribute, word or numeral goes on. -/
theorem stops (ends : EndsToken after) {p : Char → Bool}
    (within : ∀ c, p c = true → isAttributeChar c = true) : Stops p after := by
  intro c first
  refine Bool.eq_false_iff.mpr fun goes => ?_
  rcases ends c first with blank | rfl | rfl
  · exact absurd blank (by simp [isBlank_of_isAttributeChar (within c goes)])
  · exact absurd (within _ goes) (by decide)
  · exact absurd (within _ goes) (by decide)

end EndsToken

theorem isAttributeChar_of_isDigit {c : Char} (digit : c.isDigit = true) :
    isAttributeChar c = true := by simp [isAttributeChar, isNameChar, Char.isAlphanum, digit]

namespace EndsApart

variable {front rest : List Char}

theorem not_nil : ¬ EndsApart [] := by simp [EndsApart]

theorem of_append (ends : EndsApart (front ++ rest)) (nonempty : rest ≠ []) : EndsApart rest := by
  rwa [EndsApart, List.getLast?_append_of_ne_nil front nonempty] at ends

theorem of_mark {mark : Char} (ends : EndsApart (front ++ mark :: rest))
    (goes : ¬ (Text.isBlank mark = true ∨ mark = ')')) : EndsApart rest := by
  have ends := ends.of_append (List.cons_ne_nil mark rest)
  by_cases empty : rest = []
  · subst empty
    obtain ⟨c, last, apart⟩ := ends
    cases last
    exact absurd apart goes
  · exact @of_append [mark] rest ends empty

theorem of_run {run : List Char} (ends : EndsApart (run ++ rest))
    (allowed : ∀ c ∈ run, isAttributeChar c = true) : EndsApart rest := by
  induction run with
  | nil => exact ends
  | cons c run ih =>
    simp only [List.forall_mem_cons] at allowed
    refine ih (@of_mark [] _ c ends ?_) allowed.2
    rintro (blank | rfl)
    · simp [isBlank_of_isAttributeChar allowed.1] at blank
    · exact absurd allowed.1 (by decide)

end EndsApart

/-- What one reader of tokens gives for `text` the other gives with `after` behind it, unless
nothing is left and `after` may go on with what was read. An end apart is not read. -/
def ReadsBefore {α : Type} (after text : List Char)
    (one other : Except Fault (α × List Char)) : Prop :=
  ∀ value rest, one = .ok (value, rest) →
    rest.length ≤ text.length ∧ (EndsApart text → EndsApart rest) ∧
      ((rest = [] → EndsToken after) → other = .ok (value, rest ++ after))

namespace ReadsBefore

variable {α β : Type} {after text : List Char}

theorem ok (value : α) (rest : List Char) :
    ReadsBefore after rest (.ok (value, rest)) (.ok (value, rest ++ after)) := by
  rintro _ _ ⟨⟩
  exact ⟨Nat.le_refl _, id, fun _ => rfl⟩

theorem error (fault : Fault) (other : Except Fault (α × List Char)) :
    ReadsBefore after text (.error fault) other :=
  fun _ _ read => nomatch read

theorem behind {c : Char} {one other : Except Fault (α × List Char)}
    (reads : ReadsBefore after text one other) (goes : ¬ (Text.isBlank c = true ∨ c = ')')) :
    ReadsBefore after (c :: text) one other := by
  intro value rest read
  obtain ⟨length, ends, before⟩ := reads value rest read
  exact ⟨Nat.le_succ_of_le length, fun apart => ends (@EndsApart.of_mark [] text c apart goes),
    before⟩

/-- What is read on from both: where the first reader leaves nothing, neither does the second. -/
theorem bind {one other : Except Fault (α × List Char)}
    {next step : α × List Char → Except Fault (β × List Char)}
    (same : ReadsBefore after text one other)
    (onward : ∀ value rest, one = .ok (value, rest) →
      ReadsBefore after rest (next (value, rest)) (step (value, rest ++ after))) :
    ReadsBefore after text (one >>= next) (other >>= step) := by
  intro value rest read
  obtain ⟨⟨first, left⟩, found, read⟩ := bind_eq_ok.mp read
  obtain ⟨firstLength, firstEnds, before⟩ := same first left found
  obtain ⟨length, ends, further⟩ := onward first left found value rest read
  refine ⟨Nat.le_trans length firstLength, ends ∘ firstEnds, fun clear => ?_⟩
  rw [before fun empty => clear (List.length_eq_zero_iff.mp (by simpa [empty] using length))]
  exact further clear

end ReadsBefore

section

variable {after : List Char}

theorem Stops.append {p : Char → Bool} {text : List Char} (stops : Stops p text)
    (afterStops : text = [] → Stops p after) : Stops p (text ++ after) := by
  cases text with
  | nil => exact afterStops rfl
  | cons c rest => exact stops

theorem dropWhile_append {p : Char → Bool} {text : List Char}
    (stops : text.dropWhile p = [] → Stops p after) :
    (text ++ after).takeWhile p = text.takeWhile p ∧
      (text ++ after).dropWhile p = text.dropWhile p ++ after := by
  have parts : text ++ after = text.takeWhile p ++ (text.dropWhile p ++ after) := by
    rw [← List.append_assoc, List.takeWhile_append_dropWhile]
  have all : ∀ c ∈ text.takeWhile p, p c = true := fun c member => List.mem_takeWhile_imp member
  have later := (stops_dropWhile p text).append stops
  rw [parts]
  exact ⟨takeWhile_append_of_stops all later, dropWhile_append_of_stops all later⟩

theorem takeRun_append_map {p : Char → Bool} {text : List Char}
    (stops : text.dropWhile p = [] → Stops p after) :
    (takeRun p (text ++ after)).map Taken.pair =
      ((takeRun p text).map Taken.pair).map (Prod.map id (· ++ after)) := by
  obtain ⟨taken, left⟩ := dropWhile_append stops
  unfold takeRun
  by_cases none : text.takeWhile p = []
  · rw [dif_pos none, dif_pos (taken.trans none)]
    rfl
  · rw [dif_neg none, dif_neg (taken ▸ none)]
    simp only [Option.map_some, Taken.pair, Prod.map, taken, left, id]

/-- A run that was found is found again if it cannot go on. -/
theorem takeRun_before {p : Char → Bool} {text run rest : List Char}
    (found : (takeRun p text).map Taken.pair = some (run, rest))
    (stops : rest = [] → Stops p after) :
    (takeRun p (text ++ after)).map Taken.pair = some (run, rest ++ after) := by
  rw [takeRun_append_map (by rwa [dropWhile_of_takeRun found]), found]
  rfl

theorem readRun_eq_ok {p : Char → Bool} {text run rest : List Char} :
    readRun p text = .ok (run, rest) ↔ (takeRun p text).map Taken.pair = some (run, rest) := by
  rw [readRun]
  cases (takeRun p text).map Taken.pair <;> simp

theorem length_of_readRun {p : Char → Bool} {text run rest : List Char}
    (read : readRun p text = .ok (run, rest)) : rest.length < text.length := by
  obtain ⟨taken, _, same⟩ := Option.map_eq_some_iff.mp (readRun_eq_ok.mp read)
  cases same
  exact taken.shorter

/-- A run of attribute characters, refused one way or another. -/
theorem run_before {p : Char → Bool} (within : ∀ c, p c = true → isAttributeChar c = true)
    {text : List Char} {one other : Except Fault (List Char × List Char)}
    (runs : ∀ run rest, one = .ok (run, rest) → (takeRun p text).map Taken.pair = some (run, rest))
    (runsOn : ∀ run rest, (takeRun p (text ++ after)).map Taken.pair = some (run, rest) →
      other = .ok (run, rest)) : ReadsBefore after text one other := by
  intro run rest read
  have found := runs run rest read
  obtain ⟨taken, taken?, same⟩ := Option.map_eq_some_iff.mp found
  obtain ⟨parts, _, all, _⟩ := takeRun_eq_some taken?
  cases same
  refine ⟨Nat.le_of_lt taken.shorter, fun ends => ?_, fun clear => runsOn _ _ ?_⟩
  · exact EndsApart.of_run (parts ▸ ends) fun c member => within c (all c member)
  · exact takeRun_before found fun empty => (clear empty).stops within

theorem readRun_before {p : Char → Bool} (within : ∀ c, p c = true → isAttributeChar c = true)
    (text : List Char) : ReadsBefore after text (readRun p text) (readRun p (text ++ after)) :=
  run_before within (fun _ _ => readRun_eq_ok.mp) fun _ _ => readRun_eq_ok.mpr

theorem readWord_before {α : Type} (meaning : String → Option α)
    (unknown : String → List Char → Fault) (text : List Char) :
    ReadsBefore after text (readWord meaning unknown text)
      (readWord meaning unknown (text ++ after)) := by
  refine (readRun_before (fun _ => isAttributeChar_of_isAlpha) text).bind fun word rest _ => ?_
  dsimp only
  cases meaning (String.ofList word) with
  | some meant => exact .ok _ _
  | none => exact .error _ _

theorem head?_append {mark : Char} (goes : ¬ (Text.isBlank mark = true ∨ mark = ')' ∨ mark = ']'))
    {text : List Char} (absent : text.head? ≠ some mark) (clear : text = [] → EndsToken after) :
    (text ++ after).head? ≠ some mark := by
  cases text with
  | nil => exact fun first => goes (clear rfl mark first)
  | cons c rest => exact absent

end

section

variable (after : List Char)

theorem takeDigits_before (text : List Char) :
    ReadsBefore after text (reading (takeDigits text)) (reading (takeDigits (text ++ after))) := by
  refine run_before (fun _ => isAttributeChar_of_isDigit) (fun run rest read => ?_)
    fun run rest found => by rw [reading_takeDigits_eq, found]
  rw [reading_takeDigits_eq] at read
  cases found : (takeRun Char.isDigit text).map Taken.pair with
  | none =>
    rw [found] at read
    cases read
  | some taken =>
    rw [found] at read
    cases read
    rfl

theorem takeFraction_before (text : List Char) :
    ReadsBefore after text (readingOption (takeFraction text))
      (readingOption (takeFraction (text ++ after))) := by
  by_cases point : text.head? = some '.'
  · obtain ⟨rest, rfl⟩ := List.head?_eq_some_iff.mp point
    rw [List.cons_append, readingOption_takeFraction_point, readingOption_takeFraction_point]
    refine ReadsBefore.behind ?_ (by decide)
    exact (takeDigits_before after rest).bind fun digits last _ => .ok _ _
  · rw [takeFraction_absent point]
    rintro _ _ ⟨⟩
    refine ⟨Nat.le_refl _, id, fun clear => ?_⟩
    rw [takeFraction_absent (head?_append (by decide) point clear)]
    rfl

theorem takeExponentDigits_before (negative : Bool) (text : List Char) :
    ReadsBefore after text (reading (takeExponentDigits negative text))
      (reading (takeExponentDigits negative (text ++ after))) := by
  rw [reading_takeExponentDigits_eq, reading_takeExponentDigits_eq]
  exact (takeDigits_before after text).bind fun digits last _ => .ok _ _

theorem takeSignedDigits_before (text : List Char) :
    ReadsBefore after text (takeSignedDigits text) (takeSignedDigits (text ++ after)) := by
  by_cases plus : text.head? = some '+'
  · obtain ⟨rest, rfl⟩ := List.head?_eq_some_iff.mp plus
    exact (takeExponentDigits_before after false rest).behind (by decide)
  · by_cases minus : text.head? = some '-'
    · obtain ⟨rest, rfl⟩ := List.head?_eq_some_iff.mp minus
      exact (takeExponentDigits_before after true rest).behind (by decide)
    · cases text with
      | nil => exact .error _ _
      | cons c rest =>
        rw [List.cons_append, takeSignedDigits_unsigned plus minus,
          @takeSignedDigits_unsigned (c :: (rest ++ after)) plus minus]
        exact takeExponentDigits_before after false (c :: rest)

theorem takeExponent_before (text : List Char) :
    ReadsBefore after text (readingOption (takeExponent text))
      (readingOption (takeExponent (text ++ after))) := by
  cases text with
  | nil =>
    rintro _ _ ⟨⟩
    refine ⟨Nat.le_refl _, id, fun clear => ?_⟩
    have stops : Stops (fun c => c == 'e' || c == 'E') after := (clear rfl).stops fun c mark => by
      rcases Bool.or_eq_true_iff.mp mark with small | capital
      · rw [beq_iff_eq.mp small]; decide
      · rw [beq_iff_eq.mp capital]; decide
    rw [List.nil_append, takeExponent_absent stops]
    rfl
  | cons mark rest =>
    rw [List.cons_append, readingOption_takeExponent_cons, readingOption_takeExponent_cons]
    split
    next marked =>
      refine ReadsBefore.behind ?_ (by rcases marked with rfl | rfl <;> decide)
      exact (takeSignedDigits_before after rest).bind fun exponent last _ => .ok _ _
    next => exact .ok _ _

theorem takeUnsigned_before (negative : Bool) (text : List Char) :
    ReadsBefore after text (reading (takeUnsigned negative text))
      (reading (takeUnsigned negative (text ++ after))) := by
  rw [reading_takeUnsigned, reading_takeUnsigned]
  refine (takeDigits_before after text).bind fun whole rest _ => ?_
  refine (takeFraction_before after rest).bind fun fraction rest _ => ?_
  exact (takeExponent_before after rest).bind fun exponent rest _ => .ok _ _

theorem takeNumeral_before (text : List Char) :
    ReadsBefore after text (reading (takeNumeral text))
      (reading (takeNumeral (text ++ after))) := by
  by_cases minus : text.head? = some '-'
  · obtain ⟨rest, rfl⟩ := List.head?_eq_some_iff.mp minus
    rw [List.cons_append, reading_takeNumeral_minus, reading_takeNumeral_minus]
    exact (takeUnsigned_before after true rest).behind (by decide)
  · cases text with
    | nil => exact .error _ _
    | cons c rest =>
      rw [List.cons_append, takeNumeral_positive minus,
        @takeNumeral_positive (c :: (rest ++ after)) minus]
      exact takeUnsigned_before after false (c :: rest)

end

namespace Filter

variable (after : List Char)

theorem takeAttribute_before (text : List Char) :
    ReadsBefore after text (reading (takeAttribute text))
      (reading (takeAttribute (text ++ after))) := by
  intro path last read
  rw [reading_takeAttribute] at read ⊢
  cases found : (takeRun isAttributeChar text).map Taken.pair with
  | none =>
    rw [found] at read
    cases read
  | some run =>
    obtain ⟨token, rest⟩ := run
    rw [found] at read
    obtain ⟨names, split, read⟩ := bind_eq_ok.mp read
    have again := (splitNames_eq_ok (rest ++ after) _ _).mpr ((splitNames_eq_ok rest _ _).mp split)
    cases read
    obtain ⟨length, ends, before⟩ :=
      readRun_before (fun _ same => same) text token last (readRun_eq_ok.mpr found)
    refine ⟨length, ends, fun clear => ?_⟩
    rw [readRun_eq_ok.mp (before clear)]
    simp only [again]
    rfl

/-- A literal is closed by its quote, whatever follows. -/
theorem takeLiteral_quoted_before (text : List Char) :
    ReadsBefore after ('"' :: text) (reading (takeLiteral ('"' :: text)))
      (reading (takeLiteral ('"' :: text ++ after))) := by
  intro value rest read
  have length := Nat.le_of_lt (length_of_reading read)
  obtain ⟨body, chars, spells, ⟨_, refused⟩ | ⟨left, rfl, outcome⟩ | ⟨_, _, _, _, refused⟩⟩ :=
    takeLiteral_outcome text
  · cases read.symm.trans refused
  · cases read.symm.trans outcome
    have closed := takeLiteral_closed spells (rest ++ after)
    refine ⟨length, fun ends => @EndsApart.of_mark ('"' :: body) rest '"' ends (by decide), ?_⟩
    rw [List.cons_append, List.append_assoc, List.cons_append]
    exact fun _ => closed
  · cases read.symm.trans refused

theorem takeLiteral_before (text : List Char) :
    ReadsBefore after text (reading (takeLiteral text))
      (reading (takeLiteral (text ++ after))) := by
  cases text with
  | nil => exact .error _ _
  | cons c rest =>
    by_cases quote : c = '"'
    · subst quote
      exact takeLiteral_quoted_before after rest
    · rw [List.cons_append, takeLiteral_unquoted quote, takeLiteral_unquoted quote]
      split
      · rw [reading_takeNumber_eq, reading_takeNumber_eq]
        refine (takeNumeral_before after (c :: rest)).bind fun numeral last _ => ?_
        dsimp only
        split
        · exact .ok _ _
        · exact .error _ _
      · rw [reading_takeWordValue, reading_takeWordValue]
        exact readWord_before _ _ (c :: rest)

/-- Blanks end where the reader behind them starts, which needs something to start with. -/
theorem takeBlank_before {α : Type}
    {next step : List Char × List Char → Except Fault (α × List Char)} {text : List Char}
    (needs : ∀ blank value rest, next (blank, []) ≠ .ok (value, rest))
    (onward : ∀ blank rest,
      ReadsBefore after rest (next (blank, rest)) (step (blank, rest ++ after))) :
    ReadsBefore after text (reading (takeBlank text) >>= next)
      (reading (takeBlank (text ++ after)) >>= step) := by
  rw [reading_takeBlank, reading_takeBlank]
  intro value rest read
  obtain ⟨⟨blank, left⟩, found, read⟩ := bind_eq_ok.mp read
  have shorter := length_of_readRun found
  have nonempty : left ≠ [] := fun empty => needs blank value rest (empty ▸ read)
  obtain ⟨length, ends, further⟩ := onward blank left value rest read
  refine ⟨by omega, fun apart => ends ?_, fun clear => ?_⟩
  · obtain ⟨run, taken, same⟩ := Option.map_eq_some_iff.mp (readRun_eq_ok.mp found)
    cases same
    exact EndsApart.of_append ((takeRun_eq_some taken).1 ▸ apart) nonempty
  · rw [readRun_eq_ok.mpr
      (takeRun_before (readRun_eq_ok.mp found) fun empty => absurd empty nonempty)]
    exact further clear

theorem takeComparison_before (text : List Char) :
    ReadsBefore after text (reading (takeComparison text))
      (reading (takeComparison (text ++ after))) := by
  rw [reading_takeComparison, reading_takeComparison]
  refine (takeAttribute_before after text).bind fun path rest _ => ?_
  refine takeBlank_before after (fun _ _ _ => nofun) fun _ rest => ?_
  dsimp only
  rw [reading_takeOperator, reading_takeOperator]
  refine (readWord_before _ _ rest).bind fun op rest _ => ?_
  dsimp only
  split
  · exact .ok _ _
  · refine takeBlank_before after (fun _ _ _ => nofun) fun _ rest => ?_
    exact (takeLiteral_before after rest).bind fun value rest _ => .ok _ _

section

variable {after}

theorem skipBlank_append {text : List Char}
    (stops : Text.skipBlank text = [] → Stops Text.isBlank after) :
    Text.skipBlank (text ++ after) = Text.skipBlank text ++ after := (dropWhile_append stops).2

theorem startsBlank_append {text : List Char} (nonempty : text ≠ []) :
    startsBlank (text ++ after) = startsBlank text := by
  cases text with
  | nil => exact absurd rfl nonempty
  | cons c rest => rfl

theorem startsParenthesis_append {text : List Char} (nonempty : text ≠ []) :
    startsParenthesis (text ++ after) = startsParenthesis text := by
  by_cases opened : text.head? = some '('
  · obtain ⟨rest, rfl⟩ := List.head?_eq_some_iff.mp opened
    rfl
  · have unopened : (text ++ after).head? ≠ some '(' := by
      rwa [List.head?_append_of_ne_nil _ nonempty]
    rw [startsParenthesis_of_unopened opened, startsParenthesis_of_unopened unopened]

theorem takeNot?_append {text : List Char} (left : text.dropWhile Char.isAlpha ≠ []) :
    (takeNot? (text ++ after)).map Taken.pair =
      ((takeNot? text).map Taken.pair).map (Prod.map id (· ++ after)) := by
  rw [pair_takeNot?, pair_takeNot?, takeRun_append_map fun empty => absurd empty left]
  cases found : (takeRun Char.isAlpha text).map Taken.pair with
  | none => rfl
  | some run =>
    have nonempty : run.2 ≠ [] := dropWhile_of_takeRun found ▸ left
    simp only [Option.map_some, Option.filter_some, Prod.map, id,
      startsParenthesis_append nonempty, startsBlank_append nonempty]
    split <;> rfl

theorem takeLogical?_append {text : List Char} (left : text.dropWhile Char.isAlpha ≠ []) :
    (takeLogical? (text ++ after)).map Taken.pair =
      ((takeLogical? text).map Taken.pair).map (Prod.map id (· ++ after)) := by
  rw [pair_takeLogical?, pair_takeLogical?, takeRun_append_map fun empty => absurd empty left]
  cases (takeRun Char.isAlpha text).map Taken.pair with
  | none => rfl
  | some found =>
    simp only [Option.map_some, Option.bind_some, Prod.map, id, Option.map_map]
    rfl

theorem skipBlank_skipBlank_append (text after : List Char) :
    Text.skipBlank (Text.skipBlank text ++ after) = Text.skipBlank (text ++ after) := by
  have blanks : ∀ c ∈ text.takeWhile Text.isBlank, Text.isBlank c = true :=
    fun c member => List.mem_takeWhile_imp member
  have parts : text = text.takeWhile Text.isBlank ++ Text.skipBlank text :=
    List.takeWhile_append_dropWhile.symm
  conv => rhs; rw [parts, List.append_assoc]
  exact (List.dropWhile_append_of_pos blanks).symm

/-- No operand follows where a filter ends. -/
theorem takeMore_ends {text : List Char} (ends : EndsFilter (Text.skipBlank text)) :
    passing (takeMore text) = .ok ([], Text.skipBlank text) := by
  have none : takeRun Char.isAlpha (Text.skipBlank text) = none := by
    have stopped : ([] ++ Text.skipBlank text).takeWhile Char.isAlpha = [] :=
      takeWhile_append_of_stops (by simp) (ends.stops (by decide) (by decide))
    exact dif_pos stopped
  rw [passing_takeMore, takeLogical?, none]
  rfl

theorem dropWhile_of_takeComparison {text rest : List Char} {filter : Filter}
    (read : reading (takeComparison text) = .ok (filter, rest)) :
    text.dropWhile Char.isAlpha ≠ [] := by
  rw [reading_takeComparison] at read
  obtain ⟨⟨path, left⟩, pathRead, read⟩ := bind_eq_ok.mp read
  obtain ⟨⟨blank, others⟩, blankRead, _⟩ := bind_eq_ok.mp read
  obtain ⟨parts, _, _⟩ := takeAttribute_sound pathRead
  rw [reading_takeBlank, readRun_eq_ok] at blankRead
  obtain ⟨run, found, _⟩ := Option.map_eq_some_iff.mp blankRead
  obtain ⟨leftParts, nonempty, blanks, _⟩ := takeRun_eq_some found
  obtain ⟨c, more, same⟩ := List.exists_cons_of_ne_nil nonempty
  have among : c ∈ text := by
    rw [parts, show left = _ from leftParts, same]
    simp
  intro letters
  have letter := List.dropWhile_eq_nil_iff.mp letters c among
  exact absurd (blanks c (by simp [same])) (by simp [isBlank_of_isAlpha letter])

end

/-- What the three readers of filters give for texts up to a length they give with `after` behind
them, where it goes on with no token of an operand and ends an expression. -/
structure ReadsBeforeUpTo (after : List Char) (length : Nat) : Prop where
  operand : ∀ {text filter rest}, text.length ≤ length →
    reading (takeOperand text) = .ok (filter, rest) →
    (rest = [] → EndsApart text ∨ EndsToken after) →
      reading (takeOperand (text ++ after)) = .ok (filter, rest ++ after)
  expression : ∀ {text filter rest}, text.length ≤ length →
    reading (takeExpression text) = .ok (filter, rest) →
    EndsFilter (Text.skipBlank (rest ++ after)) →
      reading (takeExpression (text ++ after)) = .ok (filter, Text.skipBlank (rest ++ after))
  more : ∀ {text others rest}, text.length ≤ length →
    passing (takeMore text) = .ok (others, rest) → EndsFilter (Text.skipBlank (rest ++ after)) →
      passing (takeMore (text ++ after)) = .ok (others, Text.skipBlank (rest ++ after))

section

variable {after} {length : Nat} (shorter : ∀ less < length, ReadsBeforeUpTo after less)

/-- Where operands follow up to an end, the last one is ended by it. -/
theorem endsToken_of_takeMore {left rest : List Char} {others : List (LogicalOp × Filter)}
    (read : passing (takeMore left) = .ok (others, rest))
    (ends : EndsFilter (Text.skipBlank (rest ++ after))) (empty : left = []) : EndsToken after := by
  subst empty
  cases read.symm.trans (takeMore_ends .nil)
  change EndsFilter (Text.skipBlank after) at ends
  intro c first
  by_cases blank : Text.isBlank c = true
  · exact .inl blank
  · have stops : Stops Text.isBlank after := by
      intro other head
      cases first.symm.trans head
      exact Bool.eq_false_iff.mpr blank
    rw [skipBlank_of_stops stops] at ends
    exact .inr (ends c first)

/-- A parenthesised operand is closed, whatever follows. -/
theorem takeOperand_opened_before {text inside : List Char}
    (opened : Text.skipBlank text = '(' :: inside)
    (expression : ∀ {filter rest}, reading (takeExpression inside) = .ok (filter, rest) →
      EndsFilter (Text.skipBlank (rest ++ after)) → reading (takeExpression (inside ++ after)) =
        .ok (filter, Text.skipBlank (rest ++ after)))
    {filter : Filter} {rest : List Char} (read : reading (takeOperand text) = .ok (filter, rest)) :
    reading (takeOperand (text ++ after)) = .ok (filter, rest ++ after) := by
  have unblank : Text.skipBlank (text ++ after) = '(' :: (inside ++ after) := by
    rw [skipBlank_append (fun empty => by simp [empty] at opened), opened]
    rfl
  rw [reading_takeOperand_opened opened] at read
  obtain ⟨⟨inner, left⟩, innerRead, read⟩ := bind_eq_ok.mp read
  dsimp only at read
  split at read
  next last closed =>
    cases read
    have ended : Text.skipBlank (left ++ after) = ')' :: (rest ++ after) := by
      rw [skipBlank_append fun empty => by simp [empty] at closed, closed]
      rfl
    rw [reading_takeOperand_opened unblank, expression innerRead (by rw [ended]; simp), ended]
    rfl
  next => cases read

include shorter

theorem takeOperand_before {text rest : List Char} {filter : Filter}
    (bounded : text.length ≤ length) (read : reading (takeOperand text) = .ok (filter, rest))
    (clear : rest = [] → EndsApart text ∨ EndsToken after) :
    reading (takeOperand (text ++ after)) = .ok (filter, rest ++ after) := by
  have unblank := length_skipBlank_le text
  by_cases opened : (Text.skipBlank text).head? = some '('
  · obtain ⟨inside, opened⟩ := List.head?_eq_some_iff.mp opened
    rw [opened, List.length_cons] at unblank
    exact takeOperand_opened_before opened
      ((shorter inside.length (by omega)).expression (Nat.le_refl _)) read
  · have start := startsParenthesis_of_unopened opened
    rw [reading_takeOperand start] at read
    have nonempty : Text.skipBlank text ≠ [] := by
      intro empty
      rw [empty] at read
      cases read
    have blanks : Text.skipBlank (text ++ after) = Text.skipBlank text ++ after :=
      skipBlank_append fun empty => absurd empty nonempty
    have parts : text = text.takeWhile Text.isBlank ++ Text.skipBlank text :=
      List.takeWhile_append_dropWhile.symm
    have apart (ends : EndsApart text) : EndsApart (Text.skipBlank text) :=
      EndsApart.of_append (parts ▸ ends) nonempty
    rw [reading_takeOperand (by rw [blanks, startsParenthesis_append nonempty, start]), blanks]
    cases keyword : (takeNot? (Text.skipBlank text)).map Taken.pair with
    | none =>
      rw [keyword] at read
      rw [takeNot?_append (dropWhile_of_takeComparison read), keyword]
      obtain ⟨_, ends, before⟩ := takeComparison_before after _ filter rest read
      refine before fun empty => (clear empty).resolve_left fun ended => ?_
      exact EndsApart.not_nil (empty ▸ ends (apart ended))
    | some found =>
      obtain ⟨less, left, some⟩ := rest_of_takeNot? keyword
      rw [keyword] at read
      obtain ⟨⟨inner, last⟩, innerRead, same⟩ := bind_eq_ok.mp read
      cases same
      have apartAgain (ends : EndsApart text) : EndsApart found.2 := by
        have word : Text.skipBlank text =
            (Text.skipBlank text).takeWhile Char.isAlpha ++ found.2 := by
          rw [← left, List.takeWhile_append_dropWhile]
        exact EndsApart.of_append (word ▸ apart ends) some
      have before := (shorter found.2.length (by omega)).operand (Nat.le_refl _) innerRead
        fun empty => (clear empty).imp_left apartAgain
      rw [takeNot?_append (left ▸ some), keyword]
      dsimp only [Option.map_some, Prod.map, id]
      rw [before]
      rfl

theorem takeMore_before {text rest : List Char} {others : List (LogicalOp × Filter)}
    (bounded : text.length ≤ length) (read : passing (takeMore text) = .ok (others, rest))
    (ends : EndsFilter (Text.skipBlank (rest ++ after))) :
    passing (takeMore (text ++ after)) = .ok (others, Text.skipBlank (rest ++ after)) := by
  have unblank := length_skipBlank_le text
  rw [passing_takeMore] at read
  cases keyword : (takeLogical? (Text.skipBlank text)).map Taken.pair with
  | none =>
    rw [keyword] at read
    cases read
    rw [skipBlank_skipBlank_append] at ends ⊢
    exact takeMore_ends ends
  | some found =>
    obtain ⟨op, next⟩ := found
    obtain ⟨less, left⟩ := rest_of_takeLogical? keyword
    rw [keyword] at read
    dsimp only at read
    split at read
    next follows =>
      have nonempty := ne_nil_of_follows follows
      obtain ⟨⟨operand, last⟩, operandRead, read⟩ := bind_eq_ok.mp read
      obtain ⟨⟨more, others⟩, moreRead, same⟩ := bind_eq_ok.mp read
      cases same
      have lastLess := length_of_reading operandRead
      have operandBefore := (shorter next.length (by omega)).operand (Nat.le_refl _) operandRead
        fun empty => .inr (endsToken_of_takeMore moreRead ends empty)
      have moreBefore := (shorter last.length (by omega)).more (Nat.le_refl _) moreRead ends
      have blanks : Text.skipBlank (text ++ after) = Text.skipBlank text ++ after :=
        skipBlank_append fun empty => absurd (by simpa [empty] using left.symm) nonempty
      rw [passing_takeMore, blanks, takeLogical?_append (left ▸ nonempty), keyword]
      dsimp only [Option.map_some, Prod.map, id]
      rw [startsParenthesis_append nonempty, startsBlank_append nonempty, if_pos follows,
        operandBefore]
      dsimp only [bind, Except.bind]
      rw [moreBefore]
    next => cases read

end

theorem readsBeforeUpTo (after : List Char) (length : Nat) : ReadsBeforeUpTo after length := by
  induction length using Nat.strong_induction_on with
  | _ length shorter =>
  refine ⟨takeOperand_before shorter, fun {text filter rest} bounded read ends => ?_,
    takeMore_before shorter⟩
  rw [reading_takeExpression] at read ⊢
  obtain ⟨⟨first, left⟩, firstRead, read⟩ := bind_eq_ok.mp read
  obtain ⟨⟨more, last⟩, moreRead, same⟩ := bind_eq_ok.mp read
  cases same
  have less := length_of_reading firstRead
  rw [takeOperand_before shorter bounded firstRead fun empty =>
    .inr (endsToken_of_takeMore moreRead ends empty)]
  dsimp only [bind, Except.bind]
  rw [(shorter left.length (by omega)).more (Nat.le_refl _) moreRead ends]

/-- An operand is read before anything that does not go on with it. -/
theorem reading_takeOperand_append {text rest : List Char} {filter : Filter}
    (read : reading (takeOperand text) = .ok (filter, rest))
    (clear : rest = [] → EndsApart text ∨ EndsToken after) :
    reading (takeOperand (text ++ after)) = .ok (filter, rest ++ after) :=
  (readsBeforeUpTo after text.length).operand (Nat.le_refl _) read clear

/-- An expression is read before what ends it, with the blanks between. -/
theorem reading_takeExpression_append {text rest : List Char} {filter : Filter}
    (read : reading (takeExpression text) = .ok (filter, rest))
    (ends : EndsFilter (Text.skipBlank (rest ++ after))) :
    reading (takeExpression (text ++ after)) = .ok (filter, Text.skipBlank (rest ++ after)) :=
  (readsBeforeUpTo after text.length).expression (Nat.le_refl _) read ends

end Filter
end Scim
