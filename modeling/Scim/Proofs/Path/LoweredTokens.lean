import Scim.Proofs.Path.Grammar
import Scim.Proofs.Path.Lowering
import Scim.Proofs.Text.Outside

/-! The words, attributes and values of a filter, read from a text with the letters outside string
literals lowered: they are read as before, attributes with their names lowered, or refused as
before. -/
namespace Scim

/-- A class of all letters or of none does not tell them by case. -/
theorem class_toLower {p : Char → Bool} {holds : Bool} (letters : ∀ c, c.isAlpha = true → p c = holds)
    (c : Char) : p c.toLower = p c := by
  rcases toLower_cases c with same | ⟨letter, lowered⟩
  · rw [same]
  · rw [letters c letter, letters _ lowered]

theorem isBlank_toLower (c : Char) : Text.isBlank c.toLower = Text.isBlank c :=
  class_toLower (fun _ => isBlank_of_isAlpha) c

theorem isDigit_of_isAlpha {c : Char} (letter : c.isAlpha = true) : c.isDigit = false := by
  by_contra digit
  simp only [isAlpha_eq, isUpper_eq, isLower_eq, Char.isDigit, Bool.or_eq_true,
    Bool.not_eq_false, decide_eq_true_eq, ge_iff_le, Bool.and_eq_true] at letter digit
  rcases letter with upper | lower
  · exact absurd (UInt32.le_trans upper.1 digit.2) (by decide)
  · exact absurd (UInt32.le_trans lower.1 digit.2) (by decide)

theorem isDigit_toLower (c : Char) : c.toLower.isDigit = c.isDigit :=
  class_toLower (fun _ => isDigit_of_isAlpha) c

theorem toLower_of_isDigit {c : Char} (digit : c.isDigit = true) : c.toLower = c := by
  rcases toLower_cases c with same | ⟨letter, _⟩
  · exact same
  · rw [isDigit_of_isAlpha letter] at digit
    cases digit

theorem lowered_word (word : List Char) :
    Caseless (String.ofList (word.map Char.toLower)) (String.ofList word) := by
  rw [← lowered_ofList]
  exact lowered_caseless _

theorem CompareOp.ofWord?_lowered (word : List Char) :
    ofWord? (String.ofList (word.map Char.toLower)) = ofWord? (String.ofList word) := by
  simp only [ofWord?, (lowered_word word).congr_right]

theorem LogicalOp.ofWord?_lowered (word : List Char) :
    ofWord? (String.ofList (word.map Char.toLower)) = ofWord? (String.ofList word) := by
  simp only [ofWord?, (lowered_word word).congr_right]

theorem lowerOutside_mark (mark : Char) (noLetter : mark.isAlpha = false) (noQuote : mark ≠ '"')
    (text : List Char) :
    (∃ rest, text = mark :: rest ∧ lowerOutside text = mark :: lowerOutside rest) ∨
      text.head? ≠ some mark ∧ (lowerOutside text).head? ≠ some mark := by
  have unchanged : mark.toLower = mark := (toLower_eq_iff noLetter).mpr rfl
  by_cases marked : text.head? = some mark
  · obtain ⟨rest, rfl⟩ := List.head?_eq_some_iff.mp marked
    exact .inl ⟨rest, rfl, by rw [lowerOutside_cons noQuote, unchanged]⟩
  · refine .inr ⟨marked, fun lowered => ?_⟩
    rw [head?_lowerOutside] at lowered
    obtain ⟨c, first, same⟩ := Option.map_eq_some_iff.mp lowered
    rw [toLower_eq_iff noLetter] at same
    exact marked (same ▸ first)

theorem readRun_lowers {p : Char → Bool} (caseless : ∀ c, p c.toLower = p c)
    (noQuote : p '"' = false) (text : List Char) :
    ReadsLowered (List.map Char.toLower) lowerOutside (readRun p text)
      (readRun p (lowerOutside text)) := by
  rw [readRun, readRun, takeRun_lowerOutside caseless noQuote]
  cases (takeRun p text).map Taken.pair with
  | none => exact .error ..
  | some run => exact .ok run

/-- Words that mean the same in every case are read in every case. -/
theorem readWord_lowers {α : Type} {meaning : String → Option α}
    (caseless : ∀ word : List Char,
      meaning (String.ofList (word.map Char.toLower)) = meaning (String.ofList word))
    (unknown : String → List Char → Fault) (text : List Char) :
    ReadsLowered id lowerOutside (readWord meaning unknown text)
      (readWord meaning unknown (lowerOutside text)) := by
  refine (readRun_lowers isAlpha_toLower (by decide) text).bind fun (word, rest) _ => ?_
  dsimp only [Prod.map]
  rw [caseless]
  cases meaning (String.ofList word) with
  | none => exact .error ..
  | some meant => exact .same ..

namespace Filter

theorem skipBlank_lowerOutside (text : List Char) :
    Text.skipBlank (lowerOutside text) = lowerOutside (Text.skipBlank text) :=
  dropWhile_lowerOutside isBlank_toLower (by decide) text

theorem startsBlank_lowerOutside (text : List Char) :
    startsBlank (lowerOutside text) = startsBlank text := by
  have head := head?_lowerOutside text
  have starts (text : List Char) : startsBlank text = text.head?.any Text.isBlank := by
    cases text <;> rfl
  rw [starts, starts, head]
  cases text.head? with
  | none => rfl
  | some c => exact isBlank_toLower c

theorem startsParenthesis_lowerOutside (text : List Char) :
    startsParenthesis (lowerOutside text) = startsParenthesis text := by
  rcases lowerOutside_mark '(' (by decide) (by decide) text with
    ⟨rest, rfl, lowered⟩ | ⟨unopened, loweredUnopened⟩
  · rw [lowered]
    rfl
  · rw [startsParenthesis_of_unopened unopened, startsParenthesis_of_unopened loweredUnopened]

theorem splitUrn_toLower (token : List Char) :
    splitUrn (token.map Char.toLower) =
      ((splitUrn token).1.map (List.map Char.toLower), (splitUrn token).2.map Char.toLower) := by
  rcases splitUrn_cases token with whole | ⟨urn, dotted, cut, parts, starts, noColon⟩
  · rw [splitUrn_lowered (map_toLower_again token) whole, whole]
    rfl
  · have loweredParts : token.map Char.toLower =
        urn.map Char.toLower ++ ':' :: dotted.map Char.toLower := by
      rw [parts, List.map_append, List.map_cons]
      rfl
    have loweredColon : ':' ∉ dotted.map Char.toLower := by
      intro member
      obtain ⟨c, among, same⟩ := List.mem_map.mp member
      rw [toLower_eq_iff (by decide)] at same
      exact noColon (same ▸ among)
    rw [cut, loweredParts, splitUrn_qualified (starts.of_lowered (map_toLower_again urn)) loweredColon]
    rfl

theorem splitNames_lowers (after further dotted : List Char) :
    LowersTo (List.map Scim.lowered) (splitNames after dotted)
      (splitNames further (dotted.map Char.toLower)) := by
  have mark (c : Char) : (c.toLower == '.') = (c == '.') := by
    rw [Bool.eq_iff_iff, beq_iff_eq, beq_iff_eq, toLower_eq_iff (by decide)]
  have clear {name : List Char} (noPoint : ∀ c ∈ name, (c == '.') = false) :
      ∀ c ∈ name.map Char.toLower, (c == '.') = false := by
    intro c member
    obtain ⟨original, among, rfl⟩ := List.mem_map.mp member
    rw [mark, noPoint original among]
  have empty (after rest : List Char) (first : rest.takeWhile (· != '.') = []) :
      splitNames after rest = .error ⟨.emptySegment, rest ++ after⟩ := by
    rw [splitNames]
    simp [first]
  induction h : dotted.length using Nat.strong_induction_on generalizing dotted with
  | _ length ih =>
  subst h
  rcases parts_at_point dotted with noPoint | ⟨name, more, rfl, noPoint⟩
  · by_cases none : dotted = []
    · subst none
      rw [List.map_nil, empty _ _ rfl, empty _ _ rfl]
      exact .error ..
    · rw [splitNames_last after none noPoint,
        splitNames_last further (by simpa using none) (clear noPoint), ← lowered_ofList]
      exact .ok _
  · have parts : (name ++ '.' :: more).map Char.toLower =
        name.map Char.toLower ++ '.' :: more.map Char.toLower := by
      rw [List.map_append, List.map_cons]
      rfl
    rw [parts]
    by_cases none : name = []
    · subst none
      rw [List.map_nil, empty _ _ rfl, empty _ _ rfl]
      exact .error ..
    · rw [splitNames_cons after none noPoint,
        splitNames_cons further (by simpa using none) (clear noPoint), ← lowered_ofList]
      exact (ih more.length (by simp; omega) more rfl).bind fun names _ => .ok _

theorem takeAttribute_lowers (text : List Char) :
    ReadsLowered Path.lowered lowerOutside (reading (takeAttribute text))
      (reading (takeAttribute (lowerOutside text))) := by
  rw [reading_takeAttribute, reading_takeAttribute,
    takeRun_lowerOutside isAttributeChar_toLower (by decide)]
  cases (takeRun isAttributeChar text).map Taken.pair with
  | none => exact .error ..
  | some found =>
    obtain ⟨token, rest⟩ := found
    dsimp only [Option.map_some, Prod.map]
    rw [splitUrn_toLower]
    refine (splitNames_lowers rest (lowerOutside rest) (splitUrn token).2).bind fun names _ => ?_
    have path : Path.lowered
        ⟨(splitUrn token).1.map String.ofList, names.map fun name => ⟨name, none⟩⟩ =
          ⟨((splitUrn token).1.map (List.map Char.toLower)).map String.ofList,
            (names.map Scim.lowered).map fun name => ⟨name, none⟩⟩ := by
      rw [Path.lowered_eq, Option.map_map, Option.map_map, List.map_map, List.map_map]
      congr 2
      exact funext lowered_ofList
    dsimp only
    rw [← path]
    exact .pair ..

theorem takeBlank_lowers (text : List Char) :
    ReadsLowered (List.map Char.toLower) lowerOutside (reading (takeBlank text))
      (reading (takeBlank (lowerOutside text))) := by
  rw [reading_takeBlank, reading_takeBlank]
  exact readRun_lowers isBlank_toLower (by decide) text

theorem takeOperator_lowers (text : List Char) :
    ReadsLowered id lowerOutside (reading (takeOperator text))
      (reading (takeOperator (lowerOutside text))) := by
  rw [reading_takeOperator, reading_takeOperator]
  exact readWord_lowers CompareOp.ofWord?_lowered _ text

theorem wordValue?_lowered (word : List Char) :
    wordValue? (String.ofList (word.map Char.toLower)) = wordValue? (String.ofList word) := by
  have same (keyword : String) : Caseless (String.ofList (word.map Char.toLower)) keyword ↔
      Caseless (String.ofList word) keyword :=
    ⟨(lowered_word word).symm.trans, (lowered_word word).trans⟩
  simp only [wordValue?, same]

theorem takeWordValue_lowers (text : List Char) :
    ReadsLowered id lowerOutside (reading (takeWordValue text))
      (reading (takeWordValue (lowerOutside text))) := by
  rw [reading_takeWordValue, reading_takeWordValue]
  exact readWord_lowers wordValue?_lowered _ text

end Filter

theorem takeDigits_lowers (text : List Char) :
    ReadsLowered id lowerOutside (reading (takeDigits text))
      (reading (takeDigits (lowerOutside text))) := by
  rw [reading_takeDigits_eq, reading_takeDigits_eq, takeRun_lowerOutside isDigit_toLower (by decide)]
  cases found : takeRun Char.isDigit text with
  | none => exact .error ..
  | some digits =>
    obtain ⟨_, _, all, _⟩ := takeRun_eq_some found
    have kept : digits.value.map Char.toLower = digits.value := by
      rw [List.map_congr_left fun c member => toLower_of_isDigit (all c member), List.map_id']
    dsimp only [Option.map_some, Taken.pair, Prod.map]
    rw [kept]
    exact .same ..

theorem takeFraction_lowers (text : List Char) :
    ReadsLowered id lowerOutside (readingOption (takeFraction text))
      (readingOption (takeFraction (lowerOutside text))) := by
  rcases lowerOutside_mark '.' (by decide) (by decide) text with
    ⟨rest, rfl, lowered⟩ | ⟨absent, loweredAbsent⟩
  · rw [lowered, readingOption_takeFraction_point, readingOption_takeFraction_point]
    exact (takeDigits_lowers rest).bind fun (digits, last) _ => .same ..
  · rw [takeFraction_absent absent, takeFraction_absent loweredAbsent]
    exact .same ..

theorem takeExponentDigits_lowers (negative : Bool) (text : List Char) :
    ReadsLowered id lowerOutside (reading (takeExponentDigits negative text))
      (reading (takeExponentDigits negative (lowerOutside text))) := by
  rw [reading_takeExponentDigits_eq, reading_takeExponentDigits_eq]
  exact (takeDigits_lowers text).bind fun (digits, last) _ => .same ..

theorem takeSignedDigits_lowers (text : List Char) :
    ReadsLowered id lowerOutside (takeSignedDigits text) (takeSignedDigits (lowerOutside text)) := by
  rcases lowerOutside_mark '+' (by decide) (by decide) text with
    ⟨rest, rfl, lowered⟩ | ⟨unsigned, loweredUnsigned⟩
  · rw [lowered]
    exact takeExponentDigits_lowers false rest
  · rcases lowerOutside_mark '-' (by decide) (by decide) text with
      ⟨rest, rfl, lowered⟩ | ⟨positive, loweredPositive⟩
    · rw [lowered]
      exact takeExponentDigits_lowers true rest
    · rw [takeSignedDigits_unsigned unsigned positive,
        takeSignedDigits_unsigned loweredUnsigned loweredPositive]
      exact takeExponentDigits_lowers false text

theorem exponentMark_toLower (c : Char) :
    c.toLower = 'e' ∨ c.toLower = 'E' ↔ c = 'e' ∨ c = 'E' := by
  induction c using toLower_induct with
  | capital code low high => interval_cases code <;> decide
  | kept c same => rw [same]

theorem takeExponent_lowers (text : List Char) :
    ReadsLowered id lowerOutside (readingOption (takeExponent text))
      (readingOption (takeExponent (lowerOutside text))) := by
  cases text with
  | nil =>
    rw [lowerOutside_nil]
    exact .same ..
  | cons mark rest =>
    by_cases quote : mark = '"'
    · subst quote
      rw [lowerOutside_quote, readingOption_takeExponent_cons, readingOption_takeExponent_cons,
        if_neg (by decide), if_neg (by decide), ← lowerOutside_quote]
      exact .same ..
    · rw [lowerOutside_cons quote, readingOption_takeExponent_cons, readingOption_takeExponent_cons]
      simp only [exponentMark_toLower]
      split
      · exact (takeSignedDigits_lowers rest).bind fun (exponent, last) _ => .same ..
      · rw [← lowerOutside_cons quote]
        exact .same ..

theorem takeNumeral_lowers (text : List Char) :
    ReadsLowered id lowerOutside (reading (takeNumeral text))
      (reading (takeNumeral (lowerOutside text))) := by
  have unsigned (negative : Bool) (text : List Char) :
      ReadsLowered id lowerOutside (reading (takeUnsigned negative text))
        (reading (takeUnsigned negative (lowerOutside text))) := by
    rw [reading_takeUnsigned, reading_takeUnsigned]
    refine (takeDigits_lowers text).bind fun (whole, rest) _ => ?_
    refine (takeFraction_lowers rest).bind fun (fraction, rest) _ => ?_
    refine (takeExponent_lowers rest).bind fun (exponent, rest) _ => ?_
    exact .same ..
  rcases lowerOutside_mark '-' (by decide) (by decide) text with
    ⟨rest, rfl, lowered⟩ | ⟨positive, loweredPositive⟩
  · rw [lowered, reading_takeNumeral_minus, reading_takeNumeral_minus]
    exact unsigned true rest
  · rw [takeNumeral_positive positive, takeNumeral_positive loweredPositive]
    exact unsigned false text

namespace Filter

theorem takeNumber_lowers (text : List Char) :
    ReadsLowered id lowerOutside (reading (takeNumber text))
      (reading (takeNumber (lowerOutside text))) := by
  rw [reading_takeNumber_eq, reading_takeNumber_eq]
  refine (takeNumeral_lowers text).bind fun (numeral, rest) _ => ?_
  dsimp only [Prod.map, id]
  cases numeral.toNumber? integers Numeral.nearest? with
  | none => exact .error ..
  | some value => exact .same ..

theorem takeLiteral_lowers (text : List Char) :
    ReadsLowered id lowerOutside (reading (takeLiteral text))
      (reading (takeLiteral (lowerOutside text))) := by
  cases text with
  | nil =>
    rw [lowerOutside_nil]
    exact .error ..
  | cons c rest =>
    by_cases quote : c = '"'
    · subst quote
      rw [lowerOutside_quote, reading_takeLiteral_quote, reading_takeLiteral_quote]
      exact (Text.takeStringBody_lowers _ _ rest).bind fun (string, last) _ => .same ..
    · have number := takeNumber_lowers (c :: rest)
      have word := takeWordValue_lowers (c :: rest)
      rw [lowerOutside_cons quote] at number word ⊢
      rw [takeLiteral_unquoted quote, takeLiteral_unquoted (mt (toLower_eq_iff (by decide)).mp quote)]
      simp only [toLower_eq_iff (show '-'.isAlpha = false by decide), isDigit_toLower]
      split
      · exact number
      · exact word

end Filter
end Scim
