import Scim.Proofs.Number.Layout
import Scim.Proofs.Text.Literals

/-! The values of comparisons. Printed ones are read back, numbers as the numeral says: a whole
number past 64 bits becomes a double. -/
namespace Scim

def EndsOperand (after : List Char) : Prop := ∀ c ∈ after.head?, c = ' ' ∨ c = ')' ∨ c = ']'

namespace EndsOperand

variable {after : List Char}

theorem stops (ends : EndsOperand after) {p : Char → Bool} (blank : p ' ' = false)
    (parenthesis : p ')' = false) (bracket : p ']' = false) : Stops p after := by
  intro c first
  rcases ends c first with rfl | rfl | rfl
  · exact blank
  · exact parenthesis
  · exact bracket

theorem noAlpha (ends : EndsOperand after) : Stops Char.isAlpha after :=
  ends.stops (by decide) (by decide) (by decide)

theorem numeral (ends : EndsOperand after) : EndsNumeral after :=
  ends.stops (by decide) (by decide) (by decide)

@[simp] theorem nil : EndsOperand [] := by simp [EndsOperand]

@[simp] theorem blank (rest : List Char) : EndsOperand (' ' :: rest) := by simp [EndsOperand]

@[simp] theorem parenthesis (rest : List Char) : EndsOperand (')' :: rest) := by
  simp [EndsOperand]

@[simp] theorem bracket (rest : List Char) : EndsOperand (']' :: rest) := by simp [EndsOperand]

end EndsOperand

namespace Number

def numeral : Number → Numeral
  | .int value => ⟨decide (value < 0), Nat.toDigits 10 value.natAbs, none, none⟩
  | .double value =>
    layout.numeral value.negative (if value.magnitude = 0 then ⟨0, 0⟩ else value.shortest)

theorem numeral_chars (number : Number) : number.numeral.chars = number.chars := by
  cases number with
  | int value => simp [numeral, Numeral.chars, chars]
  | double value => exact layout.numeral_chars _ _

theorem numeral_wellFormed (number : Number) : number.numeral.WellFormed := by
  cases number with
  | int value => exact ⟨isDigits_toDigits _, by simp [numeral]⟩
  | double value => exact layout.numeral_wellFormed _ _

/-- The number that a filter makes of the printed one; `none` where it would be infinite. -/
def reread? (number : Number) : Option Number :=
  number.numeral.toNumber? Filter.integers Numeral.nearest?

def Within (range : IntegerRange) : Number → Prop
  | .int value => range.least ≤ value ∧ value ≤ range.greatest
  | .double _ => True

theorem nearest?_numeral_double (x : Double) : (Number.double x).numeral.nearest? = some x := by
  rw [numeral, DecimalLayout.nearest?_numeral]
  split
  next none =>
    rw [Double.ofDecimal?, if_pos (.inl rfl), ← Double.eq_zero_of_magnitude none]
  next nonzero => exact Double.reads_shortest nonzero

theorem wholeValue_numeral_int (value : Int) : (Number.int value).numeral.wholeValue = value := by
  simp only [numeral, Numeral.wholeValue, digitsValue_toDigits, decide_eq_true_eq]
  split <;> omega

theorem reread?_of_within {number : Number} (within : number.Within Filter.integers) :
    number.reread? = some number := by
  cases number with
  | int value =>
    have admitted : Filter.integers.admits (Number.int value).numeral = true := by
      have whole : (Number.int value).numeral.isWhole = true := rfl
      have minusZero : Filter.integers.minusZero = true := rfl
      simp only [IntegerRange.admits, whole, wholeValue_numeral_int, within.1, within.2,
        minusZero, decide_true, Bool.true_or, Bool.and_true]
    rw [reread?, Numeral.toNumber?, if_pos admitted, wholeValue_numeral_int]
  | double x =>
    have refused : Filter.integers.admits (Number.double x).numeral = false := by
      have whole : (Number.double x).numeral.isWhole = false := layout.numeral_isWhole _ _
      simp [IntegerRange.admits, whole]
    rw [reread?, Numeral.toNumber?, refused, nearest?_numeral_double]
    rfl

/-- What a numeral denotes keeps within the range of its integers. -/
theorem within_of_toNumber? {range : IntegerRange} {toDouble? : Numeral → Option Double}
    {n : Numeral} {number : Number} (denoted : n.toNumber? range toDouble? = some number) :
    number.Within range := by
  simp only [Numeral.toNumber?] at denoted
  split at denoted
  next admitted =>
    cases denoted
    simp only [IntegerRange.admits, Bool.and_eq_true, decide_eq_true_eq] at admitted
    exact ⟨admitted.1.1.2, admitted.1.2⟩
  next =>
    obtain ⟨x, _, rfl⟩ := Option.map_eq_some_iff.mp denoted
    trivial

end Number

namespace Json

/-- The values that a comparison can have. -/
def IsLiteral : Json → Prop
  | .null | .bool _ | .string _ => True
  | .number value => value.Within Filter.integers
  | .array _ | .object _ => False

def IsAtom : Json → Prop
  | .null | .bool _ | .string _ | .number _ => True
  | .array _ | .object _ => False

theorem IsLiteral.isAtom {value : Json} (literal : value.IsLiteral) : value.IsAtom := by
  cases value with
  | array | object => exact literal.elim
  | _ => trivial

def reread? : Json → Option Json
  | .number value => value.reread?.map .number
  | .array _ | .object _ => none
  | value => some value

theorem reread?_of_isLiteral {value : Json} (literal : value.IsLiteral) :
    value.reread? = some value := by
  cases value with
  | number value => simp [reread?, Number.reread?_of_within literal]
  | array | object => exact literal.elim
  | _ => rfl

end Json

namespace Filter

theorem reading_takeNumber (number : Number) {after : List Char} (ends : EndsOperand after) :
    reading (takeNumber (number.chars ++ after)) =
      match number.reread? with
      | some value => .ok (.number value, after)
      | none => .error ⟨.invalidNumber, number.chars ++ after⟩ := by
  have numeral := Numeral.reading_takeNumeral number.numeral_wellFormed ends.numeral
  rw [number.numeral_chars] at numeral
  obtain ⟨shorter, taken⟩ := reading_eq_ok.mp numeral
  rw [takeNumber, taken]
  dsimp only [bind, Except.bind, Number.reread?]
  cases number.numeral.toNumber? integers Numeral.nearest? <;> rfl

theorem chars_head (number : Number) :
    ∃ c rest, number.chars = c :: rest ∧ c ≠ '"' ∧ (c = '-' ∨ c.isDigit = true) := by
  have formed := number.numeral_wellFormed
  obtain ⟨c, rest, digits⟩ := List.exists_cons_of_ne_nil formed.whole.nonempty
  have digit := formed.whole.digits c (by simp [digits])
  rw [← number.numeral_chars]
  cases sign : number.numeral.negative with
  | true => exact ⟨'-', _, by simp only [Numeral.chars, sign]; rfl, by decide, .inl rfl⟩
  | false =>
    refine ⟨c, _, by simp only [Numeral.chars, sign, digits]; rfl, ?_, .inr digit⟩
    rintro rfl
    simp at digit

theorem takeLiteral_number (number : Number) (after : List Char) :
    takeLiteral (number.chars ++ after) = takeNumber (number.chars ++ after) := by
  obtain ⟨c, rest, written, notQuote, numeric⟩ := chars_head number
  rw [written, List.cons_append, takeLiteral]
  · exact if_pos numeric
  · exact fun same => notQuote same

theorem reading_takeLiteral_word {word : String} {value : Json} {after : List Char}
    (start : ∃ c rest, word.toList = c :: rest ∧ c ≠ '"' ∧ c ≠ '-' ∧ c.isDigit = false)
    (letters : ∀ c ∈ word.toList, c.isAlpha = true) (meant : wordValue? word = some value)
    (ends : EndsOperand after) :
    reading (takeLiteral (word.toList ++ after)) = .ok (value, after) := by
  obtain ⟨c, rest, written, notQuote, notMinus, notDigit⟩ := start
  obtain ⟨shorter, taken⟩ := takeRun_append (by simp [written]) letters ends.noAlpha
  have word_eq : takeLiteral (word.toList ++ after) = takeWordValue (word.toList ++ after) := by
    rw [written, List.cons_append, takeLiteral]
    · exact if_neg (by simp [notMinus, notDigit])
    · exact fun same => notQuote same
  rw [word_eq, takeWordValue, taken]
  simp [meant, Taken.map]

theorem reading_takeLiteral {value read : Json} (reread : value.reread? = some read)
    {after : List Char} (ends : EndsOperand after) :
    reading (takeLiteral (value.chars ++ after)) = .ok (read, after) := by
  have word (word : String) (start : ∃ c rest, word.toList = c :: rest ∧ c ≠ '"' ∧ c ≠ '-' ∧
        c.isDigit = false) (letters : ∀ c ∈ word.toList, c.isAlpha = true) {value : Json}
      (meant : wordValue? word = some value) :=
    reading_takeLiteral_word start letters meant ends
  cases value with
  | null =>
    cases reread
    exact word "null" ⟨'n', _, rfl, by decide, by decide, rfl⟩ (List.all_eq_true.mp (by decide)) rfl
  | bool truth =>
    cases reread
    cases truth with
    | true =>
      exact word "true" ⟨'t', _, rfl, by decide, by decide, rfl⟩ (List.all_eq_true.mp (by decide)) rfl
    | false =>
      exact word "false" ⟨'f', _, rfl, by decide, by decide, rfl⟩ (List.all_eq_true.mp (by decide)) rfl
  | number number =>
    obtain ⟨found, rounded, rfl⟩ := Option.map_eq_some_iff.mp reread
    rw [Json.chars, takeLiteral_number, reading_takeNumber number ends, rounded]
  | string text =>
    cases reread
    have written : (Json.string text).chars ++ after =
        '"' :: (text.toList.flatMap Json.escapeChar ++ '"' :: after) := by
      simp [Json.chars, Json.stringChars]
    obtain ⟨shorter, body⟩ := reading_eq_ok.mp (Text.reading_takeStringBody
      ('"' :: (text.toList.flatMap Json.escapeChar ++ '"' :: after)) text.toList after)
    rw [written]
    simp only [takeLiteral, body]
    simp [bind, Except.bind, Taken.map, Taken.behind, Taken.widen]
  | array | object => simp [Json.reread?] at reread

theorem isLiteral_of_takeLiteral {text rest : List Char} {value : Json}
    (read : reading (takeLiteral text) = .ok (value, rest)) : value.IsLiteral := by
  obtain ⟨shorter, read⟩ := reading_eq_ok.mp read
  unfold takeLiteral at read
  split at read
  next body =>
    obtain ⟨string, _, same⟩ := bind_eq_ok.mp read
    cases same
    trivial
  next =>
    split at read
    next =>
      obtain ⟨numeral, _, same⟩ := bind_eq_ok.mp read
      split at same
      next number denoted =>
        cases same
        exact Number.within_of_toNumber? denoted
      next => cases same
    next =>
      simp only [takeWordValue] at read
      split at read
      next => cases read
      next word _ =>
        split at read
        next found meant =>
          cases read
          simp only [wordValue?] at meant
          split at meant
          next => cases meant; trivial
          split at meant
          next => cases meant; trivial
          split at meant
          next => cases meant; trivial
          next => cases meant
        next => cases read
  next => cases read

end Filter
end Scim
