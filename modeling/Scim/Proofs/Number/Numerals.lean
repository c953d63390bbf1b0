import Mathlib.Algebra.Group.Nat.Defs
import Scim.Number.Numeral
import Scim.Proofs.Text.Readers

/-! Numerals in text. A numeral written with its sign, digits, fraction and exponent is read back
part by part. -/
namespace Scim

structure IsDigits (run : List Char) : Prop where
  nonempty : run ≠ []
  digits : ∀ c ∈ run, c.isDigit = true

theorem isDigits_toDigits (n : Nat) : IsDigits (Nat.toDigits 10 n) where
  nonempty := Nat.toDigits_ne_nil
  digits _ member := Nat.isDigit_of_mem_toDigits (by decide) (by decide) member

theorem digitsValue_append (more less : List Char) :
    digitsValue (more ++ less) = digitsValue more * 10 ^ less.length + digitsValue less := by
  unfold digitsValue
  rw [Nat.ofDigitChars_append, Nat.ofDigitChars_eq_ofDigitChars_zero, Nat.mul_comm]

@[simp] theorem digitsValue_toDigits (n : Nat) : digitsValue (Nat.toDigits 10 n) = n :=
  Nat.ofDigitChars_ten_toDigits

theorem digitsValue_zero : digitsValue ['0'] = 0 := rfl

@[simp] theorem digitsValue_zeros (count : Nat) : digitsValue (List.replicate count '0') = 0 := by
  simp [digitsValue]

/-- What follows a numeral continues none: it is the end, or a character of no numeral. -/
def EndsNumeral (text : List Char) : Prop :=
  Stops (fun c => c.isDigit || c == '.' || c == 'e' || c == 'E') text

theorem EndsNumeral.noDigit {text : List Char} (ends : EndsNumeral text) :
    Stops Char.isDigit text := by
  intro c first
  have := ends c first
  simp_all

theorem reading_takeDigits {run after : List Char} (digits : IsDigits run)
    (stops : Stops Char.isDigit after) : reading (takeDigits (run ++ after)) = .ok (run, after) := by
  obtain ⟨shorter, taken⟩ := takeRun_append digits.nonempty digits.digits stops
  simp [takeDigits, taken]

theorem readingOption_takeFraction {run after : List Char} (digits : IsDigits run)
    (stops : Stops Char.isDigit after) :
    readingOption (takeFraction ('.' :: run ++ after)) = .ok (some run, after) := by
  obtain ⟨shorter, taken⟩ := reading_eq_ok.mp (reading_takeDigits digits stops)
  simp only [takeFraction, List.cons_append, taken]
  rfl

theorem takeFraction_absent {text : List Char} (absent : text.head? ≠ some '.') :
    takeFraction text = .ok none := by
  unfold takeFraction
  split
  next => simp at absent
  next => rfl

def exponentChars (exponent : Int) : List Char :=
  'e' :: (if exponent < 0 then '-' else '+') :: Nat.toDigits 10 exponent.natAbs

theorem reading_takeExponentDigits (negative : Bool) (size : Nat) {after : List Char}
    (stops : Stops Char.isDigit after) :
    reading (takeExponentDigits negative (Nat.toDigits 10 size ++ after)) =
      .ok (if negative then -(size : Int) else size, after) := by
  obtain ⟨shorter, taken⟩ :=
    reading_eq_ok.mp (reading_takeDigits (isDigits_toDigits size) stops)
  simp only [takeExponentDigits, taken, bind, Except.bind, Taken.map, reading_ok,
    digitsValue_toDigits]

theorem readingOption_takeExponent (exponent : Int) {after : List Char}
    (stops : Stops Char.isDigit after) :
    readingOption (takeExponent (exponentChars exponent ++ after)) =
      .ok (some exponent, after) := by
  by_cases negative : exponent < 0
  · obtain ⟨shorter, taken⟩ :=
      reading_eq_ok.mp (reading_takeExponentDigits true exponent.natAbs stops)
    have written : exponentChars exponent = 'e' :: '-' :: Nat.toDigits 10 exponent.natAbs := by
      rw [exponentChars, if_pos negative]
    have value : -(exponent.natAbs : Int) = exponent := by omega
    rw [written]
    simp only [takeExponent, List.cons_append, taken, if_true, value]
    simp [bind, Except.bind, Taken.behind, Taken.widen]
  · obtain ⟨shorter, taken⟩ :=
      reading_eq_ok.mp (reading_takeExponentDigits false exponent.natAbs stops)
    have written : exponentChars exponent = 'e' :: '+' :: Nat.toDigits 10 exponent.natAbs := by
      rw [exponentChars, if_neg negative]
    have value : (exponent.natAbs : Int) = exponent := by omega
    rw [written]
    simp only [takeExponent, List.cons_append, taken, Bool.false_eq_true, if_false, value]
    simp [bind, Except.bind, Taken.behind, Taken.widen]

theorem takeExponent_absent {text : List Char}
    (absent : Stops (fun c => c == 'e' || c == 'E') text) : takeExponent text = .ok none := by
  cases text with
  | nil => rfl
  | cons c rest =>
    have : ¬(c = 'e' ∨ c = 'E') := by simpa using absent
    simp [takeExponent, this]

theorem reading_takeUnsigned (negative : Bool) (text : List Char) :
    reading (takeUnsigned negative text) = (do
      let (whole, rest) ← reading (takeDigits text)
      let (fraction, rest) ← readingOption (takeFraction rest)
      let (exponent, rest) ← readingOption (takeExponent rest)
      .ok (⟨negative, whole, fraction, exponent⟩, rest)) := by
  simp only [takeUnsigned]
  refine reading_bind _ _ _ fun whole => ?_
  cases fractional : takeFraction whole.rest with
  | error fault => simp [bind, Except.bind, Taken.pair, fractional]
  | ok fraction =>
    cases scientific : takeExponent (Taken.remaining fraction) with
    | error fault =>
      simp [bind, Except.bind, Taken.pair, fractional, scientific, readingOption, Except.map]
    | ok exponent =>
      simp [bind, Except.bind, Taken.pair, fractional, scientific, readingOption, Except.map]

namespace Numeral

def chars (n : Numeral) : List Char :=
  (if n.negative then ['-'] else []) ++ n.whole ++
    (n.fraction.elim [] ('.' :: ·)) ++ (n.exponent.elim [] exponentChars)

structure WellFormed (n : Numeral) : Prop where
  whole : IsDigits n.whole
  fraction : ∀ run ∈ n.fraction, IsDigits run

theorem stops_exponent {n : Numeral} {after : List Char} (ends : EndsNumeral after) :
    Stops Char.isDigit (n.exponent.elim [] exponentChars ++ after) ∧
      (n.exponent.elim [] exponentChars ++ after).head? ≠ some '.' := by
  cases n.exponent with
  | some exponent => simp [exponentChars]
  | none =>
    refine ⟨ends.noDigit, fun first => ?_⟩
    simpa using ends '.' first

theorem readingOption_takeExponent (n : Numeral) {after : List Char} (ends : EndsNumeral after) :
    readingOption (takeExponent (n.exponent.elim [] exponentChars ++ after)) =
      .ok (n.exponent, after) := by
  cases n.exponent with
  | some exponent => exact Scim.readingOption_takeExponent exponent ends.noDigit
  | none =>
    have absent : Stops (fun c => c == 'e' || c == 'E') after := by
      intro c first
      have := ends c first
      simp_all
    simp [takeExponent_absent absent]

theorem readingOption_takeFraction {n : Numeral} (formed : n.WellFormed) {after : List Char}
    (stops : Stops Char.isDigit after) (absent : after.head? ≠ some '.') :
    readingOption (takeFraction (n.fraction.elim [] ('.' :: ·) ++ after)) =
      .ok (n.fraction, after) := by
  cases given : n.fraction with
  | some run => exact Scim.readingOption_takeFraction (formed.fraction run given) stops
  | none => simp [takeFraction_absent absent]

theorem reading_takeUnsigned {n : Numeral} (formed : n.WellFormed) {after : List Char}
    (ends : EndsNumeral after) :
    reading (takeUnsigned n.negative (n.whole ++ (n.fraction.elim [] ('.' :: ·) ++
      (n.exponent.elim [] exponentChars ++ after)))) = .ok (n, after) := by
  obtain ⟨noDigit, noPoint⟩ := stops_exponent (n := n) ends
  have stops : Stops Char.isDigit (n.fraction.elim [] ('.' :: ·) ++
      (n.exponent.elim [] exponentChars ++ after)) := by
    cases n.fraction with
    | some run => simp
    | none => exact noDigit
  rw [Scim.reading_takeUnsigned, reading_takeDigits formed.whole stops]
  dsimp only [bind, Except.bind]
  rw [readingOption_takeFraction formed noDigit noPoint]
  dsimp only
  rw [readingOption_takeExponent n ends]

/-- The text of a numeral is read back. -/
theorem reading_takeNumeral {n : Numeral} (formed : n.WellFormed) {after : List Char}
    (ends : EndsNumeral after) : reading (takeNumeral (n.chars ++ after)) = .ok (n, after) := by
  have unsigned := reading_takeUnsigned formed ends
  cases sign : n.negative with
  | true =>
    rw [sign] at unsigned
    obtain ⟨shorter, taken⟩ := reading_eq_ok.mp unsigned
    have written : n.chars ++ after = '-' :: (n.whole ++ (n.fraction.elim [] ('.' :: ·) ++
        (n.exponent.elim [] exponentChars ++ after))) := by simp [chars, sign]
    rw [written]
    simp only [takeNumeral, taken]
    rfl
  | false =>
    rw [sign] at unsigned
    have written : n.chars ++ after = n.whole ++ (n.fraction.elim [] ('.' :: ·) ++
        (n.exponent.elim [] exponentChars ++ after)) := by simp [chars, sign]
    rw [written, takeNumeral]
    · exact unsigned
    · intro rest same
      obtain ⟨c, more, digits⟩ := List.exists_cons_of_ne_nil formed.whole.nonempty
      have digit := formed.whole.digits c (by simp [digits])
      rw [digits] at same
      cases same
      simp at digit

end Numeral
end Scim
