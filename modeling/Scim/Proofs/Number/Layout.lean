import Scim.Json.Printer
import Scim.Proofs.Number.Numerals
import Scim.Proofs.Number.Shortest

/-! The text of a number is a numeral of the same value, in either layout. -/
namespace Scim

theorem stripZeros_append {digits : List Char} (some : digits ≠ []) :
    ∃ zeros, digits = stripZeros digits ++ List.replicate zeros '0' := by
  have zeros : (digits.reverse.takeWhile (· == '0')).reverse =
      List.replicate (digits.reverse.takeWhile (· == '0')).length '0' := by
    rw [List.eq_replicate_iff]
    refine ⟨by simp, fun c member => ?_⟩
    simpa using List.mem_takeWhile_imp (List.mem_reverse.mp member)
  have parts := congrArg List.reverse
    (List.takeWhile_append_dropWhile (p := (· == '0')) (l := digits.reverse))
  rw [List.reverse_append, List.reverse_reverse, zeros] at parts
  simp only [stripZeros]
  split
  next empty =>
    rw [empty, List.nil_append] at parts
    cases count : (digits.reverse.takeWhile (· == '0')).length with
    | zero =>
      rw [count] at parts
      exact absurd parts.symm some
    | succ more =>
      rw [count, List.replicate_succ] at parts
      exact ⟨more, parts.symm⟩
  next => exact ⟨_, parts.symm⟩

def Decimal.written (d : Decimal) : List Char := stripZeros (Nat.toDigits 10 d.digits)

theorem Decimal.isDigits_written (d : Decimal) : IsDigits d.written := by
  have digits := isDigits_toDigits d.digits
  obtain ⟨zeros, parts⟩ := stripZeros_append digits.nonempty
  refine ⟨?_, fun c member => digits.digits c ?_⟩
  · simp only [written, stripZeros]
    split
    next => simp
    next nonempty => exact nonempty
  · rw [parts]
    exact List.mem_append_left _ member

theorem Double.ofDecimal?_written (negative : Bool) (d : Decimal) :
    ofDecimal? negative ⟨digitsValue d.written, d.place + 1 - d.written.length⟩ =
      ofDecimal? negative d := by
  obtain ⟨zeros, parts⟩ := stripZeros_append (isDigits_toDigits d.digits).nonempty
  have value : d.digits = digitsValue d.written * 10 ^ zeros := by
    rw [← digitsValue_toDigits d.digits, parts, digitsValue_append]
    simp [Decimal.written]
  have length : decimalLength d.digits = d.written.length + zeros := by
    rw [decimalLength, parts]
    simp [Decimal.written]
  have place : d.place + 1 - d.written.length = d.exponent + zeros := by
    simp only [Decimal.place, length]
    omega
  rw [place, ← ofDecimal?_zeros, ← value]

def positionalNumeral (negative : Bool) (digits : List Char) (place : Int) : Numeral :=
  if place < 0 then
    ⟨negative, ['0'], some (List.replicate (-place - 1).toNat '0' ++ digits), none⟩
  else
    let whole := digits.take (place + 1).toNat
    let fraction := digits.drop (place + 1).toNat
    ⟨negative, whole ++ List.replicate ((place + 1).toNat - whole.length) '0',
      some (if fraction.isEmpty then ['0'] else fraction), none⟩

def scientificNumeral (negative : Bool) (digits : List Char) (place : Int) : Numeral :=
  match digits with
  | first :: second :: more => ⟨negative, [first], some (second :: more), some place⟩
  | digits => ⟨negative, digits, none, some place⟩

theorem positionalNumeral_chars (negative : Bool) (digits : List Char) (place : Int) :
    (positionalNumeral negative digits place).chars =
      (if negative then ['-'] else []) ++ positional digits place := by
  simp only [positionalNumeral, positional]
  split <;> simp [Numeral.chars]

theorem scientificNumeral_chars (negative : Bool) (digits : List Char) (place : Int) :
    (scientificNumeral negative digits place).chars =
      (if negative then ['-'] else []) ++ scientific digits place := by
  unfold scientificNumeral scientific
  split <;> simp [Numeral.chars, exponentChars]

theorem isDigits_append {run more : List Char} (first : IsDigits run)
    (rest : ∀ c ∈ more, c.isDigit = true) : IsDigits (run ++ more) where
  nonempty := by simp [first.nonempty]
  digits c member := by
    rcases List.mem_append.mp member with left | right
    · exact first.digits c left
    · exact rest c right

theorem isDigit_of_mem_zeros {count : Nat} (c : Char) (member : c ∈ List.replicate count '0') :
    c.isDigit = true := by
  rw [List.eq_of_mem_replicate member]
  rfl

theorem positionalNumeral_wellFormed (negative : Bool) {digits : List Char} (place : Int)
    (given : IsDigits digits) : (positionalNumeral negative digits place).WellFormed := by
  simp only [positionalNumeral]
  split
  next =>
    refine ⟨⟨by simp, by simp⟩, fun run same => ?_⟩
    cases same
    refine ⟨by simp [given.nonempty], fun c member => ?_⟩
    rcases List.mem_append.mp member with zero | digit
    · exact isDigit_of_mem_zeros c zero
    · exact given.digits c digit
  next nonneg =>
    refine ⟨?_, fun run same => ?_⟩
    · refine isDigits_append ⟨?_, fun c member => ?_⟩ isDigit_of_mem_zeros
      · have some : (place + 1).toNat ≠ 0 := by omega
        simp [some, given.nonempty]
      · exact given.digits c (List.mem_of_mem_take member)
    · cases same
      split
      next => exact ⟨by simp, by simp⟩
      next nonempty =>
        exact ⟨by simpa using nonempty, fun c member => given.digits c (List.mem_of_mem_drop member)⟩

theorem scientificNumeral_wellFormed (negative : Bool) {digits : List Char} (place : Int)
    (given : IsDigits digits) : (scientificNumeral negative digits place).WellFormed := by
  unfold scientificNumeral
  split
  next first second more =>
    refine ⟨⟨by simp, ?_⟩, fun run same => ?_⟩
    · simpa using given.digits first (by simp)
    · cases same
      exact ⟨by simp, fun c member => given.digits c (by simp_all)⟩
  next => exact ⟨given, by simp⟩

/-- Digits in positional writing keep their value. -/
theorem ofDecimal?_positional (negative sign : Bool) (digits : List Char) (place : Int) :
    Double.ofDecimal? negative (positionalNumeral sign digits place).decimal =
      Double.ofDecimal? negative ⟨digitsValue digits, place + 1 - digits.length⟩ := by
  simp only [positionalNumeral]
  split
  next below =>
    have value : digitsValue (['0'] ++ (List.replicate (-place - 1).toNat '0' ++ digits)) =
        digitsValue digits := by
      rw [digitsValue_append, digitsValue_append, digitsValue_zeros, digitsValue_zero]
      omega
    simp only [Numeral.decimal, Option.getD_some, Option.getD_none, value, List.length_append,
      List.length_replicate]
    congr 2
    omega
  next nonneg =>
    by_cases short : digits.length ≤ (place + 1).toNat
    · have value : digitsValue (digits ++
          List.replicate ((place + 1).toNat - digits.length) '0' ++ ['0']) =
          digitsValue digits * 10 ^ ((place + 1).toNat - digits.length + 1) := by
        rw [digitsValue_append, digitsValue_append, digitsValue_zeros, List.length_replicate,
          digitsValue_zero, Nat.pow_succ, ← Nat.mul_assoc]
        rfl
      simp only [Numeral.decimal, List.take_of_length_le short, List.drop_of_length_le short,
        List.isEmpty_nil, if_true, Option.getD_some, Option.getD_none, value,
        Double.ofDecimal?_zeros, List.length_singleton]
      congr 2
      omega
    · have whole : (digits.take (place + 1).toNat).length = (place + 1).toNat := by
        rw [List.length_take]
        omega
      have some : (digits.drop (place + 1).toNat).isEmpty = false := by
        simp
        omega
      simp only [Numeral.decimal, whole, some, Nat.sub_self, List.replicate_zero, List.append_nil,
        Bool.false_eq_true, if_false, Option.getD_some, Option.getD_none,
        List.take_append_drop, List.length_drop]
      congr 2
      omega

theorem ofDecimal?_scientific (negative sign : Bool) {digits : List Char} (place : Int)
    (some : digits ≠ []) :
    Double.ofDecimal? negative (scientificNumeral sign digits place).decimal =
      Double.ofDecimal? negative ⟨digitsValue digits, place + 1 - digits.length⟩ := by
  unfold scientificNumeral
  split
  next first second more =>
    simp only [Numeral.decimal, Option.getD_some, List.singleton_append, List.length_cons]
    congr 2
    omega
  next given =>
    match digits, some with
    | [digit], _ => simp [Numeral.decimal]
    | first :: second :: more, _ => exact absurd rfl (given first second more)

def DecimalLayout.numeral (layout : DecimalLayout) (negative : Bool) (d : Decimal) : Numeral :=
  if layout.leastPositional ≤ d.place ∧ d.place ≤ layout.greatestPositional then
    positionalNumeral negative d.written d.place
  else scientificNumeral negative d.written d.place

namespace DecimalLayout

variable (layout : DecimalLayout) (negative : Bool) (d : Decimal)

theorem numeral_chars : (layout.numeral negative d).chars =
    (if negative then ['-'] else []) ++ layout.write d := by
  simp only [numeral, write]
  split
  · exact positionalNumeral_chars negative d.written d.place
  · exact scientificNumeral_chars negative d.written d.place

theorem numeral_wellFormed : (layout.numeral negative d).WellFormed := by
  simp only [numeral]
  split
  · exact positionalNumeral_wellFormed negative d.place d.isDigits_written
  · exact scientificNumeral_wellFormed negative d.place d.isDigits_written

theorem numeral_isWhole : (layout.numeral negative d).isWhole = false := by
  simp only [numeral]
  split
  · simp only [positionalNumeral]
    split <;> simp [Numeral.isWhole]
  · unfold scientificNumeral
    split <;> simp [Numeral.isWhole]

theorem numeral_negative : (layout.numeral negative d).negative = negative := by
  simp only [numeral]
  split
  · simp only [positionalNumeral]
    split <;> rfl
  · unfold scientificNumeral
    split <;> rfl

theorem nearest?_numeral :
    (layout.numeral negative d).nearest? = Double.ofDecimal? negative d := by
  rw [Numeral.nearest?, numeral_negative, ← Double.ofDecimal?_written negative d, numeral]
  split
  · exact ofDecimal?_positional negative negative d.written d.place
  · exact ofDecimal?_scientific negative negative d.place d.isDigits_written.nonempty

end DecimalLayout
end Scim
