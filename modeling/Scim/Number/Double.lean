/-! Finite binary64 numbers in exact integer arithmetic. Magnitudes are measured in units of
2⁻¹⁰⁷⁴, the least positive number, so that every finite number is a whole multiple. -/
namespace Scim

def significandLimit : Nat := 0x20000000000000

def normalSignificand : Nat := 0x10000000000000

/-- The number of `significand · 2 ^ shift` units, with a sign, which zero has too. Only the
numbers next to zero have fewer bits than 53. -/
structure Double where
  negative : Bool
  significand : Nat
  shift : Nat
  significand_lt : significand < significandLimit
  normal : shift = 0 ∨ normalSignificand ≤ significand
  shift_le : shift ≤ 2045
  deriving DecidableEq

def unitExponent : Nat := 1074

/-- The quotient rounded to a whole number, a half to the even neighbour. -/
def roundDiv (num den : Nat) : Nat :=
  let twice := 2 * (num % den)
  if den < twice ∨ (twice = den ∧ (num / den) % 2 = 1) then num / den + 1 else num / den

def lostBits (n : Nat) : Nat := n.log2 - 52

/-- A magnitude in whole units, rounded to 53 bits. -/
def round53 (n : Nat) : Nat :=
  roundDiv n (Nat.pow 2 (lostBits n)) * Nat.pow 2 (lostBits n)

namespace Double

def zero (negative : Bool) : Double := ⟨negative, 0, 0, by decide, .inl rfl, by decide⟩

def magnitude (x : Double) : Nat := x.significand * Nat.pow 2 x.shift

def units (x : Double) : Int := if x.negative then -(x.magnitude : Int) else x.magnitude

def ofParts? (negative : Bool) (significand shift : Nat) : Option Double :=
  if h : significand < significandLimit ∧ (shift = 0 ∨ normalSignificand ≤ significand) ∧
      shift ≤ 2045 then
    some ⟨negative, significand, shift, h.1, h.2.1, h.2.2⟩
  else none

/-- The number nearest to `num / den` units, a half to the even significand; `none` where it
would be infinite. -/
def nearest? (negative : Bool) (num den : Nat) : Option Double :=
  let shift := lostBits (num / den)
  let significand := roundDiv num (den * Nat.pow 2 shift)
  if significand = significandLimit then ofParts? negative normalSignificand (shift + 1)
  else ofParts? negative significand shift

end Double
end Scim
