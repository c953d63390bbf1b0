import Scim.Number.Double

/-! Decimal numbers against binary64: the nearest double of a decimal, and the shortest decimal
that reads back as a given double. -/
namespace Scim

/-- The number `digits · 10 ^ exponent`. -/
structure Decimal where
  digits : Nat
  exponent : Int
  deriving DecidableEq

def decimalLength (n : Nat) : Nat := (Nat.toDigits 10 n).length

/-- The place of the first digit: `d.ddd · 10 ^ place`. -/
def Decimal.place (d : Decimal) : Int := decimalLength d.digits + d.exponent - 1

namespace Double

/-- The double nearest to a decimal. Decimals at 10³¹¹ and above are infinite and those below
10⁻³³⁰ are zero whatever their digits, so no larger power is ever formed. -/
def ofDecimal? (negative : Bool) (d : Decimal) : Option Double :=
  if d.digits = 0 ∨ d.place < -330 then some (zero negative)
  else if 310 < d.place then none
  else
    nearest? negative (d.digits * Nat.pow 10 d.exponent.toNat * Nat.pow 2 unitExponent)
      (Nat.pow 10 (-d.exponent).toNat)

def scaled (x : Double) (exponent : Int) : Nat × Nat :=
  (x.magnitude * Nat.pow 10 (-exponent).toNat,
    Nat.pow 2 unitExponent * Nat.pow 10 exponent.toNat)

/-- The place of the first decimal digit. The least magnitude is above 10⁻³²⁴. -/
def place (x : Double) : Int :=
  let (num, den) := x.scaled (-324)
  decimalLength (num / den) - 325

def reads (x : Double) (d : Decimal) : Bool := ofDecimal? x.negative d == some x

/-- Of the decimals next below and above a fraction, the one that is accepted; of two the nearer,
of two as near the even one. -/
def nearer? (accepts : Decimal → Bool) (num den : Nat) (exponent : Int) : Option Decimal :=
  match accepts ⟨num / den, exponent⟩, accepts ⟨num / den + 1, exponent⟩ with
  | true, true => some ⟨roundDiv num den, exponent⟩
  | true, false => some ⟨num / den, exponent⟩
  | false, true => some ⟨num / den + 1, exponent⟩
  | false, false => none

def decimalAt? (x : Double) (count : Nat) : Option Decimal :=
  let exponent := x.place - count + 1
  nearer? x.reads (x.scaled exponent).1 (x.scaled exponent).2 exponent

def exactDecimal (x : Double) : Decimal :=
  ⟨x.magnitude * Nat.pow 5 unitExponent, -unitExponent⟩

/-- The decimal with the fewest digits that reads back, seventeen of which suffice. -/
def shortest (x : Double) : Decimal :=
  ((List.range' 1 17).findSome? x.decimalAt?).getD x.exactDecimal

end Double
end Scim
