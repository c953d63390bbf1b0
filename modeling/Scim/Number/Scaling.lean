import Scim.Number.Decimal

/-! Multiplication and division of doubles, and powers of ten by them. Each step is rounded to
nearest, so that a decimal scaled this way may miss its nearest double by a place. -/
namespace Scim.Double

def mul? (x y : Double) : Option Double :=
  nearest? (x.negative != y.negative) (x.magnitude * y.magnitude) (Nat.pow 2 unitExponent)

def div? (x y : Double) : Option Double :=
  if y.magnitude = 0 then none
  else nearest? (x.negative != y.negative) (x.magnitude * Nat.pow 2 unitExponent) y.magnitude

def powerOfTen? (exponent : Nat) : Option Double := ofDecimal? false ⟨1, exponent⟩

def greatestPower : Nat := 308

/-- Division by the greatest finite power of ten, `count` times. Zero stays as it is. -/
def divGreatest? : Nat → Double → Option Double
  | 0, x => some x
  | count + 1, x =>
    if x.magnitude = 0 then some x
    else do
      let divisor ← powerOfTen? greatestPower
      let quotient ← x.div? divisor
      divGreatest? count quotient

/-- Division by a power of ten. One that would be infinite is split into finite ones, the
greatest of them first. -/
def divPower? (x : Double) (exponent : Nat) : Option Double := do
  let count := (exponent - 1) / greatestPower
  let divisor ← powerOfTen? (exponent - count * greatestPower)
  let quotient ← divGreatest? count x
  quotient.div? divisor

/-- Multiplication by `10 ^ exponent`; `none` where the result or the power would be infinite. -/
def scale? (x : Double) (exponent : Int) : Option Double :=
  if x.magnitude = 0 then some x
  else if exponent < 0 then x.divPower? (-exponent).toNat
  else do
    let factor ← powerOfTen? exponent.toNat
    x.mul? factor

end Scim.Double
