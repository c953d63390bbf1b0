import Scim.Number.Double

/-! Numbers as documents hold them: whole numbers and binary64, kept apart. -/
namespace Scim

inductive Number where
  | int (value : Int)
  | double (value : Double)
  deriving DecidableEq

/-- The value in units of 2⁻¹⁰⁷⁴ after rounding to a double, by which numbers are compared. -/
def Number.units : Number → Int
  | .int value => value.sign * (round53 value.natAbs * Nat.pow 2 unitExponent : Nat)
  | .double value => value.units

end Scim
