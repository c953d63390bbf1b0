import Scim.Number.Decimal

/-! The layout of decimals in text: positional near one, scientific elsewhere. -/
namespace Scim

structure DecimalLayout where
  leastPositional : Int
  greatestPositional : Int

def stripZeros (digits : List Char) : List Char :=
  match (digits.reverse.dropWhile (· == '0')).reverse with
  | [] => ['0']
  | digits => digits

/-- At least one digit stands after the point. -/
def positional (digits : List Char) (place : Int) : List Char :=
  if place < 0 then
    '0' :: '.' :: List.replicate (-place - 1).toNat '0' ++ digits
  else
    let whole := digits.take (place + 1).toNat
    let fraction := digits.drop (place + 1).toNat
    whole ++ List.replicate ((place + 1).toNat - whole.length) '0' ++
      '.' :: (if fraction.isEmpty then ['0'] else fraction)

def scientific (digits : List Char) (place : Int) : List Char :=
  let mantissa := match digits with
    | first :: second :: more => first :: '.' :: second :: more
    | digits => digits
  mantissa ++ 'e' :: (if place < 0 then '-' else '+') :: Nat.toDigits 10 place.natAbs

def DecimalLayout.write (layout : DecimalLayout) (d : Decimal) : List Char :=
  let digits := stripZeros (Nat.toDigits 10 d.digits)
  if layout.leastPositional ≤ d.place ∧ d.place ≤ layout.greatestPositional then
    positional digits d.place
  else scientific digits d.place

def DecimalLayout.writeDouble (layout : DecimalLayout) (x : Double) : List Char :=
  let decimal := if x.magnitude = 0 then ⟨0, 0⟩ else x.shortest
  (if x.negative then ['-'] else []) ++ layout.write decimal

end Scim
