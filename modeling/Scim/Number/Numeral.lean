import Scim.Number.Basic
import Scim.Number.Scaling
import Scim.Text.Scan

/-! Numerals: an optional minus sign, digits, and optionally a fraction and an exponent. A numeral
that is no integer denotes a double, which is either the nearest one or the one reached by
scaling the leading digits. -/
namespace Scim

structure Numeral where
  negative : Bool
  whole : List Char
  fraction : Option (List Char)
  exponent : Option Int
  deriving DecidableEq

def digitsValue (digits : List Char) : Nat := Nat.ofDigitChars 10 digits 0

/-- Reads digits on to `value` for as long as the result is at most `limit`; the digits left
over come second. -/
def fitDigits (limit value : Nat) : List Char → Nat × List Char
  | [] => (value, [])
  | digit :: more =>
    let longer := digitsValue [digit] + 10 * value
    if longer ≤ limit then fitDigits limit longer more else (value, digit :: more)

def takeDigits (text : List Char) : Except Fault (Taken (List Char) text) :=
  match takeRun Char.isDigit text with
  | some digits => .ok digits
  | none => .error ⟨.invalidNumber, text⟩

def takeFraction : (text : List Char) → Except Fault (Option (Taken (List Char) text))
  | '.' :: rest => do
    let digits ← takeDigits rest
    .ok (some digits.behind)
  | _ => .ok none

def takeExponentDigits (negative : Bool) (text : List Char) :
    Except Fault (Taken Int text) := do
  let digits ← takeDigits text
  let size := digitsValue digits.value
  .ok (digits.map fun _ => if negative then -(size : Int) else size)

def takeExponent : (text : List Char) → Except Fault (Option (Taken Int text))
  | [] => .ok none
  | mark :: rest =>
    if mark = 'e' ∨ mark = 'E' then
      match rest with
      | '+' :: digits => do
        let exponent ← takeExponentDigits false digits
        .ok (some exponent.behind.behind)
      | '-' :: digits => do
        let exponent ← takeExponentDigits true digits
        .ok (some exponent.behind.behind)
      | digits => do
        let exponent ← takeExponentDigits false digits
        .ok (some exponent.behind)
    else .ok none

def takeUnsigned (negative : Bool) (text : List Char) : Except Fault (Taken Numeral text) := do
  let whole ← takeDigits text
  let fraction ← takeFraction whole.rest
  let exponent ← takeExponent (Taken.remaining fraction)
  .ok ⟨⟨negative, whole.value, fraction.map (·.value), exponent.map (·.value)⟩,
    Taken.remaining exponent, by
      have := whole.shorter
      have := Taken.remaining_length_le fraction
      have := Taken.remaining_length_le exponent
      omega⟩

def takeNumeral : (text : List Char) → Except Fault (Taken Numeral text)
  | '-' :: rest => do
    let numeral ← takeUnsigned true rest
    .ok numeral.behind
  | text => takeUnsigned false text

namespace Numeral

def isWhole (n : Numeral) : Bool := n.fraction.isNone && n.exponent.isNone

def wholeValue (n : Numeral) : Int :=
  if n.negative then -(digitsValue n.whole : Int) else digitsValue n.whole

def decimal (n : Numeral) : Decimal :=
  let fraction := n.fraction.getD []
  ⟨digitsValue (n.whole ++ fraction), n.exponent.getD 0 - fraction.length⟩

def nearest? (n : Numeral) : Option Double := Double.ofDecimal? n.negative n.decimal

def greatestWord : Nat := 0xFFFFFFFFFFFFFFFF

/-- The leading digits that fit 64 bits. Of the whole part a digit that does not fit counts as a
place, of the fraction it does not count. -/
def leading (n : Numeral) : Decimal :=
  let fraction := n.fraction.getD []
  let (whole, places) := fitDigits greatestWord 0 n.whole
  let (digits, dropped) := fitDigits greatestWord whole fraction
  ⟨digits, n.exponent.getD 0 + places.length - (fraction.length - dropped.length : Nat)⟩

/-- The leading digits rounded to a double and then scaled; `none` where the result or the power
of ten would be infinite. -/
def scaled? (n : Numeral) : Option Double := do
  let digits ← Double.ofDecimal? n.negative ⟨n.leading.digits, 0⟩
  digits.scale? n.leading.exponent

end Numeral

/-- Which whole numerals denote integers. All other numerals denote doubles. -/
structure IntegerRange where
  least : Int
  greatest : Int
  /-- Whether `-0` is the integer zero. -/
  minusZero : Bool

def IntegerRange.admits (range : IntegerRange) (n : Numeral) : Bool :=
  n.isWhole && decide (range.least ≤ n.wholeValue) && decide (n.wholeValue ≤ range.greatest) &&
    (range.minusZero || !(n.negative && n.wholeValue == 0))

def Numeral.toNumber? (range : IntegerRange) (toDouble? : Numeral → Option Double) (n : Numeral) :
    Option Number :=
  if range.admits n then some (.int n.wholeValue) else (toDouble? n).map .double

end Scim
