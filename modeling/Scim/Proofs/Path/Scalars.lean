import Scim.Filter.Evaluation
import Scim.Json.Reader
import Scim.Proofs.Number.Units
import Scim.Proofs.Path.WellFormed

/-! Scalars of a document, printed in a filter. Integers past 63 bits come back as doubles, which
compare as the integers do; everything else comes back as it was. -/
namespace Scim

namespace Number

theorem decimal_numeral_int (value : Int) :
    (Number.int value).numeral.decimal = ⟨value.natAbs, 0⟩ := by
  simp [numeral, Numeral.decimal]

/-- A number of a document is read back with the same units. -/
theorem exists_reread? {number : Number} (within : number.Within Json.integers) :
    ∃ read, number.reread? = some read ∧ read.units = number.units := by
  by_cases signed : number.Within Filter.integers
  · exact ⟨number, reread?_of_within signed, rfl⟩
  · cases number with
    | double x => exact absurd trivial signed
    | int value =>
      have large : 2 ^ 63 ≤ value := by
        have least : -0x8000000000000000 ≤ value := within.1
        by_contra small
        exact signed ⟨least, by simp only [Filter.integers]; omega⟩
      have narrow : value ≤ 0xFFFFFFFFFFFFFFFF := within.2
      obtain ⟨n, rfl⟩ := Int.eq_ofNat_of_zero_le (by omega : 0 ≤ value)
      obtain ⟨x, nearest, units⟩ := Double.exists_ofDecimal? (n := n) (by omega) (by omega)
      have refused : Filter.integers.admits (Number.int n).numeral = false := by
        have greatest : ¬ (n : Int) ≤ Filter.integers.greatest := by
          simp only [Filter.integers]
          omega
        simp [IntegerRange.admits, wholeValue_numeral_int, greatest]
      have positive : (Number.int n).numeral.negative = false := by
        simp [numeral]
      refine ⟨.double x, ?_, units⟩
      rw [reread?, Numeral.toNumber?, refused, Numeral.nearest?, positive, decimal_numeral_int,
        Int.natAbs_natCast, nearest]
      rfl

end Number

namespace Json

/-- A number, if it is one, is within the range that documents hold. -/
def InDocument : Json → Prop
  | .number value => value.Within integers
  | _ => True

theorem inDocument_of_takeNumber {text : List Char} {taken : Taken Json text}
    (read : takeNumber text = .ok taken) : taken.value.InDocument := by
  simp only [takeNumber] at read
  obtain ⟨numeral, _, read⟩ := bind_eq_ok.mp read
  split at read
  · split at read
    next value denoted =>
      cases read
      exact Number.within_of_toNumber? denoted
    next => cases read
  · cases read

/-- A scalar of a document is read back as one that compares alike. -/
theorem exists_reread? {value : Json} (scalar : value.isScalar = true) (held : value.InDocument) :
    ∃ read, value.reread? = some read ∧ ∀ (op : CompareOp) (ignoreCase : Bool) (actual : Json),
      op.holds ignoreCase actual read = op.holds ignoreCase actual value := by
  cases value with
  | null | array | object => cases scalar
  | bool | string => exact ⟨_, rfl, fun _ _ _ => rfl⟩
  | number value =>
    obtain ⟨read, reread, units⟩ := Number.exists_reread? held
    refine ⟨.number read, by rw [Json.reread?, reread]; rfl, ?_⟩
    intro op ignoreCase actual
    cases actual with
    | number other => simp only [CompareOp.holds, units]
    | _ => rfl

end Json

namespace Filter

theorem holds_compare_congr {value read : Json}
    (alike : ∀ (op : CompareOp) (ignoreCase : Bool) (actual : Json),
      op.holds ignoreCase actual read = op.holds ignoreCase actual value)
    (path : Path) (op : CompareOp) (scope : Scope) (fragment : Json) :
    (compare path op read).holds scope fragment = (compare path op value).holds scope fragment := by
  rw [holds, holds]
  cases op <;> simp only [holdsOfAny, alike]

end Filter
end Scim
