import Scim.Number.Basic
import Scim.Proofs.Number.Rounding

/-! Whole numbers as doubles: the nearest double of a number of 64 bits exists and has the units
by which the number itself is compared. -/
namespace Scim

theorem le_roundDiv {num den low : Nat} (positive : 0 < den) (least : low * den ≤ num) :
    low ≤ roundDiv num den := by
  have lower : low ≤ num / den := (Nat.le_div_iff_mul_le positive).mpr least
  rcases roundDiv_eq num den with floor | ceiling <;> omega

theorem roundDiv_le {num den high : Nat} (positive : 0 < den) (below : num < high * den) :
    roundDiv num den ≤ high := by
  have upper : num / den < high := (Nat.div_lt_iff_lt_mul positive).mpr below
  rcases roundDiv_eq num den with floor | ceiling <;> omega

/-- Numbers of 53 bits and more are rounded alike on every scale. -/
theorem round53_mul_pow {n : Nat} (wide : 2 ^ 52 ≤ n) (power : Nat) :
    round53 (n * Nat.pow 2 power) = round53 n * Nat.pow 2 power := by
  have some : n ≠ 0 := by omega
  have bits : 52 ≤ n.log2 := (Nat.le_log2 some).mpr wide
  have lost : lostBits (n * 2 ^ power) = lostBits n + power := by
    rw [lostBits, lostBits, log2_mul_pow some]
    omega
  simp only [round53, Nat.pow_eq, lost, Nat.pow_add, roundDiv_mul_right (Nat.two_pow_pos power)]
  ring

namespace Double

theorem magnitude_of_ofParts? {negative : Bool} {significand shift : Nat} {x : Double}
    (made : ofParts? negative significand shift = some x) :
    x.negative = negative ∧ x.magnitude = significand * Nat.pow 2 shift := by
  simp only [ofParts?] at made
  split at made
  · cases made
    exact ⟨rfl, rfl⟩
  · cases made

/-- The nearest double of a whole number of units has its magnitude rounded. -/
theorem magnitude_of_nearest? {negative : Bool} {n : Nat} {x : Double}
    (rounded : nearest? negative n 1 = some x) :
    x.negative = negative ∧ x.magnitude = round53 n := by
  simp only [nearest?, Nat.div_one, Nat.one_mul] at rounded
  split at rounded
  next carried =>
    obtain ⟨sign, magnitude⟩ := magnitude_of_ofParts? rounded
    have double : significandLimit = normalSignificand * 2 := rfl
    refine ⟨sign, magnitude.trans ?_⟩
    rw [round53, carried, double]
    simp only [Nat.pow_eq, Nat.pow_succ]
    ring
  next => exact magnitude_of_ofParts? rounded

/-- Magnitudes that lose no more bits than a double can have shifted in are not infinite. -/
theorem exists_nearest? (negative : Bool) {n : Nat} (bounded : lostBits n < 2045) :
    ∃ x, nearest? negative n 1 = some x := by
  simp only [nearest?, Nat.div_one, Nat.one_mul]
  generalize lost : lostBits n = shift at bounded
  have below : n < 2 ^ 53 * 2 ^ shift := by
    rw [← Nat.pow_add]
    refine Nat.lt_of_lt_of_le Nat.lt_log2_self (Nat.pow_le_pow_right (by decide) ?_)
    simp only [lostBits] at lost
    omega
  have least : shift = 0 ∨ 2 ^ 52 * 2 ^ shift ≤ n := by
    by_cases none : shift = 0
    · exact .inl none
    · right
      simp only [lostBits] at lost
      have some : n ≠ 0 := by
        rintro rfl
        simp at lost
        omega
      rw [← Nat.pow_add, show 52 + shift = n.log2 by omega]
      exact Nat.log2_self_le some
  have upper : roundDiv n (Nat.pow 2 shift) ≤ 2 ^ 53 :=
    roundDiv_le (Nat.two_pow_pos shift) below
  split
  · exact ⟨_, dif_pos ⟨by decide, .inr (Nat.le_refl _), by omega⟩⟩
  next carried =>
    refine ⟨_, dif_pos ⟨?_, ?_, by omega⟩⟩
    · exact Nat.lt_of_le_of_ne upper carried
    · rcases least with none | least
      · exact .inl none
      · exact .inr (le_roundDiv (Nat.two_pow_pos shift) least)

/-- The double read for a whole number of 64 bits that takes more than 53. -/
theorem exists_ofDecimal? {n : Nat} (wide : 2 ^ 52 ≤ n) (narrow : n < 2 ^ 64) :
    ∃ x, ofDecimal? false ⟨n, 0⟩ = some x ∧ x.units = (Number.int n).units := by
  have some : n ≠ 0 := by omega
  have digits : decimalLength n ≤ 20 :=
    (Nat.length_toDigits_le_iff (by decide) (by decide)).mpr (by omega)
  have place : -1 ≤ (Decimal.mk n 0).place ∧ (Decimal.mk n 0).place ≤ 19 := by
    simp only [Decimal.place]
    omega
  have bits : lostBits (n * Nat.pow 2 unitExponent) < 2045 := by
    have log : n.log2 < 64 := (Nat.log2_lt some).mpr narrow
    simp only [lostBits, Nat.pow_eq, log2_mul_pow some, unitExponent]
    omega
  obtain ⟨x, nearest⟩ := exists_nearest? false bits
  obtain ⟨sign, magnitude⟩ := magnitude_of_nearest? nearest
  refine ⟨x, ?_, ?_⟩
  · rw [ofDecimal?, if_neg (not_or.mpr ⟨some, by omega⟩), if_neg (by omega), ← nearest]
    simp
  · have positive : (n : Int).sign = 1 := Int.sign_eq_one_of_pos (by omega)
    rw [units, sign, magnitude, round53_mul_pow wide, Number.units, positive, Int.natAbs_natCast]
    simp only [Bool.false_eq_true, if_false, Int.one_mul]

end Double
end Scim
