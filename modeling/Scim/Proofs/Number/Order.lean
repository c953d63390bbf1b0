import Scim.Number.Basic
import Scim.Proofs.Number.Units

/-! Whole numbers in the order of their doubles. Rounding never turns their order round, but from
2⁵³ on it takes neighbours for one number. -/
namespace Scim

theorem roundDiv_mono {m n : Nat} (le : m ≤ n) (den : Nat) : roundDiv m den ≤ roundDiv n den := by
  have quotients : m / den ≤ n / den := Nat.div_le_div_right le
  rcases Nat.lt_or_ge (m / den) (n / den) with apart | together
  · have upper := roundDiv_eq m den
    have lower := roundDiv_eq n den
    omega
  · -- of one quotient only the remainders differ
    have same : m / den = n / den := by omega
    have remainders : m % den ≤ n % den := by
      have first := Nat.div_add_mod m den
      have second := Nat.div_add_mod n den
      rw [same] at first
      omega
    simp only [roundDiv, same]
    split <;> split <;> omega

theorem roundDiv_near (num : Nat) {den : Nat} (positive : 0 < den) :
    2 * num ≤ 2 * (roundDiv num den * den) + den ∧
      2 * (roundDiv num den * den) ≤ 2 * num + den := by
  have parts := Nat.div_add_mod num den
  have rest := Nat.mod_lt num positive
  rw [Nat.mul_comm] at parts
  simp only [roundDiv]
  split
  · rw [Nat.add_one_mul (num / den)]
    omega
  · constructor <;> omega

theorem round53_of_lt {n : Nat} (small : n < 2 ^ 53) : round53 n = n := by
  have lost : lostBits n = 0 := by
    rcases Nat.eq_zero_or_pos n with rfl | some
    · rfl
    · have log : n.log2 < 53 := (Nat.log2_lt some.ne').mpr small
      rw [lostBits]
      omega
  have whole := roundDiv_mul_self Nat.one_pos n
  rw [Nat.mul_one] at whole
  rw [round53, lost, Nat.pow_eq, Nat.pow_zero, Nat.mul_one, whole]

theorem round53_between {n : Nat} (some : n ≠ 0) :
    2 ^ n.log2 ≤ round53 n ∧ round53 n ≤ 2 ^ (n.log2 + 1) := by
  rcases Nat.lt_or_ge n (2 ^ 53) with small | large
  · rw [round53_of_lt small]
    exact ⟨Nat.log2_self_le some, Nat.lt_log2_self.le⟩
  · have bits : 53 ≤ n.log2 := (Nat.le_log2 some).mpr large
    have lost : n.log2 = 52 + lostBits n := by
      rw [lostBits]
      omega
    have next : n.log2 + 1 = 53 + lostBits n := by omega
    have least := Nat.log2_self_le some
    have greatest := Nat.lt_log2_self (n := n)
    rw [lost, Nat.pow_add] at least
    rw [next, Nat.pow_add] at greatest
    rw [next, lost, Nat.pow_add, Nat.pow_add, round53]
    exact ⟨Nat.mul_le_mul_right _ (le_roundDiv (Nat.two_pow_pos _) least),
      Nat.mul_le_mul_right _ (roundDiv_le (Nat.two_pow_pos _) greatest)⟩

theorem round53_mono {m n : Nat} (le : m ≤ n) : round53 m ≤ round53 n := by
  rcases Nat.eq_zero_or_pos m with rfl | some
  · exact Nat.zero_le _
  have logs : m.log2 ≤ n.log2 :=
    (Nat.le_log2 (by omega)).mpr ((Nat.log2_self_le some.ne').trans le)
  rcases Nat.lt_or_ge m.log2 n.log2 with apart | together
  · calc round53 m ≤ 2 ^ (m.log2 + 1) := (round53_between some.ne').2
      _ ≤ 2 ^ n.log2 := Nat.pow_le_pow_right (by decide) apart
      _ ≤ round53 n := (round53_between (by omega)).1
  · have lost : lostBits m = lostBits n := by
      rw [lostBits, lostBits]
      omega
    rw [round53, round53, lost]
    exact Nat.mul_le_mul_right _ (roundDiv_mono le _)

theorem le_round53 {n : Nat} (large : 2 ^ 53 ≤ n) : 2 ^ 53 ≤ round53 n := by
  have some : n ≠ 0 := by omega
  have bits : 53 ≤ n.log2 := (Nat.le_log2 some).mpr large
  exact (Nat.pow_le_pow_right (by decide) bits).trans (round53_between some).1

/-- A magnitude of 64 bits is rounded by 2¹⁰ at most. -/
theorem round53_near {n : Nat} (word : n < 2 ^ 64) :
    n ≤ round53 n + 2 ^ 10 ∧ round53 n ≤ n + 2 ^ 10 := by
  have lost : lostBits n ≤ 11 := by
    rcases Nat.eq_zero_or_pos n with rfl | some
    · decide
    · have log : n.log2 < 64 := (Nat.log2_lt some.ne').mpr word
      rw [lostBits]
      omega
  have unit : 2 ^ lostBits n ≤ 2 ^ 11 := Nat.pow_le_pow_right (by decide) lost
  have near := roundDiv_near n (Nat.two_pow_pos (lostBits n))
  rw [round53, Nat.pow_eq]
  omega

namespace Number

def rounded (m : Int) : Int := m.sign * round53 m.natAbs

theorem rounded_natCast (k : Nat) : rounded k = round53 k := by
  rcases Nat.eq_zero_or_pos k with rfl | some
  · rfl
  · rw [rounded, Int.sign_natCast_of_ne_zero some.ne', Int.natAbs_natCast, Int.one_mul]

theorem rounded_neg (m : Int) : rounded (-m) = -rounded m := by
  rw [rounded, rounded, Int.sign_neg, Int.natAbs_neg, Int.neg_mul]

theorem units_int (m : Int) : (int m).units = rounded m * (2 ^ unitExponent : Nat) := by
  rw [units, rounded, Int.natCast_mul, Int.mul_assoc, Nat.pow_eq]

/-- Numbers have the same double if they are rounded to the same number. -/
theorem units_eq_iff (m n : Int) : (int m).units = (int n).units ↔ rounded m = rounded n := by
  rw [units_int, units_int]
  exact Int.mul_eq_mul_right_iff (Int.natCast_ne_zero.mpr (Nat.two_pow_pos _).ne')

theorem rounded_mono {m n : Int} (le : m ≤ n) : rounded m ≤ rounded n := by
  obtain ⟨k, rfl | rfl⟩ := m.eq_nat_or_neg <;> obtain ⟨l, rfl | rfl⟩ := n.eq_nat_or_neg <;>
    simp only [rounded_neg, rounded_natCast]
  · have grows : round53 k ≤ round53 l := round53_mono (by omega)
    omega
  · -- both are zero
    obtain ⟨rfl, rfl⟩ : k = 0 ∧ l = 0 := by omega
    decide
  · omega
  · have grows : round53 l ≤ round53 k := round53_mono (by omega)
    omega

theorem rounded_of_lt {m : Int} (small : m.natAbs < 2 ^ 53) : rounded m = m := by
  rw [rounded, round53_of_lt small, Int.sign_mul_natAbs]

theorem natAbs_rounded (m : Int) : (rounded m).natAbs = round53 m.natAbs := by
  obtain ⟨k, rfl | rfl⟩ := m.eq_nat_or_neg
  · rw [rounded_natCast, Int.natAbs_natCast, Int.natAbs_natCast]
  · rw [rounded_neg, rounded_natCast, Int.natAbs_neg, Int.natAbs_neg, Int.natAbs_natCast,
      Int.natAbs_natCast]

theorem rounded_near {m : Int} (word : m.natAbs < 2 ^ 64) : (m - rounded m).natAbs ≤ 2 ^ 10 := by
  have near := round53_near word
  obtain ⟨k, rfl | rfl⟩ := m.eq_nat_or_neg
  · rw [Int.natAbs_natCast] at near
    rw [rounded_natCast]
    omega
  · rw [Int.natAbs_neg, Int.natAbs_natCast] at near
    rw [rounded_neg, rounded_natCast]
    omega

theorem units_mono {m n : Int} (le : m ≤ n) : (int m).units ≤ (int n).units := by
  rw [units_int, units_int]
  exact Int.mul_le_mul_of_nonneg_right (rounded_mono le) (Int.natCast_nonneg _)

/-- Different whole numbers with one double between them. -/
def Merged (m n : Int) : Prop := m ≠ n ∧ (int m).units = (int n).units

instance (m n : Int) : Decidable (Merged m n) := inferInstanceAs (Decidable (_ ∧ _))

namespace Merged

variable {m n : Int}

theorem symm (merged : Merged m n) : Merged n m := ⟨merged.1.symm, merged.2.symm⟩

/-- Below 2⁵³ every whole number has a double of its own. -/
theorem le_natAbs (merged : Merged m n) : 2 ^ 53 ≤ m.natAbs := by
  obtain ⟨different, same⟩ := merged
  rw [units_eq_iff] at same
  by_contra small
  have exact : rounded m = m := rounded_of_lt (by omega)
  have magnitude : m.natAbs = round53 n.natAbs := by rw [← natAbs_rounded, ← same, exact]
  rcases Nat.lt_or_ge n.natAbs (2 ^ 53) with other | large
  · rw [exact, rounded_of_lt other] at same
    exact different same
  · have := le_round53 large
    omega

/-- Numbers of 64 bits with one double are close to each other. -/
theorem near (merged : Merged m n) (first : m.natAbs < 2 ^ 64) (second : n.natAbs < 2 ^ 64) :
    (m - n).natAbs ≤ 2 ^ 11 := by
  have same := (units_eq_iff m n).mp merged.2
  have := rounded_near first
  have := rounded_near second
  omega

end Merged

/-- Apart from those with one double, whole numbers are ordered as their doubles are. -/
theorem compare_units {m n : Int} (apart : ¬ Merged m n) :
    compare (int m).units (int n).units = compare m n := by
  rcases Int.lt_trichotomy m n with less | rfl | greater
  · have unequal : (int m).units ≠ (int n).units := fun same => apart ⟨less.ne, same⟩
    have below := units_mono less.le
    rw [compare_lt_iff_lt.mpr less, compare_lt_iff_lt.mpr (by omega)]
  · rw [compare_eq_iff_eq.mpr rfl, compare_eq_iff_eq.mpr rfl]
  · have unequal : (int m).units ≠ (int n).units := fun same => apart ⟨greater.ne', same⟩
    have above := units_mono greater.le
    rw [compare_gt_iff_gt.mpr greater, compare_gt_iff_gt.mpr (by omega)]

end Number
end Scim
