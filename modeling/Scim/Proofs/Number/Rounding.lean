import Mathlib.Tactic.Ring
import Scim.Number.Decimal

/-! What a decimal denotes depends on its value alone, and every double is denoted by its own
magnitude. -/
namespace Scim

theorem roundDiv_mul_right {factor : Nat} (positive : 0 < factor) (num den : Nat) :
    roundDiv (num * factor) (den * factor) = roundDiv num den := by
  have half : den * factor < 2 * (num % den * factor) ↔ den < 2 * (num % den) := by
    rw [← Nat.mul_assoc]
    exact Nat.mul_lt_mul_right positive
  have tie : 2 * (num % den * factor) = den * factor ↔ 2 * (num % den) = den := by
    rw [← Nat.mul_assoc]
    exact Nat.mul_left_inj (by omega)
  simp only [roundDiv, Nat.mul_mod_mul_right, Nat.mul_div_mul_right _ _ positive, half, tie]

theorem roundDiv_mul_self {den : Nat} (positive : 0 < den) (num : Nat) :
    roundDiv (num * den) den = num := by
  simp [roundDiv, Nat.mul_div_cancel _ positive, positive.ne]

theorem log2_mul_pow {n : Nat} (some : n ≠ 0) (power : Nat) :
    (n * 2 ^ power).log2 = n.log2 + power := by
  have scaled : n * 2 ^ power ≠ 0 :=
    (Nat.mul_pos (Nat.pos_of_ne_zero some) (Nat.two_pow_pos _)).ne'
  rw [Nat.log2_eq_iff scaled]
  constructor
  · rw [Nat.pow_add]
    exact Nat.mul_le_mul_right _ (Nat.log2_self_le some)
  · rw [show n.log2 + power + 1 = n.log2 + 1 + power by omega, Nat.pow_add]
    exact Nat.mul_lt_mul_of_pos_right Nat.lt_log2_self (Nat.two_pow_pos _)

theorem roundDiv_eq (num den : Nat) :
    roundDiv num den = num / den ∨ roundDiv num den = num / den + 1 := by
  simp only [roundDiv]
  split
  · exact .inr rfl
  · exact .inl rfl

namespace Double

theorem nearest?_mul_right {factor : Nat} (positive : 0 < factor) (negative : Bool)
    (num den : Nat) :
    nearest? negative (num * factor) (den * factor) = nearest? negative num den := by
  have shifted (power : Nat) : den * factor * power = den * power * factor := by ring
  simp only [nearest?, Nat.mul_div_mul_right _ _ positive, shifted, roundDiv_mul_right positive]

/-- Equal fractions have the same nearest double. -/
theorem nearest?_congr {num den num' den' : Nat} (positive : 0 < den) (positive' : 0 < den')
    (same : num * den' = num' * den) (negative : Bool) :
    nearest? negative num den = nearest? negative num' den' := by
  rw [← nearest?_mul_right positive' negative num den, same, Nat.mul_comm den den',
    nearest?_mul_right positive]

theorem ofParts?_self (x : Double) : ofParts? x.negative x.significand x.shift = some x :=
  dif_pos ⟨x.significand_lt, x.normal, x.shift_le⟩

/-- A magnitude loses exactly the bits that its double has shifted in. -/
theorem lostBits_magnitude (x : Double) : lostBits x.magnitude = x.shift := by
  have below : x.significand < 2 ^ 53 := x.significand_lt
  rcases x.normal with unshifted | normal
  · by_cases zero : x.significand = 0
    · simp [lostBits, magnitude, zero, unshifted]
    · have := (Nat.log2_lt zero).mpr below
      simp only [lostBits, magnitude, unshifted, Nat.pow_eq, Nat.pow_zero, Nat.mul_one]
      omega
  · have least : 2 ^ 52 ≤ x.significand := normal
    have some : x.significand ≠ 0 := by omega
    have bits : x.significand.log2 = 52 := (Nat.log2_eq_iff some).mpr ⟨least, below⟩
    simp only [lostBits, magnitude, Nat.pow_eq, log2_mul_pow some, bits]
    omega

theorem nearest?_magnitude (x : Double) : nearest? x.negative x.magnitude 1 = some x := by
  have whole : roundDiv x.magnitude (1 * Nat.pow 2 x.shift) = x.significand := by
    rw [Nat.one_mul]
    exact roundDiv_mul_self (Nat.two_pow_pos _) _
  simp only [nearest?, Nat.div_one, lostBits_magnitude, whole, x.significand_lt.ne, if_false,
    ofParts?_self]

theorem eq_zero_of_magnitude {x : Double} (none : x.magnitude = 0) : x = zero x.negative := by
  have significand : x.significand = 0 := by
    rcases Nat.mul_eq_zero.mp none with absent | power
    · exact absent
    · exact absurd power (Nat.two_pow_pos _).ne'
  have shift : x.shift = 0 := by
    rcases x.normal with unshifted | normal
    · exact unshifted
    · simp [significand, normalSignificand] at normal
  cases x
  simp_all [zero]

theorem decimalLength_mul_pow {digits : Nat} (positive : 0 < digits) (zeros : Nat) :
    decimalLength (digits * 10 ^ zeros) = decimalLength digits + zeros := by
  induction zeros with
  | zero => simp
  | succ zeros ih =>
    have more : 10 ≤ digits * 10 ^ (zeros + 1) := by
      have := Nat.mul_pos positive (Nat.pow_pos (n := zeros) (by decide : 0 < 10))
      rw [Nat.pow_succ, ← Nat.mul_assoc]
      omega
    have shorter : digits * 10 ^ (zeros + 1) / 10 = digits * 10 ^ zeros := by
      rw [Nat.pow_succ, ← Nat.mul_assoc, Nat.mul_div_cancel _ (by decide)]
    simp only [decimalLength] at ih ⊢
    rw [Nat.toDigits_of_base_le (by decide) more, List.length_append, shorter, ih]
    rfl

/-- Zeros moved from the digits to the exponent denote the same double. -/
theorem ofDecimal?_zeros (negative : Bool) (digits zeros : Nat) (exponent : Int) :
    ofDecimal? negative ⟨digits * 10 ^ zeros, exponent⟩ =
      ofDecimal? negative ⟨digits, exponent + zeros⟩ := by
  by_cases none : digits = 0
  · simp [ofDecimal?, none]
  · have positive : 0 < digits := Nat.pos_of_ne_zero none
    have kept : digits * 10 ^ zeros ≠ 0 :=
      (Nat.mul_pos positive (Nat.pow_pos (by decide))).ne'
    have place : Decimal.place ⟨digits * 10 ^ zeros, exponent⟩ =
        Decimal.place ⟨digits, exponent + zeros⟩ := by
      simp only [Decimal.place, decimalLength_mul_pow positive]
      omega
    have powers : 10 ^ zeros * 10 ^ exponent.toNat * 10 ^ (-(exponent + zeros)).toNat =
        10 ^ (exponent + zeros).toNat * 10 ^ (-exponent).toNat := by
      rw [← Nat.pow_add, ← Nat.pow_add, ← Nat.pow_add]
      congr 1
      omega
    have same : digits * 10 ^ zeros * 10 ^ exponent.toNat * 2 ^ unitExponent *
          10 ^ (-(exponent + zeros)).toNat =
        digits * 10 ^ (exponent + zeros).toNat * 2 ^ unitExponent * 10 ^ (-exponent).toNat := by
      generalize 2 ^ unitExponent = unit
      calc digits * 10 ^ zeros * 10 ^ exponent.toNat * unit * 10 ^ (-(exponent + zeros)).toNat
          = digits * unit *
              (10 ^ zeros * 10 ^ exponent.toNat * 10 ^ (-(exponent + zeros)).toNat) := by ring
        _ = digits * unit * (10 ^ (exponent + zeros).toNat * 10 ^ (-exponent).toNat) := by
              rw [powers]
        _ = _ := by ring
    have nearest := nearest?_congr (Nat.pow_pos (by decide)) (Nat.pow_pos (by decide)) same negative
    simp only [ofDecimal?, none, kept, place, Nat.pow_eq, nearest]

end Double
end Scim
