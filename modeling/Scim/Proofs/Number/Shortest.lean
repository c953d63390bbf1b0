import Scim.Proofs.Number.Rounding

/-! The shortest decimal of a double reads back as it. Candidates are kept only if they do, and
all digits of the magnitude always do. -/
namespace Scim

theorem le_decimalLength {digits places : Nat} (h : 10 ^ places ≤ digits) :
    places < decimalLength digits := by
  rcases Nat.eq_zero_or_pos places with rfl | positive
  · exact Nat.length_toDigits_pos
  · by_contra short
    have := (Nat.length_toDigits_le_iff (by decide) positive).mp (Nat.not_lt.mp short)
    omega

theorem decimalLength_le {digits places : Nat} (positive : 0 < places) (h : digits < 10 ^ places) :
    decimalLength digits ≤ places :=
  (Nat.length_toDigits_le_iff (by decide) positive).mpr h

namespace Double

theorem magnitude_lt (x : Double) {limit : Nat} (bounded : x.shift ≤ limit) :
    x.magnitude < 2 ^ 53 * 2 ^ limit := by
  have below : x.significand < 2 ^ 53 := x.significand_lt
  calc x.magnitude < 2 ^ 53 * 2 ^ x.shift :=
        Nat.mul_lt_mul_of_pos_right below (Nat.two_pow_pos _)
    _ ≤ 2 ^ 53 * 2 ^ limit :=
        Nat.mul_le_mul_left _ (Nat.pow_le_pow_right (by decide) bounded)

theorem decimalLength_between {m limit unit low high : Nat} (some : 0 < m)
    (bounded : m < 2 ^ 53 * 2 ^ limit) (lower : Nat.pow 10 low ≤ Nat.pow 5 unit)
    (upper : Nat.pow 2 53 * Nat.pow 2 limit * Nat.pow 5 unit < Nat.pow 10 high)
    (positive : 0 < high) :
    low < decimalLength (m * Nat.pow 5 unit) ∧ decimalLength (m * Nat.pow 5 unit) ≤ high := by
  simp only [Nat.pow_eq] at *
  constructor
  · exact le_decimalLength (lower.trans (Nat.le_mul_of_pos_left _ some))
  · refine decimalLength_le positive (Nat.lt_trans ?_ upper)
    exact Nat.mul_lt_mul_of_pos_right bounded (Nat.pow_pos (by decide))

/-- Powers around the digits of all magnitudes, under names so that none is ever formed. -/
theorem powers_between : ∃ limit unit low high : Nat,
    limit = 2045 ∧ unit = unitExponent ∧ low = 750 ∧ high = 1384 ∧
      Nat.pow 10 low ≤ Nat.pow 5 unit ∧
      Nat.pow 2 53 * Nat.pow 2 limit * Nat.pow 5 unit < Nat.pow 10 high :=
  ⟨2045, 1074, 750, 1384, rfl, rfl, rfl, rfl, by decide +kernel, by decide +kernel⟩

theorem exactDecimal_place {x : Double} (some : x.magnitude ≠ 0) :
    -330 ≤ x.exactDecimal.place ∧ x.exactDecimal.place ≤ 310 := by
  obtain ⟨limit, unit, low, high, isLimit, isUnit, isLow, isHigh, lower, upper⟩ := powers_between
  have bounded := x.magnitude_lt (isLimit ▸ x.shift_le : x.shift ≤ limit)
  have between := decimalLength_between (Nat.pos_of_ne_zero some) bounded lower upper (by omega)
  have place : x.exactDecimal.place =
      decimalLength (x.magnitude * Nat.pow 5 unit) + -unit - 1 := by
    rw [isUnit]
    rfl
  have same : unit = 1074 := isUnit
  clear lower upper bounded
  omega

theorem exact_ne_zero {m : Nat} (unit : Nat) (some : m ≠ 0) : m * Nat.pow 5 unit ≠ 0 :=
  (Nat.mul_pos (Nat.pos_of_ne_zero some) (Nat.pow_pos (by decide))).ne'

theorem nearest?_exact (negative : Bool) (m unit : Nat) :
    nearest? negative
        (m * Nat.pow 5 unit * Nat.pow 10 (-(unit : Int)).toNat * Nat.pow 2 unit)
        (Nat.pow 10 (-(-(unit : Int))).toNat) = nearest? negative m 1 := by
  refine nearest?_congr (Nat.pow_pos (by decide)) Nat.one_pos ?_ negative
  simp only [Nat.pow_eq, Int.toNat_neg_natCast, Int.neg_neg, Int.toNat_natCast, Nat.pow_zero,
    Nat.mul_one, Nat.mul_assoc]
  rw [← Nat.mul_pow]

theorem reads_exactDecimal {x : Double} (some : x.magnitude ≠ 0) :
    ofDecimal? x.negative x.exactDecimal = Option.some x := by
  obtain ⟨least, greatest⟩ := exactDecimal_place some
  have digits : x.exactDecimal.digits ≠ 0 := exact_ne_zero unitExponent some
  rw [ofDecimal?, if_neg (by omega), if_neg (by omega), ← nearest?_magnitude x]
  exact nearest?_exact x.negative x.magnitude unitExponent

theorem accepts_nearer? {accepts : Decimal → Bool} {num den : Nat} {exponent : Int} {d : Decimal}
    (kept : nearer? accepts num den exponent = some d) : accepts d = true := by
  simp only [nearer?] at kept
  split at kept
  next low high =>
    cases kept
    rcases roundDiv_eq num den with below | above
    · rwa [below]
    · rwa [above]
  next low _ =>
    cases kept
    exact low
  next _ high =>
    cases kept
    exact high
  next => simp at kept

theorem reads_decimalAt? {x : Double} {count : Nat} {d : Decimal}
    (kept : x.decimalAt? count = some d) : x.reads d = true :=
  accepts_nearer? kept

/-- The decimal printed for a double denotes it. -/
theorem reads_shortest {x : Double} (some : x.magnitude ≠ 0) :
    ofDecimal? x.negative x.shortest = Option.some x := by
  simp only [shortest]
  cases found : (List.range' 1 17).findSome? x.decimalAt? with
  | none => exact reads_exactDecimal some
  | some d =>
    obtain ⟨count, _, kept⟩ := List.exists_of_findSome?_eq_some found
    have accepted := reads_decimalAt? kept
    exact eq_of_beq accepted

end Double
end Scim
