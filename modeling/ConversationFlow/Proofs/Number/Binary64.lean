import ConversationFlow.Number.Binary64
import Mathlib.Algebra.Order.Field.Power
import Mathlib.Algebra.Order.Field.Rat
import Mathlib.Data.Int.Log
import Mathlib.Data.Rat.Floor
import Mathlib.Tactic.FieldSimp
import Mathlib.Tactic.Positivity
import Mathlib.Tactic.Ring

/-!
# Rounding to binary64

The magnitude nearest to a fraction depends on the fraction alone, not on the integers that it is
written with, and the magnitude nearest to one that is a magnitude is the magnitude itself.
-/

namespace ConversationFlow

namespace Magnitude

theorem scaled_mul (k num den : Nat) (shift : Int) :
    scaled (k * num) (k * den) shift =
      (k * (scaled num den shift).1, k * (scaled num den shift).2) := by
  unfold scaled
  split
  · rw [Nat.mul_assoc]
  · rw [Nat.mul_assoc]

theorem scaled_snd_pos {num den : Nat} (hden : 0 < den) (shift : Int) :
    0 < (scaled num den shift).2 := by
  unfold scaled
  split
  · exact hden
  · exact Nat.mul_pos hden (Nat.two_pow_pos _)

theorem scaled_div (num : Nat) {den : Nat} (hden : 0 < den) (shift : Int) :
    ((scaled num den shift).1 : ℚ) / (scaled num den shift).2 = num / den * 2 ^ shift := by
  have hne : (den : ℚ) ≠ 0 := by positivity
  unfold scaled
  split
  · next hshift =>
    obtain ⟨n, rfl⟩ := Int.eq_ofNat_of_zero_le hshift
    rw [Int.toNat_natCast, zpow_natCast]
    push_cast
    ring
  · next hshift =>
    obtain ⟨n, hn⟩ : ∃ n : Nat, shift = -(n : Int) := ⟨(-shift).toNat, by omega⟩
    rw [hn, neg_neg, Int.toNat_natCast, zpow_neg, zpow_natCast]
    push_cast
    field_simp

theorem two_zpow_log2_le {n : Nat} (hn : n ≠ 0) : (2 : ℚ) ^ (n.log2 : Int) ≤ n := by
  rw [zpow_natCast]
  exact_mod_cast Nat.log2_self_le hn

theorem lt_two_zpow_log2_succ (n : Nat) : (n : ℚ) < 2 ^ ((n.log2 : Int) + 1) := by
  have hlt : n < 2 ^ (n.log2 + 1) := Nat.lt_log2_self
  rw [← Nat.cast_succ, zpow_natCast]
  exact_mod_cast hlt

/-- The only power of two that a positive number lies above and less than twice above. -/
theorem log_eq_of_le_of_lt {q : ℚ} {k : Int} (hle : (2 : ℚ) ^ k ≤ q) (hlt : q < 2 ^ (k + 1)) :
    Int.log 2 q = k := by
  have hpos : 0 < q := lt_of_lt_of_le (by positivity) hle
  have hk : k ≤ Int.log 2 q := (Int.zpow_le_iff_le_log one_lt_two hpos).1 (by exact_mod_cast hle)
  have hk' : Int.log 2 q < k + 1 :=
    (Int.lt_zpow_iff_log_lt one_lt_two hpos).1 (by exact_mod_cast hlt)
  omega

/-- The guess from the sizes of numerator and denominator is off by one at most. -/
theorem floorLog2_eq_log {num den : Nat} (hnum : num ≠ 0) (hden : den ≠ 0) :
    floorLog2 num den = Int.log 2 ((num : ℚ) / den) := by
  have hdenPos : (0 : ℚ) < den := by positivity
  have hnumLow := two_zpow_log2_le hnum
  have hnumHigh := lt_two_zpow_log2_succ num
  have hdenLow := two_zpow_log2_le hden
  have hdenHigh := lt_two_zpow_log2_succ den
  generalize hguess : (num.log2 : Int) - (den.log2 : Int) = guess
  have hlow : (2 : ℚ) ^ (guess - 1) ≤ num / den := by
    rw [le_div_iff₀ hdenPos]
    calc (2 : ℚ) ^ (guess - 1) * den
        ≤ 2 ^ (guess - 1) * 2 ^ ((den.log2 : Int) + 1) := by gcongr
      _ = 2 ^ (num.log2 : Int) := by
          rw [← zpow_add₀ two_ne_zero]
          congr 1
          omega
      _ ≤ num := hnumLow
  have hhigh : (num : ℚ) / den < 2 ^ (guess + 1) := by
    rw [div_lt_iff₀ hdenPos]
    calc (num : ℚ) < 2 ^ ((num.log2 : Int) + 1) := hnumHigh
      _ = 2 ^ (guess + 1) * 2 ^ (den.log2 : Int) := by
          rw [← zpow_add₀ two_ne_zero]
          congr 1
          omega
      _ ≤ 2 ^ (guess + 1) * den := by gcongr
  have hscaled := scaled_div num (Nat.pos_of_ne_zero hden) (-guess)
  have hpos : (0 : ℚ) < (scaled num den (-guess)).2 := by
    exact_mod_cast scaled_snd_pos (Nat.pos_of_ne_zero hden) _
  have htest : (scaled num den (-guess)).2 ≤ (scaled num den (-guess)).1 ↔
      (2 : ℚ) ^ guess ≤ num / den := by
    rw [← Nat.cast_le (α := ℚ), ← one_le_div hpos, hscaled, zpow_neg, ← div_eq_mul_inv,
      one_le_div (by positivity)]
  unfold floorLog2
  simp only [hguess]
  split
  · next hle => exact (log_eq_of_le_of_lt (htest.1 hle) hhigh).symm
  · next hlt =>
    rw [htest, not_le] at hlt
    refine (log_eq_of_le_of_lt hlow ?_).symm
    rwa [sub_add_cancel]

theorem floorLog2_mul {k num den : Nat} (hk : 0 < k) (hnum : num ≠ 0) (hden : den ≠ 0) :
    floorLog2 (k * num) (k * den) = floorLog2 num den := by
  have hkne : k ≠ 0 := Nat.ne_of_gt hk
  rw [floorLog2_eq_log (Nat.mul_ne_zero hkne hnum) (Nat.mul_ne_zero hkne hden),
    floorLog2_eq_log hnum hden]
  push_cast
  rw [mul_div_mul_left _ _ (by exact_mod_cast hkne)]

theorem roundHalfEven_mul {k : Nat} (hk : 0 < k) (num den : Nat) :
    roundHalfEven (k * num) (k * den) = roundHalfEven num den := by
  have hlt : 2 * (k * (num % den)) < k * den ↔ 2 * (num % den) < den := by
    rw [Nat.mul_left_comm, Nat.mul_lt_mul_left hk]
  have heq : 2 * (k * (num % den)) = k * den ↔ 2 * (num % den) = den := by
    rw [Nat.mul_left_comm, Nat.mul_right_inj (Nat.ne_of_gt hk)]
  unfold roundHalfEven
  simp only [Nat.mul_div_mul_left _ _ hk, Nat.mul_mod_mul_left, hlt, heq]

theorem roundHalfEven_of_eq_mul {num den quotient : Nat} (hden : 0 < den)
    (h : num = quotient * den) : roundHalfEven num den = quotient := by
  have hdiv : num / den = quotient := by rw [h, Nat.mul_div_cancel _ hden]
  have hmod : num % den = 0 := by rw [h, Nat.mul_mod_left]
  simp [roundHalfEven, hdiv, hmod, hden]

/-- A fraction may be reduced before it is rounded. -/
theorem ofRatio?_mul {k : Nat} (hk : 0 < k) (num : Nat) {den : Nat} (hden : den ≠ 0) :
    ofRatio? (k * num) (k * den) = ofRatio? num den := by
  by_cases hnum : num = 0
  · rw [hnum, Nat.mul_zero, ofRatio?, ofRatio?, if_pos rfl, if_pos rfl]
  · have hknum : k * num ≠ 0 := Nat.mul_ne_zero (Nat.ne_of_gt hk) hnum
    unfold ofRatio?
    simp only [if_neg hnum, if_neg hknum, floorLog2_mul hk hnum hden, scaled_mul,
      roundHalfEven_mul hk]

theorem ofParts?_of_magnitude (m : Magnitude) : ofParts? m.significand m.exponent = some m :=
  dif_pos m.canonical

theorem eq_zero_of_significand {m : Magnitude} (h : m.significand = 0) : m = zero := by
  obtain ⟨significand, exponent, hcanonical⟩ := m
  obtain rfl : significand = 0 := h
  obtain rfl : exponent = -1074 := by
    obtain ⟨-, -, -, hexponent | hbits⟩ := hcanonical
    · exact hexponent
    · exact absurd hbits (by decide)
  rfl

theorem ratio_div (m : Magnitude) :
    (m.ratio.1 : ℚ) / m.ratio.2 = m.significand * 2 ^ m.exponent := by
  rw [ratio, scaled_div _ Nat.one_pos, Nat.cast_one, div_one]

theorem ratio_snd_pos (m : Magnitude) : 0 < m.ratio.2 :=
  scaled_snd_pos Nat.one_pos _

theorem ratio_fst_ne_zero {m : Magnitude} (h : m.significand ≠ 0) : m.ratio.1 ≠ 0 := by
  intro hzero
  have hvalue := m.ratio_div
  rw [hzero, Nat.cast_zero, zero_div] at hvalue
  have hpos : (0 : ℚ) < m.significand * 2 ^ m.exponent := by positivity
  exact absurd hvalue hpos.ne

/-- The exponent of a magnitude is the one that its fraction is rounded with. -/
theorem exponent_eq (m : Magnitude) (h : m.significand ≠ 0) :
    max (-1074) (floorLog2 m.ratio.1 m.ratio.2 - 52) = m.exponent := by
  obtain ⟨hbound, hleast, -, hbits⟩ := m.canonical
  have hlog : floorLog2 m.ratio.1 m.ratio.2 = (m.significand.log2 : Int) + m.exponent := by
    rw [floorLog2_eq_log (ratio_fst_ne_zero h) m.ratio_snd_pos.ne', m.ratio_div]
    refine log_eq_of_le_of_lt ?_ ?_
    · rw [zpow_add₀ two_ne_zero]
      have hlow := two_zpow_log2_le h
      gcongr
    · have hhigh := lt_two_zpow_log2_succ m.significand
      rw [add_right_comm, zpow_add₀ two_ne_zero]
      gcongr
  have hlog2 : m.significand.log2 < 53 := (Nat.log2_lt h).2 hbound
  rw [hlog]
  rcases hbits with hexponent | hfull
  · omega
  · have hlog2' : 52 ≤ m.significand.log2 := (Nat.le_log2 h).2 hfull
    omega

theorem ofRatio?_ratio (m : Magnitude) : ofRatio? m.ratio.1 m.ratio.2 = some m := by
  by_cases hsignificand : m.significand = 0
  · have hratio : m.ratio.1 = 0 := by
      unfold ratio scaled
      split <;> simp [hsignificand]
    rw [ofRatio?, if_pos hratio, eq_zero_of_significand hsignificand]
  · have hpos : 0 < (scaled m.ratio.1 m.ratio.2 (-m.exponent)).2 :=
      scaled_snd_pos m.ratio_snd_pos _
    have hback : (scaled m.ratio.1 m.ratio.2 (-m.exponent)).1 =
        m.significand * (scaled m.ratio.1 m.ratio.2 (-m.exponent)).2 := by
      have hvalue := scaled_div m.ratio.1 m.ratio_snd_pos (-m.exponent)
      rw [m.ratio_div, mul_assoc, ← zpow_add₀ two_ne_zero, add_neg_cancel, zpow_zero, mul_one,
        div_eq_iff (by exact_mod_cast hpos.ne')] at hvalue
      exact_mod_cast hvalue
    have hnum := ratio_fst_ne_zero hsignificand
    have hbound : m.significand ≠ 2 ^ 53 := Nat.ne_of_lt m.canonical.1
    unfold ofRatio?
    simp only [if_neg hnum, exponent_eq m hsignificand, roundHalfEven_of_eq_mul hpos hback,
      if_neg hbound, ofParts?_of_magnitude]

end Magnitude

namespace Binary64

/-- The number that a sign and a magnitude stand for. -/
def rational (negative : Bool) (m : Magnitude) : ℚ :=
  if negative then -(m.significand * 2 ^ m.exponent) else m.significand * 2 ^ m.exponent

/-- The integer part, of the two integers next to a number the one that is nearer to zero. -/
def towardZero (q : ℚ) : Int :=
  if q < 0 then ⌈q⌉ else ⌊q⌋

theorem truncate?_finite (negative : Bool) (m : Magnitude) :
    (finite negative m).truncate? = some (towardZero (rational negative m)) := by
  have hnonneg : (0 : ℚ) ≤ m.ratio.1 / m.ratio.2 := by positivity
  have hfloor : ⌊(m.ratio.1 / m.ratio.2 : ℚ)⌋ = (m.ratio.1 / m.ratio.2 : Nat) :=
    Rat.floor_natCast_div_natCast _ _
  rw [truncate?, towardZero, rational, ← m.ratio_div]
  cases negative with
  | false => simp [signed, hfloor, not_lt.2 hnonneg]
  | true =>
    rcases hnonneg.eq_or_lt with hzero | hpos
    · rw [← hzero, Int.floor_zero] at hfloor
      simp [signed, ← hzero, ← hfloor]
    · simp [signed, hfloor, hpos, Int.ceil_neg]

end Binary64

end ConversationFlow
