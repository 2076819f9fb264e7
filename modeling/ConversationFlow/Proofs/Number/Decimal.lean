import ConversationFlow.Number.Layout
import ConversationFlow.Proofs.Number.Binary64

/-!
# Decimals that read back

A decimal is read as the same number with and without zeros at its end. The shortest decimal of a
magnitude is read as the magnitude, with either sign.
-/

namespace ConversationFlow

open Nat (toDigits)

theorem length_toDigits_mul_ten {n : Nat} (hn : 0 < n) :
    (toDigits 10 (n * 10)).length = (toDigits 10 n).length + 1 := by
  have happend := Nat.toDigits_append_toDigits (show 1 < 10 by decide) hn (show 0 < 10 by decide)
  rw [Nat.add_zero, Nat.mul_comm] at happend
  rw [← happend, List.length_append, Nat.toDigits_zero, List.length_singleton]

theorem le_length_toDigits {n k : Nat} (h : 10 ^ k ≤ n) : k < (toDigits 10 n).length := by
  by_contra hle
  rw [not_lt] at hle
  rcases Nat.eq_zero_or_pos k with rfl | hk
  · exact absurd hle (Nat.not_le.2 Nat.length_toDigits_pos)
  · exact absurd ((Nat.length_toDigits_le_iff (by decide) hk).1 hle) (Nat.not_lt.2 h)

theorem length_toDigits_le {n k : Nat} (hk : 0 < k) (h : n < 10 ^ k) : (toDigits 10 n).length ≤ k :=
  (Nat.length_toDigits_le_iff (by decide) hk).2 h

namespace Binary64

theorem ofRatio_mul {k : Nat} (hk : 0 < k) (negative : Bool) (num : Nat) {den : Nat}
    (hden : den ≠ 0) : ofRatio negative (k * num) (k * den) = ofRatio negative num den := by
  rw [ofRatio, ofRatio, Magnitude.ofRatio?_mul hk num hden]

/-- The number nearest to a decimal by its value alone, when its order is moderate. -/
def ofScientific (negative : Bool) (digits : Nat) (exponent : Int) : Binary64 :=
  if 0 ≤ exponent then ofRatio negative (digits * 10 ^ exponent.toNat) 1
  else ofRatio negative digits (10 ^ (-exponent).toNat)

theorem ofScientific_mul_ten (negative : Bool) (digits : Nat) (exponent : Int) :
    ofScientific negative (digits * 10) (exponent - 1) = ofScientific negative digits exponent := by
  unfold ofScientific
  rcases lt_trichotomy exponent 0 with hneg | rfl | hpos
  · obtain ⟨n, rfl⟩ : ∃ n : Nat, exponent = -(n : Int) := ⟨(-exponent).toNat, by omega⟩
    have hsucc : (-(-(n : Int) - 1)).toNat = n + 1 := by omega
    rw [if_neg (by omega), if_neg (by omega), hsucc, neg_neg, Int.toNat_natCast, pow_succ,
      Nat.mul_comm digits, Nat.mul_comm (10 ^ n)]
    exact ofRatio_mul (by decide) negative digits (by positivity)
  · rw [if_neg (by decide), if_pos le_rfl, Nat.mul_comm digits]
    exact (ofRatio_mul (by decide) negative digits one_ne_zero).trans (by simp)
  · obtain ⟨n, rfl⟩ : ∃ n : Nat, exponent = n + 1 := ⟨(exponent - 1).toNat, by omega⟩
    have hsucc : ((n : Int) + 1).toNat = n + 1 := by omega
    rw [if_pos (by omega), if_pos (by omega), add_sub_cancel_right, Int.toNat_natCast, hsucc,
      pow_succ, Nat.mul_assoc, Nat.mul_comm 10]

/-- The order of a decimal tells apart what is beyond all magnitudes and what is nearer to zero than
any. -/
theorem ofDecimal_eq (negative : Bool) (digits : Nat) (exponent : Int) :
    ofDecimal negative digits exponent =
      if digits = 0 ∨ exponent + (toDigits 10 digits).length < -330 then .finite negative .zero
      else if 310 < exponent + (toDigits 10 digits).length then .infinite negative
      else ofScientific negative digits exponent :=
  rfl

theorem ofDecimal_of_moderate (negative : Bool) {digits : Nat} {exponent : Int}
    (hdigits : digits ≠ 0) (hleast : -330 ≤ exponent + (toDigits 10 digits).length)
    (hgreatest : exponent + (toDigits 10 digits).length ≤ 310) :
    ofDecimal negative digits exponent = ofScientific negative digits exponent := by
  rw [ofDecimal_eq, if_neg (not_or.2 ⟨hdigits, by omega⟩), if_neg (by omega)]

theorem ofDecimal_mul_ten (negative : Bool) (digits : Nat) (exponent : Int) :
    ofDecimal negative (digits * 10) (exponent - 1) = ofDecimal negative digits exponent := by
  rw [ofDecimal_eq, ofDecimal_eq]
  rcases Nat.eq_zero_or_pos digits with rfl | hpos
  · rw [if_pos (by simp), if_pos (by simp)]
  · have horder : exponent - 1 + ((toDigits 10 (digits * 10)).length : Int) =
        exponent + (toDigits 10 digits).length := by
      rw [length_toDigits_mul_ten hpos]
      omega
    have hzero : digits * 10 = 0 ↔ digits = 0 := by omega
    rw [horder, ofScientific_mul_ten]
    simp only [hzero]

theorem ofDecimal_mul_pow (negative : Bool) (digits : Nat) (exponent : Int) (zeros : Nat) :
    ofDecimal negative (digits * 10 ^ zeros) (exponent - zeros) =
      ofDecimal negative digits exponent := by
  induction zeros with
  | zero => simp
  | succ zeros ih =>
    rw [pow_succ, ← Nat.mul_assoc, Nat.cast_succ, ← sub_sub, ofDecimal_mul_ten, ih]

theorem ofDecimal_zero (negative : Bool) (exponent : Int) :
    ofDecimal negative 0 exponent = .finite negative .zero := by
  rw [ofDecimal_eq, if_pos (.inl rfl)]

/-- The sign has no part in the rounding. -/
theorem ofDecimal_sign {digits : Nat} {exponent : Int} {m : Magnitude}
    (h : ofDecimal false digits exponent = .finite false m) (negative : Bool) :
    ofDecimal negative digits exponent = .finite negative m := by
  have hratio (num den : Nat) (hround : ofRatio false num den = .finite false m) :
      ofRatio negative num den = .finite negative m := by
    unfold ofRatio at hround ⊢
    cases hmagnitude : Magnitude.ofRatio? num den with
    | none => simp [hmagnitude] at hround
    | some other => simpa [hmagnitude] using hround
  rw [ofDecimal_eq] at h ⊢
  split at h
  · next hsmall => simpa [hsmall] using h
  · next hsmall =>
    rw [if_neg hsmall]
    split at h
    · cases h
    · next hlarge =>
      rw [if_neg hlarge]
      unfold ofScientific at h ⊢
      split at h
      · next hexponent => rw [if_pos hexponent]; exact hratio _ _ h
      · next hexponent => rw [if_neg hexponent]; exact hratio _ _ h

end Binary64

namespace Decimal

def ReadsAs (d : Decimal) (m : Magnitude) : Prop :=
  Binary64.ofDecimal false d.digits d.exponent = .finite false m

theorem readsAs_iff {d : Decimal} {m : Magnitude} : d.readsAs m = true ↔ d.ReadsAs m :=
  decide_eq_true_iff

theorem ofDecimal_stripped (negative : Bool) (d : Decimal) :
    Binary64.ofDecimal negative d.stripped.digits d.stripped.exponent =
      Binary64.ofDecimal negative d.digits d.exponent := by
  fun_induction stripped d with
  | case1 d h ih =>
    rw [ih]
    have hdigits : d.digits / 10 * 10 = d.digits := Nat.div_mul_cancel (Nat.dvd_of_mod_eq_zero h.2)
    have hten := Binary64.ofDecimal_mul_ten negative (d.digits / 10) (d.exponent + 1)
    rw [hdigits, add_sub_cancel_right] at hten
    exact hten.symm
  | case2 d h => rfl

end Decimal

namespace Magnitude

theorem ratio_of_nonneg {m : Magnitude} (h : 0 ≤ m.exponent) :
    m.ratio = (m.significand * 2 ^ m.exponent.toNat, 1) := by
  rw [ratio, scaled, if_pos h]

theorem ratio_of_neg {m : Magnitude} (h : ¬0 ≤ m.exponent) :
    m.ratio = (m.significand, 2 ^ (-m.exponent).toNat) := by
  rw [ratio, scaled, if_neg h, Nat.one_mul]

theorem length_toDigits_exact_of_nonneg {m : Magnitude} (h : 0 ≤ m.exponent) :
    (toDigits 10 (m.significand * 2 ^ m.exponent.toNat)).length ≤ 310 := by
  obtain ⟨hbound, -, hgreatest, -⟩ := m.canonical
  refine length_toDigits_le (by decide) ?_
  have hpow : 2 ^ m.exponent.toNat ≤ 2 ^ 971 := by
    gcongr
    · decide
    · omega
  calc m.significand * 2 ^ m.exponent.toNat
      ≤ m.significand * 2 ^ 971 := Nat.mul_le_mul_left _ hpow
    _ ≤ 2 ^ 53 * 2 ^ 971 := Nat.mul_le_mul_right _ hbound.le
    _ < 10 ^ 310 := by decide +kernel

theorem length_toDigits_exact_le {m : Magnitude} (k : Nat) :
    (toDigits 10 (m.significand * 5 ^ k)).length ≤ 310 + k := by
  refine length_toDigits_le (by omega) ?_
  have hsmall : m.significand < 10 ^ 310 := lt_trans m.canonical.1 (by decide +kernel)
  have hpow : 5 ^ k ≤ 10 ^ k := Nat.pow_le_pow_left (by decide) k
  rw [pow_add]
  exact Nat.mul_lt_mul_of_lt_of_le hsmall hpow (by positivity)

/-- Each power of five has so many digits that the decimal lies above the least order. -/
theorem lt_length_toDigits_exact {m : Magnitude} (hpos : 0 < m.significand) {k : Nat}
    (hk : k ≤ 1074) : k < (toDigits 10 (m.significand * 5 ^ k)).length + 331 := by
  rcases Nat.lt_or_ge k 331 with hsmall | hlarge
  · omega
  · obtain ⟨j, rfl⟩ : ∃ j, k = j + 331 := ⟨k - 331, by omega⟩
    have htwo : 2 ^ j ≤ 2 ^ 743 := by
      gcongr
      · decide
      · omega
    have hpow : 10 ^ j ≤ m.significand * 5 ^ (j + 331) := by
      calc 10 ^ j = 2 ^ j * 5 ^ j := by rw [← Nat.mul_pow]
        _ ≤ 2 ^ 743 * 5 ^ j := Nat.mul_le_mul_right _ htwo
        _ ≤ 5 ^ 331 * 5 ^ j := Nat.mul_le_mul_right _ (by decide +kernel)
        _ = 5 ^ (j + 331) := by rw [← pow_add, Nat.add_comm]
        _ ≤ m.significand * 5 ^ (j + 331) := Nat.le_mul_of_pos_left _ hpos
    have hlength := le_length_toDigits hpow
    omega

theorem readsAs_exact_of_nonneg {m : Magnitude} (hpos : 0 < m.significand) (h : 0 ≤ m.exponent) :
    m.exact.ReadsAs m := by
  have hratio := ofRatio?_ratio m
  rw [ratio_of_nonneg h] at hratio
  have hlength := length_toDigits_exact_of_nonneg h
  have hne : m.significand * 2 ^ m.exponent.toNat ≠ 0 := by positivity
  rw [exact, if_pos h]
  change Binary64.ofDecimal false (m.significand * 2 ^ m.exponent.toNat) 0 = _
  rw [Binary64.ofDecimal_of_moderate false hne (by omega) (by omega), Binary64.ofScientific,
    if_pos le_rfl, Int.toNat_zero, pow_zero, Nat.mul_one, Binary64.ofRatio, hratio]

theorem readsAs_exact_of_neg {m : Magnitude} (hpos : 0 < m.significand) (h : ¬0 ≤ m.exponent) :
    m.exact.ReadsAs m := by
  obtain ⟨k, hk⟩ : ∃ k : Nat, m.exponent = -(k : Int) := ⟨(-m.exponent).toNat, by omega⟩
  have hcast : (-m.exponent).toNat = k := by omega
  have hratio := ofRatio?_ratio m
  rw [ratio_of_neg h, hcast] at hratio
  have hleast : k ≤ 1074 := by
    have hexponent := m.canonical.2.1
    omega
  have hlower := lt_length_toDigits_exact hpos hleast
  have hupper : (toDigits 10 (m.significand * 5 ^ k)).length ≤ 310 + k :=
    length_toDigits_exact_le k
  have hne : m.significand * 5 ^ k ≠ 0 := by positivity
  have hten : 10 ^ k = 5 ^ k * 2 ^ k := by rw [← Nat.mul_pow]
  rw [exact, if_neg h, hcast, hk]
  change Binary64.ofDecimal false (m.significand * 5 ^ k) (-(k : Int)) = _
  rw [Binary64.ofDecimal_of_moderate false hne (by omega) (by omega)]
  -- the fraction of the decimal is the one of the magnitude, extended by a power of five
  rw [Binary64.ofScientific, if_neg (by omega), neg_neg, Int.toNat_natCast, hten,
    Nat.mul_comm m.significand, Binary64.ofRatio_mul (by positivity) _ _ (by positivity),
    Binary64.ofRatio, hratio]

/-- The decimal that is equal to a magnitude is read as it: its order is moderate, and its fraction
is the one of the magnitude. -/
theorem readsAs_exact (m : Magnitude) : m.exact.ReadsAs m := by
  rcases Nat.eq_zero_or_pos m.significand with hzero | hpos
  · have hdigits : m.exact.digits = 0 := by
      unfold exact
      split <;> simp [hzero]
    rw [Decimal.ReadsAs, hdigits, Binary64.ofDecimal_zero, eq_zero_of_significand hzero]
  · by_cases hexponent : 0 ≤ m.exponent
    · exact readsAs_exact_of_nonneg hpos hexponent
    · exact readsAs_exact_of_neg hpos hexponent

/-- Whichever decimal is found, it is read as the magnitude, and so it is without the zeros at its
end. -/
theorem readsAs_shortest (m : Magnitude) : m.shortest.ReadsAs m := by
  unfold shortest
  rw [Decimal.ReadsAs, Decimal.ofDecimal_stripped]
  cases hfound : (List.range 17).findSome? fun k =>
      (neighbours m.exact ((toDigits 10 m.exact.digits).length - (k + 1))).find? (·.readsAs m) with
  | none => exact readsAs_exact m
  | some d =>
    obtain ⟨k, -, hd⟩ := List.exists_of_findSome?_eq_some hfound
    have hreads : d.readsAs m = true := by simpa using List.find?_some hd
    exact Decimal.readsAs_iff.1 hreads

end Magnitude

end ConversationFlow
