import ConversationFlow.Text.Blank
import ConversationFlow.Text.Digit
import ConversationFlow.Text.Lowercase

/-!
# Characters in ASCII

What the tables of digits and of cases say of ASCII. A text in ASCII loses the case of its letters and
nothing else. Beyond ASCII two characters have a lower case with an ASCII letter in it: the Kelvin
sign and the dotted capital I. So a text without these two letters is the lower case of exactly the
texts that differ from it in the case of ASCII letters.
-/

namespace ConversationFlow.Text

theorem toNat_ofNat {n : Nat} (h : n.isValidChar) : (Char.ofNat n).toNat = n := by
  rw [Char.ofNat, dif_pos h]
  rfl

theorem forall_ascii {P : Char → Prop} (h : ∀ n < 128, P (Char.ofNat n)) {c : Char}
    (hc : c.toNat < 128) : P c := by
  have hn := h c.toNat hc
  rwa [Char.ofNat_toNat] at hn

theorem toNat_lt_of_isDigit {c : Char} (hc : c.isDigit = true) : c.toNat < 128 := by
  rw [Char.isDigit, Bool.and_eq_true, decide_eq_true_iff, decide_eq_true_iff] at hc
  have hlast : c.toNat ≤ 57 := hc.2
  omega

theorem digitValue?_of_isDigit {c : Char} (hc : c.isDigit = true) :
    digitValue? c = some (c.toNat - '0'.toNat) :=
  forall_ascii (P := fun c => c.isDigit = true → digitValue? c = some (c.toNat - '0'.toNat))
    (by decide) (toNat_lt_of_isDigit hc) hc

/-- The runs beyond ASCII come to characters beyond ASCII, save for the Kelvin sign. -/
theorem shift_of_mem_caseRuns : ∀ run ∈ caseRuns,
    run.first = 0x41 ∧ run.last = 0x5A ∧ run.shift = 32 ∨
    run.first = 0x212A ∧ run.last = 0x212A ∧ run.shift = -8383 ∨
    128 ≤ run.first ∧ 128 ≤ run.first + run.shift ∧ run.last + run.shift < 0xD800 ∨
    128 ≤ run.first ∧ 0xDFFF < run.first + run.shift ∧ run.last + run.shift < 0x110000 := by
  decide +kernel

theorem bounds_of_find? {n : Nat} {run : CaseRun}
    (h : caseRuns.find? (·.holds n) = some run) : run.first ≤ n ∧ n ≤ run.last := by
  have hholds := (List.find?_eq_some_iff_append.1 h).1
  simp only [CaseRun.holds, Bool.and_eq_true, decide_eq_true_iff] at hholds
  exact hholds.1

theorem toLower_of_ascii {c : Char} : c.toNat < 128 →
    c.toLower = if 0x41 ≤ c.toNat ∧ c.toNat ≤ 0x5A then Char.ofNat (c.toNat + 32) else c :=
  forall_ascii (P := fun c => c.toLower =
    if 0x41 ≤ c.toNat ∧ c.toNat ≤ 0x5A then Char.ofNat (c.toNat + 32) else c) (by decide +kernel)

theorem lowerChar_of_ascii {c : Char} (hc : c.toNat < 128) : lowerChar c = [c.toLower] := by
  rw [lowerChar, if_neg (by omega), toLower_of_ascii hc]
  cases hfind : caseRuns.find? (·.holds c.toNat) with
  | some run =>
    obtain ⟨hfirst, hlast⟩ := bounds_of_find? hfind
    obtain ⟨hA, hZ, hshift⟩ : run.first = 0x41 ∧ run.last = 0x5A ∧ run.shift = 32 := by
      rcases shift_of_mem_caseRuns run (List.mem_of_find?_eq_some hfind) with
        hrun | hrun | hrun | hrun
      · exact hrun
      all_goals omega
    have hcode : (c.toNat + run.shift).toNat = c.toNat + 32 := by omega
    rw [if_pos (by omega), ← hcode]
  | none =>
    have hcapital : ¬(0x41 ≤ c.toNat ∧ c.toNat ≤ 0x5A) := by
      have hnone := List.find?_eq_none.1 hfind ⟨0x41, 0x5A, 1, 32⟩ List.mem_cons_self
      simpa [CaseRun.holds, Nat.mod_one] using hnone
    rw [if_neg hcapital]

theorem toLower_of_not_ascii {c : Char} (hc : 128 ≤ c.toNat) : c.toLower = c := by
  refine dif_neg ?_
  rintro ⟨-, hle⟩
  have hlast : c.toNat ≤ 90 := hle
  omega

/-- What a character beyond ASCII has in ASCII as its lower case. -/
theorem of_mem_lowerChar {c d : Char} (hc : 128 ≤ c.toNat) (hd : d ∈ lowerChar c) :
    128 ≤ d.toNat ∨ d = 'i' ∨ d = 'k' := by
  unfold lowerChar at hd
  split at hd
  · rw [List.mem_cons, List.mem_singleton] at hd
    rcases hd with rfl | rfl
    · exact .inr (.inl rfl)
    · exact .inl (by decide)
  · split at hd
    · next run hrun =>
      obtain rfl := List.mem_singleton.1 hd
      obtain ⟨hfirst, hlast⟩ := bounds_of_find? hrun
      rcases shift_of_mem_caseRuns run (List.mem_of_find?_eq_some hrun) with
        ⟨-, hascii, -⟩ | ⟨hkelvin, hkelvin', hshift⟩ | ⟨-, hlow, hhigh⟩ | ⟨-, hlow, hhigh⟩
      · omega
      · have hcode : (c.toNat + run.shift).toNat = 0x6B := by omega
        rw [hcode]
        exact .inr (.inr rfl)
      · left
        rw [toNat_ofNat (.inl (by omega))]
        omega
      · left
        rw [toNat_ofNat (.inr (by omega))]
        omega
    · obtain rfl := List.mem_singleton.1 hd
      exact .inl hc

theorem lowerChar_ne_nil (c : Char) : lowerChar c ≠ [] := by
  unfold lowerChar
  repeat' split
  all_goals simp

/-- The characters that only ASCII letters have as their lower case, or that are in ASCII and have no
case. -/
def IsPlain (c : Char) : Prop :=
  c.toNat < 128 ∧ c ≠ 'i' ∧ c ≠ 'k'

instance (c : Char) : Decidable (IsPlain c) :=
  inferInstanceAs (Decidable (_ ∧ _))

theorem not_isPlain_of_mem_lowerChar {c d : Char} (hc : 128 ≤ c.toNat) (hd : d ∈ lowerChar c) :
    ¬IsPlain d := by
  rintro ⟨hascii, hi, hk⟩
  rcases of_mem_lowerChar hc hd with hbeyond | rfl | rfl
  · omega
  · exact hi rfl
  · exact hk rfl

theorem lowerFrom_of_ascii {before rest : List Char} {c : Char} (hc : c.toNat < 128) :
    lowerFrom before (c :: rest) = c.toLower :: lowerFrom (c :: before) rest := by
  have hsigma : c.toNat ≠ 0x3A3 := by omega
  simp [lowerFrom, hsigma, lowerChar_of_ascii hc]

/-- The lower case of a text that starts beyond ASCII starts with a character that is not plain. -/
theorem exists_lowerFrom_of_not_ascii (before rest : List Char) {c : Char} (hc : 128 ≤ c.toNat) :
    ∃ d more, lowerFrom before (c :: rest) = d :: more ∧ ¬IsPlain d := by
  rw [lowerFrom]
  split
  · exact ⟨Char.ofNat 0x3C2, _, rfl, by decide⟩
  · cases hlowered : lowerChar c with
    | nil => exact absurd hlowered (lowerChar_ne_nil c)
    | cons d more =>
      exact ⟨d, _, rfl, not_isPlain_of_mem_lowerChar hc (by simp [hlowered])⟩

/-- A plain text is the lower case of the texts that it is with the case of ASCII letters changed,
and of no others. -/
theorem lowerFrom_eq_iff {before cs word : List Char} (hword : ∀ c ∈ word, IsPlain c) :
    lowerFrom before cs = word ↔ cs.map Char.toLower = word := by
  induction cs generalizing before word with
  | nil => rfl
  | cons c rest ih =>
    rcases Nat.lt_or_ge c.toNat 128 with hc | hc
    · rw [lowerFrom_of_ascii hc, List.map_cons]
      cases word with
      | nil => simp
      | cons d word =>
        rw [List.cons.injEq, List.cons.injEq, ih (List.forall_mem_cons.1 hword).2]
    · -- neither side holds, as both sides start with a character that is not plain
      obtain ⟨d, more, hlower, hd⟩ := exists_lowerFrom_of_not_ascii before rest hc
      rw [hlower, List.map_cons, toLower_of_not_ascii hc]
      refine iff_of_false ?_ ?_
      · rintro rfl
        exact hd (hword d List.mem_cons_self)
      · rintro rfl
        have hplain := (hword c List.mem_cons_self).1
        omega

/-- Two texts are the same up to the case of ASCII letters. -/
def SameUpToCase (s t : Text) : Prop :=
  foldCase s = foldCase t

instance (s t : Text) : Decidable (SameUpToCase s t) :=
  inferInstanceAs (Decidable (_ = _))

theorem lower_eq_iff {s : Text} {word : String} (hword : ∀ c ∈ word.toList, IsPlain c) :
    lower s = word ↔ foldCase s = word := by
  cases s with
  | whole s =>
    rw [lower, foldCase, mapRuns, mapRuns, whole.injEq, whole.injEq, ← String.toList_inj,
      ← String.toList_inj, String.toList_ofList, String.toList_ofList, lowerFrom_eq_iff hword]
  | broken => exact iff_of_false nofun nofun

end ConversationFlow.Text
