import ConversationFlow.Proofs.Schema.Accepted

/-!
# Completed objects

A field may be given under two keys. If it is given under neither, a value can be put in under its
plain spelling: then the field has that value, and all other fields and all keys that are refused stay
what they were, provided that no other field is given under that spelling.
-/

namespace ConversationFlow.Schema

/-- The keys under which a field may be given. -/
def Key.spellings (key : Key) : List Text :=
  [key.document, key.plain]

namespace Fields

variable {f g : Fields} {key other : Key} {v : Json}

theorem find?_eq_none_iff :
    f.find? key = none ↔ ∀ spelling ∈ key.spellings, spelling ∉ f.entries.map Prod.fst := by
  simp only [Key.spellings, List.forall_mem_cons, List.not_mem_nil, false_imp_iff, implies_true,
    and_true, ← lookup_eq_none_iff_notMem]
  unfold find?
  cases f.entries.lookup key.document <;> simp

theorem mem_spellings_of_find? {spelling : Text} (h : f.find? key = some (spelling, v)) :
    spelling ∈ key.spellings := by
  simpa [Key.spellings] using spelling_of_find? h

theorem lookup_of_find? {spelling : Text} (h : f.find? key = some (spelling, v)) :
    f.entries.lookup spelling = some v := by
  unfold find? at h
  split at h
  · next hlookup =>
    cases h
    exact hlookup
  · obtain ⟨w, hlookup, heq⟩ := Option.map_eq_some_iff.1 h
    cases heq
    exact hlookup

/-! ### A value for a field that is not given -/

/-- The fields with a value under the plain spelling of a field that is not given. -/
def complete (f : Fields) (key : Key) (v : Json) : Fields :=
  if (f.find? key).isSome then f else ⟨f.entries ++ [(key.plain, v)]⟩

theorem complete_of_given (h : (f.find? key).isSome) : f.complete key v = f :=
  if_pos h

theorem complete_of_absent (h : f.find? key = none) :
    f.complete key v = ⟨f.entries ++ [(key.plain, v)]⟩ := by
  rw [complete, h]
  rfl

theorem lookup_complete_of_ne {spelling : Text} (h : spelling ≠ key.plain) :
    (f.complete key v).entries.lookup spelling = f.entries.lookup spelling := by
  cases hfind : f.find? key with
  | some found => rw [complete_of_given (by rw [hfind]; rfl)]
  | none =>
    rw [complete_of_absent hfind, List.lookup_append, List.lookup_cons, beq_false_of_ne h,
      List.lookup_nil, Option.or_none]

theorem find?_complete_of_ne (h : key.plain ∉ other.spellings) :
    (f.complete key v).find? other = f.find? other := by
  simp only [Key.spellings, List.mem_cons, List.not_mem_nil, or_false, not_or] at h
  rw [find?, find?, lookup_complete_of_ne (Ne.symm h.1), lookup_complete_of_ne (Ne.symm h.2)]

theorem find?_complete : (f.complete key v).find? key = some ((f.find? key).getD (key.plain, v)) := by
  cases hfind : f.find? key with
  | some found =>
    rw [complete_of_given (by rw [hfind]; rfl), hfind, Option.getD_some]
  | none =>
    have hplain : f.entries.lookup key.plain = none :=
      lookup_eq_none_iff_notMem.2 (find?_eq_none_iff.1 hfind _ (by simp [Key.spellings]))
    have hput : (f.complete key v).entries.lookup key.plain = some v := by
      rw [complete_of_absent hfind, List.lookup_append, hplain]
      simp
    rw [find?, hput, Option.getD_none]
    by_cases hsame : key.document = key.plain
    · rw [hsame, hput]
    · rw [lookup_complete_of_ne hsame,
        lookup_eq_none_iff_notMem.2 (find?_eq_none_iff.1 hfind _ (by simp [Key.spellings]))]
      rfl

/-- The value that was put in is used, and takes the place of no other field. -/
theorem mem_used_complete_iff {keys : List Key} (hkey : key ∈ keys)
    (hapart : ∀ other ∈ keys, other ≠ key → key.plain ∉ other.spellings)
    (h : f.find? key = none) (spelling : Text) :
    spelling ∈ (f.complete key v).used keys ↔ spelling = key.plain ∨ spelling ∈ f.used keys := by
  simp only [used, List.mem_filterMap]
  constructor
  · rintro ⟨other, hother, hspelling⟩
    by_cases hsame : other = key
    · subst hsame
      rw [find?_complete, h] at hspelling
      exact .inl (Option.some.inj hspelling).symm
    · rw [find?_complete_of_ne (hapart other hother hsame)] at hspelling
      exact .inr ⟨other, hother, hspelling⟩
  · rintro (rfl | ⟨other, hother, hspelling⟩)
    · refine ⟨key, hkey, ?_⟩
      rw [find?_complete, h]
      rfl
    · refine ⟨other, hother, ?_⟩
      by_cases hsame : other = key
      · rw [hsame, h] at hspelling
        cases hspelling
      · rwa [find?_complete_of_ne (hapart other hother hsame)]

/-- No other key is refused once a field is completed. -/
theorem closed_complete {keys : List Key} (hkey : key ∈ keys)
    (hapart : ∀ other ∈ keys, other ≠ key → key.plain ∉ other.spellings) :
    (f.complete key v).closed keys = f.closed keys := by
  cases hfind : f.find? key with
  | some found => rw [complete_of_given (by rw [hfind]; rfl)]
  | none =>
    have hused := mem_used_complete_iff (v := v) hkey hapart hfind
    have hextra : (f.complete key v).entries.filter
        (fun entry => entry.1 ∉ (f.complete key v).used keys) =
          f.entries.filter fun entry => entry.1 ∉ f.used keys := by
      have hput : key.plain ∈ (f.complete key v).used keys := (hused _).2 (.inl rfl)
      have hentries : (f.complete key v).entries = f.entries ++ [(key.plain, v)] := by
        rw [complete_of_absent hfind]
      rw [hentries, List.filter_append, List.filter_cons_of_neg (by simpa using hput),
        List.filter_nil, List.append_nil]
      refine List.filter_congr fun entry hentry => ?_
      have hother : entry.1 ≠ key.plain := by
        intro hplain
        refine find?_eq_none_iff.1 hfind key.plain (by simp [Key.spellings]) ?_
        exact List.mem_map.2 ⟨entry, hentry, hplain⟩
      simp only [hused, hother, false_or]
    simp only [closed, hextra]

/-- A field whose plain spelling is a text of characters alone can be completed without a complaint. -/
theorem spelled_complete (hplain : key.plain.isWhole = true) :
    (f.complete key v).spelled = f.spelled := by
  cases hfind : f.find? key with
  | some found => rw [complete_of_given (by rw [hfind]; rfl)]
  | none =>
    have hlast : [(key.plain, v)].find? (fun entry => !entry.1.isWhole) = none := by
      simp [hplain]
    rw [complete_of_absent hfind, spelled, spelled, List.find?_append, hlast, Option.or_none]

/-- A field that has to be given is read in a completed object as it is read with a default. -/
theorem required_of_completed {α : Type} {read : Json → Reading α} {a : α}
    (hfind : g.find? key = some ((f.find? key).getD (key.plain, v))) (hread : read v = .accepted a) :
    g.required key read = f.defaulted key a read := by
  rw [required, defaulted, hfind]
  cases f.find? key with
  | some found => rfl
  | none => simp [hread, Reading.under]

end Fields

end ConversationFlow.Schema
