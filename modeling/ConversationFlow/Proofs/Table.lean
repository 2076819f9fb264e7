import ConversationFlow.Table
import Mathlib.Data.List.Forall2
import Mathlib.Data.List.Nodup

/-!
# Look-up in tables

What is under a key of a table: the value of the one entry that has the key.
-/

namespace ConversationFlow

variable {α β : Type}

section Related

variable {R : α → β → Prop} {as : List α} {bs : List β}

theorem exists_right_of_forall₂ (h : List.Forall₂ R as bs) {a : α} (ha : a ∈ as) :
    ∃ b ∈ bs, R a b := by
  induction h with
  | nil => simp at ha
  | cons hfirst _ ih =>
    rcases List.mem_cons.1 ha with rfl | hrest
    · exact ⟨_, List.mem_cons_self, hfirst⟩
    · obtain ⟨b, hb, hrelated⟩ := ih hrest
      exact ⟨b, List.mem_cons_of_mem _ hb, hrelated⟩

theorem exists_left_of_forall₂ (h : List.Forall₂ R as bs) {b : β} (hb : b ∈ bs) :
    ∃ a ∈ as, R a b :=
  exists_right_of_forall₂ h.flip hb

theorem exists_getElem?_of_forall₂ (h : List.Forall₂ R as bs) {i : Nat} {a : α}
    (ha : as[i]? = some a) : ∃ b, bs[i]? = some b ∧ R a b := by
  induction h generalizing i with
  | nil => cases ha
  | cons hfirst _ ih =>
    cases i with
    | zero =>
      cases ha
      exact ⟨_, rfl, hfirst⟩
    | succ i => exact ih ha

variable {γ : Type} {f : α → γ} {g : β → γ}

theorem map_eq_map_of_forall₂ (h : List.Forall₂ R as bs) (heq : ∀ a b, R a b → f a = g b) :
    as.map f = bs.map g := by
  induction h with
  | nil => rfl
  | cons hfirst _ ih => rw [List.map_cons, List.map_cons, heq _ _ hfirst, ih]

end Related

/-- Lists that one function does not tell apart are not told apart by one that looks at less. -/
theorem map_eq_map_of_map_eq {γ : Type} {as bs : List α} {f : α → β} {g g' : α → γ}
    (h : as.map f = bs.map f) (hfg : ∀ a b, f a = f b → g a = g' b) :
    as.map g = bs.map g' := by
  have hsame : List.Forall₂ (fun a b => f a = f b) as bs := by
    rw [← List.forall₂_eq_eq_eq, List.forall₂_map_left_iff, List.forall₂_map_right_iff] at h
    exact h
  exact map_eq_map_of_forall₂ hsame hfg

theorem lookup_eq_some_iff_mem {entries : List (Text × α)}
    (hdistinct : (entries.map Prod.fst).Nodup) {key : Text} {value : α} :
    entries.lookup key = some value ↔ (key, value) ∈ entries := by
  induction entries with
  | nil => simp
  | cons entry rest ih =>
    obtain ⟨other, a⟩ := entry
    rw [List.map_cons, List.nodup_cons] at hdistinct
    by_cases hkey : key = other
    · subst hkey
      have hnot : (key, value) ∉ rest := fun hmem =>
        hdistinct.1 (List.mem_map.2 ⟨(key, value), hmem, rfl⟩)
      simp [hnot, eq_comm]
    · simp [List.lookup_cons, beq_eq_false_iff_ne.2 hkey, hkey, ih hdistinct.2]

theorem mem_of_lookup_eq_some {entries : List (Text × α)} {key : Text} {value : α}
    (h : entries.lookup key = some value) : (key, value) ∈ entries := by
  obtain ⟨before, after, rfl, -⟩ := List.lookup_eq_some_iff.1 h
  simp

theorem lookup_eq_none_iff_notMem {entries : List (Text × α)} {key : Text} :
    entries.lookup key = none ↔ key ∉ entries.map Prod.fst := by
  rw [List.lookup_eq_none_iff, List.mem_map, not_exists]
  refine forall_congr' fun entry => ?_
  rw [bne_iff_ne, not_and]
  exact imp_congr_right fun _ => ne_comm

theorem mem_putEntry {key : Text} {value : α} {entries : List (Text × α)} {entry : Text × α}
    (h : entry ∈ putEntry key value entries) : entry = (key, value) ∨ entry ∈ entries := by
  induction entries with
  | nil => exact .inl (List.mem_singleton.1 h)
  | cons other rest ih =>
    rw [putEntry] at h
    split at h
    · rcases List.mem_cons.1 h with rfl | hrest
      · exact .inl rfl
      · exact .inr (List.mem_cons_of_mem _ hrest)
    · rcases List.mem_cons.1 h with rfl | hrest
      · exact .inr List.mem_cons_self
      · exact (ih hrest).imp_right (List.mem_cons_of_mem _)

namespace Table

theorem get?_eq_some_iff {t : Table α} {key : Text} {value : α} :
    t.get? key = some value ↔ (key, value) ∈ t.entries :=
  lookup_eq_some_iff_mem t.distinct

theorem get?_eq_none_iff {t : Table α} {key : Text} : t.get? key = none ↔ key ∉ t.keys :=
  lookup_eq_none_iff_notMem

theorem contains_iff_mem_keys {t : Table α} {key : Text} :
    t.contains key = true ↔ key ∈ t.keys := by
  simp [contains, keys, List.any_eq_true]

theorem length_keys (t : Table α) : t.keys.length = t.size := by
  simp [keys, size]

theorem entries_ofList {entries : List (Text × α)} (hdistinct : (entries.map Prod.fst).Nodup) :
    (ofList entries).entries = entries := by
  simpa [empty, ofList] using entries_foldl_put entries hdistinct empty (by simp [empty])

theorem entries_foldl_put_eq (more : List (Text × α)) (t : Table α) :
    (more.foldl (fun t entry => t.put entry.1 entry.2) t).entries =
      more.foldl (fun done entry => putEntry entry.1 entry.2 done) t.entries := by
  induction more generalizing t with
  | nil => rfl
  | cons entry rest ih =>
    rw [List.foldl_cons, List.foldl_cons, ih]
    rfl

theorem mem_entries_foldl_put {more : List (Text × α)} {t : Table α} {entry : Text × α}
    (h : entry ∈ (more.foldl (fun t entry => t.put entry.1 entry.2) t).entries) :
    entry ∈ t.entries ∨ entry ∈ more := by
  induction more generalizing t with
  | nil => exact .inl h
  | cons other rest ih =>
    rcases ih h with hput | hrest
    · exact (mem_putEntry hput).symm.imp_right fun heq => List.mem_cons.2 (.inl heq)
    · exact .inr (List.mem_cons_of_mem _ hrest)

theorem mem_of_mem_entries_ofList {entries : List (Text × α)} {entry : Text × α}
    (h : entry ∈ (ofList entries).entries) : entry ∈ entries :=
  (mem_entries_foldl_put h).resolve_left (by simp [empty])

/-! ### Tables of other values -/

theorem ext_entries {s t : Table α} (h : s.entries = t.entries) : s = t := by
  cases s
  cases t
  cases h
  rfl

theorem keys_map (f : α → β) (t : Table α) : (t.map f).keys = t.keys := by
  simp [keys, map]

theorem values_map (f : α → β) (t : Table α) : (t.map f).values = t.values.map f := by
  simp [values, map]

theorem get?_map (f : α → β) (t : Table α) (key : Text) :
    (t.map f).get? key = (t.get? key).map f := by
  simp only [get?, map]
  induction t.entries with
  | nil => rfl
  | cons entry rest ih =>
    obtain ⟨other, value⟩ := entry
    by_cases hkey : key = other
    · simp [hkey]
    · simp [List.lookup_cons, beq_eq_false_iff_ne.2 hkey, ih]

/-- The table with every value changed in a way that may depend on its key. -/
def mapKeyed (f : Text → α → β) (t : Table α) : Table β :=
  ⟨t.entries.map fun entry => (entry.1, f entry.1 entry.2), by
    rw [List.map_map]
    exact t.distinct⟩

theorem get?_mapKeyed (f : Text → α → β) (t : Table α) (key : Text) :
    (t.mapKeyed f).get? key = (t.get? key).map (f key) := by
  simp only [get?, mapKeyed]
  induction t.entries with
  | nil => rfl
  | cons entry rest ih =>
    obtain ⟨other, value⟩ := entry
    by_cases hkey : key = other
    · simp [hkey]
    · simp [List.lookup_cons, beq_eq_false_iff_ne.2 hkey, ih]

theorem map_put (f : α → β) (t : Table α) (key : Text) (value : α) :
    (t.put key value).map f = (t.map f).put key (f value) := by
  refine ext_entries ?_
  simp only [map, put]
  induction t.entries with
  | nil => rfl
  | cons entry rest ih =>
    by_cases hkey : entry.1 = key
    · simp [putEntry, hkey]
    · simp [putEntry, hkey, ih]

/-- Changing the values of a table that is built from entries is building one from changed
entries. -/
theorem map_ofList (f : α → β) (entries : List (Text × α)) :
    (ofList entries).map f = ofList (entries.map fun entry => (entry.1, f entry.2)) := by
  have hfold (t : Table α) :
      (entries.foldl (fun t entry => t.put entry.1 entry.2) t).map f =
        (entries.map fun entry => (entry.1, f entry.2)).foldl
          (fun t entry => t.put entry.1 entry.2) (t.map f) := by
    induction entries generalizing t with
    | nil => rfl
    | cons entry rest ih => rw [List.foldl_cons, ih, map_put, List.map_cons, List.foldl_cons]
  exact hfold empty

end Table

end ConversationFlow
