import ConversationFlow.Text.Basic

/-!
# Tables

Finite maps from text keys that keep the order in which keys first came. Putting a value under a key
that is there replaces the value in place. The main lemmas say what `put` does to the keys and to a
look-up, and that building a table from the entries of one gives it back.
-/

namespace ConversationFlow

universe u v

variable {α : Type u} {β : Type v}

/-- Entries with the value under a key replaced in place, or the new entry at the end. -/
def putEntry (key : Text) (value : α) : List (Text × α) → List (Text × α)
  | [] => [(key, value)]
  | entry :: rest =>
    if entry.1 = key then (key, value) :: rest else entry :: putEntry key value rest

theorem map_fst_putEntry (key : Text) (value : α) (entries : List (Text × α)) :
    (putEntry key value entries).map Prod.fst =
      if key ∈ entries.map Prod.fst then entries.map Prod.fst else entries.map Prod.fst ++ [key] := by
  induction entries with
  | nil => simp [putEntry]
  | cons entry rest ih =>
    by_cases h : entry.1 = key
    · simp [putEntry, h]
    · have h' : ¬key = entry.1 := fun e => h e.symm
      simp only [putEntry, h, if_false, List.map_cons, ih, List.mem_cons, h', false_or]
      split <;> simp

theorem nodup_putEntry (key : Text) (value : α) {entries : List (Text × α)}
    (h : (entries.map Prod.fst).Nodup) : ((putEntry key value entries).map Prod.fst).Nodup := by
  rw [map_fst_putEntry]
  split
  · exact h
  · next hk =>
    rw [List.nodup_append]
    refine ⟨h, by simp, fun a ha b hb => ?_⟩
    rw [List.mem_singleton] at hb
    exact fun e => hk (hb ▸ e ▸ ha)

theorem lookup_putEntry (key other : Text) (value : α) (entries : List (Text × α)) :
    (putEntry key value entries).lookup other =
      if other = key then some value else entries.lookup other := by
  induction entries with
  | nil =>
    by_cases h : other = key
    · simp [putEntry, h]
    · simp [putEntry, List.lookup_cons, beq_eq_false_iff_ne.2 h, h]
  | cons entry rest ih =>
    obtain ⟨k, v⟩ := entry
    by_cases hk : k = key
    · subst hk
      by_cases h : other = k
      · simp [putEntry, h]
      · simp [putEntry, List.lookup_cons, beq_eq_false_iff_ne.2 h, h]
    · by_cases h : other = key
      · subst h
        have hne : (other == k) = false := beq_eq_false_iff_ne.2 fun e => hk e.symm
        simp [putEntry, List.lookup_cons, hk, hne, ih]
      · simp [putEntry, List.lookup_cons, hk, ih, h]

theorem putEntry_of_notMem (key : Text) (value : α) {entries : List (Text × α)}
    (h : key ∉ entries.map Prod.fst) : putEntry key value entries = entries ++ [(key, value)] := by
  induction entries with
  | nil => rfl
  | cons entry rest ih =>
    rw [List.map_cons, List.mem_cons, not_or] at h
    rw [putEntry, if_neg (fun e => h.1 e.symm), ih h.2, List.cons_append]

/-- A finite map from text keys, in the order in which the keys came. -/
structure Table (α : Type u) where
  entries : List (Text × α)
  distinct : (entries.map Prod.fst).Nodup

namespace Table

instance [DecidableEq α] : DecidableEq (Table α) := fun s t =>
  if h : s.entries = t.entries then
    isTrue (by cases s; cases t; simp only at h; subst h; rfl)
  else isFalse fun e => h (e ▸ rfl)

def empty : Table α := ⟨[], List.nodup_nil⟩

instance : Inhabited (Table α) := ⟨empty⟩

def keys (t : Table α) : List Text :=
  t.entries.map Prod.fst

def values (t : Table α) : List α :=
  t.entries.map Prod.snd

def get? (t : Table α) (key : Text) : Option α :=
  t.entries.lookup key

def contains (t : Table α) (key : Text) : Bool :=
  t.entries.any (·.1 = key)

def size (t : Table α) : Nat :=
  t.entries.length

def put (t : Table α) (key : Text) (value : α) : Table α :=
  ⟨putEntry key value t.entries, nodup_putEntry key value t.distinct⟩

/-- The table of the entries, of which a later one under the same key replaces an earlier one. -/
def ofList (entries : List (Text × α)) : Table α :=
  entries.foldl (fun t entry => t.put entry.1 entry.2) empty

theorem entries_foldl_put (more : List (Text × α)) (distinct : (more.map Prod.fst).Nodup)
    (t : Table α) (apart : ∀ entry ∈ more, entry.1 ∉ t.entries.map Prod.fst) :
    (more.foldl (fun t entry => t.put entry.1 entry.2) t).entries = t.entries ++ more := by
  induction more generalizing t with
  | nil => simp
  | cons entry rest ih =>
    rw [List.map_cons, List.nodup_cons] at distinct
    have hput : (t.put entry.1 entry.2).entries = t.entries ++ [entry] :=
      putEntry_of_notMem entry.1 entry.2 (apart entry (by simp))
    rw [List.foldl_cons, ih distinct.2, hput]
    · simp
    · intro other hother
      rw [hput, List.map_append, List.mem_append, not_or]
      refine ⟨apart other (by simp [hother]), fun h => ?_⟩
      rw [List.map_cons, List.map_nil, List.mem_singleton] at h
      exact distinct.1 (h ▸ List.mem_map_of_mem hother)

theorem get?_put (t : Table α) (key other : Text) (value : α) :
    (t.put key value).get? other = if other = key then some value else t.get? other :=
  lookup_putEntry key other value t.entries

theorem ofList_entries (t : Table α) : ofList t.entries = t := by
  have h := entries_foldl_put t.entries t.distinct empty (by simp [empty])
  cases t
  simp only [ofList]
  generalize List.foldl _ _ _ = u at h
  cases u
  simpa [empty] using h

def map (f : α → β) (t : Table α) : Table β :=
  ⟨t.entries.map fun entry => (entry.1, f entry.2), by
    have h : ((t.entries.map fun entry => (entry.1, f entry.2)).map Prod.fst) =
        t.entries.map Prod.fst := by simp [List.map_map, Function.comp_def]
    rw [h]
    exact t.distinct⟩

end Table

end ConversationFlow
