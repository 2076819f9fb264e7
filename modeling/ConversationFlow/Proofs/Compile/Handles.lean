import ConversationFlow.Compile.Transitions
import ConversationFlow.Proofs.Table
import ConversationFlow.Proofs.Text.Ascii

/-!
# Conditions of handles

A handle stands for a condition exactly if it is one of six words, up to the case of ASCII letters.
The words hold no letter that a character beyond ASCII has in its lower case, so the Unicode mapping
accepts nothing that ASCII alone would not.
-/

namespace ConversationFlow.Compile

open Text
open Editor (Edge)

/-- The words that stand for conditions. -/
def conditionWords : List String :=
  ["true", "yes", "false", "no", "success", "error"]

theorem map_fst_conditionTable :
    conditionTable.map Prod.fst = conditionWords.map fun word => .whole word :=
  rfl

theorem isPlain_of_mem_conditionWords :
    ∀ word ∈ conditionWords, ∀ c ∈ word.toList, IsPlain c := by
  have hall : ∀ word ∈ conditionWords, word.toList.all (fun c => decide (IsPlain c)) = true := by
    decide
  intro word hword
  simpa using hall word hword

theorem foldCase_of_mem_conditionWords :
    ∀ word ∈ conditionWords, foldCase word = .whole word := by
  decide

theorem isAlpha_of_mem_conditionWords :
    ∀ word ∈ conditionWords, ∀ c ∈ word.toList, c.isAlpha = true := by
  have hall : ∀ word ∈ conditionWords, word.toList.all Char.isAlpha = true := by decide
  intro word hword
  exact List.all_eq_true.1 (hall word hword)

/-- No word is a part of another one. -/
theorem eq_of_isInfix_conditionWords :
    ∀ word ∈ conditionWords, ∀ other ∈ conditionWords, word.toList <:+: other.toList →
      word = other := by
  decide +kernel

theorem sameUpToCase_iff_of_mem_conditionWords {word : String} (hword : word ∈ conditionWords)
    (handle : Text) : SameUpToCase handle word ↔ foldCase handle = word := by
  rw [SameUpToCase, foldCase_of_mem_conditionWords word hword]

theorem lookup_congr {α : Type} {entries : List (Text × α)} {a b : Text}
    (h : ∀ key ∈ entries.map Prod.fst, a = key ↔ b = key) : entries.lookup a = entries.lookup b := by
  induction entries with
  | nil => rfl
  | cons entry rest ih =>
    obtain ⟨key, value⟩ := entry
    rw [List.map_cons, List.forall_mem_cons] at h
    have hkey : (a == key) = (b == key) := by
      rw [Bool.eq_iff_iff, beq_iff_eq, beq_iff_eq]
      exact h.1
    rw [List.lookup_cons, List.lookup_cons, hkey, ih h.2]

/-- For the words of the table, the lower case by Unicode and the one of ASCII come to the same. -/
theorem conditionOf?_eq (handle : Text) :
    conditionOf? handle = conditionTable.lookup (foldCase handle) := by
  apply lookup_congr
  rw [map_fst_conditionTable, List.forall_mem_map]
  intro word hword
  exact lower_eq_iff (isPlain_of_mem_conditionWords word hword)

theorem isSome_conditionOf?_iff (handle : Text) :
    (conditionOf? handle).isSome ↔ ∃ word ∈ conditionWords, SameUpToCase handle word := by
  rw [conditionOf?_eq, Option.isSome_iff_ne_none, Ne, lookup_eq_none_iff_notMem, not_not,
    map_fst_conditionTable, List.mem_map]
  refine exists_congr fun word => and_congr_right fun hword => ?_
  rw [sameUpToCase_iff_of_mem_conditionWords hword, eq_comm]

theorem isAlpha_of_isAlpha_toLower {c : Char} (h : c.toLower.isAlpha = true) : c.isAlpha = true := by
  rcases Nat.lt_or_ge c.toNat 128 with hc | hc
  · exact forall_ascii (P := fun c => c.toLower.isAlpha = true → c.isAlpha = true)
      (by decide +kernel) hc h
  · rwa [toLower_of_not_ascii hc] at h

/-- All of the text are characters with a property: no surrogate stands in it. -/
def ConsistsOf (p : Char → Prop) : Text → Prop
  | .whole s => ∀ c ∈ s.toList, p c
  | .broken _ _ _ => False

/-- A handle that stands for a condition consists of ASCII letters. -/
theorem consistsOf_isAlpha_of_isSome_conditionOf? {handle : Text}
    (h : (conditionOf? handle).isSome) : ConsistsOf (·.isAlpha) handle := by
  obtain ⟨word, hword, hsame⟩ := (isSome_conditionOf?_iff handle).1 h
  rw [sameUpToCase_iff_of_mem_conditionWords hword] at hsame
  cases handle with
  | whole s =>
    intro c hc
    apply isAlpha_of_isAlpha_toLower
    apply isAlpha_of_mem_conditionWords word hword
    rw [← whole.inj hsame, String.toList_ofList]
    exact List.mem_map_of_mem hc
  | broken => cases hsame

theorem foldCase_append (s t : Text) : foldCase (s ++ t) = foldCase s ++ foldCase t := by
  refine mapRuns_append (fun a b => ?_) s t
  rw [String.toList_append, List.map_append, String.ofList_append]

/-- A handle with more than a word in it stands for nothing. -/
theorem conditionOf?_append_eq_none {before core after : Text} {word : String}
    (hword : word ∈ conditionWords) (hcore : SameUpToCase core word)
    (hextra : before ++ after ≠ "") : conditionOf? (before ++ core ++ after) = none := by
  rw [← Option.not_isSome_iff_eq_none, isSome_conditionOf?_iff]
  rintro ⟨other, hother, hsame⟩
  rw [sameUpToCase_iff_of_mem_conditionWords hword] at hcore
  rw [sameUpToCase_iff_of_mem_conditionWords hother, foldCase_append, foldCase_append, hcore] at hsame
  -- no surrogate stands in a word, so neither does one before or after it
  obtain ⟨start, rfl⟩ : ∃ start, before = .whole start := by
    cases before with
    | whole start => exact ⟨start, rfl⟩
    | broken => cases hsame
  obtain ⟨finish, rfl⟩ : ∃ finish, after = .whole finish := by
    cases after with
    | whole finish => exact ⟨finish, rfl⟩
    | broken => cases hsame
  have hchars : start.toList.map Char.toLower ++ word.toList ++ finish.toList.map Char.toLower =
      other.toList := by
    simpa using congrArg String.toList (whole.inj hsame)
  obtain rfl := eq_of_isInfix_conditionWords word hword other hother ⟨_, _, hchars⟩
  have hlength := congrArg List.length hchars
  simp only [List.length_append, List.length_map] at hlength
  refine hextra (congrArg whole ?_)
  rw [← String.toList_eq_nil_iff, String.toList_append, List.append_eq_nil_iff,
    ← List.length_eq_zero_iff, ← List.length_eq_zero_iff]
  omega

/-- A handle stands for a condition exactly if it is one of the six words up to the case of ASCII
letters, and then for the one of that word; the case of ASCII letters never counts. So an edge whose
handle has anything else in it, or more than a word, becomes a transition without a condition. -/
theorem condition_of_handle (handle : Text) :
    ((conditionOf? handle).isSome ↔ ∃ word ∈ conditionWords, SameUpToCase handle word) ∧
    (∀ word ∈ conditionWords, SameUpToCase handle word →
      conditionOf? handle = conditionTable.lookup (.whole word)) ∧
    (∀ other, SameUpToCase handle other → conditionOf? handle = conditionOf? other) ∧
    ∀ (position : Nat) (e : Edge), e.sourceHandle = some handle →
      (¬ConsistsOf (·.isAlpha) handle ∨
        (∃ (before core after : Text) (word : String), handle = before ++ core ++ after ∧
          before ++ after ≠ "" ∧ word ∈ conditionWords ∧ SameUpToCase core word)) →
      (transitionOf position e).condition = none := by
  refine ⟨isSome_conditionOf?_iff handle, ?_, ?_, ?_⟩
  · intro word hword hsame
    rw [conditionOf?_eq, (sameUpToCase_iff_of_mem_conditionWords hword handle).1 hsame]
  · intro other hsame
    rw [conditionOf?_eq, conditionOf?_eq, hsame]
  · intro position e hhandle hrefused
    rw [transitionOf, hhandle, Option.bind_some]
    rcases hrefused with hother | ⟨before, core, after, word, rfl, hextra, hword, hcore⟩
    · rw [← Option.not_isSome_iff_eq_none]
      exact fun hsome => hother (consistsOf_isAlpha_of_isSome_conditionOf? hsome)
    · exact conditionOf?_append_eq_none hword hcore hextra

end ConversationFlow.Compile
