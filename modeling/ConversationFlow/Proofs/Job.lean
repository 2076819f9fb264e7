import ConversationFlow.Job
import Mathlib.Data.List.Forall2

/-!
# Jobs that fail alike

A job may come to different values with different ids, times and journals. That it fails, and what
with, depends on none of these for the jobs that compile a node. Two jobs are alike in this sense if
from any providers and journals both come to a value or both fail with the same fault; everything
that jobs are put together with keeps that.
-/

namespace ConversationFlow

variable {ε α β γ : Type} {P Q : ε → Prop}

theorem exists_of_map_eq_ok {f : α → β} {outcome : Except ε α} {b : β}
    (h : outcome.map f = .ok b) : ∃ a, outcome = .ok a ∧ f a = b := by
  cases outcome with
  | ok a => exact ⟨a, rfl, by simpa [Except.map] using h⟩
  | error e => simp [Except.map] at h

instance decidableExistsOk {outcome : Except ε α} : Decidable (∃ a, outcome = .ok a) :=
  match outcome with
  | .ok a => isTrue ⟨a, rfl⟩
  | .error _ => isFalse (by simp)

instance decidableExistsOkAnd {outcome : Except ε α} {P : α → Prop} [DecidablePred P] :
    Decidable (∃ a, outcome = .ok a ∧ P a) :=
  match outcome with
  | .ok a => decidable_of_iff (P a) (by simp)
  | .error _ => isFalse (by simp)

/-- Both outcomes are values, or both are the same fault, of which `P` holds. -/
inductive OutcomesAlike (P : ε → Prop) : Except ε α → Except ε β → Prop
  | ok (a : α) (b : β) : OutcomesAlike P (.ok a) (.ok b)
  | error {e : ε} (he : P e) : OutcomesAlike P (.error e) (.error e)

theorem OutcomesAlike.map {δ : Type} {r : Except ε α} {s : Except ε β} (h : OutcomesAlike P r s)
    (f : α → γ) (g : β → δ) : OutcomesAlike P (r.map f) (s.map g) := by
  cases h with
  | ok a b => exact .ok (f a) (g b)
  | error he => exact .error he

theorem OutcomesAlike.mono {r : Except ε α} {s : Except ε β} (h : OutcomesAlike P r s)
    (hPQ : ∀ e, P e → Q e) : OutcomesAlike Q r s := by
  cases h with
  | ok a b => exact .ok a b
  | error he => exact .error (hPQ _ he)

namespace Job

/-- A sequence of jobs that comes to a value comes to it from a value of the first job. -/
theorem exists_of_bind_eq_ok {job : Job ε α} {next : α → Job ε β} {provider : Provider}
    {journal : Journal} {b : β} (h : ((job >>= next).runFrom provider journal).1 = .ok b) :
    ∃ a later, job.runFrom provider journal = (.ok a, later) ∧
      ((next a).runFrom provider later).1 = .ok b := by
  rw [runFrom_bind] at h
  cases hrun : job.runFrom provider journal with
  | mk outcome later =>
    rw [hrun] at h
    cases outcome with
    | ok a => exact ⟨a, later, rfl, h⟩
    | error e => simp at h

/-- From any providers and journals, both jobs come to a value or fail with the same fault. -/
def Alike (P : ε → Prop) (job : Job ε α) (other : Job ε β) : Prop :=
  ∀ provider journal provider' journal',
    OutcomesAlike P (job.runFrom provider journal).1 (other.runFrom provider' journal').1

theorem alike_pure (a : α) (b : β) : Alike P (pure a : Job ε α) (pure b : Job ε β) :=
  fun _ _ _ _ => .ok a b

theorem alike_of {r : Except ε α} {s : Except ε β} (h : OutcomesAlike P r s) :
    Alike P (of r) (of s) := by
  intro provider journal provider' journal'
  rw [runFrom_of, runFrom_of]
  exact h

theorem alike_newId : Alike P (newId : Job ε Text) newId :=
  fun _ _ _ _ => .ok _ _

theorem alike_record (event other : Event) :
    Alike P (record event : Job ε Unit) (record other) :=
  fun _ _ _ _ => .ok _ _

variable {job : Job ε α} {other : Job ε β}

/-- Jobs that are alike go on alike if what follows is alike whatever they came to. -/
theorem Alike.bind {δ : Type} {next : α → Job ε γ} {next' : β → Job ε δ} (h : Alike P job other)
    (hnext : ∀ a b, Alike P (next a) (next' b)) : Alike P (job >>= next) (other >>= next') := by
  intro provider journal provider' journal'
  have houtcomes := h provider journal provider' journal'
  rw [runFrom_bind, runFrom_bind]
  cases hrun : job.runFrom provider journal with
  | mk outcome later =>
    cases hrun' : other.runFrom provider' journal' with
    | mk outcome' later' =>
      rw [hrun, hrun'] at houtcomes
      cases houtcomes with
      | ok a b => exact hnext a b provider later provider' later'
      | error he => exact .error he

theorem Alike.mono (h : Alike P job other) (hPQ : ∀ e, P e → Q e) : Alike Q job other :=
  fun provider journal provider' journal' => (h provider journal provider' journal').mono hPQ

theorem Alike.map {δ : Type} (h : Alike P job other) (f : α → γ) (g : β → δ) :
    Alike P (f <$> job) (g <$> other) := by
  intro provider journal provider' journal'
  rw [runFrom_map, runFrom_map]
  exact (h provider journal provider' journal').map f g

theorem alike_mapM {next : α → Job ε β} (hnext : ∀ a, Alike P (next a) (next a)) (items : List α) :
    Alike P (items.mapM next) (items.mapM next) := by
  induction items with
  | nil => exact alike_pure [] []
  | cons item rest ih =>
    rw [List.mapM_cons]
    exact (hnext item).bind fun _ _ => ih.bind fun _ _ => alike_pure _ _

/-- Jobs on items either come to a list of values, one for each item, or fail as one of them does. -/
theorem runFrom_mapM_cases (next : α → Job ε β) (items : List α) (provider : Provider)
    (journal : Journal) :
    (∃ results later, (items.mapM next).runFrom provider journal = (.ok results, later) ∧
      List.Forall₂ (fun a b => ∃ start, ((next a).runFrom provider start).1 = .ok b)
        items results) ∨
    ∃ e later, (items.mapM next).runFrom provider journal = (.error e, later) ∧
      ∃ a ∈ items, ∃ start, ((next a).runFrom provider start).1 = .error e := by
  induction items generalizing journal with
  | nil => exact .inl ⟨[], journal, rfl, .nil⟩
  | cons a rest ih =>
    rw [List.mapM_cons, runFrom_bind]
    cases hrun : (next a).runFrom provider journal with
    | mk outcome middle =>
      cases outcome with
      | error e => exact .inr ⟨e, middle, rfl, a, by simp, journal, by rw [hrun]⟩
      | ok b =>
        dsimp only
        rw [runFrom_bind]
        rcases ih middle with ⟨results, later, hrest, hresults⟩ | ⟨e, later, hrest, c, hc, hfails⟩
        · rw [hrest]
          exact .inl ⟨b :: results, later, rfl, .cons ⟨journal, by rw [hrun]⟩ hresults⟩
        · rw [hrest]
          exact .inr ⟨e, later, rfl, c, List.mem_cons_of_mem _ hc, hfails⟩

/-- A list that jobs on items come to has the value of each of them, in order. -/
theorem forall₂_of_mapM_eq_ok {next : α → Job ε β} {items : List α} {provider : Provider}
    {journal : Journal} {results : List β}
    (h : ((items.mapM next).runFrom provider journal).1 = .ok results) :
    List.Forall₂ (fun a b => ∃ start, ((next a).runFrom provider start).1 = .ok b)
      items results := by
  rcases runFrom_mapM_cases next items provider journal with
    ⟨others, later, hrun, hothers⟩ | ⟨e, later, hrun, -⟩
  · rw [hrun] at h
    cases h
    exact hothers
  · rw [hrun] at h
    cases h

theorem exists_runFrom_forM_record (ε : Type) (event : α → Event) (items : List α)
    (provider : Provider) (journal : Journal) :
    ∃ later, (items.forM fun a => (record (event a) : Job ε Unit)).runFrom provider journal =
      (.ok (), later) := by
  induction items generalizing journal with
  | nil => exact ⟨journal, rfl⟩
  | cons a rest ih =>
    obtain ⟨later, hrest⟩ := ih ⟨journal.issued, journal.events ++ [event a]⟩
    refine ⟨later, ?_⟩
    rw [List.forM, runFrom_bind, runFrom_record]
    exact hrest

end Job

end ConversationFlow
