import ConversationFlow.Job
import ConversationFlow.Proofs.Table

/-!
# Which ids a job issues

A job that comes to a value has issued certain ids, in order. What is said of the value and of
these ids is put together along the job, as the ids that its parts issue follow each other. A job
that fails may have issued ids as well; of these nothing is said than that the next ids come after
them.
-/

namespace ConversationFlow

/-- The ids that are issued from one count on, until there are as many as another one. -/
def idsBetween (mint : Nat → Text) (start stop : Nat) : List Text :=
  (List.range' start (stop - start)).map mint

section Ids

variable {mint : Nat → Text} {start middle stop : Nat}

@[simp]
theorem idsBetween_self : idsBetween mint start start = [] := by
  simp [idsBetween]

@[simp]
theorem idsBetween_succ : idsBetween mint start (start + 1) = [mint start] := by
  simp [idsBetween]

@[simp]
theorem length_idsBetween : (idsBetween mint start stop).length = stop - start := by
  simp [idsBetween]

theorem idsBetween_append (hstart : start ≤ middle) (hstop : middle ≤ stop) :
    idsBetween mint start middle ++ idsBetween mint middle stop = idsBetween mint start stop := by
  obtain ⟨m, rfl⟩ := Nat.exists_eq_add_of_le hstart
  obtain ⟨n, rfl⟩ := Nat.exists_eq_add_of_le hstop
  have hlength : start + m + n - start = m + n := by omega
  rw [idsBetween, idsBetween, idsBetween, Nat.add_sub_cancel_left, Nat.add_sub_cancel_left, hlength,
    ← List.map_append, List.range'_append_1]

theorem nodup_idsBetween (hmint : Function.Injective mint) :
    (idsBetween mint start stop).Nodup :=
  List.Nodup.map hmint List.nodup_range'

end Ids

namespace Job

variable {ε ε' α β : Type}

/-- A job never takes ids back, and if it comes to a value, `P` holds of the value and of the ids
that it has issued. -/
def Issues (P : α → List Text → Prop) (job : Job ε α) : Prop :=
  ∀ provider journal,
    journal.issued ≤ (job.runFrom provider journal).2.issued ∧
    ∀ a, (job.runFrom provider journal).1 = .ok a →
      P a (idsBetween provider.mint journal.issued (job.runFrom provider journal).2.issued)

variable {P Q : α → List Text → Prop} {job : Job ε α}

theorem Issues.mono (h : Issues P job) (hPQ : ∀ a ids, P a ids → Q a ids) : Issues Q job := by
  intro provider journal
  obtain ⟨hissued, hvalue⟩ := h provider journal
  exact ⟨hissued, fun a ha => hPQ a _ (hvalue a ha)⟩

/-- What is known of the value alone can be said beside what is said of the ids. -/
theorem Issues.and {R : α → Prop} (h : Issues P job)
    (hR : ∀ provider journal a, (job.runFrom provider journal).1 = .ok a → R a) :
    Issues (fun a ids => P a ids ∧ R a) job :=
  fun provider journal => ⟨(h provider journal).1,
    fun a ha => ⟨(h provider journal).2 a ha, hR provider journal a ha⟩⟩

theorem issues_of {r : Except ε α} (h : ∀ a, r = .ok a → P a []) : Issues P (of r) := by
  intro provider journal
  rw [runFrom_of, idsBetween_self]
  exact ⟨Nat.le_refl _, h⟩

theorem issues_pure {a : α} (h : P a []) : Issues P (pure a : Job ε α) := by
  intro provider journal
  rw [runFrom_pure, idsBetween_self]
  refine ⟨Nat.le_refl _, ?_⟩
  rintro _ ⟨⟩
  exact h

theorem issues_throw (e : ε) : Issues P (throw e : Job ε α) := by
  intro provider journal
  rw [runFrom_throw]
  exact ⟨Nat.le_refl _, nofun⟩

theorem issues_newId : Issues (fun id ids => ids = [id]) (newId : Job ε Text) := by
  intro provider journal
  rw [runFrom_newId]
  refine ⟨Nat.le_succ _, ?_⟩
  rintro _ ⟨⟩
  exact idsBetween_succ

theorem issues_record (event : Event) :
    Issues (fun _ ids => ids = []) (record event : Job ε Unit) := by
  intro provider journal
  rw [runFrom_record]
  exact ⟨Nat.le_refl _, fun _ _ => idsBetween_self⟩

theorem Issues.map {P : β → List Text → Prop} {f : α → β}
    (h : Issues (fun a ids => P (f a) ids) job) : Issues P (f <$> job) := by
  intro provider journal
  obtain ⟨hissued, hvalue⟩ := h provider journal
  rw [runFrom_map]
  refine ⟨hissued, fun b hb => ?_⟩
  cases houtcome : (job.runFrom provider journal).1 with
  | ok a =>
    rw [houtcome] at hb
    cases hb
    exact hvalue a houtcome
  | error e =>
    rw [houtcome] at hb
    cases hb

/-- The ids of a sequence of jobs are those of the first job and then those of what follows it. -/
theorem Issues.bind {Q : β → List Text → Prop} {next : α → Job ε β} (h : Issues P job)
    (hnext : ∀ a ids, P a ids → Issues (fun b more => Q b (ids ++ more)) (next a)) :
    Issues Q (job >>= next) := by
  intro provider journal
  obtain ⟨hissued, hvalue⟩ := h provider journal
  rw [runFrom_bind]
  cases hrun : job.runFrom provider journal with
  | mk outcome middle =>
    rw [hrun] at hissued hvalue
    cases outcome with
    | error e => exact ⟨hissued, nofun⟩
    | ok a =>
      obtain ⟨hmore, hlast⟩ := hnext a _ (hvalue a rfl) provider middle
      refine ⟨Nat.le_trans hissued hmore, fun b hb => ?_⟩
      rw [← idsBetween_append hissued hmore]
      exact hlast b hb

theorem Issues.outcome (h : Issues P job) :
    Issues (fun r ids => ∀ a, r = .ok a → P a ids) (job.outcome : Job ε' (Except ε α)) := by
  intro provider journal
  rw [runFrom_outcome]
  refine ⟨(h provider journal).1, ?_⟩
  rintro _ ⟨⟩
  exact (h provider journal).2

/-- Each of the jobs on the items of a list issues its part of the ids. -/
theorem issues_mapM {P : β → List Text → Prop} {next : α → Job ε β}
    (h : ∀ a, Issues P (next a)) (items : List α) :
    Issues (fun bs ids => ∃ parts, List.Forall₂ P bs parts ∧ ids = parts.flatten)
      (items.mapM next) := by
  induction items with
  | nil => exact issues_pure ⟨[], .nil, rfl⟩
  | cons a rest ih =>
    rw [List.mapM_cons]
    refine (h a).bind fun b ids hb => ih.bind ?_
    rintro bs more ⟨parts, hparts, rfl⟩
    exact issues_pure ⟨ids :: parts, .cons hb hparts, by simp⟩

/-- If the ids are those of a value each time, they are those of all values in order. -/
theorem issues_mapM_flatMap {f : β → List Text} {next : α → Job ε β}
    (h : ∀ a, Issues (fun b ids => ids = f b) (next a)) (items : List α) :
    Issues (fun bs ids => ids = bs.flatMap f) (items.mapM next) := by
  refine (issues_mapM h items).mono ?_
  rintro bs _ ⟨parts, hparts, rfl⟩
  rw [List.flatMap_def, map_eq_map_of_forall₂ hparts fun _ _ hb => hb.symm, List.map_id']

/-- A job that comes to a value without an id. -/
def Silent (job : Job ε α) : Prop :=
  Issues (fun _ ids => ids = []) job

theorem silent_of (r : Except ε α) : Silent (of r) :=
  issues_of fun _ _ => rfl

theorem silent_pure (a : α) : Silent (pure a : Job ε α) :=
  issues_pure rfl

theorem Silent.bind_issues {Q : β → List Text → Prop} {next : α → Job ε β} (h : Silent job)
    (hnext : ∀ a, Issues Q (next a)) : Issues Q (job >>= next) := by
  refine Issues.bind h ?_
  rintro a _ rfl
  exact hnext a

theorem Silent.bind {next : α → Job ε β} (h : Silent job) (hnext : ∀ a, Silent (next a)) :
    Silent (job >>= next) :=
  h.bind_issues hnext

theorem silent_forM_record (event : α → Event) (items : List α) :
    Silent (items.forM fun a => (record (event a) : Job ε Unit)) := by
  induction items with
  | nil => exact silent_pure ()
  | cons a rest ih => exact Silent.bind (issues_record _) fun _ => ih

/-- A job that neither issues nor records anything, also if it fails; `R` holds of what it fails
with. -/
def Traceless (R : ε → Prop) (job : Job ε α) : Prop :=
  ∀ provider journal, (job.runFrom provider journal).2 = journal ∧
    ∀ e, (job.runFrom provider journal).1 = .error e → R e

variable {R : ε → Prop}

theorem traceless_of {r : Except ε α} (h : ∀ e, r = .error e → R e) : Traceless R (of r) := by
  intro provider journal
  rw [runFrom_of]
  exact ⟨rfl, h⟩

theorem traceless_pure (a : α) : Traceless R (pure a : Job ε α) := by
  intro provider journal
  refine ⟨rfl, ?_⟩
  rintro e ⟨⟩

theorem traceless_throw {e : ε} (h : R e) : Traceless R (throw e : Job ε α) := by
  intro provider journal
  refine ⟨rfl, ?_⟩
  rintro _ ⟨⟩
  exact h

theorem traceless_now : Traceless R (now : Job ε Timestamp) := by
  intro provider journal
  refine ⟨rfl, ?_⟩
  rintro e ⟨⟩

theorem Traceless.bind {next : α → Job ε β} (h : Traceless R job)
    (hnext : ∀ a, Traceless R (next a)) : Traceless R (job >>= next) := by
  intro provider journal
  obtain ⟨hsame, hfails⟩ := h provider journal
  rw [runFrom_bind]
  cases hrun : job.runFrom provider journal with
  | mk outcome later =>
    rw [hrun] at hsame hfails
    subst hsame
    cases outcome with
    | ok a => exact hnext a provider later
    | error e =>
      refine ⟨rfl, ?_⟩
      rintro _ ⟨⟩
      exact hfails e rfl

end Job

end ConversationFlow
