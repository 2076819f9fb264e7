import ConversationFlow.Proofs.Issued

/-!
# Jobs that agree but for ids

Two runs at the same time that may take their ids from different places. The jobs agree if they issue
equally many ids and either fail in the same way or come to values that stand in a relation, which may
speak of the ids that were issued on both sides. The ids of one run are never compared with each
other, so a relation can only say which ids stand at which places.
-/

namespace ConversationFlow

variable {ε α β γ δ : Type}

/-- Both outcomes are values that stand in a relation, or both are the same failure. -/
inductive OutcomesRelated (R : α → β → Prop) : Except ε α → Except ε β → Prop
  | ok {a : α} {b : β} (h : R a b) : OutcomesRelated R (.ok a) (.ok b)
  | error (e : ε) : OutcomesRelated R (.error e) (.error e)

theorem OutcomesRelated.mono {R Q : α → β → Prop} {r : Except ε α} {s : Except ε β}
    (h : OutcomesRelated R r s) (hRQ : ∀ a b, R a b → Q a b) : OutcomesRelated Q r s := by
  cases h with
  | ok h => exact .ok (hRQ _ _ h)
  | error e => exact .error e

theorem OutcomesRelated.map {Q : γ → δ → Prop} {f : α → γ} {g : β → δ} {r : Except ε α}
    {s : Except ε β} (h : OutcomesRelated (fun a b => Q (f a) (g b)) r s) :
    OutcomesRelated Q (r.map f) (s.map g) := by
  cases h with
  | ok h => exact .ok h
  | error e => exact .error e

/-- A relation between values of two runs, given the ids that each of the runs has issued. -/
abbrev IdRelation (α β : Type) := List Text → List Text → α → β → Prop

/-- The values are the same, however the ids are called, if ids at the same places are called the
same. -/
def SameButIds (rename : (Text → Text) → α → γ) : IdRelation α α :=
  fun ids ids' a b => ∀ σ τ : Text → Text, ids.map σ = ids'.map τ → rename σ a = rename τ b

section Names

variable {rename : (Text → Text) → α → γ} {ids ids' more more' : List Text}

/-- There is always a way to call the ids: all alike. -/
theorem SameButIds.anonymous {a b : α} (h : SameButIds rename ids ids' a b)
    (hlength : ids.length = ids'.length) : rename (fun _ => "") a = rename (fun _ => "") b := by
  refine h _ _ ?_
  rw [List.map_const', List.map_const', hlength]

theorem map_eq_of_append {σ τ : Text → Text} (hlength : ids.length = ids'.length)
    (h : (ids ++ more).map σ = (ids' ++ more').map τ) :
    ids.map σ = ids'.map τ ∧ more.map σ = more'.map τ := by
  rw [List.map_append, List.map_append] at h
  exact List.append_inj h (by rw [List.length_map, List.length_map, hlength])

end Names

namespace Job

/-- At any one time, whatever ids are issued: the jobs issue equally many, and fail in the same way or
come to related values. -/
def Agree (R : IdRelation α β) (job : Job ε α) (other : Job ε β) : Prop :=
  ∀ provider journal provider' journal', provider.now = provider'.now →
    ∃ count, (job.runFrom provider journal).2.issued = journal.issued + count ∧
      (other.runFrom provider' journal').2.issued = journal'.issued + count ∧
      OutcomesRelated
        (R (idsBetween provider.mint journal.issued (journal.issued + count))
          (idsBetween provider'.mint journal'.issued (journal'.issued + count)))
        (job.runFrom provider journal).1 (other.runFrom provider' journal').1

variable {R : IdRelation α β} {job : Job ε α} {other : Job ε β}

theorem Agree.mono {Q : IdRelation α β} (h : Agree R job other)
    (hRQ : ∀ ids ids' a b, ids.length = ids'.length → R ids ids' a b → Q ids ids' a b) :
    Agree Q job other := by
  intro provider journal provider' journal' hnow
  obtain ⟨count, hissued, hissued', houtcomes⟩ := h provider journal provider' journal' hnow
  exact ⟨count, hissued, hissued', houtcomes.mono fun a b => hRQ _ _ a b (by simp)⟩

theorem agree_of {r : Except ε α} {s : Except ε β} (h : OutcomesRelated (R [] []) r s) :
    Agree R (of r) (of s) := by
  intro provider journal provider' journal' _
  refine ⟨0, ?_⟩
  rw [runFrom_of, runFrom_of, Nat.add_zero, Nat.add_zero, idsBetween_self, idsBetween_self]
  exact ⟨rfl, rfl, h⟩

theorem agree_pure {a : α} {b : β} (h : R [] [] a b) :
    Agree R (pure a : Job ε α) (pure b : Job ε β) :=
  agree_of (r := .ok a) (s := .ok b) (.ok h)

/-- Values that are the same but for the ids that were issued for them. -/
theorem agree_pure_of_same {rename : (Text → Text) → α → γ} {ids ids' : List Text} {a b : α}
    (h : SameButIds rename ids ids' a b) :
    Agree (fun more more' => SameButIds rename (ids ++ more) (ids' ++ more')) (pure a : Job ε α)
      (pure b) := by
  refine agree_pure ?_
  rwa [List.append_nil, List.append_nil]

theorem agree_throw (e : ε) : Agree R (throw e : Job ε α) (throw e : Job ε β) :=
  agree_of (r := .error e) (s := .error e) (.error e)

theorem agree_newId :
    Agree (fun ids ids' id id' => ids = [id] ∧ ids' = [id']) (newId : Job ε Text) newId := by
  intro provider journal provider' journal' _
  refine ⟨1, rfl, rfl, ?_⟩
  rw [idsBetween_succ, idsBetween_succ]
  exact .ok ⟨rfl, rfl⟩

theorem agree_now :
    Agree (fun ids ids' time time' => ids = [] ∧ ids' = [] ∧ time = time')
      (now : Job ε Timestamp) now := by
  intro provider journal provider' journal' hnow
  refine ⟨0, rfl, rfl, ?_⟩
  rw [Nat.add_zero, Nat.add_zero, idsBetween_self, idsBetween_self]
  exact .ok ⟨rfl, rfl, hnow⟩

theorem agree_record (event event' : Event) :
    Agree (fun ids ids' _ _ => ids = [] ∧ ids' = []) (record event : Job ε Unit)
      (record event') := by
  intro provider journal provider' journal' _
  refine ⟨0, rfl, rfl, ?_⟩
  rw [Nat.add_zero, Nat.add_zero, idsBetween_self, idsBetween_self]
  exact .ok ⟨rfl, rfl⟩

theorem Agree.map {Q : IdRelation γ δ} {f : α → γ} {g : β → δ}
    (h : Agree (fun ids ids' a b => Q ids ids' (f a) (g b)) job other) :
    Agree Q (f <$> job) (g <$> other) := by
  intro provider journal provider' journal' hnow
  obtain ⟨count, hissued, hissued', houtcomes⟩ := h provider journal provider' journal' hnow
  rw [runFrom_map, runFrom_map]
  exact ⟨count, hissued, hissued', houtcomes.map⟩

/-- Jobs that agree go on in agreement if what follows agrees, whatever related values they came to.
The ids of what follows come after those of the jobs before. -/
theorem Agree.bind {Q : IdRelation γ δ} {next : α → Job ε γ} {next' : β → Job ε δ}
    (h : Agree R job other)
    (hnext : ∀ ids ids' a b, ids.length = ids'.length → R ids ids' a b →
      Agree (fun more more' => Q (ids ++ more) (ids' ++ more')) (next a) (next' b)) :
    Agree Q (job >>= next) (other >>= next') := by
  intro provider journal provider' journal' hnow
  obtain ⟨count, hissued, hissued', houtcomes⟩ := h provider journal provider' journal' hnow
  rw [runFrom_bind, runFrom_bind]
  cases hrun : job.runFrom provider journal with
  | mk outcome middle =>
    cases hrun' : other.runFrom provider' journal' with
    | mk outcome' middle' =>
      rw [hrun] at hissued houtcomes
      rw [hrun'] at hissued' houtcomes
      dsimp only at hissued hissued' houtcomes
      cases houtcomes with
      | error e => exact ⟨count, hissued, hissued', .error e⟩
      | ok hrelated =>
        obtain ⟨more, hmore, hmore', hlast⟩ :=
          hnext _ _ _ _ (by simp) hrelated provider middle provider' middle' hnow
        refine ⟨count + more, ?_, ?_, ?_⟩
        · rw [hmore, hissued, Nat.add_assoc]
        · rw [hmore', hissued', Nat.add_assoc]
        · rw [hissued, hissued'] at hlast
          dsimp only at hlast ⊢
          rw [← Nat.add_assoc, ← Nat.add_assoc,
            ← idsBetween_append (Nat.le_add_right _ count) (Nat.le_add_right _ more),
            ← idsBetween_append (Nat.le_add_right _ count) (Nat.le_add_right _ more)]
          exact hlast

theorem Agree.outcome {ε' : Type} (h : Agree R job other) :
    Agree (fun ids ids' => OutcomesRelated (R ids ids')) (job.outcome : Job ε' (Except ε α))
      other.outcome := by
  intro provider journal provider' journal' hnow
  obtain ⟨count, hissued, hissued', houtcomes⟩ := h provider journal provider' journal' hnow
  exact ⟨count, hissued, hissued', .ok houtcomes⟩

/-- The job neither issues ids nor depends on those that were issued. -/
def Steady (job : Job ε α) : Prop :=
  Agree (fun ids ids' a b => ids = [] ∧ ids' = [] ∧ a = b) job job

theorem steady_of (r : Except ε α) : Steady (of r) := by
  refine agree_of ?_
  cases r with
  | ok a => exact .ok ⟨rfl, rfl, rfl⟩
  | error e => exact .error e

theorem steady_pure (a : α) : Steady (pure a : Job ε α) :=
  steady_of (.ok a)

theorem Steady.agree_bind {job : Job ε α} {next : α → Job ε γ} {next' : α → Job ε δ}
    {Q : IdRelation γ δ} (h : Steady job) (hnext : ∀ a, Agree Q (next a) (next' a)) :
    Agree Q (job >>= next) (job >>= next') := by
  refine Agree.bind h ?_
  rintro _ _ a _ - ⟨rfl, rfl, rfl⟩
  exact hnext a

theorem Steady.bind {job : Job ε α} {next : α → Job ε β} (h : Steady job)
    (hnext : ∀ a, Steady (next a)) : Steady (job >>= next) :=
  h.agree_bind hnext

theorem Steady.agree_map {job : Job ε α} {Q : IdRelation β γ} {f : α → β} {g : α → γ}
    (h : Steady job) (hQ : ∀ a, Q [] [] (f a) (g a)) : Agree Q (f <$> job) (g <$> job) := by
  refine Agree.map (Agree.mono h ?_)
  rintro _ _ a _ - ⟨rfl, rfl, rfl⟩
  exact hQ a

theorem agree_mapM {rename : (Text → Text) → β → γ} {next : α → Job ε β}
    (h : ∀ a, Agree (SameButIds rename) (next a) (next a)) (items : List α) :
    Agree (SameButIds fun σ => List.map (rename σ)) (items.mapM next) (items.mapM next) := by
  induction items with
  | nil => exact agree_pure fun _ _ _ => rfl
  | cons a rest ih =>
    rw [List.mapM_cons]
    refine (h a).bind fun ids ids' b b' hlength hb => ih.bind fun more more' bs bs' hmore hbs => ?_
    refine agree_pure fun σ τ hnames => ?_
    obtain ⟨hfirst, hlast⟩ := map_eq_of_append hlength hnames
    rw [List.append_nil, List.append_nil] at hlast
    exact congrArg₂ List.cons (hb σ τ hfirst) (hbs σ τ hlast)

end Job

end ConversationFlow
