import ConversationFlow.Event

/-!
# Jobs

A job may issue ids, ask for the time, record events and fail. What was issued and recorded before a
failure stays issued and recorded. The main lemmas say what each job comes to and which journal it
leaves: a sequence of jobs goes on from the journal of the job before it.
-/

namespace ConversationFlow

/-- Where ids and the current time come from. The `n`-th id that is issued is `mint n`, counted
from 0. -/
structure Provider where
  mint : Nat → Text
  now : Timestamp

/-- How many ids were issued, and what was recorded. -/
structure Journal where
  issued : Nat
  events : List Event

def Journal.empty : Journal := ⟨0, []⟩

/-- A job that comes to a value of `α` or fails with an `ε`. -/
abbrev Job (ε : Type) := ReaderT Provider (ExceptT ε (StateM Journal))

namespace Job

variable {ε ε' α : Type}

/-- The outcome of a job, and the journal after it. -/
def runFrom (job : Job ε α) (provider : Provider) (journal : Journal) : Except ε α × Journal :=
  StateT.run (ExceptT.run (ReaderT.run job provider)) journal

/-- The job of a value that is known. -/
def of : Except ε α → Job ε α
  | .ok a => pure a
  | .error e => throw e

def newId : Job ε Text := do
  let provider ← read
  let journal ← get
  set { journal with issued := journal.issued + 1 }
  pure (provider.mint journal.issued)

def now : Job ε Timestamp := do
  let provider ← read
  pure provider.now

def record (event : Event) : Job ε Unit :=
  modify fun journal => { journal with events := journal.events ++ [event] }

/-- A job of which a failure is an outcome. -/
def outcome (job : Job ε α) : Job ε' (Except ε α) :=
  fun provider => ExceptT.lift (ExceptT.run (ReaderT.run job provider))

section Runs

variable {β : Type} (provider : Provider) (journal : Journal)

@[simp]
theorem runFrom_pure (a : α) :
    (pure a : Job ε α).runFrom provider journal = (.ok a, journal) :=
  rfl

@[simp]
theorem runFrom_throw (e : ε) :
    (throw e : Job ε α).runFrom provider journal = (.error e, journal) :=
  rfl

/-- What follows a job starts from the journal that the job left. -/
theorem runFrom_bind (job : Job ε α) (next : α → Job ε β) :
    (job >>= next).runFrom provider journal =
      match job.runFrom provider journal with
      | (.ok a, later) => (next a).runFrom provider later
      | (.error e, later) => (.error e, later) := by
  simp only [runFrom, ReaderT.run_bind, ExceptT.run_bind, StateT.run_bind]
  cases StateT.run (ExceptT.run (ReaderT.run job provider)) journal with
  | mk result later => cases result <;> rfl

theorem runFrom_map (f : α → β) (job : Job ε α) :
    (f <$> job).runFrom provider journal =
      ((job.runFrom provider journal).1.map f, (job.runFrom provider journal).2) := by
  simp only [runFrom, ReaderT.run_map, ExceptT.run_map, StateT.run_map]
  rfl

@[simp]
theorem runFrom_of (r : Except ε α) : (of r).runFrom provider journal = (r, journal) := by
  cases r <;> rfl

@[simp]
theorem runFrom_newId :
    (newId : Job ε Text).runFrom provider journal =
      (.ok (provider.mint journal.issued), ⟨journal.issued + 1, journal.events⟩) :=
  rfl

@[simp]
theorem runFrom_now : (now : Job ε Timestamp).runFrom provider journal = (.ok provider.now, journal) :=
  rfl

@[simp]
theorem runFrom_record (event : Event) :
    (record event : Job ε Unit).runFrom provider journal =
      (.ok (), ⟨journal.issued, journal.events ++ [event]⟩) :=
  rfl

/-- A failure that became an outcome leaves the journal as the failed job left it. -/
@[simp]
theorem runFrom_outcome (job : Job ε α) :
    (job.outcome : Job ε' (Except ε α)).runFrom provider journal =
      (.ok (job.runFrom provider journal).1, (job.runFrom provider journal).2) :=
  rfl

end Runs

end Job

end ConversationFlow
