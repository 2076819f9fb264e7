import ConversationFlow.Schema.Finding

/-!
# Readings

The outcome of reading a value: a typed value, or everything that was found wrong with it. Readings
of the parts of a value are put together so that the findings of all parts are kept, in order.
-/

namespace ConversationFlow.Schema

/-- A list or an object in a place where only plain values can be looked up. -/
inductive Container where
  | list
  | object
deriving DecidableEq, Repr

/-- What reading a value comes to. A container where a tag is looked up ends the reading of the
whole document: no findings are gathered then. -/
inductive Reading (α : Type) where
  | accepted (value : α)
  | refused (findings : List Finding)
  | untagged (container : Container)

namespace Reading

variable {α β : Type}

def map (f : α → β) : Reading α → Reading β
  | accepted a => accepted (f a)
  | refused findings => refused findings
  | untagged container => untagged container

/-- Two readings together: the findings of both, those of the first one first. -/
def both (f : Reading (α → β)) (x : Reading α) : Reading β :=
  match f, x with
  | accepted g, x => x.map g
  | untagged container, _ => untagged container
  | refused _, untagged container => untagged container
  | refused findings, accepted _ => refused findings
  | refused findings, refused more => refused (findings ++ more)

instance : Applicative Reading where
  pure := accepted
  map := map
  seq f x := both f (x ())

instance : LawfulApplicative Reading where
  id_map r := by cases r <;> rfl
  comp_map f g r := by cases r <;> rfl
  map_const := rfl
  seqLeft_eq r s := rfl
  seqRight_eq r s := rfl
  pure_seq f r := by cases r <;> rfl
  map_pure f a := rfl
  seq_pure r a := by cases r <;> rfl
  seq_assoc r s t := by
    cases r <;> cases s <;> cases t <;>
      simp [Seq.seq, both, map, Functor.map, List.append_assoc]

def andThen (r : Reading α) (f : α → Reading β) : Reading β :=
  match r with
  | accepted a => f a
  | refused findings => refused findings
  | untagged container => untagged container

/-- A reading and a check that is made after it. What the check finds hides what the reading found. -/
def checkedBy (r : Reading α) (check : Reading Unit) : Reading α :=
  match r, check with
  | untagged container, _ => untagged container
  | r, accepted _ => r
  | _, refused findings => refused findings
  | _, untagged container => untagged container

/-- The reading of a part of a value, seen from outside. -/
def under (step : Step) : Reading α → Reading α
  | accepted a => accepted a
  | refused findings => refused (findings.map (·.under step))
  | untagged container => untagged container

def refuse (complaint : Complaint) (value : Json) : Reading α :=
  refused [⟨complaint, [], value⟩]

def toOption : Reading α → Option α
  | accepted a => some a
  | _ => none

theorem both_eq_accepted_iff {f : Reading (α → β)} {x : Reading α} {b : β} :
    both f x = accepted b ↔ ∃ g a, f = accepted g ∧ x = accepted a ∧ g a = b := by
  cases f <;> cases x <;> simp [both, map]

theorem map_checkedBy (f : α → β) (r : Reading α) (check : Reading Unit) :
    f <$> r.checkedBy check = (f <$> r).checkedBy check := by
  cases r <;> cases check <;> rfl

theorem checkedBy_eq_accepted_iff {r : Reading α} {check : Reading Unit} {a : α} :
    r.checkedBy check = accepted a ↔ r = accepted a ∧ check = accepted () := by
  cases r <;> cases check <;> simp [checkedBy]

theorem under_eq_accepted_iff {step : Step} {r : Reading α} {a : α} :
    r.under step = accepted a ↔ r = accepted a := by
  cases r <;> simp [under]

end Reading

end ConversationFlow.Schema
