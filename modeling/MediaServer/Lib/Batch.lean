/-
A queue that is sent in batches.

What is accepted waits, and at some point all of it is handed over at once and is no
longer waited for.  The answer says how many were taken, from the front, or that none
was; what was not taken is lost, and the one who waits knows of it only if the answer is
an error.

Nothing here says that little is lost.  What holds whatever the answers are is that what
was taken is part of what was accepted, in order (`BatchQueue.Inv.taken_sublist`); and
if every answer that is no error is the whole batch, then all that was lost was reported.
-/
import Mathlib.Tactic.Common
import Mathlib.Data.List.Flatten
import Mathlib.Logic.Relation

namespace Lib

variable {ε α : Type*}

/-- A batch that was handed over, and the answer. -/
structure Flush (ε α : Type*) where
  batch : List α
  answer : Except ε Nat

namespace Flush

/-- What was taken of it. -/
def took (f : Flush ε α) : List α :=
  match f.answer with
  | .ok n => f.batch.take n
  | .error _ => []

/-- An answer that is no error is the whole batch. -/
def Whole (f : Flush ε α) : Prop := ∀ n, f.answer = .ok n → f.batch.length ≤ n

theorem took_sublist (f : Flush ε α) : f.took.Sublist f.batch := by
  unfold took
  split
  · exact List.take_sublist _ _
  · exact List.nil_sublist _

/-- Nothing of the batch was lost, or the loss was reported. -/
theorem Whole.settled {f : Flush ε α} (h : f.Whole) :
    f.took = f.batch ∨ ∃ e, f.answer = .error e := by
  cases hanswer : f.answer with
  | ok n =>
      refine .inl ?_
      rw [took, hanswer]
      exact List.take_of_length_le (h n hanswer)
  | error e => exact .inr ⟨e, rfl⟩

end Flush

structure BatchQueue (ε α : Type*) where
  accepted : List α
  pending : List α
  flushes : List (Flush ε α)

namespace BatchQueue

inductive Step (q : BatchQueue ε α) : BatchQueue ε α → Prop
  | accept (a : α) :
      Step q { q with accepted := q.accepted ++ [a], pending := q.pending ++ [a] }
  | flush (answer : Except ε Nat) :
      Step q { q with
        pending := []
        flushes := q.flushes ++ [{ batch := q.pending, answer }] }

/-- What was accepted was handed over, or waits. -/
def Inv (q : BatchQueue ε α) : Prop := q.accepted = q.flushes.flatMap Flush.batch ++ q.pending

variable {q q' : BatchQueue ε α}

theorem Inv.step (h : Inv q) (hs : Step q q') : Inv q' := by
  unfold Inv at h ⊢
  cases hs with
  | accept a => rw [h, List.append_assoc]
  | flush answer => simp [h]

/-- Any number of steps preserve it. -/
theorem Inv.steps (h : Inv q) (hs : Relation.ReflTransGen Step q q') : Inv q' := by
  induction hs with
  | refl => exact h
  | tail _ hstep ih => exact ih.step hstep

/-- What was taken, in order. -/
def taken (q : BatchQueue ε α) : List α := q.flushes.flatMap Flush.took

/-- **What was taken is part of what was accepted, in order.** -/
theorem Inv.taken_sublist (h : Inv q) : q.taken.Sublist q.accepted := by
  have hflushes : (q.flushes.flatMap Flush.took).Sublist (q.flushes.flatMap Flush.batch) := by
    clear h
    induction q.flushes with
    | nil => exact List.nil_sublist _
    | cons f rest ih =>
        rw [List.flatMap_cons, List.flatMap_cons]
        exact f.took_sublist.append ih
  rw [h]
  exact hflushes.trans (List.sublist_append_left _ _)

end BatchQueue

end Lib
