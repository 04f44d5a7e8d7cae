/-
A transmit queue that does not copy.

A program owns a number of slots.  To send, it writes a message into a free slot and
appends the slot to a queue; at some point it hands the whole queue to a device, which
reads the messages from the slots, goes on using them for as long as it likes, and
gives each back by itself.

What makes that safe is one equation: the free slots, the queued ones and the device's
are, together, all the slots, each once.  It is preserved by everything either side
does, a slot somebody else has is therefore never written, and so what the device has
taken, followed by what is queued, is what was accepted.  Seen from outside the slots
disappear, and what is left is an ordered queue (`QueueStep`).
-/
import Mathlib.Data.List.Perm.Basic

namespace Lib

variable {σ α : Type*}

/-- The purpose: messages wait in order, and are sent all at once. -/
structure OrderedQueue (α : Type*) where
  waiting : List α
  sent : List α

/-- A message is queued, the queue is flushed, or nothing happens that is seen from outside. -/
inductive OrderedQueue.Step : OrderedQueue α → OrderedQueue α → Prop
  | offer (q : OrderedQueue α) (a : α) : Step q { q with waiting := q.waiting ++ [a] }
  | flush (q : OrderedQueue α) : Step q { waiting := [], sent := q.sent ++ q.waiting }
  | stay (q : OrderedQueue α) : Step q q

structure TxRing (σ α : Type*) where
  free : List σ
  pending : List σ
  /-- The slots the device has, in no particular order. -/
  owned : List σ
  /-- The message in a slot. -/
  read : σ → Option α
  taken : List α
  accepted : List α

namespace TxRing

inductive Step (r : TxRing σ α) : TxRing σ α → Prop
  | accept {i : σ} {rest : List σ} {a : α} {read : σ → Option α} (hfree : r.free = i :: rest)
      (hnew : read i = some a) (hold : ∀ j ∈ r.pending ++ r.owned, j ≠ i → read j = r.read j) :
      Step r { r with
        free := rest
        pending := r.pending ++ [i]
        read
        accepted := r.accepted ++ [a] }
  | flush {owned : List σ} (h : (r.owned ++ r.pending).Perm owned) :
      Step r { r with
        pending := []
        owned
        taken := r.taken ++ r.pending.filterMap r.read }
  | release {i : σ} {owned : List σ} (h : r.owned.Perm (i :: owned)) :
      Step r { r with free := r.free ++ [i], owned }
  | reorder {owned : List σ} (h : r.owned.Perm owned) : Step r { r with owned }

/-- Every slot is in one place, and nothing accepted is lost, doubled or overtaken. -/
structure Inv (slots : List σ) (r : TxRing σ α) : Prop where
  slots : (r.free ++ r.pending ++ r.owned).Perm slots
  order : r.taken ++ r.pending.filterMap r.read = r.accepted

variable {slots : List σ} {r r' : TxRing σ α}

/-- A free slot is nobody else's. -/
theorem Inv.free_disjoint (hnodup : slots.Nodup) (h : Inv slots r) {i : σ} (hi : i ∈ r.free) :
    i ∉ r.pending ++ r.owned := by
  have hall : (r.free ++ (r.pending ++ r.owned)).Nodup := by
    rw [← List.append_assoc]
    exact h.slots.nodup_iff.mpr hnodup
  intro hmem
  exact (List.nodup_append.mp hall).2.2 i hi i hmem rfl

/-- **No slot is written while it is queued or the device has it.** -/
theorem Step.frame (hnodup : slots.Nodup) (h : Inv slots r) (hs : Step r r') :
    ∀ i ∈ r.pending ++ r.owned, r'.read i = r.read i := by
  intro i hi
  cases hs with
  | accept hfree hnew hold =>
      refine hold i hi ?_
      rintro rfl
      exact h.free_disjoint hnodup (by simp [hfree]) hi
  | flush _ => rfl
  | release _ => rfl
  | reorder _ => rfl

theorem Inv.step (hnodup : slots.Nodup) (h : Inv slots r) (hs : Step r r') : Inv slots r' := by
  have hframe := hs.frame hnodup h
  cases hs with
  | @accept i rest a read hfree hnew hold =>
      refine ⟨?_, ?_⟩
      · refine List.Perm.trans ?_ h.slots
        rw [hfree]
        simp only [List.append_assoc, List.cons_append]
        exact (List.perm_middle.append_left rest).trans List.perm_middle
      · have hsame : r.pending.filterMap read = r.pending.filterMap r.read :=
          List.filterMap_congr fun j hj => hframe j (List.mem_append_left _ hj)
        simp only [List.filterMap_append, hsame, ← List.append_assoc, h.order]
        simp [hnew]
  | flush hperm =>
      refine ⟨?_, by simpa using h.order⟩
      refine List.Perm.trans ?_ h.slots
      simp only [List.append_nil, List.append_assoc]
      exact (hperm.symm.trans List.perm_append_comm).append_left r.free
  | @release i owned hperm =>
      refine ⟨?_, h.order⟩
      refine List.Perm.trans ?_ h.slots
      simp only [List.append_assoc, List.singleton_append]
      refine List.Perm.append_left r.free ?_
      exact List.perm_middle.symm.trans (hperm.symm.append_left r.pending)
  | reorder hperm => exact ⟨(hperm.symm.append_left _).trans h.slots, h.order⟩

/-! ### Seen from outside -/

/-- The messages that wait and those that were sent. -/
def queue (r : TxRing σ α) : OrderedQueue α :=
  { waiting := r.pending.filterMap r.read, sent := r.taken }

/-- **The ring refines an ordered queue.** -/
theorem Step.refines (hnodup : slots.Nodup) (h : Inv slots r) (hs : Step r r') :
    OrderedQueue.Step r.queue r'.queue := by
  have hframe := hs.frame hnodup h
  cases hs with
  | @accept i rest a read hfree hnew hold =>
      have hsame : r.pending.filterMap read = r.pending.filterMap r.read :=
        List.filterMap_congr fun j hj => hframe j (List.mem_append_left _ hj)
      have hoffer := OrderedQueue.Step.offer r.queue a
      simpa [queue, List.filterMap_append, hsame, hnew] using hoffer
  | flush _ => exact .flush r.queue
  | release _ => exact .stay r.queue
  | reorder _ => exact .stay r.queue

end TxRing

end Lib
