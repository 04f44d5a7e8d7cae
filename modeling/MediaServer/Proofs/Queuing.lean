/-
Queuing a datagram.

Both sockets that queue copy a datagram into a buffer of 1500 bytes, and take the place
for it before they look at its length.  What is shown is that a call that comes to an end
has appended the datagram or left what was queued alone (`Appends`), and when a call
comes to an end: a place must be free, and then the datagram must fit.

For the ring there are three ways to panic, and two of them are ruled out by what holds
in every run: a free slot is one of the slots, and if the ring is as large as it was
asked to be, its queue has room for the entry.
-/
import MediaServer.Proofs.Room
import MediaServer.Proofs.Batches

namespace MediaServer.Uring

open Lib UdpSocket2IoUring

variable {sendQueue recvQueue : Nat}

namespace System

variable {parse : GroupMsghdr → Bytes → Except SocketPanic Message}
  {s s' : System sendQueue recvQueue} {sock : UdpSocket2IoUring sendQueue recvQueue}
  {buf : Bytes} {dest : SocketAddr}

/-- The datagrams that are queued, in order. -/
def queued (s : System sendQueue recvQueue) : List Message := s.txRing.queue.waiting

/-- The slots that are free, queued or the kernel's. -/
def slots (s : System sendQueue recvQueue) : List UInt32 :=
  s.sock.sendFreeQueue ++ s.unsubmitted ++ s.owned

/-- The datagram was appended, or an error returned and nothing changed. -/
def Appends (buf : Bytes) (dest : SocketAddr) (s s' : System sendQueue recvQueue) : Prop :=
  (s'.outcome = some (.addSendTo (.ok buf.length)) ∧ s'.queued = s.queued ++ [(buf, dest)] ∧
      s'.accepted = s.accepted ++ [(buf, dest)] ∧ s'.slots.Perm s.slots) ∨
    ((∃ e, s'.outcome = some (.addSendTo (.error e))) ∧ s'.queued = s.queued ∧
      s'.accepted = s.accepted ∧ s'.sock = s.sock ∧ s'.slots = s.slots)

theorem InBounds.visits {as : List Label}
    (hnew : UdpSocket2IoUring.new sendQueue recvQueue = .ok sock)
    (h : Visits (System.step parse) (System.start sock) as s) : s.InBounds := by
  obtain ⟨pre, -, hrun⟩ := h
  refine (runLabels_preserves (I := fun s => s.Tagged ∧ s.InBounds) ?_ hrun ⟨?_, ?_⟩).2
  · intro t a t' hI hs
    have heffect := step_effect hs
    exact ⟨hI.1.step heffect, hI.2.step hI.1 heffect⟩
  · exact (Sending.start hnew).tagged
  · exact .start hnew

/-- No step moves a slot out of sight. -/
theorem Sending.slots_step {a : Label} (h : Sending s) (hs : Effect parse s a s') :
    s'.slots.Perm s.slots :=
  (h.step hs).ring.slots.trans h.ring.slots.symm

/-- A turn of `poll_completions` leaves what is queued alone. -/
theorem queued_poll (hs : s.step parse .poll = some s') :
    s'.queued = s.queued ∧ s'.accepted = s.accepted := by
  cases step_effect hs <;> exact ⟨rfl, rfl⟩

/-- With no slot free the call returns an error, and nothing has changed. -/
theorem step_full {answer : Except IoError Unit} (hthread : s.thread = .ready (.addSendTo buf dest))
    (hfree : s.sock.sendFreeQueue = []) :
    s.step parse (.run answer) = some
      { s with
        outcome := some (.addSendTo (.error (.wouldBlock "Send queue is full")))
        thread := .idle } := by
  simp only [System.step, hthread, run, addSendTo, UdpSocket2IoUring.addSendTo, hfree]
  rfl

/-- With one free, and the datagram in it, the datagram is what is queued last. -/
theorem Sending.appends {idx : UInt32} {rest : List UInt32} {answer : Except IoError Unit}
    (h : Sending s) (hs : s.step parse (.run answer) = some (s.sending idx rest buf dest)) :
    Appends buf dest s (s.sending idx rest buf dest) := by
  have heffect := step_effect hs
  have horder := (h.step heffect).ring.order
  have hqueued : s.kernel.taken ++ (s.sending idx rest buf dest).queued
      = s.kernel.taken ++ (s.queued ++ [(buf, dest)]) := by
    rw [← List.append_assoc]
    calc s.kernel.taken ++ (s.sending idx rest buf dest).queued
        = s.accepted ++ [(buf, dest)] := horder
      _ = s.kernel.taken ++ s.queued ++ [(buf, dest)] := congrArg (· ++ _) h.ring.order.symm
  exact .inl ⟨rfl, List.append_cancel_left hqueued, rfl, h.slots_step heffect⟩

/-- When a call of `add_send_to` comes to its end, and that it has appended the datagram then. -/
theorem Sending.queues_iff {answer : Except IoError Unit} (h : Sending s)
    (hthread : s.thread = .ready (.addSendTo buf dest)) :
    (∃ s', s.step parse (.run answer) = some s' ∧ Appends buf dest s s') ↔
      s.sock.sendFreeQueue = [] ∨
        buf.length ≤ sendBufSize ∧ s.sock.ring.submission.length < s.sock.ring.entries := by
  cases hfree : s.sock.sendFreeQueue with
  | nil =>
      refine iff_of_true ⟨_, step_full hthread hfree, .inr ?_⟩ (.inl rfl)
      exact ⟨⟨_, rfl⟩, rfl, rfl, rfl, rfl⟩
  | cons idx rest =>
      have hidx : idx.toNat < sendQueue := h.slot_lt (by simp [hfree])
      constructor
      · rintro ⟨s', hs, -⟩
        exact .inr ((step_sending hthread hfree hidx).mp hs).1
      · rintro (hnil | hroom)
        · cases hnil
        · have hs : s.step parse (.run answer) = some (s.sending idx rest buf dest) :=
            (step_sending hthread hfree hidx).mpr ⟨hroom, rfl⟩
          exact ⟨_, hs, h.appends hs⟩

/-- A turn of `poll_completions` does not panic, and leaves what is queued alone. -/
theorem poll_appends_nothing {as : List Label} {c : Call}
    (hnew : UdpSocket2IoUring.new sendQueue recvQueue = .ok sock)
    (hrun : Visits (System.step parse) (System.start sock) as s) (hthread : s.thread = .polling c) :
    ∃ s', s.step parse .poll = some s' ∧ s'.queued = s.queued ∧ s'.accepted = s.accepted ∧
      s'.slots.Perm s.slots := by
  have hsome : ∃ s', s.step parse .poll = some s' := by
    cases hcq : s.sock.ring.completion with
    | nil => exact ⟨{ s with thread := .ready c }, by simp [System.step, poll, hthread, hcq]⟩
    | cons cqe rest =>
        obtain ⟨s', hs, -⟩ := poll_some (InBounds.visits hnew hrun) hthread hcq
        exact ⟨s', hs⟩
  obtain ⟨s', hs⟩ := hsome
  obtain ⟨hqueued, haccepted⟩ := queued_poll hs
  exact ⟨s', hs, hqueued, haccepted, (Sending.visits hnew hrun).slots_step (step_effect hs)⟩

end System

end MediaServer.Uring

namespace MediaServer.Mmsg

open Lib
open Uring (IoError Message SocketPanic sendBufSize)

variable {queue : Nat}

namespace System

open UdpSocket2Mmsg

variable {s s' : System queue} {buf : Bytes} {dest : SocketAddr}

/-- What is left in the queue before a datagram is added: a full batch goes first. -/
def kept (s : System queue) : List Packet := if s.sock.queueLen = queue then [] else s.sock.pending

/-- The datagram was appended, or an error returned and nothing was added. -/
def Appends (buf : Bytes) (dest : SocketAddr) (s s' : System queue) : Prop :=
  (s'.outcome = some (.ok buf.length) ∧ s'.sock.pending = s.kept ++ [packetOf (buf, dest)] ∧
      s'.accepted = s.accepted ++ [(buf, dest)]) ∨
    ((∃ e, s'.outcome = some (.error e)) ∧ s'.sock.pending = s.kept ∧ s'.accepted = s.accepted)

theorem queues_iff (h : s.sock.Fits) {answer : Except IoError Nat} :
    (∃ s', s.step (.addSendTo buf dest answer) = some s' ∧ Appends buf dest s s') ↔
      (s.sock.queueLen = queue ∧ ∃ e, answer = .error e) ∨
        0 < queue ∧ buf.length ≤ sendBufSize := by
  by_cases hfull : s.sock.queueLen = queue
  · have hkept : s.kept = [] := if_pos hfull
    cases answer with
    | error e =>
        refine iff_of_true ⟨_, step_refused h hfull, .inr ⟨⟨e, rfl⟩, ?_, rfl⟩⟩ (.inl ⟨hfull, e, rfl⟩)
        rw [hkept, pending_emptied]
    | ok k =>
        constructor
        · rintro ⟨s', hs, -⟩
          exact .inr ((step_flushed h hfull).mp hs).1
        · rintro (⟨-, e, he⟩ | hroom)
          · cases he
          · refine ⟨_, (step_flushed h hfull).mpr ⟨hroom, rfl⟩, .inl ⟨rfl, ?_, rfl⟩⟩
            rw [hkept]
            exact pending_stored buf dest s.sock.emptied
  · have hlt : s.sock.queueLen < queue := Nat.lt_of_le_of_ne h.len hfull
    have hkept : s.kept = s.sock.pending := if_neg hfull
    constructor
    · rintro ⟨s', hs, -⟩
      have hroom := ((step_stored hfull).mp hs).1
      exact .inr ⟨by omega, hroom.2⟩
    · rintro (⟨hfull', -⟩ | hroom)
      · exact absurd hfull' hfull
      · refine ⟨_, (step_stored hfull).mpr ⟨⟨hlt, hroom.2⟩, rfl⟩, .inl ⟨rfl, ?_, rfl⟩⟩
        rw [hkept]
        exact pending_stored buf dest s.sock

end System

end MediaServer.Mmsg

namespace MediaServer

open Lib
open Uring (GroupMsghdr SocketPanic Message UdpSocket2IoUring IoError sendBufSize)

/--
**A datagram is queued or refused, and nothing else happens**, if and only if no slot is
free or the datagram fits one (of the socket that sends in batches: the batch that goes
first is answered by an error, or the datagram fits a slot).  A longer one is not refused:
there is no step.
-/
theorem queuing_atomic {sendQueue recvQueue queue : Nat}
    {parse : GroupMsghdr → Bytes → Except SocketPanic Message}
    {sock : UdpSocket2IoUring sendQueue recvQueue}
    (hnew : UdpSocket2IoUring.new sendQueue recvQueue = .ok sock) {as : List Uring.Label}
    {s : Uring.System sendQueue recvQueue}
    (hs : Visits (Uring.System.step parse) (.start sock) as s) {bs : List Mmsg.Label}
    {t : Mmsg.System queue} (ht : runLabels Mmsg.System.step (.start queue) bs = some t)
    (buf : Bytes) (dest : SocketAddr) :
    ((s.thread = .polling (.addSendTo buf dest) →
        ∃ s', s.step parse .poll = some s' ∧ s'.queued = s.queued ∧ s'.accepted = s.accepted ∧
          s'.slots.Perm s.slots) ∧
      (∀ answer, s.thread = .ready (.addSendTo buf dest) →
        ((∃ s', s.step parse (.run answer) = some s' ∧ s.Appends buf dest s') ↔
          s.sock.sendFreeQueue = [] ∨
            buf.length ≤ sendBufSize ∧ s.sock.ring.submission.length < s.sock.ring.entries)) ∧
      (sock.ring.entries = (sendQueue + recvQueue).nextPowerOfTwo → s.sock.sendFreeQueue ≠ [] →
        s.sock.ring.submission.length < s.sock.ring.entries)) ∧
    ∀ answer, (∃ t', t.step (.addSendTo buf dest answer) = some t' ∧ t.Appends buf dest t') ↔
      (t.sock.queueLen = queue ∧ ∃ e, answer = .error e) ∨ 0 < queue ∧ buf.length ≤ sendBufSize := by
  refine ⟨⟨fun hthread => ?_, fun answer hthread => ?_, fun hring hfree => ?_⟩, fun answer => ?_⟩
  · exact Uring.System.poll_appends_nothing hnew hs hthread
  · exact (Uring.System.Sending.visits hnew hs).queues_iff hthread
  · exact Uring.System.send_finds_room hnew hring hs hfree
  · exact Mmsg.System.queues_iff (Mmsg.System.runLabels_inv ht).1

open Uring (parseV4)
open Uring.System (prepareLabels runNew of_runNew)
open Mmsg.System (anyone)

/-- A datagram of four bytes, for two sockets on which nothing waits. -/
theorem queuing_atomic_four :
    (∃ (sock : UdpSocket2IoUring 16 16) (s s' : Uring.System 16 16),
      UdpSocket2IoUring.new 16 16 = .ok sock ∧
      runLabels (Uring.System.step parseV4) (.start sock)
        (prepareLabels 1 ++ [.call (.addSendTo [1, 2, 3, 4] anyone)] ++ List.replicate 17 .poll)
          = some s ∧
      s.step parseV4 (.run (.ok ())) = some s' ∧ s.Appends [1, 2, 3, 4] anyone s') ∧
    ∃ t' : Mmsg.System 2, (Mmsg.System.start 2).step (.addSendTo [1, 2, 3, 4] anyone (.ok 0))
      = some t' ∧ (Mmsg.System.start 2).Appends [1, 2, 3, 4] anyone t' := by
  have hrun : (runNew 16 16 parseV4 (prepareLabels 1 ++
      [.call (.addSendTo [1, 2, 3, 4] anyone)] ++ List.replicate 17 .poll)).map (fun s =>
        (s.thread, decide (s.sock.ring.submission.length < s.sock.ring.entries)))
      = some (.ready (.addSendTo [1, 2, 3, 4] anyone), true) := by decide +kernel
  obtain ⟨sock, s, hnew, hlabels, hread⟩ := of_runNew hrun
  simp only [Prod.mk.injEq, decide_eq_true_eq] at hread
  obtain ⟨hthread, hroom⟩ := hread
  have hstart : runLabels Mmsg.System.step (.start 2) [] = some (Mmsg.System.start 2) := rfl
  obtain ⟨⟨-, hring, -⟩, hbatch⟩ := queuing_atomic hnew ⟨_, List.prefix_refl _, hlabels⟩ hstart
    [1, 2, 3, 4] anyone
  obtain ⟨s', hs, happends⟩ := (hring (.ok ()) hthread).mpr (.inr ⟨by decide, hroom⟩)
  exact ⟨⟨sock, s, s', hnew, hlabels, hs, happends⟩, (hbatch (.ok 0)).mpr (.inr (by decide))⟩

/-- One byte too many, and both sockets panic. -/
theorem queuing_atomic_oversized :
    (∃ (sock : UdpSocket2IoUring 16 16) (s : Uring.System 16 16),
      UdpSocket2IoUring.new 16 16 = .ok sock ∧
      runLabels (Uring.System.step parseV4) (.start sock)
        (prepareLabels 1 ++ [.call (.addSendTo (List.replicate 1501 0) anyone)] ++
          List.replicate 17 .poll) = some s ∧
      Uring.System.Panics parseV4 s (.run (.ok ())) .outOfBounds) ∧
    (Mmsg.System.start 2).addSendTo (List.replicate 1501 0) anyone (.ok 0)
      = .error .outOfBounds := by
  have hrun : (runNew 16 16 parseV4 (prepareLabels 1 ++
      [.call (.addSendTo (List.replicate 1501 0) anyone)] ++ List.replicate 17 .poll)).map (fun s =>
        (decide (s.thread = .ready (.addSendTo (List.replicate 1501 0) anyone)),
          failure (s.run parseV4 (.ok ()) (.addSendTo (List.replicate 1501 0) anyone))))
      = some (true, some .outOfBounds) := by decide +kernel
  have hbatch : failure ((Mmsg.System.start 2).addSendTo (List.replicate 1501 0) anyone (.ok 0))
      = some .outOfBounds := by decide +kernel
  obtain ⟨sock, s, hnew, hlabels, hread⟩ := of_runNew hrun
  simp only [Prod.mk.injEq, decide_eq_true_eq] at hread
  obtain ⟨hthread, hpanic⟩ := hread
  exact ⟨⟨sock, s, hnew, hlabels, .run hthread (failure_eq_some.mp hpanic)⟩,
    failure_eq_some.mp hbatch⟩

end MediaServer
