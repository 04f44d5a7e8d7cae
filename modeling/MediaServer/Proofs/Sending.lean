/-
Sending.

The send slots are in three places: free, in an entry that is yet to be handed over, or
the kernel's, which has one until the last entry about it has been polled.  With that
the socket is a transmit ring (`System.txRing`), every step of it is a step of the ring
or is not seen by it, and the ring refines an ordered queue.

Two things tie the socket to the ring.  The pointers of a packet lead to the packet
itself, so a message is read from the slot it was written to; and the flag that makes
`commit_send_to` submit is set whenever there is something to hand over.
-/
import MediaServer.Proofs.Socket
import MediaServer.Lib.TxRing

namespace MediaServer.Uring

open Lib UdpSocket2IoUring

variable {sendQueue recvQueue : Nat}

/-! ### Packets -/

/-- The pointers of packet `i` are set, and lead to it. -/
structure NetPacket.Wired (i : Nat) (pkt : NetPacket) : Prop where
  name : pkt.msgName = some i
  namelen : pkt.msgNamelen = addrLen pkt.addr
  iov : pkt.msgIov = some i
  iovlen : pkt.msgIovlen = 1
  base : pkt.iovBase = some i

theorem message_wired {sendBufs : Nat → NetPacket} {slot : UInt32}
    (h : (sendBufs slot.toNat).Wired slot.toNat) :
    message sendBufs slot = some
      ((sendBufs slot.toNat).buf.take (sendBufs slot.toNat).iovLen,
        (sendBufs slot.toNat).addr) := by
  simp [message, h.name, h.namelen, h.iov, h.iovlen, h.base]

/-! ### The socket as a ring -/

/-- The slot that is given back with an entry: the last one about it. -/
def Cqe.freedSlot (cqe : Cqe) : Option UInt32 :=
  if cqe.more then none
  else
    match UserData.decode cqe.userData with
    | .send idx => some idx
    | _ => none

namespace System

/-- The slots the kernel has, and those it has given back in an entry not yet polled. -/
def owned (s : System sendQueue recvQueue) : List UInt32 :=
  s.kernel.sends.map (·.slot) ++ s.sock.ring.completion.filterMap Cqe.freedSlot

def txRing (s : System sendQueue recvQueue) : TxRing UInt32 Message :=
  { free := s.sock.sendFreeQueue
    pending := s.unsubmitted
    owned := s.owned
    read := message s.sock.sendBufs
    taken := s.kernel.taken
    accepted := s.accepted }

structure Sending (s : System sendQueue recvQueue) : Prop where
  tagged : s.Tagged
  ring : s.txRing.Inv (indices (UInt32.ofNat sendQueue))
  wired : ∀ i < sendQueue, (s.sock.sendBufs i).Wired i
  flag : s.sock.ringQueueChanged = false → s.unsubmitted = []

variable {parse : GroupMsghdr → Bytes → Except SocketPanic Message}
  {s s' : System sendQueue recvQueue}

theorem indices_nodup (n : UInt32) : (indices n).Nodup := by
  refine List.Nodup.of_map UInt32.toNat ?_
  rw [map_toNat_indices]
  exact List.nodup_range

theorem mem_indices {n i : UInt32} : i ∈ indices n ↔ i.toNat < n.toNat := by
  have hmem : i.toNat ∈ (indices n).map UInt32.toNat ↔ i ∈ indices n :=
    List.mem_map_of_injective fun _ _ h => UInt32.toNat_inj.mp h
  rw [← hmem, map_toNat_indices, List.mem_range]

/-- No slot is out of bounds. -/
theorem Sending.slot_lt (h : Sending s) {i : UInt32}
    (hi : i ∈ s.sock.sendFreeQueue ++ s.unsubmitted ++ s.owned) : i.toNat < sendQueue := by
  have hlt := mem_indices.mp (h.ring.slots.mem_iff.mp hi)
  have hle : (UInt32.ofNat sendQueue).toNat ≤ sendQueue := by
    rw [UInt32.toNat_ofNat']
    exact Nat.mod_le _ _
  omega

/-! ### What the kernel has -/

/-- An entry that gives nothing back. -/
theorem owned_posted {kernel : Kernel} {cqe : Cqe} (hfreed : cqe.freedSlot = none)
    (hsends : kernel.sends.map (·.slot) = s.kernel.sends.map (·.slot)) :
    (s.posted kernel cqe).owned = s.owned := by
  simp [owned, posted, hsends, hfreed]

/-- With the last entry about a request its slot is still the kernel's. -/
theorem owned_posted_freed {kernel : Kernel} {cqe : Cqe} {i : Nat} {req : SendRequest}
    (hreq : s.kernel.sends[i]? = some req) (hfreed : cqe.freedSlot = some req.slot)
    (hsends : kernel.sends = s.kernel.sends.eraseIdx i) :
    s.owned.Perm (s.posted kernel cqe).owned := by
  have hback := ((perm_eraseIdx hreq).map (·.slot)).append_right
    (s.sock.ring.completion.filterMap Cqe.freedSlot)
  refine hback.trans ?_
  have hlast := (List.perm_append_singleton req.slot
    ((s.kernel.sends.eraseIdx i).map (·.slot) ++
      s.sock.ring.completion.filterMap Cqe.freedSlot)).symm
  simpa [owned, posted, hsends, hfreed] using hlast

theorem slot_sendRequest (sqes : List Sqe) :
    (sqes.filterMap Sqe.sendRequest).map (·.slot) = sqes.filterMap Sqe.sendSlot := by
  rw [List.map_filterMap]
  refine List.filterMap_congr fun sqe _ => ?_
  cases hslot : sqe.sendSlot <;> simp [Sqe.sendRequest, hslot]

/-- What is handed over is the kernel's. -/
theorem owned_flushed {sqes : List Sqe} (hslots : sqes.filterMap Sqe.sendSlot = s.unsubmitted)
    (hfreed : (sqes.filterMap Sqe.answer).filterMap Cqe.freedSlot = []) :
    (s.owned ++ s.unsubmitted).Perm (s.flushed sqes).owned := by
  have hmove : (s.sock.ring.completion.filterMap Cqe.freedSlot ++ s.unsubmitted).Perm
      (s.unsubmitted ++ s.sock.ring.completion.filterMap Cqe.freedSlot) := List.perm_append_comm
  have howned : (s.flushed sqes).owned = s.kernel.sends.map (·.slot) ++
      (s.unsubmitted ++ s.sock.ring.completion.filterMap Cqe.freedSlot) := by
    simp [owned, flushed, Kernel.handed, hfreed, slot_sendRequest, hslots]
  rw [howned, owned, List.append_assoc]
  exact hmove.append_left _

theorem freedSlot_readSqes (group : UInt16) :
    ((readSqes group).filterMap Sqe.answer).filterMap Cqe.freedSlot = [] := by
  simp [Cqe.freedSlot, UserData.decode_encode]

/-- What the kernel has once a group is armed: what was unsubmitted was handed over with it. -/
theorem owned_armed (h : s.Tagged) (group : UInt16) :
    (s.owned ++ s.unsubmitted).Perm (s.armed group).owned := by
  refine owned_flushed (by simp [unsubmitted]) ?_
  rw [List.filterMap_append, h.answer_submission, List.nil_append, freedSlot_readSqes]

theorem taken_armed (group : UInt16) : (s.armed group).kernel.taken
    = s.kernel.taken ++ s.unsubmitted.filterMap (message s.sock.sendBufs) := by
  simp [armed, flushed, Kernel.handed, unsubmitted]

/-! ### Every step is a step of the ring -/

theorem Sending.armed_step (h : Sending s) (group : UInt16) :
    s.txRing.Step (s.armed group).txRing := by
  show s.txRing.Step { s.txRing with
    pending := []
    owned := (s.armed group).owned
    taken := (s.armed group).kernel.taken }
  rw [taken_armed]
  exact .flush (owned_armed h.tagged group)

section

variable {idx : UInt32} {rest : List UInt32} {buf : Bytes} {dest : SocketAddr}

/-- With a free slot a send takes place, if the packet fits it and the queue has room. -/
theorem step_sending {answer : Except IoError Unit} (hthread : s.thread = .ready (.addSendTo buf dest))
    (hfree : s.sock.sendFreeQueue = idx :: rest) (hidx : idx.toNat < sendQueue) :
    s.step parse (.run answer) = some s' ↔
      (buf.length ≤ sendBufSize ∧ s.sock.ring.submission.length < s.sock.ring.entries) ∧
        s' = s.sending idx rest buf dest := by
  simp only [System.step, hthread, run, addSendTo, UdpSocket2IoUring.addSendTo, hfree,
    IoUring.push, hidx, true_and]
  constructor
  · intro hs
    split at hs
    · rename_i hfits
      split at hs
      · cases hs
      · rename_i ring hroom
        split at hroom
        · rename_i hlt
          cases hroom
          cases hs
          exact ⟨⟨hfits, hlt⟩, rfl⟩
        · cases hroom
    · cases hs
  · rintro ⟨⟨hfits, hlt⟩, rfl⟩
    rw [if_pos hfits, if_pos hlt]
    rfl

theorem unsubmitted_sending : (s.sending idx rest buf dest).unsubmitted = s.unsubmitted ++ [idx] := by
  simp [unsubmitted, sending, pushed]

/-- Only the one packet is written. -/
theorem sendBufs_sending {i : Nat} (h : i ≠ idx.toNat) :
    (s.sending idx rest buf dest).sock.sendBufs i = s.sock.sendBufs i :=
  if_neg h

/-- A packet that is written to stays wired. -/
theorem Sending.wired_sending (h : Sending s) {i : Nat} (hi : i < sendQueue) :
    ((s.sending idx rest buf dest).sock.sendBufs i).Wired i := by
  have hwired := h.wired i hi
  by_cases heq : i = idx.toNat
  · subst heq
    constructor <;> simp [sending, hwired.name, hwired.iov, hwired.iovlen, hwired.base]
  · rw [sendBufs_sending heq]
    exact hwired

theorem Sending.message_sending (h : Sending s) (hidx : idx.toNat < sendQueue) :
    message (s.sending idx rest buf dest).sock.sendBufs idx = some (buf, dest) := by
  rw [message_wired (h.wired_sending hidx)]
  simp [sending]

theorem Sending.message_sending_ne (h : Sending s) {j : UInt32} (hj : j.toNat < sendQueue)
    (hne : j ≠ idx) :
    message (s.sending idx rest buf dest).sock.sendBufs j = message s.sock.sendBufs j := by
  have hne' : j.toNat ≠ idx.toNat := fun heq => hne (UInt32.toNat_inj.mp heq)
  rw [message_wired (h.wired_sending hj), message_wired (h.wired j.toNat hj),
    sendBufs_sending hne']

theorem Sending.sending_step (h : Sending s) (hfree : s.sock.sendFreeQueue = idx :: rest) :
    s.txRing.Step (s.sending idx rest buf dest).txRing := by
  have hidx : idx.toNat < sendQueue := h.slot_lt (by simp [hfree])
  show s.txRing.Step { s.txRing with
    free := rest
    pending := (s.sending idx rest buf dest).unsubmitted
    read := message (s.sending idx rest buf dest).sock.sendBufs
    accepted := s.accepted ++ [(buf, dest)] }
  rw [unsubmitted_sending]
  refine .accept hfree (h.message_sending hidx) fun j hj hne => h.message_sending_ne ?_ hne
  refine h.slot_lt ?_
  rw [List.append_assoc]
  exact List.mem_append_right _ hj

end

/-- **Every step is a step of the ring**, or is not seen by it. -/
theorem Sending.simulates {a : Label} (h : Sending s) (hs : Effect parse s a s') :
    s.txRing.Step s'.txRing := by
  cases hs with
  | @sent i req more hreq =>
      have htag := h.tagged.sends req (List.mem_of_getElem? hreq)
      cases more with
      | true =>
          refine .reorder (List.Perm.of_eq (owned_posted ?_ ?_).symm)
          · simp [Cqe.freedSlot]
          · refine List.ext_getElem? fun n => ?_
            by_cases hn : i = n
            · subst hn
              simp [List.getElem?_set_self', hreq]
            · simp [List.getElem?_set_ne hn]
      | false =>
          refine .reorder (owned_posted_freed hreq ?_ rfl)
          simp [Cqe.freedSlot, htag, UserData.decode_encode]
  | @notified i req hreq =>
      have htag := h.tagged.sends req (List.mem_of_getElem? hreq)
      refine .reorder (owned_posted_freed hreq ?_ rfl)
      simp [Cqe.freedSlot, htag, UserData.decode_encode]
  | @filled i j data req buf more hreq hbuf hgroup =>
      have htag := h.tagged.recvs req (List.mem_of_getElem? hreq)
      refine .reorder (List.Perm.of_eq (owned_posted ?_ rfl).symm)
      simp [Cqe.freedSlot, htag, UserData.decode_encode]
  | @ended i req hreq =>
      have htag := h.tagged.recvs req (List.mem_of_getElem? hreq)
      refine .reorder (List.Perm.of_eq (owned_posted ?_ rfl).symm)
      simp [Cqe.freedSlot, htag, UserData.decode_encode]
  | @armed group rest answer hthread hbound => exact h.armed_step group
  | prepared answer hthread => exact .reorder (List.Perm.refl _)
  | called c hthread => exact .reorder (List.Perm.refl _)
  | polledAll hthread hcq => exact .reorder (List.Perm.refl _)
  | @polledFilled c cqe rest group idx hthread hcq hdata hmore hbuf =>
      refine .reorder (List.Perm.of_eq ?_)
      simp [txRing, owned, polled, hcq, Cqe.freedSlot, hmore]
  | @polledEnded c cqe rest group hthread hcq hdata hmore =>
      refine .reorder (List.Perm.of_eq ?_)
      simp [txRing, owned, polled, hcq, Cqe.freedSlot, hdata]
  | @polledSent c cqe rest idx hthread hcq hdata hmore =>
      refine .release ?_
      have hfreed : s.owned = s.kernel.sends.map (·.slot) ++ idx :: rest.filterMap Cqe.freedSlot := by
        simp [owned, hcq, Cqe.freedSlot, hdata, hmore]
      show s.owned.Perm _
      rw [hfreed]
      exact List.perm_middle
  | @polledOther c cqe rest hthread hcq hrecv hsend =>
      refine .reorder (List.Perm.of_eq ?_)
      have hfreed : cqe.freedSlot = none := by
        unfold Cqe.freedSlot
        cases hdata : UserData.decode cqe.userData with
        | send idx => simp [hsend idx hdata]
        | recv group => exact absurd hdata (hrecv group)
        | provideBuffers idx => simp
      simp [txRing, owned, polled, hcq, hfreed]
  | accepted answer hthread hfree => exact h.sending_step hfree
  | flushed hthread hchanged =>
      exact .flush (owned_flushed rfl (by rw [h.tagged.answer_submission]; rfl))
  | received answer hthread hwait hparse => exact .reorder (List.Perm.refl _)
  | @rearmed group rest answer hthread hwait hfree hbound => exact h.armed_step group
  | returned answer outcome hthread hcommit => exact .reorder (List.Perm.refl _)

theorem Sending.step {a : Label} (h : Sending s) (hs : Effect parse s a s') : Sending s' := by
  have htagged := h.tagged.step hs
  have hring := h.ring.step (indices_nodup _) (h.simulates hs)
  cases hs with
  | armed answer hthread hbound => exact ⟨htagged, hring, h.wired, fun _ => rfl⟩
  | accepted answer hthread hfree =>
      refine ⟨htagged, hring, fun i hi => h.wired_sending hi, fun hflag => ?_⟩
      cases hflag
  | flushed hthread hchanged => exact ⟨htagged, hring, h.wired, fun _ => rfl⟩
  | rearmed answer hthread hwait hfree hbound => exact ⟨htagged, hring, h.wired, fun _ => rfl⟩
  | _ => exact ⟨htagged, hring, h.wired, h.flag⟩

/-- **No slot is written while it is queued or the kernel has it.** -/
theorem Sending.frame {a : Label} (h : Sending s) (hs : Effect parse s a s') :
    ∀ i ∈ s.unsubmitted ++ s.owned, s'.sock.sendBufs i.toNat = s.sock.sendBufs i.toNat := by
  intro i hi
  cases hs with
  | @accepted buf dest idx rest answer hthread hfree =>
      refine sendBufs_sending fun heq => ?_
      have hfree' : i ∈ s.txRing.free := by
        rw [UInt32.toNat_inj.mp heq]
        simp [txRing, hfree]
      exact h.ring.free_disjoint (indices_nodup _) hfree' hi
  | _ => rfl

/-- **A `commit_send_to` that succeeds leaves nothing to hand over.** -/
theorem Sending.committed {answer : Except IoError Unit} (h : Sending s)
    (hthread : s.thread = .ready .commitSendTo) (hs : Effect parse s (.run answer) s')
    (hok : s'.outcome = some (.commitSendTo (.ok ()))) : s'.unsubmitted = [] := by
  cases hs with
  | flushed _ _ => rfl
  | returned answer outcome _ hcommit => exact h.flag (hcommit (Option.some.inj hok))
  | accepted answer hthread' hfree => simp [hthread] at hthread'
  | received answer hthread' hwait hparse => simp [hthread] at hthread'
  | rearmed answer hthread' hwait hfree hbound => simp [hthread] at hthread'

/-! ### From the start -/

theorem Sending.start {sock : UdpSocket2IoUring sendQueue recvQueue}
    (h : UdpSocket2IoUring.new sendQueue recvQueue = .ok sock) : Sending (System.start sock) := by
  obtain ⟨-, hsub, hcq, hfree, -, -⟩ := new_ok h
  refine ⟨Tagged.start sock hsub, ⟨?_, ?_⟩, fun i hi => ?_, fun _ => ?_⟩
  · simp [txRing, owned, unsubmitted, System.start, preapreWrite, Kernel.new, hsub, hcq, hfree]
  · simp [txRing, unsubmitted, System.start, preapreWrite, Kernel.new, hsub]
  · constructor <;> simp [System.start, preapreWrite, hi]
  · simp [unsubmitted, System.start, preapreWrite, hsub]

theorem Sending.visits {sock : UdpSocket2IoUring sendQueue recvQueue} {as : List Label}
    (hnew : UdpSocket2IoUring.new sendQueue recvQueue = .ok sock)
    (h : Visits (System.step parse) (System.start sock) as s) : Sending s := by
  obtain ⟨pre, -, hrun⟩ := h
  exact runLabels_preserves (fun _ _ _ hI hs => hI.step (step_effect hs)) hrun (.start hnew)

/--
**The send path refines an ordered queue.**  Every slot is in one place; what the kernel
was handed, and what it is still to be, is what was accepted, in order; and no step
writes to a slot that is not free.
-/
theorem sends_refine_queue {parse : GroupMsghdr → Bytes → Except SocketPanic Message}
    (hsize : sendQueue < 2 ^ 32) {sock : UdpSocket2IoUring sendQueue recvQueue}
    (hnew : UdpSocket2IoUring.new sendQueue recvQueue = .ok sock) {as : List Label}
    {s : System sendQueue recvQueue}
    (hrun : Visits (System.step parse) (System.start sock) as s) :
    ((s.sock.sendFreeQueue ++ s.unsubmitted ++ s.owned).map UInt32.toNat).Perm
        (List.range sendQueue) ∧
      s.kernel.taken ++ s.unsubmitted.filterMap (message s.sock.sendBufs) = s.accepted ∧
      ∀ a s', s.step parse a = some s' →
        (∀ i ∈ s.unsubmitted ++ s.owned,
          s'.sock.sendBufs i.toNat = s.sock.sendBufs i.toNat) ∧
        OrderedQueue.Step s.txRing.queue s'.txRing.queue ∧
        ∀ answer, a = .run answer → s.thread = .ready .commitSendTo →
          s'.outcome = some (.commitSendTo (.ok ())) →
            s'.unsubmitted = [] ∧ s'.kernel.taken = s'.accepted := by
  have hsending := Sending.visits hnew hrun
  refine ⟨?_, hsending.ring.order, fun a s' hstep => ?_⟩
  · have hperm := hsending.ring.slots.map UInt32.toNat
    rwa [map_toNat_indices, UInt32.toNat_ofNat_of_lt' hsize] at hperm
  · have heffect := step_effect hstep
    refine ⟨hsending.frame heffect,
      (hsending.simulates heffect).refines (indices_nodup _) hsending.ring, ?_⟩
    rintro answer rfl hthread hok
    have hnone := hsending.committed hthread heffect hok
    have horder := (hsending.step heffect).ring.order
    refine ⟨hnone, ?_⟩
    simpa [txRing, hnone] using horder

/-- A run that sends one packet. -/
theorem sends_refine_queue_one :
    ∃ (sock : UdpSocket2IoUring 16 16) (s : System 16 16),
      UdpSocket2IoUring.new 16 16 = .ok sock ∧
      Visits (System.step parseV4) (System.start sock)
        (prepareLabels 1 ++ callLabels (.addSendTo [1, 2, 3, 4] ⟨.v4 0x7F000001, 80⟩) 17 ++
          callLabels .commitSendTo 0) s ∧
      s.kernel.taken = [([1, 2, 3, 4], ⟨.v4 0x7F000001, 80⟩)] ∧
      ((s.sock.sendFreeQueue ++ s.unsubmitted ++ s.owned).map UInt32.toNat).Perm
        (List.range 16) ∧
      s.kernel.taken ++ s.unsubmitted.filterMap (message s.sock.sendBufs) = s.accepted := by
  have hrun : (runNew 16 16 parseV4 (prepareLabels 1 ++
      callLabels (.addSendTo [1, 2, 3, 4] ⟨.v4 0x7F000001, 80⟩) 17 ++
        callLabels .commitSendTo 0)).map (·.kernel.taken)
      = some [([1, 2, 3, 4], ⟨.v4 0x7F000001, 80⟩)] := by decide +kernel
  obtain ⟨sock, s, hnew, hlabels, htaken⟩ := of_runNew hrun
  have hvisits : Visits (System.step parseV4) (System.start sock) _ s :=
    ⟨_, List.prefix_refl _, hlabels⟩
  obtain ⟨hslots, horder, -⟩ := sends_refine_queue (by decide) hnew hvisits
  exact ⟨sock, s, hnew, hvisits, htaken, hslots, horder⟩

/--
The slots are numbered by a `u32`: with 2^32 of them the queue of free slots is empty
from the start, and the slots are nowhere.
-/
theorem sends_refine_queue_wide :
    ∃ (sock : UdpSocket2IoUring (2 ^ 32) 32) (s : System (2 ^ 32) 32),
      UdpSocket2IoUring.new (2 ^ 32) 32 = .ok sock ∧
      Visits (System.step parseV4) (System.start sock) (prepareLabels 2) s ∧
      s.thread = .idle ∧
      ¬ ((s.sock.sendFreeQueue ++ s.unsubmitted ++ s.owned).map UInt32.toNat).Perm
        (List.range (2 ^ 32)) := by
  have hrun : (runNew (2 ^ 32) 32 parseV4 (prepareLabels 2)).map
      (fun s => (s.thread, s.sock.sendFreeQueue ++ s.unsubmitted ++ s.owned))
      = some (.idle, []) := by decide +kernel
  obtain ⟨sock, s, hnew, hlabels, hread⟩ := of_runNew hrun
  obtain ⟨hthread, hnone⟩ := Prod.mk.inj hread
  refine ⟨sock, s, hnew, ⟨_, List.prefix_refl _, hlabels⟩, hthread, fun hperm => ?_⟩
  have hlength := hperm.length_eq
  rw [hnone, List.map_nil, List.length_nil, List.length_range] at hlength
  exact absurd hlength (by decide)

end System

end MediaServer.Uring
