/-
Room in the submission queue.

Between two submits only sends are pushed, each from a slot of its own, so a send finds
room in a ring of as many entries as there are slots.  Arming a group pushes sixteen
buffers and the receive itself, seventeen entries for sixteen receive slots.  The ring is
made for `SEND_QUEUE + RECV_QUEUE`, and that is enough but where it is exact: with one
group, and a sum that is a power of two already, every slot unsubmitted leaves sixteen
(`submission_never_overflows`).
-/
import MediaServer.Proofs.Rearming
import MediaServer.Proofs.Indices
import MediaServer.Proofs.Sending

namespace MediaServer.Uring

open Lib UdpSocket2IoUring

variable {sendQueue recvQueue : Nat}

/-! ### Powers of two -/

open private Nat.nextPowerOfTwo.go from Init.Data.Nat.Power2.Basic

theorem le_nextPowerOfTwo (n : Nat) : n ≤ n.nextPowerOfTwo := by
  have key : ∀ (m power : Nat) (h : power > 0), n - power ≤ m →
      n ≤ Nat.nextPowerOfTwo.go n power h := by
    intro m
    induction m with
    | zero =>
        intro power h hm
        unfold Nat.nextPowerOfTwo.go
        rw [if_neg (by omega)]
        omega
    | succ m ih =>
        intro power h hm
        unfold Nat.nextPowerOfTwo.go
        split
        · exact ih _ _ (by omega)
        · omega
  exact key (n - 1) 1 (by decide) (Nat.le_refl _)

theorem nextPowerOfTwo_le {n k : Nat} (h : n ≤ 2 ^ k) : n.nextPowerOfTwo ≤ 2 ^ k := by
  have key : ∀ (m j : Nat) (hpos : 2 ^ j > 0), j + m = k →
      Nat.nextPowerOfTwo.go n (2 ^ j) hpos ≤ 2 ^ k := by
    intro m
    induction m with
    | zero =>
        intro j hpos hj
        obtain rfl : j = k := hj
        unfold Nat.nextPowerOfTwo.go
        rw [if_neg (Nat.not_lt.mpr h)]
    | succ m ih =>
        intro j hpos hj
        unfold Nat.nextPowerOfTwo.go
        split
        · exact ih (j + 1) _ (by omega)
        · exact Nat.pow_le_pow_right (by decide) (by omega)
  exact key k 0 (by decide) (Nat.zero_add k)

/-- What is a power of two already is not rounded up, and everything else is. -/
theorem nextPowerOfTwo_eq_iff {n : Nat} : n.nextPowerOfTwo = n ↔ n.isPowerOfTwo := by
  constructor
  · intro h
    rw [← h]
    exact n.isPowerOfTwo_nextPowerOfTwo
  · rintro ⟨k, rfl⟩
    exact Nat.le_antisymm (nextPowerOfTwo_le (Nat.le_refl _)) (le_nextPowerOfTwo _)

namespace System

variable {parse : GroupMsghdr → Bytes → Except SocketPanic Message}
  {s s' : System sendQueue recvQueue}

/-! ### What is in the queue -/

/-- A ring does not grow. -/
theorem entries_step {a : Label} (hs : Effect parse s a s') :
    s'.sock.ring.entries = s.sock.ring.entries := by
  cases hs <;> rfl

/-- Nothing is pushed while `prepare` is not done. -/
theorem submission_preparing {a : Label}
    (h : ∀ todo, s.thread = .preparing todo → s.sock.ring.submission = [])
    (hs : Effect parse s a s') (todo : List UInt16) (hprep : s'.thread = .preparing todo) :
    s'.sock.ring.submission = [] := by
  cases hs with
  | sent more hreq => exact h todo hprep
  | notified hreq => exact h todo hprep
  | filled more hreq hbuf hgroup => exact h todo hprep
  | ended hreq => exact h todo hprep
  | armed answer hthread hbound => rfl
  | called c hthread => cases c <;> cases hprep
  | polledFilled hthread hcq hdata hmore hbuf => cases hthread.symm.trans hprep
  | polledEnded hthread hcq hdata hmore => cases hthread.symm.trans hprep
  | polledSent hthread hcq hdata hmore => cases hthread.symm.trans hprep
  | polledOther hthread hcq hrecv hsend => cases hthread.symm.trans hprep
  | _ => cases hprep

/-- The slots are counted. -/
theorem Sending.counted (h : Sending s) (hsize : sendQueue < 2 ^ 32) :
    s.sock.sendFreeQueue.length + s.sock.ring.submission.length + s.owned.length = sendQueue := by
  have hlen := h.ring.slots.length_eq
  have hall : (indices (UInt32.ofNat sendQueue)).length = sendQueue := by
    rw [← List.length_map UInt32.toNat, map_toNat_indices, List.length_range,
      UInt32.toNat_ofNat_of_lt' hsize]
  have hsub : s.sock.ring.submission.length = s.unsubmitted.length := by
    rw [h.tagged.sqes, List.length_map]
  rw [hall] at hlen
  rw [hsub]
  simpa [txRing, Nat.add_assoc] using hlen

/-- What holds in every state of a run from a ring of so many entries. -/
structure Roomy (entries : Nat) (s : System sendQueue recvQueue) : Prop where
  sending : Sending s
  preparing : ∀ todo, s.thread = .preparing todo → s.sock.ring.submission = []
  entries : s.sock.ring.entries = entries

theorem Roomy.step {entries : Nat} {a : Label} (h : Roomy entries s) (hs : Effect parse s a s') :
    Roomy entries s' :=
  ⟨h.sending.step hs, submission_preparing h.preparing hs, (entries_step hs).trans h.entries⟩

theorem Roomy.visits {sock : UdpSocket2IoUring sendQueue recvQueue} {as : List Label}
    (hnew : UdpSocket2IoUring.new sendQueue recvQueue = .ok sock)
    (h : Visits (System.step parse) (System.start sock) as s) : Roomy sock.ring.entries s := by
  obtain ⟨pre, -, hrun⟩ := h
  refine runLabels_preserves (fun _ _ _ hI hs => hI.step (step_effect hs)) hrun ⟨.start hnew, ?_, rfl⟩
  exact fun _ _ => (new_ok hnew).2.1

/-- Every group that is anywhere is a group of receive buffers. -/
theorem place_bound {sock : UdpSocket2IoUring sendQueue recvQueue} {as : List Label}
    (hnew : UdpSocket2IoUring.new sendQueue recvQueue = .ok sock) (hsize : recvQueue < 2 ^ 20)
    (h : Visits (System.step parse) (System.start sock) as s) {group : UInt16}
    (hgroup : group ∈ s.places) : ∀ i ∈ groupBufs group, i.toNat < recvQueue := by
  have hmul := (new_ok hnew).1
  have hmem := (places_visits hnew h).2.mem_iff.mp hgroup
  exact fun i hi => (mem_allBufs hsize hmul).mp (List.mem_flatMap.mpr ⟨group, hmem, hi⟩)

/-! ### What finds no room -/

/-- A `prepare_read` that finds no room had room for less than seventeen entries. -/
theorem prepareRead_full {answer : Except IoError Unit} {group : UInt16} {p : SocketPanic}
    (hbound : ∀ i ∈ groupBufs group, i.toNat < recvQueue)
    (h : s.prepareRead answer group = .error p) (hp : p.isPush = true) :
    s.sock.ring.entries < s.sock.ring.submission.length + 17 := by
  by_contra hroom
  obtain ⟨sock, hpush⟩ := pushRead_some hbound (Nat.le_of_not_lt hroom)
  simp only [prepareRead, hpush] at h
  split at h
  · cases h
    cases hp
  · cases h

/-- With sixteen entries left, the receive of a group is the one too many. -/
theorem prepareRead_tight {answer : Except IoError Unit} {group : UInt16}
    (hgroup : group.toNat + 1 < 2 ^ 16) (hbound : ∀ i ∈ groupBufs group, i.toNat < recvQueue)
    (hroom : s.sock.ring.entries = s.sock.ring.submission.length + 16) :
    s.prepareRead answer group = .error .pushRecvmsg := by
  have hlen : (groupBufs group).length = 16 := by simp [groupBufs_eq hgroup]
  obtain ⟨sock, hok⟩ := provideAll_some group s.sock hbound (by omega)
  obtain ⟨-, rfl⟩ := provideAll_ok hok
  have hpush : s.sock.pushRead group = .error .pushRecvmsg := by
    simp [pushRead, hok, pushed, IoUring.push, hlen, hroom]
  simp [prepareRead, hpush]

/-- A turn of `poll_completions` panics on an entry that should have a buffer, and only then. -/
theorem complete_error {sock : UdpSocket2IoUring sendQueue recvQueue} {cqe : Cqe} {p : SocketPanic}
    (h : sock.complete cqe = .error p) : p = .selectBuffer := by
  unfold UdpSocket2IoUring.complete at h
  split at h
  · split at h
    · split at h
      · exact (Except.error.inj h).symm
      · cases h
    · cases h
  · split at h <;> cases h
  · cases h

/-- What a call is about when a push finds no room: a send, or a group that is idle. -/
theorem run_push (hparse : ∀ hdr buf p, parse hdr buf = .error p → p.isPush = false)
    {c : Call} {answer : Except IoError Unit} {p : SocketPanic}
    (h : s.run parse answer c = .error p) (hp : p.isPush = true) :
    (s.sock.sendFreeQueue ≠ [] ∧ ¬ s.sock.ring.submission.length < s.sock.ring.entries) ∨
      ∃ group rest, s.sock.readWaitFreeGroups = group :: rest ∧
        ({ s with sock := { s.sock with readWaitFreeGroups := rest } } :
          System sendQueue recvQueue).prepareRead answer group = .error p := by
  cases c with
  | addSendTo buf dest =>
      have herr := except_map_error.mp h
      unfold UdpSocket2IoUring.addSendTo at herr
      split at herr
      · cases herr
      · rename_i idx rest hfree
        refine .inl ⟨by simp [hfree], fun hroom => ?_⟩
        simp only [IoUring.push, hroom, if_true] at herr
        split at herr
        · cases herr
        · cases herr
          cases hp
  | commitSendTo => cases h
  | recvFrom =>
      have herr := except_map_error.mp h
      unfold UdpSocket2IoUring.recvFrom at herr
      split at herr
      · split at herr
        · split at herr
          · rename_i hfails
            cases herr
            rw [hparse _ _ _ hfails] at hp
            cases hp
          · cases herr
        · cases herr
          cases hp
      · cases herr
  | finishReadFrom =>
      simp only [run, finishReadFrom] at h
      split at h
      · split at h
        · rename_i group rest hfree
          exact .inr ⟨group, rest, hfree, except_map_error.mp h⟩
        · cases h
      · cases h

/-- The ring of a new socket, and what its sizes are then. -/
theorem new_entries {sock : UdpSocket2IoUring sendQueue recvQueue}
    (hnew : UdpSocket2IoUring.new sendQueue recvQueue = .ok sock)
    (hring : sock.ring.entries = (sendQueue + recvQueue).nextPowerOfTwo) :
    sendQueue + recvQueue ≤ sock.ring.entries ∧ sock.ring.entries ≤ 2 ^ 15 := by
  refine ⟨hring ▸ le_nextPowerOfTwo _, ?_⟩
  unfold UdpSocket2IoUring.new at hnew
  split at hnew
  · cases hnew
  · split at hnew
    · cases hnew
    · rename_i ring hsome
      cases hnew
      unfold IoUring.new at hsome
      split at hsome
      · cases hsome
      · rename_i hbound
        cases hsome
        refine nextPowerOfTwo_le ?_
        unfold IoUring.maxEntries at hbound
        omega

section

variable {sock : UdpSocket2IoUring sendQueue recvQueue}
  (hnew : UdpSocket2IoUring.new sendQueue recvQueue = .ok sock)
  (hring : sock.ring.entries = (sendQueue + recvQueue).nextPowerOfTwo)

include hnew hring

/-- A send finds room: its slot has no entry in the queue. -/
theorem send_finds_room {as : List Label}
    (hrun : Visits (System.step parse) (System.start sock) as s)
    (hfree : s.sock.sendFreeQueue ≠ []) :
    s.sock.ring.submission.length < s.sock.ring.entries := by
  obtain ⟨hle, hmax⟩ := new_entries hnew hring
  have hroomy := Roomy.visits hnew hrun
  have hcount := hroomy.sending.counted (by omega)
  have hpos := List.length_pos_iff.mpr hfree
  rw [hroomy.entries]
  omega

/-- Where a push finds no room the sum is exact, and there is one group. -/
theorem push_fails_exact (hparse : ∀ hdr buf p, parse hdr buf = .error p → p.isPush = false)
    (hsend : 1 ≤ sendQueue) {as : List Label}
    (hrun : Visits (System.step parse) (System.start sock) as s) {a : Label} {p : SocketPanic}
    (h : Panics parse s a p) (hp : p.isPush = true) :
    recvQueue = 16 ∧ (sendQueue + 16).isPowerOfTwo := by
  obtain ⟨hle, hmax⟩ := new_entries hnew hring
  have hmul := (new_ok hnew).1
  have hroomy := Roomy.visits hnew hrun
  have hcount := hroomy.sending.counted (by omega)
  have hplaces := groups_counted hnew hrun
  cases h with
  | @prepare group rest answer p hthread hread =>
      have hmem : group ∈ s.places := by simp [System.places, hthread, Thread.fresh]
      have hfull := prepareRead_full (place_bound hnew (by omega) hrun hmem) hread hp
      rw [hroomy.preparing _ hthread, hroomy.entries] at hfull
      simp only [hthread, Thread.fresh, List.length_cons, List.length_nil] at hplaces hfull
      omega
  | poll hthread hcq hcomplete =>
      rw [complete_error hcomplete] at hp
      cases hp
  | @run c answer p hthread hrun' =>
      rcases run_push hparse hrun' hp with ⟨hfree, hfull⟩ | ⟨group, rest, hfree, hread⟩
      · exact absurd (send_finds_room hnew hring hrun hfree) hfull
      · have hmem : group ∈ s.places := by simp [System.places, hfree]
        have hfull := prepareRead_full (place_bound hnew (by omega) hrun hmem) hread hp
        simp only [hroomy.entries, hfree, List.length_cons] at hfull hplaces
        have hone : recvQueue = 16 := by omega
        subst hone
        refine ⟨rfl, nextPowerOfTwo_eq_iff.mp ?_⟩
        omega

end

/-! ### Filling the queue -/

/-- A socket nobody has been heard of on, in the middle of a run. -/
structure Silent (parse : GroupMsghdr → Bytes → Except SocketPanic Message)
    (s : System sendQueue recvQueue) : Prop where
  spared : Spared parse s
  sending : Sending s
  idle : s.thread = .idle
  sends : s.kernel.sends = []

/-- One more send, which is not submitted. -/
theorem Silent.send (h : Silent parse s) (hsize : sendQueue < 2 ^ 32)
    (hslot : s.sock.ring.submission.length < sendQueue)
    (hroom : s.sock.ring.submission.length < s.sock.ring.entries) :
    ∃ bs t, runLabels (System.step parse) s bs = some t ∧ Silent parse t ∧
      t.kernel = s.kernel ∧ t.sock.ring.completion = [] ∧
      t.sock.ring.entries = s.sock.ring.entries ∧
      t.sock.ring.submission.length = s.sock.ring.submission.length + 1 := by
  let dest : SocketAddr := { ip := .v4 0x7F000001, port := 80 }
  have hcall : s.step parse (.call (.addSendTo [] dest))
      = some { s with thread := .polling (.addSendTo [] dest) } := by
    simp [System.step, call, h.idle, Call.polls]
  have hspared₁ := h.spared.step (show s.spares (.call (.addSendTo [] dest)) from trivial)
    (step_effect hcall)
  have hsending₁ := h.sending.step (step_effect hcall)
  obtain ⟨bs, t, hpolls, hspared, hready, hring, hkernel⟩ := hspared₁.pollAll _ _ rfl rfl
  have hsending : Sending t :=
    runLabels_preserves (fun _ _ _ hI hs => hI.step (step_effect hs)) hpolls hsending₁
  -- Nothing is sent and nothing is posted, so what is not free is in the queue.
  have howned : t.owned = [] := by simp [owned, hring, hkernel, h.sends]
  have hcount := hsending.counted hsize
  rw [howned, hring] at hcount
  have hfree : t.sock.sendFreeQueue ≠ [] := by
    rw [← List.length_pos_iff]
    simp only [List.length_nil] at hcount
    omega
  obtain ⟨idx, rest, hidx⟩ := List.exists_cons_of_ne_nil hfree
  have hlt := hsending.slot_lt (i := idx) (by simp [hidx])
  have hroom' : t.sock.ring.submission.length < t.sock.ring.entries := by rwa [hring]
  have hrun : t.step parse (.run (.ok ())) = some (t.sending idx rest [] dest) :=
    (step_sending hready hidx hlt).mpr ⟨⟨Nat.zero_le _, hroom'⟩, rfl⟩
  have hspared₂ := hspared.step (show t.spares (.run (.ok ())) from trivial) (step_effect hrun)
  refine ⟨.call (.addSendTo [] dest) :: (bs ++ [.run (.ok ())]), _, ?_,
    ⟨hspared₂, hsending.step (step_effect hrun), rfl, ?_⟩, hkernel, ?_, ?_, ?_⟩
  · rw [runLabels_cons hcall]
    exact runLabels_concat.mpr ⟨t, hpolls, hrun⟩
  · rw [← h.sends, ← hkernel]
    rfl
  · simp [System.sending, pushed, hring]
  · simp [System.sending, pushed, hring]
  · simp [System.sending, pushed, hring]

/-- So many more. -/
theorem Silent.fill (n : Nat) :
    ∀ s : System sendQueue recvQueue, Silent parse s → sendQueue < 2 ^ 32 →
      s.sock.ring.submission.length + (n + 1) ≤ sendQueue →
      s.sock.ring.submission.length + (n + 1) ≤ s.sock.ring.entries →
      ∃ bs t, runLabels (System.step parse) s bs = some t ∧ Silent parse t ∧
        t.kernel = s.kernel ∧ t.sock.ring.completion = [] ∧
        t.sock.ring.entries = s.sock.ring.entries ∧
        t.sock.ring.submission.length = s.sock.ring.submission.length + (n + 1) := by
  induction n with
  | zero => exact fun s h hsize hslot hroom => h.send hsize hslot hroom
  | succ n ih =>
      intro s h hsize hslot hroom
      obtain ⟨bs, t, hrun, ht, hkernel, hcq, hentries, hlen⟩ := ih s h hsize (by omega) (by omega)
      obtain ⟨cs, u, hrun', hu, hkernel', hcq', hentries', hlen'⟩ :=
        ht.send hsize (by omega) (by omega)
      refine ⟨bs ++ cs, u, ?_, hu, hkernel'.trans hkernel, hcq', hentries'.trans hentries, by omega⟩
      rw [runLabels_append, hrun]
      exact hrun'

/-- One group is armed, and ends. -/
theorem silent_one (parse : GroupMsghdr → Bytes → Except SocketPanic Message)
    {sock : UdpSocket2IoUring sendQueue 16}
    (hnew : UdpSocket2IoUring.new sendQueue 16 = .ok sock) (hroom : 17 ≤ sock.ring.entries) :
    ∃ as s, runLabels (System.step parse) (System.start sock) as = some s ∧ Silent parse s ∧
      s.kernel.recvs = [] ∧ s.kernel.reported = [] ∧ s.sock.ring.submission = [] := by
  obtain ⟨-, hsub, -, -, -, -⟩ := new_ok hnew
  have hthread : (System.start sock).thread = .preparing [0] := rfl
  have hbound : ∀ i ∈ groupBufs 0, i.toNat < 16 := fun i hi =>
    Nat.lt_of_div_eq_zero (by decide) (mem_groupBufs.mp hi).2
  have hread := prepareRead_some (s := System.start sock) hbound (by
    show sock.ring.submission.length + 17 ≤ sock.ring.entries
    rwa [hsub, List.length_nil, Nat.zero_add])
  let s₁ : System sendQueue 16 := { (System.start sock).armed 0 with thread := .preparing [] }
  have hfirst : (System.start sock).step parse (.prepare (.ok ())) = some s₁ := by
    simp [System.step, prepare, hthread, hread, Except.toOption, s₁]
  have hsecond : s₁.step parse (.prepare (.ok ())) = some { s₁ with thread := .idle } := by
    simp [System.step, prepare, s₁]
  have hrecvs : s₁.kernel.recvs = [{ bgid := 0, userData := (UserData.recv 0).encode }] := by
    simp [s₁, armed, flushed, Kernel.handed, System.start, Kernel.new, preapreWrite, hsub]
  have hthird : ∃ s, System.step parse { s₁ with thread := .idle } (.kernel (.ended 0)) = some s ∧
      s.thread = .idle ∧ s.kernel.sends = s₁.kernel.sends ∧ s.kernel.recvs = [] ∧
      s.kernel.reported = [] ∧ s.sock.ring.submission = [] := by
    simp only [System.step, react, Kernel.react, hrecvs]
    exact ⟨_, rfl, rfl, rfl, rfl, rfl, rfl⟩
  obtain ⟨s, hlast, hidle, hsends, hrecvs', hreported, hsub'⟩ := hthird
  have hrun : runLabels (System.step parse) (System.start sock)
      [.prepare (.ok ()), .prepare (.ok ()), .kernel (.ended 0)] = some s := by
    rw [runLabels_cons hfirst, runLabels_cons hsecond, runLabels_cons hlast]
    rfl
  have hspared₀ : Spared parse (System.start sock) := .start hnew
  have hspared₁ := hspared₀.step (show spares _ (.prepare (.ok ())) from trivial)
    (step_effect hfirst)
  have hspared₂ := hspared₁.step (show spares _ (.prepare (.ok ())) from trivial)
    (step_effect hsecond)
  refine ⟨_, s, hrun, ⟨?_, ?_, hidle, ?_⟩, hrecvs', hreported, hsub'⟩
  · exact hspared₂.step (show spares _ (.kernel (.ended 0)) from trivial) (step_effect hlast)
  · exact runLabels_preserves (fun _ _ _ hI hs => hI.step (step_effect hs)) hrun (.start hnew)
  · rw [hsends]
    simp [s₁, armed, flushed, Kernel.handed, System.start, Kernel.new, preapreWrite, hsub]

/-- Nothing was received, so nothing waits; the one group has been seen to end. -/
theorem Silent.one_idle {sock : UdpSocket2IoUring sendQueue 16} {s : System sendQueue 16}
    {as : List Label} (h : Silent parse s) (hnew : UdpSocket2IoUring.new sendQueue 16 = .ok sock)
    (hrun : Visits (System.step parse) (System.start sock) as s) (hrecvs : s.kernel.recvs = [])
    (hreported : s.kernel.reported = []) (hcq : s.sock.ring.completion = []) :
    s.sock.readWaitQueue.isEmpty = true ∧ ∃ group, s.sock.readWaitFreeGroups = [group] := by
  have hcontents := h.spared.faithful.contents
  have hunread : s.unread = [] := by
    simp only [rxRing, hreported, List.map_nil] at hcontents
    exact List.map_eq_nil_iff.mp (List.append_eq_nil_iff.mp hcontents.symm).2
  have hplaces := groups_counted hnew hrun
  have hended : s.endedGroups = [] := by simp [endedGroups, rxPosts, hcq]
  rw [hrecvs, hended, h.idle] at hplaces
  have hone : s.sock.readWaitFreeGroups.length = 1 := by
    simpa [Thread.fresh] using hplaces
  exact ⟨List.isEmpty_iff.mpr (List.append_eq_nil_iff.mp hunread).1,
    List.length_eq_one_iff.mp hone⟩

/-- Where the sum is exact and there is one group, every slot unsubmitted is too much. -/
theorem exact_fails (hsend : 1 ≤ sendQueue) {sock : UdpSocket2IoUring sendQueue 16}
    (hnew : UdpSocket2IoUring.new sendQueue 16 = .ok sock)
    (hexact : sock.ring.entries = sendQueue + 16) (hmax : sock.ring.entries ≤ 2 ^ 15) :
    ∃ as s, runLabels (System.step parse) (System.start sock) as = some s ∧
      Panics parse s (.run (.ok ())) .pushRecvmsg := by
  obtain ⟨as, s, hrun, hsilent, hrecvs, hreported, hsub⟩ :=
    silent_one parse hnew (by omega)
  have hentries := (Roomy.visits hnew ⟨_, List.prefix_refl _, hrun⟩).entries
  have hnone : s.sock.ring.submission.length = 0 := by rw [hsub, List.length_nil]
  obtain ⟨bs, t, hfill, ht, hkernel, hcq, hentries', hlen⟩ :=
    hsilent.fill (sendQueue - 1) s (by omega) (by omega) (by omega)
  have hrun' : runLabels (System.step parse) (System.start sock) (as ++ bs) = some t := by
    rw [runLabels_append, hrun]
    exact hfill
  obtain ⟨hwait, group, hgroup⟩ := ht.one_idle hnew ⟨_, List.prefix_refl _, hrun'⟩
    (hkernel ▸ hrecvs) (hkernel ▸ hreported) hcq
  have hmem : group ∈ t.places := by simp [System.places, hgroup]
  have hall : group ∈ allGroups 16 :=
    (places_visits hnew ⟨_, List.prefix_refl _, hrun'⟩).2.mem_iff.mp hmem
  have hzero : group.toNat < 16 / 16 := (mem_allGroups (by decide)).mp hall
  have hcall : t.step parse (.call .finishReadFrom)
      = some { t with thread := .ready .finishReadFrom } := by
    simp [System.step, call, ht.idle, Call.polls]
  have hroom : t.sock.ring.entries = t.sock.ring.submission.length + 16 := by omega
  let u : System sendQueue 16 :=
    { t with
      thread := .ready .finishReadFrom
      sock := { t.sock with readWaitFreeGroups := [] } }
  have htight : u.prepareRead (.ok ()) group = .error .pushRecvmsg :=
    prepareRead_tight (by omega) (place_bound hnew (by decide) ⟨_, List.prefix_refl _, hrun'⟩ hmem)
      hroom
  refine ⟨as ++ bs ++ [.call .finishReadFrom], _, runLabels_concat.mpr ⟨t, hrun', hcall⟩,
    .run rfl ?_⟩
  simp only [run, finishReadFrom, hwait, hgroup, if_true]
  exact except_map_error.mpr htight

/--
**The submission queue never overflows**, whatever is called in whatever order and
whatever the kernel does, if and only if there is more than one group or the sum of the
two sizes is rounded up.
-/
theorem submission_never_overflows {parse : GroupMsghdr → Bytes → Except SocketPanic Message}
    (hparse : ∀ hdr buf p, parse hdr buf = .error p → p.isPush = false)
    (hsend : 1 ≤ sendQueue) {sock : UdpSocket2IoUring sendQueue recvQueue}
    (hnew : UdpSocket2IoUring.new sendQueue recvQueue = .ok sock)
    (hring : sock.ring.entries = (sendQueue + recvQueue).nextPowerOfTwo) :
    (∀ as s a p, runLabels (System.step parse) (System.start sock) as = some s →
        Panics parse s a p → p.isPush = false) ↔
      ¬ (recvQueue = 16 ∧ (sendQueue + 16).isPowerOfTwo) := by
  constructor
  · rintro hnever ⟨rfl, hpow⟩
    obtain ⟨-, hmax⟩ := new_entries hnew hring
    rw [nextPowerOfTwo_eq_iff.mpr hpow] at hring
    obtain ⟨as, s, hrun, hpanics⟩ := exact_fails hsend hnew hring hmax
    cases hnever as s _ _ hrun hpanics
  · intro hok as s a p hrun hpanics
    by_contra hpush
    exact hok (push_fails_exact hnew hring hparse hsend ⟨_, List.prefix_refl _, hrun⟩ hpanics
      (Bool.not_eq_false _ ▸ hpush))

theorem parseV4_isPush (hdr : GroupMsghdr) (buf : Bytes) (p : SocketPanic)
    (h : parseV4 hdr buf = .error p) : p.isPush = false := by
  unfold parseV4 at h
  split at h
  · cases h
    rfl
  · split at h
    · cases h
      rfl
    · cases h

/-- The socket of a worker. -/
theorem submission_never_overflows_worker :
    ∃ sock : UdpSocket2IoUring 2048 2048, UdpSocket2IoUring.new 2048 2048 = .ok sock ∧
      ∀ as s a p, runLabels (System.step parseV4) (System.start sock) as = some s →
        Panics parseV4 s a p → p.isPush = false := by
  have hring : (UdpSocket2IoUring.new 2048 2048).toOption.map
      (fun sock => decide (sock.ring.entries = (2048 + 2048).nextPowerOfTwo)) = some true := by
    decide +kernel
  obtain ⟨sock, hsock, hentries⟩ := Option.map_eq_some_iff.mp hring
  have hnew := toOption_eq_some.mp hsock
  refine ⟨sock, hnew, ?_⟩
  exact (submission_never_overflows parseV4_isPush (by decide) hnew
    (of_decide_eq_true hentries)).mpr fun h => absurd h.1 (by decide)

/--
Sixteen slots and sixteen buffers, in a ring of thirty-two: the buffers are used up and
read, sixteen datagrams are queued, and `finish_read_from` pushes seventeen entries more.
-/
theorem submission_overflows :
    ∃ (sock : UdpSocket2IoUring 16 16) (s : System 16 16),
      UdpSocket2IoUring.new 16 16 = .ok sock ∧
      sock.ring.entries = (16 + 16).nextPowerOfTwo ∧
      runLabels (System.step parseV4) (System.start sock)
        (prepareLabels 1 ++ filledUp 0 ++ [.kernel (.ended 0)] ++ callLabels .recvFrom 34 ++
          (List.replicate 15 (callLabels .recvFrom 1)).flatten ++
          (List.replicate 16 (callLabels (.addSendTo [1] ⟨.v4 0x7F000001, 80⟩) 1)).flatten ++
          [.call .finishReadFrom]) = some s ∧
      s.sock.ring.submission.length = 16 ∧
      Panics parseV4 s (.run (.ok ())) .pushRecvmsg := by
  have hring : (UdpSocket2IoUring.new 16 16).toOption.map
      (fun sock => decide (sock.ring.entries = (16 + 16).nextPowerOfTwo)) = some true := by
    decide +kernel
  have hrun : (runNew 16 16 parseV4 (prepareLabels 1 ++ filledUp 0 ++ [.kernel (.ended 0)] ++
      callLabels .recvFrom 34 ++ (List.replicate 15 (callLabels .recvFrom 1)).flatten ++
      (List.replicate 16 (callLabels (.addSendTo [1] ⟨.v4 0x7F000001, 80⟩) 1)).flatten ++
      [.call .finishReadFrom])).map (fun s => (s.thread, s.sock.ring.submission.length,
        failure (s.run parseV4 (.ok ()) .finishReadFrom)))
      = some (.ready .finishReadFrom, 16, some .pushRecvmsg) := by decide +kernel
  obtain ⟨sock, s, hnew, hlabels, hread⟩ := of_runNew hrun
  simp only [Prod.mk.injEq] at hread
  obtain ⟨hthread, hlen, hpanic⟩ := hread
  rw [hnew] at hring
  exact ⟨sock, s, hnew, of_decide_eq_true (Option.some.inj hring), hlabels, hlen,
    .run hthread (failure_eq_some.mp hpanic)⟩

end System

end MediaServer.Uring
