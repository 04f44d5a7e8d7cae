/-
What becomes of a datagram.

Two things are asked of the receive path: that every buffer is in one place, so that
the kernel is never given one that somebody is still to read (`receives_exclusive`),
and that what the kernel received is returned, all of it and in order
(`receives_faithful`).  Both are the receive ring's, under what it assumes of its
device.

For the first that is what the source takes a multishot receive to be: it says that
more will come with every buffer it fills, and ends when it has no buffer left.  The
kernel promises less.  A last entry may carry a buffer, and `poll_completions` takes it
for the end of a group and nothing else; a request may end early, and then a buffer is
provided twice.  The second is stated under the condition on the kernel's steps that
is needed.
-/
import MediaServer.Proofs.Receiving

namespace MediaServer.Uring

open Lib UdpSocket2IoUring

variable {sendQueue recvQueue : Nat}

namespace System

variable {parse : GroupMsghdr → Bytes → Except SocketPanic Message}
  {s s' : System sendQueue recvQueue}

/-! ### Groups and buffers -/

/-- The groups with a last entry that is yet to be polled. -/
def endedGroups (s : System sendQueue recvQueue) : List UInt16 :=
  s.rxPosts.filterMap fun p => if p.more then none else some p.group

/-- The buffers with an entry that is yet to be polled. -/
def filledBufs (s : System sendQueue recvQueue) : List UInt32 := s.rxPosts.filterMap (·.buf)

theorem unread_eq : s.unread = s.sock.readWaitQueue ++ s.filledBufs := rfl

theorem map_toNat_allGroups (hsize : recvQueue < 2 ^ 20) :
    (allGroups recvQueue).map UInt16.toNat = List.range (recvQueue / 16) := by
  have hid : ∀ n ∈ List.range (recvQueue / 16), (UInt16.toNat ∘ UInt16.ofNat) n = id n := by
    intro n hn
    have hlt := List.mem_range.mp hn
    have hlt16 : n < 2 ^ 16 := by omega
    exact UInt16.toNat_ofNat_of_lt' hlt16
  rw [allGroups, List.map_map]
  exact (List.map_congr_left hid).trans (List.map_id _)

theorem allGroups_nodup (hsize : recvQueue < 2 ^ 20) : (allGroups recvQueue).Nodup := by
  refine List.Nodup.of_map UInt16.toNat ?_
  rw [map_toNat_allGroups hsize]
  exact List.nodup_range

theorem mem_allGroups (hsize : recvQueue < 2 ^ 20) {group : UInt16} :
    group ∈ allGroups recvQueue ↔ group.toNat < recvQueue / 16 := by
  have hmem : group.toNat ∈ (allGroups recvQueue).map UInt16.toNat ↔ group ∈ allGroups recvQueue :=
    List.mem_map_of_injective fun _ _ h => UInt16.toNat_inj.mp h
  rw [← hmem, map_toNat_allGroups hsize, List.mem_range]

/-- The buffers of the groups are all the buffers. -/
theorem mem_allBufs (hsize : recvQueue < 2 ^ 20) (hmul : recvQueue % 16 = 0) {i : UInt32} :
    i ∈ (allGroups recvQueue).flatMap groupBufs ↔ i.toNat < recvQueue := by
  simp only [List.mem_flatMap, mem_allGroups hsize, mem_groupBufs]
  constructor
  · rintro ⟨group, hgroup, -, hi⟩
    omega
  · intro hi
    have hlt : i.toNat / 16 < 2 ^ 16 := by omega
    refine ⟨UInt16.ofNat (i.toNat / 16), ?_⟩
    rw [UInt16.toNat_ofNat_of_lt' hlt]
    omega

theorem allBufs_perm (hsize : recvQueue < 2 ^ 20) (hmul : recvQueue % 16 = 0) :
    (((allGroups recvQueue).flatMap groupBufs).map UInt32.toNat).Perm (List.range recvQueue) := by
  have hnodup : ((allGroups recvQueue).flatMap groupBufs).Nodup :=
    RxRing.flatMap_nodup (fun _ _ => groupBufs_disjoint) (allGroups_nodup hsize) groupBufs_nodup
  have hinj : Function.Injective UInt32.toNat := fun _ _ h => UInt32.toNat_inj.mp h
  refine (List.perm_ext_iff_of_nodup (hnodup.map hinj) List.nodup_range).mpr fun n => ?_
  rw [List.mem_range]
  constructor
  · intro hn
    obtain ⟨i, hi, rfl⟩ := List.mem_map.mp hn
    exact (mem_allBufs hsize hmul).mp hi
  · intro hn
    have hn32 : n < 2 ^ 32 := by omega
    have hback : (UInt32.ofNat n).toNat = n := UInt32.toNat_ofNat_of_lt' hn32
    refine List.mem_map.mpr ⟨UInt32.ofNat n, (mem_allBufs hsize hmul).mpr ?_, hback⟩
    rwa [hback]

/-! ### What the program provides -/

/-- A buffer is provided with its group, and its group is one that may be armed. -/
theorem provides {a : Label} (htagged : s.Tagged) (hs : Effect parse s a s')
    (hprog : ∀ e, a ≠ .kernel e)
    (hprep : ∀ todo, s.thread = .preparing todo → s.sock.readWaitQueue = []) :
    ∃ new, s'.kernel.provided = s.kernel.provided ++ new ∧
      ∀ buf ∈ new, s.sock.readWaitQueue = [] ∧
        ∃ group ∈ s.thread.fresh ++ s.sock.readWaitFreeGroups, buf.addr ∈ groupBufs group := by
  cases hs with
  | sent more hreq => exact absurd rfl (hprog _)
  | notified hreq => exact absurd rfl (hprog _)
  | filled more hreq hbuf hgroup => exact absurd rfl (hprog _)
  | ended hreq => exact absurd rfl (hprog _)
  | @armed group rest answer hthread hbound =>
      refine ⟨_, provided_armed htagged group, fun buf hbuf => ⟨hprep _ hthread, group, ?_, ?_⟩⟩
      · simp [hthread, Thread.fresh]
      · obtain ⟨i, hi, rfl⟩ := List.mem_map.mp hbuf
        exact hi
  | @rearmed group rest answer hthread hwait hfree hbound =>
      refine ⟨_, provided_armed htagged group, fun buf hbuf => ⟨hwait, group, ?_, ?_⟩⟩
      · simp [hfree]
      · obtain ⟨i, hi, rfl⟩ := List.mem_map.mp hbuf
        exact hi
  | flushed hthread hchanged =>
      exact ⟨[], by rw [List.append_nil]; exact provided_flushed htagged, by simp⟩
  | _ => exact ⟨[], (List.append_nil _).symm, by simp⟩

/-! ### Exclusively -/

/-- What the source takes a multishot receive to be. -/
def exhausts (s : System sendQueue recvQueue) : Label → Prop
  | .kernel (.filled _ _ _ more) => more = true
  | .kernel (.ended i) =>
      ∀ req ∈ s.kernel.recvs[i]?, ∀ buf ∈ s.kernel.provided, buf.bgid ≠ req.bgid
  | .kernel (.sent _ _) | .kernel (.notified _) | .prepare _ | .call _ | .poll | .run _ => True

instance (s : System sendQueue recvQueue) : DecidablePred s.exhausts
  | .kernel (.filled _ _ _ more) => inferInstanceAs (Decidable (more = true))
  | .kernel (.ended i) =>
      inferInstanceAs (Decidable
        (∀ req ∈ s.kernel.recvs[i]?, ∀ buf ∈ s.kernel.provided, buf.bgid ≠ req.bgid))
  | .kernel (.sent _ _) | .kernel (.notified _) | .prepare _ | .call _ | .poll | .run _ =>
      isTrue trivial

/-- What is needed of it: what it fills is announced, and holds nothing still to be returned. -/
def spares (s : System sendQueue recvQueue) : Label → Prop
  | .kernel (.filled _ j _ more) =>
      more = true ∧ ∀ buf ∈ s.kernel.provided[j]?, buf.addr ∉ s.unread
  | .kernel (.ended _) | .kernel (.sent _ _) | .kernel (.notified _) => True
  | .prepare _ | .call _ | .poll | .run _ => True

instance (s : System sendQueue recvQueue) : DecidablePred s.spares
  | .kernel (.filled _ j _ more) =>
      inferInstanceAs (Decidable
        (more = true ∧ ∀ buf ∈ s.kernel.provided[j]?, buf.addr ∉ s.unread))
  | .kernel (.ended _) | .kernel (.sent _ _) | .kernel (.notified _) => isTrue trivial
  | .prepare _ | .call _ | .poll | .run _ => isTrue trivial

structure Spared (parse : GroupMsghdr → Bytes → Except SocketPanic Message)
    (s : System sendQueue recvQueue) : Prop where
  receiving : s.Receiving
  bounds : s.InBounds
  faithful : (s.rxRing parse).Faithful

theorem Spared.start {sock : UdpSocket2IoUring sendQueue recvQueue}
    (h : UdpSocket2IoUring.new sendQueue recvQueue = .ok sock) :
    Spared parse (System.start sock) :=
  ⟨.start h, .start h, faithful_start h⟩

theorem Spared.step {a : Label} (h : Spared parse s) (hok : s.spares a)
    (hs : Effect parse s a s') : Spared parse s' := by
  have hsim : s'.rxRing parse = s.rxRing parse ∨
      RxRing.Step groupBufs RxRing.Spares (fun _ _ => True) (s.rxRing parse) (s'.rxRing parse) := by
    refine h.receiving.simulates (fun i j data more buf heq hbuf => ?_) (fun _ _ _ _ => trivial) hs
    subst heq
    exact ⟨hok.1, hok.2 buf hbuf⟩
  refine ⟨h.receiving.step hs, h.bounds.step h.receiving.tagged hs, ?_⟩
  rcases hsim with heq | hstep
  · rw [heq]
    exact h.faithful
  · exact h.faithful.step hstep

/-- The order of groups, which holds whatever the kernel does. -/
theorem ordered_step {a : Label} (hsize : recvQueue < 2 ^ 20) (hreceiving : s.Receiving)
    (h : (s.rxRing parse).Ordered groupBufs (allGroups recvQueue)) (hs : Effect parse s a s') :
    (s'.rxRing parse).Ordered groupBufs (allGroups recvQueue) := by
  have hsim : s'.rxRing parse = s.rxRing parse ∨
      RxRing.Step groupBufs (fun _ _ _ => True) (fun _ _ => True) (s.rxRing parse)
        (s'.rxRing parse) :=
    hreceiving.simulates (fun _ _ _ _ _ _ _ => trivial) (fun _ _ _ _ => trivial) hs
  rcases hsim with heq | hstep
  · rw [heq]
    exact h
  · exact h.step (allGroups_nodup hsize) hstep

structure Exhausting (parse : GroupMsghdr → Bytes → Except SocketPanic Message)
    (s : System sendQueue recvQueue) : Prop where
  spared : Spared parse s
  ordered : (s.rxRing parse).Ordered groupBufs (allGroups recvQueue)
  exclusive : (s.rxRing parse).Exclusive groupBufs (allGroups recvQueue)

theorem allBufs_nodup (hsize : recvQueue < 2 ^ 20) :
    ((allGroups recvQueue).flatMap groupBufs).Nodup :=
  RxRing.flatMap_nodup (fun _ _ => groupBufs_disjoint) (allGroups_nodup hsize) groupBufs_nodup

/-- A kernel that exhausts its buffers spares those that are still to be read. -/
theorem Exhausting.spares (hsize : recvQueue < 2 ^ 20) {a : Label} (h : Exhausting parse s)
    (hok : s.exhausts a) : s.spares a := by
  cases a with
  | kernel e =>
      cases e with
      | filled i j data more =>
          refine ⟨hok, fun buf hbuf => ?_⟩
          have hprov : (buf.bgid, buf.addr) ∈ (s.rxRing parse).provided :=
            List.mem_map_of_mem (List.mem_of_getElem? hbuf)
          exact h.exclusive.provided_unread (allBufs_nodup hsize) hprov
      | _ => trivial
  | _ => trivial

theorem Exhausting.step (hsize : recvQueue < 2 ^ 20) {a : Label} (h : Exhausting parse s)
    (hok : s.exhausts a) (hs : Effect parse s a s') : Exhausting parse s' := by
  have hspares := h.spares hsize hok
  have hsim : s'.rxRing parse = s.rxRing parse ∨
      RxRing.Step groupBufs RxRing.Spares RxRing.Exhausted (s.rxRing parse) (s'.rxRing parse) := by
    refine h.spared.receiving.simulates (fun i j data more buf heq hbuf => ?_)
      (fun i req heq hreq => ?_) hs
    · subst heq
      exact ⟨hspares.1, hspares.2 buf hbuf⟩
    · subst heq
      intro b hmem
      obtain ⟨buf, hbuf, hpair⟩ := List.mem_map.mp hmem
      exact hok req hreq buf hbuf (Prod.mk.inj hpair).1
  refine ⟨h.spared.step hspares hs, ordered_step hsize h.spared.receiving h.ordered hs, ?_⟩
  rcases hsim with heq | hstep
  · rw [heq]
    exact h.exclusive
  · exact h.exclusive.step (fun _ _ => groupBufs_disjoint) (allGroups_nodup hsize) groupBufs_nodup
      h.ordered hstep

theorem Exhausting.start {sock : UdpSocket2IoUring sendQueue recvQueue}
    (h : UdpSocket2IoUring.new sendQueue recvQueue = .ok sock) :
    Exhausting parse (System.start sock) :=
  ⟨.start h, ordered_start h, exclusive_start h⟩

/-! ### Everything is returned -/

/-- A turn of `poll_completions` with an entry to take does not panic. -/
theorem poll_some (h : s.InBounds) {c : Call} {cqe : Cqe} {rest : List Cqe}
    (hthread : s.thread = .polling c) (hcq : s.sock.ring.completion = cqe :: rest) :
    ∃ t, s.step parse .poll = some t ∧ t.thread = .polling c ∧
      t.sock.ring = { s.sock.ring with completion := rest } ∧ t.kernel = s.kernel := by
  have hcomplete : ∃ sock, (s.polled rest).sock.complete cqe = .ok sock ∧
      sock.ring = (s.polled rest).sock.ring := by
    unfold UdpSocket2IoUring.complete
    split
    · rename_i group hdata
      split
      · rename_i hmore
        split
        · rename_i hnone
          -- An entry with more to come always says which buffer it is about.
          have hpost : cqe.rxPost = some { group, buf := none, more := true } := by
            simp [Cqe.rxPost, hdata, hnone, hmore]
          refine absurd rfl (h.posts { group, buf := none, more := true } ?_ rfl)
          rw [rxPosts_polled hcq, hpost]
          exact List.mem_cons_self
        · exact ⟨_, rfl, rfl⟩
      · exact ⟨_, rfl, rfl⟩
    · split
      · exact ⟨_, rfl, rfl⟩
      · exact ⟨_, rfl, rfl⟩
    · exact ⟨_, rfl, rfl⟩
  obtain ⟨sock, hok, hring⟩ := hcomplete
  refine ⟨{ s with sock }, ?_, hthread, hring, rfl⟩
  have hok' : ({ s.sock with ring := { s.sock.ring with completion := rest } } :
      UdpSocket2IoUring sendQueue recvQueue).complete cqe = .ok sock := hok
  simp [step, poll, hthread, hcq, hok', Except.toOption]

theorem Spared.pollAll {c : Call} (n : Nat) :
    ∀ s : System sendQueue recvQueue, Spared parse s → s.thread = .polling c →
      s.sock.ring.completion.length = n →
      ∃ bs t, runLabels (System.step parse) s bs = some t ∧ Spared parse t ∧
        t.thread = .ready c ∧ t.sock.ring = { s.sock.ring with completion := [] } ∧
        t.kernel = s.kernel := by
  induction n with
  | zero =>
      intro s h hthread hlen
      have hcq : s.sock.ring.completion = [] := List.length_eq_zero_iff.mp hlen
      have hstep : s.step parse .poll = some { s with thread := .ready c } := by
        simp [System.step, poll, hthread, hcq]
      have hspares : s.spares .poll := trivial
      refine ⟨[.poll], _, runLabels_cons hstep, h.step hspares (step_effect hstep), rfl, ?_, rfl⟩
      simp [← hcq]
  | succ n ih =>
      intro s h hthread hlen
      obtain ⟨cqe, rest, hcq⟩ := List.exists_cons_of_length_eq_add_one hlen
      obtain ⟨t, hstep, hthread', hring, hkernel⟩ := poll_some h.bounds hthread hcq
      have hlen' : t.sock.ring.completion.length = n := by
        rw [hcq] at hlen
        rw [hring]
        exact Nat.succ.inj hlen
      have hspares : s.spares .poll := trivial
      obtain ⟨bs, u, hrun, hspared, hready, hnone, hkernel'⟩ :=
        ih t (h.step hspares (step_effect hstep)) hthread' hlen'
      refine ⟨.poll :: bs, u, (runLabels_cons hstep).trans hrun, hspared, hready, ?_,
        hkernel'.trans hkernel⟩
      rw [hnone, hring]

/-- What is still to be returned can be, if everything received can be read. -/
theorem Spared.readable (h : Spared parse s)
    (hparse : ∀ data ∈ s.kernel.reported, ∃ msg, parse recvHdr data = .ok msg) {i : UInt32}
    (hi : i ∈ s.unread) : ∃ msg, s.datagram parse i = .ok msg := by
  have hcontents : s.kernel.reported.map (parse recvHdr)
      = s.returned.map .ok ++ s.unread.map (s.datagram parse) := h.faithful.contents
  have hmem : s.datagram parse i ∈ s.kernel.reported.map (parse recvHdr) := by
    rw [hcontents]
    exact List.mem_append_right _ (List.mem_map_of_mem hi)
  obtain ⟨data, hdata, heq⟩ := List.mem_map.mp hmem
  obtain ⟨msg, hok⟩ := hparse data hdata
  exact ⟨msg, heq.symm.trans hok⟩

theorem Spared.readAll (n : Nat) :
    ∀ s : System sendQueue recvQueue, Spared parse s →
      (∀ data ∈ s.kernel.reported, ∃ msg, parse recvHdr data = .ok msg) →
      s.thread = .ready .recvFrom → s.sock.ring.completion = [] →
      s.sock.readWaitQueue.length = n →
      ∃ bs t, runLabels (System.step parse) s bs = some t ∧ Spared parse t ∧ t.unread = [] ∧
        t.kernel = s.kernel := by
  induction n with
  | zero =>
      intro s h hparse hthread hcq hlen
      have hwait : s.sock.readWaitQueue = [] := List.length_eq_zero_iff.mp hlen
      have hposts : s.rxPosts = [] := by simp [rxPosts, hcq]
      have hunread : s.unread = [] := by simp [unread, hwait, hposts]
      exact ⟨[], s, rfl, h, hunread, rfl⟩
  | succ n ih =>
      intro s h hparse hthread hcq hlen
      obtain ⟨idx, rest, hwait⟩ := List.exists_cons_of_length_eq_add_one hlen
      have hmem : idx ∈ s.unread := by simp [unread, hwait]
      obtain ⟨msg, hmsg⟩ := h.readable hparse hmem
      have hhdr : s.sock.groupMsghdr = recvHdr :=
        h.receiving.header.resolve_right fun hnone => by simp [hnone.waiting] at hwait
      have hread : parse s.sock.groupMsghdr (s.sock.readBufs idx.toNat) = .ok msg := by
        rw [hhdr]
        exact hmsg
      have hrun : s.step parse (.run (.ok ())) = some (s.receiving idx rest msg) := by
        simp [System.step, hthread, run, recvFrom, UdpSocket2IoUring.recvFrom, hwait, hread,
          h.bounds.unread idx hmem, Except.toOption, Except.map,
          System.receiving]
      have hcall : (s.receiving idx rest msg).step parse (.call .recvFrom)
          = some { s.receiving idx rest msg with thread := .polling .recvFrom } := by
        simp [System.step, call, System.receiving, Call.polls]
      have hpoll : System.step parse { s.receiving idx rest msg with thread := .polling .recvFrom }
          .poll = some { s.receiving idx rest msg with thread := .ready .recvFrom } := by
        simp [System.step, poll, System.receiving, hcq]
      have hlen' : rest.length = n := by
        rw [hwait] at hlen
        exact Nat.succ.inj hlen
      have h₁ := h.step (show s.spares (.run (.ok ())) from trivial) (step_effect hrun)
      have h₂ := h₁.step (show spares _ (.call .recvFrom) from trivial) (step_effect hcall)
      have h₃ := h₂.step (show spares _ .poll from trivial) (step_effect hpoll)
      obtain ⟨bs, t, hrest, hspared, hunread, hkernel⟩ := ih _ h₃ hparse rfl hcq hlen'
      refine ⟨.run (.ok ()) :: .call .recvFrom :: .poll :: bs, t, ?_, hspared, hunread, hkernel⟩
      rw [runLabels_cons hrun, runLabels_cons hcall, runLabels_cons hpoll]
      exact hrest

/-- **Calls of `recv_from` return everything received**, if it can be read. -/
theorem Spared.returns (h : Spared parse s) (hidle : s.thread = .idle)
    (hparse : ∀ data ∈ s.kernel.reported, ∃ msg, parse recvHdr data = .ok msg) :
    ∃ bs t, runLabels (System.step parse) s bs = some t ∧
      t.returned.map .ok = s.kernel.reported.map (parse recvHdr) := by
  have hcall : s.step parse (.call .recvFrom) = some { s with thread := .polling .recvFrom } := by
    simp [System.step, call, hidle, Call.polls]
  have h₁ := h.step (show s.spares (.call .recvFrom) from trivial) (step_effect hcall)
  obtain ⟨bs, t, hpolls, h₂, hready, hring, hkernel⟩ := h₁.pollAll _ _ rfl rfl
  have hcq : t.sock.ring.completion = [] := by rw [hring]
  have hparse' : ∀ data ∈ t.kernel.reported, ∃ msg, parse recvHdr data = .ok msg := by
    rw [hkernel]
    exact hparse
  obtain ⟨cs, u, hreads, h₃, hunread, hkernel'⟩ := h₂.readAll _ _ hparse' hready hcq rfl
  have hcontents : u.kernel.reported.map (parse recvHdr)
      = u.returned.map .ok ++ u.unread.map (u.datagram parse) := h₃.faithful.contents
  refine ⟨.call .recvFrom :: (bs ++ cs), u, ?_, ?_⟩
  · rw [runLabels_cons hcall, runLabels_append, hpolls]
    exact hreads
  · rw [hunread, List.map_nil, List.append_nil] at hcontents
    rw [← hcontents, hkernel', hkernel]

/-! ### Runs -/

section

variable {sock : UdpSocket2IoUring sendQueue recvQueue}
  (hnew : UdpSocket2IoUring.new sendQueue recvQueue = .ok sock) {as : List Label}

include hnew

theorem Spared.visits (hok : Meets (System.step parse) spares (System.start sock) as)
    (h : Visits (System.step parse) (System.start sock) as s) : Spared parse s := by
  obtain ⟨pre, hpre, hrun⟩ := h
  exact runLabels_invariant (P := fun _ s => Spared parse s) (.start hnew)
    (fun _ _ _ _ _ hI hok hs => hI.step hok (step_effect hs)) pre s (hok.restrict hpre) hrun

theorem Exhausting.visits (hsize : recvQueue < 2 ^ 20)
    (hok : Meets (System.step parse) exhausts (System.start sock) as)
    (h : Visits (System.step parse) (System.start sock) as s) : Exhausting parse s := by
  obtain ⟨pre, hpre, hrun⟩ := h
  exact runLabels_invariant (P := fun _ s => Exhausting parse s) (.start hnew)
    (fun _ _ _ _ _ hI hok hs => hI.step hsize hok (step_effect hs)) pre s (hok.restrict hpre) hrun

theorem ordered_visits (hsize : recvQueue < 2 ^ 20)
    (h : Visits (System.step parse) (System.start sock) as s) :
    s.Receiving ∧ (s.rxRing parse).Ordered groupBufs (allGroups recvQueue) := by
  obtain ⟨pre, -, hrun⟩ := h
  refine runLabels_preserves (I := fun s => s.Receiving ∧
    (s.rxRing parse).Ordered groupBufs (allGroups recvQueue)) ?_ hrun ⟨.start hnew, ordered_start hnew⟩
  rintro t a t' ⟨hreceiving, hordered⟩ hs
  have heffect := step_effect hs
  exact ⟨hreceiving.step heffect, ordered_step hsize hreceiving hordered heffect⟩

end

/-- What is provided holds nothing that is still to be returned. -/
theorem provides_read {a : Label} (hreceiving : s.Receiving)
    (hordered : (s.rxRing parse).Ordered groupBufs (allGroups recvQueue))
    (hs : s.step parse a = some s') (hprog : ∀ e, a ≠ .kernel e) :
    ∃ new, s'.kernel.provided = s.kernel.provided ++ new ∧ ∀ buf ∈ new, buf.addr ∉ s.unread := by
  obtain ⟨new, hnew, hall⟩ :=
    provides hreceiving.tagged (step_effect hs) hprog hreceiving.preparing
  refine ⟨new, hnew, fun buf hbuf => ?_⟩
  obtain ⟨hread, group, hgroup, haddr⟩ := hall buf hbuf
  exact hordered.arm_unread (fun _ _ => groupBufs_disjoint) hread hgroup buf.addr haddr

/--
**Every group and every buffer is in one place**, and what was received is returned, if
a multishot receive says with each buffer that more will come and ends when it has none
left.
-/
theorem receives_exclusive {parse : GroupMsghdr → Bytes → Except SocketPanic Message}
    (hsize : recvQueue < 2 ^ 20) {sock : UdpSocket2IoUring sendQueue recvQueue}
    (hnew : UdpSocket2IoUring.new sendQueue recvQueue = .ok sock) {as : List Label}
    (hok : Meets (System.step parse) exhausts (System.start sock) as)
    {s : System sendQueue recvQueue}
    (hrun : Visits (System.step parse) (System.start sock) as s) :
    ((s.thread.fresh ++ s.kernel.recvs.map (·.bgid) ++ s.endedGroups ++
        s.sock.readWaitFreeGroups).map UInt16.toNat).Perm (List.range (recvQueue / 16)) ∧
      ((s.thread.fresh.flatMap groupBufs ++ (s.kernel.provided.map (·.addr) ++
        (s.sock.readWaitQueue ++ s.filledBufs ++ s.released))).map UInt32.toNat).Perm
          (List.range recvQueue) ∧
      (∀ i ∈ s.sock.readWaitQueue, i.toNat < recvQueue) ∧
      (∀ group ∈ s.thread.fresh ++ s.sock.readWaitFreeGroups,
        ∀ i ∈ groupBufs group, i.toNat < recvQueue) ∧
      (∀ a s', s.step parse a = some s' → (∀ e, a ≠ .kernel e) →
        ∃ new, s'.kernel.provided = s.kernel.provided ++ new ∧
          ∀ buf ∈ new, buf.addr ∉ s.kernel.provided.map (·.addr) ∧
            buf.addr ∉ s.sock.readWaitQueue ++ s.filledBufs) ∧
      s.kernel.reported.map (parse recvHdr)
        = s.returned.map .ok
          ++ (s.sock.readWaitQueue ++ s.filledBufs).map (s.datagram parse) ∧
      (s.thread = .idle →
        (∀ data ∈ s.kernel.reported, ∃ msg, parse recvHdr data = .ok msg) →
          ∃ bs t, runLabels (System.step parse) s bs = some t ∧
            t.returned.map .ok = s.kernel.reported.map (parse recvHdr)) := by
  have hinv := Exhausting.visits hnew hsize hok hrun
  have hmul := (new_ok hnew).1
  have hgroups : (s.thread.fresh ++ s.kernel.recvs.map (·.bgid) ++ s.endedGroups ++
      s.sock.readWaitFreeGroups).Perm (allGroups recvQueue) := hinv.ordered.groups
  have hprovided : (s.rxRing parse).provided.map Prod.snd = s.kernel.provided.map (·.addr) := by
    simp [rxRing, Function.comp_def]
  have hbufs := hinv.exclusive.buffers
  rw [hprovided] at hbufs
  refine ⟨?_, (hbufs.map UInt32.toNat).trans (allBufs_perm hsize hmul), ?_, ?_, ?_,
    hinv.spared.faithful.contents, hinv.spared.returns⟩
  · rw [← map_toNat_allGroups hsize]
    exact hgroups.map UInt16.toNat
  · exact fun i hi => hinv.spared.bounds.unread i (List.mem_append_left _ hi)
  · intro group hgroup i hi
    have hmem : group ∈ allGroups recvQueue := by
      refine hgroups.mem_iff.mp ?_
      simp only [List.mem_append] at hgroup ⊢
      exact hgroup.elim (fun hfresh => .inl (.inl (.inl hfresh))) .inr
    exact (mem_allBufs hsize hmul).mp (List.mem_flatMap.mpr ⟨group, hmem, hi⟩)
  · intro a s' hs hprog
    have hreceiving := hinv.spared.receiving
    obtain ⟨new, hnew', hall⟩ :=
      provides hreceiving.tagged (step_effect hs) hprog hreceiving.preparing
    refine ⟨new, hnew', fun buf hbuf => ?_⟩
    obtain ⟨hread, group, hgroup, haddr⟩ := hall buf hbuf
    refine ⟨?_, ?_⟩
    · rw [← hprovided]
      exact hinv.exclusive.arm_provided (fun _ _ => groupBufs_disjoint) (allGroups_nodup hsize)
        hinv.ordered hgroup buf.addr haddr
    · exact hinv.ordered.arm_unread (fun _ _ => groupBufs_disjoint) hread hgroup buf.addr haddr

/-- A packet, as it is in a receive buffer. -/
def packet : Bytes := RecvMsgOut.write 32 recvBufSize [1, 2, 3, 4] 0x7F000001 80

/-- A run that receives one packet. -/
theorem receives_exclusive_one :
    ∃ (sock : UdpSocket2IoUring 16 16) (s : System 16 16),
      UdpSocket2IoUring.new 16 16 = .ok sock ∧
      Visits (System.step parseV4) (System.start sock)
        (prepareLabels 1 ++ [.kernel (.filled 0 3 packet true)] ++ callLabels .recvFrom 18) s ∧
      s.returned = [([1, 2, 3, 4], ⟨.v4 0x7F000001, 80⟩)] ∧
      ((s.thread.fresh ++ s.kernel.recvs.map (·.bgid) ++ s.endedGroups ++
        s.sock.readWaitFreeGroups).map UInt16.toNat).Perm (List.range 1) ∧
      ((s.thread.fresh.flatMap groupBufs ++ (s.kernel.provided.map (·.addr) ++
        (s.sock.readWaitQueue ++ s.filledBufs ++ s.released))).map UInt32.toNat).Perm
          (List.range 16) := by
  have hrun : (runNew 16 16 parseV4 (prepareLabels 1 ++ [.kernel (.filled 0 3 packet true)] ++
      callLabels .recvFrom 18)).map (·.returned)
      = some [([1, 2, 3, 4], ⟨.v4 0x7F000001, 80⟩)] := by decide +kernel
  obtain ⟨sock, s, hnew, hlabels, hreturned⟩ := of_runNew hrun
  have hok : Meets (System.step parseV4) exhausts (System.start sock) (prepareLabels 1 ++
      [.kernel (.filled 0 3 packet true)] ++ callLabels .recvFrom 18) :=
    meets_of_new hnew (by decide +kernel)
  have hvisits : Visits (System.step parseV4) (System.start sock) _ s :=
    ⟨_, List.prefix_refl _, hlabels⟩
  obtain ⟨hgroups, hbufs, -⟩ := receives_exclusive (by decide) hnew hok hvisits
  exact ⟨sock, s, hnew, hvisits, hreturned, hgroups, hbufs⟩

/--
Groups are numbered by a `u16`, and `group + 1` wraps: of 65536 groups the last has no
buffers, and what would be its first is nowhere.
-/
theorem receives_exclusive_wide :
    ∃ (sock : UdpSocket2IoUring (2 ^ 32 - 2 ^ 20 + 32) (2 ^ 20)) (as : List Label)
      (s : System (2 ^ 32 - 2 ^ 20 + 32) (2 ^ 20)),
      UdpSocket2IoUring.new (2 ^ 32 - 2 ^ 20 + 32) (2 ^ 20) = .ok sock ∧
      Meets (System.step parseV4) exhausts (System.start sock) as ∧
      Visits (System.step parseV4) (System.start sock) as s ∧ s.thread = .idle ∧
      1048560 ∉ s.kernel.provided.map (·.addr) ++
        (s.sock.readWaitQueue ++ s.filledBufs ++ s.released) := by
  obtain ⟨sock, hsock, hentries⟩ := Option.map_eq_some_iff.mp
    (by decide +kernel : (UdpSocket2IoUring.new (2 ^ 32 - 2 ^ 20 + 32) (2 ^ 20)).toOption.map
      (·.ring.entries) = some 32)
  have hnew := toOption_eq_some.mp hsock
  have hsub := (new_ok hnew).2.1
  have hbound : ∀ group ∈ allGroups (2 ^ 20), ∀ i ∈ groupBufs group, i.toNat < 2 ^ 20 := by
    intro group _ i hi
    have hi' := mem_groupBufs.mp hi
    omega
  obtain ⟨s, hrun, hidle, hreported, hreleased⟩ := prepare_completes parseV4
    (allGroups (2 ^ 20)) (System.start sock) rfl hbound hsub
    (by simp [System.start, preapreWrite, hentries]) rfl rfl
  have hvisits : Visits (System.step parseV4) (System.start sock) _ s :=
    ⟨_, List.prefix_refl _, hrun⟩
  have hexhausts : Meets (System.step parseV4) exhausts (System.start sock)
      (prepareLabels (allGroups (2 ^ 20)).length) := meets_prepareLabels _ fun _ => trivial
  have hspares : Meets (System.step parseV4) spares (System.start sock)
      (prepareLabels (allGroups (2 ^ 20)).length) := meets_prepareLabels _ fun _ => trivial
  have hspared := Spared.visits hnew hspares hvisits
  have hcontents := hspared.faithful.contents
  have hunread : s.unread = [] := by
    simp only [rxRing, hreported, List.map_nil] at hcontents
    exact List.map_eq_nil_iff.mp (List.append_eq_nil_iff.mp hcontents.symm).2
  refine ⟨sock, _, s, hnew, hexhausts, hvisits, hidle, ?_⟩
  rw [hreleased, List.append_nil, ← unread_eq, hunread, List.append_nil]
  intro hmem
  obtain ⟨buf, hbuf, haddr⟩ := List.mem_map.mp hmem
  have hgroup := mem_groupBufs.mp (hspared.receiving.tagged.provided buf hbuf).2
  rw [haddr] at hgroup
  have hlast : (1048560 : UInt32).toNat = 1048560 := rfl
  omega

/--
**No datagram is lost**, in a run in which every buffer the kernel fills is announced as
not the last, and holds nothing that is still to be returned.
-/
theorem receives_faithful {parse : GroupMsghdr → Bytes → Except SocketPanic Message}
    {sock : UdpSocket2IoUring sendQueue recvQueue}
    (hnew : UdpSocket2IoUring.new sendQueue recvQueue = .ok sock) {as : List Label}
    (hok : Meets (System.step parse) spares (System.start sock) as)
    {s : System sendQueue recvQueue}
    (hrun : Visits (System.step parse) (System.start sock) as s) :
    s.kernel.reported.map (parse recvHdr)
        = s.returned.map .ok ++ s.unread.map (s.datagram parse) ∧
      (recvQueue < 2 ^ 20 → ∀ a s', s.step parse a = some s' → (∀ e, a ≠ .kernel e) →
        ∃ new, s'.kernel.provided = s.kernel.provided ++ new ∧
          ∀ buf ∈ new, buf.addr ∉ s.unread) ∧
      (s.thread = .idle →
        (∀ data ∈ s.kernel.reported, ∃ msg, parse recvHdr data = .ok msg) →
          ∃ bs t, runLabels (System.step parse) s bs = some t ∧
            t.returned.map .ok = s.kernel.reported.map (parse recvHdr)) := by
  have hspared := Spared.visits hnew hok hrun
  refine ⟨hspared.faithful.contents, fun hsize a s' hs hprog => ?_, hspared.returns⟩
  obtain ⟨hreceiving, hordered⟩ := ordered_visits hnew hsize hrun
  exact provides_read hreceiving hordered hs hprog

/-- A run in which a request ends early, and a group is armed again. -/
theorem receives_faithful_early :
    ∃ (sock : UdpSocket2IoUring 16 16) (s : System 16 16),
      UdpSocket2IoUring.new 16 16 = .ok sock ∧
      Visits (System.step parseV4) (System.start sock)
        (prepareLabels 1 ++ [.kernel (.filled 0 3 packet true), .kernel (.ended 0)] ++
          callLabels .recvFrom 19 ++ callLabels .finishReadFrom 0) s ∧
      s.returned = [([1, 2, 3, 4], ⟨.v4 0x7F000001, 80⟩)] ∧
      s.kernel.reported.map (parseV4 recvHdr)
        = s.returned.map .ok ++ s.unread.map (s.datagram parseV4) := by
  have hrun : (runNew 16 16 parseV4 (prepareLabels 1 ++ [.kernel (.filled 0 3 packet true),
      .kernel (.ended 0)] ++ callLabels .recvFrom 19 ++ callLabels .finishReadFrom 0)).map
        (·.returned)
      = some [([1, 2, 3, 4], ⟨.v4 0x7F000001, 80⟩)] := by decide +kernel
  obtain ⟨sock, s, hnew, hlabels, hreturned⟩ := of_runNew hrun
  have hok : Meets (System.step parseV4) spares (System.start sock) (prepareLabels 1 ++
      [.kernel (.filled 0 3 packet true), .kernel (.ended 0)] ++ callLabels .recvFrom 19 ++
        callLabels .finishReadFrom 0) :=
    meets_of_new hnew (by decide +kernel)
  have hvisits : Visits (System.step parseV4) (System.start sock) _ s :=
    ⟨_, List.prefix_refl _, hlabels⟩
  exact ⟨sock, s, hnew, hvisits, hreturned, (receives_faithful hnew hok hvisits).1⟩

/--
A request whose last entry carries a buffer: the buffer is taken for the end of its
group, the datagram in it is never returned, and the buffer is provided again.
-/
theorem receives_faithful_last :
    ∃ (sock : UdpSocket2IoUring 16 16) (s : System 16 16),
      UdpSocket2IoUring.new 16 16 = .ok sock ∧
      Visits (System.step parseV4) (System.start sock)
        (prepareLabels 1 ++ [.kernel (.filled 0 0 packet false)] ++ callLabels .recvFrom 18 ++
          callLabels .finishReadFrom 0) s ∧
      s.kernel.reported = [packet] ∧ s.returned = [] ∧ s.unread = [] ∧
      0 ∈ s.kernel.provided.map (·.addr) := by
  have hrun : (runNew 16 16 parseV4 (prepareLabels 1 ++ [.kernel (.filled 0 0 packet false)] ++
      callLabels .recvFrom 18 ++ callLabels .finishReadFrom 0)).map
        (fun s => (s.kernel.reported, s.returned, s.unread,
          decide (0 ∈ s.kernel.provided.map (·.addr))))
      = some ([packet], [], [], true) := by decide +kernel
  obtain ⟨sock, s, hnew, hlabels, hread⟩ := of_runNew hrun
  simp only [Prod.mk.injEq, decide_eq_true_eq] at hread
  exact ⟨sock, s, hnew, ⟨_, List.prefix_refl _, hlabels⟩, hread⟩

end System

end MediaServer.Uring
