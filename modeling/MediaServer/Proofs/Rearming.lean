/-
Arming again.

A group is yet to be armed, armed, ended and not yet seen to be, or idle, and it is in
one of these places whatever the kernel does and however many groups there are.  So the
number of armed groups is known from the others: all of them, less the ended ones and
the idle ones.

The idle ones are what `finish_read_from` sees to.  Where `prepare` arms every group and
`poll_completions` takes every entry, it arms one group and returns: the capacity to
receive is restored by a call that finds one idle group, and not by one that finds two.
-/
import MediaServer.Proofs.Datagrams
import MediaServer.Lib.Loop

namespace MediaServer.Uring

open Lib UdpSocket2IoUring

variable {sendQueue recvQueue : Nat}

namespace System

variable {parse : GroupMsghdr → Bytes → Except SocketPanic Message}
  {s s' : System sendQueue recvQueue}

/-! ### Counting groups -/

/-- The groups, by where they are. -/
def places (s : System sendQueue recvQueue) : List UInt16 :=
  s.thread.fresh ++ s.kernel.recvs.map (·.bgid) ++ s.endedGroups ++ s.sock.readWaitFreeGroups

theorem Receiving.places {a : Label} (h : Receiving s) (hs : Effect parse s a s') :
    s'.places.Perm s.places := by
  have hsim : s'.rxRing parse = s.rxRing parse ∨
      RxRing.Step groupBufs (fun _ _ _ => True) (fun _ _ => True) (s.rxRing parse)
        (s'.rxRing parse) :=
    h.simulates (fun _ _ _ _ _ _ _ => trivial) (fun _ _ _ _ => trivial) hs
  have hplaces : ∀ t : System sendQueue recvQueue, t.places = (t.rxRing parse).fresh ++
      (t.rxRing parse).armed ++ (t.rxRing parse).ended ++ (t.rxRing parse).idle := fun _ => rfl
  rcases hsim with heq | hstep
  · rw [hplaces s', heq, ← hplaces]
  · rw [hplaces s', hplaces s]
    exact hstep.places

theorem places_visits {sock : UdpSocket2IoUring sendQueue recvQueue} {as : List Label}
    (hnew : UdpSocket2IoUring.new sendQueue recvQueue = .ok sock)
    (h : Visits (System.step parse) (System.start sock) as s) :
    s.Receiving ∧ s.places.Perm (allGroups recvQueue) := by
  have hordered : ((System.start sock).rxRing parse).Ordered groupBufs (allGroups recvQueue) :=
    ordered_start hnew
  have hstart : (System.start sock).places.Perm (allGroups recvQueue) := hordered.groups
  obtain ⟨pre, -, hrun⟩ := h
  refine runLabels_preserves
    (I := fun s => s.Receiving ∧ s.places.Perm (allGroups recvQueue)) ?_ hrun ⟨.start hnew, hstart⟩
  rintro t a t' ⟨hreceiving, hperm⟩ hs
  have heffect := step_effect hs
  exact ⟨hreceiving.step heffect, (hreceiving.places heffect).trans hperm⟩

/-- **Every group is counted once.** -/
theorem groups_counted {sock : UdpSocket2IoUring sendQueue recvQueue} {as : List Label}
    (hnew : UdpSocket2IoUring.new sendQueue recvQueue = .ok sock)
    (h : Visits (System.step parse) (System.start sock) as s) :
    s.thread.fresh.length + s.kernel.recvs.length + s.endedGroups.length
      + s.sock.readWaitFreeGroups.length = recvQueue / 16 := by
  have hlen := (places_visits hnew h).2.length_eq
  have hall : (allGroups recvQueue).length = recvQueue / 16 := by
    simp [allGroups, recvBufGroupSize]
  simpa [System.places, hall, Nat.add_assoc] using hlen

/-! ### One group a call -/

/-- A `finish_read_from` that finds nothing waiting sees to the first of the idle groups. -/
theorem finish_idle {answer : Except IoError Unit} (hthread : s.thread = .ready .finishReadFrom)
    (hwait : s.sock.readWaitQueue = []) (hs : s.step parse (.run answer) = some s') :
    s'.sock.readWaitFreeGroups = s.sock.readWaitFreeGroups.tail ∧ s'.thread = .idle := by
  simp only [step, hthread] at hs
  obtain ⟨t, hok, rfl⟩ := Option.map_eq_some_iff.mp hs
  have hrun := toOption_eq_some.mp hok
  refine ⟨?_, rfl⟩
  simp only [run, finishReadFrom, hwait, List.isEmpty_nil, if_true] at hrun
  cases hfree : s.sock.readWaitFreeGroups with
  | nil =>
      rw [hfree] at hrun
      cases hrun
      exact hfree
  | cons group rest =>
      rw [hfree] at hrun
      obtain ⟨u, hread, rfl⟩ := except_map_ok.mp hrun
      obtain ⟨-, rfl⟩ := prepareRead_ok hread
      rfl

/-- A call of `finish_read_from` that finds nothing waiting finds one idle group at most. -/
def finishesOne (s : System sendQueue recvQueue) : Label → Prop
  | .run _ =>
      s.thread = .ready .finishReadFrom ∧ s.sock.readWaitQueue = [] →
        s.sock.readWaitFreeGroups.length ≤ 1
  | .kernel _ | .prepare _ | .call _ | .poll => True

instance (s : System sendQueue recvQueue) : DecidablePred s.finishesOne
  | .run _ =>
      inferInstanceAs (Decidable
        (s.thread = .ready .finishReadFrom ∧ s.sock.readWaitQueue = [] →
          s.sock.readWaitFreeGroups.length ≤ 1))
  | .kernel _ | .prepare _ | .call _ | .poll => isTrue trivial

/--
**The capacity to receive is restored** by the calls of `finish_read_from` that find one
idle group at most, and by no other: after such a call no group is idle, and the armed
ones are all but those whose end is yet to be polled.
-/
theorem finish_restores_capacity {parse : GroupMsghdr → Bytes → Except SocketPanic Message}
    {sock : UdpSocket2IoUring sendQueue recvQueue}
    (hnew : UdpSocket2IoUring.new sendQueue recvQueue = .ok sock) (as : List Label) :
    (∀ s, Visits (System.step parse) (System.start sock) as s →
      s.thread.fresh.length + s.kernel.recvs.length + s.endedGroups.length
        + s.sock.readWaitFreeGroups.length = recvQueue / 16) ∧
    ∀ pre answer s s', pre ++ [.run answer] <+: as →
      runLabels (System.step parse) (System.start sock) pre = some s →
      s.thread = .ready .finishReadFrom → s.sock.readWaitQueue = [] →
      s.step parse (.run answer) = some s' →
        (s'.sock.readWaitFreeGroups = [] ↔ s.sock.readWaitFreeGroups.length ≤ 1) ∧
        (recvQueue / 16 - s'.endedGroups.length ≤ s'.kernel.recvs.length ↔
          s.sock.readWaitFreeGroups.length ≤ 1) ∧
        (Meets (System.step parse) finishesOne (System.start sock) as →
          s'.sock.readWaitFreeGroups = [] ∧
            s'.kernel.recvs.length = recvQueue / 16 - s'.endedGroups.length) := by
  refine ⟨fun s hrun => groups_counted hnew hrun, ?_⟩
  intro pre answer s s' hpre hrun hthread hwait hs
  have hrun' : runLabels (System.step parse) (System.start sock) (pre ++ [.run answer]) = some s' :=
    runLabels_concat.mpr ⟨s, hrun, hs⟩
  have hcount := groups_counted hnew ⟨_, hpre, hrun'⟩
  obtain ⟨hidle, hthread'⟩ := finish_idle hthread hwait hs
  have hnone : s'.thread.fresh.length = 0 := by simp [hthread', Thread.fresh]
  have htail : s'.sock.readWaitFreeGroups.length = s.sock.readWaitFreeGroups.length - 1 := by
    rw [hidle, List.length_tail]
  have hempty : s'.sock.readWaitFreeGroups = [] ↔ s.sock.readWaitFreeGroups.length ≤ 1 := by
    rw [← List.length_eq_zero_iff]
    omega
  refine ⟨hempty, by omega, fun hok => ?_⟩
  have hone := hok pre (.run answer) s s' hpre hrun hs ⟨hthread, hwait⟩
  exact ⟨hempty.mpr hone, by omega⟩

/-- A run in which the one group there is ends, and is armed again. -/
theorem finish_restores_capacity_one :
    ∃ (sock : UdpSocket2IoUring 16 16) (s' : System 16 16),
      UdpSocket2IoUring.new 16 16 = .ok sock ∧
      runLabels (System.step parseV4) (System.start sock)
        (prepareLabels 1 ++ [.kernel (.ended 0)] ++ callLabels .recvFrom 18 ++
          [.call .finishReadFrom, .run (.ok ())]) = some s' ∧
      s'.sock.readWaitFreeGroups = [] ∧
      s'.kernel.recvs.length = 16 / 16 - s'.endedGroups.length := by
  have hrun : (runNew 16 16 parseV4 (prepareLabels 1 ++ [.kernel (.ended 0)] ++
      callLabels .recvFrom 18 ++ [.call .finishReadFrom])).map (fun s => (s.thread,
        s.sock.readWaitQueue, (s.step parseV4 (.run (.ok ()))).isSome))
      = some (.ready .finishReadFrom, [], true) := by decide +kernel
  obtain ⟨sock, s, hnew, hlabels, hread⟩ := of_runNew hrun
  simp only [Prod.mk.injEq] at hread
  obtain ⟨hthread, hwait, hsome⟩ := hread
  obtain ⟨s', hs⟩ := Option.isSome_iff_exists.mp hsome
  have hok : Meets (System.step parseV4) finishesOne (System.start sock) (prepareLabels 1 ++
      [.kernel (.ended 0)] ++ callLabels .recvFrom 18 ++ [.call .finishReadFrom] ++
        [.run (.ok ())]) :=
    meets_of_new hnew (by decide +kernel)
  obtain ⟨-, -, hrestored⟩ := (finish_restores_capacity hnew _).2 _ _ s s' (List.prefix_refl _)
    hlabels hthread hwait hs
  exact ⟨sock, s', hnew, runLabels_concat.mpr ⟨s, hlabels, hs⟩, hrestored hok⟩

/-- Sixteen datagrams for the receive request `i`, which uses up its buffers. -/
def filledUp (i : Nat) : List Label := List.replicate 16 (.kernel (.filled i 0 packet true))

/--
Two groups run dry in one cycle: everything is returned, both ends are polled, and
`finish_read_from` leaves one of the groups idle.
-/
theorem finish_restores_capacity_two :
    ∃ (sock : UdpSocket2IoUring 16 32) (s s' : System 16 32),
      UdpSocket2IoUring.new 16 32 = .ok sock ∧
      runLabels (System.step parseV4) (System.start sock)
        (prepareLabels 2 ++ filledUp 0 ++ filledUp 1 ++ [.kernel (.ended 0), .kernel (.ended 0)] ++
          callLabels .recvFrom 67 ++ (List.replicate 32 (callLabels .recvFrom 1)).flatten ++
          [.call .finishReadFrom]) = some s ∧
      s.thread = .ready .finishReadFrom ∧ s.sock.readWaitQueue = [] ∧
      s.step parseV4 (.run (.ok ())) = some s' ∧
      s'.sock.readWaitFreeGroups = [1] ∧ s'.endedGroups = [] ∧ s'.kernel.recvs.length = 1 := by
  have hrun : (runNew 16 32 parseV4 (prepareLabels 2 ++ filledUp 0 ++ filledUp 1 ++
      [.kernel (.ended 0), .kernel (.ended 0)] ++ callLabels .recvFrom 67 ++
      (List.replicate 32 (callLabels .recvFrom 1)).flatten ++ [.call .finishReadFrom])).map
        (fun s => (decide (s.thread = .ready .finishReadFrom ∧ s.sock.readWaitQueue = []),
          (s.step parseV4 (.run (.ok ()))).map fun s' =>
            (s'.sock.readWaitFreeGroups, s'.endedGroups, s'.kernel.recvs.length)))
      = some (true, some ([1], [], 1)) := by decide +kernel
  obtain ⟨sock, s, hnew, hlabels, hread⟩ := of_runNew hrun
  simp only [Prod.mk.injEq, decide_eq_true_eq] at hread
  obtain ⟨⟨hthread, hwait⟩, hlast⟩ := hread
  obtain ⟨s', hs, hleft⟩ := Option.map_eq_some_iff.mp hlast
  simp only [Prod.mk.injEq] at hleft
  exact ⟨sock, s, s', hnew, hlabels, hthread, hwait, hs, hleft⟩

end System

end MediaServer.Uring
