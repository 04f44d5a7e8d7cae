/-
The calls of a cycle.

A worker makes its calls of the socket in the course of its cycle: the sends of its
sessions wherever they are polled, a receive for every datagram and one more for there
being none, then `commit_send_to` and `finish_read_from`.  The cycle is modelled by what
it does, and the calls are read off that (`Worker.socketCalls`); that they come in the
order the completion queue needs is all the socket asks of a worker.
-/
import MediaServer.Proofs.Completions
import MediaServer.Script

namespace MediaServer

open Lib

/-! ### A worker's calls -/

variable {Rtc : Type} {ext : Extern Rtc}

/-- The call of the socket an action is. -/
def Action.socketCall : Action → Option Uring.Call
  | .sendTo dst buf => some (.addSendTo buf dst)
  | _ => none

namespace Worker

variable {c : Cycle Rtc} {w w' : Worker Rtc} {calls : List Uring.Call}

/-- A turn, with what it calls of the socket in place of what it does. -/
def calling (before : List Uring.Call)
    (turn : Worker Rtc → Except Panic (Worker Rtc × List Action)) (w : Worker Rtc) :
    Except Panic (Worker Rtc × List Uring.Call) :=
  (turn w).map fun r => (r.1, before ++ r.2.filterMap Action.socketCall)

variable (ext) in
/--
What a cycle calls of the socket: the sends of its sessions, a receive for every datagram
and for there being no more, and the two calls after that.
-/
def socketCalls (c : Cycle Rtc) (w : Worker Rtc) :
    Except Panic (Worker Rtc × List Uring.Call) :=
  forEach (fun phase => phase)
    [calling [] (processBusRecv ext c.busEvents),
      calling [] (processHttp ext c.requests),
      calling [] (processTick ext c.tickOrder c.tickAt),
      calling [] (popTasks ext c.popOrder c.popAt),
      calling [] popEndedTasks,
      forEach (fun d => calling [.recvFrom] (handleDatagram ext d)) c.datagrams,
      fun w => .ok (w, [.recvFrom, .commitSendTo, .finishReadFrom])] w

theorem calling_polls {before : List Uring.Call}
    {turn : Worker Rtc → Except Panic (Worker Rtc × List Action)}
    (hbefore : ∀ call ∈ before, call.polls = true)
    (h : calling before turn w = .ok (w', calls)) : ∀ call ∈ calls, call.polls = true := by
  obtain ⟨r, -, heq⟩ := except_map_ok.mp h
  cases heq
  intro call hcall
  rcases List.mem_append.mp hcall with hcall | hcall
  · exact hbefore call hcall
  · obtain ⟨action, -, haction⟩ := List.mem_filterMap.mp hcall
    cases action <;> cases haction
    rfl

/-- The sends of some calls are those of some actions. -/
def SendsOf (actions : List Action) (calls : List Uring.Call) : Prop :=
  calls.filter (fun | .addSendTo _ _ => true | _ => false) = actions.filterMap Action.socketCall

theorem SendsOf.append {actions actions' : List Action} {calls calls' : List Uring.Call}
    (h : SendsOf actions calls) (h' : SendsOf actions' calls') :
    SendsOf (actions ++ actions') (calls ++ calls') := by
  unfold SendsOf at h h' ⊢
  rw [List.filter_append, List.filterMap_append, h, h']

theorem sendsOf_calling {before : List Uring.Call} (hbefore : SendsOf [] before)
    (turn : Worker Rtc → Except Panic (Worker Rtc × List Action)) {w w' : Worker Rtc}
    {actions : List Action} (h : turn w = .ok (w', actions)) :
    ∃ calls, calling before turn w = .ok (w', calls) ∧ SendsOf actions calls := by
  refine ⟨before ++ actions.filterMap Action.socketCall, by simp [calling, h, Except.map], ?_⟩
  show SendsOf ([] ++ actions) _
  refine hbefore.append ?_
  refine List.filter_eq_self.mpr fun call hcall => ?_
  obtain ⟨action, -, haction⟩ := List.mem_filterMap.mp hcall
  cases action <;> cases haction
  rfl

/-- **The calls are those of the cycle**: it sends what its actions send. -/
theorem socketCalls_sends {actions : List Action}
    (h : processCycle ext c w = .ok (w', actions)) :
    ∃ calls, socketCalls ext c w = .ok (w', calls) ∧ SendsOf actions calls := by
  let phases : List ((Worker Rtc → Except Panic (Worker Rtc × List Action)) ×
      (Worker Rtc → Except Panic (Worker Rtc × List Uring.Call))) :=
    [(processBusRecv ext c.busEvents, calling [] (processBusRecv ext c.busEvents)),
      (processHttp ext c.requests, calling [] (processHttp ext c.requests)),
      (processTick ext c.tickOrder c.tickAt, calling [] (processTick ext c.tickOrder c.tickAt)),
      (popTasks ext c.popOrder c.popAt, calling [] (popTasks ext c.popOrder c.popAt)),
      (popEndedTasks, calling [] popEndedTasks),
      (processUdp ext c.datagrams,
        forEach (fun d => calling [.recvFrom] (handleDatagram ext d)) c.datagrams)]
  have hnil : SendsOf [] [] := rfl
  have hcycle : forEach (fun p => p.1) phases w = .ok (w', actions) :=
    (forEach_map (f := fun turn => turn) Prod.fst phases w).symm.trans h
  have hturns : ∃ calls, forEach (fun p => p.2) phases w = .ok (w', calls) ∧
      SendsOf actions calls := by
    refine forEach_relates hnil (fun _ _ _ _ => SendsOf.append) ?_ hcycle
    intro phase hphase w w' actions h
    have hcalling : ∀ turn : Worker Rtc → Except Panic (Worker Rtc × List Action),
        turn w = .ok (w', actions) →
          ∃ calls, calling [] turn w = .ok (w', calls) ∧ SendsOf actions calls :=
      fun turn => sendsOf_calling hnil turn
    simp only [phases, List.mem_cons, List.not_mem_nil, or_false] at hphase
    rcases hphase with rfl | rfl | rfl | rfl | rfl | rfl
    · exact hcalling _ h
    · exact hcalling _ h
    · exact hcalling _ h
    · exact hcalling _ h
    · exact hcalling _ h
    · exact forEach_relates hnil (fun _ _ _ _ => SendsOf.append)
        (fun d _ w w' actions hd =>
          sendsOf_calling (show SendsOf [] [.recvFrom] from rfl) (handleDatagram ext d) hd) h
  obtain ⟨calls, hcalls, hsends⟩ := hturns
  have hcalls' := (forEach_map (f := fun turn => turn) Prod.snd phases w).trans hcalls
  refine ⟨calls ++ [.recvFrom, .commitSendTo, .finishReadFrom], ?_, ?_⟩
  · show forEach (fun turn => turn) (phases.map Prod.snd ++
      [fun w => .ok (w, [.recvFrom, .commitSendTo, .finishReadFrom])]) w = _
    rw [forEach_append, hcalls']
    rfl
  · have hlast : SendsOf [] [.recvFrom, .commitSendTo, .finishReadFrom] := rfl
    simpa using hsends.append hlast

/-- **The calls of a cycle are a cycle**: the queue is emptied before a group is armed. -/
theorem socketCalls_cycle (h : socketCalls ext c w = .ok (w', calls)) :
    ∃ body, (∀ call ∈ body, call.polls = true) ∧ calls = Uring.cycleOf body := by
  have hphases : ∀ phases : List (Worker Rtc → Except Panic (Worker Rtc × List Uring.Call)),
      (∀ phase ∈ phases, ∀ w w' calls, phase w = .ok (w', calls) →
        ∀ call ∈ calls, call.polls = true) →
      ∀ w w' calls, forEach (fun phase => phase)
        (phases ++ [fun w => .ok (w, [.recvFrom, .commitSendTo, .finishReadFrom])]) w
          = .ok (w', calls) →
        ∃ body, (∀ call ∈ body, call.polls = true) ∧ calls = Uring.cycleOf body := by
    intro phases
    induction phases with
    | nil =>
        intro _ w w' calls h
        rw [List.nil_append, forEach_singleton] at h
        cases h
        exact ⟨[], by simp, rfl⟩
    | cons phase rest ih =>
        intro hall w w' calls h
        obtain ⟨t, calls₁, calls₂, hphase, hrest, rfl⟩ := forEach_cons_ok.mp h
        obtain ⟨body, hbody, rfl⟩ :=
          ih (fun p hp => hall p (List.mem_cons_of_mem _ hp)) t w' calls₂ hrest
        refine ⟨calls₁ ++ body, fun call hcall => ?_, (List.append_assoc _ _ _).symm⟩
        rcases List.mem_append.mp hcall with hcall | hcall
        · exact hall phase List.mem_cons_self w t calls₁ hphase call hcall
        · exact hbody call hcall
  refine hphases [_, _, _, _, _, _] ?_ w w' calls h
  intro phase hphase w w' calls h
  have hdatagrams : ∀ w w' calls, forEach (fun d => calling [.recvFrom] (handleDatagram ext d))
      c.datagrams w = .ok (w', calls) → ∀ call ∈ calls, call.polls = true := by
    intro w w' calls h
    refine forEach_preserves (P := fun calls _ => ∀ call ∈ calls, call.polls = true) ?_ h (by simp)
    intro d w w' calls calls' hturn hcalls call hcall
    rcases List.mem_append.mp hcall with hcall | hcall
    · exact hcalls call hcall
    · exact calling_polls (by simp [Uring.Call.polls]) hturn call hcall
  simp only [List.mem_cons, List.not_mem_nil, or_false] at hphase
  rcases hphase with rfl | rfl | rfl | rfl | rfl | rfl
  · exact calling_polls (by simp) h
  · exact calling_polls (by simp) h
  · exact calling_polls (by simp) h
  · exact calling_polls (by simp) h
  · exact calling_polls (by simp) h
  · exact hdatagrams w w' calls h

end Worker

/-! ### The worker's socket -/

namespace Uring.System

variable {parse : GroupMsghdr → Bytes → Except SocketPanic Message}

/--
**The completion queue of a worker never overflows**, if a receive ends only when the
buffers of its group are used up: in every state of every run in which the calls are those
of its cycles there are at most 8192 entries, twice as many as the ring was made for.
-/
theorem completions_fit {Rtc : Type} {ext : Extern Rtc}
    {parse : GroupMsghdr → Bytes → Except SocketPanic Message}
    {sock : UdpSocket2IoUring 2048 2048} (hnew : UdpSocket2IoUring.new 2048 2048 = .ok sock)
    {cycles : List (List Call)}
    (hcycles : ∀ cycle ∈ cycles, ∃ c w w', Worker.socketCalls ext c w = .ok (w', cycle))
    {as : List Label} (hcalls : calls as <+: cycles.flatten)
    (hkernel : Meets (System.step parse) usesUp (System.start sock) as) {s : System 2048 2048}
    (hrun : Visits (System.step parse) (System.start sock) as s) :
    s.sock.ring.completion.length ≤ 8192 ∧ 8192 = 2 * s.sock.ring.entries := by
  have hentries : s.sock.ring.entries = 4096 := by
    have hnew' : (UdpSocket2IoUring.new 2048 2048).toOption.map (·.ring.entries) = some 4096 := by
      decide +kernel
    rw [hnew] at hnew'
    exact (Roomy.visits hnew hrun).entries.trans (Option.some.inj hnew')
  have hbodies : ∀ cycle ∈ cycles, ∃ body, (∀ call ∈ body, call.polls = true) ∧
      cycle = cycleOf body := by
    intro cycle hcycle
    obtain ⟨c, w, w', hok⟩ := hcycles cycle hcycle
    exact Worker.socketCalls_cycle hok
  choose! bodyOf hbody hcycle using hbodies
  have hflatten : cycles.flatten = (cycles.map bodyOf).flatMap cycleOf := by
    rw [List.flatMap_map, ← List.flatMap_id]
    exact List.flatMap_congr fun cycle hmem => hcycle cycle hmem
  have hall : ∀ body ∈ cycles.map bodyOf, ∀ call ∈ body, call.polls = true := by
    intro body hmem
    obtain ⟨cycle, hmem', rfl⟩ := List.mem_map.mp hmem
    exact hbody cycle hmem'
  obtain ⟨pre, hpre, hlabels⟩ := hrun
  have hprefix : calls pre <+: cycles.flatten := (hpre.filterMap _).trans hcalls
  rw [hflatten] at hprefix
  obtain ⟨polled, hpolled⟩ := turn_cycles hall hprefix
  have hwithin := (within_visits hnew (by decide) pre s (hkernel.restrict hpre) hlabels).2 polled
    hpolled
  have hceiling : s.outstanding ≤ max (33 * (2048 / 16)) (2 * 2048 + 17 * (2048 / 16) + 33) :=
    hwithin.le_ceiling
  unfold outstanding at hceiling
  exact ⟨by omega, by rw [hentries]⟩

/-- The groups are armed, and the kernel uses up the first one while the others still are. -/
def armingLabels : List Label :=
  .prepare (.ok ()) :: filledUp 0 ++ [.kernel (.ended 0)] ++ List.replicate 128 (.prepare (.ok ()))

/-- Once the entries of all this are polled, a packet is accepted; a datagram is returned. -/
def busyLabels : List Label :=
  armingLabels ++ callLabels (.addSendTo [1, 2, 3] (Script.peer 7)) 2066 ++ callLabels .recvFrom 1

/-- The receive of the first group ends with its sixteen buffers used up. -/
theorem busyLabels_usesUp :
    ∃ (sock : UdpSocket2IoUring 2048 2048) (s : System 2048 2048),
      UdpSocket2IoUring.new 2048 2048 = .ok sock ∧
      runLabels (System.step parseV4) (System.start sock) busyLabels = some s ∧
      s.sock.readWaitQueue.length = 15 ∧
      Meets (System.step parseV4) usesUp (System.start sock) busyLabels := by
  have hrun : (UdpSocket2IoUring.new 2048 2048).toOption.map (fun sock =>
      ((runLabels (System.step parseV4) (System.start sock) busyLabels).map
          (·.sock.readWaitQueue.length),
        checks (System.step parseV4) (fun s a => decide (usesUp s a)) (System.start sock)
          busyLabels)) = some (some 15, true) := by decide +kernel
  obtain ⟨sock, hsock, hboth⟩ := Option.map_eq_some_iff.mp hrun
  obtain ⟨hlabels, hchecks⟩ := Prod.mk.inj hboth
  obtain ⟨s, hs, hqueue⟩ := Option.map_eq_some_iff.mp hlabels
  have hkernel := meets_of_checks hchecks
  exact ⟨sock, s, toOption_eq_some.mp hsock, hs, hqueue,
    fun pre a s t hpre hs ht => of_decide_eq_true (hkernel pre a s t hpre hs ht)⟩

/-- A worker's first cycle, of which these are calls: a request opens a session, which sends. -/
theorem completions_fit_busy :
    ∃ (sock : UdpSocket2IoUring 2048 2048) (s : System 2048 2048),
      UdpSocket2IoUring.new 2048 2048 = .ok sock ∧
      runLabels (System.step parseV4) (System.start sock) busyLabels = some s ∧
      s.sock.readWaitQueue.length = 15 ∧ s.sock.ring.completion.length ≤ 8192 := by
  obtain ⟨sock, s, hnew, hlabels, hqueue, hkernel⟩ := busyLabels_usesUp
  let sending : Transmit :=
    { source := Script.addr, destination := Script.peer 7, contents := [1, 2, 3] }
  let opening : Worker.Cycle Script :=
    { busEvents := []
      requests := [Script.arrival 0 "/whip/endpoint" [0x76] "abc" [.transmit sending]]
      tickOrder := [0]
      tickAt := 0
      popOrder := [0]
      popAt := 0
      datagrams := [] }
  let made : List Call := [.addSendTo [1, 2, 3] (Script.peer 7), .recvFrom]
  have hopening : (Worker.socketCalls Script.engine opening (.new Script.addr)).toOption.map
      Prod.snd = some (made ++ [.commitSendTo, .finishReadFrom]) := by decide +kernel
  obtain ⟨⟨w', cycle⟩, hcycle, rfl⟩ := Option.map_eq_some_iff.mp hopening
  have hcycles : ∀ cycle ∈ [made ++ [.commitSendTo, .finishReadFrom]],
      ∃ c w w', Worker.socketCalls Script.engine c w = .ok (w', cycle) := by
    intro cycle hmem
    rw [List.mem_singleton.mp hmem]
    exact ⟨opening, .new Script.addr, w', toOption_eq_some.mp hcycle⟩
  have hcalls : calls busyLabels <+: [made ++ [.commitSendTo, .finishReadFrom]].flatten :=
    ⟨[.commitSendTo, .finishReadFrom], by decide +kernel⟩
  exact ⟨sock, s, hnew, hlabels, hqueue,
    (completions_fit hnew hcycles hcalls hkernel ⟨_, List.prefix_refl _, hlabels⟩).1⟩

end Uring.System

end MediaServer
