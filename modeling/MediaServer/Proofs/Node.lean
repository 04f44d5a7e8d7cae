/-
The server and its sockets.

A run of the whole program is a run of each of its sockets and, as long as no thread dies
in a call of its socket, a run of the server; so what was proved of either holds of the
whole.  Beyond that there is how the two hang together: what a thread has still to send
and to share is what its last turn left, in order, and a call that lasts is the call the
thread makes there (`Coherent`).

From this it follows what becomes of a packet.  An engine's `Transmit` is a send of its
worker, the send a call, and what the call accepts is handed to the kernel in that order;
and what the kernel has written into a buffer is returned to the thread, which handles it
before it asks for more.
-/
import MediaServer.Node
import MediaServer.Proofs.Completions
import MediaServer.Proofs.Datagrams
import MediaServer.Proofs.Journal

namespace MediaServer

open Lib

variable {Rtc : Type} {n sendQueue recvQueue : Nat} {ext : Extern Rtc}
  {parse : Uring.GroupMsghdr → Bytes → Except Uring.SocketPanic Uring.Message}

/-! ### Panics of the socket -/

/-- What is computed is the panic there is. -/
theorem Uring.System.panics_iff {s : Uring.System sendQueue recvQueue} {l : Uring.Label}
    {p : Uring.SocketPanic} : s.panics parse l = some p ↔ Uring.System.Panics parse s l p := by
  constructor
  · intro h
    unfold panics at h
    split at h
    · split at h
      · exact .prepare ‹_› (failure_eq_some.mp h)
      · cases h
    · split at h
      · exact .poll ‹_› ‹_› (failure_eq_some.mp h)
      · cases h
    · split at h
      · exact .run ‹_› (failure_eq_some.mp h)
      · cases h
    · cases h
    · cases h
  · intro h
    cases h with
    | prepare hthread h => simp [panics, hthread, h, Lib.failure]
    | poll hthread hcq h => simp [panics, hthread, hcq, h, Lib.failure]
    | run hthread h => simp [panics, hthread, h, Lib.failure]

namespace Node

variable {s s' : Node n sendQueue recvQueue Rtc} {v w : Fin n}

/-! ### What one step can do -/

section

variable (w) (port : Port sendQueue recvQueue) (s)

@[simp] theorem setPort_ports (v : Fin n) :
    (s.setPort w port).ports v = if v = w then port else s.ports v := rfl

@[simp] theorem setPort_server : (s.setPort w port).server = s.server := rfl

end

theorem server_some {l : MediaServer.Label n Rtc} (h : s.step ext parse (.server l) = some s') :
    s.allows l ∧ s.server.step ext l = some s'.server ∧ s'.ports = s.follow ext l := by
  simp only [step] at h
  split at h
  · obtain ⟨server, hserver, rfl⟩ := Option.map_eq_some_iff.mp h
    exact ⟨‹_›, hserver, rfl⟩
  · cases h

theorem socket_some {l : Uring.Label} (h : s.step ext parse (.socket w l) = some s') :
    s.admits w l ∧ ∃ socket, (s.ports w).socket.step parse l = some socket ∧
      s' = s.setPort w ((s.ports w).after l socket) := by
  simp only [step] at h
  split at h
  · obtain ⟨socket, hsocket, rfl⟩ := Option.map_eq_some_iff.mp h
    exact ⟨‹_›, socket, hsocket, rfl⟩
  · cases h

theorem crash_some {l : Uring.Label} (h : s.step ext parse (.crash w l) = some s') :
    s.admits w l ∧ (∃ p, Uring.System.Panics parse (s.ports w).socket l p) ∧
      s' = s.crashed w := by
  simp only [step] at h
  split at h
  · rename_i hc
    obtain ⟨p, hp⟩ := Option.isSome_iff_exists.mp hc.2
    cases h
    exact ⟨hc.1, ⟨p, Uring.System.panics_iff.mp hp⟩, rfl⟩
  · cases h

/-! ### The parts of a run -/

/-- The step of the server a step of the whole is. -/
def serverView : Label n Rtc → Option (MediaServer.Label n Rtc)
  | .server l => some l
  | .socket _ _ | .crash _ _ => none

/-- The step of the socket of `v` a step of the whole is. -/
def socketView (v : Fin n) : Label n Rtc → Option Uring.Label
  | .socket w l => if w = v then some l else none
  | .server _ | .crash _ _ => none

end Node

@[simp] theorem Port.after_socket (l : Uring.Label) (socket : Uring.System sendQueue recvQueue)
    (port : Port sendQueue recvQueue) : (port.after l socket).socket = socket := by
  unfold after
  split
  · unfold returned
    split
    · rfl
    · split <;> rfl
    · rfl
    · rfl
  · rfl

namespace Node

variable {s s' : Node n sendQueue recvQueue Rtc} {v w : Fin n}

/-- No step of the server is a step of a socket. -/
theorem follow_socket (ext : Extern Rtc) (l : MediaServer.Label n Rtc) (v : Fin n) :
    (s.follow ext l v).socket = (s.ports v).socket := by
  cases l <;> simp only [follow, setPort_ports] <;> try rfl
  all_goals
    split
    · rename_i hv
      rw [hv]
    · rfl

/-- **In every run of the whole, every socket makes a run.** -/
theorem projects_socket (v : Fin n) :
    Projects (step ext parse) (Uring.System.step parse)
      (fun s : Node n sendQueue recvQueue Rtc => (s.ports v).socket) (socketView v) := by
  intro s l s' h
  cases l with
  | server l =>
      obtain ⟨-, -, hports⟩ := server_some h
      show (s'.ports v).socket = _
      rw [hports, follow_socket]
  | socket w l =>
      obtain ⟨-, socket, hsocket, rfl⟩ := socket_some h
      simp only [socketView, setPort_ports]
      by_cases hv : w = v
      · subst hv
        simpa using hsocket
      · simp [hv, Ne.symm hv]
  | crash w l =>
      obtain ⟨-, -, rfl⟩ := crash_some h
      show ((s.crashed w).ports v).socket = _
      simp only [crashed, setPort_ports]
      split
      · rename_i hv
        rw [hv]
      · rfl

/-- A step that is not a thread's end in a call of its socket. -/
def Survives (_ : Node n sendQueue recvQueue Rtc) : Label n Rtc → Prop
  | .crash _ _ => False
  | .server _ | .socket _ _ => True

end Node

/-! ### A thread and its port -/

/-- The worker whose thread takes a step. -/
def Label.thread : Label n Rtc → Option (Fin n)
  | .arrive _ | .insert | .respond => none
  | .spawn w | .turn w _ | .nextPhase w | .startPop w _ _ | .reply w | .lock w | .acquire w
  | .broadcast w => some w

/-- What the steps of other threads leave of a slot. -/
structure WorkerSlot.Undisturbed (slot slot' : WorkerSlot Rtc) : Prop where
  phase : slot'.phase = slot.phase
  outgoing : slot'.outgoing = slot.outgoing

theorem Server.step_other {s s' : Server n Rtc} {l : Label n Rtc} {v : Fin n}
    (h : s.step ext l = some s') (hv : l.thread ≠ some v) :
    (s.slots v).Undisturbed (s'.slots v) := by
  have hset : ∀ {w : Fin n} {slot : WorkerSlot Rtc}, some w ≠ some v →
      (s.slots v).Undisturbed ((s.setSlot w slot).slots v) := by
    intro w slot hne
    rw [setSlot_slots, if_neg fun heq => hne (congrArg some heq.symm)]
    exact ⟨rfl, rfl⟩
  cases l with
  | arrive req =>
      obtain ⟨-, rfl⟩ := arrive_some h
      rcases input_slots { req with reqId := s.reqId } s v with heq | ⟨-, -, -, heq⟩
      · rw [heq]
        exact ⟨rfl, rfl⟩
      · rw [heq]
        exact ⟨rfl, rfl⟩
  | insert =>
      obtain ⟨-, rfl⟩ := insert_some h
      exact ⟨rfl, rfl⟩
  | respond =>
      obtain ⟨res, rest, -, -, ⟨-, rfl⟩ | ⟨-, rfl⟩⟩ := respond_some h
      · exact ⟨rfl, rfl⟩
      · exact ⟨rfl, rfl⟩
  | spawn w =>
      obtain ⟨-, -, rfl⟩ := spawn_some h
      exact hset hv
  | turn w op =>
      obtain ⟨-, slot, -, ⟨p, -, rfl⟩ | ⟨worker, actions, -, rfl⟩⟩ := turn_some h
      · exact hset hv
      · exact hset hv
  | nextPhase w =>
      obtain ⟨-, phase, -, -, -, rfl⟩ := nextPhase_some h
      exact hset hv
  | startPop w order now =>
      obtain ⟨-, -, rfl⟩ := startPop_some h
      exact hset hv
  | reply w =>
      obtain ⟨res, rest, -, rfl⟩ := reply_some h
      exact hset hv
  | lock w =>
      obtain ⟨-, -, -, rfl⟩ := callLock_some h
      exact hset hv
  | acquire w =>
      obtain ⟨-, -, rfl⟩ := acquire_some h
      exact hset hv
  | broadcast w =>
      obtain ⟨taskId, ev, rest, -, -, -, rfl⟩ := broadcast_some h
      exact hset hv

/-- What a turn leaves to share is what it did that others see, whichever way it ended. -/
theorem Server.turn_outgoing {s s' : Server n Rtc} {w : Fin n} {op : Op Rtc}
    (h : s.step ext (.turn w op) = some s') :
    (s.slots w).outgoing = [] ∧ (s'.slots w).phase ≠ .starting ∧ (s'.slots w).outgoing
      = ((s.emitted ext (.turn w op)).map Prod.snd).filter Action.isShared := by
  obtain ⟨hidle, slot, htaken, ⟨p, hexec, rfl⟩ | ⟨worker, actions, hexec, rfl⟩⟩ := turn_some h
  · rw [htaken.worker] at hexec
    simp [hidle, emitted, hexec, WorkerSlot.panic, htaken.outgoing]
  · rw [htaken.worker] at hexec
    simp [hidle, emitted, hexec, htaken.started.2, Function.comp_def]

/-- Whoever is in a call after a step was in it before, or has just made it. -/
theorem Uring.System.thread_step {s s' : Uring.System sendQueue recvQueue} {l : Uring.Label}
    (h : s.step parse l = some s') {c : Uring.Call}
    (hthread : s'.thread = .polling c ∨ s'.thread = .ready c) :
    l = .call c ∨ (∀ answer, l ≠ .run answer) ∧ (s.thread = .polling c ∨ s.thread = .ready c) := by
  cases step_effect h with
  | called c' hidle =>
      left
      by_cases hpolls : c'.polls
      · simpa [hpolls] using hthread
      · simpa [hpolls] using hthread
  | armed answer hthread' hbound => simp at hthread
  | prepared answer hthread' => simp at hthread
  | polledAll hthread' hcq => simpa [hthread'] using hthread
  | accepted answer hthread' hfree => simp [sending] at hthread
  | flushed hthread' hchanged => simp [committing] at hthread
  | received answer hthread' hwait hparse => simp [receiving] at hthread
  | rearmed answer hthread' hwait hfree hbound => simp [rearming] at hthread
  | returned answer outcome hthread' hcommit => simp at hthread
  | _ => exact .inr ⟨by simp, hthread⟩

/-- Only a call that is over adds to what was accepted and what was returned. -/
theorem Uring.System.step_keeps {s s' : Uring.System sendQueue recvQueue} {l : Uring.Label}
    (h : s.step parse l = some s') (hrun : ∀ answer, l ≠ .run answer) :
    s'.accepted = s.accepted ∧ s'.returned = s.returned := by
  cases step_effect h with
  | accepted answer _ _ => exact absurd rfl (hrun answer)
  | flushed _ _ => exact absurd rfl (hrun _)
  | received answer _ _ _ => exact absurd rfl (hrun answer)
  | rearmed answer _ _ _ _ => exact absurd rfl (hrun answer)
  | returned answer _ _ _ => exact absurd rfl (hrun answer)
  | _ => exact ⟨rfl, rfl⟩

/-- What a call that is over adds. -/
def Uring.Call.Adds (s s' : Uring.System sendQueue recvQueue) : Uring.Call → Prop
  | .addSendTo buf dest =>
      s'.returned = s.returned ∧ (s'.accepted = s.accepted ++ [(buf, dest)] ∨
        s.sock.sendFreeQueue = [] ∧ s'.accepted = s.accepted)
  | .recvFrom =>
      s'.accepted = s.accepted ∧
        ((∃ msg, s'.outcome = some (.recvFrom (.ok msg)) ∧ s'.returned = s.returned ++ [msg]) ∨
          ∃ e, s'.outcome = some (.recvFrom (.error e)) ∧ s'.returned = s.returned)
  | .commitSendTo | .finishReadFrom =>
      s'.accepted = s.accepted ∧ s'.returned = s.returned

/-- A call that is over leaves the thread free. -/
theorem Uring.System.run_some {s s' : Uring.System sendQueue recvQueue}
    {answer : Except Uring.IoError Unit} (h : s.step parse (.run answer) = some s') :
    ∃ c, s.thread = .ready c ∧ s'.thread = .idle ∧ c.Adds s s' := by
  simp only [step] at h
  split at h
  · rename_i c hc
    obtain ⟨t, ht, rfl⟩ := Option.map_eq_some_iff.mp h
    replace ht := toOption_eq_some.mp ht
    refine ⟨c, hc, rfl, ?_⟩
    cases c with
    | addSendTo buf dest =>
        obtain ⟨r, hr, rfl⟩ := except_map_ok.mp ht
        refine ⟨rfl, ?_⟩
        unfold UdpSocket2IoUring.addSendTo at hr
        split at hr
        · cases hr
          exact .inr ⟨‹_›, rfl⟩
        · split at hr
          · split at hr
            · cases hr
            · cases hr
              exact .inl rfl
          · cases hr
    | recvFrom =>
        obtain ⟨⟨r, sock⟩, -, rfl⟩ := except_map_ok.mp ht
        refine ⟨rfl, ?_⟩
        cases r with
        | ok msg => exact .inl ⟨msg, rfl, rfl⟩
        | error e => exact .inr ⟨e, rfl, by simp [Except.toOption]⟩
    | commitSendTo =>
        cases ht
        unfold System.commitSendTo submit
        split
        · cases answer <;> exact ⟨rfl, rfl⟩
        · exact ⟨rfl, rfl⟩
    | finishReadFrom =>
        simp only [System.run, System.finishReadFrom] at ht
        split at ht
        · split at ht
          · obtain ⟨u, hu, rfl⟩ := except_map_ok.mp ht
            unfold prepareRead submit at hu
            split at hu
            · cases hu
            · cases answer with
              | error e => cases hu
              | ok _ =>
                  cases hu
                  exact ⟨rfl, rfl⟩
          · cases ht
            exact ⟨rfl, rfl⟩
        · cases ht
          exact ⟨rfl, rfl⟩
  · cases h

namespace Node

variable {s s' : Node n sendQueue recvQueue Rtc} {v w : Fin n}

/-- What a thread has still to do and the call it is in are those of its server and its socket. -/
structure Coherent (s : Node n sendQueue recvQueue Rtc) : Prop where
  outgoing : ∀ w, (s.ports w).todo.filter Action.isShared = (s.server.slots w).outgoing
  starting : ∀ w, (s.server.slots w).phase = .starting → (s.ports w).todo = []
  calling : ∀ w c, (s.ports w).socket.thread = .polling c ∨ (s.ports w).socket.thread = .ready c →
    (s.server.slots w).phase = .panicked ∨
      (s.ports w).nextCall (s.server.slots w).phase = some c

theorem coherent_new (localAddrs : Fin n → SocketAddr)
    (socks : Fin n → Uring.UdpSocket2IoUring sendQueue recvQueue) :
    (new localAddrs socks : Node n sendQueue recvQueue Rtc).Coherent := by
  refine ⟨fun w => rfl, fun w _ => rfl, fun w c h => ?_⟩
  simp [new, Port.new, Uring.System.start] at h

/-- Where no call lasts nothing has to be said of one. -/
theorem not_calling {port : Port sendQueue recvQueue} (hidle : port.socket.thread = .idle)
    (c : Uring.Call) : ¬ (port.socket.thread = .polling c ∨ port.socket.thread = .ready c) := by
  simp [hidle]

theorem follow_other {l : MediaServer.Label n Rtc} (hv : l.thread ≠ some v) :
    s.follow ext l v = s.ports v := by
  have hset : ∀ {w : Fin n} {port : Port sendQueue recvQueue}, some w ≠ some v →
      (s.setPort w port).ports v = s.ports v := by
    intro w port hne
    rw [setPort_ports, if_neg fun heq => hne (congrArg some heq.symm)]
  cases l with
  | turn w op => exact hset hv
  | nextPhase w => exact hset hv
  | reply w => exact hset hv
  | broadcast w => exact hset hv
  | _ => rfl

/-- A thread that takes a step of the server is in no call, unless it is just starting. -/
theorem allows_idle {l : MediaServer.Label n Rtc} (h : s.allows l) (hv : l.thread = some v) :
    (s.ports v).socket.thread = .idle ∨ l = .spawn v := by
  cases l <;> cases hv
  all_goals first
    | exact .inr rfl
    | exact .inl h.1.1
    | exact .inl h.1

/-- Outside `process_udp` a thread with nothing to send makes no call. -/
theorem nextCall_none {phase : Phase} {port : Port sendQueue recvQueue} (htodo : port.todo = [])
    (hphase : phase ≠ .udp) : port.nextCall phase = none := by
  simp only [Port.nextCall, htodo]
  cases phase with
  | udp => exact absurd rfl hphase
  | _ => rfl

/-- What is next is shared, and it is what the server has next. -/
theorem Coherent.atShared (h : s.Coherent) (hw : (s.ports w).atShared) :
    ∃ a rest, (s.ports w).todo = a :: rest ∧
      (s.server.slots w).outgoing = a :: rest.filter Action.isShared := by
  have hout := h.outgoing w
  cases htodo : (s.ports w).todo with
  | nil => simp [Port.atShared, htodo] at hw
  | cons a rest =>
      have hshared : a.isShared = true := by simpa [Port.atShared, htodo] using hw.2
      rw [htodo, List.filter_cons, if_pos hshared] at hout
      exact ⟨a, rest, rfl, hout.symm⟩

/-- The shared actions among what a turn leaves to do. -/
theorem filter_outward (actions : List Action) :
    (actions.filter Action.isOutward).filter Action.isShared = actions.filter Action.isShared := by
  rw [List.filter_filter]
  refine List.filter_congr fun a _ => ?_
  cases a <;> rfl

/-- The thread that moves has left to do what its worker has left to share. -/
theorem Coherent.mine {l : MediaServer.Label n Rtc} {server : Server n Rtc} {v : Fin n}
    (h : s.Coherent) (hallows : s.allows l) (hserver : s.server.step ext l = some server)
    (hv : l.thread = some v) :
    (s.follow ext l v).todo.filter Action.isShared = (server.slots v).outgoing ∧
      ((server.slots v).phase = .starting → (s.follow ext l v).todo = []) := by
  cases l with
  | arrive req => cases hv
  | insert => cases hv
  | respond => cases hv
  | spawn w =>
      cases hv
      obtain ⟨hphase, -, heq⟩ := Server.spawn_some hserver
      exact ⟨by simp [follow, heq, h.outgoing], fun _ => h.starting v hphase⟩
  | turn w op =>
      cases hv
      obtain ⟨-, hphase, hout⟩ := Server.turn_outgoing hserver
      refine ⟨?_, fun hp => absurd hp hphase⟩
      rw [hout, follow, setPort_ports, if_pos rfl]
      exact filter_outward _
  | nextPhase w =>
      cases hv
      obtain ⟨-, phase, -, -, hphase, heq⟩ := Server.nextPhase_some hserver
      simp [follow, heq, hphase, h.outgoing]
  | startPop w order now =>
      cases hv
      obtain ⟨-, -, heq⟩ := Server.startPop_some hserver
      simp [follow, heq, h.outgoing]
  | reply w =>
      cases hv
      obtain ⟨a, rest, htodo, hout⟩ := h.atShared hallows
      obtain ⟨res, rest', hout', heq⟩ := Server.reply_some hserver
      have hrest : rest' = rest.filter Action.isShared := by
        rcases hout' with hout' | ⟨hout', -⟩
        · exact (List.cons.inj (hout'.symm.trans hout)).2
        · exact (List.cons.inj (hout'.symm.trans hout)).2
      refine ⟨by simp [follow, heq, htodo, hrest], fun hp => ?_⟩
      have hnone := h.starting v (by simpa [heq] using hp)
      rw [htodo] at hnone
      cases hnone
  | lock w =>
      cases hv
      obtain ⟨-, -, -, heq⟩ := Server.callLock_some hserver
      refine ⟨by simp [follow, heq, h.outgoing], fun hp => h.starting v (by simpa [heq] using hp)⟩
  | acquire w =>
      cases hv
      obtain ⟨-, -, heq⟩ := Server.acquire_some hserver
      refine ⟨by simp [follow, heq, h.outgoing], fun hp => h.starting v (by simpa [heq] using hp)⟩
  | broadcast w =>
      cases hv
      obtain ⟨a, rest, htodo, hout⟩ := h.atShared hallows
      obtain ⟨taskId, ev, rest', hout', -, -, heq⟩ := Server.broadcast_some hserver
      have hrest : rest' = rest.filter Action.isShared :=
        (List.cons.inj (hout'.symm.trans hout)).2
      refine ⟨by simp [follow, heq, htodo, hrest], fun hp => ?_⟩
      have hnone := h.starting v (by simpa [heq] using hp)
      rw [htodo] at hnone
      cases hnone

theorem Coherent.server {l : MediaServer.Label n Rtc} (h : s.Coherent)
    (hs : s.step ext parse (.server l) = some s') : s'.Coherent := by
  obtain ⟨hallows, hserver, hports⟩ := server_some hs
  have hport : ∀ v, s'.ports v = s.follow ext l v := fun v => by rw [hports]
  have hsocket : ∀ v, (s'.ports v).socket = (s.ports v).socket := fun v => by
    rw [hport, follow_socket]
  have hother : ∀ v, l.thread ≠ some v →
      (s'.server.slots v).outgoing = (s.server.slots v).outgoing ∧
        (s'.server.slots v).phase = (s.server.slots v).phase ∧ s'.ports v = s.ports v := by
    intro v hv
    have hslot := Server.step_other hserver hv
    exact ⟨hslot.outgoing, hslot.phase, (hport v).trans (follow_other hv)⟩
  have hmine : ∀ v, l.thread = some v →
      (s'.ports v).todo.filter Action.isShared = (s'.server.slots v).outgoing ∧
        ((s'.server.slots v).phase = .starting → (s'.ports v).todo = []) := fun v hv =>
    (hport v).symm ▸ h.mine hallows hserver hv
  refine ⟨fun v => ?_, fun v hphase => ?_, fun v c hthread => ?_⟩
  · by_cases hv : l.thread = some v
    · exact (hmine v hv).1
    · obtain ⟨hout, -, hsame⟩ := hother v hv
      rw [hsame, hout]
      exact h.outgoing v
  · by_cases hv : l.thread = some v
    · exact (hmine v hv).2 hphase
    · obtain ⟨-, hsame, hport⟩ := hother v hv
      rw [hport]
      exact h.starting v (hsame ▸ hphase)
  · rw [hsocket] at hthread
    by_cases hv : l.thread = some v
    · rcases allows_idle hallows hv with hidle | rfl
      · exact absurd hthread (not_calling hidle c)
      · -- Before its first cycle a thread has made no call.
        obtain ⟨hphase, -, -⟩ := Server.spawn_some hserver
        rcases h.calling v c hthread with hpanicked | hcall
        · rw [hphase] at hpanicked
          cases hpanicked
        · rw [nextCall_none (h.starting v hphase) (by simp [hphase])] at hcall
          cases hcall
    · obtain ⟨-, hsame, hport⟩ := hother v hv
      rw [hsame, hport]
      exact h.calling v c hthread

/-- The thread that comes back from a call with something to share has made no other use of it. -/
theorem after_todo (l : Uring.Label) (socket : Uring.System sendQueue recvQueue)
    (port : Port sendQueue recvQueue) :
    (port.after l socket).todo = port.todo ∨
      ∃ answer buf dest, l = .run answer ∧ port.socket.thread = .ready (.addSendTo buf dest) ∧
        (port.after l socket).todo = port.todo.tail := by
  unfold Port.after
  split
  · rename_i answer c hc
    cases c with
    | addSendTo buf dest => exact .inr ⟨_, buf, dest, rfl, hc, rfl⟩
    | recvFrom =>
        left
        unfold Port.returned
        simp only
        split <;> rfl
    | commitSendTo => exact .inl rfl
    | finishReadFrom => exact .inl rfl
  · exact .inl rfl

/-- A call of `add_send_to` is the first thing there is to do. -/
theorem nextCall_addSendTo {phase : Phase} {port : Port sendQueue recvQueue} {buf : Bytes}
    {dest : SocketAddr} (h : port.nextCall phase = some (.addSendTo buf dest)) :
    ∃ rest, port.todo = .sendTo dest buf :: rest := by
  unfold Port.nextCall at h
  split at h
  · rename_i rest htodo
    cases h
    exact ⟨rest, htodo⟩
  · cases h
  · split at h <;> cases h

/-- A thread that can finish a call is running, and the call is the one it makes there. -/
theorem Coherent.called (h : s.Coherent) {answer : Except Uring.IoError Unit} {c : Uring.Call}
    (hadmits : s.admits w (.run answer)) (hthread : (s.ports w).socket.thread = .ready c) :
    (s.ports w).nextCall (s.server.slots w).phase = some c :=
  (h.calling w c (.inr hthread)).resolve_left hadmits.2

theorem Coherent.socket {l : Uring.Label} (h : s.Coherent)
    (hs : s.step ext parse (.socket w l) = some s') : s'.Coherent := by
  obtain ⟨hadmits, socket, hsocket, rfl⟩ := socket_some hs
  -- A send that is over was not one of the shared actions.
  have htodo : ((s.ports w).after l socket).todo.filter Action.isShared
      = (s.ports w).todo.filter Action.isShared := by
    rcases after_todo l socket (s.ports w) with
      hsame | ⟨answer, buf, dest, rfl, hthread, htail⟩
    · rw [hsame]
    · obtain ⟨rest, htodo⟩ := nextCall_addSendTo (h.called hadmits hthread)
      rw [htail, htodo]
      rfl
  refine ⟨fun v => ?_, fun v hphase => ?_, fun v c hthread => ?_⟩
  · rw [setPort_ports]
    split
    · rename_i hv
      rw [hv, htodo]
      exact h.outgoing w
    · exact h.outgoing v
  · have hnone := h.starting v hphase
    rw [setPort_ports]
    split
    · rename_i hv
      subst hv
      rcases after_todo l socket (s.ports v) with
        hsame | ⟨answer, buf, dest, -, -, htail⟩
      · rw [hsame, hnone]
      · rw [htail, hnone]
        rfl
    · exact hnone
  · rw [setPort_ports] at hthread ⊢
    split at hthread
    · rename_i hv
      subst hv
      rw [if_pos rfl]
      rw [Port.after_socket] at hthread
      show (s.server.slots v).phase = .panicked ∨
        ((s.ports v).after l socket).nextCall (s.server.slots v).phase = some c
      have hsame : (∀ answer, l ≠ .run answer) →
          ((s.ports v).after l socket).nextCall (s.server.slots v).phase
            = (s.ports v).nextCall (s.server.slots v).phase := by
        intro hrun
        have hafter : (s.ports v).after l socket = { s.ports v with socket } := by
          unfold Port.after
          split
          · exact absurd rfl (hrun _)
          · rfl
        rw [hafter]
        rfl
      rcases Uring.System.thread_step hsocket hthread with rfl | ⟨hrun, hbefore⟩
      · rw [hsame (by simp)]
        exact .inr hadmits.2
      · rw [hsame hrun]
        exact h.calling v c hbefore
    · rename_i hv
      rw [if_neg hv]
      exact h.calling v c hthread

theorem Coherent.crash {l : Uring.Label} (h : s.Coherent)
    (hs : s.step ext parse (.crash w l) = some s') : s'.Coherent := by
  obtain ⟨-, -, rfl⟩ := crash_some hs
  refine ⟨fun v => ?_, fun v hphase => ?_, fun v c hthread => ?_⟩
  · simp only [crashed, setPort_ports, Server.setSlot_slots]
    split
    · rfl
    · exact h.outgoing v
  · simp only [crashed, setPort_ports, Server.setSlot_slots] at hphase ⊢
    split at hphase
    · cases hphase
    · rename_i hv
      rw [if_neg hv]
      exact h.starting v hphase
  · simp only [crashed, setPort_ports, Server.setSlot_slots] at hthread ⊢
    split
    · exact .inl rfl
    · rename_i hv
      rw [if_neg hv] at hthread
      exact h.calling v c hthread

theorem Coherent.step {l : Label n Rtc} (h : s.Coherent) (hs : s.step ext parse l = some s') :
    s'.Coherent := by
  cases l with
  | server l => exact h.server hs
  | socket w l => exact h.socket hs
  | crash w l => exact h.crash hs

/-! ### Runs -/

/-- What the turns of a run do. -/
def record (ext : Extern Rtc)
    (parse : Uring.GroupMsghdr → Bytes → Except Uring.SocketPanic Uring.Message)
    (s : Node n sendQueue recvQueue Rtc) (labels : List (Label n Rtc)) : List (Entry n) :=
  emittedBy (Node.step ext parse) (emitted ext) s labels

/-- What the socket of `v` does in a run. -/
def socketLabels (v : Fin n) (labels : List (Label n Rtc)) : List Uring.Label :=
  labels.filterMap (socketView v)

variable {localAddrs : Fin n → SocketAddr}
  {socks : Fin n → Uring.UdpSocket2IoUring sendQueue recvQueue} {labels : List (Label n Rtc)}

theorem record_concat {l : Label n Rtc} {s₀ : Node n sendQueue recvQueue Rtc}
    (hrun : runLabels (Node.step ext parse) s₀ labels = some s)
    (hs : s.step ext parse l = some s') :
    record ext parse s₀ (labels ++ [l]) = record ext parse s₀ labels ++ s.emitted ext l :=
  emittedBy_concat labels hrun hs

theorem coherent_run (hrun : runLabels (Node.step ext parse) (new localAddrs socks) labels = some s) :
    s.Coherent :=
  runLabels_preserves (fun _ _ _ h hs => h.step hs) hrun (coherent_new localAddrs socks)

theorem socket_run (hrun : runLabels (Node.step ext parse) (new localAddrs socks) labels = some s)
    (v : Fin n) :
    runLabels (Uring.System.step parse) (Uring.System.start (socks v)) (socketLabels v labels)
      = some (s.ports v).socket :=
  (projects_socket v).run hrun

/-- What the server does is a step of the server, a crash apart. -/
theorem server_moves {l : Label n Rtc} (hs : s.step ext parse l = some s')
    (hsurvives : s.Survives l) :
    s'.server = s.server ∧ s.emitted ext l = [] ∨
      Server.Moves ext s.server (s.emitted ext l) s'.server := by
  cases l with
  | server l =>
      obtain ⟨-, hserver, -⟩ := server_some hs
      exact .inr ⟨l, hserver, rfl⟩
  | socket w l =>
      obtain ⟨-, socket, -, rfl⟩ := socket_some hs
      exact .inl ⟨rfl, rfl⟩
  | crash w l => cases hsurvives

/-- **As long as no thread dies in its socket, the server makes a run**, with the same journal. -/
theorem server_run (hrun : runLabels (Node.step ext parse) (new localAddrs socks) labels = some s)
    (hsurvives : Meets (Node.step ext parse) Survives (new localAddrs socks) labels) :
    Server.Reaches ext localAddrs (record ext parse (new localAddrs socks) labels) s.server := by
  refine runLabels_invariant
    (P := fun labels (s : Node n sendQueue recvQueue Rtc) => Server.Reaches ext localAddrs
      (record ext parse (new localAddrs socks) labels) s.server) ?_ ?_ labels s hsurvives hrun
  · exact Emits.refl (Server.new localAddrs)
  · intro labels s l s' hrun hreaches hok hs
    rw [record_concat hrun hs]
    rcases server_moves hs hok with ⟨hsame, hnone⟩ | hmoves
    · rw [hsame, hnone, List.append_nil]
      exact hreaches
    · exact hreaches.tail hmoves

/-- The journal is kept, whoever dies. -/
theorem journal_run (hrun : runLabels (Node.step ext parse) (new localAddrs socks) labels = some s) :
    Server.Journal ext localAddrs (record ext parse (new localAddrs socks) labels) s.server := by
  refine runLabels_induct
    (P := fun labels (s : Node n sendQueue recvQueue Rtc) => Server.Journal ext localAddrs
      (record ext parse (new localAddrs socks) labels) s.server)
    (Server.journal_new localAddrs) ?_ hrun
  intro labels s l s' hrun hjournal hs
  rw [record_concat hrun hs]
  by_cases hsurvives : s.Survives l
  · rcases server_moves hs hsurvives with ⟨hsame, hnone⟩ | hmoves
    · rw [hsame, hnone, List.append_nil]
      exact hjournal
    · exact hjournal.step hmoves
  · cases l with
    | server l => exact absurd trivial hsurvives
    | socket w l => exact absurd trivial hsurvives
    | crash w l =>
        obtain ⟨-, -, rfl⟩ := crash_some hs
        rw [show s.emitted ext (.crash w l) = [] from rfl, List.append_nil]
        refine hjournal.still rfl (Server.still_setSlot ⟨rfl, ?_, ?_, ?_⟩)
        · simp [WorkerSlot.panic]
        · simp [WorkerSlot.panic]
        · simp

/-- What the server does in a run. -/
def serverLabels (labels : List (Label n Rtc)) : List (MediaServer.Label n Rtc) :=
  labels.filterMap serverView

theorem serverLabels_run
    (hrun : runLabels (Node.step ext parse) (new localAddrs socks) labels = some s)
    (hsurvives : Meets (Node.step ext parse) Survives (new localAddrs socks) labels) :
    runLabels (Server.step ext) (Server.new localAddrs) (serverLabels labels) = some s.server := by
  refine runLabels_invariant
    (P := fun labels (s : Node n sendQueue recvQueue Rtc) =>
      runLabels (Server.step ext) (Server.new localAddrs) (serverLabels labels) = some s.server)
    ?_ ?_ labels s hsurvives hrun
  · rfl
  · intro labels s l s' _ hserver hok hs
    rw [serverLabels, List.filterMap_append]
    cases l with
    | server l =>
        obtain ⟨-, hstep, -⟩ := server_some hs
        exact runLabels_concat.mpr ⟨s.server, hserver, hstep⟩
    | socket w l =>
        obtain ⟨-, socket, -, rfl⟩ := socket_some hs
        exact (congrArg _ (List.append_nil _)).trans hserver
    | crash w l => cases hok

/--
**The whole program refines its parts.**  In every run, of any number of workers and with
any engines and kernel: each worker's socket makes a run of a socket by itself, even where
threads end in a call of their socket; what a thread has still to share is what the server
says it has; and where no thread ends so, the server makes a run of the server by itself,
with the journal of the whole.
-/
theorem node_refines
    (hrun : runLabels (Node.step ext parse) (new localAddrs socks) labels = some s) :
    (∀ v, runLabels (Uring.System.step parse) (Uring.System.start (socks v))
        (socketLabels v labels) = some (s.ports v).socket) ∧
      (∀ v, (s.ports v).todo.filter Action.isShared = (s.server.slots v).outgoing) ∧
      (Meets (Node.step ext parse) Survives (new localAddrs socks) labels →
        runLabels (Server.step ext) (Server.new localAddrs) (serverLabels labels)
            = some s.server ∧
          Server.Reaches ext localAddrs (record ext parse (new localAddrs socks) labels)
            s.server) :=
  ⟨socket_run hrun, (coherent_run hrun).outgoing, fun hsurvives =>
    ⟨serverLabels_run hrun hsurvives, server_run hrun hsurvives⟩⟩

end Node

/-! ### One cycle of one worker -/

namespace Script

/-- The packet the engine of the cycle wants sent. -/
def transmit : Transmit := { source := addr, destination := peer 7, contents := [1, 2, 3] }

/-- A datagram with the STUN message of the session `"abc"`, as the kernel writes it. -/
def stunPacket : Bytes :=
  Uring.RecvMsgOut.write 32 Uring.recvBufSize [0, 97, 98, 99] 0x7F000001 80

def stunDatagram : Worker.Datagram :=
  { buf := [0, 97, 98, 99], remote := ⟨.v4 0x7F000001, 80⟩, now := 1 }

/-- A call of the socket, with so many turns of its `poll_completions`. -/
def socketCall (w : Fin n) (c : Uring.Call) (turns : Nat) : List (Node.Label n Script) :=
  (Uring.System.callLabels c turns).map (.socket w)

/-- A request opens a session, which sends a packet and is fed a datagram. -/
def relaying (w : Fin n) : List (Node.Label n Script) :=
  [.server (.arrive (request 0 "/whip/endpoint" [0x76])), .server .insert, .server (.spawn w),
    .socket w (.prepare (.ok ())), .socket w (.prepare (.ok ())), .server (.nextPhase w),
    .server (.turn w (.request (arrival 0 "/whip/endpoint" [0x76] "abc" [.transmit transmit]))),
    .server (.reply w)] ++ socketCall w (.addSendTo [1, 2, 3] (peer 7)) 17 ++
  [.server (.nextPhase w), .server (.turn w (.tick [0] 0)), .server (.startPop w [0] 0),
    .server (.turn w (.pop 0 0)), .server (.nextPhase w), .server (.turn w .popEnded),
    .socket w (.kernel (.filled 0 3 stunPacket true))] ++ socketCall w .recvFrom 2 ++
  [.server (.turn w (.datagram stunDatagram))] ++ socketCall w .recvFrom 1 ++
  [.socket w (.call .commitSendTo)]

/-- A run of one worker on its socket. -/
def runNode (labels : List (Node.Label 1 Script)) : Option (Node 1 16 16 Script) :=
  (Uring.UdpSocket2IoUring.new 16 16).toOption.bind fun sock =>
    runLabels (Node.step engine Uring.parseV4) (Node.new (fun _ => addr) fun _ => sock) labels

/-- What is read off a run that was computed is true of it. -/
theorem of_runNode {α : Type} {labels : List (Node.Label 1 Script)}
    {f : Node 1 16 16 Script → α} {x : α} (h : (runNode labels).map f = some x) :
    ∃ sock s, Uring.UdpSocket2IoUring.new 16 16 = .ok sock ∧
      runLabels (Node.step engine Uring.parseV4) (Node.new (fun _ => addr) fun _ => sock) labels
        = some s ∧ f s = x := by
  obtain ⟨s, hs, rfl⟩ := Option.map_eq_some_iff.mp h
  obtain ⟨sock, hnew, hrun⟩ := Option.bind_eq_some_iff.mp hs
  exact ⟨sock, s, toOption_eq_some.mp hnew, hrun, rfl⟩

/-- A condition on the steps, checked along a run that was computed. -/
theorem meets_of_runNode {ok : Node 1 16 16 Script → Node.Label 1 Script → Prop}
    [∀ s, DecidablePred (ok s)] {labels : List (Node.Label 1 Script)}
    {sock : Uring.UdpSocket2IoUring 16 16}
    (hnew : Uring.UdpSocket2IoUring.new 16 16 = .ok sock)
    (h : (Uring.UdpSocket2IoUring.new 16 16).toOption.map (fun sock =>
      checks (Node.step engine Uring.parseV4) (fun s a => decide (ok s a))
        (Node.new (fun _ => addr) fun _ => sock) labels) = some true) :
    Meets (Node.step engine Uring.parseV4) ok (Node.new (fun _ => addr) fun _ => sock) labels := by
  rw [hnew] at h
  have hchecks := meets_of_checks (Option.some.inj h)
  exact fun pre a s t hpre hs ht => of_decide_eq_true (hchecks pre a s t hpre hs ht)

end Script

instance (s : Node n sendQueue recvQueue Rtc) (l : Node.Label n Rtc) : Decidable (s.Survives l) :=
  match l with
  | .crash _ _ => isFalse id
  | .server _ | .socket _ _ => isTrue trivial

/-- The cycle's worker, by itself, has opened one session. -/
theorem Node.node_refines_cycle :
    ∃ (sock : Uring.UdpSocket2IoUring 16 16) (s : Node 1 16 16 Script),
      Uring.UdpSocket2IoUring.new 16 16 = .ok sock ∧ (s.server.slots 0).worker.taskIdSeed = 1 ∧
      runLabels (Server.step Script.engine) (Server.new fun _ => Script.addr)
        (serverLabels (Script.relaying 0)) = some s.server := by
  have hseed : (Script.runNode (Script.relaying 0)).map (fun s => (s.server.slots 0).worker.taskIdSeed)
      = some 1 := by decide +kernel
  obtain ⟨sock, s, hnew, hrun, hone⟩ := Script.of_runNode hseed
  have hsurvives : Meets (Node.step Script.engine Uring.parseV4) Survives
      (Node.new (fun _ => Script.addr) fun _ => sock) (Script.relaying 0) :=
    Script.meets_of_runNode hnew (by decide +kernel)
  exact ⟨sock, s, hnew, hone, ((node_refines hrun).2.2 hsurvives).1⟩

end MediaServer
