/-
The way of a datagram from the kernel to a session.

What the kernel has reported `recv_from` returns in order; a thread handles what one call
has returned before it makes the next; and a datagram it handles is fed to one session at
most.
-/
import MediaServer.Proofs.Packets

namespace MediaServer

open Lib

variable {Rtc : Type} {n sendQueue recvQueue : Nat} {ext : Extern Rtc}
  {parse : Uring.GroupMsghdr → Bytes → Except Uring.SocketPanic Uring.Message}

namespace Node

variable {s s' : Node n sendQueue recvQueue Rtc} {v w : Fin n}
  {localAddrs : Fin n → SocketAddr}
  {socks : Fin n → Uring.UdpSocket2IoUring sendQueue recvQueue} {labels : List (Label n Rtc)}

/-! ### From `recv_from` to a turn -/

/-- The datagram a step has the worker `v` handle. -/
def handledView (v : Fin n) : Label n Rtc → Option Uring.Message
  | .server (.turn w (.datagram d)) => if w = v then some (d.buf, d.remote) else none
  | _ => none

/-- The datagrams `v` has handled, in order. -/
def handled (v : Fin n) (labels : List (Label n Rtc)) : List Uring.Message :=
  labels.filterMap (handledView v)

/-- The thread calls `recv_from` only when it has handled what the last call returned. -/
theorem nextCall_recvFrom {phase : Phase} {port : Port sendQueue recvQueue}
    (h : port.nextCall phase = some .recvFrom) : port.received = none := by
  unfold Port.nextCall at h
  split at h
  · cases h
  · cases h
  · split at h
    · rename_i hnone
      exact hnone
    · cases h
    · cases h
    · cases h

/-- What a call of `recv_from` returns is what then waits to be handled; nothing else does. -/
theorem after_received {l : Uring.Label} {socket : Uring.System sendQueue recvQueue}
    {port : Port sendQueue recvQueue} (hs : port.socket.step parse l = some socket)
    (hwaits : ∀ answer, l = .run answer → port.socket.thread = .ready .recvFrom →
      port.received = none) :
    (port.after l socket).received = port.received ∧ socket.returned = port.socket.returned ∨
      ∃ msg, port.received = none ∧ (port.after l socket).received = some msg ∧
        socket.returned = port.socket.returned ++ [msg] := by
  by_cases hrun : ∃ answer, l = .run answer
  · obtain ⟨answer, rfl⟩ := hrun
    obtain ⟨c, hc, -, hadds⟩ := Uring.System.run_some hs
    have hafter : port.after (.run answer) socket = port.returned c socket := by
      simp [Port.after, hc]
    rw [hafter]
    cases c with
    | addSendTo buf dest => exact .inl ⟨rfl, hadds.1⟩
    | recvFrom =>
        rcases hadds.2 with ⟨msg, hout, hreturned⟩ | ⟨e, hout, hreturned⟩
        · exact .inr ⟨msg, hwaits answer rfl hc, by simp [Port.returned, hout], hreturned⟩
        · exact .inl ⟨by simp [Port.returned, hout], hreturned⟩
    | commitSendTo => exact .inl ⟨rfl, hadds.2⟩
    | finishReadFrom => exact .inl ⟨rfl, hadds.2⟩
  · push Not at hrun
    have hafter : port.after l socket = { port with socket } := by
      unfold Port.after
      split
      · exact absurd rfl (hrun _)
      · rfl
    rw [hafter]
    exact .inl ⟨rfl, (Uring.System.step_keeps hs hrun).2⟩

/-- A step of the server handles what waits, or leaves it. -/
theorem received_server {l : MediaServer.Label n Rtc}
    (hs : s.step ext parse (.server l) = some s') (v : Fin n) :
    (handledView v (.server l : Label n Rtc)).toList ++ (s'.ports v).received.toList
      = (s.ports v).received.toList := by
  obtain ⟨hallows, -, hports⟩ := server_some hs
  rw [show s'.ports v = s.follow ext l v by rw [hports]]
  by_cases hv : l.thread = some v
  · cases l with
    | turn w op =>
        cases hv
        have htakes := hallows.2
        rw [follow, setPort_ports, if_pos rfl]
        cases op with
        | datagram d =>
            have hwaits : (s.ports v).received = some (d.buf, d.remote) := htakes
            simp [handledView, hwaits]
        | _ =>
            have hnone : (s.ports v).received = none := htakes
            simp [handledView, hnone]
    | nextPhase w =>
        cases hv
        simp [follow, handledView]
    | reply w =>
        cases hv
        simp [follow, handledView]
    | broadcast w =>
        cases hv
        simp [follow, handledView]
    | _ => simp [follow, handledView]
  · rw [follow_other hv]
    have hnone : handledView v (.server l : Label n Rtc) = none := by
      unfold handledView
      split
      · rename_i w d heq
        cases heq
        rw [if_neg fun hw => hv (congrArg some hw)]
      · rfl
    rw [hnone]
    rfl

/-- **What a worker has handled, and what it is about to handle, is what was returned to it.** -/
theorem handled_run
    (hrun : runLabels (Node.step ext parse) (new localAddrs socks) labels = some s) (v : Fin n) :
    handled v labels ++ (s.ports v).received.toList = (s.ports v).socket.returned := by
  refine runLabels_induct (P := fun labels (s : Node n sendQueue recvQueue Rtc) =>
    handled v labels ++ (s.ports v).received.toList = (s.ports v).socket.returned) ?_ ?_ hrun
  · rfl
  · intro labels s l s' hrun h hs
    have hone : handled v (labels ++ [l]) = handled v labels ++ (handledView v l).toList := by
      rw [handled, handled, List.filterMap_append, List.filterMap_cons]
      cases handledView v l <;> rfl
    rw [hone]
    cases l with
    | server l =>
        have hsocket : (s'.ports v).socket = (s.ports v).socket := by
          rw [(server_some hs).2.2, follow_socket]
        rw [hsocket, List.append_assoc, received_server hs, h]
    | socket w l =>
        obtain ⟨hadmits, socket, hsocket, rfl⟩ := socket_some hs
        have hnone : handledView v (.socket w l : Label n Rtc) = none := rfl
        rw [hnone, Option.toList_none, List.append_nil, setPort_ports]
        split
        · rename_i hv
          subst hv
          have hwaits : ∀ answer, l = .run answer →
              (s.ports v).socket.thread = .ready .recvFrom → (s.ports v).received = none := by
            rintro answer rfl hthread
            exact nextCall_recvFrom ((coherent_run hrun).called hadmits hthread)
          rw [Port.after_socket]
          rcases after_received hsocket hwaits with ⟨hsame, hret⟩ | ⟨msg, hnone, hsome, hret⟩
          · rw [hsame, hret]
            exact h
          · rw [hsome, hret, ← h, hnone]
            simp
        · exact h
    | crash w l =>
        obtain ⟨-, -, rfl⟩ := crash_some hs
        have hnone : handledView v (.crash w l : Label n Rtc) = none := rfl
        rw [hnone, Option.toList_none, List.append_nil]
        simp only [crashed, setPort_ports]
        split
        · rename_i hv
          subst hv
          exact h
        · exact h

end Node

/-- The datagram an action hands to a session. -/
def Action.fedDatagram : Action → Option Uring.Message
  | .input _ (.io (.udpSocketRecv src _ buf)) => some (buf, src)
  | _ => none

namespace Worker

theorem performed_fed (taskId : Nat) (out : WebrtcTaskOutput) :
    Action.fedDatagram (performed taskId out) = none := by
  cases out with
  | io action => cases action <;> rfl
  | _ => rfl

/-- An input feeds a session the datagram it is, if it is one and the session is there. -/
theorem inputTask_fed {now : Instant} {event : WebrtcTaskInput} {taskId : Nat}
    {w w' : Worker Rtc} {actions : List Action}
    (h : w.inputTask ext now event taskId = .ok (w', actions)) :
    actions.filterMap Action.fedDatagram = [] ∨
      actions.filterMap Action.fedDatagram = (Action.fedDatagram (.input taskId event)).toList := by
  rcases inputTask_ok h with ⟨-, -, rfl⟩ | ⟨c, b, task, -, -, -, rfl⟩
  · exact .inl rfl
  · right
    rw [List.filterMap_cons]
    have hwrites : ((c.task.rtpWrite ext event).map
        fun r => Action.writeRtp taskId r.1 r.2).toList.filterMap Action.fedDatagram = [] := by
      cases c.task.rtpWrite ext event <;> rfl
    rw [hwrites]
    cases Action.fedDatagram (.input taskId event) <;> rfl

/-- A turn feeds its sessions the datagram it is about, once at most, and no other. -/
theorem exec_fed {op : Op Rtc} {w w' : Worker Rtc} {actions : List Action}
    (h : w.exec ext op = .ok (w', actions)) :
    (actions.filterMap Action.fedDatagram).Sublist
      (match op with
        | .datagram d => [(d.buf, d.remote)]
        | _ => []) := by
  cases op with
  | busEvent ev now =>
      obtain ⟨acts, hrun, rfl⟩ := handleBusEvent_ok h
      have hevent : ∀ taskId, Action.fedDatagram (.input taskId (w.recipients ev).2) = none := by
        intro taskId
        cases ev <;> rfl
      have hnone : acts.filterMap Action.fedDatagram = [] :=
        forEach_preserves (P := fun os _ => os.filterMap Action.fedDatagram = [])
          (fun taskId s t os bs hs hos => by
            have hone := inputTask_fed hs
            rw [hevent, Option.toList_none, or_self] at hone
            rw [List.filterMap_append, hos, hone]
            rfl) hrun rfl
      rw [List.filterMap_cons_none rfl, hnone]
  | request arrival =>
      obtain ⟨req, -, ⟨task, -, hadd⟩ | ⟨-, rfl⟩⟩ := handleRequest_ok h
      · cases hadd
        rw [List.filterMap_cons_none rfl]
        exact popTask_filterMap_nil (fun _ => rfl) (performed_fed _) arrival.now (.ofTask task) _ ▸
          List.Sublist.refl _
      · exact List.Sublist.refl _
  | tick order now =>
      obtain ⟨-, rfl⟩ := processTick_ok h
      exact List.Sublist.refl _
  | pop taskId now =>
      rw [popOne_filterMap_nil (fun _ => rfl) (performed_fed _) h]
  | popEnded =>
      have hnone : actions.filterMap Action.fedDatagram = [] := by
        refine forEach_preserves (P := fun os _ => os.filterMap Action.fedDatagram = []) ?_ h rfl
        intro taskId s t os bs hs hos
        obtain ⟨c, -, -, rfl⟩ := removeTask_ok.mp hs
        rw [List.filterMap_append, hos]
        rfl
      exact hnone ▸ List.Sublist.refl _
  | datagram d =>
      obtain ⟨found, u, acts, hslot, hcase⟩ := handleDatagram_ok h
      have hacts : acts.filterMap Action.fedDatagram = [] := by
        rcases slot_ok hslot with ⟨-, rfl⟩ | ⟨-, -, -, -, -, rfl⟩ <;> rfl
      rcases hcase with ⟨-, rfl⟩ | ⟨taskId, v, acts', popped, hin, hpop, rfl⟩
      · rw [hacts]
        exact List.nil_sublist _
      · rw [List.filterMap_append, List.filterMap_append, hacts,
          popOne_filterMap_nil (fun _ => rfl) (performed_fed _) hpop, List.append_nil,
          List.nil_append]
        rcases inputTask_fed hin with hnone | hone
        · rw [hnone]
          exact List.nil_sublist _
        · rw [hone]
          exact List.Sublist.refl _

end Worker

namespace Node

variable {s s' : Node n sendQueue recvQueue Rtc} {v w : Fin n}
  {localAddrs : Fin n → SocketAddr}
  {socks : Fin n → Uring.UdpSocket2IoUring sendQueue recvQueue} {labels : List (Label n Rtc)}

/-- The datagrams the sessions of `v` were fed, in order. -/
def fed (v : Fin n) (entries : List (Entry n)) : List Uring.Message :=
  (actionsOf v entries).filterMap Action.fedDatagram

/-- What a step feeds to sessions is the datagram it handles. -/
theorem fed_emitted (ext : Extern Rtc) (s : Node n sendQueue recvQueue Rtc) (l : Label n Rtc)
    (v : Fin n) : (fed v (s.emitted ext l)).Sublist (handledView v l).toList := by
  cases l with
  | server l =>
      rw [fed, show s.emitted ext (.server l) = s.server.emitted ext l from rfl, actionsOf_emitted]
      split
      · rename_i hv
        cases l with
        | turn w op =>
            cases hv
            cases hexec : (s.server.slots v).worker.exec ext op with
            | error p => simp [Server.emitted, hexec]
            | ok r =>
                have hsub := Worker.exec_fed hexec
                rw [show (s.server.emitted ext (.turn v op)).map Prod.snd = r.2 by
                  simp [Server.emitted, hexec, Function.comp_def]]
                refine hsub.trans ?_
                cases op with
                | datagram d => simp [handledView]
                | _ => exact List.nil_sublist _
        | _ => simp [Server.emitted]
      · exact List.nil_sublist _
  | socket w l => exact List.nil_sublist _
  | crash w l => exact List.nil_sublist _

theorem fed_run
    (hrun : runLabels (Node.step ext parse) (new localAddrs socks) labels = some s) (v : Fin n) :
    (fed v (record ext parse (new localAddrs socks) labels)).Sublist (handled v labels) := by
  refine runLabels_induct (P := fun labels (_ : Node n sendQueue recvQueue Rtc) =>
    (fed v (record ext parse (new localAddrs socks) labels)).Sublist (handled v labels)) ?_ ?_ hrun
  · exact List.nil_sublist _
  · intro labels s l s' hrun hsub hs
    have hone : handled v (labels ++ [l]) = handled v labels ++ (handledView v l).toList := by
      rw [handled, handled, List.filterMap_append, List.filterMap_cons]
      cases handledView v l <;> rfl
    rw [record_concat hrun hs, fed, actionsOf_append, List.filterMap_append, hone]
    exact hsub.append (fed_emitted ext s l v)

/--
**Datagrams come in in order, and none twice.**  In every run of the whole program, with
threads that end in a call of their socket included: what the sessions of a worker have
been fed is a part of what the worker has handled, in that order; what it has handled,
with the datagram it is about to handle, is what `recv_from` has returned; and where every
buffer the kernel fills is announced as not the last and holds nothing unread, that, with
what is still unread behind it, is everything the kernel has reported, in its order.
-/
theorem datagrams_received_in_order
    (hnew : ∀ w, Uring.UdpSocket2IoUring.new sendQueue recvQueue = .ok (socks w))
    (hrun : runLabels (Node.step ext parse) (new localAddrs socks) labels = some s) (v : Fin n) :
    (fed v (record ext parse (new localAddrs socks) labels)).Sublist (handled v labels) ∧
    handled v labels ++ (s.ports v).received.toList = (s.ports v).socket.returned ∧
    (Meets (Uring.System.step parse) Uring.System.spares (Uring.System.start (socks v))
        (socketLabels v labels) →
      (s.ports v).socket.kernel.reported.map (parse Uring.recvHdr)
        = (handled v labels ++ (s.ports v).received.toList).map .ok
          ++ (s.ports v).socket.unread.map ((s.ports v).socket.datagram parse)) := by
  refine ⟨fed_run hrun v, handled_run hrun v, fun hspares => ?_⟩
  rw [handled_run hrun v]
  have hvisits : Visits (Uring.System.step parse) (Uring.System.start (socks v))
      (socketLabels v labels) (s.ports v).socket := ⟨_, List.prefix_refl _, socket_run hrun v⟩
  exact (Uring.System.Spared.visits (hnew v) hspares hvisits).faithful.contents

end Node

/-- In the cycle the one datagram the kernel reports is fed to the one session. -/
theorem Node.datagrams_received_in_order_cycle :
    ∃ (sock : Uring.UdpSocket2IoUring 16 16) (s : Node 1 16 16 Script),
      Uring.UdpSocket2IoUring.new 16 16 = .ok sock ∧
      runLabels (Node.step Script.engine Uring.parseV4)
        (Node.new (fun _ => Script.addr) fun _ => sock) (Script.relaying (0 : Fin 1)) = some s ∧
      fed 0 (record Script.engine Uring.parseV4
        (Node.new (fun _ => Script.addr) fun _ => sock) (Script.relaying (0 : Fin 1)))
        = [([0, 97, 98, 99], ⟨.v4 0x7F000001, 80⟩)] ∧
      (s.ports 0).socket.kernel.reported.map (Uring.parseV4 Uring.recvHdr)
        = [.ok ([0, 97, 98, 99], ⟨.v4 0x7F000001, 80⟩)] := by
  have hend : (Uring.UdpSocket2IoUring.new 16 16).toOption.bind (fun sock =>
      (runLabels (Node.step Script.engine Uring.parseV4)
        (Node.new (fun _ => Script.addr) fun _ => sock) (Script.relaying (0 : Fin 1))).map fun s =>
          (fed 0 (record Script.engine Uring.parseV4
            (Node.new (fun _ => Script.addr) fun _ => sock) (Script.relaying (0 : Fin 1))),
          (s.ports 0).socket.unread, (s.ports 0).received))
      = some ([([0, 97, 98, 99], ⟨.v4 0x7F000001, 80⟩)], [], none) := by decide +kernel
  obtain ⟨sock, hnew, hmap⟩ := Option.bind_eq_some_iff.mp hend
  obtain ⟨s, hrun, hread⟩ := Option.map_eq_some_iff.mp hmap
  simp only [Prod.mk.injEq] at hread
  obtain ⟨hfed, hunread, hreceived⟩ := hread
  replace hnew := toOption_eq_some.mp hnew
  have hspares : Meets (Uring.System.step Uring.parseV4) Uring.System.spares
      (Uring.System.start sock) (socketLabels 0 (Script.relaying (0 : Fin 1))) :=
    Uring.System.meets_of_new hnew (by decide +kernel)
  obtain ⟨-, -, hall⟩ := datagrams_received_in_order (fun _ => hnew) hrun 0
  have hhandled : handled 0 (Script.relaying (0 : Fin 1)) = [([0, 97, 98, 99], ⟨.v4 0x7F000001, 80⟩)] := by
    decide +kernel
  have hreported := hall hspares
  rw [hunread, hreceived, hhandled] at hreported
  exact ⟨sock, s, hnew, hrun, hfed, hreported⟩

end MediaServer
