/-
The order in which a thread calls its socket.

A completion queue that is emptied before a group is armed stays small, and what empties
it is a send or a receive.  A worker's last call of `recv_from` comes before its
`commit_send_to`, and that before its `finish_read_from`; so wherever a run of the whole
program stands, its calls have come in an order that keeps the queue from growing.
-/
import MediaServer.Proofs.Cycles
import MediaServer.Proofs.Node

namespace MediaServer

open Lib

variable {Rtc : Type} {n sendQueue recvQueue : Nat} {ext : Extern Rtc}
  {parse : Uring.GroupMsghdr → Bytes → Except Uring.SocketPanic Uring.Message}

namespace Node

variable {s s' : Node n sendQueue recvQueue Rtc} {v w : Fin n}
  {localAddrs : Fin n → SocketAddr}
  {socks : Fin n → Uring.UdpSocket2IoUring sendQueue recvQueue} {labels : List (Label n Rtc)}

/-! ### The calls a thread makes -/

/--
Where a thread is in its cycle, and whether it has emptied its completion queue since it
last armed a group: it has once `recv_from` is called for the last time, and until it
calls `finish_read_from`.
-/
structure Emptied (polled : Bool) (port : Port sendQueue recvQueue) : Prop where
  committing : port.closing = .committing → polled = true
  finishing : port.closing = .finishing → port.socket.thread ≠ .ready .finishReadFrom →
    polled = true
  receiving : port.socket.thread = .polling .recvFrom ∨ port.socket.thread = .ready .recvFrom →
    polled = true

/-- A call is made where the order of the calls allows it. -/
theorem Emptied.call {polled : Bool} {phase : Phase} {port : Port sendQueue recvQueue}
    (h : Emptied polled port) (hidle : port.socket.thread = .idle) {c : Uring.Call}
    (hcall : port.nextCall phase = some c) {socket : Uring.System sendQueue recvQueue}
    (hthread : socket.thread = if c.polls then .polling c else .ready c) :
    ∃ after, Uring.Call.turn polled c = some after ∧ Emptied after { port with socket } := by
  cases c with
  | addSendTo buf dest =>
      exact ⟨true, rfl, fun _ => rfl, fun _ _ => rfl, fun _ => rfl⟩
  | recvFrom => exact ⟨true, rfl, fun _ => rfl, fun _ _ => rfl, fun _ => rfl⟩
  | commitSendTo =>
      refine ⟨polled, rfl, h.committing, fun hf _ => h.finishing hf (by simp [hidle]), fun hr => ?_⟩
      simp [hthread, Uring.Call.polls] at hr
  | finishReadFrom =>
      have hfinishing : port.closing = .finishing := by
        unfold Port.nextCall at hcall
        split at hcall
        · cases hcall
        · cases hcall
        · split at hcall
          · cases hcall
          · cases hcall
          · assumption
          · cases hcall
      obtain rfl : polled = true := h.finishing hfinishing (by simp [hidle])
      refine ⟨false, rfl, fun hc => ?_, fun _ hne => absurd hthread hne, fun hr => ?_⟩
      · rw [show port.closing = _ from hc] at hfinishing
        cases hfinishing
      · simp [hthread, Uring.Call.polls] at hr

/-- Back from a call, a thread is where the call leads. -/
theorem Emptied.run {polled : Bool} {port : Port sendQueue recvQueue} (h : Emptied polled port)
    {c : Uring.Call} (hc : port.socket.thread = .ready c)
    (hcommit : c = .commitSendTo → port.closing = .committing)
    {socket : Uring.System sendQueue recvQueue} (hidle : socket.thread = .idle) :
    Emptied polled (port.returned c socket) := by
  have hnot : ¬ (socket.thread = .polling .recvFrom ∨ socket.thread = .ready .recvFrom) := by
    simp [hidle]
  cases c with
  | addSendTo buf dest =>
      exact ⟨h.committing, fun hf _ => h.finishing hf (by simp [hc]), fun hr => absurd hr hnot⟩
  | recvFrom =>
      have hpolled := h.receiving (.inr hc)
      exact ⟨fun _ => hpolled, fun _ _ => hpolled, fun _ => hpolled⟩
  | commitSendTo =>
      have hpolled := h.committing (hcommit rfl)
      exact ⟨fun _ => hpolled, fun _ _ => hpolled, fun _ => hpolled⟩
  | finishReadFrom =>
      refine ⟨fun hf => ?_, fun hf _ => ?_, fun hr => absurd hr hnot⟩
      · cases hf
      · cases hf

/-- A step of its socket that neither begins a call nor ends one. -/
theorem Emptied.during {polled : Bool} {port : Port sendQueue recvQueue} (h : Emptied polled port)
    {l : Uring.Label} {socket : Uring.System sendQueue recvQueue}
    (hs : port.socket.step parse l = some socket) (hrun : ∀ answer, l ≠ .run answer)
    (hcall : ∀ c, l ≠ .call c) : Emptied polled { port with socket } := by
  have hback : ∀ c, socket.thread = .polling c ∨ socket.thread = .ready c →
      port.socket.thread = .polling c ∨ port.socket.thread = .ready c := fun c hc =>
    ((Uring.System.thread_step hs hc).resolve_left (hcall c)).2
  refine ⟨h.committing, fun hf hne => h.finishing hf fun hready => ?_,
    fun hr => h.receiving (hback _ hr)⟩
  -- A thread past its polling stays there until the call is over.
  refine hne ?_
  show socket.thread = _
  cases Uring.System.step_effect hs with
  | armed answer hthread hbound => simp [hready] at hthread
  | prepared answer hthread => simp [hready] at hthread
  | called c _ => exact absurd rfl (hcall c)
  | polledAll hthread hcq => simp [hready] at hthread
  | accepted answer _ _ => exact absurd rfl (hrun answer)
  | flushed _ _ => exact absurd rfl (hrun _)
  | received answer _ _ _ => exact absurd rfl (hrun answer)
  | rearmed answer _ _ _ _ => exact absurd rfl (hrun answer)
  | returned answer _ _ _ => exact absurd rfl (hrun answer)
  | _ => exact hready

theorem nextCall_closing {phase : Phase} {port : Port sendQueue recvQueue}
    (h : port.nextCall phase = some .commitSendTo) : port.closing = .committing := by
  unfold Port.nextCall at h
  split at h
  · cases h
  · cases h
  · split at h
    · cases h
    · assumption
    · cases h
    · cases h

/-- A step of the server leaves a thread where it was in its cycle, or takes it to the next. -/
theorem Emptied.server {polled : Bool} {l : MediaServer.Label n Rtc}
    (h : Emptied polled (s.ports v)) : Emptied polled (s.follow ext l v) := by
  have hset : ∀ (w : Fin n) (port : Port sendQueue recvQueue),
      port.socket = (s.ports w).socket →
      (port.closing = (s.ports w).closing ∨ port.closing = .receiving) →
      Emptied polled ((s.setPort w port).ports v) := by
    intro w port hsocket hclosing
    rw [setPort_ports]
    split
    · rename_i hv
      subst hv
      refine ⟨fun hc => h.committing ?_, fun hf hne => h.finishing ?_ (hsocket ▸ hne),
        hsocket ▸ h.receiving⟩
      · rcases hclosing with hsame | hnew
        · exact hsame ▸ hc
        · rw [hnew] at hc
          cases hc
      · rcases hclosing with hsame | hnew
        · exact hsame ▸ hf
        · rw [hnew] at hf
          cases hf
    · exact h
  cases l with
  | turn w op => exact hset w _ rfl (.inl rfl)
  | nextPhase w => exact hset w _ rfl (.inr rfl)
  | reply w => exact hset w _ rfl (.inl rfl)
  | broadcast w => exact hset w _ rfl (.inl rfl)
  | _ => exact h

/-- **A thread empties the queue before it arms a group**: its calls come in an order that does. -/
theorem calls_run
    (hrun : runLabels (Node.step ext parse) (new localAddrs socks) labels = some s) (v : Fin n) :
    ∃ polled, runLabels Uring.Call.turn false (Uring.System.calls (socketLabels v labels))
      = some polled ∧ Emptied polled (s.ports v) := by
  refine runLabels_induct (P := fun labels (s : Node n sendQueue recvQueue Rtc) =>
    ∃ polled, runLabels Uring.Call.turn false (Uring.System.calls (socketLabels v labels))
      = some polled ∧ Emptied polled (s.ports v)) ?_ ?_ hrun
  · refine ⟨false, rfl, fun hc => ?_, fun hf => ?_, fun hr => ?_⟩
    · cases hc
    · cases hf
    · simp [new, Port.new, Uring.System.start] at hr
  · rintro labels s l s' hrun ⟨polled, hcalls, hemptied⟩ hs
    have hone : Uring.System.calls (socketLabels v (labels ++ [l]))
        = Uring.System.calls (socketLabels v labels)
          ++ ((socketView v l).bind Uring.Label.call?).toList := by
      simp only [Uring.System.calls, socketLabels, List.filterMap_append]
      cases hview : socketView v l with
      | none => simp [hview]
      | some a => cases hcall : a.call? <;> simp [hview, hcall]
    rw [hone]
    cases l with
    | server l =>
        refine ⟨polled, by simpa [socketView] using hcalls, ?_⟩
        rw [(server_some hs).2.2]
        exact hemptied.server
    | socket w l =>
        obtain ⟨hadmits, socket, hsocket, rfl⟩ := socket_some hs
        rw [setPort_ports]
        by_cases hv : v = w
        · subst hv
          rw [if_pos rfl]
          simp only [socketView, if_true, Option.bind_some]
          cases l with
          | call c =>
              have hthread : (s.ports v).socket.thread = .idle ∧
                  socket.thread = if c.polls then .polling c else .ready c := by
                cases Uring.System.step_effect hsocket with
                | called _ hidle => exact ⟨hidle, rfl⟩
              obtain ⟨after, hturn, hafter⟩ := hemptied.call hthread.1 hadmits.2 hthread.2
              refine ⟨after, ?_, hafter⟩
              rw [show (Uring.Label.call c).call?.toList = [c] from rfl]
              exact runLabels_concat.mpr ⟨polled, hcalls, hturn⟩
          | run answer =>
              obtain ⟨c, hc, hidle, -⟩ := Uring.System.run_some hsocket
              have hcall := (coherent_run hrun).called hadmits hc
              refine ⟨polled, by simpa [Uring.Label.call?] using hcalls, ?_⟩
              have hafter : (s.ports v).after (.run answer) socket
                  = (s.ports v).returned c socket := by
                simp [Port.after, hc]
              rw [hafter]
              refine hemptied.run hc ?_ hidle
              rintro rfl
              exact nextCall_closing hcall
          | _ =>
              exact ⟨polled, by simpa [Uring.Label.call?] using hcalls,
                hemptied.during hsocket (by simp) (by simp)⟩
        · rw [if_neg hv]
          have hnone : socketView v (.socket w l : Label n Rtc) = none := if_neg (Ne.symm hv)
          exact ⟨polled, by simpa [hnone] using hcalls, hemptied⟩
    | crash w l =>
        obtain ⟨-, -, rfl⟩ := crash_some hs
        refine ⟨polled, by simpa [socketView] using hcalls, ?_⟩
        simp only [crashed, setPort_ports]
        split
        · rename_i hv
          subst hv
          exact ⟨hemptied.committing, hemptied.finishing, hemptied.receiving⟩
        · exact hemptied

/--
**No worker's completion queue overflows.**  In every run of the whole program, whatever
its workers do: if a receive of a worker's socket ends only when the buffers of its group
are used up, that worker's completion queue holds at most 8192 entries in every state.
-/
theorem node_completions_fit {socks : Fin n → Uring.UdpSocket2IoUring 2048 2048}
    {s : Node n 2048 2048 Rtc}
    (hnew : ∀ w, Uring.UdpSocket2IoUring.new 2048 2048 = .ok (socks w))
    (hrun : runLabels (Node.step ext parse) (new localAddrs socks) labels = some s) (v : Fin n)
    (hkernel : Meets (Uring.System.step parse) Uring.System.usesUp
      (Uring.System.start (socks v)) (socketLabels v labels)) :
    (s.ports v).socket.sock.ring.completion.length ≤ 8192 := by
  obtain ⟨polled, hcalls, -⟩ := calls_run hrun v
  have hwithin := (Uring.System.within_visits (hnew v) (by decide) (socketLabels v labels)
    (s.ports v).socket hkernel (socket_run hrun v)).2 polled hcalls
  have hceiling : (s.ports v).socket.outstanding
      ≤ max (33 * (2048 / 16)) (2 * 2048 + 17 * (2048 / 16) + 33) := hwithin.le_ceiling
  unfold Uring.System.outstanding at hceiling
  omega

end Node

/-- A worker's first cycle, up to its first datagram: a session is opened and sends. -/
def Script.busy (w : Fin n) : List (Node.Label n Script) :=
  [.server (.arrive (request 0 "/whip/endpoint" [0x76])), .server .insert, .server (.spawn w)] ++
  Uring.System.armingLabels.map (.socket w) ++
  [.server (.nextPhase w),
    .server (.turn w (.request (arrival 0 "/whip/endpoint" [0x76] "abc" [.transmit transmit]))),
    .server (.reply w)] ++ socketCall w (.addSendTo [1, 2, 3] (peer 7)) 2066 ++
  [.server (.nextPhase w), .server (.turn w (.tick [0] 0)), .server (.startPop w [0] 0),
    .server (.turn w (.pop 0 0)), .server (.nextPhase w), .server (.turn w .popEnded)] ++
  socketCall w .recvFrom 1

/-- What a thread has its socket do is what the socket does. -/
theorem Node.socketLabels_map (w : Fin n) (as : List Uring.Label) :
    socketLabels w (as.map (.socket w) : List (Node.Label n Rtc)) = as := by
  induction as with
  | nil => rfl
  | cons a as ih => simpa [socketLabels, socketView] using ih

theorem Node.node_completions_fit_busy :
    ∃ (sock : Uring.UdpSocket2IoUring 2048 2048) (s : Node 1 2048 2048 Script),
      Uring.UdpSocket2IoUring.new 2048 2048 = .ok sock ∧
      runLabels (Node.step Script.engine Uring.parseV4)
        (Node.new (fun _ => Script.addr) fun _ => sock) (Script.busy 0) = some s ∧
      (s.ports 0).received.isSome = true ∧
      (s.ports 0).socket.sock.ring.completion.length ≤ 8192 := by
  obtain ⟨sock, -, hnew, -, -, hkernel⟩ := Uring.System.busyLabels_usesUp
  have hend : (Uring.UdpSocket2IoUring.new 2048 2048).toOption.bind (fun sock =>
      (runLabels (Node.step Script.engine Uring.parseV4)
        (Node.new (fun _ => Script.addr) fun _ => sock) (Script.busy (0 : Fin 1))).map
          fun s => (s.ports 0).received.isSome) = some true := by decide +kernel
  rw [hnew] at hend
  obtain ⟨s, hrun, hreceived⟩ := Option.map_eq_some_iff.mp hend
  have hlabels : socketLabels 0 (Script.busy (0 : Fin 1)) = Uring.System.busyLabels := by
    have happend : ∀ as bs : List (Node.Label 1 Script),
        socketLabels 0 (as ++ bs) = socketLabels 0 as ++ socketLabels 0 bs :=
      fun as bs => List.filterMap_append
    simp only [Script.busy, Script.socketCall, happend, socketLabels_map]
    simp only [socketLabels, List.filterMap_cons, List.filterMap_nil, socketView, List.nil_append,
      List.append_nil, Uring.System.busyLabels]
  rw [← hlabels] at hkernel
  exact ⟨sock, s, hnew, hrun, hreceived, node_completions_fit (fun _ => hnew) hrun 0 hkernel⟩

end MediaServer
