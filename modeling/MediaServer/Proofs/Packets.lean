/-
The way of a packet from an engine to the kernel.

An answer `Transmit` of an engine is, within the turn, a send of its worker; the sends of
a turn are calls of `add_send_to` in their order, some of which find the queue of slots
empty; and what was accepted the kernel is handed in order, with what is still to be
handed over behind it.  None of these hops turns two packets round or doubles one, so
neither does the way.
-/
import MediaServer.Proofs.Node

namespace MediaServer

open Lib

variable {Rtc : Type} {n sendQueue recvQueue : Nat} {ext : Extern Rtc}
  {admits : Worker Rtc → RtcConfig Rtc → Prop}
  {parse : Uring.GroupMsghdr → Bytes → Except Uring.SocketPanic Uring.Message}

/-! ### From the engine to a send -/

/-- The packet an action sends. -/
def Action.message : Action → Option Uring.Message
  | .sendTo dst buf => some (buf, dst)
  | _ => none

/-- The packet an answer of an engine asks to send. -/
def Action.transmitted : Action → Option Uring.Message
  | .polled _ (.ok (.transmit packet)) => some (packet.contents, packet.destination)
  | _ => none

/-- The packet an action of a session is. -/
def WebrtcTaskOutput.message : WebrtcTaskOutput → Option Uring.Message
  | .io (.udpSocketSend _ dst buf) => some (buf, dst)
  | _ => none

theorem performed_message (taskId : Nat) (out : WebrtcTaskOutput) :
    (performed taskId out).message = out.message ∧ (performed taskId out).transmitted = none := by
  cases out with
  | io action => cases action <;> exact ⟨rfl, rfl⟩
  | _ => exact ⟨rfl, rfl⟩

/-- Of what an answer stands for, only a `Transmit` is a packet to send. -/
theorem Role.translate_message (role : Role) (answer : Except ExternError Output) :
    (role.translate ext answer).filterMap WebrtcTaskOutput.message
      = match answer with
        | .ok (.transmit send) => [(send.contents, send.destination)]
        | _ => [] := by
  unfold translate
  split
  · rfl
  · rfl
  · rfl
  · unfold translateEvent
    split <;> rfl

/-- A `Transmit` is returned at once. -/
theorem TaskCore.popAction_transmit
    {onEvent : Event → TaskCore Rtc → Option WebrtcTaskOutput × TaskCore Rtc} {now : Instant}
    {task task' : TaskCore Rtc} {out : Option WebrtcTaskOutput} {send : Transmit}
    (h : task.popAction ext onEvent now = (out, task'))
    (hpolled : task.polled ext now = some (.ok (.transmit send))) :
    out = some (.io (.udpSocketSend send.source send.destination send.contents)) := by
  have hask : task.outputs = [] ∧ task.waiting now = false := by
    unfold polled at hpolled
    split at hpolled
    · rename_i hask
      exact hask
    · cases hpolled
  have hanswer : (ext.pollOutput task.rtc).1 = .ok (.transmit send) := by
    simpa [polled, hask] using hpolled
  unfold popAction at h
  rw [hask.1] at h
  simp only [hask.2, Bool.false_eq_true, if_false] at h
  split at h <;> rename_i rtc hpoll <;> rw [hpoll] at hanswer <;> cases hanswer
  cases h
  rfl

theorem ComposeTask.popAction_transmit {now : Instant} {task task' : ComposeTask Rtc}
    {out : Option WebrtcTaskOutput} {send : Transmit}
    (h : task.popAction ext now = (out, task'))
    (hpolled : task.polled ext now = some (.ok (.transmit send))) :
    out = some (.io (.udpSocketSend send.source send.destination send.contents)) := by
  cases task with
  | whip task =>
      cases h
      exact TaskCore.popAction_transmit rfl hpolled
  | whep task =>
      cases h
      exact TaskCore.popAction_transmit rfl hpolled

/-- No session owes a packet: whatever its engine wants sent is sent at once. -/
def Worker.Unburdened (w : Worker Rtc) : Prop :=
  ∀ t c, w.tasks.lookup t = some c → ∀ o ∈ c.task.core.outputs, o.message = none

/-- What one call of `pop_action` sends is what the engine wanted sent. -/
theorem ComposeTask.popAction_message {now : Instant} {taskId : Nat} {task task' : ComposeTask Rtc}
    {out : Option WebrtcTaskOutput} (h : task.popAction ext now = (out, task'))
    (howed : ∀ o ∈ task.core.outputs, o.message = none) :
    (popActions taskId (task.polled ext now) out).filterMap Action.message
        = (popActions taskId (task.polled ext now) out).filterMap Action.transmitted ∧
      ∀ o ∈ task'.core.outputs, o.message = none := by
  have hlaw := congrArg (List.filterMap WebrtcTaskOutput.message) (popAction_spec h).core.conserves
  rw [List.filterMap_append, List.filterMap_append,
    List.filterMap_eq_nil_iff.mpr howed, List.nil_append] at hlaw
  have hsent : ∀ answer, (popActions taskId answer out).filterMap Action.message
      = (out.bind WebrtcTaskOutput.message).toList := by
    intro answer
    have hasked : ∀ x, (Action.polled taskId x).message = none := fun _ => rfl
    rw [filterMap_popActions]
    cases answer <;> cases out <;> simp [performed_message, hasked]
  have hwanted : ∀ answer, (popActions taskId answer out).filterMap Action.transmitted
      = (answer.bind fun x => (Action.polled taskId x).transmitted).toList := by
    intro answer
    rw [filterMap_popActions]
    cases answer <;> cases out <;> simp [performed_message]
  have hout : out.toList.filterMap WebrtcTaskOutput.message
      = (out.bind WebrtcTaskOutput.message).toList := by
    cases out with
    | none => rfl
    | some o =>
        simp only [Option.toList_some, List.filterMap_cons, Option.bind_some]
        cases o.message <;> rfl
  rw [hsent, hwanted]
  cases hanswer : task.polled ext now with
  | none =>
      have hnone : task.core.polled ext now = none := hanswer
      rw [hnone] at hlaw
      obtain ⟨hfirst, hrest⟩ := List.append_eq_nil_iff.mp hlaw
      exact ⟨hout ▸ hfirst, List.filterMap_eq_nil_iff.mp hrest⟩
  | some answer =>
      have hsome : task.core.polled ext now = some answer := hanswer
      rw [hsome] at hlaw
      simp only [Option.elim, Role.translate_message] at hlaw
      by_cases htransmit : ∃ send, answer = .ok (.transmit send)
      · obtain ⟨send, rfl⟩ := htransmit
        have hsend := popAction_transmit h hanswer
        subst hsend
        refine ⟨rfl, List.filterMap_eq_nil_iff.mp ?_⟩
        simpa [WebrtcTaskOutput.message] using hlaw
      · have hnone : (Action.polled taskId answer).transmitted = none := by
          unfold Action.transmitted
          split
          · rename_i heq
            cases heq
            exact absurd ⟨_, rfl⟩ htransmit
          · rfl
        have hnil : out.toList.filterMap WebrtcTaskOutput.message = [] ∧
            task'.core.outputs.filterMap WebrtcTaskOutput.message = [] := by
          refine List.append_eq_nil_iff.mp (hlaw.trans ?_)
          split
          · exact absurd ⟨_, rfl⟩ htransmit
          · rfl
        rw [Option.bind_some, hnone]
        exact ⟨hout ▸ hnil.1, List.filterMap_eq_nil_iff.mp hnil.2⟩

theorem Worker.Feeds.message {w w' : Worker Rtc} {actions : List Action} (h : Feeds w actions w') :
    actions.filterMap Action.message = [] ∧ actions.filterMap Action.transmitted = [] :=
  ⟨h.filterMap_nil fun a ha => by cases a <;> simp [Action.isFeed] at ha <;> rfl,
    h.filterMap_nil fun a ha => by cases a <;> simp [Action.isFeed] at ha <;> rfl⟩

/-- A step keeps every session unburdened, and sends what its engine wanted sent. -/
theorem Worker.Unburdened.step {w w' : Worker Rtc} {actions : List Action} (h : w.Unburdened)
    (hs : Step ext admits w actions w') :
    w'.Unburdened ∧ actions.filterMap Action.message = actions.filterMap Action.transmitted := by
  refine Step.call_rule (P := fun actions w' => w'.Unburdened ∧
    actions.filterMap Action.message = actions.filterMap Action.transmitted) ?_ ?_ ?_ ?_ ?_ ?_ ?_ hs
  · intro actions w' hf
    refine ⟨fun t c hc => ?_, hf.message.1.trans hf.message.2.symm⟩
    obtain ⟨c₀, hc₀, -, hq⟩ := hf.1.lookup hc
    rw [hq.core.outputs]
    exact h t c₀ hc₀
  · exact fun req => ⟨h, rfl⟩
  · intro config req task hopen _
    refine ⟨fun t c hc => ?_, rfl⟩
    rw [Worker.register_lookup] at hc
    split at hc
    · cases hc
      obtain ⟨res, hres, -⟩ := hopen.outputs
      intro o ho
      rw [show (TaskContainer.ofTask task).task.core.outputs = task.core.outputs from rfl, hres] at ho
      cases List.mem_singleton.mp ho
      rfl
    · exact h t c hc
  · intro remote username taskId _ _
    refine ⟨fun t c hc => ?_, rfl⟩
    obtain ⟨c₀, remotes, hc₀, rfl⟩ := Worker.bind_lookup_some hc
    exact h t c₀ hc₀
  · intro taskId c now out task hc hpop
    obtain ⟨hsent, howed⟩ := ComposeTask.popAction_message hpop (h taskId c hc)
    refine ⟨fun t c' hc' => ?_, hsent⟩
    rw [Worker.performOn_lookup] at hc'
    split at hc'
    · cases hc'
      exact howed
    · exact h t c' hc'
  · exact ⟨h, rfl⟩
  · intro taskId c hc
    exact ⟨fun t c' hc' => h t c' (Worker.without_lookup_some hc').2, rfl⟩

/-- **What a worker sends is what its engines want sent**, in the order they say so. -/
theorem Worker.Reaches.transmits {addr : SocketAddr} {actions : List Action} {w : Worker Rtc}
    (h : Worker.Reaches ext admits addr actions w) :
    actions.filterMap Action.message = actions.filterMap Action.transmitted := by
  refine (Emits.preserves (P := fun actions w => w.Unburdened ∧
    actions.filterMap Action.message = actions.filterMap Action.transmitted) ?_ h.steps
    ⟨by simp [Unburdened, Worker.new], rfl⟩).2
  rintro actions w bs w' ⟨hw, hsent⟩ hs
  obtain ⟨hw', hsent'⟩ := hw.step hs
  exact ⟨hw', by rw [List.filterMap_append, List.filterMap_append, hsent, hsent']⟩

/-! ### From a send to the kernel -/

namespace Node

variable {s s' : Node n sendQueue recvQueue Rtc} {v w : Fin n}

/-- What the engines of the worker `v` want sent. -/
def transmits (v : Fin n) (entries : List (Entry n)) : List Uring.Message :=
  (actionsOf v entries).filterMap Action.transmitted

/-- A turn is one worker's, and what it does is that worker's. -/
theorem actionsOf_emitted (s : Server n Rtc) (l : MediaServer.Label n Rtc) (v : Fin n) :
    actionsOf v (s.emitted ext l)
      = if l.thread = some v then (s.emitted ext l).map Prod.snd else [] := by
  cases l with
  | turn w op =>
      simp only [Server.emitted]
      split
      · simp [actionsOf]
      · rename_i r _
        rw [actionsOf_turn, List.map_map]
        by_cases hw : w = v
        · simp [Label.thread, hw, Function.comp_def]
        · simp [Label.thread, hw]
  | _ => simp [Server.emitted, actionsOf]

/-- What an outward action is not, is neither a send. -/
theorem filterMap_outward (actions : List Action) :
    (actions.filter Action.isOutward).filterMap Action.message = actions.filterMap Action.message := by
  rw [List.filterMap_filter]
  refine List.filterMap_congr fun a _ => ?_
  cases a <;> rfl

theorem message_of_shared {a : Action} (h : a.isShared = true) : a.message = none := by
  cases a with
  | sendTo dst buf => cases h
  | _ => rfl

/-- A step of the server leaves the sends of the turn it takes, and those that were left. -/
theorem sends_server {l : MediaServer.Label n Rtc} (h : s.Coherent)
    (hs : s.step ext parse (.server l) = some s') (v : Fin n) :
    (s'.ports v).todo.filterMap Action.message
      = (s.ports v).todo.filterMap Action.message
        ++ (actionsOf v (s.server.emitted ext l)).filterMap Action.message := by
  obtain ⟨hallows, -, hports⟩ := server_some hs
  rw [actionsOf_emitted, show s'.ports v = s.follow ext l v by rw [hports]]
  by_cases hv : l.thread = some v
  · rw [if_pos hv]
    cases l with
    | turn w op =>
        cases hv
        have hnone : (s.ports v).todo = [] := hallows.1.2
        rw [hnone, follow, setPort_ports, if_pos rfl]
        exact filterMap_outward _
    | reply w =>
        cases hv
        obtain ⟨a, rest, htodo, hout⟩ := h.atShared hallows
        have hshared : a.message = none := message_of_shared (by
          simpa [Port.atShared, htodo] using hallows.2)
        simp [follow, htodo, hshared, Server.emitted]
    | broadcast w =>
        cases hv
        obtain ⟨a, rest, htodo, hout⟩ := h.atShared hallows
        have hshared : a.message = none := message_of_shared (by
          simpa [Port.atShared, htodo] using hallows.2)
        simp [follow, htodo, hshared, Server.emitted]
    | nextPhase w =>
        cases hv
        simp [follow, Server.emitted]
    | _ => simp [follow, Server.emitted]
  · rw [follow_other hv, if_neg hv]
    simp

/-- What `v` has had accepted, and what it has still to call for. -/
def called (v : Fin n) (s : Node n sendQueue recvQueue Rtc) : List Uring.Message :=
  (s.ports v).socket.accepted ++ (s.ports v).todo.filterMap Action.message

/-- A step in which `v` loses no send: its queue of slots is not empty, its thread does not end. -/
def Accepts (v : Fin n) (s : Node n sendQueue recvQueue Rtc) : Label n Rtc → Prop
  | .socket w (.run _) => w = v → ∀ buf dest,
      (s.ports w).socket.thread = .ready (.addSendTo buf dest) →
        (s.ports w).socket.sock.sendFreeQueue ≠ []
  | .crash w _ => w ≠ v
  | _ => True

/-- A call that is over has had the first send accepted, or has to do without it. -/
theorem called_run {answer : Except Uring.IoError Unit} (h : s.Coherent)
    (hs : s.step ext parse (.socket w (.run answer)) = some s') (v : Fin n) :
    (called v s').Sublist (called v s) ∧
      (s.Accepts v (.socket w (.run answer)) → called v s' = called v s) := by
  obtain ⟨hadmits, socket, hsocket, rfl⟩ := socket_some hs
  obtain ⟨c, hc, -, hadds⟩ := Uring.System.run_some hsocket
  unfold called
  rw [setPort_ports]
  by_cases hv : v = w
  · subst hv
    rw [if_pos rfl, Port.after_socket]
    have hafter : (s.ports v).after (.run answer) socket = (s.ports v).returned c socket := by
      simp [Port.after, hc]
    have hsame : ((s.ports v).returned c socket).todo = (s.ports v).todo →
        socket.accepted = (s.ports v).socket.accepted →
        (socket.accepted ++ ((s.ports v).returned c socket).todo.filterMap Action.message).Sublist
            ((s.ports v).socket.accepted ++ (s.ports v).todo.filterMap Action.message) ∧
          (s.Accepts v (.socket v (.run answer)) →
            socket.accepted ++ ((s.ports v).returned c socket).todo.filterMap Action.message
              = (s.ports v).socket.accepted ++ (s.ports v).todo.filterMap Action.message) := by
      intro htodo haccepted
      rw [htodo, haccepted]
      exact ⟨List.Sublist.refl _, fun _ => rfl⟩
    rw [hafter]
    cases c with
    | addSendTo buf dest =>
        obtain ⟨rest, htodo⟩ := nextCall_addSendTo (h.called hadmits hc)
        simp only [Port.returned, htodo, List.tail_cons]
        rcases hadds.2 with haccepted | ⟨hfull, hrefused⟩
        · simp [haccepted, Action.message]
        · rw [hrefused]
          exact ⟨by simp [Action.message], fun hok => absurd hfull (hok rfl buf dest hc)⟩
    | recvFrom =>
        refine hsame ?_ hadds.1
        unfold Port.returned
        simp only
        split <;> rfl
    | commitSendTo => exact hsame rfl hadds.1
    | finishReadFrom => exact hsame rfl hadds.1
  · rw [if_neg hv]
    exact ⟨List.Sublist.refl _, fun _ => rfl⟩

/-- Every step keeps the order: what is called for is part of what was wanted, or all of it. -/
theorem called_step {l : Label n Rtc} (h : s.Coherent) (hs : s.step ext parse l = some s')
    (v : Fin n) :
    (called v s').Sublist (called v s ++ (actionsOf v (s.emitted ext l)).filterMap Action.message) ∧
      (s.Accepts v l → called v s'
        = called v s ++ (actionsOf v (s.emitted ext l)).filterMap Action.message) := by
  cases l with
  | server l =>
      have hsocket : (s'.ports v).socket = (s.ports v).socket := by
        rw [(server_some hs).2.2, follow_socket]
      have heq : called v s'
          = called v s ++ (actionsOf v (s.emitted ext (.server l))).filterMap Action.message := by
        rw [called, sends_server h hs, hsocket, ← List.append_assoc]
        rfl
      exact ⟨heq ▸ List.Sublist.refl _, fun _ => heq⟩
  | socket w l =>
      have hnone : (actionsOf v (s.emitted ext (.socket w l))).filterMap Action.message = [] := rfl
      rw [hnone, List.append_nil]
      by_cases hrun : ∃ answer, l = .run answer
      · obtain ⟨answer, rfl⟩ := hrun
        exact called_run h hs v
      · push Not at hrun
        obtain ⟨hadmits, socket, hsocket, rfl⟩ := socket_some hs
        have heq : called v (s.setPort w ((s.ports w).after l socket)) = called v s := by
          unfold called
          rw [setPort_ports]
          split
          · rename_i hv
            subst hv
            rw [Port.after_socket, (Uring.System.step_keeps hsocket hrun).1]
            rcases after_todo l socket (s.ports v) with
              hsame | ⟨answer, -, -, hanswer, -, -⟩
            · rw [hsame]
            · exact absurd hanswer (hrun answer)
          · rfl
        exact ⟨heq ▸ List.Sublist.refl _, fun _ => heq⟩
  | crash w l =>
      obtain ⟨-, -, rfl⟩ := crash_some hs
      have hnone : (actionsOf v (s.emitted ext (.crash w l))).filterMap Action.message = [] := rfl
      rw [hnone, List.append_nil]
      unfold called
      simp only [crashed, setPort_ports]
      split
      · rename_i hv
        exact ⟨by simp [hv], fun hok => absurd hv.symm hok⟩
      · exact ⟨List.Sublist.refl _, fun _ => rfl⟩

/-! ### Runs -/

variable {localAddrs : Fin n → SocketAddr}
  {socks : Fin n → Uring.UdpSocket2IoUring sendQueue recvQueue} {labels : List (Label n Rtc)}

/-- The sends of a worker are what its engines wanted sent. -/
theorem sends_transmits
    (hrun : runLabels (Node.step ext parse) (new localAddrs socks) labels = some s) (v : Fin n) :
    (actionsOf v (record ext parse (new localAddrs socks) labels)).filterMap Action.message
      = transmits v (record ext parse (new localAddrs socks) labels) :=
  ((journal_run hrun).worker v).transmits

theorem called_run_sublist
    (hrun : runLabels (Node.step ext parse) (new localAddrs socks) labels = some s) (v : Fin n) :
    (called v s).Sublist (transmits v (record ext parse (new localAddrs socks) labels)) := by
  rw [← sends_transmits hrun]
  refine runLabels_induct (P := fun labels (s : Node n sendQueue recvQueue Rtc) =>
    (called v s).Sublist ((actionsOf v
      (record ext parse (new localAddrs socks) labels)).filterMap Action.message)) ?_ ?_ hrun
  · exact List.nil_sublist _
  · intro labels s l s' hrun hsub hs
    rw [record_concat hrun hs, actionsOf_append, List.filterMap_append]
    exact (called_step (coherent_run hrun) hs v).1.trans (hsub.append_right _)

theorem called_run_eq
    (hrun : runLabels (Node.step ext parse) (new localAddrs socks) labels = some s) (v : Fin n)
    (hok : Meets (Node.step ext parse) (Accepts v) (new localAddrs socks) labels) :
    called v s = transmits v (record ext parse (new localAddrs socks) labels) := by
  rw [← sends_transmits hrun]
  refine runLabels_invariant (P := fun labels (s : Node n sendQueue recvQueue Rtc) =>
    called v s = (actionsOf v
      (record ext parse (new localAddrs socks) labels)).filterMap Action.message) ?_ ?_ labels s
      hok hrun
  · rfl
  · intro labels s l s' hrun heq hok hs
    rw [record_concat hrun hs, actionsOf_append, List.filterMap_append,
      (called_step (coherent_run hrun) hs v).2 hok, heq]

/-- A thread that commits has nothing left to send. -/
theorem nextCall_commitSendTo {phase : Phase} {port : Port sendQueue recvQueue}
    (h : port.nextCall phase = some .commitSendTo) : port.todo = [] := by
  unfold Port.nextCall at h
  split at h
  · cases h
  · cases h
  · rename_i hnone
    exact hnone

/--
**Packets go out in order, and none twice.**  Any number of workers with their sockets, any
engines, any kernel, any interleaving of their steps, threads that end in a call of their
socket included.  What the kernel has been handed of a worker's packets, then what it is
still to be handed, then what the thread has still to send, is a part of what the engines
of that worker have asked to send, in the order they asked.  It is all of it as long as no
send finds the slots used up and the worker's own thread does not end in a call, as it does
over a packet that is too long, with slots left; and then, when a `commit_send_to` has
succeeded, the kernel has been handed everything.
-/
theorem packets_sent_in_order
    (hnew : ∀ w, Uring.UdpSocket2IoUring.new sendQueue recvQueue = .ok (socks w))
    (hrun : runLabels (Node.step ext parse) (new localAddrs socks) labels = some s) (v : Fin n) :
    ((s.ports v).socket.kernel.taken
        ++ (s.ports v).socket.unsubmitted.filterMap
          (Uring.message (s.ports v).socket.sock.sendBufs)
        ++ (s.ports v).todo.filterMap Action.message).Sublist
      (transmits v (record ext parse (new localAddrs socks) labels)) ∧
    (Meets (Node.step ext parse) (Accepts v) (new localAddrs socks) labels →
      (s.ports v).socket.kernel.taken
          ++ (s.ports v).socket.unsubmitted.filterMap
            (Uring.message (s.ports v).socket.sock.sendBufs)
          ++ (s.ports v).todo.filterMap Action.message
        = transmits v (record ext parse (new localAddrs socks) labels) ∧
      ∀ answer s', s.step ext parse (.socket v (.run answer)) = some s' →
        (s.ports v).socket.thread = .ready .commitSendTo →
        (s'.ports v).socket.outcome = some (.commitSendTo (.ok ())) →
        (s'.ports v).socket.kernel.taken
          = transmits v (record ext parse (new localAddrs socks) labels)) := by
  have hsending : (s.ports v).socket.Sending :=
    Uring.System.Sending.visits (hnew v) ⟨_, List.prefix_refl _, socket_run hrun v⟩
  have horder := hsending.ring.order
  have hcalled : (s.ports v).socket.kernel.taken
      ++ (s.ports v).socket.unsubmitted.filterMap
        (Uring.message (s.ports v).socket.sock.sendBufs)
      ++ (s.ports v).todo.filterMap Action.message = called v s :=
    congrArg (· ++ (s.ports v).todo.filterMap Action.message) horder
  rw [hcalled]
  refine ⟨called_run_sublist hrun v, fun hok => ⟨called_run_eq hrun v hok, ?_⟩⟩
  intro answer s' hs hthread hcommitted
  obtain ⟨hadmits, socket, hsocket, rfl⟩ := socket_some hs
  rw [setPort_ports, if_pos rfl, Port.after_socket] at hcommitted ⊢
  have heffect := Uring.System.step_effect hsocket
  have hnone := hsending.committed hthread heffect hcommitted
  have htaken : socket.kernel.taken = socket.accepted := by
    have hafter := (hsending.step heffect).ring.order
    simpa [Uring.System.txRing, hnone] using hafter
  obtain ⟨c, hc, -, hadds⟩ := Uring.System.run_some hsocket
  obtain rfl : c = .commitSendTo := Uring.Thread.ready.inj (hc.symm.trans hthread)
  have htodo := nextCall_commitSendTo ((coherent_run hrun).called hadmits hc)
  have hall := called_run_eq hrun v hok
  rw [called, htodo, List.filterMap_nil, List.append_nil] at hall
  rw [htaken, hadds.1, hall]

instance (v : Fin n) (s : Node n sendQueue recvQueue Rtc) (l : Label n Rtc) :
    Decidable (s.Accepts v l) :=
  match l with
  | .socket w (.run _) =>
      match hthread : (s.ports w).socket.thread with
      | .ready (.addSendTo _ _) =>
          if hfull : w = v ∧ (s.ports w).socket.sock.sendFreeQueue = [] then
            isFalse fun hok => hok hfull.1 _ _ hthread hfull.2
          else isTrue fun hw _ _ _ hnone => hfull ⟨hw, hnone⟩
      | .preparing _ | .idle | .polling _ | .ready .commitSendTo | .ready .recvFrom
      | .ready .finishReadFrom => isTrue fun _ _ _ hready => by simp [hthread] at hready
  | .crash w _ => inferInstanceAs (Decidable (w ≠ v))
  | .server _ | .socket _ (.kernel _) | .socket _ (.prepare _) | .socket _ (.call _)
  | .socket _ .poll => isTrue trivial

end Node

/-- A `commit_send_to` that has succeeded. -/
def Uring.Outcome.isCommitted : Uring.Outcome → Bool
  | .commitSendTo (.ok _) => true
  | .commitSendTo (.error _) | .addSendTo _ | .recvFrom _ | .finishReadFrom _ => false

theorem Uring.Outcome.of_isCommitted {outcome : Option Uring.Outcome}
    (h : outcome.any isCommitted = true) : outcome = some (.commitSendTo (.ok ())) := by
  obtain ⟨o, rfl, ho⟩ := Option.any_eq_true _ _ |>.mp h
  unfold isCommitted at ho
  split at ho
  · rfl
  all_goals cases ho

/-- In the cycle the one packet is with the kernel once it is committed. -/
theorem Node.packets_sent_in_order_cycle :
    ∃ (sock : Uring.UdpSocket2IoUring 16 16) (s s' : Node 1 16 16 Script),
      Uring.UdpSocket2IoUring.new 16 16 = .ok sock ∧
      runLabels (Node.step Script.engine Uring.parseV4)
        (Node.new (fun _ => Script.addr) fun _ => sock) (Script.relaying (0 : Fin 1)) = some s ∧
      s.step Script.engine Uring.parseV4 (.socket 0 (.run (.ok ()))) = some s' ∧
      (s'.ports 0).socket.kernel.taken = [([1, 2, 3], Script.peer 7)] ∧
      transmits 0 (record Script.engine Uring.parseV4
        (Node.new (fun _ => Script.addr) fun _ => sock) (Script.relaying (0 : Fin 1)))
        = [([1, 2, 3], Script.peer 7)] := by
  have hlast : (Script.runNode (Script.relaying 0)).map (fun s =>
      decide ((s.ports 0).socket.thread = .ready .commitSendTo) &&
        (s.step Script.engine Uring.parseV4 (.socket 0 (.run (.ok ())))).any fun s' =>
          (s'.ports 0).socket.outcome.any Uring.Outcome.isCommitted &&
            decide ((s'.ports 0).socket.kernel.taken = [([1, 2, 3], Script.peer 7)]))
      = some true := by decide +kernel
  obtain ⟨sock, s, hnew, hrun, hread⟩ := Script.of_runNode hlast
  obtain ⟨hthread, hstep⟩ := Bool.and_eq_true_iff.mp hread
  obtain ⟨s', hs', hread'⟩ := Option.any_eq_true _ _ |>.mp hstep
  obtain ⟨hcommitted, htaken⟩ := Bool.and_eq_true_iff.mp hread'
  rw [decide_eq_true_eq] at htaken
  have haccepts : Meets (Node.step Script.engine Uring.parseV4) (Accepts 0)
      (Node.new (fun _ => Script.addr) fun _ => sock) (Script.relaying (0 : Fin 1)) :=
    Script.meets_of_runNode hnew (by decide +kernel)
  have hall := ((packets_sent_in_order (fun _ => hnew) hrun 0).2 haccepts).2 (.ok ()) s' hs'
    (of_decide_eq_true hthread) (Uring.Outcome.of_isCommitted hcommitted)
  exact ⟨sock, s, s', hnew, hrun, hs', htaken, hall.symm.trans htaken⟩

end MediaServer
