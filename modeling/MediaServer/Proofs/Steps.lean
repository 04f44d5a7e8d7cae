/-
One small step of a worker, and every turn as a run of them.

The turns of a worker share most of what they do.  A request creates a session and
polls it until it has nothing more; a datagram binds a remote, feeds a session and
polls it; a pass of `pop_tasks` polls.  `Step` lists what is left when the sharing is
taken out: nine things that can happen to the tables, each small enough that an
invariant is checked against it by looking.  `exec_emits` is the bridge: whatever a
turn does to the tables and emits, some small steps do and emit too.  Every invariant
of the later files is proved against `Step` and holds of every turn, of every whole
phase and of every cycle because of it.

Creating a session is the one place where the order differs: the source polls a new
session before it puts it into the map, a small step puts it there first.  Nothing
the polling does looks at the map, so the two end in the same tables.
-/
import MediaServer.Lib.Trace
import MediaServer.Proofs.Session
import MediaServer.Worker

namespace MediaServer

open Lib

variable {Rtc : Type} (ext : Extern Rtc)

/-! ### The two lists of a channel, side by side

Media flows to the consumers of a channel and is joined by subscribing; keyframe
requests flow to its sources and are joined by publishing.  The bookkeeping of the
two is the same, and is proved once for a `Side`.
-/

inductive Side
  | media
  | keyframe
  deriving DecidableEq

namespace Side

/-- The track an action joins on this side. -/
def joins : Side → WebrtcTaskOutput → Option UInt64
  | .media, .subscribeTrack trackId => some trackId
  | .keyframe, .publishTrack trackId => some trackId
  | _, _ => none

/-- The tracks a session has joined on this side. -/
def tracks : Side → TaskContainer Rtc → List UInt64
  | .media, container => container.subChannels
  | .keyframe, container => container.pubChannels

/-- The sessions a channel lists on this side. -/
def ids (side : Side) (channels : BusChannels) (trackId : UInt64) : List Nat :=
  match side with
  | .media => (BusChannels.entry channels trackId).consumers
  | .keyframe => (BusChannels.entry channels trackId).sources

end Side

namespace BusChannels

theorem entry_insert (channels : BusChannels) (trackId trackId' : UInt64)
    (channel : BusChannelContainer) :
    entry (channels.insert trackId channel) trackId'
      = if trackId' = trackId then channel else entry channels trackId' := by
  unfold entry
  rw [Table.lookup_insert_ite]
  split <;> rfl

end BusChannels

/-! ### Polling one action -/

namespace Worker

/-- The state `pop_task` starts from on a container of this worker. -/
def popState (container : TaskContainer Rtc) (w : Worker Rtc) : PopState Rtc :=
  { task := container, busChannels := w.busChannels, endedTasks := w.endedTasks, actions := [] }

/-- Write back what `pop_task` borrowed. -/
def withPop (taskId : Nat) (s : PopState Rtc) (w : Worker Rtc) : Worker Rtc :=
  { w with
    busChannels := s.busChannels
    endedTasks := s.endedTasks
    tasks := w.tasks.insert taskId s.task }

/-- One turn of `pop_task`, the action `out` having been returned. -/
def performOn (taskId : Nat) (out : Option WebrtcTaskOutput) (container : TaskContainer Rtc)
    (w : Worker Rtc) : Worker Rtc :=
  w.withPop taskId
    (out.elim (w.popState container) fun action => (w.popState container).perform taskId action)

/-- The session a request opens has what its request says and owes one answer. -/
structure Opened (config : RtcConfig Rtc) (req : HttpRequest) (task : ComposeTask Rtc) : Prop where
  path : req.path = "/whip/endpoint" ∨ req.path = "/whep/endpoint"
  ufrag : task.ufrag = config.ufrag
  role : task.role = .ofRequest ext req
  outputs : ∃ res, task.core.outputs = [.io (.httpResponse res)] ∧ res.reqId = req.reqId
  audioMid : task.core.audioMid = none
  videoMid : task.core.videoMid = none

/-- A new session, put into the map at once. -/
def register (task : ComposeTask Rtc) (w : Worker Rtc) : Worker Rtc :=
  { w with
    taskIdSeed := w.taskIdSeed + 1
    taskUfrags := w.taskUfrags.insert task.ufrag w.taskIdSeed
    tasks := w.tasks.insert w.taskIdSeed (.ofTask task) }

end Worker

/-- The line an action of a session leaves. -/
def performed (taskId : Nat) : WebrtcTaskOutput → Action
  | .io (.udpSocketSend _ dst buf) => .sendTo dst buf
  | .io (.httpResponse res) => .trySend res
  | .trackMedia media => .broadcast taskId (.trackMedia media)
  | .requestKeyframeTrack trackId kind => .broadcast taskId (.trackKeyframeRequest trackId kind)
  | .taskEnded => .ended taskId
  | .publishTrack trackId => .published taskId trackId
  | .subscribeTrack trackId => .subscribed taskId trackId

/-- What one turn of `pop_task` emits: the answer it polled, and the action it performed. -/
def popActions (taskId : Nat) (answer : Option (Except ExternError Output))
    (out : Option WebrtcTaskOutput) : List Action :=
  (answer.map (.polled taskId)).toList ++ (out.map (performed taskId)).toList

theorem mem_popActions {taskId : Nat} {answer : Option (Except ExternError Output)}
    {out : Option WebrtcTaskOutput} {a : Action} :
    a ∈ popActions taskId answer out ↔
      (∃ x, answer = some x ∧ a = .polled taskId x) ∨
        ∃ o, out = some o ∧ a = performed taskId o := by
  cases answer <;> cases out <;> simp [popActions]

/-- What a reading of actions sees of one turn of `pop_task`. -/
theorem filterMap_popActions {β : Type*} (f : Action → Option β) (taskId : Nat)
    (answer : Option (Except ExternError Output)) (out : Option WebrtcTaskOutput) :
    (popActions taskId answer out).filterMap f
      = (answer.bind fun x => f (.polled taskId x)).toList
        ++ (out.bind fun o => f (performed taskId o)).toList := by
  have hone : ∀ a : Action, [a].filterMap f = (f a).toList := by
    intro a
    rw [List.filterMap_cons]
    cases f a <;> rfl
  rw [popActions, List.filterMap_append]
  cases answer with
  | none =>
      cases out with
      | none => rfl
      | some o => exact hone _
  | some x =>
      cases out with
      | none => exact congrArg (· ++ []) (hone _)
      | some o => exact congrArg₂ (· ++ ·) (hone _) (hone _)

theorem filterMap_popActions_nil {β : Type*} {f : Action → Option β} {taskId : Nat}
    (hpolled : ∀ x, f (.polled taskId x) = none) (hperformed : ∀ o, f (performed taskId o) = none)
    (answer : Option (Except ExternError Output)) (out : Option WebrtcTaskOutput) :
    (popActions taskId answer out).filterMap f = [] := by
  rw [filterMap_popActions]
  cases answer <;> cases out <;> simp [hpolled, hperformed]

/--
The small steps.  `admits` is what a run assumes of the credentials a new session
draws; `fun _ _ => True` assumes nothing.
-/
inductive Step (admits : Worker Rtc → RtcConfig Rtc → Prop) :
    Worker Rtc → List Action → Worker Rtc → Prop
  | busEvent {w w' : Worker Rtc} {actions : List Action} (ev : BusEvent) (now : Instant)
      (h : w.handleBusEvent ext ev now = .ok (w', actions)) : Step admits w actions w'
  | notFound (w : Worker Rtc) (req : HttpRequest) :
      Step admits w [.send (Worker.notFound req)] w
  | create {w : Worker Rtc} {config : RtcConfig Rtc} {req : HttpRequest}
      {task : ComposeTask Rtc} (hopen : Worker.Opened ext config req task)
      (hadmits : admits w config) :
      Step admits w [.created w.taskIdSeed req] (w.register task)
  | tick {w w' : Worker Rtc} {actions : List Action} (order : List Nat) (now : Instant)
      (h : w.processTick ext order now = .ok (w', actions)) : Step admits w actions w'
  | bind {w : Worker Rtc} {remote : SocketAddr} {username : String} {taskId : Nat}
      (hremote : w.taskRemotes.lookup remote = none)
      (hufrag : w.taskUfrags.lookup username = some taskId) :
      Step admits w [.bound remote taskId] (w.bind remote taskId)
  | input {w w' : Worker Rtc} {actions : List Action} (now : Instant) (src dst : SocketAddr)
      (buf : Bytes) (taskId : Nat)
      (h : w.inputTask ext now (.io (.udpSocketRecv src dst buf)) taskId = .ok (w', actions)) :
      Step admits w actions w'
  | pop {w : Worker Rtc} {taskId : Nat} {container : TaskContainer Rtc} {now : Instant}
      {out : Option WebrtcTaskOutput} {task : ComposeTask Rtc}
      (hlookup : w.tasks.lookup taskId = some container)
      (hpop : container.task.popAction ext now = (out, task)) :
      Step admits w (popActions taskId (container.task.polled ext now) out)
        (w.performOn taskId out { container with task })
  | takeEnded (w : Worker Rtc) : Step admits w [] { w with endedTasks := [] }
  | remove {w w' : Worker Rtc} {actions : List Action} (taskId : Nat)
      (h : w.removeTask taskId = .ok (w', actions)) : Step admits w actions w'

/-! ### `pop_task` as a run of small steps -/

namespace PopState

theorem perform_actions (taskId : Nat) (action : WebrtcTaskOutput) (s : PopState Rtc) :
    (s.perform taskId action).actions = s.actions ++ [performed taskId action] := by
  cases action with
  | io a => cases a <;> rfl
  | _ => rfl

@[simp] theorem perform_task_task (taskId : Nat) (action : WebrtcTaskOutput) (s : PopState Rtc) :
    (s.perform taskId action).task.task = s.task.task := by
  cases action with
  | io a => cases a <;> rfl
  | _ => rfl

/-- The tables a performed action leaves do not depend on what was emitted before. -/
theorem perform_tables (taskId : Nat) (action : WebrtcTaskOutput) (s : PopState Rtc)
    (actions : List Action) :
    { s.perform taskId action with actions := actions }
      = { PopState.perform taskId action { s with actions := [] } with actions := actions } := by
  cases action with
  | io a => cases a <;> rfl
  | _ => rfl

/-- Polling a session is bounded by what its engine has queued. -/
theorem drains (now : Instant) (taskId : Nat) :
    Drains (fun s : PopState Rtc => s.task.task.remaining ext) (next ext now taskId)
      (perform taskId) := by
  intro s action t h
  simp only [next, Prod.mk.injEq] at h
  obtain ⟨hout, rfl⟩ := h
  simp only [perform_task_task]
  have hspec : ComposeTask.Popped ext now s.task.task (some action)
      (s.task.task.popAction ext now).2 := ComposeTask.popAction_spec (by rw [← hout])
  exact hspec.core.decreases (by simp)

end PopState

namespace Worker

variable {ext} {admits : Worker Rtc → RtcConfig Rtc → Prop}

theorem withPop_popState {taskId : Nat} {container : TaskContainer Rtc} {w : Worker Rtc}
    (h : w.tasks.lookup taskId = some container) :
    w.withPop taskId (w.popState container) = w := by
  simp [withPop, popState, Table.insert_lookup h]

theorem withPop_withPop (taskId : Nat) (s t : PopState Rtc) (w : Worker Rtc) :
    (w.withPop taskId s).withPop taskId t = w.withPop taskId t := by
  simp [withPop, Finmap.insert_insert]

/-- One turn of `pop_task`, from any state it can be in, performs what the session returned. -/
theorem withPop_performOn (now : Instant) (taskId : Nat) (s : PopState Rtc) (w : Worker Rtc) :
    (w.withPop taskId s).performOn taskId (s.task.task.popAction ext now).1
        { s.task with task := (s.task.task.popAction ext now).2 }
      = w.withPop taskId ((s.next ext now taskId).1.elim (s.next ext now taskId).2
          fun action => (s.next ext now taskId).2.perform taskId action) := by
  rw [performOn, withPop_withPop]
  simp only [PopState.next]
  cases (s.task.task.popAction ext now).1 with
  | none => rfl
  | some action =>
      have := PopState.perform_tables taskId action
        ({ s with
            task := { s.task with task := (s.task.task.popAction ext now).2 }
            actions := s.actions ++ ((s.task.task.polled ext now).map (.polled taskId)).toList })
        []
      simp only [PopState.mk.injEq] at this
      simp [withPop, popState, this]

/-- The rule for `pop_task`: what every answer of the session preserves. -/
theorem popTask_turns {now : Instant} {taskId : Nat} {container : TaskContainer Rtc}
    {w : Worker Rtc} {P : List Action → Worker Rtc → Prop}
    (hpop : ∀ actions u c out task, u.tasks.lookup taskId = some c →
      c.task.popAction ext now = (out, task) → P actions u →
      P (actions ++ popActions taskId (c.task.polled ext now) out)
        (u.performOn taskId out { c with task }))
    (h : w.tasks.lookup taskId = some container) (hinit : P [] w) :
    P (w.popTask ext now taskId container).2 (w.popTask ext now taskId container).1 := by
  have hturn : ∀ s : PopState Rtc, P s.actions (w.withPop taskId s) →
      P (s.actions ++ popActions taskId (s.task.task.polled ext now)
          (s.task.task.popAction ext now).1)
        (w.withPop taskId ((s.next ext now taskId).1.elim (s.next ext now taskId).2
          fun action => (s.next ext now taskId).2.perform taskId action)) := by
    intro s hs
    rw [← withPop_performOn]
    exact hpop _ _ _ _ _ (by simp [withPop]) rfl hs
  refine drain_rule (PopState.drains ext now taskId)
    (P := fun s => P s.actions (w.withPop taskId s))
    (Q := fun s => P s.actions (w.withPop taskId s)) ?_ ?_ _ ?_
  · intro s action t hs hn
    have := hturn s hs
    rw [hn] at this
    simp only [PopState.next, Prod.mk.injEq] at hn
    obtain ⟨hout, rfl⟩ := hn
    simpa [PopState.perform_actions, popActions, hout] using this
  · intro s t hs hn
    have := hturn s hs
    rw [hn] at this
    simp only [PopState.next, Prod.mk.injEq] at hn
    obtain ⟨hout, rfl⟩ := hn
    simpa [popActions, hout] using this
  · show P [] (w.withPop taskId (w.popState container))
    rw [withPop_popState h]
    exact hinit

theorem popTask_emits {now : Instant} {taskId : Nat} {container : TaskContainer Rtc}
    {w : Worker Rtc} (h : w.tasks.lookup taskId = some container) :
    Emits (Step ext admits) w (w.popTask ext now taskId container).2
      (w.popTask ext now taskId container).1 :=
  popTask_turns (P := fun actions u => Emits (Step ext admits) w actions u)
    (fun _ _ _ _ _ hc hpop hrun => hrun.tail (.pop hc hpop)) h (.refl w)

/--
The rule for `pop_task` where only the session and the actions matter: `P` is carried
along while the session returns actions, and `Q` is what its last, empty answer makes
of it.
-/
theorem popTask_calls {now : Instant} {taskId : Nat} {container : TaskContainer Rtc}
    {w : Worker Rtc} {P Q : ComposeTask Rtc → List Action → Prop}
    (hbody : ∀ task actions action task', P task actions →
      task.popAction ext now = (some action, task') →
      P task' (actions ++ popActions taskId (task.polled ext now) (some action)))
    (hstop : ∀ task actions task', P task actions → task.popAction ext now = (none, task') →
      Q task' (actions ++ popActions taskId (task.polled ext now) none))
    (hinit : P container.task []) :
    ∃ c, (w.popTask ext now taskId container).1.tasks.lookup taskId = some c ∧
      Q c.task (w.popTask ext now taskId container).2 := by
  have hdrain := drain_rule (PopState.drains ext now taskId)
    (P := fun s => P s.task.task s.actions) (Q := fun s => Q s.task.task s.actions) ?_ ?_
    (w.popState container) hinit
  · refine ⟨_, ?_, hdrain⟩
    simp only [popTask, Table.lookup_insert_ite, if_true]
    rfl
  · intro s action t hs hn
    simp only [PopState.next, Prod.mk.injEq] at hn
    obtain ⟨hout, rfl⟩ := hn
    have := hbody _ _ _ _ hs (Prod.ext hout rfl)
    simpa [PopState.perform_actions, popActions] using this
  · intro s t hs hn
    simp only [PopState.next, Prod.mk.injEq] at hn
    obtain ⟨hout, rfl⟩ := hn
    simpa [popActions] using hstop _ _ _ hs (Prod.ext hout rfl)

/-- The same rule, with what `pop_action` is known to do in place of the call. -/
theorem popTask_rule {now : Instant} {taskId : Nat} {container : TaskContainer Rtc}
    {w : Worker Rtc} {P Q : ComposeTask Rtc → List Action → Prop}
    (hbody : ∀ task actions action task', P task actions →
      ComposeTask.Popped ext now task (some action) task' →
      P task' (actions ++ popActions taskId (task.polled ext now) (some action)))
    (hstop : ∀ task actions task', P task actions → ComposeTask.Popped ext now task none task' →
      Q task' (actions ++ popActions taskId (task.polled ext now) none))
    (hinit : P container.task []) :
    ∃ c, (w.popTask ext now taskId container).1.tasks.lookup taskId = some c ∧
      Q c.task (w.popTask ext now taskId container).2 :=
  popTask_calls
    (fun task actions action task' hp h =>
      hbody task actions action task' hp (ComposeTask.popAction_spec h))
    (fun task actions task' hp h => hstop task actions task' hp (ComposeTask.popAction_spec h))
    hinit

/-- A reading of actions that is blind to polling a session sees nothing of `pop_task`. -/
theorem popTask_filterMap_nil {β : Type*} {f : Action → Option β} {taskId : Nat}
    (hpolled : ∀ x, f (.polled taskId x) = none) (hperformed : ∀ o, f (performed taskId o) = none)
    (now : Instant) (container : TaskContainer Rtc) (w : Worker Rtc) :
    (w.popTask ext now taskId container).2.filterMap f = [] := by
  have hpop := filterMap_popActions_nil hpolled hperformed
  have hrun : ∃ c, (w.popTask ext now taskId container).1.tasks.lookup taskId = some c ∧
      (w.popTask ext now taskId container).2.filterMap f = [] := by
    refine popTask_rule (P := fun _ actions => actions.filterMap f = [])
      (Q := fun _ actions => actions.filterMap f = []) ?_ ?_ rfl
    · intro task actions action task' h _
      rw [List.filterMap_append, h, hpop]
      rfl
    · intro task actions task' h _
      rw [List.filterMap_append, h, hpop]
      rfl
  exact hrun.choose_spec.2

end Worker

/-! ### A new session -/

theorem TaskCore.new_ok {location ufrag : String} {rtc : Rtc} {req : HttpRequest}
    {localAddrs : List SocketAddr} {core : TaskCore Rtc}
    (h : TaskCore.new ext location ufrag rtc req localAddrs = .ok core) :
    core.iceUfrag = ufrag ∧ core.audioMid = none ∧ core.videoMid = none ∧
      ∃ answer, core.outputs = [.io (.httpResponse (answerResponse location req answer))] := by
  unfold TaskCore.new at h
  split at h
  · cases h
  · split at h
    · cases h
    · split at h
      · cases h
      · cases h
        exact ⟨rfl, rfl, rfl, _, rfl⟩

namespace Worker

variable {ext} {admits : Worker Rtc → RtcConfig Rtc → Prop}

theorem whip_opened {config : RtcConfig Rtc} {req : HttpRequest} {localAddrs : List SocketAddr}
    {task : WhipServerTask Rtc} (hpath : req.path = "/whip/endpoint")
    (h : WhipServerTask.new ext config req localAddrs = .ok task) :
    Opened ext config req (.whip task) := by
  obtain ⟨core, hc, rfl⟩ := except_map_ok.mp h
  obtain ⟨hu, ha, hv, answer, ho⟩ := TaskCore.new_ok ext hc
  exact ⟨.inl hpath, hu, by simp [ComposeTask.role, Role.ofRequest, hpath], ⟨_, ho, rfl⟩, ha, hv⟩

theorem whep_opened {config : RtcConfig Rtc} {req : HttpRequest} {localAddrs : List SocketAddr}
    {task : WhepServerTask Rtc} (hpath : req.path = "/whep/endpoint")
    (h : WhepServerTask.new ext config req localAddrs = .ok task) :
    Opened ext config req (.whep task) := by
  obtain ⟨core, hc, rfl⟩ := except_map_ok.mp h
  obtain ⟨hu, ha, hv, answer, ho⟩ := TaskCore.new_ok ext hc
  exact ⟨.inr hpath, hu, by simp [ComposeTask.role, Role.ofRequest, hpath], ⟨_, ho, rfl⟩, ha, hv⟩

/-! ### What a turn comes to -/

/-- A request that is handled opened a session, or was answered with a 404. -/
theorem handleRequest_ok {arrival : HttpArrival Rtc} {w w' : Worker Rtc} {actions : List Action}
    (h : w.handleRequest ext arrival = .ok (w', actions)) :
    ∃ req, arrival.event = .httpRequest req ∧
      ((∃ task, Opened ext arrival.config req task ∧
          w.addTask ext arrival.now req task = (w', actions)) ∨
        (w' = w ∧ actions = [.send (notFound req)])) := by
  unfold handleRequest at h
  split at h
  · rename_i req hreq
    refine ⟨req, hreq, ?_⟩
    split at h
    · rename_i hpath
      obtain ⟨task, hn, hadd⟩ := except_map_ok.mp h
      exact .inl ⟨_, whip_opened hpath hn, hadd⟩
    · split at h
      · rename_i hpath
        obtain ⟨task, hn, hadd⟩ := except_map_ok.mp h
        exact .inl ⟨_, whep_opened hpath hn, hadd⟩
      · cases h
        exact .inr ⟨rfl, rfl⟩
  · cases h

/-- Looking for a datagram's session changes nothing, or binds its sender. -/
theorem slot_ok {d : Datagram} {w w' : Worker Rtc} {found : Option Nat} {actions : List Action}
    (h : w.slot ext d = .ok (found, w', actions)) :
    (w' = w ∧ actions = []) ∨
      ∃ username taskId, w.taskRemotes.lookup d.remote = none ∧
        w.taskUfrags.lookup username = some taskId ∧ w' = w.bind d.remote taskId ∧
        actions = [.bound d.remote taskId] := by
  unfold slot at h
  split at h
  · cases h
    exact .inl ⟨rfl, rfl⟩
  · rename_i hremote
    split at h
    · cases h
    · cases h
      exact .inl ⟨rfl, rfl⟩
    · rename_i username _
      split at h
      · cases h
        exact .inl ⟨rfl, rfl⟩
      · rename_i taskId hufrag
        cases h
        exact .inr ⟨username, taskId, hremote, hufrag, rfl, rfl⟩

/-- A datagram that is handled is dropped, or handed to its session, which is then polled. -/
theorem handleDatagram_ok {d : Datagram} {w w' : Worker Rtc} {actions : List Action}
    (h : w.handleDatagram ext d = .ok (w', actions)) :
    ∃ found u acts, w.slot ext d = .ok (found, u, acts) ∧
      ((w' = u ∧ actions = acts) ∨
        ∃ taskId v fed popped,
          u.inputTask ext d.now (.io (.udpSocketRecv d.remote u.udpSocketLocalAddr d.buf)) taskId
            = .ok (v, fed) ∧
          v.popOne ext d.now taskId = .ok (w', popped) ∧ actions = acts ++ (fed ++ popped)) := by
  unfold handleDatagram at h
  split at h
  · cases h
  · rename_i u acts hslot
    cases h
    exact ⟨none, _, _, hslot, .inl ⟨rfl, rfl⟩⟩
  · rename_i taskId u acts hslot
    obtain ⟨⟨x, rest⟩, hrun, heq⟩ := except_map_ok.mp h
    cases heq
    obtain ⟨v, fed, acts₂, hin, hrest, rfl⟩ := forEach_cons_ok.mp hrun
    obtain ⟨v₂, popped, acts₃, hpop, hnil, rfl⟩ := forEach_cons_ok.mp hrest
    cases hnil
    exact ⟨some taskId, u, acts, hslot, .inr ⟨taskId, v, fed, popped, hin, hpop, by simp⟩⟩

/-! ### Every turn is a run of small steps -/

theorem popTask_insert (now : Instant) (taskId : Nat) (container container' : TaskContainer Rtc)
    (w : Worker Rtc) :
    popTask ext now taskId container { w with tasks := w.tasks.insert taskId container' }
      = popTask ext now taskId container w := by
  simp [popTask, Finmap.insert_insert]

theorem addTask_emits {now : Instant} {config : RtcConfig Rtc} {req : HttpRequest}
    {task : ComposeTask Rtc} {w : Worker Rtc} (hopen : Opened ext config req task)
    (hadmits : admits w config) :
    Emits (Step ext admits) w (w.addTask ext now req task).2 (w.addTask ext now req task).1 := by
  have hcreate := Emits.single (Step.create hopen hadmits)
  have hlookup : (w.register task).tasks.lookup w.taskIdSeed = some (.ofTask task) := by
    simp [register]
  have hpop : Emits (Step ext admits) _ (popTask ext now _ _ _).2 _ := popTask_emits hlookup
  have hrun := hcreate.trans hpop
  rw [register, popTask_insert now w.taskIdSeed (.ofTask task) (.ofTask task)
    { w with
      taskIdSeed := w.taskIdSeed + 1
      taskUfrags := w.taskUfrags.insert task.ufrag w.taskIdSeed }] at hrun
  exact hrun

theorem handleRequest_emits {arrival : HttpArrival Rtc} {w w' : Worker Rtc}
    {actions : List Action} (hadmits : admits w arrival.config)
    (h : w.handleRequest ext arrival = .ok (w', actions)) :
    Emits (Step ext admits) w actions w' := by
  obtain ⟨req, -, ⟨task, hopen, hadd⟩ | ⟨rfl, rfl⟩⟩ := handleRequest_ok h
  · cases hadd
    exact addTask_emits hopen hadmits
  · exact .single (.notFound w' req)

/-- What polling whoever has this id comes to. -/
theorem popOne_cases {now : Instant} {taskId : Nat} {w w' : Worker Rtc} {actions : List Action}
    (h : w.popOne ext now taskId = .ok (w', actions)) :
    (w.tasks.lookup taskId = none ∧ w' = w ∧ actions = []) ∨
      ∃ c, w.tasks.lookup taskId = some c ∧ w' = (w.popTask ext now taskId c).1 ∧
        actions = (w.popTask ext now taskId c).2 := by
  unfold popOne at h
  split at h
  · rename_i hc
    cases h
    exact .inl ⟨hc, rfl, rfl⟩
  · rename_i c hc
    cases h
    exact .inr ⟨c, hc, rfl, rfl⟩

theorem popOne_filterMap_nil {β : Type*} {f : Action → Option β} {now : Instant} {taskId : Nat}
    {w w' : Worker Rtc} {actions : List Action} (hpolled : ∀ x, f (.polled taskId x) = none)
    (hperformed : ∀ o, f (performed taskId o) = none)
    (h : w.popOne ext now taskId = .ok (w', actions)) : actions.filterMap f = [] := by
  rcases popOne_cases h with ⟨-, -, rfl⟩ | ⟨c, -, -, rfl⟩
  · rfl
  · exact popTask_filterMap_nil hpolled hperformed now c w

theorem popOne_emits {now : Instant} {taskId : Nat} {w w' : Worker Rtc} {actions : List Action}
    (h : w.popOne ext now taskId = .ok (w', actions)) : Emits (Step ext admits) w actions w' := by
  rcases popOne_cases h with ⟨-, rfl, rfl⟩ | ⟨container, hc, rfl, rfl⟩
  · exact .refl _
  · exact popTask_emits hc

theorem slot_emits {d : Datagram} {w w' : Worker Rtc} {found : Option Nat}
    {actions : List Action} (h : w.slot ext d = .ok (found, w', actions)) :
    Emits (Step ext admits) w actions w' := by
  rcases slot_ok h with ⟨rfl, rfl⟩ | ⟨username, taskId, hremote, hufrag, rfl, rfl⟩
  · exact .refl _
  · exact .single (.bind hremote hufrag)

theorem handleDatagram_emits {d : Datagram} {w w' : Worker Rtc} {actions : List Action}
    (h : w.handleDatagram ext d = .ok (w', actions)) : Emits (Step ext admits) w actions w' := by
  obtain ⟨found, u, acts, hslot, ⟨rfl, rfl⟩ | ⟨taskId, v, fed, popped, hin, hpop, rfl⟩⟩ :=
    handleDatagram_ok h
  · exact slot_emits hslot
  · have hfeed : Emits (Step ext admits) u fed v := .single (.input _ _ _ _ _ hin)
    exact (slot_emits hslot).trans (hfeed.trans (popOne_emits hpop))

theorem popEndedTasks_emits {w w' : Worker Rtc} {actions : List Action}
    (h : w.popEndedTasks = .ok (w', actions)) : Emits (Step ext admits) w actions w' := by
  have htake : Emits (Step ext admits) w [] { w with endedTasks := [] } :=
    .single (.takeEnded w)
  have hrun := forEach_preserves
    (P := fun os s => Emits (Step ext admits) w os s)
    (fun taskId s t os bs hs hrun => hrun.tail (.remove taskId hs)) h htake
  simpa using hrun

variable (ext) (admits)

/-- One turn, under what is assumed of the credentials a new session draws. -/
def Turn (w : Worker Rtc) (actions : List Action) (w' : Worker Rtc) : Prop :=
  ∃ op : Op Rtc, (∀ arrival, op = .request arrival → admits w arrival.config) ∧
    w.exec ext op = .ok (w', actions)

variable {ext} {admits}

/-- **Whatever a turn does, some small steps do.** -/
theorem exec_emits {w w' : Worker Rtc} {actions : List Action}
    (h : Turn ext admits w actions w') : Emits (Step ext admits) w actions w' := by
  obtain ⟨op, hadmits, hexec⟩ := h
  cases op with
  | busEvent ev now => exact .single (.busEvent ev now hexec)
  | request arrival => exact handleRequest_emits (hadmits arrival rfl) hexec
  | tick order now => exact .single (.tick order now hexec)
  | pop taskId now => exact popOne_emits hexec
  | popEnded => exact popEndedTasks_emits hexec
  | datagram d => exact handleDatagram_emits hexec

/-! ### Every cycle is a run of turns -/

/-- The turns of a cycle, phase by phase. -/
def Cycle.phases (c : Cycle Rtc) : List (List (Op Rtc)) :=
  [c.busEvents.map fun e => .busEvent e.1 e.2,
    c.requests.map .request,
    [.tick c.tickOrder c.tickAt],
    c.popOrder.map fun taskId => .pop taskId c.popAt,
    [.popEnded],
    c.datagrams.map .datagram]

/-- One cycle is its turns, one after another, and fails where one of them fails. -/
theorem processCycle_eq (c : Cycle Rtc) (w : Worker Rtc) :
    processCycle ext c w = forEach (exec ext) c.phases.flatten w := by
  have hphases : [processBusRecv ext c.busEvents, processHttp ext c.requests,
      processTick ext c.tickOrder c.tickAt, popTasks ext c.popOrder c.popAt, popEndedTasks,
      processUdp ext c.datagrams] = c.phases.map fun ops => forEach (exec ext) ops := by
    simp only [Cycle.phases, List.map_cons, List.map_nil, List.cons.injEq, and_true]
    refine ⟨?_, ?_, ?_, ?_, ?_, ?_⟩ <;> funext v
    · rw [forEach_map]
      rfl
    · rw [forEach_map]
      rfl
    · rw [forEach_singleton]
      rfl
    · rw [forEach_map]
      rfl
    · rw [forEach_singleton]
      rfl
    · rw [forEach_map]
      rfl
  rw [processCycle, hphases, forEach_map, forEach_flatten]

end Worker

end MediaServer
