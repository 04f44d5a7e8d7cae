/-
A worker is no more than its sessions, each by itself.

A session is served out of a map it shares with others, through channels, a socket and
queues that are everybody's.  Still it runs as it would alone: a worker's log can be
tagged with sessions so that what bears a session's tag is what a run of its own calls
would have logged, from the state its request gave it to the one it is in now.  What is
left without a tag is the worker's own: what it takes from the bus, the requests it does
not know, and the coming and going of sessions.
-/
import MediaServer.Lib.Family
import MediaServer.Proofs.Lives
import MediaServer.Proofs.Translation

namespace MediaServer

open Lib

variable {Rtc : Type} {n : Nat} {ext : Extern Rtc} {admits : Worker Rtc → RtcConfig Rtc → Prop}

/-- The lines that are a worker's own, and no session's. -/
def Action.isOwn : Action → Bool
  | .created _ _ | .bound _ _ | .read _ | .send _ | .removed _ => true
  | _ => false

/-- A call on the session `taskId`, with what it leaves in its worker's log. -/
def ComposeTask.serve (ext : Extern Rtc) (taskId : Nat) :
    Call → ComposeTask Rtc → Except Panic (ComposeTask Rtc × List Action)
  | .tick now, task => .ok ((task.tick ext now).2, [])
  | .input now event, task => (task.input ext now event).map fun r =>
      (r.2, .input taskId event ::
        ((task.rtpWrite ext event).map fun r => .writeRtp taskId r.1 r.2).toList)
  | .popAction now, task =>
      .ok ((task.popAction ext now).2,
        popActions taskId (task.polled ext now) (task.popAction ext now).1)

/-- The session a request is given by its constructor. -/
inductive Worker.Builds (ext : Extern Rtc) (config : RtcConfig Rtc) (req : HttpRequest)
    (addr : SocketAddr) : ComposeTask Rtc → Prop
  | whip {task : WhipServerTask Rtc} (hpath : req.path = "/whip/endpoint")
      (h : WhipServerTask.new ext config req [addr] = .ok task) :
      Builds ext config req addr (.whip task)
  | whep {task : WhepServerTask Rtc} (hpath : req.path = "/whep/endpoint")
      (h : WhepServerTask.new ext config req [addr] = .ok task) :
      Builds ext config req addr (.whep task)

namespace Worker

variable {w w' : Worker Rtc} {actions : List Action}

theorem Builds.opened {config : RtcConfig Rtc} {req : HttpRequest} {addr : SocketAddr}
    {task : ComposeTask Rtc} (h : Builds ext config req addr task) :
    Opened ext config req task := by
  cases h with
  | whip hpath hnew => exact whip_opened hpath hnew
  | whep hpath hnew => exact whep_opened hpath hnew

/-- A request that is handled has a session built for it, or was answered with a 404. -/
theorem handleRequest_builds {arrival : HttpArrival Rtc}
    (h : w.handleRequest ext arrival = .ok (w', actions)) :
    ∃ req, (∃ task, Builds ext arrival.config req w.udpSocketLocalAddr task ∧
        w.addTask ext arrival.now req task = (w', actions)) ∨
      (w' = w ∧ actions = [.send (notFound req)]) := by
  unfold handleRequest at h
  split at h
  · rename_i req hreq
    refine ⟨req, ?_⟩
    split at h
    · rename_i hpath
      obtain ⟨task, hnew, hadd⟩ := except_map_ok.mp h
      exact .inl ⟨_, .whip hpath hnew, hadd⟩
    · split at h
      · rename_i hpath
        obtain ⟨task, hnew, hadd⟩ := except_map_ok.mp h
        exact .inl ⟨_, .whep hpath hnew, hadd⟩
      · cases h
        exact .inr ⟨rfl, rfl⟩
  · cases h

/-! ### What serves each session by itself -/

/-- The sessions of a worker, without what the worker keeps about them. -/
def sessions (w : Worker Rtc) (t : Nat) : Option (ComposeTask Rtc) :=
  (w.tasks.lookup t).map TaskContainer.task

theorem sessions_eq_some {t : Nat} {task : ComposeTask Rtc} :
    w.sessions t = some task ↔ ∃ c, w.tasks.lookup t = some c ∧ c.task = task :=
  Option.map_eq_some_iff

theorem sessions_eq_none {t : Nat} : w.sessions t = none ↔ w.tasks.lookup t = none :=
  Option.map_eq_none_iff

/-- No session comes or goes, and each is served by itself. -/
structure ServedApart (ext : Extern Rtc) (w : Worker Rtc) (actions : List Action)
    (w' : Worker Rtc) : Prop where
  taskIdSeed : w'.taskIdSeed = w.taskIdSeed
  localAddr : w'.udpSocketLocalAddr = w.udpSocketLocalAddr
  tagged : ∃ log, log.map Prod.snd = actions ∧
    Apart (ComposeTask.serve ext) w.sessions log w'.sessions ∧
      ∀ e ∈ log, e.1 = none → e.2.isOwn = true

namespace ServedApart

variable {u : Worker Rtc} {bs : List Action}

/-- Nobody is served. -/
theorem idle (hseed : w'.taskIdSeed = w.taskIdSeed)
    (haddr : w'.udpSocketLocalAddr = w.udpSocketLocalAddr)
    (hsame : ∀ t, w'.sessions t = w.sessions t) (hown : ∀ a ∈ actions, a.isOwn = true) :
    ServedApart ext w actions w' := by
  refine ⟨hseed, haddr, actions.map (Prod.mk none), by simp, .idle (fun e he => ?_) hsame,
    fun e he _ => ?_⟩
  · obtain ⟨a, -, rfl⟩ := List.mem_map.mp he
    rfl
  · obtain ⟨a, ha, rfl⟩ := List.mem_map.mp he
    exact hown a ha

/-- One session is called. -/
theorem call {taskId : Nat} {c : TaskContainer Rtc} {task : ComposeTask Rtc} {a : Call}
    (hc : w.tasks.lookup taskId = some c)
    (hcall : c.task.serve ext taskId a = .ok (task, actions))
    (hseed : w'.taskIdSeed = w.taskIdSeed)
    (haddr : w'.udpSocketLocalAddr = w.udpSocketLocalAddr)
    (hsessions : ∀ t, w'.sessions t = if t = taskId then some task else w.sessions t) :
    ServedApart ext w actions w' := by
  refine ⟨hseed, haddr, actions.map (Prod.mk (some taskId)), by simp,
    .call (sessions_eq_some.mpr ⟨c, hc, rfl⟩) hcall hsessions, fun e he hnone => ?_⟩
  obtain ⟨a, -, rfl⟩ := List.mem_map.mp he
  cases hnone

theorem refl (ext : Extern Rtc) (w : Worker Rtc) : ServedApart ext w [] w :=
  idle rfl rfl (fun _ => rfl) (by simp)

theorem trans (h₁ : ServedApart ext u actions w) (h₂ : ServedApart ext w bs w') :
    ServedApart ext u (actions ++ bs) w' := by
  obtain ⟨log₁, rfl, hapart₁, hown₁⟩ := h₁.tagged
  obtain ⟨log₂, rfl, hapart₂, hown₂⟩ := h₂.tagged
  refine ⟨h₂.taskIdSeed.trans h₁.taskIdSeed, h₂.localAddr.trans h₁.localAddr, log₁ ++ log₂,
    List.map_append, hapart₁.trans hapart₂, fun e he => ?_⟩
  rcases List.mem_append.mp he with he | he
  · exact hown₁ e he
  · exact hown₂ e he

end ServedApart

/-- Writing one session into the map changes that session. -/
theorem sessions_insert (w : Worker Rtc) (taskId : Nat) (c : TaskContainer Rtc) (t : Nat) :
    ({ w with tasks := w.tasks.insert taskId c } : Worker Rtc).sessions t
      = if t = taskId then some c.task else w.sessions t := by
  rw [sessions, sessions, Table.lookup_insert_ite]
  split <;> rfl

theorem inputTask_apart {now : Instant} {event : WebrtcTaskInput} {taskId : Nat}
    (h : w.inputTask ext now event taskId = .ok (w', actions)) : ServedApart ext w actions w' := by
  rcases inputTask_ok h with ⟨-, rfl, rfl⟩ | ⟨c, b, task, hc, hinput, rfl, rfl⟩
  · exact .refl ext _
  · have hcall : c.task.serve ext taskId (.input now event) = .ok (task, .input taskId event ::
        ((c.task.rtpWrite ext event).map fun r => .writeRtp taskId r.1 r.2).toList) := by
      rw [ComposeTask.serve, hinput]
      rfl
    exact .call hc hcall rfl rfl (sessions_insert w taskId { c with task })

theorem handleBusEvent_apart {ev : BusEvent} {now : Instant}
    (h : w.handleBusEvent ext ev now = .ok (w', actions)) : ServedApart ext w actions w' := by
  obtain ⟨fed, hrun, rfl⟩ := handleBusEvent_ok h
  have hread : ServedApart ext w [.read ev] w :=
    .idle rfl rfl (fun _ => rfl) (by simp [Action.isOwn])
  exact hread.trans (forEach_preserves (P := fun os u => ServedApart ext w os u)
    (fun taskId u v os bs hs hu => hu.trans (inputTask_apart hs)) hrun (.refl ext w))

theorem processTick_apart {order : List Nat} {now : Instant}
    (h : w.processTick ext order now = .ok (w', actions)) : ServedApart ext w actions w' := by
  refine forEach_preserves (P := fun os u => ServedApart ext w os u) ?_ h (.refl ext w)
  intro taskId u v os bs hs hu
  cases hs
  refine hu.trans ?_
  rw [tickTask]
  split
  · exact .refl ext u
  · rename_i c hc
    have hcall : c.task.serve ext taskId (.tick now) = .ok ((c.task.tick ext now).2, []) := rfl
    exact .call hc hcall rfl rfl (sessions_insert u taskId _)

theorem popTask_apart {now : Instant} {taskId : Nat} {c : TaskContainer Rtc}
    (h : w.tasks.lookup taskId = some c) :
    ServedApart ext w (w.popTask ext now taskId c).2 (w.popTask ext now taskId c).1 := by
  refine popTask_turns (P := fun os u => ServedApart ext w os u) ?_ h (.refl ext w)
  intro os u c out task hc hpop hu
  have hcall : c.task.serve ext taskId (.popAction now)
      = .ok (task, popActions taskId (c.task.polled ext now) out) := by
    rw [ComposeTask.serve, hpop]
  refine hu.trans (.call hc hcall rfl rfl fun t => ?_)
  rw [sessions, sessions, performOn_lookup]
  split <;> rfl

theorem popOne_apart {now : Instant} {taskId : Nat}
    (h : w.popOne ext now taskId = .ok (w', actions)) : ServedApart ext w actions w' := by
  rcases popOne_cases h with ⟨-, rfl, rfl⟩ | ⟨c, hc, rfl, rfl⟩
  · exact .refl ext _
  · exact popTask_apart hc

theorem slot_apart {d : Datagram} {found : Option Nat}
    (h : w.slot ext d = .ok (found, w', actions)) : ServedApart ext w actions w' := by
  rcases slot_ok h with ⟨rfl, rfl⟩ | ⟨username, taskId, -, -, rfl, rfl⟩
  · exact .refl ext _
  · -- The address is noted with the session, not in it.
    refine .idle rfl rfl (fun t => ?_) (by simp [Action.isOwn])
    rw [sessions, sessions, bind_lookup]
    split
    · rename_i ht
      rw [ht, Option.map_map]
      rfl
    · rfl

theorem handleDatagram_apart {d : Datagram} (h : w.handleDatagram ext d = .ok (w', actions)) :
    ServedApart ext w actions w' := by
  obtain ⟨found, u, acts, hslot, ⟨rfl, rfl⟩ | ⟨taskId, v, fed, popped, hin, hpop, rfl⟩⟩ :=
    handleDatagram_ok h
  · exact slot_apart hslot
  · exact (slot_apart hslot).trans ((inputTask_apart hin).trans (popOne_apart hpop))

end Worker

/-! ### Every session is accounted for -/

/-- The session `t` is where the calls on it, as logged, have taken it from its request. -/
def Told (ext : Extern Rtc) (addr : SocketAddr) (t : Nat) (log : List (Option Nat × Action))
    (task : ComposeTask Rtc) : Prop :=
  ∃ req config start calls, (none, .created t req) ∈ log ∧
    Worker.Builds ext config req addr start ∧
    forEach (ComposeTask.serve ext t) calls start = .ok (task, own t log)

structure Accounted (ext : Extern Rtc) (addr : SocketAddr) (log : List (Option Nat × Action))
    (w : Worker Rtc) : Prop where
  localAddr : w.udpSocketLocalAddr = addr
  told : ∀ t, t < w.taskIdSeed → ∃ task, Told ext addr t log task ∧
    ∀ c, w.tasks.lookup t = some c → c.task = task
  unborn : ∀ t, w.taskIdSeed ≤ t → own t log = []
  owned : ∀ e ∈ log, e.1 = none → e.2.isOwn = true

theorem accounted_new (ext : Extern Rtc) (addr : SocketAddr) :
    Accounted ext addr [] (Worker.new addr : Worker Rtc) :=
  ⟨rfl, fun t ht => absurd ht (Nat.not_lt_zero t), fun _ _ => rfl, by simp⟩

theorem Told.extend {addr : SocketAddr} {t : Nat} {log more : List (Option Nat × Action)}
    {task task' : ComposeTask Rtc} (h : Told ext addr t log task) (calls : List Call)
    (hrun : forEach (ComposeTask.serve ext t) calls task = .ok (task', own t more)) :
    Told ext addr t (log ++ more) task' := by
  obtain ⟨req, config, start, earlier, hcreated, hbuilds, hearlier⟩ := h
  refine ⟨req, config, start, earlier ++ calls, List.mem_append_left _ hcreated, hbuilds, ?_⟩
  rw [forEach_append, hearlier, own_append]
  simp only [hrun, Except.map]

namespace Accounted

variable {addr : SocketAddr} {log : List (Option Nat × Action)} {w w' : Worker Rtc}
  {actions : List Action}

theorem append_owned {more : List (Option Nat × Action)} (h : Accounted ext addr log w)
    (hmore : ∀ e ∈ more, e.1 = none → e.2.isOwn = true) :
    ∀ e ∈ log ++ more, e.1 = none → e.2.isOwn = true := by
  intro e he
  rcases List.mem_append.mp he with he | he
  · exact h.owned e he
  · exact hmore e he

theorem apart (h : Accounted ext addr log w) (hb : Bounded w)
    (hserved : Worker.ServedApart ext w actions w') :
    ∃ more, more.map Prod.snd = actions ∧ Accounted ext addr (log ++ more) w' := by
  obtain ⟨more, hactions, hapart, hown⟩ := hserved.tagged
  refine ⟨more, hactions, hserved.localAddr.trans h.localAddr, fun t ht => ?_, fun t ht => ?_,
    h.append_owned hown⟩
  · obtain ⟨task, htold, hnow⟩ := h.told t (hserved.taskIdSeed ▸ ht)
    cases hc : w.tasks.lookup t with
    | none =>
        obtain ⟨hgone, hsilent⟩ := hapart.silent t (Worker.sessions_eq_none.mpr hc)
        refine ⟨task, htold.extend [] (by rw [hsilent, forEach_nil]), fun c hc' => ?_⟩
        rw [Worker.sessions_eq_none.mp hgone] at hc'
        cases hc'
    | some c =>
        obtain ⟨calls, task', hafter, hrun⟩ :=
          hapart.live t c.task (Worker.sessions_eq_some.mpr ⟨c, hc, rfl⟩)
        rw [hnow c hc] at hrun
        refine ⟨task', htold.extend calls hrun, fun c' hc' => ?_⟩
        obtain ⟨c'', hc'', htask⟩ := Worker.sessions_eq_some.mp hafter
        rw [hc'] at hc''
        cases hc''
        exact htask
  · rw [hserved.taskIdSeed] at ht
    have hfresh := Worker.sessions_eq_none.mpr (hb.lookup_none ht)
    rw [own_append, h.unborn t ht, (hapart.silent t hfresh).2]
    rfl

/-- A session comes, as its constructor gives it. -/
theorem register (h : Accounted ext addr log w) {config : RtcConfig Rtc} {req : HttpRequest}
    {task : ComposeTask Rtc} (hbuilds : Worker.Builds ext config req addr task) :
    Accounted ext addr (log ++ [(none, .created w.taskIdSeed req)]) (w.register task) := by
  have hsame : ∀ t, own t [((none : Option Nat), Action.created w.taskIdSeed req)] = [] :=
    fun _ => rfl
  refine ⟨h.localAddr, fun t ht => ?_, fun t ht => ?_, h.append_owned (by simp [Action.isOwn])⟩
  · simp only [Worker.register_lookup]
    by_cases hnew : t = w.taskIdSeed
    · subst hnew
      refine ⟨task, ⟨req, config, task, [], by simp, hbuilds, ?_⟩, fun c hc => ?_⟩
      · rw [own_append, h.unborn _ (Nat.le_refl _), hsame]
        rfl
      · rw [if_pos rfl] at hc
        cases hc
        rfl
    · obtain ⟨task', htold, hnow⟩ :=
        h.told t (Nat.lt_of_le_of_ne (Nat.le_of_lt_succ ht) hnew)
      refine ⟨task', htold.extend [] (by rw [hsame, forEach_nil]), fun c hc => ?_⟩
      rw [if_neg hnew] at hc
      exact hnow c hc
  · rw [own_append, h.unborn t (Nat.le_of_succ_le ht), hsame]
    rfl

/-- A session goes, and stays as it was. -/
theorem without (h : Accounted ext addr log w) (taskId : Nat) (c : TaskContainer Rtc) :
    Accounted ext addr (log ++ [(none, .removed taskId)]) (w.without taskId c) := by
  have hsame : ∀ t, own t [((none : Option Nat), Action.removed taskId)] = [] := fun _ => rfl
  refine ⟨h.localAddr, fun t ht => ?_, fun t ht => ?_, h.append_owned (by simp [Action.isOwn])⟩
  · obtain ⟨task, htold, hnow⟩ := h.told t ht
    refine ⟨task, htold.extend [] (by rw [hsame, forEach_nil]), fun c' hc' => ?_⟩
    exact hnow c' (Worker.without_lookup_some hc').2
  · rw [own_append, h.unborn t ht, hsame]
    rfl

theorem turn (h : Accounted ext addr log w) (hb : Bounded w) {op : Op Rtc}
    (hexec : w.exec ext op = .ok (w', actions)) :
    ∃ more, more.map Prod.snd = actions ∧ Accounted ext addr (log ++ more) w' := by
  cases op with
  | busEvent ev now => exact h.apart hb (Worker.handleBusEvent_apart hexec)
  | request arrival =>
      obtain ⟨req, ⟨task, hbuilds, hadd⟩ | ⟨rfl, rfl⟩⟩ := Worker.handleRequest_builds hexec
      · cases hadd
        have hlookup : (w.register task).tasks.lookup w.taskIdSeed = some (.ofTask task) := by
          simp [Worker.register]
        have hserved : Worker.ServedApart ext (w.register task)
            (Worker.popTask ext arrival.now _ _ _).2 _ := Worker.popTask_apart hlookup
        rw [Worker.register, Worker.popTask_insert arrival.now w.taskIdSeed (.ofTask task)
          (.ofTask task) { w with
            taskIdSeed := w.taskIdSeed + 1
            taskUfrags := w.taskUfrags.insert task.ufrag w.taskIdSeed }] at hserved
        have hcreate : Step ext (fun _ _ => True) w _ (w.register task) :=
          .create hbuilds.opened trivial
        have hbounded := hb.step hcreate
        rw [h.localAddr] at hbuilds
        obtain ⟨more, hactions, haccounted⟩ := (h.register hbuilds).apart hbounded hserved
        rw [List.append_assoc] at haccounted
        exact ⟨_, by rw [List.map_append, hactions]; rfl, haccounted⟩
      · exact h.apart hb (.idle rfl rfl (fun _ => rfl) (by simp [Action.isOwn]))
  | tick order now => exact h.apart hb (Worker.processTick_apart hexec)
  | pop taskId now => exact h.apart hb (Worker.popOne_apart hexec)
  | popEnded =>
      have htaken : Accounted ext addr (log ++ []) { w with endedTasks := [] } := by
        rw [List.append_nil]
        exact ⟨h.localAddr, h.told, h.unborn, h.owned⟩
      refine forEach_preserves (P := fun os u => ∃ more, more.map Prod.snd = os ∧
        Accounted ext addr (log ++ more) u) ?_ hexec ⟨[], rfl, htaken⟩
      rintro taskId u v os bs hs ⟨more, rfl, hu⟩
      obtain ⟨c, -, rfl, rfl⟩ := Worker.removeTask_ok.mp hs
      refine ⟨more ++ [(none, .removed taskId)], List.map_append, ?_⟩
      rw [← List.append_assoc]
      exact hu.without taskId c
  | datagram d => exact h.apart hb (Worker.handleDatagram_apart hexec)

end Accounted

theorem Worker.Reaches.accounted {addr : SocketAddr} {actions : List Action} {w : Worker Rtc}
    (h : Worker.Reaches ext admits addr actions w) :
    ∃ log, log.map Prod.snd = actions ∧ Accounted ext addr log w := by
  induction h with
  | refl => exact ⟨[], rfl, accounted_new ext addr⟩
  | tail hprev hturn ih =>
      have hreach : Worker.Reaches ext admits addr _ _ := hprev
      obtain ⟨log, rfl, hlog⟩ := ih
      obtain ⟨op, -, hexec⟩ := hturn
      obtain ⟨more, rfl, hmore⟩ := hlog.turn hreach.bounded hexec
      exact ⟨log ++ more, List.map_append, hmore⟩

/--
**Sessions run alone.**  In every run of the server the log of each worker can be tagged
with sessions: what bears no tag is the worker's own, and what bears the tag of a session
is what a run of calls on that session by itself has logged, from the state its
constructor gave it for a request this worker took, to the state it is in now, or was in
when it was removed.  Nothing bears the tag of an id that was not given out.
-/
theorem sessions_run_alone {localAddrs : Fin n → SocketAddr} {entries : List (Entry n)}
    {s : Server n Rtc} (h : Server.Reaches ext localAddrs entries s) (v : Fin n) :
    ∃ log : List (Option Nat × Action), log.map Prod.snd = actionsOf v entries ∧
      (∀ e ∈ log, e.1 = none → e.2.isOwn = true) ∧
      ∀ t, ((s.slots v).worker.taskIdSeed ≤ t ∧ own t log = []) ∨
        ∃ req config start calls task, (none, .created t req) ∈ log ∧
          Worker.Builds ext config req (localAddrs v) start ∧
          forEach (ComposeTask.serve ext t) calls start = .ok (task, own t log) ∧
          ∀ c, (s.slots v).worker.tasks.lookup t = some c → c.task = task := by
  obtain ⟨log, hlog, haccounted⟩ := (h.journal.worker v).accounted
  refine ⟨log, hlog, haccounted.owned, fun t => ?_⟩
  by_cases hseed : (s.slots v).worker.taskIdSeed ≤ t
  · exact .inl ⟨hseed, haccounted.unborn t hseed⟩
  · obtain ⟨task, ⟨req, config, start, calls, hcreated, hbuilds, hrun⟩, hnow⟩ :=
      haccounted.told t (Nat.lt_of_not_le hseed)
    exact .inr ⟨req, config, start, calls, task, hcreated, hbuilds, hrun, hnow⟩

/-- The viewer that came and went has run by itself. -/
theorem sessions_run_alone_visiting :
    ∃ log : List (Option Nat × Action),
      log.map Prod.snd = actionsOf 0 (Server.record Script.engine (Server.new fun _ => Script.addr)
        (Script.visiting (0 : Fin 1))) ∧
      ∃ req config start calls task, Worker.Builds Script.engine config req Script.addr start ∧
        forEach (ComposeTask.serve Script.engine 0) calls start = .ok (task, own 0 log) := by
  obtain ⟨s, hs, hseed, -⟩ := Script.visiting_reaches
  obtain ⟨log, hlog, -, hsessions⟩ := sessions_run_alone (Server.reaches_of_run _ hs) 0
  refine ⟨log, hlog, ?_⟩
  rcases hsessions 0 with ⟨hunborn, -⟩ | ⟨req, config, start, calls, task, -, hbuilds, hrun, -⟩
  · rw [hseed] at hunborn
    omega
  · exact ⟨req, config, start, calls, task, hbuilds, hrun⟩

/-! ### What a session does is what its engine has told it to -/

/-- The lines an action a session has returned leaves. -/
def Action.isPerformed : Action → Bool
  | .sendTo _ _ | .trySend _ | .broadcast _ _ | .ended _ | .published _ _ | .subscribed _ _ => true
  | _ => false

theorem performed_isPerformed (taskId : Nat) (out : WebrtcTaskOutput) :
    (performed taskId out).isPerformed = true := by
  cases out with
  | io action => cases action <;> rfl
  | _ => rfl

theorem popActions_isPerformed (taskId : Nat) (answer : Option (Except ExternError Output))
    (out : Option WebrtcTaskOutput) :
    (popActions taskId answer out).filter Action.isPerformed
      = out.toList.map (performed taskId) := by
  have hpolled : ((answer.map (Action.polled taskId)).toList).filter Action.isPerformed = [] := by
    cases answer <;> rfl
  rw [popActions, List.filter_append, hpolled, List.nil_append]
  cases out with
  | none => rfl
  | some o => simp [performed_isPerformed]

namespace ComposeTask

/-- A call leaves in the log what it brings to light. -/
theorem serve_call {taskId : Nat} {a : Call} {task task' : ComposeTask Rtc} {os : List Action}
    (h : task.serve ext taskId a = .ok (task', os)) :
    ∃ seen, task.call ext a = .ok (task', seen) ∧
      os.filter Action.isPerformed = (Seen.outs seen).map (performed taskId) ∧
      answers taskId os = Seen.answers seen := by
  cases a with
  | tick now =>
      cases h
      exact ⟨[], rfl, rfl, rfl⟩
  | input now event =>
      obtain ⟨r, hinput, heq⟩ := except_map_ok.mp h
      cases heq
      refine ⟨[], by rw [call, hinput]; rfl, ?_, ?_⟩
      · cases task.rtpWrite ext event <;> rfl
      · cases task.rtpWrite ext event <;> rfl
  | popAction now =>
      cases h
      refine ⟨_, rfl, ?_, ?_⟩
      · rw [popActions_isPerformed, Seen.outs_ofPop]
      · rw [answers_popActions, if_pos rfl, Seen.answers_ofPop]

/-- A run of calls performs what it owed and what it was told, less what it owes. -/
theorem serve_conserves {taskId : Nat} {calls : List Call} {start task : ComposeTask Rtc}
    {os : List Action} (h : forEach (serve ext taskId) calls start = .ok (task, os)) :
    os.filter Action.isPerformed ++ task.core.outputs.map (performed taskId)
      = (start.core.outputs
          ++ (answers taskId os).flatMap (start.role.translate ext)).map (performed taskId) := by
  refine (forEach_preserves (P := fun os task => task.role = start.role ∧
    os.filter Action.isPerformed ++ task.core.outputs.map (performed taskId)
      = (start.core.outputs
          ++ (answers taskId os).flatMap (start.role.translate ext)).map (performed taskId))
    ?_ h ⟨rfl, by simp [answers]⟩).2
  rintro a u v os bs hserve ⟨hrole, hlaw⟩
  obtain ⟨seen, hcall, hperformed, hanswers⟩ := serve_call hserve
  obtain ⟨hrole', hlaw'⟩ := call_conserves hcall
  refine ⟨hrole'.trans hrole, ?_⟩
  calc (os ++ bs).filter Action.isPerformed ++ v.core.outputs.map (performed taskId)
      = os.filter Action.isPerformed
          ++ (Seen.outs seen ++ v.core.outputs).map (performed taskId) := by
        rw [List.filter_append, hperformed, List.map_append, List.append_assoc]
    _ = (os.filter Action.isPerformed ++ u.core.outputs.map (performed taskId))
          ++ ((answers taskId bs).flatMap (start.role.translate ext)).map (performed taskId) := by
        rw [hlaw', hrole, hanswers, List.map_append, List.append_assoc]
    _ = (start.core.outputs ++ (answers taskId (os ++ bs)).flatMap
          (start.role.translate ext)).map (performed taskId) := by
        rw [hlaw, answers_append, List.flatMap_append, ← List.map_append, List.append_assoc]

/-- A session's engine is the one polled in its log. -/
theorem serve_polled {taskId : Nat} {calls : List Call} {start task : ComposeTask Rtc}
    {os : List Action} (h : forEach (serve ext taskId) calls start = .ok (task, os)) {t : Nat}
    {answer : Except ExternError Output} (hmem : .polled t answer ∈ os) : t = taskId := by
  refine forEach_preserves (P := fun os _ => .polled t answer ∈ os → t = taskId) ?_ h
    (fun hnil => absurd hnil (by simp)) hmem
  intro a u v os bs hserve hos hmem
  rcases List.mem_append.mp hmem with hmem | hmem
  · exact hos hmem
  · cases a with
    | tick now =>
        cases hserve
        cases hmem
    | input now event =>
        obtain ⟨r, -, heq⟩ := except_map_ok.mp hserve
        cases heq
        cases hw : u.rtpWrite ext event <;> simp [hw] at hmem
    | popAction now =>
        cases hserve
        rcases mem_popActions.mp hmem with ⟨x, -, heq⟩ | ⟨o, -, heq⟩
        · cases heq
          rfl
        · cases o with
          | io action => cases action <;> cases heq
          | _ => cases heq

end ComposeTask

/-- What a session's engine has answered is in the part of the log that is the session's. -/
theorem Accounted.answers_own {addr : SocketAddr} {log : List (Option Nat × Action)}
    {w : Worker Rtc} (h : Accounted ext addr log w) (t : Nat) :
    answers t (own t log) = answers t (log.map Prod.snd) := by
  have htag : ∀ e ∈ log, Action.answer t e.2 ≠ none → e.1 = some t := by
    rintro ⟨tag, a⟩ he hanswer
    cases a with
    | polled u x =>
        have hu : u = t := by
          by_contra hne
          exact hanswer (if_neg hne)
        subst hu
        cases tag with
        | none => cases h.owned _ he rfl
        | some k =>
            have hmem : .polled u x ∈ own k log :=
              List.mem_map.mpr ⟨_, List.mem_filter.mpr ⟨he, by simp⟩, rfl⟩
            have hk : k < w.taskIdSeed := by
              by_contra hge
              rw [h.unborn k (Nat.le_of_not_lt hge)] at hmem
              cases hmem
            obtain ⟨task, ⟨req, config, start, calls, -, -, hrun⟩, -⟩ := h.told k hk
            exact congrArg some (ComposeTask.serve_polled hrun hmem).symm
    | _ => exact absurd rfl hanswer
  rw [answers, answers, own, List.filterMap_map, List.filterMap_map, List.filterMap_filter]
  refine List.filterMap_congr fun e he => ?_
  by_cases hmine : e.1 = some t
  · simp [hmine]
  · have hnone : Action.answer t e.2 = none := by
      by_contra hsome
      exact hmine (htag e he hsome)
    simp [hmine, hnone]

/--
**What a session does is what its engine has told it to.**  In every run of the server
and for every session of every worker, what the session has done so far (datagrams sent,
answers given, events broadcast, tracks joined, its end) and then what it still owes is
the answer to its request and what its engine's answers stand for, one after another in
the order the worker polled them: nothing is lost, done twice or out of turn, and nothing
of another session's is done in its place.
-/
theorem sessions_do_as_told {localAddrs : Fin n → SocketAddr} {entries : List (Entry n)}
    {s : Server n Rtc} (h : Server.Reaches ext localAddrs entries s) (v : Fin n) :
    ∃ log : List (Option Nat × Action), log.map Prod.snd = actionsOf v entries ∧
      (∀ e ∈ log, e.1 = none → e.2.isOwn = true) ∧
      ∀ t, t < (s.slots v).worker.taskIdSeed → ∃ req res owed,
        (none, .created t req) ∈ log ∧ res.reqId = req.reqId ∧
        (own t log).filter Action.isPerformed ++ owed.map (performed t)
          = (.io (.httpResponse res) :: (answers t (actionsOf v entries)).flatMap
              ((Role.ofRequest ext req).translate ext)).map (performed t) ∧
        ∀ c, (s.slots v).worker.tasks.lookup t = some c → c.task.core.outputs = owed := by
  obtain ⟨log, hlog, haccounted⟩ := (h.journal.worker v).accounted
  refine ⟨log, hlog, haccounted.owned, fun t ht => ?_⟩
  obtain ⟨task, ⟨req, config, start, calls, hcreated, hbuilds, hrun⟩, hnow⟩ :=
    haccounted.told t ht
  obtain ⟨res, houtputs, hreqId⟩ := hbuilds.opened.outputs
  refine ⟨req, res, task.core.outputs, hcreated, hreqId, ?_, fun c hc => by rw [hnow c hc]⟩
  rw [ComposeTask.serve_conserves hrun, houtputs, hbuilds.opened.role, haccounted.answers_own,
    hlog]
  rfl

/-- The viewer that came and went has done what its engine's three answers stand for. -/
theorem sessions_do_as_told_visiting :
    ∃ (log : List (Option Nat × Action)) (req : HttpRequest) (res : HttpResponse)
      (owed : List WebrtcTaskOutput),
      log.map Prod.snd = actionsOf 0 (Server.record Script.engine (Server.new fun _ => Script.addr)
        (Script.visiting (0 : Fin 1))) ∧
      (own 0 log).filter Action.isPerformed ++ owed.map (performed 0)
        = (.io (.httpResponse res) :: [.ok (.event .connected),
            .ok (.event (.iceConnectionStateChange .disconnected)), .ok (.timeout 0)].flatMap
              ((Role.ofRequest Script.engine req).translate Script.engine)).map (performed 0) := by
  have hanswers : answers 0 (actionsOf 0 (Server.record Script.engine
      (Server.new fun _ => Script.addr) (Script.visiting (0 : Fin 1))))
        = [.ok (.event .connected), .ok (.event (.iceConnectionStateChange .disconnected)),
          .ok (.timeout 0)] := by
    decide +kernel
  obtain ⟨s, hs, hseed, -⟩ := Script.visiting_reaches
  obtain ⟨log, hlog, -, hsessions⟩ := sessions_do_as_told (Server.reaches_of_run _ hs) 0
  obtain ⟨req, res, owed, -, -, hdone, -⟩ :=
    hsessions 0 (by rw [hseed]; exact Nat.one_pos)
  rw [hanswers] at hdone
  exact ⟨log, req, res, owed, hlog, hdone⟩

end MediaServer
