/-
Which input reaches which session.

Publishers and viewers live in one map, and a channel lists both by number only.  A
publisher panics on media and a viewer on a keyframe request, so that neither ever
happens rests on the numbers: an id among the consumers of a channel, if it is still
that of a live session, is a viewer's, and one among the sources is a publisher's.

The invariant behind it looks at what a session owes as well as at what it has
joined.  A session of either kind only ever asks to join tracks on its own side
(`Role.side`), which is read off the translation of the engine's answers; and an id
that a list has kept after its session is gone is never handed out again.
-/
import MediaServer.Proofs.Registry

namespace MediaServer

open Lib

variable {Rtc : Type} {ext : Extern Rtc} {admits : Worker Rtc → RtcConfig Rtc → Prop}

/-! ### A session joins on one side -/

/-- The side a session joins tracks on: a publisher's keyframe requests, a viewer's media. -/
def Role.side : Role → Side
  | .publisher _ _ => .keyframe
  | .viewer _ => .media

theorem Role.translateEvent_joins {role : Role} {e : Event} {out : WebrtcTaskOutput}
    (h : out ∈ role.translateEvent ext e) {side : Side} {trackId : UInt64}
    (hj : side.joins out = some trackId) : role.side = side := by
  unfold translateEvent at h
  split at h
  · simp only [List.mem_cons, List.not_mem_nil, or_false] at h
    rcases h with rfl | rfl <;> cases side <;> simp [Side.joins, Role.side] at hj ⊢
  · simp only [List.mem_cons, List.not_mem_nil, or_false] at h
    rcases h with rfl | rfl <;> cases side <;> simp [Side.joins, Role.side] at hj ⊢
  · cases List.mem_singleton.mp h
    cases side <;> simp [Side.joins] at hj
  · cases List.mem_singleton.mp h
    cases side <;> simp [Side.joins] at hj
  · cases List.mem_singleton.mp h
    cases side <;> simp [Side.joins] at hj
  · cases h

theorem Role.translate_joins {role : Role} {answer : Except ExternError Output}
    {out : WebrtcTaskOutput} (h : out ∈ role.translate ext answer) {side : Side}
    {trackId : UInt64} (hj : side.joins out = some trackId) : role.side = side := by
  unfold translate at h
  split at h
  · cases h
  · cases h
  · cases List.mem_singleton.mp h
    cases side <;> simp [Side.joins] at hj
  · exact translateEvent_joins h hj

/-- Every session joins, and owes to join, on its own side only. -/
structure Sided (w : Worker Rtc) : Prop where
  joined : ∀ (side : Side) trackId, ∀ t ∈ side.ids w.busChannels trackId,
    ∀ c, w.tasks.lookup t = some c → c.task.role.side = side
  owed : ∀ t c, w.tasks.lookup t = some c → ∀ out ∈ c.task.core.outputs,
    ∀ (side : Side) trackId, side.joins out = some trackId → c.task.role.side = side

theorem sided_new (addr : SocketAddr) : Sided (Worker.new addr : Worker Rtc) :=
  ⟨by simp [Worker.new], by simp [Worker.new]⟩

/-- What a session returns or still owes after a call it owed before, or the engine said. -/
theorem ComposeTask.Popped.source {now : Instant} {task task' : ComposeTask Rtc}
    {out : Option WebrtcTaskOutput} (h : Popped ext now task out task') {o : WebrtcTaskOutput}
    (ho : o ∈ out.toList ++ task'.core.outputs) :
    o ∈ task.core.outputs ∨
      ∃ answer, task.polled ext now = some answer ∧ o ∈ task.role.translate ext answer := by
  rw [h.core.conserves, List.mem_append] at ho
  refine ho.imp_right fun ho => ?_
  cases hp : task.core.polled ext now with
  | none => simp [hp] at ho
  | some answer => exact ⟨answer, hp, by simpa [hp] using ho⟩

namespace Sided

theorem popped {w : Worker Rtc} (h : Sided w) {taskId : Nat} {container : TaskContainer Rtc}
    {now : Instant} {out : Option WebrtcTaskOutput} {task : ComposeTask Rtc}
    (hl : w.tasks.lookup taskId = some container)
    (hp : ComposeTask.Popped ext now container.task out task) {o : WebrtcTaskOutput}
    (ho : o ∈ out.toList ++ task.core.outputs) {side : Side} {trackId : UInt64}
    (hj : side.joins o = some trackId) : task.role.side = side := by
  rw [hp.role]
  rcases hp.source ho with howed | ⟨answer, -, hsaid⟩
  · exact h.owed taskId container hl o howed side trackId hj
  · exact Role.translate_joins hsaid hj

theorem quiet {w w' : Worker Rtc} (hq : Worker.Quiet w w') (h : Sided w) : Sided w' := by
  refine ⟨?_, ?_⟩
  · intro side trackId t ht c' hc'
    obtain ⟨c, hc, -, hqt⟩ := hq.lookup hc'
    rw [hq.busChannels] at ht
    rw [hqt.role]
    exact h.joined side trackId t ht c hc
  · intro t c' hc' out hout
    obtain ⟨c, hc, -, hqt⟩ := hq.lookup hc'
    rw [hqt.core.outputs] at hout
    rw [hqt.role]
    exact h.owed t c hc out hout

theorem register {w : Worker Rtc} (h : Sided w) (hb : Bounded w) {config : RtcConfig Rtc}
    {req : HttpRequest} {task : ComposeTask Rtc} (hopen : Worker.Opened ext config req task) :
    Sided (w.register task) := by
  refine ⟨?_, ?_⟩
  · intro side trackId t ht c hc
    rw [Worker.register_lookup] at hc
    split at hc
    · -- The new id is in no list yet.
      have := hb.ids side trackId t ht
      omega
    · exact h.joined side trackId t ht c hc
  · intro t c hc out hout side trackId hj
    rw [Worker.register_lookup] at hc
    split at hc
    · cases hc
      obtain ⟨res, hres, -⟩ := hopen.outputs
      simp only [TaskContainer.ofTask, hres, List.mem_singleton] at hout
      subst hout
      cases side <;> simp [Side.joins] at hj
    · exact h.owed t c hc out hout side trackId hj

theorem bind {w : Worker Rtc} (h : Sided w) (remote : SocketAddr) (taskId : Nat) :
    Sided (w.bind remote taskId) := by
  refine ⟨?_, ?_⟩
  · intro side trackId t ht c hc
    obtain ⟨c₀, remotes, hc₀, rfl⟩ := Worker.bind_lookup_some hc
    exact h.joined side trackId t ht c₀ hc₀
  · intro t c hc
    obtain ⟨c₀, remotes, hc₀, rfl⟩ := Worker.bind_lookup_some hc
    exact h.owed t c₀ hc₀

theorem performOn {w : Worker Rtc} (h : Sided w) {taskId : Nat} {container : TaskContainer Rtc}
    {now : Instant} {out : Option WebrtcTaskOutput} {task : ComposeTask Rtc}
    (hl : w.tasks.lookup taskId = some container)
    (hp : ComposeTask.Popped ext now container.task out task) :
    Sided (w.performOn taskId out { container with task }) := by
  refine ⟨?_, ?_⟩
  · intro side trackId t ht c hc
    rw [Worker.performOn_ids, List.mem_append] at ht
    rw [Worker.performOn_lookup] at hc
    split at hc
    · rename_i htask
      cases hc
      rcases ht with ht | ht
      · show task.role.side = side
        rw [hp.role]
        exact h.joined side trackId t ht container (htask ▸ hl)
      · split at ht
        · rename_i hj
          obtain ⟨o, rfl, hj⟩ := Option.bind_eq_some_iff.mp hj
          exact h.popped hl hp (by simp) hj
        · cases ht
    · rename_i hne
      rcases ht with ht | ht
      · exact h.joined side trackId t ht c hc
      · split at ht <;> simp [hne] at ht
  · intro t c hc o ho side trackId hj
    rw [Worker.performOn_lookup] at hc
    split at hc
    · cases hc
      exact h.popped hl hp (List.mem_append_right _ ho) hj
    · exact h.owed t c hc o ho side trackId hj

theorem without {w : Worker Rtc} (h : Sided w) (taskId : Nat) (container : TaskContainer Rtc) :
    Sided (w.without taskId container) := by
  refine ⟨?_, ?_⟩
  · intro side trackId t ht c hc
    exact h.joined side trackId t (Worker.mem_without_ids ht) c (Worker.without_lookup_some hc).2
  · intro t c hc
    exact h.owed t c (Worker.without_lookup_some hc).2

theorem step {w w' : Worker Rtc} {actions : List Action} (hb : Bounded w) (h : Sided w)
    (hs : Step ext admits w actions w') : Sided w' := by
  refine Step.post (P := Sided) ?_ ?_ ?_ ?_ ?_ ?_ hs
  · exact fun v hq => h.quiet hq
  · exact fun config req task hopen _ => h.register hb hopen
  · exact fun remote username taskId _ _ => h.bind remote taskId
  · exact fun taskId container now out task hl hp => h.performOn hl hp
  · exact ⟨h.joined, h.owed⟩
  · exact fun taskId container _ => h.without taskId container

end Sided

theorem Worker.Reaches.sided {addr : SocketAddr} {actions : List Action} {w : Worker Rtc}
    (h : Worker.Reaches ext admits addr actions w) : Sided w :=
  (Emits.invariant (I := fun w => Bounded w ∧ Sided w)
    (fun _ _ _ hI hs => ⟨hI.1.step hs, hI.2.step hI.1 hs⟩) h.steps
    ⟨bounded_new addr, sided_new addr⟩).2

/-! ### Calls that panic -/

/-- The panics that stand for an input of the wrong kind. -/
def Panic.isMisrouted : Panic → Bool
  | .todoHttpRequest | .whipEvent | .whepEvent => true
  | _ => false

/-- The kinds of input that are the business of a session on this side. -/
def Side.takes : Side → WebrtcTaskInput → Bool
  | _, .io (.udpSocketRecv _ _ _) => true
  | _, .io (.httpRequest _) => false
  | .media, .trackMedia _ => true
  | .keyframe, .requestKeyframeTrack _ _ => true
  | _, _ => false

theorem TaskCore.inputUdp_error {now : Instant} {src dst : SocketAddr} {buf : Bytes}
    {task : TaskCore Rtc} {p : Panic} (h : task.inputUdp ext now src dst buf = .error p) :
    p = .parseUdp := by
  unfold inputUdp at h
  split at h <;> cases h
  rfl

/-- A misrouted input panics, and an input that is the session's business does not so panic. -/
theorem ComposeTask.input_misrouted_iff {now : Instant} {event : WebrtcTaskInput}
    {task : ComposeTask Rtc} :
    (∃ p, task.input ext now event = .error p ∧ p.isMisrouted) ↔
      task.role.side.takes event = false := by
  cases task with
  | whip task =>
      simp only [input, except_map_error, WhipServerTask.input]
      split
      · simp [Side.takes, Panic.isMisrouted]
      · simp only [except_map_error, Side.takes, Bool.true_eq_false, iff_false, not_exists,
          not_and]
        intro p hp
        simp [TaskCore.inputUdp_error hp, Panic.isMisrouted]
      · split
        · split
          · split <;> simp [Side.takes, role, Role.side, Panic.isMisrouted]
          · simp [Side.takes, role, Role.side]
        · simp [Side.takes, role, Role.side]
      · simp [Side.takes, role, Role.side, Panic.isMisrouted]
  | whep task =>
      simp only [input, except_map_error, WhepServerTask.input]
      split
      · simp [Side.takes, Panic.isMisrouted]
      · simp only [except_map_error, Side.takes, Bool.true_eq_false, iff_false, not_exists,
          not_and]
        intro p hp
        simp [TaskCore.inputUdp_error hp, Panic.isMisrouted]
      · split <;> simp [Side.takes, role, Role.side]
      · simp [Side.takes, role, Role.side, Panic.isMisrouted]

namespace Worker

theorem inputTask_error {now : Instant} {event : WebrtcTaskInput} {taskId : Nat} {w : Worker Rtc}
    {p : Panic} (h : w.inputTask ext now event taskId = .error p) :
    ∃ c, w.tasks.lookup taskId = some c ∧ c.task.input ext now event = .error p := by
  unfold inputTask at h
  split at h
  · cases h
  · rename_i c hc
    exact ⟨c, hc, except_map_error.mp h⟩

theorem inputTask_not_misrouted {now : Instant} {event : WebrtcTaskInput} {taskId : Nat}
    {w : Worker Rtc} {p : Panic}
    (htakes : ∀ c, w.tasks.lookup taskId = some c → c.task.role.side.takes event = true)
    (h : w.inputTask ext now event taskId = .error p) : p.isMisrouted = false := by
  obtain ⟨c, hc, herr⟩ := inputTask_error h
  by_contra hp
  rw [Bool.not_eq_false] at hp
  have hwrong := ComposeTask.input_misrouted_iff.mp ⟨p, herr, hp⟩
  rw [htakes c hc] at hwrong
  cases hwrong

/-- Inputs handed one after another to sessions whose business they are never misroute. -/
theorem inputTasks_not_misrouted {now : Instant} {event : WebrtcTaskInput} {taskIds : List Nat}
    {w : Worker Rtc} {p : Panic}
    (htakes : ∀ t ∈ taskIds, ∀ c, w.tasks.lookup t = some c → c.task.role.side.takes event = true)
    (h : forEach (inputTask ext now event) taskIds w = .error p) : p.isMisrouted = false := by
  obtain ⟨pre, t, post, v, bs, rfl, hrun, herr⟩ := forEach_error h
  refine inputTask_not_misrouted ?_ herr
  -- The sessions served before this one are as they were but for their engines.
  intro c' hc'
  obtain ⟨c, hc, -, hqt⟩ := (inputTasks_feeds hrun).1.lookup hc'
  rw [hqt.role]
  exact htakes t (by simp) c hc

/-- The ids a bus event goes to are on the side its input is for. -/
theorem recipients_takes {w : Worker Rtc} (h : Sided w) (ev : BusEvent) :
    ∀ t ∈ (w.recipients ev).1, ∀ c, w.tasks.lookup t = some c →
      c.task.role.side.takes (w.recipients ev).2 = true := by
  intro t ht c hc
  cases ev with
  | trackMedia media =>
      rw [h.joined .media media.trackId t ht c hc]
      rfl
  | trackKeyframeRequest trackId kind =>
      rw [h.joined .keyframe trackId t ht c hc]
      rfl

theorem handleRequest_not_misrouted {arrival : HttpArrival Rtc} {w : Worker Rtc} {p : Panic}
    (h : w.handleRequest ext arrival = .error p) : p.isMisrouted = false := by
  have hnew : ∀ (location ufrag : String) (rtc : Rtc) (req : HttpRequest)
      (addrs : List SocketAddr), TaskCore.new ext location ufrag rtc req addrs = .error p →
      p.isMisrouted = false := by
    intro location ufrag rtc req addrs hn
    have hadd : ∀ (addrs : List SocketAddr) (rtc : Rtc) (q : Panic),
        TaskCore.addCandidates ext rtc addrs = .error q → q = .createCandidate := by
      intro addrs
      induction addrs with
      | nil => intro rtc q hq; cases hq
      | cons addr rest ih =>
          intro rtc q hq
          unfold TaskCore.addCandidates at hq
          split at hq
          · cases hq; rfl
          · exact ih _ q hq
    unfold TaskCore.new at hn
    split at hn
    · rename_i q hq
      cases hn
      rw [hadd _ _ _ hq]
      rfl
    · split at hn
      · cases hn; rfl
      · split at hn <;> cases hn
        rfl
  unfold handleRequest at h
  split at h
  · split at h
    · exact hnew _ _ _ _ _ (except_map_error.mp (except_map_error.mp h))
    · split at h
      · exact hnew _ _ _ _ _ (except_map_error.mp (except_map_error.mp h))
      · cases h
  · cases h; rfl

theorem popOne_ok (ext : Extern Rtc) (now : Instant) (taskId : Nat) (w : Worker Rtc) :
    ∃ v acts, w.popOne ext now taskId = .ok (v, acts) := by
  unfold popOne
  split
  · exact ⟨_, _, rfl⟩
  · exact ⟨_, _, rfl⟩

theorem handleDatagram_not_misrouted {d : Datagram} {w : Worker Rtc} {p : Panic}
    (h : w.handleDatagram ext d = .error p) : p.isMisrouted = false := by
  unfold handleDatagram at h
  split at h
  · rename_i q hslot
    cases h
    unfold slot at hslot
    split at hslot
    · cases hslot
    · split at hslot
      · rename_i hstun
        cases hslot
        unfold getStunUsername at hstun
        split at hstun <;> cases hstun
        rfl
      · cases hslot
      · split at hslot <;> cases hslot
  · cases h
  · rename_i taskId u found hslot
    rw [except_map_error] at h
    cases hin : u.inputTask ext d.now
        (.io (.udpSocketRecv d.remote u.udpSocketLocalAddr d.buf)) taskId with
    | error q =>
        rw [forEach_cons_error (f := fun turn => turn) hin] at h
        cases h
        refine inputTask_not_misrouted (fun c _ => ?_) hin
        cases c.task.role.side <;> rfl
    | ok r =>
        rw [forEach_cons (f := fun turn => turn) hin, except_map_error] at h
        obtain ⟨v, acts, hpop⟩ := popOne_ok ext d.now taskId r.1
        rw [forEach_cons (f := fun turn => turn) hpop] at h
        cases h

/-- **No turn of a worker in which sessions join on their own side misroutes an input.** -/
theorem exec_not_misrouted {op : Op Rtc} {w : Worker Rtc} {p : Panic} (hw : Sided w)
    (h : w.exec ext op = .error p) : p.isMisrouted = false := by
  cases op with
  | busEvent ev now =>
      exact inputTasks_not_misrouted (recipients_takes hw ev) (except_map_error.mp h)
  | request arrival => exact handleRequest_not_misrouted h
  | tick order now =>
      obtain ⟨pre, t, post, v, bs, -, -, herr⟩ := forEach_error h
      cases herr
  | pop taskId now =>
      obtain ⟨v, acts, hpop⟩ := popOne_ok ext now taskId w
      rw [exec, hpop] at h
      cases h
  | popEnded =>
      obtain ⟨pre, t, post, v, bs, -, -, herr⟩ := forEach_error h
      unfold removeTask at herr
      split at herr <;> cases herr
      rfl
  | datagram d => exact handleDatagram_not_misrouted h

/-- Nor does any cycle, whatever it takes from its queues. -/
theorem processCycle_not_misrouted {c : Cycle Rtc} {w : Worker Rtc} {p : Panic} (hb : Bounded w)
    (hw : Sided w) (h : processCycle ext c w = .error p) : p.isMisrouted = false := by
  rw [processCycle_eq] at h
  obtain ⟨pre, op, post, v, bs, -, hrun, herr⟩ := forEach_error h
  refine exec_not_misrouted ?_ herr
  refine (forEach_preserves (P := fun _ w => Bounded w ∧ Sided w) ?_ hrun ⟨hb, hw⟩).2
  intro op s t os bs hs hI
  have hturn : Turn ext (fun _ _ => True) s bs t := ⟨op, fun _ _ => trivial, hs⟩
  exact Emits.invariant (I := fun w => Bounded w ∧ Sided w)
    (fun _ _ _ hI hs => ⟨hI.1.step hs, hI.2.step hI.1 hs⟩)
    (exec_emits hturn) hI

end Worker

/-! ### Ids are handed out once -/

/-- The id an action hands out. -/
def Action.createdId : Action → Option Nat
  | .created taskId _ => some taskId
  | _ => none

/-- The ids a run has handed out are the numbers below the seed, each once and in order. -/
theorem Worker.Reaches.createdIds {addr : SocketAddr} {actions : List Action} {w : Worker Rtc}
    (h : Worker.Reaches ext admits addr actions w) :
    actions.filterMap Action.createdId = List.range w.taskIdSeed := by
  refine Emits.preserves
    (P := fun os w => os.filterMap Action.createdId = List.range w.taskIdSeed) ?_
    h.steps rfl
  intro os s bs u hP hs
  rw [List.filterMap_append, hP]
  refine Step.rule (P := fun bs u => List.range s.taskIdSeed ++ bs.filterMap Action.createdId
    = List.range u.taskIdSeed) ?_ ?_ ?_ ?_ ?_ ?_ ?_ hs
  · intro actions w' hf
    have hnone : actions.filterMap Action.createdId = [] :=
      hf.filterMap_nil fun a ha => by cases a <;> simp [Action.isFeed] at ha <;> rfl
    rw [hf.1.taskIdSeed, hnone, List.append_nil]
  · intro req
    simp [Action.createdId]
  · intro config req task _ _
    simp [Action.createdId, Worker.register, List.range_succ]
  · intro remote username taskId _ _
    simp [Action.createdId, Worker.bind]
  · intro taskId container now out task _ _
    have hperformed : ∀ o, (performed taskId o).createdId = none := by
      intro o
      cases o with
      | io action => cases action <;> rfl
      | _ => rfl
    rw [Worker.performOn_taskIdSeed, filterMap_popActions_nil (fun _ => rfl) hperformed,
      List.append_nil]
  · simp
  · intro taskId container _
    simp [Action.createdId, Worker.without]

/--
**No input is ever of the wrong kind.**  In every state a worker can reach, whatever
requests, datagrams and bus events it was given and whatever its engines answered: a
live consumer of a channel is a viewer, a live source is a publisher, the ids handed
out so far are those below the seed, each handed out once, and no turn and no cycle
ends in one of the panics for media at a publisher, a keyframe request at a viewer,
or a request at either.
-/
theorem inputs_well_kinded {addr : SocketAddr} {actions : List Action} {w : Worker Rtc}
    (h : Worker.Reaches ext admits addr actions w) :
    (∀ trackId, ∀ t ∈ (BusChannels.entry w.busChannels trackId).consumers,
      ∀ c, w.tasks.lookup t = some c → c.task.isWhip = false) ∧
    (∀ trackId, ∀ t ∈ (BusChannels.entry w.busChannels trackId).sources,
      ∀ c, w.tasks.lookup t = some c → c.task.isWhip = true) ∧
    actions.filterMap Action.createdId = List.range w.taskIdSeed ∧
    (∀ op p, w.exec ext op = .error p → p.isMisrouted = false) ∧
    ∀ c p, w.processCycle ext c = .error p → p.isMisrouted = false := by
  have hw := h.sided
  refine ⟨?_, ?_, h.createdIds, fun op p => Worker.exec_not_misrouted hw,
    fun c p => Worker.processCycle_not_misrouted h.bounded hw⟩
  · intro trackId t ht c hc
    have hside := hw.joined .media trackId t ht c hc
    cases htask : c.task <;> simp_all [ComposeTask.role, Role.side, ComposeTask.isWhip]
  · intro trackId t ht c hc
    have hside := hw.joined .keyframe trackId t ht c hc
    cases htask : c.task <;> simp_all [ComposeTask.role, Role.side, ComposeTask.isWhip]

/-- A publisher and a viewer of one channel: the lists hold one id each, of the right kind. -/
theorem inputs_well_kinded_pair :
    let w := (Script.play [.request (Script.arrival 1 "/whip/endpoint" [0x76] "abc"
        [.event .connected]),
      .request (Script.arrival 2 "/whep/endpoint" [0x76] "def" [.event .connected]),
      .pop 0 0, .pop 1 0]).1
    BusChannels.entry w.busChannels 8 = { sources := [0], consumers := [1] } ∧
      (∀ c, w.tasks.lookup 1 = some c → c.task.isWhip = false) ∧
      (∀ c, w.tasks.lookup 0 = some c → c.task.isWhip = true) := by
  have hall := inputs_well_kinded (Script.play_reaches
    [.request (Script.arrival 1 "/whip/endpoint" [0x76] "abc" [.event .connected]),
      .request (Script.arrival 2 "/whep/endpoint" [0x76] "def" [.event .connected]),
      .pop 0 0, .pop 1 0])
  have hentry : BusChannels.entry (Script.play
      [.request (Script.arrival 1 "/whip/endpoint" [0x76] "abc" [.event .connected]),
        .request (Script.arrival 2 "/whep/endpoint" [0x76] "def" [.event .connected]),
        .pop 0 0, .pop 1 0]).1.busChannels 8 = { sources := [0], consumers := [1] } := by
    decide +kernel
  refine ⟨hentry, hall.1 8 1 ?_, hall.2.1 8 0 ?_⟩
  · rw [hentry]
    decide
  · rw [hentry]
    decide

end MediaServer
