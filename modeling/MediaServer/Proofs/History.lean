/-
What a worker has done accounts for what it holds.

A worker's actions so far are its history, and everything a session has can be traced
to it: the request that opened the session, the answers its engine gave, and from
those its media sections, the tracks it has joined and the actions it still owes.
`Explained` says so of one session, and `History` of all of them and of every event
the worker ever broadcast.

The law for the tracks is exact.  What a session has joined on one side, followed by
what it owes to join, is the translation of its engine's answers, in order.  An
engine that reports `Connected` once therefore joins its session to two tracks and no
more, however often it is polled and whatever else happens in between.
-/
import MediaServer.Proofs.Kinds

namespace MediaServer

open Lib

variable {Rtc : Type} {ext : Extern Rtc} {admits : Worker Rtc → RtcConfig Rtc → Prop}

/-! ### Reading a history -/

/-- The answer an action polled from the engine of `taskId`. -/
def Action.answer (taskId : Nat) : Action → Option (Except ExternError Output)
  | .polled t answer => if t = taskId then some answer else none
  | _ => none

/-- Everything the engine of `taskId` has answered. -/
def answers (taskId : Nat) (actions : List Action) : List (Except ExternError Output) :=
  actions.filterMap (Action.answer taskId)

theorem answers_append (taskId : Nat) (as bs : List Action) :
    answers taskId (as ++ bs) = answers taskId as ++ answers taskId bs :=
  List.filterMap_append

theorem mem_answers {taskId : Nat} {actions : List Action} {x : Except ExternError Output} :
    x ∈ answers taskId actions ↔ Action.polled taskId x ∈ actions := by
  constructor
  · intro h
    obtain ⟨a, ha, heq⟩ := List.mem_filterMap.mp h
    cases a with
    | polled t answer =>
        simp only [Action.answer] at heq
        split at heq <;> cases heq
        rename_i ht
        exact ht ▸ ha
    | _ => cases heq
  · intro h
    exact List.mem_filterMap.mpr ⟨_, h, by simp [Action.answer]⟩

/-- A performed action is none of the lines that open a session or record an answer. -/
theorem performed_answer (t taskId : Nat) (out : WebrtcTaskOutput) :
    Action.answer t (performed taskId out) = none := by
  cases out with
  | io action => cases action <;> rfl
  | _ => rfl

theorem answers_popActions (t taskId : Nat) (answer : Option (Except ExternError Output))
    (out : Option WebrtcTaskOutput) :
    answers t (popActions taskId answer out) = if t = taskId then answer.toList else [] := by
  have hpolled : ∀ x, Action.answer t (.polled taskId x) = if t = taskId then some x else none :=
    fun x => if_congr eq_comm rfl rfl
  rw [answers, filterMap_popActions]
  simp only [performed_answer, hpolled]
  by_cases ht : t = taskId
  · cases answer <;> cases out <;> simp [ht]
  · cases answer <;> cases out <;> simp [ht]

theorem Worker.Feeds.answers {w w' : Worker Rtc} {actions : List Action} (h : Feeds w actions w')
    (taskId : Nat) : answers taskId actions = [] :=
  h.filterMap_nil fun a ha => by cases a <;> simp [Action.isFeed] at ha <;> rfl

/-! ### One session -/

/-- The tracks the answers of an engine tell a session of this role to join. -/
def Role.joins (ext : Extern Rtc) (role : Role) (side : Side)
    (said : List (Except ExternError Output)) : List UInt64 :=
  said.flatMap fun answer => (role.translate ext answer).filterMap side.joins

/-- The session `taskId`, in the container `c`, is what the history has made of it. -/
structure Explained (ext : Extern Rtc) (actions : List Action) (taskId : Nat)
    (c : TaskContainer Rtc) : Prop where
  created : ∃ req, Action.created taskId req ∈ actions ∧
    (req.path = "/whip/endpoint" ∨ req.path = "/whep/endpoint") ∧
    c.task.role = .ofRequest ext req
  joins : ∀ side : Side, side.tracks c ++ c.task.core.outputs.filterMap side.joins
    = c.task.role.joins ext side (answers taskId actions)
  audioMid : ∀ mid, c.task.core.audioMid = some mid →
    .ok (.event (.mediaAdded mid .audio)) ∈ answers taskId actions
  videoMid : ∀ mid, c.task.core.videoMid = some mid →
    .ok (.event (.mediaAdded mid .video)) ∈ answers taskId actions
  owed : ∀ out ∈ c.task.core.outputs, (∃ res, out = .io (.httpResponse res)) ∨
    ∃ answer ∈ answers taskId actions, out ∈ c.task.role.translate ext answer

namespace Explained

/-- Nothing its engine had no part in changes how a session is explained. -/
theorem mono {actions bs : List Action} {t : Nat} {c c' : TaskContainer Rtc}
    (h : Explained ext actions t c) (hbs : answers t bs = []) (hq : c.task.Quiet c'.task)
    (htracks : ∀ side : Side, side.tracks c' = side.tracks c) :
    Explained ext (actions ++ bs) t c' := by
  have hsame : answers t (actions ++ bs) = answers t actions := by
    rw [answers_append, hbs, List.append_nil]
  obtain ⟨req, hreq, hpath, hrole⟩ := h.created
  refine ⟨⟨req, List.mem_append_left _ hreq, hpath, hq.role.trans hrole⟩, ?_, ?_, ?_, ?_⟩
  · intro side
    rw [hsame, htracks, hq.core.outputs, hq.role]
    exact h.joins side
  · intro mid hmid
    rw [hsame]
    exact h.audioMid mid (hq.core.audioMid ▸ hmid)
  · intro mid hmid
    rw [hsame]
    exact h.videoMid mid (hq.core.videoMid ▸ hmid)
  · intro out hout
    rw [hsame, hq.role]
    exact h.owed out (hq.core.outputs ▸ hout)

/-- A new session is explained by the line that opened it. -/
theorem opened {actions : List Action} {config : RtcConfig Rtc} {req : HttpRequest}
    {task : ComposeTask Rtc} {t : Nat} (hopen : Worker.Opened ext config req task)
    (hnone : answers t actions = []) :
    Explained ext (actions ++ [.created t req]) t (.ofTask task) := by
  obtain ⟨res, hres, -⟩ := hopen.outputs
  have hcore : (TaskContainer.ofTask task).task.core = task.core := rfl
  refine ⟨⟨req, by simp, hopen.path, hopen.role⟩, ?_, ?_, ?_, ?_⟩
  · intro side
    rw [answers_append, hnone, hcore, hres]
    cases side <;> rfl
  · intro mid hmid
    rw [hcore, hopen.audioMid] at hmid
    cases hmid
  · intro mid hmid
    rw [hcore, hopen.videoMid] at hmid
    cases hmid
  · intro out hout
    rw [hcore, hres] at hout
    exact .inl ⟨res, List.mem_singleton.mp hout⟩

/-- What a polled session returns was owed, or is what its engine has just said. -/
theorem source {actions : List Action} {t : Nat} {c : TaskContainer Rtc} {now : Instant}
    {out : Option WebrtcTaskOutput} {task : ComposeTask Rtc} (h : Explained ext actions t c)
    (hp : ComposeTask.Popped ext now c.task out task) {o : WebrtcTaskOutput}
    (ho : o ∈ out.toList ++ task.core.outputs) :
    (∃ res, o = .io (.httpResponse res)) ∨
      ∃ answer ∈ answers t (actions ++ popActions t (c.task.polled ext now) out),
        o ∈ c.task.role.translate ext answer := by
  rw [answers_append, answers_popActions, if_pos rfl]
  rcases hp.source ho with howed | ⟨answer, hsaid, hmem⟩
  · refine (h.owed o howed).imp_right ?_
    rintro ⟨answer, ha, hmem⟩
    exact ⟨answer, List.mem_append_left _ ha, hmem⟩
  · exact .inr ⟨answer, List.mem_append_right _ (by simp [hsaid]), hmem⟩

/-- A polled session is explained by one answer more. -/
theorem popped {actions : List Action} {t : Nat} {c : TaskContainer Rtc} {now : Instant}
    {out : Option WebrtcTaskOutput} {task : ComposeTask Rtc} (h : Explained ext actions t c)
    (hp : ComposeTask.Popped ext now c.task out task) :
    Explained ext (actions ++ popActions t (c.task.polled ext now) out) t
      (Worker.joined out { c with task }) := by
  have hanswers : answers t (actions ++ popActions t (c.task.polled ext now) out)
      = answers t actions ++ (c.task.polled ext now).toList := by
    rw [answers_append, answers_popActions, if_pos rfl]
  obtain ⟨req, hreq, hpath, hrole⟩ := h.created
  refine ⟨⟨req, List.mem_append_left _ hreq, hpath, hp.role.trans hrole⟩, ?_, ?_, ?_, ?_⟩
  · intro side
    have hsplit : (out.bind side.joins).toList ++ task.core.outputs.filterMap side.joins
        = (out.toList ++ task.core.outputs).filterMap side.joins := by
      cases out with
      | none => rfl
      | some o =>
          simp only [Option.bind_some, Option.toList_some, List.singleton_append,
            List.filterMap_cons]
          cases side.joins o <;> rfl
    have hbefore : side.tracks { c with task } = side.tracks c := by cases side <;> rfl
    rw [Worker.tracks_joined, hbefore]
    show (side.tracks c ++ (out.bind side.joins).toList) ++ task.core.outputs.filterMap side.joins
      = task.role.joins ext side _
    rw [List.append_assoc, hsplit, hp.core.conserves, List.filterMap_append,
      ← List.append_assoc, h.joins side, hp.role, hanswers, Role.joins, Role.joins,
      List.flatMap_append, ComposeTask.polled]
    cases c.task.core.polled ext now with
    | none => simp
    | some answer => simp
  · intro mid hmid
    rw [hanswers]
    rcases hp.core.audioMid mid hmid with hold | hnew
    · exact List.mem_append_left _ (h.audioMid mid hold)
    · exact List.mem_append_right _ (by simp [ComposeTask.polled, hnew])
  · intro mid hmid
    rw [hanswers]
    rcases hp.core.videoMid mid hmid with hold | hnew
    · exact List.mem_append_left _ (h.videoMid mid hold)
    · exact List.mem_append_right _ (by simp [ComposeTask.polled, hnew])
  · intro o ho
    show _ ∨ ∃ answer ∈ _, o ∈ task.role.translate ext answer
    rw [hp.role]
    exact h.source hp (List.mem_append_right _ ho)

end Explained

/-! ### All of them -/

/-- The session that had its worker perform an action others get to see. -/
def Action.doneFor : Action → Option Nat
  | .broadcast taskId _ | .published taskId _ | .subscribed taskId _ | .ended taskId => some taskId
  | _ => none

theorem Worker.Feeds.doneFor {w w' : Worker Rtc} {actions : List Action} (h : Feeds w actions w') :
    ∀ a ∈ actions, a.doneFor = none := by
  intro a ha
  have hfeed := h.2 a ha
  cases a <;> simp [Action.isFeed] at hfeed <;> rfl

/-- The action `a`, done for `taskId`, is what some answer of its engine stands for. -/
def ActionExplained (ext : Extern Rtc) (actions : List Action) (taskId : Nat) (a : Action) : Prop :=
  ∃ req, Action.created taskId req ∈ actions ∧
    (req.path = "/whip/endpoint" ∨ req.path = "/whep/endpoint") ∧
    ∃ answer ∈ answers taskId actions, ∃ out ∈ (Role.ofRequest ext req).translate ext answer,
      performed taskId out = a

theorem ActionExplained.mono {actions : List Action} {taskId : Nat} {a : Action}
    (h : ActionExplained ext actions taskId a) (bs : List Action) :
    ActionExplained ext (actions ++ bs) taskId a := by
  obtain ⟨req, hreq, hpath, answer, hanswer, hout⟩ := h
  rw [ActionExplained, answers_append]
  exact ⟨req, List.mem_append_left _ hreq, hpath, answer, List.mem_append_left _ hanswer, hout⟩

/-- What a polled session has its worker do is explained by the answers up to this one. -/
theorem Explained.done {actions : List Action} {t : Nat} {c : TaskContainer Rtc} {now : Instant}
    {out : Option WebrtcTaskOutput} {task : ComposeTask Rtc} (h : Explained ext actions t c)
    (hp : ComposeTask.Popped ext now c.task out task) {a : Action} {taskId : Nat}
    (ha : a ∈ popActions t (c.task.polled ext now) out) (hdone : a.doneFor = some taskId) :
    taskId = t ∧
      ActionExplained ext (actions ++ (Option.map (.polled t) (c.task.polled ext now)).toList) t a := by
  rcases mem_popActions.mp ha with ⟨answer, -, rfl⟩ | ⟨o, rfl, rfl⟩
  · cases hdone
  · have hid : taskId = t := by
      cases o with
      | io action => cases action <;> cases hdone
      | _ => cases hdone; rfl
    refine ⟨hid, ?_⟩
    obtain ⟨req, hreq, hpath, hrole⟩ := h.created
    rcases h.source hp (List.mem_append_left _ (List.mem_singleton_self o)) with
      ⟨res, rfl⟩ | ⟨answer, hanswer, hout⟩
    · cases hdone
    · refine ⟨req, List.mem_append_left _ hreq, hpath, answer, ?_, o, hrole ▸ hout, rfl⟩
      rw [answers_append, answers_popActions, if_pos rfl] at hanswer
      rw [answers_append]
      rcases List.mem_append.mp hanswer with hold | hnew
      · exact List.mem_append_left _ hold
      · refine List.mem_append_right _ (mem_answers.mpr ?_)
        simpa [eq_comm] using hnew

/-- Everything a worker holds, and all it did for its sessions, is explained by its actions. -/
structure History (ext : Extern Rtc) (actions : List Action) (w : Worker Rtc) : Prop where
  live : ∀ t c, w.tasks.lookup t = some c → Explained ext actions t c
  fresh : ∀ t, w.taskIdSeed ≤ t → answers t actions = []
  done : ∀ a ∈ actions, ∀ t, a.doneFor = some t → ActionExplained ext actions t a

theorem history_new (addr : SocketAddr) : History ext [] (Worker.new addr : Worker Rtc) :=
  ⟨by simp [Worker.new], fun _ _ => rfl, by simp⟩

namespace History

/-- Only for a polled session is anything done; a step that polls none has nothing to explain. -/
theorem done_mono {actions bs : List Action} {w : Worker Rtc} (h : History ext actions w)
    (hbs : ∀ a ∈ bs, a.doneFor = none) :
    ∀ a ∈ actions ++ bs, ∀ t, a.doneFor = some t → ActionExplained ext (actions ++ bs) t a := by
  intro a hmem t ht
  rcases List.mem_append.mp hmem with hmem | hmem
  · exact (h.done a hmem t ht).mono bs
  · rw [hbs a hmem] at ht
    cases ht

theorem feed {actions bs : List Action} {w w' : Worker Rtc} (h : History ext actions w)
    (hf : Worker.Feeds w bs w') : History ext (actions ++ bs) w' := by
  refine ⟨?_, ?_, h.done_mono hf.doneFor⟩
  · intro t c' hc'
    obtain ⟨c, hc, heq, hq⟩ := hf.1.lookup hc'
    refine (h.live t c hc).mono (hf.answers t) hq fun side => ?_
    rw [heq]
    cases side <;> rfl
  · intro t ht
    rw [answers_append, hf.answers t, List.append_nil]
    exact h.fresh t (hf.1.taskIdSeed ▸ ht)

theorem register {actions : List Action} {w : Worker Rtc} {config : RtcConfig Rtc}
    {req : HttpRequest} {task : ComposeTask Rtc} (h : History ext actions w)
    (hopen : Worker.Opened ext config req task) :
    History ext (actions ++ [.created w.taskIdSeed req]) (w.register task) := by
  refine ⟨?_, ?_, h.done_mono (by simp [Action.doneFor])⟩
  · intro t c hc
    rw [Worker.register_lookup] at hc
    split at hc
    · rename_i ht
      cases hc
      subst ht
      exact .opened hopen (h.fresh _ (Nat.le_refl _))
    · exact (h.live t c hc).mono rfl (.refl _) fun _ => rfl
  · intro t ht
    rw [answers_append, h.fresh t (Nat.le_of_succ_le ht)]
    rfl

theorem bind {actions : List Action} {w : Worker Rtc} {remote : SocketAddr} {taskId : Nat}
    (h : History ext actions w) :
    History ext (actions ++ [.bound remote taskId]) (w.bind remote taskId) := by
  refine ⟨?_, ?_, h.done_mono (by simp [Action.doneFor])⟩
  · intro t c hc
    obtain ⟨c₀, remotes, hc₀, rfl⟩ := Worker.bind_lookup_some hc
    exact (h.live t c₀ hc₀).mono rfl (.refl _) fun side => by cases side <;> rfl
  · intro t ht
    rw [answers_append, h.fresh t ht]
    rfl

theorem performOn {actions : List Action} {w : Worker Rtc} {taskId : Nat}
    {c : TaskContainer Rtc} {now : Instant} {out : Option WebrtcTaskOutput}
    {task : ComposeTask Rtc} (hb : Bounded w) (h : History ext actions w)
    (hl : w.tasks.lookup taskId = some c) (hp : ComposeTask.Popped ext now c.task out task) :
    History ext (actions ++ popActions taskId (c.task.polled ext now) out)
      (w.performOn taskId out { c with task }) := by
  have hother : ∀ t, t ≠ taskId →
      answers t (popActions taskId (c.task.polled ext now) out) = [] := by
    intro t ht
    rw [answers_popActions, if_neg ht]
  refine ⟨?_, ?_, ?_⟩
  · intro t c' hc'
    rw [Worker.performOn_lookup] at hc'
    split at hc'
    · rename_i ht
      cases hc'
      exact ht ▸ (h.live taskId c hl).popped hp
    · rename_i ht
      exact (h.live t c' hc').mono (hother t ht) (.refl _) fun _ => rfl
  · intro t ht
    rw [Worker.performOn_taskIdSeed] at ht
    have hlt := hb.tasks taskId c hl
    rw [answers_append, h.fresh t ht, hother t (by omega), List.append_nil]
  · intro a hmem t ht
    rcases List.mem_append.mp hmem with hmem | hmem
    · exact (h.done a hmem t ht).mono _
    · obtain ⟨rfl, hdone⟩ := (h.live taskId c hl).done hp hmem ht
      rw [popActions, ← List.append_assoc]
      exact hdone.mono _

theorem without {actions : List Action} {w : Worker Rtc} {taskId : Nat} {c : TaskContainer Rtc}
    (h : History ext actions w) :
    History ext (actions ++ [.removed taskId]) (w.without taskId c) := by
  refine ⟨?_, ?_, h.done_mono (by simp [Action.doneFor])⟩
  · intro t c' hc'
    exact (h.live t c' (Worker.without_lookup_some hc').2).mono rfl (.refl _) fun _ => rfl
  · intro t ht
    rw [answers_append, h.fresh t ht]
    rfl

theorem step {actions bs : List Action} {w w' : Worker Rtc} (hb : Bounded w)
    (h : History ext actions w) (hs : Step ext admits w bs w') :
    History ext (actions ++ bs) w' := by
  refine Step.rule (P := fun bs w' => History ext (actions ++ bs) w') ?_ ?_ ?_ ?_ ?_ ?_ ?_ hs
  · exact fun bs v hf => h.feed hf
  · intro req
    refine ⟨?_, ?_, h.done_mono (by simp [Action.doneFor])⟩
    · exact fun t c hc => (h.live t c hc).mono rfl (.refl _) fun _ => rfl
    · intro t ht
      rw [answers_append, h.fresh t ht]
      rfl
  · exact fun config req task hopen _ => h.register hopen
  · exact fun remote username taskId _ _ => h.bind
  · exact fun taskId c now out task hl hp => h.performOn hb hl hp
  · rw [List.append_nil]
    exact ⟨h.live, h.fresh, h.done⟩
  · exact fun taskId c _ => h.without

end History

namespace Worker.Reaches

variable {addr : SocketAddr} {actions : List Action} {w : Worker Rtc}

theorem bounded_history (h : Worker.Reaches ext admits addr actions w) :
    Bounded w ∧ History ext actions w :=
  Emits.preserves (P := fun os w => Bounded w ∧ History ext os w)
    (fun _ _ _ _ hI hs => ⟨hI.1.step hs, hI.2.step hI.1 hs⟩) h.steps
    ⟨bounded_new addr, history_new addr⟩

/-- **Every state a worker can reach is explained by what the worker has done.** -/
theorem history (h : Worker.Reaches ext admits addr actions w) : History ext actions w :=
  h.bounded_history.2

/-- Whatever is done for a session is explained by what came before it. -/
theorem explained (h : Worker.Reaches ext admits addr actions w) {pre post : List Action}
    {a : Action} {t : Nat} (hsplit : actions = pre ++ a :: post) (hdone : a.doneFor = some t) :
    ActionExplained ext pre t a := by
  refine Emits.causal (I := fun os w => Bounded w ∧ History ext os w)
    (C := fun os a => ∀ t, a.doneFor = some t → ActionExplained ext os t a)
    (fun _ _ _ _ hI hs => ⟨hI.1.step hs, hI.2.step hI.1 hs⟩) ?_ h.steps
    ⟨bounded_new addr, history_new addr⟩ pre a post hsplit t hdone
  rintro os v bs v' ⟨-, hH⟩ hs
  -- A step that does nothing for any session has nothing to explain.
  have idle : ∀ bs : List Action, (∀ a ∈ bs, a.doneFor = none) →
      ∀ pre a post, bs = pre ++ a :: post → ∀ t, a.doneFor = some t →
        ActionExplained ext (os ++ pre) t a := by
    intro bs hbs pre a post heq t ht
    rw [hbs a (by simp [heq])] at ht
    cases ht
  refine Step.rule (P := fun bs _ => ∀ pre a post, bs = pre ++ a :: post → ∀ t,
    a.doneFor = some t → ActionExplained ext (os ++ pre) t a) ?_ ?_ ?_ ?_ ?_ ?_ ?_ hs
  · exact fun bs v' hf => idle bs hf.doneFor
  · exact fun req => idle _ (by simp [Action.doneFor])
  · exact fun config req task _ _ => idle _ (by simp [Action.doneFor])
  · exact fun remote username taskId _ _ => idle _ (by simp [Action.doneFor])
  · intro taskId c now out task hl hp pre a post heq t hdone
    have hmem : a ∈ popActions taskId (c.task.polled ext now) out := by simp [heq]
    obtain ⟨rfl, hexp⟩ := (hH.live _ _ hl).done hp hmem hdone
    -- What was polled comes first, and is done for nobody.
    rcases List.append_eq_append_iff.mp heq with ⟨mid, rfl, -⟩ | ⟨mid, hpolled, hrest⟩
    · rw [← List.append_assoc]
      exact hexp.mono mid
    · cases mid with
      | nil =>
          rw [List.append_nil] at hpolled
          exact hpolled ▸ hexp
      | cons b mid =>
          obtain ⟨rfl, -⟩ := List.cons.inj hrest
          have hanswer : a ∈ _ := hpolled ▸ List.mem_append_right pre List.mem_cons_self
          simp only [Option.mem_toList, Option.map_eq_some_iff] at hanswer
          obtain ⟨answer, -, rfl⟩ := hanswer
          cases hdone
  · exact idle [] (by simp)
  · exact fun taskId c _ => idle _ (by simp [Action.doneFor])

/-- A session is opened by one request only. -/
theorem created_unique (h : Worker.Reaches ext admits addr actions w) {t : Nat}
    {req req' : HttpRequest} (hreq : Action.created t req ∈ actions)
    (hreq' : Action.created t req' ∈ actions) : req = req' := by
  have hnodup : (actions.filterMap Action.createdId).Nodup := h.createdIds ▸ List.nodup_range
  rw [List.Nodup, List.pairwise_filterMap] at hnodup
  have hsymm : Std.Symm fun a b : Action => ∀ x, a.createdId = some x → ∀ y,
      b.createdId = some y → x ≠ y := ⟨fun a b hab x hx y hy => (hab y hy x hx).symm⟩
  by_contra hne
  exact hnodup.forall hreq hreq' (by simpa using hne) t rfl t rfl rfl

end Worker.Reaches

end MediaServer
