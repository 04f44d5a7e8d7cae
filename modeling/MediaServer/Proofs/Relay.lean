/-
In what order a session is handed what the others say.

There is one bus for everybody, and nothing on it says who put it there.  A `Post` is an
event with the session that broadcast it, and `posts` is the bus of a run with that
written beside each event.  A post goes over three links, and none of them changes the
order.  What a session has put on the bus is a beginning of what the answers of its
engine stand for; what a worker has read is one stretch of the bus; and what a session
is handed, and then writes, is picked out of what its worker read.  So between any two
sessions the order survives, whichever workers they are with and however those are
interleaved, and nothing comes through twice.
-/
import MediaServer.Proofs.Media

namespace MediaServer

open Lib

variable {Rtc : Type} {n : Nat} {ext : Extern Rtc} {admits : Worker Rtc → RtcConfig Rtc → Prop}

/-! ### What a session says -/

/-- What an action of a session is on the bus. -/
def WebrtcTaskOutput.busEvent : WebrtcTaskOutput → Option BusEvent
  | .trackMedia media => some (.trackMedia media)
  | .requestKeyframeTrack trackId kind => some (.trackKeyframeRequest trackId kind)
  | _ => none

/-- The event an action broadcasts for the session `taskId`. -/
def Action.said (taskId : Nat) : Action → Option BusEvent
  | .broadcast t ev => if t = taskId then some ev else none
  | _ => none

/-- What the answers of an engine tell a session of this role to say. -/
def Role.broadcasts (ext : Extern Rtc) (role : Role) (said : List (Except ExternError Output)) :
    List BusEvent :=
  said.flatMap fun answer => (role.translate ext answer).filterMap WebrtcTaskOutput.busEvent

theorem Role.broadcasts_append (role : Role) (as bs : List (Except ExternError Output)) :
    role.broadcasts ext (as ++ bs) = role.broadcasts ext as ++ role.broadcasts ext bs :=
  List.flatMap_append

theorem said_performed (t taskId : Nat) (out : WebrtcTaskOutput) :
    (performed taskId out).said t = if t = taskId then out.busEvent else none := by
  by_cases ht : t = taskId
  · rw [if_pos ht]
    cases out with
    | io action => cases action <;> rfl
    | trackMedia media => exact if_pos ht.symm
    | requestKeyframeTrack trackId kind => exact if_pos ht.symm
    | _ => rfl
  · rw [if_neg ht]
    cases out with
    | io action => cases action <;> rfl
    | trackMedia media => exact if_neg (Ne.symm ht)
    | requestKeyframeTrack trackId kind => exact if_neg (Ne.symm ht)
    | _ => rfl

theorem said_popActions (t taskId : Nat) (answer : Option (Except ExternError Output))
    (out : Option WebrtcTaskOutput) :
    (popActions taskId answer out).filterMap (Action.said t)
      = if t = taskId then (out.bind WebrtcTaskOutput.busEvent).toList else [] := by
  have hpolled : (answer.bind fun x => Action.said t (.polled taskId x)) = none := by
    cases answer <;> rfl
  rw [filterMap_popActions, hpolled]
  simp only [said_performed]
  by_cases ht : t = taskId
  · simp [ht]
  · cases out <;> simp [ht]

theorem Worker.Feeds.said {w w' : Worker Rtc} {actions : List Action} (h : Feeds w actions w')
    (t : Nat) : actions.filterMap (Action.said t) = [] :=
  h.filterMap_nil fun a ha => by cases a <;> simp [Action.isFeed] at ha <;> rfl

/--
What the sessions of a worker have said is what their engines had them say: a session
that is there has said all but what it still owes, and one that is gone the beginning of
it.
-/
structure Spoken (ext : Extern Rtc) (actions : List Action) (w : Worker Rtc) : Prop where
  live : ∀ t c, w.tasks.lookup t = some c →
    actions.filterMap (Action.said t) ++ c.task.core.outputs.filterMap WebrtcTaskOutput.busEvent
      = c.task.role.broadcasts ext (answers t actions)
  said : ∀ t, actions.filterMap (Action.said t) = [] ∨ ∃ req, Action.created t req ∈ actions ∧
    actions.filterMap (Action.said t)
      <+: (Role.ofRequest ext req).broadcasts ext (answers t actions)
  fresh : ∀ t, w.taskIdSeed ≤ t → actions.filterMap (Action.said t) = []

theorem spoken_new (addr : SocketAddr) : Spoken ext [] (Worker.new addr : Worker Rtc) :=
  ⟨by simp [Worker.new], fun _ => .inl rfl, fun _ _ => rfl⟩

namespace Spoken

variable {actions bs : List Action} {w w' : Worker Rtc}

/-- What a step in which nobody says or answers anything leaves of what was said. -/
theorem said_mono (h : Spoken ext actions w) (hsaid : ∀ t, bs.filterMap (Action.said t) = [])
    (hanswers : ∀ t, answers t bs = []) (t : Nat) :
    (actions ++ bs).filterMap (Action.said t) = [] ∨ ∃ req, Action.created t req ∈ actions ++ bs ∧
      (actions ++ bs).filterMap (Action.said t)
        <+: (Role.ofRequest ext req).broadcasts ext (answers t (actions ++ bs)) := by
  rw [List.filterMap_append, hsaid, List.append_nil, answers_append, hanswers, List.append_nil]
  refine (h.said t).imp_right ?_
  rintro ⟨req, hreq, hbegins⟩
  exact ⟨req, List.mem_append_left _ hreq, hbegins⟩

/-- A step in which nobody says or answers anything, and nobody is new. -/
theorem silent (h : Spoken ext actions w) (hsaid : ∀ t, bs.filterMap (Action.said t) = [])
    (hanswers : ∀ t, answers t bs = []) (hseed : w'.taskIdSeed = w.taskIdSeed)
    (hold : ∀ t c', w'.tasks.lookup t = some c' →
      ∃ c, w.tasks.lookup t = some c ∧ c.task.Quiet c'.task) :
    Spoken ext (actions ++ bs) w' := by
  refine ⟨fun t c' hc' => ?_, h.said_mono hsaid hanswers, fun t ht => ?_⟩
  · obtain ⟨c, hc, hq⟩ := hold t c' hc'
    rw [List.filterMap_append, hsaid, List.append_nil, answers_append, hanswers, List.append_nil,
      hq.core.outputs, hq.role]
    exact h.live t c hc
  · rw [List.filterMap_append, hsaid, List.append_nil]
    exact h.fresh t (hseed ▸ ht)

theorem register (h : Spoken ext actions w) (hh : History ext actions w) {config : RtcConfig Rtc}
    {req : HttpRequest} {task : ComposeTask Rtc} (hopen : Worker.Opened ext config req task) :
    Spoken ext (actions ++ [.created w.taskIdSeed req]) (w.register task) := by
  refine ⟨fun t c hc => ?_, h.said_mono (fun _ => rfl) (fun _ => rfl), fun t ht => ?_⟩
  · rw [List.filterMap_append, answers_append]
    rw [Worker.register_lookup] at hc
    by_cases ht : t = w.taskIdSeed
    · rw [if_pos ht] at hc
      cases hc
      obtain ⟨res, hres, -⟩ := hopen.outputs
      show _ ++ task.core.outputs.filterMap _ = task.role.broadcasts ext _
      rw [hres, h.fresh t (ht ▸ Nat.le_refl _), hh.fresh t (ht ▸ Nat.le_refl _)]
      rfl
    · rw [if_neg ht] at hc
      have hlive := h.live t c hc
      rw [← List.append_nil (answers t actions)] at hlive
      rw [← List.append_nil (actions.filterMap _)] at hlive
      exact hlive
  · rw [List.filterMap_append, h.fresh t (Nat.le_of_succ_le ht)]
    rfl

/-- A polled session says what it was owed to say, or what its engine has just told it to. -/
theorem performOn (h : Spoken ext actions w) (hb : Bounded w) (hh : History ext actions w)
    {taskId : Nat} {c : TaskContainer Rtc} {now : Instant} {out : Option WebrtcTaskOutput}
    {task : ComposeTask Rtc} (hl : w.tasks.lookup taskId = some c)
    (hp : ComposeTask.Popped ext now c.task out task) :
    Spoken ext (actions ++ popActions taskId (c.task.polled ext now) out)
      (w.performOn taskId out { c with task }) := by
  have hlive : (actions ++ popActions taskId (c.task.polled ext now) out).filterMap
        (Action.said taskId) ++ task.core.outputs.filterMap WebrtcTaskOutput.busEvent
      = c.task.role.broadcasts ext
          (answers taskId (actions ++ popActions taskId (c.task.polled ext now) out)) := by
    have hreturned : (out.bind WebrtcTaskOutput.busEvent).toList
          ++ task.core.outputs.filterMap WebrtcTaskOutput.busEvent
        = (out.toList ++ task.core.outputs).filterMap WebrtcTaskOutput.busEvent := by
      cases out with
      | none => rfl
      | some o =>
          rw [Option.bind_some, Option.toList_some, List.singleton_append, List.filterMap_cons]
          cases o.busEvent <;> rfl
    have hbroadcasts : c.task.role.broadcasts ext (c.task.polled ext now).toList
        = ((c.task.core.polled ext now).elim [] (c.task.role.translate ext)).filterMap
            WebrtcTaskOutput.busEvent := by
      rw [ComposeTask.polled]
      cases c.task.core.polled ext now <;> simp [Role.broadcasts]
    rw [List.filterMap_append, said_popActions, if_pos rfl, answers_append, answers_popActions,
      if_pos rfl, Role.broadcasts_append, hbroadcasts, List.append_assoc, hreturned,
      hp.core.conserves, List.filterMap_append, ← List.append_assoc, h.live taskId c hl]
  have hother : ∀ t, t ≠ taskId →
      (actions ++ popActions taskId (c.task.polled ext now) out).filterMap (Action.said t)
          = actions.filterMap (Action.said t) ∧
        answers t (actions ++ popActions taskId (c.task.polled ext now) out)
          = answers t actions := by
    intro t ht
    rw [List.filterMap_append, said_popActions, if_neg ht, answers_append, answers_popActions,
      if_neg ht]
    exact ⟨List.append_nil _, List.append_nil _⟩
  refine ⟨fun t c' hc' => ?_, fun t => ?_, fun t ht => ?_⟩
  · rw [Worker.performOn_lookup] at hc'
    by_cases ht : t = taskId
    · rw [if_pos ht] at hc'
      cases hc'
      subst ht
      show _ ++ task.core.outputs.filterMap _ = task.role.broadcasts ext _
      rw [hp.role]
      exact hlive
    · rw [if_neg ht] at hc'
      rw [(hother t ht).1, (hother t ht).2]
      exact h.live t c' hc'
  · by_cases ht : t = taskId
    · subst ht
      obtain ⟨req, hreq, -, hrole⟩ := (hh.live t c hl).created
      refine .inr ⟨req, List.mem_append_left _ hreq, ?_⟩
      rw [← hrole, ← hlive]
      exact List.prefix_append _ _
    · rw [(hother t ht).1, (hother t ht).2]
      refine (h.said t).imp_right ?_
      rintro ⟨req, hreq, hbegins⟩
      exact ⟨req, List.mem_append_left _ hreq, hbegins⟩
  · rw [Worker.performOn_taskIdSeed] at ht
    have hlt := hb.tasks taskId c hl
    rw [(hother t (by omega)).1]
    exact h.fresh t ht

theorem step (h : Spoken ext actions w) (hb : Bounded w) (hh : History ext actions w)
    (hs : Step ext admits w bs w') : Spoken ext (actions ++ bs) w' := by
  refine Step.rule (P := fun bs w' => Spoken ext (actions ++ bs) w') ?_ ?_ ?_ ?_ ?_ ?_ ?_ hs
  · intro bs v hf
    refine h.silent hf.said hf.answers hf.1.taskIdSeed fun t c' hc' => ?_
    obtain ⟨c, hc, -, hq⟩ := hf.1.lookup hc'
    exact ⟨c, hc, hq⟩
  · exact fun req => h.silent (fun _ => rfl) (fun _ => rfl) rfl fun t c hc => ⟨c, hc, .refl _⟩
  · exact fun config req task hopen _ => h.register hh hopen
  · intro remote username taskId _ _
    refine h.silent (fun _ => rfl) (fun _ => rfl) rfl fun t c hc => ?_
    obtain ⟨c₀, remotes, hc₀, rfl⟩ := Worker.bind_lookup_some hc
    exact ⟨c₀, hc₀, .refl _⟩
  · exact fun taskId c now out task hl hp => h.performOn hb hh hl hp
  · exact h.silent (fun _ => rfl) (fun _ => rfl) rfl fun t c hc => ⟨c, hc, .refl _⟩
  · intro taskId c hc
    refine h.silent (fun _ => rfl) (fun _ => rfl) rfl fun t c' hc' => ?_
    exact ⟨c', (Worker.without_lookup_some hc').2, .refl _⟩

end Spoken

theorem Worker.Reaches.spoken {addr : SocketAddr} {actions : List Action} {w : Worker Rtc}
    (h : Worker.Reaches ext admits addr actions w) : Spoken ext actions w := by
  refine (Emits.preserves
    (P := fun os w => Bounded w ∧ History ext os w ∧ Spoken ext os w)
    ?_ h.steps ⟨bounded_new addr, history_new addr, spoken_new addr⟩).2.2
  rintro os v bs v' ⟨hb, hh, hspoken⟩ hs
  exact ⟨hb.step hs, hh.step hb hs, hspoken.step hb hh hs⟩

/-! ### The bus, with who said what -/

/-- An event on the bus, and the session that broadcast it. -/
structure Post (n : Nat) where
  worker : Fin n
  taskId : Nat
  event : BusEvent

/-- The event of a post of the session `taskId` of the worker `u`. -/
def Post.saidBy (u : Fin n) (taskId : Nat) (post : Post n) : Option BusEvent :=
  if post.worker = u ∧ post.taskId = taskId then some post.event else none

/-- What the session `taskId` of the worker `u` said, among these posts. -/
def saidBy (u : Fin n) (taskId : Nat) (posts : List (Post n)) : List BusEvent :=
  posts.filterMap (Post.saidBy u taskId)

namespace Server

/-- What a step puts on the bus. -/
def posted (s : Server n Rtc) : Label n Rtc → List (Post n)
  | .broadcast w =>
      match (s.slots w).outgoing with
      | .broadcast taskId event :: _ => [{ worker := w, taskId, event }]
      | _ => []
  | _ => []

/-- What a run puts on the bus, in order. -/
def posts (ext : Extern Rtc) (s : Server n Rtc) (labels : List (Label n Rtc)) : List (Post n) :=
  emittedBy (step ext) posted s labels

theorem record_eq (labels : List (Label n Rtc)) :
    ∀ s : Server n Rtc, record ext s labels = emittedBy (step ext) (emitted ext) s labels := by
  induction labels with
  | nil => intro s; rfl
  | cons l rest ih =>
      intro s
      rw [record, emittedBy]
      cases s.step ext l with
      | none => rfl
      | some t => exact congrArg _ (ih t)

/-- The posts of a run are its bus, and, session by session, what was said and is not still due. -/
structure Posted (posts : List (Post n)) (entries : List (Entry n)) (s : Server n Rtc) : Prop where
  bus : s.bus = posts.map Post.event
  said : ∀ u t, saidBy u t posts ++ (s.slots u).outgoing.filterMap (Action.said t)
    = (actionsOf u entries).filterMap (Action.said t)

namespace Posted

variable {posts : List (Post n)} {entries : List (Entry n)} {s s' : Server n Rtc}

/-- A step that says nothing and puts nothing on the bus. -/
theorem silent (h : Posted posts entries s) (hbus : s'.bus = s.bus)
    (hout : ∀ u t, (s'.slots u).outgoing.filterMap (Action.said t)
      = (s.slots u).outgoing.filterMap (Action.said t)) :
    Posted (posts ++ []) (entries ++ []) s' := by
  rw [List.append_nil, List.append_nil]
  refine ⟨hbus.trans h.bus, fun u t => ?_⟩
  rw [hout]
  exact h.said u t

/-- The same, where it is one slot that is written back. -/
theorem silentSlot (h : Posted posts entries s) (w : Fin n) (slot : WorkerSlot Rtc)
    (hout : ∀ t, slot.outgoing.filterMap (Action.said t)
      = (s.slots w).outgoing.filterMap (Action.said t)) :
    Posted (posts ++ []) (entries ++ []) (s.setSlot w slot) := by
  refine h.silent rfl ?_
  exact forall_setSlot (P := fun u slot => ∀ t, slot.outgoing.filterMap (Action.said t)
    = (s.slots u).outgoing.filterMap (Action.said t)) hout fun _ _ => rfl

/-- What a turn has its sessions say is due when it is over, since nothing was before it. -/
theorem turn (h : Posted posts entries s) {w : Fin n} {slot : WorkerSlot Rtc}
    {actions : List Action} (hidle : (s.slots w).outgoing = [])
    (hout : slot.outgoing = actions.filter Action.isShared) :
    Posted (posts ++ []) (entries ++ actions.map (Prod.mk w)) (s.setSlot w slot) := by
  rw [List.append_nil]
  refine ⟨h.bus, fun u t => ?_⟩
  rw [setSlot_slots, actionsOf_append, actionsOf_turn, List.filterMap_append, ← h.said u t]
  by_cases hu : u = w
  · subst hu
    have hshared : (actions.filter Action.isShared).filterMap (Action.said t)
        = actions.filterMap (Action.said t) := by
      rw [List.filterMap_filter]
      refine List.filterMap_congr fun a _ => ?_
      cases a <;> rfl
    rw [if_pos rfl, if_pos rfl, hout, hshared, hidle, List.filterMap_nil, List.append_nil]
  · rw [if_neg hu, if_neg (Ne.symm hu), List.filterMap_nil, List.append_nil]

/-- A broadcast moves the first of what is due to the end of the bus. -/
theorem broadcast (h : Posted posts entries s) {w : Fin n} {taskId : Nat} {ev : BusEvent}
    {rest : List Action} (hout : (s.slots w).outgoing = .broadcast taskId ev :: rest) :
    Posted (posts ++ [{ worker := w, taskId, event := ev }]) (entries ++ [])
      { s.setSlot w { s.slots w with outgoing := rest } with
        bus := s.bus ++ [ev]
        lock := none } := by
  rw [List.append_nil]
  refine ⟨by rw [h.bus, List.map_append]; rfl, fun u t => ?_⟩
  rw [← h.said u t, saidBy, List.filterMap_append]
  show _ ++ (((s.setSlot w { s.slots w with outgoing := rest }).slots u).outgoing.filterMap _) = _
  rw [setSlot_slots]
  by_cases hu : u = w
  · subst hu
    rw [if_pos rfl, hout, List.append_assoc]
    by_cases ht : taskId = t
    · subst ht
      simp [saidBy, Post.saidBy, Action.said]
    · simp [saidBy, Post.saidBy, Action.said, ht]
  · rw [if_neg hu]
    simp [saidBy, Post.saidBy, Ne.symm hu]

theorem step (h : Posted posts entries s) {l : Label n Rtc} (hs : s.step ext l = some s') :
    Posted (posts ++ s.posted l) (entries ++ s.emitted ext l) s' := by
  cases l with
  | arrive req =>
      obtain ⟨-, rfl⟩ := arrive_some hs
      refine h.silent (input_bus _ _) fun u t => ?_
      rcases input_slots { req with reqId := s.reqId } s u with heq | ⟨-, -, -, heq⟩
      · rw [heq]
      · rw [heq]
  | insert =>
      obtain ⟨-, rfl⟩ := insert_some hs
      exact h.silent rfl fun _ _ => rfl
  | respond =>
      obtain ⟨res, rest, -, -, ⟨-, rfl⟩ | ⟨-, rfl⟩⟩ := respond_some hs
      · exact h.silent rfl fun _ _ => rfl
      · exact h.silent rfl fun _ _ => rfl
  | spawn w =>
      obtain ⟨-, -, rfl⟩ := spawn_some hs
      exact h.silentSlot w _ fun _ => rfl
  | turn w op =>
      obtain ⟨hidle, slot, htaken, ⟨p, hexec, rfl⟩ | ⟨worker, actions, hexec, rfl⟩⟩ := turn_some hs
      · rw [htaken.worker] at hexec
        simp only [emitted, hexec]
        refine h.silentSlot w _ fun t => ?_
        rw [WorkerSlot.panic, htaken.outgoing]
      · rw [htaken.worker] at hexec
        simp only [emitted, hexec]
        exact h.turn hidle rfl
  | nextPhase w =>
      obtain ⟨-, phase, -, -, -, rfl⟩ := nextPhase_some hs
      exact h.silentSlot w _ fun _ => rfl
  | startPop w order now =>
      obtain ⟨-, -, rfl⟩ := startPop_some hs
      exact h.silentSlot w _ fun _ => rfl
  | reply w =>
      obtain ⟨res, rest, hout, rfl⟩ := reply_some hs
      have hsame : ∀ t, rest.filterMap (Action.said t)
          = (s.slots w).outgoing.filterMap (Action.said t) := by
        intro t
        rcases hout with hout | ⟨hout, -⟩
        · rw [hout]
          rfl
        · rw [hout]
          rfl
      refine h.silent rfl ?_
      exact forall_setSlot (P := fun u slot => ∀ t, slot.outgoing.filterMap (Action.said t)
        = (s.slots u).outgoing.filterMap (Action.said t)) hsame fun _ _ => rfl
  | lock w =>
      obtain ⟨-, -, -, rfl⟩ := callLock_some hs
      exact h.silentSlot w _ fun _ => rfl
  | acquire w =>
      obtain ⟨-, -, rfl⟩ := acquire_some hs
      have hkept := h.silentSlot w { s.slots w with queued := false } fun _ => rfl
      exact ⟨hkept.bus, hkept.said⟩
  | broadcast w =>
      obtain ⟨taskId, ev, rest, hout, -, -, rfl⟩ := broadcast_some hs
      simp only [posted, hout]
      exact h.broadcast hout

end Posted

/-- **The posts of a run account for its bus and for everything its sessions said.** -/
theorem posted_run {localAddrs : Fin n → SocketAddr} {labels : List (Label n Rtc)}
    {s : Server n Rtc}
    (hrun : runLabels (Server.step ext) (Server.new localAddrs) labels = some s) :
    Posted (posts ext (Server.new localAddrs) labels)
      (record ext (Server.new localAddrs) labels) s := by
  refine runLabels_induct (P := fun labels s =>
    Posted (posts ext (Server.new localAddrs) labels)
      (record ext (Server.new localAddrs) labels) s) ⟨rfl, fun _ _ => rfl⟩ ?_ hrun
  intro labels s l t hrun h hs
  rw [posts, record_eq, emittedBy_concat labels hrun hs, emittedBy_concat labels hrun hs,
    ← record_eq]
  exact h.step hs

end Server

/-! ### What a session writes -/

/-- The packet a session writes when it is handed this event. -/
def BusEvent.write : BusEvent → Option RtpWrite
  | .trackMedia media => some (media.toWrite (media.header.kind = .video))
  | .trackKeyframeRequest _ _ => none

/-- The packet an action has the engine of `taskId` write. -/
def Action.written (taskId : Nat) : Action → Option RtpWrite
  | .writeRtp t _ write => if t = taskId then some write else none
  | _ => none

/-- A session that writes something writes the packet it was handed. -/
theorem ComposeTask.rtpWrite_write {event : WebrtcTaskInput} {task : ComposeTask Rtc} {mid : Mid}
    {write : RtpWrite} (h : task.rtpWrite ext event = some (mid, write)) :
    event.busEvent.bind BusEvent.write = some write := by
  cases task with
  | whip task => cases event <;> cases h
  | whep task =>
      cases event with
      | trackMedia media =>
          rw [rtpWrite_whep] at h
          obtain ⟨mid', -, hwrite⟩ := Option.bind_eq_some_iff.mp h
          obtain ⟨stream, -, heq⟩ := Option.map_eq_some_iff.mp hwrite
          cases heq
          rfl
      | _ => cases h

theorem inputTask_written {now : Instant} {event : WebrtcTaskInput} {taskId : Nat}
    {w w' : Worker Rtc} {actions : List Action}
    (h : w.inputTask ext now event taskId = .ok (w', actions)) (t : Nat) :
    (actions.filterMap (Action.written t)).Sublist
      ((actions.filterMap (Action.delivered t)).filterMap BusEvent.write) := by
  rcases Worker.inputTask_ok h with ⟨-, -, rfl⟩ | ⟨c, b, task, -, -, -, rfl⟩
  · exact List.Sublist.slnil
  · cases hwrite : c.task.rtpWrite ext event with
    | none => exact List.nil_sublist _
    | some r =>
        obtain ⟨mid, write⟩ := r
        have hsame := ComposeTask.rtpWrite_write hwrite
        by_cases ht : taskId = t
        · obtain ⟨ev, hev, hw⟩ := Option.bind_eq_some_iff.mp hsame
          simp [List.filterMap_cons, Action.written, Action.delivered, ht, hev, hw]
        · simp [List.filterMap_cons, Action.written, Action.delivered, ht]

/-- What a step has a session write is picked out of what the step hands it. -/
theorem Step.written {w w' : Worker Rtc} {actions : List Action}
    (hs : Step ext admits w actions w') (t : Nat) :
    (actions.filterMap (Action.written t)).Sublist
      ((actions.filterMap (Action.delivered t)).filterMap BusEvent.write) := by
  cases hnone : actions.filterMap (Action.written t) with
  | nil => exact List.nil_sublist _
  | cons write rest =>
      rw [← hnone]
      have hmem : write ∈ actions.filterMap (Action.written t) := hnone ▸ List.mem_cons_self
      obtain ⟨a, ha, hwritten⟩ := List.mem_filterMap.mp hmem
      obtain ⟨mid, rfl⟩ : ∃ mid, a = .writeRtp t mid write := by
        cases a with
        | writeRtp t' mid write' =>
            simp only [Action.written] at hwritten
            split at hwritten <;> cases hwritten
            exact ⟨mid, by subst t'; rfl⟩
        | _ => cases hwritten
      obtain ⟨ev, now, hrun⟩ := hs.write ha
      obtain ⟨fed, hinputs, rfl⟩ := Worker.handleBusEvent_ok hrun
      show (fed.filterMap (Action.written t)).Sublist
        ((fed.filterMap (Action.delivered t)).filterMap BusEvent.write)
      refine forEach_preserves (P := fun os _ => (os.filterMap (Action.written t)).Sublist
        ((os.filterMap (Action.delivered t)).filterMap BusEvent.write)) ?_ hinputs
        List.Sublist.slnil
      intro taskId u v os bs hstep hos
      rw [List.filterMap_append, List.filterMap_append, List.filterMap_append]
      exact hos.append (inputTask_written hstep t)

theorem Worker.Reaches.written_sublist {addr : SocketAddr} {actions : List Action} {w : Worker Rtc}
    (h : Worker.Reaches ext admits addr actions w) (t : Nat) :
    (actions.filterMap (Action.written t)).Sublist
      ((actions.filterMap (Action.delivered t)).filterMap BusEvent.write) := by
  refine Emits.preserves (P := fun os _ => (os.filterMap (Action.written t)).Sublist
    ((os.filterMap (Action.delivered t)).filterMap BusEvent.write)) ?_ h.steps List.Sublist.slnil
  intro os u bs v hos hs
  rw [List.filterMap_append, List.filterMap_append, List.filterMap_append]
  exact hos.append (hs.written t)

/-! ### From end to end -/

/-- What goes by a session is what its worker reads. -/
theorem view_body (t : Nat) (actions : List Action) :
    (actions.filterMap (Action.view t)).filterMap Broker.Event.body
      = actions.filterMap Action.readEvent := by
  rw [List.filterMap_filterMap]
  refine List.filterMap_congr fun a _ => ?_
  cases a with
  | subscribed t' trackId => by_cases ht : t' = t <;> simp [Action.view, ht] <;> rfl
  | published t' trackId => by_cases ht : t' = t <;> simp [Action.view, ht] <;> rfl
  | removed t' => by_cases ht : t' = t <;> simp [Action.view, ht] <;> rfl
  | _ => rfl

/-- What is picked out of the values of a partial function are the values of what is picked out. -/
theorem exists_picked {α β : Type*} {f : α → Option β} {values : List β} {all : List α}
    (h : values.Sublist (all.filterMap f)) :
    ∃ picked : List α, picked.Sublist all ∧ picked.map f = values.map some := by
  obtain ⟨some', hsub, rfl⟩ := List.sublist_filterMap_iff.mp h
  refine ⟨some'.filter fun a => (f a).isSome, List.filter_sublist.trans hsub, ?_⟩
  clear h hsub
  induction some' with
  | nil => rfl
  | cons a rest ih =>
      cases ha : f a with
      | none => simp [ha, ih]
      | some b => simp [ha, ih]

/-- Every post is of a session that was opened. -/
theorem Server.Posted.created {posts : List (Post n)} {entries : List (Entry n)} {s : Server n Rtc}
    (h : Posted posts entries s)
    (hspoken : ∀ u, Spoken ext (actionsOf u entries) (s.slots u).worker) {post : Post n}
    (hpost : post ∈ posts) : ∃ req, (post.worker, Action.created post.taskId req) ∈ entries := by
  have hmem : post.event ∈ saidBy post.worker post.taskId posts :=
    List.mem_filterMap.mpr ⟨post, hpost, by simp [Post.saidBy]⟩
  have hsaid : post.event ∈ (actionsOf post.worker entries).filterMap (Action.said post.taskId) :=
    h.said post.worker post.taskId ▸ List.mem_append_left _ hmem
  rcases (hspoken post.worker).said post.taskId with hnone | ⟨req, hreq, -⟩
  · rw [hnone] at hsaid
    cases hsaid
  · exact ⟨req, mem_actionsOf.mp hreq⟩

/-- What a session has put on the bus is the beginning of what its engine had it say. -/
theorem Server.Posted.begins {posts : List (Post n)} {entries : List (Entry n)} {s : Server n Rtc}
    (h : Posted posts entries s) {u : Fin n} {addr : SocketAddr}
    (hworker : Worker.Reaches ext admits addr (actionsOf u entries) (s.slots u).worker) (t : Nat)
    (req : HttpRequest) (hreq : (u, Action.created t req) ∈ entries) :
    saidBy u t posts
      <+: (Role.ofRequest ext req).broadcasts ext (answers t (actionsOf u entries)) := by
  have hposted : saidBy u t posts <+: (actionsOf u entries).filterMap (Action.said t) :=
    h.said u t ▸ List.prefix_append _ _
  rcases hworker.spoken.said t with hnone | ⟨req', hreq', hbegins⟩
  · rw [hnone] at hposted
    rw [List.prefix_nil.mp hposted]
    exact List.nil_prefix
  · rw [hworker.created_unique (mem_actionsOf.mpr hreq) hreq']
    exact hposted.trans hbegins

/--
**Between two sessions the order is kept, and nothing comes through twice.**  In any run of
any number of workers, where each engine connects at most once and the track ids of the
channels in use do not collide.  The bus is the posts of the run, each by a session that was
opened; what a session has put on it is the beginning of what the answers of its engine
stand for, in the order they were polled.  What a session is handed is picked out of the
posts, each taken once and in their order, and what it writes is picked out of what it is
handed; so what it has of any one session, be it media or keyframe requests, is picked
out of what that session's engine had it say.
-/
theorem relayed_in_order {localAddrs : Fin n → SocketAddr} {labels : List (Label n Rtc)}
    {s : Server n Rtc} {posts : List (Post n)} {entries : List (Entry n)}
    (hrun : runLabels (Server.step ext) (Server.new localAddrs) labels = some s)
    (hposts : posts = Server.posts ext (Server.new localAddrs) labels)
    (hentries : entries = Server.record ext (Server.new localAddrs) labels)
    (hconnected : ∀ v t, (answers t (actionsOf v entries)).countP isConnected ≤ 1)
    (hdistinct : TrackIdsDistinct ext entries) :
    s.bus = posts.map Post.event ∧
      (∀ post ∈ posts, ∃ req, (post.worker, Action.created post.taskId req) ∈ entries) ∧
      (∀ u t req, (u, Action.created t req) ∈ entries →
        saidBy u t posts
          <+: (Role.ofRequest ext req).broadcasts ext (answers t (actionsOf u entries))) ∧
      ∀ v t, ∃ handed written : List (Post n), handed.Sublist posts ∧ written.Sublist handed ∧
        (actionsOf v entries).filterMap (Action.delivered t) = handed.map Post.event ∧
        ((actionsOf v entries).filterMap (Action.written t)).map some
          = written.map (fun post => post.event.write) ∧
        ∀ u t' req, (u, Action.created t' req) ∈ entries →
          (saidBy u t' handed).Sublist
            ((Role.ofRequest ext req).broadcasts ext (answers t' (actionsOf u entries))) := by
  subst hposts hentries
  have hreaches := Server.reaches_of_run localAddrs hrun
  have hjournal := hreaches.journal
  have hposted := Server.posted_run hrun
  have hbegins := fun u => hposted.begins (hjournal.worker u)
  refine ⟨hposted.bus, fun post => hposted.created fun u => (hjournal.worker u).spoken, hbegins,
    fun v t => ?_⟩
  -- Of what its worker has read, which is one stretch of the bus.
  have hreads : (reads v (Server.record ext (Server.new localAddrs) labels)).Sublist
      ((Server.posts ext (Server.new localAddrs) labels).map Post.event) := by
    obtain ⟨start, -, hseen, -⟩ := (hjournal.reading v).stretch
    rw [← hposted.bus]
    exact hseen.sublist.trans (List.drop_sublist _ _)
  obtain ⟨-, hdelivered, -⟩ := bus_events_routed hreaches hconnected hdistinct v
  have hpicked := Broker.received_sublist BusEvent.topic
    ((actionsOf v (Server.record ext (Server.new localAddrs) labels)).filterMap (Action.view t)) []
  rw [← hdelivered t, view_body] at hpicked
  obtain ⟨handed, hhanded, heq⟩ := List.sublist_map_iff.mp (hpicked.trans hreads)
  have hwritten := (hjournal.worker v).written_sublist t
  rw [heq, List.filterMap_map] at hwritten
  obtain ⟨written, hsub, hwrites⟩ := exists_picked hwritten
  refine ⟨handed, written, hhanded, hsub, heq, hwrites.symm, fun u t' req hreq => ?_⟩
  exact (hhanded.filterMap _).trans (hbegins u t' req hreq).sublist

open Script in
/-- A viewer at `v`, a publisher at `w`, and two packets from the one to the other. -/
def Script.stream (v w : Fin n) : List (Label n Script) :=
  [.spawn v, .spawn w,
    .arrive (request 0 "/whep/endpoint" [0x76]), .insert,
    .arrive (request 0 "/whip/endpoint" [0x76]), .insert,
    .nextPhase v,
    .turn v (.request (arrival 0 "/whep/endpoint" [0x76] "abc"
      [.event .connected, .event (.mediaAdded "a" .audio)])),
    .reply v, .nextPhase v, .turn v (.tick [0] 0), .startPop v [0] 0, .turn v (.pop 0 0),
    .nextPhase v, .turn v .popEnded, .nextPhase v,
    .nextPhase w,
    .turn w (.request (arrival 1 "/whip/endpoint" [0x76] "def"
      [.event (.rtpPacket (packet 111 [7])), .event (.rtpPacket (packet 111 [8]))])),
    .reply w, .lock w, .acquire w, .broadcast w, .lock w, .acquire w, .broadcast w,
    .turn v (.busEvent (.trackMedia (.fromRaw 8 (packet 111 [7]))) 0),
    .turn v (.busEvent (.trackMedia (.fromRaw 8 (packet 111 [8]))) 0)]

/-- Where the channels in use are `demo`, track ids do not collide. -/
theorem Script.demo_distinct {entries : List (Entry n)}
    (hdemo : ∀ channel ∈ channels entries, channel = "demo") :
    TrackIdsDistinct Script.engine entries := by
  intro channel hchannel channel' hchannel' kind kind' heq
  obtain rfl := hdemo channel hchannel
  obtain rfl := hdemo channel' hchannel'
  refine ⟨rfl, ?_⟩
  cases kind <;> cases kind' <;> first | rfl | exact absurd heq (by decide +kernel)

/-- Where each worker has opened one session at most, it is enough to look at that one. -/
theorem Script.connected_once {localAddrs : Fin n → SocketAddr} {entries : List (Entry n)}
    {s : Server n Script} (hs : Server.Reaches Script.engine localAddrs entries s)
    (hseed : ∀ v, (s.slots v).worker.taskIdSeed ≤ 1)
    (hfirst : ∀ v, (answers 0 (actionsOf v entries)).countP isConnected ≤ 1) (v : Fin n) (t : Nat) :
    (answers t (actionsOf v entries)).countP isConnected ≤ 1 := by
  rcases Nat.eq_zero_or_pos t with rfl | ht
  · exact hfirst v
  · rw [(hs.journal.worker v).history.fresh t (Nat.le_trans (hseed v) ht)]
    exact Nat.zero_le 1

/-- The viewer is handed both packets, in the order the publisher's engine gave them. -/
theorem relayed_in_order_stream :
    ∃ handed : List (Post 2),
      handed.Sublist (Server.posts Script.engine (Server.new fun _ => Script.addr)
        (Script.stream (0 : Fin 2) 1)) ∧
        handed.map Post.event = [.trackMedia (.fromRaw 8 (Script.packet 111 [7])),
          .trackMedia (.fromRaw 8 (Script.packet 111 [8]))] := by
  have hend : (runLabels (Server.step Script.engine) (Server.new fun _ => Script.addr)
      (Script.stream (0 : Fin 2) 1)).any
        (fun s => ∀ v, (s.slots v).worker.taskIdSeed ≤ 1) = true := by
    decide +kernel
  obtain ⟨s, hs, hseed⟩ := Option.any_eq_true _ _ |>.mp hend
  have hchannels : ∀ channel ∈ channels (Server.record Script.engine
      (Server.new fun _ => Script.addr) (Script.stream (0 : Fin 2) 1)), channel = "demo" := by
    decide +kernel
  have hfirst : ∀ v, (answers 0 (actionsOf v (Server.record Script.engine
      (Server.new fun _ => Script.addr) (Script.stream (0 : Fin 2) 1)))).countP
        isConnected ≤ 1 := by
    decide +kernel
  have hdelivered : (actionsOf 0 (Server.record Script.engine (Server.new fun _ => Script.addr)
      (Script.stream (0 : Fin 2) 1))).filterMap (Action.delivered 0)
        = [.trackMedia (.fromRaw 8 (Script.packet 111 [7])),
          .trackMedia (.fromRaw 8 (Script.packet 111 [8]))] := by
    decide +kernel
  obtain ⟨-, -, -, hsessions⟩ := relayed_in_order hs rfl rfl
    (Script.connected_once (Server.reaches_of_run _ hs) (by simpa using hseed) hfirst)
    (Script.demo_distinct hchannels)
  obtain ⟨handed, -, hsub, -, heq, -⟩ := hsessions 0 0
  exact ⟨handed, hsub, heq.symm.trans hdelivered⟩

end MediaServer
