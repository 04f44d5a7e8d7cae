/-
Who is handed which bus event.

A bus event has a topic: a track, and the side of the exchange it is on.  Subscribing
joins a session to a track on the side media flows, publishing on the side keyframe
requests flow, and removal ends both.  What a worker logs is therefore, for each of its
sessions, a history of the kind `Lib.Broker` speaks of, and what that session should be
handed is `Broker.received` of it.

`Routed` says that it is handed exactly that.  The channels hold session ids, with
multiplicity, some of them of sessions long gone; what makes the equation come out is
that a live session is listed as often as it has joined, and that it joins once
because its engine connects once and its two tracks differ.
-/
import MediaServer.Lib.Broker
import MediaServer.Proofs.Journal
import MediaServer.Proofs.Teardown

namespace MediaServer

open Lib

variable {Rtc : Type} {n : Nat} {ext : Extern Rtc} {admits : Worker Rtc → RtcConfig Rtc → Prop}

/-! ### Topics -/

/-- The side an event is on, and its track. -/
def BusEvent.topic : BusEvent → Side × UInt64
  | .trackMedia media => (.media, media.trackId)
  | .trackKeyframeRequest trackId _ => (.keyframe, trackId)

/-- The topic an action of a session joins. -/
def WebrtcTaskOutput.joins : WebrtcTaskOutput → Option (Side × UInt64)
  | .subscribeTrack trackId => some (.media, trackId)
  | .publishTrack trackId => some (.keyframe, trackId)
  | _ => none

theorem Side.joins_iff {side : Side} {trackId : UInt64} {out : WebrtcTaskOutput} :
    side.joins out = some trackId ↔ out.joins = some (side, trackId) := by
  cases out <;> cases side <;> simp [Side.joins, WebrtcTaskOutput.joins]

/-- The bus event an input hands on. -/
def WebrtcTaskInput.busEvent : WebrtcTaskInput → Option BusEvent
  | .io _ => none
  | .trackMedia media => some (.trackMedia media)
  | .requestKeyframeTrack trackId kind => some (.trackKeyframeRequest trackId kind)

/-- What the log says to the session `taskId`, seen as a participant of an exchange. -/
def Action.view (taskId : Nat) : Action → Option (Broker.Event (Side × UInt64) BusEvent)
  | .read ev => some (.message ev)
  | .subscribed t trackId => if t = taskId then some (.join (.media, trackId)) else none
  | .published t trackId => if t = taskId then some (.join (.keyframe, trackId)) else none
  | .removed t => if t = taskId then some .leave else none
  | _ => none

/-- The bus event an action hands to the session `taskId`. -/
def Action.delivered (taskId : Nat) : Action → Option BusEvent
  | .input t event => if t = taskId then event.busEvent else none
  | _ => none

/-! ### A session joins its two tracks once -/

/-- Whether an answer of the engine reports that it is connected. -/
def isConnected : Except ExternError Output → Bool
  | .ok (.event .connected) => true
  | _ => false

/-- The ids of a session's two tracks. -/
def Role.trackIds (ext : Extern Rtc) : Role → UInt64 × UInt64
  | .publisher audioTrackId videoTrackId => (audioTrackId, videoTrackId)
  | .viewer channel => (trackIdBuilder ext channel .audio, trackIdBuilder ext channel .video)

/-- They are those of the channel its request named, whichever kind of session it is. -/
theorem Role.trackIds_ofRequest (req : HttpRequest) :
    (Role.ofRequest ext req).trackIds ext
      = (trackIdBuilder ext (getHttpAuth req) .audio,
          trackIdBuilder ext (getHttpAuth req) .video) := by
  unfold ofRequest
  split <;> rfl

theorem Role.translate_joined (role : Role) (side : Side) (answer : Except ExternError Output) :
    (role.translate ext answer).filterMap side.joins
      = if isConnected answer = true ∧ role.side = side then
          [(role.trackIds ext).1, (role.trackIds ext).2]
        else [] := by
  cases answer with
  | error e => rfl
  | ok o =>
      cases o with
      | timeout t => rfl
      | transmit send => cases side <;> rfl
      | event e =>
          cases role <;> cases side <;> cases e <;> try rfl
          all_goals
            rename_i state
            cases state <;> rfl

/-- Whatever a session joins is one of its two tracks. -/
theorem Role.mem_joins {role : Role} {side : Side} {said : List (Except ExternError Output)}
    {trackId : UInt64} (h : trackId ∈ role.joins ext side said) :
    role.side = side ∧ (trackId = (role.trackIds ext).1 ∨ trackId = (role.trackIds ext).2) := by
  obtain ⟨answer, -, hmem⟩ := List.mem_flatMap.mp h
  rw [Role.translate_joined] at hmem
  split at hmem
  · rename_i hc
    exact ⟨hc.2, by simpa using hmem⟩
  · cases hmem

/-- An engine that connects once joins its session to each of its tracks once. -/
theorem Role.joins_nodup {role : Role} (hne : (role.trackIds ext).1 ≠ (role.trackIds ext).2)
    (side : Side) :
    ∀ said : List (Except ExternError Output), said.countP isConnected ≤ 1 →
      (role.joins ext side said).Nodup := by
  intro said
  induction said with
  | nil => intro _; exact List.nodup_nil
  | cons answer rest ih =>
      intro hcount
      rw [List.countP_cons] at hcount
      have hrest : (role.joins ext side rest).Nodup := ih (by omega)
      rw [Role.joins, List.flatMap_cons, Role.translate_joined]
      split
      · rename_i hc
        -- This was the one time; nothing after it joins anything.
        rw [if_pos hc.1] at hcount
        have hnone : role.joins ext side rest = [] := by
          refine List.flatMap_eq_nil_iff.mpr fun a ha => ?_
          rw [Role.translate_joined, if_neg]
          rintro ⟨hconn, -⟩
          have := List.countP_pos_iff.mpr ⟨a, ha, hconn⟩
          omega
        rw [Role.joins] at hnone
        simpa [hnone] using hne
      · exact hrest

/-- Each engine connects at most once, and a session's two tracks have different ids. -/
structure JoinsOnce (ext : Extern Rtc) (actions : List Action) : Prop where
  connected : ∀ t, (answers t actions).countP isConnected ≤ 1
  distinct : ∀ t req, Action.created t req ∈ actions →
    trackIdBuilder ext (getHttpAuth req) .audio ≠ trackIdBuilder ext (getHttpAuth req) .video

theorem JoinsOnce.of_append {as bs : List Action} (h : JoinsOnce ext (as ++ bs)) :
    JoinsOnce ext as := by
  refine ⟨fun t => ?_, fun t req hreq => h.distinct t req (List.mem_append_left _ hreq)⟩
  have := h.connected t
  rw [answers_append, List.countP_append] at this
  omega

theorem Explained.tracks_nodup {actions : List Action} {t : Nat} {c : TaskContainer Rtc}
    (h : Explained ext actions t c) (hone : JoinsOnce ext actions) (side : Side) :
    (side.tracks c).Nodup := by
  obtain ⟨req, hreq, -, hrole⟩ := h.created
  have hall : (c.task.role.joins ext side (answers t actions)).Nodup := by
    refine Role.joins_nodup ?_ side _ (hone.connected t)
    rw [hrole, Role.trackIds_ofRequest]
    exact hone.distinct t req hreq
  rw [← h.joins side] at hall
  exact (List.nodup_append.mp hall).1

/-! ### One bus event -/

/-- A bus event goes to the sessions listed for its topic, and is handed on as it is. -/
theorem recipients_topic (ev : BusEvent) (w : Worker Rtc) :
    (w.recipients ev).1 = ev.topic.1.ids w.busChannels ev.topic.2 ∧
      (w.recipients ev).2.busEvent = some ev := by
  cases ev <;> exact ⟨rfl, rfl⟩

/-- What one input delivers, and that it joins nothing. -/
theorem inputTask_delivered {now : Instant} {event : WebrtcTaskInput} {taskId : Nat}
    {w w' : Worker Rtc} {actions : List Action}
    (h : w.inputTask ext now event taskId = .ok (w', actions)) (t : Nat) :
    actions.filterMap (Action.delivered t)
        = (if taskId = t ∧ (w.tasks.lookup t).isSome then event.busEvent else none).toList ∧
      actions.filterMap (Action.view t) = [] ∧
      (w'.tasks.lookup t).isSome = (w.tasks.lookup t).isSome := by
  rcases Worker.inputTask_ok h with ⟨hnone, rfl, rfl⟩ | ⟨c, b, task, hc, -, rfl, rfl⟩
  · refine ⟨?_, rfl, rfl⟩
    rw [if_neg]
    · rfl
    · rintro ⟨rfl, hsome⟩
      rw [hnone] at hsome
      cases hsome
  · refine ⟨?_, ?_, ?_⟩
    · have hwrite : ((c.task.rtpWrite ext event).map
          fun r => Action.writeRtp taskId r.1 r.2).toList.filterMap (Action.delivered t) = [] := by
        cases c.task.rtpWrite ext event <;> rfl
      by_cases ht : taskId = t
      · subst ht
        rw [List.filterMap_cons, hwrite, if_pos ⟨rfl, by rw [hc]; rfl⟩]
        simp only [Action.delivered, if_pos]
        cases event.busEvent <;> rfl
      · rw [List.filterMap_cons, hwrite, if_neg fun hc => ht hc.1]
        simp [Action.delivered, ht]
    · cases c.task.rtpWrite ext event <;> rfl
    · rw [Table.lookup_insert_ite]
      split
      · rename_i ht
        rw [ht, hc]
        rfl
      · rfl

/-- A walk over a channel's list hands the event to a live session once per listing. -/
theorem inputTasks_delivered {now : Instant} {event : WebrtcTaskInput} {ev : BusEvent}
    (hev : event.busEvent = some ev) (t : Nat) :
    ∀ {taskIds : List Nat} {w w' : Worker Rtc} {actions : List Action},
      forEach (Worker.inputTask ext now event) taskIds w = .ok (w', actions) →
      actions.filterMap (Action.delivered t)
          = (if (w.tasks.lookup t).isSome then List.replicate (taskIds.count t) ev else []) ∧
        actions.filterMap (Action.view t) = [] := by
  intro taskIds
  induction taskIds with
  | nil =>
      intro w w' actions h
      cases h
      simp
  | cons taskId rest ih =>
      intro w w' actions h
      obtain ⟨v, acts, acts', hfirst, hrest, rfl⟩ := forEach_cons_ok.mp h
      obtain ⟨hdel, hview, hlive⟩ := inputTask_delivered hfirst t
      obtain ⟨hdel', hview'⟩ := ih hrest
      rw [List.filterMap_append, List.filterMap_append, hdel, hdel', hview, hview', hlive, hev]
      refine ⟨?_, rfl⟩
      by_cases hsome : (w.tasks.lookup t).isSome
      · by_cases ht : taskId = t
        · simp [hsome, ht, List.replicate_succ]
        · simp [hsome, ht]
      · simp [hsome]

/-! ### The exchange, seen from one session -/

/-- The session `t` is in the map, and has joined this topic. -/
def Worker.Joined (w : Worker Rtc) (t : Nat) (topic : Side × UInt64) : Prop :=
  ∃ c, w.tasks.lookup t = some c ∧ topic.2 ∈ topic.1.tracks c

/-- What the log says `t` is a participant of is what `t` has joined, and it got its due. -/
structure Routed (t : Nat) (actions : List Action) (w : Worker Rtc) : Prop where
  topics : ∀ topic, topic ∈ Broker.topicsAfter [] (actions.filterMap (Action.view t)) ↔
    w.Joined t topic
  delivered : actions.filterMap (Action.delivered t)
    = Broker.received BusEvent.topic [] (actions.filterMap (Action.view t))

theorem routed_new (t : Nat) (addr : SocketAddr) :
    Routed t [] (Worker.new addr : Worker Rtc) := by
  refine ⟨fun topic => ?_, rfl⟩
  simp [Broker.topicsAfter, Worker.Joined, Worker.new]

namespace Routed

/-- A step is routed where it serves its own part of the history from the topics before it. -/
theorem extend {t : Nat} {actions bs : List Action} {w w' : Worker Rtc} (h : Routed t actions w)
    (htopics : ∀ topic, topic ∈ Broker.topicsAfter
        (Broker.topicsAfter [] (actions.filterMap (Action.view t)))
        (bs.filterMap (Action.view t)) ↔ w'.Joined t topic)
    (hdelivered : bs.filterMap (Action.delivered t)
      = Broker.received BusEvent.topic
          (Broker.topicsAfter [] (actions.filterMap (Action.view t)))
          (bs.filterMap (Action.view t))) :
    Routed t (actions ++ bs) w' := by
  refine ⟨fun topic => ?_, ?_⟩
  · rw [List.filterMap_append, Broker.topicsAfter_append]
    exact htopics topic
  · rw [List.filterMap_append, List.filterMap_append, Broker.received_append, h.delivered,
      hdelivered]

/-- A step that neither reads, joins, removes nor delivers, and changes nobody's tracks. -/
theorem silent {t : Nat} {actions bs : List Action} {w w' : Worker Rtc} (h : Routed t actions w)
    (hview : bs.filterMap (Action.view t) = []) (hdel : bs.filterMap (Action.delivered t) = [])
    (hjoined : ∀ topic, w'.Joined t topic ↔ w.Joined t topic) : Routed t (actions ++ bs) w' := by
  refine h.extend (fun topic => ?_) ?_
  · rw [hview, hjoined]
    exact h.topics topic
  · rw [hview, hdel]
    rfl

end Routed

theorem Worker.Quiet.joined {w w' : Worker Rtc} (h : Quiet w w') (t : Nat)
    (topic : Side × UInt64) : w'.Joined t topic ↔ w.Joined t topic := by
  have htracks : ∀ (side : Side) (c : TaskContainer Rtc) (task : ComposeTask Rtc),
      side.tracks { c with task } = side.tracks c := by
    intro side c task
    cases side <;> rfl
  constructor
  · rintro ⟨c', hc', hmem⟩
    obtain ⟨c, hc, heq, -⟩ := h.lookup hc'
    rw [heq, htracks] at hmem
    exact ⟨c, hc, hmem⟩
  · rintro ⟨c, hc, hmem⟩
    obtain ⟨task, hc', -⟩ := h.lookup' hc
    exact ⟨_, hc', by rwa [htracks]⟩

/-- An event read is delivered to a session that has joined its topic, once, and to no other. -/
theorem Routed.busEvent {t : Nat} {actions bs : List Action} {w w' : Worker Rtc} {ev : BusEvent}
    {now : Instant} (h : Routed t actions w) (hlisted : Listed w)
    (hnodup : ∀ c, w.tasks.lookup t = some c → ∀ side : Side, (side.tracks c).Nodup)
    (hrun : w.handleBusEvent ext ev now = .ok (w', bs)) : Routed t (actions ++ bs) w' := by
  have hquiet := (Worker.handleBusEvent_feeds hrun).1
  obtain ⟨acts, hinputs, rfl⟩ := Worker.handleBusEvent_ok hrun
  obtain ⟨hids, hevent⟩ := recipients_topic ev w
  obtain ⟨hdel, hview⟩ := inputTasks_delivered hevent t hinputs
  have hview' : (Action.read ev :: acts).filterMap (Action.view t) = [.message ev] := by
    rw [List.filterMap_cons, hview]
    rfl
  refine h.extend (fun topic => ?_) ?_
  · rw [hview', hquiet.joined]
    exact h.topics topic
  · have hdel' : (Action.read ev :: acts).filterMap (Action.delivered t)
        = acts.filterMap (Action.delivered t) := rfl
    rw [hview', Broker.received_message, hdel', hdel, hids]
    cases hc : w.tasks.lookup t with
    | none =>
        rw [if_neg (by simp), if_neg]
        rw [h.topics]
        rintro ⟨c, hc', -⟩
        rw [hc] at hc'
        cases hc'
    | some c =>
        have hjoined : ev.topic ∈ Broker.topicsAfter [] (actions.filterMap (Action.view t)) ↔
            ev.topic.2 ∈ ev.topic.1.tracks c := by
          rw [h.topics]
          constructor
          · rintro ⟨c', hc', hmem⟩
            rw [hc] at hc'
            cases hc'
            exact hmem
          · exact fun hmem => ⟨c, hc, hmem⟩
        -- A live session is listed as often as it has joined, which is at most once.
        rw [Option.isSome_some, if_pos rfl, hlisted.live _ t c hc, (hnodup c hc _).count]
        by_cases hmem : ev.topic.2 ∈ ev.topic.1.tracks c
        · rw [if_pos hmem, if_pos (hjoined.mpr hmem)]
          rfl
        · rw [if_neg hmem, if_neg (mt hjoined.mp hmem)]
          rfl

/-- What one polled action says to the session `t`: what it joins, if it is the one polled. -/
theorem view_popActions (t taskId : Nat) (answer : Option (Except ExternError Output))
    (out : Option WebrtcTaskOutput) :
    (popActions taskId answer out).filterMap (Action.view t)
        = (if taskId = t then (out.bind WebrtcTaskOutput.joins).map Broker.Event.join
            else none).toList ∧
      (popActions taskId answer out).filterMap (Action.delivered t) = [] := by
  have hpolled : (answer.map (Action.polled taskId)).toList.filterMap (Action.view t) = [] ∧
      (answer.map (Action.polled taskId)).toList.filterMap (Action.delivered t) = [] := by
    cases answer <;> exact ⟨rfl, rfl⟩
  rw [popActions, List.filterMap_append, List.filterMap_append, hpolled.1, hpolled.2]
  cases out with
  | none => simp
  | some o =>
      cases o with
      | io action =>
          cases action <;> simp [performed, Action.view, Action.delivered, WebrtcTaskOutput.joins]
      | _ =>
          by_cases ht : taskId = t <;>
            simp [performed, Action.view, Action.delivered, WebrtcTaskOutput.joins, ht]

namespace Routed

variable {t : Nat} {actions : List Action} {w : Worker Rtc}

theorem performOn (h : Routed t actions w) {taskId : Nat} {c : TaskContainer Rtc}
    (hl : w.tasks.lookup taskId = some c) (answer : Option (Except ExternError Output))
    (out : Option WebrtcTaskOutput) (task : ComposeTask Rtc) :
    Routed t (actions ++ popActions taskId answer out)
      (w.performOn taskId out { c with task }) := by
  obtain ⟨hview, hdel⟩ := view_popActions t taskId answer out
  by_cases ht : taskId = t
  · subst ht
    rw [if_pos rfl] at hview
    have htracks : ∀ topic : Side × UInt64, (w.performOn taskId out { c with task }).Joined taskId
        topic ↔ topic.2 ∈ topic.1.tracks c ∨ out.bind WebrtcTaskOutput.joins = some topic := by
      rintro ⟨side, trackId⟩
      have hjoins : out.bind side.joins = some trackId ↔
          out.bind WebrtcTaskOutput.joins = some (side, trackId) := by
        cases out with
        | none => simp
        | some o => exact Side.joins_iff
      simp only [Worker.Joined, Worker.performOn_lookup, if_true, Option.some.injEq,
        exists_eq_left', Worker.tracks_joined, List.mem_append, Option.mem_toList, hjoins]
      cases side <;> rfl
    refine h.extend (fun topic => ?_) ?_
    · have hold := h.topics topic
      rw [show w.Joined taskId topic ↔ topic.2 ∈ topic.1.tracks c by
        simp [Worker.Joined, hl]] at hold
      rw [htracks, hview, ← hold]
      cases out.bind WebrtcTaskOutput.joins with
      | none => simp [Broker.topicsAfter]
      | some joined => simp [Broker.topicsAfter, eq_comm]
    · rw [hview, hdel]
      cases out.bind WebrtcTaskOutput.joins <;> rfl
  · rw [if_neg ht] at hview
    refine h.silent hview hdel fun topic => ?_
    simp [Worker.Joined, Ne.symm ht]

theorem register (h : Routed t actions w) (hb : Bounded w) (req : HttpRequest)
    (task : ComposeTask Rtc) :
    Routed t (actions ++ [.created w.taskIdSeed req]) (w.register task) := by
  refine h.silent rfl rfl fun topic => ?_
  simp only [Worker.Joined, Worker.register_lookup]
  split
  · rename_i ht
    -- The new session has joined nothing, and had no predecessor of its id.
    have hnone : topic.2 ∉ topic.1.tracks (TaskContainer.ofTask task) := by
      cases topic.1 <;> simp [Side.tracks, TaskContainer.ofTask]
    have hfresh : w.tasks.lookup t = none := ht ▸ hb.fresh
    simp [hfresh, hnone]
  · rfl

theorem bind (h : Routed t actions w) (remote : SocketAddr) (taskId : Nat) :
    Routed t (actions ++ [.bound remote taskId]) (w.bind remote taskId) := by
  refine h.silent rfl rfl fun topic => ?_
  simp only [Worker.Joined, Worker.bind_lookup]
  split
  · rename_i ht
    subst ht
    cases w.tasks.lookup t with
    | none => simp
    | some c =>
        simp only [Option.map_some, Option.some.injEq, exists_eq_left']
        cases topic.1 <;> rfl
  · rfl

theorem without (h : Routed t actions w) (taskId : Nat) (c : TaskContainer Rtc) :
    Routed t (actions ++ [.removed taskId]) (w.without taskId c) := by
  by_cases ht : taskId = t
  · subst ht
    have hview : [Action.removed taskId].filterMap (Action.view taskId) = [.leave] := by
      simp [Action.view]
    refine h.extend (fun topic => ?_) ?_
    · rw [hview]
      simp [Broker.topicsAfter, Worker.Joined, Worker.without]
    · rw [hview]
      rfl
  · refine h.silent (by simp [Action.view, ht]) rfl fun topic => ?_
    simp only [Worker.Joined, Worker.without_lookup, if_neg (Ne.symm ht)]

theorem step {bs : List Action} {w' : Worker Rtc} (h : Routed t actions w) (hb : Bounded w)
    (hlisted : Listed w)
    (hnodup : ∀ c, w.tasks.lookup t = some c → ∀ side : Side, (side.tracks c).Nodup)
    (hs : Step ext admits w bs w') : Routed t (actions ++ bs) w' := by
  cases hs with
  | busEvent ev now hrun => exact h.busEvent hlisted hnodup hrun
  | notFound req => exact h.silent rfl rfl fun _ => Iff.rfl
  | create hopen hadmits => exact h.register hb _ _
  | tick order now hrun =>
      obtain ⟨hq, rfl⟩ := Worker.processTick_ok hrun
      exact h.silent rfl rfl (hq.joined t)
  | bind hremote hufrag => exact h.bind _ _
  | input now src dst buf taskId hrun =>
      obtain ⟨hdel, hview, -⟩ := inputTask_delivered hrun t
      refine h.silent hview ?_ ((Worker.inputTask_feeds hrun).1.joined t)
      rw [hdel]
      split <;> rfl
  | pop hl hpop => exact h.performOn hl _ _ _
  | takeEnded => exact h.silent rfl rfl fun _ => Iff.rfl
  | remove taskId hrun =>
      obtain ⟨c, -, rfl, rfl⟩ := Worker.removeTask_ok.mp hrun
      exact h.without taskId c

end Routed

/-- **Every session of a worker is handed what it has joined, and nothing else.** -/
theorem Worker.Reaches.routed {addr : SocketAddr} {actions : List Action} {w : Worker Rtc}
    (h : Worker.Reaches ext admits addr actions w) (hone : JoinsOnce ext actions) (t : Nat) :
    Routed t actions w := by
  refine (Emits.preserves
    (P := fun os w => Bounded w ∧ Listed w ∧ History ext os w ∧ (JoinsOnce ext os → Routed t os w))
    ?_ h.steps ⟨bounded_new addr, listed_new addr, history_new addr, fun _ => routed_new t addr⟩
    ).2.2.2 hone
  rintro os v bs v' ⟨hb, hlisted, hhistory, hrouted⟩ hs
  refine ⟨hb.step hs, hlisted.step hb hs, hhistory.step hb hs, fun hone => ?_⟩
  have hbefore := hone.of_append
  exact (hrouted hbefore).step hb hlisted
    (fun c hc => (hhistory.live t c hc).tracks_nodup hbefore) hs

/-! ### Which kind of session -/

theorem Role.side_ofRequest {req : HttpRequest}
    (hpath : req.path = "/whip/endpoint" ∨ req.path = "/whep/endpoint") (side : Side) :
    (Role.ofRequest ext req).side = side ↔
      req.path = match side with | .media => "/whep/endpoint" | .keyframe => "/whip/endpoint" := by
  unfold ofRequest
  rcases hpath with hpath | hpath <;> cases side <;> simp [hpath, Role.side]

/-- A session that joins a topic was opened at the endpoint for that topic's side. -/
theorem History.joined_path {actions : List Action} {w : Worker Rtc} (h : History ext actions w)
    {t : Nat} {topic : Side × UInt64}
    (hjoin : Broker.Event.join topic ∈ actions.filterMap (Action.view t)) :
    ∃ req, Action.created t req ∈ actions ∧
      req.path = match topic.1 with
        | .media => "/whep/endpoint"
        | .keyframe => "/whip/endpoint" := by
  obtain ⟨a, ha, hview⟩ := List.mem_filterMap.mp hjoin
  have hdone : a.doneFor = some t ∧
      ∀ out, performed t out = a → out.joins = some topic := by
    cases a with
    | subscribed t' trackId =>
        simp only [Action.view] at hview
        split at hview <;> cases hview
        rename_i ht
        subst ht
        refine ⟨rfl, fun out hout => ?_⟩
        cases out with
        | io action => cases action <;> cases hout
        | _ => cases hout <;> rfl
    | published t' trackId =>
        simp only [Action.view] at hview
        split at hview <;> cases hview
        rename_i ht
        subst ht
        refine ⟨rfl, fun out hout => ?_⟩
        cases out with
        | io action => cases action <;> cases hout
        | _ => cases hout <;> rfl
    | removed t' =>
        simp only [Action.view] at hview
        split at hview <;> cases hview
    | _ => cases hview
  obtain ⟨req, hreq, hpath, answer, -, out, hout, hperformed⟩ := h.done a ha t hdone.1
  have hside : (Role.ofRequest ext req).side = topic.1 :=
    Role.translate_joins hout (Side.joins_iff.mpr (hdone.2 out hperformed))
  exact ⟨req, hreq, (Role.side_ofRequest hpath topic.1).mp hside⟩

/-! ### The whole server -/

/-- The channel of the session an action opened. -/
def Action.channel : Action → Option String
  | .created _ req => some (getHttpAuth req)
  | _ => none

/-- The channels in use in a run: those of the sessions its workers opened. -/
def channels (entries : List (Entry n)) : List String :=
  entries.filterMap fun e => e.2.channel

/-- The track ids of the channels in use do not collide. -/
def TrackIdsDistinct (ext : Extern Rtc) (entries : List (Entry n)) : Prop :=
  ∀ channel ∈ channels entries, ∀ channel' ∈ channels entries, ∀ kind kind',
    trackIdBuilder ext channel kind = trackIdBuilder ext channel' kind' →
      channel = channel' ∧ kind = kind'

theorem mem_channels {entries : List (Entry n)} {v : Fin n} {t : Nat} {req : HttpRequest}
    (h : (v, Action.created t req) ∈ entries) : getHttpAuth req ∈ channels entries :=
  List.mem_filterMap.mpr ⟨_, h, rfl⟩

/--
**Every bus event goes where it should.**  In any run of any number of workers, where
each engine connects at most once and the track ids of the channels in use do not
collide: what a worker has read is one stretch of the bus, up to its reader; what each
of its sessions has been handed is, event by event and in that order, what the worker
read on a track the session had joined, after it joined and before it was removed; and
media was handed to viewers only, keyframe requests to publishers only.  (A turn that
panics ends its worker with all its sessions, and is not in the journal.)
-/
theorem bus_events_routed {localAddrs : Fin n → SocketAddr} {entries : List (Entry n)}
    {s : Server n Rtc} (h : Server.Reaches ext localAddrs entries s)
    (hconnected : ∀ v t, (answers t (actionsOf v entries)).countP isConnected ≤ 1)
    (hdistinct : TrackIdsDistinct ext entries) (v : Fin n) :
    (∃ start, start ≤ s.bus.length ∧ reads v entries <+: s.bus.drop start ∧
      ∀ pos, (s.slots v).reader = some pos → pos = start + (reads v entries).length) ∧
    (∀ t, (actionsOf v entries).filterMap (Action.delivered t)
      = Broker.received BusEvent.topic [] ((actionsOf v entries).filterMap (Action.view t))) ∧
    ∀ t, ∀ ev ∈ (actionsOf v entries).filterMap (Action.delivered t),
      ∃ req, (v, Action.created t req) ∈ entries ∧
        req.path = match ev with
          | .trackMedia _ => "/whep/endpoint"
          | .trackKeyframeRequest _ _ => "/whip/endpoint" := by
  have hworker := h.journal.worker v
  have hone : JoinsOnce ext (actionsOf v entries) := by
    refine ⟨hconnected v, fun t req hreq heq => ?_⟩
    have hchannel := mem_channels (mem_actionsOf.mp hreq)
    cases (hdistinct _ hchannel _ hchannel .audio .video heq).2
  refine ⟨(h.journal.reading v).stretch, fun t => (hworker.routed hone t).delivered, ?_⟩
  intro t ev hev
  rw [(hworker.routed hone t).delivered] at hev
  rcases Broker.joined_of_mem_received _ _ _ hev with hnil | hjoin
  · cases hnil
  · obtain ⟨req, hreq, hpath⟩ := hworker.history.joined_path hjoin
    exact ⟨req, mem_actionsOf.mp hreq, by cases ev <;> exact hpath⟩

open Script in
/-- A viewer at one worker, a publisher at another, and one packet from the one to the other. -/
def Script.relay : List (Label 2 Script) :=
  [.spawn 0, .spawn 1,
    .arrive (request 0 "/whep/endpoint" [0x76]), .insert,
    .arrive (request 0 "/whip/endpoint" [0x76]), .insert,
    .nextPhase 0,
    .turn 0 (.request (arrival 0 "/whep/endpoint" [0x76] "abc"
      [.event .connected, .event (.mediaAdded "a" .audio)])),
    .reply 0, .nextPhase 0, .turn 0 (.tick [0] 0), .startPop 0 [0] 0, .turn 0 (.pop 0 0),
    .nextPhase 0, .turn 0 .popEnded, .nextPhase 0,
    .nextPhase 1,
    .turn 1 (.request (arrival 1 "/whip/endpoint" [0x76] "def"
      [.event (.rtpPacket (packet 111 [7]))])),
    .reply 1, .lock 1, .acquire 1, .broadcast 1,
    .turn 0 (.busEvent (.trackMedia (.fromRaw 8 (packet 111 [7]))) 0)]

open Script in
/-- The same relay, with a viewer of both kinds and a publisher that numbers audio with 109. -/
def Script.renumbered : List (Label 2 Script) :=
  [.spawn 0, .spawn 1,
    .arrive (request 0 "/whep/endpoint" [0x76]), .insert,
    .arrive (request 0 "/whip/endpoint" [0x76]), .insert,
    .nextPhase 0,
    .turn 0 (.request (arrival 0 "/whep/endpoint" [0x76] "abc"
      [.event .connected, .event (.mediaAdded "a" .audio), .event (.mediaAdded "v" .video)])),
    .reply 0, .nextPhase 0, .turn 0 (.tick [0] 0), .startPop 0 [0] 0, .turn 0 (.pop 0 0),
    .nextPhase 0, .turn 0 .popEnded, .turn 0 (.datagram (datagram 7 [0, 97, 98, 99])),
    .nextPhase 0,
    .nextPhase 1,
    .turn 1 (.request (arrival 1 "/whip/endpoint" [0x76] "def"
      [.event (.mediaAdded "m" .audio), .event (.rtpPacket (packet 109 [7]))])),
    .reply 1, .nextPhase 1, .turn 1 (.tick [0] 0), .startPop 1 [0] 0, .turn 1 (.pop 0 0),
    .lock 1, .acquire 1, .broadcast 1,
    .turn 0 (.busEvent (.trackMedia (.fromRaw 9 (packet 109 [7]))) 0)]

/-- What the relay's workers do. -/
def Script.relayed : List (Entry 2) :=
  Server.record Script.engine (Server.new fun _ => Script.addr) Script.relay

theorem Script.relay_reaches :
    ∃ s, Server.Reaches Script.engine (fun _ : Fin 2 => Script.addr) Script.relayed s ∧
      ∀ v, (s.slots v).worker.taskIdSeed = 1 := by
  have hend : (runLabels (Server.step Script.engine) (Server.new fun _ => Script.addr)
      Script.relay).any (fun s => ∀ v, (s.slots v).worker.taskIdSeed = 1) = true := by
    decide +kernel
  obtain ⟨s, hs, hseed⟩ := Option.any_eq_true _ _ |>.mp hend
  exact ⟨s, Server.reaches_of_run _ hs, by simpa using hseed⟩

theorem Script.relay_distinct : TrackIdsDistinct Script.engine Script.relayed := by
  have hchannels : channels Script.relayed = ["demo", "demo"] := by decide +kernel
  intro channel hchannel channel' hchannel' kind kind' heq
  simp only [hchannels, List.mem_cons, List.not_mem_nil, or_false, or_self] at hchannel hchannel'
  subst hchannel hchannel'
  refine ⟨rfl, ?_⟩
  cases kind <;> cases kind' <;> first | rfl | exact absurd heq (by decide +kernel)

/-- The viewer is handed the packet, once, which is what it is owed. -/
theorem bus_events_routed_relay :
    (actionsOf 0 Script.relayed).filterMap (Action.delivered 0)
        = [.trackMedia (.fromRaw 8 (Script.packet 111 [7]))] ∧
      Broker.received BusEvent.topic [] ((actionsOf 0 Script.relayed).filterMap (Action.view 0))
        = [.trackMedia (.fromRaw 8 (Script.packet 111 [7]))] := by
  obtain ⟨s, hs, hseed⟩ := Script.relay_reaches
  have hzero : ∀ v, (answers 0 (actionsOf v Script.relayed)).countP isConnected ≤ 1 := by
    decide +kernel
  have hconnected : ∀ v t, (answers t (actionsOf v Script.relayed)).countP isConnected ≤ 1 := by
    intro v t
    rcases Nat.eq_zero_or_pos t with rfl | ht
    · exact hzero v
    · rw [(hs.journal.worker v).history.fresh t (by rw [hseed v]; exact ht)]
      exact Nat.zero_le 1
  have hall := bus_events_routed hs hconnected Script.relay_distinct 0
  have hdelivered : (actionsOf 0 Script.relayed).filterMap (Action.delivered 0)
      = [.trackMedia (.fromRaw 8 (Script.packet 111 [7]))] := by decide +kernel
  exact ⟨hdelivered, hall.2.1 0 ▸ hdelivered⟩

end MediaServer
