/-
What a worker's channels hold, and who is handed an event of the bus.

A channel is two lists of session ids that grow when sessions publish and subscribe and
shrink when sessions are removed.  Here both are read off the worker's log, as lists: in
order, and with a session as often on them as it joined.  The consumers are those that
joined and were not removed, and the sources are all that ever joined, removed or not,
since the clean-up looks for them on the wrong list.  An id that stays is handed nothing,
as it names nobody; so the sessions an event is handed to are on either side those that
joined the track and were not removed.
-/
import MediaServer.Proofs.Orders
import MediaServer.Proofs.Lives

namespace MediaServer

open Lib

variable {Rtc : Type} {n : Nat} {ext : Extern Rtc} {admits : Worker Rtc → RtcConfig Rtc → Prop}

/-- The sessions these actions remove. -/
def removedIds (actions : List Action) : List Nat :=
  actions.filterMap Action.removedId

theorem removedIds_append (as bs : List Action) :
    removedIds (as ++ bs) = removedIds as ++ removedIds bs :=
  List.filterMap_append

theorem mem_removedIds {t : Nat} {actions : List Action} :
    t ∈ removedIds actions ↔ .removed t ∈ actions := by
  rw [removedIds, List.mem_filterMap]
  constructor
  · rintro ⟨a, ha, hid⟩
    cases a with
    | removed t' =>
        cases hid
        exact ha
    | _ => cases hid
  · exact fun h => ⟨_, h, rfl⟩

theorem Worker.Serves.removedIds {w : Worker Rtc} {actions : List Action} (h : w.Serves actions) :
    removedIds actions = [] :=
  List.eq_nil_iff_forall_not_mem.mpr fun t ht => h.not_removed t (mem_removedIds.mp ht)

/-- Those who joined a track on one side and were not removed, in the order they joined. -/
def audience (topic : Side × UInt64) (actions : List Action) : List Nat :=
  (topic.1.added topic.2 actions).filter fun t => t ∉ removedIds actions

/-- Whoever joins a track has begun to live. -/
theorem Side.about_of_listed {side : Side} {trackId : UInt64} {a : Action} {t : Nat}
    (h : side.listed trackId a = some t) : a.about = some t := by
  cases side <;> cases a <;> simp only [Side.listed, Option.ite_none_right_eq_some,
    reduceCtorEq] at h
  · exact h.2
  · exact h.2

/-- Of those who joined, the ones that were not removed are the ones in the map. -/
theorem Worker.Reaches.removed_iff {addr : SocketAddr} {actions : List Action} {w : Worker Rtc}
    (h : Worker.Reaches ext admits addr actions w) {side : Side} {trackId : UInt64} {t : Nat}
    (hadded : t ∈ side.added trackId actions) :
    t ∈ removedIds actions ↔ w.tasks.lookup t = none := by
  constructor
  · exact fun hremoved => (h.removedOnce.gone t hremoved).1
  · intro hnone
    obtain ⟨a, ha, hlisted⟩ := List.mem_filterMap.mp hadded
    have hborn : life t actions ≠ [] :=
      List.ne_nil_of_mem (mem_life.mpr ⟨ha, Side.about_of_listed hlisted⟩)
    have hlt : t < w.taskIdSeed := by
      by_contra hge
      exact hborn (h.lived.unborn t (Nat.le_of_not_lt hge))
    obtain ⟨req, served, hlife, -⟩ := h.lived.gone t hlt hnone
    exact mem_removedIds.mpr (mem_life (t := t).mp (by simp [hlife])).1

/-! ### The channels are what the log says -/

/-- What the two sides of every channel are, by the log. -/
structure Charted (actions : List Action) (w : Worker Rtc) : Prop where
  sources : ∀ trackId,
    Side.keyframe.ids w.busChannels trackId = Side.keyframe.added trackId actions
  consumers : ∀ trackId,
    Side.media.ids w.busChannels trackId = audience (.media, trackId) actions

theorem charted_new (addr : SocketAddr) : Charted [] (Worker.new addr : Worker Rtc) :=
  ⟨fun _ => rfl, fun _ => rfl⟩

namespace Charted

variable {actions bs : List Action} {w w' : Worker Rtc}

/-- Nothing joined or removed, and no channel written. -/
theorem keep (h : Charted actions w) (hchannels : w'.busChannels = w.busChannels)
    (hadded : ∀ (side : Side) trackId, side.added trackId bs = [])
    (hremoved : removedIds bs = []) : Charted (actions ++ bs) w' := by
  refine ⟨fun trackId => ?_, fun trackId => ?_⟩
  · rw [hchannels, h.sources, Side.added_append, hadded, List.append_nil]
  · rw [hchannels, h.consumers, audience, audience, Side.added_append, removedIds_append, hadded,
      hremoved, List.append_nil, List.append_nil]

/-- A polled session joins what it joins, and was not removed before. -/
theorem pop (h : Charted actions w) {taskId : Nat} {c : TaskContainer Rtc}
    (hnot : taskId ∉ removedIds actions) (answer : Option (Except ExternError Output))
    (out : Option WebrtcTaskOutput) :
    Charted (actions ++ popActions taskId answer out) (w.performOn taskId out c) := by
  have hremoved : removedIds (popActions taskId answer out) = [] := by
    refine filterMap_popActions_nil (fun _ => rfl) (fun o => ?_) _ _
    cases o with
    | io action => cases action <;> rfl
    | _ => rfl
  refine ⟨fun trackId => ?_, fun trackId => ?_⟩
  · rw [Worker.performOn_ids, h.sources, Side.added_append, Side.added_popActions]
  · rw [Worker.performOn_ids, h.consumers, audience, audience, Side.added_append,
      removedIds_append, hremoved, List.append_nil, List.filter_append, Side.added_popActions]
    congr 1
    split
    · simp [hnot]
    · rfl

/-- The removed session is taken off the consumers, where it is on them, and stays a source. -/
theorem without (h : Charted actions w) (hlisted : Listed w) {taskId : Nat}
    {c : TaskContainer Rtc} (hc : w.tasks.lookup taskId = some c) :
    Charted (actions ++ [.removed taskId]) (w.without taskId c) := by
  have hadded : ∀ (side : Side) trackId, side.added trackId [.removed taskId] = [] := by
    intro side trackId
    cases side <;> rfl
  refine ⟨fun trackId => ?_, fun trackId => ?_⟩
  · rw [Worker.without_ids, Side.added_append, hadded, List.append_nil]
    exact h.sources trackId
  · have hoff : Side.media.ids (w.without taskId c).busChannels trackId
        = (Side.media.ids w.busChannels trackId).filter (· ≠ taskId) := by
      rw [Worker.without_ids]
      by_cases hjoined : trackId ∈ c.subChannels ∨ trackId ∈ c.pubChannels
      · exact if_pos hjoined
      · -- It never joined, so there is nothing to take off.
        have hnot : taskId ∉ Side.media.ids w.busChannels trackId := fun hmem =>
          hjoined (.inl ((hlisted.mem_iff .media hc trackId).mp hmem))
        refine (if_neg hjoined).trans (Eq.symm ?_)
        exact List.filter_eq_self.mpr fun t ht =>
          decide_eq_true fun heq => hnot (heq ▸ ht)
    have hremoved : removedIds (actions ++ [.removed taskId]) = removedIds actions ++ [taskId] :=
      removedIds_append _ _
    rw [hoff, h.consumers, audience, audience, Side.added_append, hadded, List.append_nil,
      List.filter_filter, hremoved]
    refine List.filter_congr fun t _ => ?_
    simp [and_comm]

theorem step (h : Charted actions w) (hlisted : Listed w) (hremoved : RemovedOnce actions w)
    (hs : Step ext admits w bs w') : Charted (actions ++ bs) w' := by
  have hnobody : ∀ (side : Side) trackId, side.added trackId [] = [] := fun _ _ => rfl
  refine Step.rule (P := fun bs w' => Charted (actions ++ bs) w') ?_ ?_ ?_ ?_ ?_ ?_ ?_ hs
  · intro bs v hf
    refine h.keep hf.1.busChannels (fun side trackId => ?_) ?_
    · exact hf.filterMap_nil fun a ha => by
        cases side <;> cases a <;> simp [Action.isFeed] at ha <;> rfl
    · exact hf.filterMap_nil fun a ha => by cases a <;> simp [Action.isFeed] at ha <;> rfl
  · exact fun req => h.keep rfl (fun side _ => by cases side <;> rfl) rfl
  · exact fun config req task _ _ => h.keep rfl (fun side _ => by cases side <;> rfl) rfl
  · exact fun remote username taskId _ _ => h.keep rfl (fun side _ => by cases side <;> rfl) rfl
  · intro taskId c now out task hl _
    refine h.pop (fun hmem => ?_) _ _
    rw [(hremoved.gone taskId hmem).1] at hl
    cases hl
  · exact h.keep rfl hnobody rfl
  · exact fun taskId c hl => h.without hlisted hl

end Charted

theorem Worker.Reaches.charted {addr : SocketAddr} {actions : List Action} {w : Worker Rtc}
    (h : Worker.Reaches ext admits addr actions w) : Charted actions w :=
  (Emits.preserves
    (P := fun os w => (Bounded w ∧ Listed w) ∧ RemovedOnce os w ∧ Charted os w)
    (fun _ _ _ _ hI hs => ⟨⟨hI.1.1.step hs, hI.1.2.step hI.1.1 hs⟩, hI.2.1.step hI.1.1 hs,
      hI.2.2.step hI.1.2 hI.2.1 hs⟩) h.steps
    ⟨⟨bounded_new addr, listed_new addr⟩, ⟨List.nodup_nil, by simp⟩, charted_new addr⟩).2.2

/-! ### Who is handed an event -/

/-- The session an action hands an event of the bus to, and that event. -/
def Action.handed : Action → Option (Nat × BusEvent)
  | .input t event => event.busEvent.map (Prod.mk t)
  | _ => none

namespace Worker

/-- Of the ids it is to go to, an event is handed to those that are a session's. -/
theorem inputTasks_handed {now : Instant} {event : WebrtcTaskInput} {ev : BusEvent}
    (hev : event.busEvent = some ev) {ids : List Nat} :
    ∀ {w w' : Worker Rtc} {fed : List Action},
      forEach (inputTask ext now event) ids w = .ok (w', fed) →
      fed.filterMap Action.handed
        = (ids.filter fun t => (w.tasks.lookup t).isSome).map fun t => (t, ev) := by
  induction ids with
  | nil =>
      intro w w' fed h
      cases h
      rfl
  | cons t rest ih =>
      intro w w' fed h
      obtain ⟨v, as, bs, hfirst, hrest, rfl⟩ := forEach_cons_ok.mp h
      have hlive : ∀ t, (v.tasks.lookup t).isSome = (w.tasks.lookup t).isSome := by
        intro t
        have hnone := (inputTask_feeds hfirst).1.lookup_none t
        rw [Bool.eq_iff_iff, Option.isSome_iff_ne_none, Option.isSome_iff_ne_none]
        exact not_congr hnone
      simp only [List.filterMap_append, ih hrest, hlive, List.filter_cons]
      rcases inputTask_ok hfirst with ⟨hc, -, rfl⟩ | ⟨c, b, task, hc, -, -, rfl⟩
      · simp [hc]
      · have hwritten : (((c.task.rtpWrite ext event).map fun r =>
            Action.writeRtp t r.1 r.2).toList).filterMap Action.handed = [] := by
          cases c.task.rtpWrite ext event <;> rfl
        simp [hc, hwritten, Action.handed, hev]

/-- An event goes to the side of the channel it is on. -/
theorem recipients_eq (ev : BusEvent) (w : Worker Rtc) :
    (w.recipients ev).1 = ev.topic.1.ids w.busChannels ev.topic.2 ∧
      (w.recipients ev).2.busEvent = some ev := by
  cases ev <;> exact ⟨rfl, rfl⟩

/-- Of the ids a channel lists on one side, the sessions are those that were not removed. -/
theorem Reaches.ids_live {addr : SocketAddr} {actions : List Action} {w : Worker Rtc}
    (h : Reaches ext admits addr actions w) (topic : Side × UInt64) :
    ((topic.1.ids w.busChannels topic.2).filter fun t => (w.tasks.lookup t).isSome)
      = audience topic actions := by
  have hlive : ∀ t ∈ topic.1.added topic.2 actions,
      (w.tasks.lookup t).isSome = decide (t ∉ removedIds actions) := by
    intro t ht
    rw [Bool.eq_iff_iff, Option.isSome_iff_ne_none, decide_eq_true_eq]
    exact not_congr (h.removed_iff ht).symm
  obtain ⟨side, trackId⟩ := topic
  cases side with
  | media =>
      rw [h.charted.consumers]
      refine List.filter_eq_self.mpr fun t ht => ?_
      obtain ⟨hadded, hstays⟩ := List.mem_filter.mp ht
      exact (hlive t hadded).trans hstays
  | keyframe =>
      rw [h.charted.sources]
      exact List.filter_congr hlive

end Worker

/--
**What a channel holds, and who is handed an event.**  In every run of the server and
whatever the engines answer, a channel's consumers are the sessions that subscribed to
its track and were not removed, in the order they did and as often as they did; its
sources are all that ever published it; and a channel is in the table while it lists
anybody.  A turn on an event of the bus that comes to its end has handed it to those that
joined the event's side of its track and were not removed, in that order, and to nobody
else.
-/
theorem events_fanned_out {localAddrs : Fin n → SocketAddr} {entries : List (Entry n)}
    {s : Server n Rtc} (h : Server.Reaches ext localAddrs entries s) (v : Fin n) :
    (∀ trackId,
      (BusChannels.entry (s.slots v).worker.busChannels trackId).consumers
          = audience (.media, trackId) (actionsOf v entries) ∧
        (BusChannels.entry (s.slots v).worker.busChannels trackId).sources
          = Side.keyframe.added trackId (actionsOf v entries) ∧
        ((s.slots v).worker.busChannels.lookup trackId = none ↔
          audience (.media, trackId) (actionsOf v entries) = [] ∧
            Side.keyframe.added trackId (actionsOf v entries) = [])) ∧
    ∀ ev now w' bs, (s.slots v).worker.exec ext (.busEvent ev now) = .ok (w', bs) →
      bs.filterMap Action.handed
        = (audience ev.topic (actionsOf v entries)).map fun t => (t, ev) := by
  have hworker := h.journal.worker v
  refine ⟨fun trackId => ?_, fun ev now w' bs hexec => ?_⟩
  · have hconsumers := hworker.charted.consumers trackId
    have hsources := hworker.charted.sources trackId
    refine ⟨hconsumers, hsources, ?_⟩
    rw [← hconsumers, ← hsources]
    cases hl : (s.slots v).worker.busChannels.lookup trackId with
    | none => simp [Side.ids, BusChannels.entry, hl]
    | some channel =>
        have hsomebody := hworker.listed.noneEmpty trackId channel hl
        simp only [Side.ids, BusChannels.entry, hl, Option.getD_some, reduceCtorEq, false_iff,
          not_and_or]
        exact hsomebody.symm
  · obtain ⟨fed, hrun, rfl⟩ := Worker.handleBusEvent_ok hexec
    obtain ⟨hids, hev⟩ := Worker.recipients_eq ev (s.slots v).worker
    rw [List.filterMap_cons_none rfl, Worker.inputTasks_handed hev hrun, hids, hworker.ids_live]

/-- A third packet would be handed to the viewer of the stream. -/
theorem events_fanned_out_stream :
    ∃ s w' bs, runLabels (Server.step Script.engine) (Server.new fun _ => Script.addr)
        (Script.stream (0 : Fin 2) 1) = some s ∧
      (s.slots 0).worker.exec Script.engine
        (.busEvent (.trackMedia (.fromRaw 8 (Script.packet 111 [9]))) 0) = .ok (w', bs) ∧
      bs.filterMap Action.handed = [(0, .trackMedia (.fromRaw 8 (Script.packet 111 [9])))] := by
  have hend : (runLabels (Server.step Script.engine) (Server.new fun _ => Script.addr)
      (Script.stream (0 : Fin 2) 1)).any (fun s => ((s.slots 0).worker.exec Script.engine
        (.busEvent (.trackMedia (.fromRaw 8 (Script.packet 111 [9]))) 0)).toBool) = true := by
    decide +kernel
  obtain ⟨s, hs, hok⟩ := Option.any_eq_true _ _ |>.mp hend
  have haudience : audience (.media, 8) (actionsOf 0 (Server.record Script.engine
      (Server.new fun _ => Script.addr) (Script.stream (0 : Fin 2) 1))) = [0] := by
    decide +kernel
  cases hexec : (s.slots 0).worker.exec Script.engine
      (.busEvent (.trackMedia (.fromRaw 8 (Script.packet 111 [9]))) 0) with
  | error p => simp [hexec, Except.toBool] at hok
  | ok r =>
      refine ⟨s, r.1, r.2, hs, hexec, ?_⟩
      have hhanded := (events_fanned_out (Server.reaches_of_run _ hs) 0).2 _ _ _ _ hexec
      exact hhanded.trans (congrArg (List.map _) haudience)

end MediaServer
