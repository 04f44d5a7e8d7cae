/-
What each small step does to each table.

Three of the steps only feed or tick sessions, and `Worker.Quiet` says all there is to
say about those: every table but the map of sessions is what it was, and in the map
every session is the same one, with the same queue.  For the other steps the tables
afterwards are read back through `lookup`, and the channels through the lists they
hold.  `Step.post` then asks for one small obligation per kind of step.
-/
import MediaServer.Proofs.Steps

namespace MediaServer

open Lib

variable {Rtc : Type} {ext : Extern Rtc} {admits : Worker Rtc → RtcConfig Rtc → Prop}

/-- The actions that only feed sessions: an event read, an input handed on, a packet written. -/
def Action.isFeed : Action → Bool
  | .read _ | .input _ _ | .writeRtp _ _ _ => true
  | _ => false

namespace Worker

/-! ### Feeding and ticking -/

/-- The same tables, and in the map the same sessions with the same queues. -/
structure Quiet (w w' : Worker Rtc) : Prop where
  taskIdSeed : w'.taskIdSeed = w.taskIdSeed
  localAddr : w'.udpSocketLocalAddr = w.udpSocketLocalAddr
  busChannels : w'.busChannels = w.busChannels
  taskRemotes : w'.taskRemotes = w.taskRemotes
  taskUfrags : w'.taskUfrags = w.taskUfrags
  endedTasks : w'.endedTasks = w.endedTasks
  tasks : ∀ taskId, Option.Rel
    (fun c c' => ∃ task, c' = { c with task } ∧ c.task.Quiet task)
    (w.tasks.lookup taskId) (w'.tasks.lookup taskId)

theorem Quiet.refl (w : Worker Rtc) : Quiet w w := by
  refine ⟨rfl, rfl, rfl, rfl, rfl, rfl, fun taskId => ?_⟩
  cases w.tasks.lookup taskId with
  | none => exact .none
  | some c => exact .some ⟨c.task, rfl, .refl _⟩

theorem Quiet.trans {u v w : Worker Rtc} (h₁ : Quiet u v) (h₂ : Quiet v w) : Quiet u w := by
  refine ⟨h₂.1.trans h₁.1, h₂.2.trans h₁.2, h₂.3.trans h₁.3, h₂.4.trans h₁.4, h₂.5.trans h₁.5,
    h₂.6.trans h₁.6, fun taskId => ?_⟩
  have h₁' := h₁.tasks taskId
  have h₂' := h₂.tasks taskId
  revert h₁' h₂'
  cases u.tasks.lookup taskId <;> cases v.tasks.lookup taskId <;>
    cases w.tasks.lookup taskId <;> intro h₁' h₂' <;> cases h₁' <;> cases h₂'
  · exact .none
  · rename_i h₁' h₂'
    obtain ⟨task, rfl, hq⟩ := h₁'
    obtain ⟨task', rfl, hq'⟩ := h₂'
    exact .some ⟨task', rfl, hq.trans hq'⟩

/-- A session after a quiet step is one there was before it. -/
theorem Quiet.lookup {w w' : Worker Rtc} (h : Quiet w w') {taskId : Nat}
    {c' : TaskContainer Rtc} (hc : w'.tasks.lookup taskId = some c') :
    ∃ c, w.tasks.lookup taskId = some c ∧ c' = { c with task := c'.task } ∧
      c.task.Quiet c'.task := by
  have hrel := h.tasks taskId
  rw [hc] at hrel
  cases hl : w.tasks.lookup taskId with
  | none => rw [hl] at hrel; cases hrel
  | some c =>
      rw [hl] at hrel
      cases hrel with
      | some hrel =>
          obtain ⟨task, rfl, hq⟩ := hrel
          exact ⟨c, rfl, rfl, hq⟩

/-- And a session before it is there after it. -/
theorem Quiet.lookup' {w w' : Worker Rtc} (h : Quiet w w') {taskId : Nat}
    {c : TaskContainer Rtc} (hc : w.tasks.lookup taskId = some c) :
    ∃ task, w'.tasks.lookup taskId = some { c with task } ∧ c.task.Quiet task := by
  have hrel := h.tasks taskId
  rw [hc] at hrel
  cases hl : w'.tasks.lookup taskId with
  | none => rw [hl] at hrel; cases hrel
  | some c' =>
      rw [hl] at hrel
      cases hrel with
      | some hrel =>
          obtain ⟨task, rfl, hq⟩ := hrel
          exact ⟨task, rfl, hq⟩

/-- Putting a quietly changed session back is a quiet step. -/
theorem quiet_insert {w : Worker Rtc} {taskId : Nat} {c : TaskContainer Rtc}
    {task : ComposeTask Rtc} (hc : w.tasks.lookup taskId = some c) (hq : c.task.Quiet task) :
    Quiet w { w with tasks := w.tasks.insert taskId { c with task } } := by
  refine ⟨rfl, rfl, rfl, rfl, rfl, rfl, fun t => ?_⟩
  rw [Table.lookup_insert_ite]
  split
  · rename_i ht
    rw [ht, hc]
    exact .some ⟨task, rfl, hq⟩
  · exact (Quiet.refl w).tasks t

/-- What handing one input to one session comes to. -/
theorem inputTask_ok {now : Instant} {event : WebrtcTaskInput} {taskId : Nat}
    {w w' : Worker Rtc} {actions : List Action}
    (h : w.inputTask ext now event taskId = .ok (w', actions)) :
    (w.tasks.lookup taskId = none ∧ w' = w ∧ actions = []) ∨
      ∃ c b task, w.tasks.lookup taskId = some c ∧ c.task.input ext now event = .ok (b, task) ∧
        w' = { w with tasks := w.tasks.insert taskId { c with task } } ∧
        actions = .input taskId event ::
          ((c.task.rtpWrite ext event).map fun r => .writeRtp taskId r.1 r.2).toList := by
  unfold inputTask at h
  split at h
  · rename_i hc
    cases h
    exact .inl ⟨hc, rfl, rfl⟩
  · rename_i c hc
    obtain ⟨⟨b, task⟩, hi, heq⟩ := except_map_ok.mp h
    cases heq
    exact .inr ⟨c, b, task, hc, hi, rfl, rfl⟩

/-- A write that is logged is the one the engine of that session was handed, and left so. -/
theorem inputTask_writes {now : Instant} {event : WebrtcTaskInput} {taskId t : Nat}
    {w w' : Worker Rtc} {actions : List Action} {mid : Mid} {write : RtpWrite}
    (h : w.inputTask ext now event taskId = .ok (w', actions))
    (hmem : .writeRtp t mid write ∈ actions) :
    ∃ c viewer stream, w.tasks.lookup t = some c ∧ c.task = .whep viewer ∧
      ext.streamTxByMid viewer.rtc mid = some stream ∧
      w'.tasks.lookup t = some { c with
        task := .whep { viewer with rtc := (stream.writeRtp write).2, timeout := none } } := by
  rcases inputTask_ok h with ⟨-, -, rfl⟩ | ⟨c, b, task, hc, hi, rfl, rfl⟩
  · cases hmem
  · simp only [List.mem_cons, reduceCtorEq, Option.mem_toList, Option.map_eq_some_iff,
      false_or] at hmem
    obtain ⟨r, hr, heq⟩ := hmem
    cases heq
    cases event with
    | trackMedia media =>
        rcases ComposeTask.input_writes hi with ⟨hnone, -⟩ |
          ⟨viewer, mid, write, stream, hwhep, hsome, hstream, rfl⟩
        · rw [hr] at hnone
          cases hnone
        · cases hr.symm.trans hsome
          exact ⟨c, viewer, stream, hc, hwhep, hstream, by simp⟩
    | _ => cases hwhep : c.task <;> rw [hwhep] at hr <;> cases hr

/-- What handling a bus event comes to: it is read, and handed to the sessions listed for it. -/
theorem handleBusEvent_ok {ev : BusEvent} {now : Instant} {w w' : Worker Rtc}
    {actions : List Action} (h : w.handleBusEvent ext ev now = .ok (w', actions)) :
    ∃ fed, forEach (inputTask ext now (w.recipients ev).2) (w.recipients ev).1 w = .ok (w', fed) ∧
      actions = .read ev :: fed := by
  obtain ⟨⟨v, fed⟩, hrun, heq⟩ := except_map_ok.mp h
  cases heq
  exact ⟨fed, hrun, rfl⟩

/-- A quiet step all of whose actions feed sessions. -/
def Feeds (w : Worker Rtc) (actions : List Action) (w' : Worker Rtc) : Prop :=
  Quiet w w' ∧ ∀ a ∈ actions, a.isFeed

/-- A reading of actions that is blind to feeding sees nothing of such a step. -/
theorem Feeds.filterMap_nil {β : Type*} {f : Action → Option β} {w w' : Worker Rtc}
    {actions : List Action} (h : Feeds w actions w') (hf : ∀ a, a.isFeed = true → f a = none) :
    actions.filterMap f = [] :=
  List.filterMap_eq_nil_iff.mpr fun a ha => hf a (h.2 a ha)

theorem inputTask_feeds {now : Instant} {event : WebrtcTaskInput} {taskId : Nat}
    {w w' : Worker Rtc} {actions : List Action}
    (h : w.inputTask ext now event taskId = .ok (w', actions)) : Feeds w actions w' := by
  rcases inputTask_ok h with ⟨-, rfl, rfl⟩ | ⟨c, b, task, hc, hi, rfl, rfl⟩
  · exact ⟨.refl _, by simp⟩
  · refine ⟨quiet_insert hc (ComposeTask.input_quiet hi), ?_⟩
    cases c.task.rtpWrite ext event <;> simp [Action.isFeed]

theorem inputTasks_feeds {now : Instant} {event : WebrtcTaskInput} {taskIds : List Nat}
    {w w' : Worker Rtc} {actions : List Action}
    (h : forEach (inputTask ext now event) taskIds w = .ok (w', actions)) :
    Feeds w actions w' := by
  refine forEach_preserves (P := fun os s => Feeds w os s) ?_ h ⟨.refl w, by simp⟩
  intro taskId s t os bs hs hf
  have hstep := inputTask_feeds hs
  refine ⟨hf.1.trans hstep.1, fun a ha => ?_⟩
  rcases List.mem_append.mp ha with ha | ha
  · exact hf.2 a ha
  · exact hstep.2 a ha

theorem handleBusEvent_feeds {ev : BusEvent} {now : Instant} {w w' : Worker Rtc}
    {actions : List Action} (h : w.handleBusEvent ext ev now = .ok (w', actions)) :
    Feeds w actions w' := by
  obtain ⟨fed, hrun, rfl⟩ := handleBusEvent_ok h
  have hf := inputTasks_feeds hrun
  refine ⟨hf.1, fun a ha => ?_⟩
  rcases List.mem_cons.mp ha with rfl | ha
  · rfl
  · exact hf.2 a ha

theorem tickTask_quiet (now : Instant) (taskId : Nat) (w : Worker Rtc) :
    Quiet w (w.tickTask ext now taskId) := by
  unfold tickTask
  split
  · exact .refl w
  · rename_i c hc
    exact quiet_insert hc (ComposeTask.tick_quiet ext now c.task)

/-- Ticking changes no table and emits nothing. -/
theorem processTick_ok {order : List Nat} {now : Instant} {w w' : Worker Rtc}
    {actions : List Action} (h : w.processTick ext order now = .ok (w', actions)) :
    Quiet w w' ∧ actions = [] := by
  refine forEach_preserves (P := fun os s => Quiet w s ∧ os = []) ?_ h ⟨.refl w, rfl⟩
  rintro taskId s t os bs hs ⟨hq, rfl⟩
  cases hs
  exact ⟨hq.trans (tickTask_quiet now taskId s), rfl⟩

end Worker

/-! ### Channels -/

namespace BusChannels

/-- The channel without this consumer; one that then lists nobody is dropped. -/
def dropConsumer (taskId : Nat) (channel : BusChannelContainer) : Option BusChannelContainer :=
  let consumers := channel.consumers.filter (· ≠ taskId)
  if consumers.isEmpty && channel.sources.isEmpty then none else some { channel with consumers }

/-- Two consumers dropped: a channel that the first leaves empty the second does too. -/
theorem dropConsumer_bind (a b : Nat) (channel : BusChannelContainer) :
    (dropConsumer a channel).bind (dropConsumer b) =
      let consumers := (channel.consumers.filter (· ≠ a)).filter (· ≠ b)
      if consumers.isEmpty && channel.sources.isEmpty then none
      else some { channel with consumers } := by
  unfold dropConsumer
  by_cases hempty : (channel.consumers.filter (· ≠ a)).isEmpty && channel.sources.isEmpty
  · have hconsumers : channel.consumers.filter (· ≠ a) = [] := by
      simp only [Bool.and_eq_true, List.isEmpty_iff] at hempty
      exact hempty.1
    have hsources : channel.sources.isEmpty := by
      simp only [Bool.and_eq_true] at hempty
      exact hempty.2
    rw [hconsumers]
    simp [hsources]
  · simp only [if_neg hempty, Option.bind_some]

theorem dropConsumer_idem (a : Nat) (channel : BusChannelContainer) :
    (dropConsumer a channel).bind (dropConsumer a) = dropConsumer a channel := by
  rw [dropConsumer_bind, List.filter_filter]
  simp only [Bool.and_self]
  rfl

/-- What is left lists somebody. -/
theorem dropConsumer_some {taskId : Nat} {channel channel' : BusChannelContainer}
    (h : dropConsumer taskId channel = some channel') :
    channel'.sources ≠ [] ∨ channel'.consumers ≠ [] := by
  unfold dropConsumer at h
  simp only at h
  split at h
  · cases h
  · rename_i hne
    cases h
    simp only [Bool.and_eq_true, List.isEmpty_iff, not_and_or] at hne
    exact hne.symm

/-- Read as the lists of an entry, dropping a consumer is felt in that list only. -/
theorem getD_dropConsumer (taskId : Nat) (found : Option BusChannelContainer) :
    (found.bind (dropConsumer taskId)).getD { sources := [], consumers := [] }
      = { found.getD { sources := [], consumers := [] } with
          consumers := (found.getD { sources := [], consumers := [] }).consumers.filter
            (· ≠ taskId) } := by
  cases found with
  | none => rfl
  | some channel =>
      rw [Option.bind_some, Option.getD_some, dropConsumer]
      split
      · rename_i hempty
        simp only [Bool.and_eq_true, List.isEmpty_iff] at hempty
        rw [Option.getD_none, hempty.1, ← hempty.2]
      · rfl

theorem lookup_retainConsumers (taskId : Nat) (channels : BusChannels) (trackId t : UInt64) :
    (retainConsumers taskId channels trackId).lookup t
      = if t = trackId then (channels.lookup t).bind (dropConsumer taskId)
        else channels.lookup t := by
  unfold retainConsumers
  cases hl : channels.lookup trackId with
  | none =>
      simp only
      split
      · rename_i ht
        rw [ht, hl]
        rfl
      · rfl
  | some channel =>
      simp only
      split
      · rename_i hempty
        rw [Table.lookup_erase_ite]
        split
        · rename_i ht
          rw [ht, hl, Option.bind_some, dropConsumer, if_pos hempty]
        · rfl
      · rename_i hne
        rw [Table.lookup_insert_ite]
        split
        · rename_i ht
          rw [ht, hl, Option.bind_some, dropConsumer, if_neg hne]
        · rfl

theorem lookup_foldl_retainConsumers (taskId : Nat) (trackIds : List UInt64) :
    ∀ (channels : BusChannels) (t : UInt64),
      (trackIds.foldl (retainConsumers taskId) channels).lookup t
        = if t ∈ trackIds then (channels.lookup t).bind (dropConsumer taskId)
          else channels.lookup t := by
  induction trackIds with
  | nil => intro channels t; simp
  | cons x rest ih =>
      intro channels t
      rw [List.foldl_cons, ih, lookup_retainConsumers]
      by_cases hx : t = x <;> by_cases hr : t ∈ rest <;>
        simp [hx, hr, Option.bind_assoc, dropConsumer_idem]

/-- No entry of the table lists nobody. -/
def NoneEmpty (channels : BusChannels) : Prop :=
  ∀ trackId channel, channels.lookup trackId = some channel →
    channel.sources ≠ [] ∨ channel.consumers ≠ []

theorem NoneEmpty.pushSource {channels : BusChannels} (h : NoneEmpty channels)
    (trackId : UInt64) (taskId : Nat) : NoneEmpty (pushSource channels trackId taskId) := by
  intro trackId' channel hl
  rw [BusChannels.pushSource, Table.lookup_insert_ite] at hl
  split at hl
  · cases hl
    simp
  · exact h trackId' channel hl

theorem NoneEmpty.pushConsumer {channels : BusChannels} (h : NoneEmpty channels)
    (trackId : UInt64) (taskId : Nat) : NoneEmpty (pushConsumer channels trackId taskId) := by
  intro trackId' channel hl
  rw [BusChannels.pushConsumer, Table.lookup_insert_ite] at hl
  split at hl
  · cases hl
    simp
  · exact h trackId' channel hl

end BusChannels

namespace Worker

/-! ### One polled action -/

section

variable (taskId : Nat) (out : Option WebrtcTaskOutput) (container : TaskContainer Rtc)
  (w : Worker Rtc)

@[simp] theorem performOn_taskIdSeed :
    (w.performOn taskId out container).taskIdSeed = w.taskIdSeed := rfl

@[simp] theorem performOn_taskRemotes :
    (w.performOn taskId out container).taskRemotes = w.taskRemotes := rfl

@[simp] theorem performOn_taskUfrags :
    (w.performOn taskId out container).taskUfrags = w.taskUfrags := rfl

/-- The container a polled action leaves: what it joins is added to its lists. -/
def joined (out : Option WebrtcTaskOutput) (container : TaskContainer Rtc) : TaskContainer Rtc :=
  { container with
    subChannels := container.subChannels ++ (out.bind Side.media.joins).toList
    pubChannels := container.pubChannels ++ (out.bind Side.keyframe.joins).toList }

@[simp] theorem tracks_joined (side : Side) :
    side.tracks (joined out container) = side.tracks container ++ (out.bind side.joins).toList := by
  cases side <;> rfl

@[simp] theorem performOn_lookup (t : Nat) :
    (w.performOn taskId out container).tasks.lookup t
      = if t = taskId then some (joined out container) else w.tasks.lookup t := by
  have hc : (out.elim (w.popState container)
      fun action => (w.popState container).perform taskId action).task = joined out container := by
    cases out with
    | none => simp [popState, joined]
    | some action =>
        cases action with
        | io a => cases a <;> simp [popState, joined, PopState.perform, PopState.emit, Side.joins]
        | _ => simp [popState, joined, PopState.perform, PopState.emit, Side.joins]
  rw [performOn, withPop, Table.lookup_insert_ite, hc]

theorem performOn_endedTasks :
    (w.performOn taskId out container).endedTasks
      = w.endedTasks ++ if out = some .taskEnded then [taskId] else [] := by
  cases out with
  | none => simp [performOn, withPop, popState]
  | some action =>
      cases action with
      | io a => cases a <;> simp [performOn, withPop, popState, PopState.perform, PopState.emit]
      | _ => simp [performOn, withPop, popState, PopState.perform, PopState.emit]

/-- A channel gains the session on the side it joins, and nothing else changes. -/
theorem performOn_ids (side : Side) (trackId : UInt64) :
    side.ids (w.performOn taskId out container).busChannels trackId
      = side.ids w.busChannels trackId
        ++ if out.bind side.joins = some trackId then [taskId] else [] := by
  cases out with
  | none => simp [performOn, withPop, popState]
  | some action =>
      cases action with
      | io a =>
          cases a <;> cases side <;>
            simp [performOn, withPop, popState, PopState.perform, PopState.emit, Side.joins]
      | publishTrack t =>
          cases side <;>
            simp only [performOn, withPop, popState, PopState.perform, PopState.emit, Side.joins,
              Side.ids, BusChannels.pushSource, BusChannels.entry_insert, Option.elim,
              Option.bind_some]
          · by_cases h : trackId = t <;> simp [h]
          · by_cases h : trackId = t <;> simp [h, eq_comm]
      | subscribeTrack t =>
          cases side <;>
            simp only [performOn, withPop, popState, PopState.perform, PopState.emit, Side.joins,
              Side.ids, BusChannels.pushConsumer, BusChannels.entry_insert, Option.elim,
              Option.bind_some]
          · by_cases h : trackId = t <;> simp [h, eq_comm]
          · by_cases h : trackId = t <;> simp [h]
      | _ =>
          cases side <;>
            simp [performOn, withPop, popState, PopState.perform, PopState.emit, Side.joins]

theorem performOn_noneEmpty (h : w.busChannels.NoneEmpty) :
    (w.performOn taskId out container).busChannels.NoneEmpty := by
  cases out with
  | none => exact h
  | some action =>
      cases action with
      | publishTrack trackId => exact h.pushSource trackId taskId
      | subscribeTrack trackId => exact h.pushConsumer trackId taskId
      | io a => cases a <;> exact h
      | _ => exact h

/-! ### Creating, binding and removing -/

@[simp] theorem register_lookup (task : ComposeTask Rtc) (t : Nat) :
    (w.register task).tasks.lookup t
      = if t = w.taskIdSeed then some (.ofTask task) else w.tasks.lookup t := by
  simp [register]

@[simp] theorem bind_lookup (remote : SocketAddr) (t : Nat) :
    (w.bind remote taskId).tasks.lookup t
      = if t = taskId then
          (w.tasks.lookup taskId).map fun c => { c with remotes := c.remotes ++ [remote] }
        else w.tasks.lookup t := by
  simp only [bind]
  split
  · rename_i hl
    split
    · rename_i ht
      rw [ht, hl]
      rfl
    · rfl
  · rename_i c hl
    rw [Table.lookup_insert_ite]
    split
    · rw [hl]
      rfl
    · rfl

variable {taskId w}

/-- Binding an address changes nothing of any session but the addresses it has. -/
theorem bind_lookup_some {remote : SocketAddr} {t : Nat} {c : TaskContainer Rtc}
    (h : (w.bind remote taskId).tasks.lookup t = some c) :
    ∃ c₀ remotes, w.tasks.lookup t = some c₀ ∧ c = { c₀ with remotes } := by
  rw [bind_lookup] at h
  split at h
  · rename_i ht
    obtain ⟨c₀, hc₀, rfl⟩ := Option.map_eq_some_iff.mp h
    exact ⟨c₀, _, ht ▸ hc₀, rfl⟩
  · exact ⟨c, c.remotes, h, rfl⟩

theorem bind_lookup_none {remote : SocketAddr} {t : Nat} :
    (w.bind remote taskId).tasks.lookup t = none ↔ w.tasks.lookup t = none := by
  rw [bind_lookup]
  split
  · rename_i ht
    rw [ht, Option.map_eq_none_iff]
  · rfl

end

/-- The tables after the session `taskId`, whose container is `c`, is removed. -/
def without (taskId : Nat) (c : TaskContainer Rtc) (w : Worker Rtc) : Worker Rtc :=
  { w with
    tasks := w.tasks.erase taskId
    taskRemotes := Table.eraseAll w.taskRemotes c.remotes
    taskUfrags := w.taskUfrags.erase c.task.ufrag
    busChannels := c.pubChannels.foldl (BusChannels.retainConsumers taskId)
      (c.subChannels.foldl (BusChannels.retainConsumers taskId) w.busChannels) }

theorem without_lookup (taskId : Nat) (c : TaskContainer Rtc) (w : Worker Rtc) (t : Nat) :
    (w.without taskId c).tasks.lookup t = if t = taskId then none else w.tasks.lookup t := by
  rw [without, Table.lookup_erase_ite]

/-- Whoever is still there after a removal is another session, and was there before it. -/
theorem without_lookup_some {taskId t : Nat} {c c' : TaskContainer Rtc} {w : Worker Rtc}
    (h : (w.without taskId c).tasks.lookup t = some c') :
    t ≠ taskId ∧ w.tasks.lookup t = some c' := by
  rw [without_lookup] at h
  split at h
  · cases h
  · exact ⟨‹_›, h⟩

theorem without_taskRemotes (taskId : Nat) (c : TaskContainer Rtc) (w : Worker Rtc)
    (r : SocketAddr) :
    (w.without taskId c).taskRemotes.lookup r
      = if r ∈ c.remotes then none else w.taskRemotes.lookup r := by
  rw [without, Table.lookup_eraseAll]

theorem without_taskUfrags (taskId : Nat) (c : TaskContainer Rtc) (w : Worker Rtc) (u : String) :
    (w.without taskId c).taskUfrags.lookup u
      = if u = c.task.ufrag then none else w.taskUfrags.lookup u := by
  rw [without, Table.lookup_erase_ite]

theorem removeTask_ok {taskId : Nat} {w w' : Worker Rtc} {actions : List Action} :
    w.removeTask taskId = .ok (w', actions) ↔
      ∃ c, w.tasks.lookup taskId = some c ∧ w' = w.without taskId c ∧
        actions = [.removed taskId] := by
  unfold removeTask
  cases hc : w.tasks.lookup taskId with
  | none => simp
  | some c =>
      simp only [Except.ok.injEq, Prod.mk.injEq, Option.some.injEq, exists_eq_left']
      constructor
      · rintro ⟨rfl, rfl⟩
        exact ⟨rfl, rfl⟩
      · rintro ⟨rfl, rfl⟩
        exact ⟨rfl, rfl⟩

theorem without_channels (taskId : Nat) (c : TaskContainer Rtc) (w : Worker Rtc) (t : UInt64) :
    (w.without taskId c).busChannels.lookup t
      = if t ∈ c.subChannels ∨ t ∈ c.pubChannels then
          (w.busChannels.lookup t).bind (BusChannels.dropConsumer taskId)
        else w.busChannels.lookup t := by
  simp only [without, BusChannels.lookup_foldl_retainConsumers]
  by_cases hs : t ∈ c.subChannels <;> by_cases hp : t ∈ c.pubChannels <;>
    simp [hs, hp, Option.bind_assoc, BusChannels.dropConsumer_idem]

/-- Removal takes the session off the consumers of its tracks, and off no list of sources. -/
theorem without_ids (taskId : Nat) (c : TaskContainer Rtc) (w : Worker Rtc) (side : Side)
    (trackId : UInt64) :
    side.ids (w.without taskId c).busChannels trackId
      = match side with
        | .media =>
            if trackId ∈ c.subChannels ∨ trackId ∈ c.pubChannels then
              (side.ids w.busChannels trackId).filter (· ≠ taskId)
            else side.ids w.busChannels trackId
        | .keyframe => side.ids w.busChannels trackId := by
  cases side <;>
    simp only [Side.ids, BusChannels.entry, without_channels] <;>
    split <;> simp only [BusChannels.getD_dropConsumer]

/-- A removal puts nobody on a list. -/
theorem mem_without_ids {taskId t : Nat} {c : TaskContainer Rtc} {w : Worker Rtc} {side : Side}
    {trackId : UInt64} (h : t ∈ side.ids (w.without taskId c).busChannels trackId) :
    t ∈ side.ids w.busChannels trackId := by
  rw [without_ids] at h
  cases side with
  | media =>
      simp only at h
      split at h
      · exact List.mem_of_mem_filter h
      · exact h
  | keyframe => exact h

/-- The other sessions stay listed as they were. -/
theorem count_without_ids {taskId t : Nat} (hne : t ≠ taskId) (c : TaskContainer Rtc)
    (w : Worker Rtc) (side : Side) (trackId : UInt64) :
    (side.ids (w.without taskId c).busChannels trackId).count t
      = (side.ids w.busChannels trackId).count t := by
  rw [without_ids]
  cases side with
  | media =>
      simp only
      split
      · exact List.count_filter (by simpa using hne)
      · rfl
  | keyframe => rfl

theorem without_noneEmpty (taskId : Nat) (c : TaskContainer Rtc) {w : Worker Rtc}
    (h : w.busChannels.NoneEmpty) : (w.without taskId c).busChannels.NoneEmpty := by
  intro trackId channel hl
  rw [without_channels] at hl
  split at hl
  · obtain ⟨_, -, hdrop⟩ := Option.bind_eq_some_iff.mp hl
    exact BusChannels.dropConsumer_some hdrop
  · exact h trackId channel hl

end Worker

/-! ### The rule for one step -/

/--
What holds after a step, whichever it was, has to hold after seven things: feeding
sessions, an unknown path, a new session, a new binding, one call of `pop_action`, the
ended list being taken, and one removal.
-/
theorem Step.call_rule {P : List Action → Worker Rtc → Prop} {w : Worker Rtc}
    (feed : ∀ actions w', Worker.Feeds w actions w' → P actions w')
    (notFound : ∀ req, P [.send (Worker.notFound req)] w)
    (create : ∀ config req task, Worker.Opened ext config req task → admits w config →
      P [.created w.taskIdSeed req] (w.register task))
    (bind : ∀ remote username taskId, w.taskRemotes.lookup remote = none →
      w.taskUfrags.lookup username = some taskId →
      P [.bound remote taskId] (w.bind remote taskId))
    (pop : ∀ taskId container now out task, w.tasks.lookup taskId = some container →
      container.task.popAction ext now = (out, task) →
      P (popActions taskId (container.task.polled ext now) out)
        (w.performOn taskId out { container with task }))
    (takeEnded : P [] { w with endedTasks := [] })
    (remove : ∀ taskId container, w.tasks.lookup taskId = some container →
      P [.removed taskId] (w.without taskId container))
    {actions : List Action} {w' : Worker Rtc} (hstep : Step ext admits w actions w') :
    P actions w' := by
  cases hstep with
  | busEvent ev now h => exact feed _ _ (Worker.handleBusEvent_feeds h)
  | notFound req => exact notFound req
  | create hopen hadmits => exact create _ _ _ hopen hadmits
  | tick order now h =>
      obtain ⟨hq, rfl⟩ := Worker.processTick_ok h
      exact feed _ _ ⟨hq, by simp⟩
  | bind hremote hufrag => exact bind _ _ _ hremote hufrag
  | input now src dst buf taskId h => exact feed _ _ (Worker.inputTask_feeds h)
  | pop hlookup hpop => exact pop _ _ _ _ _ hlookup hpop
  | takeEnded => exact takeEnded
  | remove taskId h =>
      obtain ⟨c, hc, rfl, rfl⟩ := Worker.removeTask_ok.mp h
      exact remove _ _ hc

/-- The same rule, with what `pop_action` is known to do in place of the call. -/
theorem Step.rule {P : List Action → Worker Rtc → Prop} {w : Worker Rtc}
    (feed : ∀ actions w', Worker.Feeds w actions w' → P actions w')
    (notFound : ∀ req, P [.send (Worker.notFound req)] w)
    (create : ∀ config req task, Worker.Opened ext config req task → admits w config →
      P [.created w.taskIdSeed req] (w.register task))
    (bind : ∀ remote username taskId, w.taskRemotes.lookup remote = none →
      w.taskUfrags.lookup username = some taskId →
      P [.bound remote taskId] (w.bind remote taskId))
    (pop : ∀ taskId container now out task, w.tasks.lookup taskId = some container →
      ComposeTask.Popped ext now container.task out task →
      P (popActions taskId (container.task.polled ext now) out)
        (w.performOn taskId out { container with task }))
    (takeEnded : P [] { w with endedTasks := [] })
    (remove : ∀ taskId container, w.tasks.lookup taskId = some container →
      P [.removed taskId] (w.without taskId container))
    {actions : List Action} {w' : Worker Rtc} (hstep : Step ext admits w actions w') :
    P actions w' :=
  Step.call_rule feed notFound create bind
    (fun taskId container now out task hl hpop =>
      pop taskId container now out task hl (ComposeTask.popAction_spec hpop))
    takeEnded remove hstep

/-- The rule for a property of the tables alone. -/
theorem Step.post {P : Worker Rtc → Prop} {w : Worker Rtc}
    (quiet : ∀ w', Worker.Quiet w w' → P w')
    (create : ∀ config req task, Worker.Opened ext config req task → admits w config →
      P (w.register task))
    (bind : ∀ remote username taskId, w.taskRemotes.lookup remote = none →
      w.taskUfrags.lookup username = some taskId → P (w.bind remote taskId))
    (pop : ∀ taskId container now out task, w.tasks.lookup taskId = some container →
      ComposeTask.Popped ext now container.task out task →
      P (w.performOn taskId out { container with task }))
    (takeEnded : P { w with endedTasks := [] })
    (remove : ∀ taskId container, w.tasks.lookup taskId = some container →
      P (w.without taskId container))
    {actions : List Action} {w' : Worker Rtc} (hstep : Step ext admits w actions w') : P w' :=
  Step.rule (P := fun _ w' => P w') (fun _ w' h => quiet w' h.1) (fun _ => quiet w (.refl w))
    create bind pop takeEnded remove hstep

namespace Worker

variable (ext) (admits)

/-- The tables a worker can reach, with what it has done on the way. -/
def Reaches (addr : SocketAddr) (actions : List Action) (w : Worker Rtc) : Prop :=
  Emits (Turn ext admits) (Worker.new addr) actions w

variable {ext} {admits}

/-- A turn more. -/
theorem Reaches.exec {addr : SocketAddr} {actions bs : List Action} {w w' : Worker Rtc}
    (h : Reaches ext admits addr actions w) (op : Op Rtc)
    (hadmits : ∀ arrival, op = .request arrival → admits w arrival.config)
    (hexec : w.exec ext op = .ok (w', bs)) : Reaches ext admits addr (actions ++ bs) w' :=
  h.tail ⟨op, hadmits, hexec⟩

theorem Reaches.steps {addr : SocketAddr} {actions : List Action} {w : Worker Rtc}
    (h : Reaches ext admits addr actions w) :
    Emits (Step ext admits) (Worker.new addr) actions w :=
  Emits.simulate (fun _ _ _ => exec_emits) h

end Worker

end MediaServer
