/-
The order in which the sessions are walked does not matter.

`process_tick` and `pop_tasks` walk a hash map, and what a hash map is walked in is not
specified.  The sessions share the bus channels, the list of ended sessions and the
three things they emit to, so the order shows: in what order a channel lists its
sessions, in what order the ended ones are removed, and how the actions of one session
stand to those of another.  It shows nowhere else.  What a session emits when it is
polled, and what becomes of it, depend on nothing but the session (`popTask_alone`);
what the tables gain is read off what was emitted (`Grown`); and two removals commute,
channels that both of them leave empty included (`removeTask_commutes`).

What is emitted is what the sinks are handed.  A sink with room for it loses nothing, so
what is said here of the actions is said of the datagrams, responses and bus events.
-/
import MediaServer.Lib.Commute
import MediaServer.Proofs.Ending

namespace MediaServer

open Lib

variable {Rtc : Type} {ext : Extern Rtc}

/-! ### What polled sessions add to the tables -/

namespace Side

/-- The session an action lists on this side of the channel of a track. -/
def listed : Side → UInt64 → Action → Option Nat
  | .media, trackId, .subscribed taskId joined => if joined = trackId then some taskId else none
  | .keyframe, trackId, .published taskId joined => if joined = trackId then some taskId else none
  | _, _, _ => none

/-- The sessions these actions list there, in order. -/
def added (side : Side) (trackId : UInt64) (actions : List Action) : List Nat :=
  actions.filterMap (side.listed trackId)

theorem added_append (side : Side) (trackId : UInt64) (as bs : List Action) :
    side.added trackId (as ++ bs) = side.added trackId as ++ side.added trackId bs :=
  List.filterMap_append

theorem listed_performed (side : Side) (trackId : UInt64) (taskId : Nat)
    (action : WebrtcTaskOutput) :
    side.listed trackId (performed taskId action)
      = if side.joins action = some trackId then some taskId else none := by
  cases side <;> cases action with
  | io a => cases a <;> rfl
  | _ => simp [listed, performed, joins]

theorem added_popActions (side : Side) (trackId : UInt64) (taskId : Nat)
    (answer : Option (Except ExternError Output)) (out : Option WebrtcTaskOutput) :
    side.added trackId (popActions taskId answer out)
      = if out.bind side.joins = some trackId then [taskId] else [] := by
  have hpolled : (answer.bind fun x => side.listed trackId (.polled taskId x)) = none := by
    cases answer <;> cases side <;> rfl
  rw [added, filterMap_popActions, hpolled]
  cases out with
  | none => rfl
  | some action =>
      simp only [Option.bind_some, listed_performed]
      split <;> rfl

end Side

namespace Worker

/-- A polled action makes the channel it joins known, and no other. -/
theorem performOn_unknown (taskId : Nat) (out : Option WebrtcTaskOutput)
    (container : TaskContainer Rtc) (w : Worker Rtc) (trackId : UInt64) :
    (w.performOn taskId out container).busChannels.lookup trackId = none ↔
      w.busChannels.lookup trackId = none ∧ ∀ side : Side, out.bind side.joins ≠ some trackId := by
  have hsides : ∀ p : Side → Prop, (∀ side, p side) ↔ p .media ∧ p .keyframe := by
    intro p
    exact ⟨fun h => ⟨h _, h _⟩, fun h side => by cases side; exacts [h.1, h.2]⟩
  rw [hsides]
  cases out with
  | none => simp [performOn, withPop, popState]
  | some action =>
      cases action with
      | io a =>
          cases a <;>
            simp [performOn, withPop, popState, PopState.perform, PopState.emit, Side.joins]
      | publishTrack t =>
          by_cases h : trackId = t <;>
            simp [performOn, withPop, popState, PopState.perform, PopState.emit, Side.joins,
              BusChannels.pushSource, h, eq_comm]
      | subscribeTrack t =>
          by_cases h : trackId = t <;>
            simp [performOn, withPop, popState, PopState.perform, PopState.emit, Side.joins,
              BusChannels.pushConsumer, h, eq_comm]
      | _ => simp [performOn, withPop, popState, PopState.perform, PopState.emit, Side.joins]

/-- The tables gained what these actions of polled sessions say, and nothing else. -/
structure Grown (w : Worker Rtc) (actions : List Action) (w' : Worker Rtc) : Prop where
  taskRemotes : w'.taskRemotes = w.taskRemotes
  taskUfrags : w'.taskUfrags = w.taskUfrags
  endedTasks : w'.endedTasks = w.endedTasks ++ endedIds actions
  ids : ∀ (side : Side) trackId,
    side.ids w'.busChannels trackId = side.ids w.busChannels trackId ++ side.added trackId actions
  unknown : ∀ trackId, w'.busChannels.lookup trackId = none ↔
    w.busChannels.lookup trackId = none ∧ ∀ side : Side, side.added trackId actions = []

namespace Grown

theorem refl (w : Worker Rtc) : Grown w [] w :=
  ⟨rfl, rfl, (List.append_nil _).symm, fun _ _ => (List.append_nil _).symm,
    fun _ => ⟨fun h => ⟨h, fun _ => rfl⟩, fun h => h.1⟩⟩

theorem trans {u v w : Worker Rtc} {as bs : List Action} (h₁ : Grown u as v)
    (h₂ : Grown v bs w) : Grown u (as ++ bs) w := by
  refine ⟨h₂.1.trans h₁.1, h₂.2.trans h₁.2, ?_, ?_, ?_⟩
  · rw [h₂.endedTasks, h₁.endedTasks, endedIds_append, List.append_assoc]
  · intro side trackId
    rw [h₂.ids, h₁.ids, Side.added_append, List.append_assoc]
  · intro trackId
    simp only [h₂.unknown, h₁.unknown, Side.added_append, List.append_eq_nil_iff, forall_and,
      and_assoc]

theorem performOn (taskId : Nat) (answer : Option (Except ExternError Output))
    (out : Option WebrtcTaskOutput) (container : TaskContainer Rtc) (w : Worker Rtc) :
    Grown w (popActions taskId answer out) (w.performOn taskId out container) := by
  refine ⟨rfl, rfl, ?_, ?_, ?_⟩
  · rw [performOn_endedTasks, endedIds_popActions]
  · intro side trackId
    rw [performOn_ids, Side.added_popActions]
  · intro trackId
    simp [performOn_unknown, Side.added_popActions]

end Grown

theorem popTask_grown {now : Instant} {taskId : Nat} {c : TaskContainer Rtc} {w : Worker Rtc}
    (h : w.tasks.lookup taskId = some c) :
    Grown w (w.popTask ext now taskId c).2 (w.popTask ext now taskId c).1 :=
  popTask_turns (P := Grown w)
    (fun _ _ _ _ _ _ _ hw => hw.trans (.performOn _ _ _ _ _)) h (.refl w)

/-! ### A session is polled by itself -/

/-- What a session emits when polled, and what becomes of it, are its own affair. -/
theorem popTask_alone (ext : Extern Rtc) (now : Instant) (taskId : Nat) (c : TaskContainer Rtc)
    (w w' : Worker Rtc) :
    (w.popTask ext now taskId c).2 = (w'.popTask ext now taskId c).2 ∧
      ∃ c', (w.popTask ext now taskId c).1.tasks = w.tasks.insert taskId c' ∧
        (w'.popTask ext now taskId c).1.tasks = w'.tasks.insert taskId c' := by
  have hsame := drain_respects (PopState.drains ext now taskId)
    (R := fun s s' => s.task = s'.task ∧ s.actions = s'.actions) ?_ ?_
    (w.popState c) (w'.popState c) ⟨rfl, rfl⟩
  · refine ⟨hsame.2, _, rfl, ?_⟩
    rw [popTask]
    exact congrArg (fun c => w'.tasks.insert taskId c) hsame.1.symm
  · rintro s s' ⟨htask, hactions⟩
    simp [PopState.next, htask, hactions]
  · rintro action s s' ⟨htask, hactions⟩
    rw [PopState.perform_actions, PopState.perform_actions, hactions]
    refine ⟨?_, rfl⟩
    cases action with
    | io a => cases a <;> exact htask
    | publishTrack t => simp [PopState.perform, PopState.emit, htask]
    | subscribeTrack t => simp [PopState.perform, PopState.emit, htask]
    | _ => exact htask

/-- Polling whoever has this id: `popOne` cannot fail. -/
def poll (ext : Extern Rtc) (now : Instant) (taskId : Nat) (w : Worker Rtc) :
    Worker Rtc × List Action :=
  match w.tasks.lookup taskId with
  | none => (w, [])
  | some container => popTask ext now taskId container w

theorem popOne_eq (now : Instant) (taskId : Nat) (w : Worker Rtc) :
    w.popOne ext now taskId = .ok (w.poll ext now taskId) := by
  unfold popOne poll
  cases w.tasks.lookup taskId <;> rfl

theorem poll_grown (ext : Extern Rtc) (now : Instant) (taskId : Nat) (w : Worker Rtc) :
    Grown w (w.poll ext now taskId).2 (w.poll ext now taskId).1 := by
  unfold poll
  split
  · exact .refl w
  · rename_i c hc
    exact popTask_grown hc

theorem poll_alone {now : Instant} {taskId : Nat} {w w' : Worker Rtc}
    (h : w.tasks.lookup taskId = w'.tasks.lookup taskId) :
    (w.poll ext now taskId).2 = (w'.poll ext now taskId).2 ∧
      (w.poll ext now taskId).1.tasks.lookup taskId
        = (w'.poll ext now taskId).1.tasks.lookup taskId := by
  unfold poll
  rw [← h]
  cases hc : w.tasks.lookup taskId with
  | none => exact ⟨rfl, by simp only [← h]⟩
  | some c =>
      obtain ⟨hactions, c', htasks, htasks'⟩ := popTask_alone ext now taskId c w w'
      refine ⟨hactions, ?_⟩
      simp only [htasks, htasks', Finmap.lookup_insert]

theorem poll_others {now : Instant} {taskId t : Nat} {w : Worker Rtc} (hne : t ≠ taskId) :
    (w.poll ext now taskId).1.tasks.lookup t = w.tasks.lookup t := by
  unfold poll
  split
  · rfl
  · rename_i c _
    obtain ⟨-, c', htasks, -⟩ := popTask_alone ext now taskId c w w
    rw [htasks, Finmap.lookup_insert_of_ne _ hne]

/-! ### The walks -/

/--
A walk of `pop_tasks` that meets no session twice: it cannot fail, and each session emits
what it would have emitted had it been met first.
-/
theorem popTasks_ok (ext : Extern Rtc) (now : Instant) {order : List Nat} :
    ∀ w : Worker Rtc, order.Nodup → ∃ w',
      w.popTasks ext order now = .ok (w', order.flatMap fun t => (w.poll ext now t).2) ∧
      ∀ t, w'.tasks.lookup t =
        if t ∈ order then (w.poll ext now t).1.tasks.lookup t else w.tasks.lookup t := by
  induction order with
  | nil => intro w _; exact ⟨w, rfl, by simp⟩
  | cons taskId rest ih =>
      intro w hnodup
      obtain ⟨hnot, hrest⟩ := List.nodup_cons.mp hnodup
      obtain ⟨w', hrun, hlookup⟩ := ih (w.poll ext now taskId).1 hrest
      -- Whoever is met later is still what it was.
      have halone : ∀ t ∈ rest, ((w.poll ext now taskId).1.poll ext now t).2
            = (w.poll ext now t).2 ∧
          ((w.poll ext now taskId).1.poll ext now t).1.tasks.lookup t
            = (w.poll ext now t).1.tasks.lookup t := by
        intro t ht
        exact poll_alone (poll_others fun heq => hnot (heq ▸ ht))
      refine ⟨w', forEach_cons_ok.mpr ⟨_, _, _, popOne_eq now taskId w, hrun, ?_⟩, fun t => ?_⟩
      · rw [List.flatMap_cons]
        exact congrArg _ (List.flatMap_congr fun t ht => (halone t ht).1.symm)
      · rw [hlookup]
        by_cases ht : t ∈ rest
        · rw [if_pos ht, if_pos (List.mem_cons_of_mem _ ht), (halone t ht).2]
        · by_cases hself : t = taskId
          · rw [if_neg ht, if_pos (by simp [hself]), hself]
          · rw [if_neg ht, if_neg (by simp [hself, ht]), poll_others hself]

theorem popTasks_grown {now : Instant} {order : List Nat} {w w' : Worker Rtc}
    {actions : List Action} (h : w.popTasks ext order now = .ok (w', actions)) :
    Grown w actions w' := by
  refine forEach_preserves (P := Grown w) ?_ h (.refl w)
  intro taskId s t as bs hs hw
  have hpoll : s.poll ext now taskId = (t, bs) :=
    Except.ok.inj ((popOne_eq now taskId s).symm.trans hs)
  have hgrown := poll_grown ext now taskId s
  rw [hpoll] at hgrown
  exact hw.trans hgrown

end Worker

/-- The session after one more tick. -/
def TaskContainer.ticked (ext : Extern Rtc) (now : Instant) (c : TaskContainer Rtc) :
    TaskContainer Rtc :=
  { c with task := (c.task.tick ext now).2 }

namespace Worker

theorem tickTask_eq (ext : Extern Rtc) (now : Instant) (taskId : Nat) (w : Worker Rtc) :
    ∃ m, w.tickTask ext now taskId = { w with tasks := m } ∧ ∀ t, m.lookup t =
      if t = taskId then (w.tasks.lookup t).map (.ticked ext now) else w.tasks.lookup t := by
  unfold tickTask
  cases hc : w.tasks.lookup taskId with
  | none =>
      refine ⟨w.tasks, rfl, fun t => ?_⟩
      split
      · rename_i ht
        rw [ht, hc]
        rfl
      · rfl
  | some c =>
      refine ⟨_, rfl, fun t => ?_⟩
      rw [Table.lookup_insert_ite]
      split
      · rename_i ht
        rw [ht, hc]
        rfl
      · rfl

/-- A walk of `process_tick` that meets no session twice. -/
theorem processTick_eq (ext : Extern Rtc) (now : Instant) {order : List Nat} :
    ∀ w : Worker Rtc, order.Nodup → ∃ m,
      w.processTick ext order now = .ok ({ w with tasks := m }, []) ∧ ∀ t, m.lookup t =
        if t ∈ order then (w.tasks.lookup t).map (.ticked ext now) else w.tasks.lookup t := by
  induction order with
  | nil => intro w _; exact ⟨w.tasks, rfl, by simp⟩
  | cons taskId rest ih =>
      intro w hnodup
      obtain ⟨hnot, hrest⟩ := List.nodup_cons.mp hnodup
      obtain ⟨m, hfirst, hm⟩ := tickTask_eq ext now taskId w
      obtain ⟨m', hrun, hm'⟩ := ih { w with tasks := m } hrest
      refine ⟨m', forEach_cons_ok.mpr ⟨_, [], [], rfl, ?_, rfl⟩, fun t => ?_⟩
      · rw [hfirst]
        exact hrun
      · rw [hm', hm]
        by_cases hself : t = taskId
        · rw [if_neg (hself ▸ hnot), if_pos hself, if_pos (by simp [hself])]
        · simp [hself]

end Worker

/-! ### Removals commute -/

namespace BusChannels

theorem dropConsumer_comm (a b : Nat) (channel : BusChannelContainer) :
    (dropConsumer a channel).bind (dropConsumer b)
      = (dropConsumer b channel).bind (dropConsumer a) := by
  rw [dropConsumer_bind, dropConsumer_bind, List.filter_comm]

end BusChannels

namespace Worker

open BusChannels

/-- Two removals leave the same tables in either order. -/
theorem without_comm (a b : Nat) (c d : TaskContainer Rtc) (w : Worker Rtc) :
    (w.without a c).without b d = (w.without b d).without a c := by
  have hchannels : ((w.without a c).without b d).busChannels
      = ((w.without b d).without a c).busChannels := by
    refine Finmap.ext_lookup fun t => ?_
    simp only [without_channels]
    split <;> split
    · rw [Option.bind_assoc, Option.bind_assoc]
      exact congrArg _ (funext fun channel => dropConsumer_comm a b channel)
    all_goals rfl
  have hremotes : Table.eraseAll (Table.eraseAll w.taskRemotes c.remotes) d.remotes
      = Table.eraseAll (Table.eraseAll w.taskRemotes d.remotes) c.remotes := by
    refine Finmap.ext_lookup fun r => ?_
    simp only [Table.lookup_eraseAll]
    split <;> split <;> rfl
  have htasks : (w.tasks.erase a).erase b = (w.tasks.erase b).erase a := Finmap.erase_erase
  have hufrags : (w.taskUfrags.erase c.task.ufrag).erase d.task.ufrag
      = (w.taskUfrags.erase d.task.ufrag).erase c.task.ufrag := Finmap.erase_erase
  simp only [without, Worker.mk.injEq, true_and, and_true]
  exact ⟨hchannels, htasks, hremotes, hufrags⟩

/-- If one session can be removed and then another, they can be removed the other way round. -/
theorem removeTask_commutes : TurnsCommute (removeTask : Nat → Worker Rtc → _) := by
  intro a b s t u bs cs ha hb
  obtain ⟨c, hc, rfl, rfl⟩ := removeTask_ok.mp ha
  obtain ⟨d, hd, rfl, rfl⟩ := removeTask_ok.mp hb
  obtain ⟨hne, hd⟩ := without_lookup_some hd
  refine ⟨s.without b d, removeTask_ok.mpr ⟨d, hd, rfl, rfl⟩, removeTask_ok.mpr ⟨c, ?_, ?_, rfl⟩⟩
  · rw [without_lookup, if_neg hne.symm]
    exact hc
  · exact without_comm a b c d s

end Worker

/-! ### Tables that differ in an order only -/

/-- The same sessions on both sides, each as often. -/
def BusChannelContainer.Alike (a b : BusChannelContainer) : Prop :=
  a.sources.Perm b.sources ∧ a.consumers.Perm b.consumers

/-- The same tables, but for the order in which a channel lists its sessions. -/
structure Worker.Alike (w w' : Worker Rtc) : Prop where
  tasks : w'.tasks = w.tasks
  taskRemotes : w'.taskRemotes = w.taskRemotes
  taskUfrags : w'.taskUfrags = w.taskUfrags
  busChannels : ∀ trackId,
    Option.Rel BusChannelContainer.Alike (w.busChannels.lookup trackId)
      (w'.busChannels.lookup trackId)

namespace Worker

open BusChannels

/-- Dropping a consumer from two channels that differ in an order only. -/
theorem alike_dropConsumer (taskId : Nat) {x y : Option BusChannelContainer}
    (h : Option.Rel BusChannelContainer.Alike x y) :
    Option.Rel BusChannelContainer.Alike (x.bind (dropConsumer taskId))
      (y.bind (dropConsumer taskId)) := by
  cases h with
  | none => exact .none
  | some hab =>
      rename_i a b
      have hconsumers := hab.2.filter fun t => decide (t ≠ taskId)
      have hempty : (a.consumers.filter (· ≠ taskId)).isEmpty
          = (b.consumers.filter (· ≠ taskId)).isEmpty := hconsumers.isEmpty_eq
      simp only [Option.bind_some, dropConsumer, hempty, hab.1.isEmpty_eq]
      split
      · exact .none
      · exact .some ⟨hab.1, hconsumers⟩

theorem Alike.without {w w' : Worker Rtc} (h : Alike w w') (taskId : Nat)
    (c : TaskContainer Rtc) : Alike (w.without taskId c) (w'.without taskId c) := by
  refine ⟨?_, ?_, ?_, fun t => ?_⟩
  · rw [Worker.without, h.tasks]
    rfl
  · rw [Worker.without, h.taskRemotes]
    rfl
  · rw [Worker.without, h.taskUfrags]
    rfl
  · rw [without_channels, without_channels]
    split
    · exact alike_dropConsumer taskId (h.busChannels t)
    · exact h.busChannels t

theorem Alike.removeTask {w w' v : Worker Rtc} {taskId : Nat} {actions : List Action}
    (h : Alike w w') (hrun : w.removeTask taskId = .ok (v, actions)) :
    ∃ v', w'.removeTask taskId = .ok (v', actions) ∧ Alike v v' := by
  obtain ⟨c, hc, rfl, rfl⟩ := removeTask_ok.mp hrun
  exact ⟨w'.without taskId c, removeTask_ok.mpr ⟨c, h.tasks ▸ hc, rfl, rfl⟩, h.without taskId c⟩

/-- Tables that gained the same from the same ones, in whatever order, differ in that order. -/
theorem Grown.alike {w v v' : Worker Rtc} {as bs : List Action} (h : Grown w as v)
    (h' : Grown w bs v') (hperm : as.Perm bs) (htasks : v'.tasks = v.tasks) : Alike v v' := by
  refine ⟨htasks, h'.taskRemotes.trans h.taskRemotes.symm, h'.taskUfrags.trans h.taskUfrags.symm,
    fun trackId => ?_⟩
  have hids : ∀ side : Side,
      (side.ids v.busChannels trackId).Perm (side.ids v'.busChannels trackId) := by
    intro side
    rw [h.ids, h'.ids]
    exact (hperm.filterMap _).append_left _
  have hunknown : v.busChannels.lookup trackId = none ↔ v'.busChannels.lookup trackId = none := by
    have hnil : ∀ side : Side, side.added trackId as = [] ↔ side.added trackId bs = [] := by
      intro side
      have := (hperm.filterMap (side.listed trackId)).length_eq
      simp only [Side.added, ← List.length_eq_zero_iff, this]
    simp only [h.unknown, h'.unknown, hnil]
  have hsources := hids .keyframe
  have hconsumers := hids .media
  simp only [Side.ids, BusChannels.entry] at hsources hconsumers
  cases hl : v.busChannels.lookup trackId with
  | none =>
      rw [hunknown.mp hl]
      exact .none
  | some a =>
      cases hl' : v'.busChannels.lookup trackId with
      | none =>
          rw [hunknown.mpr hl'] at hl
          cases hl
      | some b =>
          rw [hl, hl'] at hsources hconsumers
          exact .some ⟨hsources, hconsumers⟩

/-- The clean-up of tables that differ in an order only, their lists of ended sessions too. -/
theorem Alike.popEndedTasks {w w' u : Worker Rtc} {actions : List Action} (h : Alike w w')
    (hended : w.endedTasks.Perm w'.endedTasks) (hrun : w.popEndedTasks = .ok (u, actions)) :
    ∃ u', w'.popEndedTasks = .ok (u', w'.endedTasks.map .removed) ∧ Alike u u' := by
  have htaken : Alike { w with endedTasks := [] } { w' with endedTasks := [] } :=
    ⟨h.tasks, h.taskRemotes, h.taskUfrags, h.busChannels⟩
  obtain ⟨bs, hreordered, -⟩ := forEach_perm removeTask_commutes hended hrun
  obtain ⟨u', hrun', halike⟩ := forEach_respects (f := Worker.removeTask)
    (fun _ _ _ _ _ h hstep => Alike.removeTask h hstep) htaken hreordered
  obtain ⟨rfl, -, -⟩ := removeTasks_removed hrun'
  exact ⟨u', hrun', halike⟩

/-! ### One sweep, in any order -/

/-- `order` meets every session there is, and each once. -/
structure Enumerates (order : List Nat) (w : Worker Rtc) : Prop where
  nodup : order.Nodup
  mem_iff : ∀ t, t ∈ order ↔ w.tasks.lookup t ≠ none

/-- `process_tick`, `pop_tasks` and `pop_ended_tasks`, with the orders of the first two. -/
def sweep (ext : Extern Rtc) (tickOrder popOrder : List Nat) (tickAt popAt : Instant) :
    Worker Rtc → Except Panic (Worker Rtc × List Action) :=
  forEach (fun phase => phase)
    [processTick ext tickOrder tickAt, popTasks ext popOrder popAt, popEndedTasks]

/-- What a session emits in a sweep, where it is ticked and then polled. -/
def emits (ext : Extern Rtc) (tickAt popAt : Instant) (w : Worker Rtc) (taskId : Nat) :
    List Action :=
  match w.tasks.lookup taskId with
  | none => []
  | some c => (popTask ext popAt taskId (c.ticked ext tickAt) w).2

/--
Two outcomes of a sweep that differ in the order of the walks only: alike tables, the
same actions, and each session's own ones in one stretch, the same in both.
-/
structure SameOutcome (own : Nat → List Action) (order order' : List Nat)
    (r r' : Worker Rtc × List Action) : Prop where
  tables : Alike r.1 r'.1
  actions : r.2.Perm r'.2
  own : ∃ removed removed' : List Nat, removed.Perm removed' ∧
    r.2 = order.flatMap own ++ removed.map .removed ∧
    r'.2 = order'.flatMap own ++ removed'.map .removed

/-- What a sweep comes to before the clean-up, without its orders. -/
theorem sweep_eq (ext : Extern Rtc) {tickOrder popOrder : List Nat} (tickAt popAt : Instant)
    {w : Worker Rtc} (htick : Enumerates tickOrder w) (hpop : Enumerates popOrder w) :
    ∃ v, w.sweep ext tickOrder popOrder tickAt popAt
        = v.popEndedTasks.map (fun r => (r.1, popOrder.flatMap (w.emits ext tickAt popAt) ++ r.2)) ∧
      Grown w (popOrder.flatMap (w.emits ext tickAt popAt)) v ∧
      ∀ t, v.tasks.lookup t = (w.tasks.lookup t).bind fun c =>
        (popTask ext popAt t (c.ticked ext tickAt) w).1.tasks.lookup t := by
  obtain ⟨m, hticked, hm⟩ := processTick_eq ext tickAt w htick.nodup
  obtain ⟨v, hpopped, hv⟩ := popTasks_ok ext popAt { w with tasks := m } hpop.nodup
  have hm' : ∀ t, m.lookup t = (w.tasks.lookup t).map (.ticked ext tickAt) := by
    intro t
    rw [hm]
    split
    · rfl
    · rename_i ht
      rw [not_not.mp ((htick.mem_iff t).not.mp ht)]
      rfl
  have hemits : ∀ t, (poll ext popAt t { w with tasks := m }).2 = w.emits ext tickAt popAt t := by
    intro t
    unfold poll emits
    simp only [hm']
    cases w.tasks.lookup t with
    | none => rfl
    | some c => exact (popTask_alone ext popAt t (c.ticked ext tickAt) _ _).1
  simp only [hemits] at hpopped
  have hgrown : Grown { w with tasks := m } _ v := popTasks_grown hpopped
  refine ⟨v, ?_, ⟨hgrown.1, hgrown.2, hgrown.3, hgrown.4, hgrown.5⟩, fun t => ?_⟩
  · rw [sweep, forEach_cons (f := fun phase => phase) hticked,
      forEach_cons (f := fun phase => phase) hpopped, forEach_singleton]
    cases v.popEndedTasks <;> rfl
  · rw [hv]
    cases hl : w.tasks.lookup t with
    | none =>
        have ht : t ∉ popOrder := fun ht => (hpop.mem_iff t).mp ht hl
        rw [if_neg ht, hm', hl]
        rfl
    | some c =>
        have ht : t ∈ popOrder := (hpop.mem_iff t).mpr (by simp [hl])
        obtain ⟨-, c', htasks, htasks'⟩ := popTask_alone ext popAt t (c.ticked ext tickAt)
          { w with tasks := m } w
        have hl' : m.lookup t = some (c.ticked ext tickAt) := by rw [hm', hl]; rfl
        simp only [if_pos ht, poll, hl', htasks, htasks', Finmap.lookup_insert, Option.bind_some]

/-- A session reports nobody ended but itself. -/
theorem endedIds_emits (ext : Extern Rtc) (tickAt popAt : Instant) (w : Worker Rtc)
    (taskId : Nat) :
    ∀ t ∈ endedIds (w.emits ext tickAt popAt taskId), t = taskId := by
  unfold emits
  split
  · simp [endedIds]
  · exact (popTask_endedTasks ext popAt taskId _ w).2

/-- A sweep that goes through in one order does in every other, to the same outcome. -/
theorem sweep_alike {tickOrder tickOrder' popOrder popOrder' : List Nat} {tickAt popAt : Instant}
    {w : Worker Rtc} (htick : Enumerates tickOrder w) (htick' : Enumerates tickOrder' w)
    (hpop : Enumerates popOrder w) (hpop' : Enumerates popOrder' w)
    {r : Worker Rtc × List Action} (h : w.sweep ext tickOrder popOrder tickAt popAt = .ok r) :
    ∃ r', w.sweep ext tickOrder' popOrder' tickAt popAt = .ok r' ∧
      SameOutcome (w.emits ext tickAt popAt) popOrder popOrder' r r' := by
  obtain ⟨v, hsweep, hgrown, htasks⟩ := sweep_eq ext tickAt popAt htick hpop
  obtain ⟨v', hsweep', hgrown', htasks'⟩ := sweep_eq ext tickAt popAt htick' hpop'
  have horders : popOrder.Perm popOrder' :=
    (List.perm_ext_iff_of_nodup hpop.nodup hpop'.nodup).mpr fun t =>
      (hpop.mem_iff t).trans (hpop'.mem_iff t).symm
  have hactions := horders.flatMap_right (w.emits ext tickAt popAt)
  have hsame : v'.tasks = v.tasks := Finmap.ext_lookup fun t => by rw [htasks, htasks']
  have hended : v.endedTasks.Perm v'.endedTasks := by
    rw [hgrown.endedTasks, hgrown'.endedTasks]
    exact (hactions.filterMap _).append_left _
  rw [hsweep] at h
  obtain ⟨⟨u, bs⟩, hrun, rfl⟩ := except_map_ok.mp h
  obtain ⟨hbs, -, -⟩ := removeTasks_removed hrun
  obtain ⟨u', hrun', halike⟩ := (hgrown.alike hgrown' hactions hsame).popEndedTasks hended hrun
  refine ⟨_, by rw [hsweep', hrun']; rfl, halike, ?_, _, _, hended, by rw [hbs], rfl⟩
  rw [hbs]
  exact hactions.append (hended.map _)

/-- What stops a sweep is the look-up of a session that is gone. -/
theorem sweep_error {tickOrder popOrder : List Nat} {tickAt popAt : Instant} {w : Worker Rtc}
    (htick : Enumerates tickOrder w) (hpop : Enumerates popOrder w) {p : Panic}
    (h : w.sweep ext tickOrder popOrder tickAt popAt = .error p) : p = .noTask := by
  obtain ⟨v, hsweep, -, -⟩ := sweep_eq ext tickAt popAt htick hpop
  rw [hsweep, except_map_error] at h
  exact popEndedTasks_error h

/-- A sweep goes through exactly if nobody is listed as ended twice, or without being there. -/
theorem sweep_ok_iff {tickOrder popOrder : List Nat} {tickAt popAt : Instant} {w : Worker Rtc}
    (htick : Enumerates tickOrder w) (hpop : Enumerates popOrder w) :
    (∃ r, w.sweep ext tickOrder popOrder tickAt popAt = .ok r) ↔
      (w.endedTasks ++ endedIds (popOrder.flatMap (w.emits ext tickAt popAt))).Nodup ∧
        ∀ t ∈ w.endedTasks, w.tasks.lookup t ≠ none := by
  obtain ⟨v, hsweep, hgrown, htasks⟩ := sweep_eq ext tickAt popAt htick hpop
  have hok : (∃ r, v.popEndedTasks = .ok r) ↔
      v.endedTasks.Nodup ∧ ∀ t ∈ v.endedTasks, v.tasks.lookup t ≠ none :=
    Prod.exists.trans (removeTasks_ok_iff (w := { v with endedTasks := [] }))
  have hlive : ∀ t, v.tasks.lookup t ≠ none ↔ w.tasks.lookup t ≠ none := by
    intro t
    rw [htasks]
    cases w.tasks.lookup t with
    | none => rfl
    | some c => simp [popTask]
  -- Who is reported ended has just been polled.
  have hreported : ∀ t ∈ endedIds (popOrder.flatMap (w.emits ext tickAt popAt)),
      v.tasks.lookup t ≠ none := by
    intro t ht
    obtain ⟨a, ha, hid⟩ := List.mem_filterMap.mp ht
    obtain ⟨t', ht', ha⟩ := List.mem_flatMap.mp ha
    rw [endedIds_emits ext tickAt popAt w t' t (List.mem_filterMap.mpr ⟨a, ha, hid⟩)]
    exact (hlive t').mpr ((hpop.mem_iff t').mp ht')
  rw [hsweep, except_map_exists_ok, hok, hgrown.endedTasks]
  refine and_congr_right fun _ => ⟨fun h t ht => ?_, fun h t ht => ?_⟩
  · exact (hlive t).mp (h t (List.mem_append_left _ ht))
  · rcases List.mem_append.mp ht with ht | ht
    · exact (hlive t).mpr (h t ht)
    · exact hreported t ht

/--
**The order in which the sessions are walked does not matter.**  Whatever state a worker
is in, and whatever orders `process_tick` and `pop_tasks` meet its sessions in, the sweep
comes to the same outcome, or to the same panic.  It goes through exactly if no session is
reported ended twice, and none that is not there.
-/
theorem sweep_order_irrelevant (ext : Extern Rtc)
    {tickOrder tickOrder' popOrder popOrder' : List Nat} (tickAt popAt : Instant)
    {w : Worker Rtc} (htick : Enumerates tickOrder w) (htick' : Enumerates tickOrder' w)
    (hpop : Enumerates popOrder w) (hpop' : Enumerates popOrder' w) :
    (∀ r, w.sweep ext tickOrder popOrder tickAt popAt = .ok r →
      ∃ r', w.sweep ext tickOrder' popOrder' tickAt popAt = .ok r' ∧
        SameOutcome (w.emits ext tickAt popAt) popOrder popOrder' r r') ∧
    (∀ p, w.sweep ext tickOrder popOrder tickAt popAt = .error p →
      w.sweep ext tickOrder' popOrder' tickAt popAt = .error p) ∧
    ((∃ r, w.sweep ext tickOrder popOrder tickAt popAt = .ok r) ↔
      (w.endedTasks ++ endedIds (popOrder.flatMap (w.emits ext tickAt popAt))).Nodup ∧
        ∀ t ∈ w.endedTasks, w.tasks.lookup t ≠ none) := by
  refine ⟨fun r h => sweep_alike htick htick' hpop hpop' h, fun p hp => ?_,
    sweep_ok_iff htick hpop⟩
  cases hrun : w.sweep ext tickOrder' popOrder' tickAt popAt with
  | error q => rw [sweep_error htick' hpop' hrun, sweep_error htick hpop hp]
  | ok r =>
      obtain ⟨r', hr', -⟩ := sweep_alike htick' htick hpop' hpop hrun
      rw [hp] at hr'
      cases hr'

end Worker

/-- A publisher and a viewer of its channel; the peers of both connect and leave at once. -/
def Script.parting : List (Op Script) :=
  [.request (arrival 1 "/whip/endpoint" [0x76] "abc"
      [.event .connected, .event (.iceConnectionStateChange .disconnected)]),
    .request (arrival 2 "/whep/endpoint" [0x76] "def"
      [.event .connected, .event (.iceConnectionStateChange .disconnected)])]

/-- The two join the same tracks and end in one sweep, whichever of them is met first. -/
theorem sweep_order_irrelevant_parting :
    let w := (Script.play Script.parting).1
    ∃ r r', w.sweep Script.engine [0, 1] [0, 1] 0 0 = .ok r ∧
      w.sweep Script.engine [1, 0] [1, 0] 0 0 = .ok r' ∧
      Worker.SameOutcome (w.emits Script.engine 0 0) [0, 1] [1, 0] r r' := by
  intro w
  have hseed : w.taskIdSeed = 2 := by decide +kernel
  have hkeys : (w.tasks.lookup 0).isSome ∧ (w.tasks.lookup 1).isSome := by decide +kernel
  have hmem : ∀ t, t = 0 ∨ t = 1 ↔ w.tasks.lookup t ≠ none := by
    intro t
    constructor
    · rintro (rfl | rfl)
      · exact Option.isSome_iff_ne_none.mp hkeys.1
      · exact Option.isSome_iff_ne_none.mp hkeys.2
    · intro ht
      obtain ⟨c, hc⟩ := Option.ne_none_iff_exists'.mp ht
      have hlt := (Script.play_reaches Script.parting).bounded.tasks t c hc
      change t < w.taskIdSeed at hlt
      omega
  have hup : w.Enumerates [0, 1] := ⟨by decide, fun t => by simpa using hmem t⟩
  have hdown : w.Enumerates [1, 0] := ⟨by decide, fun t => by simpa [or_comm] using hmem t⟩
  have hended : w.endedTasks ++ endedIds ([0, 1].flatMap (w.emits Script.engine 0 0)) = [0, 1] := by
    decide +kernel
  have hnone : w.endedTasks = [] := by decide +kernel
  obtain ⟨hsame, -, hok⟩ := Worker.sweep_order_irrelevant Script.engine 0 0
    hup hdown hup hdown
  obtain ⟨r, hr⟩ := hok.mpr ⟨by rw [hended]; decide, by simp [hnone]⟩
  obtain ⟨r', hr', hsame⟩ := hsame r hr
  exact ⟨r, r', hr, hr', hsame⟩

end MediaServer
