/-
What is left of a session once it is cleaned up.

`pop_ended_tasks` has to undo, for every session that ended, whatever was registered
for it while it lived.  `Listed` is the bookkeeping it relies on: a channel lists a
live session exactly as often as the session joined that channel's track, and lists
no session that is gone among its consumers.

It stops short of saying the last thing about sources, and cannot: the second cleanup
loop walks the tracks the session published but filters the consumers of each, as the
first loop does, so a publisher stays in the sources of its channels for good and the
channels stay in the table.  What does hold is that everything else is undone, so the
cleanup is complete exactly for sessions that never published.
-/
import MediaServer.Proofs.Registry
import MediaServer.Script

namespace MediaServer

open Lib

variable {Rtc : Type} {ext : Extern Rtc} {admits : Worker Rtc → RtcConfig Rtc → Prop}

/-! ### Channels list what sessions joined -/

/-- Channels against sessions: equal counts for the living, no consumer that is gone. -/
structure Listed (w : Worker Rtc) : Prop where
  live : ∀ (side : Side) t c, w.tasks.lookup t = some c → ∀ trackId,
    (side.ids w.busChannels trackId).count t = (side.tracks c).count trackId
  gone : ∀ t, w.tasks.lookup t = none → ∀ trackId, t ∉ Side.media.ids w.busChannels trackId
  noneEmpty : w.busChannels.NoneEmpty

theorem listed_new (addr : SocketAddr) : Listed (Worker.new addr : Worker Rtc) := by
  refine ⟨by simp [Worker.new], by simp [Worker.new, Side.ids, BusChannels.entry], ?_⟩
  intro trackId channel hl
  simp [Worker.new] at hl

namespace Listed

theorem mem_iff {w : Worker Rtc} (h : Listed w) (side : Side) {t : Nat} {c : TaskContainer Rtc}
    (hc : w.tasks.lookup t = some c) (trackId : UInt64) :
    t ∈ side.ids w.busChannels trackId ↔ trackId ∈ side.tracks c := by
  rw [← List.count_pos_iff, h.live side t c hc, List.count_pos_iff]

theorem quiet {w w' : Worker Rtc} (hq : Worker.Quiet w w') (h : Listed w) : Listed w' := by
  refine ⟨?_, ?_, by rw [hq.busChannels]; exact h.noneEmpty⟩
  · intro side t c' hc'
    obtain ⟨c, hc, heq, -⟩ := hq.lookup hc'
    rw [hq.busChannels, heq]
    intro trackId
    rw [h.live side t c hc]
    cases side <;> rfl
  · intro t ht
    rw [hq.busChannels]
    refine h.gone t ?_
    cases hc : w.tasks.lookup t with
    | none => rfl
    | some c =>
        obtain ⟨task, hc', -⟩ := hq.lookup' hc
        rw [ht] at hc'
        cases hc'

theorem register {w : Worker Rtc} (h : Listed w) (hb : Bounded w) (task : ComposeTask Rtc) :
    Listed (w.register task) := by
  refine ⟨?_, ?_, h.noneEmpty⟩
  · intro side t c hc trackId
    rw [Worker.register_lookup] at hc
    show (side.ids w.busChannels trackId).count t = _
    split at hc
    · -- The new id is in no list yet.
      rename_i ht
      cases hc
      rw [List.count_eq_zero_of_not_mem]
      · cases side <;> simp [Side.tracks, TaskContainer.ofTask]
      · intro hmem
        have := hb.ids side trackId t hmem
        omega
    · exact h.live side t c hc trackId
  · intro t ht
    rw [Worker.register_lookup] at ht
    split at ht
    · cases ht
    · exact h.gone t ht

theorem bind {w : Worker Rtc} (h : Listed w) (remote : SocketAddr) (taskId : Nat) :
    Listed (w.bind remote taskId) := by
  refine ⟨?_, ?_, h.noneEmpty⟩
  · intro side t c hc trackId
    obtain ⟨c₀, remotes, hc₀, rfl⟩ := Worker.bind_lookup_some hc
    refine (h.live side t c₀ hc₀ trackId).trans ?_
    cases side <;> rfl
  · exact fun t ht => h.gone t (Worker.bind_lookup_none.mp ht)

theorem performOn {w : Worker Rtc} (h : Listed w) {taskId : Nat} {container : TaskContainer Rtc}
    (hl : w.tasks.lookup taskId = some container) (out : Option WebrtcTaskOutput)
    (task : ComposeTask Rtc) : Listed (w.performOn taskId out { container with task }) := by
  refine ⟨?_, ?_, Worker.performOn_noneEmpty _ _ _ _ h.noneEmpty⟩
  · intro side t c hc trackId
    rw [Worker.performOn_lookup] at hc
    rw [Worker.performOn_ids, List.count_append]
    split at hc
    · rename_i ht
      subst ht
      cases hc
      have hold : (side.tracks { container with task }).count trackId
          = (side.ids w.busChannels trackId).count t := by
        rw [h.live side t container hl]
        cases side <;> rfl
      rw [Worker.tracks_joined, List.count_append, hold]
      cases out.bind side.joins with
      | none => simp
      | some joined => by_cases hj : joined = trackId <;> simp [hj]
    · rename_i ht
      rw [h.live side t c hc]
      split <;> simp [Ne.symm ht]
  · intro t ht trackId
    rw [Worker.performOn_lookup] at ht
    rw [Worker.performOn_ids]
    split at ht
    · cases ht
    · rename_i hne
      have hold := h.gone t ht trackId
      split <;> simp [hold, hne]

theorem without {w : Worker Rtc} (h : Listed w) {taskId : Nat} {container : TaskContainer Rtc}
    (hl : w.tasks.lookup taskId = some container) : Listed (w.without taskId container) := by
  refine ⟨?_, ?_, Worker.without_noneEmpty taskId container h.noneEmpty⟩
  · intro side t c hc trackId
    obtain ⟨hne, hold⟩ := Worker.without_lookup_some hc
    rw [Worker.count_without_ids hne, ← h.live side t c hold]
  · intro t ht trackId hmem
    by_cases hne : t = taskId
    · subst hne
      rw [Worker.without_ids] at hmem
      simp only at hmem
      split at hmem
      · simp at hmem
      · rename_i hnot
        rw [h.mem_iff .media hl] at hmem
        exact hnot (.inl hmem)
    · rw [Worker.without_lookup, if_neg hne] at ht
      exact h.gone t ht trackId (Worker.mem_without_ids hmem)

theorem step {w w' : Worker Rtc} {actions : List Action} (hb : Bounded w) (h : Listed w)
    (hs : Step ext admits w actions w') : Listed w' := by
  refine Step.post (P := Listed) ?_ ?_ ?_ ?_ ?_ ?_ hs
  · exact fun v hq => h.quiet hq
  · exact fun config req task _ _ => h.register hb task
  · exact fun remote username taskId _ _ => h.bind remote taskId
  · exact fun taskId container now out task hl _ => h.performOn hl out task
  · exact ⟨h.live, h.gone, h.noneEmpty⟩
  · exact fun taskId container hl => h.without hl

end Listed

theorem Worker.Reaches.listed {addr : SocketAddr} {actions : List Action} {w : Worker Rtc}
    (h : Worker.Reaches ext admits addr actions w) : Listed w :=
  (Emits.invariant (I := fun w => Bounded w ∧ Listed w)
    (fun _ _ _ hI hs => ⟨hI.1.step hs, hI.2.step hI.1 hs⟩) h.steps
    ⟨bounded_new addr, listed_new addr⟩).2

/-! ### Everything a worker keeps in step -/

structure Consistent (w : Worker Rtc) : Prop where
  bounded : Bounded w
  registered : Registered w
  listed : Listed w

theorem Worker.Reaches.consistent {addr : SocketAddr} {actions : List Action} {w : Worker Rtc}
    (h : Worker.Reaches ext FreshUfrag addr actions w) : Consistent w :=
  ⟨h.bounded, h.registered, h.listed⟩

theorem Consistent.step {w w' : Worker Rtc} {actions : List Action} (h : Consistent w)
    (hs : Step ext FreshUfrag w actions w') : Consistent w' :=
  ⟨h.bounded.step hs, h.registered.step h.bounded hs, h.listed.step h.bounded hs⟩

/-! ### The clean-up loop -/

/-- What the loop over the ended sessions `es` leaves of the tables `w`. -/
structure Removed (es : List Nat) (w w' : Worker Rtc) : Prop where
  tasks : ∀ t, w'.tasks.lookup t = if t ∈ es then none else w.tasks.lookup t
  others : ∀ t, t ∉ es → ∀ (side : Side) trackId,
    (side.ids w'.busChannels trackId).count t = (side.ids w.busChannels trackId).count t
  sources : ∀ trackId,
    Side.keyframe.ids w'.busChannels trackId = Side.keyframe.ids w.busChannels trackId

theorem removed_cons {e : Nat} {es : List Nat} {w w' : Worker Rtc} {c : TaskContainer Rtc}
    (h : Removed es (w.without e c) w') : Removed (e :: es) w w' := by
  refine ⟨?_, ?_, ?_⟩
  · intro t
    rw [h.tasks]
    simp only [Worker.without_lookup, List.mem_cons]
    by_cases ht : t = e <;> by_cases hes : t ∈ es <;> simp [ht, hes]
  · intro t ht side trackId
    simp only [List.mem_cons, not_or] at ht
    rw [h.others t ht.2, Worker.count_without_ids ht.1]
  · intro trackId
    rw [h.sources, Worker.without_ids]

theorem removeTasks_ok (ext : Extern Rtc) :
    ∀ (es : List Nat) (w : Worker Rtc), Consistent w → es.Nodup →
      (∀ e ∈ es, w.tasks.lookup e ≠ none) →
      ∃ w', forEach Worker.removeTask es w = .ok (w', es.map .removed) ∧
        Consistent w' ∧ Removed es w w' := by
  intro es
  induction es with
  | nil => intro w hw _ _; exact ⟨w, rfl, hw, by simp, by simp, by simp⟩
  | cons e rest ih =>
      intro w hw hnodup hlive
      obtain ⟨hnot, hrest⟩ := List.nodup_cons.mp hnodup
      obtain ⟨c, hc⟩ := Option.ne_none_iff_exists'.mp (hlive e (by simp))
      have hturn := Worker.removeTask_ok.mpr ⟨c, hc, rfl, rfl⟩
      have hkeep : ∀ t ∈ rest, (w.without e c).tasks.lookup t ≠ none := by
        intro t ht
        have hne : t ≠ e := fun heq => hnot (heq ▸ ht)
        rw [Worker.without_lookup, if_neg hne]
        exact hlive t (by simp [ht])
      have hstep : Step ext FreshUfrag w _ (w.without e c) := .remove e hturn
      obtain ⟨w', hrun, hw', hrem⟩ :=
        ih (w.without e c) (hw.step hstep) hrest hkeep
      exact ⟨w', forEach_cons_ok.mpr ⟨_, _, _, hturn, hrun, rfl⟩, hw', removed_cons hrem⟩

/-! ### What a complete teardown is -/

/--
A complete clean-up with frame: the ended sessions occur nowhere, no channel lists
nobody, and every entry of every other session is what it was.
-/
structure TornDown (w w' : Worker Rtc) : Prop where
  tasks : ∀ e ∈ w.endedTasks, w'.tasks.lookup e = none
  remotes : ∀ e ∈ w.endedTasks, ∀ r, w'.taskRemotes.lookup r ≠ some e
  ufrags : ∀ e ∈ w.endedTasks, ∀ u, w'.taskUfrags.lookup u ≠ some e
  channels : ∀ e ∈ w.endedTasks, ∀ (side : Side) trackId, e ∉ side.ids w'.busChannels trackId
  noneEmpty : w'.busChannels.NoneEmpty
  otherTasks : ∀ t, t ∉ w.endedTasks → w'.tasks.lookup t = w.tasks.lookup t
  otherRemotes : ∀ t, t ∉ w.endedTasks → ∀ r,
    w'.taskRemotes.lookup r = some t ↔ w.taskRemotes.lookup r = some t
  otherUfrags : ∀ t, t ∉ w.endedTasks → ∀ u,
    w'.taskUfrags.lookup u = some t ↔ w.taskUfrags.lookup u = some t
  otherChannels : ∀ t, t ∉ w.endedTasks → ∀ (side : Side) trackId,
    (side.ids w'.busChannels trackId).count t = (side.ids w.busChannels trackId).count t

/-- Everything but the sources is torn down whatever the sessions did. -/
theorem tornDown_of_removed {w w' : Worker Rtc} (hw : Consistent w) (hw' : Consistent w')
    (h : Removed w.endedTasks w w')
    (hsources : ∀ e ∈ w.endedTasks, ∀ trackId, e ∉ Side.keyframe.ids w.busChannels trackId) :
    TornDown w w' := by
  have hnone : ∀ e ∈ w.endedTasks, w'.tasks.lookup e = none := by
    intro e he
    rw [h.tasks, if_pos he]
  have hsame : ∀ t, t ∉ w.endedTasks → w'.tasks.lookup t = w.tasks.lookup t := by
    intro t ht
    rw [h.tasks, if_neg ht]
  refine ⟨hnone, ?_, ?_, ?_, hw'.listed.noneEmpty, hsame, ?_, ?_, h.others⟩
  · intro e he r hr
    obtain ⟨c, hc, -⟩ := (hw'.registered.remotes r e).mp hr
    rw [hnone e he] at hc
    cases hc
  · intro e he u hu
    obtain ⟨c, hc, -⟩ := (hw'.registered.ufrags u e).mp hu
    rw [hnone e he] at hc
    cases hc
  · intro e he side trackId
    cases side with
    | media => exact hw'.listed.gone e (hnone e he) trackId
    | keyframe =>
        rw [h.sources]
        exact hsources e he trackId
  · intro t ht r
    rw [hw'.registered.remotes, hw.registered.remotes, hsame t ht]
  · intro t ht u
    rw [hw'.registered.ufrags, hw.registered.ufrags, hsame t ht]

/-! ### A source, once published, is there for good -/

theorem Step.sources {w w' : Worker Rtc} {actions : List Action}
    (hs : Step ext admits w actions w') (t : Nat) (trackId : UInt64) :
    t ∈ Side.keyframe.ids w'.busChannels trackId ↔
      t ∈ Side.keyframe.ids w.busChannels trackId ∨ .published t trackId ∈ actions := by
  refine Step.rule (P := fun actions w' => t ∈ Side.keyframe.ids w'.busChannels trackId ↔
    t ∈ Side.keyframe.ids w.busChannels trackId ∨ .published t trackId ∈ actions)
    ?_ ?_ ?_ ?_ ?_ ?_ ?_ hs
  · intro actions w' hf
    rw [hf.1.busChannels]
    have hnot : .published t trackId ∉ actions := fun hmem => by
      simpa [Action.isFeed] using hf.2 _ hmem
    simp [hnot]
  · intro req
    simp
  · intro config req task _ _
    simp [Worker.register]
  · intro remote username taskId _ _
    simp [Worker.bind]
  · intro taskId container now out task _ _
    rw [Worker.performOn_ids, List.mem_append]
    refine or_congr_right ?_
    cases out with
    | none => cases container.task.polled ext now <;> simp [popActions]
    | some action =>
        have hanswer : ∀ o : Option (Except ExternError Output),
            Action.published t trackId ∈ (o.map (Action.polled taskId)).toList ↔ False := by
          intro o
          cases o <;> simp
        cases action with
        | publishTrack id =>
            simp only [popActions, List.mem_append, hanswer, performed, Side.joins, Option.bind_some,
              Option.map_some, Option.toList_some, List.mem_singleton, Option.some.injEq,
              Action.published.injEq, false_or]
            by_cases hid : id = trackId
            · simp [hid]
            · simp [hid, Ne.symm hid]
        | io a => cases a <;> simp [popActions, hanswer, performed, Side.joins]
        | _ => simp [popActions, hanswer, performed, Side.joins]
  · simp
  · intro taskId container _
    rw [Worker.without_ids]
    simp

theorem Worker.Reaches.sources {addr : SocketAddr} {actions : List Action} {w : Worker Rtc}
    (h : Worker.Reaches ext admits addr actions w) (t : Nat) (trackId : UInt64) :
    t ∈ Side.keyframe.ids w.busChannels trackId ↔ .published t trackId ∈ actions := by
  refine Emits.preserves (P := fun os w => t ∈ Side.keyframe.ids w.busChannels trackId ↔
    .published t trackId ∈ os) ?_ h.steps ?_
  · intro os s bs u hP hs
    rw [hs.sources, hP, List.mem_append]
  · simp [Worker.new, Side.ids, BusChannels.entry]

/-- With no session left, a channel is in the table exactly because somebody published. -/
theorem busChannels_empty_iff {addr : SocketAddr} {actions : List Action} {w : Worker Rtc}
    (h : Worker.Reaches ext admits addr actions w) (hempty : w.tasks = ∅) :
    w.busChannels = ∅ ↔ ∀ t trackId, .published t trackId ∉ actions := by
  have hlookup : ∀ t, w.tasks.lookup t = none := (Table.eq_empty_iff w.tasks).mp hempty
  constructor
  · intro hb t trackId hmem
    have := (h.sources t trackId).mpr hmem
    simp [hb, Side.ids, BusChannels.entry] at this
  · intro hnone
    refine (Table.eq_empty_iff w.busChannels).mpr fun trackId => ?_
    cases hl : w.busChannels.lookup trackId with
    | none => rfl
    | some channel =>
        -- An entry lists somebody; a consumer would be live, a source has published.
        have hentry : BusChannels.entry w.busChannels trackId = channel := by
          simp [BusChannels.entry, hl]
        rcases h.listed.noneEmpty trackId channel hl with hs | hc
        · obtain ⟨t, ht⟩ := List.exists_mem_of_ne_nil _ hs
          refine absurd ((h.sources t trackId).mp ?_) (hnone t trackId)
          simpa [Side.ids, hentry] using ht
        · obtain ⟨t, ht⟩ := List.exists_mem_of_ne_nil _ hc
          refine absurd ?_ (h.listed.gone t (hlookup t) trackId)
          simpa [Side.ids, hentry] using ht

/-- The clean-up succeeds and is complete exactly if no session that ended had published. -/
theorem tornDown_iff (ext : Extern Rtc) {w : Worker Rtc} (hw : Consistent w)
    (hnodup : w.endedTasks.Nodup) (hlive : ∀ e ∈ w.endedTasks, w.tasks.lookup e ≠ none) :
    (∃ w' actions', w.popEndedTasks = .ok (w', actions') ∧ TornDown w w') ↔
      ∀ e ∈ w.endedTasks, ∀ c, w.tasks.lookup e = some c → c.pubChannels = [] := by
  have htake : Step ext FreshUfrag w [] { w with endedTasks := [] } := .takeEnded w
  have htaken := hw.step htake
  obtain ⟨w', hrun, hw', hrem⟩ := removeTasks_ok ext w.endedTasks _ htaken hnodup hlive
  -- The sources of a channel hold an ended session exactly if it published there.
  have hmem : ∀ e ∈ w.endedTasks, ∀ c, w.tasks.lookup e = some c → ∀ trackId,
      e ∈ Side.keyframe.ids w.busChannels trackId ↔ trackId ∈ c.pubChannels :=
    fun e _ c hc trackId => hw.listed.mem_iff .keyframe hc trackId
  constructor
  · rintro ⟨v, acts, hv, htorn⟩ e he c hc
    have heq : v = w' := by
      have := hv.symm.trans hrun
      simp only [Except.ok.injEq, Prod.mk.injEq] at this
      exact this.1
    subst heq
    by_contra hne
    obtain ⟨trackId, ht⟩ := List.exists_mem_of_ne_nil _ hne
    refine htorn.channels e he .keyframe trackId ?_
    rw [hrem.sources]
    exact (hmem e he c hc trackId).mpr ht
  · intro hpub
    refine ⟨w', _, hrun, tornDown_of_removed hw hw' ⟨hrem.tasks, hrem.others, hrem.sources⟩ ?_⟩
    intro e he trackId ht
    obtain ⟨c, hc⟩ := Option.ne_none_iff_exists'.mp (hlive e he)
    rw [hmem e he c hc, hpub e he c hc] at ht
    cases ht

/--
**The clean-up is complete exactly for sessions that never published.**  For every
reachable worker and every list of distinct live ids that ended, `pop_ended_tasks`
succeeds and tears all of them down, with every other session untouched, if and only
if none of them has a track in `pub_channels`; and over a whole run the channel table
of a worker without sessions is empty if and only if no session ever published.
-/
theorem teardown_complete_iff {addr : SocketAddr} {actions : List Action} {w : Worker Rtc}
    (h : Worker.Reaches ext FreshUfrag addr actions w) (hnodup : w.endedTasks.Nodup)
    (hlive : ∀ e ∈ w.endedTasks, w.tasks.lookup e ≠ none) :
    ((∃ w' actions', w.popEndedTasks = .ok (w', actions') ∧ TornDown w w') ↔
      ∀ e ∈ w.endedTasks, ∀ c, w.tasks.lookup e = some c → c.pubChannels = []) ∧
    (w.tasks = ∅ → (w.busChannels = ∅ ↔ ∀ t trackId, .published t trackId ∉ actions)) :=
  ⟨tornDown_iff ext h.consistent hnodup hlive, busChannels_empty_iff h⟩

/-- A session that connects and then loses its peer, opened at `path`. -/
def Script.leaving (path : String) : List (Op Script) :=
  [.request (arrival 1 path [0x76] "abc"
      [.event .connected, .event (.iceConnectionStateChange .disconnected)]),
    .pop 0 0]

/-- A viewer that connected and left: the one ended session never published. -/
theorem teardown_complete_viewer :
    let w := (Script.play (Script.leaving "/whep/endpoint")).1
    ∃ w' actions', w.popEndedTasks = .ok (w', actions') ∧ TornDown w w' := by
  have hended : (Script.play (Script.leaving "/whep/endpoint")).1.endedTasks = [0] := by
    decide +kernel
  have hpub : ((Script.play (Script.leaving "/whep/endpoint")).1.tasks.lookup 0).map
      (·.pubChannels) = some [] := by decide +kernel
  refine (teardown_complete_iff (Script.play_reaches _) ?_ ?_).1.mpr ?_
  · rw [hended]
    decide
  · rw [hended]
    simp only [List.mem_singleton, forall_eq, ← Option.isSome_iff_ne_none]
    decide +kernel
  · intro e he c hc
    rw [hended, List.mem_singleton] at he
    subst he
    rw [hc] at hpub
    exact Option.some.inj hpub

/--
A publisher that connected and left: after the clean-up there is no session, and the
channel of its audio track still lists it.
-/
theorem teardown_incomplete_publisher :
    let w := (Script.play (Script.leaving "/whip/endpoint")).1
    let w' := (Script.play (Script.leaving "/whip/endpoint" ++ [.popEnded])).1
    w.endedTasks = [0] ∧ w.tasks.lookup 0 ≠ none ∧
      w'.tasks.lookup 0 = none ∧ (BusChannels.entry w'.busChannels 8).sources = [0] ∧
      ¬ ∃ w' actions', w.popEndedTasks = .ok (w', actions') ∧ TornDown w w' := by
  have hended : (Script.play (Script.leaving "/whip/endpoint")).1.endedTasks = [0] := by
    decide +kernel
  have hpub : ((Script.play (Script.leaving "/whip/endpoint")).1.tasks.lookup 0).map
      (·.pubChannels) = some [8, 9] := by decide +kernel
  obtain ⟨c, hc, hcpub⟩ := Option.map_eq_some_iff.mp hpub
  refine ⟨hended, by simp [hc], ?_, by decide +kernel, ?_⟩
  · rw [← Option.isNone_iff_eq_none]
    decide +kernel
  · rw [tornDown_iff Script.engine (Script.play_reaches _).consistent]
    · intro hall
      have := hall 0 (by simp [hended]) c hc
      rw [hcpub] at this
      cases this
    · rw [hended]
      decide
    · rw [hended]
      simp [hc]

end MediaServer
