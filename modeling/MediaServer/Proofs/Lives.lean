/-
The life of a session.

Of everything a worker does, some actions are about a session: they open it, serve it or
remove it.  Those about one session are its life, and every life has the same shape.
It begins with the request that opened it; it ends, if it ends, with its removal; and in
between there is service only.  So nothing is done for a session before it is opened or
after it is removed, and the sessions in the map are those whose life has begun and not
ended.
-/
import MediaServer.Proofs.Ending
import MediaServer.Proofs.Relay

namespace MediaServer

open Lib

variable {Rtc : Type} {n : Nat} {ext : Extern Rtc} {admits : Worker Rtc → RtcConfig Rtc → Prop}

/-- The session an action is about. -/
def Action.about : Action → Option Nat
  | .created t _ | .bound _ t | .input t _ | .writeRtp t _ _ | .polled t _ | .broadcast t _
  | .ended t | .published t _ | .subscribed t _ | .removed t => some t
  | .read _ | .sendTo _ _ | .trySend _ | .send _ => none

/-- The actions that neither open nor remove a session. -/
def Action.isService : Action → Bool
  | .created _ _ | .removed _ => false
  | _ => true

/-- What was done about the session `t`. -/
def life (t : Nat) (actions : List Action) : List Action :=
  actions.filter fun a => a.about = some t

theorem life_append (t : Nat) (as bs : List Action) : life t (as ++ bs) = life t as ++ life t bs :=
  List.filter_append ..

theorem mem_life {t : Nat} {actions : List Action} {a : Action} :
    a ∈ life t actions ↔ a ∈ actions ∧ a.about = some t := by
  rw [life, List.mem_filter, decide_eq_true_eq]

theorem life_nil {t : Nat} {actions : List Action} (h : ∀ a ∈ actions, a.about ≠ some t) :
    life t actions = [] :=
  List.filter_eq_nil_iff.mpr fun a ha => by simpa using h a ha

/-- An action is part of one life only. -/
theorem life_concat_of_ne {t : Nat} {a : Action} (h : a.about ≠ some t) (actions : List Action) :
    life t (actions ++ [a]) = life t actions := by
  have hnone : life t [a] = [] := life_nil fun b hb => List.mem_singleton.mp hb ▸ h
  rw [life_append, hnone, List.append_nil]

/-! ### Service -/

/-- Actions that serve sessions the worker has, and do nothing else about any. -/
def Worker.Serves (w : Worker Rtc) (actions : List Action) : Prop :=
  ∀ a ∈ actions, a.isService = true ∧ ∀ t, a.about = some t → w.tasks.lookup t ≠ none

namespace Worker

variable {w w' : Worker Rtc} {actions : List Action}

theorem Quiet.lookup_none (h : Quiet w w') (t : Nat) :
    w'.tasks.lookup t = none ↔ w.tasks.lookup t = none := by
  constructor
  · intro hnone
    cases hc : w.tasks.lookup t with
    | none => rfl
    | some c =>
        obtain ⟨task, hc', -⟩ := h.lookup' hc
        rw [hnone] at hc'
        cases hc'
  · intro hnone
    cases hc : w'.tasks.lookup t with
    | none => rfl
    | some c =>
        obtain ⟨c₀, hc₀, -⟩ := h.lookup hc
        rw [hnone] at hc₀
        cases hc₀

/-- Handing an input to a session serves that session, if it is there. -/
theorem inputTask_serves {now : Instant} {event : WebrtcTaskInput} {taskId : Nat}
    (h : w.inputTask ext now event taskId = .ok (w', actions)) : w.Serves actions := by
  intro a ha
  rcases inputTask_ok h with ⟨-, -, rfl⟩ | ⟨c, b, task, hc, -, -, rfl⟩
  · cases ha
  · have hlive : ∀ t, some taskId = some t → w.tasks.lookup t ≠ none := by
      intro t ht hnone
      cases ht
      rw [hc] at hnone
      cases hnone
    rcases List.mem_cons.mp ha with rfl | ha
    · exact ⟨rfl, hlive⟩
    · obtain ⟨r, -, rfl⟩ := Option.map_eq_some_iff.mp (Option.mem_toList.mp ha)
      exact ⟨rfl, hlive⟩

theorem handleBusEvent_serves {ev : BusEvent} {now : Instant}
    (h : w.handleBusEvent ext ev now = .ok (w', actions)) : w.Serves actions := by
  obtain ⟨fed, hrun, rfl⟩ := handleBusEvent_ok h
  have hfed : Quiet w w' ∧ w.Serves fed := by
    refine forEach_preserves (P := fun os u => Quiet w u ∧ w.Serves os) ?_ hrun
      ⟨.refl w, by simp [Serves]⟩
    rintro taskId u v os bs hs ⟨hquiet, hserves⟩
    refine ⟨hquiet.trans (inputTask_feeds hs).1, fun a ha => ?_⟩
    rcases List.mem_append.mp ha with ha | ha
    · exact hserves a ha
    · obtain ⟨hservice, hlive⟩ := inputTask_serves hs a ha
      exact ⟨hservice, fun t ht => mt (hquiet.lookup_none t).mpr (hlive t ht)⟩
  intro a ha
  rcases List.mem_cons.mp ha with rfl | ha
  · exact ⟨rfl, by simp [Action.about]⟩
  · exact hfed.2 a ha

theorem popActions_serves {taskId : Nat} {c : TaskContainer Rtc}
    (hc : w.tasks.lookup taskId = some c) (answer : Option (Except ExternError Output))
    (out : Option WebrtcTaskOutput) : w.Serves (popActions taskId answer out) := by
  have hlive : ∀ t, some taskId = some t → w.tasks.lookup t ≠ none := by
    intro t ht hnone
    cases ht
    rw [hc] at hnone
    cases hnone
  intro a ha
  rcases mem_popActions.mp ha with ⟨x, -, rfl⟩ | ⟨o, -, rfl⟩
  · exact ⟨rfl, hlive⟩
  · cases o with
    | io action => cases action <;> exact ⟨rfl, by simp [performed, Action.about]⟩
    | _ => exact ⟨rfl, hlive⟩

end Worker

/-! ### Every life has the same shape -/

/-- Nobody has an id that was not given out. -/
theorem Bounded.lookup_none {w : Worker Rtc} (h : Bounded w) {t : Nat} (ht : w.taskIdSeed ≤ t) :
    w.tasks.lookup t = none := by
  cases hc : w.tasks.lookup t with
  | none => rfl
  | some c => exact absurd (h.tasks t c hc) (Nat.not_lt.mpr ht)

/-- Every session has not begun its life, or is in the midst of it, or has ended it. -/
structure Lived (actions : List Action) (w : Worker Rtc) : Prop where
  unborn : ∀ t, w.taskIdSeed ≤ t → life t actions = []
  live : ∀ t, w.tasks.lookup t ≠ none → ∃ req served,
    life t actions = .created t req :: served ∧ ∀ a ∈ served, a.isService = true
  gone : ∀ t, t < w.taskIdSeed → w.tasks.lookup t = none → ∃ req served,
    life t actions = .created t req :: (served ++ [.removed t]) ∧
      ∀ a ∈ served, a.isService = true
  named : ∀ ufrag t, w.taskUfrags.lookup ufrag = some t →
    ∃ c, w.tasks.lookup t = some c ∧ c.task.ufrag = ufrag

theorem lived_new (addr : SocketAddr) : Lived [] (Worker.new addr : Worker Rtc) := by
  refine ⟨fun _ _ => rfl, ?_, ?_, ?_⟩
  · simp [Worker.new]
  · simp [Worker.new]
  · simp [Worker.new]

namespace Lived

variable {actions bs : List Action} {w w' : Worker Rtc}

/-- Service is added to the lives that go on, and to no other. -/
theorem serve (h : Lived actions w) (hb : Bounded w) (hserves : w.Serves bs)
    (hseed : w'.taskIdSeed = w.taskIdSeed)
    (hlookup : ∀ t, w'.tasks.lookup t = none ↔ w.tasks.lookup t = none)
    (hnamed : ∀ ufrag t, w'.taskUfrags.lookup ufrag = some t →
      ∃ c, w'.tasks.lookup t = some c ∧ c.task.ufrag = ufrag) : Lived (actions ++ bs) w' := by
  have hnone : ∀ t, w.tasks.lookup t = none → life t bs = [] := by
    intro t ht
    exact life_nil fun a ha hat => (hserves a ha).2 t hat ht
  refine ⟨fun t ht => ?_, fun t ht => ?_, fun t ht hgone => ?_, hnamed⟩
  · rw [hseed] at ht
    rw [life_append, h.unborn t ht, hnone t (hb.lookup_none ht)]
    rfl
  · obtain ⟨req, served, hlife, hservice⟩ := h.live t (mt (hlookup t).mpr ht)
    refine ⟨req, served ++ life t bs, by rw [life_append, hlife]; rfl, fun a ha => ?_⟩
    rcases List.mem_append.mp ha with ha | ha
    · exact hservice a ha
    · exact (hserves a (mem_life.mp ha).1).1
  · have hold := (hlookup t).mp hgone
    obtain ⟨req, served, hlife, hservice⟩ := h.gone t (hseed ▸ ht) hold
    exact ⟨req, served, by rw [life_append, hlife, hnone t hold, List.append_nil], hservice⟩

/-- The same, where no session is touched but by a quiet change. -/
theorem quiet (h : Lived actions w) (hb : Bounded w) (hserves : w.Serves bs)
    (hquiet : Worker.Quiet w w') : Lived (actions ++ bs) w' := by
  refine h.serve hb hserves hquiet.taskIdSeed hquiet.lookup_none fun ufrag t hl => ?_
  obtain ⟨c, hc, hufrag⟩ := h.named ufrag t (hquiet.taskUfrags ▸ hl)
  obtain ⟨task, hc', hq⟩ := hquiet.lookup' hc
  exact ⟨_, hc', hq.ufrag.trans hufrag⟩

/-- A life begins. -/
theorem register (h : Lived actions w) (hb : Bounded w) (req : HttpRequest)
    (task : ComposeTask Rtc) :
    Lived (actions ++ [.created w.taskIdSeed req]) (w.register task) := by
  have hother : ∀ t, t ≠ w.taskIdSeed →
      life t (actions ++ [.created w.taskIdSeed req]) = life t actions := by
    intro t ht
    refine life_concat_of_ne ?_ actions
    rintro ⟨⟩
    exact ht rfl
  refine ⟨fun t ht => ?_, fun t ht => ?_, fun t ht hgone => ?_, fun ufrag t hl => ?_⟩
  · rw [hother t (Nat.ne_of_gt ht)]
    exact h.unborn t (Nat.le_of_succ_le ht)
  · rw [Worker.register_lookup] at ht
    by_cases hnew : t = w.taskIdSeed
    · subst hnew
      refine ⟨req, [], ?_, by simp⟩
      rw [life_append, h.unborn _ (Nat.le_refl _)]
      simp [life, Action.about]
    · rw [if_neg hnew] at ht
      rw [hother t hnew]
      exact h.live t ht
  · rw [Worker.register_lookup] at hgone
    by_cases hnew : t = w.taskIdSeed
    · rw [if_pos hnew] at hgone
      cases hgone
    · rw [if_neg hnew] at hgone
      rw [hother t hnew]
      exact h.gone t (Nat.lt_of_le_of_ne (Nat.le_of_lt_succ ht) hnew) hgone
  · replace hl : (w.taskUfrags.insert task.ufrag w.taskIdSeed).lookup ufrag = some t := hl
    rw [Table.lookup_insert_ite] at hl
    rw [Worker.register_lookup]
    by_cases hufrag : ufrag = task.ufrag
    · rw [if_pos hufrag] at hl
      cases hl
      exact ⟨_, if_pos rfl, hufrag.symm⟩
    · rw [if_neg hufrag] at hl
      obtain ⟨c, hc, hu⟩ := h.named ufrag t hl
      have hne : t ≠ w.taskIdSeed := Nat.ne_of_lt (hb.tasks t c hc)
      exact ⟨c, by rw [if_neg hne, hc], hu⟩

/-- A life ends. -/
theorem without (h : Lived actions w) (hb : Bounded w) {taskId : Nat} {c : TaskContainer Rtc}
    (hc : w.tasks.lookup taskId = some c) :
    Lived (actions ++ [.removed taskId]) (w.without taskId c) := by
  have hother : ∀ t, t ≠ taskId → life t (actions ++ [.removed taskId]) = life t actions := by
    intro t ht
    refine life_concat_of_ne ?_ actions
    rintro ⟨⟩
    exact ht rfl
  refine ⟨fun t ht => ?_, fun t ht => ?_, fun t ht hgone => ?_, fun ufrag t hl => ?_⟩
  · have hlt := hb.tasks taskId c hc
    replace ht : w.taskIdSeed ≤ t := ht
    rw [hother t (by omega)]
    exact h.unborn t ht
  · rw [Worker.without_lookup] at ht
    by_cases hnew : t = taskId
    · rw [if_pos hnew] at ht
      exact absurd rfl ht
    · rw [if_neg hnew] at ht
      rw [hother t hnew]
      exact h.live t ht
  · rw [Worker.without_lookup] at hgone
    by_cases hnew : t = taskId
    · subst hnew
      obtain ⟨req, served, hlife, hservice⟩ := h.live t (by simp [hc])
      refine ⟨req, served, ?_, hservice⟩
      rw [life_append, hlife]
      simp [life, Action.about]
    · rw [if_neg hnew] at hgone
      rw [hother t hnew]
      exact h.gone t ht hgone
  · rw [Worker.without_taskUfrags] at hl
    by_cases hufrag : ufrag = c.task.ufrag
    · rw [if_pos hufrag] at hl
      cases hl
    · rw [if_neg hufrag] at hl
      obtain ⟨c', hc', hu⟩ := h.named ufrag t hl
      rw [Worker.without_lookup]
      by_cases ht : t = taskId
      · -- Its ufrag would be that of the session removed.
        subst ht
        rw [hc] at hc'
        cases hc'
        exact absurd hu.symm hufrag
      · exact ⟨c', by rw [if_neg ht, hc'], hu⟩

theorem step (h : Lived actions w) (hb : Bounded w) (hs : Step ext admits w bs w') :
    Lived (actions ++ bs) w' := by
  cases hs with
  | busEvent ev now hrun =>
      exact h.quiet hb (Worker.handleBusEvent_serves hrun) (Worker.handleBusEvent_feeds hrun).1
  | notFound req =>
      refine h.quiet hb (fun a ha => ?_) (.refl w)
      cases List.mem_singleton.mp ha
      exact ⟨rfl, by simp [Action.about]⟩
  | create hopen hadmits => exact h.register hb _ _
  | tick order now hrun =>
      obtain ⟨hq, rfl⟩ := Worker.processTick_ok hrun
      exact h.quiet hb (by simp [Worker.Serves]) hq
  | bind hremote hufrag =>
      rename_i remote username taskId
      obtain ⟨c, hc, -⟩ := h.named username taskId hufrag
      refine h.serve hb (fun a ha => ?_) rfl (fun t => Worker.bind_lookup_none) ?_
      · cases List.mem_singleton.mp ha
        refine ⟨rfl, fun t ht hnone => ?_⟩
        cases ht
        rw [hc] at hnone
        cases hnone
      · intro ufrag t hl
        obtain ⟨c', hc', hu⟩ := h.named ufrag t hl
        rw [Worker.bind_lookup]
        by_cases ht : t = taskId
        · rw [if_pos ht, ← ht, hc']
          exact ⟨_, rfl, hu⟩
        · rw [if_neg ht]
          exact ⟨c', hc', hu⟩
  | input now src dst buf taskId hrun =>
      exact h.quiet hb (Worker.inputTask_serves hrun) (Worker.inputTask_feeds hrun).1
  | pop hl hpop =>
      rename_i taskId c now out task
      have hufrag := (ComposeTask.popAction_spec hpop).ufrag
      refine h.serve hb (Worker.popActions_serves hl _ _) rfl (fun t => ?_) ?_
      · rw [Worker.performOn_lookup]
        by_cases ht : t = taskId
        · rw [if_pos ht, ht, hl]
          simp
        · rw [if_neg ht]
      · intro ufrag t ht
        obtain ⟨c', hc', hu⟩ := h.named ufrag t ht
        rw [Worker.performOn_lookup]
        by_cases hid : t = taskId
        · rw [hid, hl] at hc'
          cases hc'
          exact ⟨_, if_pos hid, hufrag.trans hu⟩
        · exact ⟨c', by rw [if_neg hid, hc'], hu⟩
  | takeEnded =>
      exact h.serve hb (by simp [Worker.Serves]) rfl (fun _ => Iff.rfl) h.named
  | remove taskId hrun =>
      obtain ⟨c, hc, rfl, rfl⟩ := Worker.removeTask_ok.mp hrun
      exact h.without hb hc

end Lived

theorem Worker.Reaches.lived {addr : SocketAddr} {actions : List Action} {w : Worker Rtc}
    (h : Worker.Reaches ext admits addr actions w) : Lived actions w :=
  (Emits.preserves (P := fun os w => Bounded w ∧ Lived os w)
    (fun _ _ _ _ hI hs => ⟨hI.1.step hs, hI.2.step hI.1 hs⟩) h.steps
    ⟨bounded_new addr, lived_new addr⟩).2

/-! ### Only the clean-up removes -/

namespace Worker

variable {w w' : Worker Rtc} {actions : List Action}

/-- Serving a session does not remove any. -/
theorem Serves.not_removed (h : w.Serves actions) (t : Nat) : .removed t ∉ actions := by
  intro hmem
  cases (h _ hmem).1

theorem performed_removedId (taskId : Nat) (out : WebrtcTaskOutput) :
    Action.removedId (performed taskId out) = none := by
  cases out with
  | io action => cases action <;> rfl
  | _ => rfl

/-- Actions none of which is read as a removal are none. -/
theorem not_removed_of_filterMap (h : actions.filterMap Action.removedId = []) (t : Nat) :
    .removed t ∉ actions := fun hmem => by
  cases List.filterMap_eq_nil_iff.mp h _ hmem

theorem exec_not_removed {op : Op Rtc} (hop : op ≠ .popEnded)
    (h : w.exec ext op = .ok (w', actions)) (t : Nat) : .removed t ∉ actions := by
  cases op with
  | busEvent ev now => exact (handleBusEvent_serves h).not_removed t
  | request arrival =>
      obtain ⟨req, -, ⟨task, -, hadd⟩ | ⟨-, rfl⟩⟩ := handleRequest_ok h
      · cases hadd
        refine not_removed_of_filterMap ?_ t
        rw [List.filterMap_cons_none rfl]
        exact popTask_filterMap_nil (fun _ => rfl) (performed_removedId _) arrival.now _ _
      · simp
  | tick order now =>
      obtain ⟨-, rfl⟩ := processTick_ok h
      simp
  | pop taskId now =>
      exact not_removed_of_filterMap
        (popOne_filterMap_nil (fun _ => rfl) (performed_removedId _) h) t
  | popEnded => exact absurd rfl hop
  | datagram d =>
      obtain ⟨found, u, acts, hslot, hcase⟩ := handleDatagram_ok h
      have hacts : .removed t ∉ acts := by
        rcases slot_ok hslot with ⟨-, rfl⟩ | ⟨-, -, -, -, -, rfl⟩ <;> simp
      rcases hcase with ⟨-, rfl⟩ | ⟨taskId, v, fed, popped, hin, hpop, rfl⟩
      · exact hacts
      · have hpopped := not_removed_of_filterMap
          (popOne_filterMap_nil (fun _ => rfl) (performed_removedId _) hpop) t
        simp [hacts, (inputTask_serves hin).not_removed t, hpopped]

/-- Whoever is removed has been listed as ended before. -/
theorem Reaches.removed_ended {addr : SocketAddr} (h : Reaches ext admits addr actions w) (t : Nat)
    (hmem : .removed t ∈ actions) : 0 < (endedIds actions).count t := by
  induction h with
  | refl => cases hmem
  | tail hprev hturn ih =>
      have hreach : Reaches ext admits addr _ _ := hprev
      rw [endedIds_append, List.count_append]
      refine Nat.add_pos_left ?_ _
      rcases List.mem_append.mp hmem with hmem | hmem
      · exact ih hmem
      · obtain ⟨op, -, hexec⟩ := hturn
        by_cases hop : op = .popEnded
        · subst hop
          obtain ⟨rfl, -, -⟩ := removeTasks_removed hexec
          obtain ⟨e, he, heq⟩ := List.mem_map.mp hmem
          cases heq
          rw [← hreach.ending.count t (hreach.ending.live t he)]
          exact List.count_pos_iff.mpr he
        · exact absurd hmem (exec_not_removed hop hexec t)

end Worker

/-! ### Lives in a run -/

theorem Worker.Reaches.removed_disconnected {addr : SocketAddr} {actions : List Action}
    {w : Worker Rtc} (h : Worker.Reaches ext admits addr actions w) {t : Nat}
    (hmem : .removed t ∈ actions) :
    .polled t (.ok (.event (.iceConnectionStateChange .disconnected))) ∈ actions := by
  have hcount := h.removed_ended t hmem
  rw [h.endsListed.count, List.countP_pos_iff] at hcount
  obtain ⟨answer, hanswer, hdisconnected⟩ := hcount
  cases isDisconnected_iff.mp hdisconnected
  exact mem_answers.mp hanswer

/--
**Sessions live once.**  In every run of the server, what a worker has done about a
session id is nothing, if it has not given that id to a session yet and has none under it,
and else one life: it begins with the request that opened the session, nothing but service
follows, and it ends, if it has, with the removal of the session.  The sessions in the map
are those whose life goes on, each listed as ended as often as its engine has said that the
peer is gone.  A session that was removed was not there for nothing to be removed: its
engine had said so before.
-/
theorem sessions_live_once {localAddrs : Fin n → SocketAddr} {entries : List (Entry n)}
    {s : Server n Rtc} (h : Server.Reaches ext localAddrs entries s) (v : Fin n) (t : Nat) :
    ((s.slots v).worker.taskIdSeed ≤ t ∧ (s.slots v).worker.tasks.lookup t = none ∧
        life t (actionsOf v entries) = []) ∨
      t < (s.slots v).worker.taskIdSeed ∧ ∃ req served, (∀ a ∈ served, a.isService = true) ∧
        ((life t (actionsOf v entries) = .created t req :: served ∧
            (s.slots v).worker.tasks.lookup t ≠ none ∧
            (s.slots v).worker.endedTasks.count t
              = (answers t (actionsOf v entries)).countP isDisconnected) ∨
          (life t (actionsOf v entries) = .created t req :: (served ++ [.removed t]) ∧
            (s.slots v).worker.tasks.lookup t = none ∧
            .polled t (.ok (.event (.iceConnectionStateChange .disconnected))) ∈ served)) := by
  have hworker := h.journal.worker v
  have hlived := hworker.lived
  by_cases hseed : (s.slots v).worker.taskIdSeed ≤ t
  · exact .inl ⟨hseed, hworker.bounded.lookup_none hseed, hlived.unborn t hseed⟩
  · refine .inr ⟨Nat.lt_of_not_le hseed, ?_⟩
    by_cases hlive : (s.slots v).worker.tasks.lookup t = none
    · obtain ⟨req, served, hlife, hservice⟩ := hlived.gone t (Nat.lt_of_not_le hseed) hlive
      refine ⟨req, served, hservice, .inr ⟨hlife, hlive, ?_⟩⟩
      have hremoved : .removed t ∈ actionsOf v entries :=
        (mem_life (t := t).mp (by simp [hlife])).1
      have hpolled : .polled t (.ok (.event (.iceConnectionStateChange .disconnected)))
          ∈ life t (actionsOf v entries) :=
        mem_life.mpr ⟨hworker.removed_disconnected hremoved, rfl⟩
      simpa [hlife] using hpolled
    · obtain ⟨req, served, hlife, hservice⟩ := hlived.live t hlive
      refine ⟨req, served, hservice, .inl ⟨hlife, hlive, ?_⟩⟩
      rw [hworker.ending.count t hlive, hworker.endsListed.count]

open Script in
/-- A viewer that comes, connects and leaves, and the clean-up after it. -/
def Script.visiting (w : Fin n) : List (Label n Script) :=
  [.spawn w, .arrive (request 0 "/whep/endpoint" [0x76]), .insert, .nextPhase w,
    .turn w (.request (arrival 0 "/whep/endpoint" [0x76] "abc"
      [.event .connected, .event (.iceConnectionStateChange .disconnected)])),
    .reply w, .nextPhase w, .turn w (.tick [0] 0), .startPop w [0] 0, .turn w (.pop 0 0),
    .nextPhase w, .turn w .popEnded]

theorem Script.visiting_reaches :
    ∃ s, runLabels (Server.step Script.engine) (Server.new fun _ => Script.addr)
        (Script.visiting (0 : Fin 1)) = some s ∧
      (s.slots 0).worker.taskIdSeed = 1 ∧ (s.slots 0).worker.tasks.lookup 0 = none := by
  have hend : (runLabels (Server.step Script.engine) (Server.new fun _ => Script.addr)
      (Script.visiting (0 : Fin 1))).any (fun s => (s.slots 0).worker.taskIdSeed = 1 &&
        ((s.slots 0).worker.tasks.lookup 0).isNone) = true := by
    decide +kernel
  obtain ⟨s, hs, hboth⟩ := Option.any_eq_true _ _ |>.mp hend
  obtain ⟨hseed, hgone⟩ := Bool.and_eq_true_iff.mp hboth
  exact ⟨s, hs, of_decide_eq_true hseed, Option.isNone_iff_eq_none.mp hgone⟩

/-- The life of that viewer is over, and holds what its engine said of its peer. -/
theorem sessions_live_once_visiting :
    ∃ req served,
      life 0 (actionsOf 0 (Server.record Script.engine (Server.new fun _ => Script.addr)
        (Script.visiting (0 : Fin 1)))) = .created 0 req :: (served ++ [.removed 0]) ∧
      .polled 0 (.ok (.event (.iceConnectionStateChange .disconnected))) ∈ served := by
  obtain ⟨s, hs, hseed, hgone⟩ := Script.visiting_reaches
  rcases sessions_live_once (Server.reaches_of_run _ hs) 0 0 with
    ⟨hunborn, -⟩ | ⟨-, req, served, -, ⟨-, hlive, -⟩ | ⟨hlife, -, hpolled⟩⟩
  · rw [hseed] at hunborn
    omega
  · exact absurd hgone hlive
  · exact ⟨req, served, hlife, hpolled⟩

end MediaServer
