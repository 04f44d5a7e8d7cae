/-
How often a session is listed as ended.

A session is put on the list of ended sessions each time its engine reports that its
peer is gone, and the list is only looked at once a cycle.  The clean-up takes each id
on it for the key of a session, which it is the first time and not the second.  So the
clean-up succeeds exactly if no id is listed twice, and how often an id is listed is
how often its engine has said `Disconnected` since the session was opened: a session
that is listed does not outlive the clean-up.
-/
import MediaServer.Proofs.Draining

namespace MediaServer

open Lib

variable {Rtc : Type} {ext : Extern Rtc} {admits : Worker Rtc → RtcConfig Rtc → Prop}

/-! ### From the engine to the list -/

/-- The answer that ends a session. -/
def isDisconnected : Except ExternError Output → Bool
  | .ok (.event (.iceConnectionStateChange .disconnected)) => true
  | _ => false

/-- The id an action puts on the list of ended sessions. -/
def Action.endedId : Action → Option Nat
  | .ended taskId => some taskId
  | _ => none

/-- The ids these actions put on the list, in order. -/
def endedIds (actions : List Action) : List Nat :=
  actions.filterMap Action.endedId

theorem endedIds_append (as bs : List Action) : endedIds (as ++ bs) = endedIds as ++ endedIds bs :=
  List.filterMap_append

theorem endedIds_popActions (taskId : Nat) (answer : Option (Except ExternError Output))
    (out : Option WebrtcTaskOutput) :
    endedIds (popActions taskId answer out) = if out = some .taskEnded then [taskId] else [] := by
  rw [endedIds, filterMap_popActions]
  cases answer <;> cases out with
  | none => rfl
  | some o =>
      cases o with
      | io action => cases action <;> rfl
      | _ => rfl

theorem Worker.Feeds.endedIds {w w' : Worker Rtc} {actions : List Action}
    (h : Feeds w actions w') : endedIds actions = [] :=
  h.filterMap_nil fun a ha => by cases a <;> simp [Action.isFeed] at ha <;> rfl

/-- `TaskEnded` is what `Disconnected` stands for, and nothing else is. -/
theorem Role.ended_mem_translate {role : Role} {answer : Except ExternError Output} :
    .taskEnded ∈ role.translate ext answer ↔ isDisconnected answer = true := by
  cases answer with
  | error e => cases role <;> simp [translate, isDisconnected]
  | ok o =>
      cases o with
      | timeout t => cases role <;> simp [translate, isDisconnected]
      | transmit send => cases role <;> simp [translate, isDisconnected]
      | event e =>
          cases e with
          | iceConnectionStateChange state =>
              cases role <;> cases state <;>
                simp [translate, translateEvent, isDisconnected]
          | _ => cases role <;> simp [translate, translateEvent, isDisconnected]

theorem isDisconnected_iff {answer : Except ExternError Output} :
    isDisconnected answer = true ↔
      answer = .ok (.event (.iceConnectionStateChange .disconnected)) := by
  constructor
  · intro h
    unfold isDisconnected at h
    split at h
    · rfl
    · cases h
  · rintro rfl
    rfl

theorem Role.returns_of_disconnected {role : Role} {answer : Except ExternError Output}
    (h : isDisconnected answer = true) : role.returns answer = true := by
  rw [isDisconnected_iff.mp h]
  cases role <;> rfl

theorem Role.translate_disconnected {role : Role} {answer : Except ExternError Output}
    (h : isDisconnected answer = true) : role.translate ext answer = [.taskEnded] := by
  rw [isDisconnected_iff.mp h]
  cases role <;> rfl

/-- The action for `Disconnected` is never owed: it is returned in the call that polls it. -/
theorem ComposeTask.popAction_ended {now : Instant} {task task' : ComposeTask Rtc}
    {out : Option WebrtcTaskOutput} (h : task.popAction ext now = (out, task'))
    (howed : .taskEnded ∉ task.core.outputs) :
    .taskEnded ∉ task'.core.outputs ∧
      (out = some .taskEnded ↔
        ∃ answer, task.polled ext now = some answer ∧ isDisconnected answer = true) := by
  have hconserves := (popAction_spec h).core.conserves
  rcases popAction_cases h with ⟨o, rest, ho, rfl, hcore⟩ | ⟨ho, hw, rfl, hcore⟩ |
    ⟨ho, hw, hasks⟩
  · rw [ho] at howed
    rw [hcore]
    simp only [List.mem_cons, not_or] at howed
    refine ⟨howed.2, ?_⟩
    rw [polled, TaskCore.polled, if_neg (by simp [ho])]
    constructor
    · intro heq
      exact absurd (Option.some.inj heq).symm howed.1
    · rintro ⟨answer, hnone, -⟩
      cases hnone
  · rw [hcore]
    refine ⟨howed, ?_⟩
    rw [polled, TaskCore.polled, if_neg (by simp [hw])]
    simp
  · have hpolled : task.core.polled ext now = some (ext.pollOutput task.core.rtc).1 :=
      if_pos ⟨ho, hw⟩
    rw [polled, hpolled]
    rw [ho, hpolled, List.nil_append, Option.elim_some] at hconserves
    simp only [Option.some.injEq, exists_eq_left']
    by_cases hdisc : isDisconnected (ext.pollOutput task.core.rtc).1 = true
    · obtain ⟨hout, hrest⟩ := popAction_returned h hpolled (Role.returns_of_disconnected hdisc)
      rw [Role.translate_disconnected hdisc] at hout
      cases out with
      | none => cases hout
      | some o =>
          obtain rfl := List.singleton_inj.mp hout
          simp [hrest, hdisc]
    · have hnot : .taskEnded ∉ task.role.translate ext (ext.pollOutput task.core.rtc).1 :=
        fun hmem => hdisc (Role.ended_mem_translate.mp hmem)
      rw [← hconserves, List.mem_append, not_or] at hnot
      refine ⟨hnot.2, ?_⟩
      simp only [hdisc, Bool.false_eq_true, iff_false]
      rintro rfl
      exact hnot.1 (by simp)

/--
What a worker's actions say about endings: no session owes `TaskEnded`, and each has
been listed as often as its engine has said `Disconnected`.
-/
structure EndsListed (actions : List Action) (w : Worker Rtc) : Prop where
  owed : ∀ t c, w.tasks.lookup t = some c → .taskEnded ∉ c.task.core.outputs
  count : ∀ t, (endedIds actions).count t = (answers t actions).countP isDisconnected

theorem endsListed_new (addr : SocketAddr) : EndsListed [] (Worker.new addr : Worker Rtc) :=
  ⟨by simp [Worker.new], fun _ => rfl⟩

/-- Actions that neither answer nor end leave the two counts alone. -/
theorem EndsListed.count_append {actions bs : List Action} {w : Worker Rtc}
    (h : EndsListed actions w) (hended : endedIds bs = []) (hanswers : ∀ t, answers t bs = [])
    (t : Nat) :
    (endedIds (actions ++ bs)).count t = (answers t (actions ++ bs)).countP isDisconnected := by
  rw [endedIds_append, hended, answers_append, hanswers, List.append_nil, List.append_nil]
  exact h.count t

/-- A session that is polled ends with the answer that says so. -/
theorem EndsListed.pop {actions : List Action} {w : Worker Rtc} (h : EndsListed actions w)
    {taskId : Nat} {c : TaskContainer Rtc} {now : Instant} {out : Option WebrtcTaskOutput}
    {task : ComposeTask Rtc} (hl : w.tasks.lookup taskId = some c)
    (hpop : c.task.popAction ext now = (out, task)) :
    EndsListed (actions ++ popActions taskId (c.task.polled ext now) out)
      (w.performOn taskId out { c with task }) := by
  obtain ⟨howed, hout⟩ := ComposeTask.popAction_ended hpop (h.owed taskId c hl)
  refine ⟨?_, ?_⟩
  · intro t c' hc'
    rw [Worker.performOn_lookup] at hc'
    split at hc'
    · cases hc'
      exact howed
    · exact h.owed t c' hc'
  · intro t
    rw [endedIds_append, answers_append, List.count_append, List.countP_append, h.count t,
      endedIds_popActions, answers_popActions]
    congr 1
    by_cases ht : t = taskId
    · subst ht
      cases hp : c.task.polled ext now with
      | none =>
          rw [hp] at hout
          simp [hout]
      | some answer =>
          rw [hp] at hout
          by_cases hdisc : isDisconnected answer = true
          · simp [hout, hdisc]
          · simp [hout, hdisc]
    · have hne : taskId ≠ t := Ne.symm ht
      by_cases hended : out = some .taskEnded
      · simp [hended, ht, hne]
      · simp [hended, ht]

theorem EndsListed.step {actions bs : List Action} {w w' : Worker Rtc}
    (h : EndsListed actions w) (hs : Step ext admits w bs w') :
    EndsListed (actions ++ bs) w' := by
  refine Step.call_rule (P := fun bs w' => EndsListed (actions ++ bs) w') ?_ ?_ ?_ ?_ ?_ ?_ ?_ hs
  · intro bs v hf
    refine ⟨?_, h.count_append hf.endedIds hf.answers⟩
    intro t c hc
    obtain ⟨c₀, hc₀, -, hq⟩ := hf.1.lookup hc
    rw [hq.core.outputs]
    exact h.owed t c₀ hc₀
  · exact fun req => ⟨h.owed, h.count_append rfl fun _ => rfl⟩
  · intro config req task hopen _
    refine ⟨?_, h.count_append rfl fun _ => rfl⟩
    intro t c hc
    rw [Worker.register_lookup] at hc
    split at hc
    · cases hc
      obtain ⟨res, hres, -⟩ := hopen.outputs
      simp [TaskContainer.ofTask, hres]
    · exact h.owed t c hc
  · intro remote username taskId _ _
    refine ⟨?_, h.count_append rfl fun _ => rfl⟩
    intro t c hc
    obtain ⟨c₀, remotes, hc₀, rfl⟩ := Worker.bind_lookup_some hc
    exact h.owed t c₀ hc₀
  · exact fun taskId c now out task hl hpop => h.pop hl hpop
  · rw [List.append_nil]
    exact ⟨h.owed, h.count⟩
  · intro taskId c _
    refine ⟨?_, h.count_append rfl fun _ => rfl⟩
    intro t c' hc'
    exact h.owed t c' (Worker.without_lookup_some hc').2

theorem Worker.Reaches.endsListed {addr : SocketAddr} {actions : List Action} {w : Worker Rtc}
    (h : Worker.Reaches ext admits addr actions w) : EndsListed actions w :=
  Emits.preserves (P := EndsListed) (fun _ _ _ _ hI hs => hI.step hs) h.steps (endsListed_new addr)

/-! ### From one clean-up to the next -/

namespace Worker

/-- What every turn but the clean-up does to the list: it only grows, by live sessions. -/
structure Kept (w : Worker Rtc) (bs : List Action) (w' : Worker Rtc) : Prop where
  endedTasks : w'.endedTasks = w.endedTasks ++ endedIds bs
  ended : ∀ t ∈ endedIds bs, w'.tasks.lookup t ≠ none
  live : ∀ t, w.tasks.lookup t ≠ none → w'.tasks.lookup t ≠ none
  born : ∀ t, w'.tasks.lookup t ≠ none → w.tasks.lookup t ≠ none ∨ w.taskIdSeed ≤ t
  seed : w.taskIdSeed ≤ w'.taskIdSeed

theorem Kept.trans {u v w : Worker Rtc} {as bs : List Action} (h₁ : Kept u as v)
    (h₂ : Kept v bs w) : Kept u (as ++ bs) w := by
  refine ⟨?_, ?_, fun t ht => h₂.live t (h₁.live t ht), ?_, h₁.seed.trans h₂.seed⟩
  · rw [h₂.endedTasks, h₁.endedTasks, endedIds_append, List.append_assoc]
  · intro t ht
    rw [endedIds_append] at ht
    rcases List.mem_append.mp ht with ht | ht
    · exact h₂.live t (h₁.ended t ht)
    · exact h₂.ended t ht
  · intro t ht
    rcases h₂.born t ht with ht | ht
    · exact h₁.born t ht
    · exact .inr (h₁.seed.trans ht)

theorem Feeds.kept {w w' : Worker Rtc} {bs : List Action} (h : Feeds w bs w') : Kept w bs w' := by
  refine ⟨?_, ?_, ?_, ?_, h.1.taskIdSeed.ge⟩
  · rw [h.1.endedTasks, h.endedIds, List.append_nil]
  · rw [h.endedIds]
    simp
  · intro t ht
    obtain ⟨c, hc⟩ := Option.ne_none_iff_exists'.mp ht
    obtain ⟨task, hc', -⟩ := h.1.lookup' hc
    simp [hc']
  · intro t ht
    obtain ⟨c', hc'⟩ := Option.ne_none_iff_exists'.mp ht
    obtain ⟨c, hc, -⟩ := h.1.lookup hc'
    exact .inl (by simp [hc])

/-- Polling a session lists it, and no other, once for each `TaskEnded` it returns. -/
theorem popTask_endedTasks (ext : Extern Rtc) (now : Instant) (taskId : Nat)
    (c : TaskContainer Rtc) (w : Worker Rtc) :
    (w.popTask ext now taskId c).1.endedTasks
        = w.endedTasks ++ endedIds (w.popTask ext now taskId c).2 ∧
      ∀ t ∈ endedIds (w.popTask ext now taskId c).2, t = taskId := by
  -- A new session is not in the map yet, but polling does not look there.
  rw [← popTask_insert now taskId c c w]
  refine popTask_turns (P := fun actions v => v.endedTasks = w.endedTasks ++ endedIds actions ∧
    ∀ t ∈ endedIds actions, t = taskId) ?_ (Finmap.lookup_insert _)
    ⟨(List.append_nil _).symm, by simp [MediaServer.endedIds]⟩
  rintro actions v c out task _ _ ⟨hended, hids⟩
  rw [performOn_endedTasks, hended, endedIds_append, endedIds_popActions, List.append_assoc]
  refine ⟨rfl, fun t ht => ?_⟩
  rcases List.mem_append.mp ht with ht | ht
  · exact hids t ht
  · split at ht
    · exact List.mem_singleton.mp ht
    · cases ht

theorem popTask_kept {now : Instant} {taskId : Nat} {c : TaskContainer Rtc} {w : Worker Rtc}
    (hborn : w.tasks.lookup taskId ≠ none ∨ w.taskIdSeed ≤ taskId) :
    Kept w (w.popTask ext now taskId c).2 (w.popTask ext now taskId c).1 := by
  obtain ⟨hended, hids⟩ := popTask_endedTasks ext now taskId c w
  have hlookup : ∀ t, (w.popTask ext now taskId c).1.tasks.lookup t ≠ none ↔
      t = taskId ∨ w.tasks.lookup t ≠ none := by
    intro t
    rw [popTask, Table.lookup_insert_ite]
    split <;> simp_all
  refine ⟨hended, ?_, ?_, ?_, Nat.le_refl _⟩
  · intro t ht
    exact (hlookup t).mpr (.inl (hids t ht))
  · intro t ht
    exact (hlookup t).mpr (.inr ht)
  · intro t ht
    rcases (hlookup t).mp ht with rfl | ht
    · exact hborn
    · exact .inl ht

theorem popOne_kept {now : Instant} {taskId : Nat} {w w' : Worker Rtc} {actions : List Action}
    (h : w.popOne ext now taskId = .ok (w', actions)) : Kept w actions w' := by
  rcases popOne_cases h with ⟨-, rfl, rfl⟩ | ⟨c, hc, rfl, rfl⟩
  · exact Feeds.kept ⟨.refl _, by simp⟩
  · exact popTask_kept (.inl (by simp [hc]))

theorem slot_kept {d : Datagram} {w w' : Worker Rtc} {found : Option Nat}
    {actions : List Action} (h : w.slot ext d = .ok (found, w', actions)) : Kept w actions w' := by
  rcases slot_ok h with ⟨rfl, rfl⟩ | ⟨username, taskId, -, -, rfl, rfl⟩
  · exact Feeds.kept ⟨.refl _, by simp⟩
  · exact ⟨(List.append_nil _).symm, by simp [MediaServer.endedIds, Action.endedId],
      fun t ht => bind_lookup_none.not.mpr ht, fun t ht => .inl (bind_lookup_none.not.mp ht),
      Nat.le_refl _⟩

theorem exec_kept {op : Op Rtc} {w w' : Worker Rtc} {actions : List Action}
    (hop : op ≠ .popEnded) (h : w.exec ext op = .ok (w', actions)) : Kept w actions w' := by
  cases op with
  | busEvent ev now => exact (handleBusEvent_feeds h).kept
  | request arrival =>
      obtain ⟨req, -, ⟨task, -, hadd⟩ | ⟨rfl, rfl⟩⟩ := handleRequest_ok h
      · cases hadd
        let opened : Worker Rtc :=
          { w with taskUfrags := w.taskUfrags.insert task.ufrag w.taskIdSeed }
        have hkept : Kept opened
            (opened.popTask ext arrival.now w.taskIdSeed (.ofTask task)).2
            (opened.popTask ext arrival.now w.taskIdSeed (.ofTask task)).1 :=
          popTask_kept (.inr (Nat.le_refl _))
        exact ⟨hkept.endedTasks, hkept.ended, hkept.live, hkept.born, Nat.le_succ _⟩
      · exact ⟨(List.append_nil _).symm, by simp [MediaServer.endedIds, Action.endedId],
          fun _ ht => ht, fun _ ht => .inl ht, Nat.le_refl _⟩
  | tick order now =>
      obtain ⟨hq, rfl⟩ := processTick_ok h
      exact Feeds.kept ⟨hq, by simp⟩
  | pop taskId now => exact popOne_kept h
  | popEnded => exact absurd rfl hop
  | datagram d =>
      obtain ⟨found, u, acts, hslot, ⟨rfl, rfl⟩ | ⟨taskId, v, fed, popped, hin, hpop, rfl⟩⟩ :=
        handleDatagram_ok h
      · exact slot_kept hslot
      · exact (slot_kept hslot).trans ((inputTask_feeds hin).kept.trans (popOne_kept hpop))

/-! ### The clean-up -/

/-- A clean-up that comes to its end has removed the sessions of its list, in order. -/
theorem removeTasks_removed {es : List Nat} :
    ∀ {w w' : Worker Rtc} {actions : List Action},
      forEach removeTask es w = .ok (w', actions) →
      actions = es.map Action.removed ∧ w'.endedTasks = w.endedTasks ∧
        ∀ t, w'.tasks.lookup t = if t ∈ es then none else w.tasks.lookup t := by
  induction es with
  | nil =>
      intro w w' actions h
      cases h
      exact ⟨rfl, rfl, by simp⟩
  | cons e rest ih =>
      intro w w' actions h
      obtain ⟨v, acts, acts', hfirst, hrest, rfl⟩ := forEach_cons_ok.mp h
      obtain ⟨c, -, rfl, rfl⟩ := removeTask_ok.mp hfirst
      obtain ⟨rfl, hended, hlookup⟩ := ih hrest
      refine ⟨rfl, hended, fun t => ?_⟩
      rw [hlookup]
      simp only [without_lookup, List.mem_cons]
      by_cases ht : t = e
      · simp [ht]
      · simp [ht]

/-- A clean-up comes to its end exactly if its list names live sessions, each once. -/
theorem removeTasks_ok_iff {es : List Nat} :
    ∀ {w : Worker Rtc}, (∃ w' actions, forEach removeTask es w = .ok (w', actions)) ↔
      es.Nodup ∧ ∀ e ∈ es, w.tasks.lookup e ≠ none := by
  induction es with
  | nil => intro w; simp
  | cons e rest ih =>
      intro w
      constructor
      · rintro ⟨w', actions, h⟩
        obtain ⟨v, acts, acts', hfirst, hrest, rfl⟩ := forEach_cons_ok.mp h
        obtain ⟨c, hc, rfl, rfl⟩ := removeTask_ok.mp hfirst
        obtain ⟨hnodup, hlive⟩ := ih.mp ⟨w', acts', hrest⟩
        have hkept : ∀ t ∈ rest, t ≠ e ∧ w.tasks.lookup t ≠ none := by
          intro t ht
          have := hlive t ht
          rw [without_lookup] at this
          split at this
          · exact absurd rfl this
          · rename_i hne
            exact ⟨hne, this⟩
        refine ⟨List.nodup_cons.mpr ⟨fun he => (hkept e he).1 rfl, hnodup⟩, ?_⟩
        intro t ht
        rcases List.mem_cons.mp ht with rfl | ht
        · simp [hc]
        · exact (hkept t ht).2
      · rintro ⟨hnodup, hlive⟩
        obtain ⟨hnot, hnodup⟩ := List.nodup_cons.mp hnodup
        obtain ⟨c, hc⟩ := Option.ne_none_iff_exists'.mp (hlive e List.mem_cons_self)
        have hfirst := removeTask_ok.mpr ⟨c, hc, rfl, rfl⟩
        have hkept : ∀ t ∈ rest, (w.without e c).tasks.lookup t ≠ none := by
          intro t ht
          have hne : t ≠ e := fun heq => hnot (heq ▸ ht)
          rw [without_lookup, if_neg hne]
          exact hlive t (List.mem_cons_of_mem _ ht)
        obtain ⟨w', actions, hrest⟩ := ih.mpr ⟨hnodup, hkept⟩
        exact ⟨w', _, forEach_cons_ok.mpr ⟨_, _, _, hfirst, hrest, rfl⟩⟩

/-- What stops a clean-up is the look-up of a session that is gone. -/
theorem popEndedTasks_error {w : Worker Rtc} {p : Panic} (h : w.popEndedTasks = .error p) :
    p = .noTask := by
  obtain ⟨pre, e, post, v, bs, -, -, he⟩ := forEach_error h
  unfold removeTask at he
  split at he
  · cases he
    rfl
  · cases he

/--
What a worker's list of ended sessions is between two turns: it names live sessions
only, each as often as it was ever listed.
-/
structure Ending (actions : List Action) (w : Worker Rtc) : Prop where
  live : ∀ t ∈ w.endedTasks, w.tasks.lookup t ≠ none
  count : ∀ t, w.tasks.lookup t ≠ none → w.endedTasks.count t = (endedIds actions).count t

theorem Ending.turn {actions bs : List Action} {w w' : Worker Rtc} (h : Ending actions w)
    (hb : Bounded w) (hfresh : ∀ t, w.taskIdSeed ≤ t → (endedIds actions).count t = 0)
    (hturn : Turn ext admits w bs w') : Ending (actions ++ bs) w' := by
  obtain ⟨op, -, hexec⟩ := hturn
  by_cases hop : op = .popEnded
  · subst hop
    obtain ⟨rfl, hended, hlookup⟩ := removeTasks_removed hexec
    replace hended : w'.endedTasks = [] := hended
    have hnone : endedIds (w.endedTasks.map Action.removed) = [] := by
      simp [MediaServer.endedIds, List.filterMap_eq_nil_iff, Action.endedId]
    refine ⟨by simp [hended], fun t ht => ?_⟩
    -- Whoever is still there was not on the list, so has never been on it.
    rw [hlookup] at ht
    split at ht
    · exact absurd rfl ht
    · rename_i hnot
      rw [hended, endedIds_append, hnone, List.append_nil, ← h.count t ht]
      exact (List.count_eq_zero.mpr hnot).symm
  · have hk := exec_kept hop hexec
    refine ⟨fun t ht => ?_, fun t ht => ?_⟩
    · rw [hk.endedTasks] at ht
      rcases List.mem_append.mp ht with ht | ht
      · exact hk.live t (h.live t ht)
      · exact hk.ended t ht
    · rw [hk.endedTasks, endedIds_append, List.count_append, List.count_append]
      congr 1
      rcases hk.born t ht with hold | hnew
      · exact h.count t hold
      · have hnot : t ∉ w.endedTasks :=
          fun hmem => absurd (hb.ended t hmem) (Nat.not_lt.mpr hnew)
        rw [hfresh t hnew, List.count_eq_zero.mpr hnot]

theorem Reaches.ending {addr : SocketAddr} {actions : List Action} {w : Worker Rtc}
    (h : Reaches ext admits addr actions w) : Ending actions w := by
  induction h with
  | refl => exact ⟨by simp [Worker.new], by simp [Worker.new]⟩
  | tail hprev hturn ih =>
      have hreach : Reaches ext admits addr _ _ := hprev
      refine ih.turn hreach.bounded (fun t ht => ?_) hturn
      rw [hreach.endsListed.count, hreach.history.fresh t ht]
      rfl

end Worker

/-! ### Removed once -/

/-- The id of the session an action removes. -/
def Action.removedId : Action → Option Nat
  | .removed taskId => some taskId
  | _ => none

/-- Whoever has been removed was removed once, and is gone. -/
structure RemovedOnce (actions : List Action) (w : Worker Rtc) : Prop where
  nodup : (actions.filterMap Action.removedId).Nodup
  gone : ∀ t ∈ actions.filterMap Action.removedId,
    w.tasks.lookup t = none ∧ t < w.taskIdSeed

/-- A step that removes nobody must not bring anybody back. -/
theorem RemovedOnce.keep {actions bs : List Action} {w v : Worker Rtc} (h : RemovedOnce actions w)
    (hbs : bs.filterMap Action.removedId = []) (hseed : w.taskIdSeed ≤ v.taskIdSeed)
    (hgone : ∀ t, t < w.taskIdSeed → w.tasks.lookup t = none → v.tasks.lookup t = none) :
    RemovedOnce (actions ++ bs) v := by
  have hsame : (actions ++ bs).filterMap Action.removedId
      = actions.filterMap Action.removedId := by
    rw [List.filterMap_append, hbs, List.append_nil]
  refine ⟨hsame ▸ h.nodup, fun t ht => ?_⟩
  obtain ⟨hnone, hlt⟩ := h.gone t (hsame ▸ ht)
  exact ⟨hgone t hlt hnone, Nat.lt_of_lt_of_le hlt hseed⟩

/-- A session that is removed has not been before. -/
theorem RemovedOnce.without {actions : List Action} {w : Worker Rtc} (hb : Bounded w)
    (h : RemovedOnce actions w) {taskId : Nat} {c : TaskContainer Rtc}
    (hl : w.tasks.lookup taskId = some c) :
    RemovedOnce (actions ++ [.removed taskId]) (w.without taskId c) := by
  have hnot : taskId ∉ actions.filterMap Action.removedId := by
    intro hmem
    rw [(h.gone taskId hmem).1] at hl
    cases hl
  have hmore : (actions ++ [Action.removed taskId]).filterMap Action.removedId
      = actions.filterMap Action.removedId ++ [taskId] := by
    rw [List.filterMap_append]
    rfl
  refine ⟨?_, fun t ht => ?_⟩
  · rw [hmore, List.nodup_append]
    refine ⟨h.nodup, List.nodup_singleton _, ?_⟩
    rintro t ht t' ht' rfl
    exact hnot (List.mem_singleton.mp ht' ▸ ht)
  · rw [hmore] at ht
    rw [Worker.without_lookup]
    rcases List.mem_append.mp ht with ht | ht
    · obtain ⟨hnone, hlt⟩ := h.gone t ht
      exact ⟨by simp [hnone], hlt⟩
    · cases List.mem_singleton.mp ht
      exact ⟨if_pos rfl, hb.tasks taskId c hl⟩

theorem RemovedOnce.step {actions bs : List Action} {w w' : Worker Rtc} (hb : Bounded w)
    (h : RemovedOnce actions w) (hs : Step ext admits w bs w') :
    RemovedOnce (actions ++ bs) w' := by
  refine Step.rule (P := fun bs w' => RemovedOnce (actions ++ bs) w') ?_ ?_ ?_ ?_ ?_ ?_ ?_ hs
  · intro bs v hf
    refine h.keep (hf.filterMap_nil fun a ha => by
      cases a <;> simp [Action.isFeed] at ha <;> rfl) hf.1.taskIdSeed.ge ?_
    intro t _ hnone
    cases hv : v.tasks.lookup t with
    | none => rfl
    | some c =>
        obtain ⟨c₀, hc₀, -⟩ := hf.1.lookup hv
        rw [hnone] at hc₀
        cases hc₀
  · exact fun req => h.keep rfl (Nat.le_refl _) fun _ _ hnone => hnone
  · intro config req task _ _
    refine h.keep rfl (Nat.le_succ _) fun t hlt hnone => ?_
    rw [Worker.register_lookup, if_neg (Nat.ne_of_lt hlt)]
    exact hnone
  · intro remote username taskId _ _
    exact h.keep rfl (Nat.le_refl _) fun t _ hnone => Worker.bind_lookup_none.mpr hnone
  · intro taskId c now out task hl _
    refine h.keep (filterMap_popActions_nil (fun _ => rfl) (fun o => ?_) _ _)
      (Nat.le_refl _) fun t _ hnone => ?_
    · cases o with
      | io action => cases action <;> rfl
      | _ => rfl
    · have hne : t ≠ taskId := by
        rintro rfl
        rw [hl] at hnone
        cases hnone
      rw [Worker.performOn_lookup, if_neg hne]
      exact hnone
  · have hnobody : ([] : List Action).filterMap Action.removedId = [] := rfl
    exact h.keep hnobody (Nat.le_refl _) fun _ _ hnone => hnone
  · exact fun taskId c hl => h.without hb hl

theorem Worker.Reaches.removedOnce {addr : SocketAddr} {actions : List Action} {w : Worker Rtc}
    (h : Worker.Reaches ext admits addr actions w) : RemovedOnce actions w :=
  (Emits.preserves (P := fun os w => Bounded w ∧ RemovedOnce os w)
    (fun _ _ _ _ hI hs => ⟨hI.1.step hs, hI.2.step hI.1 hs⟩) h.steps
    ⟨bounded_new addr, List.nodup_nil, by simp⟩).2

/--
**When ending a session is idempotent.**  In every state a worker can reach, the clean-up
comes to its end exactly if no live session's engine has said `Disconnected` twice; it
then has removed each session of its list, and each once, and what stops it otherwise is
the look-up of a session that is gone.  No session is removed twice in any run.
-/
theorem sessions_end_once_iff {addr : SocketAddr} {actions : List Action} {w : Worker Rtc}
    (h : Worker.Reaches ext admits addr actions w) :
    ((∃ w' bs, w.popEndedTasks = .ok (w', bs)) ↔
      ∀ t c, w.tasks.lookup t = some c → (answers t actions).countP isDisconnected ≤ 1) ∧
    (∀ w' bs, w.popEndedTasks = .ok (w', bs) →
      w.endedTasks.Nodup ∧ bs = w.endedTasks.map Action.removed ∧ w'.endedTasks = [] ∧
        ∀ t, w'.tasks.lookup t = if t ∈ w.endedTasks then none else w.tasks.lookup t) ∧
    (∀ p, w.popEndedTasks = .error p → p = .noTask) ∧
    (actions.filterMap Action.removedId).Nodup := by
  have hending := h.ending
  have hok : (∃ w' bs, w.popEndedTasks = .ok (w', bs)) ↔
      w.endedTasks.Nodup ∧ ∀ t ∈ w.endedTasks, w.tasks.lookup t ≠ none :=
    Worker.removeTasks_ok_iff (w := { w with endedTasks := [] })
  refine ⟨?_, ?_, ?_, h.removedOnce.nodup⟩
  · rw [hok]
    constructor
    · rintro ⟨hnodup, -⟩ t c hc
      rw [← h.endsListed.count, ← hending.count t (by simp [hc])]
      exact List.nodup_iff_count_le_one.mp hnodup t
    · intro honce
      refine ⟨List.nodup_iff_count_le_one.mpr fun t => ?_, hending.live⟩
      by_cases ht : t ∈ w.endedTasks
      · have hlive := hending.live t ht
        obtain ⟨c, hc⟩ := Option.ne_none_iff_exists'.mp hlive
        rw [hending.count t hlive, h.endsListed.count]
        exact honce t c hc
      · rw [List.count_eq_zero.mpr ht]
        exact Nat.zero_le _
  · intro w' bs hrun
    obtain ⟨hbs, hended, hlookup⟩ := Worker.removeTasks_removed hrun
    exact ⟨(hok.mp ⟨w', bs, hrun⟩).1, hbs, hended, hlookup⟩
  · exact fun p => Worker.popEndedTasks_error

/-- A viewer whose peer is gone is removed: its engine has said so once. -/
theorem sessions_end_once_viewer :
    let r := Script.play (Script.leaving "/whep/endpoint")
    (answers 0 r.2).countP isDisconnected = 1 ∧ ∃ w' bs, r.1.popEndedTasks = .ok (w', bs) := by
  have honce : (answers 0 (Script.play (Script.leaving "/whep/endpoint")).2).countP
      isDisconnected = 1 := by decide +kernel
  refine ⟨honce, (sessions_end_once_iff (Script.play_reaches _)).1.mpr ?_⟩
  intro t c hc
  have hseed : (Script.play (Script.leaving "/whep/endpoint")).1.taskIdSeed = 1 := by
    decide +kernel
  have hlt := (Script.play_reaches (Script.leaving "/whep/endpoint")).bounded.tasks t c hc
  rw [hseed, Nat.lt_one_iff] at hlt
  subst hlt
  exact honce.le

/-- A cycle of a worker with one session, in which only requests and datagrams arrive. -/
def Script.cycle (requests : List (Worker.HttpArrival Script)) (datagrams : List Worker.Datagram) :
    Worker.Cycle Script :=
  { busEvents := [], requests, tickOrder := [0], tickAt := 0, popOrder := [0], popAt := 0, datagrams }

/--
A publisher loses its peer, connects again and loses it again, all within the datagrams
of one cycle.  The clean-up of the next cycle looks for it twice, and ends the worker.
-/
theorem session_ends_twice :
    ∃ w actions,
      forEach (Worker.processCycle Script.engine)
        [Script.cycle [Script.arrival 1 "/whip/endpoint" [0x76] "abc" []]
          [Script.datagram 7 [0, 97, 98, 99]],
          Script.cycle [] [Script.datagram 7 [5], Script.datagram 7 [1], Script.datagram 7 [5]]]
        (Worker.new Script.addr) = .ok (w, actions) ∧
      w.endedTasks = [0, 0] ∧
      w.processCycle Script.engine (Script.cycle [] []) = .error .noTask := by
  have hended : (forEach (Worker.processCycle Script.engine)
      [Script.cycle [Script.arrival 1 "/whip/endpoint" [0x76] "abc" []]
        [Script.datagram 7 [0, 97, 98, 99]],
        Script.cycle [] [Script.datagram 7 [5], Script.datagram 7 [1], Script.datagram 7 [5]]]
      (Worker.new Script.addr)).map (fun r => (r.1.endedTasks,
        failure (r.1.processCycle Script.engine (Script.cycle [] []))))
      = .ok ([0, 0], some .noTask) := by
    decide +kernel
  obtain ⟨⟨w, actions⟩, hrun, heq⟩ := except_map_ok.mp hended
  obtain ⟨hlist, hnext⟩ := Prod.mk.inj heq
  exact ⟨w, actions, hrun, hlist, failure_eq_some.mp hnext⟩

end MediaServer
