/-
How far `pop_task` gets through what an engine has queued.

The engine is to be polled until it answers `Timeout`.  `pop_task` polls until
`pop_action` returns nothing, which is not the same: `Connected`, `MediaAdded` and every
event the session has no action for return nothing either, and what is queued behind
them stays where it is.  So the queue is emptied exactly when every answer in it but the
last is one that an action is returned for at once, and that is what is shown here, for
one call of `pop_task`, for the datagram whose session it polls, and for whole runs.
-/
import MediaServer.Proofs.History
import MediaServer.Proofs.Inputs

namespace MediaServer

open Lib

variable {Rtc : Type}

/-! ### What an engine has queued -/

/-- Whether an answer says that nothing is left: `Timeout` does, and so does an error. -/
def isFinal : Except ExternError Output → Bool
  | .error _ => true
  | .ok (.timeout _) => true
  | .ok _ => false

namespace Extern

/-- The answers an engine has queued, up to the first that says nothing is left. -/
def queued (ext : Extern Rtc) : Rtc → List (Except ExternError Output) :=
  batch ext.pending ext.pollOutput isFinal

theorem pending_lt_of_not_final (ext : Extern Rtc) (rtc : Rtc)
    (h : isFinal (ext.pollOutput rtc).1 = false) :
    ext.pending (ext.pollOutput rtc).2 < ext.pending rtc := by
  cases hp : ext.pollOutput rtc with
  | mk answer rtc' =>
      rw [hp] at h
      cases answer with
      | error e => cases h
      | ok o =>
          refine ext.pending_lt rtc o rtc' hp ?_
          rintro t rfl
          cases h

theorem queued_eq (ext : Extern Rtc) (rtc : Rtc) :
    ext.queued rtc = (ext.pollOutput rtc).1 ::
      if isFinal (ext.pollOutput rtc).1 then [] else ext.queued (ext.pollOutput rtc).2 :=
  batch_eq ext.pending_lt_of_not_final rtc

end Extern

/-- Whether `pop_action` returns an action for an answer in the call that polls it. -/
def Role.returns : Role → Except ExternError Output → Bool
  | _, .ok (.transmit _) => true
  | _, .ok (.event (.iceConnectionStateChange .disconnected)) => true
  | .publisher _ _, .ok (.event (.rtpPacket _)) => true
  | .viewer _, .ok (.event (.keyframeRequest _ _)) => true
  | _, _ => false

theorem Role.not_final_of_returns {role : Role} {answer : Except ExternError Output}
    (h : role.returns answer = true) : isFinal answer = false := by
  cases answer with
  | error e => cases role <;> cases h
  | ok o =>
      cases o with
      | timeout t => cases role <;> cases h
      | _ => rfl

/-- An answer that says nothing is left is worth no action. -/
theorem Role.translate_final (ext : Extern Rtc) (role : Role) {answer : Except ExternError Output}
    (h : isFinal answer = true) : role.translate ext answer = [] := by
  cases answer with
  | error e => rfl
  | ok o =>
      cases o with
      | timeout t => rfl
      | _ => cases h

/-! ### One call of `pop_action` -/

variable {ext : Extern Rtc}

namespace TaskCore

/-- A call that polls: what becomes of the engine, the answer and the deadline. -/
structure Asked (ext : Extern Rtc) (role : Role) (task : TaskCore Rtc)
    (out : Option WebrtcTaskOutput) (task' : TaskCore Rtc) : Prop where
  rtc : task'.rtc = (ext.pollOutput task.rtc).2
  returns : out.isSome = role.returns (ext.pollOutput task.rtc).1
  timeout : isFinal (ext.pollOutput task.rtc).1 = false → task'.timeout = task.timeout

/-- The three ways a call can go: it returns what is owed, waits for the deadline, or polls. -/
theorem popAction_cases {onEvent : Event → TaskCore Rtc → Option WebrtcTaskOutput × TaskCore Rtc}
    {role : Role}
    (handles : ∀ e task, (onEvent e task).2.rtc = task.rtc ∧
      (onEvent e task).2.timeout = task.timeout ∧
      (onEvent e task).1.isSome = role.returns (.ok (.event e)))
    {now : Instant} {task task' : TaskCore Rtc} {out : Option WebrtcTaskOutput}
    (h : task.popAction ext onEvent now = (out, task')) :
    (∃ o rest, task.outputs = o :: rest ∧ out = some o ∧ task' = { task with outputs := rest }) ∨
      (task.outputs = [] ∧ task.waiting now = true ∧ out = none ∧ task' = task) ∨
      (task.outputs = [] ∧ task.waiting now = false ∧ Asked ext role task out task') := by
  unfold popAction at h
  split at h
  · rename_i o rest ho
    cases h
    exact .inl ⟨o, rest, ho, rfl, rfl⟩
  · rename_i ho
    split at h
    · rename_i hw
      cases h
      exact .inr (.inl ⟨ho, hw, rfl, rfl⟩)
    · rename_i hw
      refine .inr (.inr ⟨ho, Bool.not_eq_true _ ▸ hw, ?_⟩)
      split at h <;> rename_i rtc hpoll
      · cases h
        exact ⟨by rw [hpoll], by rw [hpoll]; cases role <;> rfl, fun _ => rfl⟩
      · cases h
        exact ⟨by rw [hpoll], by rw [hpoll]; cases role <;> rfl, by rw [hpoll]; exact nofun⟩
      · cases h
        exact ⟨by rw [hpoll], by rw [hpoll]; cases role <;> rfl, fun _ => rfl⟩
      · rename_i e
        obtain ⟨hrtc, htimeout, hreturns⟩ := handles e { task with rtc }
        rw [h] at hrtc htimeout hreturns
        exact ⟨by rw [hpoll]; exact hrtc, by rw [hpoll]; exact hreturns, fun _ => htimeout⟩

end TaskCore

theorem WhipServerTask.onEvent_returns (audio video : UInt64) (e : Event) (task : TaskCore Rtc) :
    (onEvent audio video e task).2.rtc = task.rtc ∧
      (onEvent audio video e task).2.timeout = task.timeout ∧
      (onEvent audio video e task).1.isSome
        = (Role.publisher audio video).returns (.ok (.event e)) := by
  cases e with
  | mediaAdded mid kind => cases kind <;> exact ⟨rfl, rfl, rfl⟩
  | iceConnectionStateChange state => cases state <;> exact ⟨rfl, rfl, rfl⟩
  | _ => exact ⟨rfl, rfl, rfl⟩

theorem WhepServerTask.onEvent_returns (channel : String) (e : Event) (task : TaskCore Rtc) :
    (onEvent ext channel e task).2.rtc = task.rtc ∧
      (onEvent ext channel e task).2.timeout = task.timeout ∧
      (onEvent ext channel e task).1.isSome = (Role.viewer channel).returns (.ok (.event e)) := by
  cases e with
  | mediaAdded mid kind => cases kind <;> exact ⟨rfl, rfl, rfl⟩
  | iceConnectionStateChange state => cases state <;> exact ⟨rfl, rfl, rfl⟩
  | _ => exact ⟨rfl, rfl, rfl⟩

theorem ComposeTask.popAction_cases {now : Instant} {task task' : ComposeTask Rtc}
    {out : Option WebrtcTaskOutput} (h : task.popAction ext now = (out, task')) :
    (∃ o rest, task.core.outputs = o :: rest ∧ out = some o ∧
        task'.core = { task.core with outputs := rest }) ∨
      (task.core.outputs = [] ∧ task.core.waiting now = true ∧ out = none ∧
        task'.core = task.core) ∨
      (task.core.outputs = [] ∧ task.core.waiting now = false ∧
        TaskCore.Asked ext task.role task.core out task'.core) := by
  cases task with
  | whip task =>
      cases h
      exact TaskCore.popAction_cases
        (WhipServerTask.onEvent_returns task.audioTrackId task.videoTrackId) rfl
  | whep task =>
      cases h
      exact TaskCore.popAction_cases (WhepServerTask.onEvent_returns task.channel) rfl

theorem TaskCore.popAction_unpolled (ext' : Extern Rtc)
    {onEvent onEvent' : Event → TaskCore Rtc → Option WebrtcTaskOutput × TaskCore Rtc}
    {now : Instant} {task : TaskCore Rtc} (h : task.polled ext now = none) :
    task.popAction ext' onEvent' now = task.popAction ext onEvent now := by
  unfold popAction
  cases ho : task.outputs with
  | cons o rest => rfl
  | nil =>
      cases hw : task.waiting now with
      | true => rfl
      | false =>
          rw [polled, if_pos ⟨ho, hw⟩] at h
          cases h

/--
The engine is asked where `polled` says, and there alone: the answer is its own and it is
left as `poll_output` leaves it, and elsewhere any other engine would have done.
-/
theorem ComposeTask.popAction_asks (ext : Extern Rtc) (now : Instant) (task : ComposeTask Rtc) :
    (task.polled ext now = none →
      ∀ ext' : Extern Rtc, task.popAction ext' now = task.popAction ext now) ∧
    ∀ answer, task.polled ext now = some answer →
      ext.pollOutput task.core.rtc = (answer, (task.popAction ext now).2.core.rtc) := by
  constructor
  · intro hnone ext'
    cases task with
    | whip task =>
        replace hnone : task.toTaskCore.polled ext now = none := hnone
        rw [popAction, popAction, WhipServerTask.popAction, WhipServerTask.popAction,
          TaskCore.popAction_unpolled ext' hnone]
    | whep task =>
        replace hnone : task.toTaskCore.polled ext now = none := hnone
        rw [popAction, popAction, WhepServerTask.popAction, WhepServerTask.popAction,
          TaskCore.popAction_unpolled ext' hnone]
  · intro answer hpolled
    rw [polled, TaskCore.polled] at hpolled
    split at hpolled
    · rename_i hasked
      obtain rfl := Option.some.inj hpolled
      rcases popAction_cases (show task.popAction ext now = (_, _) from rfl) with
        ⟨o, rest, howed, -⟩ | ⟨-, hwaiting, -⟩ | ⟨-, -, hasks⟩
      · rw [hasked.1] at howed
        cases howed
      · rw [hasked.2] at hwaiting
        cases hwaiting
      · exact Prod.ext rfl hasks.rtc.symm
    · cases hpolled

/-- An answer that an action is returned for at once stands for that action and no other. -/
theorem Role.translate_of_returns (ext : Extern Rtc) {role : Role} {answer : Except ExternError Output}
    (h : role.returns answer = true) : ∃ out, role.translate ext answer = [out] := by
  unfold returns at h
  split at h
  · cases role <;> exact ⟨_, rfl⟩
  · cases role <;> exact ⟨_, rfl⟩
  · exact ⟨_, rfl⟩
  · exact ⟨_, rfl⟩
  · cases h

/-- A call that polls such an answer returns its action and owes nothing. -/
theorem ComposeTask.popAction_returned {now : Instant} {task task' : ComposeTask Rtc}
    {out : Option WebrtcTaskOutput} {answer : Except ExternError Output}
    (h : task.popAction ext now = (out, task')) (hpolled : task.polled ext now = some answer)
    (hreturns : task.role.returns answer = true) :
    task.role.translate ext answer = out.toList ∧ task'.core.outputs = [] := by
  have hconserves := (popAction_spec h).core.conserves
  rw [polled] at hpolled
  rcases popAction_cases h with ⟨o, rest, ho, -, -⟩ | ⟨-, hw, -, -⟩ | ⟨ho, hw, hasks⟩
  · rw [TaskCore.polled, if_neg (by simp [ho])] at hpolled
    cases hpolled
  · rw [TaskCore.polled, if_neg (by simp [hw])] at hpolled
    cases hpolled
  · have hanswer : (ext.pollOutput task.core.rtc).1 = answer := by
      rw [TaskCore.polled, if_pos ⟨ho, hw⟩] at hpolled
      exact Option.some.inj hpolled
    obtain ⟨o, rfl⟩ := Option.isSome_iff_exists.mp (hasks.returns.trans (hanswer ▸ hreturns))
    obtain ⟨a, ha⟩ := Role.translate_of_returns ext hreturns
    rw [hpolled, ho, List.nil_append, Option.elim_some, ha] at hconserves
    obtain ⟨rfl, hrest⟩ := List.cons.inj hconserves
    exact ⟨ha, hrest⟩

namespace Worker

/-! ### One call of `pop_task` -/

/-- What a session's engine has been polled for so far ended with nothing left. -/
def SaidFinal (said : List (Except ExternError Output)) : Prop :=
  ∃ last, said.getLast? = some last ∧ isFinal last = true

/-- A session that still waits for its deadline is not polled at all. -/
theorem popTask_waits (ext : Extern Rtc) {now : Instant} (taskId : Nat) {c : TaskContainer Rtc}
    (w : Worker Rtc) (hwaiting : c.task.core.waiting now = true) :
    ∃ c', (w.popTask ext now taskId c).1.tasks.lookup taskId = some c' ∧
      c'.task.core.outputs = [] ∧ answers taskId (w.popTask ext now taskId c).2 = [] := by
  have hunasked : ∀ task : ComposeTask Rtc, task.core.waiting now = true →
      task.polled ext now = none := by
    intro task hw
    simp [ComposeTask.polled, TaskCore.polled, hw]
  refine popTask_calls
    (P := fun task actions => task.core.waiting now = true ∧ answers taskId actions = [])
    (Q := fun task actions => task.core.outputs = [] ∧ answers taskId actions = [])
    ?_ ?_ ⟨hwaiting, rfl⟩
  · rintro task actions action task' ⟨hw, hnone⟩ h
    rcases ComposeTask.popAction_cases h with ⟨o, rest, -, -, hcore⟩ | ⟨-, -, hout, -⟩ | ⟨-, hw', -⟩
    · refine ⟨by rw [hcore]; exact hw, ?_⟩
      rw [answers_append, hnone, answers_popActions, if_pos rfl, hunasked task hw]
      rfl
    · cases hout
    · rw [hw] at hw'
      cases hw'
  · rintro task actions task' ⟨hw, hnone⟩ h
    rcases ComposeTask.popAction_cases h with ⟨o, rest, -, hout, -⟩ | ⟨ho, -, -, hcore⟩ |
      ⟨-, hw', -⟩
    · cases hout
    · refine ⟨by rw [hcore]; exact ho, ?_⟩
      rw [answers_append, hnone, answers_popActions, if_pos rfl, hunasked task hw]
      rfl
    · rw [hw] at hw'
      cases hw'

/--
A session that does not wait is polled as long as it returns actions, and once more: the
answers are the first few its engine has queued.
-/
theorem popTask_polls (ext : Extern Rtc) {now : Instant} (taskId : Nat) {c : TaskContainer Rtc}
    (w : Worker Rtc) (hready : c.task.core.waiting now = false) :
    ∃ c', (w.popTask ext now taskId c).1.tasks.lookup taskId = some c' ∧
      ∃ asked last rest, ext.queued c.task.core.rtc = asked ++ last :: rest ∧
        answers taskId (w.popTask ext now taskId c).2 = asked ++ [last] ∧
        (∀ answer ∈ asked, c.task.role.returns answer = true) ∧
        c.task.role.returns last = false ∧
        c'.task.core.outputs = c.task.role.translate ext last := by
  refine popTask_calls
    (P := fun task actions => task.role = c.task.role ∧ task.core.waiting now = false ∧
      ext.queued c.task.core.rtc = answers taskId actions ++ ext.queued task.core.rtc ∧
      ∀ answer ∈ answers taskId actions, c.task.role.returns answer = true)
    (Q := fun task actions => ∃ asked last rest,
      ext.queued c.task.core.rtc = asked ++ last :: rest ∧
      answers taskId actions = asked ++ [last] ∧
      (∀ answer ∈ asked, c.task.role.returns answer = true) ∧
      c.task.role.returns last = false ∧ task.core.outputs = c.task.role.translate ext last)
    ?_ ?_ ⟨rfl, hready, rfl, by simp [answers]⟩
  · rintro task actions action task' ⟨hrole, hw, hqueue, hasked⟩ h
    have hp := ComposeTask.popAction_spec h
    rcases ComposeTask.popAction_cases h with ⟨o, rest, ho, -, hcore⟩ | ⟨-, -, hout, -⟩ |
      ⟨ho, -, hasks⟩
    · have hsame : answers taskId (actions ++ popActions taskId (task.polled ext now) (some action))
          = answers taskId actions := by
        rw [answers_append, answers_popActions, if_pos rfl, ComposeTask.polled, TaskCore.polled,
          if_neg (by simp [ho])]
        simp
      rw [hsame, hcore, hp.role]
      exact ⟨hrole, hw, hqueue, hasked⟩
    · cases hout
    · have hreturns : c.task.role.returns (ext.pollOutput task.core.rtc).1 = true := by
        rw [← hrole, ← hasks.returns]
        rfl
      have hfinal := Role.not_final_of_returns hreturns
      have hsaid : answers taskId (actions ++ popActions taskId (task.polled ext now) (some action))
          = answers taskId actions ++ [(ext.pollOutput task.core.rtc).1] := by
        rw [answers_append, answers_popActions, if_pos rfl, ComposeTask.polled, TaskCore.polled,
          if_pos ⟨ho, hw⟩]
        rfl
      rw [hsaid]
      refine ⟨hp.role.trans hrole, ?_, ?_, ?_⟩
      · rw [TaskCore.waiting, hasks.timeout hfinal]
        exact hw
      · rw [hqueue, Extern.queued_eq, hfinal, hasks.rtc]
        simp
      · intro answer hanswer
        rcases List.mem_append.mp hanswer with hanswer | hanswer
        · exact hasked answer hanswer
        · cases List.mem_singleton.mp hanswer
          exact hreturns
  · rintro task actions task' ⟨hrole, hw, hqueue, hasked⟩ h
    have hp := ComposeTask.popAction_spec h
    rcases ComposeTask.popAction_cases h with ⟨o, rest, -, hout, -⟩ | ⟨-, hw', -, -⟩ |
      ⟨ho, -, hasks⟩
    · cases hout
    · rw [hw] at hw'
      cases hw'
    · have hpolled : task.polled ext now = some (ext.pollOutput task.core.rtc).1 :=
        if_pos ⟨ho, hw⟩
      refine ⟨_, _, _, hqueue.trans (by rw [Extern.queued_eq]), ?_, hasked, ?_, ?_⟩
      · rw [answers_append, answers_popActions, if_pos rfl, hpolled]
        rfl
      · rw [← hrole, ← hasks.returns]
        rfl
      · have hconserves := hp.core.conserves
        rw [ho, ← ComposeTask.polled, hpolled, hrole] at hconserves
        exact hconserves

/-- Polling empties an engine's queue exactly if all but its end is returned at once. -/
theorem drained_iff {role : Role} {rtc : Rtc} {asked rest : List (Except ExternError Output)}
    {last : Except ExternError Output} (hqueue : ext.queued rtc = asked ++ last :: rest)
    (hasked : ∀ answer ∈ asked, role.returns answer = true) (hlast : role.returns last = false) :
    (role.translate ext last = [] ∧ isFinal last = true) ↔
      ∀ answer ∈ (ext.queued rtc).dropLast, role.returns answer = true := by
  have hstop : isFinal last = true ↔ rest = [] :=
    batch_stop ext.pending_lt_of_not_final hqueue
  rw [hqueue]
  constructor
  · rintro ⟨-, hfinal⟩
    cases hstop.mp hfinal
    rw [List.dropLast_append_of_ne_nil (by simp)]
    simpa using hasked
  · intro hall
    have hrest : rest = [] := by
      cases rest with
      | nil => rfl
      | cons next rest =>
          have hreturns := hall last (by
            rw [List.dropLast_append_of_ne_nil (by simp)]
            simp)
          rw [hlast] at hreturns
          cases hreturns
    exact ⟨Role.translate_final ext role (hstop.mpr hrest), hstop.mpr hrest⟩

/-- What has to be so before `pop_task` for it to leave nothing behind. -/
def Drainable (ext : Extern Rtc) (now : Instant) (task : ComposeTask Rtc)
    (said : List (Except ExternError Output)) : Prop :=
  if task.core.waiting now then SaidFinal said
  else ∀ answer ∈ (ext.queued task.core.rtc).dropLast, task.role.returns answer = true

theorem popTask_drains (ext : Extern Rtc) (now : Instant) (taskId : Nat) (c : TaskContainer Rtc)
    (w : Worker Rtc) (said : List (Except ExternError Output)) :
    ∃ c', (w.popTask ext now taskId c).1.tasks.lookup taskId = some c' ∧
      ((c'.task.core.outputs = [] ∧
          SaidFinal (said ++ answers taskId (w.popTask ext now taskId c).2)) ↔
        Drainable ext now c.task said) := by
  unfold Drainable
  by_cases hw : c.task.core.waiting now = true
  · obtain ⟨c', hc', ho, hnone⟩ := popTask_waits ext taskId w hw
    exact ⟨c', hc', by simp [ho, hnone, hw]⟩
  · obtain ⟨c', hc', asked, last, rest, hqueue, hsaid, hasked, hlast, ho⟩ :=
      popTask_polls ext taskId w (Bool.not_eq_true _ ▸ hw)
    refine ⟨c', hc', ?_⟩
    rw [if_neg hw, ← drained_iff hqueue hasked hlast, ho, hsaid]
    simp [SaidFinal]

/-! ### The datagram a session is polled for -/

/-- What a datagram does to the session it is handed to. -/
theorem input_datagram {now : Instant} {src dst : SocketAddr} {buf : Bytes}
    {task task' : ComposeTask Rtc} {b : Bool}
    (h : task.input ext now (.io (.udpSocketRecv src dst buf)) = .ok (b, task')) :
    ∃ r, ext.receiveNew src dst buf = .ok r ∧ b = true ∧ task'.role = task.role ∧
      task'.core = { task.core with
        rtc := (ext.handleInput task.core.rtc (.receive now r)).2, timeout := none } := by
  have hcore : ∀ core core' : TaskCore Rtc, core.inputUdp ext now src dst buf = .ok core' →
      ∃ r, ext.receiveNew src dst buf = .ok r ∧ core' = { core with
        rtc := (ext.handleInput core.rtc (.receive now r)).2, timeout := none } := by
    intro core core' h
    unfold TaskCore.inputUdp at h
    split at h
    · cases h
    · rename_i r hr
      cases h
      exact ⟨r, hr, rfl⟩
  cases task with
  | whip task =>
      obtain ⟨x, hx, heq⟩ := except_map_ok.mp h
      obtain ⟨core, hu, rfl⟩ := except_map_ok.mp hx
      cases heq
      obtain ⟨r, hr, rfl⟩ := hcore _ _ hu
      exact ⟨r, hr, rfl, rfl, rfl⟩
  | whep task =>
      obtain ⟨x, hx, heq⟩ := except_map_ok.mp h
      obtain ⟨core, hu, rfl⟩ := except_map_ok.mp hx
      cases heq
      obtain ⟨r, hr, rfl⟩ := hcore _ _ hu
      exact ⟨r, hr, rfl, rfl, rfl⟩

/-- A datagram that has a session is handed to it, and the session is polled. -/
theorem handleDatagram_some {d : Datagram} {w u w' : Worker Rtc} {taskId : Nat}
    {found actions : List Action} {c : TaskContainer Rtc}
    (hslot : w.slot ext d = .ok (some taskId, u, found)) (hc : u.tasks.lookup taskId = some c)
    (h : w.handleDatagram ext d = .ok (w', actions)) :
    ∃ r task popped, ext.receiveNew d.remote u.udpSocketLocalAddr d.buf = .ok r ∧
      task.role = c.task.role ∧
      task.core = { c.task.core with
        rtc := (ext.handleInput c.task.core.rtc (.receive d.now r)).2, timeout := none } ∧
      popTask ext d.now taskId { c with task }
        { u with tasks := u.tasks.insert taskId { c with task } } = (w', popped) ∧
      actions = found ++
        .input taskId (.io (.udpSocketRecv d.remote u.udpSocketLocalAddr d.buf)) :: popped := by
  rw [handleDatagram, hslot] at h
  obtain ⟨⟨x, rest⟩, hrun, heq⟩ := except_map_ok.mp h
  cases heq
  obtain ⟨v, fed, acts, hin, hrest, rfl⟩ := forEach_cons_ok.mp hrun
  obtain ⟨v', popped, acts', hpop, hnil, rfl⟩ := forEach_cons_ok.mp hrest
  cases hnil
  rcases inputTask_ok hin with ⟨hnone, -, -⟩ | ⟨c', b, task, hc', hi, rfl, rfl⟩
  · rw [hc] at hnone
    cases hnone
  · rw [hc, Option.some.injEq] at hc'
    subst hc'
    obtain ⟨r, hr, -, hrole, hcore⟩ := input_datagram hi
    have hwrite : c.task.rtpWrite ext (.io (.udpSocketRecv d.remote u.udpSocketLocalAddr d.buf))
        = none := by
      cases c.task <;> rfl
    simp only [popOne, Table.lookup_insert_ite, if_true, Except.ok.injEq] at hpop
    exact ⟨r, task, popped, hr, hrole, hcore, hpop, by simp [hwrite]⟩

/--
Whether `pop_task` gets through all that a datagram makes of its session's engine: every
answer it then has queued, but the last, is one that an action is returned for at once.
-/
def clears (ext : Extern Rtc) (d : Datagram) (w : Worker Rtc) : Bool :=
  match w.slot ext d with
  | .ok (some taskId, u, _) =>
      match u.tasks.lookup taskId with
      | none => true
      | some c =>
          match ext.receiveNew d.remote u.udpSocketLocalAddr d.buf with
          | .error _ => true
          | .ok r =>
              (ext.queued (ext.handleInput c.task.core.rtc (.receive d.now r)).2).dropLast.all
                c.task.role.returns
  | _ => true

theorem handleDatagram_drains {d : Datagram} {w u w' : Worker Rtc} {taskId : Nat}
    {found actions : List Action} {c : TaskContainer Rtc}
    (hslot : w.slot ext d = .ok (some taskId, u, found)) (hc : u.tasks.lookup taskId = some c)
    (h : w.handleDatagram ext d = .ok (w', actions)) :
    ∃ c' popped, w'.tasks.lookup taskId = some c' ∧
      actions = found ++
        .input taskId (.io (.udpSocketRecv d.remote u.udpSocketLocalAddr d.buf)) :: popped ∧
      ((c'.task.core.outputs = [] ∧ SaidFinal (answers taskId popped)) ↔ w.clears ext d = true) := by
  obtain ⟨r, task, popped, hr, hrole, hcore, hpop, rfl⟩ := handleDatagram_some hslot hc h
  obtain ⟨c', hc', hiff⟩ := popTask_drains ext d.now taskId { c with task }
    { u with tasks := u.tasks.insert taskId { c with task } } []
  rw [hpop] at hc' hiff
  refine ⟨c', popped, hc', rfl, ?_⟩
  have hready : task.core.waiting d.now = false := by rw [hcore]; rfl
  rw [List.nil_append] at hiff
  rw [hiff, Drainable, if_neg (by simp [hready]), hcore, hrole]
  simp only [clears, hslot, hc, hr, List.all_eq_true]

end Worker

/-! ### A run of turns -/

namespace Action

/-- The session an action hands a datagram to. -/
def datagramFor : Action → Option Nat
  | .input taskId (.io (.udpSocketRecv _ _ _)) => some taskId
  | _ => none

/-- The engine of `taskId` says that nothing is left. -/
def Empties (taskId : Nat) (a : Action) : Prop :=
  ∃ answer, a = .polled taskId answer ∧ isFinal answer = true

theorem Empties.datagramFor_ne {taskId : Nat} {a : Action} (h : a.Empties taskId) :
    a.datagramFor ≠ some taskId := by
  obtain ⟨answer, rfl, -⟩ := h
  exact nofun

end Action

theorem Worker.SaidFinal.empties {taskId : Nat} {actions : List Action}
    (h : Worker.SaidFinal (answers taskId actions)) : ∃ a ∈ actions, a.Empties taskId := by
  obtain ⟨last, hlast, hfinal⟩ := h
  exact ⟨_, mem_answers.mp (List.mem_of_getLast? hlast), last, rfl, hfinal⟩

namespace Worker

/-- Polling hands out no datagrams. -/
theorem popTask_datagramFor (ext : Extern Rtc) (now : Instant) (taskId : Nat) (c : TaskContainer Rtc)
    (w : Worker Rtc) : ∀ a ∈ (w.popTask ext now taskId c).2, a.datagramFor = none := by
  have hturn : ∀ (answer : Option (Except ExternError Output)) (out : Option WebrtcTaskOutput),
      ∀ a ∈ popActions taskId answer out, a.datagramFor = none := by
    intro answer out a ha
    rcases mem_popActions.mp ha with ⟨x, -, rfl⟩ | ⟨o, -, rfl⟩
    · rfl
    · cases o with
      | io action => cases action <;> rfl
      | _ => rfl
  have hgrows : ∀ (actions : List Action) (answer : Option (Except ExternError Output))
      (out : Option WebrtcTaskOutput), (∀ a ∈ actions, a.datagramFor = none) →
      ∀ a ∈ actions ++ popActions taskId answer out, a.datagramFor = none :=
    fun _ answer out hactions => List.forall_mem_append.mpr ⟨hactions, hturn answer out⟩
  have hrule : ∃ c', (w.popTask ext now taskId c).1.tasks.lookup taskId = some c' ∧
      ∀ a ∈ (w.popTask ext now taskId c).2, a.datagramFor = none := popTask_calls
    (P := fun _ actions => ∀ a ∈ actions, a.datagramFor = none)
    (Q := fun _ actions => ∀ a ∈ actions, a.datagramFor = none)
    (fun task actions action _ h _ => hgrows actions (task.polled ext now) (some action) h)
    (fun task actions _ h _ => hgrows actions (task.polled ext now) none h) (by simp)
  obtain ⟨-, -, hnone⟩ := hrule
  exact hnone

/-- Only datagrams are handed out as datagrams. -/
theorem exec_datagramFor {op : Op Rtc} {w w' : Worker Rtc} {actions : List Action}
    (hop : ∀ d, op ≠ .datagram d) (h : w.exec ext op = .ok (w', actions)) :
    ∀ a ∈ actions, a.datagramFor = none := by
  cases op with
  | busEvent ev now =>
      obtain ⟨fed, hrun, rfl⟩ := handleBusEvent_ok h
      have hevent : ∀ taskId, (Action.input taskId (w.recipients ev).2).datagramFor = none := by
        intro taskId
        cases ev <;> rfl
      have hfed : ∀ a ∈ fed, a.datagramFor = none := by
        refine forEach_preserves (P := fun os _ => ∀ a ∈ os, a.datagramFor = none) ?_ hrun (by simp)
        intro taskId s t os bs hs hos
        refine List.forall_mem_append.mpr ⟨hos, ?_⟩
        rcases inputTask_ok hs with ⟨-, -, rfl⟩ | ⟨c, b, task, -, -, -, rfl⟩
        · exact nofun
        · refine List.forall_mem_cons.mpr ⟨hevent taskId, fun a ha => ?_⟩
          obtain ⟨r, -, rfl⟩ := Option.map_eq_some_iff.mp (Option.mem_toList.mp ha)
          rfl
      exact List.forall_mem_cons.mpr ⟨rfl, hfed⟩
  | request arrival =>
      obtain ⟨req, -, ⟨task, -, hadd⟩ | ⟨-, rfl⟩⟩ := handleRequest_ok h
      · cases hadd
        exact List.forall_mem_cons.mpr ⟨rfl, popTask_datagramFor _ _ _ _ _⟩
      · exact List.forall_mem_singleton.mpr rfl
  | tick order now =>
      obtain ⟨-, rfl⟩ := processTick_ok h
      exact nofun
  | pop taskId now =>
      change w.popOne ext now taskId = .ok (w', actions) at h
      rcases popOne_cases h with ⟨-, -, rfl⟩ | ⟨c, -, -, rfl⟩
      · exact nofun
      · exact popTask_datagramFor _ _ _ _ _
  | popEnded =>
      refine forEach_preserves (P := fun os _ => ∀ a ∈ os, a.datagramFor = none) ?_ h (by simp)
      intro taskId s t os bs hs hos
      obtain ⟨c, -, -, rfl⟩ := removeTask_ok.mp hs
      exact List.forall_mem_append.mpr ⟨hos, List.forall_mem_singleton.mpr rfl⟩
  | datagram d => exact absurd rfl (hop d)

theorem slot_datagramFor {d : Datagram} {w u : Worker Rtc} {found : Option Nat}
    {actions : List Action} (h : w.slot ext d = .ok (found, u, actions)) :
    ∀ a ∈ actions, a.datagramFor = none := by
  rcases slot_ok h with ⟨-, rfl⟩ | ⟨username, taskId, -, -, -, rfl⟩
  · exact nofun
  · exact List.forall_mem_singleton.mpr rfl

/-- A datagram that clears leaves its session's engine empty before the turn is over. -/
theorem handleDatagram_serial {d : Datagram} {w w' : Worker Rtc} {actions : List Action}
    (hclears : w.clears ext d = true) (h : w.handleDatagram ext d = .ok (w', actions)) :
    Serial Action.datagramFor Action.Empties actions := by
  obtain ⟨found, u, acts, hslot, hcases⟩ := handleDatagram_ok h
  have hacts := slot_datagramFor hslot
  cases found with
  | none =>
      have hquiet : actions = acts := by
        rw [handleDatagram, hslot] at h
        cases h
        rfl
      exact hquiet ▸ serial_of_none hacts
  | some taskId =>
      cases hc : u.tasks.lookup taskId with
      | none =>
          have hquiet : actions = acts := by
            rw [handleDatagram, hslot] at h
            simp only [forEach, inputTask, popOne, hc, Except.map, Except.ok.injEq,
              Prod.mk.injEq] at h
            simpa using h.2.symm
          exact hquiet ▸ serial_of_none hacts
      | some c =>
          obtain ⟨r, task, popped, -, -, -, hpop, rfl⟩ := handleDatagram_some hslot hc h
          obtain ⟨c', popped', -, heq, hiff⟩ := handleDatagram_drains hslot hc h
          have hsame : popped' = popped := by simpa using (List.append_cancel_left heq).symm
          subst hsame
          obtain ⟨a, ha, hempties⟩ := (hiff.mpr hclears).2.empties
          have hpopped : ∀ a ∈ popped', a.datagramFor = none := by
            have := popTask_datagramFor ext d.now taskId { c with task }
              { u with tasks := u.tasks.insert taskId { c with task } }
            rwa [hpop] at this
          refine (serial_of_none hacts).append ⟨?_, serial_of_none hpopped⟩
          rintro t ht
          cases ht
          exact settles_of_mem hpopped ha hempties

/-- Whether every datagram of a run is got through like that. -/
def allClear (ext : Extern Rtc) : List (Op Rtc) → Worker Rtc → Bool
  | [], _ => true
  | op :: rest, w =>
      (match op with
        | .datagram d => w.clears ext d
        | _ => true) &&
      match w.exec ext op with
      | .error _ => true
      | .ok (v, _) => allClear ext rest v

theorem exec_serial {ops : List (Op Rtc)} :
    ∀ {w w' : Worker Rtc} {actions : List Action}, allClear ext ops w = true →
      forEach (exec ext) ops w = .ok (w', actions) →
      Serial Action.datagramFor Action.Empties actions := by
  induction ops with
  | nil =>
      intro w w' actions _ h
      cases h
      trivial
  | cons op rest ih =>
      intro w w' actions hall h
      obtain ⟨v, acts, acts', hfirst, hrest, rfl⟩ := forEach_cons_ok.mp h
      simp only [allClear, hfirst, Bool.and_eq_true] at hall
      refine Serial.append ?_ (ih hall.2 hrest)
      by_cases hop : ∃ d, op = .datagram d
      · obtain ⟨d, rfl⟩ := hop
        exact handleDatagram_serial hall.1 hfirst
      · exact serial_of_none (exec_datagramFor (fun d hd => hop ⟨d, hd⟩) hfirst)

end Worker

/--
**When a session is drained.**  `pop_task` leaves a session's queue empty and its engine
with nothing more to say exactly if, where the session waits for its deadline, the engine
had said so before, and where it does not, every answer queued but the last is one that
an action is returned for at once.  A datagram is the second case, for what the engine has
queued once it has taken it.  And where all datagrams of a run are got through like that,
no session is handed one before its engine has said that nothing is left of the one before.
-/
theorem sessions_drained_iff (ext : Extern Rtc) :
    (∀ (now : Instant) (taskId : Nat) (c : TaskContainer Rtc) (w : Worker Rtc)
        (said : List (Except ExternError Output)),
      ∃ c', (w.popTask ext now taskId c).1.tasks.lookup taskId = some c' ∧
        ((c'.task.core.outputs = [] ∧
            Worker.SaidFinal (said ++ answers taskId (w.popTask ext now taskId c).2)) ↔
          Worker.Drainable ext now c.task said)) ∧
    (∀ (d : Worker.Datagram) (w u w' : Worker Rtc) (taskId : Nat) (found actions : List Action)
        (c : TaskContainer Rtc), w.slot ext d = .ok (some taskId, u, found) →
      u.tasks.lookup taskId = some c → w.handleDatagram ext d = .ok (w', actions) →
      ∃ c' popped, w'.tasks.lookup taskId = some c' ∧
        actions = found ++
          .input taskId (.io (.udpSocketRecv d.remote u.udpSocketLocalAddr d.buf)) :: popped ∧
        ((c'.task.core.outputs = [] ∧ Worker.SaidFinal (answers taskId popped)) ↔
          w.clears ext d = true)) ∧
    (∀ (ops : List (Op Rtc)) (w w' : Worker Rtc) (actions : List Action),
      Worker.allClear ext ops w = true → forEach (Worker.exec ext) ops w = .ok (w', actions) →
      ∀ (taskId : Nat) (src src' dst dst' : SocketAddr) (buf buf' : Bytes)
        (pre mid post : List Action),
        actions = pre ++ .input taskId (.io (.udpSocketRecv src dst buf)) ::
          (mid ++ .input taskId (.io (.udpSocketRecv src' dst' buf')) :: post) →
        ∃ answer ∈ answers taskId mid, isFinal answer = true) := by
  refine ⟨Worker.popTask_drains ext, ?_, ?_⟩
  · intro d w u w' taskId found actions c hslot hc h
    exact Worker.handleDatagram_drains hslot hc h
  · intro ops w w' actions hall h taskId src src' dst dst' buf buf' pre mid post hsplit
    have hserial := Worker.exec_serial hall h
    rw [hsplit] at hserial
    obtain ⟨a, ha, answer, rfl, hfinal⟩ := hserial.between (k := taskId) rfl rfl
      fun a ha => ha.datagramFor_ne
    exact ⟨answer, mem_answers.mpr ha, hfinal⟩

deriving instance DecidableEq for Action

/-- What handling one audio packet leaves, and what a connected publisher does about it. -/
def Script.relayedPacket (payload : Bytes) : List Action :=
  [.polled 0 (.ok (.event (.rtpPacket (packet 111 payload)))),
    .broadcast 0 (.trackMedia (.fromRaw 8 (packet 111 payload))),
    .polled 0 (.ok (.timeout 0))]

/-- A connected publisher is handed a packet, and when it is done with it, another. -/
theorem sessions_drained_packets :
    ∃ w' actions mid post,
      forEach (Worker.exec Script.engine) [.datagram (Script.datagram 7 [4, 111, 1]),
        .datagram (Script.datagram 7 [4, 111, 2])] Script.boundPublisher.1 = .ok (w', actions) ∧
      actions = [] ++ .input 0 (.io (.udpSocketRecv (Script.peer 7) Script.addr [4, 111, 1])) ::
        (mid ++ .input 0 (.io (.udpSocketRecv (Script.peer 7) Script.addr [4, 111, 2])) :: post) ∧
      ∃ answer ∈ answers 0 mid, isFinal answer = true := by
  have hclear : Worker.allClear Script.engine [.datagram (Script.datagram 7 [4, 111, 1]),
      .datagram (Script.datagram 7 [4, 111, 2])] Script.boundPublisher.1 = true := by
    decide +kernel
  have hactions : (forEach (Worker.exec Script.engine) [.datagram (Script.datagram 7 [4, 111, 1]),
      .datagram (Script.datagram 7 [4, 111, 2])] Script.boundPublisher.1).map (·.2)
      = .ok ([] ++ .input 0 (.io (.udpSocketRecv (Script.peer 7) Script.addr [4, 111, 1])) ::
          (Script.relayedPacket [1] ++
            .input 0 (.io (.udpSocketRecv (Script.peer 7) Script.addr [4, 111, 2])) ::
              Script.relayedPacket [2])) := by
    decide +kernel
  obtain ⟨⟨w', actions⟩, hrun, heq⟩ := except_map_ok.mp hactions
  exact ⟨w', actions, _, _, hrun, heq,
    (sessions_drained_iff Script.engine).2.2 _ _ _ _ hclear hrun 0 _ _ _ _ _ _ _ _ _ heq⟩

/-- A publisher whose engine still has to report its two sections and the state of its ICE. -/
def Script.negotiated : List (Op Script) :=
  [.request (arrival 1 "/whip/endpoint" [0x76] "abc"
      [.event (.mediaAdded "a" .audio), .event (.mediaAdded "v" .video),
        .event (.iceConnectionStateChange .checking)]),
    .datagram (datagram 7 [0, 97, 98, 99])]

/--
That publisher is handed a packet and polled, and the packet stays in its engine: the
polling stopped at the event before it.  It is handed the next packet all the same.
-/
theorem sessions_undrained_publisher :
    let r := Script.play (Script.negotiated ++ [.datagram (Script.datagram 7 [4, 111, 1])])
    let r' := Script.play (Script.negotiated ++ [.datagram (Script.datagram 7 [4, 111, 1]),
      .datagram (Script.datagram 7 [4, 111, 2])])
    (∃ c, r.1.tasks.lookup 0 = some c ∧
      .ok (.event (.rtpPacket (Script.packet 111 [1]))) ∈ Script.engine.queued c.task.core.rtc) ∧
    ¬ Worker.SaidFinal (answers 0 r.2) ∧
    .input 0 (.io (.udpSocketRecv (Script.peer 7) Script.addr [4, 111, 2])) ∈ r'.2 := by
  refine ⟨?_, ?_, by decide +kernel⟩
  · have hqueued : ((Script.play (Script.negotiated ++
        [.datagram (Script.datagram 7 [4, 111, 1])])).1.tasks.lookup 0).map
        (fun c => Script.engine.queued c.task.core.rtc)
        = some [.ok (.event (.rtpPacket (Script.packet 111 [1]))), .ok (.timeout 0)] := by
      decide +kernel
    obtain ⟨c, hc, hq⟩ := Option.map_eq_some_iff.mp hqueued
    exact ⟨c, hc, by rw [hq]; exact List.mem_cons_self⟩
  · have hlast : (answers 0 (Script.play (Script.negotiated ++
        [.datagram (Script.datagram 7 [4, 111, 1])])).2).getLast?
        = some (.ok (.event (.iceConnectionStateChange .checking))) := by
      decide +kernel
    rintro ⟨last, hlast', hfinal⟩
    rw [hlast, Option.some.injEq] at hlast'
    subst hlast'
    cases hfinal

end MediaServer
