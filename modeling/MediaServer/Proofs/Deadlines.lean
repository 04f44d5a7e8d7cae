/-
Whether an input is answered at the next poll.

A session that knows of a deadline does not ask its engine for anything before it.  An
input that reaches the engine gives it something to say, so every branch that reaches it
forgets the deadline, and the next poll asks; except one.  A publisher that has its
engine request a keyframe keeps the deadline, and if that is still ahead the request
waits for it.
-/
import MediaServer.Proofs.Draining
import MediaServer.Proofs.Translation

namespace MediaServer

open Lib

variable {Rtc : Type} {ext : Extern Rtc}

/-! ### Inputs that reach the engine -/

def WebrtcTaskInput.isKeyframeRequest : WebrtcTaskInput → Bool
  | .requestKeyframeTrack _ _ => true
  | _ => false

namespace ComposeTask

/-- Whether an input calls into the engine: not every packet or keyframe request does. -/
def actsOnRtc (ext : Extern Rtc) (event : WebrtcTaskInput) (task : ComposeTask Rtc) : Bool :=
  match task, event with
  | _, .io (.udpSocketRecv _ _ _) => true
  | .whep task, .trackMedia media => (task.rtpWrite ext media).isSome
  | .whip task, .requestKeyframeTrack trackId _ =>
      trackId = task.videoTrackId &&
        (task.videoMid.bind fun mid => ext.streamRxByMid task.rtc mid).isSome
  | _, _ => false

/-- An input that reaches the engine has the session forget its deadline, a keyframe request apart. -/
theorem input_timeout {now : Instant} {event : WebrtcTaskInput} {task task' : ComposeTask Rtc}
    {b : Bool} (h : task.input ext now event = .ok (b, task'))
    (hacts : task.actsOnRtc ext event = true) :
    task'.core.timeout = if event.isKeyframeRequest then task.core.timeout else none := by
  cases event with
  | io event =>
      cases event with
      | httpRequest req => cases task <;> cases hacts
      | udpSocketRecv src dst buf =>
          obtain ⟨r, -, -, -, hcore⟩ := Worker.input_datagram h
          rw [hcore]
          rfl
  | trackMedia media =>
      rcases input_writes h with ⟨hnone, -⟩ | ⟨viewer, mid, write, stream, -, -, -, rfl⟩
      · cases task with
        | whip task => cases hacts
        | whep task =>
            rw [rtpWrite, Option.map_eq_none_iff] at hnone
            simp [actsOnRtc, hnone] at hacts
      · rfl
  | requestKeyframeTrack trackId kind =>
      cases task with
      | whep task => cases hacts
      | whip task =>
          obtain ⟨⟨b', task₁⟩, hi, heq⟩ := except_map_ok.mp h
          cases heq
          unfold WhipServerTask.input at hi
          simp only at hi
          split at hi
          · split at hi
            · split at hi
              · cases hi
                rfl
              · cases hi
            · cases hi
              rfl
          · cases hi
            rfl

/-! ### The next poll -/

/-- As many polls as actions are owed, at any times, return these and change nothing else. -/
theorem calls_owed (ext : Extern Rtc) {instants : List Instant} :
    ∀ {task : ComposeTask Rtc}, instants.length = task.core.outputs.length →
      ∃ task' log, forEach (call ext) (instants.map .popAction) task = .ok (task', log) ∧
        task'.core = { task.core with outputs := [] } := by
  induction instants with
  | nil =>
      intro task hlength
      have hnil : task.core.outputs = [] := List.length_eq_zero_iff.mp hlength.symm
      exact ⟨task, [], rfl, by rw [← hnil]⟩
  | cons now rest ih =>
      intro task hlength
      have hpop : task.popAction ext now = ((task.popAction ext now).1, (task.popAction ext now).2) :=
        rfl
      rcases popAction_cases hpop with ⟨o, owed, ho, -, hcore⟩ | ⟨ho, -, -, -⟩ | ⟨ho, -, -⟩
      · have hrest : rest.length = (task.popAction ext now).2.core.outputs.length := by
          rw [hcore]
          rw [ho] at hlength
          simpa using hlength
        obtain ⟨task', log, hrun, hcore'⟩ := ih hrest
        refine ⟨task', _, forEach_cons_ok.mpr ⟨_, _, log, rfl, hrun, rfl⟩, ?_⟩
        rw [hcore', hcore]
      · rw [ho] at hlength
        cases hlength
      · rw [ho] at hlength
        cases hlength

/--
The engine is asked by the first poll, at `now` or any later time, that finds no action
owed, whenever those that came before it were.
-/
def Prompt (ext : Extern Rtc) (now : Instant) (task : ComposeTask Rtc) : Prop :=
  ∀ (instants : List Instant) (later : Instant), instants.length = task.core.outputs.length →
    now ≤ later → ∃ task' log, forEach (call ext) (instants.map .popAction) task = .ok (task', log) ∧
      task'.core.outputs = [] ∧ task'.polled ext later = some (ext.pollOutput task.core.rtc).1

theorem prompt_iff {now : Instant} {task : ComposeTask Rtc} :
    task.Prompt ext now ↔ task.core.waiting now = false := by
  constructor
  · intro h
    obtain ⟨task', log, hrun, ho, hpolled⟩ :=
      h (List.replicate task.core.outputs.length now) now List.length_replicate (Nat.le_refl now)
    obtain ⟨task₁, log₁, hrun₁, hcore⟩ := calls_owed ext
      (List.length_replicate (n := task.core.outputs.length) (a := now))
    rw [hrun, Except.ok.injEq, Prod.mk.injEq] at hrun₁
    obtain ⟨rfl, -⟩ := hrun₁
    by_contra hw
    have hwaiting : task'.core.waiting now = true := by
      rw [hcore]
      exact Bool.not_eq_false _ ▸ hw
    rw [polled, TaskCore.polled, if_neg (by simp [hwaiting])] at hpolled
    cases hpolled
  · intro hw instants later hlength hle
    obtain ⟨task', log, hrun, hcore⟩ := calls_owed ext hlength
    have hready : task'.core.waiting later = false := by
      rw [hcore]
      unfold TaskCore.waiting at hw ⊢
      cases ht : task.core.timeout with
      | none => simp
      | some timeout =>
          simp only [ht, decide_eq_false_iff_not, gt_iff_lt, not_lt] at hw ⊢
          exact hw.trans hle
    refine ⟨task', log, hrun, by rw [hcore], ?_⟩
    rw [polled, TaskCore.polled, if_pos ⟨by rw [hcore], hready⟩, hcore]

end ComposeTask

/--
**When an input is answered at the next poll.**  An input that reaches the engine at some
time is followed up by the next poll that finds nothing owed, at that time or later,
exactly if it is no keyframe request or the session knows of no deadline still ahead.
-/
theorem input_prompt_iff {now : Instant} {event : WebrtcTaskInput} {task task' : ComposeTask Rtc}
    (h : task.input ext now event = .ok (true, task'))
    (hacts : task.actsOnRtc ext event = true) :
    task'.Prompt ext now ↔
      ¬ (event.isKeyframeRequest = true ∧ ∃ timeout, task.core.timeout = some timeout ∧
        now < timeout) := by
  rw [ComposeTask.prompt_iff, TaskCore.waiting, ComposeTask.input_timeout h hacts]
  cases event.isKeyframeRequest with
  | false => simp
  | true =>
      cases task.core.timeout with
      | none => simp
      | some timeout => simp

/-- A publisher that waits for the instant 10. -/
def Script.waitingPublisher : WhipServerTask Script :=
  { iceUfrag := "abc", timeout := some 10, rtc := [], outputs := [], audioMid := none,
    videoMid := some "v", audioTrackId := 8, videoTrackId := 9 }

/-- A datagram at the instant 3 is followed up at once, the deadline 10 notwithstanding. -/
theorem input_prompt_datagram :
    ∃ task', (ComposeTask.whip Script.waitingPublisher).input Script.engine 3
        (.io (.udpSocketRecv (Script.peer 7) Script.addr [1])) = .ok (true, task') ∧
      task'.Prompt Script.engine 3 := by
  have hacts : (ComposeTask.whip Script.waitingPublisher).actsOnRtc Script.engine
      (.io (.udpSocketRecv (Script.peer 7) Script.addr [1])) = true := rfl
  refine ⟨_, rfl, (input_prompt_iff rfl hacts).mpr ?_⟩
  rintro ⟨hkeyframe, -⟩
  cases hkeyframe

/-- The scripted engine, with a stream for every section: a keyframe request is sent as one byte. -/
def Script.requester : Extern Script :=
  { Script.engine with
    streamRxByMid := fun script _ => some
      { requestKeyframe := fun _ => script ++
          [.transmit { source := Script.addr, destination := Script.peer 7, contents := [80] }] } }

/--
A publisher is polled until its engine names the instant 10.  A keyframe is requested of
it at the instant 3; the engine has the request ready to send, and the next poll does not
ask for it.
-/
theorem keyframe_request_waits :
    ∃ task task' task'' log,
      WhipServerTask.new Script.requester
        { ufrag := "abc", rtc := [.event (.mediaAdded "v" .video), .timeout 10] }
        (Script.request 1 "/whip/endpoint" [0x76]) [Script.addr] = .ok task ∧
      forEach (ComposeTask.call Script.requester) [.popAction 0, .popAction 0, .popAction 0]
        (.whip task) = .ok (task', log) ∧
      task'.input Script.requester 3 (.requestKeyframeTrack 9 .pli) = .ok (true, task'') ∧
      task'.actsOnRtc Script.requester (.requestKeyframeTrack 9 .pli) = true ∧
      task''.core.outputs = [] ∧ (task''.popAction Script.requester 3).1 = none ∧
      Script.requester.queued task''.core.rtc = [.ok (.transmit
        { source := Script.addr, destination := Script.peer 7, contents := [80] }), .ok (.timeout 0)] ∧
      ¬ task''.Prompt Script.requester 3 := by
  have hrun : ((WhipServerTask.new Script.requester
      { ufrag := "abc", rtc := [.event (.mediaAdded "v" .video), .timeout 10] }
      (Script.request 1 "/whip/endpoint" [0x76]) [Script.addr]).map fun task =>
        (forEach (ComposeTask.call Script.requester) [.popAction 0, .popAction 0, .popAction 0]
          (.whip task)).map fun r =>
            (r.1.actsOnRtc Script.requester (.requestKeyframeTrack 9 .pli),
              (r.1.input Script.requester 3 (.requestKeyframeTrack 9 .pli)).map fun q =>
                decide (q.1 = true ∧ q.2.core.outputs = [] ∧
                  (q.2.popAction Script.requester 3).1 = none ∧ q.2.core.waiting 3 = true ∧
                  Script.requester.queued q.2.core.rtc = [.ok (.transmit
                    { source := Script.addr, destination := Script.peer 7, contents := [80] }),
                    .ok (.timeout 0)])))
      = .ok (.ok (true, .ok true)) := by
    decide +kernel
  obtain ⟨task, htask, hcalls⟩ := except_map_ok.mp hrun
  obtain ⟨⟨task', log⟩, hlog, hpair⟩ := except_map_ok.mp hcalls
  obtain ⟨hacts, hinput⟩ := Prod.mk.inj hpair
  obtain ⟨⟨b, task''⟩, hin, hfacts⟩ := except_map_ok.mp hinput
  obtain ⟨rfl, ho, hpop, hwaiting, hqueued⟩ := of_decide_eq_true hfacts
  refine ⟨task, task', task'', log, htask, hlog, hin, hacts, ho, hpop, hqueued, ?_⟩
  rw [ComposeTask.prompt_iff, hwaiting]
  simp

end MediaServer
