/-
Everything a session returns is a translation of what its engine answers.

A session is called in three ways, at any time and in any order.  Two of them leave its
queue of owed actions alone; the third obeys the law of `pop_action`, that what a call
returns and the queue it leaves are the queue it found and the translation of the answer
it polled.  Added up over any number of calls, nothing is lost, repeated or overtaken.
-/
import MediaServer.Proofs.Steps
import MediaServer.Script

namespace MediaServer

open Lib

variable {Rtc : Type} {ext : Extern Rtc}

/-! ### Calls on a session -/

/-- A call a worker may make on a session. -/
inductive Call
  | tick (now : Instant)
  | input (now : Instant) (event : WebrtcTaskInput)
  | popAction (now : Instant)

/-- What a call brings to light: an answer it had the engine give, an action it returned. -/
inductive Seen
  | polled (answer : Except ExternError Output)
  | returned (out : WebrtcTaskOutput)

namespace Seen

def answer : Seen → Option (Except ExternError Output)
  | .polled answer => some answer
  | .returned _ => none

def out : Seen → Option WebrtcTaskOutput
  | .polled _ => none
  | .returned out => some out

/-- The answers polled so far, in order. -/
def answers (log : List Seen) : List (Except ExternError Output) :=
  log.filterMap answer

/-- The actions returned so far, in order. -/
def outs (log : List Seen) : List WebrtcTaskOutput :=
  log.filterMap out

theorem answers_append (as bs : List Seen) : answers (as ++ bs) = answers as ++ answers bs :=
  List.filterMap_append

theorem outs_append (as bs : List Seen) : outs (as ++ bs) = outs as ++ outs bs :=
  List.filterMap_append

/-- What a call of `pop_action` brings to light. -/
def ofPop (answer : Option (Except ExternError Output)) (out : Option WebrtcTaskOutput) :
    List Seen :=
  (answer.map .polled).toList ++ (out.map .returned).toList

theorem answers_ofPop (answer : Option (Except ExternError Output))
    (out : Option WebrtcTaskOutput) : answers (ofPop answer out) = answer.toList := by
  cases answer <;> cases out <;> rfl

theorem outs_ofPop (answer : Option (Except ExternError Output))
    (out : Option WebrtcTaskOutput) : outs (ofPop answer out) = out.toList := by
  cases answer <;> cases out <;> rfl

end Seen

namespace ComposeTask

def call (ext : Extern Rtc) : Call → ComposeTask Rtc → Except Panic (ComposeTask Rtc × List Seen)
  | .tick now, task => .ok ((task.tick ext now).2, [])
  | .input now event, task => (task.input ext now event).map fun r => (r.2, [])
  | .popAction now, task =>
      .ok ((task.popAction ext now).2,
        Seen.ofPop (task.polled ext now) (task.popAction ext now).1)

/-! ### What each call keeps -/

/-- One call: who the session is stays, and what is returned and owed grows by a translation. -/
theorem call_conserves {call : Call} {task task' : ComposeTask Rtc} {seen : List Seen}
    (h : task.call ext call = .ok (task', seen)) :
    task'.role = task.role ∧
      Seen.outs seen ++ task'.core.outputs
        = task.core.outputs ++ (Seen.answers seen).flatMap (task.role.translate ext) := by
  cases call with
  | tick now =>
      cases h
      have hq := tick_quiet ext now task
      exact ⟨hq.role, by simp [Seen.outs, Seen.answers, hq.core.outputs]⟩
  | input now event =>
      obtain ⟨⟨b, task₁⟩, hi, heq⟩ := except_map_ok.mp h
      cases heq
      have hq := input_quiet hi
      exact ⟨hq.role, by simp [Seen.outs, Seen.answers, hq.core.outputs]⟩
  | popAction now =>
      cases h
      have hp : Popped ext now task (task.popAction ext now).1 (task.popAction ext now).2 :=
        popAction_spec rfl
      refine ⟨hp.role, ?_⟩
      rw [Seen.outs_ofPop, Seen.answers_ofPop, hp.core.conserves, polled]
      cases task.core.polled ext now <;> simp

/-- Any calls: what was returned and what is owed is what was owed and what was translated. -/
theorem calls_conserve {calls : List Call} {task task' : ComposeTask Rtc} {log : List Seen}
    (h : forEach (call ext) calls task = .ok (task', log)) :
    task'.role = task.role ∧
      Seen.outs log ++ task'.core.outputs
        = task.core.outputs ++ (Seen.answers log).flatMap (task.role.translate ext) := by
  refine forEach_preserves (P := fun log task' => task'.role = task.role ∧
    Seen.outs log ++ task'.core.outputs
      = task.core.outputs ++ (Seen.answers log).flatMap (task.role.translate ext)) ?_ h
    ⟨rfl, by simp [Seen.outs, Seen.answers]⟩
  rintro c s t log seen hcall ⟨hrole, hlaw⟩
  obtain ⟨hrole', hlaw'⟩ := call_conserves hcall
  refine ⟨hrole'.trans hrole, ?_⟩
  calc Seen.outs (log ++ seen) ++ t.core.outputs
      = Seen.outs log ++ (Seen.outs seen ++ t.core.outputs) := by
        rw [Seen.outs_append, List.append_assoc]
    _ = (Seen.outs log ++ s.core.outputs)
          ++ (Seen.answers seen).flatMap (task.role.translate ext) := by
        rw [hlaw', hrole, List.append_assoc]
    _ = task.core.outputs ++ (Seen.answers (log ++ seen)).flatMap (task.role.translate ext) := by
        rw [hlaw, Seen.answers_append, List.flatMap_append, List.append_assoc]

end ComposeTask

/-! ### From the request on -/

/--
**A session's actions are the translation of its engine's answers.**  Take any session a
request has opened and any calls on it, at any times and in any order.  What it has
returned so far, followed by what it owes, is the answer to the request, followed by
what the answers polled so far stand for, one after another and in the order they were
polled.
-/
theorem session_outputs_translated (ext : Extern Rtc) (config : RtcConfig Rtc)
    (req : HttpRequest) (localAddrs : List SocketAddr) :
    (∀ task, WhipServerTask.new ext config req localAddrs = .ok task →
      ∃ answer, ∀ calls task' log,
        forEach (ComposeTask.call ext) calls (.whip task) = .ok (task', log) →
        Seen.outs log ++ task'.core.outputs
          = .io (.httpResponse (TaskCore.answerResponse "/whip/endpoint/1234" req answer)) ::
            (Seen.answers log).flatMap (Role.translate ext
              (.publisher (trackIdBuilder ext (getHttpAuth req) .audio)
                (trackIdBuilder ext (getHttpAuth req) .video)))) ∧
    (∀ task, WhepServerTask.new ext config req localAddrs = .ok task →
      ∃ answer, ∀ calls task' log,
        forEach (ComposeTask.call ext) calls (.whep task) = .ok (task', log) →
        Seen.outs log ++ task'.core.outputs
          = .io (.httpResponse (TaskCore.answerResponse "/whep/endpoint/1234" req answer)) ::
            (Seen.answers log).flatMap (Role.translate ext (.viewer (getHttpAuth req)))) := by
  constructor
  · intro task hnew
    obtain ⟨core, hcore, rfl⟩ := except_map_ok.mp hnew
    obtain ⟨-, -, -, answer, hout⟩ := TaskCore.new_ok ext hcore
    refine ⟨answer, fun calls task' log hcalls => ?_⟩
    have hlaw := (ComposeTask.calls_conserve hcalls).2
    simp only [ComposeTask.core, hout] at hlaw
    exact hlaw
  · intro task hnew
    obtain ⟨core, hcore, rfl⟩ := except_map_ok.mp hnew
    obtain ⟨-, -, -, answer, hout⟩ := TaskCore.new_ok ext hcore
    refine ⟨answer, fun calls task' log hcalls => ?_⟩
    have hlaw := (ComposeTask.calls_conserve hcalls).2
    simp only [ComposeTask.core, hout] at hlaw
    exact hlaw

namespace Script

def heardBy (now : Instant) (buf : Bytes) : Call :=
  .input now (.io (.udpSocketRecv (peer 7) addr buf))

/-- A publisher connects, gives a packet and is gone. -/
def publishing : List Call :=
  [.popAction 0, heardBy 1 [1], .popAction 1, .tick 2, heardBy 2 [4, 111, 9], .popAction 3,
    .popAction 3, .popAction 3, heardBy 4 [5], .popAction 4]

/-- A viewer connects, wants a keyframe and is gone. -/
def watching : List Call :=
  [.popAction 0, heardBy 1 [1], .popAction 1, .popAction 1, .tick 2, heardBy 2 [6], .popAction 3,
    .popAction 3, heardBy 4 [5], .popAction 4]

/-- What is read off the calls of a session that were computed is true of them. -/
theorem sees {Task : Type} {new : Except Panic Task} {wrap : Task → ComposeTask Script}
    {calls : List Call} {answers : List (Except ExternError Output)}
    (h : (new.map fun task => (forEach (ComposeTask.call engine) calls (wrap task)).map fun r =>
      Seen.answers r.2) = .ok (.ok answers)) :
    ∃ task task' log, new = .ok task ∧
      forEach (ComposeTask.call engine) calls (wrap task) = .ok (task', log) ∧
      Seen.answers log = answers := by
  obtain ⟨task, hnew, hcalls⟩ := except_map_ok.mp h
  obtain ⟨⟨task', log⟩, hlog, hanswers⟩ := except_map_ok.mp hcalls
  exact ⟨task, task', log, hnew, hlog, hanswers⟩

end Script

/-- Called at random, each of them returns five actions: those its engine's answers stand for. -/
theorem session_outputs_translated_both :
    (∃ task task' log, WhipServerTask.new Script.engine { ufrag := "abc", rtc := [] }
        (Script.request 1 "/whip/endpoint" [0x76]) [Script.addr] = .ok task ∧
      forEach (ComposeTask.call Script.engine) Script.publishing (.whip task) = .ok (task', log) ∧
      ∃ answer, Seen.outs log ++ task'.core.outputs
        = [.io (.httpResponse (TaskCore.answerResponse "/whip/endpoint/1234"
            (Script.request 1 "/whip/endpoint" [0x76]) answer)),
          .publishTrack 8, .publishTrack 9, .trackMedia (.fromRaw 8 (Script.packet 111 [9])),
          .taskEnded]) ∧
    ∃ task task' log, WhepServerTask.new Script.engine { ufrag := "abc", rtc := [] }
        (Script.request 1 "/whep/endpoint" [0x76]) [Script.addr] = .ok task ∧
      forEach (ComposeTask.call Script.engine) Script.watching (.whep task) = .ok (task', log) ∧
      ∃ answer, Seen.outs log ++ task'.core.outputs
        = [.io (.httpResponse (TaskCore.answerResponse "/whep/endpoint/1234"
            (Script.request 1 "/whep/endpoint" [0x76]) answer)),
          .subscribeTrack 8, .subscribeTrack 9, .requestKeyframeTrack 9 .pli, .taskEnded] := by
  constructor
  · have hnew : ((WhipServerTask.new Script.engine { ufrag := "abc", rtc := [] }
        (Script.request 1 "/whip/endpoint" [0x76]) [Script.addr]).map fun task =>
          (forEach (ComposeTask.call Script.engine) Script.publishing (.whip task)).map fun r =>
            Seen.answers r.2)
        = .ok (.ok [.ok (.event .connected), .ok (.event (.rtpPacket (Script.packet 111 [9]))),
            .ok (.event (.iceConnectionStateChange .disconnected))]) := by
      decide +kernel
    obtain ⟨task, task', log, htask, hlog, hanswers⟩ := Script.sees hnew
    obtain ⟨answer, hlaw⟩ := (session_outputs_translated Script.engine _ _ _).1 task htask
    refine ⟨task, task', log, htask, hlog, answer, ?_⟩
    have hchannel : getHttpAuth (Script.request 1 "/whip/endpoint" [0x76]) = "demo" := by
      decide +kernel
    rw [hlaw _ task' log hlog, hanswers, hchannel]
    rfl
  · have hnew : ((WhepServerTask.new Script.engine { ufrag := "abc", rtc := [] }
        (Script.request 1 "/whep/endpoint" [0x76]) [Script.addr]).map fun task =>
          (forEach (ComposeTask.call Script.engine) Script.watching (.whep task)).map fun r =>
            Seen.answers r.2)
        = .ok (.ok [.ok (.event .connected), .ok (.event (.keyframeRequest "v" .pli)),
            .ok (.event (.iceConnectionStateChange .disconnected))]) := by
      decide +kernel
    obtain ⟨task, task', log, htask, hlog, hanswers⟩ := Script.sees hnew
    obtain ⟨answer, hlaw⟩ := (session_outputs_translated Script.engine _ _ _).2 task htask
    refine ⟨task, task', log, htask, hlog, answer, ?_⟩
    have hchannel : getHttpAuth (Script.request 1 "/whep/endpoint" [0x76]) = "demo" := by
      decide +kernel
    rw [hlaw _ task' log hlog, hanswers, hchannel]
    rfl

end MediaServer
