/-
What one input to one session can do to the rest of a worker.

Handing a session an input is the only place where code on behalf of one session runs
in the middle of work for the others: a pass over the datagrams, or over the consumers
of a channel.  If it returns, nothing but that session has changed.  The engine may
refuse the datagram's contents, have no stream for a packet, or fail to write it, and
the session logs that and goes on.

Two answers are not logged but unwrapped, and they end the worker: a datagram that
`Receive::new` does not recognise, and a keyframe request for a media section that has
no stream.  `Tolerated` is the condition that leaves these two out.
-/
import MediaServer.Proofs.Kinds
import MediaServer.Proofs.Teardown

namespace MediaServer

open Lib

variable {Rtc : Type} (ext : Extern Rtc)

namespace ComposeTask

/-- The session's answer to this input does not depend on a call that is unwrapped and fails. -/
def Tolerated (task : ComposeTask Rtc) : WebrtcTaskInput → Prop
  | .io (.udpSocketRecv src dst buf) => ∃ r, ext.receiveNew src dst buf = .ok r
  | .requestKeyframeTrack trackId _ =>
      match task with
      | .whip task =>
          trackId = task.videoTrackId → ∀ mid, task.videoMid = some mid →
            ∃ rx, ext.streamRxByMid task.rtc mid = some rx
      | .whep _ => True
  | _ => True

variable {ext}

theorem inputUdp_ok_iff {now : Instant} {src dst : SocketAddr} {buf : Bytes}
    {task : TaskCore Rtc} :
    (∃ task', task.inputUdp ext now src dst buf = .ok task') ↔
      ∃ r, ext.receiveNew src dst buf = .ok r := by
  unfold TaskCore.inputUdp
  cases ext.receiveNew src dst buf <;> simp

/-- An input that is the session's business is taken exactly if it is tolerated. -/
theorem input_ok_iff {now : Instant} {event : WebrtcTaskInput} {task : ComposeTask Rtc}
    (htakes : task.role.side.takes event = true) :
    (∃ r, task.input ext now event = .ok r) ↔ task.Tolerated ext event := by
  cases task with
  | whip task =>
      rw [input, except_map_exists_ok]
      cases event with
      | io event =>
          cases event with
          | httpRequest req => cases htakes
          | udpSocketRecv src dst buf =>
              rw [WhipServerTask.input, except_map_exists_ok, inputUdp_ok_iff]
              rfl
      | trackMedia media => cases htakes
      | requestKeyframeTrack trackId kind =>
          simp only [WhipServerTask.input, Tolerated]
          by_cases htrack : trackId = task.videoTrackId
          · cases hmid : task.videoMid with
            | none => simp [htrack]
            | some mid => cases hrx : ext.streamRxByMid task.rtc mid <;> simp [htrack, hrx]
          · simp [htrack]
  | whep task =>
      rw [input, except_map_exists_ok]
      cases event with
      | io event =>
          cases event with
          | httpRequest req => cases htakes
          | udpSocketRecv src dst buf =>
              rw [WhepServerTask.input, except_map_exists_ok, inputUdp_ok_iff]
              rfl
      | trackMedia media =>
          simp only [WhepServerTask.input, Tolerated, iff_true]
          split <;> exact ⟨_, rfl⟩
      | requestKeyframeTrack trackId kind => cases htakes

end ComposeTask

namespace Worker

/-- The inputs a worker can hand to the session `taskId`, whose container is `c`. -/
inductive Handed (w : Worker Rtc) (taskId : Nat) (c : TaskContainer Rtc) : WebrtcTaskInput → Prop
  | datagram (src : SocketAddr) (buf : Bytes) (h : w.taskRemotes.lookup src = some taskId) :
      Handed w taskId c (.io (.udpSocketRecv src w.udpSocketLocalAddr buf))
  | trackMedia (media : TrackMedia) (h : media.trackId ∈ c.subChannels) :
      Handed w taskId c (.trackMedia media)
  | requestKeyframe (trackId : UInt64) (kind : KeyframeRequestKind) (h : trackId ∈ c.pubChannels) :
      Handed w taskId c (.requestKeyframeTrack trackId kind)

/-- What a worker can hand to a session is that session's business. -/
theorem Handed.takes {w : Worker Rtc} (hs : Sided w) (hl : Listed w) {taskId : Nat}
    {c : TaskContainer Rtc} (hc : w.tasks.lookup taskId = some c) {event : WebrtcTaskInput}
    (h : Handed w taskId c event) : c.task.role.side.takes event = true := by
  cases h with
  | datagram src buf _ => cases c.task.role.side <;> rfl
  | trackMedia media h =>
      rw [hs.joined .media media.trackId taskId ((hl.mem_iff .media hc _).mpr h) c hc]
      rfl
  | requestKeyframe trackId kind h =>
      rw [hs.joined .keyframe trackId taskId ((hl.mem_iff .keyframe hc _).mpr h) c hc]
      rfl

/--
The input is taken, and it is felt by this one session's engine and nowhere else: the
other sessions, this session's own lists and all the other tables are what they were.
-/
def Contained (w : Worker Rtc) (now : Instant) (taskId : Nat) (c : TaskContainer Rtc)
    (event : WebrtcTaskInput) : Prop :=
  ∃ w' actions task, w.inputTask ext now event taskId = .ok (w', actions) ∧
    w'.tasks.lookup taskId = some { c with task } ∧
    (∀ t, t ≠ taskId → w'.tasks.lookup t = w.tasks.lookup t) ∧
    w'.busChannels = w.busChannels ∧ w'.taskRemotes = w.taskRemotes ∧
    w'.taskUfrags = w.taskUfrags ∧ w'.endedTasks = w.endedTasks ∧
    w'.taskIdSeed = w.taskIdSeed

variable {ext}

theorem inputTask_of_ok {w : Worker Rtc} {now : Instant} {taskId : Nat} {c : TaskContainer Rtc}
    {event : WebrtcTaskInput} {b : Bool} {task : ComposeTask Rtc}
    (hc : w.tasks.lookup taskId = some c) (hi : c.task.input ext now event = .ok (b, task)) :
    ∃ actions, w.inputTask ext now event taskId
      = .ok ({ w with tasks := w.tasks.insert taskId { c with task } }, actions) := by
  rw [inputTask, hc]
  simp only [hi]
  exact ⟨_, rfl⟩

theorem contained_iff {w : Worker Rtc} {now : Instant} {taskId : Nat} {c : TaskContainer Rtc}
    {event : WebrtcTaskInput} (hc : w.tasks.lookup taskId = some c) :
    w.Contained ext now taskId c event ↔ ∃ r, c.task.input ext now event = .ok r := by
  constructor
  · rintro ⟨w', actions, task, hrun, -⟩
    rcases inputTask_ok hrun with ⟨hnone, -, -⟩ | ⟨c', b, task', hc', hi, -, -⟩
    · rw [hc] at hnone
      cases hnone
    · rw [hc] at hc'
      cases hc'
      exact ⟨_, hi⟩
  · rintro ⟨⟨b, task⟩, hi⟩
    obtain ⟨actions, hrun⟩ := inputTask_of_ok hc hi
    refine ⟨_, actions, task, hrun, by simp, ?_, rfl, rfl, rfl, rfl, rfl⟩
    intro t ht
    simp [ht]

end Worker

/--
**One session's failure stays its own, but for two answers.**  In every reachable state
and for every input a worker can hand to a live session — any bytes from an address
bound to it, any packet of a track it subscribed, any keyframe request for a track it
published — and whatever the engine answers: the input is taken and touches nothing
else if and only if `Receive::new` recognises the datagram, and the media section a
keyframe request is passed on to has a stream.
-/
theorem input_contained_iff {admits : Worker Rtc → RtcConfig Rtc → Prop} {addr : SocketAddr}
    {actions : List Action} {w : Worker Rtc} (h : Worker.Reaches ext admits addr actions w)
    {now : Instant} {taskId : Nat} {c : TaskContainer Rtc} {event : WebrtcTaskInput}
    (hc : w.tasks.lookup taskId = some c) (hevent : w.Handed taskId c event) :
    w.Contained ext now taskId c event ↔ c.task.Tolerated ext event := by
  rw [Worker.contained_iff hc]
  exact ComposeTask.input_ok_iff (hevent.takes h.sided h.listed hc)

/-- A publisher that has connected from port 7. -/
def Script.boundPublisher : Worker Script × List Action :=
  Script.play [.request (Script.arrival 1 "/whip/endpoint" [0x76] "abc" []),
    .datagram (Script.datagram 7 [0, 97, 98, 99])]

theorem Script.boundPublisher_lookup :
    Script.boundPublisher.1.taskRemotes.lookup (Script.peer 7) = some 0 ∧
      ∃ c, Script.boundPublisher.1.tasks.lookup 0 = some c := by
  refine ⟨by decide +kernel, ?_⟩
  rw [← Option.isSome_iff_exists]
  decide +kernel

/-- A datagram the engine recognises reaches the publisher and changes nothing else. -/
theorem input_contained_datagram :
    ∃ c, Script.boundPublisher.1.tasks.lookup 0 = some c ∧
      Script.boundPublisher.1.Contained Script.engine 0 0 c
        (.io (.udpSocketRecv (Script.peer 7) Script.boundPublisher.1.udpSocketLocalAddr [1])) := by
  obtain ⟨hremote, c, hc⟩ := Script.boundPublisher_lookup
  refine ⟨c, hc, ?_⟩
  exact (input_contained_iff Script.engine (Script.play_reaches _) hc
    (.datagram _ _ hremote)).mpr ⟨_, rfl⟩

/-- An empty datagram from the same address ends the worker. -/
theorem empty_datagram_fatal :
    ∃ c, Script.boundPublisher.1.tasks.lookup 0 = some c ∧
      Script.boundPublisher.1.Handed 0 c
        (.io (.udpSocketRecv (Script.peer 7) Script.boundPublisher.1.udpSocketLocalAddr [])) ∧
      Script.boundPublisher.1.handleDatagram Script.engine (Script.datagram 7 [])
        = .error .parseUdp ∧
      ¬ Script.boundPublisher.1.Contained Script.engine 0 0 c
        (.io (.udpSocketRecv (Script.peer 7) Script.boundPublisher.1.udpSocketLocalAddr [])) := by
  obtain ⟨hremote, c, hc⟩ := Script.boundPublisher_lookup
  have hinput : c.task.input Script.engine 0 (.io (.udpSocketRecv (Script.peer 7)
      Script.boundPublisher.1.udpSocketLocalAddr [])) = .error .parseUdp := by
    cases c.task <;> rfl
  refine ⟨c, hc, .datagram _ _ hremote, ?_, ?_⟩
  · have hslot : Script.boundPublisher.1.slot Script.engine (Script.datagram 7 [])
        = .ok (some 0, Script.boundPublisher.1, []) := by
      rw [Worker.slot, show (Script.datagram 7 []).remote = Script.peer 7 from rfl, hremote]
    have hfail : Script.boundPublisher.1.inputTask Script.engine 0 (.io (.udpSocketRecv
        (Script.peer 7) Script.boundPublisher.1.udpSocketLocalAddr [])) 0 = .error .parseUdp := by
      rw [Worker.inputTask, hc]
      simp only [hinput]
      rfl
    rw [Worker.handleDatagram, hslot]
    exact except_map_error.mpr (forEach_cons_error (f := fun turn => turn) hfail)
  · rw [Worker.contained_iff hc, hinput]
    simp

end MediaServer
