/-
What a session may do between two looks at it.

Three functions change a session — `tick`, `input` and `pop_action` — and none of
them changes who it is: its ufrag and its role, which for a publisher is its two
track ids and for a viewer its channel.  The first two also leave the queue of owed
actions and the media sections alone.

`pop_action` is governed by one law.  Every answer of `poll_output` stands for a list
of actions, `translate`; what a call returns, followed by the queue it leaves, is the
queue it found followed by the translation of the answer it polled.  Whatever has to
be known about the actions a session produces is read off that.
-/
import MediaServer.Lib.Loop
import MediaServer.Tasks.Compose

namespace MediaServer

open Lib

variable {Rtc : Type} (ext : Extern Rtc)

/-- Who a session is: what its request fixed for good. -/
inductive Role
  | publisher (audioTrackId videoTrackId : UInt64)
  | viewer (channel : String)
  deriving DecidableEq

/-- What a request makes of the session it opens. -/
def Role.ofRequest (req : HttpRequest) : Role :=
  if req.path = "/whip/endpoint" then
    .publisher (trackIdBuilder ext (getHttpAuth req) .audio)
      (trackIdBuilder ext (getHttpAuth req) .video)
  else .viewer (getHttpAuth req)

namespace ComposeTask

def role : ComposeTask Rtc → Role
  | .whip task => .publisher task.audioTrackId task.videoTrackId
  | .whep task => .viewer task.channel

theorem ufrag_eq_core (task : ComposeTask Rtc) : task.ufrag = task.core.iceUfrag := by
  cases task <;> rfl

end ComposeTask

/-! ### The shared part -/

namespace TaskCore

/-- Two states of a session's shared part that owe the same and know the same sections. -/
structure Quiet (task task' : TaskCore Rtc) : Prop where
  iceUfrag : task'.iceUfrag = task.iceUfrag
  outputs : task'.outputs = task.outputs
  audioMid : task'.audioMid = task.audioMid
  videoMid : task'.videoMid = task.videoMid

theorem Quiet.refl (task : TaskCore Rtc) : Quiet task task := ⟨rfl, rfl, rfl, rfl⟩

theorem Quiet.trans {a b c : TaskCore Rtc} (h₁ : Quiet a b) (h₂ : Quiet b c) : Quiet a c :=
  ⟨h₂.1.trans h₁.1, h₂.2.trans h₁.2, h₂.3.trans h₁.3, h₂.4.trans h₁.4⟩

theorem tick_quiet (now : Instant) (task : TaskCore Rtc) : Quiet task (task.tick ext now).2 := by
  unfold tick
  split
  · split
    · exact ⟨rfl, rfl, rfl, rfl⟩
    · exact .refl task
  · exact .refl task

theorem inputUdp_quiet {ext : Extern Rtc} {now : Instant} {src dst : SocketAddr} {buf : Bytes}
    {task task' : TaskCore Rtc} (h : task.inputUdp ext now src dst buf = .ok task') :
    Quiet task task' := by
  unfold inputUdp at h
  split at h
  · cases h
  · cases h
    exact ⟨rfl, rfl, rfl, rfl⟩

end TaskCore

/-! ### `tick` and `input` change nothing but the engine and the deadline -/

namespace ComposeTask

/-- Same session, same queue, same media sections. -/
structure Quiet (task task' : ComposeTask Rtc) : Prop where
  role : task'.role = task.role
  core : TaskCore.Quiet task.core task'.core

theorem Quiet.refl (task : ComposeTask Rtc) : Quiet task task := ⟨rfl, .refl _⟩

theorem Quiet.trans {a b c : ComposeTask Rtc} (h₁ : Quiet a b) (h₂ : Quiet b c) : Quiet a c :=
  ⟨h₂.role.trans h₁.role, h₁.core.trans h₂.core⟩

theorem Quiet.ufrag {task task' : ComposeTask Rtc} (h : Quiet task task') :
    task'.ufrag = task.ufrag := by
  rw [ufrag_eq_core, ufrag_eq_core, h.core.iceUfrag]

theorem tick_quiet (now : Instant) (task : ComposeTask Rtc) :
    Quiet task (task.tick ext now).2 := by
  cases task with
  | whip task => exact ⟨rfl, TaskCore.tick_quiet ext now task.toTaskCore⟩
  | whep task => exact ⟨rfl, TaskCore.tick_quiet ext now task.toTaskCore⟩

variable {ext}

theorem whip_input_quiet {now : Instant} {event : WebrtcTaskInput} {task task' : WhipServerTask Rtc}
    {b : Bool} (h : task.input ext now event = .ok (b, task')) :
    Quiet (.whip task) (.whip task') := by
  unfold WhipServerTask.input at h
  split at h
  · cases h
  · rename_i src dst buf
    obtain ⟨core, hu, heq⟩ := except_map_ok.mp h
    cases heq
    exact ⟨rfl, TaskCore.inputUdp_quiet hu⟩
  · split at h
    · split at h
      · split at h
        · cases h
          exact ⟨rfl, rfl, rfl, rfl, rfl⟩
        · cases h
      · cases h
        exact .refl _
    · cases h
      exact .refl _
  · cases h

theorem whep_input_quiet {now : Instant} {event : WebrtcTaskInput} {task task' : WhepServerTask Rtc}
    {b : Bool} (h : task.input ext now event = .ok (b, task')) :
    Quiet (.whep task) (.whep task') := by
  unfold WhepServerTask.input at h
  split at h
  · cases h
  · rename_i src dst buf
    obtain ⟨core, hu, heq⟩ := except_map_ok.mp h
    cases heq
    exact ⟨rfl, TaskCore.inputUdp_quiet hu⟩
  · split at h
    · cases h
      exact ⟨rfl, rfl, rfl, rfl, rfl⟩
    · cases h
      exact .refl _
  · cases h

theorem input_quiet {now : Instant} {event : WebrtcTaskInput} {task task' : ComposeTask Rtc}
    {b : Bool} (h : task.input ext now event = .ok (b, task')) : Quiet task task' := by
  cases task with
  | whip task =>
      obtain ⟨r, hi, heq⟩ := except_map_ok.mp h
      cases heq
      exact whip_input_quiet hi
  | whep task =>
      obtain ⟨r, hi, heq⟩ := except_map_ok.mp h
      cases heq
      exact whep_input_quiet hi

/-- What is written is written to the stream of its section. -/
theorem rtpWrite_stream {media : TrackMedia} {viewer : WhepServerTask Rtc} {mid : Mid}
    {stream : StreamTx Rtc} {write : RtpWrite}
    (h : viewer.rtpWrite ext media = some (mid, stream, write)) :
    ext.streamTxByMid viewer.rtc mid = some stream := by
  unfold WhepServerTask.rtpWrite at h
  simp only at h
  split at h
  · obtain ⟨stream', hstream, heq⟩ := Option.map_eq_some_iff.mp h
    cases heq
    exact hstream
  · cases h

/-- A packet is written as `rtpWrite` says, or the session stays as it was. -/
theorem input_writes {now : Instant} {media : TrackMedia} {task task' : ComposeTask Rtc} {b : Bool}
    (h : task.input ext now (.trackMedia media) = .ok (b, task')) :
    (task.rtpWrite ext (.trackMedia media) = none ∧ task' = task) ∨
      ∃ viewer mid write stream, task = .whep viewer ∧
        task.rtpWrite ext (.trackMedia media) = some (mid, write) ∧
        ext.streamTxByMid viewer.rtc mid = some stream ∧
        task' = .whep { viewer with rtc := (stream.writeRtp write).2, timeout := none } := by
  cases task with
  | whip task => cases h
  | whep viewer =>
      obtain ⟨⟨b', task₁⟩, hi, heq⟩ := except_map_ok.mp h
      cases heq
      cases hw : viewer.rtpWrite ext media with
      | none =>
          simp only [WhepServerTask.input, hw, Except.ok.injEq, Prod.mk.injEq] at hi
          obtain ⟨-, rfl⟩ := hi
          exact .inl ⟨by simp [rtpWrite, hw], rfl⟩
      | some r =>
          obtain ⟨mid, stream, write⟩ := r
          simp only [WhepServerTask.input, hw, Except.ok.injEq, Prod.mk.injEq] at hi
          obtain ⟨-, rfl⟩ := hi
          exact .inr ⟨viewer, mid, write, stream, rfl, by simp [rtpWrite, hw], rtpWrite_stream hw, rfl⟩

end ComposeTask

/-! ### What an answer stands for -/

namespace Role

/-- The actions an event of the engine is worth. -/
def translateEvent : Role → Event → List WebrtcTaskOutput
  | .publisher audio video, .connected => [.publishTrack audio, .publishTrack video]
  | .viewer channel, .connected =>
      [.subscribeTrack (trackIdBuilder ext channel .audio),
        .subscribeTrack (trackIdBuilder ext channel .video)]
  | _, .iceConnectionStateChange .disconnected => [.taskEnded]
  | .publisher audio video, .rtpPacket rtp =>
      [.trackMedia (.fromRaw (if rtp.header.payloadType = 111 then audio else video) rtp)]
  | .viewer channel, .keyframeRequest _ kind =>
      [.requestKeyframeTrack (trackIdBuilder ext channel .video) kind]
  | _, _ => []

/-- The actions an answer of `poll_output` is worth; an error is worth none. -/
def translate (role : Role) : Except ExternError Output → List WebrtcTaskOutput
  | .error _ => []
  | .ok (.timeout _) => []
  | .ok (.transmit send) => [.io (.udpSocketSend send.source send.destination send.contents)]
  | .ok (.event e) => role.translateEvent ext e

end Role

namespace TaskCore

/-- What one call of `pop_action` may do to the shared part. -/
structure Popped (translate : Except ExternError Output → List WebrtcTaskOutput)
    (now : Instant) (task : TaskCore Rtc) (out : Option WebrtcTaskOutput)
    (task' : TaskCore Rtc) : Prop where
  iceUfrag : task'.iceUfrag = task.iceUfrag
  conserves : out.toList ++ task'.outputs
    = task.outputs ++ (task.polled ext now).elim [] translate
  stops : out = none → task.outputs = []
  decreases : out ≠ none →
    task'.outputs.length + ext.pending task'.rtc < task.outputs.length + ext.pending task.rtc
  audioMid : ∀ mid, task'.audioMid = some mid →
    task.audioMid = some mid ∨
      task.polled ext now = some (.ok (.event (.mediaAdded mid .audio)))
  videoMid : ∀ mid, task'.videoMid = some mid →
    task.videoMid = some mid ∨
      task.polled ext now = some (.ok (.event (.mediaAdded mid .video)))

/-- What one event may do to it; events are only handled when the queue is empty. -/
structure Handled (translate : Event → List WebrtcTaskOutput) (e : Event) (task : TaskCore Rtc)
    (out : Option WebrtcTaskOutput) (task' : TaskCore Rtc) : Prop where
  iceUfrag : task'.iceUfrag = task.iceUfrag
  rtc : task'.rtc = task.rtc
  conserves : out.toList ++ task'.outputs = translate e
  returns : out ≠ none → task'.outputs = []
  audioMid : ∀ mid, task'.audioMid = some mid →
    task.audioMid = some mid ∨ e = .mediaAdded mid .audio
  videoMid : ∀ mid, task'.videoMid = some mid →
    task.videoMid = some mid ∨ e = .mediaAdded mid .video

theorem mediaAdded_mids (mid : Mid) (kind : MediaKind) (task : TaskCore Rtc) :
    (∀ m, (task.mediaAdded mid kind).audioMid = some m →
        task.audioMid = some m ∨ Event.mediaAdded mid kind = .mediaAdded m .audio) ∧
      (∀ m, (task.mediaAdded mid kind).videoMid = some m →
        task.videoMid = some m ∨ Event.mediaAdded mid kind = .mediaAdded m .video) := by
  cases kind <;> simp +contextual [mediaAdded]

theorem popAction_spec {onEvent : Event → TaskCore Rtc → Option WebrtcTaskOutput × TaskCore Rtc}
    (role : Role)
    (handles : ∀ e task, task.outputs = [] →
      Handled (role.translateEvent ext) e task (onEvent e task).1 (onEvent e task).2)
    {now : Instant} {task task' : TaskCore Rtc} {out : Option WebrtcTaskOutput}
    (h : task.popAction ext onEvent now = (out, task')) :
    Popped ext (role.translate ext) now task out task' := by
  unfold popAction at h
  split at h
  · rename_i o rest ho
    cases h
    have hp : task.polled ext now = none := by simp [polled, ho]
    exact ⟨rfl, by simp [hp, ho], by simp, by simp [ho], by simp +contextual, by simp +contextual⟩
  · rename_i ho
    split at h
    · rename_i hw
      cases h
      have hp : task.polled ext now = none := by simp [polled, hw]
      exact ⟨rfl, by simp [hp], by simp [ho], by simp, by simp +contextual, by simp +contextual⟩
    · rename_i hw
      have hp : task.polled ext now = some (ext.pollOutput task.rtc).1 := by
        simp [polled, ho, hw]
      -- From here on the answer decides; the queue is empty.
      split at h <;> rename_i rtc hpoll <;> rw [hpoll] at hp
      · cases h
        exact ⟨rfl, by simp [hp, Role.translate], by simp [ho], by simp,
          by simp +contextual, by simp +contextual⟩
      · cases h
        exact ⟨rfl, by simp [hp, Role.translate], by simp [ho], by simp,
          by simp +contextual, by simp +contextual⟩
      · cases h
        have hlt := ext.pending_lt _ _ _ hpoll (by simp)
        exact ⟨rfl, by simp [hp, ho, Role.translate], by simp, by simpa [ho] using hlt,
          by simp +contextual, by simp +contextual⟩
      · rename_i e
        have hh := handles e { task with rtc } ho
        have hlt := ext.pending_lt _ _ _ hpoll (by simp)
        rw [h] at hh
        refine ⟨hh.iceUfrag, by simp [hp, ho, Role.translate, hh.conserves], by simp [ho], ?_,
          ?_, ?_⟩
        · intro hout
          rw [hh.returns hout, hh.rtc, ho]
          simpa using hlt
        · intro mid hm
          exact (hh.audioMid mid hm).imp_right fun he => by rw [hp, he]
        · intro mid hm
          exact (hh.videoMid mid hm).imp_right fun he => by rw [hp, he]

end TaskCore

theorem WhipServerTask.onEvent_handles (audio video : UInt64) (e : Event) (task : TaskCore Rtc)
    (ho : task.outputs = []) :
    TaskCore.Handled ((Role.publisher audio video).translateEvent ext) e task
      (onEvent audio video e task).1 (onEvent audio video e task).2 := by
  cases e with
  | connected => constructor <;> simp [onEvent, Role.translateEvent, ho]
  | mediaAdded mid kind =>
      obtain ⟨ha, hv⟩ := TaskCore.mediaAdded_mids mid kind task
      refine ⟨?_, ?_, ?_, by simp [onEvent], ha, hv⟩ <;>
        cases kind <;> simp [onEvent, TaskCore.mediaAdded, Role.translateEvent, ho]
  | iceConnectionStateChange state =>
      cases state <;> constructor <;>
        simp +contextual [onEvent, Role.translateEvent, ho]
  | rtpPacket rtp => constructor <;> simp +contextual [onEvent, Role.translateEvent, ho]
  | keyframeRequest mid kind =>
      constructor <;> simp +contextual [onEvent, Role.translateEvent, ho]
  | other => constructor <;> simp +contextual [onEvent, Role.translateEvent, ho]

theorem WhepServerTask.onEvent_handles (channel : String) (e : Event) (task : TaskCore Rtc)
    (ho : task.outputs = []) :
    TaskCore.Handled ((Role.viewer channel).translateEvent ext) e task
      (onEvent ext channel e task).1 (onEvent ext channel e task).2 := by
  cases e with
  | connected => constructor <;> simp +contextual [onEvent, Role.translateEvent, ho]
  | mediaAdded mid kind =>
      obtain ⟨ha, hv⟩ := TaskCore.mediaAdded_mids mid kind task
      refine ⟨?_, ?_, ?_, by simp [onEvent], ha, hv⟩ <;>
        cases kind <;> simp [onEvent, TaskCore.mediaAdded, Role.translateEvent, ho]
  | iceConnectionStateChange state =>
      cases state <;> constructor <;>
        simp +contextual [onEvent, Role.translateEvent, ho]
  | rtpPacket rtp => constructor <;> simp +contextual [onEvent, Role.translateEvent, ho]
  | keyframeRequest mid kind =>
      constructor <;> simp +contextual [onEvent, Role.translateEvent, ho]
  | other => constructor <;> simp +contextual [onEvent, Role.translateEvent, ho]

namespace ComposeTask

/-- What one call of `pop_action` may do to a session. -/
structure Popped (now : Instant) (task : ComposeTask Rtc) (out : Option WebrtcTaskOutput)
    (task' : ComposeTask Rtc) : Prop where
  role : task'.role = task.role
  core : TaskCore.Popped ext (task.role.translate ext) now task.core out task'.core

variable {ext}

theorem popAction_spec {now : Instant} {task task' : ComposeTask Rtc}
    {out : Option WebrtcTaskOutput} (h : task.popAction ext now = (out, task')) :
    Popped ext now task out task' := by
  cases task with
  | whip task =>
      cases h
      exact ⟨rfl, TaskCore.popAction_spec ext
        (.publisher task.audioTrackId task.videoTrackId)
        (fun e t ho => WhipServerTask.onEvent_handles ext _ _ e t ho) rfl⟩
  | whep task =>
      cases h
      exact ⟨rfl, TaskCore.popAction_spec ext (.viewer task.channel)
        (fun e t ho => WhepServerTask.onEvent_handles ext _ e t ho) rfl⟩

theorem Popped.ufrag {now : Instant} {task task' : ComposeTask Rtc}
    {out : Option WebrtcTaskOutput} (h : Popped ext now task out task') :
    task'.ufrag = task.ufrag := by
  rw [ufrag_eq_core, ufrag_eq_core, h.core.iceUfrag]

end ComposeTask

end MediaServer
