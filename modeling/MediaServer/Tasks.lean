/-
What the two kinds of session share: `tasks/mod.rs`, and the code `whip.rs` and
`whep.rs` both contain.

A session wraps one engine.  It is handed inputs, told the time, and asked for
actions one at a time; it keeps a queue of actions it already owes and the deadline
the engine named last.  The two session types are separate files in the source, but
their constructors, `tick`, the datagram branch of `input` and the frame of
`pop_action` are the same text, so that text stands here once, with what differs as a
parameter.
-/
import MediaServer.Str0m

namespace MediaServer

open Lib

variable {Rtc : Type}

/-! ### Packets on the bus -/

structure TrackMedia where
  trackId : UInt64
  seqNo : UInt64
  time : MediaTime
  header : RtpHeader
  payload : Bytes
  timestamp : Instant
  deriving DecidableEq, Repr

def TrackMedia.fromRaw (trackId : UInt64) (rtp : RtpPacket) : TrackMedia :=
  { trackId, seqNo := rtp.seqNo, time := rtp.time, header := rtp.header,
    payload := rtp.payload, timestamp := rtp.timestamp }

def trackIdBuilder (ext : Extern Rtc) (channel : String) (kind : MediaKind) : UInt64 :=
  ext.hashTrack channel kind

/-! ### What goes into a session and what comes out -/

inductive WebrtcTaskInput
  | io (event : IoEvent)
  | trackMedia (media : TrackMedia)
  | requestKeyframeTrack (trackId : UInt64) (kind : KeyframeRequestKind)
  deriving DecidableEq

inductive WebrtcTaskOutput
  | io (action : IoAction)
  | trackMedia (media : TrackMedia)
  | taskEnded
  | publishTrack (trackId : UInt64)
  | subscribeTrack (trackId : UInt64)
  | requestKeyframeTrack (trackId : UInt64) (kind : KeyframeRequestKind)
  deriving DecidableEq

/-! ### The part both session types have -/

structure TaskCore (Rtc : Type) where
  iceUfrag : String
  timeout : Option Instant
  rtc : Rtc
  outputs : List WebrtcTaskOutput
  audioMid : Option Mid
  videoMid : Option Mid

namespace TaskCore

variable (ext : Extern Rtc)

/-- `add_local_candidate(Candidate::host(addr, Protocol::Udp).expect(..))`, per address. -/
def addCandidates (rtc : Rtc) : List SocketAddr → Except Panic Rtc
  | [] => .ok rtc
  | addr :: rest =>
      match ext.candidateHost addr with
      | .error _ => .error .createCandidate
      | .ok candidate => addCandidates (ext.addLocalCandidate rtc candidate) rest

/-- The answer to the request that opened a session. -/
def answerResponse (location : String) (req : HttpRequest) (answer : Bytes) : HttpResponse :=
  { reqId := req.reqId
    status := 200
    headers := Table.ofList [("Content-Type", "application/sdp"), ("Location", location)]
    body := answer }

def new (location ufrag : String) (rtc : Rtc) (req : HttpRequest)
    (localAddrs : List SocketAddr) : Except Panic (TaskCore Rtc) :=
  match addCandidates ext rtc localAddrs with
  | .error p => .error p
  | .ok rtc =>
      match ext.fromSdpString (fromUtf8Lossy req.body) with
      | .error _ => .error .parseOffer
      | .ok offer =>
          match ext.acceptOffer rtc offer with
          | (.error _, _) => .error .acceptOffer
          | (.ok answer, rtc) =>
              .ok { iceUfrag := ufrag
                    timeout := none
                    rtc
                    outputs := [.io (.httpResponse (answerResponse location req answer))]
                    audioMid := none
                    videoMid := none }

def tick (now : Instant) (task : TaskCore Rtc) : Bool × TaskCore Rtc :=
  match task.timeout with
  | some timeout =>
      if now ≥ timeout then
        -- An error of `handle_input` is printed and forgotten.
        (true, { task with rtc := (ext.handleInput task.rtc (.timeout now)).2, timeout := none })
      else (false, task)
  | none => (false, task)

def inputUdp (now : Instant) (src dst : SocketAddr) (buf : Bytes) (task : TaskCore Rtc) :
    Except Panic (TaskCore Rtc) :=
  match ext.receiveNew src dst buf with
  | .error _ => .error .parseUdp
  | .ok r =>
      .ok { task with rtc := (ext.handleInput task.rtc (.receive now r)).2, timeout := none }

/-- `Event::MediaAdded`: anything that is not audio is taken for video. -/
def mediaAdded (mid : Mid) (kind : MediaKind) (task : TaskCore Rtc) : TaskCore Rtc :=
  if kind = .audio then { task with audioMid := some mid }
  else { task with videoMid := some mid }

/-- Whether the deadline stored last is still ahead. -/
def waiting (now : Instant) (task : TaskCore Rtc) : Bool :=
  match task.timeout with
  | some timeout => timeout > now
  | none => false

/-- The frame of `pop_action`; `onEvent` is the match on the engine's events. -/
def popAction (onEvent : Event → TaskCore Rtc → Option WebrtcTaskOutput × TaskCore Rtc)
    (now : Instant) (task : TaskCore Rtc) : Option WebrtcTaskOutput × TaskCore Rtc :=
  match task.outputs with
  | o :: rest => (some o, { task with outputs := rest })
  | [] =>
      if task.waiting now then (none, task)
      else
        match ext.pollOutput task.rtc with
        | (.error _, rtc) => (none, { task with rtc })
        | (.ok (.timeout timeout), rtc) => (none, { task with rtc, timeout := some timeout })
        | (.ok (.transmit send), rtc) =>
            (some (.io (.udpSocketSend send.source send.destination send.contents)),
              { task with rtc })
        | (.ok (.event e), rtc) => onEvent e { task with rtc }

/-- The answer `pop_action` gets from `poll_output`, where it gets as far as asking. -/
def polled (now : Instant) (task : TaskCore Rtc) : Option (Except ExternError Output) :=
  if task.outputs = [] ∧ task.waiting now = false then some (ext.pollOutput task.rtc).1
  else none

end TaskCore

end MediaServer
