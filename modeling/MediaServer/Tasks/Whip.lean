/-
`tasks/whip.rs`: the publisher's session.
-/
import MediaServer.Tasks

namespace MediaServer

variable {Rtc : Type}

structure WhipServerTask (Rtc : Type) extends TaskCore Rtc where
  audioTrackId : UInt64
  videoTrackId : UInt64

namespace WhipServerTask

variable (ext : Extern Rtc)

def new (config : RtcConfig Rtc) (req : HttpRequest) (localAddrs : List SocketAddr) :
    Except Panic (WhipServerTask Rtc) :=
  let channel := getHttpAuth req
  let rtc := ext.enableTwccFeedback config.rtc
  (TaskCore.new ext "/whip/endpoint/1234" config.ufrag rtc req localAddrs).map fun core =>
    { core with
      audioTrackId := trackIdBuilder ext channel .audio
      videoTrackId := trackIdBuilder ext channel .video }

def ufrag (task : WhipServerTask Rtc) : String := task.iceUfrag

def tick (now : Instant) (task : WhipServerTask Rtc) : Bool × WhipServerTask Rtc :=
  let (due, core) := task.toTaskCore.tick ext now
  (due, { task with toTaskCore := core })

def input (now : Instant) (event : WebrtcTaskInput) (task : WhipServerTask Rtc) :
    Except Panic (Bool × WhipServerTask Rtc) :=
  match event with
  | .io (.httpRequest _) => .error .todoHttpRequest
  | .io (.udpSocketRecv src dst buf) =>
      (task.toTaskCore.inputUdp ext now src dst buf).map fun core =>
        (true, { task with toTaskCore := core })
  | .requestKeyframeTrack trackId kind =>
      if trackId = task.videoTrackId then
        match task.videoMid with
        | some mid =>
            match ext.streamRxByMid task.rtc mid with
            | some rx => .ok (true, { task with rtc := rx.requestKeyframe kind })
            | none => .error .videoMid
        | none => .ok (true, task)
      else .ok (true, task)
  | .trackMedia _ => .error .whipEvent

def onEvent (audioTrackId videoTrackId : UInt64) (e : Event) (task : TaskCore Rtc) :
    Option WebrtcTaskOutput × TaskCore Rtc :=
  match e with
  | .connected =>
      (none, { task with outputs :=
        task.outputs ++ [.publishTrack audioTrackId, .publishTrack videoTrackId] })
  | .mediaAdded mid kind => (none, task.mediaAdded mid kind)
  | .iceConnectionStateChange state =>
      match state with
      | .disconnected => (some .taskEnded, task)
      | _ => (none, task)
  | .rtpPacket rtp =>
      let trackId := if rtp.header.payloadType = 111 then audioTrackId else videoTrackId
      (some (.trackMedia (.fromRaw trackId rtp)), task)
  | _ => (none, task)

def popAction (now : Instant) (task : WhipServerTask Rtc) :
    Option WebrtcTaskOutput × WhipServerTask Rtc :=
  let (action, core) :=
    task.toTaskCore.popAction ext (onEvent task.audioTrackId task.videoTrackId) now
  (action, { task with toTaskCore := core })

end WhipServerTask

end MediaServer
