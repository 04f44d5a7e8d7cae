/-
`tasks/whep.rs`: the viewer's session.
-/
import MediaServer.Tasks

namespace MediaServer

variable {Rtc : Type}

structure WhepServerTask (Rtc : Type) extends TaskCore Rtc where
  channel : String

/-- The arguments `write_rtp` is given for a packet off the bus. -/
def TrackMedia.toWrite (media : TrackMedia) (nackable : Bool) : RtpWrite :=
  { payloadType := media.header.payloadType
    seqNo := media.seqNo
    time := media.header.timestamp
    wallclock := media.timestamp
    marker := media.header.marker
    extVals := media.header.extVals
    nackable
    payload := media.payload }

namespace WhepServerTask

variable (ext : Extern Rtc)

def new (config : RtcConfig Rtc) (req : HttpRequest) (localAddrs : List SocketAddr) :
    Except Panic (WhepServerTask Rtc) :=
  let channel := getHttpAuth req
  (TaskCore.new ext "/whep/endpoint/1234" config.ufrag config.rtc req localAddrs).map fun core =>
    { core with channel }

def ufrag (task : WhepServerTask Rtc) : String := task.iceUfrag

def tick (now : Instant) (task : WhepServerTask Rtc) : Bool × WhepServerTask Rtc :=
  let (due, core) := task.toTaskCore.tick ext now
  (due, { task with toTaskCore := core })

/-- The stream a packet is written to and what is written, if there is such a stream. -/
def rtpWrite (media : TrackMedia) (task : WhepServerTask Rtc) :
    Option (Mid × StreamTx Rtc × RtpWrite) :=
  let (mid, nackable) :=
    if media.header.payloadType = 111 then (task.audioMid, false) else (task.videoMid, true)
  match mid with
  | some mid => (ext.streamTxByMid task.rtc mid).map fun stream => (mid, stream, media.toWrite nackable)
  | none => none

def input (now : Instant) (event : WebrtcTaskInput) (task : WhepServerTask Rtc) :
    Except Panic (Bool × WhepServerTask Rtc) :=
  match event with
  | .io (.httpRequest _) => .error .todoHttpRequest
  | .io (.udpSocketRecv src dst buf) =>
      (task.toTaskCore.inputUdp ext now src dst buf).map fun core =>
        (true, { task with toTaskCore := core })
  | .trackMedia media =>
      match task.rtpWrite ext media with
      | some (_, stream, write) =>
          -- An error of `write_rtp` is printed and forgotten.
          .ok (true, { task with rtc := (stream.writeRtp write).2, timeout := none })
      | none => .ok (true, task)
  | .requestKeyframeTrack _ _ => .error .whepEvent

def onEvent (channel : String) (e : Event) (task : TaskCore Rtc) :
    Option WebrtcTaskOutput × TaskCore Rtc :=
  match e with
  | .connected =>
      (none, { task with outputs := task.outputs ++
        [.subscribeTrack (trackIdBuilder ext channel .audio),
          .subscribeTrack (trackIdBuilder ext channel .video)] })
  | .mediaAdded mid kind => (none, task.mediaAdded mid kind)
  | .iceConnectionStateChange state =>
      match state with
      | .disconnected => (some .taskEnded, task)
      | _ => (none, task)
  | .keyframeRequest _ kind =>
      (some (.requestKeyframeTrack (trackIdBuilder ext channel .video) kind), task)
  | _ => (none, task)

def popAction (now : Instant) (task : WhepServerTask Rtc) :
    Option WebrtcTaskOutput × WhepServerTask Rtc :=
  let (action, core) := task.toTaskCore.popAction ext (onEvent ext task.channel) now
  (action, { task with toTaskCore := core })

end WhepServerTask

end MediaServer
