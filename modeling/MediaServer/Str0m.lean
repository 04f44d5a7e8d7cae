/-
The crates the server calls and this development does not open.

`str0m` is the WebRTC engine: a sans-I/O object that is fed datagrams, packets and
the time, and polled for what to do next.  `faster_stun` finds a username in a
datagram.  `DefaultHasher` turns a channel and a media kind into a track id.  Their
types and functions are the fields of `Extern`, over an arbitrary type of engines, and
everything below is stated for every such value: every answer these calls can give is
covered because nothing is said about which one they give.

One law is assumed, and it is `str0m`'s own contract for `poll_output`: it is to be
called until it answers `Timeout`, and only finitely many other answers are queued
before that.  `pending` counts them.

A mutable borrow such as `stream_tx_by_mid` is a record of what may be done through
it, each call giving the engine back.
-/
import MediaServer.Io

namespace MediaServer

/-! ### The data the engine hands over -/

inductive MediaKind
  | audio
  | video
  deriving DecidableEq, Repr

inductive KeyframeRequestKind
  | pli
  | fir
  deriving DecidableEq, Repr

/-- A media section's id. -/
abbrev Mid := String

structure MediaTime where
  numer : Int
  denom : Nat
  deriving DecidableEq, Repr

/-- The fields of an RTP header the server reads; extension values are kept as encoded. -/
structure RtpHeader where
  payloadType : UInt8
  timestamp : UInt32
  marker : Bool
  extVals : List (UInt8 × Bytes)
  deriving DecidableEq, Repr

structure RtpPacket where
  seqNo : UInt64
  time : MediaTime
  header : RtpHeader
  payload : Bytes
  timestamp : Instant
  deriving DecidableEq, Repr

inductive IceConnectionState
  | new
  | checking
  | connected
  | completed
  | disconnected
  deriving DecidableEq, Repr

inductive Event
  | connected
  | mediaAdded (mid : Mid) (kind : MediaKind)
  | iceConnectionStateChange (state : IceConnectionState)
  | rtpPacket (rtp : RtpPacket)
  | keyframeRequest (mid : Mid) (kind : KeyframeRequestKind)
  | other
  deriving DecidableEq, Repr

structure Transmit where
  source : SocketAddr
  destination : SocketAddr
  contents : Bytes
  deriving DecidableEq, Repr

inductive Output
  | timeout (deadline : Instant)
  | transmit (send : Transmit)
  | event (e : Event)
  deriving DecidableEq, Repr

/-- The arguments of `write_rtp`. -/
structure RtpWrite where
  payloadType : UInt8
  seqNo : UInt64
  time : UInt32
  wallclock : Instant
  marker : Bool
  extVals : List (UInt8 × Bytes)
  nackable : Bool
  payload : Bytes
  deriving DecidableEq, Repr

/-- An error of one of these crates; the server only ever prints it. -/
abbrev ExternError := String

/-- What `Receive::new` makes of a datagram. -/
structure Receive where
  source : SocketAddr
  destination : SocketAddr
  contents : Bytes
  deriving DecidableEq, Repr

inductive Input
  | timeout (now : Instant)
  | receive (now : Instant) (r : Receive)

/-- `&mut StreamRx`: the engine after each call made through it. -/
structure StreamRx (Rtc : Type) where
  requestKeyframe : KeyframeRequestKind → Rtc

/-- `&mut StreamTx`. -/
structure StreamTx (Rtc : Type) where
  writeRtp : RtpWrite → Except ExternError Unit × Rtc

/--
What `Rtc::builder()` gives for the settings the server uses: fresh local
credentials, and the engine `build()` makes of them.
-/
structure RtcConfig (Rtc : Type) where
  ufrag : String
  rtc : Rtc

/-! ### The calls -/

structure Extern (Rtc : Type) where
  /-- An SDP offer that parsed. -/
  SdpOffer : Type
  /-- A local candidate. -/
  Candidate : Type
  candidateHost : SocketAddr → Except ExternError Candidate
  addLocalCandidate : Rtc → Candidate → Rtc
  enableTwccFeedback : Rtc → Rtc
  fromSdpString : String → Except ExternError SdpOffer
  /-- `sdp_api().accept_offer(offer)`, with the answer as its SDP text. -/
  acceptOffer : Rtc → SdpOffer → Except ExternError Bytes × Rtc
  receiveNew : SocketAddr → SocketAddr → Bytes → Except ExternError Receive
  handleInput : Rtc → Input → Except ExternError Unit × Rtc
  pollOutput : Rtc → Except ExternError Output × Rtc
  streamRxByMid : Rtc → Mid → Option (StreamRx Rtc)
  streamTxByMid : Rtc → Mid → Option (StreamTx Rtc)
  /-- `MessageReader::decode`, down to the `UserName` attribute. -/
  decodeStun : Bytes → Except ExternError (Option String)
  /-- `DefaultHasher` over the channel and the kind. -/
  hashTrack : String → MediaKind → UInt64
  /-- How many answers are queued before the next `Timeout`. -/
  pending : Rtc → Nat
  pending_lt : ∀ rtc o rtc', pollOutput rtc = (.ok o, rtc') → (∀ t, o ≠ .timeout t) →
    pending rtc' < pending rtc

end MediaServer
