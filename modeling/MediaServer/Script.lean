/-
An engine that plays a script.

The theorems are about every engine.  Where one of them is to be seen at work, or a
statement is to be refuted, an engine is needed that can be run: its state is the list
of answers `poll_output` has still to give, and a datagram appends the answer its
first byte stands for.  It accepts any offer that is not empty, and its STUN decoder
takes a datagram that starts with 0 for a message whose username is the rest.
-/
import MediaServer.Worker

namespace MediaServer

open Lib

/-- The answers still to be given before the next `Timeout`. -/
abbrev Script := List Output

namespace Script

/-- A packet of the given payload type. -/
def packet (payloadType : UInt8) (payload : Bytes) : RtpPacket :=
  { seqNo := 1
    time := { numer := 0, denom := 90000 }
    header := { payloadType, timestamp := 0, marker := false, extVals := [] }
    payload
    timestamp := 0 }

/-- The answers a datagram is worth. -/
def heard : Bytes → List Output
  | 1 :: _ => [.event .connected]
  | 2 :: _ => [.event (.mediaAdded "a" .audio)]
  | 3 :: _ => [.event (.mediaAdded "v" .video)]
  | 4 :: payloadType :: payload => [.event (.rtpPacket (packet payloadType payload))]
  | 5 :: _ => [.event (.iceConnectionStateChange .disconnected)]
  | 6 :: _ => [.event (.keyframeRequest "v" .pli)]
  | _ => []

def handleInput (script : Script) : Input → Except ExternError Unit × Script
  | .timeout _ => (.ok (), script)
  | .receive _ r => (.ok (), script ++ heard r.contents)

def pollOutput : Script → Except ExternError Output × Script
  | [] => (.ok (.timeout 0), [])
  | answer :: rest => (.ok answer, rest)

/-- The scripted engine; a datagram that starts with 9 is not one `decode` accepts. -/
def engine : Extern Script where
  SdpOffer := String
  Candidate := SocketAddr
  candidateHost := .ok
  addLocalCandidate script _ := script
  enableTwccFeedback script := script
  fromSdpString sdp := if sdp = "" then .error "empty offer" else .ok sdp
  acceptOffer script _ := (.ok [], script)
  receiveNew source destination buf :=
    if buf = [] then .error "empty datagram"
    else .ok { source, destination, contents := buf }
  handleInput := handleInput
  pollOutput := pollOutput
  streamRxByMid _ _ := none
  streamTxByMid script _ := some { writeRtp := fun _ => (.ok (), script) }
  decodeStun
    | 0 :: username => .ok (some (String.ofList (username.map fun b => Char.ofNat b.toNat)))
    | 9 :: _ => .error "not a message"
    | _ => .ok none
  hashTrack channel kind := UInt64.ofNat (2 * channel.length + if kind = .audio then 0 else 1)
  pending := List.length
  pending_lt := by
    intro script o rest h ho
    cases script with
    | nil =>
        simp only [pollOutput, Prod.mk.injEq, Except.ok.injEq] at h
        exact absurd h.1.symm (ho 0)
    | cons answer tail =>
        simp only [pollOutput, Prod.mk.injEq] at h
        simp [h.2]

def addr : SocketAddr := { ip := .v4 0x7F000001, port := 4000 }

/-- A peer's address. -/
def peer (n : Nat) : SocketAddr := { ip := .v4 0x0A000001, port := BitVec.ofNat 16 n }

def request (reqId : Nat) (path : String) (body : Bytes) : HttpRequest :=
  { reqId, method := "POST", path, headers := ∅, body }

/-- A request whose session, if it opens one, has this ufrag and begins with this script. -/
def arrival (reqId : Nat) (path : String) (body : Bytes) (ufrag : String) (script : Script) :
    Worker.HttpArrival Script :=
  { event := .httpRequest (request reqId path body)
    config := { ufrag, rtc := script }
    now := 0 }

def datagram (n : Nat) (buf : Bytes) : Worker.Datagram := { buf, remote := peer n, now := 0 }

end Script

end MediaServer
