/-
What crosses the boundary of the server: `io.rs` and `http.rs`.

Requests and responses carry the fields the source gives them.  A header map is a
`Table`; a body is its bytes.  A request that cannot be served does not fail with an
error value in this program: it panics, and a panic ends the thread it happens in, so
the functions that can panic return `Except Panic` and nothing is modelled of a
thread after one.
-/
import MediaServer.Lib.Table

namespace MediaServer

open Lib

/-- `IpAddr`, as its bits. -/
inductive IpAddr
  | v4 (octets : BitVec 32)
  | v6 (segments : BitVec 128)
  deriving DecidableEq, Repr

structure SocketAddr where
  ip : IpAddr
  port : BitVec 16
  deriving DecidableEq, Repr

abbrev Bytes := List UInt8

/-- `Instant`, in some unit since some origin; only comparisons are ever made. -/
abbrev Instant := Nat

/-- The places where a worker panics, and where main does over an answer. -/
inductive Panic
  | createCandidate
  | parseOffer
  | acceptOffer
  | parseUdp
  | videoMid
  | todoHttpRequest
  | whipEvent
  | whepEvent
  | workerEvent
  | mainEvent
  | stunDecode
  | noTask
  | noRequest
  deriving DecidableEq, Repr

/-! ### Requests, responses and events -/

structure HttpRequest where
  reqId : Nat
  method : String
  path : String
  headers : Table String String
  body : Bytes
  deriving DecidableEq

structure HttpResponse where
  reqId : Nat
  status : Nat
  headers : Table String String
  body : Bytes
  deriving DecidableEq

inductive IoEvent
  | httpRequest (req : HttpRequest)
  | udpSocketRecv (src dst : SocketAddr) (buf : Bytes)
  deriving DecidableEq

inductive IoAction
  | httpResponse (res : HttpResponse)
  | udpSocketSend (src dst : SocketAddr) (buf : Bytes)
  deriving DecidableEq

/-- The channel a request names: its `Authorization` header in one of two spellings. -/
def getHttpAuth (req : HttpRequest) : String :=
  match req.headers.lookup "Authorization" with
  | some auth => auth
  | none =>
      match req.headers.lookup "authorization" with
      | some auth => auth
      | none => "demo"

/-! ### `String::from_utf8_lossy`

The offer reaches the SDP parser through the lossy decoder of the standard library,
which replaces every maximal ill-formed prefix by `U+FFFD`.
-/

namespace Utf8

def isContinuation (b : UInt8) : Bool := 0x80 ≤ b && b ≤ 0xBF

/-- How many bytes a sequence that starts with `b` has; 0 if none starts with it. -/
def width (b : UInt8) : Nat :=
  if b ≤ 0x7F then 1
  else if 0xC2 ≤ b && b ≤ 0xDF then 2
  else if 0xE0 ≤ b && b ≤ 0xEF then 3
  else if 0xF0 ≤ b && b ≤ 0xF4 then 4
  else 0

/-- The second byte is where overlong forms, surrogates and too large values are caught. -/
def secondOk (b₀ b₁ : UInt8) : Bool :=
  if b₀ = 0xE0 then 0xA0 ≤ b₁ && b₁ ≤ 0xBF
  else if b₀ = 0xED then 0x80 ≤ b₁ && b₁ ≤ 0x9F
  else if b₀ = 0xF0 then 0x90 ≤ b₁ && b₁ ≤ 0xBF
  else if b₀ = 0xF4 then 0x80 ≤ b₁ && b₁ ≤ 0x8F
  else isContinuation b₁

def replacement : Char := Char.ofNat 0xFFFD

/-- The low six bits of a continuation byte. -/
def low (b : UInt8) : Nat := b.toNat % 64

/-- The character a sequence starts with, and how many bytes after the first it takes. -/
def decodeFirst (b₀ : UInt8) (rest : Bytes) : Char × Nat :=
  match width b₀, rest with
  | 1, _ => (Char.ofNat b₀.toNat, 0)
  | 2, b₁ :: _ =>
      if isContinuation b₁ then (Char.ofNat (b₀.toNat % 32 * 64 + low b₁), 1)
      else (replacement, 0)
  | 3, b₁ :: tail =>
      if !secondOk b₀ b₁ then (replacement, 0)
      else match tail with
        | b₂ :: _ =>
            if isContinuation b₂ then
              (Char.ofNat ((b₀.toNat % 16 * 64 + low b₁) * 64 + low b₂), 2)
            else (replacement, 1)
        | [] => (replacement, 1)
  | 4, b₁ :: tail =>
      if !secondOk b₀ b₁ then (replacement, 0)
      else match tail with
        | b₂ :: tail =>
            if !isContinuation b₂ then (replacement, 1)
            else match tail with
              | b₃ :: _ =>
                  if isContinuation b₃ then
                    (Char.ofNat
                      (((b₀.toNat % 8 * 64 + low b₁) * 64 + low b₂) * 64 + low b₃), 3)
                  else (replacement, 2)
              | [] => (replacement, 2)
        | [] => (replacement, 1)
  | _, _ => (replacement, 0)

/-- Each character takes at least one byte, so as many turns as there are bytes suffice. -/
def decodeChars : Nat → Bytes → List Char
  | 0, _ => []
  | _, [] => []
  | fuel + 1, b :: rest =>
      let (c, n) := decodeFirst b rest
      c :: decodeChars fuel (rest.drop n)

end Utf8

def fromUtf8Lossy (body : Bytes) : String :=
  String.ofList (Utf8.decodeChars body.length body)

example : fromUtf8Lossy [0x76, 0xC3, 0xA9, 0xFF, 0xE2, 0x82] = "vé\uFFFD\uFFFD" := by decide

end MediaServer
