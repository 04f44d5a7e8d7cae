/-
`net/socket2_mmsg.rs`: the socket that sends in batches.

A datagram is copied into the next slot, and `sendmmsg` is given all the slots that are
in use, when there are no more of them or when the caller says so.  What `sendmmsg`
answers is a parameter of the call that makes it: how many datagrams of the batch the
kernel took, or an error.

The queue is empty before it is known what became of it: `commit_send_to` sets
`queue_len` to zero first, and looks at the answer for an error only.
-/
import MediaServer.Net.Socket2IoUring
import MediaServer.Lib.Batch

namespace MediaServer.Mmsg

open Lib
open Uring (IoError Message SocketPanic sendBufSize)

/-- A packet as it is handed over: the bytes of a slot, and its address. -/
abbrev Packet := Bytes × Option SocketAddr

structure UdpSocket2Mmsg (queue : Nat) where
  /-- The buffer of a slot, and how much of it is in use. -/
  bufs : Nat → Bytes × Nat
  addrs : Nat → Option SocketAddr
  queueLen : Nat

variable {queue : Nat}

namespace UdpSocket2Mmsg

def new (queue : Nat) : UdpSocket2Mmsg queue :=
  { bufs := fun _ => (List.replicate sendBufSize 0, 0)
    addrs := fun _ => none
    queueLen := 0 }

/-- The `iovs` and the addresses of the first `size` slots. -/
def packets (size : Nat) (sock : UdpSocket2Mmsg queue) : List Packet :=
  (List.range size).map fun i => ((sock.bufs i).1.take (sock.bufs i).2, sock.addrs i)

def commitSendTo (answer : Except IoError Nat) (sock : UdpSocket2Mmsg queue) :
    Except SocketPanic
      (Except IoError Unit × UdpSocket2Mmsg queue × Flush IoError Packet) :=
  let size := sock.queueLen
  let sock := { sock with queueLen := 0 }
  if size ≤ queue ∧ ∀ i < size, (sock.bufs i).2 ≤ sendBufSize then
    .ok (answer.map fun _ => (), sock, { batch := sock.packets size, answer })
  else .error .outOfBounds

/-- `add_send_to` once there is a slot. -/
def store (buf : Bytes) (dest : SocketAddr) (sock : UdpSocket2Mmsg queue) :
    Except SocketPanic (UdpSocket2Mmsg queue) :=
  let slot := sock.queueLen
  if slot < queue ∧ buf.length ≤ sendBufSize then
    .ok
      { bufs := fun i =>
          if i = slot then (buf ++ (sock.bufs slot).1.drop buf.length, buf.length) else sock.bufs i
        addrs := fun i => if i = slot then some dest else sock.addrs i
        queueLen := slot + 1 }
  else .error .outOfBounds

def addSendTo (buf : Bytes) (dest : SocketAddr) (answer : Except IoError Nat)
    (sock : UdpSocket2Mmsg queue) :
    Except SocketPanic
      (Except IoError Nat × UdpSocket2Mmsg queue × Option (Flush IoError Packet)) :=
  if sock.queueLen = queue then
    match sock.commitSendTo answer with
    | .error p => .error p
    | .ok (.error e, sock, flush) => .ok (.error e, sock, some flush)
    | .ok (.ok (), sock, flush) =>
        (store buf dest { sock with queueLen := 0 }).map fun sock =>
          (.ok buf.length, sock, some flush)
  else (sock.store buf dest).map fun sock => (.ok buf.length, sock, none)

end UdpSocket2Mmsg

/-! ### Calls -/

inductive Label
  /-- With the answer to the `sendmmsg` it makes, if it makes one. -/
  | addSendTo (buf : Bytes) (dest : SocketAddr) (answer : Except IoError Nat)
  | commitSendTo (answer : Except IoError Nat)

/-- The socket, and what came of the calls so far. -/
structure System (queue : Nat) where
  sock : UdpSocket2Mmsg queue
  /-- What the last call returned. -/
  outcome : Option (Except IoError Nat)
  /-- The datagrams `add_send_to` has returned `Ok` for. -/
  accepted : List Message
  /-- The calls of `sendmmsg`. -/
  flushes : List (Flush IoError Packet)

namespace System

def start (queue : Nat) : System queue :=
  { sock := .new queue
    outcome := none
    accepted := []
    flushes := [] }

def addSendTo (buf : Bytes) (dest : SocketAddr) (answer : Except IoError Nat) (s : System queue) :
    Except SocketPanic (System queue) :=
  (s.sock.addSendTo buf dest answer).map fun (r, sock, flush) =>
    { sock
      outcome := some r
      accepted := if r.toBool then s.accepted ++ [(buf, dest)] else s.accepted
      flushes := s.flushes ++ flush.toList }

def commitSendTo (answer : Except IoError Nat) (s : System queue) :
    Except SocketPanic (System queue) :=
  (s.sock.commitSendTo answer).map fun (r, sock, flush) =>
    { s with
      sock
      outcome := some (r.map fun _ => 0)
      flushes := s.flushes ++ [flush] }

/-- One call; there is no step from where it panics. -/
def step (s : System queue) : Label → Option (System queue)
  | .addSendTo buf dest answer => (s.addSendTo buf dest answer).toOption
  | .commitSendTo answer => (s.commitSendTo answer).toOption

end System

end MediaServer.Mmsg
