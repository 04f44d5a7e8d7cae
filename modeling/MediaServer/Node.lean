/-
`worker.rs` on its socket: the whole program on Linux.

`Server` takes a worker's turn as one step and leaves its sends out; the socket of
`socket2_io_uring.rs` takes calls and does not know who makes them.  Here every worker has
its socket.  A turn leaves, in order, the sends and the shared actions it has still to
perform, and the thread performs them one by one: a send is a call of `add_send_to`, with
every turn of its `poll_completions` a step of its own and the kernel at work in between.
In `process_udp` the thread calls `recv_from`, and a turn is about the datagram that call
has returned, until one returns nothing; then it calls `commit_send_to` and
`finish_read_from`, whose errors are only logged.

A panic in a call of the socket ends the thread as any other panic does.
-/
import MediaServer.Net.Socket2IoUring
import MediaServer.Server

namespace MediaServer

open Lib

variable {Rtc : Type} {n sendQueue recvQueue : Nat}

/-! ### Panics of the socket -/

namespace Uring.System

/-- The panic there is instead of a step, if there is one. -/
def panics (parse : GroupMsghdr → Bytes → Except SocketPanic Message)
    (s : System sendQueue recvQueue) : Uring.Label → Option SocketPanic
  | .prepare answer =>
      match s.thread with
      | .preparing (group :: _) => failure (s.prepareRead answer group)
      | _ => none
  | .poll =>
      match s.thread, s.sock.ring.completion with
      | .polling _, cqe :: rest =>
          failure (({ s.sock with ring := { s.sock.ring with completion := rest } } :
            UdpSocket2IoUring sendQueue recvQueue).complete cqe)
      | _, _ => none
  | .run answer =>
      match s.thread with
      | .ready c => failure (s.run parse answer c)
      | _ => none
  | .kernel _ | .call _ => none

end Uring.System

/-! ### A worker's socket -/

/-- How far the end of a cycle has come. -/
inductive Closing
  /-- `process_udp` is still to begin, or goes on. -/
  | receiving
  | committing
  | finishing
  | finished
  deriving DecidableEq

/-- The actions of a turn that are not over with it. -/
def Action.isOutward : Action → Bool
  | .sendTo _ _ => true
  | action => action.isShared

/-- A worker's `udp_socket`, and what its thread is doing with it. -/
structure Port (sendQueue recvQueue : Nat) where
  socket : Uring.System sendQueue recvQueue
  /-- What the last turn leaves to do, the sends and the shared actions. -/
  todo : List Action
  /-- What `recv_from` has returned and `process_udp` has not handled yet. -/
  received : Option Uring.Message
  closing : Closing

namespace Port

def new (sock : Uring.UdpSocket2IoUring sendQueue recvQueue) : Port sendQueue recvQueue :=
  { socket := .start sock, todo := [], received := none, closing := .receiving }

/-- The thread is in no call and has nothing left to do. -/
def ready (port : Port sendQueue recvQueue) : Prop :=
  port.socket.thread = .idle ∧ port.todo = []

instance (port : Port sendQueue recvQueue) : Decidable port.ready :=
  inferInstanceAs (Decidable (_ ∧ _))

/-- The next thing to do is a shared action. -/
def atShared (port : Port sendQueue recvQueue) : Prop :=
  port.socket.thread = .idle ∧ port.todo.head?.any Action.isShared = true

instance (port : Port sendQueue recvQueue) : Decidable port.atShared :=
  inferInstanceAs (Decidable (_ ∧ _))

/-- The call the thread makes next, if it makes one. -/
def nextCall (phase : Phase) (port : Port sendQueue recvQueue) : Option Uring.Call :=
  match port.todo with
  | .sendTo dst buf :: _ => some (.addSendTo buf dst)
  | _ :: _ => none
  | [] =>
      match phase, port.closing, port.received with
      | .udp, .receiving, none => some .recvFrom
      | .udp, .committing, _ => some .commitSendTo
      | .udp, .finishing, _ => some .finishReadFrom
      | _, _, _ => none

/-- What the thread makes of the call it has come back from. -/
def returned (c : Uring.Call) (socket : Uring.System sendQueue recvQueue)
    (port : Port sendQueue recvQueue) : Port sendQueue recvQueue :=
  match c with
  | .addSendTo _ _ => { port with socket, todo := port.todo.tail }
  | .recvFrom =>
      match socket.outcome with
      | some (.recvFrom (.ok msg)) => { port with socket, received := some msg }
      | _ => { port with socket, closing := .committing }
  | .commitSendTo => { port with socket, closing := .finishing }
  | .finishReadFrom => { port with socket, closing := .finished }

/-- The thread after a step of its socket. -/
def after (l : Uring.Label) (socket : Uring.System sendQueue recvQueue)
    (port : Port sendQueue recvQueue) : Port sendQueue recvQueue :=
  match l, port.socket.thread with
  | .run _, .ready c => port.returned c socket
  | _, _ => { port with socket }

/-- Whether a turn is about what `recv_from` has returned, or about nothing it has. -/
def takes (port : Port sendQueue recvQueue) : Op Rtc → Prop
  | .datagram d => port.received = some (d.buf, d.remote)
  | _ => port.received = none

instance (port : Port sendQueue recvQueue) (op : Op Rtc) : Decidable (port.takes op) :=
  match op with
  | .datagram _ => inferInstanceAs (Decidable (_ = _))
  | .busEvent _ _ | .request _ | .tick _ _ | .pop _ _ | .popEnded =>
      inferInstanceAs (Decidable (_ = _))

end Port

/-! ### The whole program -/

structure Node (n sendQueue recvQueue : Nat) (Rtc : Type) where
  server : Server n Rtc
  ports : Fin n → Port sendQueue recvQueue

inductive Node.Label (n : Nat) (Rtc : Type)
  | server (l : MediaServer.Label n Rtc)
  | socket (w : Fin n) (l : Uring.Label)
  /-- A panic in place of a step of the socket. -/
  | crash (w : Fin n) (l : Uring.Label)

namespace Node

def new (localAddrs : Fin n → SocketAddr)
    (socks : Fin n → Uring.UdpSocket2IoUring sendQueue recvQueue) :
    Node n sendQueue recvQueue Rtc :=
  { server := .new localAddrs, ports := fun w => .new (socks w) }

def setPort (w : Fin n) (port : Port sendQueue recvQueue) (s : Node n sendQueue recvQueue Rtc) :
    Node n sendQueue recvQueue Rtc :=
  { s with ports := fun v => if v = w then port else s.ports v }

/-- Whether the sockets are where a step of the server can be taken. -/
def allows (s : Node n sendQueue recvQueue Rtc) : MediaServer.Label n Rtc → Prop
  | .turn w op => (s.ports w).ready ∧ (s.ports w).takes op
  | .nextPhase w =>
      (s.ports w).ready ∧ (s.ports w).received = none ∧
        ((s.server.slots w).phase = .udp → (s.ports w).closing = .finished)
  | .startPop w _ _ => (s.ports w).ready ∧ (s.ports w).received = none
  | .reply w | .lock w | .acquire w | .broadcast w => (s.ports w).atShared
  | .arrive _ | .insert | .respond | .spawn _ => True

instance (s : Node n sendQueue recvQueue Rtc) (l : MediaServer.Label n Rtc) :
    Decidable (s.allows l) :=
  match l with
  | .turn _ _ | .nextPhase _ | .startPop _ _ _ => inferInstanceAs (Decidable (_ ∧ _))
  | .reply w | .lock w | .acquire w | .broadcast w =>
      inferInstanceAs (Decidable (s.ports w).atShared)
  | .arrive _ | .insert | .respond | .spawn _ => isTrue trivial

/-- What a step of the server does to the thread that takes it. -/
def follow (ext : Extern Rtc) (l : MediaServer.Label n Rtc) (s : Node n sendQueue recvQueue Rtc) :
    Fin n → Port sendQueue recvQueue :=
  match l with
  | .turn w _ =>
      (s.setPort w { s.ports w with
        todo := ((s.server.emitted ext l).map Prod.snd).filter Action.isOutward
        received := none }).ports
  | .nextPhase w => (s.setPort w { s.ports w with closing := .receiving }).ports
  | .reply w | .broadcast w =>
      (s.setPort w { s.ports w with todo := (s.ports w).todo.tail }).ports
  | .arrive _ | .insert | .respond | .spawn _ | .startPop _ _ _ | .lock _ | .acquire _ => s.ports

/-- Whether a thread is where its socket can take a step; the kernel always can. -/
def admits (s : Node n sendQueue recvQueue Rtc) (w : Fin n) : Uring.Label → Prop
  | .kernel _ => True
  | .call c =>
      (s.server.slots w).phase ≠ .panicked ∧
        (s.ports w).nextCall (s.server.slots w).phase = some c
  | .prepare _ | .poll | .run _ =>
      (s.server.slots w).phase ≠ .starting ∧ (s.server.slots w).phase ≠ .panicked

instance (s : Node n sendQueue recvQueue Rtc) (w : Fin n) (l : Uring.Label) :
    Decidable (s.admits w l) :=
  match l with
  | .kernel _ => isTrue trivial
  | .call _ | .prepare _ | .poll | .run _ => inferInstanceAs (Decidable (_ ∧ _))

/-- A thread that panicked in a call: it is gone, with what it had still to do. -/
def crashed (w : Fin n) (s : Node n sendQueue recvQueue Rtc) : Node n sendQueue recvQueue Rtc :=
  { s.setPort w { s.ports w with todo := [] } with
    server := s.server.setSlot w { (s.server.slots w).panic with outgoing := [] } }

/-! ### One step -/

def step (ext : Extern Rtc)
    (parse : Uring.GroupMsghdr → Bytes → Except Uring.SocketPanic Uring.Message)
    (s : Node n sendQueue recvQueue Rtc) : Label n Rtc → Option (Node n sendQueue recvQueue Rtc)
  | .server l =>
      if s.allows l then
        (s.server.step ext l).map fun server => { server, ports := s.follow ext l }
      else none
  | .socket w l =>
      if s.admits w l then
        ((s.ports w).socket.step parse l).map fun socket =>
          s.setPort w ((s.ports w).after l socket)
      else none
  | .crash w l =>
      if s.admits w l ∧ ((s.ports w).socket.panics parse l).isSome then some (s.crashed w)
      else none

/-- What the turn a step takes does, with the worker that does it. -/
def emitted (ext : Extern Rtc) (s : Node n sendQueue recvQueue Rtc) :
    Label n Rtc → List (Fin n × Action)
  | .server l => s.server.emitted ext l
  | .socket _ _ | .crash _ _ => []

end Node

end MediaServer
