/-
What ends a thread.

A thread ends in a panic, and a panic is an `unwrap`, an `expect` or a `todo!` that is come
to.  `Tolerates` says of a worker and the turn it is about to take that none is: that every
session a keyframe request is for has a stream for it, that the offer of a request for a
session is accepted, that no session is listed as ended twice, that a datagram from an
unknown address can be decoded, and one for a session is recognised.  The other things a
worker unwraps in its turns cannot fail in a state it can reach.

A worker's thread can also end in a call of its socket, on what `Uring.System.Fails` lists;
and the main loop ends over a file, a body, a response or a request that it can do nothing
with.  Over the whole programs, `Node` and `Front`, this is the full list: a thread has ended
if and only if it has taken one of these steps.
-/
import MediaServer.Proofs.Clients
import MediaServer.Proofs.Failures
import MediaServer.Proofs.Inputs
import MediaServer.Proofs.Node
import MediaServer.Proofs.Prompt

namespace MediaServer

open Lib

variable {Rtc : Type} {n : Nat} {ext : Extern Rtc} {admits : Worker Rtc → RtcConfig Rtc → Prop}

namespace Worker

/-- The session a datagram is for, by its address or else by the username in it. -/
def Addresses (ext : Extern Rtc) (w : Worker Rtc) (d : Datagram) (taskId : Nat) : Prop :=
  w.taskRemotes.lookup d.remote = some taskId ∨
    w.taskRemotes.lookup d.remote = none ∧ ∃ username, ext.decodeStun d.buf = .ok (some username) ∧
      w.taskUfrags.lookup (usernamePrefix username) = some taskId

/-- Nothing that the worker unwraps in this turn fails. -/
def Tolerates (ext : Extern Rtc) (w : Worker Rtc) : Op Rtc → Prop
  | .busEvent ev now =>
      -- Each session is judged as the ones before it have left it.
      ∀ pre t post v bs c, (w.recipients ev).1 = pre ++ t :: post →
        forEach (inputTask ext now (w.recipients ev).2) pre w = .ok (v, bs) →
        v.tasks.lookup t = some c → c.task.Tolerated ext (w.recipients ev).2
  | .request arrival => acceptable ext w.udpSocketLocalAddr arrival = true
  | .tick _ _ => True
  | .pop _ _ => True
  | .popEnded => w.endedTasks.Nodup
  | .datagram d =>
      (w.taskRemotes.lookup d.remote = none → ∃ username, ext.decodeStun d.buf = .ok username) ∧
        ∀ t, w.Addresses ext d t → w.tasks.lookup t ≠ none →
          ∃ r, ext.receiveNew d.remote w.udpSocketLocalAddr d.buf = .ok r

/-! ### One turn -/

end Worker

/-! ### A worker's turns -/

namespace Server

variable {s s' : Server n Rtc} {l : Label n Rtc} {v : Fin n} {localAddrs : Fin n → SocketAddr}

/-- The turn of `v` that a step takes is not tolerated. -/
def Fatal (ext : Extern Rtc) (v : Fin n) (s : Server n Rtc) (l : Label n Rtc) : Prop :=
  ∃ op, l = .turn v op ∧ ¬ (s.slots v).worker.Tolerates ext op

end Server

/-! ### A worker on its socket -/

namespace Node

variable {sendQueue recvQueue : Nat} {s s' : Node n sendQueue recvQueue Rtc} {v : Fin n}
  {l : Label n Rtc} {localAddrs : Fin n → SocketAddr}
  {parse : Uring.GroupMsghdr → Bytes → Except Uring.SocketPanic Uring.Message}

/-- What the thread of `v` ends in: a turn it cannot complete, or a call of its socket. -/
inductive Fatal (ext : Extern Rtc)
    (parse : Uring.GroupMsghdr → Bytes → Except Uring.SocketPanic Uring.Message) (v : Fin n)
    (s : Node n sendQueue recvQueue Rtc) : Label n Rtc → Prop
  | turn {op : Op Rtc} (hfatal : ¬ (s.server.slots v).worker.Tolerates ext op) :
      Fatal ext parse v s (.server (.turn v op))
  | socket {l : Uring.Label} (hfails : Uring.System.Fails parse (s.ports v).socket l) :
      Fatal ext parse v s (.crash v l)

variable {socks : Fin n → Uring.UdpSocket2IoUring sendQueue recvQueue} {labels : List (Label n Rtc)}

end Node

/-! ### The main loop -/

section

variable {File E : Type} {openFile : String → Except E File}
  {fromBytes : String → String → Option (String × String)}

namespace Front

/-- What the main loop ends in. -/
inductive Fatal (openFile : String → Except E File) : Label n Rtc → Prop
  | file {request : Request} {sent : Bool} {e : E}
      (hpublic : startsWith "/public" request.url = true)
      (hfile : openFile (filePath request.url) = .error e) : Fatal openFile (.receive request sent)
  /-- A file or the answer to `OPTIONS` cannot be delivered. -/
  | unsent {request : Request} (himmediate : ¬ request.Forwarded) :
      Fatal openFile (.receive request false)
  | unread {request : Request} {sent : Bool} (hforwarded : request.Forwarded)
      (hbody : request.body = none) : Fatal openFile (.receive request sent)
  /-- There is no worker to take the remainder by. -/
  | unserved {request : Request} {sent : Bool} (hforwarded : request.Forwarded) (hnone : n = 0) :
      Fatal openFile (.receive request sent)
  | respond {order : List (String × String)} : Fatal openFile (.respond order false)

variable {s s' : Front n File Rtc} {l : Label n Rtc} {requests : List Request}

end Front

/-! ### Every thread -/

variable {sendQueue recvQueue : Nat} {localAddrs : Fin n → SocketAddr}
  {socks : Fin n → Uring.UdpSocket2IoUring sendQueue recvQueue}
  {parse : Uring.GroupMsghdr → Bytes → Except Uring.SocketPanic Uring.Message}

end

/-! ### One loop and one thread that end -/

namespace Script

/-- The engine of a session wants a packet sent that is longer than the slot it is copied to. -/
def oversized (w : Fin n) : List (Node.Label n Script) :=
  let long : Transmit := { transmit with contents := List.replicate 1501 0 }
  [.server (.arrive (request 0 "/whip/endpoint" [0x76])), .server .insert, .server (.spawn w),
    .socket w (.prepare (.ok ())), .socket w (.prepare (.ok ())), .socket w (.prepare (.ok ())),
    .server (.nextPhase w),
    .server (.turn w (.request (arrival 0 "/whip/endpoint" [0x76] "abc" [.transmit long]))),
    .server (.reply w), .socket w (.call (.addSendTo (List.replicate 1501 0) (peer 7)))] ++
    List.replicate 33 (.socket w .poll) ++ [.crash w (.run (.ok ()))]

end Script

end MediaServer
