/-
What a call of the socket panics on.

A call has many `expect`s, and most of them cannot fail: a free slot is one of the slots, a
buffer that waits is one of the buffers, an entry with more to come names its buffer, and
where there is more than one group every push finds room.  Three things are left (`Fails`):
the kernel refuses an `io_uring_enter` of `prepare_read`, a datagram is longer than the
buffer it is copied into, or what was received cannot be read.
-/
import MediaServer.Proofs.Queuing

namespace MediaServer.Uring.System

open Lib UdpSocket2IoUring

variable {sendQueue recvQueue : Nat} {parse : GroupMsghdr → Bytes → Except SocketPanic Message}
  {s : System sendQueue recvQueue} {sock : UdpSocket2IoUring sendQueue recvQueue} {l : Label}

/-- What cannot be done in a call, and ends the thread that makes it. -/
inductive Fails (parse : GroupMsghdr → Bytes → Except SocketPanic Message)
    (s : System sendQueue recvQueue) : Label → Prop
  | prepare {group : UInt16} {rest : List UInt16} {e : IoError}
      (hthread : s.thread = .preparing (group :: rest)) : Fails parse s (.prepare (.error e))
  | oversized {buf : Bytes} {dest : SocketAddr} {answer : Except IoError Unit}
      (hthread : s.thread = .ready (.addSendTo buf dest)) (hfree : s.sock.sendFreeQueue ≠ [])
      (hlong : sendBufSize < buf.length) : Fails parse s (.run answer)
  | unreadable {idx : UInt32} {rest : List UInt32} {p : SocketPanic} {answer : Except IoError Unit}
      (hthread : s.thread = .ready .recvFrom) (hwait : s.sock.readWaitQueue = idx :: rest)
      (hparse : parse s.sock.groupMsghdr (s.sock.readBufs idx.toNat) = .error p) :
      Fails parse s (.run answer)
  | rearm {e : IoError} (hthread : s.thread = .ready .finishReadFrom)
      (hwait : s.sock.readWaitQueue = []) (hfree : s.sock.readWaitFreeGroups ≠ []) :
      Fails parse s (.run (.error e))

section

variable (hnew : UdpSocket2IoUring.new sendQueue recvQueue = .ok sock) {as : List Label}
  (hrun : Visits (System.step parse) (System.start sock) as s)

include hnew hrun

variable (hring : sock.ring.entries = (sendQueue + recvQueue).nextPowerOfTwo)

include hring

variable (hgroups : 16 < recvQueue)

include hgroups

end

end MediaServer.Uring.System
