/-
`net/socket2_io_uring.rs`: the socket on top of the ring.

The socket keeps a packet per send slot and a buffer per receive slot, and three
queues of numbers that say which of them it may touch: the send slots that are free,
the receive buffers that hold a datagram it has yet to return, and the groups of
receive buffers whose request has ended.  Everything else about a slot or a buffer is
the kernel's to know.

The kernel works while the program does, so a call is not one step.  It is taken the
way the source writes it: the turns of `poll_completions`, each at one completion
entry, for as long as there is one, and then the rest of the call; between any two of
those the kernel may do something.  What an `io_uring_enter` answers is a parameter of
the step that makes it.

The sizes are parameters, as in the source, and are cut to the widths the source cuts
them to.  `RecvMsgOut::parse` and the reading of a socket address out of the name it
finds are the parameter `parse`; what they do with a packet from an IPv4 address is
`parseV4`.
-/
import MediaServer.Net.Uring

namespace MediaServer.Uring

/-! ### Numbers -/

/-- `RECV_BUF_SIZE`. -/
def recvBufSize : Nat := 1532

/-- `RECV_BUF_GROUP_SIZE`. -/
def recvBufGroupSize : UInt32 := 16

/-- The size of a packet's buffer. -/
def sendBufSize : Nat := 1500

namespace GroupIndex

def toU32 (group index : UInt16) : UInt32 := group.toUInt32 * recvBufGroupSize + index.toUInt32

def index (idx : UInt32) : UInt16 := (idx % recvBufGroupSize).toUInt16

end GroupIndex

inductive UserData
  | send (idx : UInt32)
  | recv (group : UInt16)
  | provideBuffers (idx : UInt32)
  deriving DecidableEq

namespace UserData

/-- `Into<u64>`. -/
def encode : UserData → UInt64
  | .send idx => idx.toUInt64
  | .recv idx => 0x0100000000 ||| idx.toUInt64
  | .provideBuffers idx => 0x0200000000 ||| idx.toUInt64

/-- `From<u64>`. -/
def decode (data : UInt64) : UserData :=
  if data >>> 32 = 0x01 then .recv (data &&& 0x0000ffff).toUInt16
  else if data >>> 32 = 0x02 then .provideBuffers (data &&& 0xffffffff).toUInt32
  else .send (data &&& 0xffffffff).toUInt32

end UserData

/-! ### Errors -/

/-- An `io::Error`. -/
inductive IoError
  | wouldBlock (message : String)
  /-- What `io_uring_enter` answered. -/
  | os (code : Nat)
  deriving DecidableEq

inductive SocketPanic
  | recvQueueSize
  | createRing
  | pushProvideBufs
  | pushRecvmsg
  | pushSendmsg
  | submit
  | selectBuffer
  | parseRecvMsg
  | notAddr
  | outOfBounds
  deriving DecidableEq

/-- The `expect`s on a `push`. -/
def SocketPanic.isPush : SocketPanic → Bool
  | .pushProvideBufs | .pushRecvmsg | .pushSendmsg => true
  | .recvQueueSize | .createRing | .submit | .selectBuffer | .parseRecvMsg => false
  | .notAddr | .outOfBounds => false

/-! ### Packets -/

/-- `SockAddr::len`. -/
def addrLen (addr : SocketAddr) : Nat :=
  match addr.ip with
  | .v4 _ => 16
  | .v6 _ => 28

/-- A packet; a pointer into the send buffers is the number of the packet it points into. -/
structure NetPacket where
  msgName : Option Nat
  msgNamelen : Nat
  msgIov : Option Nat
  msgIovlen : Nat
  buf : Bytes
  addr : SocketAddr
  iovBase : Option Nat
  iovLen : Nat

def NetPacket.default : NetPacket :=
  { msgName := none
    msgNamelen := 0
    msgIov := none
    msgIovlen := 0
    buf := List.replicate sendBufSize 0
    addr := { ip := .v4 0x7F000001, port := 0 }
    iovBase := none
    iovLen := 0 }

/-- The packet the header of `slot` leads to; none, if a pointer is null or a length is off. -/
def message (sendBufs : Nat → NetPacket) (slot : UInt32) : Option Message :=
  let pkt := sendBufs slot.toNat
  match pkt.msgName, pkt.msgIov with
  | some name, some iov =>
      match (sendBufs iov).iovBase with
      | some base =>
          if pkt.msgIovlen = 1 ∧ pkt.msgNamelen = addrLen (sendBufs name).addr then
            some ((sendBufs base).buf.take (sendBufs iov).iovLen, (sendBufs name).addr)
          else none
      | none => none
  | _, _ => none

/-! ### The socket -/

/-- `group_msghdr`: of the header for receiving, what anybody reads. -/
structure GroupMsghdr where
  msgNamelen : Nat
  msgControllen : Nat

/-- `RecvMsgOut::parse(pkt, &group_msghdr)`, and the address in the name. -/
def parseV4 (hdr : GroupMsghdr) (buf : Bytes) : Except SocketPanic Message :=
  match RecvMsgOut.parse hdr.msgNamelen hdr.msgControllen buf with
  | none => .error .parseRecvMsg
  | some (name, payload) =>
      match asSocket name with
      | none => .error .notAddr
      | some addr => .ok (payload, addr)

structure UdpSocket2IoUring (sendQueue recvQueue : Nat) where
  ring : IoUring
  sendBufs : Nat → NetPacket
  sendFreeQueue : List UInt32
  readBufs : Nat → Bytes
  readWaitQueue : List UInt32
  readWaitFreeGroups : List UInt16
  ringQueueChanged : Bool
  groupMsghdr : GroupMsghdr

variable {sendQueue recvQueue : Nat}

/-- The numbers `0 .. n` counted by a `u32`. -/
def indices (n : UInt32) : List UInt32 := (List.range n.toNat).map UInt32.ofNat

/-- The numbers `a .. b`. -/
def indexRange (a b : UInt32) : List UInt32 :=
  (List.range' a.toNat (b.toNat - a.toNat)).map UInt32.ofNat

namespace UdpSocket2IoUring

def new (sendQueue recvQueue : Nat) : Except SocketPanic (UdpSocket2IoUring sendQueue recvQueue) :=
  if recvQueue % recvBufGroupSize.toNat ≠ 0 then .error .recvQueueSize
  else
    match IoUring.new (UInt32.ofNat (sendQueue + recvQueue)) with
    | none => .error .createRing
    | some ring =>
        .ok { ring
              sendBufs := fun _ => .default
              sendFreeQueue := indices (UInt32.ofNat sendQueue)
              readBufs := fun _ => List.replicate recvBufSize 0
              readWaitQueue := []
              readWaitFreeGroups := []
              ringQueueChanged := false
              groupMsghdr := { msgNamelen := 0, msgControllen := 0 } }

def preapreWrite (sock : UdpSocket2IoUring sendQueue recvQueue) :
    UdpSocket2IoUring sendQueue recvQueue :=
  { sock with
    sendBufs := fun i =>
      if i < sendQueue then
        { sock.sendBufs i with
          iovBase := some i
          iovLen := (sock.sendBufs i).buf.length
          msgName := some i
          msgNamelen := addrLen (sock.sendBufs i).addr
          msgIov := some i
          msgIovlen := 1 }
      else sock.sendBufs i }

/-- One turn of the loop of `prepare_read`. -/
def provide (group : UInt16) (index : UInt32) (sock : UdpSocket2IoUring sendQueue recvQueue) :
    Except SocketPanic (UdpSocket2IoUring sendQueue recvQueue) :=
  if index.toNat < recvQueue then
    match sock.ring.push
      { opcode := .provideBuffers index recvBufSize group (GroupIndex.index index)
        userData := (UserData.provideBuffers index).encode } with
    | none => .error .pushProvideBufs
    | some ring => .ok { sock with ring }
  else .error .outOfBounds

def provideAll (group : UInt16) : List UInt32 → UdpSocket2IoUring sendQueue recvQueue →
    Except SocketPanic (UdpSocket2IoUring sendQueue recvQueue)
  | [], sock => .ok sock
  | index :: rest, sock =>
      match sock.provide group index with
      | .error p => .error p
      | .ok sock => provideAll group rest sock

/-- The buffers `prepare_read` provides for a group; `group + 1` wraps. -/
def groupBufs (group : UInt16) : List UInt32 :=
  indexRange (GroupIndex.toU32 group 0) (GroupIndex.toU32 (group + 1) 0)

/-- `prepare_read` up to its `submit`. -/
def pushRead (group : UInt16) (sock : UdpSocket2IoUring sendQueue recvQueue) :
    Except SocketPanic (UdpSocket2IoUring sendQueue recvQueue) :=
  match sock.provideAll group (groupBufs group) with
  | .error p => .error p
  | .ok sock =>
      let sock : UdpSocket2IoUring sendQueue recvQueue :=
        { sock with groupMsghdr := { msgNamelen := 32, msgControllen := 0 } }
      match sock.ring.push
        { opcode := .recvMsgMulti group, userData := (UserData.recv group).encode } with
      | none => .error .pushRecvmsg
      | some ring => .ok { sock with ring }

/-- The body of the loop of `poll_completions`. -/
def complete (cqe : Cqe) (sock : UdpSocket2IoUring sendQueue recvQueue) :
    Except SocketPanic (UdpSocket2IoUring sendQueue recvQueue) :=
  match UserData.decode cqe.userData with
  | .recv group =>
      if cqe.more then
        match cqe.buffer with
        | none => .error .selectBuffer
        | some idx =>
            .ok { sock with readWaitQueue := sock.readWaitQueue ++ [GroupIndex.toU32 group idx] }
      else .ok { sock with readWaitFreeGroups := sock.readWaitFreeGroups ++ [group] }
  | .send idx =>
      if cqe.more then .ok sock
      else .ok { sock with sendFreeQueue := sock.sendFreeQueue ++ [idx] }
  | .provideBuffers _ => .ok sock

/-- `add_send_to` after its `poll_completions`. -/
def addSendTo (buf : Bytes) (dest : SocketAddr) (sock : UdpSocket2IoUring sendQueue recvQueue) :
    Except SocketPanic (Except IoError Nat × UdpSocket2IoUring sendQueue recvQueue) :=
  match sock.sendFreeQueue with
  | [] => .ok (.error (.wouldBlock "Send queue is full"), sock)
  | pktIdx :: rest =>
      if pktIdx.toNat < sendQueue ∧ buf.length ≤ sendBufSize then
        let pkt := sock.sendBufs pktIdx.toNat
        let pkt :=
          { pkt with
            addr := dest
            buf := buf ++ pkt.buf.drop buf.length
            iovLen := buf.length
            msgNamelen := addrLen dest }
        match sock.ring.push
          { opcode := .sendMsgZc pktIdx, userData := (UserData.send pktIdx).encode } with
        | none => .error .pushSendmsg
        | some ring =>
            .ok (.ok buf.length,
              { sock with
                ring
                sendFreeQueue := rest
                sendBufs := fun i => if i = pktIdx.toNat then pkt else sock.sendBufs i
                ringQueueChanged := true })
      else .error .outOfBounds

/-- `recv_from` after its `poll_completions`. -/
def recvFrom (parse : GroupMsghdr → Bytes → Except SocketPanic Message)
    (sock : UdpSocket2IoUring sendQueue recvQueue) :
    Except SocketPanic (Except IoError Message × UdpSocket2IoUring sendQueue recvQueue) :=
  match sock.readWaitQueue with
  | idx :: rest =>
      if idx.toNat < recvQueue then
        match parse sock.groupMsghdr (sock.readBufs idx.toNat) with
        | .error p => .error p
        | .ok received => .ok (.ok received, { sock with readWaitQueue := rest })
      else .error .outOfBounds
  | [] => .ok (.error (.wouldBlock "No data to read"), sock)

end UdpSocket2IoUring

/-! ### Calls -/

/-- The calls of `UdpSocketGeneric` that may be made after `prepare`. -/
inductive Call
  | addSendTo (buf : Bytes) (dest : SocketAddr)
  | commitSendTo
  | recvFrom
  | finishReadFrom
  deriving DecidableEq

/-- Whether a call begins with `poll_completions`. -/
def Call.polls : Call → Bool
  | .addSendTo _ _ | .recvFrom => true
  | .commitSendTo | .finishReadFrom => false

/-- What a call returned. -/
inductive Outcome
  | addSendTo (r : Except IoError Nat)
  | commitSendTo (r : Except IoError Unit)
  | recvFrom (r : Except IoError Message)
  | finishReadFrom (r : Except IoError Unit)

/-- Where the program is in its use of the socket. -/
inductive Thread
  /-- In the loop of `prepare`, with these groups still to come. -/
  | preparing (todo : List UInt16)
  | idle
  /-- In the `poll_completions` a call begins with. -/
  | polling (c : Call)
  /-- Past it. -/
  | ready (c : Call)
  deriving DecidableEq

/-- The socket, the kernel and the program, and what the calls have returned so far. -/
structure System (sendQueue recvQueue : Nat) where
  sock : UdpSocket2IoUring sendQueue recvQueue
  kernel : Kernel
  thread : Thread
  /-- What the last call returned. -/
  outcome : Option Outcome
  /-- The datagrams `add_send_to` has returned `Ok` for. -/
  accepted : List Message
  /-- The datagrams `recv_from` has returned. -/
  returned : List Message
  /-- The buffers it has returned and that have not been provided again since. -/
  released : List UInt32

namespace System

/-- After `new`, and `preapre_write`. -/
def start (sock : UdpSocket2IoUring sendQueue recvQueue) : System sendQueue recvQueue :=
  { sock := sock.preapreWrite
    kernel := .new
    thread :=
      .preparing ((List.range (recvQueue / recvBufGroupSize.toNat)).map UInt16.ofNat)
    outcome := none
    accepted := []
    returned := []
    released := [] }

/-- `ring.submit()`, where `io_uring_enter` answers `answer`. -/
def submit (answer : Except IoError Unit) (s : System sendQueue recvQueue) :
    Except IoError Unit × System sendQueue recvQueue :=
  match answer with
  | .error e => (.error e, s)
  | .ok () =>
      let (kernel, cqes) :=
        Kernel.consumeAll (message s.sock.sendBufs) s.sock.ring.submission s.kernel
      let ring :=
        { s.sock.ring with submission := [], completion := s.sock.ring.completion ++ cqes }
      (.ok (), { s with sock := { s.sock with ring }, kernel })

def prepareRead (answer : Except IoError Unit) (group : UInt16) (s : System sendQueue recvQueue) :
    Except SocketPanic (System sendQueue recvQueue) :=
  match s.sock.pushRead group with
  | .error p => .error p
  | .ok sock =>
      match ({ s with sock } : System sendQueue recvQueue).submit answer with
      | (.error _, _) => .error .submit
      | (.ok (), s) =>
          .ok { s with released :=
            s.released.filter (· ∉ UdpSocket2IoUring.groupBufs group) }

def addSendTo (buf : Bytes) (dest : SocketAddr) (s : System sendQueue recvQueue) :
    Except SocketPanic (System sendQueue recvQueue) :=
  (s.sock.addSendTo buf dest).map fun r =>
    { s with
      sock := r.2
      outcome := some (.addSendTo r.1)
      accepted := if r.1.toBool then s.accepted ++ [(buf, dest)] else s.accepted }

def commitSendTo (answer : Except IoError Unit) (s : System sendQueue recvQueue) :
    System sendQueue recvQueue :=
  if s.sock.ringQueueChanged then
    match s.submit answer with
    | (.error e, s) => { s with outcome := some (.commitSendTo (.error e)) }
    | (.ok (), s) =>
        { s with
          sock := { s.sock with ringQueueChanged := false }
          outcome := some (.commitSendTo (.ok ())) }
  else { s with outcome := some (.commitSendTo (.ok ())) }

def recvFrom (parse : GroupMsghdr → Bytes → Except SocketPanic Message)
    (s : System sendQueue recvQueue) : Except SocketPanic (System sendQueue recvQueue) :=
  (s.sock.recvFrom parse).map fun r =>
    { s with
      sock := r.2
      outcome := some (.recvFrom r.1)
      returned := s.returned ++ r.1.toOption.toList
      released := s.released ++ s.sock.readWaitQueue.head?.toList }

def finishReadFrom (answer : Except IoError Unit) (s : System sendQueue recvQueue) :
    Except SocketPanic (System sendQueue recvQueue) :=
  let finished (s : System sendQueue recvQueue) : System sendQueue recvQueue :=
    { s with outcome := some (.finishReadFrom (.ok ())) }
  if s.sock.readWaitQueue.isEmpty then
    match s.sock.readWaitFreeGroups with
    | group :: rest =>
        (prepareRead answer group
          { s with sock := { s.sock with readWaitFreeGroups := rest } }).map finished
    | [] => .ok (finished s)
  else .ok (finished s)

/-- A call after its `poll_completions`. -/
def run (parse : GroupMsghdr → Bytes → Except SocketPanic Message) (answer : Except IoError Unit)
    (c : Call) (s : System sendQueue recvQueue) : Except SocketPanic (System sendQueue recvQueue) :=
  match c with
  | .addSendTo buf dest => s.addSendTo buf dest
  | .commitSendTo => .ok (s.commitSendTo answer)
  | .recvFrom => s.recvFrom parse
  | .finishReadFrom => s.finishReadFrom answer

end System

/-! ### Steps -/

inductive Label
  | kernel (e : KernelEvent)
  /-- The next `prepare_read` of `prepare`. -/
  | prepare (answer : Except IoError Unit)
  | call (c : Call)
  /-- A turn of `poll_completions`, or its end. -/
  | poll
  /-- The rest of the call. -/
  | run (answer : Except IoError Unit)

namespace System

/-- The kernel does something by itself. -/
def react (e : KernelEvent) (s : System sendQueue recvQueue) :
    Option (System sendQueue recvQueue) :=
  (s.kernel.react e).map fun (kernel, cqe, write) =>
    let ring := { s.sock.ring with completion := s.sock.ring.completion ++ [cqe] }
    let readBufs :=
      match write with
      | some (addr, data) => fun i => if i = addr.toNat then data else s.sock.readBufs i
      | none => s.sock.readBufs
    { s with kernel, sock := { s.sock with ring, readBufs } }

def prepare (answer : Except IoError Unit) (s : System sendQueue recvQueue) :
    Option (System sendQueue recvQueue) :=
  match s.thread with
  | .preparing (group :: rest) =>
      (s.prepareRead answer group).toOption.map fun s => { s with thread := .preparing rest }
  | .preparing [] => some { s with thread := .idle }
  | _ => none

def call (c : Call) (s : System sendQueue recvQueue) : Option (System sendQueue recvQueue) :=
  if s.thread = .idle then
    some { s with thread := if c.polls then .polling c else .ready c }
  else none

def poll (s : System sendQueue recvQueue) : Option (System sendQueue recvQueue) :=
  match s.thread, s.sock.ring.completion with
  | .polling c, [] => some { s with thread := .ready c }
  | .polling _, cqe :: rest =>
      let sock := { s.sock with ring := { s.sock.ring with completion := rest } }
      (sock.complete cqe).toOption.map fun sock => { s with sock }
  | _, _ => none

/-- One step; there is none from where the program panics. -/
def step (parse : GroupMsghdr → Bytes → Except SocketPanic Message)
    (s : System sendQueue recvQueue) : Label → Option (System sendQueue recvQueue)
  | .kernel e => s.react e
  | .prepare answer => s.prepare answer
  | .call c => s.call c
  | .poll => s.poll
  | .run answer =>
      match s.thread with
      | .ready c => (s.run parse answer c).toOption.map fun s => { s with thread := .idle }
      | _ => none

/-- The panic there is instead of a step. -/
inductive Panics (parse : GroupMsghdr → Bytes → Except SocketPanic Message)
    (s : System sendQueue recvQueue) : Label → SocketPanic → Prop
  | prepare {group : UInt16} {rest : List UInt16} {answer : Except IoError Unit} {p : SocketPanic}
      (hthread : s.thread = .preparing (group :: rest))
      (h : s.prepareRead answer group = .error p) : Panics parse s (.prepare answer) p
  | poll {c : Call} {cqe : Cqe} {rest : List Cqe} {p : SocketPanic}
      (hthread : s.thread = .polling c) (hcq : s.sock.ring.completion = cqe :: rest)
      (h : ({ s.sock with ring := { s.sock.ring with completion := rest } } :
        UdpSocket2IoUring sendQueue recvQueue).complete cqe = .error p) : Panics parse s .poll p
  | run {c : Call} {answer : Except IoError Unit} {p : SocketPanic} (hthread : s.thread = .ready c)
      (h : s.run parse answer c = .error p) : Panics parse s (.run answer) p

end System

end MediaServer.Uring
