/-
The ring between the socket and the kernel.

`io_uring` and the crate of that name are not part of the repository.  This file says
of them what the socket relies on.  A submission queue holds the entries pushed since
the last `submit`, as many as it has room for; a `submit` that succeeds hands all of
them over, in order; and what the kernel has done is posted to a completion queue,
from which the program takes one entry at a time.

What the kernel does with an entry, and when, is its own affair, so it is a machine of
its own.  Providing a buffer is done within the `submit`.  A zero-copy send completes
with one entry, or with one that announces another and, once the kernel is done with
the memory, that other.  A multishot receive fills buffers of its group, one entry
each, for as long as its entries say that more will come; its last entry may itself
report a filled buffer, and it may come at any time.
-/
import MediaServer.Io

namespace MediaServer.Uring

/-! ### Entries -/

/-- The operations the socket submits, with what the kernel is given by address. -/
inductive Opcode
  /-- The message header in the packet `slot` of the send buffers. -/
  | sendMsgZc (slot : UInt32)
  /-- The receive buffer `addr`, of `len` bytes, for the group `bgid` under the id `bid`. -/
  | provideBuffers (addr : UInt32) (len : Nat) (bgid bid : UInt16)
  | recvMsgMulti (bgid : UInt16)
  deriving DecidableEq

structure Sqe where
  opcode : Opcode
  userData : UInt64
  deriving DecidableEq

structure Cqe where
  userData : UInt64
  /-- `cqueue::buffer_select(flags)`. -/
  buffer : Option UInt16
  /-- `cqueue::more(flags)`. -/
  more : Bool
  deriving DecidableEq

/-! ### The two queues -/

structure IoUring where
  entries : Nat
  submission : List Sqe
  completion : List Cqe

namespace IoUring

/-- `IORING_MAX_ENTRIES`. -/
def maxEntries : Nat := 32768

/-- `IoUring::new`; the kernel rounds the size up to a power of two. -/
def new (entries : UInt32) : Option IoUring :=
  if entries.toNat = 0 ∨ maxEntries < entries.toNat then none
  else some { entries := entries.toNat.nextPowerOfTwo, submission := [], completion := [] }

/-- `submission().push(..)`. -/
def push (sqe : Sqe) (ring : IoUring) : Option IoUring :=
  if ring.submission.length < ring.entries then
    some { ring with submission := ring.submission ++ [sqe] }
  else none

end IoUring

/-! ### What a receive buffer holds -/

/-- A packet, and where it goes to or comes from. -/
abbrev Message := Bytes × SocketAddr

/-- A little-endian `u32`. -/
def le32 (n : Nat) : Bytes :=
  [UInt8.ofNat n, UInt8.ofNat (n / 2 ^ 8), UInt8.ofNat (n / 2 ^ 16), UInt8.ofNat (n / 2 ^ 24)]

def read32 : Bytes → Nat
  | a :: b :: c :: d :: _ => a.toNat + b.toNat * 2 ^ 8 + c.toNat * 2 ^ 16 + d.toNat * 2 ^ 24
  | _ => 0

/-- A `sockaddr_in`: the family, the port and the address, and padding. -/
def sockAddrIn (ip : BitVec 32) (port : BitVec 16) : Bytes :=
  [2, 0, ⟨port.extractLsb' 8 8⟩, ⟨port.extractLsb' 0 8⟩, ⟨ip.extractLsb' 24 8⟩,
    ⟨ip.extractLsb' 16 8⟩, ⟨ip.extractLsb' 8 8⟩, ⟨ip.extractLsb' 0 8⟩] ++ List.replicate 8 0

/-- `SockAddr::as_socket`, of a name of the family the socket is bound in. -/
def asSocket : Bytes → Option SocketAddr
  | 2 :: 0 :: p :: q :: a :: b :: c :: d :: _ =>
      some
        { ip := .v4 (a.toBitVec ++ b.toBitVec ++ c.toBitVec ++ d.toBitVec)
          port := p.toBitVec ++ q.toBitVec }
  | _ => none

namespace RecvMsgOut

/-- `DATA_START`: the lengths of the name, of the control data and of the packet, and flags. -/
def dataStart : Nat := 16

/-- `MSG_TRUNC`. -/
def msgTrunc : Nat := 0x20

/-- What the kernel writes of a packet from an IPv4 address, as much of it as has room. -/
def write (namelen size : Nat) (payload : Bytes) (ip : BitVec 32) (port : BitVec 16) : Bytes :=
  let name := sockAddrIn ip port
  let data := payload.take (size - (dataStart + namelen))
  let flags := if data.length < payload.length then msgTrunc else 0
  let buf := le32 name.length ++ le32 0 ++ le32 data.length ++ le32 flags ++ name ++
    List.replicate (namelen - name.length) 0 ++ data
  buf ++ List.replicate (size - buf.length) 0

/-- `RecvMsgOut::parse`: the name and the packet. -/
def parse (namelen controllen : Nat) (buf : Bytes) : Option (Bytes × Bytes) :=
  if buf.length < dataStart + namelen + controllen then none
  else
    let rest := buf.drop (dataStart + namelen + controllen)
    some ((buf.drop dataStart).take (min (read32 buf) namelen),
      rest.take (min (read32 (buf.drop 8)) rest.length))

end RecvMsgOut

/-! ### The kernel -/

structure SendRequest where
  slot : UInt32
  userData : UInt64
  /-- Whether its first entry is posted, and has announced another. -/
  awaitsNotif : Bool

structure ProvidedBuffer where
  addr : UInt32
  len : Nat
  bgid : UInt16
  bid : UInt16

structure RecvRequest where
  bgid : UInt16
  userData : UInt64

structure Kernel where
  sends : List SendRequest
  provided : List ProvidedBuffer
  recvs : List RecvRequest
  /-- The packets it was handed, in order. -/
  taken : List Message
  /-- What it has written into buffers, in the order of the entries that reported it. -/
  reported : List Bytes

/-- What the kernel may do on its own. -/
inductive KernelEvent
  /-- The send request `i` posts its first entry. -/
  | sent (i : Nat) (more : Bool)
  /-- The send request `i` posts the entry its first one announced. -/
  | notified (i : Nat)
  /-- The receive request `i` fills the `j`th of the provided buffers. -/
  | filled (i j : Nat) (data : Bytes) (more : Bool)
  /-- The receive request `i` ends without a buffer. -/
  | ended (i : Nat)
  deriving DecidableEq

namespace Kernel

def new : Kernel :=
  { sends := [], provided := [], recvs := [], taken := [], reported := [] }

/-- Take one entry; `message` reads the packet a message header leads to. -/
def consume (message : UInt32 → Option Message) (sqe : Sqe) (kernel : Kernel) :
    Kernel × List Cqe :=
  match sqe.opcode with
  | .sendMsgZc slot =>
      ({ kernel with
          sends := kernel.sends ++ [{ slot, userData := sqe.userData, awaitsNotif := false }]
          taken := kernel.taken ++ (message slot).toList }, [])
  | .provideBuffers addr len bgid bid =>
      ({ kernel with provided := kernel.provided ++ [{ addr, len, bgid, bid }] },
        [{ userData := sqe.userData, buffer := none, more := false }])
  | .recvMsgMulti bgid =>
      ({ kernel with recvs := kernel.recvs ++ [{ bgid, userData := sqe.userData }] }, [])

/-- Take all the entries of a successful `submit`. -/
def consumeAll (message : UInt32 → Option Message) : List Sqe → Kernel → Kernel × List Cqe
  | [], kernel => (kernel, [])
  | sqe :: rest, kernel =>
      let (kernel, cqes) := kernel.consume message sqe
      let (kernel, cqes') := consumeAll message rest kernel
      (kernel, cqes ++ cqes')

/-- What an event leaves, the entry it posts, and the receive buffer it writes, if any. -/
def react (kernel : Kernel) : KernelEvent → Option (Kernel × Cqe × Option (UInt32 × Bytes))
  | .sent i more =>
      match kernel.sends[i]? with
      | some req =>
          if req.awaitsNotif then none
          else
            some
              ({ kernel with
                  sends :=
                    if more then kernel.sends.set i { req with awaitsNotif := true }
                    else kernel.sends.eraseIdx i },
                { userData := req.userData, buffer := none, more }, none)
      | none => none
  | .notified i =>
      match kernel.sends[i]? with
      | some req =>
          if req.awaitsNotif then
            some ({ kernel with sends := kernel.sends.eraseIdx i },
              { userData := req.userData, buffer := none, more := false }, none)
          else none
      | none => none
  | .filled i j data more =>
      match kernel.recvs[i]?, kernel.provided[j]? with
      | some req, some buf =>
          if buf.bgid = req.bgid ∧ data.length = buf.len then
            some
              ({ kernel with
                  provided := kernel.provided.eraseIdx j
                  recvs := if more then kernel.recvs else kernel.recvs.eraseIdx i
                  reported := kernel.reported ++ [data] },
                { userData := req.userData, buffer := some buf.bid, more }, some (buf.addr, data))
          else none
      | _, _ => none
  | .ended i =>
      match kernel.recvs[i]? with
      | some req =>
          some ({ kernel with recvs := kernel.recvs.eraseIdx i },
            { userData := req.userData, buffer := none, more := false }, none)
      | none => none

end Kernel

end MediaServer.Uring
