/-
The same datagrams through either socket.

The plain socket has a buffer of 1500 bytes for the packet.  The receive buffers of the
ring are 32 bytes longer, but what the kernel writes into one is a header of 16 bytes,
the name, for which 32 are set aside, and as much of the packet as still fits: 1484
bytes.  So both return the same if no packet is longer than that, and only then.
-/
import MediaServer.Proofs.Datagrams
import MediaServer.Net.Socket2

namespace MediaServer

open Lib
open Uring (IoError Message)

namespace Plain.UdpSocket2

/-- `recv_from` returns as much of the packet as the buffer holds. -/
theorem recvFrom_fst (payload : Bytes) (remote : SocketAddr) (sock : UdpSocket2) :
    (sock.recvFrom (.ok (payload, remote))).1 = .ok (payload.take 1500, remote) := by
  let size := min payload.length 1500
  have hlen : (payload.take size).length = size := by simp [size]
  have hsize : payload.take size = payload.take 1500 := by
    rw [List.take_eq_take_min (i := 1500), Nat.min_comm]
  show Except.ok ((payload.take size ++ sock.buf.drop size).take size, remote) = _
  rw [List.take_append_of_le_length hlen.ge, List.take_take, Nat.min_self, hsize]

theorem recvAll_eq (ds : List Message) :
    ∀ sock, recvAll ds sock = ds.map fun d => .ok (d.1.take 1500, d.2) := by
  induction ds with
  | nil => intro sock; rfl
  | cons d rest ih =>
      intro sock
      show (sock.recvFrom (.ok d)).1 :: recvAll rest _ = _
      rw [recvFrom_fst, ih]
      rfl

end Plain.UdpSocket2

namespace Uring

variable {sendQueue recvQueue : Nat}

/-- A datagram, from an IPv4 address. -/
structure Arrival where
  payload : Bytes
  ip : BitVec 32
  port : BitVec 16

namespace Arrival

def message (d : Arrival) : Message := (d.payload, { ip := .v4 d.ip, port := d.port })

/-- What the kernel makes of it in a receive buffer. -/
def stored (d : Arrival) : Bytes :=
  RecvMsgOut.write 32 recvBufSize d.payload d.ip d.port

/-- What is left of it. -/
def shortened (d : Arrival) : Message := (d.payload.take 1484, { ip := .v4 d.ip, port := d.port })

theorem parse_stored (d : Arrival) : parseV4 recvHdr d.stored = .ok d.shortened :=
  parseV4_write d.payload d.ip d.port

theorem shortened_eq {d : Arrival} : d.shortened = d.message ↔ d.payload.length ≤ 1484 := by
  simp [shortened, message]

end Arrival

/-- The two sockets have returned the same so far, and nothing was shortened. -/
def Agrees (plain : Plain.UdpSocket2) (arrived : List Arrival) (returned : List Message) : Prop :=
  returned.map .ok <+: plain.recvAll (arrived.map Arrival.message) ∧
    returned <+: arrived.map Arrival.message

theorem agrees_iff {plain : Plain.UdpSocket2} {arrived : List Arrival} {returned : List Message}
    (hlen : ∀ d ∈ arrived, d.payload.length ≤ 1500)
    (h : returned <+: arrived.map Arrival.shortened) :
    Agrees plain arrived returned ↔
      ∀ d ∈ arrived.take returned.length, d.payload.length ≤ 1484 := by
  have hplain : plain.recvAll (arrived.map Arrival.message)
      = (arrived.map Arrival.message).map .ok := by
    rw [Plain.UdpSocket2.recvAll_eq, List.map_map, List.map_map]
    refine List.map_congr_left fun d hd => ?_
    simp [Arrival.message, List.take_of_length_le (hlen d hd)]
  have hreturned : returned = (arrived.take returned.length).map Arrival.shortened := by
    rw [List.map_take]
    exact List.prefix_iff_eq_take.mp h
  have hpart : returned <+: arrived.map Arrival.message ↔
      (arrived.take returned.length).map Arrival.shortened
        = (arrived.take returned.length).map Arrival.message := by
    rw [← hreturned, List.map_take]
    exact List.prefix_iff_eq_take
  have hall : returned <+: arrived.map Arrival.message ↔
      ∀ d ∈ arrived.take returned.length, d.payload.length ≤ 1484 := by
    rw [hpart, List.map_inj_left]
    exact forall₂_congr fun d _ => Arrival.shortened_eq
  rw [← hall, Agrees, hplain]
  exact ⟨fun hagrees => hagrees.2, fun hagrees => ⟨hagrees.map _, hagrees⟩⟩

namespace System

variable {s : System sendQueue recvQueue}

/-- What was returned is what arrived, in order, each as far as it fitted. -/
theorem Spared.returned_part {arrived : List Arrival} (h : Spared parseV4 s)
    (harrived : s.kernel.reported = arrived.map Arrival.stored) :
    s.kernel.reported.map (parseV4 recvHdr) = (arrived.map Arrival.shortened).map .ok ∧
      s.returned <+: arrived.map Arrival.shortened := by
  have hcontents : s.kernel.reported.map (parseV4 recvHdr)
      = s.returned.map .ok ++ s.unread.map (s.datagram parseV4) := h.faithful.contents
  have hparsed : s.kernel.reported.map (parseV4 recvHdr)
      = (arrived.map Arrival.shortened).map .ok := by
    rw [harrived, List.map_map, List.map_map]
    exact List.map_congr_left fun d _ => Arrival.parse_stored d
  obtain ⟨front, rest, harr, hfront, -⟩ :=
    List.map_eq_append_iff.mp (hparsed.symm.trans hcontents)
  rw [harr, ← List.map_injective_iff.mpr (fun _ _ h => Except.ok.inj h) hfront]
  exact ⟨hparsed.trans (by rw [harr]), List.prefix_append _ _⟩

/--
**The two sockets return the same**, if no packet is longer than 1484 bytes, and only
then: of everything returned so far, and, once everything was returned, of everything
that arrived.
-/
theorem backends_agree {sock : UdpSocket2IoUring sendQueue recvQueue}
    (hnew : UdpSocket2IoUring.new sendQueue recvQueue = .ok sock) {as : List Label}
    (hok : Meets (System.step parseV4) spares (System.start sock) as)
    {s : System sendQueue recvQueue}
    (hrun : Visits (System.step parseV4) (System.start sock) as s) {arrived : List Arrival}
    (harrived : s.kernel.reported = arrived.map Arrival.stored)
    (hlen : ∀ d ∈ arrived, d.payload.length ≤ 1500) (plain : Plain.UdpSocket2) :
    (Agrees plain arrived s.returned ↔
        ∀ d ∈ arrived.take s.returned.length, d.payload.length ≤ 1484) ∧
      (s.thread = .idle →
        ∃ bs t, runLabels (System.step parseV4) s bs = some t ∧
          t.returned.length = arrived.length ∧
          (Agrees plain arrived t.returned ↔ ∀ d ∈ arrived, d.payload.length ≤ 1484)) := by
  have hspared := Spared.visits hnew hok hrun
  obtain ⟨hparsed, hpart⟩ := hspared.returned_part harrived
  refine ⟨agrees_iff hlen hpart, fun hidle => ?_⟩
  have hparse : ∀ data ∈ s.kernel.reported, ∃ msg, parseV4 recvHdr data = .ok msg := by
    rw [harrived]
    intro data hdata
    obtain ⟨d, hd, rfl⟩ := List.mem_map.mp hdata
    exact ⟨_, Arrival.parse_stored d⟩
  obtain ⟨bs, t, hbs, hall⟩ := hspared.returns hidle hparse
  have hreturned : t.returned = arrived.map Arrival.shortened :=
    List.map_injective_iff.mpr (fun _ _ h => Except.ok.inj h) (hall.trans hparsed)
  have hcount : t.returned.length = arrived.length := by rw [hreturned, List.length_map]
  have hagrees : Agrees plain arrived t.returned ↔ _ :=
    agrees_iff hlen (hreturned ▸ List.prefix_refl _)
  rw [hcount, List.take_length] at hagrees
  exact ⟨bs, t, hbs, hcount, hagrees⟩

def short : Arrival := { payload := [1, 2, 3, 4], ip := 0x7F000001, port := 80 }

/-- Four bytes, through either socket. -/
theorem backends_agree_short :
    ∃ (sock : UdpSocket2IoUring 16 16) (s : System 16 16),
      UdpSocket2IoUring.new 16 16 = .ok sock ∧
      Visits (System.step parseV4) (System.start sock)
        (prepareLabels 1 ++ [.kernel (.filled 0 3 short.stored true)] ++ callLabels .recvFrom 18) s ∧
      s.returned = [short.message] ∧ Agrees .new [short] s.returned := by
  have hrun : (runNew 16 16 parseV4 (prepareLabels 1 ++ [.kernel (.filled 0 3 short.stored true)] ++
      callLabels .recvFrom 18)).map (fun s => (s.returned, s.kernel.reported))
      = some ([short.message], [short.stored]) := by decide +kernel
  obtain ⟨sock, s, hnew, hlabels, hread⟩ := of_runNew hrun
  obtain ⟨hreturned, hreported⟩ := Prod.mk.inj hread
  have hok : Meets (System.step parseV4) spares (System.start sock) (prepareLabels 1 ++
      [.kernel (.filled 0 3 short.stored true)] ++ callLabels .recvFrom 18) :=
    meets_of_new hnew (by decide +kernel)
  have hvisits : Visits (System.step parseV4) (System.start sock) _ s :=
    ⟨_, List.prefix_refl _, hlabels⟩
  have hlen : ∀ d ∈ [short], d.payload.length ≤ 1500 := by simp [short]
  have harrived : s.kernel.reported = [short].map Arrival.stored := hreported
  obtain ⟨hagrees, -⟩ := backends_agree hnew hok hvisits harrived hlen .new
  refine ⟨sock, s, hnew, hvisits, hreturned, hagrees.mpr ?_⟩
  simp [hreturned, short]

/-- One byte more than fits. -/
def long : Arrival := { payload := List.replicate 1485 1, ip := 0x7F000001, port := 80 }

theorem long_length : long.payload.length = 1485 := List.length_replicate

/-- The plain socket returns all of it, and the ring all but the last byte. -/
theorem backends_agree_long :
    ∃ (sock : UdpSocket2IoUring 16 16) (s : System 16 16),
      UdpSocket2IoUring.new 16 16 = .ok sock ∧
      Meets (System.step parseV4) spares (System.start sock)
        (prepareLabels 1 ++ [.kernel (.filled 0 3 long.stored true)] ++ callLabels .recvFrom 18) ∧
      runLabels (System.step parseV4) (System.start sock)
        (prepareLabels 1 ++ [.kernel (.filled 0 3 long.stored true)] ++ callLabels .recvFrom 18)
          = some s ∧
      s.kernel.reported = [long.stored] ∧ s.returned = [long.shortened] ∧
      Plain.UdpSocket2.recvAll [long.message] .new = [.ok long.message] ∧
      ¬ Agrees .new [long] s.returned := by
  have hrun : (runNew 16 16 parseV4 (prepareLabels 1 ++ [.kernel (.filled 0 3 long.stored true)] ++
      callLabels .recvFrom 18)).map (fun s =>
        decide (s.returned = [long.shortened] ∧ s.kernel.reported = [long.stored]))
      = some true := by decide +kernel
  obtain ⟨sock, s, hnew, hlabels, hread⟩ := of_runNew hrun
  obtain ⟨hreturned, hreported⟩ := of_decide_eq_true hread
  have hlen : ∀ d ∈ [long], d.payload.length ≤ 1500 := by simp [long_length]
  have hpart : s.returned <+: [long].map Arrival.shortened := hreturned ▸ List.prefix_refl _
  refine ⟨sock, s, hnew, meets_of_new hnew (by decide +kernel), hlabels, hreported, hreturned,
    ?_, ?_⟩
  · have hall : long.payload.take 1500 = long.payload :=
      List.take_of_length_le (by simp [long_length])
    simp [Plain.UdpSocket2.recvAll_eq, Arrival.message, hall]
  · rw [agrees_iff hlen hpart, hreturned]
    simp [long_length]

end System

end Uring

end MediaServer
