/-
What goes through the ring.

The socket marks an entry with a number and gets the number back with what came of it,
so everything rests on its getting back the same one (`UserData.decode_encode`); and the
kernel writes a packet into a buffer and the socket reads it there (`parseV4_write`).
The rest of this file says what `prepare_read` pushes and what a `submit` hands over,
each as one equation.
-/
import MediaServer.Net.Socket2IoUring

namespace MediaServer.Uring

/-! ### Numbers through the ring -/

namespace UserData

/-- A kind above, a number below. -/
theorem toNat_tag (kind : UInt64) (k : Nat) (hk : kind.toNat = 2 ^ 32 * k) {idx : UInt64}
    (hidx : idx.toNat < 2 ^ 32) : (kind ||| idx).toNat = 2 ^ 32 * k + idx.toNat := by
  rw [UInt64.toNat_or, hk, Nat.two_pow_add_eq_or_of_lt hidx]

theorem shift_tag {data : UInt64} {k n : Nat} (h : data.toNat = 2 ^ 32 * k + n) (hn : n < 2 ^ 32) :
    (data >>> 32).toNat = k := by
  have hlow : (2 ^ 32 * k + n) / 2 ^ 32 = k := by omega
  simpa [h, Nat.shiftRight_eq_div_pow] using hlow

theorem mask_tag {data : UInt64} {k n : Nat} (h : data.toNat = 2 ^ 32 * k + n) (hn : n < 2 ^ 32) :
    (data &&& 0xffffffff).toUInt32.toNat = n := by
  have hmask : (0xffffffff : UInt64).toNat = 2 ^ 32 - 1 := rfl
  rw [UInt64.toNat_toUInt32, UInt64.toNat_and, hmask, Nat.and_two_pow_sub_one_eq_mod, h]
  omega

theorem mask_tag16 {data : UInt64} {k n : Nat} (h : data.toNat = 2 ^ 32 * k + n)
    (hn : n < 2 ^ 16) : (data &&& 0x0000ffff).toUInt16.toNat = n := by
  have hmask : (0x0000ffff : UInt64).toNat = 2 ^ 16 - 1 := rfl
  rw [UInt64.toNat_toUInt16, UInt64.toNat_and, hmask, Nat.and_two_pow_sub_one_eq_mod, h]
  omega

/-- **What comes back through the ring is what went in.** -/
theorem decode_encode (data : UserData) : decode data.encode = data := by
  cases data with
  | send idx =>
      have hidx := idx.toNat_lt
      have htag : idx.toUInt64.toNat = 2 ^ 32 * 0 + idx.toNat := by simp
      have hkind := shift_tag htag hidx
      have hlow := mask_tag htag hidx
      have h0 : idx.toUInt64 >>> 32 = 0 := UInt64.toNat_inj.mp hkind
      simp [encode, decode, h0, UInt32.toNat_inj.mp hlow]
  | recv group =>
      have hgroup : group.toUInt64.toNat < 2 ^ 16 := group.toNat_lt
      have hwide : group.toUInt64.toNat < 2 ^ 32 := by omega
      have htag := toNat_tag 0x0100000000 1 rfl hwide
      have hkind := shift_tag htag (by omega)
      have hlow := mask_tag16 htag hgroup
      have h1 : (0x0100000000 ||| group.toUInt64) >>> 32 = 1 := UInt64.toNat_inj.mp hkind
      simp only [encode, decode, h1, if_true]
      exact congrArg UserData.recv (UInt16.toNat_inj.mp hlow)
  | provideBuffers idx =>
      have hidx : idx.toUInt64.toNat < 2 ^ 32 := idx.toNat_lt
      have htag := toNat_tag 0x0200000000 2 rfl hidx
      have hkind := shift_tag htag hidx
      have hlow := mask_tag htag hidx
      have h2 : (0x0200000000 ||| idx.toUInt64) >>> 32 = 2 := UInt64.toNat_inj.mp hkind
      simp only [encode, decode, h2, if_true, if_neg (by decide : ¬(2 : UInt64) = 1)]
      exact congrArg UserData.provideBuffers (UInt32.toNat_inj.mp hlow)

end UserData

/-! ### The numbers of a group -/

@[simp] theorem GroupIndex.toU32_toNat (group index : UInt16) :
    (GroupIndex.toU32 group index).toNat = group.toNat * 16 + index.toNat := by
  have hgroup := group.toNat_lt
  have hindex := index.toNat_lt
  simp only [GroupIndex.toU32, recvBufGroupSize, UInt32.toNat_add, UInt32.toNat_mul,
    UInt16.toNat_toUInt32, UInt32.reduceToNat]
  omega

theorem GroupIndex.index_toNat (idx : UInt32) : (GroupIndex.index idx).toNat = idx.toNat % 16 := by
  have hmod : idx.toNat % 16 % 2 ^ 16 = idx.toNat % 16 := by omega
  simpa [GroupIndex.index, recvBufGroupSize] using hmod

theorem map_toNat_ofNat {l : List Nat} (h : ∀ n ∈ l, n < 2 ^ 32) :
    (l.map UInt32.ofNat).map UInt32.toNat = l := by
  rw [List.map_map]
  have hid : ∀ n ∈ l, (UInt32.toNat ∘ UInt32.ofNat) n = id n := fun n hn =>
    UInt32.toNat_ofNat_of_lt' (h n hn)
  rw [List.map_congr_left hid, List.map_id]

@[simp] theorem map_toNat_indices (n : UInt32) :
    (indices n).map UInt32.toNat = List.range n.toNat := by
  refine map_toNat_ofNat fun m hm => ?_
  have hn := n.toNat_lt
  have hlt := List.mem_range.mp hm
  omega

@[simp] theorem map_toNat_indexRange (a b : UInt32) :
    (indexRange a b).map UInt32.toNat = List.range' a.toNat (b.toNat - a.toNat) := by
  refine map_toNat_ofNat fun m hm => ?_
  have hb := b.toNat_lt
  have hlt := List.mem_range'_1.mp hm
  omega

theorem mem_indexRange {a b i : UInt32} :
    i ∈ indexRange a b ↔ a.toNat ≤ i.toNat ∧ i.toNat < b.toNat := by
  have hmem : i.toNat ∈ (indexRange a b).map UInt32.toNat ↔ i ∈ indexRange a b :=
    List.mem_map_of_injective fun _ _ h => UInt32.toNat_inj.mp h
  rw [← hmem, map_toNat_indexRange, List.mem_range'_1]
  omega

namespace UdpSocket2IoUring

/-- The buffers of a group; the last group that `u16` can count has none, as `group + 1` wraps. -/
theorem mem_groupBufs {group : UInt16} {i : UInt32} :
    i ∈ groupBufs group ↔ group.toNat + 1 < 2 ^ 16 ∧ i.toNat / 16 = group.toNat := by
  have hgroup := group.toNat_lt
  rw [groupBufs, mem_indexRange, GroupIndex.toU32_toNat, GroupIndex.toU32_toNat, UInt16.toNat_add]
  simp
  omega

theorem toU32_index {group : UInt16} {i : UInt32} (h : i ∈ groupBufs group) :
    GroupIndex.toU32 group (GroupIndex.index i) = i := by
  obtain ⟨-, hgroup⟩ := mem_groupBufs.mp h
  apply UInt32.toNat_inj.mp
  rw [GroupIndex.toU32_toNat, GroupIndex.index_toNat, ← hgroup]
  omega

theorem groupBufs_disjoint {g g' : UInt16} (h : g ≠ g') :
    List.Disjoint (groupBufs g) (groupBufs g') := by
  intro i hi hi'
  obtain ⟨-, hg⟩ := mem_groupBufs.mp hi
  obtain ⟨-, hg'⟩ := mem_groupBufs.mp hi'
  exact h (UInt16.toNat_inj.mp (hg.symm.trans hg'))

theorem groupBufs_nodup (group : UInt16) : (groupBufs group).Nodup := by
  refine List.Nodup.of_map UInt32.toNat ?_
  rw [groupBufs, map_toNat_indexRange]
  exact List.nodup_range'

theorem groupBufs_length (group : UInt16) : (groupBufs group).length ≤ 16 := by
  have hgroup := group.toNat_lt
  have hlen := congrArg List.length (map_toNat_indexRange (GroupIndex.toU32 group 0)
    (GroupIndex.toU32 (group + 1) 0))
  rw [List.length_map, List.length_range', GroupIndex.toU32_toNat, GroupIndex.toU32_toNat,
    UInt16.toNat_add] at hlen
  rw [groupBufs, hlen]
  simp
  omega

end UdpSocket2IoUring

/-! ### What the kernel writes is what is read -/

theorem asSocket_sockAddrIn (ip : BitVec 32) (port : BitVec 16) :
    asSocket (sockAddrIn ip port) = some { ip := .v4 ip, port } := by
  have hip : ip.extractLsb' 24 8 ++ ip.extractLsb' 16 8 ++ ip.extractLsb' 8 8
      ++ ip.extractLsb' 0 8 = ip := by
    rw [BitVec.extractLsb'_append_extractLsb'_eq_extractLsb' (by rfl),
      BitVec.extractLsb'_append_extractLsb'_eq_extractLsb' (by rfl),
      BitVec.extractLsb'_append_extractLsb'_eq_extractLsb' (by rfl)]
    exact BitVec.extractLsb'_eq_self
  have hport : port.extractLsb' 8 8 ++ port.extractLsb' 0 8 = port := by
    rw [BitVec.extractLsb'_append_extractLsb'_eq_extractLsb' (by rfl)]
    exact BitVec.extractLsb'_eq_self
  simp only [sockAddrIn, List.cons_append, List.nil_append, asSocket, hip, hport]

theorem read32_le32 {n : Nat} (h : n < 2 ^ 32) (rest : Bytes) : read32 (le32 n ++ rest) = n := by
  simp only [le32, read32, List.cons_append, List.nil_append, UInt8.toNat_ofNat']
  omega

/-- Beside the header and the name there is room for 1484 bytes of the packet. -/
theorem parseV4_write (payload : Bytes) (ip : BitVec 32) (port : BitVec 16) :
    parseV4 { msgNamelen := 32, msgControllen := 0 }
      (RecvMsgOut.write 32 recvBufSize payload ip port)
        = .ok (payload.take 1484, { ip := .v4 ip, port }) := by
  have hdata : (payload.take 1484).length ≤ 1484 := List.length_take_le _ _
  obtain ⟨flags, pad, hroom, hwrite⟩ : ∃ (flags : Nat) (pad : Bytes),
      (payload.take 1484 ++ pad).length = 1484 ∧
      RecvMsgOut.write 32 recvBufSize payload ip port
        = le32 16 ++ (le32 0 ++ (le32 (payload.take 1484).length ++ (le32 flags ++
            (sockAddrIn ip port ++ (List.replicate 16 0 ++ (payload.take 1484 ++ pad)))))) := by
    refine ⟨_, _, ?_, by simp only [RecvMsgOut.write, List.append_assoc]; rfl⟩
    simp [le32, sockAddrIn, recvBufSize, RecvMsgOut.dataStart]
  have hsize : (RecvMsgOut.write 32 recvBufSize payload ip port).length = recvBufSize := by
    rw [List.length_append] at hroom
    rw [hwrite]
    simp only [List.length_append, hroom]
    simp [le32, sockAddrIn, recvBufSize]
  have hparse : RecvMsgOut.parse 32 0 (RecvMsgOut.write 32 recvBufSize payload ip port)
      = some (sockAddrIn ip port, payload.take 1484) := by
    rw [RecvMsgOut.parse, if_neg (by rw [hsize]; decide), hwrite, read32_le32 (by decide)]
    show some (sockAddrIn ip port, (payload.take 1484 ++ pad).take
      (min (read32 (le32 (payload.take 1484).length ++ _)) (payload.take 1484 ++ pad).length)) = _
    rw [read32_le32 (by omega), hroom, Nat.min_eq_left hdata, List.take_left]
  rw [parseV4, hparse]
  simp only [asSocket_sockAddrIn]

/-! ### What a `submit` hands over -/

namespace Sqe

/-- The slot a send entry is about. -/
def sendSlot (sqe : Sqe) : Option UInt32 :=
  match sqe.opcode with
  | .sendMsgZc slot => some slot
  | _ => none

def sendRequest (sqe : Sqe) : Option SendRequest :=
  sqe.sendSlot.map fun slot => { slot, userData := sqe.userData, awaitsNotif := false }

def providedBuffer (sqe : Sqe) : Option ProvidedBuffer :=
  match sqe.opcode with
  | .provideBuffers addr len bgid bid => some { addr, len, bgid, bid }
  | _ => none

def recvRequest (sqe : Sqe) : Option RecvRequest :=
  match sqe.opcode with
  | .recvMsgMulti bgid => some { bgid, userData := sqe.userData }
  | _ => none

/-- The entry posted at once: providing a buffer is done within the `submit`. -/
def answer (sqe : Sqe) : Option Cqe :=
  sqe.providedBuffer.map fun _ => { userData := sqe.userData, buffer := none, more := false }

end Sqe

/-- The kernel after it took some entries. -/
def Kernel.handed (message : UInt32 → Option Message) (sqes : List Sqe) (kernel : Kernel) : Kernel :=
  { kernel with
    sends := kernel.sends ++ sqes.filterMap Sqe.sendRequest
    provided := kernel.provided ++ sqes.filterMap Sqe.providedBuffer
    recvs := kernel.recvs ++ sqes.filterMap Sqe.recvRequest
    taken := kernel.taken ++ (sqes.filterMap Sqe.sendSlot).filterMap message }

/-- **The kernel takes the entries in order.** -/
theorem Kernel.consumeAll_eq (message : UInt32 → Option Message) (sqes : List Sqe) :
    ∀ kernel : Kernel, Kernel.consumeAll message sqes kernel
      = (kernel.handed message sqes, sqes.filterMap Sqe.answer) := by
  induction sqes with
  | nil => intro kernel; simp [consumeAll, handed]
  | cons sqe rest ih =>
      intro kernel
      obtain ⟨opcode, userData⟩ := sqe
      simp only [consumeAll, ih]
      cases opcode with
      | sendMsgZc slot =>
          cases hm : message slot <;>
            simp [consume, handed, List.filterMap_cons, Sqe.sendRequest, Sqe.sendSlot,
              Sqe.providedBuffer, Sqe.recvRequest, Sqe.answer, hm]
      | provideBuffers addr len bgid bid =>
          simp [consume, handed, List.filterMap_cons, Sqe.sendRequest, Sqe.sendSlot,
            Sqe.providedBuffer, Sqe.recvRequest, Sqe.answer]
      | recvMsgMulti bgid =>
          simp [consume, handed, List.filterMap_cons, Sqe.sendRequest, Sqe.sendSlot,
            Sqe.providedBuffer, Sqe.recvRequest, Sqe.answer]

theorem perm_eraseIdx {α : Type} {l : List α} {i : Nat} {a : α} (h : l[i]? = some a) :
    l.Perm (a :: l.eraseIdx i) := by
  obtain ⟨hi, rfl⟩ := List.getElem?_eq_some_iff.mp h
  exact (List.getElem_cons_eraseIdx_perm hi).symm

theorem IoUring.push_eq_some {sqe : Sqe} {ring ring' : IoUring} (h : ring.push sqe = some ring') :
    ring' = { ring with submission := ring.submission ++ [sqe] } := by
  unfold push at h
  split at h
  · exact (Option.some.inj h).symm
  · cases h

/-! ### What is pushed -/

variable {sendQueue recvQueue : Nat}

namespace UdpSocket2IoUring

def provideSqe (group : UInt16) (index : UInt32) : Sqe :=
  { opcode := .provideBuffers index recvBufSize group (GroupIndex.index index)
    userData := (UserData.provideBuffers index).encode }

def sendSqe (idx : UInt32) : Sqe :=
  { opcode := .sendMsgZc idx, userData := (UserData.send idx).encode }

def recvSqe (group : UInt16) : Sqe :=
  { opcode := .recvMsgMulti group, userData := (UserData.recv group).encode }

/-- What `prepare_read` pushes. -/
def readSqes (group : UInt16) : List Sqe :=
  (groupBufs group).map (provideSqe group) ++ [recvSqe group]

@[simp] theorem sendSlot_sendSqe (idx : UInt32) : (sendSqe idx).sendSlot = some idx := rfl

@[simp] theorem sendRequest_sendSqe (idx : UInt32) : (sendSqe idx).sendRequest
    = some { slot := idx, userData := (UserData.send idx).encode, awaitsNotif := false } := rfl

@[simp] theorem providedBuffer_sendSqe (idx : UInt32) : (sendSqe idx).providedBuffer = none := rfl

@[simp] theorem recvRequest_sendSqe (idx : UInt32) : (sendSqe idx).recvRequest = none := rfl

@[simp] theorem answer_sendSqe (idx : UInt32) : (sendSqe idx).answer = none := rfl

@[simp] theorem sendSlot_readSqes (group : UInt16) :
    (readSqes group).filterMap Sqe.sendSlot = [] := by
  simp [readSqes, provideSqe, recvSqe, Sqe.sendSlot]

@[simp] theorem sendRequest_readSqes (group : UInt16) :
    (readSqes group).filterMap Sqe.sendRequest = [] := by
  simp [readSqes, provideSqe, recvSqe, Sqe.sendRequest, Sqe.sendSlot]

@[simp] theorem providedBuffer_readSqes (group : UInt16) :
    (readSqes group).filterMap Sqe.providedBuffer
      = (groupBufs group).map fun i =>
          { addr := i, len := recvBufSize, bgid := group, bid := GroupIndex.index i } := by
  simp [readSqes, provideSqe, recvSqe, Sqe.providedBuffer, List.filterMap_map, Function.comp_def,
    List.filterMap_cons]

@[simp] theorem recvRequest_readSqes (group : UInt16) :
    (readSqes group).filterMap Sqe.recvRequest
      = [{ bgid := group, userData := (UserData.recv group).encode }] := by
  simp [readSqes, provideSqe, recvSqe, Sqe.recvRequest]

@[simp] theorem answer_readSqes (group : UInt16) :
    (readSqes group).filterMap Sqe.answer
      = (groupBufs group).map fun i =>
          { userData := (UserData.provideBuffers i).encode, buffer := none, more := false } := by
  simp [readSqes, provideSqe, recvSqe, Sqe.answer, Sqe.providedBuffer, List.filterMap_map,
    Function.comp_def, List.filterMap_cons]

def pushed (sqes : List Sqe) (sock : UdpSocket2IoUring sendQueue recvQueue) :
    UdpSocket2IoUring sendQueue recvQueue :=
  { sock with ring := { sock.ring with submission := sock.ring.submission ++ sqes } }

theorem provideAll_ok {group : UInt16} {idxs : List UInt32} :
    ∀ {sock sock' : UdpSocket2IoUring sendQueue recvQueue},
      sock.provideAll group idxs = .ok sock' →
        (∀ i ∈ idxs, i.toNat < recvQueue) ∧ sock' = sock.pushed (idxs.map (provideSqe group)) := by
  induction idxs with
  | nil =>
      intro sock sock' h
      cases h
      simp [pushed]
  | cons index rest ih =>
      intro sock sock' h
      unfold provideAll provide at h
      split at h
      · cases h
      · rename_i sock₁ hprovide
        split at hprovide
        · rename_i hbound
          split at hprovide
          · cases hprovide
          · rename_i ring hpush
            cases hprovide
            obtain ⟨hrest, rfl⟩ := ih h
            refine ⟨by simpa using ⟨hbound, hrest⟩, ?_⟩
            rw [IoUring.push_eq_some hpush]
            simp [pushed, provideSqe]
        · cases hprovide

theorem pushRead_ok {group : UInt16} {sock sock' : UdpSocket2IoUring sendQueue recvQueue}
    (h : sock.pushRead group = .ok sock') :
    (∀ i ∈ groupBufs group, i.toNat < recvQueue) ∧
      sock' = { sock.pushed (readSqes group) with
        groupMsghdr := { msgNamelen := 32, msgControllen := 0 } } := by
  unfold pushRead at h
  split at h
  · cases h
  · rename_i sock₁ hall
    obtain ⟨hbound, rfl⟩ := provideAll_ok hall
    dsimp only at h
    split at h
    · cases h
    · rename_i ring hpush
      cases h
      refine ⟨hbound, ?_⟩
      rw [IoUring.push_eq_some hpush]
      simp [pushed, readSqes, recvSqe]

/-- `prepare_read` does not panic if there is room and every index is in bounds. -/
theorem provideAll_some (group : UInt16) {idxs : List UInt32} :
    ∀ sock : UdpSocket2IoUring sendQueue recvQueue, (∀ i ∈ idxs, i.toNat < recvQueue) →
      sock.ring.submission.length + idxs.length ≤ sock.ring.entries →
      ∃ sock', sock.provideAll group idxs = .ok sock' := by
  induction idxs with
  | nil => exact fun sock _ _ => ⟨sock, rfl⟩
  | cons index rest ih =>
      intro sock hbound hroom
      rw [List.length_cons] at hroom
      have hroom' : sock.ring.submission.length < sock.ring.entries := by omega
      have hprovide : sock.provide group index = .ok (sock.pushed [provideSqe group index]) := by
        simp [provide, IoUring.push, hbound index List.mem_cons_self, hroom', pushed, provideSqe]
      obtain ⟨sock', hok⟩ := ih (sock.pushed [provideSqe group index])
        (fun i hi => hbound i (List.mem_cons_of_mem _ hi)) (by simp [pushed]; omega)
      refine ⟨sock', ?_⟩
      rw [provideAll, hprovide]
      exact hok

theorem pushRead_some {group : UInt16} {sock : UdpSocket2IoUring sendQueue recvQueue}
    (hbound : ∀ i ∈ groupBufs group, i.toNat < recvQueue)
    (hroom : sock.ring.submission.length + 17 ≤ sock.ring.entries) :
    ∃ sock', sock.pushRead group = .ok sock' := by
  have hlen := groupBufs_length group
  obtain ⟨sock', hok⟩ := provideAll_some group sock hbound (by omega)
  obtain ⟨-, rfl⟩ := provideAll_ok hok
  have hroom' : sock.ring.submission.length + (groupBufs group).length < sock.ring.entries := by
    omega
  cases hpush : sock.pushRead group with
  | ok sock' => exact ⟨sock', rfl⟩
  | error p => simp [pushRead, hok, IoUring.push, pushed, hroom'] at hpush

end UdpSocket2IoUring

namespace System

open UdpSocket2IoUring

/-- Everything in the submission queue is handed over. -/
def flushed (sqes : List Sqe) (s : System sendQueue recvQueue) : System sendQueue recvQueue :=
  { s with
    sock := { s.sock with
      ring := { s.sock.ring with
        submission := []
        completion := s.sock.ring.completion ++ sqes.filterMap Sqe.answer } }
    kernel := s.kernel.handed (message s.sock.sendBufs) sqes }

theorem submit_ok {answer : Except IoError Unit} {s s' : System sendQueue recvQueue}
    (h : s.submit answer = (.ok (), s')) : s' = s.flushed s.sock.ring.submission := by
  unfold submit at h
  split at h
  · cases h
  · rw [Kernel.consumeAll_eq] at h
    exact (congrArg Prod.snd h).symm

theorem submit_error {answer : Except IoError Unit} {s s' : System sendQueue recvQueue}
    {e : IoError} (h : s.submit answer = (.error e, s')) : s' = s := by
  unfold submit at h
  split at h
  · exact (congrArg Prod.snd h).symm
  · cases h

/-- `prepare_read`, when it does not panic. -/
def armed (group : UInt16) (s : System sendQueue recvQueue) : System sendQueue recvQueue :=
  let s' := s.flushed (s.sock.ring.submission ++ readSqes group)
  { s' with
    sock := { s'.sock with groupMsghdr := { msgNamelen := 32, msgControllen := 0 } }
    released := s.released.filter (· ∉ groupBufs group) }

theorem prepareRead_ok {answer : Except IoError Unit} {group : UInt16}
    {s s' : System sendQueue recvQueue} (h : s.prepareRead answer group = .ok s') :
    (∀ i ∈ groupBufs group, i.toNat < recvQueue) ∧ s' = s.armed group := by
  unfold prepareRead at h
  split at h
  · cases h
  · rename_i sock hpush
    obtain ⟨hbound, rfl⟩ := pushRead_ok hpush
    split at h
    · cases h
    · rename_i s₁ hsubmit
      cases h
      refine ⟨hbound, ?_⟩
      rw [submit_ok hsubmit]
      rfl

theorem prepareRead_some {s : System sendQueue recvQueue} {group : UInt16}
    (hbound : ∀ i ∈ groupBufs group, i.toNat < recvQueue)
    (hroom : s.sock.ring.submission.length + 17 ≤ s.sock.ring.entries) :
    s.prepareRead (.ok ()) group = .ok (s.armed group) := by
  obtain ⟨sock, hpush⟩ := pushRead_some hbound hroom
  cases hread : s.prepareRead (.ok ()) group with
  | ok t => rw [(prepareRead_ok hread).2]
  | error p => simp [prepareRead, hpush, submit] at hread

end System

end MediaServer.Uring
