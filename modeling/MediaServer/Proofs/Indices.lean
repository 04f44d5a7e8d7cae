/-
The number of a buffer, out and back.

A receive buffer is known to the socket by its index and to the kernel by a group and an
id in the group, and the group comes back in the tag of an entry and the id in its flags.
Out, the index is cut to sixteen bits twice, and the buffers of a group end where those of
`group + 1` begin; back, it is put together again.  For every number of buffers the ring
can have entries for nothing is lost in this, and the groups `prepare` walks are all the
buffers, in order.

What is made of an entry is decided by its word on what is to come, and only then by the
buffer in it.
-/
import MediaServer.Proofs.Datagrams

namespace MediaServer.Uring

open Lib UdpSocket2IoUring

variable {sendQueue recvQueue : Nat}

theorem UserData.encode_injective : Function.Injective UserData.encode :=
  Function.LeftInverse.injective UserData.decode_encode

namespace System

/-! ### Out -/

/-- The entry that provides the `i`th buffer of a group. -/
def provideNth (group : UInt16) (i : Nat) : Sqe :=
  { opcode := .provideBuffers (UInt32.ofNat (16 * group.toNat + i)) recvBufSize group (UInt16.ofNat i)
    userData := (UserData.provideBuffers (UInt32.ofNat (16 * group.toNat + i))).encode }

/-- The buffers of every group but the last that `u16` can count, one after another. -/
theorem groupBufs_eq {group : UInt16} (h : group.toNat + 1 < 2 ^ 16) :
    groupBufs group = (List.range 16).map fun i => UInt32.ofNat (16 * group.toNat + i) := by
  have hnext : (group + 1).toNat = group.toNat + 1 := by
    rw [UInt16.toNat_add]
    exact Nat.mod_eq_of_lt h
  have hbegin : (GroupIndex.toU32 group 0).toNat = 16 * group.toNat := by
    rw [GroupIndex.toU32_toNat, UInt16.toNat_zero]
    omega
  have hend : (GroupIndex.toU32 (group + 1) 0).toNat - 16 * group.toNat = 16 := by
    rw [GroupIndex.toU32_toNat, hnext, UInt16.toNat_zero]
    omega
  rw [groupBufs, indexRange, hbegin, hend, List.range'_eq_map_range, List.map_map]
  rfl

/-- What `prepare_read` pushes for such a group. -/
theorem readSqes_eq {group : UInt16} (h : group.toNat + 1 < 2 ^ 16) :
    readSqes group = (List.range 16).map (provideNth group) ++ [recvSqe group] := by
  rw [readSqes, groupBufs_eq h, List.map_map]
  congr 1
  refine List.map_congr_left fun i hi => ?_
  have hi16 := List.mem_range.mp hi
  have hidx : (UInt32.ofNat (16 * group.toNat + i)).toNat = 16 * group.toNat + i :=
    UInt32.toNat_ofNat_of_lt' (by omega : 16 * group.toNat + i < 2 ^ 32)
  have hbid : GroupIndex.index (UInt32.ofNat (16 * group.toNat + i)) = UInt16.ofNat i := by
    apply UInt16.toNat_inj.mp
    rw [GroupIndex.index_toNat, hidx, UInt16.toNat_ofNat_of_lt' (by omega : i < 2 ^ 16)]
    omega
  simp only [Function.comp_apply, provideSqe, provideNth, hbid]

/-- Blocks of sixteen, one after another. -/
theorem flatMap_blocks (n : Nat) :
    (List.range n).flatMap (fun g => (List.range 16).map (16 * g + ·)) = List.range (16 * n) := by
  induction n with
  | zero => rfl
  | succ n ih =>
      have hlast : List.range (n + 1) = List.range n ++ [n] := List.range_succ
      rw [hlast, List.flatMap_append, ih, Nat.mul_succ, List.range_add]
      simp

/-! ### Back -/

/-- What an entry about a buffer of a group is put together to. -/
theorem toU32_nth {group : UInt16} {i : Nat} (hi : i < 16) :
    GroupIndex.toU32 group (UInt16.ofNat i) = UInt32.ofNat (16 * group.toNat + i) := by
  have hgroup := group.toNat_lt
  apply UInt32.toNat_inj.mp
  rw [GroupIndex.toU32_toNat, UInt16.toNat_ofNat_of_lt' (by omega : i < 2 ^ 16),
    UInt32.toNat_ofNat_of_lt' (by omega : 16 * group.toNat + i < 2 ^ 32)]
  omega

/-- An entry about the `i`th buffer of a group: it is read as that if more will come. -/
theorem complete_nth {group : UInt16} {i : Nat} (hi : i < 16) {cqe : Cqe}
    (htag : cqe.userData = (UserData.recv group).encode) (hbuf : cqe.buffer = some (UInt16.ofNat i))
    (sock : UdpSocket2IoUring sendQueue recvQueue) :
    ∃ sock', sock.complete cqe = .ok sock' ∧
      (sock'.readWaitQueue = sock.readWaitQueue ++ [UInt32.ofNat (16 * group.toNat + i)] ↔
        cqe.more = true) := by
  simp only [complete, htag, UserData.decode_encode, hbuf, toU32_nth hi]
  cases cqe.more with
  | true => exact ⟨_, rfl, by simp⟩
  | false =>
      refine ⟨_, rfl, ⟨fun heq => ?_, fun h => by cases h⟩⟩
      have hlen := congrArg List.length heq
      simp at hlen

/--
**Tags and buffer ids identify what they are about**: a tag is read back as what it was
made of; `prepare_read` provides the sixteen buffers of its group under the ids `0` to
`15`, and `prepare` every buffer once; and an entry about one of them leads back to the
buffer if and only if it says that more will come.
-/
theorem tags_identify (sendQueue recvQueue : Nat) (hmul : recvQueue % 16 = 0)
    (hsize : recvQueue ≤ IoUring.maxEntries) :
    (∀ data : UserData, UserData.decode data.encode = data) ∧
    Function.Injective UserData.encode ∧
    (∀ group : UInt16, group.toNat < recvQueue / 16 →
      (∀ i < 16, 16 * group.toNat + i < recvQueue ∧
        (UInt32.ofNat (16 * group.toNat + i)).toNat = 16 * group.toNat + i ∧
        (UInt16.ofNat i).toNat = i) ∧
      (∀ sock sock' : UdpSocket2IoUring sendQueue recvQueue, sock.pushRead group = .ok sock' →
        sock'.ring.submission = sock.ring.submission ++
          ((List.range 16).map (provideNth group) ++ [recvSqe group])) ∧
      (∀ sock : UdpSocket2IoUring sendQueue recvQueue,
        sock.ring.submission.length + 17 ≤ sock.ring.entries →
          ∃ sock', sock.pushRead group = .ok sock') ∧
      ∀ i < 16, ∀ cqe : Cqe, cqe.userData = (UserData.recv group).encode →
        cqe.buffer = some (UInt16.ofNat i) →
        ∀ sock : UdpSocket2IoUring sendQueue recvQueue, ∃ sock', sock.complete cqe = .ok sock' ∧
          (sock'.readWaitQueue = sock.readWaitQueue ++ [UInt32.ofNat (16 * group.toNat + i)] ↔
            cqe.more = true)) ∧
    ∀ sock : UdpSocket2IoUring sendQueue recvQueue,
      (System.start sock).thread = .preparing (allGroups recvQueue) ∧
      (allGroups recvQueue).flatMap
        (fun group => (List.range 16).map (16 * group.toNat + ·)) = List.range recvQueue := by
  unfold IoUring.maxEntries at hsize
  refine ⟨UserData.decode_encode, UserData.encode_injective, fun group hgroup => ?_,
    fun sock => ⟨rfl, ?_⟩⟩
  · have hbounds : ∀ i < 16, 16 * group.toNat + i < recvQueue := fun i hi => by omega
    refine ⟨fun i hi => ⟨hbounds i hi, ?_, ?_⟩, fun sock sock' hpush => ?_, fun sock hroom => ?_,
      fun i hi cqe htag hbuf => complete_nth hi htag hbuf⟩
    · have hlt := hbounds i hi
      exact UInt32.toNat_ofNat_of_lt' (by omega : 16 * group.toNat + i < 2 ^ 32)
    · exact UInt16.toNat_ofNat_of_lt' (by omega : i < 2 ^ 16)
    · obtain ⟨-, rfl⟩ := pushRead_ok hpush
      rw [← readSqes_eq (by omega)]
      rfl
    · refine pushRead_some (fun i hi => ?_) hroom
      have hi' := mem_groupBufs.mp hi
      omega
  · have hblocks := flatMap_blocks (recvQueue / 16)
    rw [← map_toNat_allGroups (by omega), List.flatMap_map] at hblocks
    rw [hblocks]
    congr 1
    omega

/-- The buffers of group 2, of 48 buffers: one of them filled, and read back. -/
theorem tags_identify_48 :
    ∃ sock sock' : UdpSocket2IoUring 16 48, UdpSocket2IoUring.new 16 48 = .ok sock ∧
      sock.complete { userData := (UserData.recv 2).encode, buffer := some 5, more := true }
        = .ok sock' ∧
      sock'.readWaitQueue = [37] := by
  obtain ⟨sock, hsock, hwait⟩ := Option.map_eq_some_iff.mp
    (by decide +kernel : (UdpSocket2IoUring.new 16 48).toOption.map (·.readWaitQueue) = some [])
  obtain ⟨-, -, hgroups, -⟩ := tags_identify 16 48 (by decide) (by decide)
  obtain ⟨sock', hok, hiff⟩ := (hgroups 2 (by decide)).2.2.2 5 (by decide)
    { userData := (UserData.recv 2).encode, buffer := some 5, more := true } rfl rfl sock
  refine ⟨sock, sock', toOption_eq_some.mp hsock, hok, ?_⟩
  rw [hiff.mpr rfl, hwait]
  rfl

/--
The last entry of a receive request with a buffer in it, as the kernel posts it when the
request ends with that buffer: the buffer is not read, and its index is nowhere.
-/
theorem tags_identify_last :
    ∃ (sock : UdpSocket2IoUring 16 16) (s : System 16 16),
      UdpSocket2IoUring.new 16 16 = .ok sock ∧
      runLabels (System.step parseV4) (System.start sock) (prepareLabels 1 ++
        [.kernel (.filled 0 3 packet false), .call .recvFrom] ++ List.replicate 16 .poll)
          = some s ∧
      s.sock.ring.completion
        = [{ userData := (UserData.recv 0).encode, buffer := some 3, more := false }] ∧
      s.sock.readWaitQueue = [] ∧
      (s.step parseV4 .poll).map (fun s' => (s'.sock.readWaitQueue, s'.sock.readWaitFreeGroups))
        = some ([], [0]) := by
  have hrun : (runNew 16 16 parseV4 (prepareLabels 1 ++ [.kernel (.filled 0 3 packet false),
      .call .recvFrom] ++ List.replicate 16 .poll)).map (fun s => (s.sock.ring.completion,
        s.sock.readWaitQueue, (s.step parseV4 .poll).map fun s' =>
          (s'.sock.readWaitQueue, s'.sock.readWaitFreeGroups)))
      = some ([{ userData := (UserData.recv 0).encode, buffer := some 3, more := false }], [],
          some ([], [0])) := by decide +kernel
  obtain ⟨sock, s, hnew, hlabels, hread⟩ := of_runNew hrun
  simp only [Prod.mk.injEq] at hread
  exact ⟨sock, s, hnew, hlabels, hread⟩

end System

end MediaServer.Uring
