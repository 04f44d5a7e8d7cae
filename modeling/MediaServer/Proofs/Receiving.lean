/-
Receiving.

A group of receive buffers is armed, or has ended and not been seen to, or is idle; a
buffer is provided, or filled and not polled, or waits, or has been returned.  With
that the socket is a receive ring (`System.rxRing`), and every step of it is a step of
the ring, or is not seen by it, whatever the kernel does; what is assumed of the kernel
is what is assumed of the ring's device.

A group goes idle before its datagrams are returned, and is armed again once nothing
waits.  That this is safe is `RxRing.Ordered.arm_unread`: what was filled of a group was
posted before its end.
-/
import MediaServer.Proofs.Socket
import MediaServer.Lib.RxRing

namespace MediaServer.Uring

open Lib UdpSocket2IoUring

variable {sendQueue recvQueue : Nat}

/-! ### The socket as a ring -/

/-- What an entry says of a receive request. -/
def Cqe.rxPost (cqe : Cqe) : Option (RxPost UInt16 UInt32) :=
  match UserData.decode cqe.userData with
  | .recv group =>
      some { group, buf := cqe.buffer.map (GroupIndex.toU32 group), more := cqe.more }
  | _ => none

/-- The groups `prepare` has yet to arm. -/
def Thread.fresh : Thread → List UInt16
  | .preparing todo => todo
  | _ => []

/-- The header for receiving, once `prepare_read` has filled it in. -/
def recvHdr : GroupMsghdr := { msgNamelen := 32, msgControllen := 0 }

namespace System

/-- What is posted of the receive requests and not yet polled. -/
def rxPosts (s : System sendQueue recvQueue) : List (RxPost UInt16 UInt32) :=
  s.sock.ring.completion.filterMap Cqe.rxPost

variable (parse : GroupMsghdr → Bytes → Except SocketPanic Message)

/-- What `recv_from` makes of a buffer. -/
def datagram (s : System sendQueue recvQueue) (i : UInt32) : Except SocketPanic Message :=
  parse recvHdr (s.sock.readBufs i.toNat)

def rxRing (s : System sendQueue recvQueue) :
    RxRing UInt16 UInt32 (Except SocketPanic Message) :=
  { fresh := s.thread.fresh
    armed := s.kernel.recvs.map (·.bgid)
    posts := s.rxPosts
    idle := s.sock.readWaitFreeGroups
    provided := s.kernel.provided.map fun buf => (buf.bgid, buf.addr)
    waiting := s.sock.readWaitQueue
    released := s.released
    memory := s.datagram parse
    reported := s.kernel.reported.map (parse recvHdr)
    returned := s.returned.map .ok }

variable {parse} {s s' : System sendQueue recvQueue}

/-- Nothing was ever armed. -/
structure Untouched (s : System sendQueue recvQueue) : Prop where
  recvs : s.kernel.recvs = []
  posts : s.rxPosts = []
  waiting : s.sock.readWaitQueue = []

/-- What holds of the receive path besides: `prepare` reads nothing, and the header is filled in. -/
structure Receiving (s : System sendQueue recvQueue) : Prop where
  tagged : s.Tagged
  preparing : ∀ todo, s.thread = .preparing todo → s.sock.readWaitQueue = []
  header : s.sock.groupMsghdr = recvHdr ∨ s.Untouched

theorem rxPosts_posted {cqe : Cqe}
    (h : s'.sock.ring.completion = s.sock.ring.completion ++ [cqe]) :
    s'.rxPosts = s.rxPosts ++ cqe.rxPost.toList := by
  cases hpost : cqe.rxPost <;> simp [rxPosts, h, hpost]

theorem rxPost_send {idx : UInt32} {cqe : Cqe} (h : cqe.userData = (UserData.send idx).encode) :
    cqe.rxPost = none := by
  simp [Cqe.rxPost, h, UserData.decode_encode]

theorem rxPost_recv {group : UInt16} {cqe : Cqe}
    (h : cqe.userData = (UserData.recv group).encode) :
    cqe.rxPost = some
      { group, buf := cqe.buffer.map (GroupIndex.toU32 group), more := cqe.more } := by
  simp [Cqe.rxPost, h, UserData.decode_encode]

theorem rxPosts_flushed (h : s.Tagged) :
    (s.flushed s.sock.ring.submission).rxPosts = s.rxPosts := by
  simp [rxPosts, flushed, h.answer_submission]

/-- Providing buffers posts nothing of a receive request. -/
theorem rxPosts_armed (h : s.Tagged) (group : UInt16) : (s.armed group).rxPosts = s.rxPosts := by
  have hanswers : ((readSqes group).filterMap Sqe.answer).filterMap Cqe.rxPost = [] := by
    simp [Cqe.rxPost, UserData.decode_encode]
  simp only [rxPosts, armed, flushed, List.filterMap_append, h.answer_submission,
    List.nil_append, hanswers, List.append_nil]

theorem rxPosts_polled {cqe : Cqe} {rest : List Cqe} (hcq : s.sock.ring.completion = cqe :: rest) :
    s.rxPosts = cqe.rxPost.toList ++ (s.polled rest).rxPosts := by
  cases hpost : cqe.rxPost <;> simp [rxPosts, polled, hcq, hpost]

/-! ### Every step is a step of the ring -/

section

variable {fills : RxRing UInt16 UInt32 (Except SocketPanic Message) → UInt32 → Bool → Prop}
  {ends : RxRing UInt16 UInt32 (Except SocketPanic Message) → UInt16 → Prop}

theorem recvs_flushed (h : s.Tagged) :
    (s.flushed s.sock.ring.submission).kernel.recvs = s.kernel.recvs := by
  simp [flushed, Kernel.handed, h.recvRequest_submission]

theorem provided_flushed (h : s.Tagged) :
    (s.flushed s.sock.ring.submission).kernel.provided = s.kernel.provided := by
  simp [flushed, Kernel.handed, h.providedBuffer_submission]

theorem recvs_armed (h : s.Tagged) (group : UInt16) :
    (s.armed group).kernel.recvs.map (·.bgid) = s.kernel.recvs.map (·.bgid) ++ [group] := by
  simp [armed, flushed, Kernel.handed, h.recvRequest_submission]

theorem provided_armed (h : s.Tagged) (group : UInt16) :
    (s.armed group).kernel.provided = s.kernel.provided ++ (groupBufs group).map fun i =>
      { addr := i, len := recvBufSize, bgid := group, bid := GroupIndex.index i } := by
  simp [armed, flushed, Kernel.handed, h.providedBuffer_submission]

theorem rxRing_armed (h : s.Tagged) (group : UInt16) :
    (s.armed group).rxRing parse = (s.rxRing parse).arm groupBufs group := by
  have hprovided : (s.armed group).kernel.provided.map (fun buf => (buf.bgid, buf.addr))
      = s.kernel.provided.map (fun buf => (buf.bgid, buf.addr))
        ++ (groupBufs group).map (Prod.mk group) := by
    simp [provided_armed h, Function.comp_def]
  simp only [rxRing, RxRing.arm, recvs_armed h, hprovided, rxPosts_armed h]
  rfl

/-- An entry that is not about receiving. -/
theorem rxRing_posted {kernel : Kernel} {cqe : Cqe} (hpost : cqe.rxPost = none)
    (hrecvs : kernel.recvs = s.kernel.recvs) (hprovided : kernel.provided = s.kernel.provided)
    (hreported : kernel.reported = s.kernel.reported) :
    (s.posted kernel cqe).rxRing parse = s.rxRing parse := by
  have hposts : (s.posted kernel cqe).rxPosts = s.rxPosts := by
    have hgrows : (s.posted kernel cqe).rxPosts = s.rxPosts ++ cqe.rxPost.toList :=
      rxPosts_posted rfl
    simpa [hpost] using hgrows
  simp only [rxRing, hposts]
  simp [posted, hrecvs, hprovided, hreported]
  rfl

/-- A buffer the kernel fills. -/
theorem rxRing_filling (h : Receiving s) {i j : Nat} {data : Bytes} {more : Bool}
    {req : RecvRequest} {buf : ProvidedBuffer} (hreq : s.kernel.recvs[i]? = some req)
    (hbuf : s.kernel.provided[j]? = some buf) (hgroup : buf.bgid = req.bgid) :
    (s.filling (s.kernel.provided.eraseIdx j)
      (if more then s.kernel.recvs else s.kernel.recvs.eraseIdx i) req buf data more).rxRing parse
      = { s.rxRing parse with
          armed :=
            if more then (s.rxRing parse).armed
            else (s.kernel.recvs.eraseIdx i).map (·.bgid)
          provided := (s.kernel.provided.eraseIdx j).map fun buf => (buf.bgid, buf.addr)
          posts := s.rxPosts ++ [{ group := req.bgid, buf := some buf.addr, more }]
          memory := fun b =>
            if b = buf.addr then parse recvHdr data else s.datagram parse b
          reported := s.kernel.reported.map (parse recvHdr) ++ [parse recvHdr data] } := by
  have htag := h.tagged.recvs req (List.mem_of_getElem? hreq)
  obtain ⟨haddr, -⟩ := h.tagged.provided buf (List.mem_of_getElem? hbuf)
  have hposts : (s.filling (s.kernel.provided.eraseIdx j)
      (if more then s.kernel.recvs else s.kernel.recvs.eraseIdx i) req buf data more).rxPosts
      = s.rxPosts ++ [{ group := req.bgid, buf := some buf.addr, more }] := by
    refine (rxPosts_posted rfl).trans ?_
    rw [rxPost_recv htag, haddr, hgroup]
    rfl
  have hmemory : (s.filling (s.kernel.provided.eraseIdx j)
      (if more then s.kernel.recvs else s.kernel.recvs.eraseIdx i) req buf data more).datagram parse
      = fun b => if b = buf.addr then parse recvHdr data else s.datagram parse b := by
    funext b
    by_cases hb : b = buf.addr
    · simp [datagram, filling, hb]
    · have hne : b.toNat ≠ buf.addr.toNat := fun heq => hb (UInt32.toNat_inj.mp heq)
      simp [datagram, filling, hb, hne]
  simp only [rxRing, hposts, hmemory]
  cases more <;> simp [filling, posted]

/-- A request the kernel ends. -/
theorem rxRing_ended (h : Receiving s) {i : Nat} {req : RecvRequest}
    (hreq : s.kernel.recvs[i]? = some req) :
    (s.posted { s.kernel with recvs := s.kernel.recvs.eraseIdx i }
      { userData := req.userData, buffer := none, more := false }).rxRing parse
      = { s.rxRing parse with
          armed := (s.kernel.recvs.eraseIdx i).map (·.bgid)
          posts := s.rxPosts ++ [{ group := req.bgid, buf := none, more := false }] } := by
  have htag := h.tagged.recvs req (List.mem_of_getElem? hreq)
  have hposts : (s.posted { s.kernel with recvs := s.kernel.recvs.eraseIdx i }
      { userData := req.userData, buffer := none, more := false }).rxPosts
      = s.rxPosts ++ [{ group := req.bgid, buf := none, more := false }] := by
    refine (rxPosts_posted rfl).trans ?_
    rw [rxPost_recv htag]
    rfl
  simp only [rxRing, hposts]
  rfl

/-- **Every step is a step of the ring**, or is not seen by it. -/
theorem Receiving.simulates {a : Label} (h : Receiving s)
    (hfills : ∀ i j data more buf, a = .kernel (.filled i j data more) →
      s.kernel.provided[j]? = some buf → fills (s.rxRing parse) buf.addr more)
    (hends : ∀ i req, a = .kernel (.ended i) → s.kernel.recvs[i]? = some req →
      ends (s.rxRing parse) req.bgid)
    (hs : Effect parse s a s') :
    s'.rxRing parse = s.rxRing parse ∨
      RxRing.Step groupBufs fills ends (s.rxRing parse) (s'.rxRing parse) := by
  cases hs with
  | @sent i req more hreq =>
      have htag := h.tagged.sends req (List.mem_of_getElem? hreq)
      exact .inl (rxRing_posted (rxPost_send htag) rfl rfl rfl)
  | @notified i req hreq =>
      have htag := h.tagged.sends req (List.mem_of_getElem? hreq)
      exact .inl (rxRing_posted (rxPost_send htag) rfl rfl rfl)
  | @filled i j data req buf more hreq hbuf hgroup =>
      refine .inr ?_
      have hprov : (s.rxRing parse).provided.Perm ((req.bgid, buf.addr) ::
          (s.kernel.provided.eraseIdx j).map fun buf => (buf.bgid, buf.addr)) := by
        rw [← hgroup]
        exact (perm_eraseIdx hbuf).map fun buf => (buf.bgid, buf.addr)
      rw [rxRing_filling h hreq hbuf hgroup]
      exact .fill (parse recvHdr data) more ((perm_eraseIdx hreq).map RecvRequest.bgid) hprov
        (hfills i j data more buf rfl hbuf)
  | @ended i req hreq =>
      refine .inr ?_
      rw [rxRing_ended h hreq]
      exact .finish ((perm_eraseIdx hreq).map RecvRequest.bgid) (hends i req rfl hreq)
  | @armed group rest answer hthread hbound =>
      refine .inr ?_
      have hfresh : (s.rxRing parse).fresh = group :: rest := by
        simp [rxRing, hthread, Thread.fresh]
      show RxRing.Step groupBufs fills ends (s.rxRing parse)
        { (s.armed group).rxRing parse with fresh := rest }
      rw [rxRing_armed h.tagged]
      exact .armFresh (h.preparing _ hthread) hfresh
  | prepared answer hthread => exact .inl (by simp only [rxRing, hthread]; rfl)
  | @called c hthread =>
      refine .inl ?_
      simp only [rxRing, hthread]
      cases c <;> rfl
  | polledAll hthread hcq => exact .inl (by simp only [rxRing, hthread]; rfl)
  | @polledFilled c cqe rest group idx hthread hcq hdata hmore hbuf =>
      refine .inr ?_
      have hpost : (s.rxRing parse).posts
          = { group, buf := some (GroupIndex.toU32 group idx), more := true } ::
            (s.polled rest).rxPosts := by
        simp [rxRing, rxPosts_polled hcq, Cqe.rxPost, hdata, hbuf, hmore]
      exact .poll hpost
  | @polledEnded c cqe rest group hthread hcq hdata hmore =>
      refine .inr ?_
      have hpost : (s.rxRing parse).posts
          = { group, buf := cqe.buffer.map (GroupIndex.toU32 group), more := false } ::
            (s.polled rest).rxPosts := by
        simp [rxRing, rxPosts_polled hcq, Cqe.rxPost, hdata, hmore]
      exact .poll hpost
  | @polledSent c cqe rest idx hthread hcq hdata hmore =>
      refine .inl ?_
      have hpost : s.rxPosts = (s.polled rest).rxPosts := by
        simp [rxPosts_polled hcq, Cqe.rxPost, hdata]
      simp only [rxRing, hpost]
      rfl
  | @polledOther c cqe rest hthread hcq hrecv hsend =>
      refine .inl ?_
      have hnone : cqe.rxPost = none := by
        unfold Cqe.rxPost
        split
        · rename_i group hdata
          exact absurd hdata (hrecv group)
        · rfl
      have hpost : s.rxPosts = (s.polled rest).rxPosts := by
        simp [rxPosts_polled hcq, hnone]
      simp only [rxRing, hpost]
      rfl
  | @accepted buf dest idx rest answer hthread hfree =>
      exact .inl (by simp only [rxRing, hthread]; rfl)
  | flushed hthread hchanged =>
      refine .inl ?_
      show { s.rxRing parse with
        fresh := []
        armed := (s.flushed s.sock.ring.submission).kernel.recvs.map RecvRequest.bgid
        posts := (s.flushed s.sock.ring.submission).rxPosts
        provided := (s.flushed s.sock.ring.submission).kernel.provided.map
          fun buf : ProvidedBuffer => (buf.bgid, buf.addr) } = _
      rw [rxPosts_flushed h.tagged, recvs_flushed h.tagged, provided_flushed h.tagged]
      simp only [rxRing, hthread]
      rfl
  | @received idx rest msg answer hthread hwait hparse =>
      refine .inr ?_
      have hhdr : s.sock.groupMsghdr = recvHdr :=
        h.header.resolve_right fun hnone => by simp [hnone.waiting] at hwait
      have hread : s.datagram parse idx = .ok msg := by rw [datagram, ← hhdr, hparse]
      have hfresh : (s.rxRing parse).fresh = [] := by simp [rxRing, hthread, Thread.fresh]
      show RxRing.Step groupBufs fills ends (s.rxRing parse) { s.rxRing parse with
        fresh := []
        waiting := rest
        released := s.released ++ [idx]
        returned := (s.returned ++ [msg]).map .ok }
      rw [List.map_append, List.map_singleton, ← hread, ← hfresh]
      exact .read hwait
  | @rearmed group rest answer hthread hwait hfree hbound =>
      refine .inr ?_
      have hfresh : (s.rxRing parse).fresh = [] := by simp [rxRing, hthread, Thread.fresh]
      show RxRing.Step groupBufs fills ends (s.rxRing parse)
        { (s.armed group).rxRing parse with fresh := [], idle := rest }
      rw [rxRing_armed h.tagged, ← hfresh]
      have hidle : (s.rxRing parse).idle = group :: rest := hfree
      exact .armIdle hwait hidle
  | returned answer outcome hthread hcommit =>
      exact .inl (by simp only [rxRing, hthread]; rfl)

/-! ### What holds besides -/

theorem groupMsghdr_step {a : Label} (hs : Effect parse s a s') :
    s'.sock.groupMsghdr = s.sock.groupMsghdr ∨ s'.sock.groupMsghdr = recvHdr := by
  cases hs with
  | armed answer hthread hbound => exact .inr rfl
  | rearmed answer hthread hwait hfree hbound => exact .inr rfl
  | _ => exact .inl rfl

/-- Nothing is polled before `prepare` is done. -/
theorem preparing_step {a : Label}
    (h : ∀ todo, s.thread = .preparing todo → s.sock.readWaitQueue = [])
    (hs : Effect parse s a s') (todo : List UInt16) (hprep : s'.thread = .preparing todo) :
    s'.sock.readWaitQueue = [] := by
  cases hs with
  | sent more hreq => exact h todo hprep
  | notified hreq => exact h todo hprep
  | filled more hreq hbuf hgroup => exact h todo hprep
  | ended hreq => exact h todo hprep
  | armed answer hthread hbound => exact h _ hthread
  | called c hthread => cases c <;> cases hprep
  | polledFilled hthread hcq hdata hmore hbuf => cases hthread.symm.trans hprep
  | polledEnded hthread hcq hdata hmore => cases hthread.symm.trans hprep
  | polledSent hthread hcq hdata hmore => cases hthread.symm.trans hprep
  | polledOther hthread hcq hrecv hsend => cases hthread.symm.trans hprep
  | _ => cases hprep

theorem Untouched.step {a : Label} (htagged : s.Tagged) (h : Untouched s)
    (hs : Effect parse s a s') : s'.sock.groupMsghdr = recvHdr ∨ Untouched s' := by
  have hpolled : ∀ {cqe rest}, s.sock.ring.completion = cqe :: rest →
      (s.polled rest).rxPosts = [] ∧ cqe.rxPost = none := by
    intro cqe rest hcq
    have hposts := h.posts
    rw [rxPosts_polled hcq] at hposts
    simpa [and_comm] using hposts
  cases hs with
  | @sent i req more hreq =>
      have htag := htagged.sends req (List.mem_of_getElem? hreq)
      refine .inr ⟨h.recvs, (rxPosts_posted rfl).trans ?_, h.waiting⟩
      rw [h.posts, rxPost_send htag]
      rfl
  | @notified i req hreq =>
      have htag := htagged.sends req (List.mem_of_getElem? hreq)
      refine .inr ⟨h.recvs, (rxPosts_posted rfl).trans ?_, h.waiting⟩
      rw [h.posts, rxPost_send htag]
      rfl
  | filled more hreq hbuf hgroup => simp [h.recvs] at hreq
  | ended hreq => simp [h.recvs] at hreq
  | armed answer hthread hbound => exact .inl rfl
  | polledFilled hthread hcq hdata hmore hbuf =>
      have hnone := (hpolled hcq).2
      simp [Cqe.rxPost, hdata] at hnone
  | polledEnded hthread hcq hdata hmore =>
      have hnone := (hpolled hcq).2
      simp [Cqe.rxPost, hdata] at hnone
  | polledSent hthread hcq hdata hmore => exact .inr ⟨h.recvs, (hpolled hcq).1, h.waiting⟩
  | polledOther hthread hcq hrecv hsend => exact .inr ⟨h.recvs, (hpolled hcq).1, h.waiting⟩
  | flushed hthread hchanged =>
      refine .inr ⟨?_, ?_, h.waiting⟩
      · exact (recvs_flushed htagged).trans h.recvs
      · exact (rxPosts_flushed htagged).trans h.posts
  | received answer hthread hwait hparse => simp [h.waiting] at hwait
  | rearmed answer hthread hwait hfree hbound => exact .inl rfl
  | _ => exact .inr ⟨h.recvs, h.posts, h.waiting⟩

theorem Receiving.step {a : Label} (h : Receiving s) (hs : Effect parse s a s') :
    Receiving s' := by
  refine ⟨h.tagged.step hs, preparing_step h.preparing hs, ?_⟩
  rcases h.header with hhdr | huntouched
  · exact .inl ((groupMsghdr_step hs).elim (·.trans hhdr) id)
  · exact huntouched.step h.tagged hs

end

/-! ### Bounds -/

/-- The buffers that hold something still to be returned, in order. -/
def unread (s : System sendQueue recvQueue) : List UInt32 :=
  s.sock.readWaitQueue ++ s.rxPosts.filterMap (·.buf)

/-- What the socket is told of is a receive buffer, and it is told of one when it expects it. -/
structure InBounds (s : System sendQueue recvQueue) : Prop where
  provided : ∀ buf ∈ s.kernel.provided, buf.addr.toNat < recvQueue
  unread : ∀ i ∈ s.unread, i.toNat < recvQueue
  posts : ∀ p ∈ s.rxPosts, p.more = true → p.buf ≠ none

theorem InBounds.armed (htagged : s.Tagged) (h : InBounds s) {group : UInt16}
    (hbound : ∀ i ∈ groupBufs group, i.toNat < recvQueue) : InBounds (s.armed group) := by
  have hposts := rxPosts_armed htagged group
  refine ⟨fun buf hbuf => ?_, fun i hi => h.unread i ?_, fun p hp => h.posts p (hposts ▸ hp)⟩
  · rw [provided_armed htagged] at hbuf
    rcases List.mem_append.mp hbuf with hbuf | hbuf
    · exact h.provided buf hbuf
    · obtain ⟨i, hi, rfl⟩ := List.mem_map.mp hbuf
      exact hbound i hi
  · rw [System.unread, hposts] at hi
    exact hi

/-- What is posted of a request that exists. -/
theorem InBounds.posted (h : InBounds s) {cqe : Cqe} {post : RxPost UInt16 UInt32}
    (hpost : cqe.rxPost = some post) (hbuf : ∀ i, post.buf = some i → i.toNat < recvQueue)
    (hmore : post.more = true → post.buf ≠ none)
    (hcq : s'.sock.ring.completion = s.sock.ring.completion ++ [cqe])
    (hwait : s'.sock.readWaitQueue = s.sock.readWaitQueue)
    (hprovided : ∀ buf ∈ s'.kernel.provided, buf ∈ s.kernel.provided) : InBounds s' := by
  have hposts : s'.rxPosts = s.rxPosts ++ [post] := by
    rw [rxPosts_posted hcq, hpost]
    rfl
  refine ⟨fun buf hbuf => h.provided buf (hprovided buf hbuf), fun i hi => ?_, fun p hp => ?_⟩
  · have hcases : i ∈ s.unread ∨ post.buf = some i := by
      rw [System.unread, hwait, hposts, List.filterMap_append, ← List.append_assoc] at hi
      refine (List.mem_append.mp hi).imp id fun hlast => ?_
      simpa using hlast
    exact hcases.elim (h.unread i) (hbuf i)
  · rw [hposts] at hp
    rcases List.mem_append.mp hp with hp | hp
    · exact h.posts p hp
    · rw [List.mem_singleton.mp hp]
      exact hmore

/-- What is polled is what was posted. -/
theorem InBounds.polled (h : InBounds s) {cqe : Cqe} {rest : List Cqe} {moved : List UInt32}
    (hcq : s.sock.ring.completion = cqe :: rest)
    (hmoved : ∀ i ∈ moved, ∃ post, cqe.rxPost = some post ∧ post.buf = some i)
    (hcq' : s'.sock.ring.completion = rest)
    (hwait : s'.sock.readWaitQueue = s.sock.readWaitQueue ++ moved)
    (hprovided : s'.kernel.provided = s.kernel.provided) : InBounds s' := by
  have hposts : s.rxPosts = cqe.rxPost.toList ++ s'.rxPosts := by
    rw [rxPosts_polled hcq]
    simp [rxPosts, System.polled, hcq']
  refine ⟨hprovided ▸ h.provided, fun i hi => h.unread i ?_, fun p hp => h.posts p ?_⟩
  · rw [System.unread, hwait] at hi
    rw [System.unread, hposts, List.filterMap_append]
    simp only [List.mem_append] at hi ⊢
    rcases hi with (hi | hi) | hi
    · exact .inl hi
    · obtain ⟨post, hpost, hbuf⟩ := hmoved i hi
      exact .inr (.inl (by simp [hpost, hbuf]))
    · exact .inr (.inr hi)
  · rw [hposts]
    exact List.mem_append_right _ hp

/-- A step the receive path has no part in. -/
theorem InBounds.apart (h : InBounds s) (hposts : s'.rxPosts = s.rxPosts)
    (hwait : s'.sock.readWaitQueue = s.sock.readWaitQueue)
    (hprovided : s'.kernel.provided = s.kernel.provided) : InBounds s' := by
  have hunread : s'.unread = s.unread := by rw [System.unread, System.unread, hposts, hwait]
  exact ⟨hprovided ▸ h.provided, hunread ▸ h.unread, hposts ▸ h.posts⟩

theorem InBounds.step {a : Label} (htagged : s.Tagged) (h : InBounds s)
    (hs : Effect parse s a s') : InBounds s' := by
  cases hs with
  | @sent i req more hreq =>
      have htag := htagged.sends req (List.mem_of_getElem? hreq)
      refine h.apart ((rxPosts_posted rfl).trans ?_) rfl rfl
      rw [rxPost_send htag]
      exact List.append_nil _
  | @notified i req hreq =>
      have htag := htagged.sends req (List.mem_of_getElem? hreq)
      refine h.apart ((rxPosts_posted rfl).trans ?_) rfl rfl
      rw [rxPost_send htag]
      exact List.append_nil _
  | @filled i j data req buf more hreq hbuf hgroup =>
      have htag := htagged.recvs req (List.mem_of_getElem? hreq)
      have hmem := List.mem_of_getElem? hbuf
      refine h.posted (rxPost_recv htag) (fun i hi => ?_) (fun _ => by simp) rfl rfl
        fun buf' hbuf' => List.mem_of_mem_eraseIdx hbuf'
      have haddr : i = buf.addr := by
        rw [(htagged.provided buf hmem).1, hgroup]
        exact (Option.some.inj hi).symm
      rw [haddr]
      exact h.provided buf hmem
  | @ended i req hreq =>
      have htag := htagged.recvs req (List.mem_of_getElem? hreq)
      exact h.posted (rxPost_recv htag) (by simp) (by simp) rfl rfl fun _ hbuf => hbuf
  | armed answer hthread hbound =>
      have harmed := h.armed htagged hbound
      exact ⟨harmed.provided, harmed.unread, harmed.posts⟩
  | @polledFilled c cqe rest group idx hthread hcq hdata hmore hbuf =>
      refine h.polled hcq (fun i hi => ?_) rfl rfl rfl
      refine ⟨{ group, buf := cqe.buffer.map (GroupIndex.toU32 group), more := cqe.more },
        by simp only [Cqe.rxPost, hdata], ?_⟩
      rw [List.mem_singleton.mp hi, hbuf]
      rfl
  | polledEnded hthread hcq hdata hmore =>
      exact h.polled hcq (by simp) rfl (List.append_nil _).symm rfl
  | polledSent hthread hcq hdata hmore =>
      exact h.polled hcq (by simp) rfl (List.append_nil _).symm rfl
  | polledOther hthread hcq hrecv hsend =>
      exact h.polled hcq (by simp) rfl (List.append_nil _).symm rfl
  | flushed hthread hchanged =>
      exact h.apart (rxPosts_flushed htagged) rfl (provided_flushed htagged)
  | @received idx rest msg answer hthread hwait hparse =>
      refine ⟨h.provided, fun i hi => h.unread i ?_, h.posts⟩
      rw [System.unread, hwait]
      exact List.mem_cons_of_mem _ hi
  | rearmed answer hthread hwait hfree hbound =>
      have harmed := h.armed htagged hbound
      exact ⟨harmed.provided, harmed.unread, harmed.posts⟩
  | _ => exact h.apart rfl rfl rfl

/-! ### From the start -/

/-- All the groups. -/
def allGroups (recvQueue : Nat) : List UInt16 :=
  (List.range (recvQueue / recvBufGroupSize.toNat)).map UInt16.ofNat

section

variable {sock : UdpSocket2IoUring sendQueue recvQueue}
  (h : UdpSocket2IoUring.new sendQueue recvQueue = .ok sock)

include h

theorem rxPosts_start : (System.start sock).rxPosts = [] := by
  obtain ⟨-, -, hcq, -, -, -⟩ := new_ok h
  simp [rxPosts, System.start, preapreWrite, hcq]

theorem Receiving.start : Receiving (System.start sock) := by
  obtain ⟨-, hsub, -, -, hwait, -⟩ := new_ok h
  exact ⟨Tagged.start sock hsub, fun _ _ => hwait, .inr ⟨rfl, rxPosts_start h, hwait⟩⟩

theorem unread_start : (System.start sock).unread = [] := by
  obtain ⟨-, -, -, -, hwait, -⟩ := new_ok h
  simp only [unread, rxPosts_start h]
  simp [System.start, preapreWrite, hwait]

theorem InBounds.start : InBounds (System.start sock) where
  provided := by simp [System.start, Kernel.new]
  unread := by simp [unread_start h]
  posts := by simp [rxPosts_start h]

theorem ordered_start :
    ((System.start sock).rxRing parse).Ordered groupBufs (allGroups recvQueue) := by
  obtain ⟨-, -, -, -, -, hfree⟩ := new_ok h
  have hposts : ((System.start sock).rxRing parse).posts = [] := rxPosts_start h
  refine ⟨?_, by simp [hposts], by simp [hposts], by simp [hposts], ?_⟩
  · rw [RxRing.ended, hposts]
    simp [rxRing, System.start, preapreWrite, Kernel.new, Thread.fresh, allGroups, hfree]
  · simp [rxRing, System.start, Kernel.new]

theorem exclusive_start :
    ((System.start sock).rxRing parse).Exclusive groupBufs (allGroups recvQueue) := by
  have hposts : ((System.start sock).rxRing parse).posts = [] := rxPosts_start h
  have hunread : ((System.start sock).rxRing parse).unread = (System.start sock).unread := rfl
  refine ⟨?_, by simp [rxRing, System.start, Kernel.new], by simp [hposts]⟩
  rw [hunread, unread_start h]
  simp [rxRing, System.start, Kernel.new, Thread.fresh, allGroups]

theorem faithful_start : ((System.start sock).rxRing parse).Faithful := by
  have hposts : ((System.start sock).rxRing parse).posts = [] := rxPosts_start h
  have hunread : ((System.start sock).rxRing parse).unread = (System.start sock).unread := rfl
  refine ⟨?_, by simp [hposts]⟩
  rw [hunread, unread_start h]
  simp [rxRing, System.start, Kernel.new]

end

end System

end MediaServer.Uring
