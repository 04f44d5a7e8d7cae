/-
What a step of the socket can do.

A step is a call, or a turn of the loop in one, or something the kernel does.  This file
says once, for each, what it needs and what it leaves: a relation with a constructor for
everything that can happen (`Effect`), and that every step is one of these.  What is
proved of the socket afterwards goes through its constructors and does not look at a
function again; the first such invariant is that requests and entries are marked with
the number of what they are about (`Tagged`).
-/
import MediaServer.Proofs.Ring
import MediaServer.Lib.Loop
import MediaServer.Lib.Trace

namespace MediaServer.Uring

variable {sendQueue recvQueue : Nat}

namespace System

open Lib UdpSocket2IoUring

/-! ### Everything that can happen -/

/-- The kernel posts an entry. -/
def posted (kernel : Kernel) (cqe : Cqe) (s : System sendQueue recvQueue) :
    System sendQueue recvQueue :=
  { s with
    kernel
    sock := { s.sock with
      ring := { s.sock.ring with completion := s.sock.ring.completion ++ [cqe] } } }

/-- The socket has taken an entry. -/
def polled (rest : List Cqe) (s : System sendQueue recvQueue) : System sendQueue recvQueue :=
  { s with sock := { s.sock with ring := { s.sock.ring with completion := rest } } }

/-- `add_send_to`, when it does not panic. -/
def sending (idx : UInt32) (rest : List UInt32) (buf : Bytes) (dest : SocketAddr)
    (s : System sendQueue recvQueue) : System sendQueue recvQueue :=
  let sock := s.sock.pushed [sendSqe idx]
  let pkt := s.sock.sendBufs idx.toNat
  { s with
    sock := { sock with
      sendFreeQueue := rest
      sendBufs := fun i =>
        if i = idx.toNat then
          { pkt with
            addr := dest
            buf := buf ++ pkt.buf.drop buf.length
            iovLen := buf.length
            msgNamelen := addrLen dest }
        else s.sock.sendBufs i
      ringQueueChanged := true }
    outcome := some (.addSendTo (.ok buf.length))
    accepted := s.accepted ++ [(buf, dest)]
    thread := .idle }

/-- The kernel fills the buffer `buf`, for the request `req`. -/
def filling (provided : List ProvidedBuffer) (recvs : List RecvRequest) (req : RecvRequest)
    (buf : ProvidedBuffer) (data : Bytes) (more : Bool) (s : System sendQueue recvQueue) :
    System sendQueue recvQueue :=
  let s' := s.posted
    { s.kernel with provided, recvs, reported := s.kernel.reported ++ [data] }
    { userData := req.userData, buffer := some buf.bid, more }
  { s' with
    sock := { s'.sock with
      readBufs := fun i => if i = buf.addr.toNat then data else s.sock.readBufs i } }

/-- `commit_send_to`, when there is something to hand over and the `submit` succeeds. -/
def committing (s : System sendQueue recvQueue) : System sendQueue recvQueue :=
  let s' := s.flushed s.sock.ring.submission
  { s' with
    sock := { s'.sock with ringQueueChanged := false }
    outcome := some (.commitSendTo (.ok ()))
    thread := .idle }

/-- `recv_from`, when there is something to read. -/
def receiving (idx : UInt32) (rest : List UInt32) (msg : Message)
    (s : System sendQueue recvQueue) : System sendQueue recvQueue :=
  { s with
    sock := { s.sock with readWaitQueue := rest }
    outcome := some (.recvFrom (.ok msg))
    returned := s.returned ++ [msg]
    released := s.released ++ [idx]
    thread := .idle }

/-- `finish_read_from`, when a group is armed again. -/
def rearming (group : UInt16) (rest : List UInt16) (s : System sendQueue recvQueue) :
    System sendQueue recvQueue :=
  let s' := s.armed group
  { s' with
    sock := { s'.sock with readWaitFreeGroups := rest }
    outcome := some (.finishReadFrom (.ok ()))
    thread := .idle }

inductive Effect (parse : GroupMsghdr → Bytes → Except SocketPanic Message)
    (s : System sendQueue recvQueue) : Label → System sendQueue recvQueue → Prop
  | sent {i : Nat} {req : SendRequest} (more : Bool) (hreq : s.kernel.sends[i]? = some req) :
      Effect parse s (.kernel (.sent i more)) (s.posted
        { s.kernel with
          sends :=
            if more then s.kernel.sends.set i { req with awaitsNotif := true }
            else s.kernel.sends.eraseIdx i }
        { userData := req.userData, buffer := none, more })
  | notified {i : Nat} {req : SendRequest} (hreq : s.kernel.sends[i]? = some req) :
      Effect parse s (.kernel (.notified i)) (s.posted
        { s.kernel with sends := s.kernel.sends.eraseIdx i }
        { userData := req.userData, buffer := none, more := false })
  | filled {i j : Nat} {data : Bytes} {req : RecvRequest} {buf : ProvidedBuffer} (more : Bool)
      (hreq : s.kernel.recvs[i]? = some req) (hbuf : s.kernel.provided[j]? = some buf)
      (hgroup : buf.bgid = req.bgid) :
      Effect parse s (.kernel (.filled i j data more))
        (s.filling (s.kernel.provided.eraseIdx j)
          (if more then s.kernel.recvs else s.kernel.recvs.eraseIdx i) req buf data more)
  | ended {i : Nat} {req : RecvRequest} (hreq : s.kernel.recvs[i]? = some req) :
      Effect parse s (.kernel (.ended i)) (s.posted
        { s.kernel with recvs := s.kernel.recvs.eraseIdx i }
        { userData := req.userData, buffer := none, more := false })
  | armed {group : UInt16} {rest : List UInt16} (answer : Except IoError Unit)
      (hthread : s.thread = .preparing (group :: rest))
      (hbound : ∀ i ∈ groupBufs group, i.toNat < recvQueue) :
      Effect parse s (.prepare answer) { s.armed group with thread := .preparing rest }
  | prepared (answer : Except IoError Unit) (hthread : s.thread = .preparing []) :
      Effect parse s (.prepare answer) { s with thread := .idle }
  | called (c : Call) (hthread : s.thread = .idle) :
      Effect parse s (.call c) { s with thread := if c.polls then .polling c else .ready c }
  | polledAll {c : Call} (hthread : s.thread = .polling c) (hcq : s.sock.ring.completion = []) :
      Effect parse s .poll { s with thread := .ready c }
  | polledFilled {c : Call} {cqe : Cqe} {rest : List Cqe} {group idx : UInt16}
      (hthread : s.thread = .polling c) (hcq : s.sock.ring.completion = cqe :: rest)
      (hdata : UserData.decode cqe.userData = .recv group) (hmore : cqe.more = true)
      (hbuf : cqe.buffer = some idx) :
      Effect parse s .poll { s.polled rest with sock := { (s.polled rest).sock with
        readWaitQueue := s.sock.readWaitQueue ++ [GroupIndex.toU32 group idx] } }
  | polledEnded {c : Call} {cqe : Cqe} {rest : List Cqe} {group : UInt16}
      (hthread : s.thread = .polling c) (hcq : s.sock.ring.completion = cqe :: rest)
      (hdata : UserData.decode cqe.userData = .recv group) (hmore : cqe.more = false) :
      Effect parse s .poll { s.polled rest with sock := { (s.polled rest).sock with
        readWaitFreeGroups := s.sock.readWaitFreeGroups ++ [group] } }
  | polledSent {c : Call} {cqe : Cqe} {rest : List Cqe} {idx : UInt32}
      (hthread : s.thread = .polling c) (hcq : s.sock.ring.completion = cqe :: rest)
      (hdata : UserData.decode cqe.userData = .send idx) (hmore : cqe.more = false) :
      Effect parse s .poll { s.polled rest with sock := { (s.polled rest).sock with
        sendFreeQueue := s.sock.sendFreeQueue ++ [idx] } }
  | polledOther {c : Call} {cqe : Cqe} {rest : List Cqe} (hthread : s.thread = .polling c)
      (hcq : s.sock.ring.completion = cqe :: rest)
      (hrecv : ∀ group, UserData.decode cqe.userData ≠ .recv group)
      (hsend : ∀ idx, UserData.decode cqe.userData = .send idx → cqe.more = true) :
      Effect parse s .poll (s.polled rest)
  | accepted {buf : Bytes} {dest : SocketAddr} {idx : UInt32} {rest : List UInt32}
      (answer : Except IoError Unit) (hthread : s.thread = .ready (.addSendTo buf dest))
      (hfree : s.sock.sendFreeQueue = idx :: rest) :
      Effect parse s (.run answer) (s.sending idx rest buf dest)
  | flushed {answer : Except IoError Unit} (hthread : s.thread = .ready .commitSendTo)
      (hchanged : s.sock.ringQueueChanged = true) :
      Effect parse s (.run answer) s.committing
  | received {idx : UInt32} {rest : List UInt32} {msg : Message} (answer : Except IoError Unit)
      (hthread : s.thread = .ready .recvFrom) (hwait : s.sock.readWaitQueue = idx :: rest)
      (hparse : parse s.sock.groupMsghdr (s.sock.readBufs idx.toNat) = .ok msg) :
      Effect parse s (.run answer) (s.receiving idx rest msg)
  | rearmed {group : UInt16} {rest : List UInt16} (answer : Except IoError Unit)
      (hthread : s.thread = .ready .finishReadFrom) (hwait : s.sock.readWaitQueue = [])
      (hfree : s.sock.readWaitFreeGroups = group :: rest)
      (hbound : ∀ i ∈ groupBufs group, i.toNat < recvQueue) :
      Effect parse s (.run answer) (s.rearming group rest)
  /-- A call that only returns. -/
  | returned {c : Call} (answer : Except IoError Unit) (outcome : Outcome)
      (hthread : s.thread = .ready c)
      (hcommit : outcome = .commitSendTo (.ok ()) → s.sock.ringQueueChanged = false) :
      Effect parse s (.run answer) { s with outcome := some outcome, thread := .idle }

variable {parse : GroupMsghdr → Bytes → Except SocketPanic Message}
  {s s' : System sendQueue recvQueue}

theorem react_effect {e : KernelEvent} (h : s.react e = some s') :
    Effect parse s (.kernel e) s' := by
  obtain ⟨⟨kernel, cqe, write⟩, hreact, rfl⟩ := Option.map_eq_some_iff.mp h
  cases e with
  | sent i more =>
      simp only [Kernel.react] at hreact
      split at hreact
      · rename_i req hreq
        split at hreact
        · cases hreact
        · cases hreact
          exact .sent more hreq
      · cases hreact
  | notified i =>
      simp only [Kernel.react] at hreact
      split at hreact
      · rename_i req hreq
        split at hreact
        · cases hreact
          exact .notified hreq
        · cases hreact
      · cases hreact
  | filled i j data more =>
      simp only [Kernel.react] at hreact
      split at hreact
      · rename_i req buf hreq hbuf
        split at hreact
        · rename_i hgroup
          cases hreact
          exact .filled more hreq hbuf hgroup.1
        · cases hreact
      · cases hreact
  | ended i =>
      simp only [Kernel.react] at hreact
      split at hreact
      · rename_i req hreq
        cases hreact
        exact .ended hreq
      · cases hreact

theorem prepare_effect {answer : Except IoError Unit} (h : s.prepare answer = some s') :
    Effect parse s (.prepare answer) s' := by
  unfold prepare at h
  split at h
  · rename_i group rest hthread
    obtain ⟨s₁, hok, rfl⟩ := Option.map_eq_some_iff.mp h
    obtain ⟨hbound, rfl⟩ := prepareRead_ok (toOption_eq_some.mp hok)
    exact .armed answer hthread hbound
  · rename_i hthread
    cases h
    exact .prepared answer hthread
  · cases h

theorem poll_effect (h : s.poll = some s') : Effect parse s .poll s' := by
  unfold poll at h
  split at h
  · rename_i c hthread hcq
    cases h
    exact .polledAll hthread hcq
  · rename_i c cqe rest hthread hcq
    obtain ⟨sock, hok, rfl⟩ := Option.map_eq_some_iff.mp h
    have hcomplete := toOption_eq_some.mp hok
    unfold UdpSocket2IoUring.complete at hcomplete
    split at hcomplete
    · rename_i group hdata
      split at hcomplete
      · rename_i hmore
        split at hcomplete
        · cases hcomplete
        · rename_i idx hbuf
          cases hcomplete
          exact .polledFilled hthread hcq hdata hmore hbuf
      · rename_i hmore
        cases hcomplete
        exact .polledEnded hthread hcq hdata (Bool.not_eq_true _ ▸ hmore)
    · rename_i idx hdata
      split at hcomplete
      · rename_i hmore
        cases hcomplete
        exact .polledOther hthread hcq (by simp [hdata]) fun _ _ => hmore
      · rename_i hmore
        cases hcomplete
        exact .polledSent hthread hcq hdata (Bool.not_eq_true _ ▸ hmore)
    · rename_i idx hdata
      cases hcomplete
      exact .polledOther hthread hcq (by simp [hdata]) (by simp [hdata])
  · cases h

theorem run_effect {answer : Except IoError Unit} {c : Call} (hthread : s.thread = .ready c)
    (h : s.run parse answer c = .ok s') :
    Effect parse s (.run answer) { s' with thread := .idle } := by
  cases c with
  | addSendTo buf dest =>
      simp only [run, addSendTo, UdpSocket2IoUring.addSendTo] at h
      split at h
      · cases h
        exact .returned answer _ hthread (by simp)
      · rename_i idx rest hfree
        split at h
        · split at h
          · cases h
          · rename_i ring hpush
            cases h
            rw [IoUring.push_eq_some hpush]
            exact .accepted answer hthread hfree
        · cases h
  | commitSendTo =>
      simp only [run, commitSendTo] at h
      split at h
      · rename_i hchanged
        split at h
        · rename_i e s₁ hsubmit
          obtain rfl := submit_error hsubmit
          cases h
          exact .returned answer _ hthread (by simp)
        · rename_i s₁ hsubmit
          obtain rfl := submit_ok hsubmit
          cases h
          exact .flushed hthread hchanged
      · rename_i hchanged
        cases h
        exact .returned answer _ hthread fun _ => by simpa using hchanged
  | recvFrom =>
      simp only [run, recvFrom, UdpSocket2IoUring.recvFrom] at h
      split at h
      · rename_i idx rest hwait
        split at h
        · split at h
          · cases h
          · rename_i msg hparse
            cases h
            have hreceived := Effect.received answer hthread hwait hparse
            simpa [receiving, hwait, Except.toOption] using hreceived
        · cases h
      · rename_i hwait
        cases h
        have hreturned : Effect parse s _ _ := .returned answer
          (.recvFrom (.error (.wouldBlock "No data to read"))) hthread (by simp)
        simpa [hwait, Except.toOption] using hreturned
  | finishReadFrom =>
      simp only [run, finishReadFrom] at h
      split at h
      · rename_i hwait
        split at h
        · rename_i group rest hfree
          cases hread : prepareRead answer group
            { s with sock := { s.sock with readWaitFreeGroups := rest } } with
          | error p =>
              rw [hread] at h
              cases h
          | ok s₁ =>
              rw [hread] at h
              cases h
              obtain ⟨hbound, rfl⟩ := prepareRead_ok hread
              exact .rearmed answer hthread (List.isEmpty_iff.mp hwait) hfree hbound
        · cases h
          exact .returned answer _ hthread (by simp)
      · cases h
        exact .returned answer _ hthread (by simp)

/-- **A step is one of these.** -/
theorem step_effect {a : Label} (h : s.step parse a = some s') : Effect parse s a s' := by
  cases a with
  | kernel e => exact react_effect h
  | prepare answer => exact prepare_effect h
  | call c =>
      simp only [step, call] at h
      split at h
      · rename_i hthread
        cases h
        exact .called c hthread
      · cases h
  | poll => exact poll_effect h
  | run answer =>
      simp only [step] at h
      split at h
      · rename_i c hthread
        obtain ⟨s₁, hok, rfl⟩ := Option.map_eq_some_iff.mp h
        exact run_effect hthread (toOption_eq_some.mp hok)
      · cases h

/-! ### What everything is marked with -/

/-- The slots with an entry that is yet to be handed over. -/
def unsubmitted (s : System sendQueue recvQueue) : List UInt32 :=
  s.sock.ring.submission.filterMap Sqe.sendSlot

/-- Requests and entries carry the number of what they are about. -/
structure Tagged (s : System sendQueue recvQueue) : Prop where
  sqes : s.sock.ring.submission = s.unsubmitted.map sendSqe
  sends : ∀ req ∈ s.kernel.sends, req.userData = (UserData.send req.slot).encode
  recvs : ∀ req ∈ s.kernel.recvs, req.userData = (UserData.recv req.bgid).encode
  provided : ∀ buf ∈ s.kernel.provided,
    buf.addr = GroupIndex.toU32 buf.bgid buf.bid ∧ buf.addr ∈ groupBufs buf.bgid

theorem Tagged.start (sock : UdpSocket2IoUring sendQueue recvQueue)
    (hring : sock.ring.submission = []) : Tagged (System.start sock) where
  sqes := by simp [unsubmitted, System.start, preapreWrite, hring]
  sends := by simp [System.start, Kernel.new]
  recvs := by simp [System.start, Kernel.new]
  provided := by simp [System.start, Kernel.new]

/-- What a `submit` hands over is marked, too. -/
theorem Tagged.handed (h : Tagged s) (msg : UInt32 → Option Message) (sqes : List Sqe)
    (hsqes : ∀ sqe ∈ sqes, (∃ idx, sqe = sendSqe idx) ∨ ∃ group, sqe ∈ readSqes group) :
    (∀ req ∈ (s.kernel.handed msg sqes).sends, req.userData = (UserData.send req.slot).encode) ∧
    (∀ req ∈ (s.kernel.handed msg sqes).recvs, req.userData = (UserData.recv req.bgid).encode) ∧
    ∀ buf ∈ (s.kernel.handed msg sqes).provided,
      buf.addr = GroupIndex.toU32 buf.bgid buf.bid ∧ buf.addr ∈ groupBufs buf.bgid := by
  refine ⟨fun req hreq => ?_, fun req hreq => ?_, fun buf hbuf => ?_⟩
  · rcases List.mem_append.mp hreq with hreq | hreq
    · exact h.sends req hreq
    · obtain ⟨sqe, hsqe, hreq⟩ := List.mem_filterMap.mp hreq
      rcases hsqes sqe hsqe with ⟨idx, rfl⟩ | ⟨group, hread⟩
      · cases hreq
        rfl
      · have hnone : req ∈ (readSqes group).filterMap Sqe.sendRequest :=
          List.mem_filterMap.mpr ⟨sqe, hread, hreq⟩
        simp at hnone
  · rcases List.mem_append.mp hreq with hreq | hreq
    · exact h.recvs req hreq
    · obtain ⟨sqe, hsqe, hreq⟩ := List.mem_filterMap.mp hreq
      rcases hsqes sqe hsqe with ⟨idx, rfl⟩ | ⟨group, hread⟩
      · cases hreq
      · have hone : req ∈ (readSqes group).filterMap Sqe.recvRequest :=
          List.mem_filterMap.mpr ⟨sqe, hread, hreq⟩
        rw [recvRequest_readSqes, List.mem_singleton] at hone
        rw [hone]
  · rcases List.mem_append.mp hbuf with hbuf | hbuf
    · exact h.provided buf hbuf
    · obtain ⟨sqe, hsqe, hbuf⟩ := List.mem_filterMap.mp hbuf
      rcases hsqes sqe hsqe with ⟨idx, rfl⟩ | ⟨group, hread⟩
      · cases hbuf
      · have hone : buf ∈ (readSqes group).filterMap Sqe.providedBuffer :=
          List.mem_filterMap.mpr ⟨sqe, hread, hbuf⟩
        rw [providedBuffer_readSqes] at hone
        obtain ⟨i, hi, rfl⟩ := List.mem_map.mp hone
        exact ⟨(toU32_index hi).symm, hi⟩

theorem Tagged.submission_sends (h : Tagged s) :
    ∀ sqe ∈ s.sock.ring.submission, ∃ idx, sqe = sendSqe idx := by
  intro sqe hsqe
  rw [h.sqes] at hsqe
  obtain ⟨idx, -, rfl⟩ := List.mem_map.mp hsqe
  exact ⟨idx, rfl⟩

/-- What a send entry does not have, what is unsubmitted does not have. -/
theorem Tagged.filterMap_submission (h : Tagged s) {α : Type} {f : Sqe → Option α}
    (hf : ∀ idx, f (sendSqe idx) = none) : s.sock.ring.submission.filterMap f = [] := by
  rw [h.sqes, List.filterMap_map]
  exact List.filterMap_eq_nil_iff.mpr fun idx _ => hf idx

theorem Tagged.answer_submission (h : Tagged s) :
    s.sock.ring.submission.filterMap Sqe.answer = [] :=
  h.filterMap_submission answer_sendSqe

theorem Tagged.recvRequest_submission (h : Tagged s) :
    s.sock.ring.submission.filterMap Sqe.recvRequest = [] :=
  h.filterMap_submission recvRequest_sendSqe

theorem Tagged.providedBuffer_submission (h : Tagged s) :
    s.sock.ring.submission.filterMap Sqe.providedBuffer = [] :=
  h.filterMap_submission providedBuffer_sendSqe

theorem Tagged.armed (h : Tagged s) (group : UInt16) : Tagged (s.armed group) := by
  obtain ⟨hsends, hrecvs, hprovided⟩ := h.handed (message s.sock.sendBufs)
    (s.sock.ring.submission ++ readSqes group) fun sqe hsqe =>
      (List.mem_append.mp hsqe).imp (h.submission_sends sqe) fun hread => ⟨group, hread⟩
  exact ⟨rfl, hsends, hrecvs, hprovided⟩

/-- Nothing the kernel or the socket does unmarks anything. -/
theorem Tagged.step {a : Label} (h : Tagged s) (hs : Effect parse s a s') : Tagged s' := by
  cases hs with
  | @sent i req more hreq =>
      refine ⟨h.sqes, fun req' hreq' => ?_, h.recvs, h.provided⟩
      have hmem := List.mem_of_getElem? hreq
      cases more with
      | true =>
          rcases List.mem_or_eq_of_mem_set hreq' with hreq' | rfl
          · exact h.sends req' hreq'
          · exact h.sends req hmem
      | false => exact h.sends req' (List.mem_of_mem_eraseIdx hreq')
  | notified hreq =>
      exact ⟨h.sqes, fun req' hreq' => h.sends req' (List.mem_of_mem_eraseIdx hreq'), h.recvs,
        h.provided⟩
  | @filled i j data req buf more hreq hbuf hgroup =>
      refine ⟨h.sqes, h.sends, fun req' hreq' => h.recvs req' ?_,
        fun buf' hbuf' => h.provided buf' (List.mem_of_mem_eraseIdx hbuf')⟩
      cases more with
      | true => exact hreq'
      | false => exact List.mem_of_mem_eraseIdx hreq'
  | ended hreq =>
      exact ⟨h.sqes, h.sends, fun req' hreq' => h.recvs req' (List.mem_of_mem_eraseIdx hreq'),
        h.provided⟩
  | armed answer hthread hbound =>
      obtain ⟨hsqes, hsends, hrecvs, hprovided⟩ := h.armed _
      exact ⟨hsqes, hsends, hrecvs, hprovided⟩
  | @accepted buf dest idx rest answer hthread hfree =>
      refine ⟨?_, h.sends, h.recvs, h.provided⟩
      have hsqes := h.sqes
      simp only [unsubmitted] at hsqes
      simp [unsubmitted, System.sending, pushed, ← hsqes]
  | flushed hthread hchanged =>
      obtain ⟨hsends, hrecvs, hprovided⟩ := h.handed (message s.sock.sendBufs)
        s.sock.ring.submission fun sqe hsqe => .inl (h.submission_sends sqe hsqe)
      exact ⟨rfl, hsends, hrecvs, hprovided⟩
  | rearmed answer hthread hwait hfree hbound =>
      obtain ⟨hsqes, hsends, hrecvs, hprovided⟩ := h.armed _
      exact ⟨hsqes, hsends, hrecvs, hprovided⟩
  | _ => exact ⟨h.sqes, h.sends, h.recvs, h.provided⟩

/-! ### Runs -/

theorem new_ok {sock : UdpSocket2IoUring sendQueue recvQueue}
    (h : UdpSocket2IoUring.new sendQueue recvQueue = .ok sock) :
    recvQueue % 16 = 0 ∧ sock.ring.submission = [] ∧ sock.ring.completion = [] ∧
      sock.sendFreeQueue = indices (UInt32.ofNat sendQueue) ∧ sock.readWaitQueue = [] ∧
      sock.readWaitFreeGroups = [] := by
  unfold UdpSocket2IoUring.new at h
  split at h
  · cases h
  · rename_i hsize
    split at h
    · cases h
    · rename_i ring hring
      cases h
      unfold IoUring.new at hring
      split at hring
      · cases hring
      · cases hring
        exact ⟨by simpa [recvBufGroupSize] using hsize, rfl, rfl, rfl, rfl, rfl⟩

/-- `prepare`, for so many groups. -/
def prepareLabels (groups : Nat) : List Label := List.replicate (groups + 1) (.prepare (.ok ()))

/-- A call, with so many turns of `poll_completions`. -/
def callLabels (c : Call) (turns : Nat) : List Label :=
  .call c :: List.replicate turns .poll ++ [.run (.ok ())]

/-- A run from `new`. -/
def runNew (sendQueue recvQueue : Nat)
    (parse : GroupMsghdr → Bytes → Except SocketPanic Message) (as : List Label) :
    Option (System sendQueue recvQueue) :=
  (UdpSocket2IoUring.new sendQueue recvQueue).toOption.bind fun sock =>
    runLabels (System.step parse) (System.start sock) as

/-- What is read off a run that was computed is true of it. -/
theorem of_runNew {α : Type} {as : List Label} {f : System sendQueue recvQueue → α} {x : α}
    (h : (runNew sendQueue recvQueue parse as).map f = some x) :
    ∃ sock s, UdpSocket2IoUring.new sendQueue recvQueue = .ok sock ∧
      runLabels (System.step parse) (System.start sock) as = some s ∧ f s = x := by
  obtain ⟨s, hs, rfl⟩ := Option.map_eq_some_iff.mp h
  obtain ⟨sock, hnew, hrun⟩ := Option.bind_eq_some_iff.mp hs
  exact ⟨sock, s, toOption_eq_some.mp hnew, hrun, rfl⟩

/-- A condition checked along a run from `new`. -/
theorem meets_of_new {ok : System sendQueue recvQueue → Label → Prop} [∀ s, DecidablePred (ok s)]
    {as : List Label} {sock : UdpSocket2IoUring sendQueue recvQueue}
    (hnew : UdpSocket2IoUring.new sendQueue recvQueue = .ok sock)
    (h : (UdpSocket2IoUring.new sendQueue recvQueue).toOption.map (fun sock =>
      checks (System.step parse) (fun s a => decide (ok s a)) (System.start sock) as)
        = some true) :
    Meets (System.step parse) ok (System.start sock) as := by
  rw [hnew] at h
  have hchecks := meets_of_checks (Option.some.inj h)
  exact fun pre a s t hpre hs ht => of_decide_eq_true (hchecks pre a s t hpre hs ht)

/-- A condition on the kernel's steps says nothing of `prepare`. -/
theorem meets_prepareLabels {ok : System sendQueue recvQueue → Label → Prop}
    {s₀ : System sendQueue recvQueue} (groups : Nat) (h : ∀ s, ok s (.prepare (.ok ()))) :
    Meets (System.step parse) ok s₀ (prepareLabels groups) := by
  intro pre a s t hpre _ _
  have hmem : a ∈ prepareLabels groups := hpre.subset (by simp)
  rw [(List.mem_replicate.mp hmem).2]
  exact h s

/-- `prepare` completes, if there is room for what it pushes for one group. -/
theorem prepare_completes (parse : GroupMsghdr → Bytes → Except SocketPanic Message)
    (todo : List UInt16) :
    ∀ s : System sendQueue recvQueue, s.thread = .preparing todo →
      (∀ group ∈ todo, ∀ i ∈ groupBufs group, i.toNat < recvQueue) →
      s.sock.ring.submission = [] → 17 ≤ s.sock.ring.entries → s.kernel.reported = [] →
      s.released = [] →
      ∃ t, runLabels (System.step parse) s (prepareLabels todo.length) = some t ∧
        t.thread = .idle ∧ t.kernel.reported = [] ∧ t.released = [] := by
  induction todo with
  | nil =>
      intro s hthread hbound hsub hroom hreported hreleased
      have hstep : s.step parse (.prepare (.ok ())) = some { s with thread := .idle } := by
        simp [System.step, prepare, hthread]
      exact ⟨_, runLabels_cons hstep, rfl, hreported, hreleased⟩
  | cons group rest ih =>
      intro s hthread hbound hsub hroom hreported hreleased
      have hread := prepareRead_some (s := s) (hbound group List.mem_cons_self)
        (by rw [hsub]; simpa using hroom)
      have hstep : s.step parse (.prepare (.ok ()))
          = some { s.armed group with thread := .preparing rest } := by
        simp [System.step, prepare, hthread, hread, Except.toOption]
      have hreleased' : (s.armed group).released = [] := by simp [armed, flushed, hreleased]
      obtain ⟨t, hrun, hidle, hreported', hreleased''⟩ :=
        ih { s.armed group with thread := .preparing rest } rfl
          (fun g hg => hbound g (List.mem_cons_of_mem _ hg)) rfl hroom hreported hreleased'
      exact ⟨t, (runLabels_cons hstep).trans hrun, hidle, hreported', hreleased''⟩

end System

end MediaServer.Uring
