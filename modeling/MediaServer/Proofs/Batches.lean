/-
Sending in batches.

The slots in use hold what waits, so the socket is a batch queue (`batchQueue`) and every
call is a step of it or two: `add_send_to` flushes when no slot is left, and then accepts.
What the socket adds is that no call panics for a datagram that fits a slot, and how the
caller comes to know of a loss: `commit_send_to` returns an error when `sendmmsg` does,
and looks no further when it does not.
-/
import MediaServer.Net.Socket2Mmsg
import MediaServer.Lib.Trace
import MediaServer.Lib.Loop

namespace MediaServer.Mmsg

open Lib
open Uring (IoError Message SocketPanic sendBufSize)

variable {queue : Nat}

/-- A datagram, as it is handed over. -/
def packetOf (m : Message) : Packet := (m.1, some m.2)

namespace UdpSocket2Mmsg

/-- What waits. -/
def pending (sock : UdpSocket2Mmsg queue) : List Packet := sock.packets sock.queueLen

@[simp] theorem packets_length (n : Nat) (sock : UdpSocket2Mmsg queue) :
    (sock.packets n).length = n := by
  simp [packets]

@[simp] theorem pending_length (sock : UdpSocket2Mmsg queue) :
    sock.pending.length = sock.queueLen :=
  packets_length _ sock

/-- No more slots are in use than there are, and none is in use beyond its end. -/
structure Fits (sock : UdpSocket2Mmsg queue) : Prop where
  len : sock.queueLen ≤ queue
  bufs : ∀ i < sock.queueLen, (sock.bufs i).2 ≤ sendBufSize

theorem fits_new (queue : Nat) : (UdpSocket2Mmsg.new queue).Fits :=
  ⟨Nat.zero_le _, fun _ hi => absurd hi (Nat.not_lt_zero _)⟩

/-- The socket once the batch is handed over. -/
def emptied (sock : UdpSocket2Mmsg queue) : UdpSocket2Mmsg queue := { sock with queueLen := 0 }

@[simp] theorem pending_emptied (sock : UdpSocket2Mmsg queue) : sock.emptied.pending = [] := rfl

theorem fits_emptied (sock : UdpSocket2Mmsg queue) : sock.emptied.Fits :=
  ⟨Nat.zero_le _, fun _ hi => absurd hi (Nat.not_lt_zero _)⟩

/-- `commit_send_to` does not panic, and leaves nothing. -/
theorem Fits.commitSendTo {sock : UdpSocket2Mmsg queue} (h : sock.Fits)
    (answer : Except IoError Nat) :
    sock.commitSendTo answer
      = .ok (answer.map fun _ => (), sock.emptied, { batch := sock.pending, answer }) := by
  rw [UdpSocket2Mmsg.commitSendTo, if_pos ⟨h.len, h.bufs⟩]
  rfl

/-- The socket with one more datagram. -/
def stored (buf : Bytes) (dest : SocketAddr) (sock : UdpSocket2Mmsg queue) :
    UdpSocket2Mmsg queue :=
  { bufs := fun i =>
      if i = sock.queueLen then
        (buf ++ (sock.bufs sock.queueLen).1.drop buf.length, buf.length)
      else sock.bufs i
    addrs := fun i => if i = sock.queueLen then some dest else sock.addrs i
    queueLen := sock.queueLen + 1 }

theorem store_ok {sock sock' : UdpSocket2Mmsg queue} {buf : Bytes} {dest : SocketAddr} :
    sock.store buf dest = .ok sock' ↔
      (sock.queueLen < queue ∧ buf.length ≤ sendBufSize) ∧ sock' = sock.stored buf dest := by
  simp only [store]
  constructor
  · intro h
    split at h
    · rename_i hroom
      cases h
      exact ⟨hroom, rfl⟩
    · cases h
  · rintro ⟨hroom, rfl⟩
    rw [if_pos hroom]
    rfl

/-- **The datagram is appended**, as it is. -/
theorem pending_stored (buf : Bytes) (dest : SocketAddr) (sock : UdpSocket2Mmsg queue) :
    (sock.stored buf dest).pending = sock.pending ++ [packetOf (buf, dest)] := by
  have hkept : (List.range sock.queueLen).map (fun i =>
      (((sock.stored buf dest).bufs i).1.take ((sock.stored buf dest).bufs i).2,
        (sock.stored buf dest).addrs i)) = sock.pending := by
    refine List.map_congr_left fun i hi => ?_
    have hne : i ≠ sock.queueLen := (List.mem_range.mp hi).ne
    simp [stored, hne]
  show (List.range (sock.queueLen + 1)).map _ = _
  rw [List.range_succ, List.map_append, hkept]
  simp [stored, packetOf]

theorem Fits.stored {sock : UdpSocket2Mmsg queue} (h : sock.Fits) {buf : Bytes} {dest : SocketAddr}
    (hroom : sock.queueLen < queue ∧ buf.length ≤ sendBufSize) :
    (sock.stored buf dest).Fits := by
  refine ⟨hroom.1, fun i hi => ?_⟩
  by_cases heq : i = sock.queueLen
  · simp [UdpSocket2Mmsg.stored, heq, hroom.2]
  · have hlt : i < sock.queueLen := by
      have hi' : i < sock.queueLen + 1 := hi
      omega
    simpa [UdpSocket2Mmsg.stored, heq] using h.bufs i hlt

end UdpSocket2Mmsg

namespace System

open UdpSocket2Mmsg

variable {s s' : System queue}

/-! ### What a call can do -/

/-- What `step` can do to a socket in order. -/
inductive Effect (s : System queue) : Label → System queue → Prop
  | stored {buf : Bytes} {dest : SocketAddr} (answer : Except IoError Nat)
      (hroom : s.sock.queueLen < queue ∧ buf.length ≤ sendBufSize) :
      Effect s (.addSendTo buf dest answer)
        { s with
          sock := s.sock.stored buf dest
          outcome := some (.ok buf.length)
          accepted := s.accepted ++ [(buf, dest)] }
  | refused {buf : Bytes} {dest : SocketAddr} {e : IoError} (hfull : s.sock.queueLen = queue) :
      Effect s (.addSendTo buf dest (.error e))
        { s with
          sock := s.sock.emptied
          outcome := some (.error e)
          flushes := s.flushes ++ [{ batch := s.sock.pending, answer := .error e }] }
  | flushed {buf : Bytes} {dest : SocketAddr} {k : Nat} (hfull : s.sock.queueLen = queue)
      (hroom : 0 < queue ∧ buf.length ≤ sendBufSize) :
      Effect s (.addSendTo buf dest (.ok k))
        { sock := s.sock.emptied.stored buf dest
          outcome := some (.ok buf.length)
          accepted := s.accepted ++ [(buf, dest)]
          flushes := s.flushes ++ [{ batch := s.sock.pending, answer := .ok k }] }
  | committed (answer : Except IoError Nat) :
      Effect s (.commitSendTo answer)
        { s with
          sock := s.sock.emptied
          outcome := some (answer.map fun _ => 0)
          flushes := s.flushes ++ [{ batch := s.sock.pending, answer }] }

theorem step_committed (h : s.sock.Fits) (answer : Except IoError Nat) :
    s.step (.commitSendTo answer) = some
      { s with
        sock := s.sock.emptied
        outcome := some (answer.map fun _ => 0)
        flushes := s.flushes ++ [{ batch := s.sock.pending, answer }] } := by
  rw [step, System.commitSendTo, h.commitSendTo]
  cases answer <;> rfl

/-- With a slot left, the datagram takes it. -/
theorem step_stored {buf : Bytes} {dest : SocketAddr} {answer : Except IoError Nat}
    (hfull : s.sock.queueLen ≠ queue) :
    s.step (.addSendTo buf dest answer) = some s' ↔
      (s.sock.queueLen < queue ∧ buf.length ≤ sendBufSize) ∧ s' =
        { s with
          sock := s.sock.stored buf dest
          outcome := some (.ok buf.length)
          accepted := s.accepted ++ [(buf, dest)] } := by
  simp only [step, System.addSendTo, UdpSocket2Mmsg.addSendTo, if_neg hfull, toOption_eq_some,
    except_map_ok]
  constructor
  · rintro ⟨-, ⟨sock, hstore, rfl⟩, rfl⟩
    obtain ⟨hroom, rfl⟩ := store_ok.mp hstore
    exact ⟨hroom, by simp [Except.toBool]⟩
  · rintro ⟨hroom, rfl⟩
    exact ⟨_, ⟨_, store_ok.mpr ⟨hroom, rfl⟩, rfl⟩, by simp [Except.toBool]⟩

/-- With none left, the batch goes first, and an error of it is the answer. -/
theorem step_refused (h : s.sock.Fits) {buf : Bytes} {dest : SocketAddr} {e : IoError}
    (hfull : s.sock.queueLen = queue) :
    s.step (.addSendTo buf dest (.error e)) = some
      { s with
        sock := s.sock.emptied
        outcome := some (.error e)
        flushes := s.flushes ++ [{ batch := s.sock.pending, answer := .error e }] } := by
  rw [step, System.addSendTo, UdpSocket2Mmsg.addSendTo, if_pos hfull, h.commitSendTo]
  rfl

theorem step_flushed (h : s.sock.Fits) {buf : Bytes} {dest : SocketAddr} {k : Nat}
    (hfull : s.sock.queueLen = queue) :
    s.step (.addSendTo buf dest (.ok k)) = some s' ↔
      (0 < queue ∧ buf.length ≤ sendBufSize) ∧ s' =
        { sock := s.sock.emptied.stored buf dest
          outcome := some (.ok buf.length)
          accepted := s.accepted ++ [(buf, dest)]
          flushes := s.flushes ++ [{ batch := s.sock.pending, answer := .ok k }] } := by
  rw [step, System.addSendTo, UdpSocket2Mmsg.addSendTo, if_pos hfull, h.commitSendTo]
  rw [toOption_eq_some]
  constructor
  · intro hs
    obtain ⟨r, hadd, rfl⟩ := except_map_ok.mp hs
    obtain ⟨sock, hstore, rfl⟩ := except_map_ok.mp hadd
    obtain ⟨hroom, rfl⟩ := store_ok.mp hstore
    exact ⟨hroom, rfl⟩
  · rintro ⟨hroom, rfl⟩
    exact except_map_ok.mpr ⟨_, except_map_ok.mpr ⟨_, store_ok.mpr ⟨hroom, rfl⟩, rfl⟩, rfl⟩

theorem step_effect {label : Label} (h : s.sock.Fits) :
    s.step label = some s' ↔ Effect s label s' := by
  cases label with
  | commitSendTo answer =>
      rw [step_committed h]
      constructor
      · rintro ⟨⟩
        exact .committed answer
      · rintro ⟨⟩
        rfl
  | addSendTo buf dest answer =>
      by_cases hfull : s.sock.queueLen = queue
      · cases answer with
        | error e =>
            rw [step_refused h hfull]
            constructor
            · rintro ⟨⟩
              exact .refused hfull
            · intro heffect
              cases heffect with
              | stored _ hroom => exact absurd hfull hroom.1.ne
              | refused => rfl
        | ok k =>
            rw [step_flushed h hfull]
            constructor
            · rintro ⟨hroom, rfl⟩
              exact .flushed hfull hroom
            · intro heffect
              cases heffect with
              | stored _ hroom => exact absurd hfull hroom.1.ne
              | flushed _ hroom => exact ⟨hroom, rfl⟩
      · rw [step_stored hfull]
        constructor
        · rintro ⟨hroom, rfl⟩
          exact .stored answer hroom
        · intro heffect
          cases heffect with
          | stored _ hroom => exact ⟨hroom, rfl⟩
          | refused hfull' => exact absurd hfull' hfull
          | flushed hfull' => exact absurd hfull' hfull

/-! ### The batch queue -/

/-- What was accepted, what waits and what was handed over. -/
def batchQueue (s : System queue) : BatchQueue IoError Packet :=
  { accepted := s.accepted.map packetOf
    pending := s.sock.pending
    flushes := s.flushes }

/-- What the kernel took, in order. -/
def taken (s : System queue) : List Packet := s.batchQueue.taken

variable {label : Label}

/-- Every call is a step of the batch queue, or two. -/
theorem Effect.simulates (h : Effect s label s') :
    Relation.ReflTransGen BatchQueue.Step s.batchQueue s'.batchQueue := by
  cases h with
  | @stored buf dest answer hroom =>
      have hstep := BatchQueue.Step.accept (q := s.batchQueue) (packetOf (buf, dest))
      refine .single ?_
      simpa [batchQueue, pending_stored] using hstep
  | @refused buf dest e hfull => exact .single (.flush (.error e))
  | @flushed buf dest k hfull hroom =>
      have hflush := BatchQueue.Step.flush (q := s.batchQueue) (.ok k)
      refine .tail (.single hflush) ?_
      have hstep := BatchQueue.Step.accept (q := { s.batchQueue with
        pending := []
        flushes := s.flushes ++ [{ batch := s.sock.pending, answer := .ok k }] })
        (packetOf (buf, dest))
      simpa [batchQueue, pending_stored] using hstep
  | committed answer => exact .single (.flush answer)

theorem Effect.fits (hfits : s.sock.Fits) (h : Effect s label s') : s'.sock.Fits := by
  cases h with
  | stored _ hroom => exact hfits.stored hroom
  | refused => exact fits_emptied _
  | flushed _ hroom => exact (fits_emptied _).stored hroom
  | committed => exact fits_emptied _

theorem Effect.inv (hfits : s.sock.Fits) (hinv : s.batchQueue.Inv) (h : Effect s label s') :
    s'.sock.Fits ∧ s'.batchQueue.Inv :=
  ⟨h.fits hfits, hinv.steps h.simulates⟩

theorem runLabels_inv {as : List Label} (h : runLabels step (start queue) as = some s) :
    s.sock.Fits ∧ s.batchQueue.Inv :=
  runLabels_preserves (I := fun s => s.sock.Fits ∧ s.batchQueue.Inv)
    (fun _ _ _ hI hs => ((step_effect hI.1).mp hs).inv hI.1 hI.2) h ⟨fits_new queue, rfl⟩

/-! ### No call panics -/

/-- What is to be sent fits a slot. -/
def fitsSlot : Label → Prop
  | .addSendTo buf _ _ => buf.length ≤ sendBufSize
  | .commitSendTo _ => True

/-- No call panics, if there is a slot at all and what is to be sent fits it. -/
theorem step_some (hfits : s.sock.Fits) (hqueue : 0 < queue) (hlabel : fitsSlot label) :
    ∃ s', s.step label = some s' := by
  cases label with
  | commitSendTo answer => exact ⟨_, step_committed hfits answer⟩
  | addSendTo buf dest answer =>
      by_cases hfull : s.sock.queueLen = queue
      · cases answer with
        | error e => exact ⟨_, step_refused hfits hfull⟩
        | ok k => exact ⟨_, (step_flushed hfits hfull).mpr ⟨⟨hqueue, hlabel⟩, rfl⟩⟩
      · have hlt : s.sock.queueLen < queue := Nat.lt_of_le_of_ne hfits.len hfull
        exact ⟨_, (step_stored hfull).mpr ⟨⟨hlt, hlabel⟩, rfl⟩⟩

theorem runLabels_some (hqueue : 0 < queue) {as : List Label} (has : ∀ label ∈ as, fitsSlot label) :
    ∃ s, runLabels step (start queue) as = some s := by
  induction as using List.reverseRecOn with
  | nil => exact ⟨_, rfl⟩
  | append_singleton as label ih =>
      obtain ⟨s, hs⟩ := ih fun l hl => has l (List.mem_append_left _ hl)
      obtain ⟨s', hs'⟩ := step_some (runLabels_inv hs).1 hqueue (has label (by simp))
      exact ⟨s', runLabels_concat.mpr ⟨s, hs, hs'⟩⟩

/-! ### What is lost is reported, or not -/

/--
What waited before the call and what it accepted was taken by the kernel or waits, or
the call has returned an error.
-/
def Settled (s s' : System queue) : Prop :=
  (∃ e, s'.outcome = some (.error e)) ∨
    ∃ accepted took, s'.accepted = s.accepted ++ accepted ∧ s'.taken = s.taken ++ took ∧
      s.sock.pending ++ accepted.map packetOf = took ++ s'.sock.pending

/-- If the call makes one of `sendmmsg`, the kernel takes the whole batch, or nothing. -/
def takesAll (s : System queue) : Label → Prop
  | .addSendTo _ _ (.ok k) => s.sock.queueLen = queue → queue ≤ k
  | .commitSendTo (.ok k) => s.sock.queueLen ≤ k
  | .addSendTo _ _ (.error _) | .commitSendTo (.error _) => True

instance (s : System queue) : DecidablePred s.takesAll
  | .addSendTo _ _ (.ok k) => inferInstanceAs (Decidable (s.sock.queueLen = queue → queue ≤ k))
  | .commitSendTo (.ok k) => inferInstanceAs (Decidable (s.sock.queueLen ≤ k))
  | .addSendTo _ _ (.error _) | .commitSendTo (.error _) => isTrue trivial

theorem taken_flush {f : Flush IoError Packet} (h : s'.flushes = s.flushes ++ [f]) :
    s'.taken = s.taken ++ f.took := by
  show s'.flushes.flatMap Flush.took = _
  rw [h, List.flatMap_append, List.flatMap_singleton]
  rfl

/-- A batch that is handed over without an error is settled if the kernel takes all of it. -/
theorem settled_flush {k : Nat} (added : List Message)
    (houtcome : ∀ e, s'.outcome ≠ some (.error e)) (hadded : s'.accepted = s.accepted ++ added)
    (hflush : s'.flushes = s.flushes ++ [{ batch := s.sock.pending, answer := .ok k }])
    (hpending : s'.sock.pending = added.map packetOf) :
    Settled s s' ↔ s.sock.queueLen ≤ k := by
  have htaken : s'.taken = s.taken ++ s.sock.pending.take k := taken_flush hflush
  constructor
  · rintro (⟨e, he⟩ | ⟨accepted, took, haccepted, htook, hsettled⟩)
    · exact absurd he (houtcome e)
    · obtain rfl : added = accepted := List.append_cancel_left (hadded.symm.trans haccepted)
      obtain rfl : s.sock.pending.take k = took :=
        List.append_cancel_left (htaken.symm.trans htook)
      have hlength := congrArg List.length hsettled
      simp only [hpending, List.length_append, List.length_take, pending_length] at hlength
      omega
  · intro hk
    have hall : s.sock.pending.take k = s.sock.pending :=
      List.take_of_length_le (by simpa using hk)
    exact .inr ⟨added, s.sock.pending, hadded, hall ▸ htaken, by rw [hpending]⟩

theorem Effect.settled (h : Effect s label s') : Settled s s' ↔ takesAll s label := by
  cases h with
  | @stored buf dest answer hroom =>
      have htakes : takesAll s (.addSendTo buf dest answer) := by
        cases answer with
        | error e => trivial
        | ok k => exact fun hfull => absurd hfull hroom.1.ne
      refine iff_of_true (.inr ⟨[(buf, dest)], [], rfl, ?_, ?_⟩) htakes
      · exact (List.append_nil _).symm
      · exact (pending_stored buf dest s.sock).symm
  | @refused buf dest e hfull => exact iff_of_true (.inl ⟨e, rfl⟩) trivial
  | @flushed buf dest k hfull hroom =>
      have htakes : takesAll s (.addSendTo buf dest (.ok k)) ↔ s.sock.queueLen ≤ k := by
        simp [takesAll, hfull]
      rw [htakes]
      exact settled_flush [(buf, dest)] (fun e he => by cases he) rfl rfl
        (pending_stored buf dest s.sock.emptied)
  | committed answer =>
      cases answer with
      | error e => exact iff_of_true (.inl ⟨e, rfl⟩) trivial
      | ok k =>
          exact settled_flush [] (fun e he => by cases he) (List.append_nil _).symm rfl rfl

theorem Effect.whole (h : Effect s label s') (hok : takesAll s label)
    (hwhole : ∀ f ∈ s.flushes, f.Whole) : ∀ f ∈ s'.flushes, f.Whole := by
  cases h with
  | stored => exact hwhole
  | refused hfull => exact List.forall_mem_append.mpr ⟨hwhole, by simp [Flush.Whole]⟩
  | flushed hfull hroom =>
      have hk := hok hfull
      exact List.forall_mem_append.mpr ⟨hwhole, by simpa [Flush.Whole, hfull] using hk⟩
  | committed answer =>
      refine List.forall_mem_append.mpr ⟨hwhole, ?_⟩
      cases answer with
      | error e => simp [Flush.Whole]
      | ok k => simpa [Flush.Whole, takesAll] using hok

/--
**What the kernel takes is part of what was accepted, in order, and a call that loses a
datagram reports it** if the kernel, where it takes any of a batch, takes all of it; and
only then.
-/
theorem batches_accounted (hqueue : 0 < queue) {as : List Label}
    (has : ∀ label ∈ as, fitsSlot label) :
    ∃ s, runLabels step (start queue) as = some s ∧ s.sock.queueLen ≤ queue ∧
      s.accepted.map packetOf = s.flushes.flatMap Flush.batch ++ s.sock.pending ∧
      s.taken.Sublist (s.accepted.map packetOf) ∧
      (∀ pre label t t', pre ++ [label] <+: as → runLabels step (start queue) pre = some t →
        t.step label = some t' → (Settled t t' ↔ takesAll t label)) ∧
      (Meets step takesAll (start queue) as →
        ∀ f ∈ s.flushes, f.took = f.batch ∨ ∃ e, f.answer = .error e) := by
  obtain ⟨s, hrun⟩ := runLabels_some hqueue has
  obtain ⟨hfits, hinv⟩ := runLabels_inv hrun
  refine ⟨s, hrun, hfits.len, hinv, hinv.taken_sublist, ?_, ?_⟩
  · intro pre label t t' _ ht ht'
    exact ((step_effect (runLabels_inv ht).1).mp ht').settled
  · intro hok f hf
    have hwhole : ∀ f ∈ s.flushes, f.Whole :=
      runLabels_invariant (P := fun _ s => ∀ f ∈ s.flushes, f.Whole) (List.forall_mem_nil _)
        (fun _ _ _ _ ht hI hmeets hs =>
          ((step_effect (runLabels_inv ht).1).mp hs).whole hmeets hI) as s hok hrun
    exact (hwhole f hf).settled

/-- Someone to send to. -/
def anyone : SocketAddr := { ip := .v4 0x7f000001, port := 4000 }

/-- Three datagrams for two slots; the kernel takes each batch whole. -/
def sendThree : List Label :=
  [.addSendTo [1] anyone (.ok 0), .addSendTo [2] anyone (.ok 0), .addSendTo [3] anyone (.ok 2),
    .commitSendTo (.ok 1)]

theorem batches_accounted_three :
    ∃ s : System 2, runLabels step (start 2) sendThree = some s ∧ s.sock.queueLen ≤ 2 ∧
      s.taken.Sublist (s.accepted.map packetOf) ∧
      ∀ f ∈ s.flushes, f.took = f.batch ∨ ∃ e, f.answer = .error e := by
  have has : ∀ label ∈ sendThree, fitsSlot label := by simp [sendThree, fitsSlot, sendBufSize]
  have hchecks : checks step (fun s label => decide (takesAll s label)) (start 2) sendThree
      = true := by
    decide +kernel
  have hok : Meets step takesAll (start 2) sendThree := by simpa using meets_of_checks hchecks
  have hqueue : 0 < 2 := by decide
  obtain ⟨s, hrun, hlen, -, hsub, -, hwhole⟩ := batches_accounted hqueue has
  exact ⟨s, hrun, hlen, hsub, hwhole hok⟩

/-- The kernel takes one of two, the call returns `Ok`, and the other is gone. -/
theorem batches_accounted_partly :
    ∃ s s' : System 2,
      runLabels step (start 2) [.addSendTo [1] anyone (.ok 0), .addSendTo [2] anyone (.ok 0)]
        = some s ∧
      s.step (.commitSendTo (.ok 1)) = some s' ∧ s'.outcome = some (.ok 0) ∧
      s'.accepted = [([1], anyone), ([2], anyone)] ∧ s'.taken = [([1], some anyone)] ∧
      s'.sock.pending = [] ∧ ¬ Settled s s' := by
  have hrun : (runLabels step (start 2) [.addSendTo [1] anyone (.ok 0),
      .addSendTo [2] anyone (.ok 0)]).map (fun s => (decide (s.takesAll (.commitSendTo (.ok 1))),
        (s.step (.commitSendTo (.ok 1))).map fun s' =>
          decide (s'.outcome = some (.ok 0) ∧ s'.accepted = [([1], anyone), ([2], anyone)] ∧
            s'.taken = [([1], some anyone)] ∧ s'.sock.pending = [])))
      = some (false, some true) := by decide +kernel
  obtain ⟨s, hs, hread⟩ := Option.map_eq_some_iff.mp hrun
  simp only [Prod.mk.injEq, decide_eq_false_iff_not] at hread
  obtain ⟨hnot, hstep⟩ := hread
  obtain ⟨s', hs', hgone⟩ := Option.map_eq_some_iff.mp hstep
  obtain ⟨houtcome, haccepted, htaken, hpending⟩ := of_decide_eq_true hgone
  have hsettled := ((step_effect (runLabels_inv hs).1).mp hs').settled
  exact ⟨s, s', hs, hs', houtcome, haccepted, htaken, hpending, fun h => hnot (hsettled.mp h)⟩

end System

end MediaServer.Mmsg
