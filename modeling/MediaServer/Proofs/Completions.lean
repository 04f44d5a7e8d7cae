/-
The completion queue.

The kernel posts an entry for every buffer it is provided, one for every buffer it
fills, one when a receive ends and two for a send, and drops entries when the queue is
full.  What is posted is bounded by what could be: the entries posted, and those that
what the kernel or the submission queue has may still lead to (`System.outstanding`).
Nothing the kernel does adds to this, a turn of `poll_completions` takes one away, a send
adds two, and a group that is armed adds thirty-three.

With the queue empty, what is outstanding is bounded by the slots that are not free and
by seventeen for each armed group, if a group is only armed again when its buffers are
used up.  Every send and every receive begins by emptying the queue, and between two
groups that are armed there is a receive; so the order of the calls of a cycle is what
keeps the queue from growing (`Call.turn`).
-/
import MediaServer.Proofs.Room
import Mathlib.Algebra.BigOperators.Fin

namespace MediaServer.Uring

open Lib UdpSocket2IoUring

variable {sendQueue recvQueue : Nat}

/-! ### The calls of a cycle -/

/--
Whether the queue has been emptied since a group was last armed, after a call; a
`finish_read_from` has to find that it has.
-/
def Call.turn (polled : Bool) : Call → Option Bool
  | .finishReadFrom => if polled then some false else none
  | .addSendTo _ _ | .recvFrom => some true
  | .commitSendTo => some polled

/-- The call a label makes. -/
def Label.call? : Label → Option Call
  | .call c => some c
  | .kernel _ | .prepare _ | .poll | .run _ => none

/-- A cycle: any sends and receives, the receive that returns nothing, and the two last calls. -/
def cycleOf (body : List Call) : List Call := body ++ [.recvFrom, .commitSendTo, .finishReadFrom]

/-- Any sends and receives in front leave a cycle a cycle. -/
theorem turn_cycleOf {body : List Call} (hbody : ∀ c ∈ body, c.polls = true) (rest : List Call) :
    ∀ polled, runLabels Call.turn polled (cycleOf body ++ rest)
      = runLabels Call.turn false rest := by
  induction body with
  | nil => intro polled; rfl
  | cons c body ih =>
      intro polled
      have hturn : Call.turn polled c = some true := by
        have hpolls := hbody c List.mem_cons_self
        cases c with
        | addSendTo buf dest => rfl
        | recvFrom => rfl
        | commitSendTo => cases hpolls
        | finishReadFrom => cases hpolls
      rw [cycleOf, List.cons_append, List.cons_append, runLabels_cons hturn]
      exact ih (fun c hc => hbody c (List.mem_cons_of_mem _ hc)) true

/-- In cycles, a group is only armed after the queue was emptied. -/
theorem turn_cycles {bodies : List (List Call)} (h : ∀ body ∈ bodies, ∀ c ∈ body, c.polls = true)
    {calls : List Call} (hcalls : calls <+: bodies.flatMap cycleOf) :
    ∃ polled, runLabels Call.turn false calls = some polled := by
  have hall : runLabels Call.turn false (bodies.flatMap cycleOf) = some false := by
    clear hcalls
    induction bodies with
    | nil => rfl
    | cons body rest ih =>
        rw [List.flatMap_cons, turn_cycleOf (h body List.mem_cons_self)]
        exact ih fun b hb => h b (List.mem_cons_of_mem _ hb)
  obtain ⟨rest, hrest⟩ := hcalls
  rw [← hrest, runLabels_append] at hall
  obtain ⟨polled, hpolled, -⟩ := Option.bind_eq_some_iff.mp hall
  exact ⟨polled, hpolled⟩

/-! ### What may still be posted -/

/-- How many entries a send still leads to, at most. -/
def SendRequest.awaited (req : SendRequest) : Nat := if req.awaitsNotif then 1 else 2

theorem SendRequest.awaited_le (req : SendRequest) : req.awaited ≤ 2 := by
  unfold awaited
  split <;> omega

/-- One send, and the others. -/
theorem sum_awaited_erase {sends : List SendRequest} {i : Nat} {req : SendRequest}
    (h : sends[i]? = some req) : (sends.map SendRequest.awaited).sum
      = req.awaited + ((sends.eraseIdx i).map SendRequest.awaited).sum := by
  have hsum := ((perm_eraseIdx h).map SendRequest.awaited).sum_nat
  rwa [List.map_cons, List.sum_cons] at hsum

theorem sum_awaited_set {sends : List SendRequest} {i : Nat} {req : SendRequest}
    (h : sends[i]? = some req) (req' : SendRequest) : ((sends.set i req').map SendRequest.awaited).sum
      = req'.awaited + ((sends.eraseIdx i).map SendRequest.awaited).sum := by
  have hset : (sends.set i req')[i]? = some req' := by
    obtain ⟨hlt, -⟩ := List.getElem?_eq_some_iff.mp h
    simp [hlt]
  rw [sum_awaited_erase hset, List.eraseIdx_set_eq]

theorem sum_awaited_le (sends : List SendRequest) :
    (sends.map SendRequest.awaited).sum ≤ 2 * sends.length := by
  induction sends with
  | nil => simp
  | cons req rest ih =>
      have hle := req.awaited_le
      rw [List.map_cons, List.sum_cons, List.length_cons]
      omega

theorem length_eraseIdx_of_some {α : Type} {l : List α} {i : Nat} {a : α} (h : l[i]? = some a) :
    l.length = (l.eraseIdx i).length + 1 :=
  (perm_eraseIdx h).length_eq

namespace System

variable {parse : GroupMsghdr → Bytes → Except SocketPanic Message}
  {s s' : System sendQueue recvQueue}

/-- The entries that are posted, and those that may still be. -/
def outstanding (s : System sendQueue recvQueue) : Nat :=
  s.sock.ring.completion.length + 2 * s.sock.ring.submission.length
    + (s.kernel.sends.map SendRequest.awaited).sum + s.kernel.provided.length
    + s.kernel.recvs.length

/-- The first entry of a send is posted once. -/
theorem sent_first {i : Nat} {more : Bool} {req : SendRequest}
    (hs : s.step parse (.kernel (.sent i more)) = some s') (hreq : s.kernel.sends[i]? = some req) :
    req.awaited = 2 := by
  simp only [step, react, Kernel.react, hreq] at hs
  split at hs
  · cases hs
  · rename_i hfirst
    exact if_neg hfirst

/-- Of what may be posted, the kernel posts one. -/
theorem outstanding_kernel {e : KernelEvent} (hs : s.step parse (.kernel e) = some s') :
    s'.outstanding ≤ s.outstanding := by
  have heffect := step_effect hs
  cases heffect with
  | @sent i req more hreq =>
      have hfirst := sent_first hs hreq
      have hsum := sum_awaited_erase hreq
      cases more with
      | true =>
          have hset := sum_awaited_set hreq { req with awaitsNotif := true }
          have hone : SendRequest.awaited { req with awaitsNotif := true } = 1 := rfl
          simp only [outstanding, posted, if_true, List.length_append, List.length_singleton]
          omega
      | false =>
          simp only [outstanding, posted, Bool.false_eq_true, if_false, List.length_append,
            List.length_singleton]
          omega
  | @notified i req hreq =>
      have hsum := sum_awaited_erase hreq
      have hpos : 1 ≤ req.awaited := by
        unfold SendRequest.awaited
        split <;> omega
      simp only [outstanding, posted, List.length_append, List.length_singleton]
      omega
  | @filled i j data req buf more hreq hbuf hgroup =>
      have hlen := length_eraseIdx_of_some hbuf
      have hrecvs : (if more then s.kernel.recvs else s.kernel.recvs.eraseIdx i).length
          ≤ s.kernel.recvs.length := by
        have hlen' := length_eraseIdx_of_some hreq
        split <;> omega
      simp only [outstanding, filling, posted, List.length_append, List.length_singleton]
      omega
  | @ended i req hreq =>
      have hlen := length_eraseIdx_of_some hreq
      simp only [outstanding, posted, List.length_append, List.length_singleton]
      omega

/-- A turn of `poll_completions` takes one. -/
theorem outstanding_polled {cqe : Cqe} {rest : List Cqe} (hcq : s.sock.ring.completion = cqe :: rest)
    (hring : s'.sock.ring = { s.sock.ring with completion := rest })
    (hkernel : s'.kernel = s.kernel) : s'.outstanding ≤ s.outstanding := by
  simp only [outstanding, hring, hkernel, hcq, List.length_cons]
  omega

/-- A send adds two. -/
theorem outstanding_sending {idx : UInt32} {rest : List UInt32} {buf : Bytes} {dest : SocketAddr} :
    (s.sending idx rest buf dest).outstanding = s.outstanding + 2 := by
  simp only [outstanding, sending, pushed, List.length_append, List.length_singleton]
  omega

/-- What is handed over of sends may be posted as before. -/
theorem sum_awaited_handed (slots : List UInt32) :
    (((slots.map sendSqe).filterMap Sqe.sendRequest).map SendRequest.awaited).sum
      = 2 * slots.length := by
  induction slots with
  | nil => rfl
  | cons slot rest ih =>
      rw [List.map_cons, List.filterMap_cons, sendRequest_sendSqe, List.map_cons, List.sum_cons, ih,
        List.length_cons]
      show 2 + 2 * rest.length = 2 * (rest.length + 1)
      omega

theorem outstanding_committing (h : s.Tagged) : s.committing.outstanding = s.outstanding := by
  have hrecvs : s.committing.kernel.recvs = s.kernel.recvs := recvs_flushed h
  have hprovided : s.committing.kernel.provided = s.kernel.provided := provided_flushed h
  have hsum := sum_awaited_handed s.unsubmitted
  rw [← h.sqes] at hsum
  have hlen : s.sock.ring.submission.length = s.unsubmitted.length := by
    rw [h.sqes, List.length_map]
  simp only [outstanding, hrecvs, hprovided]
  simp only [committing, flushed, Kernel.handed, h.answer_submission, List.append_nil,
    List.length_nil, List.map_append, List.sum_append, hsum]
  omega

/-- A group that is armed adds an entry for each buffer it provides, another, and one. -/
theorem outstanding_armed (h : s.Tagged) (group : UInt16) :
    (s.armed group).outstanding ≤ s.outstanding + 33 := by
  have hbufs := groupBufs_length group
  have hrecvs := congrArg List.length (recvs_armed h group)
  have hprovided := congrArg List.length (provided_armed h group)
  have hsum := sum_awaited_handed s.unsubmitted
  rw [← h.sqes] at hsum
  have hlen : s.sock.ring.submission.length = s.unsubmitted.length := by
    rw [h.sqes, List.length_map]
  have hcq : (s.armed group).sock.ring.completion.length
      = s.sock.ring.completion.length + (groupBufs group).length := by
    simp [armed, flushed, h.answer_submission]
  have hsends : ((s.armed group).kernel.sends.map SendRequest.awaited).sum
      = (s.kernel.sends.map SendRequest.awaited).sum + 2 * s.unsubmitted.length := by
    simp [armed, flushed, Kernel.handed, hsum]
  have hsub : (s.armed group).sock.ring.submission.length = 0 := rfl
  simp only [List.length_map, List.length_append, List.length_singleton] at hrecvs hprovided
  simp only [outstanding, hcq, hsends, hsub, hrecvs, hprovided]
  omega

/-! ### Provided buffers -/

/-- A receive ends only when the buffers of its group are used up. -/
def usesUp (s : System sendQueue recvQueue) : Label → Prop
  | .kernel (.filled i j _ more) =>
      more = false → ∀ req ∈ s.kernel.recvs[i]?, ∀ buf ∈ s.kernel.provided.eraseIdx j,
        buf.bgid ≠ req.bgid
  | .kernel (.ended i) =>
      ∀ req ∈ s.kernel.recvs[i]?, ∀ buf ∈ s.kernel.provided, buf.bgid ≠ req.bgid
  | .kernel (.sent _ _) | .kernel (.notified _) | .prepare _ | .call _ | .poll | .run _ => True

instance (s : System sendQueue recvQueue) : DecidablePred s.usesUp
  | .kernel (.filled i j _ more) =>
      inferInstanceAs (Decidable (more = false → ∀ req ∈ s.kernel.recvs[i]?,
        ∀ buf ∈ s.kernel.provided.eraseIdx j, buf.bgid ≠ req.bgid))
  | .kernel (.ended i) =>
      inferInstanceAs (Decidable
        (∀ req ∈ s.kernel.recvs[i]?, ∀ buf ∈ s.kernel.provided, buf.bgid ≠ req.bgid))
  | .kernel (.sent _ _) | .kernel (.notified _) | .prepare _ | .call _ | .poll | .run _ =>
      isTrue trivial

/-- Sixteen buffers for each time a group is armed, at most. -/
def Live (s : System sendQueue recvQueue) : Prop :=
  ∀ group, (s.kernel.provided.map (·.bgid)).count group
    ≤ 16 * (s.kernel.recvs.map (·.bgid)).count group

theorem count_eraseIdx {α : Type} {l : List α} {i : Nat} {a : α} (h : l[i]? = some a)
    (f : α → UInt16) (group : UInt16) :
    (l.map f).count group
      = ((l.eraseIdx i).map f).count group + if f a = group then 1 else 0 := by
  have hcount := ((perm_eraseIdx h).map f).count_eq group
  rw [List.map_cons, List.count_cons] at hcount
  simpa using hcount

/-- Where no buffer is of a group, none is counted. -/
theorem count_unused {l : List ProvidedBuffer} {group : UInt16} (h : ∀ buf ∈ l, buf.bgid ≠ group) :
    (l.map (·.bgid)).count group = 0 := by
  refine List.count_eq_zero.mpr fun hmem => ?_
  obtain ⟨buf, hbuf, heq⟩ := List.mem_map.mp hmem
  exact h buf hbuf heq

theorem Live.armed (h : s.Live) (htagged : s.Tagged) (group : UInt16) : (s.armed group).Live := by
  intro g
  have hlive := h g
  have hbufs := groupBufs_length group
  rw [recvs_armed htagged, provided_armed htagged, List.map_append, List.count_append,
    List.count_append, List.map_map]
  have hnew : (((groupBufs group).map ((·.bgid) ∘ fun i =>
      ({ addr := i, len := recvBufSize, bgid := group, bid := GroupIndex.index i } :
        ProvidedBuffer))).count g) ≤ 16 * [group].count g := by
    have hconst : ((groupBufs group).map ((·.bgid) ∘ fun i =>
        ({ addr := i, len := recvBufSize, bgid := group, bid := GroupIndex.index i } :
          ProvidedBuffer))) = List.replicate (groupBufs group).length group := by
      rw [← List.map_const']
      rfl
    rw [hconst, List.count_replicate]
    by_cases hg : group = g
    · simp [hg] at hbufs ⊢
      exact hbufs
    · simp [hg]
  omega

theorem Live.step {a : Label} (h : s.Live) (htagged : s.Tagged) (hok : s.usesUp a)
    (hs : Effect parse s a s') : s'.Live := by
  cases hs with
  | @filled i j data req buf more hreq hbuf hgroup =>
      intro g
      have hlive := h g
      have hprovided := count_eraseIdx hbuf (·.bgid) g
      show ((s.kernel.provided.eraseIdx j).map (·.bgid)).count g
        ≤ 16 * ((if more then s.kernel.recvs else s.kernel.recvs.eraseIdx i).map (·.bgid)).count g
      cases more with
      | true =>
          simp only [if_true]
          omega
      | false =>
          have hrecvs := count_eraseIdx hreq (·.bgid) g
          simp only [Bool.false_eq_true, if_false]
          by_cases hg : req.bgid = g
          · subst hg
            rw [count_unused (hok rfl req hreq)]
            omega
          · rw [if_neg hg] at hrecvs
            omega
  | @ended i req hreq =>
      intro g
      have hlive := h g
      have hrecvs := count_eraseIdx hreq (·.bgid) g
      show (s.kernel.provided.map (·.bgid)).count g
        ≤ 16 * ((s.kernel.recvs.eraseIdx i).map (·.bgid)).count g
      by_cases hg : req.bgid = g
      · subst hg
        rw [count_unused (hok req hreq)]
        omega
      · rw [if_neg hg] at hrecvs
        omega
  | armed answer hthread hbound => exact h.armed htagged _
  | rearmed answer hthread hwait hfree hbound => exact h.armed htagged _
  | flushed hthread hchanged =>
      intro g
      have hrecvs : s.committing.kernel.recvs = s.kernel.recvs := recvs_flushed htagged
      have hprovided : s.committing.kernel.provided = s.kernel.provided := provided_flushed htagged
      rw [hrecvs, hprovided]
      exact h g
  | _ => exact h

/-- What is counted less often in one list is no longer than the other. -/
theorem length_le_of_count {l m : List UInt16} {k : Nat} (h : ∀ g, l.count g ≤ k * m.count g) :
    l.length ≤ k * m.length := by
  have hle : (l : Multiset UInt16) ≤ k • (m : Multiset UInt16) := by
    refine Multiset.le_iff_count.mpr fun g => ?_
    rw [Multiset.count_nsmul, Multiset.coe_count, Multiset.coe_count]
    exact h g
  have hcard := Multiset.card_le_card hle
  rwa [Multiset.card_nsmul, Multiset.coe_card, Multiset.coe_card] at hcard

theorem Live.provided_le (h : s.Live) : s.kernel.provided.length ≤ 16 * s.kernel.recvs.length := by
  simpa using length_le_of_count h

/-! ### Bounds -/

/-- What may be outstanding once the queue was emptied. -/
def emptied (sendQueue recvQueue : Nat) : Nat := 2 * sendQueue + 17 * (recvQueue / 16)

/-- What may be outstanding at all: after `prepare`, or with a group armed since. -/
def ceiling (sendQueue recvQueue : Nat) : Nat :=
  max (33 * (recvQueue / 16)) (emptied sendQueue recvQueue + 33)

/-- The bound between calls. -/
def allowance (sendQueue recvQueue : Nat) (polled : Bool) : Nat :=
  if polled then emptied sendQueue recvQueue else ceiling sendQueue recvQueue

/-- What may be outstanding, by where the program is. -/
def Within (polled : Bool) (s : System sendQueue recvQueue) : Prop :=
  match s.thread with
  | .preparing todo =>
      polled = false ∧ s.outstanding + 33 * todo.length ≤ 33 * (recvQueue / 16)
  | .idle | .ready .commitSendTo => s.outstanding ≤ allowance sendQueue recvQueue polled
  | .polling c => c.polls = true ∧ s.outstanding ≤ ceiling sendQueue recvQueue
  | .ready .finishReadFrom => polled = false ∧ s.outstanding ≤ emptied sendQueue recvQueue
  | .ready (.addSendTo _ _) | .ready .recvFrom =>
      s.outstanding + 2 * s.sock.sendFreeQueue.length ≤ emptied sendQueue recvQueue

theorem emptied_le_allowance (sendQueue recvQueue : Nat) (polled : Bool) :
    emptied sendQueue recvQueue ≤ allowance sendQueue recvQueue polled := by
  cases polled with
  | true => exact Nat.le_refl _
  | false =>
      show emptied sendQueue recvQueue ≤ max _ (emptied sendQueue recvQueue + 33)
      omega

theorem allowance_le_ceiling (sendQueue recvQueue : Nat) (polled : Bool) :
    allowance sendQueue recvQueue polled ≤ ceiling sendQueue recvQueue := by
  cases polled with
  | true => exact emptied_le_allowance _ _ false
  | false => exact Nat.le_refl _

/-- **With the queue empty**, what is outstanding is bounded by what is in use. -/
theorem outstanding_emptied {as : List Label} {sock : UdpSocket2IoUring sendQueue recvQueue}
    (hnew : UdpSocket2IoUring.new sendQueue recvQueue = .ok sock) (hsize : sendQueue < 2 ^ 32)
    (hrun : Visits (System.step parse) (System.start sock) as s) (hlive : s.Live)
    (hcq : s.sock.ring.completion = []) :
    s.outstanding + 2 * s.sock.sendFreeQueue.length ≤ emptied sendQueue recvQueue := by
  have hcount := (Sending.visits hnew hrun).counted hsize
  have hgroups := groups_counted hnew hrun
  have hprovided := hlive.provided_le
  have hsends := sum_awaited_le s.kernel.sends
  have howned : s.owned.length = s.kernel.sends.length := by simp [owned, hcq]
  simp only [outstanding, hcq, List.length_nil, emptied]
  omega

/-- A step that adds nothing keeps the bounds, if the program is where it was. -/
theorem Within.of_le {polled : Bool} (h : s.Within polled) (hthread : s'.thread = s.thread)
    (hfree : s'.sock.sendFreeQueue = s.sock.sendFreeQueue)
    (hle : s'.outstanding ≤ s.outstanding) : s'.Within polled := by
  unfold Within at h ⊢
  rw [hthread, hfree]
  cases hs : s.thread with
  | preparing todo =>
      rw [hs] at h
      exact ⟨h.1, (Nat.add_le_add_right hle _).trans h.2⟩
  | idle =>
      rw [hs] at h
      exact hle.trans h
  | polling c =>
      rw [hs] at h
      exact ⟨h.1, hle.trans h.2⟩
  | ready c =>
      rw [hs] at h
      cases c with
      | addSendTo buf dest => exact (Nat.add_le_add_right hle _).trans h
      | commitSendTo => exact hle.trans h
      | recvFrom => exact (Nat.add_le_add_right hle _).trans h
      | finishReadFrom => exact ⟨h.1, hle.trans h.2⟩

/-- A turn of `poll_completions`. -/
theorem Within.polled {polled : Bool} {c : Call} {cqe : Cqe} {rest : List Cqe}
    (h : s.Within polled) (hthread : s.thread = .polling c)
    (hcq : s.sock.ring.completion = cqe :: rest) (hthread' : s'.thread = s.thread)
    (hring : s'.sock.ring = { s.sock.ring with completion := rest })
    (hkernel : s'.kernel = s.kernel) : s'.Within polled := by
  have hle := outstanding_polled hcq hring hkernel
  unfold Within at h ⊢
  rw [hthread', hthread]
  rw [hthread] at h
  exact ⟨h.1, hle.trans h.2⟩

/-- Back from a call that began by emptying the queue, or that found it had been. -/
theorem Within.returned {polled : Bool} {c : Call} (h : s.Within polled)
    (hthread : s.thread = .ready c) (hthread' : s'.thread = .idle)
    (hle : s'.outstanding ≤ s.outstanding) : s'.Within polled := by
  have hallow := emptied_le_allowance sendQueue recvQueue polled
  unfold Within at h ⊢
  rw [hthread']
  rw [hthread] at h
  show s'.outstanding ≤ allowance sendQueue recvQueue polled
  cases c with
  | addSendTo buf dest =>
      have h' : s.outstanding + 2 * s.sock.sendFreeQueue.length ≤ emptied sendQueue recvQueue := h
      omega
  | commitSendTo => exact hle.trans h
  | recvFrom =>
      have h' : s.outstanding + 2 * s.sock.sendFreeQueue.length ≤ emptied sendQueue recvQueue := h
      omega
  | finishReadFrom => exact (hle.trans h.2).trans hallow

/-- A step that makes no call. -/
theorem Within.step {polled : Bool} {a : Label} (h : s.Within polled) (htagged : s.Tagged)
    (hemptied : s.sock.ring.completion = [] →
      s.outstanding + 2 * s.sock.sendFreeQueue.length ≤ emptied sendQueue recvQueue)
    (hcall : a.call? = none) (hs : s.step parse a = some s') : s'.Within polled := by
  have heffect := step_effect hs
  have hkernel : ∀ e, a = .kernel e → s'.outstanding ≤ s.outstanding := by
    rintro e rfl
    exact outstanding_kernel hs
  cases heffect with
  | sent more hreq => exact h.of_le rfl rfl (hkernel _ rfl)
  | notified hreq => exact h.of_le rfl rfl (hkernel _ rfl)
  | filled more hreq hbuf hgroup => exact h.of_le rfl rfl (hkernel _ rfl)
  | ended hreq => exact h.of_le rfl rfl (hkernel _ rfl)
  | @armed group rest answer hthread hbound =>
      have harmed := outstanding_armed htagged group
      unfold Within at h ⊢
      rw [hthread] at h
      obtain ⟨hpolled, hle⟩ := h
      rw [List.length_cons] at hle
      refine ⟨hpolled, ?_⟩
      show (s.armed group).outstanding + 33 * rest.length ≤ 33 * (recvQueue / 16)
      omega
  | prepared answer hthread =>
      unfold Within at h ⊢
      rw [hthread] at h
      obtain ⟨rfl, hle⟩ := h
      exact le_max_of_le_left hle
  | called c hthread => cases hcall
  | @polledAll c hthread hcq =>
      have hle := hemptied hcq
      unfold Within at h ⊢
      rw [hthread] at h
      obtain ⟨hpolls, -⟩ := h
      cases c with
      | addSendTo buf dest => exact hle
      | recvFrom => exact hle
      | commitSendTo => cases hpolls
      | finishReadFrom => cases hpolls
  | polledFilled hthread hcq hdata hmore hbuf => exact h.polled hthread hcq rfl rfl rfl
  | polledEnded hthread hcq hdata hmore => exact h.polled hthread hcq rfl rfl rfl
  | polledSent hthread hcq hdata hmore => exact h.polled hthread hcq rfl rfl rfl
  | polledOther hthread hcq hrecv hsend => exact h.polled hthread hcq rfl rfl rfl
  | @accepted buf dest idx rest answer hthread hfree =>
      have hallow := emptied_le_allowance sendQueue recvQueue polled
      have hadds : (s.sending idx rest buf dest).outstanding = s.outstanding + 2 :=
        outstanding_sending
      unfold Within at h ⊢
      rw [hthread] at h
      have hle : s.outstanding + 2 * s.sock.sendFreeQueue.length ≤ emptied sendQueue recvQueue := h
      rw [hfree, List.length_cons] at hle
      show (s.sending idx rest buf dest).outstanding ≤ allowance sendQueue recvQueue polled
      omega
  | flushed hthread hchanged =>
      exact h.returned hthread rfl (outstanding_committing htagged).le
  | received answer hthread hwait hparse => exact h.returned hthread rfl (Nat.le_refl _)
  | @rearmed group rest answer hthread hwait hfree hbound =>
      have harmed := outstanding_armed htagged group
      unfold Within at h ⊢
      rw [hthread] at h
      obtain ⟨rfl, hle⟩ := h
      show (s.armed group).outstanding ≤ max _ (emptied sendQueue recvQueue + 33)
      omega
  | returned answer outcome hthread hcommit => exact h.returned hthread rfl (Nat.le_refl _)

/-- A call, where it may be made. -/
theorem Within.called {polled polled' : Bool} {c : Call} (h : s.Within polled)
    (hturn : Call.turn polled c = some polled') (hs : s.step parse (.call c) = some s') :
    s'.Within polled' := by
  have hceiling := allowance_le_ceiling sendQueue recvQueue polled
  cases step_effect hs with
  | called _ hthread =>
      unfold Within at h
      rw [hthread] at h
      have hle : s.outstanding ≤ allowance sendQueue recvQueue polled := h
      cases c with
      | addSendTo buf dest => exact ⟨rfl, hle.trans hceiling⟩
      | recvFrom => exact ⟨rfl, hle.trans hceiling⟩
      | commitSendTo =>
          cases hturn
          exact hle
      | finishReadFrom =>
          cases polled with
          | false => cases hturn
          | true =>
              cases hturn
              exact ⟨rfl, hle⟩

theorem Within.start {sock : UdpSocket2IoUring sendQueue recvQueue}
    (hnew : UdpSocket2IoUring.new sendQueue recvQueue = .ok sock) :
    (System.start sock).Within false := by
  obtain ⟨-, hsub, hcq, -, -, -⟩ := new_ok hnew
  refine ⟨rfl, ?_⟩
  have hnone : (System.start sock).outstanding = 0 := by
    simp [outstanding, System.start, preapreWrite, Kernel.new, hsub, hcq]
  rw [hnone]
  simp [recvBufGroupSize]

/-- The calls of a run. -/
def calls (as : List Label) : List Call := as.filterMap Label.call?

theorem within_visits {sock : UdpSocket2IoUring sendQueue recvQueue}
    (hnew : UdpSocket2IoUring.new sendQueue recvQueue = .ok sock) (hsize : sendQueue < 2 ^ 32) :
    ∀ (as : List Label) (s : System sendQueue recvQueue),
      Meets (System.step parse) usesUp (System.start sock) as →
      runLabels (System.step parse) (System.start sock) as = some s →
        s.Live ∧ ∀ polled, runLabels Call.turn false (calls as) = some polled → s.Within polled := by
  refine runLabels_invariant ?_ ?_
  · refine ⟨fun _ => by simp [System.start, Kernel.new], fun polled hpolled => ?_⟩
    cases hpolled
    exact .start hnew
  · rintro as s a t hrun ⟨hlive, hwithin⟩ hok hs
    have hvisits : Visits (System.step parse) (System.start sock) as s :=
      ⟨as, List.prefix_refl _, hrun⟩
    have htagged := (Sending.visits hnew hvisits).tagged
    refine ⟨hlive.step htagged hok (step_effect hs), fun polled hpolled => ?_⟩
    rw [calls, List.filterMap_append, runLabels_append] at hpolled
    obtain ⟨before, hbefore, hafter⟩ := Option.bind_eq_some_iff.mp hpolled
    have hhere := hwithin before hbefore
    cases hcall : a.call? with
    | none =>
        simp only [List.filterMap_cons, hcall, List.filterMap_nil, runLabels_nil,
          Option.some.injEq] at hafter
        subst hafter
        exact hhere.step htagged (outstanding_emptied hnew hsize hvisits hlive) hcall hs
    | some c =>
        obtain rfl : a = .call c := by
          cases a with
          | call c' => rw [Option.some.inj hcall]
          | _ => cases hcall
        rw [List.filterMap_cons_some hcall, List.filterMap_nil] at hafter
        obtain ⟨after, hturn, hsame⟩ := Option.bind_eq_some_iff.mp hafter
        cases hsame
        exact hhere.called hturn hs

/-- What may be outstanding anywhere. -/
theorem Within.le_ceiling {polled : Bool} (h : s.Within polled) :
    s.outstanding ≤ ceiling sendQueue recvQueue := by
  have hallow := emptied_le_allowance sendQueue recvQueue polled
  have hceiling := allowance_le_ceiling sendQueue recvQueue polled
  unfold Within at h
  split at h
  · exact le_max_of_le_left ((Nat.le_add_right _ _).trans h.2)
  · exact h.trans hceiling
  · exact h.trans hceiling
  · exact h.2
  · exact (h.2.trans hallow).trans hceiling
  · exact (((Nat.le_add_right _ _).trans h).trans hallow).trans hceiling
  · exact (((Nat.le_add_right _ _).trans h).trans hallow).trans hceiling

end System

end MediaServer.Uring
