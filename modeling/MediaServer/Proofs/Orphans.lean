/-
Where a request is.

From the moment the controller takes it to the moment the main loop answers it, a
request should be in one place: in its worker's queue, in the hands of that worker, or
as an answer in the channel back.  `whereabouts` counts the places, and `Accounted`
says that the count is one for every request the main loop waits on and nought for
every other number.

Two hops can lose it.  `Controller::input` hands it over with `try_send` and returns
nothing, so the main loop waits on a request that a full queue has swallowed; and a
session's answer is sent with `try_send` too, where the answer for an unknown path,
four lines away, is sent with `send`.  `Roomy` is the condition that neither finds its
queue full.
-/
import Mathlib.Algebra.BigOperators.Fin
import MediaServer.Proofs.Requests
import MediaServer.Proofs.Server

namespace MediaServer

open Lib

variable {Rtc : Type} {n : Nat} {ext : Extern Rtc}

/-! ### A worker's sessions owe no answers between turns -/

namespace Worker

/-- No session in the map has an answer left to give. -/
def Settled (w : Worker Rtc) : Prop :=
  ∀ t c, w.tasks.lookup t = some c → c.task.owedResponses = []

theorem settled_new (addr : SocketAddr) : Settled (Worker.new addr : Worker Rtc) := by
  simp [Settled, Worker.new]

theorem Settled.quiet {w w' : Worker Rtc} (h : Settled w) (hq : Quiet w w') : Settled w' := by
  intro t c' hc'
  obtain ⟨c, hc, -, hqt⟩ := hq.lookup hc'
  rw [ComposeTask.owedResponses, hqt.core.outputs]
  exact h t c hc

theorem Feeds.responses {w w' : Worker Rtc} {actions : List Action} (h : Feeds w actions w') :
    actions.filterMap Action.response = [] :=
  h.filterMap_nil fun a ha => by cases a <;> simp [Action.isFeed] at ha <;> rfl

/-- Polling one session settles it, whatever it owed, and touches no other. -/
theorem Settled.popTask {w : Worker Rtc} (h : Settled w) (now : Instant) (taskId : Nat)
    (container : TaskContainer Rtc) : Settled (w.popTask ext now taskId container).1 := by
  obtain ⟨c, hc, hnone, -⟩ := popTask_responses ext now taskId container w
  intro t c' hc'
  by_cases ht : t = taskId
  · subst ht
    rw [hc] at hc'
    cases hc'
    exact hnone
  · refine h t c' ?_
    simpa [Worker.popTask, ht] using hc'

theorem Settled.popOne {w w' : Worker Rtc} {actions : List Action} {now : Instant} {taskId : Nat}
    (h : Settled w) (hrun : w.popOne ext now taskId = .ok (w', actions)) :
    Settled w' ∧ actions.filterMap Action.response = [] := by
  rcases popOne_cases hrun with ⟨-, rfl, rfl⟩ | ⟨container, hc, rfl, rfl⟩
  · exact ⟨h, rfl⟩
  · obtain ⟨-, -, -, hgiven⟩ := popTask_responses ext now taskId container w
    exact ⟨h.popTask now taskId container, hgiven.trans (h taskId container hc)⟩

theorem Settled.bind {w : Worker Rtc} (h : Settled w) (remote : SocketAddr) (taskId : Nat) :
    Settled (w.bind remote taskId) := by
  intro t c hc
  obtain ⟨c₀, remotes, hc₀, rfl⟩ := bind_lookup_some hc
  exact h t c₀ hc₀

theorem Settled.handleDatagram {w w' : Worker Rtc} {actions : List Action} {d : Datagram}
    (h : Settled w) (hrun : w.handleDatagram ext d = .ok (w', actions)) :
    Settled w' ∧ actions.filterMap Action.response = [] := by
  obtain ⟨found, u, acts, hslot, hcase⟩ := handleDatagram_ok hrun
  have hfound : Settled u ∧ acts.filterMap Action.response = [] := by
    rcases slot_ok hslot with ⟨rfl, rfl⟩ | ⟨username, taskId, -, -, rfl, rfl⟩
    · exact ⟨h, rfl⟩
    · exact ⟨h.bind d.remote taskId, rfl⟩
  rcases hcase with ⟨rfl, rfl⟩ | ⟨taskId, v, fed, popped, hin, hpop, rfl⟩
  · exact hfound
  · have hfeed := inputTask_feeds hin
    obtain ⟨hw', hpopped⟩ := (hfound.1.quiet hfeed.1).popOne hpop
    exact ⟨hw', by simp [List.filterMap_append, hfound.2, hfeed.responses, hpopped]⟩

theorem Settled.handleRequest {w w' : Worker Rtc} {actions : List Action}
    {arrival : HttpArrival Rtc} (h : Settled w)
    (hrun : w.handleRequest ext arrival = .ok (w', actions)) : Settled w' := by
  obtain ⟨req, -, ⟨task, -, hadd⟩ | ⟨rfl, -⟩⟩ := handleRequest_ok hrun
  · cases hadd
    exact Settled.popTask (w := { w with
      taskIdSeed := w.taskIdSeed + 1
      taskUfrags := w.taskUfrags.insert task.ufrag w.taskIdSeed }) h arrival.now w.taskIdSeed _
  · exact h

theorem Settled.popEndedTasks {w w' : Worker Rtc} {actions : List Action} (h : Settled w)
    (hrun : w.popEndedTasks = .ok (w', actions)) :
    Settled w' ∧ actions.filterMap Action.response = [] := by
  refine forEach_preserves (P := fun os w => Settled w ∧ os.filterMap Action.response = []) ?_
    hrun ⟨h, rfl⟩
  rintro taskId u v os bs hremove ⟨hu, hos⟩
  obtain ⟨c, -, rfl, rfl⟩ := removeTask_ok.mp hremove
  refine ⟨fun t c' hc' => ?_, by simp [List.filterMap_append, hos, Action.response]⟩
  exact hu t c' (without_lookup_some hc').2

end Worker

/-- The request a turn takes, if it takes one. -/
def Op.reqId : Op Rtc → Option Nat
  | .request arrival => arrival.reqId
  | _ => none

/-- A turn answers the request it takes, once, and nothing else. -/
theorem Worker.Settled.exec {w w' : Worker Rtc} {actions : List Action} {op : Op Rtc}
    (h : Settled w) (hrun : w.exec ext op = .ok (w', actions)) :
    Settled w' ∧ (actions.filterMap Action.response).map (·.reqId) = op.reqId.toList := by
  cases op with
  | busEvent ev now =>
      have hf := handleBusEvent_feeds hrun
      exact ⟨h.quiet hf.1, by rw [hf.responses]; rfl⟩
  | request arrival => exact ⟨h.handleRequest hrun, (handleRequest_answers hrun).2⟩
  | tick order now =>
      obtain ⟨hq, rfl⟩ := processTick_ok hrun
      exact ⟨h.quiet hq, rfl⟩
  | pop taskId now =>
      obtain ⟨hw, hnone⟩ := h.popOne hrun
      exact ⟨hw, by rw [hnone]; rfl⟩
  | popEnded =>
      obtain ⟨hw, hnone⟩ := h.popEndedTasks hrun
      exact ⟨hw, by rw [hnone]; rfl⟩
  | datagram d =>
      obtain ⟨hw, hnone⟩ := h.handleDatagram hrun
      exact ⟨hw, by rw [hnone]; rfl⟩

/-- Every answer is a shared action. -/
theorem shared_responses (actions : List Action) :
    (actions.filter Action.isShared).filterMap Action.response
      = actions.filterMap Action.response := by
  rw [List.filterMap_filter]
  refine List.filterMap_congr fun a _ => ?_
  cases a <;> rfl

/-! ### Counting -/

/-- The numbers of the requests a worker has in its queue or is at answering. -/
def WorkerSlot.holding (slot : WorkerSlot Rtc) : List Nat :=
  slot.requests.map (·.reqId) ++ (slot.outgoing.filterMap Action.response).map (·.reqId)

/-- A turn that comes to its end holds what it held: the request it took as the answer to it. -/
theorem WorkerSlot.Taken.holding {bus : List BusEvent} {op : Op Rtc} {slot slot' : WorkerSlot Rtc}
    {worker : Worker Rtc} {actions : List Action} (h : Taken bus op slot slot')
    (hidle : slot.outgoing = []) (hw : slot.worker.Settled)
    (hrun : slot.worker.exec ext op = .ok (worker, actions)) :
    WorkerSlot.holding { slot' with worker, outgoing := actions.filter Action.isShared }
      |>.Perm slot.holding := by
  have hrequests := h.requests
  rw [WorkerSlot.holding, WorkerSlot.holding, hidle, shared_responses, (hw.exec hrun).2]
  cases op with
  | request arrival =>
      obtain ⟨req, hev, hreq⟩ := hrequests
      rw [hreq]
      simp only [Op.reqId, Worker.HttpArrival.reqId, hev, Option.toList_some, List.map_cons,
        List.filterMap_nil, List.map_nil, List.append_nil]
      exact List.perm_append_singleton _ _
  | _ =>
      rw [hrequests]
      exact .refl _

namespace Server

/-- Whichever way a worker sends an answer, it is the next thing it has to send. -/
theorem reply_response {s s' : Server n Rtc} {w : Fin n} (h : s.reply w = some s') :
    ∃ a res rest, (s.slots w).outgoing = a :: rest ∧ a.response = some res ∧
      s' = { s.setSlot w { s.slots w with outgoing := rest } with
        responses := pushed s.responses res } := by
  obtain ⟨res, rest, hout | ⟨hout, -⟩, heq⟩ := reply_some h
  · exact ⟨_, res, rest, hout, rfl, heq⟩
  · exact ⟨_, res, rest, hout, rfl, heq⟩

/-- The number an entry is made under is the next one. -/
theorem below_insert {s : Server n Rtc} (h : ∀ id ∈ s.reqs, id < s.reqId) :
    ∀ id ∈ Insert.insert s.reqId s.reqs, id < s.reqId + 1 := by
  intro id hid
  rcases Finset.mem_insert.mp hid with rfl | hid
  · exact Nat.lt_succ_self _
  · exact Nat.lt_succ_of_lt (h id hid)

/-- In how many places a request is. -/
def whereabouts (s : Server n Rtc) (id : Nat) : Nat :=
  (∑ w, (s.slots w).holding.count id) + (s.responses.map (·.reqId)).count id

/-- Changing one slot changes the count by what that slot holds. -/
theorem sum_setSlot (f : WorkerSlot Rtc → Nat) (w : Fin n) (slot : WorkerSlot Rtc)
    (s : Server n Rtc) :
    (∑ v, f ((s.setSlot w slot).slots v)) + f (s.slots w) = (∑ v, f (s.slots v)) + f slot := by
  have hrest : ∀ v ∈ Finset.univ.erase w,
      f ((s.setSlot w slot).slots v) = f (s.slots v) := by
    intro v hv
    rw [setSlot_slots, if_neg (Finset.ne_of_mem_erase hv)]
  rw [← Finset.add_sum_erase _ _ (Finset.mem_univ w), Finset.sum_congr rfl hrest,
    ← Finset.add_sum_erase _ (fun v => f (s.slots v)) (Finset.mem_univ w), setSlot_slots, if_pos rfl]
  omega

/-- Two servers that hold the same in every slot but one. -/
theorem whereabouts_setSlot (w : Fin n) (slot : WorkerSlot Rtc) (s : Server n Rtc) (id : Nat) :
    (s.setSlot w slot).whereabouts id + (s.slots w).holding.count id
      = s.whereabouts id + slot.holding.count id := by
  have hsum := sum_setSlot (fun slot => slot.holding.count id) w slot s
  simp only [whereabouts, setSlot_responses] at hsum ⊢
  omega

/-- An answer that is popped was in one place more. -/
theorem whereabouts_popped {s : Server n Rtc} {res : HttpResponse} {rest : List HttpResponse}
    (hres : s.responses = res :: rest) (id : Nat) :
    s.whereabouts id = ({ s with responses := rest } : Server n Rtc).whereabouts id
      + if res.reqId = id then 1 else 0 := by
  simp only [whereabouts, hres, List.map_cons, List.count_cons, beq_iff_eq]
  omega

/-- What every number should be counted as. -/
structure Accounted (s : Server n Rtc) : Prop where
  settled : ∀ w, (s.slots w).worker.Settled
  alive : ∀ w, (s.slots w).phase ≠ .panicked
  running : s.main ≠ .panicked
  below : ∀ id ∈ s.reqs, id < s.reqId
  count : ∀ id, s.whereabouts id
    = if id ∈ s.reqs ∨ (s.main = .handing ∧ id = s.reqId) then 1 else 0

theorem accounted_new (localAddrs : Fin n → SocketAddr) :
    (Server.new localAddrs : Server n Rtc).Accounted := by
  refine ⟨fun w => Worker.settled_new _, fun w => by simp [Server.new, WorkerSlot.new],
    by simp [Server.new], by simp [Server.new], fun id => ?_⟩
  simp [whereabouts, Server.new, WorkerSlot.new, WorkerSlot.holding]

/-- Rewriting a slot that goes on holding the same. -/
theorem Accounted.setSlot {s : Server n Rtc} (h : s.Accounted) (w : Fin n)
    {slot : WorkerSlot Rtc} (settled : slot.worker.Settled) (alive : slot.phase ≠ .panicked)
    (holding : slot.holding.Perm (s.slots w).holding) : (s.setSlot w slot).Accounted := by
  refine ⟨forall_setSlot (P := fun _ slot => slot.worker.Settled) settled h.settled,
    forall_setSlot (P := fun _ slot => slot.phase ≠ .panicked) alive h.alive,
    h.running, h.below, fun id => ?_⟩
  have hsame := whereabouts_setSlot w slot s id
  rw [holding.count_eq] at hsame
  rw [Nat.add_right_cancel hsame]
  exact h.count id

/-- No turn of this step ends in a panic. -/
def Live (ext : Extern Rtc) (s : Server n Rtc) : Label n Rtc → Prop
  | .turn w op => ∀ p, (s.slots w).worker.exec ext op ≠ .error p
  | _ => True

/-- The queue a request is handed to has room, and so has the channel an answer is sent to. -/
def Roomy (s : Server n Rtc) : Label n Rtc → Prop
  | .arrive _ => ∃ w : Fin n, w.val = s.count % n ∧ (s.slots w).requests.length < channelCapacity
  | .reply _ => s.responses.length < channelCapacity
  | _ => True

/-- A request that arrives is put into the queue of one worker, and is nowhere else. -/
theorem Accounted.arrive {s s' : Server n Rtc} {req : HttpRequest} (h : s.Accounted)
    (hroom : s.Roomy (.arrive req)) (hs : s.step ext (.arrive req) = some s') : s'.Accounted := by
  obtain ⟨hready, rfl⟩ := arrive_some hs
  obtain ⟨w, hw, hlen⟩ := hroom
  rw [input_of_room hw (h.alive w) hlen]
  refine ⟨forall_setSlot (P := fun _ slot => slot.worker.Settled) (h.settled w) h.settled,
    forall_setSlot (P := fun _ slot => slot.phase ≠ .panicked) (h.alive w) h.alive,
    by simp, h.below, fun id => ?_⟩
  have hsum := whereabouts_setSlot w { s.slots w with
    requests := (s.slots w).requests ++ [{ req with reqId := s.reqId }] } s id
  have hold := h.count id
  have hnew : s.reqId ∉ s.reqs := fun hmem => Nat.lt_irrefl _ (h.below _ hmem)
  simp only [WorkerSlot.holding, List.map_append, List.map_cons, List.map_nil,
    List.count_append, List.count_singleton] at hsum
  simp only [hready, reduceCtorEq, false_and, or_false] at hold
  show (s.setSlot w _).whereabouts id = _
  by_cases hid : id = s.reqId
  · subst hid
    simp only [hnew, if_false] at hold
    simp only [beq_self_eq_true, if_true] at hsum
    simp only [setSlot_reqs, setSlot_reqId, and_self, or_true, if_true]
    omega
  · have hid' : (s.reqId == id) = false := by simpa using Ne.symm hid
    simp only [hid', Bool.false_eq_true, if_false] at hsum
    simp only [setSlot_reqs, setSlot_reqId, hid, and_false, or_false]
    omega

/-- An answer that is taken from the channel answers a request that waits. -/
theorem Accounted.respond {s s' : Server n Rtc} (h : s.Accounted)
    (hs : s.step ext .respond = some s') : s'.Accounted := by
  obtain ⟨res, rest, hready, hres, hcase⟩ := respond_some hs
  have hcount : ∀ id, s.whereabouts id = if id ∈ s.reqs then 1 else 0 := by
    intro id
    have := h.count id
    simpa only [hready, reduceCtorEq, false_and, or_false] using this
  have hsplit := whereabouts_popped hres
  -- An answer in the channel counts, so the main loop waits on its request.
  have hmem : res.reqId ∈ s.reqs := by
    by_contra hnot
    have h₁ := hcount res.reqId
    have h₂ := hsplit res.reqId
    rw [if_neg hnot] at h₁
    rw [if_pos rfl] at h₂
    omega
  rcases hcase with ⟨-, rfl⟩ | ⟨hnot, -⟩
  · refine ⟨h.settled, h.alive, h.running, fun id hid => h.below id (Finset.mem_of_mem_erase hid),
      fun id => ?_⟩
    have h₁ := hcount id
    have h₂ := hsplit id
    simp only [hready, reduceCtorEq, false_and, or_false, Finset.mem_erase]
    show ({ s with responses := rest } : Server n Rtc).whereabouts id = _
    by_cases hid : id = res.reqId
    · subst hid
      simp only [hmem, if_true] at h₁
      simp only [if_true] at h₂
      simp only [ne_eq, not_true_eq_false, false_and, if_false]
      omega
    · rw [if_neg (Ne.symm hid)] at h₂
      simp only [ne_eq, hid, not_false_eq_true, true_and]
      omega
  · exact absurd hmem hnot

/-- An answer that is sent moves from a worker's hands to the channel. -/
theorem Accounted.reply {s s' : Server n Rtc} {w : Fin n} (h : s.Accounted)
    (hroom : s.Roomy (.reply w)) (hs : s.step ext (.reply w) = some s') : s'.Accounted := by
  obtain ⟨a, res, rest, hout, ha, rfl⟩ := reply_response hs
  refine ⟨forall_setSlot (P := fun _ slot => slot.worker.Settled) (h.settled w) h.settled,
    forall_setSlot (P := fun _ slot => slot.phase ≠ .panicked) (h.alive w) h.alive,
    h.running, h.below, fun id => ?_⟩
  have hsum := sum_setSlot (fun slot => slot.holding.count id) w
    { s.slots w with outgoing := rest } s
  refine Eq.trans ?_ (h.count id)
  simp only [WorkerSlot.holding, hout, List.filterMap_cons, ha, List.map_cons,
    List.count_append, List.count_cons] at hsum
  simp only [whereabouts, pushed, if_pos (show s.responses.length < _ from hroom),
    List.map_append, List.map_cons, List.map_nil, List.count_append, List.count_singleton,
    WorkerSlot.holding] at hsum ⊢
  omega

theorem Accounted.step {s s' : Server n Rtc} {l : Label n Rtc} (h : s.Accounted)
    (hlive : s.Live ext l) (hroom : s.Roomy l) (hs : s.step ext l = some s') : s'.Accounted := by
  cases l with
  | arrive req => exact h.arrive hroom hs
  | insert =>
      obtain ⟨hhanding, rfl⟩ := insert_some hs
      refine ⟨h.settled, h.alive, by simp, below_insert h.below, fun id => ?_⟩
      refine (h.count id).trans ?_
      simp only [hhanding, true_and, Finset.mem_insert, reduceCtorEq, false_and, or_false]
      simp only [or_comm]
  | respond => exact h.respond hs
  | spawn w =>
      obtain ⟨-, -, rfl⟩ := spawn_some hs
      exact h.setSlot w (h.settled w) (by simp) (.refl _)
  | turn w op =>
      obtain ⟨hidle, slot, htaken, hcase⟩ := turn_some hs
      have hw := h.settled w
      rw [htaken.worker] at hcase
      rcases hcase with ⟨p, herr, -⟩ | ⟨worker, actions, hrun, rfl⟩
      · exact absurd herr (hlive p)
      · exact h.setSlot w (hw.exec hrun).1 htaken.running.2 (htaken.holding hidle hw hrun)
  | nextPhase w =>
      obtain ⟨-, phase, -, hphase, -, rfl⟩ := nextPhase_some hs
      exact h.setSlot w (h.settled w) hphase (.refl _)
  | startPop w order now =>
      obtain ⟨-, -, rfl⟩ := startPop_some hs
      exact h.setSlot w (h.settled w) (by simp) (.refl _)
  | reply w => exact h.reply hroom hs
  | lock w =>
      obtain ⟨-, -, -, rfl⟩ := callLock_some hs
      exact h.setSlot w (h.settled w) (h.alive w) (.refl _)
  | acquire w =>
      obtain ⟨-, -, rfl⟩ := acquire_some hs
      have hslot : (s.setSlot w { s.slots w with queued := false }).Accounted :=
        h.setSlot w (h.settled w) (h.alive w) (.refl _)
      exact ⟨hslot.settled, hslot.alive, hslot.running, hslot.below, hslot.count⟩
  | broadcast w =>
      obtain ⟨taskId, ev, rest, hout, -, -, rfl⟩ := broadcast_some hs
      have hslot : (s.setSlot w { s.slots w with outgoing := rest }).Accounted :=
        h.setSlot w (h.settled w) (h.alive w)
          (by simp [WorkerSlot.holding, hout, List.filterMap_cons, Action.response])
      exact ⟨hslot.settled, hslot.alive, hslot.running, hslot.below, hslot.count⟩

end Server

/-! ### Runs -/

/--
**No request is orphaned while the queues have room.**  Any number of workers, any
arrivals, any interleaving in which no worker panics: if each request is handed to a
queue with room in it and each answer is sent to a channel with room in it, then in
every state of the run every request the main loop waits on is in exactly one place —
a worker's queue, a worker's hands, or the channel of answers — and no session holds an
answer back.
-/
theorem no_request_orphaned (localAddrs : Fin n → SocketAddr) (labels : List (Label n Rtc))
    (hlive : Meets (Server.step ext) (Server.Live ext) (Server.new localAddrs) labels)
    (hroom : Meets (Server.step ext) Server.Roomy (Server.new localAddrs) labels) :
    ∀ s, Visits (Server.step ext) (Server.new localAddrs) labels s →
      (∀ id ∈ s.reqs, s.whereabouts id = 1) ∧
      ∀ w t c, (s.slots w).worker.tasks.lookup t = some c → c.task.owedResponses = [] := by
  rintro s ⟨pre, hpre, hs⟩
  have hall : s.Accounted :=
    runLabels_invariant (P := fun _ s => s.Accounted) (Server.accounted_new localAddrs)
      (fun _ _ _ _ _ h hok hstep => h.step hok.1 hok.2 hstep) pre s
      ((hlive.and hroom).restrict hpre) hs
  refine ⟨fun id hid => ?_, hall.settled⟩
  rw [hall.count id, if_pos (.inl hid)]

instance (s : Server n Rtc) (l : Label n Rtc) : Decidable (s.Live ext l) :=
  match l with
  | .turn w op =>
      match h : (s.slots w).worker.exec ext op with
      | .ok r => isTrue fun p heq => by rw [h] at heq; cases heq
      | .error p => isFalse fun hlive => hlive p h
  | .arrive _ | .insert | .respond | .spawn _ | .nextPhase _ | .startPop _ _ _ | .reply _
  | .lock _ | .acquire _ | .broadcast _ => isTrue trivial

instance (s : Server n Rtc) (l : Label n Rtc) : Decidable (s.Roomy l) :=
  match l with
  | .arrive _ => inferInstanceAs (Decidable (∃ _w : Fin n, _))
  | .reply _ => inferInstanceAs (Decidable (_ < _))
  | .insert | .respond | .spawn _ | .turn _ _ | .nextPhase _ | .startPop _ _ _
  | .lock _ | .acquire _ | .broadcast _ => isTrue trivial

/-- One request, served by `w` from its arrival to its answer. -/
def Script.exchange (w : Fin n) : List (Label n Script) :=
  [.arrive (request 0 "/nowhere" []), .insert, .spawn w, .nextPhase w,
    .turn w (.request (arrival 0 "/nowhere" [] "abc" [])), .reply w]

/-- At the end of the exchange the request is in the channel of answers and nowhere else. -/
theorem no_request_orphaned_exchange :
    ∃ s, runLabels (Server.step Script.engine) (Server.new fun _ => Script.addr)
      (Script.exchange (0 : Fin 1)) = some s ∧ 0 ∈ s.reqs ∧ s.whereabouts 0 = 1 := by
  have hend : (runLabels (Server.step Script.engine) (Server.new fun _ => Script.addr)
      (Script.exchange (0 : Fin 1))).any (fun s => 0 ∈ s.reqs) = true := by decide +kernel
  obtain ⟨s, hs, hmem⟩ := Option.any_eq_true _ _ |>.mp hend
  have hlive : checks (Server.step Script.engine) (fun s l => s.Live Script.engine l)
      (Server.new fun _ => Script.addr) (Script.exchange (0 : Fin 1)) = true := by decide +kernel
  have hroom : checks (Server.step Script.engine) (fun s l => s.Roomy l)
      (Server.new fun _ => Script.addr) (Script.exchange (0 : Fin 1)) = true := by decide +kernel
  refine ⟨s, hs, by simpa using hmem, (no_request_orphaned _ (Script.exchange (0 : Fin 1)) ?_ ?_ s
    ⟨_, List.prefix_refl _, hs⟩).1 0 (by simpa using hmem)⟩
  · simpa using meets_of_checks hlive
  · simpa using meets_of_checks hroom

/-- The requests `0 .. k - 1` come in, and no worker is scheduled meanwhile. -/
def Script.burst : Nat → List (Label 1 Script)
  | 0 => []
  | k + 1 => Script.burst k ++ [.arrive (request 0 "/whip/endpoint" [0x76]), .insert]

/-- **The hundred and first request is lost**: the main loop waits on it and nobody has it. -/
theorem request_orphaned :
    ∃ s, runLabels (Server.step Script.engine) (Server.new fun _ => Script.addr)
        (Script.burst 101) = some s ∧
      Meets (Server.step Script.engine) (Server.Live Script.engine)
        (Server.new fun _ => Script.addr) (Script.burst 101) ∧
      100 ∈ s.reqs ∧ s.whereabouts 100 = 0 := by
  have hend : (runLabels (Server.step Script.engine) (Server.new fun _ => Script.addr)
      (Script.burst 101)).any (fun s => 100 ∈ s.reqs ∧ s.whereabouts 100 = 0) = true := by
    decide +kernel
  have hlive : checks (Server.step Script.engine) (fun s l => s.Live Script.engine l)
      (Server.new fun _ => Script.addr) (Script.burst 101) = true := by decide +kernel
  obtain ⟨s, hs, hlost⟩ := Option.any_eq_true _ _ |>.mp hend
  rw [decide_eq_true_eq] at hlost
  exact ⟨s, hs, by simpa using meets_of_checks hlive, hlost.1, hlost.2⟩

end MediaServer
