/-
Answers and the requests they are for.

A request may be lost on its way, but it is never in two places, and what the main loop
has no entry for is nowhere (`Matched`).  That holds in every run: with queues that are
full, with workers that panic, and in between `controller.input` and `reqs.insert`, when
the request may already be with a worker.  So what the main loop pops it has an entry
for, and since an entry is taken out with the answer and its number not given out again,
no request is answered twice.
-/
import MediaServer.Proofs.Orphans

namespace MediaServer

open Lib

variable {Rtc : Type} {n : Nat} {ext : Extern Rtc}

namespace Server

/-- A turn of the main loop is its match on what `pop_action` returned. -/
theorem respond_eq (s : Server n Rtc) (hready : s.main = .ready) :
    s.respond = s.popAction.map fun action =>
      match handleAction s.reqs action with
      | .ok reqs => { s with responses := s.responses.tail, reqs }
      | .error _ => { s with responses := s.responses.tail, main := .panicked } := by
  unfold respond popAction
  cases hres : s.responses with
  | nil => simp [hready]
  | cons res rest =>
      by_cases hmem : res.reqId ∈ s.reqs <;> simp [hready, handleAction, hmem]

/-- A request is in one place at most, and only if the main loop waits on it or is about to. -/
structure Matched (s : Server n Rtc) : Prop where
  settled : ∀ w, (s.slots w).worker.Settled
  below : ∀ id ∈ s.reqs, id < s.reqId
  once : ∀ id, s.whereabouts id ≤ 1
  known : ∀ id, 0 < s.whereabouts id → id ∈ s.reqs ∨ (s.main = .handing ∧ id = s.reqId)

theorem matched_new (localAddrs : Fin n → SocketAddr) :
    (Server.new localAddrs : Server n Rtc).Matched := by
  have hnone : ∀ id, (Server.new localAddrs : Server n Rtc).whereabouts id = 0 := fun id => by
    simp [whereabouts, Server.new, WorkerSlot.new, WorkerSlot.holding]
  exact ⟨fun w => Worker.settled_new _, by simp [Server.new], fun id => by simp [hnone],
    fun id => by simp [hnone]⟩

variable {s s' : Server n Rtc}

/-- Requests may be lost. -/
theorem Matched.mono (h : s.Matched) (settled : ∀ w, (s'.slots w).worker.Settled)
    (reqs : s'.reqs = s.reqs) (main : s'.main = s.main) (reqId : s'.reqId = s.reqId)
    (le : ∀ id, s'.whereabouts id ≤ s.whereabouts id) : s'.Matched := by
  refine ⟨settled, ?_, fun id => (le id).trans (h.once id), fun id hid => ?_⟩
  · rw [reqs, reqId]
    exact h.below
  · rw [reqs, main, reqId]
    exact h.known id (hid.trans_le (le id))

/-- Rewriting a slot that holds no more than it did. -/
theorem Matched.setSlot (h : s.Matched) (w : Fin n) {slot : WorkerSlot Rtc}
    (settled : slot.worker.Settled)
    (holding : ∀ id, slot.holding.count id ≤ (s.slots w).holding.count id) :
    (s.setSlot w slot).Matched := by
  refine h.mono (forall_setSlot (P := fun _ slot => slot.worker.Settled) settled h.settled)
    rfl rfl rfl fun id => ?_
  have hsame := whereabouts_setSlot w slot s id
  have hle := holding id
  omega

/-- What the main loop is not waiting on is nowhere. -/
theorem Matched.nowhere (h : s.Matched) {id : Nat} (hreqs : id ∉ s.reqs)
    (hmain : s.main ≠ .handing) : s.whereabouts id = 0 := by
  by_contra hne
  rcases h.known id (Nat.pos_of_ne_zero hne) with hmem | ⟨hhanding, -⟩
  · exact hreqs hmem
  · exact hmain hhanding

/-! ### A request is handed over -/

section

variable (req : HttpRequest) (s : Server n Rtc)

@[simp] theorem input_reqs : (s.input req).reqs = s.reqs := by
  unfold input
  split
  · simp only
    split <;> rfl
  · rfl

@[simp] theorem input_reqId : (s.input req).reqId = s.reqId := by
  unfold input
  split
  · simp only
    split <;> rfl
  · rfl

theorem input_main : (s.input req).main = .handing ∨ n = 0 := by
  unfold input
  split
  · exact .inl rfl
  · exact .inr (by omega)

theorem input_worker (v : Fin n) : ((s.input req).slots v).worker = (s.slots v).worker := by
  rcases input_slots req s v with hsame | ⟨-, -, -, hpushed⟩
  · rw [hsame]
  · rw [hpushed]

/-- Handing a request over puts it in one place at most. -/
theorem whereabouts_input (id : Nat) :
    (s.input req).whereabouts id ≤ s.whereabouts id + if req.reqId = id then 1 else 0 := by
  unfold input
  split
  · rename_i hn
    simp only
    split
    · have hsum := whereabouts_setSlot ⟨s.count % n, Nat.mod_lt _ hn⟩
        { s.slots ⟨s.count % n, Nat.mod_lt _ hn⟩ with
          requests := (s.slots ⟨s.count % n, Nat.mod_lt _ hn⟩).requests ++ [req] } s id
      simp only [WorkerSlot.holding, List.map_append, List.map_cons, List.map_nil,
        List.count_append, List.count_singleton, beq_iff_eq] at hsum
      show (s.setSlot _ _).whereabouts id ≤ _
      omega
    · exact Nat.le_add_right _ _
  · exact Nat.le_add_right _ _

end

/-! ### Every step -/

theorem Matched.turn {w : Fin n} {op : Op Rtc} (h : s.Matched) (hs : s.turn ext w op = some s') :
    s'.Matched := by
  obtain ⟨hidle, slot, htaken, hcase⟩ := turn_some hs
  have hw := h.settled w
  rw [htaken.worker] at hcase
  rcases hcase with ⟨p, herr, rfl⟩ | ⟨worker, actions, hrun, rfl⟩
  · -- A thread that panics drops the requests it has not come to.
    refine h.setSlot w (htaken.worker ▸ hw) fun id => ?_
    simp [WorkerSlot.holding, WorkerSlot.panic, htaken.outgoing, hidle]
  · exact h.setSlot w (hw.exec hrun).1 fun id => ((htaken.holding hidle hw hrun).count_eq id).le

/-- **What the main loop pops it waits on**, and it is then nowhere else. -/
theorem Matched.popped (h : s.Matched) (hready : s.main = .ready) {res : HttpResponse}
    {rest : List HttpResponse} (hres : s.responses = res :: rest) :
    res.reqId ∈ s.reqs ∧ ∀ id, ({ s with responses := rest } : Server n Rtc).whereabouts id
      = s.whereabouts id - if res.reqId = id then 1 else 0 := by
  refine ⟨?_, fun id => by rw [whereabouts_popped hres id, Nat.add_sub_cancel]⟩
  have hpos : 0 < s.whereabouts res.reqId := by
    rw [whereabouts_popped hres, if_pos rfl]
    omega
  exact (h.known res.reqId hpos).resolve_right fun hhanding => by simp [hready] at hhanding

/-- So a turn of the main loop that answers takes the entry out, and does not panic. -/
theorem Matched.respond_some (h : s.Matched) (hs : s.respond = some s') :
    ∃ res rest, s.main = .ready ∧ s.responses = res :: rest ∧ res.reqId ∈ s.reqs ∧
      s' = { s with responses := rest, reqs := s.reqs.erase res.reqId } := by
  obtain ⟨res, rest, hready, hres, hcase⟩ := Server.respond_some hs
  have hmem : res.reqId ∈ s.reqs := (h.popped hready hres).1
  rcases hcase with ⟨-, heq⟩ | ⟨hnot, -⟩
  · exact ⟨res, rest, hready, hres, hmem, heq⟩
  · exact absurd hmem hnot

/-- A request that arrives is in no place before, and in one at most after. -/
theorem Matched.arrive {req : HttpRequest} (h : s.Matched)
    (hs : s.arrive req = some s') : s'.Matched := by
  obtain ⟨hready, rfl⟩ := arrive_some hs
  have hnew : s.whereabouts s.reqId = 0 :=
    h.nowhere (fun hmem => Nat.lt_irrefl _ (h.below _ hmem)) (by simp [hready])
  have hle : ∀ id, (s.input { req with reqId := s.reqId }).whereabouts id
      ≤ s.whereabouts id + if s.reqId = id then 1 else 0 := whereabouts_input _ s
  refine ⟨fun w => ?_, ?_, fun id => ?_, fun id hid => ?_⟩
  · rw [input_worker]
    exact h.settled w
  · rw [input_reqs, input_reqId]
    exact h.below
  · have hid := hle id
    have honce := h.once id
    by_cases heq : s.reqId = id
    · subst heq
      rw [if_pos rfl] at hid
      omega
    · rw [if_neg heq] at hid
      omega
  · rw [input_reqs, input_reqId]
    by_cases heq : s.reqId = id
    · rcases input_main { req with reqId := s.reqId } s with hhanding | hnone
      · exact .inr ⟨hhanding, heq.symm⟩
      · subst hnone heq
        have hpos : 0 < s.whereabouts s.reqId := hid
        omega
    · have hbefore := hle id
      rw [if_neg heq] at hbefore
      have hmem := (h.known id (by omega)).resolve_right fun hhanding => heq hhanding.2.symm
      exact .inl hmem

/-- An answer goes out with its entry. -/
theorem Matched.respond (h : s.Matched) (hs : s.respond = some s') : s'.Matched := by
  obtain ⟨res, rest, hready, hres, -, rfl⟩ := h.respond_some hs
  have hrest := (h.popped hready hres).2
  refine ⟨h.settled, fun id hid => h.below id (Finset.mem_of_mem_erase hid), fun id => ?_,
    fun id hid => .inl ?_⟩
  · exact (hrest id).le.trans ((Nat.sub_le _ _).trans (h.once id))
  · have hleft : 0 < s.whereabouts id - if res.reqId = id then 1 else 0 := hrest id ▸ hid
    have honce := h.once id
    have hne : id ≠ res.reqId := by
      rintro rfl
      rw [if_pos rfl] at hleft
      omega
    have hknown := (h.known id (by omega)).resolve_right fun hhanding => by
      simp [hready] at hhanding
    exact Finset.mem_erase.mpr ⟨hne, hknown⟩

/-- An answer goes from the worker to the channel, or is dropped. -/
theorem Matched.reply {w : Fin n} (h : s.Matched) (hs : s.reply w = some s') :
    s'.Matched := by
  obtain ⟨a, res, rest, hout, ha, rfl⟩ := reply_response hs
  refine h.mono (forall_setSlot (P := fun _ slot => slot.worker.Settled) (h.settled w) h.settled)
    rfl rfl rfl fun id => ?_
  have hsum := sum_setSlot (fun slot => slot.holding.count id) w
    { s.slots w with outgoing := rest } s
  simp only [WorkerSlot.holding, hout, List.filterMap_cons, ha, List.map_cons,
    List.count_append, List.count_cons] at hsum
  have hpushed : ((pushed s.responses res).map (·.reqId)).count id
      ≤ (s.responses.map (·.reqId)).count id + if res.reqId == id then 1 else 0 := by
    unfold pushed
    split
    · simp [List.count_append, List.count_singleton]
    · exact Nat.le_add_right _ _
  simp only [whereabouts, WorkerSlot.holding, List.count_append] at hsum ⊢
  omega

theorem Matched.step {l : Label n Rtc} (h : s.Matched) (hs : s.step ext l = some s') :
    s'.Matched := by
  cases l with
  | arrive req => exact h.arrive hs
  | insert =>
      obtain ⟨hhanding, rfl⟩ := insert_some hs
      refine ⟨h.settled, below_insert h.below, h.once, fun id hid => ?_⟩
      refine .inl (Finset.mem_insert.mpr ?_)
      exact (h.known id hid).symm.imp (fun hnew => hnew.2) fun hmem => hmem
  | respond => exact h.respond hs
  | spawn w =>
      obtain ⟨-, -, rfl⟩ := spawn_some hs
      exact h.setSlot w (h.settled w) fun _ => le_rfl
  | turn w op => exact h.turn hs
  | nextPhase w =>
      obtain ⟨-, phase, -, -, -, rfl⟩ := nextPhase_some hs
      exact h.setSlot w (h.settled w) fun _ => le_rfl
  | startPop w order now =>
      obtain ⟨-, -, rfl⟩ := startPop_some hs
      exact h.setSlot w (h.settled w) fun _ => le_rfl
  | reply w => exact h.reply hs
  | lock w =>
      obtain ⟨-, -, -, rfl⟩ := callLock_some hs
      exact h.setSlot w (h.settled w) fun _ => le_rfl
  | acquire w =>
      obtain ⟨-, -, rfl⟩ := acquire_some hs
      have hslot : (s.setSlot w { s.slots w with queued := false }).Matched :=
        h.setSlot w (h.settled w) fun _ => le_rfl
      exact ⟨hslot.settled, hslot.below, hslot.once, hslot.known⟩
  | broadcast w =>
      obtain ⟨taskId, ev, rest, hout, -, -, rfl⟩ := broadcast_some hs
      have hslot : (s.setSlot w { s.slots w with outgoing := rest }).Matched :=
        h.setSlot w (h.settled w) fun _ => by
          simp [WorkerSlot.holding, hout, List.filterMap_cons, Action.response]
      exact ⟨hslot.settled, hslot.below, hslot.once, hslot.known⟩

/-! ### Runs -/

/-- The numbers of the requests a run answers, in order. -/
def answered (ext : Extern Rtc) : Server n Rtc → List (Label n Rtc) → List Nat
  | _, [] => []
  | s, l :: rest =>
      match s.step ext l with
      | none => []
      | some t =>
          match l, s.popAction with
          | .respond, some (.httpResponse res) => res.reqId :: answered ext t rest
          | _, _ => answered ext t rest

/-- Only `insert` adds an entry, under a number that is new, and no step makes the main loop panic. -/
theorem Matched.main_step {l : Label n Rtc} (h : s.Matched) (hs : s.step ext l = some s') :
    (∀ id ∈ s'.reqs, id ∈ s.reqs ∨ s.reqId ≤ id) ∧ s.reqId ≤ s'.reqId ∧
      (0 < n → s.main ≠ .panicked → s'.main ≠ .panicked) := by
  have hkept : ∀ t : Server n Rtc, t.reqs = s.reqs → t.reqId = s.reqId → t.main = s.main →
      (∀ id ∈ t.reqs, id ∈ s.reqs ∨ s.reqId ≤ id) ∧ s.reqId ≤ t.reqId ∧
        (0 < n → s.main ≠ .panicked → t.main ≠ .panicked) := by
    intro t hreqs hreqId hmain
    exact ⟨fun id hid => .inl (hreqs ▸ hid), hreqId.ge, fun _ hrunning => hmain ▸ hrunning⟩
  cases l with
  | arrive req =>
      obtain ⟨-, rfl⟩ := arrive_some hs
      refine ⟨fun id hid => .inl (by simpa using hid), by simp, fun hn _ => ?_⟩
      have hhanding := (input_main { req with reqId := s.reqId } s).resolve_right hn.ne'
      simp [hhanding]
  | insert =>
      obtain ⟨-, rfl⟩ := insert_some hs
      refine ⟨fun id hid => ?_, Nat.le_succ _, by simp⟩
      exact (Finset.mem_insert.mp hid).symm.imp (fun hmem => hmem) fun hnew => hnew.ge
  | respond =>
      obtain ⟨res, rest, hready, -, -, rfl⟩ := h.respond_some hs
      exact ⟨fun id hid => .inl (Finset.mem_of_mem_erase hid), le_rfl, by simp [hready]⟩
  | spawn w =>
      obtain ⟨-, -, rfl⟩ := spawn_some hs
      exact hkept _ rfl rfl rfl
  | turn w op =>
      obtain ⟨-, slot, -, ⟨p, -, rfl⟩ | ⟨worker, actions, -, rfl⟩⟩ := turn_some hs
      · exact hkept _ rfl rfl rfl
      · exact hkept _ rfl rfl rfl
  | nextPhase w =>
      obtain ⟨-, phase, -, -, -, rfl⟩ := nextPhase_some hs
      exact hkept _ rfl rfl rfl
  | startPop w order now =>
      obtain ⟨-, -, rfl⟩ := startPop_some hs
      exact hkept _ rfl rfl rfl
  | reply w =>
      obtain ⟨res, rest, -, rfl⟩ := reply_some hs
      exact hkept _ rfl rfl rfl
  | lock w =>
      obtain ⟨-, -, -, rfl⟩ := callLock_some hs
      exact hkept _ rfl rfl rfl
  | acquire w =>
      obtain ⟨-, -, rfl⟩ := acquire_some hs
      exact hkept _ rfl rfl rfl
  | broadcast w =>
      obtain ⟨taskId, ev, rest, -, -, -, rfl⟩ := broadcast_some hs
      exact hkept _ rfl rfl rfl

/-- What is answered is waited on now or not yet numbered, and not answered again. -/
theorem Matched.answered_nodup (labels : List (Label n Rtc)) :
    ∀ s : Server n Rtc, s.Matched →
      (answered ext s labels).Nodup ∧
        ∀ id ∈ answered ext s labels, id ∈ s.reqs ∨ s.reqId ≤ id := by
  induction labels with
  | nil => exact fun s _ => ⟨List.nodup_nil, by simp [answered]⟩
  | cons l rest ih =>
      intro s h
      unfold answered
      split
      · exact ⟨List.nodup_nil, by simp⟩
      · rename_i t hs
        obtain ⟨hnodup, hknown⟩ := ih t (h.step hs)
        obtain ⟨hreqs, hreqId, -⟩ := h.main_step hs
        have hlater : ∀ id ∈ answered ext t rest, id ∈ s.reqs ∨ s.reqId ≤ id := fun id hid =>
          (hknown id hid).elim (hreqs id) fun hle => .inr (hreqId.trans hle)
        split
        · rename_i res hpop
          obtain ⟨res', rest', -, hres, hmem, rfl⟩ := h.respond_some hs
          have hhead : res' = res := by simpa [popAction, hres] using hpop
          subst hhead
          refine ⟨List.nodup_cons.mpr ⟨fun hagain => ?_, hnodup⟩, fun id hid => ?_⟩
          · rcases hknown _ hagain with herased | hnew
            · exact Finset.notMem_erase _ _ herased
            · exact absurd (h.below _ hmem) (Nat.not_lt.mpr hnew)
          · rcases List.mem_cons.mp hid with rfl | hid
            · exact .inl hmem
            · exact hlater id hid
        · exact ⟨hnodup, hlater⟩

end Server

/--
**Answers match requests.**  Any number of workers, any requests, any interleaving: what
the main loop pops answers a request it has an entry for, so neither of the two panics of
that loop is reached, and no request is answered twice.
-/
theorem responses_match_requests (localAddrs : Fin n → SocketAddr)
    (labels : List (Label n Rtc)) :
    (∀ s, Visits (Server.step ext) (Server.new localAddrs) labels s → s.main = .ready →
      ∀ action, s.popAction = some action →
        ∃ res, action = .httpResponse res ∧ res.reqId ∈ s.reqs ∧
          Server.handleAction s.reqs action = .ok (s.reqs.erase res.reqId)) ∧
      (Server.answered ext (Server.new localAddrs) labels).Nodup ∧
      (0 < n → ∀ s, Visits (Server.step ext) (Server.new localAddrs) labels s →
        s.main ≠ .panicked) := by
  have hnew : (Server.new localAddrs : Server n Rtc).Matched := Server.matched_new localAddrs
  refine ⟨?_, (hnew.answered_nodup labels).1, ?_⟩
  · rintro s ⟨pre, -, hrun⟩ hready action hpop
    have hmatched : s.Matched :=
      runLabels_preserves (fun _ _ _ h hs => h.step hs) hrun hnew
    obtain ⟨res, hres, rfl⟩ := Option.map_eq_some_iff.mp hpop
    obtain ⟨rest, hcons⟩ := List.head?_eq_some_iff.mp hres
    have hmem := (hmatched.popped hready hcons).1
    exact ⟨res, rfl, hmem, if_pos hmem⟩
  · rintro hn s ⟨pre, -, hrun⟩
    have hinv : s.Matched ∧ s.main ≠ .panicked := by
      refine runLabels_preserves (I := fun s => s.Matched ∧ s.main ≠ .panicked) ?_ hrun
        ⟨hnew, by simp [Server.new]⟩
      rintro t l t' ⟨h, hrunning⟩ hs
      exact ⟨h.step hs, (h.main_step hs).2.2 hn hrunning⟩
    exact hinv.2

end MediaServer
