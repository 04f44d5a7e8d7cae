/-
Which requests are lost.

Three things can happen to a request so that it is nowhere any more: the queue of its
worker is full, or that worker is gone, when it is handed over; the worker panics while
the request waits, or over the request itself; and the channel back is full when its
answer is sent with `try_send`.  Nothing else loses a request, and the main loop learns of
none of them: the entry stays in its map, and no answer to it ever comes.
-/
import MediaServer.Proofs.Fifo

namespace MediaServer

open Lib

variable {Rtc : Type} {n : Nat} {ext : Extern Rtc}

namespace Server

variable {s s' : Server n Rtc} {l : Label n Rtc}

/-- The step loses the request of this number. -/
def Loses (ext : Extern Rtc) (id : Nat) (s : Server n Rtc) : Label n Rtc → Prop
  | .arrive _ =>
      id = s.reqId ∧ ¬ ∃ w : Fin n, w.val = s.count % n ∧ (s.slots w).phase ≠ .panicked ∧
        (s.slots w).requests.length < channelCapacity
  | .turn w op => (∃ p, (s.slots w).worker.exec ext op = .error p) ∧ id ∈ waiting w s
  | .reply w =>
      ∃ res, (s.slots w).outgoing.head? = some (.trySend res) ∧ res.reqId = id ∧
        channelCapacity ≤ s.responses.length
  | .insert | .respond | .spawn _ | .nextPhase _ | .startPop _ _ _ | .lock _ | .acquire _
  | .broadcast _ => False

/-- The main loop waits on the request, or is about to. -/
def Awaited (s : Server n Rtc) (id : Nat) : Prop :=
  id ∈ s.reqs ∨ (s.main = .handing ∧ id = s.reqId)

instance (s : Server n Rtc) (id : Nat) : Decidable (s.Awaited id) :=
  inferInstanceAs (Decidable (_ ∨ _))

/-- The number a step brings in. -/
def arriving (s : Server n Rtc) : Label n Rtc → List Nat
  | .arrive _ => [s.reqId]
  | _ => []

/-- One for a proposition that holds, and nought for one that does not. -/
noncomputable def indicator (p : Prop) : Nat := by
  classical exact if p then 1 else 0

theorem indicator_true {p : Prop} (h : p) : indicator p = 1 := by
  classical exact if_pos h

theorem indicator_false {p : Prop} (h : ¬ p) : indicator p = 0 := by
  classical exact if_neg h

theorem indicator_le_one (p : Prop) : indicator p ≤ 1 := by
  by_cases h : p
  · exact (indicator_true h).le
  · exact (indicator_false h).le.trans (Nat.zero_le 1)

theorem indicator_congr {p q : Prop} (h : p ↔ q) : indicator p = indicator q :=
  congrArg indicator (propext h)

/-! ### What a step does to the count of places -/

/-- A number is in one place at most, so it is once in a list or not in it. -/
theorem count_eq_indicator {ids : List Nat} {id : Nat} (h : ids.count id ≤ 1) :
    ids.count id = indicator (id ∈ ids) := by
  by_cases hid : id ∈ ids
  · rw [indicator_true hid]
    exact le_antisymm h (List.count_pos_iff.mpr hid)
  · rw [indicator_false hid]
    exact List.count_eq_zero.mpr hid

/-- A request is put where there is room for it, and into no other place. -/
theorem balance_arrive (ext : Extern Rtc) {req : HttpRequest} (hs : s.arrive req = some s')
    (id : Nat) :
    s'.whereabouts id + indicator (s.Loses ext id (.arrive req))
      = s.whereabouts id + ([s.reqId] : List Nat).count id := by
  obtain ⟨-, rfl⟩ := arrive_some hs
  by_cases hroom : ∃ w : Fin n, w.val = s.count % n ∧ (s.slots w).phase ≠ .panicked ∧
      (s.slots w).requests.length < channelCapacity
  · have hkept : ¬ s.Loses ext id (.arrive req) := fun hloses => hloses.2 hroom
    obtain ⟨w, hw, halive, hlen⟩ := hroom
    rw [indicator_false hkept, input_of_room hw halive hlen]
    have hsum := whereabouts_setSlot w { s.slots w with
      requests := (s.slots w).requests ++ [{ req with reqId := s.reqId }] } s id
    simp only [WorkerSlot.holding, List.map_append, List.map_cons, List.map_nil,
      List.count_append] at hsum
    show (s.setSlot w _).whereabouts id + 0 = _
    omega
  · have hsame : (s.input { req with reqId := s.reqId }).whereabouts id = s.whereabouts id := by
      have hslots : ∀ w, (s.input { req with reqId := s.reqId }).slots w = s.slots w := by
        intro w
        rcases input_slots { req with reqId := s.reqId } s w with hsame | ⟨hw, halive, hlen, -⟩
        · exact hsame
        · exact absurd ⟨w, hw, halive, hlen⟩ hroom
      simp only [whereabouts, hslots, input_responses]
    rw [hsame, List.count_singleton]
    by_cases hid : id = s.reqId
    · rw [indicator_true ⟨hid, hroom⟩]
      simp [hid]
    · rw [indicator_false fun hloses => hid hloses.1]
      simp [Ne.symm hid]

/-- A worker that panics has lost what waited for it, the request it was at included. -/
theorem Matched.balance_turn (h : s.Matched) {w : Fin n} {op : Op Rtc}
    (hs : s.turn ext w op = some s') (id : Nat) :
    s'.whereabouts id + indicator (s.Loses ext id (.turn w op)) = s.whereabouts id := by
  obtain ⟨hidle, slot, htaken, hcase⟩ := turn_some hs
  rw [htaken.worker] at hcase
  have hheld : (s.slots w).holding = waiting w s := by
    rw [WorkerSlot.holding, hidle]
    exact List.append_nil _
  rcases hcase with ⟨p, hpanic, rfl⟩ | ⟨worker, actions, hrun, rfl⟩
  · have hsum := whereabouts_setSlot w slot.panic s id
    have hnone : slot.panic.holding = [] := by
      simp [WorkerSlot.holding, WorkerSlot.panic, htaken.outgoing, hidle]
    have honce := h.once id
    rw [hnone, List.count_nil, hheld] at hsum
    have hcount : (waiting w s).count id = indicator (s.Loses ext id (.turn w op)) := by
      rw [count_eq_indicator (by omega)]
      refine indicator_congr ?_
      simp [Loses, hpanic]
    omega
  · have hsum := whereabouts_setSlot w
      { slot with worker, outgoing := actions.filter Action.isShared } s id
    rw [(htaken.holding hidle (h.settled w) hrun).count_eq id] at hsum
    rw [indicator_false fun hloses => by simp [Loses, hrun] at hloses]
    omega

/-- An answer that finds the channel full is lost, if it is sent with `try_send`. -/
theorem balance_reply (ext : Extern Rtc) {w : Fin n} (hs : s.reply w = some s') (id : Nat) :
    s'.whereabouts id + indicator (s.Loses ext id (.reply w)) = s.whereabouts id := by
  obtain ⟨res, rest, hout, rfl⟩ := reply_some hs
  have hresponse : (s.slots w).holding.count id
      = ({ s.slots w with outgoing := rest } : WorkerSlot Rtc).holding.count id
        + ([res.reqId] : List Nat).count id := by
    have hcons : (s.slots w).outgoing.filterMap Action.response
        = res :: rest.filterMap Action.response := by
      rcases hout with hout | ⟨hout, -⟩
      · rw [hout]
        rfl
      · rw [hout]
        rfl
    simp only [WorkerSlot.holding, hcons, List.map_cons, List.count_append, List.count_cons,
      List.count_nil]
    omega
  have hsum := whereabouts_setSlot w { s.slots w with outgoing := rest } s id
  have hloses : s.Loses ext id (.reply w) ↔
      res.reqId = id ∧ ¬ s.responses.length < channelCapacity := by
    rcases hout with hout | ⟨hout, hroom⟩
    · simp [Loses, hout]
    · simp [Loses, hout, hroom]
  have hchannel : ({ s.setSlot w { s.slots w with outgoing := rest } with
      responses := pushed s.responses res } : Server n Rtc).whereabouts id
        + indicator (s.Loses ext id (.reply w))
      = (s.setSlot w { s.slots w with outgoing := rest }).whereabouts id
        + ([res.reqId] : List Nat).count id := by
    rw [indicator_congr hloses]
    unfold whereabouts pushed
    by_cases hroom : s.responses.length < channelCapacity
    · rw [if_pos hroom, indicator_false fun hlost => hlost.2 hroom, List.map_append,
        List.count_append]
      exact (Nat.add_assoc _ _ _).symm
    · rw [if_neg hroom, List.count_singleton]
      by_cases hid : res.reqId = id
      · rw [indicator_true ⟨hid, hroom⟩]
        simp [hid]
      · rw [indicator_false fun hlost => hid hlost.1]
        simp [hid]
  omega

/-- **What goes in comes out or is lost**: the balance of every step. -/
theorem Matched.balance (h : s.Matched) (hs : s.step ext l = some s') (id : Nat) :
    s'.whereabouts id + (Server.popped s l).count id + indicator (s.Loses ext id l)
      = s.whereabouts id + (arriving s l).count id := by
  have hstill : ∀ (w : Fin n) (slot : WorkerSlot Rtc), slot.holding = (s.slots w).holding →
      (s.setSlot w slot).whereabouts id = s.whereabouts id := by
    intro w slot hholding
    have hsum := whereabouts_setSlot w slot s id
    rw [hholding] at hsum
    omega
  have hnone : indicator False = 0 := indicator_false not_false
  cases l with
  | arrive req =>
      have hbalance := balance_arrive ext hs id
      simpa [Server.popped, arriving] using hbalance
  | insert =>
      obtain ⟨-, rfl⟩ := insert_some hs
      exact hnone ▸ rfl
  | respond =>
      obtain ⟨res, rest, -, hres, -, rfl⟩ := h.respond_some hs
      have hpopped := whereabouts_popped hres id
      have hloses : indicator (s.Loses ext id .respond) = 0 := hnone
      rw [hloses]
      simp only [Server.popped, hres, List.head?_cons, Option.map_some, Option.toList_some,
        arriving, List.count_nil, List.count_singleton, beq_iff_eq]
      exact hpopped.symm
  | spawn w =>
      obtain ⟨-, -, rfl⟩ := spawn_some hs
      have hsame := hstill w
        { s.slots w with phase := .busRecv, reader := some s.bus.length } rfl
      rw [hsame]
      exact hnone ▸ rfl
  | turn w op =>
      have hbalance := h.balance_turn hs id
      simpa [Server.popped, arriving] using hbalance
  | nextPhase w =>
      obtain ⟨-, phase, -, -, -, rfl⟩ := nextPhase_some hs
      rw [hstill w { s.slots w with phase } rfl]
      exact hnone ▸ rfl
  | startPop w order now =>
      obtain ⟨-, -, rfl⟩ := startPop_some hs
      rw [hstill w { s.slots w with phase := .popTasks order now } rfl]
      exact hnone ▸ rfl
  | reply w =>
      have hbalance := balance_reply ext hs id
      simpa [Server.popped, arriving] using hbalance
  | lock w =>
      obtain ⟨-, -, -, rfl⟩ := callLock_some hs
      rw [hstill w { s.slots w with queued := true } rfl]
      exact hnone ▸ rfl
  | acquire w =>
      obtain ⟨-, -, rfl⟩ := acquire_some hs
      have hsame := hstill w { s.slots w with queued := false } rfl
      show (s.setSlot w _).whereabouts id + _ + _ = _
      rw [hsame]
      exact hnone ▸ rfl
  | broadcast w =>
      obtain ⟨taskId, ev, rest, hout, -, -, rfl⟩ := broadcast_some hs
      have hsame := hstill w { s.slots w with outgoing := rest } (by
        rw [WorkerSlot.holding, WorkerSlot.holding, hout, List.filterMap_cons_none rfl])
      show (s.setSlot w _).whereabouts id + _ + _ = _
      rw [hsame]
      exact hnone ▸ rfl

/-! ### What the main loop waits on -/

/-- It waits on what comes in, until it is answered. -/
theorem Matched.awaits (h : s.Matched) (hn : 0 < n) (hs : s.step ext l = some s') (id : Nat) :
    indicator (s'.Awaited id) + (Server.popped s l).count id
      = indicator (s.Awaited id) + (arriving s l).count id := by
  have hworker : l.isMain = false → Server.popped s l = [] → arriving s l = [] →
      indicator (s'.Awaited id) + (Server.popped s l).count id
        = indicator (s.Awaited id) + (arriving s l).count id := by
    intro hmain hpopped harriving
    obtain ⟨hreqs, hphase, hreqId, -⟩ := step_worker hmain hs
    rw [hpopped, harriving]
    unfold Awaited
    rw [hreqs, hphase, hreqId]
  cases l with
  | arrive req =>
      obtain ⟨hready, rfl⟩ := arrive_some hs
      have hhanding := (input_main { req with reqId := s.reqId } s).resolve_right hn.ne'
      have hafter : (s.input { req with reqId := s.reqId }).Awaited id ↔
          id ∈ s.reqs ∨ id = s.reqId := by
        simp [Awaited, hhanding]
      have hbefore : s.Awaited id ↔ id ∈ s.reqs := by simp [Awaited, hready]
      have hnew : s.reqId ∉ s.reqs := fun hmem => Nat.lt_irrefl _ (h.below _ hmem)
      rw [indicator_congr hafter, indicator_congr hbefore]
      simp only [Server.popped, arriving, List.count_nil, List.count_singleton, beq_iff_eq]
      by_cases hid : id = s.reqId
      · subst hid
        rw [indicator_true (.inr rfl), indicator_false hnew, if_pos rfl]
      · rw [if_neg (Ne.symm hid)]
        simp [hid]
  | insert =>
      obtain ⟨hhanding, rfl⟩ := insert_some hs
      refine congrArg (· + 0) (indicator_congr ?_)
      simp only [Awaited, Finset.mem_insert, reduceCtorEq, false_and, or_false, hhanding, true_and]
      exact or_comm
  | respond =>
      obtain ⟨res, rest, hready, hres, hmem, rfl⟩ := h.respond_some hs
      have hafter : ({ s with responses := rest, reqs := s.reqs.erase res.reqId } :
          Server n Rtc).Awaited id ↔ id ≠ res.reqId ∧ id ∈ s.reqs := by
        simp [Awaited, hready]
      have hbefore : s.Awaited id ↔ id ∈ s.reqs := by simp [Awaited, hready]
      rw [indicator_congr hafter, indicator_congr hbefore]
      simp only [Server.popped, hres, List.head?_cons, Option.map_some, Option.toList_some,
        arriving, List.count_nil, List.count_singleton, beq_iff_eq]
      by_cases hid : id = res.reqId
      · subst hid
        rw [indicator_false fun hand => hand.1 rfl, indicator_true hmem, if_pos rfl]
      · rw [if_neg (Ne.symm hid)]
        simp [hid]
  | spawn _ => exact hworker rfl rfl rfl
  | turn _ _ => exact hworker rfl rfl rfl
  | nextPhase _ => exact hworker rfl rfl rfl
  | startPop _ _ _ => exact hworker rfl rfl rfl
  | reply _ => exact hworker rfl rfl rfl
  | lock _ => exact hworker rfl rfl rfl
  | acquire _ => exact hworker rfl rfl rfl
  | broadcast _ => exact hworker rfl rfl rfl

/-! ### Runs -/

variable {localAddrs : Fin n → SocketAddr} {labels : List (Label n Rtc)}

/-- Some step of the run has lost the request. -/
def LostIn (ext : Extern Rtc) (localAddrs : Fin n → SocketAddr) (labels : List (Label n Rtc))
    (id : Nat) : Prop :=
  Takes (step ext) (Loses ext id) (Server.new localAddrs) labels

/-- The account of a run: what is waited on is somewhere, or was lost. -/
theorem account_run (hn : 0 < n)
    (hrun : runLabels (step ext) (Server.new localAddrs) labels = some s) :
    s.Matched ∧ ∀ id, s.whereabouts id + indicator (LostIn ext localAddrs labels id)
      = indicator (s.Awaited id) := by
  refine runLabels_induct (P := fun labels s => s.Matched ∧
    ∀ id, s.whereabouts id + indicator (LostIn ext localAddrs labels id)
      = indicator (s.Awaited id)) ⟨matched_new localAddrs, fun id => ?_⟩ ?_ hrun
  · have hnowhere : (Server.new localAddrs : Server n Rtc).whereabouts id = 0 := by
      simp [whereabouts, Server.new, WorkerSlot.new, WorkerSlot.holding]
    have hkept : ¬ LostIn ext localAddrs [] id := not_takes_nil
    have hidle : ¬ (Server.new localAddrs : Server n Rtc).Awaited id := by
      simp [Awaited, Server.new]
    rw [hnowhere, indicator_false hkept, indicator_false hidle]
  · rintro labels s l s' hrun ⟨h, haccount⟩ hs
    refine ⟨h.step hs, fun id => ?_⟩
    have hbefore := haccount id
    have hbalance := h.balance hs id
    have hawaits := h.awaits hn hs id
    have hlost : LostIn ext localAddrs (labels ++ [l]) id ↔
        LostIn ext localAddrs labels id ∨ s.Loses ext id l := takes_concat hrun hs
    have hone := indicator_le_one (s'.Awaited id)
    rw [indicator_congr hlost]
    -- A request that is lost is nowhere, so it is not lost again.
    by_cases hold : LostIn ext localAddrs labels id
    · rw [indicator_true hold] at hbefore
      rw [indicator_true (.inl hold)]
      omega
    · rw [indicator_false hold] at hbefore
      by_cases hnew : s.Loses ext id l
      · rw [indicator_true hnew] at hbalance
        rw [indicator_true (.inr hnew)]
        omega
      · rw [indicator_false hnew] at hbalance
        rw [indicator_false (not_or.mpr ⟨hold, hnew⟩)]
        omega

/-- What is answered was in the channel. -/
theorem Matched.answered_pos (h : s.Matched) (hs : s.step ext l = some s') {id : Nat}
    (hid : id ∈ Server.popped s l) : 0 < s.whereabouts id := by
  cases l with
  | respond =>
      obtain ⟨res, rest, -, hres, -, -⟩ := h.respond_some hs
      have hpopped := whereabouts_popped hres id
      have heq : res.reqId = id := by simpa [Server.popped, hres, eq_comm] using hid
      rw [if_pos heq] at hpopped
      omega
  | _ => cases hid

/--
**A request is lost in three ways and in no other, and then it is lost for good.**  Any
number of workers, one at least, any requests, any interleaving.  A request the main loop
waits on is in no place any more, neither in a queue nor in a worker's hands nor in the
channel, if and only if some step of the run lost it: its worker's queue was full or its
worker gone, or its worker panicked with the request in its queue, or the channel back was
full when the answer was sent with `try_send`.  However the run goes on from there, the
main loop goes on waiting on it and never answers it.
-/
theorem requests_lost_iff (hn : 0 < n)
    (hrun : runLabels (step ext) (Server.new localAddrs) labels = some s) {id : Nat}
    (hid : id ∈ s.reqs) :
    (s.whereabouts id = 0 ↔ LostIn ext localAddrs labels id) ∧
      (s.whereabouts id = 0 → ∀ later s', runLabels (step ext) s later = some s' →
        id ∈ s'.reqs ∧ id ∉ answered ext s later) := by
  obtain ⟨-, haccount⟩ := account_run hn hrun
  have hwaited : s.whereabouts id + indicator (LostIn ext localAddrs labels id) = 1 :=
    (haccount id).trans (indicator_true (.inl hid))
  have hiff : s.whereabouts id = 0 ↔ LostIn ext localAddrs labels id := by
    by_cases hlost : LostIn ext localAddrs labels id
    · rw [indicator_true hlost] at hwaited
      exact iff_of_true (by omega) hlost
    · rw [indicator_false hlost] at hwaited
      exact iff_of_false (by omega) hlost
  refine ⟨hiff, fun hnowhere later s' hlater => ?_⟩
  refine runLabels_induct (P := fun later s' => id ∈ s'.reqs ∧ id ∉ answered ext s later)
    ⟨hid, by simp [answered]⟩ ?_ hlater
  rintro later t l t' htrun ⟨hmem, hnot⟩ ht
  have hwhole : runLabels (step ext) (Server.new localAddrs) (labels ++ later) = some t := by
    rw [runLabels_append, hrun]
    exact htrun
  obtain ⟨hmatched, htaccount⟩ := account_run hn hwhole
  have hlost : LostIn ext localAddrs (labels ++ later) id := by
    obtain ⟨pre, a, u, v, hpre, hrest⟩ := hiff.mp hnowhere
    exact ⟨pre, a, u, v, hpre.trans (List.prefix_append _ _), hrest⟩
  have hgone : t.whereabouts id = 0 := by
    have hone := (htaccount id).trans (indicator_true (.inl hmem))
    rw [indicator_true hlost] at hone
    omega
  have hunanswered : id ∉ Server.popped t l := fun hpopped => by
    have hpos := hmatched.answered_pos ht hpopped
    omega
  refine ⟨?_, ?_⟩
  · have hawaits := hmatched.awaits hn ht id
    rw [List.count_eq_zero.mpr hunanswered,
      indicator_true (show t.Awaited id from .inl hmem)] at hawaits
    have hstill : t'.Awaited id := by
      by_contra hnone
      rw [indicator_false hnone] at hawaits
      omega
    have hbelow : id < t'.reqId :=
      (hmatched.below id hmem).trans_le (hmatched.main_step ht).2.1
    exact hstill.resolve_right fun hhanding => hbelow.ne hhanding.2
  · rw [answered_concat htrun ht, List.mem_append, not_or]
    exact ⟨hnot, hunanswered⟩

end Server

/-- The request the burst loses is one of those a full queue lost, and is never answered. -/
theorem Server.requests_lost_iff_burst :
    ∃ s, runLabels (Server.step Script.engine) (Server.new fun _ => Script.addr)
        (Script.burst 101) = some s ∧
      LostIn Script.engine (fun _ => Script.addr) (Script.burst 101) 100 ∧
      ∀ later s', runLabels (Server.step Script.engine) s later = some s' →
        100 ∈ s'.reqs ∧ 100 ∉ answered Script.engine s later := by
  have hend : (runLabels (Server.step Script.engine) (Server.new fun _ => Script.addr)
      (Script.burst 101)).any (fun s => 100 ∈ s.reqs ∧ s.whereabouts 100 = 0) = true := by
    decide +kernel
  obtain ⟨s, hs, hlost⟩ := Option.any_eq_true _ _ |>.mp hend
  rw [decide_eq_true_eq] at hlost
  obtain ⟨hiff, hforever⟩ := requests_lost_iff Nat.one_pos hs hlost.1
  exact ⟨s, hs, hiff.mp hlost.2, hforever hlost.2⟩

end MediaServer
