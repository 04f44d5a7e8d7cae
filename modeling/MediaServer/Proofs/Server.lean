/-
What one step of the server can do.

For each label one lemma says when its step can be taken and which server it leads
to; nothing after this file opens the steps themselves.  A worker's turn is the only
step with more to it: `take` moves one queue, the turn is the worker's own, and a
turn that panics leaves a thread whose ends of the queues are gone.
-/
import MediaServer.Lib.Trace
import MediaServer.Proofs.Effects
import MediaServer.Server

namespace MediaServer

open Lib

variable {Rtc : Type} {n : Nat} {ext : Extern Rtc}

/-! ### Writing one slot -/

namespace Server

section

variable (w : Fin n) (slot : WorkerSlot Rtc) (s : Server n Rtc)

@[simp] theorem setSlot_slots (v : Fin n) :
    (s.setSlot w slot).slots v = if v = w then slot else s.slots v := rfl

@[simp] theorem setSlot_setSlot (slot' : WorkerSlot Rtc) :
    (s.setSlot w slot).setSlot w slot' = s.setSlot w slot' := by
  simp only [setSlot, Server.mk.injEq, and_true]
  funext v
  split <;> rfl

@[simp] theorem setSlot_bus : (s.setSlot w slot).bus = s.bus := rfl

@[simp] theorem setSlot_lock : (s.setSlot w slot).lock = s.lock := rfl

@[simp] theorem setSlot_responses : (s.setSlot w slot).responses = s.responses := rfl

@[simp] theorem setSlot_count : (s.setSlot w slot).count = s.count := rfl

@[simp] theorem setSlot_main : (s.setSlot w slot).main = s.main := rfl

@[simp] theorem setSlot_reqId : (s.setSlot w slot).reqId = s.reqId := rfl

@[simp] theorem setSlot_reqs : (s.setSlot w slot).reqs = s.reqs := rfl

variable {w slot s}

/-- What holds of every slot, and of the one written, holds of every slot after. -/
theorem forall_setSlot {P : Fin n → WorkerSlot Rtc → Prop} (hslot : P w slot)
    (h : ∀ v, P v (s.slots v)) (v : Fin n) : P v ((s.setSlot w slot).slots v) := by
  rw [setSlot_slots]
  split
  · rename_i hv
    exact hv ▸ hslot
  · exact h v

end

end Server

/-! ### What a turn takes -/

/-- What `take` leaves of a slot: one item less in one queue, and perhaps the next phase. -/
structure WorkerSlot.Taken (bus : List BusEvent) (op : Op Rtc) (slot slot' : WorkerSlot Rtc) :
    Prop where
  worker : slot'.worker = slot.worker
  outgoing : slot'.outgoing = slot.outgoing
  queued : slot'.queued = slot.queued
  reader : match op with
    | .busEvent ev _ => ∃ pos, slot.reader = some pos ∧ bus[pos]? = some ev ∧
        slot'.reader = some (pos + 1)
    | _ => slot'.reader = slot.reader
  requests : match op with
    | .request arrival => ∃ req, arrival.event = .httpRequest req ∧
        slot.requests = req :: slot'.requests
    | _ => slot'.requests = slot.requests
  running : slot.phase ≠ .panicked ∧ slot'.phase ≠ .panicked
  started : slot.phase ≠ .starting ∧ slot'.phase ≠ .starting

theorem WorkerSlot.take_some {bus : List BusEvent} {op : Op Rtc} {slot slot' : WorkerSlot Rtc}
    (h : slot.take bus op = some slot') : Taken bus op slot slot' := by
  unfold take at h
  split at h
  · rename_i ev now hphase
    split at h
    · rename_i pos hpos
      split at h
      · rename_i hev
        cases h
        exact ⟨rfl, rfl, rfl, ⟨pos, hpos, hev, rfl⟩, rfl, by simp [hphase], by simp [hphase]⟩
      · cases h
    · cases h
  · rename_i arrival hphase
    split at h
    · rename_i req rest hreq
      split at h
      · rename_i hev
        cases h
        exact ⟨rfl, rfl, rfl, rfl, ⟨req, hev, hreq⟩, by simp [hphase], by simp [hphase]⟩
      · cases h
    · cases h
  · rename_i order now hphase
    split at h <;> cases h
    exact ⟨rfl, rfl, rfl, rfl, rfl, by simp [hphase], by simp [hphase]⟩
  · rename_i taskId todo now taskId' now' hphase
    split at h <;> cases h
    exact ⟨rfl, rfl, rfl, rfl, rfl, by simp [hphase], by simp [hphase]⟩
  · rename_i hphase
    cases h
    exact ⟨rfl, rfl, rfl, rfl, rfl, by simp [hphase], by simp [hphase]⟩
  · rename_i d hphase
    cases h
    exact ⟨rfl, rfl, rfl, rfl, rfl, by simp [hphase], by simp [hphase]⟩
  · cases h

/-! ### Every step -/

namespace Server

variable {s s' : Server n Rtc} {w : Fin n}

theorem arrive_some {req : HttpRequest} (h : s.arrive req = some s') :
    s.main = .ready ∧ s' = s.input { req with reqId := s.reqId } := by
  unfold arrive at h
  split at h <;> cases h
  exact ⟨‹_›, rfl⟩

theorem insert_some (h : s.insert = some s') :
    s.main = .handing ∧
      s' = { s with main := .ready, reqs := Insert.insert s.reqId s.reqs, reqId := s.reqId + 1 } := by
  unfold insert at h
  split at h <;> cases h
  exact ⟨‹_›, rfl⟩

theorem respond_some (h : s.respond = some s') :
    ∃ res rest, s.main = .ready ∧ s.responses = res :: rest ∧
      ((res.reqId ∈ s.reqs ∧ s' = { s with responses := rest, reqs := s.reqs.erase res.reqId }) ∨
        (res.reqId ∉ s.reqs ∧ s' = { s with responses := rest, main := .panicked })) := by
  unfold respond at h
  split at h
  · rename_i res rest hmain hres
    refine ⟨res, rest, hmain, hres, ?_⟩
    split at h <;> cases h
    · exact .inl ⟨‹_›, rfl⟩
    · exact .inr ⟨‹_›, rfl⟩
  · cases h

theorem spawn_some (h : s.spawn w = some s') :
    (s.slots w).phase = .starting ∧ s.lock = none ∧
      s' = s.setSlot w { s.slots w with phase := .busRecv, reader := some s.bus.length } := by
  unfold spawn at h
  split at h <;> cases h
  rename_i hc
  exact ⟨hc.1, hc.2, rfl⟩

theorem turn_some {op : Op Rtc} (h : s.turn ext w op = some s') :
    (s.slots w).outgoing = [] ∧ ∃ slot, WorkerSlot.Taken s.bus op (s.slots w) slot ∧
      ((∃ p, slot.worker.exec ext op = .error p ∧ s' = s.setSlot w slot.panic) ∨
        ∃ worker actions, slot.worker.exec ext op = .ok (worker, actions) ∧
          s' = s.setSlot w { slot with worker, outgoing := actions.filter Action.isShared }) := by
  unfold turn at h
  split at h
  · rename_i hidle
    obtain ⟨slot, htake, heq⟩ := Option.map_eq_some_iff.mp h
    refine ⟨List.isEmpty_iff.mp hidle, slot, WorkerSlot.take_some htake, ?_⟩
    split at heq
    · rename_i p hexec
      exact .inl ⟨p, hexec, heq.symm⟩
    · rename_i worker actions hexec
      exact .inr ⟨worker, actions, hexec, heq.symm⟩
  · cases h

theorem nextPhase_some (h : s.nextPhase w = some s') :
    (s.slots w).outgoing = [] ∧ ∃ phase, (s.slots w).phase ≠ .panicked ∧ phase ≠ .panicked ∧
      phase ≠ .starting ∧ s' = s.setSlot w { s.slots w with phase } := by
  unfold nextPhase at h
  split at h
  · rename_i hidle
    obtain ⟨phase, hphase, heq⟩ := Option.map_eq_some_iff.mp h
    have hnew : phase ≠ .panicked ∧ phase ≠ .starting := by
      unfold WorkerSlot.nextPhase at hphase
      split at hphase
      · split at hphase <;> cases hphase
        exact ⟨by simp, by simp⟩
      · split at hphase <;> cases hphase
        exact ⟨by simp, by simp⟩
      · cases hphase
        exact ⟨by simp, by simp⟩
      · cases hphase
        exact ⟨by simp, by simp⟩
      · cases hphase
    refine ⟨List.isEmpty_iff.mp hidle, phase, fun hp => ?_, hnew.1, hnew.2, heq.symm⟩
    simp [WorkerSlot.nextPhase, hp] at hphase
  · cases h

theorem startPop_some {order : List Nat} {now : Instant} (h : s.startPop w order now = some s') :
    (s.slots w).outgoing = [] ∧ (s.slots w).phase = .ticked ∧
      s' = s.setSlot w { s.slots w with phase := .popTasks order now } := by
  unfold startPop at h
  split at h <;> cases h
  rename_i hc
  exact ⟨List.isEmpty_iff.mp hc.1, hc.2.1, rfl⟩

/-- The answers waiting for the main loop after one more is sent, if there is room for it. -/
def pushed (responses : List HttpResponse) (res : HttpResponse) : List HttpResponse :=
  if responses.length < channelCapacity then responses ++ [res] else responses

theorem reply_some (h : s.reply w = some s') :
    ∃ res rest, ((s.slots w).outgoing = .trySend res :: rest ∨
        (s.slots w).outgoing = .send res :: rest ∧ s.responses.length < channelCapacity) ∧
      s' = { s.setSlot w { s.slots w with outgoing := rest } with
        responses := pushed s.responses res } := by
  unfold reply at h
  split at h
  · rename_i res rest hout
    refine ⟨res, rest, .inl hout, ?_⟩
    unfold pushed
    split at h <;> cases h
    · rw [if_pos ‹_›]
    · rw [if_neg ‹_›]
      rfl
  · rename_i res rest hout
    split at h <;> cases h
    rename_i hroom
    exact ⟨res, rest, .inr ⟨hout, hroom⟩, by rw [pushed, if_pos hroom]⟩
  · cases h

theorem callLock_some (h : s.callLock w = some s') :
    (∃ taskId ev rest, (s.slots w).outgoing = .broadcast taskId ev :: rest) ∧
      (s.slots w).queued = false ∧ s.lock ≠ some w ∧
      s' = s.setSlot w { s.slots w with queued := true } := by
  unfold callLock at h
  split at h
  · rename_i taskId ev rest hout
    split at h <;> cases h
    rename_i hc
    rw [not_or, Bool.not_eq_true] at hc
    exact ⟨⟨taskId, ev, rest, hout⟩, hc.1, hc.2, rfl⟩
  · cases h

theorem acquire_some (h : s.acquire w = some s') :
    (s.slots w).queued = true ∧ s.lock = none ∧
      s' = { s.setSlot w { s.slots w with queued := false } with lock := some w } := by
  unfold acquire at h
  split at h <;> cases h
  rename_i hc
  exact ⟨hc.1, hc.2, rfl⟩

theorem broadcast_some (h : s.broadcast w = some s') :
    ∃ taskId ev rest, (s.slots w).outgoing = .broadcast taskId ev :: rest ∧ s.lock = some w ∧
      ¬ s.blocked ∧
      s' = { s.setSlot w { s.slots w with outgoing := rest } with
        bus := s.bus ++ [ev]
        lock := none } := by
  unfold broadcast at h
  split at h
  · rename_i taskId ev rest hout
    split at h <;> cases h
    rename_i hc
    exact ⟨taskId, ev, rest, hout, hc.1, hc.2, rfl⟩
  · cases h

/-- A request that is handed to a worker only lengthens that worker's queue. -/
theorem input_slots (req : HttpRequest) (s : Server n Rtc) (v : Fin n) :
    (s.input req).slots v = s.slots v ∨
      (v.val = s.count % n ∧ (s.slots v).phase ≠ .panicked ∧
        (s.slots v).requests.length < channelCapacity ∧
        (s.input req).slots v
          = { s.slots v with requests := (s.slots v).requests ++ [req] }) := by
  unfold input
  split
  · simp only
    split
    · rename_i hroom
      simp only [setSlot_slots]
      split
      · rename_i hv
        subst hv
        exact .inr ⟨rfl, hroom.1, hroom.2, rfl⟩
      · exact .inl rfl
    · exact .inl rfl
  · exact .inl rfl

/-- Where the queue has room, the request is in it. -/
theorem input_of_room {req : HttpRequest} (hw : w.val = s.count % n)
    (halive : (s.slots w).phase ≠ .panicked)
    (hroom : (s.slots w).requests.length < channelCapacity) :
    s.input req = { s.setSlot w { s.slots w with
        requests := (s.slots w).requests ++ [req] } with
      count := s.count + 1
      main := .handing } := by
  have hn : 0 < n := Nat.lt_of_le_of_lt (Nat.zero_le _) w.isLt
  have hslot : (⟨s.count % n, Nat.mod_lt _ hn⟩ : Fin n) = w := Fin.ext hw.symm
  unfold input
  rw [dif_pos hn]
  simp only [hslot]
  rw [if_pos ⟨halive, hroom⟩]

@[simp] theorem input_bus (req : HttpRequest) (s : Server n Rtc) : (s.input req).bus = s.bus := by
  unfold input
  split
  · simp only
    split <;> rfl
  · rfl

@[simp] theorem input_lock (req : HttpRequest) (s : Server n Rtc) :
    (s.input req).lock = s.lock := by
  unfold input
  split
  · simp only
    split <;> rfl
  · rfl

end Server

end MediaServer
