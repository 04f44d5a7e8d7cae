/-
Which steps of the server may change places.

Each thread works on what is its own, and only a few steps touch anything that another
thread sees: a request that is handed over, an answer, an event, the lock of the bus.  A
`Cell` is a part of the server that some step writes without writing the rest; `written` and
`needed` say which ones each step writes and which it depends on.  Two steps in a row may
change places if neither writes what the other depends on.  So where no thread does
anything that others see, it does not matter how their steps fall between each other.
-/
import MediaServer.Lib.Footprint
import MediaServer.Proofs.Prompt

namespace MediaServer

open Lib

variable {Rtc : Type} {n : Nat} {ext : Extern Rtc}

/-! ### The parts of a server -/

/-- A part of the server that is written on its own. -/
inductive Cell (n : Nat)
  /-- What only the worker's thread knows. -/
  | thread (w : Fin n)
  /-- Whether it still takes requests. -/
  | alive (w : Fin n)
  | queue (w : Fin n)
  | reader (w : Fin n)
  | bus
  | lock
  | responses
  | main

/-- What is in a cell. -/
def Cell.Val (Rtc : Type) : Cell n → Type
  | .thread _ => Phase × Worker Rtc × List Action × Bool
  | .alive _ => Bool
  | .queue _ => List HttpRequest
  | .reader _ => Option Nat
  | .bus => List BusEvent
  | .lock => Option (Fin n)
  | .responses => List HttpResponse
  | .main => Nat × MainPhase × Nat × Finset Nat

/-- The turns that take from what other threads fill. -/
def Op.ofBus : Op Rtc → Bool
  | .busEvent _ _ => true
  | _ => false

def Op.ofQueue : Op Rtc → Bool
  | .request _ => true
  | _ => false

/-- What is a thread's own; the main loop's is `none`. -/
def Cell.owned : Option (Fin n) → Set (Cell n)
  | none => {.main}
  | some w => {.thread w, .alive w, .queue w, .reader w}

/-- The steps in which a thread hands nothing over: all they write is its own. -/
def Label.isLocal : Label n Rtc → Bool
  | .arrive _ | .respond | .reply _ | .acquire _ | .broadcast _ => false
  | .insert | .spawn _ | .turn _ _ | .nextPhase _ | .startPop _ _ _ | .lock _ => true

attribute [ext] WorkerSlot Server

namespace Server

def look (s : Server n Rtc) : ∀ c : Cell n, c.Val Rtc
  | .thread w =>
      ((s.slots w).phase, (s.slots w).worker, (s.slots w).outgoing, (s.slots w).queued)
  | .alive w => decide ((s.slots w).phase ≠ .panicked)
  | .queue w => (s.slots w).requests
  | .reader w => (s.slots w).reader
  | .bus => s.bus
  | .lock => s.lock
  | .responses => s.responses
  | .main => (s.count, s.main, s.reqId, s.reqs)

/-- Whether a turn panics. -/
def Panics (ext : Extern Rtc) (s : Server n Rtc) (w : Fin n) (op : Op Rtc) : Prop :=
  ∃ p, (s.slots w).worker.exec ext op = .error p

/-- What a step writes.  A thread that panics gives up its ends of the queues. -/
def written (ext : Extern Rtc) (s : Server n Rtc) : Label n Rtc → Set (Cell n)
  | .arrive _ => {c | c = .main ∨ ∃ w, w.val = s.count % n ∧ c = .queue w}
  | .insert => {.main}
  | .respond => {.main, .responses}
  | .spawn w => {.thread w, .reader w}
  | .turn w op => {c | c = .thread w ∨ Panics ext s w op ∧ c = .alive w ∨
      (Panics ext s w op ∨ op.ofQueue) ∧ c = .queue w ∨
      (Panics ext s w op ∨ op.ofBus) ∧ c = .reader w}
  | .nextPhase w => {.thread w}
  | .startPop w _ _ => {.thread w}
  | .reply w => {.thread w, .responses}
  | .lock w => {.thread w}
  | .acquire w => {.thread w, .lock}
  | .broadcast w => {.thread w, .bus, .lock}

/-- What a step depends on and leaves as it is. -/
def seen (s : Server n Rtc) : Label n Rtc → Set (Cell n)
  | .arrive _ => {c | ∃ w, w.val = s.count % n ∧ c = .alive w}
  | .spawn _ => {.bus, .lock}
  | .turn _ op => {c | op.ofBus ∧ c = .bus}
  | .nextPhase w => {c | (s.slots w).phase = .busRecv ∧ (c = .bus ∨ c = .reader w) ∨
      (s.slots w).phase = .http ∧ c = .queue w}
  | .lock _ => {.lock}
  | .broadcast _ => {c | ∃ v, c = .reader v}
  | _ => ∅

def needed (ext : Extern Rtc) (s : Server n Rtc) (l : Label n Rtc) : Set (Cell n) :=
  s.written ext l ∪ s.seen l

variable {s s' t : Server n Rtc} {l : Label n Rtc} {w : Fin n}

/-! ### Having the same in a cell -/

theorem look_thread : s.look (.thread w) = t.look (.thread w) ↔
    (s.slots w).phase = (t.slots w).phase ∧ (s.slots w).worker = (t.slots w).worker ∧
      (s.slots w).outgoing = (t.slots w).outgoing ∧ (s.slots w).queued = (t.slots w).queued := by
  change ((s.slots w).phase, (s.slots w).worker, (s.slots w).outgoing, (s.slots w).queued)
    = ((t.slots w).phase, (t.slots w).worker, (t.slots w).outgoing, (t.slots w).queued) ↔ _
  simp only [Prod.mk.injEq]

theorem look_alive : s.look (.alive w) = t.look (.alive w) ↔
    ((s.slots w).phase = .panicked ↔ (t.slots w).phase = .panicked) := by
  change decide ((s.slots w).phase ≠ .panicked) = decide ((t.slots w).phase ≠ .panicked) ↔ _
  rw [decide_eq_decide, not_iff_not]

theorem look_queue :
    s.look (.queue w) = t.look (.queue w) ↔ (s.slots w).requests = (t.slots w).requests := Iff.rfl

theorem look_reader :
    s.look (.reader w) = t.look (.reader w) ↔ (s.slots w).reader = (t.slots w).reader := Iff.rfl

theorem look_bus : s.look .bus = t.look .bus ↔ s.bus = t.bus := Iff.rfl

theorem look_lock : s.look .lock = t.look .lock ↔ s.lock = t.lock := Iff.rfl

theorem look_responses : s.look .responses = t.look .responses ↔ s.responses = t.responses :=
  Iff.rfl

theorem look_main : s.look .main = t.look .main ↔
    s.count = t.count ∧ s.main = t.main ∧ s.reqId = t.reqId ∧ s.reqs = t.reqs := by
  change (s.count, s.main, s.reqId, s.reqs) = (t.count, t.main, t.reqId, t.reqs) ↔ _
  simp only [Prod.mk.injEq]

/-- A server is what is in its cells. -/
theorem look_ext (h : ∀ c, s.look c = t.look c) : s = t := by
  have hslots : s.slots = t.slots := by
    funext w
    obtain ⟨hphase, hworker, houtgoing, hqueued⟩ := look_thread.mp (h (.thread w))
    exact WorkerSlot.ext hphase hworker houtgoing hqueued (look_queue.mp (h (.queue w)))
      (look_reader.mp (h (.reader w)))
  obtain ⟨hcount, hmain, hreqId, hreqs⟩ := look_main.mp (h .main)
  exact Server.ext hslots (h .bus) (h .lock) (h .responses) hcount hmain hreqId hreqs

/-- Writing a slot changes nothing but what it changes there. -/
theorem look_setSlot {slot : WorkerSlot Rtc} {c : Cell n}
    (hthread : c = .thread w → slot.phase = (s.slots w).phase ∧ slot.worker = (s.slots w).worker ∧
      slot.outgoing = (s.slots w).outgoing ∧ slot.queued = (s.slots w).queued)
    (halive : c = .alive w → (slot.phase = .panicked ↔ (s.slots w).phase = .panicked))
    (hqueue : c = .queue w → slot.requests = (s.slots w).requests)
    (hreader : c = .reader w → slot.reader = (s.slots w).reader) :
    (s.setSlot w slot).look c = s.look c := by
  cases c with
  | thread v =>
      by_cases hv : v = w
      · subst hv
        simpa [look_thread] using hthread rfl
      · simp [look_thread, hv]
  | alive v =>
      by_cases hv : v = w
      · subst hv
        simpa [look_alive] using halive rfl
      · simp [look_alive, hv]
  | queue v =>
      by_cases hv : v = w
      · subst hv
        simpa [look_queue] using hqueue rfl
      · simp [look_queue, hv]
  | reader v =>
      by_cases hv : v = w
      · subst hv
        simpa [look_reader] using hreader rfl
      · simp [look_reader, hv]
  | bus => rfl
  | lock => rfl
  | responses => rfl
  | main => rfl

/-! ### Nothing else is written -/

theorem frame_arrive {req : HttpRequest} {c : Cell n} (hs : s.arrive req = some t)
    (hmain : c ≠ .main) (hqueue : ∀ w : Fin n, w.val = s.count % n → c ≠ .queue w) :
    t.look c = s.look c := by
  obtain ⟨-, rfl⟩ := arrive_some hs
  have hslot := input_slots { req with reqId := s.reqId } s
  cases c with
  | thread v =>
      rcases hslot v with heq | ⟨-, -, -, heq⟩
      · simp [look_thread, heq]
      · simp [look_thread, heq]
  | alive v =>
      rcases hslot v with heq | ⟨-, -, -, heq⟩
      · simp [look_alive, heq]
      · simp [look_alive, heq]
  | queue v =>
      rcases hslot v with heq | ⟨hv, -, -, -⟩
      · simp [look_queue, heq]
      · exact absurd rfl (hqueue v hv)
  | reader v =>
      rcases hslot v with heq | ⟨-, -, -, heq⟩
      · simp [look_reader, heq]
      · simp [look_reader, heq]
  | bus => exact look_bus.mpr (input_bus _ s)
  | lock => exact look_lock.mpr (input_lock _ s)
  | responses => exact look_responses.mpr (input_responses _ s)
  | main => exact absurd rfl hmain

theorem frame_turn {op : Op Rtc} {c : Cell n} (hs : s.turn ext w op = some t)
    (hc : c ∉ s.written ext (.turn w op)) : t.look c = s.look c := by
  simp only [written, Set.mem_ofPred_eq, not_or, not_and] at hc
  obtain ⟨hthread, halive, hqueue, hreader⟩ := hc
  obtain ⟨-, slot, htaken, ⟨p, hexec, rfl⟩ | ⟨worker, actions, hexec, rfl⟩⟩ := turn_some hs
  · -- Every cell of a thread that panics is written.
    have hpanics : Panics ext s w op := ⟨p, htaken.worker ▸ hexec⟩
    exact look_setSlot (fun h => absurd h hthread) (fun h => absurd h (halive hpanics))
      (fun h => absurd h (hqueue (.inl hpanics))) (fun h => absurd h (hreader (.inl hpanics)))
  · refine look_setSlot (fun h => absurd h hthread) (fun _ => ?_) (fun h => ?_) (fun h => ?_)
    · simp [htaken.running.1, htaken.running.2]
    · have hrequests := htaken.requests
      cases op with
      | request arrival => exact absurd h (hqueue (.inr rfl))
      | _ => exact hrequests
    · have hread := htaken.reader
      cases op with
      | busEvent ev now => exact absurd h (hreader (.inr rfl))
      | _ => exact hread

theorem frame (hs : s.step ext l = some t) {c : Cell n} (hc : c ∉ s.written ext l) :
    t.look c = s.look c := by
  cases l with
  | arrive req =>
      simp only [written, Set.mem_ofPred_eq, not_or, not_exists, not_and] at hc
      exact frame_arrive hs hc.1 hc.2
  | insert =>
      obtain ⟨-, rfl⟩ := insert_some hs
      cases c with
      | main => exact absurd rfl hc
      | _ => rfl
  | respond =>
      simp only [written, Set.mem_insert_iff, Set.mem_singleton_iff, not_or] at hc
      obtain ⟨res, rest, -, -, ⟨-, rfl⟩ | ⟨-, rfl⟩⟩ := respond_some hs
      · cases c with
        | main => exact absurd rfl hc.1
        | responses => exact absurd rfl hc.2
        | _ => rfl
      · cases c with
        | main => exact absurd rfl hc.1
        | responses => exact absurd rfl hc.2
        | _ => rfl
  | spawn w =>
      simp only [written, Set.mem_insert_iff, Set.mem_singleton_iff, not_or] at hc
      obtain ⟨hphase, -, rfl⟩ := spawn_some hs
      exact look_setSlot (fun h => absurd h hc.1) (fun _ => by simp [hphase]) (fun _ => rfl)
        (fun h => absurd h hc.2)
  | turn w op => exact frame_turn hs hc
  | nextPhase w =>
      obtain ⟨-, phase, hphase, hphase', -, rfl⟩ := nextPhase_some hs
      exact look_setSlot (fun h => absurd h hc) (fun _ => by simp [hphase, hphase'])
        (fun _ => rfl) (fun _ => rfl)
  | startPop w order now =>
      obtain ⟨-, hphase, rfl⟩ := startPop_some hs
      exact look_setSlot (fun h => absurd h hc) (fun _ => by simp [hphase]) (fun _ => rfl)
        (fun _ => rfl)
  | reply w =>
      simp only [written, Set.mem_insert_iff, Set.mem_singleton_iff, not_or] at hc
      obtain ⟨res, rest, -, rfl⟩ := reply_some hs
      have hslot : (s.setSlot w { s.slots w with outgoing := rest }).look c = s.look c :=
        look_setSlot (fun h => absurd h hc.1) (fun _ => Iff.rfl) (fun _ => rfl) (fun _ => rfl)
      rw [← hslot]
      cases c with
      | responses => exact absurd rfl hc.2
      | _ => rfl
  | lock w =>
      obtain ⟨-, -, -, rfl⟩ := callLock_some hs
      exact look_setSlot (fun h => absurd h hc) (fun _ => Iff.rfl) (fun _ => rfl) (fun _ => rfl)
  | acquire w =>
      simp only [written, Set.mem_insert_iff, Set.mem_singleton_iff, not_or] at hc
      obtain ⟨-, -, rfl⟩ := acquire_some hs
      have hslot : (s.setSlot w { s.slots w with queued := false }).look c = s.look c :=
        look_setSlot (fun h => absurd h hc.1) (fun _ => Iff.rfl) (fun _ => rfl) (fun _ => rfl)
      rw [← hslot]
      cases c with
      | lock => exact absurd rfl hc.2
      | _ => rfl
  | broadcast w =>
      simp only [written, Set.mem_insert_iff, Set.mem_singleton_iff, not_or] at hc
      obtain ⟨taskId, ev, rest, -, -, -, rfl⟩ := broadcast_some hs
      have hslot : (s.setSlot w { s.slots w with outgoing := rest }).look c = s.look c :=
        look_setSlot (fun h => absurd h hc.1) (fun _ => Iff.rfl) (fun _ => rfl) (fun _ => rfl)
      rw [← hslot]
      cases c with
      | bus => exact absurd rfl hc.2.1
      | lock => exact absurd rfl hc.2.2
      | _ => rfl

/-! ### Nothing else decides where it leads to -/

theorem stable (h : Agree look (s.needed ext l) s s') :
    s'.needed ext l = s.needed ext l ∧ s'.written ext l = s.written ext l := by
  have hwritten : s'.written ext l = s.written ext l := by
    cases l with
    | arrive req =>
        have hcount := (look_main.mp (h .main (.inl (.inl rfl)))).1
        simp only [written, hcount]
    | turn w op =>
        have hworker := (look_thread.mp (h (.thread w) (.inl (.inl rfl)))).2.1
        simp only [written, Panics, hworker]
    | _ => rfl
  have hseen : s'.seen l = s.seen l := by
    cases l with
    | arrive req =>
        have hcount := (look_main.mp (h .main (.inl (.inl rfl)))).1
        simp only [seen, hcount]
    | nextPhase w =>
        have hphase := (look_thread.mp (h (.thread w) (.inl rfl))).1
        simp only [seen, hphase]
    | _ => rfl
  exact ⟨by rw [needed, needed, hwritten, hseen], hwritten⟩

/-- What becomes of the queue a request is meant for. -/
theorem input_queue (req : HttpRequest) (hw : w.val = s.count % n) :
    ((s.input req).slots w).requests
      = if (s.slots w).phase ≠ .panicked ∧ (s.slots w).requests.length < channelCapacity then
          (s.slots w).requests ++ [req]
        else (s.slots w).requests := by
  split
  · rename_i hroom
    rw [input_of_room hw hroom.1 hroom.2]
    simp
  · rename_i hroom
    rcases input_slots req s w with heq | ⟨-, halive, hlength, -⟩
    · rw [heq]
    · exact absurd ⟨halive, hlength⟩ hroom

theorem same_arrive {req : HttpRequest} (hs : s.arrive req = some t)
    (h : Agree look (s.needed ext (.arrive req)) s s') :
    ∃ t', s'.arrive req = some t' ∧ Agree look (s.written ext (.arrive req)) t t' := by
  obtain ⟨hready, rfl⟩ := arrive_some hs
  obtain ⟨hcount, hmain, hreqId, hreqs⟩ := look_main.mp (h .main (.inl (.inl rfl)))
  refine ⟨s'.input { req with reqId := s'.reqId }, ?_, ?_⟩
  · rw [arrive, if_pos (hmain ▸ hready)]
  · rw [← hreqId]
    rintro c (rfl | ⟨w, hw, rfl⟩)
    · refine look_main.mpr ?_
      unfold input
      split
      · simp only
        split <;> split <;> simp [hcount, hreqId, hreqs]
      · exact ⟨hcount, rfl, hreqId, hreqs⟩
    · have hqueue := look_queue.mp (h (.queue w) (.inl (.inr ⟨w, hw, rfl⟩)))
      have halive := look_alive.mp (h (.alive w) (.inr ⟨w, hw, rfl⟩))
      refine look_queue.mpr ?_
      rw [input_queue _ hw, input_queue _ (hcount ▸ hw)]
      simp only [hqueue, ne_eq, halive]

/-- What a turn takes from the bus or the queue is all that it needs of them. -/
theorem take_same {bus bus' : List BusEvent} {op : Op Rtc} {slot slot' u : WorkerSlot Rtc}
    (hphase : slot.phase = slot'.phase) (hworker : slot.worker = slot'.worker)
    (hbus : op.ofBus = true → slot.reader = slot'.reader ∧ bus = bus')
    (hqueue : op.ofQueue = true → slot.requests = slot'.requests)
    (h : slot.take bus op = some u) :
    ∃ u', slot'.take bus' op = some u' ∧ u.phase = u'.phase ∧
      (op.ofBus = true → u.reader = u'.reader) ∧
      (op.ofQueue = true → u.requests = u'.requests) := by
  have hneither : ∀ {P : Prop}, false = true → P := fun hop => absurd hop Bool.false_ne_true
  unfold WorkerSlot.take at h
  split at h
  · rename_i ev now hp
    obtain ⟨hreader, rfl⟩ := hbus rfl
    split at h
    · rename_i pos hpos
      split at h <;> cases h
      rename_i hev
      exact ⟨{ slot' with reader := some (pos + 1) },
        by simp [WorkerSlot.take, ← hphase, hp, ← hreader, hpos, hev], hphase, fun _ => rfl,
        hneither⟩
    · cases h
  · rename_i arrival hp
    have hrequests := hqueue rfl
    split at h
    · rename_i req rest hreq
      split at h <;> cases h
      rename_i hev
      exact ⟨{ slot' with requests := rest },
        by simp [WorkerSlot.take, ← hphase, hp, ← hrequests, hreq, hev], hphase, hneither,
        fun _ => rfl⟩
    · cases h
  · rename_i order now hp
    split at h <;> cases h
    rename_i hkeys
    exact ⟨{ slot' with phase := .ticked },
      by simp [WorkerSlot.take, ← hphase, hp, ← hworker, hkeys], rfl, hneither, hneither⟩
  · rename_i taskId todo now taskId' now' hp
    split at h <;> cases h
    rename_i hsame
    exact ⟨{ slot' with phase := .popTasks todo now },
      by simp [WorkerSlot.take, ← hphase, hp, hsame], rfl, hneither, hneither⟩
  · rename_i hp
    cases h
    exact ⟨{ slot' with phase := .udp }, by simp [WorkerSlot.take, ← hphase, hp], rfl, hneither,
      hneither⟩
  · rename_i d hp
    cases h
    exact ⟨slot', by simp [WorkerSlot.take, ← hphase, hp], hphase, hneither, hneither⟩
  · cases h

theorem same_turn {op : Op Rtc} (hs : s.turn ext w op = some t)
    (h : Agree look (s.needed ext (.turn w op)) s s') :
    ∃ t', s'.turn ext w op = some t' ∧ Agree look (s.written ext (.turn w op)) t t' := by
  obtain ⟨hphase, hworker, houtgoing, hqueued⟩ := look_thread.mp (h (.thread w) (.inl (.inl rfl)))
  have hbus : op.ofBus = true → (s.slots w).reader = (s'.slots w).reader ∧ s.bus = s'.bus := by
    intro hop
    exact ⟨look_reader.mp (h (.reader w) (.inl (.inr (.inr (.inr ⟨.inr hop, rfl⟩))))),
      look_bus.mp (h .bus (.inr ⟨hop, rfl⟩))⟩
  have hqueue : op.ofQueue = true → (s.slots w).requests = (s'.slots w).requests := by
    intro hop
    exact look_queue.mp (h (.queue w) (.inl (.inr (.inr (.inl ⟨.inr hop, rfl⟩)))))
  obtain ⟨hidle, -⟩ := turn_some hs
  have hidle' : (s'.slots w).idle = true := by simp [WorkerSlot.idle, ← houtgoing, hidle]
  obtain ⟨slot, htake, hcase⟩ := turn_take hs
  obtain ⟨slot', htake', hnext, hread, hrequests⟩ := take_same hphase hworker hbus hqueue htake
  have htaken := WorkerSlot.take_some htake
  have htaken' := WorkerSlot.take_some htake'
  rcases hcase with ⟨p, hexec, rfl⟩ | ⟨worker, actions, hexec, rfl⟩
  · refine ⟨s'.setSlot w slot'.panic, ?_, ?_⟩
    · simp [turn, hidle', htake', htaken'.worker, ← hworker, hexec]
    · rintro c (rfl | ⟨-, rfl⟩ | ⟨-, rfl⟩ | ⟨-, rfl⟩)
      · refine look_thread.mpr ?_
        simp [WorkerSlot.panic, htaken.worker, htaken'.worker, hworker, htaken.outgoing,
          htaken'.outgoing, houtgoing, htaken.queued, htaken'.queued, hqueued]
      · exact look_alive.mpr (by simp [WorkerSlot.panic])
      · exact look_queue.mpr (by simp [WorkerSlot.panic])
      · exact look_reader.mpr (by simp [WorkerSlot.panic])
  · have hlives : ¬ Panics ext s w op := by
      rintro ⟨p, hp⟩
      rw [hexec] at hp
      cases hp
    refine ⟨s'.setSlot w { slot' with worker, outgoing := actions.filter Action.isShared }, ?_, ?_⟩
    · simp [turn, hidle', htake', htaken'.worker, ← hworker, hexec]
    · rintro c (rfl | ⟨hpanics, rfl⟩ | ⟨hpanics | hop, rfl⟩ | ⟨hpanics | hop, rfl⟩)
      · refine look_thread.mpr ?_
        simp [hnext, htaken.queued, htaken'.queued, hqueued]
      · exact absurd hpanics hlives
      · exact absurd hpanics hlives
      · exact look_queue.mpr (by simpa using hrequests hop)
      · exact absurd hpanics hlives
      · exact look_reader.mpr (by simpa using hread hop)

theorem same_nextPhase (hs : s.nextPhase w = some t)
    (h : Agree look (s.needed ext (.nextPhase w)) s s') :
    ∃ t', s'.nextPhase w = some t' ∧ Agree look (s.written ext (.nextPhase w)) t t' := by
  obtain ⟨hphase, hworker, houtgoing, hqueued⟩ := look_thread.mp (h (.thread w) (.inl rfl))
  unfold Server.nextPhase at hs
  split at hs
  · rename_i hidle
    obtain ⟨phase, hnext, rfl⟩ := Option.map_eq_some_iff.mp hs
    have hidle' : (s'.slots w).idle = true := by
      rwa [WorkerSlot.idle, ← houtgoing]
    have hnext' : (s'.slots w).nextPhase s'.bus = some phase := by
      rw [← hnext, WorkerSlot.nextPhase, WorkerSlot.nextPhase, ← hphase]
      cases hp : (s.slots w).phase with
      | busRecv =>
          have hbus := look_bus.mp (h .bus (.inr (.inl ⟨hp, .inl rfl⟩)))
          have hreader := look_reader.mp (h (.reader w) (.inr (.inl ⟨hp, .inr rfl⟩)))
          simp only [hbus, hreader]
      | http =>
          have hqueue := look_queue.mp (h (.queue w) (.inr (.inr ⟨hp, rfl⟩)))
          simp only [hqueue]
      | popTasks todo now => cases todo <;> rfl
      | _ => rfl
    refine ⟨s'.setSlot w { s'.slots w with phase }, ?_, ?_⟩
    · rw [Server.nextPhase, if_pos hidle', hnext', Option.map_some]
    · rintro c rfl
      refine look_thread.mpr ?_
      simp [hworker, houtgoing, hqueued]
  · cases hs

theorem same_reply (hs : s.reply w = some t) (h : Agree look (s.needed ext (.reply w)) s s') :
    ∃ t', s'.reply w = some t' ∧ Agree look (s.written ext (.reply w)) t t' := by
  obtain ⟨hphase, hworker, houtgoing, hqueued⟩ := look_thread.mp (h (.thread w) (.inl (.inl rfl)))
  have hresponses := look_responses.mp (h .responses (.inl (.inr rfl)))
  obtain ⟨res, rest, hout, rfl⟩ := reply_some hs
  refine ⟨{ s'.setSlot w { s'.slots w with outgoing := rest } with
      responses := pushed s'.responses res }, ?_, ?_⟩
  · rw [houtgoing, hresponses] at hout
    rcases hout with hout | ⟨hout, hroom⟩
    · simp only [Server.reply, hout, pushed]
      split <;> rfl
    · simp only [Server.reply, hout, pushed, if_pos hroom]
  · rintro c (rfl | rfl)
    · refine look_thread.mpr ?_
      simp [hphase, hworker, hqueued]
    · exact look_responses.mpr (by simp [hresponses])

theorem same (hs : s.step ext l = some t) (h : Agree look (s.needed ext l) s s') :
    ∃ t', s'.step ext l = some t' ∧ Agree look (s.written ext l) t t' := by
  cases l with
  | arrive req => exact same_arrive hs h
  | turn w op => exact same_turn hs h
  | nextPhase w => exact same_nextPhase hs h
  | reply w => exact same_reply hs h
  | insert =>
      obtain ⟨hmain, rfl⟩ := insert_some hs
      obtain ⟨hcount, hmain', hreqId, hreqs⟩ := look_main.mp (h .main (.inl rfl))
      refine ⟨_, if_pos (hmain' ▸ hmain), ?_⟩
      rintro c rfl
      exact look_main.mpr ⟨hcount, rfl, by simp [hreqId], by simp [hreqId, hreqs]⟩
  | respond =>
      obtain ⟨hcount, hmain', hreqId, hreqs⟩ := look_main.mp (h .main (.inl (.inl rfl)))
      have hresponses := look_responses.mp (h .responses (.inl (.inr rfl)))
      obtain ⟨res, rest, hmain, hres, ⟨hmem, rfl⟩ | ⟨hmem, rfl⟩⟩ := respond_some hs
      · refine ⟨{ s' with responses := rest, reqs := s'.reqs.erase res.reqId }, ?_, ?_⟩
        · simp [step, Server.respond, ← hmain', hmain, ← hresponses, hres, ← hreqs, hmem]
        · rintro c (rfl | rfl)
          · exact look_main.mpr ⟨hcount, hmain', hreqId, by simp [hreqs]⟩
          · exact look_responses.mpr rfl
      · refine ⟨{ s' with responses := rest, main := .panicked }, ?_, ?_⟩
        · simp [step, Server.respond, ← hmain', hmain, ← hresponses, hres, ← hreqs, hmem]
        · rintro c (rfl | rfl)
          · exact look_main.mpr ⟨hcount, rfl, hreqId, hreqs⟩
          · exact look_responses.mpr rfl
  | spawn w =>
      obtain ⟨hphase', hworker, houtgoing, hqueued⟩ :=
        look_thread.mp (h (.thread w) (.inl (.inl rfl)))
      have hbus := look_bus.mp (h .bus (.inr (.inl rfl)))
      have hlock' := look_lock.mp (h .lock (.inr (.inr rfl)))
      obtain ⟨hphase, hlock, rfl⟩ := spawn_some hs
      refine ⟨_, if_pos ⟨hphase' ▸ hphase, hlock' ▸ hlock⟩, ?_⟩
      rintro c (rfl | rfl)
      · refine look_thread.mpr ?_
        simp [hworker, houtgoing, hqueued]
      · exact look_reader.mpr (by simp [hbus])
  | startPop w order now =>
      obtain ⟨hphase, hworker, houtgoing, hqueued⟩ := look_thread.mp (h (.thread w) (.inl rfl))
      replace hs : s.startPop w order now = some t := hs
      unfold Server.startPop at hs
      split at hs <;> cases hs
      rename_i hc
      rw [WorkerSlot.idle, hphase, houtgoing, hworker] at hc
      refine ⟨_, if_pos hc, ?_⟩
      rintro c rfl
      refine look_thread.mpr ?_
      simp [hworker, houtgoing, hqueued]
  | lock w =>
      obtain ⟨hphase, hworker, houtgoing, hqueued⟩ := look_thread.mp (h (.thread w) (.inl rfl))
      have hlock' := look_lock.mp (h .lock (.inr rfl))
      obtain ⟨⟨taskId, ev, rest, hout⟩, hcalls, hlock, rfl⟩ := callLock_some hs
      refine ⟨s'.setSlot w { s'.slots w with queued := true }, ?_, ?_⟩
      · simp [step, callLock, ← houtgoing, hout, ← hqueued, hcalls, ← hlock', hlock]
      · rintro c rfl
        refine look_thread.mpr ?_
        simp [hphase, hworker, houtgoing]
  | acquire w =>
      obtain ⟨hphase, hworker, houtgoing, hqueued⟩ :=
        look_thread.mp (h (.thread w) (.inl (.inl rfl)))
      have hlock' := look_lock.mp (h .lock (.inl (.inr rfl)))
      obtain ⟨hcalls, hlock, rfl⟩ := acquire_some hs
      refine ⟨_, if_pos ⟨hqueued ▸ hcalls, hlock' ▸ hlock⟩, ?_⟩
      rintro c (rfl | rfl)
      · refine look_thread.mpr ?_
        simp [hphase, hworker, houtgoing]
      · exact look_lock.mpr rfl
  | broadcast w =>
      obtain ⟨hphase, hworker, houtgoing, hqueued⟩ :=
        look_thread.mp (h (.thread w) (.inl (.inl rfl)))
      have hbus := look_bus.mp (h .bus (.inl (.inr (.inl rfl))))
      have hlock' := look_lock.mp (h .lock (.inl (.inr (.inr rfl))))
      have hreaders : ∀ v, (s.slots v).reader = (s'.slots v).reader :=
        fun v => look_reader.mp (h (.reader v) (.inr ⟨v, rfl⟩))
      obtain ⟨taskId, ev, rest, hout, hlock, hroom, rfl⟩ := broadcast_some hs
      have hroom' : ¬ s'.blocked := by
        rintro ⟨v, hv⟩
        refine hroom ⟨v, ?_⟩
        rwa [WorkerSlot.full, hreaders, hbus]
      refine ⟨{ s'.setSlot w { s'.slots w with outgoing := rest } with
          bus := s'.bus ++ [ev]
          lock := none }, ?_, ?_⟩
      · simp [step, Server.broadcast, ← houtgoing, hout, ← hlock', hlock, hroom']
      · rintro c (rfl | rfl | rfl)
        · refine look_thread.mpr ?_
          simp [hphase, hworker, hqueued]
        · exact look_bus.mpr (by simp [hbus])
        · exact look_lock.mpr rfl

/-- **What each step touches.** -/
theorem footprint (ext : Extern Rtc) :
    Footprint look (step ext) (needed ext (n := n)) (written ext) where
  ext := fun _ _ => look_ext
  sub := fun _ _ => Set.subset_union_left
  stable := fun _ _ _ => stable
  frame := fun _ _ _ hs _ => frame hs
  same := fun _ _ _ _ => same

/-! ### What the workers do -/

/-- What a step does is decided by what it needs. -/
theorem emitted_same (h : Agree look (s.needed ext l) s s') :
    s'.emitted ext l = s.emitted ext l := by
  cases l with
  | turn w op =>
      have hworker := (look_thread.mp (h (.thread w) (.inl (.inl rfl)))).2.1
      simp only [emitted, hworker]
  | _ => rfl

/-- Only a worker's own turn does something in its name. -/
theorem emitted_own {v : Fin n} (h : actionsOf v (s.emitted ext l) ≠ []) :
    .thread v ∈ s.written ext l := by
  cases l with
  | turn w op =>
      by_cases hw : w = v
      · subst hw
        exact .inl rfl
      · refine absurd ?_ h
        cases hexec : (s.slots w).worker.exec ext op with
        | error p =>
            simp only [emitted, hexec]
            rfl
        | ok r =>
            simp only [emitted, hexec]
            rw [actionsOf_turn, if_neg hw]
  | _ => exact absurd rfl h

theorem emitted_one {l' : Label n Rtc} (v : Fin n)
    (h : Independent (needed ext) (written ext) s l l') :
    actionsOf v (s.emitted ext l) = [] ∨ actionsOf v (s.emitted ext l') = [] := by
  by_cases hfirst : actionsOf v (s.emitted ext l) = []
  · exact .inl hfirst
  · refine .inr (by_contra fun hsecond => ?_)
    exact h.1 (.thread v) (emitted_own hfirst) (.inl (emitted_own hsecond))

/-- In a run that is rearranged, every worker does the same in the same order. -/
theorem actions_rearranged {labels labels' : List (Label n Rtc)}
    (h : Rearranges (step ext) (Independent (needed ext) (written ext)) s labels labels')
    (hrun : runLabels (step ext) s labels = some s') (v : Fin n) :
    actionsOf v (record ext s labels') = actionsOf v (record ext s labels) := by
  rw [record_eq, record_eq]
  exact h.emitted (footprint ext) (actionsOf_append v) (fun _ _ _ => emitted_same)
    (fun _ _ _ => emitted_one v) hrun

/--
**Steps that do not concern each other may change places.**  In any run from any state, let
steps in a row change places, as often as wanted, of which neither writes what the other
depends on.  What comes out is a run again, it leads to the same state, and in it every
worker does the same things in the same order.
-/
theorem steps_change_places {labels labels' : List (Label n Rtc)}
    (h : Rearranges (step ext) (Independent (needed ext) (written ext)) s labels labels')
    (hrun : runLabels (step ext) s labels = some s') :
    runLabels (step ext) s labels' = some s' ∧
      ∀ v, actionsOf v (record ext s labels') = actionsOf v (record ext s labels) :=
  ⟨h.run (footprint ext) hrun, actions_rearranged h hrun⟩

/-- A worker may go on to its next phase before another has sent its answer, or after. -/
theorem steps_change_places_opening :
    ∃ s : Server 2 Script, runLabels (step Script.engine) (Server.new fun _ => Script.addr)
        ((Script.stream 0 1).take 8 ++ [.nextPhase 1, .reply 0]) = some s ∧
      s.responses.length = 1 ∧ (s.slots 1).phase = .http := by
  let labels : List (Label 2 Script) := (Script.stream 0 1).take 8
  have hend : (runLabels (step Script.engine) (Server.new fun _ => Script.addr)
      (labels ++ [.reply 0, .nextPhase 1])).any (fun s =>
        s.responses.length = 1 ∧ (s.slots 1).phase = .http) = true := by
    decide +kernel
  have hbegin : (runLabels (step Script.engine) (Server.new fun _ => Script.addr)
      labels).isSome = true := by
    decide +kernel
  obtain ⟨s, hs, hfacts⟩ := Option.any_eq_true _ _ |>.mp hend
  obtain ⟨t, ht⟩ := Option.isSome_iff_exists.mp hbegin
  have hindep : Independent (needed Script.engine) (written Script.engine) t
      (.reply (0 : Fin 2)) (.nextPhase 1) := by
    refine ⟨?_, ?_⟩
    · rintro c (rfl | rfl) <;> simp [needed, written, seen]
    · rintro c rfl
      simp [needed, written, seen]
  exact ⟨s, (steps_change_places (.swap .refl ht hindep) hs).1, of_decide_eq_true hfacts⟩

/-! ### Threads left to themselves -/

theorem owned_unique {k k' : Option (Fin n)} {c : Cell n} (h : c ∈ Cell.owned k)
    (h' : c ∈ Cell.owned k') : k = k' := by
  cases k with
  | none =>
      cases h
      cases k' with
      | none => rfl
      | some w => simp [Cell.owned] at h'
  | some v =>
      cases k' with
      | none =>
          cases h'
          simp [Cell.owned] at h
      | some w =>
          rcases h with rfl | rfl | rfl | rfl <;> simpa [Cell.owned] using h'

/-- Nobody owns the bus or its lock. -/
theorem not_owned {k : Option (Fin n)} {c : Cell n} (hc : c = .bus ∨ c = .lock) :
    c ∉ Cell.owned k := by
  rcases hc with rfl | rfl
  · cases k <;> simp [Cell.owned]
  · cases k <;> simp [Cell.owned]

theorem written_local (hl : l.isLocal = true) : s.written ext l ⊆ Cell.owned l.thread := by
  intro c hc
  cases l with
  | insert => exact hc
  | spawn w =>
      rcases hc with rfl | rfl
      · exact .inl rfl
      · exact .inr (.inr (.inr rfl))
  | turn w op =>
      rcases hc with rfl | ⟨-, rfl⟩ | ⟨-, rfl⟩ | ⟨-, rfl⟩
      · exact .inl rfl
      · exact .inr (.inl rfl)
      · exact .inr (.inr (.inl rfl))
      · exact .inr (.inr (.inr rfl))
  | nextPhase w => exact .inl hc
  | startPop w order now => exact .inl hc
  | lock w => exact .inl hc
  | _ => cases hl

/-- And they depend on nothing else but the bus and its lock. -/
theorem needed_local (hl : l.isLocal = true) {c : Cell n} (hc : c ∈ s.needed ext l) :
    c ∈ Cell.owned l.thread ∨ c = .bus ∨ c = .lock := by
  rcases hc with hc | hc
  · exact .inl (written_local hl hc)
  · cases l with
    | spawn w => exact .inr hc
    | turn w op => exact .inr (.inl hc.2)
    | nextPhase w =>
        rcases hc with ⟨-, rfl | rfl⟩ | ⟨-, rfl⟩
        · exact .inr (.inl rfl)
        · exact .inl (.inr (.inr (.inr rfl)))
        · exact .inl (.inr (.inr (.inl rfl)))
    | lock w => exact .inr (.inr hc)
    | arrive req => cases hl
    | broadcast w => cases hl
    | _ => cases hc

theorem independent_local {l' : Label n Rtc} (hl : l.isLocal = true) (hl' : l'.isLocal = true)
    (hne : l.thread ≠ l'.thread) : Independent (needed ext) (written ext) s l l' := by
  have hfree : ∀ {a b : Label n Rtc}, a.isLocal = true → b.isLocal = true →
      a.thread ≠ b.thread → ∀ c ∈ s.written ext a, c ∉ s.needed ext b := by
    intro a b ha hb hab c hc hneeded
    have hown := written_local ha hc
    rcases needed_local hb hneeded with hother | hshared
    · exact hab (owned_unique hown hother)
    · exact not_owned hshared hown
  exact ⟨hfree hl hl' hne, hfree hl' hl (Ne.symm hne)⟩

/--
**How threads interleave does not matter while they are left to themselves.**  From any
state, take a stretch of a run in which no request is handed over, no answer is sent or
taken, no lock is granted and nothing is broadcast.  Whatever other order the same steps are
taken in, each thread's own in their order, it is a run too, to the same state, and every
worker has done the same in it.
-/
theorem threads_interleave {labels labels' : List (Label n Rtc)}
    (hlocal : ∀ l ∈ labels, l.isLocal = true)
    (hthreads : ∀ k, labels.filter (·.thread = k) = labels'.filter (·.thread = k))
    (hrun : runLabels (step ext) s labels = some s') :
    runLabels (step ext) s labels' = some s' ∧
      ∀ v, actionsOf v (record ext s labels') = actionsOf v (record ext s labels) := by
  have hindep : ∀ s, ∀ a b, a ∈ labels → b ∈ labels → a.thread ≠ b.thread →
      Independent (needed ext) (written ext) s a b :=
    fun _ a b ha hb hne => independent_local (hlocal a ha) (hlocal b hb) hne
  have hrearranged :
      Rearranges (step ext) (Independent (needed ext) (written ext)) s labels labels' :=
    .of_threads (footprint ext) Label.thread hindep ⟨s', hrun⟩ hthreads
  exact ⟨hrearranged.run (footprint ext) hrun, actions_rearranged hrearranged hrun⟩

end Server

open Script in
/-- Each of two workers comes to the request that waits for it. -/
def Script.bothOpen (v w : Fin n) : List (Label n Script) :=
  [.nextPhase v, .turn v (.request (arrival 0 "/whep/endpoint" [0x76] "abc" [])),
    .nextPhase w, .turn w (.request (arrival 1 "/whip/endpoint" [0x76] "def" []))]

open Script in
/-- The same, turn about. -/
def Script.turnAbout (v w : Fin n) : List (Label n Script) :=
  [.nextPhase w, .nextPhase v,
    .turn w (.request (arrival 1 "/whip/endpoint" [0x76] "def" [])),
    .turn v (.request (arrival 0 "/whep/endpoint" [0x76] "abc" []))]

/-- Turn about or not, two workers open their sessions. -/
theorem Server.threads_interleave_opening :
    ∃ s s' : Server 2 Script, runLabels (step Script.engine) (Server.new fun _ => Script.addr)
        ((Script.stream 0 1).take 6) = some s ∧
      runLabels (step Script.engine) s (Script.turnAbout 0 1) = some s' ∧
      ∀ v, (s'.slots v).worker.taskIdSeed = 1 := by
  have hend : (runLabels (step Script.engine) (Server.new fun _ => Script.addr)
      ((Script.stream (0 : Fin 2) 1).take 6)).any (fun s =>
        (runLabels (step Script.engine) s (Script.bothOpen 0 1)).any (fun s' =>
          ∀ v, (s'.slots v).worker.taskIdSeed = 1)) = true := by
    decide +kernel
  obtain ⟨s, hs, hrun⟩ := Option.any_eq_true _ _ |>.mp hend
  obtain ⟨s', hs', hseed⟩ := Option.any_eq_true _ _ |>.mp hrun
  have hlocal : ∀ l ∈ Script.bothOpen (0 : Fin 2) 1, l.isLocal = true := by
    simp [Script.bothOpen, Label.isLocal]
  have hthreads : ∀ k, (Script.bothOpen (0 : Fin 2) 1).filter (·.thread = k)
      = (Script.turnAbout 0 1).filter (·.thread = k) := by
    intro k
    rcases k with - | v
    · rfl
    · obtain rfl | rfl : v = 0 ∨ v = 1 := by omega
      · rfl
      · rfl
  exact ⟨s, s', hs, (threads_interleave hlocal hthreads hs').1, of_decide_eq_true hseed⟩

end MediaServer
