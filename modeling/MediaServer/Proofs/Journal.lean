/-
What a run of the server leaves behind.

A run of the server interleaves the turns of its workers.  Its journal is what those
turns did, in the order they were taken, each action with the worker that did it; and
beside the journal there is the bus, the one thing all workers see.  This file says
how the two and the workers' tables hang together: the part of the journal that is one
worker's is a history of that worker alone, what is on the bus was broadcast by a
turn, and what a worker has read is one stretch of the bus, with nothing left out,
doubled or out of order, that ends where its reader stands.
-/
import MediaServer.Proofs.History
import MediaServer.Proofs.Server

namespace MediaServer

open Lib

variable {Rtc : Type} {n : Nat} {ext : Extern Rtc}

/-! ### One worker's part of a journal -/

/-- An entry of the journal: an action, and the worker whose turn did it. -/
abbrev Entry (n : Nat) := Fin n × Action

def actionsOf (v : Fin n) (entries : List (Entry n)) : List Action :=
  entries.flatMap fun e => if e.1 = v then [e.2] else []

theorem actionsOf_append (v : Fin n) (es fs : List (Entry n)) :
    actionsOf v (es ++ fs) = actionsOf v es ++ actionsOf v fs :=
  List.flatMap_append

theorem mem_actionsOf {v : Fin n} {entries : List (Entry n)} {a : Action} :
    a ∈ actionsOf v entries ↔ (v, a) ∈ entries := by
  simp only [actionsOf, List.mem_flatMap]
  constructor
  · rintro ⟨⟨u, b⟩, he, ha⟩
    split at ha
    · rename_i hu
      rw [List.mem_singleton.mp ha, ← hu]
      exact he
    · cases ha
  · intro he
    exact ⟨(v, a), he, by simp⟩

/-- A turn is one worker's. -/
theorem actionsOf_turn (v w : Fin n) (actions : List Action) :
    actionsOf v (actions.map (Prod.mk w)) = if w = v then actions else [] := by
  unfold actionsOf
  split
  · rename_i hw
    simp [List.flatMap_map, hw]
  · rename_i hw
    simp [List.flatMap_map, hw]

/-- An entry splits the journal, and with it the part of the worker it is of. -/
theorem actionsOf_split (v : Fin n) (pre post : List (Entry n)) (a : Action) :
    actionsOf v (pre ++ (v, a) :: post) = actionsOf v pre ++ a :: actionsOf v post := by
  rw [actionsOf_append]
  simp [actionsOf]

/-- The event an action took from the bus. -/
def Action.readEvent : Action → Option BusEvent
  | .read ev => some ev
  | _ => none

/-- What the worker `v` has read from the bus. -/
def reads (v : Fin n) (entries : List (Entry n)) : List BusEvent :=
  (actionsOf v entries).filterMap Action.readEvent

/-! ### Steps and runs -/

namespace Server

/-- One step of the server, with what the turn it takes does. -/
def Moves (ext : Extern Rtc) (s : Server n Rtc) (entries : List (Entry n))
    (s' : Server n Rtc) : Prop :=
  ∃ l, s.step ext l = some s' ∧ entries = s.emitted ext l

/-- The states the server can reach, with the journal of the way there. -/
def Reaches (ext : Extern Rtc) (localAddrs : Fin n → SocketAddr) (entries : List (Entry n))
    (s : Server n Rtc) : Prop :=
  Emits (Moves ext) (Server.new localAddrs) entries s

/-- The journal of the run a list of labels names. -/
def record (ext : Extern Rtc) : Server n Rtc → List (Label n Rtc) → List (Entry n)
  | _, [] => []
  | s, l :: ls =>
      match s.step ext l with
      | none => []
      | some t => s.emitted ext l ++ record ext t ls

/-- A run named by its labels reaches what it reaches, with the journal it writes. -/
theorem reaches_of_run (localAddrs : Fin n → SocketAddr) {labels : List (Label n Rtc)}
    {s : Server n Rtc} (h : runLabels (step ext) (Server.new localAddrs) labels = some s) :
    Reaches ext localAddrs (record ext (Server.new localAddrs) labels) s := by
  have key : ∀ (labels : List (Label n Rtc)) (s t : Server n Rtc),
      runLabels (step ext) s labels = some t → Emits (Moves ext) s (record ext s labels) t := by
    intro labels
    induction labels with
    | nil =>
        intro s t h
        simp only [runLabels_nil, Option.some.injEq] at h
        exact h ▸ .refl s
    | cons l rest ih =>
        intro s t h
        obtain ⟨u, hu, hrest⟩ := Option.bind_eq_some_iff.mp h
        have hfirst : Emits (Moves ext) s (s.emitted ext l) u := .single ⟨l, hu, rfl⟩
        simpa only [record, hu] using hfirst.trans (ih u t hrest)
  exact key labels _ s h

end Server

/-- A slot that did no turn, added no reader and broadcast nothing. -/
structure WorkerSlot.Still (slot slot' : WorkerSlot Rtc) : Prop where
  worker : slot'.worker = slot.worker
  starting : slot'.phase = .starting → slot.phase = .starting
  reader : ∀ pos, slot'.reader = some pos → slot.reader = some pos
  outgoing : ∀ a ∈ slot'.outgoing, a ∈ slot.outgoing

theorem WorkerSlot.Still.refl (slot : WorkerSlot Rtc) : Still slot slot :=
  ⟨rfl, id, fun _ => id, fun _ => id⟩

namespace Server

variable {s s' : Server n Rtc}

theorem still_setSlot {w : Fin n} {slot : WorkerSlot Rtc} (h : (s.slots w).Still slot)
    (v : Fin n) : (s.slots v).Still ((s.setSlot w slot).slots v) :=
  forall_setSlot (P := fun v slot => (s.slots v).Still slot) h (fun _ => .refl _) v

/--
What holds after a step, whichever it was, has to hold after four things: a step in
which every slot is still, a thread adding its reader, a worker's turn, and an event
going into the bus.
-/
theorem Moves.rule {P : List (Entry n) → Server n Rtc → Prop}
    (still : ∀ s', s'.bus = s.bus → (∀ v, (s.slots v).Still (s'.slots v)) → P [] s')
    (spawn : ∀ w, (s.slots w).phase = .starting →
      P [] (s.setSlot w { s.slots w with phase := .busRecv, reader := some s.bus.length }))
    (turn : ∀ w op slot worker actions, WorkerSlot.Taken s.bus op (s.slots w) slot →
      (s.slots w).worker.exec ext op = .ok (worker, actions) →
      P (actions.map (Prod.mk w))
        (s.setSlot w { slot with worker, outgoing := actions.filter Action.isShared }))
    (broadcast : ∀ w taskId ev rest, (s.slots w).outgoing = .broadcast taskId ev :: rest →
      P [] { s.setSlot w { s.slots w with outgoing := rest } with
        bus := s.bus ++ [ev]
        lock := none })
    {entries : List (Entry n)} (h : Moves ext s entries s') : P entries s' := by
  obtain ⟨l, hs, rfl⟩ := h
  cases l with
  | arrive req =>
      obtain ⟨-, rfl⟩ := arrive_some hs
      refine still _ (input_bus _ _) fun v => ?_
      rcases input_slots { req with reqId := s.reqId } s v with heq | ⟨-, -, -, heq⟩
      · rw [heq]
        exact .refl _
      · rw [heq]
        exact ⟨rfl, id, fun _ => id, fun _ => id⟩
  | insert =>
      obtain ⟨-, rfl⟩ := insert_some hs
      exact still _ rfl fun v => .refl _
  | respond =>
      obtain ⟨res, rest, -, -, ⟨-, rfl⟩ | ⟨-, rfl⟩⟩ := respond_some hs
      · exact still _ rfl fun v => .refl _
      · exact still _ rfl fun v => .refl _
  | spawn w =>
      obtain ⟨hphase, -, rfl⟩ := spawn_some hs
      exact spawn w hphase
  | turn w op =>
      obtain ⟨-, slot, htaken, ⟨p, hexec, rfl⟩ | ⟨worker, actions, hexec, rfl⟩⟩ := turn_some hs
      · rw [htaken.worker] at hexec
        simp only [emitted, hexec]
        refine still _ rfl (still_setSlot ⟨htaken.worker, ?_, ?_, ?_⟩)
        · simp [WorkerSlot.panic]
        · simp [WorkerSlot.panic]
        · simp [WorkerSlot.panic, htaken.outgoing]
      · rw [htaken.worker] at hexec
        simp only [emitted, hexec]
        exact turn w op slot worker actions htaken hexec
  | nextPhase w =>
      obtain ⟨-, phase, -, -, hphase, rfl⟩ := nextPhase_some hs
      exact still _ rfl (still_setSlot ⟨rfl, fun h => absurd h hphase, fun _ => id, fun _ => id⟩)
  | startPop w order now =>
      obtain ⟨-, -, rfl⟩ := startPop_some hs
      exact still _ rfl (still_setSlot ⟨rfl, by simp, fun _ => id, fun _ => id⟩)
  | reply w =>
      obtain ⟨res, rest, hout, rfl⟩ := reply_some hs
      refine still _ rfl (still_setSlot ⟨rfl, id, fun _ => id, fun a ha => ?_⟩)
      rcases hout with hout | ⟨hout, -⟩
      · exact hout ▸ List.mem_cons_of_mem _ ha
      · exact hout ▸ List.mem_cons_of_mem _ ha
  | lock w =>
      obtain ⟨-, -, -, rfl⟩ := callLock_some hs
      exact still _ rfl (still_setSlot ⟨rfl, id, fun _ => id, fun _ => id⟩)
  | acquire w =>
      obtain ⟨-, -, rfl⟩ := acquire_some hs
      exact still _ rfl (still_setSlot ⟨rfl, id, fun _ => id, fun _ => id⟩)
  | broadcast w =>
      obtain ⟨taskId, ev, rest, hout, -, -, rfl⟩ := broadcast_some hs
      exact broadcast w taskId ev rest hout

end Server

/-! ### What a turn reads -/

/-- The event a turn takes from the bus. -/
def Op.readEvent : Op Rtc → Option BusEvent
  | .busEvent ev _ => some ev
  | _ => none

namespace Worker

theorem popTask_reads (now : Instant) (taskId : Nat) (container : TaskContainer Rtc)
    (w : Worker Rtc) : (w.popTask ext now taskId container).2.filterMap Action.readEvent = [] := by
  have hpop : ∀ answer out, (popActions taskId answer out).filterMap Action.readEvent = [] := by
    refine filterMap_popActions_nil (fun _ => rfl) fun o => ?_
    cases o with
    | io action => cases action <;> rfl
    | _ => rfl
  have hrun : ∃ c, (w.popTask ext now taskId container).1.tasks.lookup taskId = some c ∧
      (w.popTask ext now taskId container).2.filterMap Action.readEvent = [] := by
    refine popTask_rule (P := fun _ actions => actions.filterMap Action.readEvent = [])
      (Q := fun _ actions => actions.filterMap Action.readEvent = []) ?_ ?_ rfl
    · intro task actions action task' h _
      rw [List.filterMap_append, h, hpop]
      rfl
    · intro task actions task' h _
      rw [List.filterMap_append, h, hpop]
      rfl
  exact hrun.choose_spec.2

theorem popOne_reads {now : Instant} {taskId : Nat} {w w' : Worker Rtc} {actions : List Action}
    (h : w.popOne ext now taskId = .ok (w', actions)) :
    actions.filterMap Action.readEvent = [] := by
  rcases popOne_cases h with ⟨-, -, rfl⟩ | ⟨c, -, -, rfl⟩
  · rfl
  · exact popTask_reads _ _ _ _

theorem inputTask_reads {now : Instant} {event : WebrtcTaskInput} {taskId : Nat}
    {w w' : Worker Rtc} {actions : List Action}
    (h : w.inputTask ext now event taskId = .ok (w', actions)) :
    actions.filterMap Action.readEvent = [] := by
  rcases inputTask_ok h with ⟨-, -, rfl⟩ | ⟨c, -, -, -, -, -, rfl⟩
  · rfl
  · cases c.task.rtpWrite ext event <;> rfl

theorem handleDatagram_reads {d : Datagram} {w w' : Worker Rtc} {actions : List Action}
    (h : w.handleDatagram ext d = .ok (w', actions)) :
    actions.filterMap Action.readEvent = [] := by
  obtain ⟨found, u, acts, hslot, hcase⟩ := handleDatagram_ok h
  have hacts : acts.filterMap Action.readEvent = [] := by
    rcases slot_ok hslot with ⟨-, rfl⟩ | ⟨-, -, -, -, -, rfl⟩ <;> rfl
  rcases hcase with ⟨-, rfl⟩ | ⟨taskId, v, fed, popped, hin, hpop, rfl⟩
  · exact hacts
  · simp [List.filterMap_append, hacts, inputTask_reads hin, popOne_reads hpop]

/-- A turn logs the one event it took from the bus, if it took one. -/
theorem exec_reads {op : Op Rtc} {w w' : Worker Rtc} {actions : List Action}
    (h : w.exec ext op = .ok (w', actions)) :
    actions.filterMap Action.readEvent = op.readEvent.toList := by
  cases op with
  | busEvent ev now =>
      obtain ⟨fed, hrun, rfl⟩ := handleBusEvent_ok h
      have hnone : fed.filterMap Action.readEvent = [] :=
        forEach_preserves (P := fun os _ => os.filterMap Action.readEvent = [])
          (fun taskId s t os bs hs hos => by
            rw [List.filterMap_append, hos, inputTask_reads hs]
            rfl) hrun rfl
      simp [Action.readEvent, Op.readEvent, hnone]
  | request arrival =>
      obtain ⟨req, -, ⟨task, -, hadd⟩ | ⟨-, rfl⟩⟩ := handleRequest_ok h
      · cases hadd
        exact popTask_reads arrival.now w.taskIdSeed (.ofTask task) _
      · rfl
  | tick order now =>
      obtain ⟨-, rfl⟩ := processTick_ok h
      rfl
  | pop taskId now => exact popOne_reads h
  | popEnded =>
      refine forEach_preserves (P := fun os _ => os.filterMap Action.readEvent = []) ?_ h rfl
      intro taskId s t os bs hs hos
      obtain ⟨c, -, -, rfl⟩ := removeTask_ok.mp hs
      rw [List.filterMap_append, hos]
      rfl
  | datagram d => exact handleDatagram_reads h

end Worker

/-! ### The journal of a run -/

/--
What a thread has seen of the bus: nothing before its reader is added, and after that
one stretch of it, which ends where the reader stands.
-/
structure WorkerSlot.Reading (seen bus : List BusEvent) (slot : WorkerSlot Rtc) : Prop where
  starting : slot.phase = .starting → seen = []
  stretch : ∃ start, start ≤ bus.length ∧ seen <+: bus.drop start ∧
    ∀ pos, slot.reader = some pos → pos = start + seen.length

namespace Server

/-- A journal against the state it led to. -/
structure Journal (ext : Extern Rtc) (localAddrs : Fin n → SocketAddr)
    (entries : List (Entry n)) (s : Server n Rtc) : Prop where
  worker : ∀ v, Worker.Reaches ext (fun _ _ => True) (localAddrs v) (actionsOf v entries)
    (s.slots v).worker
  reading : ∀ v, (s.slots v).Reading (reads v entries) s.bus
  bus : ∀ ev ∈ s.bus, ∃ u taskId, (u, Action.broadcast taskId ev) ∈ entries
  outgoing : ∀ v, ∀ a ∈ (s.slots v).outgoing, (v, a) ∈ entries

theorem journal_new (localAddrs : Fin n → SocketAddr) :
    Journal ext localAddrs [] (Server.new localAddrs : Server n Rtc) := by
  refine ⟨fun v => .refl _, fun v => ⟨fun _ => rfl, 0, by simp, by simp [reads, actionsOf], ?_⟩,
    by simp [Server.new], ?_⟩
  · simp [Server.new, WorkerSlot.new]
  · simp [Server.new, WorkerSlot.new]

namespace Journal

variable {localAddrs : Fin n → SocketAddr} {entries : List (Entry n)} {s s' : Server n Rtc}

theorem still (h : Journal ext localAddrs entries s) (hbus : s'.bus = s.bus)
    (hstill : ∀ v, (s.slots v).Still (s'.slots v)) : Journal ext localAddrs entries s' := by
  refine ⟨fun v => (hstill v).worker ▸ h.worker v, fun v => ?_, hbus ▸ h.bus, ?_⟩
  · obtain ⟨hstart, start, hle, hseen, hpos⟩ := h.reading v
    rw [hbus]
    exact ⟨fun hp => hstart ((hstill v).starting hp), start, hle, hseen,
      fun pos hr => hpos pos ((hstill v).reader pos hr)⟩
  · exact fun v a ha => h.outgoing v a ((hstill v).outgoing a ha)

/-- A reader starts at the end of the bus. -/
theorem spawn (h : Journal ext localAddrs entries s) {w : Fin n}
    (hphase : (s.slots w).phase = .starting) :
    Journal ext localAddrs entries
      (s.setSlot w { s.slots w with phase := .busRecv, reader := some s.bus.length }) := by
  refine ⟨forall_setSlot (P := fun v slot => Worker.Reaches ext (fun _ _ => True) (localAddrs v)
      (actionsOf v entries) slot.worker) (h.worker w) h.worker, fun v => ?_, h.bus,
    forall_setSlot (P := fun v slot => ∀ a ∈ slot.outgoing, (v, a) ∈ entries)
      (h.outgoing w) h.outgoing⟩
  rw [setSlot_slots]
  split
  · rename_i hv
    subst hv
    have hnone := (h.reading v).starting hphase
    refine ⟨by simp, s.bus.length, Nat.le_refl _, by simp [hnone], fun pos hpos => ?_⟩
    simp only [Option.some.injEq] at hpos
    simp [hnone, hpos]
  · exact h.reading v

theorem turn (h : Journal ext localAddrs entries s) {w : Fin n} {op : Op Rtc}
    {slot : WorkerSlot Rtc} {worker : Worker Rtc} {actions : List Action}
    (htaken : WorkerSlot.Taken s.bus op (s.slots w) slot)
    (hexec : (s.slots w).worker.exec ext op = .ok (worker, actions)) :
    Journal ext localAddrs (entries ++ actions.map (Prod.mk w))
      (s.setSlot w { slot with worker, outgoing := actions.filter Action.isShared }) := by
  have hactions : ∀ v, actionsOf v (entries ++ actions.map (Prod.mk w))
      = actionsOf v entries ++ if w = v then actions else [] := by
    intro v
    rw [actionsOf_append, actionsOf_turn]
  refine ⟨fun v => ?_, fun v => ?_, ?_, fun v a ha => ?_⟩
  · rw [hactions, setSlot_slots]
    by_cases hv : v = w
    · subst hv
      rw [if_pos rfl, if_pos rfl]
      exact (h.worker v).exec op (fun _ _ => trivial) hexec
    · rw [if_neg hv, if_neg (Ne.symm hv), List.append_nil]
      exact h.worker v
  · rw [setSlot_slots, reads, hactions]
    by_cases hv : v = w
    · subst hv
      rw [if_pos rfl, if_pos rfl, List.filterMap_append, Worker.exec_reads hexec]
      obtain ⟨-, start, hle, hseen, hpos⟩ := h.reading v
      refine ⟨fun hp => absurd hp htaken.started.2, start, hle, ?_⟩
      have hreader := htaken.reader
      cases op with
      | busEvent ev now =>
          -- The event read is the one where the reader stood.
          obtain ⟨pos, hold, hev, hnew⟩ := hreader
          have hat : (s.bus.drop start)[(reads v entries).length]? = some ev := by
            rw [List.getElem?_drop, ← hpos pos hold, hev]
          obtain ⟨hlt, hget⟩ := List.getElem?_eq_some_iff.mp hat
          refine ⟨?_, fun pos' hpos' => ?_⟩
          · have hlong := List.concat_get_prefix hseen hlt
            rw [List.get_eq_getElem, hget] at hlong
            exact hlong
          · rw [hnew] at hpos'
            cases hpos'
            rw [hpos pos hold]
            simp [Op.readEvent, reads, Nat.add_assoc]
      | _ =>
          simp only [Op.readEvent, Option.toList_none, List.append_nil]
          exact ⟨hseen, fun pos hr => hpos pos (hreader ▸ hr)⟩
    · rw [if_neg hv, if_neg (Ne.symm hv), List.append_nil]
      exact h.reading v
  · intro ev hev
    obtain ⟨u, taskId, hmem⟩ := h.bus ev hev
    exact ⟨u, taskId, List.mem_append_left _ hmem⟩
  · rw [setSlot_slots] at ha
    split at ha
    · rename_i hv
      subst hv
      exact List.mem_append_right _ (List.mem_map_of_mem (List.mem_of_mem_filter ha))
    · exact List.mem_append_left _ (h.outgoing v a ha)

theorem broadcast (h : Journal ext localAddrs entries s) {w : Fin n} {taskId : Nat} {ev : BusEvent}
    {rest : List Action} (hout : (s.slots w).outgoing = .broadcast taskId ev :: rest) :
    Journal ext localAddrs entries
      { s.setSlot w { s.slots w with outgoing := rest } with
        bus := s.bus ++ [ev]
        lock := none } := by
  have hstill : ∀ v, (s.slots v).Still
      ((s.setSlot w { s.slots w with outgoing := rest }).slots v) :=
    still_setSlot ⟨rfl, id, fun _ => id, fun a ha => hout ▸ List.mem_cons_of_mem _ ha⟩
  have hkept : Journal ext localAddrs entries
      (s.setSlot w { s.slots w with outgoing := rest }) := h.still rfl hstill
  obtain ⟨hworker, hreading, -, houtgoing⟩ := hkept
  refine ⟨hworker, fun v => ?_, ?_, houtgoing⟩
  · obtain ⟨hstart, start, hle, hseen, hpos⟩ := hreading v
    refine ⟨hstart, start, ?_, hseen.trans ((List.prefix_append _ _).drop start), hpos⟩
    simp only [List.length_append]
    exact Nat.le_add_right_of_le hle
  · intro e he
    rcases List.mem_append.mp he with he | he
    · exact h.bus e he
    · have hmem := h.outgoing w (.broadcast taskId ev) (by simp [hout])
      exact ⟨w, taskId, List.mem_singleton.mp he ▸ hmem⟩

theorem step {bs : List (Entry n)} (h : Journal ext localAddrs entries s)
    (hs : Moves ext s bs s') : Journal ext localAddrs (entries ++ bs) s' := by
  refine Moves.rule (P := fun bs s' => Journal ext localAddrs (entries ++ bs) s') ?_ ?_ ?_ ?_ hs
  · intro t hbus hstill
    rw [List.append_nil]
    exact h.still hbus hstill
  · intro w hphase
    rw [List.append_nil]
    exact h.spawn hphase
  · exact fun w op slot worker actions htaken hexec => h.turn htaken hexec
  · intro w taskId ev rest hout
    rw [List.append_nil]
    exact h.broadcast hout

end Journal

/-- **Every run of the server keeps its journal.** -/
theorem Reaches.journal {localAddrs : Fin n → SocketAddr} {entries : List (Entry n)}
    {s : Server n Rtc} (h : Reaches ext localAddrs entries s) :
    Journal ext localAddrs entries s :=
  Emits.preserves (P := fun es s => Journal ext localAddrs es s)
    (fun _ _ _ _ hJ hs => hJ.step hs) h (journal_new localAddrs)

/-- An event is read after it was broadcast. -/
theorem Reaches.read_broadcast {localAddrs : Fin n → SocketAddr} {entries pre post : List (Entry n)}
    {s : Server n Rtc} (h : Reaches ext localAddrs entries s) {v : Fin n} {ev : BusEvent}
    (hsplit : entries = pre ++ (v, .read ev) :: post) :
    ∃ u taskId, (u, Action.broadcast taskId ev) ∈ pre := by
  refine Emits.causal (I := fun es s => Journal ext localAddrs es s)
    (C := fun es e => ∀ ev, e.2 = .read ev → ∃ u taskId, (u, Action.broadcast taskId ev) ∈ es)
    (fun _ _ _ _ hJ hs => hJ.step hs) ?_ h (journal_new localAddrs) pre _ post hsplit ev rfl
  intro es t bs t' hJ hs pre x post hbs ev hx
  have hread : ev ∈ t.bus := by
    refine Moves.rule (P := fun bs _ => ∀ x ∈ bs, x.2 = .read ev → ev ∈ t.bus)
      (fun _ _ _ => by simp) (fun _ _ => by simp) ?_ (fun _ _ _ _ _ => by simp) hs x (by simp [hbs])
      hx
    intro w op slot worker actions htaken hexec x hx hev
    obtain ⟨a, ha, rfl⟩ := List.mem_map.mp hx
    replace hev : a = .read ev := hev
    have hmem : ev ∈ op.readEvent.toList :=
      Worker.exec_reads hexec ▸ List.mem_filterMap.mpr ⟨a, ha, by rw [hev]; rfl⟩
    have hreader := htaken.reader
    cases op with
    | busEvent ev' now =>
        obtain ⟨pos, -, hget, -⟩ := hreader
        simp only [Op.readEvent, Option.toList_some, List.mem_singleton] at hmem
        subst hmem
        exact List.mem_of_getElem? hget
    | _ => cases hmem
  obtain ⟨u, taskId, hmem⟩ := hJ.bus ev hread
  exact ⟨u, taskId, List.mem_append_left _ hmem⟩

end Server

end MediaServer
