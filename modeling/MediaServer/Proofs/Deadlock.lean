/-
The bus and the lock in front of it.

Every worker reads the bus and every worker writes it, and a write waits, with the
lock in hand, for the slowest reader.  A worker only reads in the first phase of its
cycle.  So if the holder of the lock is its own slowest reader, or the slowest reader
is a worker that stands in line for the lock, nobody moves again: `Stuck` says this of
a state, and `Stuck.step` that there is no way out of it.

Nothing in the code keeps it from happening.  `Prudent` is what would have to hold of
the two steps that can bring it about, and it is exact: a run goes through a stuck
state if and only if one of its steps is not prudent.
-/
import MediaServer.Proofs.Server
import MediaServer.Script

namespace MediaServer

open Lib

variable {Rtc : Type} {n : Nat} {ext : Extern Rtc}

/-- The labels that ask for the lock, get it, or give it back. -/
def Label.isLock : Label n Rtc → Bool
  | .lock _ | .acquire _ | .broadcast _ => true
  | _ => false

namespace Server

/--
The holder of the lock waits for a reader that will not read: its own, or that of a
worker that stands in line for the lock.
-/
def Stuck (s : Server n Rtc) : Prop :=
  ∃ w v, s.lock = some w ∧ (s.slots v).full s.bus = true ∧ (v = w ∨ (s.slots v).queued = true)

/--
A worker that finds the lock taken has room in its own reader, and where the lock is
granted every worker in line, the one it is granted to among them, has.
-/
def Prudent (s : Server n Rtc) : Label n Rtc → Prop
  | .lock w => s.lock = none ∨ (s.slots w).full s.bus = false
  | .acquire _ => ∀ v, (s.slots v).queued = true → (s.slots v).full s.bus = false
  | _ => True

/-! ### Steps that leave the lock alone -/

/--
What every other step does to the bus, the lock and the line in front of it: nothing,
but that a reader may get room.  A worker whose shared actions change was not waiting.
-/
structure Calm (s s' : Server n Rtc) : Prop where
  lock : s'.lock = s.lock
  bus : s'.bus = s.bus
  queued : ∀ v, (s'.slots v).queued = (s.slots v).queued
  full : ∀ v, (s'.slots v).full s'.bus = true → (s.slots v).full s.bus = true
  outgoing : ∀ v, (s'.slots v).outgoing = (s.slots v).outgoing ∨
    ∀ taskId ev rest, (s.slots v).outgoing ≠ .broadcast taskId ev :: rest
  reader : ∀ v, (s'.slots v).reader = (s.slots v).reader ∨ (s.slots v).outgoing = [] ∨
    s.lock = none

/-- Rewriting one slot is calm if the slot is. -/
theorem calm_setSlot {s : Server n Rtc} {w : Fin n} {slot : WorkerSlot Rtc}
    (queued : slot.queued = (s.slots w).queued)
    (full : slot.full s.bus = true → (s.slots w).full s.bus = true)
    (outgoing : slot.outgoing = (s.slots w).outgoing ∨
      ∀ taskId ev rest, (s.slots w).outgoing ≠ .broadcast taskId ev :: rest)
    (reader : slot.reader = (s.slots w).reader ∨ (s.slots w).outgoing = [] ∨ s.lock = none) :
    Calm s (s.setSlot w slot) := by
  refine ⟨rfl, rfl, fun v => ?_, fun v => ?_, fun v => ?_, fun v => ?_⟩ <;>
    simp only [setSlot_slots, setSlot_bus] <;> split
  · rename_i hv
    rw [hv, queued]
  · rfl
  · rename_i hv
    rw [hv]
    exact full
  · exact id
  · rename_i hv
    rw [hv]
    exact outgoing
  · exact .inl rfl
  · rename_i hv
    rw [hv]
    exact reader
  · exact .inl rfl

theorem calm_of_step {s s' : Server n Rtc} {l : Label n Rtc} (hl : l.isLock = false)
    (hs : s.step ext l = some s') : Calm s s' := by
  cases l with
  | arrive req =>
      obtain ⟨-, rfl⟩ := arrive_some hs
      have hslot : ∀ v, ((s.input { req with reqId := s.reqId }).slots v).queued
            = (s.slots v).queued ∧
          ((s.input { req with reqId := s.reqId }).slots v).reader = (s.slots v).reader ∧
          ((s.input { req with reqId := s.reqId }).slots v).outgoing = (s.slots v).outgoing := by
        intro v
        rcases input_slots { req with reqId := s.reqId } s v with heq | ⟨-, -, -, heq⟩ <;>
          rw [heq] <;> exact ⟨rfl, rfl, rfl⟩
      refine ⟨by simp, by simp, fun v => (hslot v).1, fun v => ?_, fun v => .inl (hslot v).2.2,
        fun v => .inl (hslot v).2.1⟩
      simp only [WorkerSlot.full, (hslot v).2.1, input_bus]
      exact id
  | insert =>
      obtain ⟨-, rfl⟩ := insert_some hs
      exact ⟨rfl, rfl, fun _ => rfl, fun _ => id, fun _ => .inl rfl, fun _ => .inl rfl⟩
  | respond =>
      obtain ⟨res, rest, -, -, ⟨-, rfl⟩ | ⟨-, rfl⟩⟩ := respond_some hs
      · exact ⟨rfl, rfl, fun _ => rfl, fun _ => id, fun _ => .inl rfl, fun _ => .inl rfl⟩
      · exact ⟨rfl, rfl, fun _ => rfl, fun _ => id, fun _ => .inl rfl, fun _ => .inl rfl⟩
  | spawn w =>
      obtain ⟨-, hlock, rfl⟩ := spawn_some hs
      refine calm_setSlot rfl ?_ (.inl rfl) (.inr (.inr hlock))
      simp [WorkerSlot.full, busCapacity]
  | turn w op =>
      obtain ⟨hidle, slot, htaken, hcase⟩ := turn_some hs
      have hfull : slot.full s.bus = true → (s.slots w).full s.bus = true := by
        have hreader := htaken.reader
        cases op with
        | busEvent ev now =>
            obtain ⟨pos, hpos, -, hpos'⟩ := hreader
            simp only [WorkerSlot.full, hpos, hpos', decide_eq_true_eq]
            omega
        | _ =>
            simp only [WorkerSlot.full]
            rw [hreader]
            exact id
      have hout : ∀ taskId ev rest, (s.slots w).outgoing ≠ .broadcast taskId ev :: rest := by
        simp [hidle]
      rcases hcase with ⟨p, -, rfl⟩ | ⟨worker, actions, -, rfl⟩
      · exact calm_setSlot htaken.queued (by simp [WorkerSlot.full, WorkerSlot.panic]) (.inr hout)
          (.inr (.inl hidle))
      · exact calm_setSlot htaken.queued hfull (.inr hout) (.inr (.inl hidle))
  | nextPhase w =>
      obtain ⟨-, phase, -, -, -, rfl⟩ := nextPhase_some hs
      exact calm_setSlot rfl id (.inl rfl) (.inl rfl)
  | startPop w order now =>
      obtain ⟨-, -, rfl⟩ := startPop_some hs
      exact calm_setSlot rfl id (.inl rfl) (.inl rfl)
  | reply w =>
      obtain ⟨res, rest, hout, rfl⟩ := reply_some hs
      have hcalm : Calm s (s.setSlot w { s.slots w with outgoing := rest }) := by
        refine calm_setSlot rfl id (.inr fun taskId ev rest' hb => ?_) (.inl rfl)
        rcases hout with hout | ⟨hout, -⟩ <;> rw [hb] at hout <;> cases hout
      exact ⟨hcalm.lock, hcalm.bus, hcalm.queued, hcalm.full, hcalm.outgoing, hcalm.reader⟩
  | lock w => cases hl
  | acquire w => cases hl
  | broadcast w => cases hl

/-! ### Who waits has something to broadcast -/

/-- A worker that holds the lock or stands in line for it is at a broadcast; not both. -/
structure Waits (s : Server n Rtc) : Prop where
  outgoing : ∀ w, s.lock = some w ∨ (s.slots w).queued = true →
    ∃ taskId ev rest, (s.slots w).outgoing = .broadcast taskId ev :: rest
  holder : ∀ w, s.lock = some w → (s.slots w).queued = false

theorem waits_new (localAddrs : Fin n → SocketAddr) :
    (Server.new localAddrs : Server n Rtc).Waits :=
  ⟨fun w hw => by simp [Server.new, WorkerSlot.new] at hw, fun w h => by cases h⟩

theorem Waits.step {s s' : Server n Rtc} {l : Label n Rtc} (h : s.Waits)
    (hs : s.step ext l = some s') : s'.Waits := by
  cases hl : l.isLock with
  | false =>
      have hc := calm_of_step hl hs
      refine ⟨fun w hw => ?_, fun w hw => ?_⟩
      · rw [hc.lock, hc.queued] at hw
        obtain ⟨taskId, ev, rest, hout⟩ := h.outgoing w hw
        rcases hc.outgoing w with heq | hnot
        · exact ⟨taskId, ev, rest, heq.trans hout⟩
        · exact absurd hout (hnot taskId ev rest)
      · rw [hc.lock] at hw
        rw [hc.queued]
        exact h.holder w hw
  | true =>
      cases l with
      | lock w =>
          obtain ⟨hout, -, hlock, rfl⟩ := callLock_some hs
          refine ⟨fun v hv => ?_, fun v hv => ?_⟩
          · simp only [setSlot_lock, setSlot_slots] at hv ⊢
            split at hv
            · rename_i hvw
              simpa [hvw] using hout
            · rename_i hvw
              rw [if_neg hvw]
              exact h.outgoing v hv
          · have hvw : v ≠ w := fun heq => hlock (heq ▸ hv)
            simpa [hvw] using h.holder v hv
      | acquire w =>
          obtain ⟨hqueued, hlock, rfl⟩ := acquire_some hs
          refine ⟨fun v hv => ?_, fun v hv => ?_⟩
          · have hv' : (s.slots v).queued = true := by
              by_cases hvw : v = w
              · exact hvw ▸ hqueued
              · simpa [hvw, Ne.symm hvw] using hv
            have hout := h.outgoing v (.inr hv')
            by_cases hvw : v = w
            · subst hvw
              simpa using hout
            · simpa [hvw] using hout
          · cases hv
            simp
      | broadcast w =>
          obtain ⟨taskId, ev, rest, hout, hlock, -, rfl⟩ := broadcast_some hs
          refine ⟨fun v hv => ?_, fun v hv => by cases hv⟩
          have hvw : v ≠ w := by
            rintro rfl
            simp [h.holder v hlock] at hv
          simp only [setSlot_slots, if_neg hvw, reduceCtorEq, false_or] at hv ⊢
          exact h.outgoing v (.inr hv)
      | _ => cases hl

/-! ### No way in but one, and no way out -/

/-- A state becomes stuck only by a step that is not prudent. -/
theorem not_stuck_step {s s' : Server n Rtc} {l : Label n Rtc} (h : ¬ s.Stuck)
    (hprudent : s.Prudent l) (hs : s.step ext l = some s') : ¬ s'.Stuck := by
  rintro ⟨w, v, hlock, hfull, hv⟩
  cases hl : l.isLock with
  | false =>
      have hc := calm_of_step hl hs
      rw [hc.lock] at hlock
      rw [hc.queued] at hv
      exact h ⟨w, v, hlock, hc.full v hfull, hv⟩
  | true =>
      cases l with
      | lock u =>
          obtain ⟨-, -, hne, rfl⟩ := callLock_some hs
          simp only [setSlot_lock, setSlot_slots, setSlot_bus] at hlock hfull hv
          split at hfull
          · -- The worker that has just called `lock`.
            rename_i hvu
            subst hvu
            rcases hprudent with hfree | hroom
            · rw [hlock] at hfree
              cases hfree
            · rw [show (s.slots v).full s.bus = true from hfull] at hroom
              cases hroom
          · rename_i hvu
            rw [if_neg hvu] at hv
            exact h ⟨w, v, hlock, hfull, hv⟩
      | acquire u =>
          obtain ⟨hqueued, -, rfl⟩ := acquire_some hs
          obtain rfl : u = w := Option.some.inj hlock
          have hslot : (s.slots v).queued = true ∧ (s.slots v).full s.bus = true := by
            by_cases hvu : v = u
            · subst hvu
              rw [setSlot_slots, if_pos rfl] at hfull
              exact ⟨hqueued, hfull⟩
            · rw [setSlot_slots, if_neg hvu] at hfull hv
              exact ⟨hv.resolve_left hvu, hfull⟩
          rw [hprudent v hslot.1] at hslot
          cases hslot.2
      | broadcast u =>
          obtain ⟨taskId, ev, rest, -, -, -, rfl⟩ := broadcast_some hs
          cases hlock
      | _ => cases hl

/-- And a step that is not prudent leads to one. -/
theorem stuck_of_not_prudent {s s' : Server n Rtc} {l : Label n Rtc} (hprudent : ¬ s.Prudent l)
    (hs : s.step ext l = some s') : s'.Stuck := by
  cases l with
  | lock w =>
      obtain ⟨-, -, -, rfl⟩ := callLock_some hs
      simp only [Prudent, not_or, Bool.not_eq_false] at hprudent
      obtain ⟨u, hu⟩ := Option.ne_none_iff_exists'.mp hprudent.1
      refine ⟨u, w, hu, ?_, .inr (by simp)⟩
      rw [setSlot_slots, if_pos rfl]
      exact hprudent.2
  | acquire w =>
      obtain ⟨hqueued, -, rfl⟩ := acquire_some hs
      simp only [Prudent, not_forall, Bool.not_eq_false] at hprudent
      obtain ⟨v, hv, hfull⟩ := hprudent
      refine ⟨w, v, rfl, ?_, ?_⟩
      · by_cases hvw : v = w
        · subst hvw
          rw [setSlot_slots, if_pos rfl]
          exact hfull
        · rw [setSlot_slots, if_neg hvw]
          exact hfull
      · by_cases hvw : v = w
        · exact .inl hvw
        · exact .inr (by simpa [hvw] using hv)
  | _ => exact absurd trivial hprudent

/-- **There is no way out**: the holder never broadcasts, and the reader it waits for never reads. -/
theorem Stuck.step {s s' : Server n Rtc} {l : Label n Rtc} (hw : s.Waits) (h : s.Stuck)
    (hs : s.step ext l = some s') : s'.Stuck := by
  obtain ⟨w, v, hlock, hfull, hv⟩ := h
  obtain ⟨taskId, ev, rest, hout⟩ := hw.outgoing v (hv.imp_left fun heq => by rw [heq, hlock])
  cases hl : l.isLock with
  | false =>
      have hc := calm_of_step hl hs
      refine ⟨w, v, hc.lock.trans hlock, ?_, by rwa [hc.queued]⟩
      have hreader : (s'.slots v).reader = (s.slots v).reader := by
        rcases hc.reader v with heq | hidle | hfree
        · exact heq
        · rw [hidle] at hout
          cases hout
        · rw [hlock] at hfree
          cases hfree
      unfold WorkerSlot.full at hfull ⊢
      rw [hreader, hc.bus]
      exact hfull
  | true =>
      cases l with
      | lock u =>
          obtain ⟨-, -, -, rfl⟩ := callLock_some hs
          refine ⟨w, v, hlock, ?_, ?_⟩ <;> rw [setSlot_slots] <;> split
          · rename_i hvu
            exact hvu ▸ hfull
          · exact hfull
          · exact .inr rfl
          · exact hv
      | acquire u =>
          obtain ⟨-, hfree, -⟩ := acquire_some hs
          rw [hlock] at hfree
          cases hfree
      | broadcast u =>
          obtain ⟨-, -, -, -, -, hroom, -⟩ := broadcast_some hs
          exact absurd ⟨v, hfull⟩ hroom
      | _ => cases hl

end Server

/-! ### Runs -/

theorem Server.not_stuck_new (localAddrs : Fin n → SocketAddr) :
    ¬ (Server.new localAddrs : Server n Rtc).Stuck := by
  rintro ⟨w, v, hlock, -⟩
  cases hlock

/--
**The bus deadlocks exactly where the lock is asked for or granted imprudently.**  For
any number of workers, any interleaving of their steps and any engines: a run goes
through no stuck state if and only if, whenever one of its steps calls `lock` while
another worker holds it, the caller's own reader has room, and whenever one of its
steps is granted the lock, every worker in line for it has.
-/
theorem deadlock_free_iff (localAddrs : Fin n → SocketAddr) (labels : List (Label n Rtc)) :
    (∀ s, Visits (Server.step ext) (Server.new localAddrs) labels s → ¬ s.Stuck) ↔
      Meets (Server.step ext) Server.Prudent (Server.new localAddrs) labels := by
  constructor
  · intro hfree pre l s t hpre hs ht
    by_contra hprudent
    refine hfree t ⟨pre ++ [l], hpre, ?_⟩ (Server.stuck_of_not_prudent hprudent ht)
    exact runLabels_concat.mpr ⟨s, hs, ht⟩
  · rintro hmeets s ⟨pre, hpre, hs⟩
    refine runLabels_invariant (P := fun _ s => ¬ s.Stuck) (Server.not_stuck_new localAddrs) ?_
      pre s (hmeets.restrict hpre) hs
    intro as s l t _ hstuck hprudent hstep
    exact Server.not_stuck_step hstuck hprudent hstep

/-- A run that has gone through a stuck state stays stuck. -/
theorem stuck_forever (localAddrs : Fin n → SocketAddr) (as bs : List (Label n Rtc))
    {s t : Server n Rtc} (hs : runLabels (Server.step ext) (Server.new localAddrs) as = some s)
    (hstuck : s.Stuck) (ht : runLabels (Server.step ext) s bs = some t) : t.Stuck := by
  have hwaits : s.Waits :=
    runLabels_preserves (fun _ _ _ hw hstep => hw.step hstep) hs (Server.waits_new localAddrs)
  exact (runLabels_preserves (I := fun s => s.Waits ∧ s.Stuck)
    (fun _ _ _ h hstep => ⟨h.1.step hstep, h.2.step h.1 hstep⟩) ht ⟨hwaits, hstuck⟩).2

/-! ### A flood

A publisher that sends packets faster than one pass over the datagrams ends.  Each is
broadcast at once, none is read, and the thousand and first finds the bus full.
-/

namespace Script

/-- Whether this is a publisher that was polled to the end. -/
def idlePublisher : Option (TaskContainer Script) → Bool
  | some ⟨.whip task, _, _, _⟩ => task.outputs.isEmpty && task.rtc.isEmpty
  | _ => false

/-- A worker with such a publisher, bound to port 7. -/
structure Publishing (w : Worker Script) : Prop where
  remote : w.taskRemotes.lookup (peer 7) = some 0
  task : idlePublisher (w.tasks.lookup 0) = true

/-- A datagram with an audio packet. -/
def media : Worker.Datagram := datagram 7 [4, 111]

/-- Such a datagram is broadcast, and leaves the worker as it was. -/
theorem Publishing.media {w : Worker Script} (h : Publishing w) :
    ∃ w' actions ev, w.handleDatagram engine Script.media = .ok (w', actions) ∧
      actions.filter Action.isShared = [.broadcast 0 ev] ∧ Publishing w' := by
  have htask := h.task
  unfold idlePublisher at htask
  split at htask
  swap
  · cases htask
  rename_i task remotes subChannels pubChannels hc
  obtain ⟨⟨ufrag, timeout, rtc, outputs, audioMid, videoMid⟩, audio, video⟩ := task
  simp only [Bool.and_eq_true, List.isEmpty_iff] at htask
  obtain ⟨rfl, rfl⟩ := htask
  -- The session with the packet still to be polled, and polled.
  let fed (rtc : Script) (timeout : Option Instant) : TaskContainer Script :=
    { task := .whip { iceUfrag := ufrag, timeout, rtc, outputs := [], audioMid, videoMid,
                      audioTrackId := audio, videoTrackId := video }
      remotes, subChannels, pubChannels }
  let heard := fed [.event (.rtpPacket (packet 111 []))] none
  have hslot : w.slot engine Script.media = .ok (some 0, w, []) := by
    rw [Worker.slot, show Script.media.remote = peer 7 from rfl, h.remote]
  have hin : w.inputTask engine Script.media.now
      (.io (.udpSocketRecv Script.media.remote w.udpSocketLocalAddr Script.media.buf)) 0
        = .ok ({ w with tasks := w.tasks.insert 0 heard },
            [.input 0 (.io (.udpSocketRecv (peer 7) w.udpSocketLocalAddr [4, 111]))]) := by
    rw [Worker.inputTask, hc]
    rfl
  have hpop : Worker.popOne engine Script.media.now 0
      { w with tasks := w.tasks.insert 0 heard }
        = .ok (Worker.popTask engine 0 0 heard { w with tasks := w.tasks.insert 0 heard }) := by
    simp [Worker.popOne, Script.media, datagram]
  let polled := Worker.popTask engine 0 0 heard { w with tasks := w.tasks.insert 0 heard }
  have hpolled : polled.1.tasks.lookup 0 = some (fed [] (some 0)) := by
    simp only [polled, Worker.popTask, Table.lookup_insert_ite]
    rfl
  refine ⟨polled.1, .input 0 (.io (.udpSocketRecv (peer 7) w.udpSocketLocalAddr [4, 111])) ::
    polled.2, .trackMedia (.fromRaw audio (packet 111 [])), ?_, rfl, h.remote, by rw [hpolled]; rfl⟩
  rw [Worker.handleDatagram, hslot]
  simp only
  rw [forEach_cons (f := fun turn => turn) hin, forEach_cons (f := fun turn => turn) hpop]
  rfl

end Script

namespace Server

/-- The one worker is in `process_udp`, and `k` events are in the bus that it has not read. -/
structure Flooded (k : Nat) (s : Server 1 Script) : Prop where
  phase : (s.slots 0).phase = .udp
  outgoing : (s.slots 0).outgoing = []
  queued : (s.slots 0).queued = false
  reader : (s.slots 0).reader = some 0
  worker : Script.Publishing (s.slots 0).worker
  lock : s.lock = none
  bus : s.bus.length = k

/-- One more packet, up to the moment the lock is granted. -/
theorem Flooded.granted {k : Nat} {s : Server 1 Script} (h : Flooded k s) :
    ∃ s' ev, runLabels (step Script.engine) s [.turn 0 (.datagram Script.media), .lock 0, .acquire 0]
        = some s' ∧
      s'.lock = some 0 ∧ s'.bus = s.bus ∧ (s'.slots 0).phase = .udp ∧
      (s'.slots 0).outgoing = [.broadcast 0 ev] ∧ (s'.slots 0).queued = false ∧
      (s'.slots 0).reader = some 0 ∧ Script.Publishing (s'.slots 0).worker := by
  obtain ⟨w', actions, ev, hrun, hshared, hw'⟩ := h.worker.media
  have hturn : s.step Script.engine (.turn 0 (.datagram Script.media))
      = some (s.setSlot 0 { s.slots 0 with worker := w', outgoing := [.broadcast 0 ev] }) := by
    simp only [step, turn, WorkerSlot.idle, h.outgoing, List.isEmpty_nil, if_true,
      WorkerSlot.take, h.phase, Option.map_some, Worker.exec, hrun, hshared]
  have hlock : (s.setSlot 0 { s.slots 0 with worker := w', outgoing := [.broadcast 0 ev] }).step
      Script.engine (.lock 0)
      = some (s.setSlot 0 { s.slots 0 with
          worker := w', outgoing := [.broadcast 0 ev], queued := true }) := by
    simp [step, callLock, h.queued, h.lock]
  have hacquire : (s.setSlot 0 { s.slots 0 with
        worker := w', outgoing := [.broadcast 0 ev], queued := true }).step
      Script.engine (.acquire 0)
      = some { s.setSlot 0 { s.slots 0 with
          worker := w', outgoing := [.broadcast 0 ev], queued := false } with lock := some 0 } := by
    simp [step, acquire, h.lock]
  refine ⟨{ s.setSlot 0 { s.slots 0 with
      worker := w', outgoing := [.broadcast 0 ev], queued := false } with lock := some 0 }, ev,
    ?_, rfl, rfl, h.phase, rfl, rfl, h.reader, hw'⟩
  rw [runLabels_cons hturn, runLabels_cons hlock, runLabels_cons hacquire]
  rfl

/-- With room for it, the packet goes into the bus. -/
theorem Flooded.next {k : Nat} {s : Server 1 Script} (h : Flooded k s) (hk : k < busCapacity) :
    ∃ labels s', runLabels (step Script.engine) s labels = some s' ∧ Flooded (k + 1) s' := by
  obtain ⟨s', ev, hrun, hlock, hbus, hphase, hout, hqueued, hreader, hworker⟩ := h.granted
  have hroom : ¬ s'.blocked := by
    rintro ⟨v, hv⟩
    rw [Subsingleton.elim v 0] at hv
    simp [WorkerSlot.full, hreader, hbus, h.bus, Nat.not_le.mpr hk] at hv
  have hbroadcast : s'.step Script.engine (.broadcast 0)
      = some { s'.setSlot 0 { s'.slots 0 with outgoing := [] } with
          bus := s'.bus ++ [ev]
          lock := none } := by
    simp [step, broadcast, hout, hlock, hroom]
  refine ⟨_ ++ [.broadcast 0], _, runLabels_concat.mpr ⟨s', hrun, hbroadcast⟩, ?_⟩
  exact ⟨hphase, rfl, hqueued, hreader, hworker, rfl, by simp [hbus, h.bus]⟩

/-- However many packets the bus has room for come in, one pass over the datagrams takes them. -/
theorem Flooded.fill {s : Server 1 Script} (h : Flooded 0 s) :
    ∀ k, k ≤ busCapacity →
      ∃ labels s', runLabels (step Script.engine) s labels = some s' ∧ Flooded k s' := by
  intro k
  induction k with
  | zero => exact fun _ => ⟨[], s, rfl, h⟩
  | succ k ih =>
      intro hk
      obtain ⟨as, t, ht, hflooded⟩ := ih (by omega)
      obtain ⟨bs, u, hu, hnext⟩ := hflooded.next (by omega)
      exact ⟨as ++ bs, u, by rw [runLabels_append, ht]; exact hu, hnext⟩

/-- And the packet after those has its worker wait for itself. -/
theorem Flooded.stuck {s : Server 1 Script} (h : Flooded busCapacity s) :
    ∃ labels s', runLabels (step Script.engine) s labels = some s' ∧ s'.Stuck := by
  obtain ⟨s', ev, hrun, hlock, hbus, -, -, -, hreader, -⟩ := h.granted
  refine ⟨_, s', hrun, 0, 0, hlock, ?_, .inl rfl⟩
  simp [WorkerSlot.full, hreader, hbus, h.bus]

end Server

/-- The steps up to the publisher's first datagram. -/
def Script.opening : List (Label 1 Script) :=
  [.arrive (request 0 "/whip/endpoint" [0x76]), .insert, .spawn 0, .nextPhase 0,
    .turn 0 (.request (arrival 0 "/whip/endpoint" [0x76] "abc" [])), .reply 0, .nextPhase 0,
    .turn 0 (.tick [0] 0), .startPop 0 [0] 0, .turn 0 (.pop 0 0), .nextPhase 0,
    .turn 0 .popEnded, .turn 0 (.datagram (datagram 7 [0, 97, 98, 99]))]

theorem Script.opening_flooded :
    ∃ s, runLabels (Server.step Script.engine) (Server.new fun _ => Script.addr) Script.opening
      = some s ∧ Server.Flooded 0 s := by
  have hend : (runLabels (Server.step Script.engine) (Server.new fun _ => Script.addr)
      Script.opening).any (fun s => (s.slots 0).phase = .udp ∧ (s.slots 0).outgoing.isEmpty ∧
        (s.slots 0).queued = false ∧ (s.slots 0).reader = some 0 ∧
        (s.slots 0).worker.taskRemotes.lookup (peer 7) = some 0 ∧
        idlePublisher ((s.slots 0).worker.tasks.lookup 0) ∧ s.lock = none ∧ s.bus.length = 0)
      = true := by decide +kernel
  obtain ⟨s, hrun, hs⟩ := Option.any_eq_true _ _ |>.mp hend
  simp only [decide_eq_true_eq, List.isEmpty_iff] at hs
  obtain ⟨hphase, hout, hqueued, hreader, hremote, htask, hlock, hbus⟩ := hs
  exact ⟨s, hrun, hphase, hout, hqueued, hreader, ⟨hremote, htask⟩, hlock, hbus⟩

/-- **One worker and one fast publisher deadlock**: a thousand and one packets in one pass. -/
theorem bus_deadlocks :
    ∃ (labels : List (Label 1 Script)) (s : Server 1 Script),
      runLabels (Server.step Script.engine) (Server.new fun _ => Script.addr) labels = some s ∧
        s.Stuck := by
  obtain ⟨s, hs, hopen⟩ := Script.opening_flooded
  obtain ⟨as, t, ht, hfull⟩ := hopen.fill busCapacity (Nat.le_refl _)
  obtain ⟨bs, u, hu, hstuck⟩ := hfull.stuck
  refine ⟨Script.opening ++ (as ++ bs), u, ?_, hstuck⟩
  rw [runLabels_append, hs, Option.bind_some, runLabels_append, ht]
  exact hu

end MediaServer
