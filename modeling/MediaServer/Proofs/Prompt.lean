/-
What waits for a worker waits for two cycles at most.

Four things wait for a worker's thread: events on the bus, requests in its queue and answers
in its hands, sessions on the list of ended ones, and sessions that want to be ticked and
polled.  Each is looked after at one place of the cycle, and nothing that is there by then is
left over.  So whatever waits at some moment has been looked after when the thread has come
to the end of two more cycles: the one it was in may have been past the place, the next goes
through it.
-/
import MediaServer.Lib.Laps
import MediaServer.Proofs.Credentials
import MediaServer.Proofs.Fifo
import MediaServer.Proofs.Threads

namespace MediaServer

open Lib

variable {Rtc : Type} {n : Nat} {ext : Extern Rtc}

/-- Where on its cycle a thread is; one that panicked has left it. -/
def Phase.place : Phase → Option Nat
  | .starting | .busRecv => some 0
  | .http => some 1
  | .tick => some 2
  | .ticked => some 3
  | .popTasks _ _ => some 4
  | .popEnded => some 5
  | .udp => some 6
  | .panicked => none

namespace Server

/-- Where on its cycle the thread of `v` is. -/
def place (v : Fin n) (s : Server n Rtc) : Option Nat := (s.slots v).phase.place

/-- How many cycles the thread of `v` comes to the end of in a run. -/
def cycles (ext : Extern Rtc) (v : Fin n) (s : Server n Rtc) (labels : List (Label n Rtc)) : Nat :=
  laps (step ext) (place v) 6 s labels

variable {s s' : Server n Rtc} {l : Label n Rtc} {v : Fin n}

/-! ### Round and round -/

/-- The steps that take the thread of `v` from one place to the next, and what lets them. -/
inductive Departs (s : Server n Rtc) (v : Fin n) : Label n Rtc → Nat → Nat → Prop
  | busRecv (hread : (s.slots v).reader.all (s.bus.length ≤ ·) = true) :
      Departs s v (.nextPhase v) 0 1
  | http (hrequests : (s.slots v).requests = []) (hidle : (s.slots v).outgoing = []) :
      Departs s v (.nextPhase v) 1 2
  | tick {order : List Nat} {now : Instant}
      (hkeys : order.toFinset = (s.slots v).worker.tasks.keys) :
      Departs s v (.turn v (.tick order now)) 2 3
  | ticked {order : List Nat} {now : Instant}
      (hkeys : order.toFinset = (s.slots v).worker.tasks.keys) :
      Departs s v (.startPop v order now) 3 4
  | popTasks {now : Instant} (hphase : (s.slots v).phase = .popTasks [] now) :
      Departs s v (.nextPhase v) 4 5
  | popEnded : Departs s v (.turn v .popEnded) 5 6
  | udp : Departs s v (.nextPhase v) 6 0

/-- A turn stays where it is, or ends one of the two phases that are one turn. -/
theorem take_place {op : Op Rtc} {slot : WorkerSlot Rtc}
    (h : (s.slots v).take s.bus op = some slot) :
    slot.phase.place = place v s ∨
      ∃ q q', place v s = some q ∧ slot.phase.place = some q' ∧ Departs s v (.turn v op) q q' := by
  unfold WorkerSlot.take at h
  split at h
  · split at h
    · split at h <;> cases h
      exact .inl rfl
    · cases h
  · split at h
    · split at h <;> cases h
      exact .inl rfl
    · cases h
  · rename_i order now hphase
    split at h <;> cases h
    rename_i hkeys
    exact .inr ⟨2, 3, by rw [place, hphase]; rfl, rfl, .tick hkeys.2⟩
  · rename_i hphase
    split at h <;> cases h
    refine .inl ?_
    rw [place, hphase]
    rfl
  · rename_i hphase
    cases h
    exact .inr ⟨5, 6, by rw [place, hphase]; rfl, rfl, .popEnded⟩
  · cases h
    exact .inl rfl
  · cases h

theorem nextPhase_place {phase : Phase} (hidle : (s.slots v).outgoing = [])
    (h : (s.slots v).nextPhase s.bus = some phase) :
    ∃ q q', place v s = some q ∧ phase.place = some q' ∧ Departs s v (.nextPhase v) q q' := by
  unfold WorkerSlot.nextPhase at h
  split at h
  · rename_i hphase
    split at h <;> cases h
    rename_i hread
    exact ⟨0, 1, by rw [place, hphase]; rfl, rfl, .busRecv hread⟩
  · rename_i hphase
    split at h <;> cases h
    rename_i hempty
    exact ⟨1, 2, by rw [place, hphase]; rfl, rfl, .http (List.isEmpty_iff.mp hempty) hidle⟩
  · rename_i now hphase
    cases h
    exact ⟨4, 5, by rw [place, hphase]; rfl, rfl, .popTasks hphase⟩
  · rename_i hphase
    cases h
    exact ⟨6, 0, by rw [place, hphase]; rfl, rfl, .udp⟩
  · cases h

/-- What a step may do to the phase of the thread of `v`. -/
inductive Moved (s : Server n Rtc) (v : Fin n) (s' : Server n Rtc) : Label n Rtc → Prop
  | stays {l : Label n Rtc} (hphase : (s'.slots v).phase = (s.slots v).phase) : Moved s v s' l
  | spawns (hphase : (s.slots v).phase = .starting) (hphase' : (s'.slots v).phase = .busRecv) :
      Moved s v s' (.spawn v)
  | panics {op : Op Rtc} (hphase' : (s'.slots v).phase = .panicked) : Moved s v s' (.turn v op)
  | turns {op : Op Rtc} {slot : WorkerSlot Rtc} (htake : (s.slots v).take s.bus op = some slot)
      (hphase' : (s'.slots v).phase = slot.phase) : Moved s v s' (.turn v op)
  | passes {phase : Phase} (hidle : (s.slots v).outgoing = [])
      (hnext : (s.slots v).nextPhase s.bus = some phase) (hphase' : (s'.slots v).phase = phase) :
      Moved s v s' (.nextPhase v)
  | walks {order : List Nat} {now : Instant} (hphase : (s.slots v).phase = .ticked)
      (hkeys : order.toFinset = (s.slots v).worker.tasks.keys)
      (hphase' : (s'.slots v).phase = .popTasks order now) : Moved s v s' (.startPop v order now)

theorem moved_of_step (hs : s.step ext l = some s') (v : Fin n) : Moved s v s' l := by
  have hother : ∀ {w : Fin n} {slot : WorkerSlot Rtc}, w ≠ v →
      Moved s v (s.setSlot w slot) l := by
    intro w slot hw
    refine .stays ?_
    rw [setSlot_slots, if_neg (Ne.symm hw)]
  have hsame : ∀ {w : Fin n} {slot : WorkerSlot Rtc}, s'.slots = (s.setSlot w slot).slots →
      slot.phase = (s.slots w).phase → Moved s v s' l := by
    intro w slot hslots hslot
    refine .stays ?_
    rw [hslots]
    exact forall_setSlot (P := fun v slot => slot.phase = (s.slots v).phase) hslot (fun _ => rfl) v
  cases l with
  | arrive req =>
      obtain ⟨-, rfl⟩ := arrive_some hs
      refine .stays ?_
      rcases input_slots { req with reqId := s.reqId } s v with heq | ⟨-, -, -, heq⟩
      · rw [heq]
      · rw [heq]
  | insert =>
      obtain ⟨-, rfl⟩ := insert_some hs
      exact .stays rfl
  | respond =>
      obtain ⟨res, rest, -, -, ⟨-, rfl⟩ | ⟨-, rfl⟩⟩ := respond_some hs
      · exact .stays rfl
      · exact .stays rfl
  | spawn w =>
      obtain ⟨hphase, -, rfl⟩ := spawn_some hs
      by_cases hw : w = v
      · subst hw
        exact .spawns hphase (by simp)
      · exact hother hw
  | turn w op =>
      obtain ⟨slot, htake, hcase⟩ := turn_take hs
      by_cases hw : w = v
      · subst hw
        rcases hcase with ⟨p, -, rfl⟩ | ⟨worker, actions, -, rfl⟩
        · exact .panics (by simp [WorkerSlot.panic])
        · exact .turns htake (by simp)
      · rcases hcase with ⟨p, -, rfl⟩ | ⟨worker, actions, -, rfl⟩
        · exact hother hw
        · exact hother hw
  | nextPhase w =>
      replace hs : s.nextPhase w = some s' := hs
      unfold Server.nextPhase at hs
      split at hs
      · rename_i hidle
        obtain ⟨phase, hphase, rfl⟩ := Option.map_eq_some_iff.mp hs
        by_cases hw : w = v
        · subst hw
          exact .passes (List.isEmpty_iff.mp hidle) hphase (by simp)
        · exact hother hw
      · cases hs
  | startPop w order now =>
      replace hs : s.startPop w order now = some s' := hs
      unfold Server.startPop at hs
      split at hs <;> cases hs
      rename_i hc
      obtain ⟨-, hphase, -, hkeys⟩ := hc
      by_cases hw : w = v
      · subst hw
        exact .walks hphase hkeys (by simp)
      · exact hother hw
  | reply w =>
      obtain ⟨res, rest, -, rfl⟩ := reply_some hs
      exact hsame rfl rfl
  | lock w =>
      obtain ⟨-, -, -, rfl⟩ := callLock_some hs
      exact hsame rfl rfl
  | acquire w =>
      obtain ⟨-, -, rfl⟩ := acquire_some hs
      exact hsame rfl rfl
  | broadcast w =>
      obtain ⟨taskId, ev, rest, -, -, -, rfl⟩ := broadcast_some hs
      exact hsame rfl rfl

/-- Every step leaves the thread of `v` at its place, or it departs. -/
theorem place_step (hs : s.step ext l = some s') {q' : Nat} (hq' : place v s' = some q') :
    place v s = some q' ∨ ∃ q, place v s = some q ∧ Departs s v l q q' := by
  rw [place] at hq'
  cases moved_of_step hs v with
  | stays hphase => exact .inl (by rw [place, ← hphase, hq'])
  | spawns hphase hphase' =>
      rw [hphase'] at hq'
      exact .inl (by rw [place, hphase, ← hq']; rfl)
  | panics hphase' =>
      rw [hphase'] at hq'
      cases hq'
  | turns htake hphase' =>
      rw [hphase'] at hq'
      rcases take_place htake with hsame | ⟨q, q'', hq, hq'', hdeparts⟩
      · exact .inl (hsame.symm.trans hq')
      · cases hq''.symm.trans hq'
        exact .inr ⟨q, hq, hdeparts⟩
  | passes hidle hnext hphase' =>
      obtain ⟨q, q'', hq, hq'', hdeparts⟩ := nextPhase_place hidle hnext
      rw [hphase'] at hq'
      cases hq''.symm.trans hq'
      exact .inr ⟨q, hq, hdeparts⟩
  | walks hphase hkeys hphase' =>
      rw [hphase'] at hq'
      cases hq'
      exact .inr ⟨3, by rw [place, hphase]; rfl, .ticked hkeys⟩

/-- A thread that goes round has gone round before. -/
theorem place_ne_none (hs : s.step ext l = some s') (hgoes : place v s' ≠ none) :
    place v s ≠ none := by
  obtain ⟨q', hq'⟩ := Option.ne_none_iff_exists'.mp hgoes
  rcases place_step hs hq' with hsame | ⟨q, hq, -⟩
  · simp [hsame]
  · simp [hq]

/-- The step that departs from a place is one of those that may. -/
theorem departs {p q : Nat} (hs : s.step ext l = some s') (hhere : place v s = some p)
    (hthere : place v s' = some q) (hleft : q ≠ p) : Departs s v l p q := by
  rcases place_step hs hthere with hsame | ⟨q', hq', hdeparts⟩
  · exact absurd (Option.some.inj (hsame.symm.trans hhere)) hleft
  · obtain rfl : q' = p := Option.some.inj (hq'.symm.trans hhere)
    exact hdeparts

theorem rounds (ext : Extern Rtc) (v : Fin n) :
    Rounds (step ext) (place v : Server n Rtc → Option Nat) 6 := by
  refine ⟨by decide, fun s l s' q' hs hq' => ?_⟩
  rcases place_step hs hq' with hsame | ⟨q, hq, hdeparts⟩
  · exact ⟨q', hsame, .inl rfl⟩
  · refine ⟨q, hq, ?_⟩
    cases hdeparts <;> decide

/-! ### The bus -/

theorem record_concat {labels : List (Label n Rtc)} {s₀ : Server n Rtc}
    (hrun : runLabels (step ext) s₀ labels = some s) (hs : s.step ext l = some s') :
    record ext s₀ (labels ++ [l]) = record ext s₀ labels ++ s.emitted ext l := by
  rw [record_eq, record_eq, emittedBy_concat labels hrun hs]

theorem reads_append (v : Fin n) (es fs : List (Entry n)) :
    reads v (es ++ fs) = reads v es ++ reads v fs := by
  rw [reads, actionsOf_append, List.filterMap_append]
  rfl

/-- A thread has a reader as long as it goes round. -/
def Tracked (s : Server n Rtc) : Prop :=
  ∀ v, (s.slots v).reader = none ↔ (s.slots v).phase = .starting ∨ (s.slots v).phase = .panicked

theorem Tracked.set {w : Fin n} {slot : WorkerSlot Rtc} (h : s.Tracked)
    (hslot : slot.reader = none ↔ slot.phase = .starting ∨ slot.phase = .panicked) :
    (s.setSlot w slot).Tracked :=
  forall_setSlot (P := fun _ slot => slot.reader = none ↔
    slot.phase = .starting ∨ slot.phase = .panicked) hslot h

theorem Tracked.step (h : s.Tracked) (hs : s.step ext l = some s') : s'.Tracked := by
  have hrunning : ∀ {slot : WorkerSlot Rtc} {w : Fin n}, slot.reader = (s.slots w).reader →
      (s.slots w).phase ≠ .starting → (s.slots w).phase ≠ .panicked →
      slot.phase ≠ .starting → slot.phase ≠ .panicked →
      (slot.reader = none ↔ slot.phase = .starting ∨ slot.phase = .panicked) := by
    intro slot w hreader hstarted hrunning hstarted' hrunning'
    rw [hreader, h w]
    simp [hstarted, hrunning, hstarted', hrunning']
  cases l with
  | arrive req =>
      obtain ⟨-, rfl⟩ := arrive_some hs
      intro v
      rcases input_slots { req with reqId := s.reqId } s v with heq | ⟨-, -, -, heq⟩
      · rw [heq]
        exact h v
      · rw [heq]
        exact h v
  | insert =>
      obtain ⟨-, rfl⟩ := insert_some hs
      exact h
  | respond =>
      obtain ⟨res, rest, -, -, ⟨-, rfl⟩ | ⟨-, rfl⟩⟩ := respond_some hs
      · exact h
      · exact h
  | spawn w =>
      obtain ⟨-, -, rfl⟩ := spawn_some hs
      exact h.set (by simp)
  | turn w op =>
      obtain ⟨-, slot, htaken, ⟨p, -, rfl⟩ | ⟨worker, actions, -, rfl⟩⟩ := turn_some hs
      · exact h.set (by simp [WorkerSlot.panic])
      · have hreader := htaken.reader
        have hstarted := htaken.started
        have hgoing := htaken.running
        refine h.set ?_
        cases op with
        | busEvent ev now =>
            obtain ⟨pos, -, -, hpos⟩ := hreader
            simp [hpos, hstarted.2, hgoing.2]
        | _ => exact hrunning hreader hstarted.1 hgoing.1 hstarted.2 hgoing.2
  | nextPhase w =>
      obtain ⟨-, phase, hgoing, hgoing', hstarted', rfl⟩ := nextPhase_some hs
      have hstarted : (s.slots w).phase ≠ .starting := by
        intro hphase
        replace hs : s.nextPhase w = some _ := hs
        simp [Server.nextPhase, WorkerSlot.nextPhase, hphase] at hs
      exact h.set (hrunning rfl hstarted hgoing hstarted' hgoing')
  | startPop w order now =>
      obtain ⟨-, hphase, rfl⟩ := startPop_some hs
      exact h.set (hrunning rfl (by simp [hphase]) (by simp [hphase]) (by simp) (by simp))
  | reply w =>
      obtain ⟨res, rest, -, rfl⟩ := reply_some hs
      exact h.set (h w)
  | lock w =>
      obtain ⟨-, -, -, rfl⟩ := callLock_some hs
      exact h.set (h w)
  | acquire w =>
      obtain ⟨-, -, rfl⟩ := acquire_some hs
      exact h.set (h w)
  | broadcast w =>
      obtain ⟨taskId, ev, rest, -, -, -, rfl⟩ := broadcast_some hs
      exact h.set (h w)

/-- What the thread of `v` has read since its reader stood at `pos` and the bus was `bus`. -/
structure Following (pos : Nat) (bus : List BusEvent) (seen : List BusEvent) (v : Fin n)
    (s : Server n Rtc) : Prop where
  started : (s.slots v).phase ≠ .starting
  grown : bus <+: s.bus
  stretch : seen <+: s.bus.drop pos
  reader : ∀ here, (s.slots v).reader = some here → here = pos + seen.length

theorem Following.still {pos : Nat} {bus seen : List BusEvent}
    (h : Following pos bus seen v s) (hbus : s.bus <+: s'.bus)
    (hstill : (s.slots v).Still (s'.slots v)) : Following pos bus seen v s' :=
  ⟨fun hphase => h.started (hstill.starting hphase), h.grown.trans hbus,
    h.stretch.trans (hbus.drop pos), fun here hhere => h.reader here (hstill.reader here hhere)⟩

theorem Following.step {pos : Nat} {bus seen : List BusEvent} {bs : List (Entry n)}
    (h : Following pos bus seen v s) (hs : Moves ext s bs s') :
    Following pos bus (seen ++ reads v bs) v s' := by
  refine Moves.rule (P := fun bs s' => Following pos bus (seen ++ reads v bs) v s') ?_ ?_ ?_ ?_ hs
  · intro t hbus hstill
    rw [show reads v [] = [] from rfl, List.append_nil]
    exact h.still (hbus ▸ List.prefix_refl _) (hstill v)
  · intro w hphase
    rw [show reads v [] = [] from rfl, List.append_nil]
    have hw : v ≠ w := fun heq => h.started (heq ▸ hphase)
    refine h.still (List.prefix_refl _) ?_
    rw [setSlot_slots, if_neg hw]
    exact .refl _
  · intro w op slot worker actions htaken hexec
    by_cases hw : v = w
    · subst hw
      have hreads : reads v (actions.map (Prod.mk v)) = op.readEvent.toList := by
        rw [reads, actionsOf_turn, if_pos rfl, Worker.exec_reads hexec]
      rw [hreads]
      have hreader := htaken.reader
      refine ⟨?_, h.grown, ?_, ?_⟩
      · rw [setSlot_slots, if_pos rfl]
        exact htaken.started.2
      · cases op with
        | busEvent ev now =>
            obtain ⟨here, hold, hev, -⟩ := hreader
            have hnext : (s.bus.drop pos)[seen.length]? = some ev := by
              rw [List.getElem?_drop, ← h.reader here hold, hev]
            obtain ⟨hlt, hget⟩ := List.getElem?_eq_some_iff.mp hnext
            have hlong := List.concat_get_prefix h.stretch hlt
            rw [List.get_eq_getElem, hget] at hlong
            exact hlong
        | _ => exact (List.append_nil seen).symm ▸ h.stretch
      · rw [setSlot_slots, if_pos rfl]
        cases op with
        | busEvent ev now =>
            obtain ⟨here, hold, -, hnew⟩ := hreader
            intro here' hhere'
            cases hnew.symm.trans hhere'
            rw [h.reader here hold]
            simp [Op.readEvent, Nat.add_assoc]
        | _ =>
            intro here hhere
            simp only [Op.readEvent, Option.toList_none, List.append_nil]
            exact h.reader here (hreader.symm.trans hhere)
    · have hnone : reads v (actions.map (Prod.mk w)) = [] := by
        rw [reads, actionsOf_turn, if_neg (Ne.symm hw)]
        rfl
      rw [hnone, List.append_nil]
      refine h.still (List.prefix_refl _) ?_
      rw [setSlot_slots, if_neg hw]
      exact .refl _
  · intro w taskId ev rest hout
    rw [show reads v [] = [] from rfl, List.append_nil]
    have hstill : (s.slots w).Still { s.slots w with outgoing := rest } :=
      ⟨rfl, id, fun _ => id, fun a ha => hout ▸ List.mem_cons_of_mem _ ha⟩
    exact h.still (List.prefix_append _ _) (still_setSlot hstill v)

/-- What was on the bus is read within two cycles. -/
theorem bus_caught_up {labels : List (Label n Rtc)} {s₀ : Server n Rtc} (htracked : s₀.Tracked)
    (hrun : runLabels (step ext) s₀ labels = some s) (hcycles : 2 ≤ cycles ext v s₀ labels)
    {pos : Nat} (hpos : (s₀.slots v).reader = some pos) :
    s₀.bus.drop pos <+: reads v (record ext s₀ labels) := by
  have hfollowing : ∀ {labels : List (Label n Rtc)} {s : Server n Rtc},
      runLabels (step ext) s₀ labels = some s →
      Following pos s₀.bus (reads v (record ext s₀ labels)) v s := by
    intro labels s hrun
    refine runLabels_induct (P := fun labels s =>
      Following pos s₀.bus (reads v (record ext s₀ labels)) v s) ?_ ?_ hrun
    · refine ⟨fun hphase => ?_, List.prefix_refl _, ⟨_, rfl⟩, fun here hhere => ?_⟩
      · rw [(htracked v).mpr (.inl hphase)] at hpos
        cases hpos
      · cases hpos.symm.trans hhere
        rfl
    · intro labels s l s' hrun h hs
      rw [record_concat hrun hs, reads_append]
      exact h.step ⟨l, hs, rfl⟩
  refine (rounds ext v).done (p := 0)
    (D := fun labels _ => s₀.bus.drop pos <+: reads v (record ext s₀ labels)) (by decide)
    ?_ ?_ hrun hcycles
  · intro labels s l s' q hrun hs hhere hthere hleft _
    have hgoing : s.Tracked := runLabels_preserves (fun _ _ _ h hs => h.step hs) hrun htracked
    have h := hfollowing hrun
    cases departs hs hhere hthere hleft with
    | busRecv hread =>
        rw [record_concat hrun hs, reads_append]
        -- The reader stands at the end of the bus.
        have hreader : (s.slots v).reader ≠ none := by
          intro hnone
          rcases (hgoing v).mp hnone with hphase | hphase
          · exact h.started hphase
          · rw [place, hphase] at hhere
            cases hhere
        obtain ⟨here, hat⟩ := Option.ne_none_iff_exists'.mp hreader
        rw [hat, Option.all_some, decide_eq_true_eq, h.reader here hat] at hread
        refine (List.prefix_of_prefix_length_le (h.grown.drop pos) h.stretch ?_).trans
          (List.prefix_append _ _)
        have hle := h.grown.length_le
        rw [List.length_drop]
        omega
  · intro labels s l s' hrun hs hread
    rw [record_concat hrun hs, reads_append]
    exact hread.trans (List.prefix_append _ _)

/-! ### Requests and their answers -/

/-- The numbers of the answers that `v` has still to send. -/
def hands (v : Fin n) (s : Server n Rtc) : List Nat :=
  ((s.slots v).outgoing.filterMap Action.response).map (·.reqId)

/-- The number of the answer that a step of `v` calls `try_send` with. -/
def repliedBy (v : Fin n) (s : Server n Rtc) : Label n Rtc → List Nat
  | .reply w =>
      if w = v then (((s.slots v).outgoing.head?.bind Action.response).map (·.reqId)).toList else []
  | _ => []

/-- The numbers of the answers `v` calls `try_send` with in a run, room for them or not. -/
def replied (ext : Extern Rtc) (v : Fin n) (s : Server n Rtc) (labels : List (Label n Rtc)) :
    List Nat :=
  emittedBy (step ext) (repliedBy v) s labels

/-- What a step does to the requests of a thread that goes round: they move on, in order. -/
def Serves (v : Fin n) (s : Server n Rtc) (l : Label n Rtc) (s' : Server n Rtc) : Prop :=
  ∃ arrived, repliedBy v s l ++ (hands v s' ++ waiting v s')
    = hands v s ++ waiting v s ++ arrived

theorem Serves.still (houtgoing : hands v s' = hands v s) (hrequests : waiting v s' = waiting v s)
    (hnone : repliedBy v s l = []) : Serves v s l s' :=
  ⟨[], by rw [hnone, houtgoing, hrequests, List.append_nil, List.nil_append]⟩

/-- Rewriting a slot that leaves its requests and its answers alone. -/
theorem Serves.setSlot {w : Fin n} {slot : WorkerSlot Rtc}
    (hslots : s'.slots = (s.setSlot w slot).slots)
    (hrequests : slot.requests = (s.slots w).requests)
    (houtgoing : slot.outgoing.filterMap Action.response
      = (s.slots w).outgoing.filterMap Action.response) (hnone : repliedBy v s l = []) :
    Serves v s l s' := by
  have hslot : (s'.slots v).requests = (s.slots v).requests ∧
      (s'.slots v).outgoing.filterMap Action.response
        = (s.slots v).outgoing.filterMap Action.response := by
    rw [hslots]
    exact forall_setSlot (P := fun v slot => slot.requests = (s.slots v).requests ∧
      slot.outgoing.filterMap Action.response
        = (s.slots v).outgoing.filterMap Action.response)
      ⟨hrequests, houtgoing⟩ (fun _ => ⟨rfl, rfl⟩) v
  refine .still ?_ ?_ hnone
  · rw [hands, hslot.2]
    rfl
  · rw [waiting, hslot.1]
    rfl

theorem serves_arrive {req : HttpRequest} (hs : s.arrive req = some s') :
    Serves v s (.arrive req) s' := by
  obtain ⟨-, rfl⟩ := arrive_some hs
  rcases input_slots { req with reqId := s.reqId } s v with heq | ⟨-, -, -, heq⟩
  · refine .still ?_ ?_ rfl
    · rw [hands, heq]
      rfl
    · rw [waiting, heq]
      rfl
  · refine ⟨[s.reqId], ?_⟩
    rw [hands, waiting, heq]
    simp [repliedBy, hands, waiting]

/-- A turn takes the first request of the queue and leaves its answer, or it takes none. -/
theorem serves_turn {w : Fin n} {op : Op Rtc} (hsettled : (s.slots w).worker.Settled)
    (hs : s.turn ext w op = some s') (hgoes : place v s' ≠ none) : Serves v s (.turn w op) s' := by
  obtain ⟨hidle, slot, htaken, hcase⟩ := turn_some hs
  by_cases hw : w = v
  · subst hw
    rcases hcase with ⟨p, -, rfl⟩ | ⟨worker, actions, hexec, rfl⟩
    · rw [place, setSlot_slots, if_pos rfl] at hgoes
      exact absurd rfl hgoes
    · rw [htaken.worker] at hexec
      have hqueue : waiting w s = op.reqId.toList ++ slot.requests.map (·.reqId) := by
        have hrequests := htaken.requests
        rw [waiting]
        cases op with
        | request arrival =>
            obtain ⟨req, hevent, hcons⟩ := hrequests
            rw [hcons]
            simp [Op.reqId, Worker.HttpArrival.reqId, hevent]
        | _ =>
            rw [hrequests]
            rfl
      refine ⟨[], ?_⟩
      rw [hqueue, hands, hands, waiting, setSlot_slots, if_pos rfl, shared_responses,
        (hsettled.exec hexec).2, hidle, List.append_nil]
      rfl
  · have hother : ∀ slot' : WorkerSlot Rtc, Serves v s (.turn w op) (s.setSlot w slot') := by
      intro slot'
      have hslot : (s.setSlot w slot').slots v = s.slots v := by
        rw [setSlot_slots, if_neg (Ne.symm hw)]
      refine .still ?_ ?_ rfl
      · rw [hands, hslot]
        rfl
      · rw [waiting, hslot]
        rfl
    rcases hcase with ⟨p, -, rfl⟩ | ⟨worker, actions, -, rfl⟩
    · exact hother _
    · exact hother _

theorem serves_reply {w : Fin n} (hs : s.reply w = some s') : Serves v s (.reply w) s' := by
  obtain ⟨a, res, rest, hout, ha, rfl⟩ := reply_response hs
  by_cases hw : w = v
  · subst hw
    refine ⟨[], ?_⟩
    rw [repliedBy, if_pos rfl, hands, hands, waiting, waiting]
    simp [hout, ha]
  · have hslot : (s.setSlot w { s.slots w with outgoing := rest }).slots v = s.slots v := by
      rw [setSlot_slots, if_neg (Ne.symm hw)]
    refine .still ?_ ?_ (if_neg hw)
    · exact congrArg (fun slot : WorkerSlot Rtc =>
        (slot.outgoing.filterMap Action.response).map (·.reqId)) hslot
    · exact congrArg (fun slot : WorkerSlot Rtc => slot.requests.map (·.reqId)) hslot

theorem serves (hsettled : ∀ w, (s.slots w).worker.Settled) (hs : s.step ext l = some s')
    (hgoes : place v s' ≠ none) : Serves v s l s' := by
  cases l with
  | arrive req => exact serves_arrive hs
  | insert =>
      obtain ⟨-, rfl⟩ := insert_some hs
      exact .still rfl rfl rfl
  | respond =>
      obtain ⟨res, rest, -, -, ⟨-, rfl⟩ | ⟨-, rfl⟩⟩ := respond_some hs
      · exact .still rfl rfl rfl
      · exact .still rfl rfl rfl
  | spawn w =>
      obtain ⟨-, -, rfl⟩ := spawn_some hs
      exact .setSlot rfl rfl rfl rfl
  | turn w op => exact serves_turn (hsettled w) hs hgoes
  | nextPhase w =>
      obtain ⟨-, phase, -, -, -, rfl⟩ := nextPhase_some hs
      exact .setSlot rfl rfl rfl rfl
  | startPop w order now =>
      obtain ⟨-, -, rfl⟩ := startPop_some hs
      exact .setSlot rfl rfl rfl rfl
  | reply w => exact serves_reply hs
  | lock w =>
      obtain ⟨-, -, -, rfl⟩ := callLock_some hs
      exact .setSlot rfl rfl rfl rfl
  | acquire w =>
      obtain ⟨-, -, rfl⟩ := acquire_some hs
      exact .setSlot rfl rfl rfl rfl
  | broadcast w =>
      obtain ⟨taskId, ev, rest, hout, -, -, rfl⟩ := broadcast_some hs
      have houtgoing : rest.filterMap Action.response
          = (s.slots w).outgoing.filterMap Action.response := by
        rw [hout, List.filterMap_cons_none rfl]
      exact .setSlot rfl rfl houtgoing rfl

theorem replied_concat {labels : List (Label n Rtc)} {s₀ : Server n Rtc}
    (hrun : runLabels (step ext) s₀ labels = some s) (hs : s.step ext l = some s') :
    replied ext v s₀ (labels ++ [l]) = replied ext v s₀ labels ++ repliedBy v s l :=
  emittedBy_concat labels hrun hs

/-- What was in the queue of a thread, or in its hands, is answered within two cycles. -/
theorem requests_caught_up {labels : List (Label n Rtc)} {s₀ : Server n Rtc}
    (hmatched : s₀.Matched) (hrun : runLabels (step ext) s₀ labels = some s)
    (hcycles : 2 ≤ cycles ext v s₀ labels) :
    hands v s₀ ++ waiting v s₀ <+: replied ext v s₀ labels := by
  have hserved : ∀ {labels : List (Label n Rtc)} {s : Server n Rtc},
      runLabels (step ext) s₀ labels = some s → place v s ≠ none →
      ∃ arrived, replied ext v s₀ labels ++ (hands v s ++ waiting v s)
        = hands v s₀ ++ waiting v s₀ ++ arrived := by
    intro labels s hrun
    refine runLabels_induct (P := fun labels s => place v s ≠ none →
      ∃ arrived, replied ext v s₀ labels ++ (hands v s ++ waiting v s)
        = hands v s₀ ++ waiting v s₀ ++ arrived) ?_ ?_ hrun
    · exact fun _ => ⟨[], (List.append_nil _).symm⟩
    · intro labels s l s' hrun ih hs hgoes
      have hsettled : s.Matched := runLabels_preserves (fun _ _ _ h hs => h.step hs) hrun hmatched
      obtain ⟨arrived, hbefore⟩ := ih (place_ne_none hs hgoes)
      obtain ⟨arrived', hstep⟩ := serves hsettled.settled hs hgoes
      refine ⟨arrived ++ arrived', ?_⟩
      rw [replied_concat hrun hs, List.append_assoc, hstep, ← List.append_assoc, hbefore,
        List.append_assoc]
  refine (rounds ext v).done (p := 1)
    (D := fun labels _ => hands v s₀ ++ waiting v s₀ <+: replied ext v s₀ labels) (by decide)
    ?_ ?_ hrun hcycles
  · intro labels s l s' q hrun hs hhere hthere hleft _
    obtain ⟨arrived, hall⟩ := hserved hrun (by simp [hhere])
    cases departs hs hhere hthere hleft with
    | http hrequests hidle =>
        -- Queue and hands are empty, so all of it has been answered.
        have hnone : hands v s ++ waiting v s = [] := by
          simp [hands, waiting, hrequests, hidle]
        rw [hnone, List.append_nil] at hall
        rw [replied_concat hrun hs, hall, List.append_assoc]
        exact List.prefix_append _ _
  · intro labels s l s' hrun hs hdone
    rw [replied_concat hrun hs]
    exact hdone.trans (List.prefix_append _ _)

/-! ### Sessions -/

/-- A session that is there stays until it is removed. -/
theorem live_step {t : Nat} (hs : s.step ext l = some s')
    (hlive : (s.slots v).worker.tasks.lookup t ≠ none) :
    (s'.slots v).worker.tasks.lookup t ≠ none ∨ (v, .removed t) ∈ s.emitted ext l := by
  rcases turn_of_step hs v with hsame | ⟨op, actions, rfl, hexec, hemitted⟩
  · exact .inl (hsame ▸ hlive)
  · by_cases hop : op = .popEnded
    · subst hop
      obtain ⟨rfl, -, hlookup⟩ := Worker.removeTasks_removed hexec
      by_cases ht : t ∈ (s.slots v).worker.endedTasks
      · rw [hemitted]
        exact .inr (List.mem_map_of_mem (List.mem_map_of_mem ht))
      · rw [hlookup, if_neg ht]
        exact .inl hlive
    · exact .inl ((Worker.exec_kept hop hexec).live t hlive)

/-- A session that is listed as ended stays listed until it is removed. -/
theorem ended_step {t : Nat} (hs : s.step ext l = some s')
    (hended : t ∈ (s.slots v).worker.endedTasks) :
    t ∈ (s'.slots v).worker.endedTasks ∨ (v, .removed t) ∈ s.emitted ext l := by
  rcases turn_of_step hs v with hsame | ⟨op, actions, rfl, hexec, hemitted⟩
  · exact .inl (hsame ▸ hended)
  · by_cases hop : op = .popEnded
    · subst hop
      obtain ⟨rfl, -, -⟩ := Worker.removeTasks_removed hexec
      rw [hemitted]
      exact .inr (List.mem_map_of_mem (List.mem_map_of_mem hended))
    · rw [(Worker.exec_kept hop hexec).endedTasks]
      exact .inl (List.mem_append_left _ hended)

/-- And the clean-up removes it, if the thread survives it. -/
theorem removed_popEnded {t : Nat} (hs : s.step ext (.turn v .popEnded) = some s')
    (hgoes : place v s' ≠ none) (hended : t ∈ (s.slots v).worker.endedTasks) :
    (v, .removed t) ∈ s.emitted ext (.turn v .popEnded) := by
  obtain ⟨slot, -, ⟨p, -, rfl⟩ | ⟨worker, actions, hexec, -⟩⟩ := turn_take hs
  · rw [place, setSlot_slots, if_pos rfl] at hgoes
    exact absurd rfl hgoes
  · obtain ⟨rfl, -, -⟩ := Worker.removeTasks_removed hexec
    simp only [emitted, hexec]
    exact List.mem_map_of_mem (List.mem_map_of_mem hended)

/-- What is so until a session is removed, is so after a run in which it has not been. -/
theorem until_removed {Q : Server n Rtc → Prop} {t : Nat} {labels : List (Label n Rtc)}
    {s₀ : Server n Rtc}
    (hstep : ∀ s l s', s.step ext l = some s' → Q s → Q s' ∨ (v, .removed t) ∈ s.emitted ext l)
    (hQ : Q s₀) (hrun : runLabels (step ext) s₀ labels = some s) :
    Q s ∨ (v, .removed t) ∈ record ext s₀ labels := by
  refine runLabels_induct (P := fun labels s => Q s ∨ (v, .removed t) ∈ record ext s₀ labels)
    (.inl hQ) ?_ hrun
  intro labels s l s' hrun ih hs
  rw [record_concat hrun hs]
  rcases ih with hQ | hgone
  · rcases hstep s l s' hs hQ with hQ' | hgone
    · exact .inl hQ'
    · exact .inr (List.mem_append_right _ hgone)
  · exact .inr (List.mem_append_left _ hgone)

/-- What was listed as ended is removed within two cycles. -/
theorem ended_caught_up {t : Nat} {labels : List (Label n Rtc)} {s₀ : Server n Rtc}
    (hrun : runLabels (step ext) s₀ labels = some s) (hcycles : 2 ≤ cycles ext v s₀ labels)
    (hended : t ∈ (s₀.slots v).worker.endedTasks) : (v, .removed t) ∈ record ext s₀ labels := by
  refine (rounds ext v).done (p := 5) (D := fun labels _ => (v, .removed t) ∈ record ext s₀ labels)
    (by decide) ?_ ?_ hrun hcycles
  · intro labels s l s' q hrun hs hhere hthere hleft _
    have hlisted := until_removed (Q := fun s => t ∈ (s.slots v).worker.endedTasks)
      (fun s l s' hs h => ended_step hs h) hended hrun
    cases departs hs hhere hthere hleft with
    | popEnded =>
        rw [record_concat hrun hs]
        rcases hlisted with hlisted | hgone
        · exact List.mem_append_right _ (removed_popEnded hs (by simp [hthere]) hlisted)
        · exact List.mem_append_left _ hgone
  · intro labels s l s' hrun hs hgone
    rw [record_concat hrun hs]
    exact List.mem_append_left _ hgone

/-- A walk over the keys of the map comes to every session there is. -/
theorem mem_of_keys {t : Nat} {order : List Nat}
    (hkeys : order.toFinset = (s.slots v).worker.tasks.keys)
    (hlive : (s.slots v).worker.tasks.lookup t ≠ none) : t ∈ order := by
  rw [← List.mem_toFinset, hkeys, Finmap.mem_keys, ← Finmap.lookup_isSome,
    Option.isSome_iff_ne_none]
  exact hlive

/-- A session is ticked within two cycles, unless it is removed first. -/
theorem ticked_caught_up {t : Nat} {labels : List (Label n Rtc)} {s₀ : Server n Rtc}
    (hrun : runLabels (step ext) s₀ labels = some s) (hcycles : 2 ≤ cycles ext v s₀ labels)
    (hlive : (s₀.slots v).worker.tasks.lookup t ≠ none) :
    (v, .removed t) ∈ record ext s₀ labels ∨
      ∃ order now, .turn v (.tick order now) ∈ labels ∧ t ∈ order := by
  refine (rounds ext v).done (p := 2) (D := fun labels _ => (v, .removed t) ∈ record ext s₀ labels ∨
    ∃ order now, .turn v (.tick order now) ∈ labels ∧ t ∈ order) (by decide) ?_ ?_ hrun hcycles
  · intro labels s l s' q hrun hs hhere hthere hleft _
    have hstill := until_removed (Q := fun s => (s.slots v).worker.tasks.lookup t ≠ none)
      (fun s l s' hs h => live_step hs h) hlive hrun
    cases departs hs hhere hthere hleft with
    | @tick order now hkeys =>
        rw [record_concat hrun hs]
        rcases hstill with hstill | hgone
        · exact .inr ⟨order, now, List.mem_concat_self, mem_of_keys hkeys hstill⟩
        · exact .inl (List.mem_append_left _ hgone)
  · rintro labels s l s' hrun hs (hgone | ⟨order, now, hmem, ht⟩)
    · rw [record_concat hrun hs]
      exact .inl (List.mem_append_left _ hgone)
    · exact .inr ⟨order, now, List.mem_append_left _ hmem, ht⟩

/-- In the middle of the second walk, the thread of `v` takes the session that is next. -/
theorem walk_step {t : Nat} {todo : List Nat} {now : Instant} (hs : s.step ext l = some s')
    (hgoes : place v s' ≠ none) (hphase : (s.slots v).phase = .popTasks todo now)
    (ht : t ∈ todo) :
    l = .turn v (.pop t now) ∨ ∃ todo', (s'.slots v).phase = .popTasks todo' now ∧ t ∈ todo' := by
  obtain ⟨taskId, rest, rfl⟩ := List.exists_cons_of_ne_nil (List.ne_nil_of_mem ht)
  cases moved_of_step hs v with
  | stays hsame => exact .inr ⟨taskId :: rest, hsame.trans hphase, ht⟩
  | spawns hstarting =>
      rw [hphase] at hstarting
      cases hstarting
  | panics hpanicked =>
      rw [place, hpanicked] at hgoes
      exact absurd rfl hgoes
  | @turns op slot htake hphase' =>
      cases op with
      | pop taskId' now' =>
          simp only [WorkerSlot.take, hphase] at htake
          split at htake <;> cases htake
          rename_i hnext
          obtain ⟨rfl, rfl⟩ := hnext
          rcases List.mem_cons.mp ht with rfl | ht
          · exact .inl rfl
          · exact .inr ⟨rest, hphase', ht⟩
      | _ => simp [WorkerSlot.take, hphase] at htake
  | passes hidle hnext =>
      simp [WorkerSlot.nextPhase, hphase] at hnext
  | walks hticked =>
      rw [hphase] at hticked
      cases hticked

/-- A session is polled within two cycles, unless it is removed first. -/
theorem polled_caught_up {t : Nat} {labels : List (Label n Rtc)} {s₀ : Server n Rtc}
    (hrun : runLabels (step ext) s₀ labels = some s) (hcycles : 2 ≤ cycles ext v s₀ labels)
    (hlive : (s₀.slots v).worker.tasks.lookup t ≠ none) :
    (v, .removed t) ∈ record ext s₀ labels ∨ ∃ now, .turn v (.pop t now) ∈ labels := by
  -- From the second lap on, a walk that has begun has been to the session or is still to come.
  have hwalk : ∀ {labels : List (Label n Rtc)} {s : Server n Rtc},
      runLabels (step ext) s₀ labels = some s → place v s = some 4 →
      1 ≤ laps (step ext) (place v) 6 s₀ labels →
      ((v, .removed t) ∈ record ext s₀ labels ∨ ∃ now, .turn v (.pop t now) ∈ labels) ∨
        ∃ todo now, (s.slots v).phase = .popTasks todo now ∧ t ∈ todo := by
    intro labels s hrun hplace hlap
    refine (rounds ext v).behind (p := 3) (P := fun labels s =>
      ((v, .removed t) ∈ record ext s₀ labels ∨ ∃ now, .turn v (.pop t now) ∈ labels) ∨
        ∃ todo now, (s.slots v).phase = .popTasks todo now ∧ t ∈ todo) (by decide)
      ?_ ?_ hrun 4 hplace (.inl ⟨hlap, by decide⟩)
    · intro labels s l s' q hrun hs hhere hthere hleft _
      have hstill := until_removed (Q := fun s => (s.slots v).worker.tasks.lookup t ≠ none)
        (fun s l s' hs h => live_step hs h) hlive hrun
      cases departs hs hhere hthere hleft with
      | @ticked order now hkeys =>
          obtain ⟨-, -, rfl⟩ := startPop_some hs
          rw [record_concat hrun hs]
          rcases hstill with hstill | hgone
          · exact .inr ⟨order, now, by simp, mem_of_keys hkeys hstill⟩
          · exact .inl (.inl (List.mem_append_left _ hgone))
    · rintro labels s l s' hrun hs hgoes ((hgone | ⟨now, hmem⟩) | ⟨todo, now, hphase, ht⟩)
      · rw [record_concat hrun hs]
        exact .inl (.inl (List.mem_append_left _ hgone))
      · exact .inl (.inr ⟨now, List.mem_append_left _ hmem⟩)
      · rcases walk_step hs hgoes hphase ht with rfl | ⟨todo', hphase', ht'⟩
        · exact .inl (.inr ⟨now, List.mem_concat_self⟩)
        · exact .inr ⟨todo', now, hphase', ht'⟩
  refine (rounds ext v).done (p := 4) (D := fun labels _ =>
    (v, .removed t) ∈ record ext s₀ labels ∨ ∃ now, .turn v (.pop t now) ∈ labels) (by decide)
    ?_ ?_ hrun hcycles
  · intro labels s l s' q hrun hs hhere hthere hleft hlap
    rw [record_concat hrun hs]
    rcases hwalk hrun hhere hlap with (hgone | ⟨now, hmem⟩) | ⟨todo, now, hphase, ht⟩
    · exact .inl (List.mem_append_left _ hgone)
    · exact .inr ⟨now, List.mem_append_left _ hmem⟩
    · -- The walk is over, so nobody is still to come.
      cases departs hs hhere hthere hleft with
      | popTasks hover =>
          cases hover.symm.trans hphase
          cases ht
  · rintro labels s l s' hrun hs (hgone | ⟨now, hmem⟩)
    · rw [record_concat hrun hs]
      exact .inl (List.mem_append_left _ hgone)
    · exact .inr ⟨now, List.mem_append_left _ hmem⟩

/-! ### Two cycles -/

theorem tracked_new (localAddrs : Fin n → SocketAddr) :
    (Server.new localAddrs : Server n Rtc).Tracked := by
  intro v
  simp [Server.new, WorkerSlot.new]

/--
**Two cycles are enough.**  Whatever has happened before, and in whatever order the threads
move from there: once a thread has come to the end of two more cycles, it has read all that
was on the bus for it, in order; it has called `try_send` with the answers it had in its hands
and then with those to the requests in its queue, in order, room or not; every session that was on its list of ended ones is
removed; and every session it had has been ticked and polled, or removed.
-/
theorem two_cycles_catch_up {localAddrs : Fin n → SocketAddr} {before labels : List (Label n Rtc)}
    (hbefore : runLabels (step ext) (Server.new localAddrs) before = some s)
    (hrun : runLabels (step ext) s labels = some s') (v : Fin n)
    (hcycles : 2 ≤ cycles ext v s labels) :
    (∀ pos, (s.slots v).reader = some pos →
      s.bus.drop pos <+: reads v (record ext s labels)) ∧
    hands v s ++ waiting v s <+: replied ext v s labels ∧
    (∀ t ∈ (s.slots v).worker.endedTasks, (v, .removed t) ∈ record ext s labels) ∧
    ∀ t, (s.slots v).worker.tasks.lookup t ≠ none →
      (v, .removed t) ∈ record ext s labels ∨
        (∃ order now, .turn v (.tick order now) ∈ labels ∧ t ∈ order) ∧
          ∃ now, .turn v (.pop t now) ∈ labels := by
  have htracked : s.Tracked :=
    runLabels_preserves (fun _ _ _ h hs => h.step hs) hbefore (tracked_new localAddrs)
  have hmatched : s.Matched :=
    runLabels_preserves (fun _ _ _ h hs => h.step hs) hbefore (matched_new localAddrs)
  refine ⟨fun pos hpos => bus_caught_up htracked hrun hcycles hpos,
    requests_caught_up hmatched hrun hcycles, fun t ht => ended_caught_up hrun hcycles ht,
    fun t hlive => ?_⟩
  rcases ticked_caught_up hrun hcycles hlive with hgone | hticked
  · exact .inl hgone
  · rcases polled_caught_up hrun hcycles hlive with hgone | hpolled
    · exact .inl hgone
    · exact .inr ⟨hticked, hpolled⟩

end Server

open Script in
/-- The viewer has left but is not yet removed, and somebody asks for what there is not. -/
def Script.departed (w : Fin n) : List (Label n Script) :=
  (Script.visiting w).take 10 ++ [.arrive (request 0 "/nowhere" []), .insert]

open Script in
/-- The rest of that cycle, and one more. -/
def Script.tidying (w : Fin n) : List (Label n Script) :=
  [.nextPhase w, .turn w .popEnded, .nextPhase w, .nextPhase w,
    .turn w (.request (arrival 1 "/nowhere" [] "" [])), .reply w, .nextPhase w,
    .turn w (.tick [] 0), .startPop w [] 0, .nextPhase w, .turn w .popEnded, .nextPhase w]

/-- By then the viewer is removed, and the request has its answer. -/
theorem Server.two_cycles_catch_up_departed :
    ∃ s : Server 1 Script, runLabels (step Script.engine) (Server.new fun _ => Script.addr)
        (Script.departed 0) = some s ∧
      (0, .removed 0) ∈ record Script.engine s (Script.tidying 0) ∧
      [1] <+: replied Script.engine 0 s (Script.tidying 0) := by
  have hend : (runLabels (step Script.engine) (Server.new fun _ => Script.addr)
      (Script.departed (0 : Fin 1))).any (fun s => decide ((s.slots 0).worker.endedTasks = [0] ∧
        hands 0 s ++ waiting 0 s = [1] ∧ cycles Script.engine 0 s (Script.tidying 0) = 2) &&
        (runLabels (step Script.engine) s (Script.tidying 0)).isSome) = true := by
    decide +kernel
  obtain ⟨s, hs, hboth⟩ := Option.any_eq_true _ _ |>.mp hend
  obtain ⟨hfacts, hrun⟩ := Bool.and_eq_true_iff.mp hboth
  obtain ⟨hended, hwaiting, hcycles⟩ := of_decide_eq_true hfacts
  obtain ⟨s', hs'⟩ := Option.isSome_iff_exists.mp hrun
  obtain ⟨-, hreplied, hremoved, -⟩ := two_cycles_catch_up hs hs' 0 hcycles.ge
  exact ⟨s, hs, hremoved 0 (by simp [hended]), hwaiting ▸ hreplied⟩

end MediaServer
