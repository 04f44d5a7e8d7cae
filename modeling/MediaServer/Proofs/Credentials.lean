/-
Who may speak to a session.

The engine's credentials are all that stands between a session and the network: an
address is heard by a session only after it has named the session's ufrag in a STUN
message, and a session is registered under the ufrag its engine was built with and
under no other.  Both tables a datagram is looked up in are read back here to the step
of the run that made the entry.
-/
import MediaServer.Proofs.Answers
import MediaServer.Proofs.Intake

namespace MediaServer

open Lib

variable {Rtc : Type} {n : Nat} {ext : Extern Rtc}

namespace Worker

/-! ### What one turn enters -/

/-- Where a datagram's session comes from, with the username that named it. -/
theorem slot_source {d : Datagram} {w u : Worker Rtc} {found : Option Nat} {actions : List Action}
    (h : w.slot ext d = .ok (found, u, actions)) :
    (u = w ∧ actions = [] ∧ ∀ t, found = some t → w.taskRemotes.lookup d.remote = some t) ∨
      ∃ ufrag t, found = some t ∧ getStunUsername ext d.buf = .ok (some ufrag) ∧
        w.taskUfrags.lookup ufrag = some t ∧ u = w.bind d.remote t ∧
        actions = [.bound d.remote t] := by
  unfold slot at h
  split at h
  · rename_i t hremote
    cases h
    exact .inl ⟨rfl, rfl, fun t' ht' => by cases ht'; exact hremote⟩
  · split at h
    · cases h
    · cases h
      exact .inl ⟨rfl, rfl, by simp⟩
    · rename_i ufrag hstun
      split at h
      · cases h
        exact .inl ⟨rfl, rfl, by simp⟩
      · rename_i t hufrag
        cases h
        exact .inr ⟨ufrag, t, rfl, hstun, hufrag, rfl, rfl⟩

theorem popOne_entries {now : Instant} {taskId : Nat} {w w' : Worker Rtc} {actions : List Action}
    (h : w.popOne ext now taskId = .ok (w', actions)) :
    w'.taskUfrags = w.taskUfrags ∧ w'.taskRemotes = w.taskRemotes := by
  rcases popOne_cases h with ⟨-, rfl, -⟩ | ⟨c, -, rfl, -⟩
  · exact ⟨rfl, rfl⟩
  · exact ⟨rfl, rfl⟩

/-- What a datagram leaves in the two tables, it found there or its sender was entered. -/
theorem handleDatagram_entries {d : Datagram} {w w' : Worker Rtc} {actions : List Action}
    (h : w.handleDatagram ext d = .ok (w', actions)) :
    ∃ found u acts, w.slot ext d = .ok (found, u, acts) ∧ w'.taskUfrags = u.taskUfrags ∧
      w'.taskRemotes = u.taskRemotes ∧ (∀ a ∈ acts, a ∈ actions) := by
  obtain ⟨found, u, acts, hslot, ⟨rfl, rfl⟩ | ⟨taskId, v, fed, popped, hin, hpop, rfl⟩⟩ :=
    handleDatagram_ok h
  · exact ⟨found, _, _, hslot, rfl, rfl, fun _ => id⟩
  · obtain ⟨hufrags, hremotes⟩ := popOne_entries hpop
    have hquiet := (inputTask_feeds hin).1
    exact ⟨found, u, acts, hslot, hufrags.trans hquiet.taskUfrags,
      hremotes.trans hquiet.taskRemotes, fun a ha => List.mem_append_left _ ha⟩

theorem popEndedTasks_entries {w w' : Worker Rtc} {actions : List Action}
    (h : w.popEndedTasks = .ok (w', actions)) :
    (∀ u t, w'.taskUfrags.lookup u = some t → w.taskUfrags.lookup u = some t) ∧
      ∀ r t, w'.taskRemotes.lookup r = some t → w.taskRemotes.lookup r = some t := by
  refine forEach_preserves (P := fun _ v =>
    (∀ u t, v.taskUfrags.lookup u = some t → w.taskUfrags.lookup u = some t) ∧
      ∀ r t, v.taskRemotes.lookup r = some t → w.taskRemotes.lookup r = some t) ?_ h
    ⟨fun _ _ => id, fun _ _ => id⟩
  rintro taskId s t os bs hs ⟨hufrags, hremotes⟩
  obtain ⟨c, -, rfl, -⟩ := removeTask_ok.mp hs
  refine ⟨fun u t hl => ?_, fun r t hl => ?_⟩
  · rw [without_taskUfrags] at hl
    split at hl
    · cases hl
    · exact hufrags u t hl
  · rw [without_taskRemotes] at hl
    split at hl
    · cases hl
    · exact hremotes r t hl

/-- An entry for a ufrag is made when the session whose engine has it is opened. -/
theorem exec_ufrags {op : Op Rtc} {w w' : Worker Rtc} {actions : List Action}
    (h : w.exec ext op = .ok (w', actions)) {ufrag : String} {t : Nat}
    (hl : w'.taskUfrags.lookup ufrag = some t) :
    w.taskUfrags.lookup ufrag = some t ∨
      ∃ arrival req, op = .request arrival ∧ arrival.config.ufrag = ufrag ∧
        .created t req ∈ actions := by
  cases op with
  | busEvent ev now => exact .inl ((handleBusEvent_feeds h).1.taskUfrags ▸ hl)
  | request arrival =>
      obtain ⟨req, -, ⟨task, hopen, hadd⟩ | ⟨rfl, -⟩⟩ := handleRequest_ok h
      · cases hadd
        replace hl : (w.taskUfrags.insert task.ufrag w.taskIdSeed).lookup ufrag = some t := hl
        rw [Table.lookup_insert_ite] at hl
        by_cases hu : ufrag = task.ufrag
        · rw [if_pos hu] at hl
          cases hl
          exact .inr ⟨arrival, req, rfl, (hu.trans hopen.ufrag).symm, List.mem_cons_self⟩
        · rw [if_neg hu] at hl
          exact .inl hl
      · exact .inl hl
  | tick order now => exact .inl ((processTick_ok h).1.taskUfrags ▸ hl)
  | pop taskId now => exact .inl ((popOne_entries h).1 ▸ hl)
  | popEnded => exact .inl ((popEndedTasks_entries h).1 ufrag t hl)
  | datagram d =>
      obtain ⟨found, u, acts, hslot, hufrags, -⟩ := handleDatagram_entries h
      rw [hufrags] at hl
      rcases slot_source hslot with ⟨rfl, -⟩ | ⟨-, t', -, -, -, rfl, -⟩
      · exact .inl hl
      · exact .inl hl

/-- An entry for an address is made when a message from it names a session's ufrag. -/
theorem exec_remotes {op : Op Rtc} {w w' : Worker Rtc} {actions : List Action}
    (h : w.exec ext op = .ok (w', actions)) {r : SocketAddr} {t : Nat}
    (hl : w'.taskRemotes.lookup r = some t) :
    w.taskRemotes.lookup r = some t ∨
      ∃ d ufrag, op = .datagram d ∧ d.remote = r ∧
        getStunUsername ext d.buf = .ok (some ufrag) ∧ w.taskUfrags.lookup ufrag = some t ∧
        .bound r t ∈ actions := by
  cases op with
  | busEvent ev now => exact .inl ((handleBusEvent_feeds h).1.taskRemotes ▸ hl)
  | request arrival =>
      obtain ⟨req, -, ⟨task, hopen, hadd⟩ | ⟨rfl, -⟩⟩ := handleRequest_ok h
      · cases hadd
        exact .inl hl
      · exact .inl hl
  | tick order now => exact .inl ((processTick_ok h).1.taskRemotes ▸ hl)
  | pop taskId now => exact .inl ((popOne_entries h).2 ▸ hl)
  | popEnded => exact .inl ((popEndedTasks_entries h).2 r t hl)
  | datagram d =>
      obtain ⟨found, u, acts, hslot, -, hremotes, hmem⟩ := handleDatagram_entries h
      rw [hremotes] at hl
      rcases slot_source hslot with ⟨rfl, -⟩ | ⟨ufrag, t', -, hstun, hufrag, rfl, rfl⟩
      · exact .inl hl
      · rw [bind, Table.lookup_insert_ite] at hl
        by_cases hr : r = d.remote
        · rw [if_pos hr] at hl
          cases hl
          exact .inr ⟨d, ufrag, rfl, hr.symm, hstun, hufrag, hr ▸ hmem _ List.mem_cons_self⟩
        · rw [if_neg hr] at hl
          exact .inl hl

/-- A session that is handed a datagram is the one the datagram's sender was looked up to. -/
theorem handleDatagram_source {d : Datagram} {w w' : Worker Rtc} {actions : List Action}
    (h : w.handleDatagram ext d = .ok (w', actions)) {t : Nat} {src dst : SocketAddr}
    {buf : Bytes} (hmem : .input t (.io (.udpSocketRecv src dst buf)) ∈ actions) :
    ∃ u acts, w.slot ext d = .ok (some t, u, acts) ∧ ∀ a ∈ acts, a ∈ actions := by
  have hlooking : ∀ {found u acts}, w.slot ext d = .ok (found, u, acts) →
      ∀ event, Action.input t event ∉ acts := by
    intro found u acts hslot event hin
    rcases slot_source hslot with ⟨-, rfl, -⟩ | ⟨-, t', -, -, -, -, rfl⟩
    · cases hin
    · cases List.mem_singleton.mp hin
  unfold handleDatagram at h
  split at h
  · cases h
  · rename_i u acts hslot
    cases h
    exact absurd hmem (hlooking hslot _)
  · rename_i taskId u acts hslot
    obtain ⟨⟨x, rest⟩, hrun, heq⟩ := except_map_ok.mp h
    cases heq
    obtain ⟨v, fed, acts₂, hin, hrest, rfl⟩ := forEach_cons_ok.mp hrun
    obtain ⟨v₂, popped, acts₃, hpop, hnil, rfl⟩ := forEach_cons_ok.mp hrest
    cases hnil
    refine ⟨u, acts, ?_, fun a ha => List.mem_append_left _ ha⟩
    rcases List.mem_append.mp hmem with hmem | hmem
    · exact absurd hmem (hlooking hslot _)
    rcases List.mem_append.mp hmem with hmem | hmem
    · rcases inputTask_ok hin with ⟨-, -, rfl⟩ | ⟨c, b, task, -, -, -, rfl⟩
      · cases hmem
      · simp only [List.mem_cons, Action.input.injEq, Option.mem_toList, Option.map_eq_some_iff,
          reduceCtorEq, and_false, exists_false, or_false] at hmem
        rw [hmem.1]
        exact hslot
    · -- Polling a session hands nothing to it.
      have hpolled : (buf, src) ∈ popped.filterMap Action.fedDatagram :=
        List.mem_filterMap.mpr ⟨_, by simpa using hmem, rfl⟩
      rw [popOne_filterMap_nil (fun _ => rfl) (performed_fed _) hpop] at hpolled
      cases hpolled

/-- A datagram is handed to the session its sender is entered for, or is being entered for. -/
theorem exec_datagram {op : Op Rtc} {w w' : Worker Rtc} {actions : List Action}
    (h : w.exec ext op = .ok (w', actions)) {t : Nat} {src dst : SocketAddr} {buf : Bytes}
    (hmem : .input t (.io (.udpSocketRecv src dst buf)) ∈ actions) :
    ∃ d, op = .datagram d ∧ src = d.remote ∧ buf = d.buf ∧
      (w.taskRemotes.lookup src = some t ∨
        ∃ ufrag, getStunUsername ext d.buf = .ok (some ufrag) ∧
          w.taskUfrags.lookup ufrag = some t ∧ .bound src t ∈ actions) := by
  have hfed : (buf, src) ∈ actions.filterMap Action.fedDatagram :=
    List.mem_filterMap.mpr ⟨_, hmem, rfl⟩
  have hone := (exec_fed h).subset hfed
  cases op with
  | datagram d =>
      obtain ⟨rfl, rfl⟩ := Prod.mk.inj (List.mem_singleton.mp hone)
      refine ⟨d, rfl, rfl, rfl, ?_⟩
      obtain ⟨u, acts, hslot, hacts⟩ := handleDatagram_source h hmem
      rcases slot_source hslot with ⟨-, -, hremote⟩ | ⟨ufrag, t', hsome, hstun, hufrag, -, rfl⟩
      · exact .inl (hremote t rfl)
      · cases hsome
        exact .inr ⟨ufrag, hstun, hufrag, hacts _ List.mem_cons_self⟩
  | _ => cases hone

end Worker

/-! ### Over a run of the server -/

namespace Server

variable {s s' : Server n Rtc} {l : Label n Rtc}

/-- A worker changes in its own turns only. -/
theorem turn_of_step (hs : s.step ext l = some s') (v : Fin n) :
    (s'.slots v).worker = (s.slots v).worker ∨
      ∃ op actions, l = .turn v op ∧
        (s.slots v).worker.exec ext op = .ok ((s'.slots v).worker, actions) ∧
        s.emitted ext l = actions.map (Prod.mk v) := by
  have hsame : ∀ (w : Fin n) (slot : WorkerSlot Rtc), slot.worker = (s.slots w).worker →
      ((s.setSlot w slot).slots v).worker = (s.slots v).worker := fun w slot hslot =>
    forall_setSlot (P := fun v slot => slot.worker = (s.slots v).worker) hslot (fun _ => rfl) v
  cases l with
  | arrive req =>
      obtain ⟨-, rfl⟩ := arrive_some hs
      exact .inl (input_worker _ _ v)
  | insert =>
      obtain ⟨-, rfl⟩ := insert_some hs
      exact .inl rfl
  | respond =>
      obtain ⟨res, rest, -, -, ⟨-, rfl⟩ | ⟨-, rfl⟩⟩ := respond_some hs
      · exact .inl rfl
      · exact .inl rfl
  | spawn w =>
      obtain ⟨-, -, rfl⟩ := spawn_some hs
      exact .inl (hsame w _ rfl)
  | turn w op =>
      obtain ⟨-, slot, htaken, ⟨p, -, rfl⟩ | ⟨worker, actions, hexec, rfl⟩⟩ := turn_some hs
      · exact .inl (hsame w _ htaken.worker)
      · rw [htaken.worker] at hexec
        by_cases hw : w = v
        · subst hw
          refine .inr ⟨op, actions, rfl, ?_, by simp only [emitted, hexec]⟩
          rw [setSlot_slots, if_pos rfl]
          exact hexec
        · rw [setSlot_slots, if_neg (Ne.symm hw)]
          exact .inl rfl
  | nextPhase w =>
      obtain ⟨-, phase, -, -, -, rfl⟩ := nextPhase_some hs
      exact .inl (hsame w _ rfl)
  | startPop w order now =>
      obtain ⟨-, -, rfl⟩ := startPop_some hs
      exact .inl (hsame w _ rfl)
  | reply w =>
      obtain ⟨res, rest, -, rfl⟩ := reply_some hs
      exact .inl (hsame w { s.slots w with outgoing := rest } rfl)
  | lock w =>
      obtain ⟨-, -, -, rfl⟩ := callLock_some hs
      exact .inl (hsame w _ rfl)
  | acquire w =>
      obtain ⟨-, -, rfl⟩ := acquire_some hs
      exact .inl (hsame w { s.slots w with queued := false } rfl)
  | broadcast w =>
      obtain ⟨taskId, ev, rest, -, -, -, rfl⟩ := broadcast_some hs
      exact .inl (hsame w { s.slots w with outgoing := rest } rfl)

/-- What a step emits a turn did. -/
theorem mem_emitted {v : Fin n} {a : Action} (h : (v, a) ∈ s.emitted ext l) :
    ∃ op worker actions, l = .turn v op ∧
      (s.slots v).worker.exec ext op = .ok (worker, actions) ∧ a ∈ actions := by
  cases l with
  | turn w op =>
      cases hexec : (s.slots w).worker.exec ext op with
      | error p => simp [emitted, hexec] at h
      | ok r =>
          simp only [emitted, hexec] at h
          obtain ⟨b, hb, heq⟩ := List.mem_map.mp h
          cases heq
          exact ⟨op, r.1, r.2, rfl, hexec, hb⟩
  | _ => cases h

variable (ext)

/-- The step in which the worker `v` opens its session `t`, whose engine has this ufrag. -/
def Opens (v : Fin n) (t : Nat) (ufrag : String) (s : Server n Rtc) (l : Label n Rtc) : Prop :=
  ∃ arrival req, l = .turn v (.request arrival) ∧ arrival.config.ufrag = ufrag ∧
    (v, Action.created t req) ∈ s.emitted ext l

/-- The step in which `remote` names this ufrag and is entered for the session `t`. -/
def Presents (v : Fin n) (t : Nat) (remote : SocketAddr) (ufrag : String) (s : Server n Rtc)
    (l : Label n Rtc) : Prop :=
  ∃ d, l = .turn v (.datagram d) ∧ d.remote = remote ∧
    Worker.getStunUsername ext d.buf = .ok (some ufrag) ∧
    (v, Action.bound remote t) ∈ s.emitted ext l

variable {ext}

/-- Whatever is entered in the two tables was entered by a step of the run. -/
structure Vouched (ext : Extern Rtc) (localAddrs : Fin n → SocketAddr)
    (labels : List (Label n Rtc)) (s : Server n Rtc) : Prop where
  ufrags : ∀ v ufrag t, (s.slots v).worker.taskUfrags.lookup ufrag = some t →
    Takes (step ext) (Opens ext v t ufrag) (Server.new localAddrs) labels
  remotes : ∀ v remote t, (s.slots v).worker.taskRemotes.lookup remote = some t →
    ∃ ufrag, Takes (step ext) (Opens ext v t ufrag) (Server.new localAddrs) labels ∧
      Takes (step ext) (Presents ext v t remote ufrag) (Server.new localAddrs) labels

theorem vouched_run {localAddrs : Fin n → SocketAddr} {labels : List (Label n Rtc)}
    (hrun : runLabels (step ext) (Server.new localAddrs) labels = some s) :
    Vouched ext localAddrs labels s := by
  refine runLabels_induct (P := fun labels s => Vouched ext localAddrs labels s)
    ⟨by simp [Server.new, WorkerSlot.new, Worker.new],
      by simp [Server.new, WorkerSlot.new, Worker.new]⟩ ?_ hrun
  intro labels s l s' hrun h hs
  refine ⟨fun v ufrag t hl => ?_, fun v remote t hl => ?_⟩
  · rw [takes_concat hrun hs]
    rcases turn_of_step hs v with hsame | ⟨op, actions, rfl, hexec, hemitted⟩
    · exact .inl (h.ufrags v ufrag t (hsame ▸ hl))
    · refine (Worker.exec_ufrags hexec hl).imp (h.ufrags v ufrag t) ?_
      rintro ⟨arrival, req, rfl, hufrag, hmem⟩
      exact ⟨arrival, req, rfl, hufrag, hemitted ▸ List.mem_map_of_mem hmem⟩
  · simp only [takes_concat hrun hs]
    have hold : (s.slots v).worker.taskRemotes.lookup remote = some t → ∃ ufrag,
        (Takes (step ext) (Opens ext v t ufrag) (Server.new localAddrs) labels ∨
            Opens ext v t ufrag s l) ∧
          (Takes (step ext) (Presents ext v t remote ufrag) (Server.new localAddrs) labels ∨
            Presents ext v t remote ufrag s l) := by
      intro hl
      obtain ⟨ufrag, hopens, hpresents⟩ := h.remotes v remote t hl
      exact ⟨ufrag, .inl hopens, .inl hpresents⟩
    rcases turn_of_step hs v with hsame | ⟨op, actions, rfl, hexec, hemitted⟩
    · exact hold (hsame ▸ hl)
    · rcases Worker.exec_remotes hexec hl with hl | ⟨d, ufrag, rfl, hremote, hstun, hentry, hmem⟩
      · exact hold hl
      · exact ⟨ufrag, .inl (h.ufrags v ufrag t hentry),
          .inr ⟨d, rfl, hremote, hstun, hemitted ▸ List.mem_map_of_mem hmem⟩⟩

/--
**A session hears only addresses that have named its ufrag.**  In every run, with any
requests and any datagrams, forged ones included: a step that hands a session a datagram
is the turn of its worker on that very datagram, and some ufrag is such that the session
was opened before by a request whose engine was built with it, and the datagram's sender
has named it in a STUN message, in an earlier datagram or in this one, and was entered for
the session by that.
-/
theorem datagrams_authorized {localAddrs : Fin n → SocketAddr} {labels : List (Label n Rtc)}
    (hrun : runLabels (step ext) (Server.new localAddrs) labels = some s)
    (hs : s.step ext l = some s') {v : Fin n} {t : Nat} {src dst : SocketAddr} {buf : Bytes}
    (hfed : (v, Action.input t (.io (.udpSocketRecv src dst buf))) ∈ s.emitted ext l) :
    (∃ d, l = .turn v (.datagram d) ∧ d.remote = src ∧ d.buf = buf) ∧
      ∃ ufrag, Takes (step ext) (Opens ext v t ufrag) (Server.new localAddrs) labels ∧
        Takes (step ext) (Presents ext v t src ufrag) (Server.new localAddrs) (labels ++ [l]) := by
  have hvouched := vouched_run hrun
  obtain ⟨op, worker, actions, rfl, hexec, ha⟩ := mem_emitted hfed
  have hemitted : s.emitted ext (.turn v op) = actions.map (Prod.mk v) := by
    simp only [emitted, hexec]
  obtain ⟨d, rfl, rfl, rfl, hentry⟩ := Worker.exec_datagram hexec ha
  refine ⟨⟨d, rfl, rfl, rfl⟩, ?_⟩
  simp only [takes_concat hrun hs]
  rcases hentry with hentry | ⟨ufrag, hstun, hentry, hmem⟩
  · obtain ⟨ufrag, hopens, hpresents⟩ := hvouched.remotes v d.remote t hentry
    exact ⟨ufrag, hopens, .inl hpresents⟩
  · exact ⟨ufrag, hvouched.ufrags v ufrag t hentry,
      .inr ⟨d, rfl, rfl, hstun, hemitted ▸ List.mem_map_of_mem hmem⟩⟩

end Server

open Script in
/-- A publisher, and a message that names its ufrag. -/
def Script.knocking (w : Fin n) : List (Label n Script) :=
  [.spawn w, .arrive (request 0 "/whip/endpoint" [0x76]), .insert, .nextPhase w,
    .turn w (.request (arrival 0 "/whip/endpoint" [0x76] "abc" [])), .reply w, .nextPhase w,
    .turn w (.tick [0] 0), .startPop w [0] 0, .turn w (.pop 0 0), .nextPhase w,
    .turn w .popEnded, .turn w (.datagram (datagram 7 [0, 97, 98, 99]))]

/-- The next datagram from there is handed to the publisher, since that one named its ufrag. -/
theorem Server.datagrams_authorized_knocking :
    ∃ (s : Server 1 Script) (v : Fin 1) (t : Nat) (dst : SocketAddr),
      runLabels (step Script.engine) (Server.new fun _ => Script.addr)
        (Script.knocking (0 : Fin 1)) = some s ∧
      (v, Action.input t (.io (.udpSocketRecv (Script.peer 7) dst [1])))
        ∈ s.emitted Script.engine (.turn 0 (.datagram (Script.datagram 7 [1]))) ∧
      ∃ ufrag, Takes (step Script.engine) (Opens Script.engine v t ufrag)
        (Server.new fun _ => Script.addr) (Script.knocking (0 : Fin 1)) := by
  have hend : (runLabels (step Script.engine) (Server.new fun _ => Script.addr)
      (Script.knocking (0 : Fin 1))).any (fun s =>
        (s.step Script.engine (.turn 0 (.datagram (Script.datagram 7 [1])))).isSome &&
          (s.emitted Script.engine (.turn 0 (.datagram (Script.datagram 7 [1])))).any fun e =>
            e.2.fedDatagram = some ([1], Script.peer 7)) = true := by
    decide +kernel
  obtain ⟨s, hrun, hboth⟩ := Option.any_eq_true _ _ |>.mp hend
  obtain ⟨hsome, hany⟩ := Bool.and_eq_true_iff.mp hboth
  obtain ⟨s', hs⟩ := Option.isSome_iff_exists.mp hsome
  obtain ⟨⟨v, a⟩, hmem, hfed⟩ := List.any_eq_true.mp hany
  obtain ⟨t, dst, rfl⟩ : ∃ t dst, a = .input t (.io (.udpSocketRecv (Script.peer 7) dst [1])) := by
    cases a with
    | input t event =>
        cases event with
        | io event =>
            cases event with
            | udpSocketRecv src dst buf =>
                obtain ⟨rfl, rfl⟩ := Prod.mk.inj (Option.some.inj (of_decide_eq_true hfed))
                exact ⟨t, dst, rfl⟩
            | httpRequest req => cases of_decide_eq_true hfed
        | _ => cases of_decide_eq_true hfed
    | _ => cases of_decide_eq_true hfed
  obtain ⟨-, ufrag, hopens, -⟩ := datagrams_authorized hrun hs hmem
  exact ⟨s, v, t, dst, hrun, hmem, ufrag, hopens⟩

end MediaServer
