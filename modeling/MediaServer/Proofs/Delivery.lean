/-
What is on the bus for a session gets there.

An event is in the bus once and its worker reads it once, and then hands it to whoever has
joined its track.  So a session that has joined when an event is still unread is handed it
when the worker comes to it, which takes two cycles at most, unless the session is removed
before; and it is handed all such events in the order of the bus.
-/
import MediaServer.Proofs.Fanout
import MediaServer.Proofs.Prompt

namespace MediaServer

open Lib

variable {Rtc : Type} {n : Nat} {ext : Extern Rtc}

/-- Whoever has joined a track is still of its audience, if it has not been removed. -/
theorem mem_audience_append {t : Nat} {topic : Side × UInt64} {as bs : List Action}
    (h : t ∈ audience topic as) (hstays : .removed t ∉ bs) : t ∈ audience topic (as ++ bs) := by
  obtain ⟨hadded, hhere⟩ := List.mem_filter.mp h
  refine List.mem_filter.mpr ⟨?_, ?_⟩
  · rw [Side.added_append]
    exact List.mem_append_left _ hadded
  · rw [decide_eq_true_eq] at hhere ⊢
    rw [removedIds_append, List.mem_append]
    exact not_or.mpr ⟨hhere, fun hmem => hstays (mem_removedIds.mp hmem)⟩

/-- What is handed to one session is part of what is handed out. -/
theorem mem_delivered {t : Nat} {ev : BusEvent} {actions : List Action}
    (h : (t, ev) ∈ actions.filterMap Action.handed) :
    ev ∈ actions.filterMap (Action.delivered t) := by
  obtain ⟨a, ha, hhanded⟩ := List.mem_filterMap.mp h
  refine List.mem_filterMap.mpr ⟨a, ha, ?_⟩
  cases a with
  | input t' event =>
      obtain ⟨ev', hev, heq⟩ := Option.map_eq_some_iff.mp hhanded
      cases heq
      rw [Action.delivered, if_pos rfl, hev]
  | _ => cases hhanded

namespace Server

variable {s s' : Server n Rtc} {l : Label n Rtc} {v : Fin n} {localAddrs : Fin n → SocketAddr}
  {known : List (Entry n)}

theorem reaches_more {labels : List (Label n Rtc)} (h : Reaches ext localAddrs known s)
    (hrun : runLabels (step ext) s labels = some s') :
    Reaches ext localAddrs (known ++ record ext s labels) s' := by
  refine runLabels_induct (P := fun labels s' =>
    Reaches ext localAddrs (known ++ record ext s labels) s') ?_ ?_ hrun
  · exact (List.append_nil known).symm ▸ h
  · intro labels t l t' hrun ih hs
    rw [record_concat hrun hs, ← List.append_assoc]
    exact ih.tail ⟨l, hs, rfl⟩

/-- What `v` reads while the session `t` is there, it hands to `t`, if `t` has joined. -/
theorem delivered_of_reads {labels : List (Label n Rtc)} (h : Reaches ext localAddrs known s)
    (hrun : runLabels (step ext) s labels = some s') (v : Fin n) (t : Nat) :
    (v, .removed t) ∈ record ext s labels ∨
      ((reads v (record ext s labels)).filter fun ev =>
          t ∈ audience ev.topic (actionsOf v known)).Sublist
        ((actionsOf v (record ext s labels)).filterMap (Action.delivered t)) := by
  refine runLabels_induct (P := fun labels _ => (v, .removed t) ∈ record ext s labels ∨
    ((reads v (record ext s labels)).filter fun ev =>
        t ∈ audience ev.topic (actionsOf v known)).Sublist
      ((actionsOf v (record ext s labels)).filterMap (Action.delivered t)))
    (.inr (List.Sublist.refl _)) ?_ hrun
  rintro labels u l u' hrun (hgone | ih) hs
  · rw [record_concat hrun hs]
    exact .inl (List.mem_append_left _ hgone)
  · by_cases hgone : (v, .removed t) ∈ record ext s labels
    · rw [record_concat hrun hs]
      exact .inl (List.mem_append_left _ hgone)
    · refine .inr ?_
      rw [record_concat hrun hs, reads_append, List.filter_append, actionsOf_append,
        List.filterMap_append]
      refine ih.append ?_
      have hreach := reaches_more h hrun
      refine Moves.rule (P := fun bs _ => ((reads v bs).filter fun ev =>
          t ∈ audience ev.topic (actionsOf v known)).Sublist
        ((actionsOf v bs).filterMap (Action.delivered t)))
        (fun _ _ _ => List.Sublist.refl _) (fun _ _ => List.Sublist.refl _) ?_
        (fun _ _ _ _ _ => List.Sublist.refl _) ⟨l, hs, rfl⟩
      intro w op slot worker actions htaken hexec
      by_cases hw : w = v
      · subst hw
        rw [reads, actionsOf_turn, if_pos rfl, Worker.exec_reads hexec]
        cases op with
        | busEvent ev now =>
            simp only [Op.readEvent, Option.toList_some, List.filter_cons, List.filter_nil]
            split
            · rename_i hjoined
              rw [decide_eq_true_eq] at hjoined
              have hhanded := (events_fanned_out hreach w).2 ev now worker actions hexec
              have hstill : t ∈ audience ev.topic (actionsOf w (known ++ record ext s labels)) := by
                rw [actionsOf_append]
                exact mem_audience_append hjoined fun hmem => hgone (mem_actionsOf.mp hmem)
              refine List.singleton_sublist.mpr (mem_delivered ?_)
              rw [hhanded]
              exact List.mem_map_of_mem hstill
            · exact List.nil_sublist _
        | _ => exact List.nil_sublist _
      · rw [reads, actionsOf_turn, if_neg hw]
        exact List.nil_sublist _

/--
**What is on the bus for a session gets there within two cycles.**  From any reachable state,
and in whatever order the threads move from there: once the thread of `v` has come to the end
of two more cycles, every session of `v` that had joined the track of events still unread has
been handed all of them, in the order of the bus; or else it has been removed.
-/
theorem events_delivered {before labels : List (Label n Rtc)}
    (hbefore : runLabels (step ext) (Server.new localAddrs) before = some s)
    (hrun : runLabels (step ext) s labels = some s') (v : Fin n)
    (hcycles : 2 ≤ cycles ext v s labels) {pos : Nat} (hpos : (s.slots v).reader = some pos)
    (t : Nat) :
    (v, .removed t) ∈ record ext s labels ∨
      ((s.bus.drop pos).filter fun ev => t ∈ audience ev.topic
          (actionsOf v (record ext (Server.new localAddrs) before))).Sublist
        ((actionsOf v (record ext s labels)).filterMap (Action.delivered t)) := by
  have hreach := reaches_of_run localAddrs hbefore
  have htracked : s.Tracked :=
    runLabels_preserves (fun _ _ _ h hs => h.step hs) hbefore (tracked_new localAddrs)
  have hread := bus_caught_up htracked hrun hcycles hpos
  rcases delivered_of_reads hreach hrun v t with hgone | hdelivered
  · exact .inl hgone
  · exact .inr ((hread.sublist.filter _).trans hdelivered)

end Server

open Script in
/-- A cycle with one session and nothing to take. -/
def Script.round (v : Fin n) : List (Label n Script) :=
  [.nextPhase v, .nextPhase v, .turn v (.tick [0] 0), .startPop v [0] 0, .turn v (.pop 0 0),
    .nextPhase v, .turn v .popEnded, .nextPhase v]

open Script in
/-- The viewer's worker comes to the two packets that wait for it, and goes round twice. -/
def Script.catchingUp (v : Fin n) : List (Label n Script) :=
  .turn v (.busEvent (.trackMedia (.fromRaw 8 (packet 111 [7]))) 0) ::
    .turn v (.busEvent (.trackMedia (.fromRaw 8 (packet 111 [8]))) 0) :: (round v ++ round v)

/-- By then the viewer has both, in their order. -/
theorem Server.events_delivered_stream :
    ∃ s : Server 2 Script, runLabels (step Script.engine) (Server.new fun _ => Script.addr)
        (Script.stream 0 1).dropLast.dropLast = some s ∧
      [BusEvent.trackMedia (.fromRaw 8 (Script.packet 111 [7])),
        .trackMedia (.fromRaw 8 (Script.packet 111 [8]))].Sublist
          ((actionsOf 0 (record Script.engine s (Script.catchingUp 0))).filterMap
            (Action.delivered 0)) := by
  have hend : (runLabels (step Script.engine) (Server.new fun _ => Script.addr)
      (Script.stream (0 : Fin 2) 1).dropLast.dropLast).any (fun s =>
        decide ((s.slots 0).reader = some 0 ∧ cycles Script.engine 0 s (Script.catchingUp 0) = 2 ∧
          s.bus = [.trackMedia (.fromRaw 8 (Script.packet 111 [7])),
            .trackMedia (.fromRaw 8 (Script.packet 111 [8]))] ∧
          removedIds (actionsOf 0 (record Script.engine s (Script.catchingUp 0))) = []) &&
        (runLabels (step Script.engine) s (Script.catchingUp 0)).isSome) = true := by
    decide +kernel
  have haudience : audience (.media, 8) (actionsOf 0 (record Script.engine
      (Server.new fun _ => Script.addr) (Script.stream (0 : Fin 2) 1).dropLast.dropLast)) = [0] := by
    decide +kernel
  obtain ⟨s, hs, hboth⟩ := Option.any_eq_true _ _ |>.mp hend
  obtain ⟨hfacts, hrun⟩ := Bool.and_eq_true_iff.mp hboth
  obtain ⟨hreader, hcycles, hbus, hnone⟩ := of_decide_eq_true hfacts
  obtain ⟨s', hs'⟩ := Option.isSome_iff_exists.mp hrun
  refine ⟨s, hs, ?_⟩
  rcases events_delivered hs hs' 0 hcycles.ge hreader 0 with hgone | hdelivered
  · have hmem := mem_removedIds.mpr (mem_actionsOf.mpr hgone)
    rw [hnone] at hmem
    cases hmem
  · have hall : (s.bus.drop 0).filter (fun ev => 0 ∈ audience ev.topic (actionsOf 0
        (record Script.engine (Server.new fun _ => Script.addr)
          (Script.stream (0 : Fin 2) 1).dropLast.dropLast))) = s.bus := by
      rw [hbus]
      refine List.filter_eq_self.mpr fun ev hev => decide_eq_true ?_
      have htopic : ev.topic = (.media, 8) := by
        rcases List.mem_cons.mp hev with rfl | hev
        · rfl
        · exact List.mem_singleton.mp hev ▸ rfl
      rw [htopic, haudience]
      exact List.mem_singleton_self 0
    rw [hall, hbus] at hdelivered
    exact hdelivered

end MediaServer
