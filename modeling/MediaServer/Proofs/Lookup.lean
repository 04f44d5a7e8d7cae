/-
Which of the two lookups a datagram's session is found by.

A datagram's session is looked up by the sender's address, and only where that is not
entered, by the username in the datagram.  An address is entered by the first STUN
message that comes from it and stays until its session is removed, so the first lookup
says who the sender was when it was first heard of, the second who it says it is now.
The two agree on a sender that is new or says what it said before; of a sender that
comes back as somebody else, the first is believed.
-/
import MediaServer.Proofs.Draining

namespace MediaServer

open Lib

variable {Rtc : Type} {ext : Extern Rtc}

namespace Worker

/-- The session a datagram is handed to is the one found, and it alone. -/
theorem handleDatagram_handed {d : Datagram} {w u w' : Worker Rtc} {taskId : Nat}
    {found actions : List Action} {c : TaskContainer Rtc}
    (hslot : w.slot ext d = .ok (some taskId, u, found)) (hc : u.tasks.lookup taskId = some c)
    (h : w.handleDatagram ext d = .ok (w', actions)) :
    .input taskId (.io (.udpSocketRecv d.remote u.udpSocketLocalAddr d.buf)) ∈ actions ∧
      actions.filterMap Action.datagramFor = [taskId] ∧ w'.taskRemotes = u.taskRemotes := by
  obtain ⟨r, task, popped, -, -, -, hpop, rfl⟩ := handleDatagram_some hslot hc h
  have hfound := List.filterMap_eq_nil_iff.mpr (slot_datagramFor hslot)
  have hpopped : popped.filterMap Action.datagramFor = [] := by
    have hnone := popTask_datagramFor ext d.now taskId { c with task }
      { u with tasks := u.tasks.insert taskId { c with task } }
    rw [hpop] at hnone
    exact List.filterMap_eq_nil_iff.mpr hnone
  refine ⟨by simp, ?_, ?_⟩
  · rw [List.filterMap_append, hfound, List.filterMap_cons, hpopped]
    rfl
  · have hsame := congrArg (fun p => p.1.taskRemotes) hpop
    exact hsame.symm

end Worker

/--
**The address is believed before the username.**  In any state a worker can reach, a STUN
message that names a live session is handed to one live session and no other: to the one
its sender is entered for, which lists the sender, if there is one, and else to the one it
names.  So it reaches the session it names exactly if the sender is new or is entered for
that session; and the sender is entered for the session it reached from then on.
-/
theorem stun_lookup_iff {addr : SocketAddr} {actions : List Action} {w : Worker Rtc}
    (h : Worker.Reaches ext FreshUfrag addr actions w) {d : Worker.Datagram} {username : String}
    (hstun : ext.decodeStun d.buf = .ok (some username)) {t : Nat} {c : TaskContainer Rtc}
    (hc : w.tasks.lookup t = some c) (hufrag : Worker.usernamePrefix username = c.task.ufrag) :
    ∃ t' c', w.tasks.lookup t' = some c' ∧
      ((w.taskRemotes.lookup d.remote = some t' ∧ d.remote ∈ c'.remotes) ∨
        (w.taskRemotes.lookup d.remote = none ∧ t' = t)) ∧
      (t' = t ↔ w.taskRemotes.lookup d.remote = none ∨ w.taskRemotes.lookup d.remote = some t) ∧
      (∃ u found, w.slot ext d = .ok (some t', u, found)) ∧
      ∀ w' acts, w.handleDatagram ext d = .ok (w', acts) →
        .input t' (.io (.udpSocketRecv d.remote w.udpSocketLocalAddr d.buf)) ∈ acts ∧
          acts.filterMap Action.datagramFor = [t'] ∧ w'.taskRemotes.lookup d.remote = some t' := by
  have hreg := h.registered
  cases hremote : w.taskRemotes.lookup d.remote with
  | some t' =>
      obtain ⟨c', hc', hmem⟩ := (hreg.remotes d.remote t').mp hremote
      have hslot : w.slot ext d = .ok (some t', w, []) := by
        rw [Worker.slot, hremote]
      refine ⟨t', c', hc', .inl ⟨rfl, hmem⟩, by simp, ⟨_, _, hslot⟩, fun w' acts hrun => ?_⟩
      obtain ⟨hinput, honly, hremotes⟩ := Worker.handleDatagram_handed hslot hc' hrun
      exact ⟨hinput, honly, by rw [hremotes, hremote]⟩
  | none =>
      have hentry : w.taskUfrags.lookup (Worker.usernamePrefix username) = some t :=
        (hreg.ufrags _ t).mpr ⟨c, hc, hufrag.symm⟩
      have hslot : w.slot ext d
          = .ok (some t, w.bind d.remote t, [.bound d.remote t]) := by
        simp only [Worker.slot, hremote, Worker.getStunUsername, hstun, Option.map_some, hentry]
      have hbound : (w.bind d.remote t).tasks.lookup t
          = some { c with remotes := c.remotes ++ [d.remote] } := by
        rw [Worker.bind_lookup, if_pos rfl, hc]
        rfl
      refine ⟨t, c, hc, .inr ⟨rfl, rfl⟩, by simp, ⟨_, _, hslot⟩, fun w' acts hrun => ?_⟩
      obtain ⟨hinput, honly, hremotes⟩ := Worker.handleDatagram_handed hslot hbound hrun
      refine ⟨hinput, honly, ?_⟩
      rw [hremotes, Worker.bind, Table.lookup_insert_ite, if_pos rfl]

/-- Two publishers, the first of which has been heard of. -/
def Script.twoPublishers : List (Op Script) :=
  [.request (arrival 1 "/whip/endpoint" [0x76] "abc" []),
    .request (arrival 2 "/whip/endpoint" [0x76] "def" []),
    .datagram (datagram 7 [0, 97, 98, 99])]

theorem Script.twoPublishers_lookup :
    ∃ c, (Script.play Script.twoPublishers).1.tasks.lookup 1 = some c ∧ c.task.ufrag = "def" := by
  have hufrag : ((Script.play Script.twoPublishers).1.tasks.lookup 1).map (·.task.ufrag)
      = some "def" := by decide +kernel
  exact Option.map_eq_some_iff.mp hufrag

/-- From an address that is new, the second publisher is reached by its username. -/
theorem stun_lookup_new_address :
    ∃ w' acts, (Script.play Script.twoPublishers).1.handleDatagram Script.engine
        (Script.datagram 8 [0, 100, 101, 102]) = .ok (w', acts) ∧
      acts.filterMap Action.datagramFor = [1] := by
  obtain ⟨c, hc, hufrag⟩ := Script.twoPublishers_lookup
  have hstun : Script.engine.decodeStun (Script.datagram 8 [0, 100, 101, 102]).buf
      = .ok (some "def") := by decide +kernel
  obtain ⟨t', c', -, -, hiff, -, hhanded⟩ := stun_lookup_iff (Script.play_reaches _) hstun hc
    (by rw [hufrag]; decide +kernel)
  have hnew : (Script.play Script.twoPublishers).1.taskRemotes.lookup
      (Script.datagram 8 [0, 100, 101, 102]).remote = none := by decide +kernel
  have hok : ((Script.play Script.twoPublishers).1.handleDatagram Script.engine
      (Script.datagram 8 [0, 100, 101, 102])).map (fun _ => ()) = .ok () := by decide +kernel
  obtain ⟨⟨w', acts⟩, hrun, -⟩ := except_map_ok.mp hok
  cases hiff.mpr (.inl hnew)
  exact ⟨w', acts, hrun, (hhanded w' acts hrun).2.1⟩

/--
The client at port 7 has opened a second session before the first was cleaned up: its
STUN message names the second, and is handed to the first.
-/
theorem stun_lookup_reused_address :
    let w := (Script.play Script.twoPublishers).1
    Worker.Reaches Script.engine FreshUfrag Script.addr (Script.play Script.twoPublishers).2 w ∧
      Script.engine.decodeStun [0, 100, 101, 102] = .ok (some "def") ∧
      (∃ c, w.tasks.lookup 1 = some c ∧ c.task.ufrag = Worker.usernamePrefix "def") ∧
      ∃ w' acts, w.handleDatagram Script.engine (Script.datagram 7 [0, 100, 101, 102])
          = .ok (w', acts) ∧ acts.filterMap Action.datagramFor = [0] := by
  refine ⟨Script.play_reaches _, by decide +kernel, ?_, ?_⟩
  · obtain ⟨c, hc, hufrag⟩ := Script.twoPublishers_lookup
    exact ⟨c, hc, by rw [hufrag]; decide +kernel⟩
  · have hhanded : ((Script.play Script.twoPublishers).1.handleDatagram Script.engine
        (Script.datagram 7 [0, 100, 101, 102])).map
        (fun r => r.2.filterMap Action.datagramFor) = .ok [0] := by decide +kernel
    obtain ⟨⟨w', acts⟩, hrun, hfor⟩ := except_map_ok.mp hhanded
    exact ⟨w', acts, hrun, hfor⟩

end MediaServer
