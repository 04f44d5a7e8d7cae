/-
Datagrams from strangers.

A datagram whose sender is not registered is read as a STUN message, and only one
whose username names a live session registers its sender; anything else is to be
dropped.  `Inserted` compares two runs of `process_udp`, one over a list of datagrams
and one over the same list with such datagrams put in anywhere, each judged by the
tables at the moment it comes in.

What stands between the two runs being the same is one case: `get_stun_username`
returns an `Option`, and its caller drops a datagram without a username, but a
datagram the decoder refuses is unwrapped before that and takes the worker down.
-/
import MediaServer.Proofs.Registry

namespace MediaServer

open Lib

variable {Rtc : Type} (ext : Extern Rtc)

namespace Worker

/-- A datagram of no session: from an unregistered address, and no STUN message of a live one. -/
structure Stranger (w : Worker Rtc) (d : Datagram) : Prop where
  remote : w.taskRemotes.lookup d.remote = none
  username : ∀ username, ext.decodeStun d.buf = .ok (some username) →
    w.taskUfrags.lookup (usernamePrefix username) = none

/--
`Inserted ext w base noise noisy`: a worker with the tables `w` receives `noisy`, which
is `base` with the strangers' datagrams `noise` put in.  Where the worker panics on a
datagram of `base`, what comes after it is never received.
-/
inductive Inserted : Worker Rtc → List Datagram → List Datagram → List Datagram → Prop
  | done (w : Worker Rtc) : Inserted w [] [] []
  | keep {w w' : Worker Rtc} {d : Datagram} {actions : List Action}
      {base noise noisy : List Datagram} (h : w.handleDatagram ext d = .ok (w', actions))
      (hrest : Inserted w' base noise noisy) : Inserted w (d :: base) noise (d :: noisy)
  | stop {w : Worker Rtc} {d : Datagram} {p : Panic} (base noisy : List Datagram)
      (h : w.handleDatagram ext d = .error p) : Inserted w (d :: base) [] (d :: noisy)
  | insert {w : Worker Rtc} {d : Datagram} {base noise noisy : List Datagram}
      (hd : Stranger ext w d) (hrest : Inserted w base noise noisy) :
      Inserted w base (d :: noise) (d :: noisy)

variable {ext}

namespace Stranger

/-- A stranger's datagram that decodes is dropped. -/
theorem dropped {w : Worker Rtc} {d : Datagram} (h : Stranger ext w d) {u : Option String}
    (hdecode : ext.decodeStun d.buf = .ok u) : w.handleDatagram ext d = .ok (w, []) := by
  cases u with
  | none => simp [handleDatagram, slot, h.remote, getStunUsername, hdecode]
  | some username =>
      simp [handleDatagram, slot, h.remote, getStunUsername, hdecode, h.username username hdecode]

/-- One that does not is fatal. -/
theorem fatal {w : Worker Rtc} {d : Datagram} (h : Stranger ext w d) {e : ExternError}
    (hdecode : ext.decodeStun d.buf = .error e) :
    w.handleDatagram ext d = .error .stunDecode := by
  simp [handleDatagram, slot, h.remote, getStunUsername, hdecode]

end Stranger

theorem Inserted.eq_of_decodes {w : Worker Rtc} {base noise noisy : List Datagram}
    (h : Inserted ext w base noise noisy) (hnoise : ∀ d ∈ noise, ∃ u, ext.decodeStun d.buf = .ok u) :
    w.processUdp ext noisy = w.processUdp ext base := by
  induction h with
  | done => rfl
  | keep hd _ ih =>
      have hrest := ih hnoise
      unfold processUdp at hrest ⊢
      rw [forEach_cons hd, forEach_cons hd, hrest]
  | stop base noisy hd => rw [processUdp, forEach_cons_error hd, forEach_cons_error hd]
  | insert hd _ ih =>
      obtain ⟨u, hu⟩ := hnoise _ List.mem_cons_self
      have hrest := ih fun d hmem => hnoise d (List.mem_cons_of_mem _ hmem)
      unfold processUdp at hrest ⊢
      rw [forEach_cons (hd.dropped hu), hrest]
      cases forEach (handleDatagram ext) _ _ <;> rfl

theorem Inserted.decodes_of_ok {w : Worker Rtc} {base noise noisy : List Datagram}
    (h : Inserted ext w base noise noisy) :
    ∀ {r}, w.processUdp ext noisy = .ok r → ∀ d ∈ noise, ∃ u, ext.decodeStun d.buf = .ok u := by
  induction h with
  | done => intro r _ d hd; cases hd
  | keep hd _ ih =>
      intro r hrun
      rw [processUdp, forEach_cons hd, except_map_ok] at hrun
      obtain ⟨q, hq, -⟩ := hrun
      exact ih hq
  | stop base noisy hd => intro r _ d hmem; cases hmem
  | @insert w x base noise noisy hx _ ih =>
      intro r hrun d hmem
      cases hdecode : ext.decodeStun x.buf with
      | error e =>
          rw [processUdp, forEach_cons_error (hx.fatal hdecode)] at hrun
          cases hrun
      | ok u =>
          rcases List.mem_cons.mp hmem with rfl | hmem
          · exact ⟨u, hdecode⟩
          · rw [processUdp, forEach_cons (hx.dropped hdecode), except_map_ok] at hrun
            obtain ⟨q, hq, -⟩ := hrun
            exact ih hq d hmem

end Worker

variable {ext}

/--
**Strangers are inert exactly when the decoder accepts what they send.**  Datagrams of
no session, put anywhere into what a worker receives, leave the run what it was — the
same tables, the same inputs to the same sessions, the same actions, and if it
panicked the same panic — provided each of them decodes; and a run that completes
without them completes the same way with them only then.
-/
theorem strangers_inert_iff {w : Worker Rtc} {base noise noisy : List Worker.Datagram}
    (h : Worker.Inserted ext w base noise noisy) :
    ((∀ d ∈ noise, ∃ u, ext.decodeStun d.buf = .ok u) →
      w.processUdp ext noisy = w.processUdp ext base) ∧
    ∀ w' actions, w.processUdp ext base = .ok (w', actions) →
      (w.processUdp ext noisy = .ok (w', actions) ↔
        ∀ d ∈ noise, ∃ u, ext.decodeStun d.buf = .ok u) := by
  refine ⟨h.eq_of_decodes, fun w' actions hbase => ⟨h.decodes_of_ok, fun hnoise => ?_⟩⟩
  rw [h.eq_of_decodes hnoise, hbase]

/-- A worker with one publisher. -/
def Script.onePublisher : Worker Script :=
  (Script.play [.request (Script.arrival 1 "/whip/endpoint" [0x76] "abc" [])]).1

/-- Two strangers around the publisher's first datagram, neither of them noticed. -/
theorem strangers_inert_around :
    Script.onePublisher.processUdp Script.engine
        [Script.datagram 8 [7], Script.datagram 7 [0, 97, 98, 99], Script.datagram 8 [7]]
      = Script.onePublisher.processUdp Script.engine [Script.datagram 7 [0, 97, 98, 99]] := by
  have hbound : (Script.onePublisher.handleDatagram Script.engine
      (Script.datagram 7 [0, 97, 98, 99])).toOption.map
        (fun r => r.1.taskRemotes.lookup (Script.peer 8)) = some none := by decide +kernel
  cases hd : Script.onePublisher.handleDatagram Script.engine
      (Script.datagram 7 [0, 97, 98, 99]) with
  | error p =>
      rw [hd] at hbound
      cases hbound
  | ok r =>
      rw [hd] at hbound
      have hbefore : Worker.Stranger Script.engine Script.onePublisher (Script.datagram 8 [7]) :=
        ⟨by decide +kernel, fun username hu => by cases hu⟩
      have hafter : Worker.Stranger Script.engine r.1 (Script.datagram 8 [7]) :=
        ⟨Option.some.inj hbound, fun username hu => by cases hu⟩
      refine (strangers_inert_iff
        (.insert hbefore (.keep hd (.insert hafter (.done r.1))))).1 fun d hmem => ⟨none, ?_⟩
      simp only [List.mem_cons, List.not_mem_nil, or_false, or_self] at hmem
      rw [hmem]
      rfl

/-- One datagram the decoder refuses ends a worker that would have gone on. -/
theorem stranger_fatal :
    let d := Script.datagram 8 [9]
    Worker.Stranger Script.engine Script.onePublisher d ∧
      Script.onePublisher.processUdp Script.engine [] = .ok (Script.onePublisher, []) ∧
      Script.onePublisher.processUdp Script.engine [d] = .error .stunDecode := by
  have hd : Worker.Stranger Script.engine Script.onePublisher (Script.datagram 8 [9]) := by
    refine ⟨by decide +kernel, fun username hu => ?_⟩
    cases hu
  refine ⟨hd, rfl, ?_⟩
  rw [Worker.processUdp, forEach_cons_error (hd.fatal rfl)]

end MediaServer
