/-
No client is forgotten.

As long as files can be opened, bodies read and responses delivered, the main loop does not
panic: neither `reqs.remove(..).expect` nor a `Header::from_bytes(..).unwrap()` is ever the
end of it.  What it does is then a run of the server, with the map it keeps in place of the
map's keys; so everything that is known of the server's runs is known of the whole program.
And every request it ever received is one it has answered or one it still holds.
-/
import MediaServer.Proofs.Front

namespace MediaServer

open Lib

variable {Rtc File E : Type} {n : Nat} {ext : Extern Rtc} {openFile : String → Except E File}
  {fromBytes : String → String → Option (String × String)}

instance (request : Request) : Decidable request.Forwarded :=
  inferInstanceAs (Decidable (_ ∧ _))

/-- What `Server.receive` answers itself it does not hand over. -/
theorem Server.receive_immediate {s s' : Server n Rtc} {request : Request} {sent : Bool}
    {response : Response File}
    (h : s.receive openFile sent request = .ok (some response, s')) : ¬ request.Forwarded := by
  intro hforwarded
  unfold Server.receive at h
  rw [if_neg (by simp [hforwarded.1]), if_neg hforwarded.2] at h
  split at h <;> cases h

namespace Front

variable {s s' : Front n File Rtc} {requests : List Request} {l : Label n Rtc}

/-- The file is there, the body can be read, and the response is delivered. -/
def Deliverable (openFile : String → Except E File) (s : Front n File Rtc) : Label n Rtc → Prop
  | .receive request sent => ∃ r, s.server.receive openFile sent request = .ok r
  | .respond _ sent => sent = true
  | .timeout | .insert | .emptied | .worker _ => True

/-- The step of the server a step is. -/
def serverView : Label n Rtc → Option (MediaServer.Label n Rtc)
  | .receive request _ =>
      if request.Forwarded then request.body.map fun body => .arrive (request.toHttpRequest 0 body)
      else none
  | .timeout | .emptied => none
  | .insert => some .insert
  | .respond _ _ => some .respond
  | .worker l => some l

/-- The client has been answered, or a number stands for its request. -/
def Minds (s : Front n File Rtc) (client : Nat) : Prop :=
  client ∈ s.delivered.map Prod.fst ∨ ∃ id p, s.Holds id p ∧ p.client = client

/-! ### One step -/

/-- An answer that can be delivered is. -/
theorem respond_delivers {order : List (String × String)} {sent : Bool}
    (h : Ledger ext openFile requests s) (hbytes : TakesAscii fromBytes)
    (hok : s.Deliverable openFile (.respond order sent))
    (hs : s.respond fromBytes order sent = some s') :
    ∃ res responses p reply, s.server.main = .ready ∧ s.server.responses = res :: responses ∧
      s.reqs.lookup res.reqId = some p ∧ s' = (s.pop res responses).deliver p.client reply := by
  obtain ⟨-, hready, res, responses, hres, horder, hcase⟩ := respond_some hs
  obtain ⟨p, hp, ⟨w, -, q, body, -, -, hanswers⟩, -, -⟩ := h.pop hready hres
  have hreply : (res.toReply fromBytes order : Option (Reply File))
      = some (.data res.status (order ++ corsHeaders) res.body) := hanswers.toReply hbytes horder
  rcases hcase with ⟨p', reply, hp', -, -, rfl⟩ | ⟨hlost, -⟩
  · exact ⟨res, responses, p', reply, hready, hres, hp', rfl⟩
  · rcases hlost with hnone | hnone | hnone
    · simp [hp] at hnone
    · simp [hreply] at hnone
    · rw [Deliverable] at hok
      simp [hok] at hnone

/-- A step is the server's step it looks like, or leaves the server alone. -/
theorem step_projects (h : Ledger ext openFile requests s) (hbytes : TakesAscii fromBytes)
    (hok : s.Deliverable openFile l) (hs : s.step ext openFile fromBytes l = some s') :
    match serverView l with
    | some a => s.server.step ext a = some s'.server
    | none => s'.server = s.server := by
  cases l with
  | receive request sent =>
      obtain ⟨hready, -, hcase⟩ := receive_some hs
      rcases hcase with ⟨p, hp, -⟩ | ⟨response, server, hreceive, rfl⟩ | ⟨body, hforwarded, hbody, rfl⟩
      · obtain ⟨r, hr⟩ := hok
        rw [hr] at hp
        cases hp
      · rw [serverView, if_neg (Server.receive_immediate hreceive)]
        rfl
      · rw [serverView, if_pos hforwarded, hbody]
        exact if_pos hready
  | timeout =>
      obtain ⟨-, -, rfl⟩ := timeout_some hs
      rfl
  | insert =>
      obtain ⟨hhanding, hserver, -⟩ := h.insert_some hs
      show s.server.insert = some s'.server
      rw [hserver]
      exact if_pos hhanding
  | respond order sent =>
      obtain ⟨res, responses, p, reply, hready, hres, hp, rfl⟩ := respond_delivers h hbytes hok hs
      show s.server.respond = some (s.pop res responses).server
      unfold Server.respond
      rw [hready, hres]
      simp [(h.keys res.reqId).mpr ⟨p, hp⟩, Front.pop, hready]
  | emptied =>
      obtain ⟨-, -, -, rfl⟩ := emptied_some hs
      rfl
  | worker l => exact (Ledger.worker_some hs).2.1

/-- A step that answers a client lets go of its request, and no step lets go of another. -/
theorem step_minds (hn : 0 < n) (h : Ledger ext openFile requests s)
    (hbytes : TakesAscii fromBytes) (hok : s.Deliverable openFile l)
    (hs : s.step ext openFile fromBytes l = some s') (hminds : ∀ c < s.received, s.Minds c) :
    ∀ c < s'.received, s'.Minds c := by
  have hkept : s'.received = s.received → s'.delivered = s.delivered →
      (∀ id p, s'.Holds id p ↔ s.Holds id p) → ∀ c < s'.received, s'.Minds c := by
    intro hreceived hdelivered hholds c hc
    refine (hminds c (hreceived ▸ hc)).imp (fun hmem => hdelivered ▸ hmem) ?_
    rintro ⟨id, p, hp, hclient⟩
    exact ⟨id, p, (hholds id p).mpr hp, hclient⟩
  cases l with
  | receive request sent =>
      obtain ⟨hready, -, hcase⟩ := receive_some hs
      have hnot : s.server.main ≠ .handing := by simp [hready]
      rcases hcase with ⟨p, hp, -⟩ | ⟨response, server, hreceive, rfl⟩ | ⟨body, -, -, rfl⟩
      · obtain ⟨r, hr⟩ := hok
        rw [hr] at hp
        cases hp
      · intro c hc
        rcases Nat.lt_succ_iff_lt_or_eq.mp hc with hold | rfl
        · refine (hminds c hold).imp (fun hmem => ?_) fun hholds => hholds
          rw [deliver, List.map_append]
          exact List.mem_append_left _ hmem
        · exact .inl (by simp [deliver])
      · intro c hc
        rcases Nat.lt_succ_iff_lt_or_eq.mp hc with hold | rfl
        · refine (hminds c hold).imp_right ?_
          rintro ⟨id, p, hp, hclient⟩
          exact ⟨id, p, .inl ((Ledger.holds_ready hnot).mp hp), hclient⟩
        · refine .inr ⟨s.server.reqId, _, .inr ⟨?_, rfl, ?_⟩, rfl⟩
          · exact (Server.input_main _ s.server).resolve_right hn.ne'
          · exact (Server.input_reqId _ s.server).symm
  | timeout =>
      obtain ⟨-, -, rfl⟩ := timeout_some hs
      exact hkept rfl rfl fun _ _ => Iff.rfl
  | insert =>
      obtain ⟨-, -, -, hreceived, hdelivered, -, hholds⟩ := h.insert_some hs
      exact hkept hreceived hdelivered hholds
  | respond order sent =>
      obtain ⟨res, responses, p, reply, hready, hres, hp, rfl⟩ := respond_delivers h hbytes hok hs
      have hnot : s.server.main ≠ .handing := by simp [hready]
      intro c hc
      rcases hminds c hc with hmem | ⟨id, q, hq, rfl⟩
      · refine .inl ?_
        rw [deliver, List.map_append]
        exact List.mem_append_left _ hmem
      · by_cases hid : id = res.reqId
        · subst hid
          obtain rfl : q = p := Option.some.inj (((Ledger.holds_ready hnot).mp hq).symm.trans hp)
          exact .inl (by simp [deliver])
        · exact .inr ⟨id, q, (Ledger.holds_pop hready res responses id q).mpr ⟨hid, hq⟩, rfl⟩
  | emptied =>
      obtain ⟨-, -, -, rfl⟩ := emptied_some hs
      exact hkept rfl rfl fun _ _ => Iff.rfl
  | worker l =>
      obtain ⟨-, -, heq, hholds⟩ := Ledger.worker_some hs
      exact hkept (by rw [heq]) (by rw [heq]) hholds

/-! ### Runs -/

variable {localAddrs : Fin n → SocketAddr} {labels : List (Label n Rtc)}

/--
**The main loop is the server's, and forgets no client.**  In every run in which files can
be opened, bodies read and responses delivered, with one worker at least: the main loop has
not panicked; the server has made a run of the server by itself; the keys of `reqs` are
those the server counts; and every request received so far has been answered or is still
held, under one number, by the loop.
-/
theorem front_refines (hn : 0 < n) (hbytes : TakesAscii fromBytes)
    (hok : Meets (step ext openFile fromBytes) (Deliverable openFile) (new localAddrs) labels)
    (hrun : runLabels (step ext openFile fromBytes) (new localAddrs) labels = some s) :
    s.server.main ≠ .panicked ∧
      runLabels (Server.step ext) (Server.new localAddrs) (labels.filterMap serverView)
        = some s.server ∧
      (∀ id, id ∈ s.server.reqs ↔ ∃ p, s.reqs.lookup id = some p) ∧
      ∀ client < (clients labels).length, client ∈ s.delivered.map Prod.fst ∨
        ∃ id p, s.Holds id p ∧ p.client = client := by
  have hinv : s.server.main ≠ .panicked ∧
      runLabels (Server.step ext) (Server.new localAddrs) (labels.filterMap serverView)
        = some s.server ∧ ∀ c < s.received, s.Minds c := by
    refine runLabels_invariant
      (P := fun labels s => s.server.main ≠ .panicked ∧
        runLabels (Server.step ext) (Server.new localAddrs) (labels.filterMap serverView)
          = some s.server ∧ ∀ c < s.received, s.Minds c)
      ⟨by simp [new, Server.new], rfl, by simp [new]⟩ ?_ labels s hok hrun
    rintro labels s l s' hrun ⟨hrunning, hserver, hminds⟩ hok hs
    have h : Ledger ext openFile (clients labels) s := ledger_run hbytes hrun
    have hview := step_projects h hbytes hok hs
    refine ⟨?_, ?_, step_minds hn h hbytes hok hs hminds⟩
    · cases hl : serverView l with
      | none =>
          rw [hl] at hview
          rw [show s'.server = s.server from hview]
          exact hrunning
      | some a =>
          rw [hl] at hview
          exact (h.matched.main_step hview).2.2 hn hrunning
    · rw [List.filterMap_append, List.filterMap_cons]
      cases hl : serverView l with
      | none =>
          rw [hl] at hview
          rw [show s'.server = s.server from hview]
          simpa using hserver
      | some a =>
          rw [hl] at hview
          exact runLabels_concat.mpr ⟨s.server, hserver, hview⟩
  have hledger : Ledger ext openFile (clients labels) s := ledger_run hbytes hrun
  refine ⟨hinv.1, hinv.2.1, hledger.keys, fun client hclient => ?_⟩
  exact hinv.2.2 client (hledger.received ▸ hclient)

instance {E : Type} (openFile : String → Except E File) (s : Front n File Rtc) (l : Label n Rtc) :
    Decidable (s.Deliverable openFile l) :=
  match l with
  | .receive request sent =>
      match h : s.server.receive openFile sent request with
      | .ok r => isTrue ⟨r, h⟩
      | .error p => isFalse fun ⟨r, hr⟩ => by rw [h] at hr; cases hr
  | .respond _ sent => inferInstanceAs (Decidable (sent = true))
  | .timeout | .insert | .emptied | .worker _ => isTrue trivial

end Front

/-- The second client of the visit is one of the two that are answered or held at its end. -/
theorem Front.front_refines_visit :
    ∃ s : Front 1 String Script,
      runLabels (Front.step Script.engine Script.files Script.header)
        (Front.new fun _ => Script.addr) (Script.visit (0 : Fin 1)) = some s ∧
      s.server.main ≠ .panicked ∧
      (1 ∈ s.delivered.map Prod.fst ∨ ∃ id p, s.Holds id p ∧ p.client = 1) := by
  have hend : (Script.runVisit (0 : Fin 1)).any (fun s => s.received = 2) = true := by decide +kernel
  obtain ⟨s, hs, -⟩ := Option.any_eq_true _ _ |>.mp hend
  have hok : checks (Front.step Script.engine Script.files Script.header)
      (fun s l => s.Deliverable Script.files l) (Front.new fun _ => Script.addr) (Script.visit (0 : Fin 1))
      = true := by decide +kernel
  obtain ⟨hrunning, -, -, hminds⟩ := front_refines Nat.one_pos Script.header_takesAscii
    (by simpa using meets_of_checks hok) hs
  exact ⟨s, hs, hrunning, hminds 1 (by decide)⟩

end MediaServer
