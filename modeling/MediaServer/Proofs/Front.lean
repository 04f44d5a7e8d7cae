/-
Every client and its own answer.

The main loop knows its clients by the numbers it gives their requests, and a worker knows
only the number.  `Ledger` says that the two agree in every state: each number in use
stands for one request, no two for one client; whatever a worker has under a number is that
request, or the answer to it; and whoever has been sent something stands for nothing any
more.  So what a client is sent, it is sent once, and it is the file its own request names,
or the answer to `OPTIONS`, or what a worker answers to its own request.
-/
import MediaServer.Proofs.Answers

namespace MediaServer

open Lib

variable {Rtc File E : Type} {n : Nat} {ext : Extern Rtc} {openFile : String → Except E File}
  {fromBytes : String → String → Option (String × String)}

/-! ### What a client may be sent -/

/-- The request is neither for a file nor an `OPTIONS` request. -/
def Request.Forwarded (request : Request) : Prop :=
  startsWith "/public" request.url = false ∧ request.method ≠ "OPTIONS"

/-- What the client of a request may be sent. -/
def Serves (ext : Extern Rtc) (openFile : String → Except E File) (request : Request)
    (reply : Reply File) : Prop :=
  if startsWith "/public" request.url then
    ∃ file, openFile (filePath request.url) = .ok file ∧
      reply = .immediate (fileResponse request.url file)
  else if request.method = "OPTIONS" then reply = .immediate optionsResponse
  else
    ∃ reqId body res order, request.body = some body ∧
      Answers ext (request.toHttpRequest reqId body) res ∧ Listing res.headers order ∧
      reply = .data res.status (order ++ corsHeaders) res.body

/-- What `Server.receive` answers with itself. -/
theorem Server.receive_serves {s s' : Server n Rtc} {request : Request} {sent : Bool}
    {response : Response File}
    (h : s.receive openFile sent request = .ok (some response, s')) :
    Serves ext openFile request (.immediate response) := by
  unfold Server.receive at h
  unfold Serves
  split at h
  · rename_i hpublic
    rw [if_pos hpublic]
    split at h
    · cases h
    · rename_i file hfile
      split at h <;> cases h
      exact ⟨file, hfile, rfl⟩
  · rename_i hpublic
    rw [if_neg hpublic]
    split at h
    · rename_i hoptions
      rw [if_pos hoptions]
      split at h <;> cases h
      rfl
    · split at h <;> cases h

/-- What is not answered at once is handed over as it was received. -/
theorem Server.receive_forwards {s s' : Server n Rtc} {request : Request} {sent : Bool}
    (h : s.receive openFile sent request = .ok (none, s')) :
    request.Forwarded ∧ ∃ body, request.body = some body ∧
      s' = s.input (request.toHttpRequest s.reqId body) := by
  unfold Server.receive at h
  split at h
  · split at h
    · cases h
    · split at h <;> cases h
  · rename_i hpublic
    split at h
    · split at h <;> cases h
    · rename_i hoptions
      split at h
      · cases h
      · rename_i body hbody
        cases h
        exact ⟨⟨by simpa using hpublic, hoptions⟩, body, hbody, rfl⟩

/-! ### The headers of an answer -/

/-- Every character of the text is one of the first 128. -/
def Ascii (text : String) : Prop := (text.toList.all fun c => c.toNat < 128) = true

instance (text : String) : Decidable (Ascii text) := inferInstanceAs (Decidable (_ = true))

/-- What is known of `Header::from_bytes`: it takes any ASCII name and value as they are. -/
def TakesAscii (fromBytes : String → String → Option (String × String)) : Prop :=
  ∀ name value, Ascii name → Ascii value → fromBytes name value = some (name, value)

/-- A listing of a map that is collected from a list has nothing that is not in the list. -/
theorem Listing.mem {pairs order : List (String × String)}
    (h : Listing (Table.ofList pairs) order) : ∀ p ∈ order, p ∈ pairs := by
  intro p hp
  refine Table.mem_of_lookup_ofList (k := p.1) (a := p.2) ?_
  rw [← h.2]
  exact Table.lookup_ofList_of_nodup h.1 hp

theorem mapM_fromBytes (hbytes : TakesAscii fromBytes) :
    ∀ headers : List (String × String), (∀ h ∈ headers, Ascii h.1 ∧ Ascii h.2) →
      (headers.mapM fun h => fromBytes h.1 h.2) = some headers := by
  intro headers
  induction headers with
  | nil => intro _; rfl
  | cons h rest ih =>
      intro hascii
      obtain ⟨hname, hvalue⟩ := hascii h List.mem_cons_self
      rw [List.mapM_cons, hbytes _ _ hname hvalue,
        ih fun h' hh' => hascii h' (List.mem_cons_of_mem _ hh')]
      rfl

/-- No answer of a worker has a header that `Header::from_bytes` would refuse. -/
theorem Answers.toReply {req : HttpRequest} {res : HttpResponse}
    {order : List (String × String)} (h : Answers ext req res) (hbytes : TakesAscii fromBytes)
    (horder : Listing res.headers order) :
    (res.toReply fromBytes order : Option (Reply File))
      = some (.data res.status (order ++ corsHeaders) res.body) := by
  have hown : ∀ p ∈ order, Ascii p.1 ∧ Ascii p.2 := by
    unfold Answers at h
    split at h
    · rename_i hpath
      obtain ⟨rtc, offer, answer, -, -, rfl⟩ := h
      have hlocation : Ascii (req.path ++ "/1234") := by
        rcases hpath with hpath | hpath
        · rw [hpath]
          decide +kernel
        · rw [hpath]
          decide +kernel
      intro p hp
      have hmem : p = ("Content-Type", "application/sdp") ∨ p = ("Location", req.path ++ "/1234") :=
        by simpa using Listing.mem horder p hp
      rcases hmem with rfl | rfl
      · exact ⟨by decide +kernel, by decide +kernel⟩
      · exact ⟨show Ascii "Location" by decide +kernel, hlocation⟩
    · intro p hp
      have hempty : Listing (Table.ofList []) order := by rwa [h] at horder
      cases Listing.mem hempty p hp
  have hcors : ∀ p ∈ corsHeaders, Ascii p.1 ∧ Ascii p.2 := by decide +kernel
  rw [HttpResponse.toReply, mapM_fromBytes hbytes]
  · rfl
  · intro p hp
    exact (List.mem_append.mp hp).elim (hown p) (hcors p)

/-! ### The ledger -/

namespace Server

variable {s : Server n Rtc}

/-- What a worker has of a request is one of the places it is in. -/
theorem whereabouts_pos {w : Fin n} {id : Nat} (h : id ∈ (s.slots w).holding) :
    0 < s.whereabouts id := by
  have hcount : 0 < (s.slots w).holding.count id := List.count_pos_iff.mpr h
  have hsum := Finset.add_sum_erase _ (fun v => (s.slots v).holding.count id) (Finset.mem_univ w)
  unfold whereabouts
  omega

theorem whereabouts_queued {w : Fin n} {req : HttpRequest} (h : req ∈ (s.slots w).requests) :
    0 < s.whereabouts req.reqId :=
  whereabouts_pos (w := w) (List.mem_append_left _ (List.mem_map_of_mem h))

theorem whereabouts_answering {w : Fin n} {a : Action} {res : HttpResponse}
    (h : a ∈ (s.slots w).outgoing) (hres : a.response = some res) :
    0 < s.whereabouts res.reqId := by
  refine whereabouts_pos (w := w) (List.mem_append_right _ (List.mem_map_of_mem ?_))
  exact List.mem_filterMap.mpr ⟨a, h, hres⟩

theorem whereabouts_answered {res : HttpResponse} (h : res ∈ s.responses) :
    0 < s.whereabouts res.reqId := by
  have hcount : 0 < (s.responses.map (·.reqId)).count res.reqId :=
    List.count_pos_iff.mpr (List.mem_map_of_mem h)
  unfold whereabouts
  omega

end Server

namespace Front

variable {s s' : Front n File Rtc} {requests : List Request}

/-- The request a number stands for: an entry of `reqs`, or the one being handed over. -/
def Holds (s : Front n File Rtc) (id : Nat) (p : Pending) : Prop :=
  s.reqs.lookup id = some p ∨
    (s.server.main = .handing ∧ s.handing = some p ∧ id = s.server.reqId)

/-- A worker's request is the one its number stands for. -/
def Queues (s : Front n File Rtc) (w : Fin n) (req : HttpRequest) : Prop :=
  req.reqId % n = w.val ∧ ∃ p body, s.Holds req.reqId p ∧ p.request.body = some body ∧
    req = p.request.toHttpRequest req.reqId body

/-- A worker's answer is one to the request its number stands for. -/
def Owes (ext : Extern Rtc) (s : Front n File Rtc) (w : Fin n) (res : HttpResponse) : Prop :=
  res.reqId % n = w.val ∧ ∃ p body, s.Holds res.reqId p ∧ p.request.body = some body ∧
    Answers ext (p.request.toHttpRequest res.reqId body) res

theorem Queues.owes {w : Fin n} {req : HttpRequest} {res : HttpResponse} (h : s.Queues w req)
    (hres : Answers ext req res) : s.Owes ext w res := by
  obtain ⟨hw, p, body, hholds, hbody, hreq⟩ := h
  have hid : res.reqId = req.reqId := hres.reqId
  rw [Owes, hid]
  exact ⟨hw, p, body, hholds, hbody, hreq ▸ hres⟩

/-- What the loop, the workers and the clients know of the requests received so far. -/
structure Ledger (ext : Extern Rtc) (openFile : String → Except E File)
    (requests : List Request) (s : Front n File Rtc) : Prop where
  matched : s.server.Matched
  keys : ∀ id, id ∈ s.server.reqs ↔ ∃ p, s.reqs.lookup id = some p
  received : s.received = requests.length
  handing : s.server.main = .handing → ∃ p, s.handing = some p
  /-- Every request handed over so far was counted. -/
  count : 0 < n → s.server.main ≠ .panicked →
    s.server.count = s.server.reqId + if s.server.main = .handing then 1 else 0
  mine : ∀ id p, s.Holds id p →
    requests[p.client]? = some p.request ∧ p.request.Forwarded ∧
      p.client ∉ s.delivered.map Prod.fst
  distinct : ∀ id id' p p', s.Holds id p → s.Holds id' p' → p.client = p'.client → id = id'
  carries : s.server.Carries s.Queues (s.Owes ext)
  once : (s.delivered.map Prod.fst).Nodup
  served : ∀ client reply, (client, reply) ∈ s.delivered →
    ∃ request, requests[client]? = some request ∧ Serves ext openFile request reply

theorem ledger_new (localAddrs : Fin n → SocketAddr) :
    Ledger ext openFile [] (new localAddrs : Front n File Rtc) := by
  have hnone : ∀ id p, ¬ (new localAddrs : Front n File Rtc).Holds id p := by
    rintro id p (hlookup | ⟨-, hhanding, -⟩)
    · simp [new] at hlookup
    · cases hhanding
  exact
    { matched := Server.matched_new localAddrs
      keys := fun id => by simp [new, Server.new]
      received := rfl
      handing := fun h => by cases h
      count := fun _ _ => rfl
      mine := fun id p h => absurd h (hnone id p)
      distinct := fun id _ p _ h => absurd h (hnone id p)
      carries := Server.carries_new localAddrs
      once := List.nodup_nil
      served := fun client reply h => by simp [new] at h }

namespace Ledger

/-- While nothing is handed over, a number stands for its entry. -/
theorem holds_ready (hmain : s.server.main ≠ .handing) {id : Nat} {p : Pending} :
    s.Holds id p ↔ s.reqs.lookup id = some p := by
  unfold Holds
  simp [hmain]

/-- One client more: it is nobody's yet. -/
theorem got (h : Ledger ext openFile requests s) (request : Request) :
    Ledger ext openFile (requests ++ [request]) { s with received := s.received + 1 } ∧
      (∀ id p, s.Holds id p → p.client ≠ s.received) ∧ s.received ∉ s.delivered.map Prod.fst ∧
      (requests ++ [request])[s.received]? = some request := by
  have hmore : ∀ {client : Nat} {r : Request}, requests[client]? = some r →
      (requests ++ [request])[client]? = some r := by
    intro client r hr
    rw [List.getElem?_append_left (List.getElem?_eq_some_iff.mp hr).1]
    exact hr
  have hpast : requests[s.received]? = none := by
    rw [h.received]
    exact List.getElem?_eq_none le_rfl
  refine ⟨?_, fun id p hp heq => ?_, fun hmem => ?_, ?_⟩
  · exact
      { matched := h.matched
        keys := h.keys
        received := by simp [h.received]
        handing := h.handing
        count := h.count
        mine := fun id p hp =>
          ⟨hmore (h.mine id p hp).1, (h.mine id p hp).2.1, (h.mine id p hp).2.2⟩
        distinct := h.distinct
        carries := h.carries
        once := h.once
        served := fun client reply hmem => by
          obtain ⟨r, hr, hserves⟩ := h.served client reply hmem
          exact ⟨r, hmore hr, hserves⟩ }
  · have hown := (h.mine id p hp).1
    rw [heq, hpast] at hown
    cases hown
  · obtain ⟨⟨client, reply⟩, hmem, hclient⟩ := List.mem_map.mp hmem
    obtain ⟨r, hr, -⟩ := h.served client reply hmem
    have hclient' : client = s.received := hclient
    rw [hclient', hpast] at hr
    cases hr
  · rw [h.received, List.getElem?_append_right le_rfl]
    simp

/-- A panic of the loop between two requests leaves everything else as it is. -/
theorem panic (h : Ledger ext openFile requests s) (hmain : s.server.main ≠ .handing) :
    Ledger ext openFile requests s.panic := by
  have hholds : ∀ {id : Nat} {p : Pending}, s.panic.Holds id p ↔ s.Holds id p := by
    intro id p
    rw [holds_ready hmain, holds_ready (show s.panic.server.main ≠ .handing by simp [Front.panic])]
    rfl
  have hpanicked : s.panic.server.Matched := by
    refine ⟨h.matched.settled, h.matched.below, h.matched.once, fun id hid => .inl ?_⟩
    exact (h.matched.known id hid).resolve_right fun hhanding => hmain hhanding.1
  exact
    { matched := hpanicked
      keys := h.keys
      received := h.received
      handing := fun hpanic => by cases hpanic
      count := fun _ hrunning => absurd rfl hrunning
      mine := fun id p hp => h.mine id p (hholds.mp hp)
      distinct := fun id id' p p' hp hp' => h.distinct id id' p p' (hholds.mp hp) (hholds.mp hp')
      carries := by
        have hkept : Server.Carries s.panic.Queues (s.panic.Owes ext) s.server := by
          refine h.carries.imp (fun w req _ hreq => ?_) fun w res _ hres => ?_
          · obtain ⟨hw, p, body, hp, hbody⟩ := hreq
            exact ⟨hw, p, body, hholds.mpr hp, hbody⟩
          · obtain ⟨hw, p, body, hp, hbody⟩ := hres
            exact ⟨hw, p, body, hholds.mpr hp, hbody⟩
        exact ⟨hkept.queued, hkept.answering, hkept.answered⟩
      once := h.once
      served := h.served }

/-- A client that stands for nothing is sent what it may be sent. -/
theorem deliver (h : Ledger ext openFile requests s) {client : Nat} {request : Request}
    {reply : Reply File} (hnobody : ∀ id p, s.Holds id p → p.client ≠ client)
    (hfirst : client ∉ s.delivered.map Prod.fst) (hrequest : requests[client]? = some request)
    (hserves : Serves ext openFile request reply) :
    Ledger ext openFile requests (s.deliver client reply) := by
  have hmem : ∀ c, c ∈ (s.deliver client reply).delivered.map Prod.fst ↔
      c ∈ s.delivered.map Prod.fst ∨ c = client := by
    intro c
    simp [Front.deliver]
  exact
    { matched := h.matched
      keys := h.keys
      received := h.received
      handing := h.handing
      count := h.count
      mine := fun id p hp => by
        obtain ⟨hown, hforwarded, hnot⟩ := h.mine id p hp
        exact ⟨hown, hforwarded, fun hin => ((hmem _).mp hin).elim hnot (hnobody id p hp)⟩
      distinct := h.distinct
      carries := h.carries
      once := by
        show (List.map Prod.fst (s.delivered ++ [(client, reply)])).Nodup
        rw [List.map_append, List.nodup_append]
        refine ⟨h.once, List.nodup_singleton _, ?_⟩
        intro c hc d hd hcd
        rw [List.map_singleton, List.mem_singleton] at hd
        rw [hcd, hd] at hc
        exact hfirst hc
      served := fun c r hin => by
        rcases List.mem_append.mp hin with hold | hnew
        · exact h.served c r hold
        · cases List.mem_singleton.mp hnew
          exact ⟨request, hrequest, hserves⟩ }

/-- The request that was received is handed over under the next number. -/
theorem hand (h : Ledger ext openFile requests s) (hready : s.server.main = .ready)
    {client : Nat} {request : Request} {body : Bytes} (hforwarded : request.Forwarded)
    (hbody : request.body = some body) (hrequest : requests[client]? = some request)
    (hnobody : ∀ id p, s.Holds id p → p.client ≠ client)
    (hfirst : client ∉ s.delivered.map Prod.fst) :
    Ledger ext openFile requests { s with
      server := s.server.input (request.toHttpRequest s.server.reqId body)
      handing := some { client, request } } := by
  have hnot : s.server.main ≠ .handing := by simp [hready]
  have harrive : s.server.arrive (request.toHttpRequest s.server.reqId body)
      = some (s.server.input (request.toHttpRequest s.server.reqId body)) := if_pos hready
  have hholds : ∀ id p, Holds { s with
      server := s.server.input (request.toHttpRequest s.server.reqId body)
      handing := some { client, request } } id p →
      s.Holds id p ∨ (p = { client, request } ∧ id = s.server.reqId) := by
    rintro id p (hlookup | ⟨-, hp, hid⟩)
    · exact .inl (.inl hlookup)
    · exact .inr ⟨(Option.some.inj hp).symm, by simpa using hid⟩
  have hkept : ∀ {id p}, s.Holds id p → Holds { s with
      server := s.server.input (request.toHttpRequest s.server.reqId body)
      handing := some { client, request } } id p :=
    fun hp => .inl ((holds_ready hnot).mp hp)
  have hcount : 0 < n → s.server.count = s.server.reqId := fun hn => by
    simpa [hready] using h.count hn (by simp [hready])
  refine
    { matched := h.matched.arrive harrive
      keys := by simpa using h.keys
      received := h.received
      handing := fun _ => ⟨_, rfl⟩
      count := fun hn _ => ?_
      mine := fun id p hp => ?_
      distinct := fun id id' p p' hp hp' hclient => ?_
      carries := ?_
      once := h.once
      served := h.served }
  · show (s.server.input _).count = _
    rw [Server.input_count _ hn, hcount hn,
      if_pos ((Server.input_main _ s.server).resolve_right hn.ne'), Server.input_reqId]
  · rcases hholds id p hp with hold | ⟨rfl, -⟩
    · exact h.mine id p hold
    · exact ⟨hrequest, hforwarded, hfirst⟩
  · rcases hholds id p hp with hold | ⟨rfl, rfl⟩
    · rcases hholds id' p' hp' with hold' | ⟨rfl, rfl⟩
      · exact h.distinct id id' p p' hold hold' hclient
      · exact absurd hclient (hnobody id p hold)
    · rcases hholds id' p' hp' with hold' | ⟨rfl, rfl⟩
      · exact absurd hclient.symm (hnobody id' p' hold')
      · rfl
  · refine Server.Carries.input (h.carries.imp (fun w req _ hreq => ?_) fun w res _ hres => ?_) ?_
    · obtain ⟨hw, p, b, hp, hb⟩ := hreq
      exact ⟨hw, p, b, hkept hp, hb⟩
    · obtain ⟨hw, p, b, hp, hb⟩ := hres
      exact ⟨hw, p, b, hkept hp, hb⟩
    · intro w hw
      have hn : 0 < n := Nat.lt_of_le_of_lt (Nat.zero_le _) w.isLt
      refine ⟨by rw [hw, hcount hn]; rfl, { client, request }, body, .inr ⟨?_, rfl, ?_⟩, hbody, rfl⟩
      · exact (Server.input_main _ s.server).resolve_right hn.ne'
      · exact (Server.input_reqId _ s.server).symm

/-- What is handed over becomes an entry, and a number stands for what it stood for. -/
theorem insert_some (h : Ledger ext openFile requests s) (hs : s.insert = some s') :
    s.server.main = .handing ∧
      s'.server = { s.server with
        main := .ready
        reqs := Insert.insert s.server.reqId s.server.reqs
        reqId := s.server.reqId + 1 } ∧
      s'.loop = .popping ∧ s'.received = s.received ∧ s'.delivered = s.delivered ∧
      (∀ id, (∃ p, s'.reqs.lookup id = some p) ↔
        id = s.server.reqId ∨ ∃ p, s.reqs.lookup id = some p) ∧
      ∀ id p, s'.Holds id p ↔ s.Holds id p := by
  unfold Front.insert at hs
  split at hs
  · rename_i pending hpending
    obtain ⟨server, hserver, rfl⟩ := Option.map_eq_some_iff.mp hs
    obtain ⟨hhanding, rfl⟩ := Server.insert_some hserver
    have hnew : s.reqs.lookup s.server.reqId = none := by
      by_contra hsome
      obtain ⟨p, hp⟩ := Option.ne_none_iff_exists'.mp hsome
      exact Nat.lt_irrefl _ (h.matched.below _ ((h.keys _).mpr ⟨p, hp⟩))
    refine ⟨hhanding, rfl, rfl, rfl, rfl, fun id => ?_, fun id p => ?_⟩
    · rw [Table.lookup_insert_ite]
      by_cases hid : id = s.server.reqId
      · simp [hid]
      · simp [hid]
    · unfold Holds
      simp only [Table.lookup_insert_ite, reduceCtorEq, false_and, or_false, hhanding, hpending,
        Option.some.injEq, true_and]
      by_cases hid : id = s.server.reqId
      · subst hid
        simp [hnew]
      · simp [hid]
  · cases hs

/-- Rewriting the tables so that every number stands for what it stood for. -/
theorem transfer (h : Ledger ext openFile requests s) (matched : s'.server.Matched)
    (keys : ∀ id, id ∈ s'.server.reqs ↔ ∃ p, s'.reqs.lookup id = some p)
    (received : s'.received = s.received) (delivered : s'.delivered = s.delivered)
    (handing : s'.server.main = .handing → ∃ p, s'.handing = some p)
    (count : 0 < n → s'.server.main ≠ .panicked →
      s'.server.count = s'.server.reqId + if s'.server.main = .handing then 1 else 0)
    (holds : ∀ id p, s'.Holds id p ↔ s.Holds id p)
    (carries : s'.server.Carries s.Queues (s.Owes ext)) : Ledger ext openFile requests s' := by
  refine
    { matched
      keys
      received := received.trans h.received
      handing
      count
      mine := fun id p hp => by rw [delivered]; exact h.mine id p ((holds id p).mp hp)
      distinct := fun id id' p p' hp hp' =>
        h.distinct id id' p p' ((holds id p).mp hp) ((holds id' p').mp hp')
      carries := carries.imp (fun w req _ hreq => ?_) fun w res _ hres => ?_
      once := by rw [delivered]; exact h.once
      served := by rw [delivered]; exact h.served }
  · obtain ⟨hw, p, b, hp, hb⟩ := hreq
    exact ⟨hw, p, b, (holds _ p).mpr hp, hb⟩
  · obtain ⟨hw, p, b, hp, hb⟩ := hres
    exact ⟨hw, p, b, (holds _ p).mpr hp, hb⟩

theorem insert (h : Ledger ext openFile requests s) (hs : s.insert = some s') :
    Ledger ext openFile requests s' := by
  obtain ⟨hhanding, hserver, -, hreceived, hdelivered, hkeys, hholds⟩ := h.insert_some hs
  have hinsert : s.server.step ext .insert = some s'.server := by
    rw [hserver]
    exact if_pos hhanding
  refine h.transfer (h.matched.step hinsert) (fun id => ?_) hreceived hdelivered ?_ ?_ hholds ?_
  · rw [hkeys, hserver, Finset.mem_insert, h.keys]
  · rw [hserver]
    simp
  · intro hn _
    have hbefore := h.count hn (by simp [hhanding])
    rw [if_pos hhanding] at hbefore
    rw [hserver]
    simpa using hbefore
  · rw [hserver]
    exact ⟨h.carries.queued, h.carries.answering, h.carries.answered⟩

theorem holds_pop (hready : s.server.main = .ready) (res : HttpResponse)
    (responses : List HttpResponse) (id : Nat) (q : Pending) :
    (s.pop res responses).Holds id q ↔ id ≠ res.reqId ∧ s.Holds id q := by
  have hnot : s.server.main ≠ .handing := by simp [hready]
  have hnot' : (s.pop res responses).server.main ≠ .handing := hnot
  rw [holds_ready hnot, holds_ready hnot']
  show (s.reqs.erase res.reqId).lookup id = some q ↔ _
  rw [Table.lookup_erase_ite]
  by_cases hid : id = res.reqId
  · simp [hid]
  · simp [hid]

/-- An answer is popped, and its entry goes with it: nothing is left under the number. -/
theorem pop (h : Ledger ext openFile requests s) (hready : s.server.main = .ready)
    {res : HttpResponse} {responses : List HttpResponse}
    (hres : s.server.responses = res :: responses) :
    ∃ p, s.reqs.lookup res.reqId = some p ∧ (∃ w, s.Owes ext w res) ∧
      (∀ id q, (s.pop res responses).Holds id q → q.client ≠ p.client) ∧
      Ledger ext openFile requests (s.pop res responses) := by
  have hnot : s.server.main ≠ .handing := by simp [hready]
  obtain ⟨hmem, hrest⟩ := h.matched.popped hready hres
  obtain ⟨p, hp⟩ := (h.keys res.reqId).mp hmem
  have hrespond : s.server.respond = some (s.pop res responses).server := by
    unfold Server.respond
    rw [hready, hres]
    simp [hmem, Front.pop, hready]
  have hmatched : (s.pop res responses).server.Matched := h.matched.respond hrespond
  have hholds := holds_pop hready res responses
  -- The answer was in one place, so what is still in one has another number.
  have hother : ∀ id, 0 < (s.pop res responses).server.whereabouts id → id ≠ res.reqId := by
    intro id hpos heq
    have hleft : (s.pop res responses).server.whereabouts id
        = s.server.whereabouts id - if res.reqId = id then 1 else 0 := hrest id
    have honce := h.matched.once id
    rw [if_pos heq.symm] at hleft
    omega
  have hcarries : s.server.Carries s.Queues (s.Owes ext) := h.carries
  have hkept : (s.pop res responses).server.Carries s.Queues (s.Owes ext) :=
    ⟨hcarries.queued, hcarries.answering, fun r hr =>
      hcarries.answered r (hres ▸ List.mem_cons_of_mem _ hr)⟩
  refine ⟨p, hp, hcarries.answered res (hres ▸ List.mem_cons_self), fun id q hq hclient => ?_, ?_⟩
  · obtain ⟨hne, hq⟩ := (hholds id q).mp hq
    exact hne (h.distinct id res.reqId q p hq (.inl hp) hclient)
  · exact
      { matched := hmatched
        keys := fun id => by
          show id ∈ s.server.reqs.erase res.reqId ↔
            ∃ q, (s.reqs.erase res.reqId).lookup id = some q
          simp only [Finset.mem_erase, Table.lookup_erase_ite, h.keys id]
          by_cases hid : id = res.reqId
          · simp [hid]
          · simp [hid]
        received := h.received
        handing := fun hhanding => absurd hhanding hnot
        count := h.count
        mine := fun id q hq => h.mine id q ((hholds id q).mp hq).2
        distinct := fun id id' q q' hq hq' =>
          h.distinct id id' q q' ((hholds id q).mp hq).2 ((hholds id' q').mp hq').2
        carries := by
          refine hkept.imp (fun w req hreq hqueues => ?_) fun w r hr howes => ?_
          · obtain ⟨hw, q, b, hq, hb⟩ := hqueues
            exact ⟨hw, q, b, (hholds _ q).mpr ⟨hother _ (Server.whereabouts_queued hreq), hq⟩, hb⟩
          · obtain ⟨hw, q, b, hq, hb⟩ := howes
            have hpos : 0 < (s.pop res responses).server.whereabouts r.reqId := by
              rcases hr with ⟨a, ha, hresponse⟩ | hr
              · exact Server.whereabouts_answering ha hresponse
              · exact Server.whereabouts_answered hr
            exact ⟨hw, q, b, (hholds _ q).mpr ⟨hother _ hpos, hq⟩, hb⟩
        once := h.once
        served := h.served }

/-- A worker's step leaves the loop's tables alone. -/
theorem worker_some {l : MediaServer.Label n Rtc} (hs : s.worker ext l = some s') :
    l.isMain = false ∧ s.server.step ext l = some s'.server ∧ s' = { s with server := s'.server } ∧
      ∀ id p, s'.Holds id p ↔ s.Holds id p := by
  unfold Front.worker at hs
  split at hs
  · cases hs
  · rename_i hmain
    rw [Bool.not_eq_true] at hmain
    obtain ⟨server, hserver, rfl⟩ := Option.map_eq_some_iff.mp hs
    obtain ⟨-, hphase, hreqId, -⟩ := Server.step_worker hmain hserver
    refine ⟨hmain, hserver, rfl, fun id p => ?_⟩
    unfold Holds
    rw [hphase, hreqId]

theorem worker {l : MediaServer.Label n Rtc} (h : Ledger ext openFile requests s)
    (hs : s.worker ext l = some s') : Ledger ext openFile requests s' := by
  obtain ⟨hmain, hserver, heq, hholds⟩ := worker_some hs
  obtain ⟨hreqs, hphase, hreqId, hcount⟩ := Server.step_worker hmain hserver
  have hcarries : s'.server.Carries s.Queues (s.Owes ext) :=
    h.carries.step (fun w req res hreq hres => hreq.owes hres) h.matched.settled hmain hserver
  refine h.transfer (h.matched.step hserver) (fun id => ?_) (by rw [heq]) (by rw [heq])
    (fun hhanding => ?_) (fun hn hrunning => ?_) hholds hcarries
  · rw [hreqs, heq]
    exact h.keys id
  · rw [heq]
    exact h.handing (hphase ▸ hhanding)
  · rw [hcount, hphase, hreqId]
    exact h.count hn (hphase ▸ hrunning)

end Ledger

/-! ### Every step -/

/-- The request a step receives. -/
def received? : Label n Rtc → Option Request
  | .receive request _ => some request
  | .timeout | .insert | .respond _ _ | .emptied | .worker _ => none

/-- The requests received in a run, in order: a client is a position in this list. -/
def clients (labels : List (Label n Rtc)) : List Request := labels.filterMap received?

/-- What the loop does with a request it receives. -/
theorem receive_some {request : Request} {sent : Bool}
    (h : s.receive openFile request sent = some s') :
    s.server.main = .ready ∧ s.loop = .receiving ∧
      ((∃ p, s.server.receive openFile sent request = .error p ∧
          s' = ({ s with received := s.received + 1 } : Front n File Rtc).panic) ∨
        (∃ response server, s.server.receive openFile sent request = .ok (some response, server) ∧
          s' = ({ s with received := s.received + 1 } : Front n File Rtc).deliver s.received
            (.immediate response)) ∨
        ∃ body, request.Forwarded ∧ request.body = some body ∧
          s' = { s with
            received := s.received + 1
            server := s.server.input (request.toHttpRequest s.server.reqId body)
            handing := some { client := s.received, request } }) := by
  unfold Front.receive at h
  split at h
  · rename_i hphase
    refine ⟨hphase.1, hphase.2, ?_⟩
    simp only at h
    split at h
    · rename_i p hp
      cases h
      exact .inl ⟨p, hp, rfl⟩
    · rename_i response server hreceive
      cases h
      exact .inr (.inl ⟨response, server, hreceive, rfl⟩)
    · rename_i server hreceive
      cases h
      obtain ⟨hforwarded, body, hbody, rfl⟩ := Server.receive_forwards hreceive
      exact .inr (.inr ⟨body, hforwarded, hbody, rfl⟩)
  · cases h

theorem timeout_some (h : s.timeout = some s') :
    s.server.main = .ready ∧ s.loop = .receiving ∧ s' = { s with loop := .popping } := by
  unfold timeout at h
  split at h <;> cases h
  rename_i hphase
  exact ⟨hphase.1, hphase.2, rfl⟩

theorem emptied_some (h : s.emptied = some s') :
    s.loop = .popping ∧ s.server.main = .ready ∧ s.server.responses = [] ∧
      s' = { s with loop := .receiving } := by
  unfold emptied at h
  split at h <;> cases h
  exact ⟨‹_›, ‹_›, ‹_›, rfl⟩

/-- What the loop does with an answer it pops. -/
theorem respond_some {order : List (String × String)} {sent : Bool}
    (h : s.respond fromBytes order sent = some s') :
    s.loop = .popping ∧ s.server.main = .ready ∧ ∃ res responses,
      s.server.responses = res :: responses ∧ Listing res.headers order ∧
      ((∃ p reply, s.reqs.lookup res.reqId = some p ∧ res.toReply fromBytes order = some reply ∧
          sent = true ∧ s' = (s.pop res responses).deliver p.client reply) ∨
        ((s.reqs.lookup res.reqId = none ∨
            (res.toReply fromBytes order : Option (Reply File)) = none ∨ sent = false) ∧
          s' = (s.pop res responses).panic)) := by
  unfold Front.respond at h
  split at h
  · rename_i res responses hloop hmain hres
    split at h
    · rename_i horder
      refine ⟨hloop, hmain, res, responses, hres, horder, ?_⟩
      simp only at h
      split at h
      · rename_i hnone
        cases h
        exact .inr ⟨.inl hnone, rfl⟩
      · rename_i p hp
        split at h
        · rename_i hreply
          cases h
          exact .inr ⟨.inr (.inl hreply), rfl⟩
        · rename_i reply hreply
          split at h
          · rename_i hsent
            cases h
            exact .inl ⟨p, reply, hp, hreply, hsent, rfl⟩
          · rename_i hsent
            cases h
            exact .inr ⟨.inr (.inr (by simpa using hsent)), rfl⟩
    · cases h
  · cases h

variable {l : Label n Rtc}

theorem Ledger.step (h : Ledger ext openFile requests s) (hbytes : TakesAscii fromBytes)
    (hs : s.step ext openFile fromBytes l = some s') :
    Ledger ext openFile (requests ++ (received? l).toList) s' := by
  cases l with
  | receive request sent =>
      obtain ⟨hready, -, hcase⟩ := receive_some hs
      obtain ⟨hgot, hnobody, hfirst, hrequest⟩ := h.got request
      rcases hcase with ⟨p, -, rfl⟩ | ⟨response, server, hreceive, rfl⟩ | ⟨body, hforwarded, hbody, rfl⟩
      · exact hgot.panic (by simp [hready])
      · exact hgot.deliver hnobody hfirst hrequest (Server.receive_serves hreceive)
      · exact hgot.hand hready hforwarded hbody hrequest hnobody hfirst
  | timeout =>
      obtain ⟨-, -, rfl⟩ := timeout_some hs
      rw [received?, Option.toList_none, List.append_nil]
      exact h.transfer h.matched h.keys rfl rfl h.handing h.count (fun _ _ => Iff.rfl) h.carries
  | insert =>
      rw [received?, Option.toList_none, List.append_nil]
      exact h.insert hs
  | respond order sent =>
      rw [received?, Option.toList_none, List.append_nil]
      obtain ⟨-, hready, res, responses, hres, horder, hcase⟩ := respond_some hs
      obtain ⟨p, hp, ⟨w, -, q, body, hq, hbody, hanswers⟩, hnobody, hpopped⟩ := h.pop hready hres
      have hnot : s.server.main ≠ .handing := by simp [hready]
      rcases hcase with ⟨p', reply, hp', hreply, -, rfl⟩ | ⟨-, rfl⟩
      · obtain rfl : p' = p := Option.some.inj (hp'.symm.trans hp)
        obtain rfl : q = p' := Option.some.inj (((holds_ready hnot).mp hq).symm.trans hp)
        obtain ⟨hown, hforwarded, hfirst⟩ := h.mine res.reqId q (.inl hp)
        refine hpopped.deliver hnobody hfirst hown ?_
        rw [hanswers.toReply hbytes horder, Option.some.injEq] at hreply
        rw [Serves, if_neg (by simp [hforwarded.1]), if_neg hforwarded.2]
        exact ⟨res.reqId, body, res, order, hbody, hanswers, horder, hreply.symm⟩
      · exact hpopped.panic hnot
  | emptied =>
      obtain ⟨-, -, -, rfl⟩ := emptied_some hs
      rw [received?, Option.toList_none, List.append_nil]
      exact h.transfer h.matched h.keys rfl rfl h.handing h.count (fun _ _ => Iff.rfl) h.carries
  | worker l =>
      rw [received?, Option.toList_none, List.append_nil]
      exact h.worker hs

/-! ### Runs -/

variable {localAddrs : Fin n → SocketAddr} {labels : List (Label n Rtc)}

theorem ledger_run (hbytes : TakesAscii fromBytes)
    (hrun : runLabels (step ext openFile fromBytes) (new localAddrs) labels = some s) :
    Ledger ext openFile (clients labels) s := by
  refine runLabels_induct (P := fun labels s => Ledger ext openFile (clients labels) s)
    (ledger_new localAddrs) (fun labels s l s' _ h hs => ?_) hrun
  have hone : clients (labels ++ [l]) = clients labels ++ (received? l).toList := by
    rw [clients, clients, List.filterMap_append, List.filterMap_cons]
    cases received? l <;> rfl
  rw [hone]
  exact h.step hbytes hs

end Front

/-! ### One visit -/

namespace Script

/-- A file system with one script in it. -/
def files (path : String) : Except Unit String :=
  if path = "./public/whip/whip.js" then .ok "script" else .error ()

/-- `Header::from_bytes`, as it is. -/
def header (name value : String) : Option (String × String) :=
  if Ascii name ∧ Ascii value then some (name, value) else none

theorem header_takesAscii : TakesAscii header := fun _ _ hname hvalue =>
  if_pos ⟨hname, hvalue⟩

/-- One client fetches the script; another asks for what is not there, and is answered. -/
def visit (w : Fin n) : List (Front.Label n Script) :=
  [.receive { method := "GET", url := "/public/whip/whip.js", headers := [], body := some [] } true,
    .receive { method := "POST", url := "/nowhere", headers := [], body := some [] } true, .insert,
    .worker (.spawn w), .worker (.nextPhase w),
    .worker (.turn w (.request (arrival 0 "/nowhere" [] "abc" []))), .worker (.reply w),
    .respond [] true]

/-- Where the visit ends. -/
def runVisit (w : Fin n) : Option (Front n String Script) :=
  runLabels (Front.step engine files header) (Front.new fun _ => addr) (visit w)

end Script

end MediaServer
