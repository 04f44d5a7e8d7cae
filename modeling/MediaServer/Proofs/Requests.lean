/-
One answer for every request.

A request for a session owes its caller one answer, and the session it opens owes it
from the start: the answer is the first thing in the new session's queue, the session
is polled before anything else happens, and nothing an engine says is worth an answer.
So `process_http` answers a queue of requests one for one and in order, as long as it
gets through the queue.

It does not get past a request whose offer it cannot accept: both constructors unwrap
what the engine says about the offer, so the whole worker ends there.
-/
import MediaServer.Proofs.Registry

namespace MediaServer

open Lib

variable {Rtc : Type} (ext : Extern Rtc)

/-! ### Answers among actions -/

def Action.response : Action → Option HttpResponse
  | .trySend res | .send res => some res
  | _ => none

def WebrtcTaskOutput.response : WebrtcTaskOutput → Option HttpResponse
  | .io (.httpResponse res) => some res
  | _ => none

/-- The answers a session still owes. -/
def ComposeTask.owedResponses (task : ComposeTask Rtc) : List HttpResponse :=
  task.core.outputs.filterMap WebrtcTaskOutput.response

theorem performed_response (taskId : Nat) (out : WebrtcTaskOutput) :
    (performed taskId out).response = out.response := by
  cases out with
  | io action => cases action <;> rfl
  | _ => rfl

theorem popActions_response (taskId : Nat) (answer : Option (Except ExternError Output))
    (out : Option WebrtcTaskOutput) :
    (popActions taskId answer out).filterMap Action.response
      = out.toList.filterMap WebrtcTaskOutput.response := by
  have hanswer : (answer.bind fun x => (Action.polled taskId x).response) = none := by
    cases answer <;> rfl
  rw [filterMap_popActions, hanswer]
  cases out with
  | none => rfl
  | some o =>
      simp only [Option.bind_some, performed_response, Option.toList_some, List.filterMap_cons]
      cases o.response <;> rfl

/-- No answer of the engine is worth an answer to a request. -/
theorem Role.translate_response (role : Role) (answer : Except ExternError Output) :
    (role.translate ext answer).filterMap WebrtcTaskOutput.response = [] := by
  unfold translate
  split
  · rfl
  · rfl
  · rfl
  · unfold translateEvent
    split <;> rfl

variable {ext}

/-- Polling moves answers from the queue to the caller and makes no new ones. -/
theorem ComposeTask.Popped.responses {now : Instant} {task task' : ComposeTask Rtc}
    {out : Option WebrtcTaskOutput} (h : Popped ext now task out task') :
    out.toList.filterMap WebrtcTaskOutput.response ++ task'.owedResponses
      = task.owedResponses := by
  rw [owedResponses, owedResponses, ← List.filterMap_append, h.core.conserves,
    List.filterMap_append]
  cases task.core.polled ext now with
  | none => simp
  | some answer => simp [Role.translate_response]

namespace Worker

/-- Polled to the end, a session has given all the answers it owed and owes none. -/
theorem popTask_responses (ext : Extern Rtc) (now : Instant) (taskId : Nat)
    (container : TaskContainer Rtc) (w : Worker Rtc) :
    ∃ c, (w.popTask ext now taskId container).1.tasks.lookup taskId = some c ∧
      c.task.owedResponses = [] ∧
      (w.popTask ext now taskId container).2.filterMap Action.response
        = container.task.owedResponses := by
  refine popTask_rule
    (P := fun task actions => actions.filterMap Action.response ++ task.owedResponses
      = container.task.owedResponses)
    (Q := fun task actions => task.owedResponses = [] ∧
      actions.filterMap Action.response = container.task.owedResponses) ?_ ?_ rfl
  · intro task actions action task' h hp
    rw [List.filterMap_append, popActions_response, List.append_assoc, hp.responses, h]
  · intro task actions task' h hp
    have hnone : task.owedResponses = [] := by
      simp [ComposeTask.owedResponses, hp.core.stops rfl]
    have hrest := hp.responses
    rw [hnone] at hrest h
    simp only [Option.toList_none, List.filterMap_nil, List.nil_append] at hrest
    refine ⟨hrest, ?_⟩
    simpa [popActions_response] using h

/-! ### Which requests get through -/

variable (ext)

/-- The engine makes its host candidate, reads the offer and accepts it. -/
def offerAccepted (rtc : Rtc) (localAddr : SocketAddr) (body : Bytes) : Bool :=
  match ext.candidateHost localAddr with
  | .error _ => false
  | .ok candidate =>
      match ext.fromSdpString (fromUtf8Lossy body) with
      | .error _ => false
      | .ok offer => (ext.acceptOffer (ext.addLocalCandidate rtc candidate) offer).1.isOk

/-- A request that opens no session, or one whose offer is accepted. -/
def acceptable (localAddr : SocketAddr) (arrival : HttpArrival Rtc) : Bool :=
  match arrival.event with
  | .httpRequest req =>
      if req.path = "/whip/endpoint" then
        offerAccepted ext (ext.enableTwccFeedback arrival.config.rtc) localAddr req.body
      else if req.path = "/whep/endpoint" then
        offerAccepted ext arrival.config.rtc localAddr req.body
      else true
  | .udpSocketRecv _ _ _ => false

/-- The id of the request an arrival is. -/
def HttpArrival.reqId (arrival : HttpArrival Rtc) : Option Nat :=
  match arrival.event with
  | .httpRequest req => some req.reqId
  | .udpSocketRecv _ _ _ => none

variable {ext}

theorem new_ok_iff (location ufrag : String) {rtc : Rtc} {req : HttpRequest}
    {localAddr : SocketAddr} :
    (∃ core, TaskCore.new ext location ufrag rtc req [localAddr] = .ok core) ↔
      offerAccepted ext rtc localAddr req.body = true := by
  unfold TaskCore.new offerAccepted TaskCore.addCandidates
  cases ext.candidateHost localAddr with
  | error e => simp
  | ok candidate =>
      simp only [TaskCore.addCandidates]
      cases ext.fromSdpString (fromUtf8Lossy req.body) with
      | error e => simp
      | ok offer =>
          simp only
          cases ext.acceptOffer (ext.addLocalCandidate rtc candidate) offer with
          | mk answer rtc => cases answer <;> simp [Except.isOk, Except.toBool]

/-- A request that gets through is answered once, under its own id. -/
theorem handleRequest_answers {arrival : HttpArrival Rtc} {w w' : Worker Rtc}
    {actions : List Action} (h : w.handleRequest ext arrival = .ok (w', actions)) :
    w'.udpSocketLocalAddr = w.udpSocketLocalAddr ∧
      (actions.filterMap Action.response).map (·.reqId) = arrival.reqId.toList := by
  obtain ⟨req, hreq, ⟨task, hopen, hadd⟩ | ⟨rfl, rfl⟩⟩ := handleRequest_ok h
  · obtain ⟨res, hres, hid⟩ := hopen.outputs
    obtain ⟨c, -, -, hgiven⟩ := popTask_responses ext arrival.now w.taskIdSeed
      (.ofTask task)
      { w with
        taskIdSeed := w.taskIdSeed + 1
        taskUfrags := w.taskUfrags.insert task.ufrag w.taskIdSeed }
    have hworker : (w.addTask ext arrival.now req task).1 = w' := congrArg Prod.fst hadd
    have hactions : (w.addTask ext arrival.now req task).2 = actions := congrArg Prod.snd hadd
    refine ⟨hworker ▸ rfl, ?_⟩
    rw [← hactions]
    simp only [addTask, List.filterMap_cons, Action.response, hgiven]
    simp [HttpArrival.reqId, hreq, TaskContainer.ofTask, ComposeTask.owedResponses, hres,
      WebrtcTaskOutput.response, hid]
  · exact ⟨rfl, by simp [HttpArrival.reqId, hreq, Action.response, notFound]⟩

theorem handleRequest_ok_iff {arrival : HttpArrival Rtc} {w : Worker Rtc} :
    (∃ r, w.handleRequest ext arrival = .ok r) ↔
      acceptable ext w.udpSocketLocalAddr arrival = true := by
  unfold handleRequest acceptable
  cases arrival.event with
  | udpSocketRecv src dst buf => simp
  | httpRequest req =>
      simp only
      split
      · rw [← new_ok_iff "/whip/endpoint/1234" arrival.config.ufrag]
        rw [except_map_exists_ok, WhipServerTask.new, except_map_exists_ok]
      · split
        · rw [← new_ok_iff "/whep/endpoint/1234" arrival.config.ufrag]
          rw [except_map_exists_ok, WhepServerTask.new, except_map_exists_ok]
        · simp

theorem processHttp_ok_iff (arrivals : List (HttpArrival Rtc)) :
    ∀ w : Worker Rtc, (∃ r, w.processHttp ext arrivals = .ok r) ↔
      ∀ arrival ∈ arrivals, acceptable ext w.udpSocketLocalAddr arrival = true := by
  induction arrivals with
  | nil => intro w; simp [processHttp]
  | cons arrival rest ih =>
      intro w
      rw [List.forall_mem_cons, ← handleRequest_ok_iff]
      constructor
      · rintro ⟨⟨w', actions⟩, hrun⟩
        obtain ⟨v, bs₁, bs₂, hfirst, hrest, -⟩ := forEach_cons_ok.mp hrun
        refine ⟨⟨_, hfirst⟩, ?_⟩
        rw [← (handleRequest_answers hfirst).1]
        exact (ih v).mp ⟨_, hrest⟩
      · rintro ⟨⟨⟨v, bs₁⟩, hfirst⟩, hrest⟩
        rw [← (handleRequest_answers hfirst).1] at hrest
        obtain ⟨⟨u, bs₂⟩, hrun⟩ := (ih v).mpr hrest
        exact ⟨_, forEach_cons_ok.mpr ⟨v, bs₁, bs₂, hfirst, hrun, rfl⟩⟩

/-- A queue that is got through is answered one for one, in order. -/
theorem processHttp_answers {arrivals : List (HttpArrival Rtc)} :
    ∀ {w w' : Worker Rtc} {actions : List Action}, w.processHttp ext arrivals = .ok (w', actions) →
      (actions.filterMap Action.response).map (·.reqId)
        = arrivals.filterMap HttpArrival.reqId := by
  induction arrivals with
  | nil =>
      intro w w' actions h
      cases h
      rfl
  | cons arrival rest ih =>
      intro w w' actions h
      obtain ⟨v, bs₁, bs₂, hfirst, hrest, rfl⟩ := forEach_cons_ok.mp h
      rw [List.filterMap_append, List.map_append, (handleRequest_answers hfirst).2, ih hrest]
      cases hid : arrival.reqId <;> simp [hid]

end Worker

/-! ### Bad requests -/

/--
What is asked of `process_http` on a queue: it finishes, gives every request one answer
under its id, and leaves the tables that the acceptable requests alone would have left.
-/
def Worker.ServesAll (ext : Extern Rtc) (w : Worker Rtc) (arrivals : List (HttpArrival Rtc)) :
    Prop :=
  ∃ w' actions, w.processHttp ext arrivals = .ok (w', actions) ∧
    (actions.filterMap Action.response).map (·.reqId) = arrivals.filterMap HttpArrival.reqId ∧
    ∃ actions', w.processHttp ext (arrivals.filter (acceptable ext w.udpSocketLocalAddr))
      = .ok (w', actions')

/--
**A queue of requests is served exactly if none of them has to be refused.**  In every
state of a worker and for every queue, with any methods, headers and bodies: all of it
is answered, one answer for each request, if and only if the engine accepts the offer
of every request that opens a session.
-/
theorem requests_served_iff (w : Worker Rtc) (arrivals : List (Worker.HttpArrival Rtc)) :
    w.ServesAll ext arrivals ↔
      ∀ arrival ∈ arrivals, Worker.acceptable ext w.udpSocketLocalAddr arrival = true := by
  constructor
  · rintro ⟨w', actions, hrun, -, -⟩
    exact (Worker.processHttp_ok_iff arrivals w).mp ⟨_, hrun⟩
  · intro hall
    obtain ⟨⟨w', actions⟩, hrun⟩ := (Worker.processHttp_ok_iff arrivals w).mpr hall
    refine ⟨w', actions, hrun, Worker.processHttp_answers hrun, actions, ?_⟩
    rw [List.filter_eq_self.mpr hall]
    exact hrun

/-- A body no offer can be read from ends the worker, and the requests behind it with it. -/
theorem bad_offer_fatal :
    let bad := Script.arrival 1 "/whep/endpoint" [] "abc" []
    let good := Script.arrival 2 "/whep/endpoint" [0x76] "def" []
    let w : Worker Script := Worker.new Script.addr
    w.processHttp Script.engine [bad, good] = .error .parseOffer ∧
      ¬ w.ServesAll Script.engine [bad, good] := by
  refine ⟨rfl, ?_⟩
  rintro ⟨w', actions, hrun, -, -⟩
  cases hrun

end MediaServer
