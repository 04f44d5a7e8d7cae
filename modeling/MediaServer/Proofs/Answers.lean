/-
What a request is answered with.

A worker answers a request for a session with what the engine answers to the offer in its
body, and any other request with a 404.  From the queue a request waits in to the channel
its answer waits in, nothing else happens to either: so what is known of every request
handed to a worker is, through `Answers`, known of every answer on its way back
(`Carries`).
-/
import MediaServer.Front
import MediaServer.Proofs.Responses

namespace MediaServer

open Lib

variable {Rtc : Type} {n : Nat} {ext : Extern Rtc}

/-! ### One request -/

/-- What a worker may answer a request with: the answer to its offer, or a 404. -/
def Answers (ext : Extern Rtc) (req : HttpRequest) (res : HttpResponse) : Prop :=
  if req.path = "/whip/endpoint" ∨ req.path = "/whep/endpoint" then
    ∃ rtc offer answer, ext.fromSdpString (fromUtf8Lossy req.body) = .ok offer ∧
      (ext.acceptOffer rtc offer).1 = .ok answer ∧
      res = TaskCore.answerResponse (req.path ++ "/1234") req answer
  else res = Worker.notFound req

theorem Answers.reqId {req : HttpRequest} {res : HttpResponse} (h : Answers ext req res) :
    res.reqId = req.reqId := by
  unfold Answers at h
  split at h
  · obtain ⟨rtc, offer, answer, -, -, rfl⟩ := h
    rfl
  · rw [h]
    rfl

/-- The one thing a new session owes is what the engine answered to the offer. -/
theorem TaskCore.new_answer {location ufrag : String} {rtc : Rtc} {req : HttpRequest}
    {localAddrs : List SocketAddr} {core : TaskCore Rtc}
    (h : TaskCore.new ext location ufrag rtc req localAddrs = .ok core) :
    ∃ rtc' offer answer, ext.fromSdpString (fromUtf8Lossy req.body) = .ok offer ∧
      (ext.acceptOffer rtc' offer).1 = .ok answer ∧
      core.outputs = [.io (.httpResponse (answerResponse location req answer))] := by
  unfold TaskCore.new at h
  split at h
  · cases h
  · rename_i rtc' _
    split at h
    · cases h
    · rename_i offer hoffer
      split at h
      · cases h
      · rename_i answer rtc'' haccept
        cases h
        exact ⟨rtc', offer, answer, hoffer, by rw [haccept], rfl⟩

namespace Worker

theorem addTask_response {now : Instant} {req : HttpRequest} {task : ComposeTask Rtc}
    {w w' : Worker Rtc} {actions : List Action}
    (h : w.addTask ext now req task = (w', actions)) :
    actions.filterMap Action.response = task.owedResponses := by
  obtain ⟨c, -, -, hgiven⟩ := popTask_responses ext now w.taskIdSeed (.ofTask task)
    { w with
      taskIdSeed := w.taskIdSeed + 1
      taskUfrags := w.taskUfrags.insert task.ufrag w.taskIdSeed }
  have hactions : (w.addTask ext now req task).2 = actions := congrArg Prod.snd h
  rw [← hactions]
  exact hgiven

/-- A request that gets through is answered with what its path and its body call for. -/
theorem handleRequest_response {arrival : HttpArrival Rtc} {req : HttpRequest}
    {w w' : Worker Rtc} {actions : List Action} (hreq : arrival.event = .httpRequest req)
    (h : w.handleRequest ext arrival = .ok (w', actions)) :
    ∃ res, actions.filterMap Action.response = [res] ∧ Answers ext req res := by
  have hopened : ∀ {location ufrag : String} {rtc : Rtc} {core : TaskCore Rtc}
      {task : ComposeTask Rtc}, location = req.path ++ "/1234" →
      (req.path = "/whip/endpoint" ∨ req.path = "/whep/endpoint") → task.core = core →
      TaskCore.new ext location ufrag rtc req [w.udpSocketLocalAddr] = .ok core →
      w.addTask ext arrival.now req task = (w', actions) →
      ∃ res, actions.filterMap Action.response = [res] ∧ Answers ext req res := by
    intro location ufrag rtc core task hlocation hpath hcore hnew hadd
    obtain ⟨rtc', offer, answer, hoffer, haccept, houtputs⟩ := TaskCore.new_answer hnew
    refine ⟨TaskCore.answerResponse location req answer, ?_, ?_⟩
    · rw [addTask_response hadd, ComposeTask.owedResponses, hcore, houtputs]
      rfl
    · rw [Answers, if_pos hpath]
      exact ⟨rtc', offer, answer, hoffer, haccept, hlocation ▸ rfl⟩
  unfold handleRequest at h
  rw [hreq] at h
  simp only at h
  split at h
  · rename_i hpath
    obtain ⟨task, hn, hadd⟩ := except_map_ok.mp h
    obtain ⟨core, hc, rfl⟩ := except_map_ok.mp hn
    exact hopened (by rw [hpath]; rfl) (.inl hpath) rfl hc hadd
  · rename_i hwhip
    split at h
    · rename_i hpath
      obtain ⟨task, hn, hadd⟩ := except_map_ok.mp h
      obtain ⟨core, hc, rfl⟩ := except_map_ok.mp hn
      exact hopened (by rw [hpath]; rfl) (.inr hpath) rfl hc hadd
    · rename_i hwhep
      cases h
      refine ⟨notFound req, rfl, ?_⟩
      rw [Answers, if_neg (not_or.mpr ⟨hwhip, hwhep⟩)]

/-- Whatever a turn answers, it answers the request it took. -/
theorem exec_answers {op : Op Rtc} {w w' : Worker Rtc} {actions : List Action} (hw : Settled w)
    (hrun : w.exec ext op = .ok (w', actions)) {a : Action} {res : HttpResponse}
    (ha : a ∈ actions) (hres : a.response = some res) :
    ∃ arrival req, op = .request arrival ∧ arrival.event = .httpRequest req ∧
      Answers ext req res := by
  have hmem : res ∈ actions.filterMap Action.response := List.mem_filterMap.mpr ⟨a, ha, hres⟩
  have hone := (hw.exec hrun).2
  cases op with
  | request arrival =>
      obtain ⟨req, hreq, -⟩ := handleRequest_ok hrun
      obtain ⟨res', hres', hanswers⟩ := handleRequest_response hreq hrun
      rw [hres', List.mem_singleton] at hmem
      exact ⟨arrival, req, rfl, hreq, hmem ▸ hanswers⟩
  | _ =>
      rw [List.map_eq_nil_iff.mp hone] at hmem
      cases hmem

end Worker

/-! ### All requests -/

namespace Server

variable {Q : Fin n → HttpRequest → Prop} {R : Fin n → HttpResponse → Prop} {s s' : Server n Rtc}

/-- Every request a worker has is one of its `Q`, and every answer from it one of its `R`. -/
structure Carries (Q : Fin n → HttpRequest → Prop) (R : Fin n → HttpResponse → Prop)
    (s : Server n Rtc) : Prop where
  queued : ∀ w, ∀ req ∈ (s.slots w).requests, Q w req
  answering : ∀ w, ∀ a ∈ (s.slots w).outgoing, ∀ res, a.response = some res → R w res
  answered : ∀ res ∈ s.responses, ∃ w, R w res

theorem carries_new (localAddrs : Fin n → SocketAddr) :
    Carries Q R (Server.new localAddrs : Server n Rtc) := by
  refine ⟨fun w => ?_, fun w => ?_, by simp [Server.new]⟩
  · simp [Server.new, WorkerSlot.new]
  · simp [Server.new, WorkerSlot.new]

theorem Carries.imp {Q' : Fin n → HttpRequest → Prop} {R' : Fin n → HttpResponse → Prop}
    (h : Carries Q R s) (hQ : ∀ w, ∀ req ∈ (s.slots w).requests, Q w req → Q' w req)
    (hR : ∀ w res, (∃ a ∈ (s.slots w).outgoing, a.response = some res) ∨ res ∈ s.responses →
      R w res → R' w res) : Carries Q' R' s := by
  refine ⟨fun w req hreq => hQ w req hreq (h.queued w req hreq), fun w a ha res hres => ?_,
    fun res hres => ?_⟩
  · exact hR w res (.inl ⟨a, ha, hres⟩) (h.answering w a ha res hres)
  · obtain ⟨w, hw⟩ := h.answered res hres
    exact ⟨w, hR w res (.inr hres) hw⟩

/-- A slot that is rewritten, with no request more and no answer more. -/
theorem Carries.setSlot (h : Carries Q R s) {w : Fin n} {slot : WorkerSlot Rtc}
    (hrequests : ∀ req ∈ slot.requests, Q w req)
    (houtgoing : ∀ a ∈ slot.outgoing, ∀ res, a.response = some res → R w res) :
    Carries Q R (s.setSlot w slot) :=
  ⟨forall_setSlot (P := fun v slot => ∀ req ∈ slot.requests, Q v req) hrequests h.queued,
    forall_setSlot (P := fun v slot => ∀ a ∈ slot.outgoing, ∀ res, a.response = some res → R v res)
      houtgoing h.answering, h.answered⟩

theorem Carries.turn {w : Fin n} {op : Op Rtc} (h : Carries Q R s)
    (hQR : ∀ w req res, Q w req → Answers ext req res → R w res)
    (hw : (s.slots w).worker.Settled) (hs : s.turn ext w op = some s') : Carries Q R s' := by
  obtain ⟨-, slot, htaken, hcase⟩ := turn_some hs
  have hrequests : ∀ req ∈ slot.requests, Q w req := by
    intro req hreq
    have htook := htaken.requests
    refine h.queued w req ?_
    cases op with
    | request arrival =>
        obtain ⟨taken, -, hcons⟩ := htook
        exact hcons ▸ List.mem_cons_of_mem _ hreq
    | _ => exact htook ▸ hreq
  rw [htaken.worker] at hcase
  rcases hcase with ⟨p, -, rfl⟩ | ⟨worker, actions, hrun, rfl⟩
  · refine h.setSlot (by simp [WorkerSlot.panic]) fun a ha => ?_
    exact h.answering w a (htaken.outgoing ▸ ha)
  · refine h.setSlot hrequests fun a ha res hres => ?_
    obtain ⟨arrival, req, rfl, hevent, hanswers⟩ :=
      Worker.exec_answers hw hrun (List.mem_of_mem_filter ha) hres
    obtain ⟨taken, htook, hcons⟩ := htaken.requests
    obtain rfl : taken = req := by simpa [hevent] using htook.symm
    exact hQR w taken res (h.queued w taken (hcons ▸ List.mem_cons_self)) hanswers

/-- A step of a worker turns what it has of requests into answers, and adds nothing else. -/
theorem Carries.step {l : MediaServer.Label n Rtc} (h : Carries Q R s)
    (hQR : ∀ w req res, Q w req → Answers ext req res → R w res)
    (hsettled : ∀ w, (s.slots w).worker.Settled) (hmain : l.isMain = false)
    (hs : s.step ext l = some s') : Carries Q R s' := by
  cases l with
  | arrive _ => cases hmain
  | insert => cases hmain
  | respond => cases hmain
  | spawn w =>
      obtain ⟨-, -, rfl⟩ := spawn_some hs
      exact h.setSlot (h.queued w) (h.answering w)
  | turn w op => exact h.turn hQR (hsettled w) hs
  | nextPhase w =>
      obtain ⟨-, phase, -, -, -, rfl⟩ := nextPhase_some hs
      exact h.setSlot (h.queued w) (h.answering w)
  | startPop w order now =>
      obtain ⟨-, -, rfl⟩ := startPop_some hs
      exact h.setSlot (h.queued w) (h.answering w)
  | reply w =>
      obtain ⟨a, res, rest, hout, ha, rfl⟩ := reply_response hs
      have hslot : Carries Q R (s.setSlot w { s.slots w with outgoing := rest }) :=
        h.setSlot (h.queued w) fun b hb => h.answering w b (hout ▸ List.mem_cons_of_mem _ hb)
      refine ⟨hslot.queued, hslot.answering, fun res' hres' => ?_⟩
      have hpushed : res' ∈ s.responses ∨ res' = res := by
        unfold pushed at hres'
        split at hres'
        · simpa using hres'
        · exact .inl hres'
      rcases hpushed with hold | rfl
      · exact h.answered res' hold
      · exact ⟨w, h.answering w a (hout ▸ List.mem_cons_self) res' ha⟩
  | lock w =>
      obtain ⟨-, -, -, rfl⟩ := callLock_some hs
      exact h.setSlot (h.queued w) (h.answering w)
  | acquire w =>
      obtain ⟨-, -, rfl⟩ := acquire_some hs
      have hslot : Carries Q R (s.setSlot w { s.slots w with queued := false }) :=
        h.setSlot (h.queued w) (h.answering w)
      exact ⟨hslot.queued, hslot.answering, hslot.answered⟩
  | broadcast w =>
      obtain ⟨taskId, ev, rest, hout, -, -, rfl⟩ := broadcast_some hs
      have hslot : Carries Q R (s.setSlot w { s.slots w with outgoing := rest }) :=
        h.setSlot (h.queued w) fun b hb => h.answering w b (hout ▸ List.mem_cons_of_mem _ hb)
      exact ⟨hslot.queued, hslot.answering, hslot.answered⟩

/-- A worker's step leaves the main loop and its table alone. -/
theorem step_worker {l : MediaServer.Label n Rtc} (hmain : l.isMain = false)
    (hs : s.step ext l = some s') :
    s'.reqs = s.reqs ∧ s'.main = s.main ∧ s'.reqId = s.reqId ∧ s'.count = s.count := by
  cases l with
  | arrive _ => cases hmain
  | insert => cases hmain
  | respond => cases hmain
  | spawn w =>
      obtain ⟨-, -, rfl⟩ := spawn_some hs
      exact ⟨rfl, rfl, rfl, rfl⟩
  | turn w op =>
      obtain ⟨-, slot, -, ⟨p, -, rfl⟩ | ⟨worker, actions, -, rfl⟩⟩ := turn_some hs
      · exact ⟨rfl, rfl, rfl, rfl⟩
      · exact ⟨rfl, rfl, rfl, rfl⟩
  | nextPhase w =>
      obtain ⟨-, phase, -, -, -, rfl⟩ := nextPhase_some hs
      exact ⟨rfl, rfl, rfl, rfl⟩
  | startPop w order now =>
      obtain ⟨-, -, rfl⟩ := startPop_some hs
      exact ⟨rfl, rfl, rfl, rfl⟩
  | reply w =>
      obtain ⟨res, rest, -, rfl⟩ := reply_some hs
      exact ⟨rfl, rfl, rfl, rfl⟩
  | lock w =>
      obtain ⟨-, -, -, rfl⟩ := callLock_some hs
      exact ⟨rfl, rfl, rfl, rfl⟩
  | acquire w =>
      obtain ⟨-, -, rfl⟩ := acquire_some hs
      exact ⟨rfl, rfl, rfl, rfl⟩
  | broadcast w =>
      obtain ⟨taskId, ev, rest, -, -, -, rfl⟩ := broadcast_some hs
      exact ⟨rfl, rfl, rfl, rfl⟩

theorem input_count (req : HttpRequest) (hn : 0 < n) : (s.input req).count = s.count + 1 := by
  unfold Server.input
  rw [dif_pos hn]

@[simp] theorem input_responses (req : HttpRequest) (s : Server n Rtc) :
    (s.input req).responses = s.responses := by
  unfold Server.input
  split
  · simp only
    split <;> rfl
  · rfl

/-- A request that is handed over is one of its worker's. -/
theorem Carries.input {req : HttpRequest} (h : Carries Q R s)
    (hreq : ∀ w : Fin n, w.val = s.count % n → Q w req) : Carries Q R (s.input req) := by
  refine ⟨fun w => ?_, fun w => ?_, (input_responses req s).symm ▸ h.answered⟩
  · rcases input_slots req s w with hsame | ⟨hw, -, -, hpushed⟩
    · rw [hsame]
      exact h.queued w
    · rw [hpushed]
      intro r hr
      rcases List.mem_append.mp hr with hold | hnew
      · exact h.queued w r hold
      · exact List.mem_singleton.mp hnew ▸ hreq w hw
  · rcases input_slots req s w with hsame | ⟨-, -, -, hpushed⟩
    · rw [hsame]
      exact h.answering w
    · rw [hpushed]
      exact h.answering w

end Server

end MediaServer
