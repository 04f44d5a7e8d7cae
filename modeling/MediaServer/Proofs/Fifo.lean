/-
First come, first served.

The controller deals requests to the workers in turn, so the worker of a request can be
read off its number.  From there to the main loop a request passes through one queue after
another, and none of them lets anything overtake: the worker's queue, its hands, and the
channel back, which it shares with the others.  What is lost on the way is left out, and
what is left is in its place; and where nothing is lost, nothing is missing.
-/
import MediaServer.Proofs.Answers

namespace MediaServer

open Lib

variable {Rtc : Type} {n : Nat} {ext : Extern Rtc}

namespace Server

variable {s s' : Server n Rtc} {w : Fin n} {l : Label n Rtc}

/-! ### Whose request a number is -/

/-- The numbers among these that are dealt to the worker `w`. -/
def dealt (w : Fin n) (ids : List Nat) : List Nat := ids.filter fun id => id % n = w.val

/-- The numbers a worker has are its own, and the next one is the controller's count. -/
structure Numbered (s : Server n Rtc) : Prop where
  matched : s.Matched
  count : 0 < n → s.main ≠ .panicked →
    s.count = s.reqId + if s.main = .handing then 1 else 0
  owned : s.Carries (fun w req => req.reqId % n = w.val) fun w res => res.reqId % n = w.val

theorem numbered_new (localAddrs : Fin n → SocketAddr) :
    (Server.new localAddrs : Server n Rtc).Numbered :=
  ⟨matched_new localAddrs, fun _ _ => rfl, carries_new localAddrs⟩

/-- The loop is at its next request, so all it has counted it has numbered. -/
theorem Numbered.count_ready (h : s.Numbered) (hn : 0 < n) (hready : s.main = .ready) :
    s.count = s.reqId := by
  simpa [hready] using h.count hn (by simp [hready])

theorem Numbered.step (h : s.Numbered) (hs : s.step ext l = some s') : s'.Numbered := by
  have hmatched : s'.Matched := h.matched.step hs
  have hworker : l.isMain = false → s'.Numbered := by
    intro hmain
    obtain ⟨-, hphase, hreqId, hcount⟩ := step_worker hmain hs
    refine ⟨hmatched, ?_, h.owned.step (fun w req res hreq hres => ?_) h.matched.settled hmain hs⟩
    · rw [hphase, hreqId, hcount]
      exact h.count
    · rw [hres.reqId]
      exact hreq
  cases l with
  | arrive req =>
      obtain ⟨hready, rfl⟩ := arrive_some hs
      refine ⟨hmatched, fun hn _ => ?_, h.owned.input fun v hv => ?_⟩
      · rw [input_count _ hn, input_reqId, h.count_ready hn hready,
          if_pos ((input_main _ s).resolve_right hn.ne')]
      · have hn : 0 < n := Nat.lt_of_le_of_lt (Nat.zero_le _) v.isLt
        rw [hv, h.count_ready hn hready]
  | insert =>
      obtain ⟨hhanding, rfl⟩ := insert_some hs
      refine ⟨hmatched, fun hn _ => ?_, h.owned.queued, h.owned.answering, h.owned.answered⟩
      have hbefore := h.count hn (by simp [hhanding])
      rw [if_pos hhanding] at hbefore
      simpa using hbefore
  | respond =>
      obtain ⟨res, rest, hready, hres, -, rfl⟩ := h.matched.respond_some hs
      exact ⟨hmatched, h.count, h.owned.queued, h.owned.answering,
        fun r hr => h.owned.answered r (hres ▸ List.mem_cons_of_mem _ hr)⟩
  | spawn _ => exact hworker rfl
  | turn _ _ => exact hworker rfl
  | nextPhase _ => exact hworker rfl
  | startPop _ _ _ => exact hworker rfl
  | reply _ => exact hworker rfl
  | lock _ => exact hworker rfl
  | acquire _ => exact hworker rfl
  | broadcast _ => exact hworker rfl

/-! ### The way of a request -/

/-- The number of the request a turn of `w` takes. -/
def takenView (w : Fin n) : Label n Rtc → Option Nat
  | .turn v (.request arrival) => if v = w then Worker.HttpArrival.reqId arrival else none
  | _ => none

/-- The numbers of the requests `w` has taken, in order. -/
def taken (w : Fin n) (labels : List (Label n Rtc)) : List Nat := labels.filterMap (takenView w)

/-- The number a step of the main loop answers. -/
def popped (s : Server n Rtc) : Label n Rtc → List Nat
  | .respond => (s.responses.head?.map (·.reqId)).toList
  | _ => []

/-- The numbers in the queue of `w`. -/
def waiting (w : Fin n) (s : Server n Rtc) : List Nat := (s.slots w).requests.map (·.reqId)

/-- The numbers of the answers of `w`: those in the channel, then those it has still to send. -/
def returning (w : Fin n) (s : Server n Rtc) : List Nat :=
  dealt w (s.responses.map (·.reqId))
    ++ ((s.slots w).outgoing.filterMap Action.response).map (·.reqId)

theorem answered_concat {labels : List (Label n Rtc)} :
    ∀ {s t u : Server n Rtc}, runLabels (step ext) s labels = some t → t.step ext l = some u →
      answered ext s (labels ++ [l]) = answered ext s labels ++ popped t l := by
  induction labels with
  | nil =>
      intro s t u hrun hs
      simp only [runLabels_nil, Option.some.injEq] at hrun
      subst hrun
      rw [List.nil_append]
      simp only [answered, hs]
      cases l with
      | respond =>
          cases hres : s.responses with
          | nil => simp [popAction, popped, hres]
          | cons res rest => simp [popAction, popped, hres]
      | _ => simp [popped]
  | cons a rest ih =>
      intro s t u hrun hs
      obtain ⟨v, hv, hrest⟩ := Option.bind_eq_some_iff.mp hrun
      have hmore := ih hrest hs
      rw [List.cons_append]
      simp only [answered, hv]
      split
      · rw [hmore, List.cons_append]
      · exact hmore

/-- Nothing is lost by a step: no turn panics, and no queue it puts something into is full. -/
def Keeps (ext : Extern Rtc) (s : Server n Rtc) (l : Label n Rtc) : Prop :=
  s.Live ext l ∧ s.Roomy l

/--
What a step does to one worker's part of the way: it may take a request from the head of
the queue, and put one at its end; and it may pop an answer at the end of the way.
-/
structure Passes (ext : Extern Rtc) (w : Fin n) (s : Server n Rtc) (l : Label n Rtc)
    (s' : Server n Rtc) (arrived : List Nat) : Prop where
  arrivals : dealt w (List.range s'.count) = dealt w (List.range s.count) ++ arrived
  requests : ((takenView w l).toList ++ waiting w s').Sublist (waiting w s ++ arrived)
  answers : (dealt w (popped s l) ++ returning w s').Sublist
    (returning w s ++ (takenView w l).toList)
  kept : s.Keeps ext l → s.Accounted →
    (takenView w l).toList ++ waiting w s' = waiting w s ++ arrived ∧
      dealt w (popped s l) ++ returning w s' = returning w s ++ (takenView w l).toList

/-- A step that leaves all of the way as it is. -/
theorem Passes.still (hcount : s'.count = s.count) (hwaiting : waiting w s' = waiting w s)
    (hreturning : returning w s' = returning w s) (htaken : takenView w l = none)
    (hpopped : popped s l = []) : Passes ext w s l s' [] := by
  refine ⟨?_, ?_, ?_, fun _ _ => ⟨?_, ?_⟩⟩
  · rw [hcount, List.append_nil]
  · rw [htaken, hwaiting, List.append_nil]
    exact List.Sublist.refl _
  · rw [htaken, hpopped, hreturning]
    exact List.append_nil _ ▸ List.Sublist.refl _
  · rw [htaken, hwaiting, List.append_nil]
    rfl
  · rw [htaken, hpopped, hreturning]
    exact (List.append_nil _).symm

/-- Rewriting a slot so that it holds what it held, in the places it held it in. -/
theorem Passes.setSlot {v : Fin n} {slot : WorkerSlot Rtc}
    (hslots : s'.slots = (s.setSlot v slot).slots)
    (hrequests : slot.requests = (s.slots v).requests)
    (houtgoing : slot.outgoing.filterMap Action.response
      = (s.slots v).outgoing.filterMap Action.response) (hresponses : s'.responses = s.responses)
    (hcount : s'.count = s.count) (htaken : takenView w l = none) (hpopped : popped s l = []) :
    Passes ext w s l s' [] := by
  have hslot : (s'.slots w).requests = (s.slots w).requests ∧
      (s'.slots w).outgoing.filterMap Action.response
        = (s.slots w).outgoing.filterMap Action.response := by
    rw [hslots, setSlot_slots]
    split
    · rename_i hw
      rw [hw]
      exact ⟨hrequests, houtgoing⟩
    · exact ⟨rfl, rfl⟩
  refine .still hcount ?_ ?_ htaken hpopped
  · rw [waiting, hslot.1]
    rfl
  · rw [returning, hresponses, hslot.2]
    rfl

/-! ### One step -/

theorem dealt_append (w : Fin n) (ids ids' : List Nat) :
    dealt w (ids ++ ids') = dealt w ids ++ dealt w ids' := List.filter_append ..

theorem dealt_self {id : Nat} (h : id % n = w.val) : dealt w [id] = [id] := by
  simp [dealt, h]

theorem dealt_other {v : Fin n} {id : Nat} (h : id % n = v.val) (hv : v ≠ w) :
    dealt w [id] = [] := by
  have hne : v.val ≠ w.val := fun heq => hv (Fin.ext heq)
  simp [dealt, h, hne]

/-- The next request is put at the end of its worker's queue, or is lost. -/
theorem Numbered.passes_arrive {req : HttpRequest} (h : s.Numbered)
    (hs : s.arrive req = some s') :
    Passes ext w s (.arrive req) s' (dealt w [s.count]) := by
  have hn : 0 < n := Nat.lt_of_le_of_lt (Nat.zero_le _) w.isLt
  obtain ⟨hready, rfl⟩ := arrive_some hs
  have hreqId : s.reqId = s.count := (h.count_ready hn hready).symm
  have hreturning : returning w (s.input { req with reqId := s.reqId }) = returning w s := by
    rw [returning, input_responses]
    rcases input_slots { req with reqId := s.reqId } s w with hsame | ⟨-, -, -, hpushed⟩
    · rw [hsame]
      rfl
    · rw [hpushed]
      rfl
  refine ⟨?_, ?_, ?_, fun hkeeps haccounted => ⟨?_, ?_⟩⟩
  · rw [input_count _ hn, List.range_succ, dealt_append]
  · rcases input_slots { req with reqId := s.reqId } s w with hsame | ⟨hw, -, -, hpushed⟩
    · rw [waiting, hsame]
      exact List.sublist_append_left _ _
    · rw [waiting, hpushed, dealt_self hw.symm]
      simp [takenView, waiting, hreqId]
  · rw [hreturning]
    exact List.append_nil _ ▸ List.Sublist.refl _
  · obtain ⟨v, hv, hroom⟩ := hkeeps.2
    rw [input_of_room hv (haccounted.alive v) hroom, waiting]
    show (List.map (·.reqId) ((s.setSlot v _).slots w).requests) = _
    rw [setSlot_slots]
    split
    · rename_i hw
      subst hw
      rw [dealt_self hv.symm]
      simp [waiting, hreqId]
    · rename_i hw
      rw [dealt_other hv.symm (Ne.symm hw), List.append_nil]
      rfl
  · rw [hreturning]
    exact (List.append_nil _).symm

/-- The answer that is popped is the first of the channel. -/
theorem Numbered.passes_respond (h : s.Numbered) (hs : s.respond = some s') :
    Passes ext w s .respond s' [] := by
  obtain ⟨res, rest, -, hres, -, rfl⟩ := h.matched.respond_some hs
  have hanswers : dealt w (popped s .respond)
      ++ returning w { s with responses := rest, reqs := s.reqs.erase res.reqId }
      = returning w s := by
    simp only [popped, returning, hres, List.head?_cons, Option.map_some, Option.toList_some,
      List.map_cons, ← List.append_assoc]
    rw [← dealt_append]
    rfl
  refine ⟨?_, ?_, ?_, fun _ _ => ⟨?_, ?_⟩⟩
  · exact (List.append_nil _).symm
  · exact List.append_nil _ ▸ List.Sublist.refl _
  · exact hanswers ▸ List.sublist_append_left _ _
  · exact (List.append_nil _).symm
  · rw [hanswers]
    exact (List.append_nil _).symm

theorem takenView_turn (v : Fin n) (op : Op Rtc) :
    takenView w (.turn v op) = if v = w then op.reqId else none := by
  cases op <;> simp [takenView, Op.reqId]

/-- A turn takes the first request of the queue and leaves its answer, or it takes none. -/
theorem Numbered.passes_own_turn {op : Op Rtc} (h : s.Numbered)
    (hs : s.turn ext w op = some s') : Passes ext w s (.turn w op) s' [] := by
  obtain ⟨hidle, slot, htaken, hcase⟩ := turn_some hs
  have hw := h.matched.settled w
  rw [htaken.worker] at hcase
  have hqueue : waiting w s = op.reqId.toList ++ slot.requests.map (·.reqId) := by
    have hrequests := htaken.requests
    rw [waiting]
    cases op with
    | request arrival =>
        obtain ⟨req, hevent, hcons⟩ := hrequests
        rw [hcons]
        simp [Op.reqId, Worker.HttpArrival.reqId, hevent]
    | _ =>
        rw [hrequests]
        rfl
  have hhands : returning w s = dealt w (s.responses.map (·.reqId)) := by
    rw [returning, hidle]
    exact List.append_nil _
  rcases hcase with ⟨p, hpanic, rfl⟩ | ⟨worker, actions, hrun, rfl⟩
  · -- The requests it had not come to are gone.
    have hwaiting : waiting w (s.setSlot w slot.panic) = [] := by
      simp [waiting, WorkerSlot.panic]
    have hreturning : returning w (s.setSlot w slot.panic) = returning w s := by
      rw [hhands, returning]
      simp [WorkerSlot.panic, htaken.outgoing, hidle]
    refine ⟨(List.append_nil _).symm, ?_, ?_, fun hkeeps _ => absurd hpanic (hkeeps.1 p)⟩
    · rw [takenView_turn, if_pos rfl, hwaiting, hqueue, List.append_nil, List.append_nil]
      exact List.sublist_append_left _ _
    · rw [hreturning]
      exact List.sublist_append_left _ _
  · have hwaiting : op.reqId.toList ++ waiting w (s.setSlot w
        { slot with worker, outgoing := actions.filter Action.isShared }) = waiting w s := by
      rw [hqueue, waiting, setSlot_slots, if_pos rfl]
    have hreturning : returning w (s.setSlot w
        { slot with worker, outgoing := actions.filter Action.isShared })
        = returning w s ++ op.reqId.toList := by
      rw [hhands, returning, setSlot_slots, if_pos rfl, setSlot_responses, shared_responses,
        (hw.exec hrun).2]
    refine ⟨(List.append_nil _).symm, ?_, ?_, fun _ _ => ⟨?_, ?_⟩⟩
    · rw [takenView_turn, if_pos rfl, hwaiting]
      exact List.sublist_append_left _ _
    · rw [takenView_turn, if_pos rfl, hreturning]
      exact List.Sublist.refl _
    · rw [takenView_turn, if_pos rfl, hwaiting, List.append_nil]
    · rw [takenView_turn, if_pos rfl, hreturning]
      rfl

theorem Numbered.passes_turn {v : Fin n} {op : Op Rtc} (h : s.Numbered)
    (hs : s.turn ext v op = some s') : Passes ext w s (.turn v op) s' [] := by
  by_cases hv : v = w
  · subst hv
    exact h.passes_own_turn hs
  · have hother : ∀ slot' : WorkerSlot Rtc, Passes ext w s (.turn v op) (s.setSlot v slot') [] := by
      intro slot'
      have hslot : (s.setSlot v slot').slots w = s.slots w := by
        rw [setSlot_slots, if_neg (Ne.symm hv)]
      refine .still rfl ?_ ?_ ?_ rfl
      · rw [waiting, hslot]
        rfl
      · rw [returning, hslot]
        rfl
      · rw [takenView_turn, if_neg hv]
    obtain ⟨-, slot, -, ⟨p, -, rfl⟩ | ⟨worker, actions, -, rfl⟩⟩ := turn_some hs
    · exact hother _
    · exact hother _

/-- An answer that is sent stays where it was on the way, or is lost if the channel is full. -/
theorem returning_reply {v : Fin n} {a : Action} {rest : List Action} {res : HttpResponse}
    (hout : (s.slots v).outgoing = a :: rest) (ha : a.response = some res)
    (hid : res.reqId % n = v.val) :
    returning w { s.setSlot v { s.slots v with outgoing := rest } with
      responses := pushed s.responses res } = returning w s ∨
      ¬ s.responses.length < channelCapacity ∧
        (returning w { s.setSlot v { s.slots v with outgoing := rest } with
          responses := pushed s.responses res }).Sublist (returning w s) := by
  by_cases hw : w = v
  · subst hw
    have hhands : returning w s = dealt w (s.responses.map (·.reqId)) ++ res.reqId ::
        (rest.filterMap Action.response).map (·.reqId) := by
      rw [returning, hout, List.filterMap_cons, ha]
      rfl
    have hafter : returning w { s.setSlot w { s.slots w with outgoing := rest } with
        responses := pushed s.responses res } = dealt w ((pushed s.responses res).map (·.reqId))
          ++ (rest.filterMap Action.response).map (·.reqId) := by
      rw [returning]
      show _ ++ List.map _ (List.filterMap _ ((s.setSlot w _).slots w).outgoing) = _
      rw [setSlot_slots, if_pos rfl]
    rw [hafter, hhands]
    by_cases hroom : s.responses.length < channelCapacity
    · refine .inl ?_
      rw [pushed, if_pos hroom, List.map_append, dealt_append, List.map_singleton,
        dealt_self hid, List.append_assoc]
      rfl
    · refine .inr ⟨hroom, ?_⟩
      rw [pushed, if_neg hroom]
      exact List.Sublist.append (List.Sublist.refl _) (List.sublist_cons_self _ _)
  · refine .inl ?_
    rw [returning, returning]
    show dealt w ((pushed s.responses res).map (·.reqId)) ++
      List.map _ (List.filterMap _ ((s.setSlot v _).slots w).outgoing) = _
    rw [setSlot_slots, if_neg hw]
    unfold pushed
    split
    · rw [List.map_append, dealt_append, List.map_singleton, dealt_other hid (Ne.symm hw),
        List.append_nil]
    · rfl

/-- An answer goes from the worker's hands to the end of the channel, or is lost. -/
theorem Numbered.passes_reply {v : Fin n} (h : s.Numbered) (hs : s.reply v = some s') :
    Passes ext w s (.reply v) s' [] := by
  obtain ⟨a, res, rest, hout, ha, rfl⟩ := reply_response hs
  have hid : res.reqId % n = v.val := h.owned.answering v a (hout ▸ List.mem_cons_self) res ha
  have hwaiting : waiting w { s.setSlot v { s.slots v with outgoing := rest } with
      responses := pushed s.responses res } = waiting w s := by
    rw [waiting]
    show List.map _ ((s.setSlot v _).slots w).requests = _
    rw [setSlot_slots]
    split
    · rename_i hw
      rw [← hw]
      rfl
    · rfl
  have hreturning := returning_reply (w := w) hout ha hid
  refine ⟨(List.append_nil _).symm, ?_, ?_, fun hkeeps _ => ⟨?_, ?_⟩⟩
  · rw [hwaiting]
    exact List.sublist_append_left _ _
  · rcases hreturning with heq | ⟨-, hsub⟩
    · rw [heq]
      exact List.sublist_append_left _ _
    · exact hsub.trans (List.sublist_append_left _ _)
  · rw [hwaiting]
    exact (List.append_nil _).symm
  · rcases hreturning with heq | ⟨hfull, -⟩
    · rw [heq]
      exact (List.append_nil _).symm
    · exact absurd hkeeps.2 hfull

/-- Every step passes requests on, in their order. -/
theorem Numbered.passes (h : s.Numbered) (hs : s.step ext l = some s') :
    ∃ arrived, Passes ext w s l s' arrived := by
  cases l with
  | arrive req => exact ⟨_, h.passes_arrive hs⟩
  | insert =>
      obtain ⟨-, rfl⟩ := insert_some hs
      exact ⟨[], .still rfl rfl rfl rfl rfl⟩
  | respond => exact ⟨[], h.passes_respond hs⟩
  | spawn v =>
      obtain ⟨-, -, rfl⟩ := spawn_some hs
      exact ⟨[], .setSlot rfl rfl rfl rfl rfl rfl rfl⟩
  | turn v op => exact ⟨[], h.passes_turn hs⟩
  | nextPhase v =>
      obtain ⟨-, phase, -, -, -, rfl⟩ := nextPhase_some hs
      exact ⟨[], .setSlot rfl rfl rfl rfl rfl rfl rfl⟩
  | startPop v order now =>
      obtain ⟨-, -, rfl⟩ := startPop_some hs
      exact ⟨[], .setSlot rfl rfl rfl rfl rfl rfl rfl⟩
  | reply v => exact ⟨[], h.passes_reply hs⟩
  | lock v =>
      obtain ⟨-, -, -, rfl⟩ := callLock_some hs
      exact ⟨[], .setSlot rfl rfl rfl rfl rfl rfl rfl⟩
  | acquire v =>
      obtain ⟨-, -, rfl⟩ := acquire_some hs
      exact ⟨[], .setSlot rfl rfl rfl rfl rfl rfl rfl⟩
  | broadcast v =>
      obtain ⟨taskId, ev, rest, hout, -, -, rfl⟩ := broadcast_some hs
      have houtgoing : rest.filterMap Action.response
          = (s.slots v).outgoing.filterMap Action.response := by
        rw [hout, List.filterMap_cons_none rfl]
      exact ⟨[], .setSlot rfl rfl houtgoing rfl rfl rfl rfl⟩

/-! ### Runs -/

variable {localAddrs : Fin n → SocketAddr} {labels : List (Label n Rtc)}

theorem taken_concat (labels : List (Label n Rtc)) (l : Label n Rtc) :
    taken w (labels ++ [l]) = taken w labels ++ (takenView w l).toList := by
  rw [taken, taken, List.filterMap_append, List.filterMap_cons]
  cases takenView w l <;> rfl

/--
**Requests are served first come, first served.**  Any number of workers, any requests, any
interleaving, workers that panic and queues that are full included.  The worker of a request
is the one its number is dealt to.  What a worker has taken, then what still waits in its
queue, is a part of what was dealt to it, in the order of the numbers; and what the main
loop has answered for it, then what is on its way back, is a part of what it has taken, in
that order.  As long as nothing is lost both are the whole.
-/
theorem requests_served_in_order
    (hrun : runLabels (step ext) (Server.new localAddrs) labels = some s) (w : Fin n) :
    (taken w labels ++ waiting w s).Sublist (dealt w (List.range s.count)) ∧
      (dealt w (answered ext (Server.new localAddrs) labels) ++ returning w s).Sublist
        (taken w labels) ∧
      (Meets (step ext) (Keeps ext) (Server.new localAddrs) labels →
        taken w labels ++ waiting w s = dealt w (List.range s.count) ∧
        dealt w (answered ext (Server.new localAddrs) labels) ++ returning w s
          = taken w labels) := by
  have hnumbered : ∀ {labels : List (Label n Rtc)} {s : Server n Rtc},
      runLabels (step ext) (Server.new localAddrs) labels = some s → s.Numbered := fun hrun =>
    runLabels_preserves (fun _ _ _ h hs => h.step hs) hrun (numbered_new localAddrs)
  have hsublists : (taken w labels ++ waiting w s).Sublist (dealt w (List.range s.count)) ∧
      (dealt w (answered ext (Server.new localAddrs) labels) ++ returning w s).Sublist
        (taken w labels) := by
    refine runLabels_induct (P := fun labels s =>
      (taken w labels ++ waiting w s).Sublist (dealt w (List.range s.count)) ∧
        (dealt w (answered ext (Server.new localAddrs) labels) ++ returning w s).Sublist
          (taken w labels)) ⟨List.Sublist.refl _, List.Sublist.refl _⟩ ?_ hrun
    rintro labels s l s' hrun ⟨hrequests, hanswers⟩ hs
    obtain ⟨arrived, hpasses⟩ := (hnumbered hrun).passes (w := w) hs
    rw [taken_concat, answered_concat hrun hs, dealt_append, List.append_assoc, List.append_assoc,
      hpasses.arrivals]
    constructor
    · refine (hpasses.requests.append_left _).trans ?_
      rw [← List.append_assoc]
      exact hrequests.append_right _
    · refine (hpasses.answers.append_left _).trans ?_
      rw [← List.append_assoc]
      exact hanswers.append_right _
  refine ⟨hsublists.1, hsublists.2, fun hkeeps => ?_⟩
  have hall : s.Accounted ∧ taken w labels ++ waiting w s = dealt w (List.range s.count) ∧
      dealt w (answered ext (Server.new localAddrs) labels) ++ returning w s
        = taken w labels := by
    refine runLabels_invariant (P := fun labels s => s.Accounted ∧
      taken w labels ++ waiting w s = dealt w (List.range s.count) ∧
        dealt w (answered ext (Server.new localAddrs) labels) ++ returning w s = taken w labels)
      ⟨accounted_new localAddrs, rfl, rfl⟩ ?_ labels s hkeeps hrun
    rintro labels s l s' hrun ⟨haccounted, hrequests, hanswers⟩ hok hs
    obtain ⟨arrived, hpasses⟩ := (hnumbered hrun).passes (w := w) hs
    obtain ⟨htaken, hreturned⟩ := hpasses.kept hok haccounted
    refine ⟨haccounted.step hok.1 hok.2 hs, ?_, ?_⟩
    · rw [taken_concat, List.append_assoc, htaken, ← List.append_assoc, hrequests, hpasses.arrivals]
    · rw [taken_concat, answered_concat hrun hs, dealt_append, List.append_assoc, hreturned,
        ← List.append_assoc, hanswers]
  exact hall.2

instance (s : Server n Rtc) (l : Label n Rtc) : Decidable (s.Keeps ext l) :=
  inferInstanceAs (Decidable (_ ∧ _))

end Server

/-- At the end of the exchange the answer to the one request is on its way back. -/
theorem Server.requests_served_in_order_exchange :
    ∃ s : Server 1 Script, runLabels (Server.step Script.engine) (Server.new fun _ => Script.addr)
      (Script.exchange 0) = some s ∧ returning 0 s = [0] ∧
      dealt (0 : Fin 1) (answered Script.engine (Server.new fun _ => Script.addr)
        (Script.exchange (0 : Fin 1))) ++ returning 0 s
        = taken (0 : Fin 1) (Script.exchange (0 : Fin 1)) := by
  have hend : (runLabels (Server.step Script.engine) (Server.new fun _ => Script.addr)
      (Script.exchange (0 : Fin 1))).any (fun s : Server 1 Script => returning 0 s = [0]) = true := by
    decide +kernel
  obtain ⟨s, hs, hreturning⟩ := Option.any_eq_true _ _ |>.mp hend
  have hkeeps : checks (Server.step Script.engine) (fun s l => s.Keeps Script.engine l)
      (Server.new fun _ => Script.addr) (Script.exchange (0 : Fin 1)) = true := by decide +kernel
  have hall := (requests_served_in_order hs 0).2.2 (by simpa using meets_of_checks hkeeps)
  exact ⟨s, hs, of_decide_eq_true hreturning, hall.2⟩

end MediaServer
