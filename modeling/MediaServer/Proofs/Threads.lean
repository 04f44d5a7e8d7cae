/-
A worker's thread runs `process_cycle`, over and over.

In the server a thread takes its turns one at a time, and between two of them other
threads move, requests come in and the bus fills.  What it has done all the same is whole
cycles, one after another, and the beginning of one more: `process_cycle` on what each
cycle took from outside.  And each cycle is fair: both of its walks over the map meet
every session there is, once.

`Stage` says which turns a thread in a given phase has taken of its cycle.  Where the
walks are still to come, or a turn has panicked before them, some order for them exists,
so that what has begun is always the beginning of a fair cycle.
-/
import MediaServer.Proofs.Lives
import MediaServer.Proofs.Orders

namespace MediaServer

open Lib

variable {Rtc : Type} {n : Nat} {ext : Extern Rtc}

namespace Worker

/-! ### The turns of a cycle, up to each of its phases -/

namespace Cycle

variable (c : Cycle Rtc)

/-- What it takes from the bus and the queue. -/
def taking : List (Op Rtc) :=
  c.busEvents.map (fun e => .busEvent e.1 e.2) ++ c.requests.map .request

def ticking : List (Op Rtc) := c.taking ++ [.tick c.tickOrder c.tickAt]

def popping : List (Op Rtc) := c.ticking ++ c.popOrder.map fun taskId => .pop taskId c.popAt

def receiving : List (Op Rtc) := c.popping ++ [.popEnded] ++ c.datagrams.map .datagram

theorem popping_append (more : List Nat) :
    ({ c with popOrder := c.popOrder ++ more } : Cycle Rtc).popping
      = c.popping ++ more.map fun taskId => .pop taskId c.popAt := by
  simp only [popping, ticking, taking, List.map_append, List.append_assoc]

theorem phases_flatten : c.phases.flatten = c.receiving := by
  simp [phases, receiving, popping, ticking, taking]

/-- Its first walk meets every session there is by then, once. -/
def Ticks (ext : Extern Rtc) (u : Worker Rtc) : Prop :=
  ∀ w actions, forEach (exec ext) c.taking u = .ok (w, actions) → Enumerates c.tickOrder w

/-- And so does its second, if these sessions are still to come. -/
def Pops (ext : Extern Rtc) (u : Worker Rtc) (todo : List Nat) : Prop :=
  ∀ w actions, forEach (exec ext) c.ticking u = .ok (w, actions) →
    Enumerates (c.popOrder ++ todo) w

/-- A cycle that leaves no session out. -/
structure Sweeps (ext : Extern Rtc) (u : Worker Rtc) : Prop where
  ticks : c.Ticks ext u
  pops : c.Pops ext u []

end Cycle

/-- There is an order that meets every session once. -/
theorem exists_enumerates (w : Worker Rtc) : ∃ order, Enumerates order w := by
  refine ⟨w.tasks.keys.toList, Finset.nodup_toList _, fun t => ?_⟩
  rw [Finset.mem_toList, Finmap.mem_keys, ← Finmap.lookup_isSome, Option.isSome_iff_ne_none]

theorem enumerates_of_keys {order : List Nat} {w : Worker Rtc} (hnodup : order.Nodup)
    (hkeys : order.toFinset = w.tasks.keys) : Enumerates order w := by
  refine ⟨hnodup, fun t => ?_⟩
  rw [← List.mem_toFinset, hkeys, Finmap.mem_keys, ← Finmap.lookup_isSome,
    Option.isSome_iff_ne_none]

/-- Whatever was done until now, there is an order for the walk that is next. -/
theorem exists_order (ext : Extern Rtc) (ops : List (Op Rtc)) (u : Worker Rtc) :
    ∃ order, ∀ w actions, forEach (exec ext) ops u = .ok (w, actions) → Enumerates order w := by
  cases hrun : forEach (exec ext) ops u with
  | error p => exact ⟨[], fun w actions h => by cases h⟩
  | ok r =>
      obtain ⟨order, horder⟩ := exists_enumerates r.1
      refine ⟨order, fun w actions h => ?_⟩
      cases h
      exact horder

/-! ### Where a thread is in its cycle -/

/-- The turns a thread in this phase has taken of the cycle it began as `u`. -/
inductive Stage (ext : Extern Rtc) (u : Worker Rtc) : Phase → Cycle Rtc → List (Op Rtc) → Prop
  | starting {c : Cycle Rtc} : Stage ext u .starting c []
  | busRecv {c : Cycle Rtc} (hrequests : c.requests = []) : Stage ext u .busRecv c c.taking
  | http {c : Cycle Rtc} : Stage ext u .http c c.taking
  | tick {c : Cycle Rtc} : Stage ext u .tick c c.taking
  | ticked {c : Cycle Rtc} (hticks : c.Ticks ext u) : Stage ext u .ticked c c.ticking
  | popTasks {c : Cycle Rtc} {todo : List Nat} (hticks : c.Ticks ext u)
      (hpops : c.Pops ext u todo) : Stage ext u (.popTasks todo c.popAt) c c.popping
  | popEnded {c : Cycle Rtc} (hsweeps : c.Sweeps ext u) : Stage ext u .popEnded c c.popping
  | udp {c : Cycle Rtc} (hsweeps : c.Sweeps ext u) : Stage ext u .udp c c.receiving

namespace Stage

variable {u : Worker Rtc} {c : Cycle Rtc} {ops : List (Op Rtc)}

/-- A thread begins a cycle with nothing taken. -/
theorem fresh (ext : Extern Rtc) (u : Worker Rtc) : ∃ c, Stage ext u .busRecv c [] := by
  let c : Cycle Rtc :=
    { busEvents := [], requests := [], tickOrder := [], tickAt := 0, popOrder := [], popAt := 0,
      datagrams := [] }
  have hfirst : Stage ext u .busRecv c c.taking := .busRecv rfl
  exact ⟨c, hfirst⟩

/-- The turns before the first walk are those of some fair cycle. -/
theorem taking_begins (ext : Extern Rtc) (u : Worker Rtc) (c : Cycle Rtc) :
    ∃ c' : Cycle Rtc, c'.Sweeps ext u ∧ c.taking <+: c'.receiving := by
  obtain ⟨tickOrder, hticks⟩ := exists_order ext c.taking u
  obtain ⟨popOrder, hpops⟩ := exists_order ext ({ c with tickOrder } : Cycle Rtc).ticking u
  refine ⟨{ c with tickOrder, popOrder }, ⟨hticks, fun w actions h => ?_⟩, ?_⟩
  · rw [List.append_nil]
    exact hpops w actions h
  · rw [Cycle.receiving, Cycle.popping, Cycle.ticking, List.append_assoc, List.append_assoc,
      List.append_assoc]
    exact List.prefix_append _ _

/-- What a thread has done of its cycle is the beginning of a fair one. -/
theorem begins {phase : Phase} (h : Stage ext u phase c ops) :
    ∃ c' : Cycle Rtc, c'.Sweeps ext u ∧ ops <+: c'.receiving := by
  cases h with
  | starting =>
      obtain ⟨c', hsweeps, -⟩ := taking_begins ext u c
      exact ⟨c', hsweeps, c'.receiving, rfl⟩
  | busRecv hrequests => exact taking_begins ext u c
  | http => exact taking_begins ext u c
  | tick => exact taking_begins ext u c
  | ticked hticks =>
      obtain ⟨popOrder, hpops⟩ := exists_order ext c.ticking u
      refine ⟨{ c with popOrder }, ⟨hticks, fun w actions h => ?_⟩, ?_⟩
      · rw [List.append_nil]
        exact hpops w actions h
      · rw [Cycle.receiving, Cycle.popping, List.append_assoc, List.append_assoc]
        exact List.prefix_append _ _
  | @popTasks c todo hticks hpops =>
      refine ⟨{ c with popOrder := c.popOrder ++ todo }, ⟨hticks, fun w actions h => ?_⟩, ?_⟩
      · rw [List.append_nil]
        exact hpops w actions h
      · rw [Cycle.receiving, c.popping_append, List.append_assoc, List.append_assoc]
        exact List.prefix_append _ _
  | popEnded hsweeps =>
      refine ⟨c, hsweeps, ?_⟩
      rw [Cycle.receiving, List.append_assoc]
      exact List.prefix_append _ _
  | udp hsweeps => exact ⟨c, hsweeps, List.prefix_refl _⟩

/-- A turn that is taken is the next of the cycle. -/
theorem take {slot slot' : WorkerSlot Rtc} {bus : List BusEvent} {op : Op Rtc}
    {actions : List Action} (h : Stage ext u slot.phase c ops)
    (hrun : forEach (exec ext) ops u = .ok (slot.worker, actions))
    (htake : slot.take bus op = some slot') : ∃ c', Stage ext u slot'.phase c' (ops ++ [op]) := by
  unfold WorkerSlot.take at htake
  split at htake
  · rename_i ev now hphase
    rw [hphase] at h
    cases h with
    | busRecv hrequests =>
        have hnext : Stage ext u .busRecv { c with busEvents := c.busEvents ++ [(ev, now)] } _ :=
          .busRecv hrequests
        have hops : ({ c with busEvents := c.busEvents ++ [(ev, now)] } : Cycle Rtc).taking
            = c.taking ++ [.busEvent ev now] := by
          simp [Cycle.taking, hrequests]
        rw [hops] at hnext
        split at htake
        · split at htake
          · cases htake
            exact ⟨_, hphase ▸ hnext⟩
          · cases htake
        · cases htake
  · rename_i arrival hphase
    rw [hphase] at h
    cases h
    have hnext : Stage ext u .http { c with requests := c.requests ++ [arrival] } _ := .http
    have hops : ({ c with requests := c.requests ++ [arrival] } : Cycle Rtc).taking
        = c.taking ++ [.request arrival] := by
      simp [Cycle.taking]
    rw [hops] at hnext
    split at htake
    · split at htake
      · cases htake
        exact ⟨_, hphase ▸ hnext⟩
      · cases htake
    · cases htake
  · rename_i order now hphase
    rw [hphase] at h
    cases h
    split at htake
    · rename_i hkeys
      cases htake
      refine ⟨{ c with tickOrder := order, tickAt := now }, .ticked fun w bs hw => ?_⟩
      cases hw.symm.trans hrun
      exact enumerates_of_keys hkeys.1 hkeys.2
    · cases htake
  · rename_i taskId todo now taskId' now' hphase
    rw [hphase] at h
    split at htake
    · rename_i hsame
      obtain ⟨rfl, rfl⟩ := hsame
      cases htake
      cases h with
      | popTasks hticks hpops =>
          let c' : Cycle Rtc := { c with popOrder := c.popOrder ++ [taskId'] }
          have hpops' : c'.Pops ext u todo := by
            intro w bs hw
            have hall := hpops w bs hw
            rwa [← List.singleton_append, ← List.append_assoc] at hall
          have hnext : Stage ext u (.popTasks todo c'.popAt) c' c'.popping :=
            .popTasks hticks hpops'
          rw [c.popping_append] at hnext
          exact ⟨_, hnext⟩
    · cases htake
  · rename_i hphase
    rw [hphase] at h
    cases htake
    cases h with
    | popEnded hsweeps =>
        have hnext : Stage ext u .udp { c with datagrams := [] } _ := .udp ⟨hsweeps.1, hsweeps.2⟩
        have hops : ({ c with datagrams := [] } : Cycle Rtc).receiving
            = c.popping ++ [.popEnded] := List.append_nil _
        rw [hops] at hnext
        exact ⟨_, hnext⟩
  · rename_i d hphase
    rw [hphase] at h
    cases htake
    cases h with
    | udp hsweeps =>
        have hnext : Stage ext u .udp { c with datagrams := c.datagrams ++ [d] } _ :=
          .udp ⟨hsweeps.1, hsweeps.2⟩
        have hops : ({ c with datagrams := c.datagrams ++ [d] } : Cycle Rtc).receiving
            = c.receiving ++ [.datagram d] := by
          rw [Cycle.receiving, List.map_append, ← List.append_assoc]
          rfl
        rw [hops] at hnext
        exact ⟨_, hphase ▸ hnext⟩
  · cases htake

/-- A phase that is over is followed by the next of the cycle, or the cycle is over. -/
theorem next {slot : WorkerSlot Rtc} {bus : List BusEvent} {phase : Phase}
    (h : Stage ext u slot.phase c ops) (hnext : slot.nextPhase bus = some phase) :
    (∃ c', Stage ext u phase c' ops) ∨
      phase = .busRecv ∧ c.Sweeps ext u ∧ ops = c.phases.flatten := by
  unfold WorkerSlot.nextPhase at hnext
  split at hnext
  · rename_i hphase
    rw [hphase] at h
    split at hnext
    · cases hnext
      cases h
      exact .inl ⟨c, .http⟩
    · cases hnext
  · rename_i hphase
    rw [hphase] at h
    split at hnext
    · cases hnext
      cases h
      exact .inl ⟨c, .tick⟩
    · cases hnext
  · rename_i now hphase
    rw [hphase] at h
    cases hnext
    cases h with
    | popTasks hticks hpops => exact .inl ⟨c, .popEnded ⟨hticks, hpops⟩⟩
  · rename_i hphase
    rw [hphase] at h
    cases hnext
    cases h with
    | udp hsweeps => exact .inr ⟨rfl, hsweeps, c.phases_flatten.symm⟩
  · cases hnext

/-- The second walk begins with every session still to come. -/
theorem startPop {slot : WorkerSlot Rtc} {actions : List Action} {order : List Nat}
    (h : Stage ext u .ticked c ops)
    (hrun : forEach (exec ext) ops u = .ok (slot.worker, actions)) (hnodup : order.Nodup)
    (hkeys : order.toFinset = slot.worker.tasks.keys) (now : Instant) :
    ∃ c', Stage ext u (.popTasks order now) c' ops := by
  cases h with
  | ticked hticks =>
      let c' : Cycle Rtc := { c with popOrder := [], popAt := now }
      have hpops : c'.Pops ext u order := by
        intro w bs hw
        cases hw.symm.trans hrun
        exact enumerates_of_keys hnodup hkeys
      have hnext : Stage ext u (.popTasks order c'.popAt) c' c'.popping := .popTasks hticks hpops
      have hops : c'.popping = c.ticking := List.append_nil _
      rw [hops] at hnext
      exact ⟨_, hnext⟩

end Stage

/-! ### Whole cycles, and the beginning of one -/

/-- Fair cycles, one after another. -/
inductive Cycled (ext : Extern Rtc) (w : Worker Rtc) :
    List (Cycle Rtc) → List Action → Worker Rtc → Prop
  | nil : Cycled ext w [] [] w
  | snoc {cycles : List (Cycle Rtc)} {done bs : List Action} {u v : Worker Rtc} {c : Cycle Rtc}
      (h : Cycled ext w cycles done u) (hsweeps : c.Sweeps ext u)
      (hrun : processCycle ext c u = .ok (v, bs)) :
      Cycled ext w (cycles ++ [c]) (done ++ bs) v

end Worker

/--
What a thread has done: whole cycles, and the turns of one more that its phase says; or,
if it has panicked, the turns of one more that ends so.
-/
def WorkerSlot.Threaded (ext : Extern Rtc) (addr : SocketAddr) (actions : List Action)
    (slot : WorkerSlot Rtc) : Prop :=
  ∃ cycles done u ops bs, Worker.Cycled ext (Worker.new addr) cycles done u ∧
    actions = done ++ bs ∧ forEach (Worker.exec ext) ops u = .ok (slot.worker, bs) ∧
    ((∃ c, Worker.Stage ext u slot.phase c ops) ∨
      slot.phase = .panicked ∧ ∃ c : Worker.Cycle Rtc, c.Sweeps ext u ∧
        ops <+: c.phases.flatten ∧ ∃ p, Worker.processCycle ext c u = .error p)

theorem WorkerSlot.threaded_new (ext : Extern Rtc) (addr : SocketAddr) :
    (WorkerSlot.new addr : WorkerSlot Rtc).Threaded ext addr [] := by
  obtain ⟨c, -⟩ := Worker.Stage.fresh ext (Worker.new addr : Worker Rtc)
  exact ⟨[], [], Worker.new addr, [], [], .nil, rfl, rfl, .inl ⟨c, .starting⟩⟩

namespace WorkerSlot.Threaded

variable {addr : SocketAddr} {actions : List Action} {slot slot' : WorkerSlot Rtc}

/-- Only the worker and the phase matter. -/
theorem same (h : slot.Threaded ext addr actions) (hworker : slot'.worker = slot.worker)
    (hphase : slot'.phase = slot.phase) : slot'.Threaded ext addr actions := by
  rw [Threaded, hworker, hphase]
  exact h

/-- A thread that has started is at the beginning of its first cycle. -/
theorem spawn (h : slot.Threaded ext addr actions) (hphase : slot.phase = .starting)
    (hworker : slot'.worker = slot.worker) (hphase' : slot'.phase = .busRecv) :
    slot'.Threaded ext addr actions := by
  obtain ⟨cycles, done, u, ops, bs, hcycles, hactions, hrun, ⟨c, hstage⟩ | ⟨hpanicked, -⟩⟩ := h
  · rw [hphase] at hstage
    cases hstage
    refine ⟨cycles, done, u, [], bs, hcycles, hactions, hworker ▸ hrun, .inl ?_⟩
    rw [hphase']
    exact Worker.Stage.fresh ext u
  · rw [hphase] at hpanicked
    cases hpanicked

/-- A turn that comes to its end is one more of the cycle. -/
theorem turn {bus : List BusEvent} {op : Op Rtc} {worker : Worker Rtc} {bs : List Action}
    (h : slot.Threaded ext addr actions) (htake : slot.take bus op = some slot')
    (hexec : slot.worker.exec ext op = .ok (worker, bs)) (outgoing : List Action) :
    ({ slot' with worker, outgoing } : WorkerSlot Rtc).Threaded ext addr (actions ++ bs) := by
  obtain ⟨cycles, done, u, ops, as, hcycles, rfl, hrun, ⟨c, hstage⟩ | ⟨hpanicked, -⟩⟩ := h
  · have hnext := hstage.take hrun htake
    refine ⟨cycles, done, u, ops ++ [op], as ++ bs, hcycles, List.append_assoc _ _ _, ?_,
      .inl hnext⟩
    rw [forEach_append, hrun]
    simp only [forEach_singleton, hexec, Except.map]
  · exact absurd hpanicked (take_some htake).running.1

/-- A turn that panics ends the cycle. -/
theorem panic {bus : List BusEvent} {op : Op Rtc} {p : Panic}
    (h : slot.Threaded ext addr actions) (htake : slot.take bus op = some slot')
    (hexec : slot.worker.exec ext op = .error p) : slot'.panic.Threaded ext addr actions := by
  obtain ⟨cycles, done, u, ops, as, hcycles, rfl, hrun, ⟨c, hstage⟩ | ⟨hpanicked, -⟩⟩ := h
  · obtain ⟨c', hnext⟩ := hstage.take hrun htake
    obtain ⟨whole, hsweeps, rest, hrest⟩ := hnext.begins
    refine ⟨cycles, done, u, ops, as, hcycles, rfl, ?_, .inr ⟨rfl, whole, hsweeps, ?_, p, ?_⟩⟩
    · rw [hrun, WorkerSlot.panic, (take_some htake).worker]
    · rw [whole.phases_flatten, ← hrest, List.append_assoc]
      exact List.prefix_append _ _
    · have hturn : forEach (Worker.exec ext) (ops ++ [op]) u = .error p := by
        rw [forEach_append, hrun]
        simp only [forEach_singleton, hexec, Except.map]
      rw [Worker.processCycle_eq, whole.phases_flatten, ← hrest, forEach_append, hturn]
  · exact absurd hpanicked (take_some htake).running.1

/-- A phase that is over leads to the next, or to the next cycle. -/
theorem nextPhase {bus : List BusEvent} {phase : Phase} (h : slot.Threaded ext addr actions)
    (hnext : slot.nextPhase bus = some phase) :
    ({ slot with phase } : WorkerSlot Rtc).Threaded ext addr actions := by
  obtain ⟨cycles, done, u, ops, as, hcycles, rfl, hrun, ⟨c, hstage⟩ | ⟨hpanicked, -⟩⟩ := h
  · rcases hstage.next hnext with hsame | ⟨rfl, hsweeps, rfl⟩
    · exact ⟨cycles, done, u, ops, as, hcycles, rfl, hrun, .inl hsame⟩
    · -- The cycle is over, and has done what `process_cycle` does.
      have hcycle : Worker.processCycle ext c u = .ok (slot.worker, as) := by
        rw [Worker.processCycle_eq, hrun]
      exact ⟨cycles ++ [c], done ++ as, slot.worker, [], [], hcycles.snoc hsweeps hcycle,
        (List.append_nil _).symm, rfl, .inl (Worker.Stage.fresh ext slot.worker)⟩
  · rw [WorkerSlot.nextPhase, hpanicked] at hnext
    cases hnext

/-- The second walk begins. -/
theorem startPop {order : List Nat} (h : slot.Threaded ext addr actions)
    (hphase : slot.phase = .ticked) (hnodup : order.Nodup)
    (hkeys : order.toFinset = slot.worker.tasks.keys) (now : Instant) :
    ({ slot with phase := .popTasks order now } : WorkerSlot Rtc).Threaded ext addr actions := by
  obtain ⟨cycles, done, u, ops, as, hcycles, rfl, hrun, ⟨c, hstage⟩ | ⟨hpanicked, -⟩⟩ := h
  · rw [hphase] at hstage
    exact ⟨cycles, done, u, ops, as, hcycles, rfl, hrun,
      .inl (hstage.startPop hrun hnodup hkeys now)⟩
  · rw [hphase] at hpanicked
    cases hpanicked

end WorkerSlot.Threaded

/-! ### Every thread of the server -/

namespace Server

variable {localAddrs : Fin n → SocketAddr} {entries : List (Entry n)} {s s' : Server n Rtc}

/-- The turn of a slot that took what the turn needs, and what became of it. -/
theorem turn_take {w : Fin n} {op : Op Rtc} (h : s.turn ext w op = some s') :
    ∃ slot, (s.slots w).take s.bus op = some slot ∧
      ((∃ p, (s.slots w).worker.exec ext op = .error p ∧ s' = s.setSlot w slot.panic) ∨
        ∃ worker actions, (s.slots w).worker.exec ext op = .ok (worker, actions) ∧
          s' = s.setSlot w { slot with worker, outgoing := actions.filter Action.isShared }) := by
  unfold Server.turn at h
  split at h
  · obtain ⟨slot, htake, heq⟩ := Option.map_eq_some_iff.mp h
    rw [(WorkerSlot.take_some htake).worker] at heq
    refine ⟨slot, htake, ?_⟩
    split at heq
    · rename_i p hexec
      exact .inl ⟨p, hexec, heq.symm⟩
    · rename_i worker actions hexec
      exact .inr ⟨worker, actions, hexec, heq.symm⟩
  · cases h

/-- What every thread has done. -/
def Threads (ext : Extern Rtc) (localAddrs : Fin n → SocketAddr) (entries : List (Entry n))
    (s : Server n Rtc) : Prop :=
  ∀ v, (s.slots v).Threaded ext (localAddrs v) (actionsOf v entries)

namespace Threads

/-- A step of one thread that does nothing concerns that thread alone. -/
theorem set {w : Fin n} {slot : WorkerSlot Rtc} (h : Threads ext localAddrs entries s)
    (hslot : slot.Threaded ext (localAddrs w) (actionsOf w entries)) :
    Threads ext localAddrs entries (s.setSlot w slot) :=
  forall_setSlot (P := fun v slot => slot.Threaded ext (localAddrs v) (actionsOf v entries))
    hslot h

theorem turn {w : Fin n} {op : Op Rtc} (h : Threads ext localAddrs entries s)
    (hs : s.turn ext w op = some s') :
    Threads ext localAddrs (entries ++ s.emitted ext (.turn w op)) s' := by
  obtain ⟨slot, htake, ⟨p, hexec, rfl⟩ | ⟨worker, actions, hexec, rfl⟩⟩ := turn_take hs
  · simp only [emitted, hexec, List.append_nil]
    exact h.set ((h w).panic htake hexec)
  · simp only [emitted, hexec]
    have hturn := (h w).turn htake hexec (actions.filter Action.isShared)
    intro v
    rw [actionsOf_append, actionsOf_turn, setSlot_slots]
    by_cases hv : v = w
    · subst hv
      rw [if_pos rfl, if_pos rfl]
      exact hturn
    · rw [if_neg hv, if_neg (Ne.symm hv), List.append_nil]
      exact h v

theorem nextPhase {w : Fin n} (h : Threads ext localAddrs entries s)
    (hs : s.nextPhase w = some s') : Threads ext localAddrs entries s' := by
  unfold Server.nextPhase at hs
  split at hs
  · obtain ⟨phase, hphase, rfl⟩ := Option.map_eq_some_iff.mp hs
    exact h.set ((h w).nextPhase hphase)
  · cases hs

theorem startPop {w : Fin n} {order : List Nat} {now : Instant}
    (h : Threads ext localAddrs entries s) (hs : s.startPop w order now = some s') :
    Threads ext localAddrs entries s' := by
  unfold Server.startPop at hs
  split at hs <;> cases hs
  rename_i hc
  obtain ⟨-, hphase, hnodup, hkeys⟩ := hc
  exact h.set ((h w).startPop hphase hnodup hkeys now)

/-- A step that is no turn does nothing. -/
theorem quiet (h : Threads ext localAddrs entries s) :
    Threads ext localAddrs (entries ++ []) s := by
  rw [List.append_nil]
  exact h

theorem step {bs : List (Entry n)} (h : Threads ext localAddrs entries s)
    (hs : Moves ext s bs s') : Threads ext localAddrs (entries ++ bs) s' := by
  obtain ⟨l, hs, rfl⟩ := hs
  cases l with
  | turn w op => exact h.turn hs
  | arrive req =>
      obtain ⟨-, rfl⟩ := arrive_some hs
      refine quiet fun v => ?_
      rcases input_slots { req with reqId := s.reqId } s v with heq | ⟨-, -, -, heq⟩
      · exact (h v).same (by rw [heq]) (by rw [heq])
      · exact (h v).same (by rw [heq]) (by rw [heq])
  | insert =>
      obtain ⟨-, rfl⟩ := insert_some hs
      exact quiet h
  | respond =>
      obtain ⟨res, rest, -, -, ⟨-, rfl⟩ | ⟨-, rfl⟩⟩ := respond_some hs
      · exact quiet h
      · exact quiet h
  | spawn w =>
      obtain ⟨hphase, -, rfl⟩ := spawn_some hs
      exact quiet (h.set ((h w).spawn hphase rfl rfl))
  | nextPhase w => exact quiet (h.nextPhase hs)
  | startPop w order now => exact quiet (h.startPop hs)
  | reply w =>
      obtain ⟨res, rest, -, rfl⟩ := reply_some hs
      exact quiet (h.set ((h w).same rfl rfl))
  | lock w =>
      obtain ⟨-, -, -, rfl⟩ := callLock_some hs
      exact quiet (h.set ((h w).same rfl rfl))
  | acquire w =>
      obtain ⟨-, -, rfl⟩ := acquire_some hs
      exact quiet (h.set ((h w).same rfl rfl))
  | broadcast w =>
      obtain ⟨taskId, ev, rest, -, -, -, rfl⟩ := broadcast_some hs
      exact quiet (h.set ((h w).same rfl rfl))

end Threads

/-- Whatever has happened, every thread has been in `process_cycle` all the time. -/
theorem Reaches.threads (h : Reaches ext localAddrs entries s) :
    Threads ext localAddrs entries s :=
  Emits.preserves (P := fun es s => Threads ext localAddrs es s)
    (fun _ _ _ _ hT hs => hT.step hs) h fun v => WorkerSlot.threaded_new ext (localAddrs v)

/--
**A worker's thread runs `process_cycle`, over and over.**  Whatever the other threads do
between its turns, what a thread has done in a run of the server is what some number of
whole cycles do, one after another from the worker it started with, and then the beginning
of one more.  Both walks of each of these cycles meet every session there is at the time,
once.  And where the thread has panicked, the last cycle is one that panics.
-/
theorem threads_run_cycles (h : Reaches ext localAddrs entries s) (v : Fin n) :
    ∃ cycles done u, Worker.Cycled ext (Worker.new (localAddrs v)) cycles done u ∧
      ∃ (c : Worker.Cycle Rtc) (ops : List (Op Rtc)) (begun : List Action), c.Sweeps ext u ∧
        ops <+: c.phases.flatten ∧
        forEach (Worker.exec ext) ops u = .ok ((s.slots v).worker, begun) ∧
        actionsOf v entries = done ++ begun ∧
        ((s.slots v).phase = .panicked → ∃ p, Worker.processCycle ext c u = .error p) := by
  obtain ⟨cycles, done, u, ops, begun, hcycles, hactions, hrun, hcase⟩ := h.threads v
  rcases hcase with ⟨c, hstage⟩ | ⟨-, c, hsweeps, hops, hpanics⟩
  · obtain ⟨whole, hsweeps, hops⟩ := hstage.begins
    rw [← whole.phases_flatten] at hops
    refine ⟨cycles, done, u, hcycles, whole, ops, begun, hsweeps, hops, hrun, hactions, ?_⟩
    intro hpanicked
    rw [hpanicked] at hstage
    cases hstage
  · exact ⟨cycles, done, u, hcycles, c, ops, begun, hsweeps, hops, hrun, hactions,
      fun _ => hpanics⟩

/-- The thread that served a viewer from its request to its end. -/
theorem threads_run_cycles_visiting :
    ∃ (cycles : List (Worker.Cycle Script)) (done begun : List Action) (u w : Worker Script)
      (c : Worker.Cycle Script) (ops : List (Op Script)),
      Worker.Cycled Script.engine (Worker.new Script.addr) cycles done u ∧
      c.Sweeps Script.engine u ∧ ops <+: c.phases.flatten ∧
      forEach (Worker.exec Script.engine) ops u = .ok (w, begun) ∧
      actionsOf 0 (Server.record Script.engine (Server.new fun _ => Script.addr)
        (Script.visiting (0 : Fin 1))) = done ++ begun ∧
      w.taskIdSeed = 1 ∧ w.tasks.lookup 0 = none := by
  obtain ⟨s, hs, hseed, hgone⟩ := Script.visiting_reaches
  obtain ⟨cycles, done, u, hcycles, c, ops, begun, hsweeps, hops, hrun, hactions, -⟩ :=
    threads_run_cycles (reaches_of_run _ hs) 0
  exact ⟨cycles, done, begun, u, (s.slots 0).worker, c, ops, hcycles, hsweeps, hops, hrun,
    hactions, hseed, hgone⟩

end Server

end MediaServer
