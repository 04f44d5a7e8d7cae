/-
`controller.rs` and `main.rs`: the workers, what is between them, and the main loop.

Everything that two threads share is here.  The main loop and each worker have a
bounded queue of requests between them; all workers answer through one bounded
channel; and they exchange media over one bus, which keeps an event until every
reader has read it and is guarded by one lock.  `Server.step` takes one step of one
thread, named by a `Label`, and a run of the server is a list of labels.

A worker's turn (`Worker.exec`) reads at most one item from a queue and then only
works on its own tables; what it sends or broadcasts it does not wait for, except
that it cannot go on before it is done.  So a turn is one step, and the shared
actions it leaves are steps of their own, taken one by one and in order before the
worker's next turn.  A `broadcast` is three steps: the call of `lock`, the moment the
lock is granted, and the moment the event is in the bus and the lock given back.

Of the bus this much is used, and it is what its documentation says: `broadcast`
waits, with the lock held by the caller, while some reader has as many unread events
as the bus has room for; `try_recv` takes one event; a reader that is added starts
behind the last event; and a reader that is dropped is waited for no more.
-/
import Mathlib.Data.Finset.Basic
import MediaServer.Worker

namespace MediaServer

open Lib

variable {Rtc : Type} {n : Nat}

/-- `Bus::new(1000)`. -/
def busCapacity : Nat := 1000

/-- `crossbeam::channel::bounded(100)`, for each request queue and for the responses. -/
def channelCapacity : Nat := 100

/-! ### One worker's thread -/

/-- Where a worker's thread is in its closure and in `process_cycle`. -/
inductive Phase
  /-- Before `bus.lock().add_rx()`. -/
  | starting
  | busRecv
  | http
  | tick
  | ticked
  /-- In `pop_tasks`, with these sessions still to come. -/
  | popTasks (todo : List Nat) (now : Instant)
  | popEnded
  | udp
  | panicked
  deriving DecidableEq

/-- A worker, its thread's position, and its ends of the queues. -/
structure WorkerSlot (Rtc : Type) where
  phase : Phase
  worker : Worker Rtc
  /-- The shared actions of its last turn that it has still to perform. -/
  outgoing : List Action
  /-- Whether it has called `lock` and not been granted it. -/
  queued : Bool
  requests : List HttpRequest
  /-- How much of the bus its reader is past, once it has one. -/
  reader : Option Nat

def WorkerSlot.new (localAddr : SocketAddr) : WorkerSlot Rtc :=
  { phase := .starting, worker := .new localAddr, outgoing := [], queued := false, requests := [],
    reader := none }

/-- The actions that concern other threads. -/
def Action.isShared : Action → Bool
  | .trySend _ | .send _ | .broadcast _ _ => true
  | _ => false

namespace WorkerSlot

/-- A worker does nothing else while it has shared actions left. -/
def idle (slot : WorkerSlot Rtc) : Bool := slot.outgoing.isEmpty

/-- Whether this slot's reader has all the unread events it can have. -/
def full (bus : List BusEvent) (slot : WorkerSlot Rtc) : Bool :=
  match slot.reader with
  | none => false
  | some pos => busCapacity ≤ bus.length - pos

/-- Take what a turn needs from where its phase finds it. -/
def take (bus : List BusEvent) (op : Op Rtc) (slot : WorkerSlot Rtc) :
    Option (WorkerSlot Rtc) :=
  match slot.phase, op with
  | .busRecv, .busEvent ev _ =>
      match slot.reader with
      | some pos => if bus[pos]? = some ev then some { slot with reader := some (pos + 1) } else none
      | none => none
  | .http, .request arrival =>
      match slot.requests with
      | req :: rest =>
          if arrival.event = .httpRequest req then some { slot with requests := rest } else none
      | [] => none
  | .tick, .tick order _ =>
      if order.Nodup ∧ order.toFinset = slot.worker.tasks.keys then
        some { slot with phase := .ticked }
      else none
  | .popTasks (taskId :: todo) now, .pop taskId' now' =>
      if taskId' = taskId ∧ now' = now then some { slot with phase := .popTasks todo now } else none
  | .popEnded, .popEnded => some { slot with phase := .udp }
  | .udp, .datagram _ => some slot
  | _, _ => none

/-- A thread that panicked: its reader and its receiver are dropped. -/
def panic (slot : WorkerSlot Rtc) : WorkerSlot Rtc :=
  { slot with phase := .panicked, reader := none, requests := [] }

/-- The end of a phase that has nothing more to take. -/
def nextPhase (bus : List BusEvent) (slot : WorkerSlot Rtc) : Option Phase :=
  match slot.phase with
  | .busRecv => if slot.reader.all (bus.length ≤ ·) then some .http else none
  | .http => if slot.requests.isEmpty then some .tick else none
  | .popTasks [] _ => some .popEnded
  | .udp => some .busRecv
  | _ => none

end WorkerSlot

/-! ### The whole server -/

/-- Where the main loop is. -/
inductive MainPhase
  | ready
  /-- Between `controller.input` and `reqs.insert`. -/
  | handing
  | panicked
  deriving DecidableEq

structure Server (n : Nat) (Rtc : Type) where
  slots : Fin n → WorkerSlot Rtc
  bus : List BusEvent
  lock : Option (Fin n)
  responses : List HttpResponse
  /-- The controller's count of requests. -/
  count : Nat
  main : MainPhase
  reqId : Nat
  /-- The keys of `reqs`. -/
  reqs : Finset Nat

def Server.new (localAddrs : Fin n → SocketAddr) : Server n Rtc :=
  { slots := fun w => .new (localAddrs w)
    bus := []
    lock := none
    responses := []
    count := 0
    main := .ready
    reqId := 0
    reqs := ∅ }

inductive Label (n : Nat) (Rtc : Type)
  /-- A request comes in and is handed to the controller; its id is the server's. -/
  | arrive (req : HttpRequest)
  | insert
  | respond
  | spawn (w : Fin n)
  | turn (w : Fin n) (op : Op Rtc)
  | nextPhase (w : Fin n)
  | startPop (w : Fin n) (order : List Nat) (now : Instant)
  /-- Perform a `try_send` or a `send`. -/
  | reply (w : Fin n)
  | lock (w : Fin n)
  | acquire (w : Fin n)
  | broadcast (w : Fin n)

namespace Server

def setSlot (w : Fin n) (slot : WorkerSlot Rtc) (s : Server n Rtc) : Server n Rtc :=
  { s with slots := fun v => if v = w then slot else s.slots v }

/-! ### The main loop -/

/-- `Controller::input` on a request. -/
def input (req : HttpRequest) (s : Server n Rtc) : Server n Rtc :=
  if h : 0 < n then
    let w : Fin n := ⟨s.count % n, Nat.mod_lt _ h⟩
    let slot := s.slots w
    let sent :=
      -- `try_send`: a full queue and a worker that is gone are both only logged.
      if slot.phase ≠ .panicked ∧ slot.requests.length < channelCapacity then
        s.setSlot w { slot with requests := slot.requests ++ [req] }
      else s
    { sent with count := s.count + 1, main := .handing }
  else { s with main := .panicked }

def arrive (req : HttpRequest) (s : Server n Rtc) : Option (Server n Rtc) :=
  if s.main = .ready then some (s.input { req with reqId := s.reqId }) else none

def insert (s : Server n Rtc) : Option (Server n Rtc) :=
  if s.main = .handing then
    some { s with main := .ready, reqs := Insert.insert s.reqId s.reqs, reqId := s.reqId + 1 }
  else none

/-- `controller.pop_action`: what a worker has put on the channel to the main loop. -/
def popAction (s : Server n Rtc) : Option IoAction := s.responses.head?.map .httpResponse

/-- The match of the main loop on an action: what is left of `reqs`. -/
def handleAction (reqs : Finset Nat) : IoAction → Except Panic (Finset Nat)
  | .httpResponse res =>
      if res.reqId ∈ reqs then .ok (reqs.erase res.reqId) else .error .noRequest
  | .udpSocketSend _ _ _ => .error .mainEvent

/-- A turn of the loop over `pop_action`. -/
def respond (s : Server n Rtc) : Option (Server n Rtc) :=
  match s.main, s.responses with
  | .ready, res :: rest =>
      if res.reqId ∈ s.reqs then
        some { s with responses := rest, reqs := s.reqs.erase res.reqId }
      else some { s with responses := rest, main := .panicked }
  | _, _ => none

/-! ### The workers' threads -/

/-- `bus.lock().add_rx()`, and everything else before the first cycle. -/
def spawn (w : Fin n) (s : Server n Rtc) : Option (Server n Rtc) :=
  if (s.slots w).phase = .starting ∧ s.lock = none then
    some (s.setSlot w { s.slots w with phase := .busRecv, reader := some s.bus.length })
  else none

def turn (ext : Extern Rtc) (w : Fin n) (op : Op Rtc) (s : Server n Rtc) :
    Option (Server n Rtc) :=
  if (s.slots w).idle then
    ((s.slots w).take s.bus op).map fun slot =>
      match slot.worker.exec ext op with
      | .error _ => s.setSlot w slot.panic
      | .ok (worker, actions) =>
          s.setSlot w { slot with worker, outgoing := actions.filter Action.isShared }
  else none

def nextPhase (w : Fin n) (s : Server n Rtc) : Option (Server n Rtc) :=
  if (s.slots w).idle then
    ((s.slots w).nextPhase s.bus).map fun phase => s.setSlot w { s.slots w with phase }
  else none

/-- `pop_tasks(now)`, up to the choice of the order in which it walks the map. -/
def startPop (w : Fin n) (order : List Nat) (now : Instant) (s : Server n Rtc) :
    Option (Server n Rtc) :=
  if (s.slots w).idle ∧ (s.slots w).phase = .ticked ∧ order.Nodup ∧
      order.toFinset = (s.slots w).worker.tasks.keys then
    some (s.setSlot w { s.slots w with phase := .popTasks order now })
  else none

def reply (w : Fin n) (s : Server n Rtc) : Option (Server n Rtc) :=
  match (s.slots w).outgoing with
  | .trySend res :: rest =>
      let served := s.setSlot w { s.slots w with outgoing := rest }
      if s.responses.length < channelCapacity then
        some { served with responses := s.responses ++ [res] }
      else some served
  | .send res :: rest =>
      if s.responses.length < channelCapacity then
        some { s.setSlot w { s.slots w with outgoing := rest } with
          responses := s.responses ++ [res] }
      else none
  | _ => none

/-- The call of `bus_send.lock()`. -/
def callLock (w : Fin n) (s : Server n Rtc) : Option (Server n Rtc) :=
  match (s.slots w).outgoing with
  | .broadcast _ _ :: _ =>
      if (s.slots w).queued ∨ s.lock = some w then none
      else some (s.setSlot w { s.slots w with queued := true })
  | _ => none

def acquire (w : Fin n) (s : Server n Rtc) : Option (Server n Rtc) :=
  if (s.slots w).queued ∧ s.lock = none then
    some { s.setSlot w { s.slots w with queued := false } with lock := some w }
  else none

/-- Whether some reader has no room for another event. -/
def blocked (s : Server n Rtc) : Prop := ∃ v, (s.slots v).full s.bus = true

instance (s : Server n Rtc) : Decidable s.blocked := by
  unfold blocked
  infer_instance

/-- The event goes into the bus, and the lock is given back. -/
def broadcast (w : Fin n) (s : Server n Rtc) : Option (Server n Rtc) :=
  match (s.slots w).outgoing with
  | .broadcast _ ev :: rest =>
      if s.lock = some w ∧ ¬ s.blocked then
        some { s.setSlot w { s.slots w with outgoing := rest } with
          bus := s.bus ++ [ev]
          lock := none }
      else none
  | _ => none

/-! ### One step -/

def step (ext : Extern Rtc) (s : Server n Rtc) : Label n Rtc → Option (Server n Rtc)
  | .arrive req => s.arrive req
  | .insert => s.insert
  | .respond => s.respond
  | .spawn w => s.spawn w
  | .turn w op => s.turn ext w op
  | .nextPhase w => s.nextPhase w
  | .startPop w order now => s.startPop w order now
  | .reply w => s.reply w
  | .lock w => s.callLock w
  | .acquire w => s.acquire w
  | .broadcast w => s.broadcast w

/-- What the turn a step takes does, with the worker that does it. -/
def emitted (ext : Extern Rtc) (s : Server n Rtc) : Label n Rtc → List (Fin n × Action)
  | .turn w op =>
      match (s.slots w).worker.exec ext op with
      | .error _ => []
      | .ok r => r.2.map (Prod.mk w)
  | _ => []

end Server

end MediaServer
