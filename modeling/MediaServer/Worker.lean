/-
`worker.rs`: one worker thread's tables, and each turn of each loop over them.

A worker owns its sessions outright.  Around them it keeps a table of remotes, one of
ufrags and one of bus channels, a list of sessions that have ended, and a counter
that names the next session.  Every loop of `process_cycle` is modelled by the
function that is its body — one bus event, one request, one datagram, one session to
poll — and by the walk over a list of those, the list being whatever the queue it
reads from held.

What a turn does outside the tables is its list of `Action`s: what it hands to a
session, what it sends, broadcasts or answers, and the lines it logs when a session
is created, bound, publishes, subscribes, ends or is removed.  Nothing a worker does
within one turn depends on the outcome of such an action: `add_send_to` and
`try_send` report an error that is only logged, and `broadcast` returns nothing.

The order in which a hash map is walked is not specified, so `process_tick` and
`pop_tasks` take it as an argument.
-/
import MediaServer.Lib.Loop
import MediaServer.Tasks.Compose

namespace MediaServer

open Lib

variable {Rtc : Type}

inductive BusEvent
  | trackMedia (media : TrackMedia)
  | trackKeyframeRequest (trackId : UInt64) (kind : KeyframeRequestKind)
  deriving DecidableEq

/-! ### Bus channels -/

structure BusChannelContainer where
  sources : List Nat
  consumers : List Nat
  deriving DecidableEq

abbrev BusChannels := Table UInt64 BusChannelContainer

namespace BusChannels

/-- `entry(track_id).or_insert(..)` with both lists empty. -/
def entry (channels : BusChannels) (trackId : UInt64) : BusChannelContainer :=
  (channels.lookup trackId).getD { sources := [], consumers := [] }

def pushSource (channels : BusChannels) (trackId : UInt64) (taskId : Nat) : BusChannels :=
  channels.insert trackId
    { entry channels trackId with sources := (entry channels trackId).sources ++ [taskId] }

def pushConsumer (channels : BusChannels) (trackId : UInt64) (taskId : Nat) : BusChannels :=
  channels.insert trackId
    { entry channels trackId with consumers := (entry channels trackId).consumers ++ [taskId] }

/-- The body of both cleanup loops of `pop_ended_tasks`: they are the same text. -/
def retainConsumers (taskId : Nat) (channels : BusChannels) (trackId : UInt64) : BusChannels :=
  match channels.lookup trackId with
  | none => channels
  | some channel =>
      let consumers := channel.consumers.filter (· ≠ taskId)
      if consumers.isEmpty && channel.sources.isEmpty then channels.erase trackId
      else channels.insert trackId { channel with consumers }

end BusChannels

/-! ### The worker -/

structure TaskContainer (Rtc : Type) where
  task : ComposeTask Rtc
  remotes : List SocketAddr
  subChannels : List UInt64
  pubChannels : List UInt64

def TaskContainer.ofTask (task : ComposeTask Rtc) : TaskContainer Rtc :=
  { task, remotes := [], subChannels := [], pubChannels := [] }

structure Worker (Rtc : Type) where
  taskIdSeed : Nat
  udpSocketLocalAddr : SocketAddr
  busChannels : BusChannels
  tasks : Table Nat (TaskContainer Rtc)
  taskRemotes : Table SocketAddr Nat
  taskUfrags : Table String Nat
  endedTasks : List Nat

def Worker.new (localAddr : SocketAddr) : Worker Rtc :=
  { taskIdSeed := 0
    udpSocketLocalAddr := localAddr
    busChannels := ∅
    tasks := ∅
    taskRemotes := ∅
    taskUfrags := ∅
    endedTasks := [] }

/-- What a turn does besides changing the tables. -/
inductive Action
  | created (taskId : Nat) (req : HttpRequest)
  | bound (remote : SocketAddr) (taskId : Nat)
  | read (ev : BusEvent)
  | input (taskId : Nat) (event : WebrtcTaskInput)
  | writeRtp (taskId : Nat) (mid : Mid) (write : RtpWrite)
  | polled (taskId : Nat) (answer : Except ExternError Output)
  | sendTo (dst : SocketAddr) (buf : Bytes)
  /-- `try_send`: lost if the channel is full. -/
  | trySend (res : HttpResponse)
  /-- `send`: waits for room. -/
  | send (res : HttpResponse)
  | broadcast (taskId : Nat) (ev : BusEvent)
  | ended (taskId : Nat)
  | published (taskId : Nat) (trackId : UInt64)
  | subscribed (taskId : Nat) (trackId : UInt64)
  | removed (taskId : Nat)

/-! ### `pop_task` -/

/-- What `pop_task` borrows, and the actions it has performed so far. -/
structure PopState (Rtc : Type) where
  task : TaskContainer Rtc
  busChannels : BusChannels
  endedTasks : List Nat
  actions : List Action

namespace PopState

def emit (action : Action) (s : PopState Rtc) : PopState Rtc :=
  { s with actions := s.actions ++ [action] }

/-- The match on one action of the session. -/
def perform (taskId : Nat) (action : WebrtcTaskOutput) (s : PopState Rtc) : PopState Rtc :=
  match action with
  | .io (.udpSocketSend _ dst buf) => s.emit (.sendTo dst buf)
  | .io (.httpResponse res) => s.emit (.trySend res)
  | .trackMedia media => s.emit (.broadcast taskId (.trackMedia media))
  | .requestKeyframeTrack trackId kind =>
      s.emit (.broadcast taskId (.trackKeyframeRequest trackId kind))
  | .taskEnded =>
      { s with endedTasks := s.endedTasks ++ [taskId] }.emit (.ended taskId)
  | .publishTrack trackId =>
      { s with
        busChannels := BusChannels.pushSource s.busChannels trackId taskId
        task := { s.task with pubChannels := s.task.pubChannels ++ [trackId] } }.emit
          (.published taskId trackId)
  | .subscribeTrack trackId =>
      { s with
        busChannels := BusChannels.pushConsumer s.busChannels trackId taskId
        task := { s.task with subChannels := s.task.subChannels ++ [trackId] } }.emit
          (.subscribed taskId trackId)

/-- `task.task.pop_action(now)`. -/
def next (ext : Extern Rtc) (now : Instant) (taskId : Nat) (s : PopState Rtc) :
    Option WebrtcTaskOutput × PopState Rtc :=
  let (action, task) := s.task.task.popAction ext now
  (action,
    { s with
      task := { s.task with task }
      actions := s.actions ++ ((s.task.task.polled ext now).map (.polled taskId)).toList })

end PopState

namespace Worker

variable (ext : Extern Rtc)

/-- `pop_task` on the container of `taskId`, which afterwards is in `tasks`. -/
def popTask (now : Instant) (taskId : Nat) (task : TaskContainer Rtc) (w : Worker Rtc) :
    Worker Rtc × List Action :=
  let s := drain (fun s => s.task.task.remaining ext) (PopState.next ext now taskId)
    (PopState.perform taskId)
    { task, busChannels := w.busChannels, endedTasks := w.endedTasks, actions := [] }
  ({ w with
      busChannels := s.busChannels
      endedTasks := s.endedTasks
      tasks := w.tasks.insert taskId s.task }, s.actions)

/-! ### `process_http` -/

/-- A request taken from the queue, with what the clock and the engine's builder give. -/
structure HttpArrival (Rtc : Type) where
  event : IoEvent
  config : RtcConfig Rtc
  now : Instant

def notFound (req : HttpRequest) : HttpResponse :=
  { reqId := req.reqId
    status := 404
    headers := ∅
    body := [78, 111, 116, 32, 70, 111, 117, 110, 100] }

/-- A new session: registered by its ufrag, polled once, and only then put in the map. -/
def addTask (now : Instant) (req : HttpRequest) (task : ComposeTask Rtc) (w : Worker Rtc) :
    Worker Rtc × List Action :=
  let taskId := w.taskIdSeed
  let (w, actions) := popTask ext now taskId (.ofTask task)
    { w with
      taskIdSeed := w.taskIdSeed + 1
      taskUfrags := w.taskUfrags.insert task.ufrag taskId }
  (w, .created taskId req :: actions)

def handleRequest (arrival : HttpArrival Rtc) (w : Worker Rtc) :
    Except Panic (Worker Rtc × List Action) :=
  match arrival.event with
  | .httpRequest req =>
      if req.path = "/whip/endpoint" then
        (WhipServerTask.new ext arrival.config req [w.udpSocketLocalAddr]).map fun task =>
          addTask ext arrival.now req (.whip task) w
      else if req.path = "/whep/endpoint" then
        (WhepServerTask.new ext arrival.config req [w.udpSocketLocalAddr]).map fun task =>
          addTask ext arrival.now req (.whep task) w
      else .ok (w, [.send (notFound req)])
  | .udpSocketRecv _ _ _ => .error .workerEvent

def processHttp : List (HttpArrival Rtc) → Worker Rtc → Except Panic (Worker Rtc × List Action) :=
  forEach (handleRequest ext)

/-! ### `process_bus_recv` -/

/-- Hand one input to one session; an id that is no key of `tasks` is passed over. -/
def inputTask (now : Instant) (event : WebrtcTaskInput) (taskId : Nat) (w : Worker Rtc) :
    Except Panic (Worker Rtc × List Action) :=
  match w.tasks.lookup taskId with
  | none => .ok (w, [])
  | some container =>
      (container.task.input ext now event).map fun r =>
        ({ w with tasks := w.tasks.insert taskId { container with task := r.2 } },
          .input taskId event ::
            ((container.task.rtpWrite ext event).map fun r => .writeRtp taskId r.1 r.2).toList)

/-- The sessions a bus event goes to, and the input it becomes. -/
def recipients (ev : BusEvent) (w : Worker Rtc) : List Nat × WebrtcTaskInput :=
  match ev with
  | .trackMedia media =>
      ((BusChannels.entry w.busChannels media.trackId).consumers, .trackMedia media)
  | .trackKeyframeRequest trackId kind =>
      ((BusChannels.entry w.busChannels trackId).sources, .requestKeyframeTrack trackId kind)

def handleBusEvent (ev : BusEvent) (now : Instant) (w : Worker Rtc) :
    Except Panic (Worker Rtc × List Action) :=
  let (taskIds, event) := recipients ev w
  (forEach (inputTask ext now event) taskIds w).map fun r => (r.1, .read ev :: r.2)

def processBusRecv : List (BusEvent × Instant) → Worker Rtc →
    Except Panic (Worker Rtc × List Action) :=
  forEach fun e => handleBusEvent ext e.1 e.2

/-! ### `process_tick` and `pop_tasks` -/

def tickTask (now : Instant) (taskId : Nat) (w : Worker Rtc) : Worker Rtc :=
  match w.tasks.lookup taskId with
  | none => w
  | some container =>
      { w with tasks :=
          w.tasks.insert taskId { container with task := (container.task.tick ext now).2 } }

def processTick (order : List Nat) (now : Instant) (w : Worker Rtc) :
    Except Panic (Worker Rtc × List Action) :=
  forEach (fun taskId w => .ok (tickTask ext now taskId w, [])) order w

def popOne (now : Instant) (taskId : Nat) (w : Worker Rtc) :
    Except Panic (Worker Rtc × List Action) :=
  match w.tasks.lookup taskId with
  | none => .ok (w, [])
  | some container => .ok (popTask ext now taskId container w)

def popTasks (order : List Nat) (now : Instant) : Worker Rtc →
    Except Panic (Worker Rtc × List Action) :=
  forEach (popOne ext now) order

/-! ### `process_udp` -/

structure Datagram where
  buf : Bytes
  remote : SocketAddr
  now : Instant
  deriving DecidableEq

/-- `u.split(':').next()`, which always finds a first piece. -/
def usernamePrefix (username : String) : String :=
  String.ofList (username.toList.takeWhile (· ≠ ':'))

def getStunUsername (buf : Bytes) : Except Panic (Option String) :=
  match ext.decodeStun buf with
  | .error _ => .error .stunDecode
  | .ok username => .ok (username.map usernamePrefix)

/-- Register `remote` for the session its first STUN message named. -/
def bind (remote : SocketAddr) (taskId : Nat) (w : Worker Rtc) : Worker Rtc :=
  { w with
    taskRemotes := w.taskRemotes.insert remote taskId
    tasks :=
      match w.tasks.lookup taskId with
      | none => w.tasks
      | some container =>
          w.tasks.insert taskId { container with remotes := container.remotes ++ [remote] } }

/-- The session a datagram is for, found by its address or else by its username. -/
def slot (d : Datagram) (w : Worker Rtc) :
    Except Panic (Option Nat × Worker Rtc × List Action) :=
  match w.taskRemotes.lookup d.remote with
  | some taskId => .ok (some taskId, w, [])
  | none =>
      match getStunUsername ext d.buf with
      | .error p => .error p
      | .ok none => .ok (none, w, [])
      | .ok (some stunUsername) =>
          match w.taskUfrags.lookup stunUsername with
          | none => .ok (none, w, [])
          | some taskId => .ok (some taskId, w.bind d.remote taskId, [.bound d.remote taskId])

def handleDatagram (d : Datagram) (w : Worker Rtc) : Except Panic (Worker Rtc × List Action) :=
  match slot ext d w with
  | .error p => .error p
  | .ok (none, w, found) => .ok (w, found)
  | .ok (some taskId, w, found) =>
      -- The session is polled at once: the engine keeps no queue of incoming datagrams.
      (forEach (fun turn => turn)
        [inputTask ext d.now (.io (.udpSocketRecv d.remote w.udpSocketLocalAddr d.buf)) taskId,
          popOne ext d.now taskId] w).map fun r => (r.1, found ++ r.2)

def processUdp : List Datagram → Worker Rtc → Except Panic (Worker Rtc × List Action) :=
  forEach (handleDatagram ext)

/-! ### `pop_ended_tasks` -/

def removeTask (taskId : Nat) (w : Worker Rtc) : Except Panic (Worker Rtc × List Action) :=
  match w.tasks.lookup taskId with
  | none => .error .noTask
  | some container =>
      let channels := container.subChannels.foldl (BusChannels.retainConsumers taskId) w.busChannels
      let channels := container.pubChannels.foldl (BusChannels.retainConsumers taskId) channels
      .ok ({ w with
              tasks := w.tasks.erase taskId
              taskRemotes := Table.eraseAll w.taskRemotes container.remotes
              taskUfrags := w.taskUfrags.erase container.task.ufrag
              busChannels := channels }, [.removed taskId])

def popEndedTasks (w : Worker Rtc) : Except Panic (Worker Rtc × List Action) :=
  forEach removeTask w.endedTasks { w with endedTasks := [] }

/-! ### `process_cycle` -/

/-- Everything one cycle takes from outside: the queues' contents, the clock, the orders. -/
structure Cycle (Rtc : Type) where
  busEvents : List (BusEvent × Instant)
  requests : List (HttpArrival Rtc)
  tickOrder : List Nat
  tickAt : Instant
  popOrder : List Nat
  popAt : Instant
  datagrams : List Datagram

def processCycle (c : Cycle Rtc) (w : Worker Rtc) : Except Panic (Worker Rtc × List Action) :=
  forEach (fun phase => phase)
    [processBusRecv ext c.busEvents,
      processHttp ext c.requests,
      processTick ext c.tickOrder c.tickAt,
      popTasks ext c.popOrder c.popAt,
      popEndedTasks,
      processUdp ext c.datagrams] w

end Worker

/-! ### The turns of a worker -/

/-- One turn of one of the loops of `process_cycle`. -/
inductive Op (Rtc : Type)
  | busEvent (ev : BusEvent) (now : Instant)
  | request (arrival : Worker.HttpArrival Rtc)
  | tick (order : List Nat) (now : Instant)
  | pop (taskId : Nat) (now : Instant)
  | popEnded
  | datagram (d : Worker.Datagram)

def Worker.exec (ext : Extern Rtc) : Op Rtc → Worker Rtc → Except Panic (Worker Rtc × List Action)
  | .busEvent ev now => handleBusEvent ext ev now
  | .request arrival => handleRequest ext arrival
  | .tick order now => processTick ext order now
  | .pop taskId now => popOne ext now taskId
  | .popEnded => popEndedTasks
  | .datagram d => handleDatagram ext d

end MediaServer
