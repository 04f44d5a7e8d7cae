/-
`main.rs`: the whole main loop, with the clients it answers.

`Server` keeps of the main loop's map only the keys, and drops an answer once it is
popped.  Here the map keeps what it keeps in the source, the requests themselves, each
with the connection its response goes to; and an answer goes on to become the response
its client is sent.  The loop is taken apart where it can wait or where a worker could
step in between: a request is received, or none comes; a request that is handed over is
inserted; and then answers are popped one by one until there is none.

How `Header::from_bytes` reads a name and a value is a parameter, as the file system and
the connections are.
-/
import MediaServer.Main

namespace MediaServer

open Lib

variable {File Rtc : Type} {n : Nat}

/-- The steps of the main loop; the others are the workers'. -/
def Label.isMain : Label n Rtc → Bool
  | .arrive _ | .insert | .respond => true
  | .spawn _ | .turn _ _ | .nextPhase _ | .startPop _ _ _ | .reply _ | .lock _ | .acquire _
  | .broadcast _ => false

/-! ### Responses -/

/-- The four headers an answer is sent with, after its own. -/
def corsHeaders : List (String × String) := optionsHeaders

/-- What a client is sent. -/
inductive Reply (File : Type)
  /-- The response of `Server.receive`. -/
  | immediate (response : Response File)
  /-- `Response::from_data`, with a status and the headers that were added. -/
  | data (status : Nat) (headers : List (String × String)) (body : Bytes)

/-- A map walked in some order, each key once. -/
def Listing (headers : Table String String) (order : List (String × String)) : Prop :=
  (order.map Prod.fst).Nodup ∧ Table.ofList order = headers

instance (headers : Table String String) (order : List (String × String)) :
    Decidable (Listing headers order) :=
  inferInstanceAs (Decidable (_ ∧ _))

/-- The response an answer becomes, its own headers walked in this order. -/
def HttpResponse.toReply (fromBytes : String → String → Option (String × String))
    (order : List (String × String)) (res : HttpResponse) : Option (Reply File) :=
  ((order ++ corsHeaders).mapM fun h => fromBytes h.1 h.2).map fun headers =>
    .data res.status headers res.body

/-! ### The loop -/

/-- A request in the hands of the loop, and which of those received it is. -/
structure Pending where
  client : Nat
  request : Request

inductive LoopPhase
  /-- At `server.recv_timeout`, or between it and `reqs.insert`. -/
  | receiving
  /-- At `controller.pop_action`. -/
  | popping
  deriving DecidableEq

structure Front (n : Nat) (File Rtc : Type) where
  server : Server n Rtc
  loop : LoopPhase
  /-- How many requests were received. -/
  received : Nat
  /-- The request that is handed over and not inserted yet. -/
  handing : Option Pending
  reqs : Table Nat Pending
  /-- Who was sent what. -/
  delivered : List (Nat × Reply File)

inductive Front.Label (n : Nat) (Rtc : Type)
  /-- A request is received; `sent` says whether a response to it can be delivered. -/
  | receive (request : Request) (sent : Bool)
  /-- `recv_timeout` returns no request. -/
  | timeout
  | insert
  /-- An answer is popped, and its headers are walked in this order. -/
  | respond (order : List (String × String)) (sent : Bool)
  /-- `pop_action` returns nothing. -/
  | emptied
  | worker (l : MediaServer.Label n Rtc)

namespace Front

def new (localAddrs : Fin n → SocketAddr) : Front n File Rtc :=
  { server := .new localAddrs
    loop := .receiving
    received := 0
    handing := none
    reqs := ∅
    delivered := [] }

/-- The main loop has panicked; the workers go on. -/
def panic (s : Front n File Rtc) : Front n File Rtc :=
  { s with server := { s.server with main := .panicked } }

def deliver (client : Nat) (reply : Reply File) (s : Front n File Rtc) : Front n File Rtc :=
  { s with delivered := s.delivered ++ [(client, reply)] }

def receive {E : Type} (openFile : String → Except E File) (request : Request) (sent : Bool)
    (s : Front n File Rtc) : Option (Front n File Rtc) :=
  if s.server.main = .ready ∧ s.loop = .receiving then
    let got := { s with received := s.received + 1 }
    match s.server.receive openFile sent request with
    | .error _ => some got.panic
    | .ok (some response, _) => some (got.deliver s.received (.immediate response))
    | .ok (none, server) => some { got with server, handing := some { client := s.received, request } }
  else none

def timeout (s : Front n File Rtc) : Option (Front n File Rtc) :=
  if s.server.main = .ready ∧ s.loop = .receiving then some { s with loop := .popping } else none

/-- `reqs.insert(req_id, request)`, and on to the answers. -/
def insert (s : Front n File Rtc) : Option (Front n File Rtc) :=
  match s.handing with
  | some pending =>
      s.server.insert.map fun server =>
        { s with
          server
          loop := .popping
          handing := none
          reqs := s.reqs.insert s.server.reqId pending }
  | none => none

/-- `controller.pop_action()` and `reqs.remove(&res.req_id)`. -/
def pop (res : HttpResponse) (responses : List HttpResponse) (s : Front n File Rtc) :
    Front n File Rtc :=
  { s with
    server := { s.server with responses, reqs := s.server.reqs.erase res.reqId }
    reqs := s.reqs.erase res.reqId }

def respond (fromBytes : String → String → Option (String × String))
    (order : List (String × String)) (sent : Bool) (s : Front n File Rtc) :
    Option (Front n File Rtc) :=
  match s.loop, s.server.main, s.server.responses with
  | .popping, .ready, res :: responses =>
      if Listing res.headers order then
        let popped := s.pop res responses
        match s.reqs.lookup res.reqId with
        | none => some popped.panic
        | some pending =>
            match res.toReply fromBytes order with
            | none => some popped.panic
            | some reply =>
                if sent then some (popped.deliver pending.client reply) else some popped.panic
      else none
  | _, _, _ => none

def emptied (s : Front n File Rtc) : Option (Front n File Rtc) :=
  match s.loop, s.server.main, s.server.responses with
  | .popping, .ready, [] => some { s with loop := .receiving }
  | _, _, _ => none

def worker (ext : Extern Rtc) (l : MediaServer.Label n Rtc) (s : Front n File Rtc) :
    Option (Front n File Rtc) :=
  if l.isMain then none else (s.server.step ext l).map fun server => { s with server }

def step {E : Type} (ext : Extern Rtc) (openFile : String → Except E File)
    (fromBytes : String → String → Option (String × String)) (s : Front n File Rtc) :
    Label n Rtc → Option (Front n File Rtc)
  | .receive request sent => s.receive openFile request sent
  | .timeout => s.timeout
  | .insert => s.insert
  | .respond order sent => s.respond fromBytes order sent
  | .emptied => s.emptied
  | .worker l => s.worker ext l

end Front

end MediaServer
