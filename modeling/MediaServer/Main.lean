/-
`main.rs`: what becomes of a request before it is the controller's.

A request for something under `/public` is answered there and then, from a file; the path
of the file is a dot and then the url, as the client sent it.  So is an `OPTIONS` request.
What is left becomes a request of the controller: its headers are collected into a map,
and it is kept under its number until it is answered.

The file system is a parameter, and so is whether a response can be delivered.
-/
import MediaServer.Server

namespace MediaServer

open Lib

variable {File Rtc : Type} {n : Nat}

/-! ### Requests and responses -/

/-- `tiny_http::Request`: what was received, with the headers in their order. -/
structure Request where
  method : String
  url : String
  headers : List (String × String)
  /-- The body, if it can be read. -/
  body : Option Bytes

/-- The `HttpRequest` of a request. -/
def Request.toHttpRequest (reqId : Nat) (body : Bytes) (request : Request) : HttpRequest :=
  { reqId
    method := request.method
    path := request.url
    headers := Table.ofList request.headers
    body }

inductive Content (File : Type)
  | file (file : File)
  | text (text : String)

/-- `tiny_http::Response`, with the headers that were added to it. -/
structure Response (File : Type) where
  status : Nat
  headers : List (String × String)
  content : Content File

/-- The places where the main loop panics over a request. -/
inductive MainPanic
  | openFile
  | respondFile
  | respondOptions
  | readBody
  deriving DecidableEq

/-! ### Files -/

def startsWith (front s : String) : Bool := front.toList.isPrefixOf s.toList

def endsWith (back s : String) : Bool := back.toList.isSuffixOf s.toList

/-- `format!(".{}", request.url())`. -/
def filePath (url : String) : String := "." ++ url

def fileHeaders (url : String) : List (String × String) :=
  if endsWith ".js" url then [("Content-Type", "application/javascript")]
  else if endsWith ".css" url then [("Content-Type", "text/css")]
  else []

def fileResponse (url : String) (file : File) : Response File :=
  { status := 200, headers := fileHeaders url, content := .file file }

/-! ### `OPTIONS` -/

def optionsHeaders : List (String × String) :=
  [("Access-Control-Allow-Origin", "*"),
    ("Access-Control-Allow-Methods", "GET, POST, PATCH, DELETE, OPTIONS"),
    ("Access-Control-Allow-Headers", "*"),
    ("Access-Control-Allow-Credentials", "true")]

def optionsResponse : Response File :=
  { status := 200, headers := optionsHeaders, content := .text "OK" }

/-! ### The loop -/

/--
A turn of the main loop up to its `continue`, or to the end of `controller.input`: the
response, if one is sent already.  `openFile` is the file system, and `sent` says whether
a response can be delivered.
-/
def Server.receive {E : Type} (openFile : String → Except E File) (sent : Bool) (request : Request)
    (s : Server n Rtc) : Except MainPanic (Option (Response File) × Server n Rtc) :=
  if startsWith "/public" request.url then
    match openFile (filePath request.url) with
    | .error _ => .error .openFile
    | .ok file =>
        if sent then .ok (some (fileResponse request.url file), s) else .error .respondFile
  else if request.method = "OPTIONS" then
    if sent then .ok (some optionsResponse, s) else .error .respondOptions
  else
    match request.body with
    | none => .error .readBody
    | some body => .ok (none, s.input (request.toHttpRequest s.reqId body))

end MediaServer
