/-
A session of either kind: `ComposeTask` of `tasks/mod.rs`.
-/
import MediaServer.Tasks.Whip
import MediaServer.Tasks.Whep

namespace MediaServer

variable {Rtc : Type}

inductive ComposeTask (Rtc : Type)
  | whip (task : WhipServerTask Rtc)
  | whep (task : WhepServerTask Rtc)

namespace ComposeTask

variable (ext : Extern Rtc)

/-- The part every session has. -/
def core : ComposeTask Rtc → TaskCore Rtc
  | .whip task => task.toTaskCore
  | .whep task => task.toTaskCore

def ufrag : ComposeTask Rtc → String
  | .whip task => task.ufrag
  | .whep task => task.ufrag

def tick (now : Instant) : ComposeTask Rtc → Bool × ComposeTask Rtc
  | .whip task => let (due, task) := task.tick ext now; (due, .whip task)
  | .whep task => let (due, task) := task.tick ext now; (due, .whep task)

def input (now : Instant) (event : WebrtcTaskInput) :
    ComposeTask Rtc → Except Panic (Bool × ComposeTask Rtc)
  | .whip task => (task.input ext now event).map fun r => (r.1, .whip r.2)
  | .whep task => (task.input ext now event).map fun r => (r.1, .whep r.2)

def popAction (now : Instant) : ComposeTask Rtc → Option WebrtcTaskOutput × ComposeTask Rtc
  | .whip task => let (action, task) := task.popAction ext now; (action, .whip task)
  | .whep task => let (action, task) := task.popAction ext now; (action, .whep task)

/-! ### What a session's calls into its engine look like from outside -/

/-- The answer of `poll_output` that the next `pop_action` sees, if it asks. -/
def polled (now : Instant) (task : ComposeTask Rtc) : Option (Except ExternError Output) :=
  task.core.polled ext now

/-- The `write_rtp` call that `input` makes, if it makes one. -/
def rtpWrite (event : WebrtcTaskInput) (task : ComposeTask Rtc) : Option (Mid × RtpWrite) :=
  match task, event with
  | .whep task, .trackMedia media => (task.rtpWrite ext media).map fun r => (r.1, r.2.2)
  | _, _ => none

/-- How many actions the session can still return without new input. -/
def remaining (task : ComposeTask Rtc) : Nat :=
  task.core.outputs.length + ext.pending task.core.rtc

def isWhip : ComposeTask Rtc → Bool
  | .whip _ => true
  | .whep _ => false

end ComposeTask

end MediaServer
