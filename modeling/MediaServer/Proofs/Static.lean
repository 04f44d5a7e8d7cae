/-
Static files.

The url is compared as text, and the path is made of it as text, so a path may leave the
directory it seems to be in.  Which paths do not is told by counting their segments
(`Lib.Enters`).  And a file that cannot be opened is a panic of the thread that holds all
the requests still to be answered.
-/
import MediaServer.Main
import MediaServer.Script
import MediaServer.Lib.Path

namespace MediaServer

open Lib

variable {File E Rtc : Type} {n : Nat}

/-! ### Paths -/

def segment (cs : List Char) : Segment (List Char) :=
  if cs = [] ∨ cs = ['.'] then .here
  else if cs = ['.', '.'] then .up
  else .name cs

def segments (path : String) : List (Segment (List Char)) :=
  (path.toList.splitOn '/').map segment

/-- The directory the files are in. -/
def publicDir : List Char := "public".toList

/-- The path leads to `./public`, or to something in it. -/
def Confined (path : String) : Prop :=
  (resolve (segments path)).ups = 0 ∧ (resolve (segments path)).names.getLast? = some publicDir

instance (path : String) : Decidable (Confined path) :=
  inferInstanceAs (Decidable (_ ∧ _))

theorem confined_iff (path : String) : Confined path ↔ Enters publicDir (segments path) :=
  resolve_iff publicDir (segments path)

/-! ### Responses -/

namespace Server

variable {openFile : String → Except E File} {sent : Bool} {request : Request} {s : Server n Rtc}

theorem receive_file (hpublic : startsWith "/public" request.url = true) {file : File}
    (hfile : openFile (filePath request.url) = .ok file) :
    s.receive openFile sent request =
      if sent then .ok (some (fileResponse request.url file), s) else .error .respondFile := by
  rw [receive, if_pos hpublic, hfile]

theorem receive_missing (hpublic : startsWith "/public" request.url = true) {e : E}
    (hfile : openFile (filePath request.url) = .error e) :
    s.receive openFile sent request = .error .openFile := by
  rw [receive, if_pos hpublic, hfile]

/-- A request that is not answered yet is a step of the server. -/
theorem receive_arrive (ext : Extern Rtc) {s' : Server n Rtc} (hmain : s.main = .ready)
    (h : s.receive openFile sent request = .ok (none, s')) :
    ∃ body, request.body = some body ∧
      s.step ext (.arrive (request.toHttpRequest s.reqId body)) = some s' := by
  unfold receive at h
  split at h
  · split at h
    · cases h
    · split at h <;> cases h
  · split at h
    · split at h <;> cases h
    · split at h
      · cases h
      · rename_i body hbody
        cases h
        exact ⟨body, hbody, if_pos hmain⟩

/-- One path is opened, and only for a url with the prefix: `filePath` of that url. -/
theorem receive_opens {openFile openFile' : String → Except E File} (sent : Bool)
    (request : Request) (s : Server n Rtc)
    (hsame : startsWith "/public" request.url = true →
      openFile' (filePath request.url) = openFile (filePath request.url)) :
    s.receive openFile' sent request = s.receive openFile sent request := by
  unfold receive
  by_cases hpublic : startsWith "/public" request.url = true
  · rw [if_pos hpublic, if_pos hpublic, hsame hpublic]
  · rw [if_neg hpublic, if_neg hpublic]

/-- The request is answered with an HTTP error, and everything else is as it was. -/
def Refuses (openFile : String → Except E File) (sent : Bool) (request : Request)
    (s : Server n Rtc) : Prop :=
  ∃ res, s.receive openFile sent request = .ok (some res, s) ∧ 400 ≤ res.status

/--
**A file is served from `./public`, and one that is not there is no harm**, if the path
enters `public` and stays there, and there is a file; and only then.  The path is the one
that is opened (`receive_opens`).  A directory is a file here, as it is for `File::open`.
-/
theorem static_confined_iff (openFile : String → Except E File) (sent : Bool) {request : Request}
    (hpublic : startsWith "/public" request.url = true) (s : Server n Rtc) :
    (Confined (filePath request.url) ∧
        ∀ e, openFile (filePath request.url) = .error e → s.Refuses openFile sent request) ↔
      Enters publicDir (segments (filePath request.url)) ∧
        ∃ file, openFile (filePath request.url) = .ok file := by
  rw [confined_iff]
  refine and_congr_right fun _ => ?_
  cases hfile : openFile (filePath request.url) with
  | ok file => simp
  | error e =>
      refine iff_of_false (fun hrefuses => ?_) (by simp)
      obtain ⟨res, hreceive, -⟩ := hrefuses e rfl
      rw [receive_missing hpublic hfile] at hreceive
      cases hreceive

/-- The request for a url, from a browser. -/
def get (url : String) : Request := { method := "GET", url, headers := [], body := some [] }

/-- A file system with one file. -/
def oneFile (path : String) (file : String) (asked : String) : Except Unit String :=
  if asked = path then .ok file else .error ()

/-- A server of one worker, which has just been started. -/
def started : Server 1 Script := .new fun _ => Script.addr

theorem static_confined_script :
    Confined (filePath "/public/whip/whip.js") ∧
      ∀ e, oneFile "./public/whip/whip.js" "script" (filePath "/public/whip/whip.js") = .error e →
        started.Refuses (oneFile "./public/whip/whip.js" "script") true
          (get "/public/whip/whip.js") := by
  have hpublic : startsWith "/public" (get "/public/whip/whip.js").url = true := by decide +kernel
  have hconfined : Confined (filePath "/public/whip/whip.js") := by decide +kernel
  have hfile : oneFile "./public/whip/whip.js" "script" (filePath "/public/whip/whip.js")
      = .ok "script" := by decide +kernel
  exact (static_confined_iff _ true hpublic started).mpr
    ⟨(confined_iff _).mp hconfined, "script", hfile⟩

/-- One url for a file that is nowhere near `./public`, and one for a file that is not there. -/
theorem static_confined_escape :
    (startsWith "/public" "/public/../../etc/passwd" = true ∧
      ¬ Confined (filePath "/public/../../etc/passwd") ∧
      started.receive (oneFile "./public/../../etc/passwd" "passwords") true
          (get "/public/../../etc/passwd")
        = .ok (some (fileResponse "/public/../../etc/passwd" "passwords"), started)) ∧
    startsWith "/public" "/public/none.js" = true ∧
      started.receive (oneFile "./public/whip/whip.js" "script") true (get "/public/none.js")
        = .error .openFile := by
  have hescape : startsWith "/public" (get "/public/../../etc/passwd").url = true := by
    decide +kernel
  have hpasswords : oneFile "./public/../../etc/passwd" "passwords"
      (filePath "/public/../../etc/passwd") = .ok "passwords" := by decide +kernel
  have hnone : startsWith "/public" (get "/public/none.js").url = true := by decide +kernel
  have hmissing : oneFile "./public/whip/whip.js" "script" (filePath "/public/none.js")
      = .error () := by decide +kernel
  exact ⟨⟨hescape, by decide +kernel, receive_file hescape hpasswords⟩, hnone,
    receive_missing hnone hmissing⟩

end Server

end MediaServer
