/-
Who meets whom.

The headers of a request are collected into a map whose keys keep the case in which the
client sent them, and the channel is looked up under two spellings of the name.  So the
token of a request names its channel if its field is spelled in one of them, and with any
other spelling the request ends up in the channel of those that have no token.

A session keeps the channel of its request, and what it publishes or subscribes to when
it is connected are the two tracks of that channel; so two sessions whose tokens name
their channels meet if the tokens are the same.
-/
import MediaServer.Main
import MediaServer.Proofs.Routing

namespace MediaServer

open Lib

variable {Rtc : Type} {ext : Extern Rtc} {admits : Worker Rtc → RtcConfig Rtc → Prop}

/-! ### The header -/

/-- Whether a name is `Authorization`, in whatever case. -/
def isAuthorization (name : String) : Bool :=
  name.toList.map Char.toLower == "authorization".toList

/-- The values of the `Authorization` fields. -/
def Request.tokens (request : Request) : List String :=
  (request.headers.filter fun field => isAuthorization field.1).map Prod.snd

/-- There is a field of that name in one of the two spellings that are looked up. -/
def Request.Spelled (request : Request) : Prop :=
  ∃ field ∈ request.headers, field.1 = "Authorization" ∨ field.1 = "authorization"

instance (request : Request) : Decidable request.Spelled :=
  inferInstanceAs (Decidable (∃ field ∈ request.headers, _))

variable {request : Request} (reqId : Nat) (body : Bytes)

theorem isAuthorization_spelled {name : String}
    (h : name = "Authorization" ∨ name = "authorization") :
    isAuthorization name = true := by
  rcases h with rfl | rfl <;> decide +kernel

/-- What is looked up under one of the two spellings is a token. -/
theorem lookup_token {name value : String} (hname : name = "Authorization" ∨ name = "authorization")
    (h : (request.toHttpRequest reqId body).headers.lookup name = some value) :
    value ∈ request.tokens := by
  have hmem : (name, value) ∈ request.headers := Table.mem_of_lookup_ofList h
  have hfilter : (name, value) ∈ request.headers.filter fun field => isAuthorization field.1 :=
    List.mem_filter.mpr ⟨hmem, isAuthorization_spelled hname⟩
  exact List.mem_map_of_mem hfilter

theorem lookup_eq_none {name : String} :
    (request.toHttpRequest reqId body).headers.lookup name = none ↔
      ∀ field ∈ request.headers, field.1 ≠ name :=
  Table.lookup_ofList_eq_none

/-- With a field that is looked up, the channel is a token. -/
theorem channel_spelled (h : request.Spelled) :
    getHttpAuth (request.toHttpRequest reqId body) ∈ request.tokens := by
  unfold getHttpAuth
  split
  · rename_i auth hauth
    exact lookup_token reqId body (.inl rfl) hauth
  · rename_i hupper
    split
    · rename_i auth hauth
      exact lookup_token reqId body (.inr rfl) hauth
    · rename_i hlower
      obtain ⟨field, hfield, hname⟩ := h
      rcases hname with hname | hname
      · exact absurd hname ((lookup_eq_none reqId body).mp hupper field hfield)
      · exact absurd hname ((lookup_eq_none reqId body).mp hlower field hfield)

/-- With none, it is `demo`. -/
theorem channel_not_spelled (h : ¬ request.Spelled) :
    getHttpAuth (request.toHttpRequest reqId body) = "demo" := by
  have hupper : (request.toHttpRequest reqId body).headers.lookup "Authorization" = none :=
    (lookup_eq_none reqId body).mpr fun field hfield hname => h ⟨field, hfield, .inl hname⟩
  have hlower : (request.toHttpRequest reqId body).headers.lookup "authorization" = none :=
    (lookup_eq_none reqId body).mpr fun field hfield hname => h ⟨field, hfield, .inr hname⟩
  rw [getHttpAuth, hupper, hlower]

/-- The one token of a request is its channel, if it is looked up at all. -/
theorem channel_iff {token : String} (h : request.tokens = [token]) :
    getHttpAuth (request.toHttpRequest reqId body) = token ↔ token = "demo" ∨ request.Spelled := by
  by_cases hspelled : request.Spelled
  · have hmem := channel_spelled reqId body hspelled
    rw [h, List.mem_singleton] at hmem
    exact iff_of_true hmem (.inr hspelled)
  · rw [channel_not_spelled reqId body hspelled]
    simp [hspelled, eq_comm]

/-- Who has no token that is looked up is in `demo`, and nobody else who does not say so. -/
theorem channel_demo (h : "demo" ∉ request.tokens) :
    getHttpAuth (request.toHttpRequest reqId body) = "demo" ↔ ¬ request.Spelled := by
  refine ⟨fun hdemo hspelled => h ?_, channel_not_spelled reqId body⟩
  rw [← hdemo]
  exact channel_spelled reqId body hspelled

/-! ### Sessions -/

/-- What a session has joined or is still to join, on one side. -/
def Side.joined (side : Side) (c : TaskContainer Rtc) : List UInt64 :=
  side.tracks c ++ c.task.core.outputs.filterMap side.joins

/-- A session that is connected joins the two tracks of the channel of its request. -/
theorem Worker.Reaches.mem_joined {addr : SocketAddr} {actions : List Action} {w : Worker Rtc}
    (h : Worker.Reaches ext admits addr actions w) {t : Nat} {c : TaskContainer Rtc}
    {req : HttpRequest} (hreq : Action.created t req ∈ actions) (hc : w.tasks.lookup t = some c)
    (side : Side) (trackId : UInt64) :
    trackId ∈ side.joined c ↔
      (∃ answer ∈ answers t actions, isConnected answer = true) ∧ c.task.role.side = side ∧
        ∃ kind, trackId = trackIdBuilder ext (getHttpAuth req) kind := by
  have hexplained := h.history.live t c hc
  obtain ⟨req', hreq', -, hrole⟩ := hexplained.created
  obtain rfl := h.created_unique hreq hreq'
  have hjoined : side.joined c = c.task.role.joins ext side (answers t actions) :=
    hexplained.joins side
  have hids : ∀ {id : UInt64}, id ∈ [(c.task.role.trackIds ext).1, (c.task.role.trackIds ext).2] ↔
      ∃ kind, id = trackIdBuilder ext (getHttpAuth req) kind := by
    intro id
    rw [hrole, Role.trackIds_ofRequest, List.mem_pair]
    constructor
    · rintro (rfl | rfl)
      · exact ⟨.audio, rfl⟩
      · exact ⟨.video, rfl⟩
    · rintro ⟨kind, rfl⟩
      cases kind with
      | audio => exact .inl rfl
      | video => exact .inr rfl
  rw [hjoined, Role.joins, List.mem_flatMap]
  constructor
  · rintro ⟨answer, hanswer, hmem⟩
    rw [Role.translate_joined] at hmem
    split at hmem
    · rename_i hconnects
      exact ⟨⟨answer, hanswer, hconnects.1⟩, hconnects.2, hids.mp hmem⟩
    · cases hmem
  · rintro ⟨⟨answer, hanswer, hconnected⟩, hside, hkind⟩
    refine ⟨answer, hanswer, ?_⟩
    rw [Role.translate_joined, if_pos ⟨hconnected, hside⟩]
    exact hids.mpr hkind

/--
The sessions of the two requests meet, at whatever workers they are: once both are
connected, what the one publishes is what the other subscribes to.
-/
def Meet (ext : Extern Rtc) (admits : Worker Rtc → RtcConfig Rtc → Prop) (req req' : HttpRequest) :
    Prop :=
  ∀ (addr addr' : SocketAddr) (actions actions' : List Action) (w w' : Worker Rtc) (t t' : Nat)
    (c c' : TaskContainer Rtc),
    Worker.Reaches ext admits addr actions w → Worker.Reaches ext admits addr' actions' w' →
    Action.created t req ∈ actions → w.tasks.lookup t = some c →
    Action.created t' req' ∈ actions' → w'.tasks.lookup t' = some c' →
    (∃ answer ∈ answers t actions, isConnected answer = true) →
    (∃ answer ∈ answers t' actions', isConnected answer = true) →
    ∀ trackId, trackId ∈ Side.keyframe.joined c ↔ trackId ∈ Side.media.joined c'

/-- A publisher and a viewer in one channel meet. -/
theorem meet_of_channel {req req' : HttpRequest} (hwhip : req.path = "/whip/endpoint")
    (hwhep : req'.path = "/whep/endpoint") (h : getHttpAuth req = getHttpAuth req') :
    Meet ext admits req req' := by
  intro addr addr' actions actions' w w' t t' c c' hw hw' hreq hc hreq' hc' hconn hconn' trackId
  have hpublisher : c.task.role.side = .keyframe := by
    obtain ⟨req₁, hreq₁, -, hrole⟩ := (hw.history.live t c hc).created
    obtain rfl := hw.created_unique hreq hreq₁
    rw [hrole]
    exact (Role.side_ofRequest (.inl hwhip) .keyframe).mpr hwhip
  have hviewer : c'.task.role.side = .media := by
    obtain ⟨req₁, hreq₁, -, hrole⟩ := (hw'.history.live t' c' hc').created
    obtain rfl := hw'.created_unique hreq' hreq₁
    rw [hrole]
    exact (Role.side_ofRequest (.inr hwhep) .media).mpr hwhep
  rw [hw.mem_joined hreq hc, hw'.mem_joined hreq' hc', h]
  simp [hconn, hconn', hpublisher, hviewer]

/-- Nobody with a token is in `demo` by default, if his field is one that is looked up. -/
theorem demo_iff (h : "demo" ∉ request.tokens) :
    (getHttpAuth (request.toHttpRequest reqId body) = "demo" → request.tokens = []) ↔
      request.tokens = [] ∨ request.Spelled := by
  rw [channel_demo reqId body h]
  by_cases hspelled : request.Spelled <;> simp [hspelled]

/--
**Who has the same token meets**, in the channel of that name, if both fields are spelled
in one of the two ways that are looked up, and, the channel `demo` apart, only then; and
who is in `demo` without having said so has no field at all, under the same condition.
-/
theorem same_token_meets {publisher viewer : Request} {token : String}
    (htoken : publisher.tokens = [token]) (htoken' : viewer.tokens = [token])
    (hwhip : publisher.url = "/whip/endpoint") (hwhep : viewer.url = "/whep/endpoint")
    (reqId reqId' : Nat) (body body' : Bytes) (ext : Extern Rtc)
    (admits : Worker Rtc → RtcConfig Rtc → Prop) :
    (getHttpAuth (publisher.toHttpRequest reqId body) = token ∧
        getHttpAuth (viewer.toHttpRequest reqId' body') = token ∧
        Meet ext admits (publisher.toHttpRequest reqId body) (viewer.toHttpRequest reqId' body') ↔
      token = "demo" ∨ publisher.Spelled ∧ viewer.Spelled) ∧
    ∀ (request : Request) (reqId : Nat) (body : Bytes), "demo" ∉ request.tokens →
      ((getHttpAuth (request.toHttpRequest reqId body) = "demo" → request.tokens = []) ↔
        request.tokens = [] ∨ request.Spelled) := by
  refine ⟨?_, fun request reqId body hdemo => demo_iff reqId body hdemo⟩
  rw [or_and_left, ← channel_iff reqId body htoken, ← channel_iff reqId' body' htoken']
  constructor
  · rintro ⟨hpublisher, hviewer, -⟩
    exact ⟨hpublisher, hviewer⟩
  · rintro ⟨hpublisher, hviewer⟩
    exact ⟨hpublisher, hviewer, meet_of_channel hwhip hwhep (hpublisher.trans hviewer.symm)⟩

/-- A request whose one `Authorization` field, spelled like this, comes after another field. -/
def Script.tokenRequest (url name : String) : Request :=
  { method := "POST"
    url
    headers := [("Content-Type", "application/sdp"), (name, "abc")]
    body := some [0x76] }

open Script in
/-- A publisher and a viewer, each with its own spelling. -/
theorem same_token_meets_spelled :
    let req := (tokenRequest "/whip/endpoint" "Authorization").toHttpRequest 0 [0x76]
    let req' := (tokenRequest "/whep/endpoint" "authorization").toHttpRequest 1 [0x76]
    getHttpAuth req = "abc" ∧ getHttpAuth req' = "abc" ∧ Meet engine FreshUfrag req req' := by
  have htoken : (tokenRequest "/whip/endpoint" "Authorization").tokens = ["abc"] := by
    decide +kernel
  have htoken' : (tokenRequest "/whep/endpoint" "authorization").tokens = ["abc"] := by
    decide +kernel
  have hspelled : (tokenRequest "/whip/endpoint" "Authorization").Spelled ∧
      (tokenRequest "/whep/endpoint" "authorization").Spelled := by decide +kernel
  exact (same_token_meets htoken htoken' rfl rfl 0 1 [0x76] [0x76] engine FreshUfrag).1.mpr
    (.inr hspelled)

open Script in
/-- A viewer that shouts is in the channel of those who have no token. -/
theorem same_token_meets_shouted :
    (tokenRequest "/whip/endpoint" "Authorization").tokens = ["abc"] ∧
      (tokenRequest "/whep/endpoint" "AUTHORIZATION").tokens = ["abc"] ∧
      getHttpAuth ((tokenRequest "/whip/endpoint" "Authorization").toHttpRequest 0 [0x76]) = "abc" ∧
      getHttpAuth ((tokenRequest "/whep/endpoint" "AUTHORIZATION").toHttpRequest 1 [0x76])
        = "demo" := by
  decide +kernel

end MediaServer
