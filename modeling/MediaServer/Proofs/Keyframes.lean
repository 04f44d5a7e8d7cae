/-
Where a keyframe request a publisher is handed comes from.

Keyframe requests go the other way round: a viewer's engine raises one, the viewer says
it on the bus under the video track of its channel, and every worker hands it to the
sessions it has listed as sources of that track.  The chain is followed backwards again,
and its first two links are those of any bus event: what a session is handed was read by
its worker, on a track of the session's own channel.
-/
import MediaServer.Proofs.Relay

namespace MediaServer

open Lib

variable {Rtc : Type} {n : Nat} {ext : Extern Rtc} {admits : Worker Rtc → RtcConfig Rtc → Prop}

/-! ### From the engine to the bus -/

/-- A keyframe request in a session's actions is an event of a viewer's engine. -/
theorem Role.translate_keyframe {role : Role} {answer : Except ExternError Output}
    {trackId : UInt64} {kind : KeyframeRequestKind}
    (h : .requestKeyframeTrack trackId kind ∈ role.translate ext answer) :
    ∃ mid, answer = .ok (.event (.keyframeRequest mid kind)) ∧ role.side = .media ∧
      trackId = (role.trackIds ext).2 := by
  cases answer with
  | error e => cases h
  | ok o =>
      cases o with
      | timeout t => cases h
      | transmit send => cases List.mem_singleton.mp h
      | event e =>
          replace h : .requestKeyframeTrack trackId kind ∈ role.translateEvent ext e := h
          unfold translateEvent at h
          split at h
          · simp at h
          · simp at h
          · cases List.mem_singleton.mp h
          · cases List.mem_singleton.mp h
          · rename_i channel mid kind'
            cases List.mem_singleton.mp h
            exact ⟨mid, rfl, rfl, rfl⟩
          · cases h

/-- A broadcast keyframe request was raised by a viewer's engine, for its channel's video. -/
theorem ActionExplained.keyframe {actions : List Action} {t : Nat} {trackId : UInt64}
    {kind : KeyframeRequestKind}
    (h : ActionExplained ext actions t (.broadcast t (.trackKeyframeRequest trackId kind))) :
    ∃ req mid, Action.created t req ∈ actions ∧ req.path = "/whep/endpoint" ∧
      Action.polled t (.ok (.event (.keyframeRequest mid kind))) ∈ actions ∧
      trackId = trackIdBuilder ext (getHttpAuth req) .video := by
  obtain ⟨req, hreq, hpath, answer, hanswer, out, hout, hperformed⟩ := h
  have hrequest : out = .requestKeyframeTrack trackId kind := by
    cases out with
    | io action => cases action <;> cases hperformed
    | _ => cases hperformed <;> rfl
  subst hrequest
  obtain ⟨mid, rfl, hside, htrack⟩ := Role.translate_keyframe hout
  rw [Role.trackIds_ofRequest] at htrack
  exact ⟨req, mid, hreq, (Role.side_ofRequest hpath .media).mp hside, mem_answers.mp hanswer,
    htrack⟩

/-! ### From the bus to a session -/

/-- An input handed on while a list of sessions is served is the one they are served with. -/
theorem input_mem_inputTasks {now : Instant} {event event' : WebrtcTaskInput} {t : Nat} :
    ∀ {taskIds : List Nat} {w w' : Worker Rtc} {actions : List Action},
      forEach (Worker.inputTask ext now event) taskIds w = .ok (w', actions) →
      Action.input t event' ∈ actions →
      event' = event ∧ t ∈ taskIds ∧ ∃ c, w.tasks.lookup t = some c := by
  intro taskIds
  induction taskIds with
  | nil =>
      intro w w' actions h hmem
      cases h
      cases hmem
  | cons taskId rest ih =>
      intro w w' actions h hmem
      obtain ⟨v, acts, acts', hfirst, hrest, rfl⟩ := forEach_cons_ok.mp h
      rcases List.mem_append.mp hmem with hmem | hmem
      · rcases Worker.inputTask_ok hfirst with ⟨-, -, rfl⟩ | ⟨c, b, task, hc, -, -, rfl⟩
        · cases hmem
        · simp only [List.mem_cons, Action.input.injEq, Option.mem_toList, Option.map_eq_some_iff,
            reduceCtorEq, and_false, exists_false, or_false] at hmem
          obtain ⟨rfl, rfl⟩ := hmem
          exact ⟨rfl, List.mem_cons_self, c, hc⟩
      · obtain ⟨heq, hin, c', hc'⟩ := ih hrest hmem
        obtain ⟨c, hc, -, -⟩ := (Worker.inputTask_feeds hfirst).1.lookup hc'
        exact ⟨heq, List.mem_cons_of_mem _ hin, c, hc⟩

/-- Bus events are handed on in one kind of step only. -/
theorem Step.handed {w w' : Worker Rtc} {actions : List Action} (hs : Step ext admits w actions w')
    {t : Nat} {event : WebrtcTaskInput} {ev : BusEvent} (hmem : Action.input t event ∈ actions)
    (hev : event.busEvent = some ev) : ∃ now, w.handleBusEvent ext ev now = .ok (w', actions) := by
  cases hs with
  | busEvent ev' now hrun =>
      obtain ⟨acts, hinputs, rfl⟩ := Worker.handleBusEvent_ok hrun
      have hacts : Action.input t event ∈ acts := by simpa using hmem
      obtain ⟨rfl, -⟩ := input_mem_inputTasks hinputs hacts
      rw [(recipients_topic ev' w).2] at hev
      cases hev
      exact ⟨now, hrun⟩
  | input now src dst buf taskId hrun =>
      rcases Worker.inputTask_ok hrun with ⟨-, -, rfl⟩ | ⟨c, b, task, -, -, -, rfl⟩
      · cases hmem
      · simp only [List.mem_cons, Action.input.injEq, Option.mem_toList, Option.map_eq_some_iff,
          reduceCtorEq, and_false, exists_false, or_false] at hmem
        obtain ⟨-, rfl⟩ := hmem
        cases hev
  | pop hl hpop =>
      rcases mem_popActions.mp hmem with ⟨answer, -, heq⟩ | ⟨o, -, heq⟩
      · cases heq
      · cases o with
        | io action => cases action <;> cases heq
        | _ => cases heq
  | tick order now hrun =>
      obtain ⟨-, rfl⟩ := Worker.processTick_ok hrun
      cases hmem
  | remove taskId hrun =>
      obtain ⟨c, -, -, rfl⟩ := Worker.removeTask_ok.mp hrun
      cases List.mem_singleton.mp hmem
  | takeEnded => cases hmem
  | notFound req => cases List.mem_singleton.mp hmem
  | create hopen hadmits => cases List.mem_singleton.mp hmem
  | bind hremote hufrag => cases List.mem_singleton.mp hmem

/-- What a worker did before it handed a session a bus event accounts for that. -/
def HandedExplained (ext : Extern Rtc) (actions : List Action) (t : Nat) (ev : BusEvent) : Prop :=
  ∃ req kind, Action.created t req ∈ actions ∧
    (req.path = match ev with
      | .trackMedia _ => "/whep/endpoint"
      | .trackKeyframeRequest _ _ => "/whip/endpoint") ∧
    Action.read ev ∈ actions ∧ ev.topic.2 = trackIdBuilder ext (getHttpAuth req) kind

/-- A listed session has joined the track it is listed for, which is one of its own two. -/
theorem History.handed {actions before : List Action} {w : Worker Rtc} (h : History ext actions w)
    (hlisted : Listed w) {t : Nat} {c : TaskContainer Rtc} {ev : BusEvent}
    (hc : w.tasks.lookup t = some c) (hin : t ∈ (w.recipients ev).1)
    (hread : Action.read ev ∈ before) : HandedExplained ext (actions ++ before) t ev := by
  have hexp := h.live t c hc
  obtain ⟨req, hreq, hpath, hrole⟩ := hexp.created
  rw [(recipients_topic ev w).1] at hin
  have hjoined : ev.topic.2 ∈ c.task.role.joins ext ev.topic.1 (answers t actions) := by
    rw [← hexp.joins ev.topic.1]
    exact List.mem_append_left _ ((hlisted.mem_iff ev.topic.1 hc ev.topic.2).mp hin)
  obtain ⟨hside, htrack⟩ := Role.mem_joins hjoined
  rw [hrole] at hside
  rw [hrole, Role.trackIds_ofRequest] at htrack
  have hendpoint := (Role.side_ofRequest hpath ev.topic.1).mp hside
  have hkind : ∃ kind, ev.topic.2 = trackIdBuilder ext (getHttpAuth req) kind := by
    rcases htrack with htrack | htrack
    · exact ⟨.audio, htrack⟩
    · exact ⟨.video, htrack⟩
  obtain ⟨kind, hkind⟩ := hkind
  refine ⟨req, kind, List.mem_append_left _ hreq, ?_, List.mem_append_right _ hread, hkind⟩
  cases ev with
  | trackMedia media => exact hendpoint
  | trackKeyframeRequest trackId kind => exact hendpoint

/-- **Every bus event a session was handed is accounted for by what its worker did before.** -/
theorem Worker.Reaches.handed {addr : SocketAddr} {actions pre post : List Action}
    {w : Worker Rtc} (h : Worker.Reaches ext admits addr actions w) {t : Nat}
    {event : WebrtcTaskInput} {ev : BusEvent} (hev : event.busEvent = some ev)
    (hsplit : actions = pre ++ .input t event :: post) : HandedExplained ext pre t ev := by
  refine Emits.causal (I := fun os w => Bounded w ∧ Listed w ∧ History ext os w)
    (C := fun os a => ∀ t event ev, a = .input t event → event.busEvent = some ev →
      HandedExplained ext os t ev)
    ?_ ?_ h.steps ⟨bounded_new addr, listed_new addr, history_new addr⟩ pre _ post hsplit
    t event ev rfl hev
  · rintro os v bs v' ⟨hb, hl, hh⟩ hs
    exact ⟨hb.step hs, hl.step hb hs, hh.step hb hs⟩
  · rintro os v bs v' ⟨-, hl, hh⟩ hs pre _ post hbs t event ev rfl hev
    have hmem : Action.input t event ∈ bs := by simp [hbs]
    obtain ⟨now, hrun⟩ := hs.handed hmem hev
    obtain ⟨acts, hinputs, rfl⟩ := Worker.handleBusEvent_ok hrun
    have hacts : Action.input t event ∈ acts := by simpa using hmem
    obtain ⟨-, hin, c, hc⟩ := input_mem_inputTasks hinputs hacts
    -- The turn begins by reading the event.
    cases pre with
    | nil => cases hbs
    | cons b pre =>
        obtain ⟨rfl, -⟩ := List.cons.inj hbs
        exact hh.handed hl hc hin List.mem_cons_self

/-! ### From end to end -/

/--
**A keyframe request reaches the publishers of the viewer's channel and nobody else.**  In
any run of any number of workers, where the track ids of the channels in use do not collide:
a session that is handed a keyframe request is a publisher, opened by one request, and the
track is the video track of that request's channel, which is the one the publisher acts on;
the request was raised before by the engine of a viewer of the same channel, broadcast by
that viewer, and read by the publisher's worker.
-/
theorem keyframe_requests_traced {localAddrs : Fin n → SocketAddr} {entries : List (Entry n)}
    {s : Server n Rtc} (h : Server.Reaches ext localAddrs entries s)
    (hdistinct : TrackIdsDistinct ext entries) {pre post : List (Entry n)} {v : Fin n} {t : Nat}
    {trackId : UInt64} {kind : KeyframeRequestKind}
    (hsplit : entries = pre ++ (v, .input t (.requestKeyframeTrack trackId kind)) :: post) :
    ∃ req, (v, Action.created t req) ∈ pre ∧ req.path = "/whip/endpoint" ∧
      (∀ req', (v, Action.created t req') ∈ pre → req' = req) ∧
      trackId = trackIdBuilder ext (getHttpAuth req) .video ∧
      ∃ u t' req' mid, (u, Action.created t' req') ∈ pre ∧ req'.path = "/whep/endpoint" ∧
        getHttpAuth req' = getHttpAuth req ∧
        (u, Action.polled t' (.ok (.event (.keyframeRequest mid kind)))) ∈ pre ∧
        (u, Action.broadcast t' (.trackKeyframeRequest trackId kind)) ∈ pre ∧
        (v, Action.read (.trackKeyframeRequest trackId kind)) ∈ pre := by
  have hjournal := h.journal
  have hpre : ∀ e ∈ pre, e ∈ entries := fun e he => hsplit ▸ List.mem_append_left _ he
  -- From the input back to the read, in the worker of the publisher.
  have hpublisher := (congrArg (actionsOf v) hsplit).trans (actionsOf_split v pre post _)
  obtain ⟨req, kind', hreq, hpath, hread, htrack⟩ := (hjournal.worker v).handed rfl hpublisher
  replace htrack : trackId = trackIdBuilder ext (getHttpAuth req) kind' := htrack
  have hread' := mem_actionsOf.mp hread
  -- From the read back to the broadcast, over the bus.
  obtain ⟨pre₁, post₁, hpre₁⟩ := List.append_of_mem hread'
  obtain ⟨u, t', hbroadcast⟩ := h.read_broadcast
    (by rw [hsplit, hpre₁, List.append_assoc, List.cons_append])
  have hbroadcast' : (u, Action.broadcast t' (.trackKeyframeRequest trackId kind)) ∈ pre :=
    hpre₁ ▸ List.mem_append_left _ hbroadcast
  -- From the broadcast back to the event, in the worker of the viewer.
  obtain ⟨pre₂, post₂, hpre₂⟩ := List.append_of_mem hbroadcast'
  have hviewer : actionsOf u entries = actionsOf u pre₂ ++
      .broadcast t' (.trackKeyframeRequest trackId kind) ::
      actionsOf u (post₂ ++ (v, .input t (.requestKeyframeTrack trackId kind)) :: post) := by
    rw [hsplit, hpre₂, List.append_assoc, List.cons_append, actionsOf_split]
  obtain ⟨req', mid, hreq', hpath', hpolled, htrack'⟩ :=
    ((hjournal.worker u).explained hviewer rfl).keyframe
  have hsub : ∀ e ∈ pre₂, e ∈ pre := fun e he => hpre₂ ▸ List.mem_append_left _ he
  have hcreated := mem_actionsOf.mp hreq
  have hcreated' := hsub _ (mem_actionsOf.mp hreq')
  -- Both ends name the same track, so the same channel, and it is the video's.
  obtain ⟨hchannel, -⟩ := hdistinct _ (mem_channels (hpre _ hcreated')) _
    (mem_channels (hpre _ hcreated)) _ _ (htrack'.symm.trans htrack)
  refine ⟨req, hcreated, hpath, fun req'' hreq'' => ?_, hchannel ▸ htrack', u, t', req', mid,
    hcreated', hpath', hchannel, hsub _ (mem_actionsOf.mp hpolled), hbroadcast', hread'⟩
  exact (hjournal.worker v).created_unique (mem_actionsOf.mpr (hpre _ hreq''))
    (mem_actionsOf.mpr (hpre _ hcreated))

open Script in
/-- A publisher at `w`, a viewer at `v`, and the viewer's engine wants a keyframe. -/
def Script.wanting (v w : Fin n) : List (Label n Script) :=
  [.spawn w, .spawn v,
    .arrive (request 0 "/whip/endpoint" [0x76]), .insert,
    .arrive (request 0 "/whep/endpoint" [0x76]), .insert,
    .nextPhase w,
    .turn w (.request (arrival 0 "/whip/endpoint" [0x76] "abc" [.event .connected])),
    .reply w, .nextPhase w, .turn w (.tick [0] 0), .startPop w [0] 0, .turn w (.pop 0 0),
    .nextPhase w, .turn w .popEnded, .nextPhase w,
    .nextPhase v,
    .turn v (.request (arrival 1 "/whep/endpoint" [0x76] "def"
      [.event (.keyframeRequest "v" .pli)])),
    .reply v, .lock v, .acquire v, .broadcast v,
    .turn w (.busEvent (.trackKeyframeRequest 9 .pli) 0)]

/-- The request the publisher is handed is the one the viewer's engine raised. -/
theorem keyframe_requests_traced_wanting :
    ∃ s pre post, runLabels (Server.step Script.engine) (Server.new fun _ => Script.addr)
        (Script.wanting (1 : Fin 2) 0) = some s ∧
      Server.record Script.engine (Server.new fun _ => Script.addr) (Script.wanting (1 : Fin 2) 0)
        = pre ++ (0, .input 0 (.requestKeyframeTrack 9 .pli)) :: post ∧
      ∃ u t mid, (u, Action.polled t (.ok (.event (.keyframeRequest mid .pli)))) ∈ pre := by
  have hend : (runLabels (Server.step Script.engine) (Server.new fun _ => Script.addr)
      (Script.wanting (1 : Fin 2) 0)).isSome = true := by
    decide +kernel
  obtain ⟨s, hs⟩ := Option.isSome_iff_exists.mp hend
  have hchannels : ∀ channel ∈ channels (Server.record Script.engine
      (Server.new fun _ => Script.addr) (Script.wanting (1 : Fin 2) 0)), channel = "demo" := by
    decide +kernel
  have hdelivered : (actionsOf 0 (Server.record Script.engine (Server.new fun _ => Script.addr)
      (Script.wanting (1 : Fin 2) 0))).filterMap (Action.delivered 0)
        = [.trackKeyframeRequest 9 .pli] := by
    decide +kernel
  obtain ⟨a, ha, hinput⟩ := List.mem_filterMap.mp (hdelivered ▸ List.mem_cons_self)
  obtain rfl : a = .input 0 (.requestKeyframeTrack 9 .pli) := by
    cases a with
    | input t event =>
        simp only [Action.delivered] at hinput
        split at hinput
        · subst t
          cases event <;> cases hinput
          rfl
        · cases hinput
    | _ => cases hinput
  obtain ⟨pre, post, hsplit⟩ := List.append_of_mem (mem_actionsOf.mp ha)
  obtain ⟨req, -, -, -, -, u, t, req', mid, -, -, -, hpolled, -⟩ := keyframe_requests_traced
    (Server.reaches_of_run _ hs) (Script.demo_distinct hchannels) hsplit
  exact ⟨s, pre, post, hs, hsplit, u, t, mid, hpolled⟩

end MediaServer
