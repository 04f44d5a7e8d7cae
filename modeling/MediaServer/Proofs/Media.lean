/-
Where a packet a viewer writes comes from.

A packet goes from a publisher's engine into a broadcast, over the bus, and out through
a viewer's engine, and nobody on the way looks at more of it than its track id and its
payload type.  The publisher chooses the track by the payload type, and the viewer its
media section by the same test, made again.  The chain is followed backwards here, one
link at a time: a write goes back to an event its worker read and to a track its
session had joined, the event to a broadcast, the broadcast to a packet the publisher's
engine gave.  The two ends meet in the track id, which stands for the channel and the
kind as long as no two pairs in use collide.
-/
import MediaServer.Proofs.Routing

namespace MediaServer

open Lib

variable {Rtc : Type} {n : Nat} {ext : Extern Rtc} {admits : Worker Rtc → RtcConfig Rtc → Prop}

/-- The kind both session types take a packet for. -/
def RtpHeader.kind (header : RtpHeader) : MediaKind :=
  if header.payloadType = 111 then .audio else .video

/-- The media section a session has for a kind. -/
def TaskCore.mid (task : TaskCore Rtc) : MediaKind → Option Mid
  | .audio => task.audioMid
  | .video => task.videoMid

/-! ### The first link: from the engine to the bus -/

/-- Media in a session's actions is a packet of a publisher's engine, on the track of its kind. -/
theorem Role.translate_media {role : Role} {answer : Except ExternError Output}
    {media : TrackMedia} (h : .trackMedia media ∈ role.translate ext answer) :
    ∃ rtp, answer = .ok (.event (.rtpPacket rtp)) ∧ role.side = .keyframe ∧
      media = .fromRaw (match rtp.header.kind with
        | .audio => (role.trackIds ext).1
        | .video => (role.trackIds ext).2) rtp := by
  unfold translate at h
  split at h
  · cases h
  · cases h
  · cases List.mem_singleton.mp h
  · rename_i e
    unfold translateEvent at h
    split at h
    · simp at h
    · simp at h
    · cases List.mem_singleton.mp h
    · rename_i audio video rtp
      refine ⟨rtp, rfl, rfl, ?_⟩
      cases List.mem_singleton.mp h
      unfold RtpHeader.kind
      split <;> rfl
    · cases List.mem_singleton.mp h
    · cases h

/-- The track of a kind, for a session of either role. -/
theorem Role.trackId_ofRequest (req : HttpRequest) (kind : MediaKind) :
    (match kind with
      | .audio => ((Role.ofRequest ext req).trackIds ext).1
      | .video => ((Role.ofRequest ext req).trackIds ext).2)
      = trackIdBuilder ext (getHttpAuth req) kind := by
  rw [trackIds_ofRequest]
  cases kind <;> rfl

/-- A broadcast of media is a packet that a publisher's engine gave, otherwise unchanged. -/
theorem ActionExplained.media {actions : List Action} {t : Nat} {media : TrackMedia}
    (h : ActionExplained ext actions t (.broadcast t (.trackMedia media))) :
    ∃ req rtp, Action.created t req ∈ actions ∧ req.path = "/whip/endpoint" ∧
      Action.polled t (.ok (.event (.rtpPacket rtp))) ∈ actions ∧
      media = .fromRaw (trackIdBuilder ext (getHttpAuth req) rtp.header.kind) rtp := by
  obtain ⟨req, hreq, hpath, answer, hanswer, out, hout, hperformed⟩ := h
  have hmedia : out = .trackMedia media := by
    cases out with
    | io action => cases action <;> cases hperformed
    | _ => cases hperformed <;> rfl
  subst hmedia
  obtain ⟨rtp, rfl, hside, heq⟩ := Role.translate_media hout
  rw [Role.trackId_ofRequest] at heq
  exact ⟨req, rtp, hreq, (Role.side_ofRequest hpath .keyframe).mp hside, mem_answers.mp hanswer,
    heq⟩

/-! ### The last link: from the bus to the viewer's engine -/

/-- A viewer writes a packet to the section of the kind it takes it for. -/
theorem WhepServerTask.rtpWrite_eq (media : TrackMedia) (task : WhepServerTask Rtc) :
    task.rtpWrite ext media
      = (task.toTaskCore.mid media.header.kind).bind fun mid =>
          (ext.streamTxByMid task.rtc mid).map fun stream =>
            (mid, stream, media.toWrite (media.header.kind = .video)) := by
  unfold rtpWrite RtpHeader.kind
  by_cases haudio : media.header.payloadType = 111
  · simp only [haudio, if_true]
    cases hmid : task.audioMid <;> simp [TaskCore.mid, hmid]
  · simp only [haudio, if_false]
    cases hmid : task.videoMid <;> simp [TaskCore.mid, hmid]

theorem ComposeTask.rtpWrite_whep (media : TrackMedia) (task : WhepServerTask Rtc) :
    (ComposeTask.whep task).rtpWrite ext (.trackMedia media)
      = (task.toTaskCore.mid media.header.kind).bind fun mid =>
          (ext.streamTxByMid task.rtc mid).map fun _ =>
            (mid, media.toWrite (media.header.kind = .video)) := by
  rw [rtpWrite, WhepServerTask.rtpWrite_eq]
  cases task.toTaskCore.mid media.header.kind with
  | none => rfl
  | some mid =>
      rw [Option.bind_some, Option.bind_some]
      cases ext.streamTxByMid task.rtc mid <;> rfl

/-- What a session writes is the packet it was handed, to the section of the packet's kind. -/
theorem ComposeTask.rtpWrite_some {event : WebrtcTaskInput} {task : ComposeTask Rtc} {mid : Mid}
    {write : RtpWrite} (h : task.rtpWrite ext event = some (mid, write)) :
    ∃ media nackable, event = .trackMedia media ∧ write = media.toWrite nackable ∧
      task.core.mid media.header.kind = some mid := by
  cases task with
  | whip task => cases event <;> cases h
  | whep task =>
      cases event with
      | trackMedia media =>
          rw [rtpWrite_whep] at h
          obtain ⟨mid', hmid, hwrite⟩ := Option.bind_eq_some_iff.mp h
          obtain ⟨stream, -, heq⟩ := Option.map_eq_some_iff.mp hwrite
          cases heq
          exact ⟨media, _, rfl, rfl, hmid⟩
      | _ => cases h

theorem Explained.mid {actions : List Action} {t : Nat} {c : TaskContainer Rtc}
    (h : Explained ext actions t c) {kind : MediaKind} {mid : Mid}
    (hmid : c.task.core.mid kind = some mid) :
    Action.polled t (.ok (.event (.mediaAdded mid kind))) ∈ actions := by
  cases kind with
  | audio => exact mem_answers.mp (h.audioMid mid hmid)
  | video => exact mem_answers.mp (h.videoMid mid hmid)

/-- A packet written while an event is handed on was written by a session it was handed to. -/
theorem mem_inputTasks {now : Instant} {event : WebrtcTaskInput} {t : Nat} {mid : Mid}
    {write : RtpWrite} :
    ∀ {taskIds : List Nat} {w w' : Worker Rtc} {actions : List Action},
      forEach (Worker.inputTask ext now event) taskIds w = .ok (w', actions) →
      Action.writeRtp t mid write ∈ actions →
      t ∈ taskIds ∧ ∃ c task, w.tasks.lookup t = some c ∧ c.task.Quiet task ∧
        task.rtpWrite ext event = some (mid, write) := by
  intro taskIds
  induction taskIds with
  | nil =>
      intro w w' actions h hmem
      cases h
      cases hmem
  | cons taskId rest ih =>
      intro w w' actions h hmem
      obtain ⟨v, acts, acts', hfirst, hrest, rfl⟩ := forEach_cons_ok.mp h
      rcases List.mem_append.mp hmem with hmem | hmem
      · rcases Worker.inputTask_ok hfirst with ⟨-, -, rfl⟩ | ⟨c, b, task, hc, -, -, rfl⟩
        · cases hmem
        · simp only [List.mem_cons, reduceCtorEq, Option.mem_toList, Option.map_eq_some_iff,
            false_or] at hmem
          obtain ⟨r, hr, heq⟩ := hmem
          cases heq
          exact ⟨List.mem_cons_self, c, c.task, hc, .refl _, hr⟩
      · obtain ⟨hin, c', task, hc', hq, hw⟩ := ih hrest hmem
        -- The sessions served before have changed nothing that matters here.
        obtain ⟨c, hc, -, hq'⟩ := (Worker.inputTask_feeds hfirst).1.lookup hc'
        exact ⟨List.mem_cons_of_mem _ hin, c, task, hc, hq'.trans hq, hw⟩

/-- What a worker did before a session wrote a packet accounts for the packet. -/
def WriteExplained (ext : Extern Rtc) (actions : List Action) (t : Nat) (mid : Mid)
    (write : RtpWrite) : Prop :=
  ∃ req media nackable kind, Action.created t req ∈ actions ∧ req.path = "/whep/endpoint" ∧
    Action.read (.trackMedia media) ∈ actions ∧
    media.trackId = trackIdBuilder ext (getHttpAuth req) kind ∧
    write = media.toWrite nackable ∧
    Action.polled t (.ok (.event (.mediaAdded mid media.header.kind))) ∈ actions

/-- Packets are written in one kind of step only. -/
theorem Step.write {w w' : Worker Rtc} {actions : List Action} (hs : Step ext admits w actions w')
    {t : Nat} {mid : Mid} {write : RtpWrite} (hmem : Action.writeRtp t mid write ∈ actions) :
    ∃ ev now, w.handleBusEvent ext ev now = .ok (w', actions) := by
  cases hs with
  | busEvent ev now hrun => exact ⟨ev, now, hrun⟩
  | input now src dst buf taskId hrun =>
      rcases Worker.inputTask_ok hrun with ⟨-, -, rfl⟩ | ⟨c, b, task, -, -, -, rfl⟩
      · cases hmem
      · have hnone : c.task.rtpWrite ext (.io (.udpSocketRecv src dst buf)) = none := by
          cases c.task <;> rfl
        simp [hnone] at hmem
  | pop hl hpop =>
      rcases mem_popActions.mp hmem with ⟨answer, -, heq⟩ | ⟨o, -, heq⟩
      · cases heq
      · cases o with
        | io action => cases action <;> cases heq
        | _ => cases heq
  | tick order now hrun =>
      obtain ⟨-, rfl⟩ := Worker.processTick_ok hrun
      cases hmem
  | remove taskId hrun =>
      obtain ⟨c, -, -, rfl⟩ := Worker.removeTask_ok.mp hrun
      cases List.mem_singleton.mp hmem
  | takeEnded => cases hmem
  | notFound req => cases List.mem_singleton.mp hmem
  | create hopen hadmits => cases List.mem_singleton.mp hmem
  | bind hremote hufrag => cases List.mem_singleton.mp hmem

/-- A packet written while an event is handled is that event's, and the session joined its track. -/
theorem History.written {actions acts : List Action} {w w' : Worker Rtc} {ev : BusEvent}
    {now : Instant} (h : History ext actions w) (hlisted : Listed w)
    (hrun : forEach (Worker.inputTask ext now (w.recipients ev).2) (w.recipients ev).1 w
      = .ok (w', acts))
    {t : Nat} {mid : Mid} {write : RtpWrite} (hmem : Action.writeRtp t mid write ∈ acts)
    {before : List Action} (hread : Action.read ev ∈ before) :
    WriteExplained ext (actions ++ before) t mid write := by
  obtain ⟨hin, c, task, hc, hq, hw⟩ := mem_inputTasks hrun hmem
  obtain ⟨media, nackable, hevent, hwrite, hmid⟩ := ComposeTask.rtpWrite_some hw
  have hmedia : ev = .trackMedia media := by
    cases ev with
    | trackMedia media' =>
        cases hevent
        rfl
    | trackKeyframeRequest trackId kind => cases hevent
  subst hmedia
  have hexp := h.live t c hc
  obtain ⟨req, hreq, hpath, hrole⟩ := hexp.created
  have hjoined : media.trackId ∈ c.task.role.joins ext .media (answers t actions) := by
    rw [← hexp.joins .media]
    exact List.mem_append_left _ ((hlisted.mem_iff .media hc media.trackId).mp hin)
  obtain ⟨hside, htrack⟩ := Role.mem_joins hjoined
  rw [hrole] at hside
  rw [hrole, Role.trackIds_ofRequest] at htrack
  have hold : c.task.core.mid media.header.kind = some mid := by
    rw [← hmid]
    cases media.header.kind with
    | audio => exact hq.core.audioMid.symm
    | video => exact hq.core.videoMid.symm
  have hkind : ∃ kind, media.trackId = trackIdBuilder ext (getHttpAuth req) kind := by
    rcases htrack with htrack | htrack
    · exact ⟨.audio, htrack⟩
    · exact ⟨.video, htrack⟩
  obtain ⟨kind, hkind⟩ := hkind
  exact ⟨req, media, nackable, kind, List.mem_append_left _ hreq,
    (Role.side_ofRequest hpath .media).mp hside, List.mem_append_right _ hread, hkind, hwrite,
    List.mem_append_left _ (hexp.mid hold)⟩

/-- **Every packet a session wrote is accounted for by what its worker did before.** -/
theorem Worker.Reaches.written {addr : SocketAddr} {actions pre post : List Action}
    {w : Worker Rtc} (h : Worker.Reaches ext admits addr actions w) {t : Nat} {mid : Mid}
    {write : RtpWrite} (hsplit : actions = pre ++ .writeRtp t mid write :: post) :
    WriteExplained ext pre t mid write := by
  refine Emits.causal (I := fun os w => Bounded w ∧ Listed w ∧ History ext os w)
    (C := fun os a => ∀ t mid write, a = .writeRtp t mid write → WriteExplained ext os t mid write)
    ?_ ?_ h.steps ⟨bounded_new addr, listed_new addr, history_new addr⟩ pre _ post hsplit
    t mid write rfl
  · rintro os v bs v' ⟨hb, hl, hh⟩ hs
    exact ⟨hb.step hs, hl.step hb hs, hh.step hb hs⟩
  · rintro os v bs v' ⟨-, hl, hh⟩ hs pre _ post hbs t mid write rfl
    have hmem : Action.writeRtp t mid write ∈ bs := by simp [hbs]
    obtain ⟨ev, now, hrun⟩ := hs.write hmem
    obtain ⟨acts, hinputs, rfl⟩ := Worker.handleBusEvent_ok hrun
    -- The turn begins by reading the event.
    cases pre with
    | nil => cases hbs
    | cons b pre =>
        obtain ⟨rfl, hacts⟩ := List.cons.inj hbs
        replace hacts : acts = pre ++ .writeRtp t mid write :: post := hacts
        exact hh.written hl hinputs (by rw [hacts]; simp) List.mem_cons_self

/-! ### From end to end -/

/-- A written packet, followed back to the publisher's engine that gave it. -/
theorem Server.Reaches.written {localAddrs : Fin n → SocketAddr} {entries : List (Entry n)}
    {s : Server n Rtc} (h : Server.Reaches ext localAddrs entries s) {pre post : List (Entry n)}
    {v : Fin n} {t : Nat} {mid : Mid} {write : RtpWrite}
    (hsplit : entries = pre ++ (v, .writeRtp t mid write) :: post) :
    ∃ req kind nackable u t' req' rtp media, (v, Action.created t req) ∈ pre ∧
      req.path = "/whep/endpoint" ∧ (u, Action.created t' req') ∈ pre ∧
      req'.path = "/whip/endpoint" ∧
      (u, Action.polled t' (.ok (.event (.rtpPacket rtp)))) ∈ pre ∧
      media = .fromRaw (trackIdBuilder ext (getHttpAuth req') rtp.header.kind) rtp ∧
      (u, Action.broadcast t' (.trackMedia media)) ∈ pre ∧
      (v, Action.read (.trackMedia media)) ∈ pre ∧
      media.trackId = trackIdBuilder ext (getHttpAuth req) kind ∧ write = media.toWrite nackable ∧
      (v, Action.polled t (.ok (.event (.mediaAdded mid rtp.header.kind)))) ∈ pre := by
  have hjournal := h.journal
  -- From the write back to the read, in the worker of the viewer.
  have hviewer := (congrArg (actionsOf v) hsplit).trans (actionsOf_split v pre post _)
  obtain ⟨req, media, nackable, kind, hreq, hpath, hread, htrack, rfl, hmid⟩ :=
    (hjournal.worker v).written hviewer
  have hread' := mem_actionsOf.mp hread
  -- From the read back to the broadcast, over the bus.
  obtain ⟨pre₁, post₁, hpre₁⟩ := List.append_of_mem hread'
  obtain ⟨u, t', hbroadcast⟩ := h.read_broadcast
    (by rw [hsplit, hpre₁, List.append_assoc, List.cons_append])
  have hbroadcast' : (u, Action.broadcast t' (.trackMedia media)) ∈ pre :=
    hpre₁ ▸ List.mem_append_left _ hbroadcast
  -- From the broadcast back to the packet, in the worker of the publisher.
  obtain ⟨pre₂, post₂, hpre₂⟩ := List.append_of_mem hbroadcast'
  have hpublisher : actionsOf u entries = actionsOf u pre₂ ++ .broadcast t' (.trackMedia media) ::
      actionsOf u (post₂ ++ (v, .writeRtp t mid (media.toWrite nackable)) :: post) := by
    rw [hsplit, hpre₂, List.append_assoc, List.cons_append, actionsOf_split]
  obtain ⟨req', rtp, hreq', hpath', hpolled, rfl⟩ :=
    ((hjournal.worker u).explained hpublisher rfl).media
  have hsub : ∀ e ∈ pre₂, e ∈ pre := fun e he => hpre₂ ▸ List.mem_append_left _ he
  exact ⟨req, kind, nackable, u, t', req', rtp, _, mem_actionsOf.mp hreq, hpath,
    hsub _ (mem_actionsOf.mp hreq'), hpath', hsub _ (mem_actionsOf.mp hpolled), rfl, hbroadcast',
    hread', htrack, rfl, mem_actionsOf.mp hmid⟩

/--
**Media stays in its channel, and arrives as it was sent.**  In any run of any number of
workers in which the track ids of the channels in use do not collide, take any packet a
session has written.  The session was opened by a request for the viewer's endpoint, and
by no other; and before the packet was written, some session opened at the publisher's
endpoint by a request with the same channel had its engine give a packet of which the
written one is, in every field that is sent, a copy.  If the packet was broadcast under
the audio track of the channel, the section it was written to is one the viewer's engine
had added as audio, and if under the video track, as video.
-/
theorem media_isolated {localAddrs : Fin n → SocketAddr} {entries : List (Entry n)}
    {s : Server n Rtc} (h : Server.Reaches ext localAddrs entries s)
    (hdistinct : TrackIdsDistinct ext entries) {pre post : List (Entry n)} {v : Fin n} {t : Nat}
    {mid : Mid} {write : RtpWrite} (hsplit : entries = pre ++ (v, .writeRtp t mid write) :: post) :
    ∃ req, (v, Action.created t req) ∈ pre ∧ req.path = "/whep/endpoint" ∧
      (∀ req', (v, Action.created t req') ∈ entries → req' = req) ∧
      ∃ u t' req' rtp media, (u, Action.created t' req') ∈ pre ∧ req'.path = "/whip/endpoint" ∧
        getHttpAuth req' = getHttpAuth req ∧
        (u, Action.polled t' (.ok (.event (.rtpPacket rtp)))) ∈ pre ∧
        (u, Action.broadcast t' (.trackMedia media)) ∈ pre ∧
        (v, Action.read (.trackMedia media)) ∈ pre ∧
        write.payloadType = rtp.header.payloadType ∧ write.seqNo = rtp.seqNo ∧
        write.time = rtp.header.timestamp ∧ write.marker = rtp.header.marker ∧
        write.extVals = rtp.header.extVals ∧ write.payload = rtp.payload ∧
        ∀ kind, media.trackId = trackIdBuilder ext (getHttpAuth req) kind →
          (v, Action.polled t (.ok (.event (.mediaAdded mid kind)))) ∈ pre := by
  have hjournal := h.journal
  have hpre : ∀ e ∈ pre, e ∈ entries := fun e he => hsplit ▸ List.mem_append_left _ he
  obtain ⟨req, kind, nackable, u, t', req', rtp, media, hreq, hpath, hreq', hpath', hpolled, rfl,
    hbroadcast, hread, htrack, rfl, hmid⟩ := h.written hsplit
  -- Both ends name the same track, so the same channel and kind.
  have hchannel := mem_channels (hpre _ hreq)
  have hchannel' := mem_channels (hpre _ hreq')
  have hsame := (hdistinct _ hchannel' _ hchannel _ _ htrack).1
  refine ⟨req, hreq, hpath, ?_, u, t', req', rtp, _, hreq', hpath', hsame, hpolled, hbroadcast,
    hread, rfl, rfl, rfl, rfl, rfl, rfl, ?_⟩
  · exact fun req'' hreq'' => (hjournal.worker v).created_unique (mem_actionsOf.mpr hreq'')
      (mem_actionsOf.mpr (hpre _ hreq))
  · intro kind' hkind'
    have hkind : rtp.header.kind = kind' := (hdistinct _ hchannel' _ hchannel _ _ hkind').2
    exact hkind ▸ hmid

/-- The packet the relay's viewer writes is the one the publisher's engine gave. -/
theorem media_isolated_relay :
    ∃ pre post mid write, Script.relayed = pre ++ (0, .writeRtp 0 mid write) :: post ∧
      write.payload = [7] ∧ ∃ u t' rtp,
        (u, Action.polled t' (.ok (.event (.rtpPacket rtp)))) ∈ pre ∧
        write.payload = rtp.payload := by
  have hwritten : Script.relayed.any (fun e => match e with
      | (0, .writeRtp 0 _ write) => write.payload = [7]
      | _ => false) = true := by decide +kernel
  obtain ⟨⟨v, a⟩, hmem, ha⟩ := List.any_eq_true.mp hwritten
  split at ha
  · rename_i mid write heq
    cases heq
    obtain ⟨pre, post, hsplit⟩ := List.append_of_mem hmem
    obtain ⟨s, hs, -⟩ := Script.relay_reaches
    obtain ⟨req, -, -, -, u, t', req', rtp, media, -, -, -, hpolled, -, -, -, -, -, -, -, hpayload,
      -⟩ := media_isolated hs Script.relay_distinct hsplit
    exact ⟨pre, post, mid, write, hsplit, by simpa using ha, u, t', rtp, hpolled, hpayload⟩
  · cases ha

end MediaServer
