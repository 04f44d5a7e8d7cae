/-
Whether a packet stays what it is, audio or video.

What a packet is, the engine knows: it belongs to a media section whose kind
`MediaAdded` reported, and its payload type is the one the client negotiated for that
kind.  The sessions do not ask.  A publisher takes 111 for audio and anything else for
video, and so does a viewer, again.  So a packet is broadcast under the right track and
written to the right section exactly if its client numbers audio, and nothing else,
with 111.
-/
import MediaServer.Proofs.Draining
import MediaServer.Proofs.Media

namespace MediaServer

open Lib

variable {Rtc : Type} {n : Nat} {ext : Extern Rtc} {admits : Worker Rtc → RtcConfig Rtc → Prop}

/-! ### What the sessions take a packet for -/

theorem RtpHeader.kind_eq_iff {header : RtpHeader} {kind : MediaKind} :
    header.kind = kind ↔ (header.payloadType = 111 ↔ kind = .audio) := by
  unfold RtpHeader.kind
  by_cases haudio : header.payloadType = 111
  · cases kind <;> simp [haudio]
  · cases kind <;> simp [haudio]

/-- The track a publisher has for a kind. -/
def WhipServerTask.trackId (task : WhipServerTask Rtc) : MediaKind → UInt64
  | .audio => task.audioTrackId
  | .video => task.videoTrackId

/-- A publisher broadcasts a packet under the track of the kind it takes it for. -/
theorem WhipServerTask.popAction_packet {now : Instant} {task : WhipServerTask Rtc}
    {rtp : RtpPacket}
    (hpolled : (ComposeTask.whip task).polled ext now = some (.ok (.event (.rtpPacket rtp)))) :
    (task.popAction ext now).1
      = some (.trackMedia (.fromRaw (task.trackId rtp.header.kind) rtp)) := by
  have hpop : (ComposeTask.whip task).popAction ext now
      = ((task.popAction ext now).1, .whip (task.popAction ext now).2) := rfl
  obtain ⟨htranslate, -⟩ := ComposeTask.popAction_returned hpop hpolled rfl
  have hkind : task.trackId rtp.header.kind
      = if rtp.header.payloadType = 111 then task.audioTrackId else task.videoTrackId := by
    unfold RtpHeader.kind
    split <;> rfl
  rw [hkind]
  cases hout : (task.popAction ext now).1 with
  | none =>
      rw [hout] at htranslate
      cases htranslate
  | some out =>
      rw [hout] at htranslate
      exact congrArg some (List.cons.inj htranslate).1.symm

/-! ### One packet -/

/--
What is to become of a packet of a section of the given kind: its publisher broadcasts
it under the track of that kind, and a viewer that is handed the broadcast writes it to
its own section of that kind, to be resent on request exactly if it is video.
-/
def KindPreserved (ext : Extern Rtc) (now : Instant) (publisher : WhipServerTask Rtc)
    (viewer : WhepServerTask Rtc) (rtp : RtpPacket) (kind : MediaKind) : Prop :=
  ∃ media, (publisher.popAction ext now).1 = some (.trackMedia media) ∧
    media = .fromRaw (publisher.trackId kind) rtp ∧
    ∃ mid, viewer.toTaskCore.mid kind = some mid ∧
      (ComposeTask.whep viewer).rtpWrite ext (.trackMedia media)
        = some (mid, media.toWrite (kind = .video))

theorem kindPreserved_iff {now : Instant} {publisher : WhipServerTask Rtc}
    {viewer : WhepServerTask Rtc} {rtp : RtpPacket} {kind : MediaKind}
    (hpolled : (ComposeTask.whip publisher).polled ext now = some (.ok (.event (.rtpPacket rtp))))
    (hmids : ∀ kind, ∃ mid stream, viewer.toTaskCore.mid kind = some mid ∧
      ext.streamTxByMid viewer.rtc mid = some stream) :
    KindPreserved ext now publisher viewer rtp kind ↔
      (rtp.header.payloadType = 111 ↔ kind = .audio) := by
  have hpop := WhipServerTask.popAction_packet hpolled
  have hwrite : ∀ trackId, ∃ mid, viewer.toTaskCore.mid rtp.header.kind = some mid ∧
      (ComposeTask.whep viewer).rtpWrite ext (.trackMedia (.fromRaw trackId rtp))
        = some (mid, (TrackMedia.fromRaw trackId rtp).toWrite (rtp.header.kind = .video)) := by
    intro trackId
    obtain ⟨mid, stream, hmid, hstream⟩ := hmids rtp.header.kind
    refine ⟨mid, hmid, ?_⟩
    rw [ComposeTask.rtpWrite_whep, show (TrackMedia.fromRaw trackId rtp).header = rtp.header from rfl,
      hmid, Option.bind_some, hstream, Option.map_some]
  rw [← RtpHeader.kind_eq_iff]
  constructor
  · rintro ⟨media, -, rfl, mid, -, hw⟩
    -- Whether it may be resent tells what the viewer took it for.
    obtain ⟨mid', -, hw'⟩ := hwrite (publisher.trackId kind)
    rw [hw', Option.some.injEq] at hw
    have hnackable := congrArg RtpWrite.nackable (Prod.mk.inj hw).2
    cases hk : rtp.header.kind <;> cases kind <;> simp [TrackMedia.toWrite, hk] at hnackable <;> rfl
  · rintro rfl
    obtain ⟨mid, hmid, hw⟩ := hwrite (publisher.trackId rtp.header.kind)
    exact ⟨_, hpop, rfl, mid, hmid, hw⟩

/-! ### A run -/

/-- What a worker does about a packet: broadcast it, under the track of the kind it seems to be. -/
def PacketBroadcast (ext : Extern Rtc) (actions : List Action) (a : Action) (post : List Action) :
    Prop :=
  ∀ t rtp, a = .polled t (.ok (.event (.rtpPacket rtp))) →
    ∃ req, Action.created t req ∈ actions ∧
      (req.path = "/whip/endpoint" → ∃ post', post =
        .broadcast t (.trackMedia
          (.fromRaw (trackIdBuilder ext (getHttpAuth req) rtp.header.kind) rtp)) :: post')

theorem PacketBroadcast.of_none {actions : List Action} {a : Action} {post : List Action}
    (h : ∀ t, a.answer t = none) : PacketBroadcast ext actions a post := by
  rintro t rtp rfl
  have := h t
  simp [Action.answer] at this

/-- A packet polled from a publisher's engine is broadcast before anything else is done. -/
theorem Worker.Reaches.packet_broadcast {addr : SocketAddr} {actions pre post : List Action}
    {w : Worker Rtc} (h : Worker.Reaches ext admits addr actions w) {a : Action}
    (hsplit : actions = pre ++ a :: post) : PacketBroadcast ext pre a post := by
  refine Emits.consequent (I := fun os w => Bounded w ∧ History ext os w)
    (C := PacketBroadcast ext) (fun _ _ _ _ hI hs => ⟨hI.1.step hs, hI.2.step hI.1 hs⟩) ?_ ?_
    h.steps ⟨bounded_new addr, history_new addr⟩ pre a post hsplit
  · intro os x bs cs hC t rtp hx
    obtain ⟨req, hreq, hnext⟩ := hC t rtp hx
    refine ⟨req, hreq, fun hpath => ?_⟩
    obtain ⟨post', rfl⟩ := hnext hpath
    exact ⟨post' ++ cs, rfl⟩
  · rintro os v bs v' ⟨-, hH⟩ hs
    -- A step that polls nobody gives no packet.
    have idle : ∀ bs : List Action, (∀ t, answers t bs = []) →
        ∀ pre x post, bs = pre ++ x :: post → PacketBroadcast ext (os ++ pre) x post := by
      rintro bs hbs pre x post rfl
      refine .of_none fun t => ?_
      exact List.filterMap_eq_nil_iff.mp (hbs t) x (by simp)
    refine Step.call_rule (P := fun bs _ => ∀ pre x post, bs = pre ++ x :: post →
      PacketBroadcast ext (os ++ pre) x post) ?_ ?_ ?_ ?_ ?_ ?_ ?_ hs
    · exact fun bs v' hf => idle bs hf.answers
    · exact fun req => idle _ fun _ => rfl
    · exact fun config req task _ _ => idle _ fun _ => rfl
    · exact fun remote username taskId _ _ => idle _ fun _ => rfl
    · rintro taskId c now out task hl hpop pre x post heq t rtp rfl
      have hmem : Action.polled t (.ok (.event (.rtpPacket rtp)))
          ∈ popActions taskId (c.task.polled ext now) out := by simp [heq]
      rcases mem_popActions.mp hmem with ⟨answer, hpolled, hanswer⟩ | ⟨o, -, hperformed⟩
      · cases hanswer
        obtain ⟨req, hreq, -, hrole⟩ := (hH.live taskId c hl).created
        refine ⟨req, List.mem_append_left _ hreq, fun hpath => ?_⟩
        have hpublisher : c.task.role = .publisher (trackIdBuilder ext (getHttpAuth req) .audio)
            (trackIdBuilder ext (getHttpAuth req) .video) := by
          rw [hrole, Role.ofRequest, if_pos hpath]
        obtain ⟨htranslate, -⟩ := ComposeTask.popAction_returned hpop hpolled
          (by rw [hpublisher]; rfl)
        have hout : out = some (.trackMedia
            (.fromRaw (trackIdBuilder ext (getHttpAuth req) rtp.header.kind) rtp)) := by
          cases out with
          | none =>
              rw [hpublisher] at htranslate
              cases htranslate
          | some o =>
              rw [hpublisher] at htranslate
              rw [← (List.cons.inj htranslate).1]
              unfold RtpHeader.kind
              split <;> rfl
        rw [hpolled, hout] at heq
        -- The packet comes first in its turn, the broadcast second.
        cases pre with
        | nil => exact ⟨[], (List.cons.inj heq).2.symm⟩
        | cons y pre =>
            have hrest := (List.cons.inj heq).2
            cases pre with
            | nil => cases (List.cons.inj hrest).1
            | cons z pre =>
                have hnil : [] = pre ++ _ := (List.cons.inj hrest).2
                simp at hnil
      · cases o with
        | io action => cases action <;> cases hperformed
        | _ => cases hperformed
    · exact idle [] fun _ => rfl
    · exact fun taskId c _ => idle _ fun _ => rfl

/-- A packet may be resent exactly if its payload type is not 111. -/
theorem Worker.Reaches.nackable {addr : SocketAddr} {actions : List Action} {w : Worker Rtc}
    (h : Worker.Reaches ext admits addr actions w) {t : Nat} {mid : Mid} {write : RtpWrite}
    (hmem : Action.writeRtp t mid write ∈ actions) :
    write.nackable = decide (write.payloadType ≠ 111) := by
  refine Emits.preserves (P := fun os _ => ∀ t mid write, Action.writeRtp t mid write ∈ os →
    write.nackable = decide (write.payloadType ≠ 111)) ?_ h.steps (by simp) t mid write hmem
  intro os v bs v' hos hs t mid write hmem
  rcases List.mem_append.mp hmem with hmem | hmem
  · exact hos t mid write hmem
  · obtain ⟨ev, now, hrun⟩ := hs.write hmem
    obtain ⟨fed, hfed, rfl⟩ := Worker.handleBusEvent_ok hrun
    have hmem : Action.writeRtp t mid write ∈ fed := by simpa using hmem
    obtain ⟨-, c, task, -, -, hw⟩ := mem_inputTasks hfed hmem
    cases task with
    | whip task => cases hw
    | whep task =>
        cases hevent : (v.recipients ev).2 with
        | trackMedia media =>
            rw [hevent, ComposeTask.rtpWrite_whep] at hw
            obtain ⟨mid', -, hw⟩ := Option.bind_eq_some_iff.mp hw
            obtain ⟨stream, -, heq⟩ := Option.map_eq_some_iff.mp hw
            cases heq
            unfold RtpHeader.kind
            by_cases haudio : media.header.payloadType = 111 <;> simp [TrackMedia.toWrite, haudio]
        | _ =>
            rw [hevent] at hw
            cases hw

/--
**When a packet's kind is preserved.**  Whatever the state of a publisher and of a viewer
that has a section of each kind: a packet the publisher's engine gives keeps its kind, on
the bus and in what the viewer writes, exactly if "its payload type is 111" says the same
as "its section is audio".  And in any run of the server whose clients have negotiated
payload types for which that is so, every packet polled from a publisher is broadcast at
once under the channel's track for its kind, and every packet a viewer writes goes to a
section the viewer's engine has added with that kind, nackable exactly if it is video.
-/
theorem media_kind_preserved_iff {localAddrs : Fin n → SocketAddr} {entries : List (Entry n)}
    {s : Server n Rtc} (h : Server.Reaches ext localAddrs entries s)
    (negotiated : Fin n → Nat → UInt8 → Option MediaKind) :
    (∀ (now : Instant) (publisher : WhipServerTask Rtc) (viewer : WhepServerTask Rtc)
        (rtp : RtpPacket) (kind : MediaKind),
      (ComposeTask.whip publisher).polled ext now = some (.ok (.event (.rtpPacket rtp))) →
      (∀ kind, ∃ mid stream, viewer.toTaskCore.mid kind = some mid ∧
        ext.streamTxByMid viewer.rtc mid = some stream) →
      (KindPreserved ext now publisher viewer rtp kind ↔
        (rtp.header.payloadType = 111 ↔ kind = .audio))) ∧
    ((∀ u t rtp kind, (u, Action.polled t (.ok (.event (.rtpPacket rtp)))) ∈ entries →
        negotiated u t rtp.header.payloadType = some kind →
        (rtp.header.payloadType = 111 ↔ kind = .audio)) →
      (∀ u pre post t req rtp kind,
        actionsOf u entries = pre ++ .polled t (.ok (.event (.rtpPacket rtp))) :: post →
        .created t req ∈ pre → req.path = "/whip/endpoint" →
        negotiated u t rtp.header.payloadType = some kind →
        ∃ post', post = .broadcast t (.trackMedia
          (.fromRaw (trackIdBuilder ext (getHttpAuth req) kind) rtp)) :: post') ∧
      ∀ pre post v t mid write, entries = pre ++ (v, .writeRtp t mid write) :: post →
        ∃ u t' rtp, (u, Action.polled t' (.ok (.event (.rtpPacket rtp)))) ∈ pre ∧
          write.payloadType = rtp.header.payloadType ∧ write.payload = rtp.payload ∧
          ∀ kind, negotiated u t' rtp.header.payloadType = some kind →
            (v, Action.polled t (.ok (.event (.mediaAdded mid kind)))) ∈ pre ∧
              write.nackable = decide (kind = .video)) := by
  refine ⟨fun now publisher viewer rtp kind => kindPreserved_iff, fun hnumbers => ⟨?_, ?_⟩⟩
  · intro u pre post t req rtp kind hsplit hreq hpath hkind
    have hworker := h.journal.worker u
    obtain ⟨req', hreq', hnext⟩ := hworker.packet_broadcast hsplit t rtp rfl
    have hsub : ∀ a ∈ pre, a ∈ actionsOf u entries :=
      fun a ha => hsplit ▸ List.mem_append_left _ ha
    cases hworker.created_unique (hsub _ hreq') (hsub _ hreq)
    have hpolled : (u, Action.polled t (.ok (.event (.rtpPacket rtp)))) ∈ entries :=
      mem_actionsOf.mp (by simp [hsplit])
    rw [← RtpHeader.kind_eq_iff.mpr (hnumbers u t rtp kind hpolled hkind)]
    exact hnext hpath
  · intro pre post v t mid write hsplit
    obtain ⟨req, kind₀, nackable, u, t', req', rtp, media, -, -, -, -, hpolled, rfl, -, -, -, rfl,
      hmid⟩ := h.written hsplit
    refine ⟨u, t', rtp, hpolled, rfl, rfl, fun kind hkind => ?_⟩
    have hpre : ∀ e ∈ pre, e ∈ entries := fun e he => hsplit ▸ List.mem_append_left _ he
    have hiff := hnumbers u t' rtp kind (hpre _ hpolled) hkind
    refine ⟨RtpHeader.kind_eq_iff.mpr hiff ▸ hmid, ?_⟩
    have hwrite : (v, Action.writeRtp t mid (TrackMedia.toWrite (.fromRaw
        (trackIdBuilder ext (getHttpAuth req') rtp.header.kind) rtp) nackable)) ∈ entries := by
      simp [hsplit]
    rw [(h.journal.worker v).nackable (mem_actionsOf.mpr hwrite)]
    have hpayload : rtp.header.payloadType ≠ 111 ↔ kind = .video := by
      rw [ne_eq, hiff]
      cases kind <;> simp
    exact decide_eq_decide.mpr hpayload

/-- The relay's publisher numbers audio with 111, and its packet is written as audio. -/
theorem media_kind_preserved_relay :
    ∃ pre post mid write, Script.relayed = pre ++ (0, .writeRtp 0 mid write) :: post ∧
      write.payload = [7] ∧
      (0, Action.polled 0 (.ok (.event (.mediaAdded mid .audio)))) ∈ pre ∧
      write.nackable = false := by
  have hwritten : Script.relayed.any (fun e => match e with
      | (0, .writeRtp 0 _ write) => write.payloadType = 111 ∧ write.payload = [7]
      | _ => false) = true := by decide +kernel
  obtain ⟨⟨v, a⟩, hmem, ha⟩ := List.any_eq_true.mp hwritten
  split at ha
  · rename_i mid write heq
    cases heq
    obtain ⟨hnumber, hpayload⟩ := of_decide_eq_true ha
    obtain ⟨pre, post, hsplit⟩ := List.append_of_mem hmem
    obtain ⟨s, hs, -⟩ := Script.relay_reaches
    obtain ⟨-, hwrites⟩ := (media_kind_preserved_iff hs
      (fun _ _ payloadType => some (if payloadType = 111 then .audio else .video))).2 (by
        rintro u t rtp kind - hkind
        cases Option.some.inj hkind
        split <;> simp_all)
    obtain ⟨u, t', rtp, -, htype, -, hkind⟩ := hwrites pre post 0 0 mid write hsplit
    obtain ⟨hadded, hnackable⟩ := hkind .audio (by rw [← htype, hnumber]; rfl)
    exact ⟨pre, post, mid, write, hsplit, hpayload, hadded, hnackable⟩
  · cases ha

/--
The publisher's only section is audio, and its packet is broadcast under the channel's
video track.  The viewer has a section of each kind and writes the packet to the one it
has for video, nackable.
-/
theorem audio_renumbered_is_video :
    let entries := Server.record Script.engine (Server.new fun _ => Script.addr) Script.renumbered
    (∃ s, Server.Reaches Script.engine (fun _ : Fin 2 => Script.addr) entries s) ∧
      (1, Action.polled 0 (.ok (.event (.mediaAdded "m" .audio)))) ∈ entries ∧
      (1, Action.polled 0 (.ok (.event (.rtpPacket (Script.packet 109 [7]))))) ∈ entries ∧
      (1, Action.broadcast 0 (.trackMedia (.fromRaw
        (trackIdBuilder Script.engine "demo" .audio) (Script.packet 109 [7])))) ∉ entries ∧
      (1, Action.broadcast 0 (.trackMedia (.fromRaw
        (trackIdBuilder Script.engine "demo" .video) (Script.packet 109 [7])))) ∈ entries ∧
      (0, Action.polled 0 (.ok (.event (.mediaAdded "a" .audio)))) ∈ entries ∧
      (0, Action.polled 0 (.ok (.event (.mediaAdded "v" .video)))) ∈ entries ∧
      (0, Action.writeRtp 0 "v" (TrackMedia.toWrite (.fromRaw
        (trackIdBuilder Script.engine "demo" .video) (Script.packet 109 [7])) true)) ∈ entries := by
  refine ⟨?_, by decide +kernel, by decide +kernel, by decide +kernel, by decide +kernel,
    by decide +kernel, by decide +kernel, by decide +kernel⟩
  have hend : (runLabels (Server.step Script.engine) (Server.new fun _ => Script.addr)
      Script.renumbered).isSome = true := by
    decide +kernel
  obtain ⟨s, hs⟩ := Option.isSome_iff_exists.mp hend
  exact ⟨s, Server.reaches_of_run _ hs⟩

end MediaServer
