/-
The tables around the sessions say the same as the sessions.

A worker finds a session in two ways, by the address a datagram came from and by the
username of its first STUN message, and keeps a table for each beside the map of
sessions.  Nothing forces the three to agree: a remote is entered before the session
is looked up, a ufrag before the session is in the map, and all of it is taken out
again somewhere else.  `Registered` is the agreement, in both directions, and
`Bounded` is what makes a new id new: every id that occurs anywhere is below the seed.

The one assumption is on the engine: it draws for a new session a ufrag no live
session of the worker has.
-/
import MediaServer.Proofs.Effects
import MediaServer.Script

namespace MediaServer

open Lib

variable {Rtc : Type} {ext : Extern Rtc} {admits : Worker Rtc → RtcConfig Rtc → Prop}

/-! ### Every id was handed out by the seed -/

/-- No id that occurs anywhere has yet to be handed out. -/
structure Bounded (w : Worker Rtc) : Prop where
  tasks : ∀ t c, w.tasks.lookup t = some c → t < w.taskIdSeed
  ended : ∀ t ∈ w.endedTasks, t < w.taskIdSeed
  ids : ∀ (side : Side) trackId, ∀ t ∈ side.ids w.busChannels trackId, t < w.taskIdSeed

theorem Bounded.fresh {w : Worker Rtc} (h : Bounded w) :
    w.tasks.lookup w.taskIdSeed = none := by
  cases hl : w.tasks.lookup w.taskIdSeed with
  | none => rfl
  | some c => exact absurd (h.tasks _ c hl) (Nat.lt_irrefl _)

theorem bounded_new (addr : SocketAddr) : Bounded (Worker.new addr : Worker Rtc) := by
  refine ⟨by simp [Worker.new], by simp [Worker.new], ?_⟩
  intro side trackId
  cases side <;> simp [Worker.new, Side.ids, BusChannels.entry]

theorem Bounded.step {w w' : Worker Rtc} {actions : List Action} (h : Bounded w)
    (hs : Step ext admits w actions w') : Bounded w' := by
  refine Step.post (P := Bounded) ?_ ?_ ?_ ?_ ?_ ?_ hs
  · intro v hq
    refine ⟨?_, ?_, ?_⟩
    · intro t c hc
      obtain ⟨c₀, hc₀, -⟩ := hq.lookup hc
      rw [hq.taskIdSeed]
      exact h.tasks t c₀ hc₀
    · rw [hq.endedTasks, hq.taskIdSeed]
      exact h.ended
    · rw [hq.busChannels, hq.taskIdSeed]
      exact h.ids
  · intro config req task _ _
    refine ⟨?_, ?_, ?_⟩
    · intro t c hc
      rw [Worker.register_lookup] at hc
      show t < w.taskIdSeed + 1
      split at hc
      · omega
      · exact Nat.lt_succ_of_lt (h.tasks t c hc)
    · intro t ht
      exact Nat.lt_succ_of_lt (h.ended t ht)
    · intro side trackId t ht
      exact Nat.lt_succ_of_lt (h.ids side trackId t ht)
  · intro remote username taskId _ _
    refine ⟨?_, h.ended, h.ids⟩
    intro t c hc
    obtain ⟨c₀, remotes, hc₀, -⟩ := Worker.bind_lookup_some hc
    exact h.tasks t c₀ hc₀
  · intro taskId container now out task hl _
    have hlt := h.tasks taskId container hl
    refine ⟨?_, ?_, ?_⟩
    · intro t c hc
      rw [Worker.performOn_lookup] at hc
      split at hc
      · rename_i ht
        exact ht ▸ hlt
      · exact h.tasks t c hc
    · intro t ht
      rw [Worker.performOn_endedTasks, List.mem_append] at ht
      rcases ht with ht | ht
      · exact h.ended t ht
      · split at ht <;> simp at ht
        exact ht ▸ hlt
    · intro side trackId t ht
      rw [Worker.performOn_ids, List.mem_append] at ht
      rcases ht with ht | ht
      · exact h.ids side trackId t ht
      · split at ht <;> simp at ht
        exact ht ▸ hlt
  · exact ⟨h.tasks, by simp, h.ids⟩
  · intro taskId container hl
    refine ⟨?_, h.ended, ?_⟩
    · intro t c hc
      exact h.tasks t c (Worker.without_lookup_some hc).2
    · intro side trackId t ht
      exact h.ids side trackId t (Worker.mem_without_ids ht)

theorem Worker.Reaches.bounded {addr : SocketAddr} {actions : List Action} {w : Worker Rtc}
    (h : Worker.Reaches ext admits addr actions w) : Bounded w :=
  Emits.invariant (fun _ _ _ hb hs => hb.step hs) h.steps (bounded_new addr)

/-! ### Remotes and ufrags -/

/-- The ufrag drawn for a new session is none of the live sessions'. -/
def FreshUfrag (w : Worker Rtc) (config : RtcConfig Rtc) : Prop :=
  ∀ t c, w.tasks.lookup t = some c → c.task.ufrag ≠ config.ufrag

/-- The tables of remotes and of ufrags are the sessions' own, read backwards. -/
structure Registered (w : Worker Rtc) : Prop where
  remotes : ∀ r t, w.taskRemotes.lookup r = some t ↔
    ∃ c, w.tasks.lookup t = some c ∧ r ∈ c.remotes
  nodup : ∀ t c, w.tasks.lookup t = some c → c.remotes.Nodup
  ufrags : ∀ u t, w.taskUfrags.lookup u = some t ↔
    ∃ c, w.tasks.lookup t = some c ∧ c.task.ufrag = u

theorem registered_new (addr : SocketAddr) : Registered (Worker.new addr : Worker Rtc) :=
  ⟨by simp [Worker.new], by simp [Worker.new], by simp [Worker.new]⟩

namespace Registered

theorem quiet {w w' : Worker Rtc} (hq : Worker.Quiet w w') (h : Registered w) :
    Registered w' := by
  refine ⟨?_, ?_, ?_⟩
  · intro r t
    rw [hq.taskRemotes, h.remotes]
    constructor
    · rintro ⟨c, hc, hr⟩
      obtain ⟨task, hc', -⟩ := hq.lookup' hc
      exact ⟨_, hc', hr⟩
    · rintro ⟨c', hc', hr⟩
      obtain ⟨c, hc, heq, -⟩ := hq.lookup hc'
      rw [heq] at hr
      exact ⟨c, hc, hr⟩
  · intro t c' hc'
    obtain ⟨c, hc, heq, -⟩ := hq.lookup hc'
    rw [heq]
    exact h.nodup t c hc
  · intro u t
    rw [hq.taskUfrags, h.ufrags]
    constructor
    · rintro ⟨c, hc, hu⟩
      obtain ⟨task, hc', hqt⟩ := hq.lookup' hc
      exact ⟨_, hc', hqt.ufrag.trans hu⟩
    · rintro ⟨c', hc', hu⟩
      obtain ⟨c, hc, -, hqt⟩ := hq.lookup hc'
      exact ⟨c, hc, hqt.ufrag.symm.trans hu⟩

/-- A ufrag nobody has is in no table. -/
theorem ufrag_none {w : Worker Rtc} (h : Registered w) {config : RtcConfig Rtc}
    (hfresh : FreshUfrag w config) : w.taskUfrags.lookup config.ufrag = none := by
  cases hl : w.taskUfrags.lookup config.ufrag with
  | none => rfl
  | some t =>
      obtain ⟨c, hc, hu⟩ := (h.ufrags _ _).mp hl
      exact absurd hu (hfresh t c hc)

theorem register {w : Worker Rtc} (h : Registered w) (hb : Bounded w) {config : RtcConfig Rtc}
    {task : ComposeTask Rtc} (hu : task.ufrag = config.ufrag) (hfresh : FreshUfrag w config) :
    Registered (w.register task) := by
  have hnone := hb.fresh
  refine ⟨?_, ?_, ?_⟩
  · intro r t
    show w.taskRemotes.lookup r = some t ↔ _
    rw [h.remotes, Worker.register_lookup]
    split
    · rename_i ht
      subst ht
      simp [hnone, TaskContainer.ofTask]
    · rfl
  · intro t c hc
    rw [Worker.register_lookup] at hc
    split at hc
    · cases hc
      simp [TaskContainer.ofTask]
    · exact h.nodup t c hc
  · intro u t
    show (w.taskUfrags.insert task.ufrag w.taskIdSeed).lookup u = some t ↔ _
    rw [Table.lookup_insert_ite, Worker.register_lookup]
    have hnew := h.ufrag_none hfresh
    by_cases ht : t = w.taskIdSeed
    · -- The new id: nobody else maps to it, because it is no key yet.
      have hold : w.taskUfrags.lookup u ≠ some w.taskIdSeed := by
        intro hl
        obtain ⟨c, hc, -⟩ := (h.ufrags _ _).mp hl
        rw [hnone] at hc
        cases hc
      simp only [ht, if_true, Option.some.injEq, exists_eq_left', TaskContainer.ofTask]
      constructor
      · intro hl
        split at hl
        · rename_i heq
          exact heq.symm
        · exact absurd hl hold
      · rintro rfl
        simp
    · simp only [ht, if_false]
      rw [← h.ufrags]
      by_cases hut : u = task.ufrag
      · rw [if_pos hut, hut, hu, hnew]
        simp [Ne.symm ht]
      · rw [if_neg hut]

theorem bind {w : Worker Rtc} (h : Registered w) {remote : SocketAddr} {username : String}
    {taskId : Nat} (hremote : w.taskRemotes.lookup remote = none)
    (hufrag : w.taskUfrags.lookup username = some taskId) :
    Registered (w.bind remote taskId) := by
  obtain ⟨c, hc, -⟩ := (h.ufrags _ _).mp hufrag
  have hnot : ∀ t c, w.tasks.lookup t = some c → remote ∉ c.remotes := by
    intro t c hc hr
    have := (h.remotes remote t).mpr ⟨c, hc, hr⟩
    rw [hremote] at this
    cases this
  refine ⟨?_, ?_, ?_⟩
  · intro r t
    show (w.taskRemotes.insert remote taskId).lookup r = some t ↔ _
    rw [Table.lookup_insert_ite, Worker.bind_lookup, hc]
    by_cases hr : r = remote
    · subst hr
      simp only [if_true, Option.some.injEq]
      constructor
      · rintro rfl
        simp
      · rintro ⟨c', hc', hmem⟩
        split at hc'
        · rename_i ht
          exact ht.symm
        · exact absurd hmem (hnot t c' hc')
    · rw [if_neg hr, h.remotes]
      split
      · rename_i ht
        subst ht
        simp [hc, hr]
      · rfl
  · intro t c' hc'
    rw [Worker.bind_lookup, hc] at hc'
    split at hc'
    · cases hc'
      have hn := hnot taskId c hc
      simpa [List.nodup_append, h.nodup taskId c hc] using fun a ha => ne_of_mem_of_not_mem ha hn
    · exact h.nodup t c' hc'
  · intro u t
    show w.taskUfrags.lookup u = some t ↔ _
    rw [h.ufrags, Worker.bind_lookup, hc]
    split
    · rename_i ht
      subst ht
      simp [hc]
    · rfl

theorem performOn {w : Worker Rtc} (h : Registered w) {taskId : Nat}
    {container : TaskContainer Rtc} {now : Instant} {out : Option WebrtcTaskOutput}
    {task : ComposeTask Rtc} (hl : w.tasks.lookup taskId = some container)
    (hp : ComposeTask.Popped ext now container.task out task) :
    Registered (w.performOn taskId out { container with task }) := by
  refine ⟨?_, ?_, ?_⟩
  · intro r t
    rw [Worker.performOn_taskRemotes, h.remotes, Worker.performOn_lookup]
    split
    · rename_i ht
      subst ht
      simp [hl, Worker.joined]
    · rfl
  · intro t c hc
    rw [Worker.performOn_lookup] at hc
    split at hc
    · cases hc
      exact h.nodup taskId container hl
    · exact h.nodup t c hc
  · intro u t
    rw [Worker.performOn_taskUfrags, h.ufrags, Worker.performOn_lookup]
    split
    · rename_i ht
      subst ht
      simp [hl, Worker.joined, hp.ufrag]
    · rfl

theorem without {w : Worker Rtc} (h : Registered w) {taskId : Nat} {c : TaskContainer Rtc}
    (hc : w.tasks.lookup taskId = some c) : Registered (w.without taskId c) := by
  refine ⟨?_, ?_, ?_⟩
  · intro r t
    rw [Worker.without_taskRemotes, Worker.without_lookup]
    by_cases hr : r ∈ c.remotes
    · -- A remote of the removed session is nobody else's.
      rw [if_pos hr]
      have howner := (h.remotes r taskId).mpr ⟨c, hc, hr⟩
      simp only [reduceCtorEq, false_iff, not_exists, not_and]
      intro c' hc' hr'
      split at hc'
      · cases hc'
      · rename_i ht
        have := (h.remotes r t).mpr ⟨c', hc', hr'⟩
        rw [howner] at this
        exact ht (Option.some.inj this).symm
    · rw [if_neg hr, h.remotes]
      split
      · rename_i ht
        subst ht
        simp [hc, hr]
      · rfl
  · intro t c' hc'
    exact h.nodup t c' (Worker.without_lookup_some hc').2
  · intro u t
    rw [Worker.without_taskUfrags, Worker.without_lookup]
    by_cases hu : u = c.task.ufrag
    · rw [if_pos hu]
      have howner := (h.ufrags u taskId).mpr ⟨c, hc, hu.symm⟩
      simp only [reduceCtorEq, false_iff, not_exists, not_and]
      intro c' hc' hu'
      split at hc'
      · cases hc'
      · rename_i ht
        have := (h.ufrags u t).mpr ⟨c', hc', hu'⟩
        rw [howner] at this
        exact ht (Option.some.inj this).symm
    · rw [if_neg hu, h.ufrags]
      split
      · rename_i ht
        subst ht
        simp [hc, Ne.symm hu]
      · rfl

theorem step {w w' : Worker Rtc} {actions : List Action} (hb : Bounded w) (h : Registered w)
    (hs : Step ext FreshUfrag w actions w') : Registered w' := by
  refine Step.post (P := Registered) ?_ ?_ ?_ ?_ ?_ ?_ hs
  · intro v hq
    exact h.quiet hq
  · intro config req task hopen hfresh
    exact h.register hb hopen.ufrag hfresh
  · intro remote username taskId hremote hufrag
    exact h.bind hremote hufrag
  · intro taskId container now out task hl hp
    exact h.performOn hl hp
  · exact ⟨h.remotes, h.nodup, h.ufrags⟩
  · intro taskId container hl
    exact h.without hl

end Registered

theorem Worker.Reaches.registered {addr : SocketAddr} {actions : List Action} {w : Worker Rtc}
    (h : Worker.Reaches ext FreshUfrag addr actions w) : Registered w :=
  (Emits.invariant (I := fun w => Bounded w ∧ Registered w)
    (fun _ _ _ hI hs => ⟨hI.1.step hs, hI.2.step hI.1 hs⟩) h.steps
    ⟨bounded_new addr, registered_new addr⟩).2

/-! ### Concrete runs

Freshness speaks of every live session, but the table of ufrags knows them all, so a
run can check it as it goes.
-/

/-- `exec`, stopping at a request whose ufrag is taken. -/
def Worker.execFresh (ext : Extern Rtc) (op : Op Rtc) (w : Worker Rtc) :
    Except Panic (Worker Rtc × List Action) :=
  match op with
  | .request arrival =>
      if (w.taskUfrags.lookup arrival.config.ufrag).isNone then w.exec ext op
      else .error .workerEvent
  | _ => w.exec ext op

theorem Worker.Reaches.execFresh {addr : SocketAddr} {actions bs : List Action}
    {w w' : Worker Rtc} {op : Op Rtc} (h : Worker.Reaches ext FreshUfrag addr actions w)
    (hexec : w.execFresh ext op = .ok (w', bs)) :
    Worker.Reaches ext FreshUfrag addr (actions ++ bs) w' := by
  unfold Worker.execFresh at hexec
  split at hexec
  · rename_i arrival
    split at hexec
    · rename_i hfree
      refine h.exec (.request arrival) ?_ hexec
      rintro arrival' heq t c hc hu
      cases heq
      rw [(h.registered.ufrags _ t).mpr ⟨c, hc, hu⟩] at hfree
      cases hfree
    · cases hexec
  · rename_i hnot
    refine h.exec op ?_ hexec
    intro arrival heq
    exact absurd heq (hnot arrival)

/-- The scripted worker after some turns. -/
def Script.play (ops : List (Op Script)) : Worker Script × List Action :=
  match forEach (Worker.execFresh Script.engine) ops (Worker.new Script.addr) with
  | .ok r => r
  | .error _ => (Worker.new Script.addr, [])

theorem Script.play_reaches (ops : List (Op Script)) :
    Worker.Reaches Script.engine FreshUfrag Script.addr (Script.play ops).2
      (Script.play ops).1 := by
  unfold Script.play
  cases hrun : forEach (Worker.execFresh Script.engine) ops (Worker.new Script.addr) with
  | error p => exact .refl _
  | ok r =>
      exact forEach_preserves
        (P := fun os w => Worker.Reaches Script.engine FreshUfrag Script.addr os w)
        (fun op s t os bs hs h => h.execFresh hs) hrun (.refl _)

/-! ### The registries agree -/

/-- An address is bound to one session only. -/
theorem Registered.owner {w : Worker Rtc} (h : Registered w) {r : SocketAddr} {t t' : Nat}
    {c c' : TaskContainer Rtc} (hc : w.tasks.lookup t = some c)
    (hc' : w.tasks.lookup t' = some c') (hr : r ∈ c.remotes) (hr' : r ∈ c'.remotes) : t = t' := by
  have h₁ := (h.remotes r t).mpr ⟨c, hc, hr⟩
  have h₂ := (h.remotes r t').mpr ⟨c', hc', hr'⟩
  exact Option.some.inj (h₁.symm.trans h₂)

/--
**The registries and the sessions agree** after every handled request, datagram, bus
event, poll and clean-up: a remote maps to a session exactly when the session lists
it, once, and no other session does; a ufrag maps to a session exactly when it is the
session's own; and every id in sight has been handed out.
-/
theorem registry_agrees {addr : SocketAddr} {actions : List Action} {w : Worker Rtc}
    (h : Worker.Reaches ext FreshUfrag addr actions w) :
    (∀ r t, w.taskRemotes.lookup r = some t ↔
      ∃ c, w.tasks.lookup t = some c ∧ r ∈ c.remotes) ∧
    (∀ r t c, w.tasks.lookup t = some c → r ∈ c.remotes →
      c.remotes.count r = 1 ∧
        ∀ t' c', w.tasks.lookup t' = some c' → t' ≠ t → r ∉ c'.remotes) ∧
    (∀ u t, w.taskUfrags.lookup u = some t ↔
      ∃ c, w.tasks.lookup t = some c ∧ c.task.ufrag = u) ∧
    (∀ t c, w.tasks.lookup t = some c → t < w.taskIdSeed) ∧
    (∀ t ∈ w.endedTasks, t < w.taskIdSeed) ∧
    (∀ trackId, ∀ t ∈ (BusChannels.entry w.busChannels trackId).sources, t < w.taskIdSeed) ∧
    (∀ trackId, ∀ t ∈ (BusChannels.entry w.busChannels trackId).consumers, t < w.taskIdSeed) := by
  have hb := h.bounded
  have hr := h.registered
  refine ⟨hr.remotes, ?_, hr.ufrags, hb.tasks, hb.ended, hb.ids .keyframe, hb.ids .media⟩
  intro r t c hc hmem
  refine ⟨List.count_eq_one_of_mem (hr.nodup t c hc) hmem, ?_⟩
  intro t' c' hc' hne hmem'
  exact hne (hr.owner hc' hc hmem' hmem)

/-- One publisher whose first datagram has come in: its address and its ufrag are entered. -/
theorem registry_agrees_bound :
    let w := (Script.play [.request (Script.arrival 1 "/whip/endpoint" [0x76] "abc" []),
      .datagram (Script.datagram 7 [0, 97, 98, 99])]).1
    w.taskRemotes.lookup (Script.peer 7) = some 0 ∧
      (∃ c, w.tasks.lookup 0 = some c ∧ Script.peer 7 ∈ c.remotes) ∧
      ∀ u t, w.taskUfrags.lookup u = some t ↔
        ∃ c, w.tasks.lookup t = some c ∧ c.task.ufrag = u := by
  have hall := registry_agrees (Script.play_reaches
    [.request (Script.arrival 1 "/whip/endpoint" [0x76] "abc" []),
      .datagram (Script.datagram 7 [0, 97, 98, 99])])
  have hbound : (Script.play [.request (Script.arrival 1 "/whip/endpoint" [0x76] "abc" []),
      .datagram (Script.datagram 7 [0, 97, 98, 99])]).1.taskRemotes.lookup (Script.peer 7)
        = some 0 := by decide +kernel
  exact ⟨hbound, (hall.1 _ _).mp hbound, hall.2.2.1⟩

end MediaServer
