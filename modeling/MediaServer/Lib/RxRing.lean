/-
A receive queue that does not copy.

A device receives into buffers it is given beforehand, and the buffers come in groups.
A request of a group is armed with all the buffers of the group; the device fills one
after another, posts each as it is filled, and at some point posts that the request
has ended.  The program takes the posts in order.  A filled buffer waits until it is
read, and an ended group is armed again once nothing waits any more.

Two things are asked of this.  Where a group is — armed, ended and not yet seen to
be, or idle — is always one place, whatever the device does (`Ordered`), and from the
order of the posts it follows that an idle group has no buffer left to read.  Where a
buffer is, is one place too, and then what is read is what was received (`Exclusive`,
`Faithful`); but this rests on what the device is assumed to do, which is a parameter
of the steps: which buffers it may fill, with which word on whether more will come,
and which requests it may end.
-/
import Mathlib.Data.List.Nodup
import Mathlib.Data.List.Perm.Basic

namespace Lib

variable {γ β α : Type*}

/-- What is posted of a request: a buffer it filled, if any, and whether there will be more. -/
structure RxPost (γ β : Type*) where
  group : γ
  buf : Option β
  more : Bool

structure RxRing (γ β α : Type*) where
  /-- The groups that have yet to be armed for the first time. -/
  fresh : List γ
  armed : List γ
  posts : List (RxPost γ β)
  idle : List γ
  provided : List (γ × β)
  waiting : List β
  /-- The buffers read since they were last provided. -/
  released : List β
  memory : β → α
  /-- What the device has received, in the order of its posts. -/
  reported : List α
  returned : List α

namespace RxRing

/-- The filled buffers the program has yet to hear of. -/
def filled (r : RxRing γ β α) : List β := r.posts.filterMap (·.buf)

/-- The groups whose end it has yet to hear of. -/
def ended (r : RxRing γ β α) : List γ :=
  r.posts.filterMap fun p => if p.more then none else some p.group

/-- The buffers that hold something still to be read. -/
def unread (r : RxRing γ β α) : List β := r.waiting ++ r.filled

/-- More will come, and nothing in the buffer is still to be read. -/
def Spares (r : RxRing γ β α) (b : β) (more : Bool) : Prop := more = true ∧ b ∉ r.unread

/-- The group has no buffer left to fill. -/
def Exhausted (r : RxRing γ β α) (g : γ) : Prop := ∀ b, (g, b) ∉ r.provided

variable [DecidableEq β]

section

variable (bufs : γ → List β)

def arm (g : γ) (r : RxRing γ β α) : RxRing γ β α :=
  { r with
    armed := r.armed ++ [g]
    provided := r.provided ++ (bufs g).map (Prod.mk g)
    released := r.released.filter (· ∉ bufs g) }

/-- Take a post: it is the word on what is to come that decides. -/
def deliver (p : RxPost γ β) (r : RxRing γ β α) : RxRing γ β α :=
  if p.more then { r with waiting := r.waiting ++ p.buf.toList }
  else { r with idle := r.idle ++ [p.group] }

variable (fills : RxRing γ β α → β → Bool → Prop) (ends : RxRing γ β α → γ → Prop)

inductive Step (r : RxRing γ β α) : RxRing γ β α → Prop
  | armFresh {g : γ} {rest : List γ} (hread : r.waiting = []) (h : r.fresh = g :: rest) :
      Step r (arm bufs g { r with fresh := rest })
  | armIdle {g : γ} {rest : List γ} (hread : r.waiting = []) (h : r.idle = g :: rest) :
      Step r (arm bufs g { r with idle := rest })
  | fill {g : γ} {b : β} {armed : List γ} {provided : List (γ × β)} (data : α) (more : Bool)
      (harmed : r.armed.Perm (g :: armed)) (hprov : r.provided.Perm ((g, b) :: provided))
      (hok : fills r b more) :
      Step r { r with
        armed := if more then r.armed else armed
        provided
        posts := r.posts ++ [{ group := g, buf := some b, more }]
        memory := fun i => if i = b then data else r.memory i
        reported := r.reported ++ [data] }
  | finish {g : γ} {armed : List γ} (harmed : r.armed.Perm (g :: armed)) (hok : ends r g) :
      Step r { r with armed, posts := r.posts ++ [{ group := g, buf := none, more := false }] }
  | poll {p : RxPost γ β} {posts : List (RxPost γ β)} (h : r.posts = p :: posts) :
      Step r (deliver p { r with posts })
  | read {b : β} {rest : List β} (h : r.waiting = b :: rest) :
      Step r { r with
        waiting := rest
        released := r.released ++ [b]
        returned := r.returned ++ [r.memory b] }

end

variable {bufs : γ → List β} {fills : RxRing γ β α → β → Bool → Prop}
  {ends : RxRing γ β α → γ → Prop} {groups : List γ} {r r' : RxRing γ β α}

/-! ### Groups -/

omit [DecidableEq β] in
/-- A request that ends goes from the armed ones to those that have ended. -/
theorem perm_end {g : γ} {l armed : List γ} (harmed : l.Perm (g :: armed)) (f e i : List γ) :
    (f ++ armed ++ (e ++ [g]) ++ i).Perm (f ++ l ++ e ++ i) := by
  have hswap : (armed ++ (e ++ [g])).Perm (l ++ e) := by
    rw [← List.append_assoc]
    refine (List.perm_append_comm.trans ?_)
    exact (harmed.append_right e).symm
  simpa only [List.append_assoc] using (hswap.append_right i).append_left f

/-- **No group is lost, and none is there twice that was not**, whatever the device does. -/
theorem Step.places (hs : Step bufs fills ends r r') :
    (r'.fresh ++ r'.armed ++ r'.ended ++ r'.idle).Perm
      (r.fresh ++ r.armed ++ r.ended ++ r.idle) := by
  cases hs with
  | @armFresh g rest _ hfresh =>
      simp only [arm, ended, hfresh, List.append_assoc, List.cons_append, List.nil_append]
      exact (List.perm_middle.append_left rest).trans List.perm_middle
  | @armIdle g rest hread hidle =>
      simp only [arm, ended, hidle, List.append_assoc, List.cons_append, List.nil_append]
      exact (List.perm_middle.symm.append_left r.armed).append_left r.fresh
  | @fill g b armed provided data more harmed hprov hok =>
      cases more with
      | true => simp [ended]
      | false => simpa [ended] using perm_end harmed r.fresh r.ended r.idle
  | @finish g armed harmed hok => simpa [ended] using perm_end harmed r.fresh r.ended r.idle
  | @poll p posts hposts =>
      unfold deliver
      split
      · rename_i hmore
        simp [ended, hposts, hmore]
      · rename_i hmore
        rw [Bool.not_eq_true] at hmore
        simp only [ended, hposts, List.filterMap_cons, hmore, Bool.false_eq_true, if_false]
        simp only [List.append_assoc]
        refine List.Perm.append_left _ (List.Perm.append_left _ ?_)
        rw [← List.append_assoc]
        exact List.perm_append_singleton _ _
  | read hwait => exact List.Perm.refl _

/-- Every group is in one place, and the posts of a request come before its end. -/
structure Ordered (bufs : γ → List β) (groups : List γ) (r : RxRing γ β α) : Prop where
  groups : (r.fresh ++ r.armed ++ r.ended ++ r.idle).Perm groups
  quiet : ∀ g ∈ r.fresh ++ r.idle, ∀ p ∈ r.posts, p.group ≠ g
  last : r.posts.Pairwise fun p q => p.more = false → q.group ≠ p.group
  own : ∀ p ∈ r.posts, ∀ b, p.buf = some b → b ∈ bufs p.group
  provided : ∀ g b, (g, b) ∈ r.provided → b ∈ bufs g

omit [DecidableEq β] in
/-- An armed group has not ended and is not idle. -/
theorem Ordered.armed_disjoint (hnodup : groups.Nodup) (h : Ordered bufs groups r) {g : γ}
    (hg : g ∈ r.armed) : g ∉ r.ended ∧ g ∉ r.fresh ++ r.idle := by
  have hall : (r.armed ++ (r.ended ++ (r.fresh ++ r.idle))).Nodup := by
    refine (List.Perm.nodup_iff ?_).mpr (h.groups.nodup_iff.mpr hnodup)
    simp only [List.append_assoc]
    have hmove : (r.fresh ++ (r.armed ++ r.ended)).Perm (r.armed ++ r.ended ++ r.fresh) :=
      List.perm_append_comm
    simpa only [List.append_assoc] using (hmove.append_right r.idle).symm
  have hdisj := (List.nodup_append.mp hall).2.2 g hg
  exact ⟨fun hmem => hdisj g (List.mem_append_left _ hmem) rfl,
    fun hmem => hdisj g (List.mem_append_right _ hmem) rfl⟩

omit [DecidableEq β] in
/-- What is posted of an armed group comes after no end of it. -/
theorem Ordered.post (hnodup : groups.Nodup) (h : Ordered bufs groups r) {g : γ}
    (hg : g ∈ r.armed) (p : RxPost γ β) (hp : p.group = g) :
    (∀ g' ∈ r.fresh ++ r.idle, ∀ q ∈ r.posts ++ [p], q.group ≠ g') ∧
      (r.posts ++ [p]).Pairwise fun p q => p.more = false → q.group ≠ p.group := by
  obtain ⟨hended, hidle⟩ := h.armed_disjoint hnodup hg
  refine ⟨fun g' hg' q hq => ?_, List.pairwise_append.mpr ⟨h.last, by simp, ?_⟩⟩
  · rcases List.mem_append.mp hq with hq | hq
    · exact h.quiet g' hg' q hq
    · rw [List.mem_singleton.mp hq, hp]
      rintro rfl
      exact hidle hg'
  · intro q hq q' hq' hmore
    rw [List.mem_singleton.mp hq', hp]
    rintro rfl
    exact hended (List.mem_filterMap.mpr ⟨q, hq, by simp [hmore]⟩)

theorem Ordered.step (hnodup : groups.Nodup) (h : Ordered bufs groups r)
    (hs : Step bufs fills ends r r') : Ordered bufs groups r' := by
  have hprovided : ∀ g, ∀ g' b, (g', b) ∈ r.provided ++ (bufs g).map (Prod.mk g) → b ∈ bufs g' := by
    intro g g' b hmem
    rcases List.mem_append.mp hmem with hmem | hmem
    · exact h.provided g' b hmem
    · obtain ⟨b', hb', heq⟩ := List.mem_map.mp hmem
      cases heq
      exact hb'
  have hgroups := hs.places.trans h.groups
  cases hs with
  | @armFresh g rest _ hfresh =>
      refine ⟨hgroups, fun g' hg' => h.quiet g' ?_, h.last, h.own, hprovided g⟩
      simp only [hfresh, arm, List.cons_append] at hg' ⊢
      exact List.mem_cons_of_mem _ hg'
  | @armIdle g rest hread hidle =>
      refine ⟨hgroups, fun g' hg' => h.quiet g' ?_, h.last, h.own, hprovided g⟩
      simp only [hidle, arm, List.mem_append] at hg' ⊢
      exact hg'.imp_right (List.mem_cons_of_mem _)
  | @fill g b armed provided data more harmed hprov hok =>
      have hg : g ∈ r.armed := harmed.mem_iff.mpr List.mem_cons_self
      obtain ⟨hquiet, hlast⟩ := h.post hnodup hg { group := g, buf := some b, more } rfl
      have hbuf : b ∈ bufs g := h.provided g b (hprov.mem_iff.mpr List.mem_cons_self)
      refine ⟨hgroups, hquiet, hlast, ?_, ?_⟩
      · intro p hp b' hb'
        rcases List.mem_append.mp hp with hp | hp
        · exact h.own p hp b' hb'
        · rw [List.mem_singleton.mp hp] at hb' ⊢
          cases hb'
          exact hbuf
      · exact fun g' b' hmem => h.provided g' b' (hprov.mem_iff.mpr (List.mem_cons_of_mem _ hmem))
  | @finish g armed harmed hok =>
      have hg : g ∈ r.armed := harmed.mem_iff.mpr List.mem_cons_self
      obtain ⟨hquiet, hlast⟩ := h.post hnodup hg { group := g, buf := none, more := false } rfl
      refine ⟨hgroups, hquiet, hlast, fun p hp b' hb' => ?_, h.provided⟩
      rcases List.mem_append.mp hp with hp | hp
      · exact h.own p hp b' hb'
      · rw [List.mem_singleton.mp hp] at hb'
        cases hb'
  | @poll p posts hposts =>
      have hmem : ∀ q ∈ posts, q ∈ r.posts := fun q hq => hposts ▸ List.mem_cons_of_mem _ hq
      have hlast := h.last
      rw [hposts, List.pairwise_cons] at hlast
      unfold deliver at hgroups ⊢
      split
      · rename_i hmore
        rw [if_pos hmore] at hgroups
        exact ⟨hgroups, fun g hg q hq => h.quiet g hg q (hmem q hq), hlast.2,
          fun q hq => h.own q (hmem q hq), h.provided⟩
      · rename_i hmore
        rw [if_neg hmore] at hgroups
        rw [Bool.not_eq_true] at hmore
        refine ⟨hgroups, ?_, hlast.2, fun q hq => h.own q (hmem q hq), h.provided⟩
        intro g hg q hq
        rw [← List.append_assoc] at hg
        rcases List.mem_append.mp hg with hg | hg
        · exact h.quiet g hg q (hmem q hq)
        · -- The group has just been seen to end: nothing of it is posted any more.
          rw [List.mem_singleton.mp hg]
          exact hlast.1 q hq hmore
  | read hwait => exact ⟨hgroups, h.quiet, h.last, h.own, h.provided⟩

variable (hdisj : ∀ g g', g ≠ g' → List.Disjoint (bufs g) (bufs g'))

omit [DecidableEq β] in
include hdisj in
/-- **When a group is armed, everything in its buffers has been read.** -/
theorem Ordered.arm_unread (h : Ordered bufs groups r) (hread : r.waiting = []) {g : γ}
    (hg : g ∈ r.fresh ++ r.idle) : ∀ b ∈ bufs g, b ∉ r.unread := by
  intro b hb hmem
  rw [unread, hread, List.nil_append] at hmem
  obtain ⟨p, hp, hbuf⟩ := List.mem_filterMap.mp hmem
  exact hdisj _ _ (h.quiet g hg p hp) (h.own p hp b hbuf) hb

/-! ### Contents -/

/-- What was received is what was read and what is still to be, in order. -/
structure Faithful (r : RxRing γ β α) : Prop where
  contents : r.reported = r.returned ++ r.unread.map r.memory
  clean : ∀ p ∈ r.posts, p.more = false → p.buf = none

omit [DecidableEq β] in
/-- What is posted comes last. -/
theorem unread_post (r : RxRing γ β α) (p : RxPost γ β) :
    r.waiting ++ (r.posts ++ [p]).filterMap RxPost.buf = r.unread ++ p.buf.toList := by
  cases hbuf : p.buf <;> simp [unread, filled, hbuf]

omit [DecidableEq β] in
/-- Taking a post leaves what is unread, if no end of a request comes with a buffer. -/
theorem deliver_unread {p : RxPost γ β} {posts : List (RxPost γ β)} (hposts : r.posts = p :: posts)
    (hclean : p.more = false → p.buf = none) :
    (deliver p { r with posts }).unread = r.unread := by
  cases hmore : p.more with
  | true => cases hbuf : p.buf <;> simp [deliver, unread, filled, hposts, hmore, hbuf]
  | false => simp [deliver, unread, filled, hposts, hmore, hclean hmore]

omit [DecidableEq β] in
theorem deliver_posts (p : RxPost γ β) (r : RxRing γ β α) : (deliver p r).posts = r.posts := by
  unfold deliver
  split <;> rfl

omit [DecidableEq β] in
/-- A post that brings a buffer with the word of more, or none, keeps the ends clean. -/
theorem clean_post {posts : List (RxPost γ β)} (h : ∀ p ∈ posts, p.more = false → p.buf = none)
    {p : RxPost γ β} (hp : p.more = false → p.buf = none) :
    ∀ q ∈ posts ++ [p], q.more = false → q.buf = none := by
  intro q hq
  rcases List.mem_append.mp hq with hq | hq
  · exact h q hq
  · rw [List.mem_singleton.mp hq]
    exact hp

omit [DecidableEq β] in
theorem clean_deliver (h : ∀ p ∈ r.posts, p.more = false → p.buf = none) {p : RxPost γ β}
    {posts : List (RxPost γ β)} (hposts : r.posts = p :: posts) :
    ∀ q ∈ (deliver p { r with posts }).posts, q.more = false → q.buf = none := by
  intro q hq
  rw [deliver_posts] at hq
  exact h q (hposts ▸ List.mem_cons_of_mem _ hq)

/--
**Nothing received is lost**, if a buffer is only filled with the word that more will
come, and only if nothing in it is still to be read.
-/
theorem Faithful.step (h : Faithful r) (hs : Step bufs Spares ends r r') : Faithful r' := by
  cases hs with
  | armFresh hread hfresh => exact ⟨h.contents, h.clean⟩
  | armIdle hread hidle => exact ⟨h.contents, h.clean⟩
  | @fill g b armed provided data more harmed hprov hok =>
      obtain ⟨rfl, hunread⟩ := hok
      refine ⟨?_, clean_post h.clean fun hmore => Bool.noConfusion hmore⟩
      have hsame : r.unread.map (fun i => if i = b then data else r.memory i)
          = r.unread.map r.memory := by
        refine List.map_congr_left fun i hi => if_neg ?_
        rintro rfl
        exact hunread hi
      show r.reported ++ [data] = r.returned ++
        (r.waiting ++ (r.posts ++ [_]).filterMap RxPost.buf).map _
      rw [unread_post, List.map_append, hsame, h.contents]
      simp
  | finish harmed hok =>
      exact ⟨by simpa [unread, filled] using h.contents, clean_post h.clean fun _ => rfl⟩
  | @poll p posts hposts =>
      have hp : p ∈ r.posts := by simp [hposts]
      refine ⟨?_, clean_deliver h.clean hposts⟩
      rw [deliver_unread hposts (h.clean p hp)]
      unfold deliver
      split <;> exact h.contents
  | read hwait => exact ⟨by simp [h.contents, unread, filled, hwait], h.clean⟩

/-! ### Buffers -/

omit [DecidableEq β] in
include hdisj in
theorem flatMap_nodup (hgroups : groups.Nodup) (hbufs : ∀ g, (bufs g).Nodup) :
    (groups.flatMap bufs).Nodup :=
  List.nodup_flatMap.mpr
    ⟨fun g _ => hbufs g, hgroups.imp fun hne => hdisj _ _ hne⟩

/-- Elements without repetition, some of them in front. -/
theorem perm_filter {l bs : List β} (hl : l.Nodup) (hbs : bs.Nodup) (hsub : ∀ b ∈ bs, b ∈ l) :
    l.Perm (bs ++ l.filter (· ∉ bs)) := by
  have hfront : (l.filter (· ∈ bs)).Perm bs :=
    (List.perm_ext_iff_of_nodup (hl.filter _) hbs).mpr fun b => by simpa using hsub b
  have hsplit := (List.filter_append_perm (· ∈ bs) l).symm
  simpa using hsplit.trans (hfront.append_right _)

/-- Every buffer is in one place. -/
structure Exclusive (bufs : γ → List β) (groups : List γ) (r : RxRing γ β α) : Prop where
  buffers :
    (r.fresh.flatMap bufs ++ (r.provided.map Prod.snd ++ (r.unread ++ r.released))).Perm
      (groups.flatMap bufs)
  live : ∀ g b, (g, b) ∈ r.provided → g ∈ r.armed
  clean : ∀ p ∈ r.posts, p.more = false → p.buf = none

omit [DecidableEq β] in
/-- A buffer is in one of the four places only. -/
theorem Exclusive.nodup (hnodup : (groups.flatMap bufs).Nodup) (h : Exclusive bufs groups r) :
    (r.fresh.flatMap bufs ++ (r.provided.map Prod.snd ++ (r.unread ++ r.released))).Nodup :=
  h.buffers.nodup_iff.mpr hnodup

omit [DecidableEq β] in
/-- A provided buffer holds nothing still to be read. -/
theorem Exclusive.provided_unread (hnodup : (groups.flatMap bufs).Nodup)
    (h : Exclusive bufs groups r) {g : γ} {b : β} (hb : (g, b) ∈ r.provided) : b ∉ r.unread := by
  intro hmem
  have htail := (List.nodup_append.mp (h.nodup hnodup)).2.1
  exact (List.nodup_append.mp htail).2.2 b (List.mem_map_of_mem hb) b
    (List.mem_append_left _ hmem) rfl

omit [DecidableEq β] in
include hdisj in
/-- The buffers of an idle group are not provided. -/
theorem Exclusive.arm_provided (hgroups : groups.Nodup) (hord : Ordered bufs groups r)
    (h : Exclusive bufs groups r) {g : γ} (hg : g ∈ r.fresh ++ r.idle) :
    ∀ b ∈ bufs g, b ∉ r.provided.map Prod.snd := by
  intro b hb hmem
  obtain ⟨⟨g', b'⟩, hprov, rfl⟩ := List.mem_map.mp hmem
  have hown : b' ∈ bufs g' := hord.provided g' b' hprov
  by_cases heq : g = g'
  · subst heq
    exact (hord.armed_disjoint hgroups (h.live g b' hprov)).2 hg
  · exact hdisj g g' heq hb hown

omit [DecidableEq β] in
include hdisj in
/-- The buffers of an idle group have been read, if nothing waits. -/
theorem Exclusive.idle_released (hgroups : groups.Nodup) (hord : Ordered bufs groups r)
    (h : Exclusive bufs groups r) (hread : r.waiting = []) {g : γ} (hg : g ∈ r.idle) :
    ∀ b ∈ bufs g, b ∈ r.released := by
  intro b hb
  have hmem : b ∈ groups.flatMap bufs := by
    refine List.mem_flatMap.mpr ⟨g, hord.groups.mem_iff.mp ?_, hb⟩
    exact List.mem_append_right _ hg
  have hidle : g ∈ r.fresh ++ r.idle := List.mem_append_right _ hg
  rw [← h.buffers.mem_iff, List.mem_append, List.mem_append, List.mem_append] at hmem
  rcases hmem with hfresh | hprov | hunread | hreleased
  · obtain ⟨g', hg', hb'⟩ := List.mem_flatMap.mp hfresh
    have hne : g ≠ g' := by
      rintro rfl
      have hall := hord.groups.nodup_iff.mpr hgroups
      exact (List.nodup_append.mp hall).2.2 g (by simp [hg']) g hg rfl
    exact absurd hb' (hdisj g g' hne hb)
  · exact absurd hprov (h.arm_provided hdisj hgroups hord hidle b hb)
  · exact absurd hunread (hord.arm_unread hdisj hread hidle b hb)
  · exact hreleased

omit [DecidableEq β] in
/-- Moving the head of one list to where the list says. -/
theorem perm_move {b : β} {l l' : List β} (h : l.Perm (b :: l')) (mid rest : List β) :
    (l' ++ (mid ++ [b] ++ rest)).Perm (l ++ (mid ++ rest)) := by
  refine List.Perm.trans ?_ (h.symm.append_right _)
  simp only [List.append_assoc, List.cons_append]
  rw [← List.append_assoc, ← List.append_assoc]
  exact List.perm_middle

omit [DecidableEq β] in
theorem map_snd_arm (l : List (γ × β)) (g : γ) (bs : List β) :
    (l ++ bs.map (Prod.mk g)).map Prod.snd = l.map Prod.snd ++ bs := by
  simp [List.map_map, Function.comp_def]

omit [DecidableEq β] in
/-- What is provided when a group is armed belongs to armed groups. -/
theorem Exclusive.arm_live (h : Exclusive bufs groups r) (g : γ) :
    ∀ g' b, (g', b) ∈ r.provided ++ (bufs g).map (Prod.mk g) → g' ∈ r.armed ++ [g] := by
  intro g' b hmem
  rcases List.mem_append.mp hmem with hmem | hmem
  · exact List.mem_append_left _ (h.live g' b hmem)
  · obtain ⟨b', hb', heq⟩ := List.mem_map.mp hmem
    cases heq
    simp

/-- The buffers of a fresh group go from there to the device. -/
theorem Exclusive.armFresh (hnodup : (groups.flatMap bufs).Nodup) (h : Exclusive bufs groups r)
    {g : γ} {rest : List γ} (hfresh : r.fresh = g :: rest) :
    Exclusive bufs groups (arm bufs g { r with fresh := rest }) := by
  refine ⟨?_, h.arm_live g, h.clean⟩
  have hkeep : r.released.filter (· ∉ bufs g) = r.released := by
    refine List.filter_eq_self.mpr fun b hb => decide_eq_true fun hmem => ?_
    refine (List.nodup_append.mp (h.nodup hnodup)).2.2 b ?_ b ?_ rfl
    · exact List.mem_flatMap.mpr ⟨g, by simp [hfresh], hmem⟩
    · simp [hb]
  refine List.Perm.trans ?_ h.buffers
  show (rest.flatMap bufs ++ ((r.provided ++ (bufs g).map (Prod.mk g)).map Prod.snd ++
    (r.unread ++ r.released.filter (· ∉ bufs g)))).Perm _
  rw [map_snd_arm, hkeep, hfresh, List.flatMap_cons]
  have hmove : ((bufs g ++ rest.flatMap bufs) ++ r.provided.map Prod.snd).Perm
      (rest.flatMap bufs ++ (r.provided.map Prod.snd ++ bufs g)) := by
    rw [List.append_assoc, ← List.append_assoc (List.flatMap bufs rest)]
    exact List.perm_append_comm
  simpa only [List.append_assoc] using (hmove.append_right (r.unread ++ r.released)).symm

include hdisj in
/-- The buffers of an idle group have all been read, and go to the device again. -/
theorem Exclusive.armIdle (hgroups : groups.Nodup) (hbufs : ∀ g, (bufs g).Nodup)
    (hord : Ordered bufs groups r) (h : Exclusive bufs groups r) (hread : r.waiting = [])
    {g : γ} {rest : List γ} (hidle : r.idle = g :: rest) :
    Exclusive bufs groups (arm bufs g { r with idle := rest }) := by
  have hnodup := h.nodup (flatMap_nodup hdisj hgroups hbufs)
  have hreleased : r.released.Nodup :=
    (List.nodup_append.mp (List.nodup_append.mp (List.nodup_append.mp hnodup).2.1).2.1).2.1
  have hsub := h.idle_released hdisj hgroups hord hread (by simp [hidle] : g ∈ r.idle)
  have hback := perm_filter hreleased (hbufs g) hsub
  refine ⟨?_, h.arm_live g, h.clean⟩
  refine List.Perm.trans ?_ h.buffers
  show (r.fresh.flatMap bufs ++ ((r.provided ++ (bufs g).map (Prod.mk g)).map Prod.snd ++
    (r.unread ++ r.released.filter (· ∉ bufs g)))).Perm _
  rw [map_snd_arm, List.append_assoc]
  refine (List.Perm.append_left _ ?_).append_left _
  have hmove : (bufs g ++ r.unread).Perm (r.unread ++ bufs g) := List.perm_append_comm
  rw [← List.append_assoc]
  refine (hmove.append_right _).trans ?_
  rw [List.append_assoc]
  exact hback.symm.append_left _

include hdisj in
/--
**Every buffer stays in one place**, if a buffer is only filled with the word that more
will come, and a request only ends once it has no buffer left.
-/
theorem Exclusive.step (hgroups : groups.Nodup) (hbufs : ∀ g, (bufs g).Nodup)
    (hord : Ordered bufs groups r) (h : Exclusive bufs groups r)
    (hs : Step bufs Spares Exhausted r r') : Exclusive bufs groups r' := by
  cases hs with
  | armFresh _ hfresh => exact h.armFresh (flatMap_nodup hdisj hgroups hbufs) hfresh
  | armIdle hread hidle => exact h.armIdle hdisj hgroups hbufs hord hread hidle
  | @fill g b armed provided data more harmed hprov hok =>
      obtain ⟨rfl, -⟩ := hok
      refine ⟨?_, fun g' b' hmem => h.live g' b' ?_,
        clean_post h.clean fun hmore => Bool.noConfusion hmore⟩
      · refine List.Perm.trans ?_ h.buffers
        show (r.fresh.flatMap bufs ++ (provided.map Prod.snd ++
          (r.waiting ++ (r.posts ++ [_]).filterMap RxPost.buf ++ r.released))).Perm _
        rw [unread_post]
        exact (perm_move (hprov.map Prod.snd) r.unread r.released).append_left _
      · exact hprov.mem_iff.mpr (List.mem_cons_of_mem _ hmem)
  | @finish g armed harmed hok =>
      refine ⟨?_, fun g' b' hmem => ?_, clean_post h.clean fun _ => rfl⟩
      · show (r.fresh.flatMap bufs ++ (r.provided.map Prod.snd ++
          (r.waiting ++ (r.posts ++ [_]).filterMap RxPost.buf ++ r.released))).Perm _
        rw [unread_post]
        simpa using h.buffers
      · have hmem' := harmed.mem_iff.mp (h.live g' b' hmem)
        refine (List.mem_cons.mp hmem').resolve_left ?_
        rintro rfl
        exact hok b' hmem
  | @poll p posts hposts =>
      have hp : p ∈ r.posts := by simp [hposts]
      have hunread := deliver_unread hposts (h.clean p hp)
      refine ⟨?_, ?_, clean_deliver h.clean hposts⟩
      · rw [hunread]
        unfold deliver
        split <;> exact h.buffers
      · unfold deliver
        split <;> exact h.live
  | @read b rest hwait =>
      refine ⟨?_, h.live, h.clean⟩
      refine List.Perm.trans ?_ h.buffers
      show (r.fresh.flatMap bufs ++ (r.provided.map Prod.snd ++
        (rest ++ r.filled ++ (r.released ++ [b])))).Perm _
      rw [unread, hwait]
      refine (List.Perm.append_left _ ?_).append_left _
      have hlast : (rest ++ r.filled ++ r.released ++ [b]).Perm
          (b :: (rest ++ r.filled ++ r.released)) := List.perm_append_singleton _ _
      simpa only [List.append_assoc, List.cons_append] using hlast

end RxRing

end Lib
