/-
Components that know nothing of each other.

A system that keeps a table of components often serves many of them in one move, and
writes one log.  `f k` is what a call on the component `k` does, and what it logs.  A move
keeps the components `Apart` if each of them has made a run of its own calls, and the log
can be tagged so that what is tagged with `k` is just what that run has logged; entries of
the system's own bear no tag.  Moves made one after another then keep them apart as well,
so that a system of many parts is looked at one part at a time.
-/
import MediaServer.Lib.Loop

namespace Lib

variable {κ σ α β ε : Type*} [DecidableEq κ]

/-- What a tagged log has of one component. -/
def own (k : κ) (log : List (Option κ × β)) : List β :=
  (log.filter fun e => e.1 = some k).map Prod.snd

theorem own_append (k : κ) (xs ys : List (Option κ × β)) :
    own k (xs ++ ys) = own k xs ++ own k ys := by
  rw [own, List.filter_append, List.map_append, own, own]

/-- What a component has logged is its own. -/
theorem own_tagged (k : κ) (bs : List β) : own k (bs.map (Prod.mk (some k))) = bs := by
  induction bs with
  | nil => rfl
  | cons b rest ih => simpa [own] using ih

/-- And nobody else's. -/
theorem own_other {k : κ} {log : List (Option κ × β)} (h : ∀ e ∈ log, e.1 ≠ some k) :
    own k log = [] := by
  have hnone : (log.filter fun e => e.1 = some k) = [] :=
    List.filter_eq_nil_iff.mpr fun e he => by simpa using h e he
  rw [own, hnone, List.map_nil]

/-- Each component there is has made a run of its own calls, and none has come or gone. -/
structure Apart (f : κ → α → σ → Except ε (σ × List β)) (s : κ → Option σ)
    (log : List (Option κ × β)) (s' : κ → Option σ) : Prop where
  live : ∀ k c, s k = some c →
    ∃ calls c', s' k = some c' ∧ forEach (f k) calls c = .ok (c', own k log)
  silent : ∀ k, s k = none → s' k = none ∧ own k log = []

namespace Apart

variable {f : κ → α → σ → Except ε (σ × List β)} {s t u : κ → Option σ}
  {xs ys : List (Option κ × β)}

/-- Nobody is called. -/
theorem idle (hlog : ∀ e ∈ xs, e.1 = none) (h : ∀ k, t k = s k) : Apart f s xs t := by
  have hown : ∀ k, own k xs = [] := fun k => own_other fun e he htag => by
    rw [hlog e he] at htag
    cases htag
  refine ⟨fun k c hc => ⟨[], c, (h k).trans hc, ?_⟩, fun k hk => ⟨(h k).trans hk, hown k⟩⟩
  rw [hown k, forEach_nil]

/-- One component is called. -/
theorem call {k : κ} {a : α} {c c' : σ} {bs : List β} (hc : s k = some c)
    (hcall : f k a c = .ok (c', bs)) (h : ∀ j, t j = if j = k then some c' else s j) :
    Apart f s (bs.map (Prod.mk (some k))) t := by
  have hother : ∀ j, j ≠ k → own j (bs.map (Prod.mk (some k))) = [] := by
    intro j hj
    refine own_other fun e he htag => hj ?_
    obtain ⟨b, -, rfl⟩ := List.mem_map.mp he
    exact (Option.some.inj htag).symm
  refine ⟨fun j d hd => ?_, fun j hnone => ?_⟩
  · by_cases hj : j = k
    · subst hj
      rw [hc] at hd
      cases hd
      refine ⟨[a], c', by rw [h, if_pos rfl], ?_⟩
      rw [own_tagged, forEach_singleton]
      exact hcall
    · refine ⟨[], d, by rw [h, if_neg hj, hd], ?_⟩
      rw [hother j hj, forEach_nil]
  · have hj : j ≠ k := by
      rintro rfl
      rw [hc] at hnone
      cases hnone
    exact ⟨by rw [h, if_neg hj, hnone], hother j hj⟩

theorem refl (f : κ → α → σ → Except ε (σ × List β)) (s : κ → Option σ) : Apart f s [] s :=
  idle (by simp) fun _ => rfl

/-- Two runs of a component, one after the other, are one. -/
theorem trans (h₁ : Apart f s xs t) (h₂ : Apart f t ys u) : Apart f s (xs ++ ys) u := by
  refine ⟨fun k c hc => ?_, fun k hk => ?_⟩
  · obtain ⟨calls₁, c₁, hc₁, hrun₁⟩ := h₁.live k c hc
    obtain ⟨calls₂, c₂, hc₂, hrun₂⟩ := h₂.live k c₁ hc₁
    refine ⟨calls₁ ++ calls₂, c₂, hc₂, ?_⟩
    rw [forEach_append, hrun₁, own_append]
    simp only [hrun₂, Except.map]
  · obtain ⟨hk₁, hown₁⟩ := h₁.silent k hk
    obtain ⟨hk₂, hown₂⟩ := h₂.silent k hk₁
    exact ⟨hk₂, by rw [own_append, hown₁, hown₂, List.append_nil]⟩

end Apart

end Lib
