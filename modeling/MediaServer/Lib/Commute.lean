/-
Walks that may be taken in any order.

The order in which a hash map is walked is nobody's choice, so what the walk comes to
should not depend on it.  It does not if any two turns commute: if they go through in
one order they go through in the other, each emits what it emitted, and the state in
the end is the same.  A walk that goes through then goes through in every order.

A loop that has to be compared with itself is run twice, from states that agree on
what it looks at.  `forEach_respects` and `drain_respects` are the rules for that: what
the turns of both runs keep in step, the runs keep in step.
-/
import MediaServer.Lib.Loop
import Mathlib.Data.List.Perm.Basic

namespace Lib

variable {σ α β ε : Type*}

/-! ### Turns that commute -/

section Walk

variable {f : α → σ → Except ε (σ × List β)}

/-- Two turns that go through in one order go through in the other, to the same end. -/
def TurnsCommute (f : α → σ → Except ε (σ × List β)) : Prop :=
  ∀ a b s t u bs cs, f a s = .ok (t, bs) → f b t = .ok (u, cs) →
    ∃ t', f b s = .ok (t', cs) ∧ f a t' = .ok (u, bs)

/-- A walk of commuting turns that goes through does so in every order, to the same end. -/
theorem forEach_perm (hf : TurnsCommute f) {as cs : List α} (h : as.Perm cs) :
    ∀ {s t : σ} {bs : List β}, forEach f as s = .ok (t, bs) →
      ∃ bs', forEach f cs s = .ok (t, bs') ∧ bs.Perm bs' := by
  induction h with
  | nil => intro s t bs hrun; exact ⟨bs, hrun, .refl bs⟩
  | cons a _ ih =>
      intro s t bs hrun
      obtain ⟨u, b₁, b₂, hfirst, hrest, rfl⟩ := forEach_cons_ok.mp hrun
      obtain ⟨b', hrest', hperm⟩ := ih hrest
      exact ⟨b₁ ++ b', forEach_cons_ok.mpr ⟨u, b₁, b', hfirst, hrest', rfl⟩, hperm.append_left b₁⟩
  | swap a b rest =>
      intro s t bs hrun
      obtain ⟨u, b₁, _, hb, htail, rfl⟩ := forEach_cons_ok.mp hrun
      obtain ⟨v, b₂, b₃, ha, hrest, rfl⟩ := forEach_cons_ok.mp htail
      obtain ⟨u', ha', hb'⟩ := hf _ _ _ _ _ _ _ hb ha
      refine ⟨b₂ ++ (b₁ ++ b₃), ?_, ?_⟩
      · exact forEach_cons_ok.mpr ⟨u', b₂, _, ha',
          forEach_cons_ok.mpr ⟨v, b₁, b₃, hb', hrest, rfl⟩, rfl⟩
      · rw [← List.append_assoc, ← List.append_assoc]
        exact List.perm_append_comm.append_right b₃
  | trans _ _ ih₁ ih₂ =>
      intro s t bs hrun
      obtain ⟨bs₁, hrun₁, hperm₁⟩ := ih₁ hrun
      obtain ⟨bs₂, hrun₂, hperm₂⟩ := ih₂ hrun₁
      exact ⟨bs₂, hrun₂, hperm₁.trans hperm₂⟩

/-! ### Two runs of one loop -/

/-- Two walks of one list: what the turns keep in step, the walks do. -/
theorem forEach_respects {R : σ → σ → Prop}
    (hstep : ∀ a s s' t bs, R s s' → f a s = .ok (t, bs) → ∃ t', f a s' = .ok (t', bs) ∧ R t t')
    {as : List α} :
    ∀ {s s' t : σ} {bs : List β}, R s s' → forEach f as s = .ok (t, bs) →
      ∃ t', forEach f as s' = .ok (t', bs) ∧ R t t' := by
  induction as with
  | nil =>
      intro s s' t bs hR hrun
      cases hrun
      exact ⟨s', rfl, hR⟩
  | cons a rest ih =>
      intro s s' t bs hR hrun
      obtain ⟨u, b₁, b₂, hfirst, hrest, rfl⟩ := forEach_cons_ok.mp hrun
      obtain ⟨u', hfirst', hR'⟩ := hstep a s s' u b₁ hR hfirst
      obtain ⟨t', hrest', hR''⟩ := ih hR' hrest
      exact ⟨t', forEach_cons_ok.mpr ⟨u', b₁, b₂, hfirst', hrest', rfl⟩, hR''⟩

end Walk

variable {measure : σ → Nat} {next : σ → Option α × σ} {body : α → σ → σ}

/-- Two drains of one kind: they find the same elements, and stay in step. -/
theorem drain_respects (h : Drains measure next body) {R : σ → σ → Prop}
    (hnext : ∀ s s', R s s' → (next s).1 = (next s').1 ∧ R (next s).2 (next s').2)
    (hbody : ∀ a s s', R s s' → R (body a s) (body a s')) :
    ∀ s s', R s s' → R (drain measure next body s) (drain measure next body s') := by
  have key : ∀ (n : Nat) (s s' : σ), measure s < n → R s s' →
      R (drain measure next body s) (drain measure next body s') := by
    intro n
    induction n with
    | zero => intro s s' hs; omega
    | succ n ih =>
        intro s s' hs hR
        obtain ⟨hsame, hR'⟩ := hnext s s' hR
        rw [drain_eq h, drain_eq h]
        rcases hn : next s with ⟨found, t⟩
        rcases hn' : next s' with ⟨found', t'⟩
        rw [hn, hn'] at hsame hR'
        cases hsame
        cases found with
        | none => exact hR'
        | some a =>
            have hlt := h s a t hn
            exact ih _ _ (by omega) (hbody a t t' hR')
  exact fun s s' => key (measure s + 1) s s' (by omega)

end Lib
