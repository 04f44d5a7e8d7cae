/-
Going round.

Some part of a machine goes round: `place` says at which place `0 .. last` of its round it
stands, or that it has left the round for good.  A step leaves it where it is, takes it to
the next place, or from the last back to the first, and that is a lap.

Whatever is done at every departure from one place has been done after two laps, wherever
on the round they were begun: the first may have begun behind that place, the second goes
through it.
-/
import MediaServer.Lib.Trace

namespace Lib

variable {σ α : Type*} {step : σ → α → Option σ} {place : σ → Option Nat} {last : Nat}

/-- A machine with a part that goes round. -/
structure Rounds (step : σ → α → Option σ) (place : σ → Option Nat) (last : Nat) : Prop where
  pos : 0 < last
  moves : ∀ s a t q', step s a = some t → place t = some q' →
    ∃ q, place s = some q ∧ (q' = q ∨ q < last ∧ q' = q + 1 ∨ q = last ∧ q' = 0)

/-- Whether a step from `s` to `t` completes a lap. -/
def Wraps (place : σ → Option Nat) (last : Nat) (s t : σ) : Prop :=
  place s = some last ∧ place t = some 0

instance (s t : σ) : Decidable (Wraps place last s t) := inferInstanceAs (Decidable (_ ∧ _))

/-- The laps a run completes. -/
def laps (step : σ → α → Option σ) (place : σ → Option Nat) (last : Nat) : σ → List α → Nat
  | _, [] => 0
  | s, a :: as =>
      match step s a with
      | none => 0
      | some t => (if Wraps place last s t then 1 else 0) + laps step place last t as

theorem laps_concat {a : α} (as : List α) :
    ∀ {s t u : σ}, runLabels step s as = some t → step t a = some u →
      laps step place last s (as ++ [a])
        = laps step place last s as + if Wraps place last t u then 1 else 0 := by
  induction as with
  | nil =>
      intro s t u hrun hs
      simp only [runLabels_nil, Option.some.injEq] at hrun
      subst hrun
      simp [laps, hs]
  | cons x rest ih =>
      intro s t u hrun hs
      obtain ⟨v, hv, hrest⟩ := Option.bind_eq_some_iff.mp hrun
      simp only [List.cons_append, laps, hv, ih hrest hs, Nat.add_assoc]

/-- What two laps bring about while the round goes on, and then nothing undoes, stays. -/
theorem laps_stay {s₀ : σ} {D : List α → σ → Prop}
    (hround : ∀ as s, runLabels step s₀ as = some s → place s ≠ none →
      2 ≤ laps step place last s₀ as → D as s)
    (hkeeps : ∀ as s a t, runLabels step s₀ as = some s → step s a = some t → D as s →
      D (as ++ [a]) t)
    {as : List α} {s : σ} (hrun : runLabels step s₀ as = some s) :
    2 ≤ laps step place last s₀ as → D as s := by
  refine runLabels_induct (P := fun as s => 2 ≤ laps step place last s₀ as → D as s) ?_ ?_ hrun
  · intro hlaps
    simp [laps] at hlaps
  · intro as s a t hrun ih hs hlaps
    by_cases hbefore : 2 ≤ laps step place last s₀ as
    · exact hkeeps as s a t hrun hs (ih hbefore)
    · rw [laps_concat as hrun hs] at hlaps
      split at hlaps
      · -- The second lap ends here.
        rename_i hlap
        refine hround _ t (runLabels_concat.mpr ⟨s, hrun, hs⟩) (by simp [hlap.2]) ?_
        rw [laps_concat as hrun hs, if_pos hlap]
        exact hlaps
      · exact absurd hlaps hbefore

namespace Rounds

variable {s₀ : σ} {p : Nat}

/--
What holds after a departure from the place `p` in the second lap or later, and then as long
as the round goes on, holds in the second lap behind that place, and in every later one.
-/
theorem behind {P : List α → σ → Prop} (h : Rounds step place last) (hp : p ≤ last)
    (hdeparts : ∀ as s a t q, runLabels step s₀ as = some s → step s a = some t →
      place s = some p → place t = some q → q ≠ p → 1 ≤ laps step place last s₀ as →
      P (as ++ [a]) t)
    (hkeeps : ∀ as s a t, runLabels step s₀ as = some s → step s a = some t →
      place t ≠ none → P as s → P (as ++ [a]) t)
    {as : List α} {s : σ} (hrun : runLabels step s₀ as = some s) :
    ∀ q, place s = some q →
      (1 ≤ laps step place last s₀ as ∧ p < q ∨ 2 ≤ laps step place last s₀ as) → P as s := by
  refine runLabels_induct (P := fun as s => ∀ q, place s = some q →
    (1 ≤ laps step place last s₀ as ∧ p < q ∨ 2 ≤ laps step place last s₀ as) → P as s) ?_ ?_ hrun
  · intro q _ hlaps
    simp [laps] at hlaps
  · intro as s a t hrun ih hs q' hq' hlaps
    obtain ⟨q, hq, hmove⟩ := h.moves s a t q' hs hq'
    by_cases hbefore : 1 ≤ laps step place last s₀ as ∧ p < q ∨ 2 ≤ laps step place last s₀ as
    · exact hkeeps as s a t hrun hs (by simp [hq']) (ih q hq hbefore)
    · -- It was not behind `p` before, so this is the departure from there.
      have hlast := h.pos
      have hwraps : Wraps place last s t ↔ q = last ∧ q' = 0 := by simp [Wraps, hq, hq']
      rw [laps_concat as hrun hs] at hlaps
      have hhere : q = p ∧ q' ≠ p ∧ 1 ≤ laps step place last s₀ as := by
        split at hlaps
        · rename_i hlap
          have := hwraps.mp hlap
          omega
        · rename_i hlap
          have := mt hwraps.mpr hlap
          omega
      obtain ⟨rfl, hgone, hlap⟩ := hhere
      exact hdeparts as s a t q' hrun hs hq hq' hgone hlap

/-- What every departure from one place brings about, and nothing undoes, two laps do. -/
theorem done {D : List α → σ → Prop} (h : Rounds step place last) (hp : p ≤ last)
    (hdeparts : ∀ as s a t q, runLabels step s₀ as = some s → step s a = some t →
      place s = some p → place t = some q → q ≠ p → 1 ≤ laps step place last s₀ as →
      D (as ++ [a]) t)
    (hkeeps : ∀ as s a t, runLabels step s₀ as = some s → step s a = some t → D as s →
      D (as ++ [a]) t)
    {as : List α} {s : σ} (hrun : runLabels step s₀ as = some s)
    (hlaps : 2 ≤ laps step place last s₀ as) : D as s := by
  refine laps_stay (fun bs t hrun hon hlaps => ?_) hkeeps hrun hlaps
  obtain ⟨q, hq⟩ := Option.ne_none_iff_exists'.mp hon
  exact h.behind hp hdeparts (fun as s a t hrun hs _ hD => hkeeps as s a t hrun hs hD) hrun q hq
    (.inr hlaps)

end Rounds

end Lib
