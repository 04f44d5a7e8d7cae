/-
Runs and what they emit.

A relation `step s as t` says that one step may lead from `s` to `t` and emits the
list `as` on the way.  `Emits` closes it: some steps, and everything they emitted in
order.  Since a step may emit several things or nothing, a fine step relation and a
coarse one can emit the same trace, and that is what `simulate` is for: a property
proved of every fine run is a property of every coarse one.

The second half is for machines whose next state is a function of a label.  There a
run is a list of labels, its prefixes are the states it goes through, and a condition
on the steps of a run can be stated without mentioning the states they lead to.
-/
import Mathlib.Tactic.Common
import Mathlib.Data.List.Induction

namespace Lib

variable {σ τ α β : Type*}

/-- `Emits step s as t`: some steps lead from `s` to `t`, and together they emit `as`. -/
inductive Emits (step : σ → List α → σ → Prop) : σ → List α → σ → Prop
  | refl (s : σ) : Emits step s [] s
  | tail {s t u : σ} {as bs : List α} (h : Emits step s as t) (hs : step t bs u) :
      Emits step s (as ++ bs) u

namespace Emits

variable {step : σ → List α → σ → Prop} {step' : τ → List β → τ → Prop}

theorem single {s t : σ} {as : List α} (h : step s as t) : Emits step s as t := by
  have hrefl : Emits step s [] s := .refl s
  simpa using hrefl.tail h

theorem trans {s t u : σ} {as bs : List α} (h₁ : Emits step s as t) (h₂ : Emits step t bs u) :
    Emits step s (as ++ bs) u := by
  induction h₂ with
  | refl => simpa using h₁
  | tail _ hs ih =>
      rw [← List.append_assoc]
      exact Emits.tail ih hs

/-- What every step preserves, every run preserves; `P` sees all that was emitted so far. -/
theorem preserves {P : List α → σ → Prop}
    (hstep : ∀ os s bs t, P os s → step s bs t → P (os ++ bs) t)
    {s t : σ} {as : List α} (h : Emits step s as t) (hP : P [] s) : P as t := by
  induction h with
  | refl => exact hP
  | tail _ hs ih => exact hstep _ _ _ _ ih hs

/-- The same for a property of the state alone. -/
theorem invariant {I : σ → Prop} (hstep : ∀ s bs t, I s → step s bs t → I t)
    {s t : σ} {as : List α} (h : Emits step s as t) (hI : I s) : I t :=
  preserves (P := fun _ s => I s) (fun _ s bs t hs => hstep s bs t hs) h hI

/--
The rule for consequences: `C as x bs` says that after the history `as`, `x` is duly
followed by `bs`, and then it is by anything longer.  If in every step each thing emitted
is duly followed within the step, what was emitted before it being history, then so it is
in every run.
-/
theorem consequent {I : List α → σ → Prop} {C : List α → α → List α → Prop}
    (hinv : ∀ os s bs t, I os s → step s bs t → I (os ++ bs) t)
    (hmore : ∀ os x bs cs, C os x bs → C os x (bs ++ cs))
    (hstep : ∀ os s bs t, I os s → step s bs t →
      ∀ pre x post, bs = pre ++ x :: post → C (os ++ pre) x post)
    {s t : σ} {as : List α} (h : Emits step s as t) (hI : I [] s) :
    ∀ pre x post, as = pre ++ x :: post → C pre x post := by
  refine (preserves
    (P := fun as t => I as t ∧ ∀ pre x post, as = pre ++ x :: post → C pre x post)
    ?_ h ⟨hI, by simp⟩).2
  rintro os s bs t ⟨hI, hC⟩ hs
  refine ⟨hinv os s bs t hI hs, fun pre x post heq => ?_⟩
  rcases List.append_eq_append_iff.mp heq with ⟨mid, rfl, hbs⟩ | ⟨mid, hos, hbs⟩
  · exact hstep os s bs t hI hs mid x post hbs
  · cases mid with
    | nil =>
        -- `x` is the first thing this very step emitted.
        rw [List.append_nil] at hos
        subst hos
        simpa using hstep _ s bs t hI hs [] x post hbs.symm
    | cons y mid =>
        obtain ⟨rfl, hpost⟩ := List.cons.inj hbs
        exact hpost ▸ hmore pre x mid bs (hC pre x mid hos)

/--
The rule for causes: `C as x` says that the history `as` accounts for `x`.  If every
step accounts for each thing it emits by what came before it, the step's own earlier
emissions included, then so does every run.
-/
theorem causal {I : List α → σ → Prop} {C : List α → α → Prop}
    (hinv : ∀ os s bs t, I os s → step s bs t → I (os ++ bs) t)
    (hcause : ∀ os s bs t, I os s → step s bs t →
      ∀ pre x post, bs = pre ++ x :: post → C (os ++ pre) x)
    {s t : σ} {as : List α} (h : Emits step s as t) (hI : I [] s) :
    ∀ pre x post, as = pre ++ x :: post → C pre x :=
  consequent (C := fun os x _ => C os x) hinv (fun _ _ _ _ hC => hC) hcause h hI

/-- A run of coarse steps is a run of the fine steps each of them is made of. -/
theorem simulate {fine : σ → List α → σ → Prop}
    (hsim : ∀ s as t, step s as t → Emits fine s as t)
    {s t : σ} {as : List α} (h : Emits step s as t) : Emits fine s as t := by
  induction h with
  | refl => exact Emits.refl _
  | tail _ hs ih => exact ih.trans (hsim _ _ _ hs)

end Emits

/-! ### Machines driven by labels -/

/-- Take the steps a list of labels names, as long as each is enabled. -/
def runLabels (step : σ → α → Option σ) : σ → List α → Option σ
  | s, [] => some s
  | s, a :: as => (step s a).bind fun t => runLabels step t as

variable {step : σ → α → Option σ}

@[simp] theorem runLabels_nil (s : σ) : runLabels step s [] = some s := rfl

theorem runLabels_cons {s t : σ} {a : α} {as : List α} (h : step s a = some t) :
    runLabels step s (a :: as) = runLabels step t as := by
  rw [runLabels, h]
  rfl

theorem runLabels_append (as bs : List α) :
    ∀ s : σ, runLabels step s (as ++ bs)
      = (runLabels step s as).bind fun t => runLabels step t bs := by
  induction as with
  | nil => intro s; rfl
  | cons a rest ih =>
      intro s
      rw [List.cons_append, runLabels, runLabels]
      cases step s a with
      | none => rfl
      | some t => exact ih t

/-- The last step of a run. -/
theorem runLabels_concat {s u : σ} {as : List α} {a : α} :
    runLabels step s (as ++ [a]) = some u ↔
      ∃ t, runLabels step s as = some t ∧ step t a = some u := by
  rw [runLabels_append]
  cases runLabels step s as with
  | none => simp
  | some t =>
      simp only [Option.bind_some, runLabels, Option.some.injEq, exists_eq_left']
      cases step t a <;> simp

/-- What every step preserves, a run preserves. -/
theorem runLabels_preserves {I : σ → Prop} (hstep : ∀ s a t, I s → step s a = some t → I t) :
    ∀ {as : List α} {s t : σ}, runLabels step s as = some t → I s → I t := by
  intro as
  induction as with
  | nil =>
      intro s t h hI
      simp only [runLabels_nil, Option.some.injEq] at h
      exact h ▸ hI
  | cons a rest ih =>
      intro s t h hI
      obtain ⟨u, hu, hrest⟩ := Option.bind_eq_some_iff.mp h
      exact ih hrest (hstep s a u hI hu)

/-- `s` is one of the states the run of `as` from `s₀` goes through. -/
def Visits (step : σ → α → Option σ) (s₀ : σ) (as : List α) (s : σ) : Prop :=
  ∃ pre, pre <+: as ∧ runLabels step s₀ pre = some s

/-- Every step the run of `as` from `s₀` takes meets `ok`, judged by the state before it. -/
def Meets (step : σ → α → Option σ) (ok : σ → α → Prop) (s₀ : σ) (as : List α) : Prop :=
  ∀ pre a s t, pre ++ [a] <+: as → runLabels step s₀ pre = some s → step s a = some t → ok s a

theorem Meets.restrict {ok : σ → α → Prop} {s₀ : σ} {as bs : List α} (h : Meets step ok s₀ bs)
    (hp : as <+: bs) : Meets step ok s₀ as :=
  fun pre a s t hpre hs ht => h pre a s t (hpre.trans hp) hs ht

theorem Meets.and {ok ok' : σ → α → Prop} {s₀ : σ} {as : List α} (h : Meets step ok s₀ as)
    (h' : Meets step ok' s₀ as) : Meets step (fun s a => ok s a ∧ ok' s a) s₀ as :=
  fun pre a s t hpre hs ht => ⟨h pre a s t hpre hs ht, h' pre a s t hpre hs ht⟩

/-- Some step the run of `as` from `s₀` takes is one of `which`, judged by the state before it. -/
def Takes (step : σ → α → Option σ) (which : σ → α → Prop) (s₀ : σ) (as : List α) : Prop :=
  ∃ pre a s t, pre ++ [a] <+: as ∧ runLabels step s₀ pre = some s ∧ step s a = some t ∧ which s a

theorem not_takes_nil {which : σ → α → Prop} {s₀ : σ} : ¬ Takes step which s₀ [] := by
  rintro ⟨pre, a, s, t, hpre, -⟩
  simp at hpre

/-- A run one step longer takes what it took, and its last step. -/
theorem takes_concat {which : σ → α → Prop} {s₀ s t : σ} {as : List α} {a : α}
    (hrun : runLabels step s₀ as = some s) (hs : step s a = some t) :
    Takes step which s₀ (as ++ [a]) ↔ Takes step which s₀ as ∨ which s a := by
  constructor
  · rintro ⟨pre, b, u, v, hpre, hu, hv, hwhich⟩
    rcases List.prefix_concat_iff.mp hpre with heq | hbefore
    · obtain ⟨rfl, hb⟩ := List.append_inj' heq rfl
      obtain rfl : b = a := List.singleton_inj.mp hb
      obtain rfl : s = u := Option.some.inj (hrun.symm.trans hu)
      exact .inr hwhich
    · exact .inl ⟨pre, b, u, v, hbefore, hu, hv, hwhich⟩
  · rintro (⟨pre, b, u, v, hpre, hu, hv, hwhich⟩ | hwhich)
    · exact ⟨pre, b, u, v, hpre.trans (List.prefix_append _ _), hu, hv, hwhich⟩
    · exact ⟨as, a, s, t, List.prefix_refl _, hrun, hs, hwhich⟩

/-- A run checked as it goes. -/
def checks (step : σ → α → Option σ) (ok : σ → α → Bool) : σ → List α → Bool
  | _, [] => true
  | s, a :: as =>
      match step s a with
      | none => true
      | some t => ok s a && checks step ok t as

theorem meets_of_checks {ok : σ → α → Bool} :
    ∀ {as : List α} {s₀ : σ}, checks step ok s₀ as = true →
      Meets step (fun s a => ok s a = true) s₀ as := by
  intro as
  induction as with
  | nil =>
      intro s₀ _ pre a s t hpre
      simp at hpre
  | cons x rest ih =>
      intro s₀ h pre a s t hpre hs ht
      cases pre with
      | nil =>
          obtain ⟨rfl, -⟩ := List.cons_prefix_cons.mp hpre
          simp only [runLabels_nil, Option.some.injEq] at hs
          subst hs
          simp only [checks, ht, Bool.and_eq_true] at h
          exact h.1
      | cons y pre =>
          obtain ⟨rfl, htail⟩ := List.cons_prefix_cons.mp hpre
          obtain ⟨u, hu, hrest⟩ := Option.bind_eq_some_iff.mp hs
          simp only [checks, hu, Bool.and_eq_true] at h
          exact ih h.2 pre a s t htail hrest ht

/--
The invariant rule under a condition on the steps: `P` sees the labels so far, holds
at the start, and is preserved by every step that meets `ok`.
-/
theorem runLabels_invariant {ok : σ → α → Prop} {P : List α → σ → Prop} {s₀ : σ}
    (hinit : P [] s₀)
    (hstep : ∀ as s a t, runLabels step s₀ as = some s → P as s → ok s a → step s a = some t →
      P (as ++ [a]) t) :
    ∀ (as : List α) (s : σ), Meets step ok s₀ as → runLabels step s₀ as = some s → P as s := by
  intro as
  induction as using List.reverseRecOn with
  | nil =>
      intro s _ hs
      simp only [runLabels_nil, Option.some.injEq] at hs
      exact hs ▸ hinit
  | append_singleton as a ih =>
      intro s hok hs
      obtain ⟨t, ht, hts⟩ := runLabels_concat.mp hs
      have hpre : as <+: as ++ [a] := List.prefix_append _ _
      exact hstep as t a s ht (ih t (hok.restrict hpre) ht)
        (hok as a t s (List.prefix_refl _) ht hts) hts

/-! ### What a run emits, and its parts -/

/-- What the steps of a run emit, in order. -/
def emittedBy {β : Type*} (step : σ → α → Option σ) (emit : σ → α → List β) :
    σ → List α → List β
  | _, [] => []
  | s, a :: as =>
      match step s a with
      | none => []
      | some t => emit s a ++ emittedBy step emit t as

theorem emittedBy_concat {β : Type*} {emit : σ → α → List β} {a : α} (as : List α) :
    ∀ {s t u : σ}, runLabels step s as = some t → step t a = some u →
      emittedBy step emit s (as ++ [a]) = emittedBy step emit s as ++ emit t a := by
  induction as with
  | nil =>
      intro s t u hrun hs
      simp only [runLabels_nil, Option.some.injEq] at hrun
      subst hrun
      simp [emittedBy, hs]
  | cons x rest ih =>
      intro s t u hrun hs
      obtain ⟨v, hv, hrest⟩ := Option.bind_eq_some_iff.mp hrun
      simp only [List.cons_append, emittedBy, hv, List.append_assoc, ih hrest hs]

/-- The invariant rule for a property of the labels so far and of the state they led to. -/
theorem runLabels_induct {P : List α → σ → Prop} {s₀ : σ} (hinit : P [] s₀)
    (hstep : ∀ as s a t, runLabels step s₀ as = some s → P as s → step s a = some t →
      P (as ++ [a]) t)
    {as : List α} {s : σ} (h : runLabels step s₀ as = some s) : P as s := by
  have hmeets : Meets step (fun _ _ => True) s₀ as := fun _ _ _ _ _ _ _ => trivial
  exact runLabels_invariant hinit
    (fun as s a t hrun hP _ hs => hstep as s a t hrun hP hs) as s hmeets h

/-- A part `part` of a machine takes a step under the labels `view` translates, and no other. -/
def Projects {β : Type*} (step : σ → α → Option σ) (step' : τ → β → Option τ) (part : σ → τ)
    (view : α → Option β) : Prop :=
  ∀ s a t, step s a = some t →
    match view a with
    | some b => step' (part s) b = some (part t)
    | none => part t = part s

/-- A run of the whole is, in every part, a run of that part. -/
theorem Projects.run {β : Type*} {step' : τ → β → Option τ} {part : σ → τ} {view : α → Option β}
    (h : Projects step step' part view) :
    ∀ {as : List α} {s t : σ}, runLabels step s as = some t →
      runLabels step' (part s) (as.filterMap view) = some (part t) := by
  intro as
  induction as with
  | nil =>
      intro s t hrun
      simp only [runLabels_nil, Option.some.injEq] at hrun
      simp [hrun]
  | cons a rest ih =>
      intro s t hrun
      obtain ⟨u, hu, hrest⟩ := Option.bind_eq_some_iff.mp hrun
      have hpart := h s a u hu
      cases hview : view a with
      | none =>
          rw [hview] at hpart
          rw [List.filterMap_cons_none hview, ← show part u = part s from hpart]
          exact ih hrest
      | some b =>
          rw [hview] at hpart
          rw [List.filterMap_cons_some hview, runLabels_cons hpart]
          exact ih hrest

/-! ### One thing at a time

A trace in which `asks a` names who begins something and `ends k a` says that `a` ends
what `k` began.  It is serial if nobody begins again before the end.
-/

section Serial

variable {κ : Type*} (asks : α → Option κ) (ends : κ → α → Prop)

/-- What `k` began ends before `k` begins again. -/
def Settles (k : κ) : List α → Prop
  | [] => False
  | a :: as => ends k a ∨ (asks a ≠ some k ∧ Settles k as)

def Serial : List α → Prop
  | [] => True
  | a :: as => (∀ k, asks a = some k → Settles asks ends k as) ∧ Serial as

variable {asks} {ends}

theorem Settles.append {k : κ} {as : List α} (h : Settles asks ends k as) (bs : List α) :
    Settles asks ends k (as ++ bs) := by
  induction as with
  | nil => cases h
  | cons a rest ih =>
      rcases h with h | ⟨hne, h⟩
      · exact .inl h
      · exact .inr ⟨hne, ih h⟩

/-- Where nobody begins anything, one end is enough. -/
theorem settles_of_mem {k : κ} {as : List α} (hnone : ∀ a ∈ as, asks a = none)
    {a : α} (ha : a ∈ as) (hends : ends k a) : Settles asks ends k as := by
  induction as with
  | nil => cases ha
  | cons b rest ih =>
      rcases List.mem_cons.mp ha with rfl | ha
      · exact .inl hends
      · exact .inr ⟨by simp [hnone b List.mem_cons_self],
          ih (fun c hc => hnone c (List.mem_cons_of_mem _ hc)) ha⟩

theorem serial_of_none {as : List α} (hnone : ∀ a ∈ as, asks a = none) : Serial asks ends as := by
  induction as with
  | nil => trivial
  | cons a rest ih =>
      refine ⟨fun k hk => ?_, ih fun b hb => hnone b (List.mem_cons_of_mem _ hb)⟩
      rw [hnone a List.mem_cons_self] at hk
      cases hk

theorem Serial.append {as bs : List α} (ha : Serial asks ends as) (hb : Serial asks ends bs) :
    Serial asks ends (as ++ bs) := by
  induction as with
  | nil => exact hb
  | cons a rest ih => exact ⟨fun k hk => (ha.1 k hk).append bs, ih ha.2⟩

theorem Settles.mem {k : κ} {mid post : List α} {b : α} (hb : asks b = some k)
    (hdisjoint : ∀ a, ends k a → asks a ≠ some k)
    (h : Settles asks ends k (mid ++ b :: post)) : ∃ a ∈ mid, ends k a := by
  induction mid with
  | nil =>
      rcases h with h | ⟨hne, -⟩
      · exact absurd hb (hdisjoint b h)
      · exact absurd hb hne
  | cons a rest ih =>
      rcases h with h | ⟨-, h⟩
      · exact ⟨a, List.mem_cons_self, h⟩
      · obtain ⟨c, hc, hends⟩ := ih h
        exact ⟨c, List.mem_cons_of_mem _ hc, hends⟩

/-- Between two beginnings there is an end. -/
theorem Serial.between {k : κ} {pre mid post : List α} {a b : α}
    (h : Serial asks ends (pre ++ a :: (mid ++ b :: post))) (ha : asks a = some k)
    (hb : asks b = some k) (hdisjoint : ∀ a, ends k a → asks a ≠ some k) :
    ∃ c ∈ mid, ends k c := by
  induction pre with
  | nil => exact (h.1 k ha).mem hb hdisjoint
  | cons x rest ih => exact ih h.2

end Serial

end Lib
