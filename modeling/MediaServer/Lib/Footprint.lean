/-
What a step touches, and which steps may change places.

A state is what is in its cells.  A step writes some of them, and some it only reads: where
it goes is decided by what is in the cells it reads, and nothing but the cells it writes is
changed by it.  Two steps are independent if neither writes what the other reads.  Then they
may change places: either order of them is a run, and both lead to the same state.  So of a
run only the order of the steps that are not independent matters.
-/
import Mathlib.Data.Set.Basic
import MediaServer.Lib.Trace

namespace Lib

variable {σ α ι : Type*} {V : ι → Type*}

/-- Two states have the same in these cells. -/
def Agree (look : σ → ∀ c, V c) (cells : Set ι) (s t : σ) : Prop :=
  ∀ c ∈ cells, look s c = look t c

variable {look : σ → ∀ c, V c} {step : σ → α → Option σ} {reads writes : σ → α → Set ι}

/-- The cells each step of a machine reads and writes. -/
structure Footprint (look : σ → ∀ c, V c) (step : σ → α → Option σ)
    (reads writes : σ → α → Set ι) : Prop where
  ext : ∀ s t, (∀ c, look s c = look t c) → s = t
  sub : ∀ s a, writes s a ⊆ reads s a
  /-- Where a footprint leads to is decided by what is read. -/
  stable : ∀ s s' a, Agree look (reads s a) s s' → reads s' a = reads s a ∧ writes s' a = writes s a
  frame : ∀ s a t, step s a = some t → ∀ c ∉ writes s a, look t c = look s c
  same : ∀ s a t s', step s a = some t → Agree look (reads s a) s s' →
    ∃ t', step s' a = some t' ∧ Agree look (writes s a) t t'

/-- Neither of two steps writes what the other reads. -/
def Independent (reads writes : σ → α → Set ι) (s : σ) (a b : α) : Prop :=
  (∀ c ∈ writes s a, c ∉ reads s b) ∧ ∀ c ∈ writes s b, c ∉ reads s a

namespace Footprint

variable {s t u : σ} {a b : α}

/-- A step changes nothing that an independent one reads. -/
theorem agree (h : Footprint look step reads writes) (hs : step s a = some t)
    (hfree : ∀ c ∈ writes s a, c ∉ reads s b) : Agree look (reads s b) s t := by
  intro c hc
  exact (h.frame s a t hs c fun hw => hfree c hw hc).symm

/-- **Independent steps may change places.** -/
theorem swap (h : Footprint look step reads writes) (hi : Independent reads writes s a b)
    (ha : step s a = some t) (hb : step t b = some u) :
    ∃ t', step s b = some t' ∧ step t' a = some u := by
  obtain ⟨hab, hba⟩ := hi
  -- The second step goes first, as nothing it reads is changed by the first.
  have hst := h.agree ha hab
  obtain ⟨hreads, hwrites⟩ := h.stable s t b hst
  obtain ⟨t', ht', hbt⟩ := h.same t b u s hb fun c hc => (hst c (hreads ▸ hc)).symm
  -- And so does the first after it.
  have hst' := h.agree ht' hba
  obtain ⟨-, hwrites'⟩ := h.stable s t' a hst'
  obtain ⟨u', hu', hat⟩ := h.same s a t t' ha hst'
  have heq : u' = u := by
    refine h.ext u' u fun c => ?_
    by_cases hca : c ∈ writes s a
    · have hcb : c ∉ writes t b := fun hc => hab c hca (h.sub s b (hwrites ▸ hc))
      rw [← hat c hca, h.frame t b u hb c hcb]
    · rw [h.frame t' a u' hu' c (hwrites' ▸ hca)]
      by_cases hcb : c ∈ writes t b
      · exact (hbt c hcb).symm
      · rw [h.frame t b u hb c hcb, h.frame s a t ha c hca,
          h.frame s b t' ht' c (hwrites ▸ hcb)]
  exact ⟨t', ht', heq ▸ hu'⟩

end Footprint

/-- What a run emits is what its beginning emits, and then the rest. -/
theorem emittedBy_append {β : Type*} {emit : σ → α → List β} {as bs : List α} {s t : σ}
    (hrun : runLabels step s as = some t) :
    emittedBy step emit s (as ++ bs) = emittedBy step emit s as ++ emittedBy step emit t bs := by
  induction as generalizing s with
  | nil =>
      simp only [runLabels_nil, Option.some.injEq] at hrun
      subst hrun
      rfl
  | cons a rest ih =>
      obtain ⟨u, hu, hrest⟩ := Option.bind_eq_some_iff.mp hrun
      simp only [List.cons_append, emittedBy, hu, List.append_assoc, ih hrest]

/-- One list of steps from another, by letting independent neighbours change places. -/
inductive Rearranges (step : σ → α → Option σ) (indep : σ → α → α → Prop) (s : σ)
    (as : List α) : List α → Prop
  | refl : Rearranges step indep s as as
  | swap {pre post : List α} {a b : α} {t : σ}
      (h : Rearranges step indep s as (pre ++ a :: b :: post))
      (hrun : runLabels step s pre = some t) (hi : indep t a b) :
      Rearranges step indep s as (pre ++ b :: a :: post)

namespace Rearranges

variable {indep : σ → α → α → Prop} {s : σ} {as bs cs : List α}

theorem trans (h₁ : Rearranges step indep s as bs) (h₂ : Rearranges step indep s bs cs) :
    Rearranges step indep s as cs := by
  induction h₂ with
  | refl => exact h₁
  | swap _ hrun hi ih => exact Rearranges.swap ih hrun hi

/-- The same steps after one more before them. -/
theorem cons {a : α} {t : σ} (ha : step s a = some t) (h : Rearranges step indep t as bs) :
    Rearranges step indep s (a :: as) (a :: bs) := by
  induction h with
  | refl => exact .refl
  | @swap pre post b c u _ hrun hi ih =>
      have hrun' : runLabels step s (a :: pre) = some u := (runLabels_cons ha).trans hrun
      have hswap : Rearranges step indep s (a :: as) ((a :: pre) ++ c :: b :: post) :=
        Rearranges.swap ih hrun' hi
      exact hswap

/-- **Rearranged, a run is a run to the same state.** -/
theorem run (h : Rearranges step (Independent reads writes) s as bs)
    (hf : Footprint look step reads writes) {t : σ} (hrun : runLabels step s as = some t) :
    runLabels step s bs = some t := by
  induction h with
  | refl => exact hrun
  | @swap pre post a b u _ hpre hi ih =>
      rw [runLabels_append, hpre, Option.bind_some] at ih ⊢
      obtain ⟨v, hv, hrest⟩ := Option.bind_eq_some_iff.mp ih
      obtain ⟨w, hw, hrest⟩ := Option.bind_eq_some_iff.mp hrest
      obtain ⟨v', hv', hw'⟩ := hf.swap hi hv hw
      rw [runLabels_cons hv', runLabels_cons hw']
      exact hrest

/--
And where each part of what is emitted comes from steps no two of which are independent,
it emits the same in every part.
-/
theorem emitted {β γ : Type*} {emit : σ → α → List β} {part : List β → List γ}
    (h : Rearranges step (Independent reads writes) s as bs)
    (hf : Footprint look step reads writes)
    (hpart : ∀ xs ys, part (xs ++ ys) = part xs ++ part ys)
    (hemit : ∀ s s' a, Agree look (reads s a) s s' → emit s' a = emit s a)
    (hone : ∀ s a b, Independent reads writes s a b → part (emit s a) = [] ∨ part (emit s b) = [])
    {t : σ} (hrun : runLabels step s as = some t) :
    part (emittedBy step emit s bs) = part (emittedBy step emit s as) := by
  induction h with
  | refl => rfl
  | @swap pre post a b u h hpre hi ih =>
      have hmid := h.run hf hrun
      rw [runLabels_append, hpre, Option.bind_some] at hmid
      obtain ⟨v, hv, hrest⟩ := Option.bind_eq_some_iff.mp hmid
      obtain ⟨w, hw, -⟩ := Option.bind_eq_some_iff.mp hrest
      obtain ⟨v', hv', hw'⟩ := hf.swap hi hv hw
      -- What each of the two emits does not depend on which of them goes first.
      have hb : emit v b = emit u b := hemit u v b (hf.agree hv hi.1)
      have ha : emit v' a = emit u a := hemit u v' a (hf.agree hv' hi.2)
      rw [← ih, emittedBy_append hpre, emittedBy_append hpre]
      simp only [emittedBy, hv, hw, hv', hw', ha, hb, hpart]
      rcases hone u a b hi with hnil | hnil
      · simp [hnil]
      · simp [hnil]

/-- A step goes first, before others it is independent of. -/
theorem first (hf : Footprint look step reads writes) {b : α} {pre : List α}
    (hindep : ∀ s, ∀ a ∈ pre, Independent reads writes s a b) :
    ∀ {post : List α}, (∃ t, runLabels step s (pre ++ b :: post) = some t) →
      Rearranges step (Independent reads writes) s (pre ++ b :: post) (b :: (pre ++ post)) := by
  induction pre using List.reverseRecOn with
  | nil => exact fun _ => .refl
  | append_singleton pre a ih =>
      rintro post ⟨t, hrun⟩
      have hpre : ∃ v, runLabels step s pre = some v := by
        rw [List.append_assoc, runLabels_append] at hrun
        obtain ⟨v, hv, -⟩ := Option.bind_eq_some_iff.mp hrun
        exact ⟨v, hv⟩
      obtain ⟨v, hv⟩ := hpre
      have hswap : Rearranges step (Independent reads writes) s (pre ++ [a] ++ b :: post)
          (pre ++ b :: a :: post) := by
        rw [List.append_assoc]
        exact .swap .refl hv (hindep v a (by simp))
      have hrest := ih (fun s x hx => hindep s x (List.mem_append_left _ hx))
        ⟨t, hswap.run hf hrun⟩
      rw [List.append_assoc pre [a] post]
      exact hswap.trans hrest

/--
Where the steps of different threads are independent, two lists in which each thread has
the same steps in the same order are rearrangements of one another.
-/
theorem of_threads {κ : Type*} [DecidableEq κ] (hf : Footprint look step reads writes)
    (thread : α → κ)
    (hindep : ∀ s, ∀ a b, a ∈ as → b ∈ as → thread a ≠ thread b → Independent reads writes s a b)
    (hrun : ∃ t, runLabels step s as = some t)
    (hthreads : ∀ k, as.filter (thread · = k) = bs.filter (thread · = k)) :
    Rearranges step (Independent reads writes) s as bs := by
  induction bs generalizing as s with
  | nil =>
      have hnil : as = [] := by
        refine List.eq_nil_iff_forall_not_mem.mpr fun a ha => ?_
        have hmem : a ∈ as.filter (thread · = thread a) := List.mem_filter.mpr ⟨ha, by simp⟩
        rw [hthreads] at hmem
        cases hmem
      rw [hnil]
      exact .refl
  | cons b rest ih =>
      -- The first step of the thread of `b` is `b`, and can go first.
      have hfirst : as.filter (thread · = thread b) = b :: rest.filter (thread · = thread b) := by
        rw [hthreads, List.filter_cons_of_pos (by simp)]
      obtain ⟨pre, post, rfl, hpre, hb, hpost⟩ := List.filter_eq_cons_iff.mp hfirst
      have hothers : ∀ a ∈ pre, thread a ≠ thread b := by
        intro a ha heq
        exact hpre a ha (by simp [heq])
      have hfree : ∀ s, ∀ a ∈ pre, Independent reads writes s a b := fun s a ha =>
        hindep s a b (List.mem_append_left _ ha) (by simp) (hothers a ha)
      have hpull : Rearranges step (Independent reads writes) s (pre ++ b :: post)
          (b :: (pre ++ post)) := first hf hfree hrun
      obtain ⟨t, hrun⟩ := hrun
      have hfront := hpull.run hf hrun
      obtain ⟨u, hu, hrest⟩ := Option.bind_eq_some_iff.mp hfront
      refine hpull.trans (cons hu (ih ?_ ⟨t, hrest⟩ fun k => ?_))
      · intro s a c ha hc hne
        have hin : ∀ x ∈ pre ++ post, x ∈ pre ++ b :: post := by
          intro x hx
          rcases List.mem_append.mp hx with hx | hx
          · exact List.mem_append_left _ hx
          · exact List.mem_append_right _ (List.mem_cons_of_mem _ hx)
        exact hindep s a c (hin a ha) (hin c hc) hne
      · have hall := hthreads k
        rw [List.filter_append] at hall ⊢
        by_cases hk : thread b = k
        · subst hk
          rw [List.filter_eq_nil_iff.mpr fun a ha => hpre a ha, List.nil_append]
          exact hpost
        · rwa [List.filter_cons_of_neg (by simpa using hk),
            List.filter_cons_of_neg (by simpa using hk)] at hall

end Rearranges

end Lib
