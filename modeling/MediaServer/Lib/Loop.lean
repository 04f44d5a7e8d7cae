/-
Loops that may fail, and loops that drain.

Two shapes of loop recur in imperative code.  `for a in as { .. }` walks a list it
was given and stops at the first error; `while let Some(a) = next() { .. }` asks
the state itself for the next element and stops when there is none.  Both are
defined here once, with the rules their proofs need.

The second kind need not terminate, so it comes with a measure: each turn that
finds an element lowers it, and one more turn than the measure counts is always
enough.  `drain_eq` is what makes the fuel invisible — the loop satisfies the
equation the `while let` reads as.

A third shape is asked of a state rather than run on it: what would be answered, if
one asked until told that nothing is left.  That is `batch`.
-/
import Mathlib.Tactic.Common

namespace Lib

variable {σ α β ε : Type*}

theorem except_map_ok {γ : Type*} {x : Except ε α} {g : α → γ} {c : γ} :
    x.map g = .ok c ↔ ∃ a, x = .ok a ∧ g a = c := by
  cases x with
  | error e => simp [Except.map]
  | ok a => simp [Except.map]

theorem except_map_exists_ok {γ : Type*} {x : Except ε α} {g : α → γ} :
    (∃ c, x.map g = .ok c) ↔ ∃ a, x = .ok a := by
  cases x with
  | error e => simp [Except.map]
  | ok a => simp [Except.map]

theorem except_map_error {γ : Type*} {x : Except ε α} {g : α → γ} {e : ε} :
    x.map g = .error e ↔ x = .error e := by
  cases x <;> simp [Except.map]

/-- The error, if there is one. -/
def failure : Except ε α → Option ε
  | .error e => some e
  | .ok _ => none

theorem failure_eq_some {x : Except ε α} {e : ε} : failure x = some e ↔ x = .error e := by
  cases x <;> simp [failure]

theorem toOption_eq_some {x : Except ε α} {a : α} : x.toOption = some a ↔ x = .ok a := by
  cases x <;> simp [Except.toOption]

/-! ### Walking a list -/

/-- Run `f` on each element in turn, collecting what the turns emit. -/
def forEach (f : α → σ → Except ε (σ × List β)) : List α → σ → Except ε (σ × List β)
  | [], s => .ok (s, [])
  | a :: as, s =>
      match f a s with
      | .error e => .error e
      | .ok (t, bs) => (forEach f as t).map fun r => (r.1, bs ++ r.2)

variable {f : α → σ → Except ε (σ × List β)}

@[simp] theorem forEach_nil (s : σ) : forEach f [] s = .ok (s, []) := rfl

theorem forEach_cons {a : α} {as : List α} {s t : σ} {bs : List β} (h : f a s = .ok (t, bs)) :
    forEach f (a :: as) s = (forEach f as t).map fun r => (r.1, bs ++ r.2) := by
  rw [forEach, h]

theorem forEach_cons_error {a : α} {as : List α} {s : σ} {e : ε} (h : f a s = .error e) :
    forEach f (a :: as) s = .error e := by
  rw [forEach, h]

/-- A turn that succeeds hands its state to the rest of the walk. -/
theorem forEach_cons_ok {a : α} {as : List α} {s u : σ} {bs : List β} :
    forEach f (a :: as) s = .ok (u, bs) ↔
      ∃ t bs₁ bs₂, f a s = .ok (t, bs₁) ∧ forEach f as t = .ok (u, bs₂) ∧ bs = bs₁ ++ bs₂ := by
  constructor
  · intro h
    cases hf : f a s with
    | error e => rw [forEach_cons_error hf] at h; cases h
    | ok r =>
        rw [forEach_cons hf] at h
        obtain ⟨q, hr, hq⟩ := except_map_ok.mp h
        cases hq
        exact ⟨r.1, r.2, q.2, rfl, hr, rfl⟩
  · rintro ⟨t, bs₁, bs₂, hf, hr, rfl⟩
    rw [forEach_cons hf, hr]
    rfl

theorem forEach_append (as cs : List α) :
    ∀ s, forEach f (as ++ cs) s =
      match forEach f as s with
      | .error e => .error e
      | .ok r => (forEach f cs r.1).map fun q => (q.1, r.2 ++ q.2) := by
  induction as with
  | nil =>
      intro s
      simp only [List.nil_append, forEach_nil]
      cases forEach f cs s <;> rfl
  | cons a rest ih =>
      intro s
      rw [List.cons_append]
      cases hf : f a s with
      | error e => rw [forEach_cons_error hf, forEach_cons_error hf]
      | ok r =>
          rw [forEach_cons hf, forEach_cons hf, ih]
          cases forEach f rest r.1 with
          | error e => rfl
          | ok q => cases hc : forEach f cs q.1 <;> simp [Except.map, hc]

/-- Walking a list of lists is walking their elements. -/
theorem forEach_flatten (ass : List (List α)) :
    ∀ s, forEach (fun as => forEach f as) ass s = forEach f ass.flatten s := by
  induction ass with
  | nil => intro s; rfl
  | cons as rest ih =>
      intro s
      rw [List.flatten_cons, forEach_append]
      cases hf : forEach f as s with
      | error e => exact forEach_cons_error hf
      | ok r => rw [forEach_cons hf, ih]

theorem forEach_map {γ : Type*} (g : γ → α) (cs : List γ) :
    ∀ s, forEach f (cs.map g) s = forEach (fun c => f (g c)) cs s := by
  induction cs with
  | nil => intro s; rfl
  | cons c rest ih => intro s; simp only [List.map_cons, forEach, ih]

theorem forEach_singleton (a : α) (s : σ) : forEach f [a] s = f a s := by
  cases hf : f a s with
  | error e => exact forEach_cons_error hf
  | ok r => simp [forEach_cons hf, Except.map]

/-- What every turn preserves, the walk preserves; `P` sees all that was emitted so far. -/
theorem forEach_preserves {P : List β → σ → Prop}
    (hstep : ∀ a s t as bs, f a s = .ok (t, bs) → P as s → P (as ++ bs) t)
    {as : List α} {s t : σ} {bs : List β} (h : forEach f as s = .ok (t, bs)) (hP : P [] s) :
    P bs t := by
  -- Generalised to what was emitted before the walk.
  have key : ∀ (as : List α) (s t : σ) (os bs : List β),
      forEach f as s = .ok (t, bs) → P os s → P (os ++ bs) t := by
    intro as
    induction as with
    | nil =>
        intro s t os bs h hP
        simp only [forEach_nil, Except.ok.injEq, Prod.mk.injEq] at h
        obtain ⟨rfl, rfl⟩ := h
        simpa using hP
    | cons a rest ih =>
        intro s t os bs h hP
        obtain ⟨t', b₁, b₂, hf, hr, rfl⟩ := forEach_cons_ok.mp h
        rw [← List.append_assoc]
        exact ih t' t (os ++ b₁) b₂ hr (hstep a s t' os b₁ hf hP)
  exact key as s t [] bs h hP

/--
Two walks over one list, whose turns go through the same states: what they emit is
related if it is turn by turn, and the relation is one of appended lists.
-/
theorem forEach_relates {γ : Type*} {g : α → σ → Except ε (σ × List γ)}
    {R : List β → List γ → Prop} (hnil : R [] [])
    (happend : ∀ bs cs bs' cs', R bs cs → R bs' cs' → R (bs ++ bs') (cs ++ cs')) :
    ∀ {as : List α} {s t : σ} {bs : List β},
      (∀ a ∈ as, ∀ s t bs, f a s = .ok (t, bs) → ∃ cs, g a s = .ok (t, cs) ∧ R bs cs) →
      forEach f as s = .ok (t, bs) → ∃ cs, forEach g as s = .ok (t, cs) ∧ R bs cs := by
  intro as
  induction as with
  | nil =>
      intro s t bs _ h
      cases h
      exact ⟨[], rfl, hnil⟩
  | cons a rest ih =>
      intro s t bs hturn h
      obtain ⟨u, b₁, b₂, hf, hr, rfl⟩ := forEach_cons_ok.mp h
      obtain ⟨c₁, hg, hR₁⟩ := hturn a List.mem_cons_self s u b₁ hf
      obtain ⟨c₂, hr', hR₂⟩ := ih (fun x hx => hturn x (List.mem_cons_of_mem _ hx)) hr
      exact ⟨c₁ ++ c₂, forEach_cons_ok.mpr ⟨u, c₁, c₂, hg, hr', rfl⟩, happend _ _ _ _ hR₁ hR₂⟩

/-- A walk fails only where one of its turns does. -/
theorem forEach_error {e : ε} :
    ∀ {as : List α} {s : σ}, forEach f as s = .error e →
      ∃ pre a post t bs, as = pre ++ a :: post ∧ forEach f pre s = .ok (t, bs) ∧
        f a t = .error e := by
  intro as
  induction as with
  | nil => intro s h; simp at h
  | cons a rest ih =>
      intro s h
      cases hf : f a s with
      | error e' =>
          rw [forEach_cons_error hf] at h
          exact ⟨[], a, rest, s, [], rfl, rfl, by rw [hf, ← h]⟩
      | ok r =>
          obtain ⟨t, b₁⟩ := r
          rw [forEach_cons hf, except_map_error] at h
          obtain ⟨pre, x, post, u, b₂, rfl, hpre, hx⟩ := ih h
          exact ⟨a :: pre, x, post, u, b₁ ++ b₂, rfl,
            forEach_cons_ok.mpr ⟨t, b₁, b₂, hf, hpre, rfl⟩, hx⟩

/-! ### Draining -/

/-- `while let Some(a) = next(s) { s = body(a, s) }`, for at most `fuel` turns. -/
def drainFuel (next : σ → Option α × σ) (body : α → σ → σ) : Nat → σ → σ
  | 0, s => s
  | fuel + 1, s =>
      match next s with
      | (none, t) => t
      | (some a, t) => drainFuel next body fuel (body a t)

/-- The loop itself: one turn more than the measure counts. -/
def drain (measure : σ → Nat) (next : σ → Option α × σ) (body : α → σ → σ) (s : σ) : σ :=
  drainFuel next body (measure s + 1) s

/-- The measure counts the turns: a turn that finds an element lowers it. -/
def Drains (measure : σ → Nat) (next : σ → Option α × σ) (body : α → σ → σ) : Prop :=
  ∀ s a t, next s = (some a, t) → measure (body a t) < measure s

variable {measure : σ → Nat} {next : σ → Option α × σ} {body : α → σ → σ}

/-- Any two amounts of fuel above the measure give the same run. -/
theorem drainFuel_eq (h : Drains measure next body) :
    ∀ (m n : Nat) (s : σ), measure s < m → measure s < n →
      drainFuel next body m s = drainFuel next body n s := by
  intro m
  induction m with
  | zero => intro n s hm; omega
  | succ m ih =>
      intro n s hm hn
      match n, hn with
      | n + 1, hn =>
          rw [drainFuel, drainFuel]
          cases hs : next s with
          | mk o t =>
              cases o with
              | none => rfl
              | some a =>
                  have hlt := h s a t hs
                  exact ih n (body a t) (by omega) (by omega)

/-- The loop unfolds the way `while let` does. -/
theorem drain_eq (h : Drains measure next body) (s : σ) :
    drain measure next body s =
      match next s with
      | (none, t) => t
      | (some a, t) => drain measure next body (body a t) := by
  unfold drain
  rw [drainFuel]
  cases hs : next s with
  | mk o t =>
      cases o with
      | none => rfl
      | some a =>
          have hlt := h s a t hs
          exact drainFuel_eq h _ _ _ (by omega) (by omega)

/--
The rule for the loop: what every turn preserves holds when the loop stops, and it
stops on a state that had no next element.
-/
theorem drain_rule (h : Drains measure next body) {P : σ → Prop} {Q : σ → Prop}
    (hbody : ∀ s a t, P s → next s = (some a, t) → P (body a t))
    (hstop : ∀ s t, P s → next s = (none, t) → Q t) :
    ∀ s, P s → Q (drain measure next body s) := by
  have key : ∀ (n : Nat) (s : σ), measure s < n → P s → Q (drain measure next body s) := by
    intro n
    induction n with
    | zero => intro s hs; omega
    | succ n ih =>
        intro s hs hP
        rw [drain_eq h]
        cases hn : next s with
        | mk o t =>
            cases o with
            | none => exact hstop s t hP hn
            | some a =>
                have hlt := h s a t hn
                exact ih (body a t) (by omega) (hbody s a t hP hn)
  exact fun s => key (measure s + 1) s (by omega)

/-! ### Asking until nothing is left -/

/-- The answers of `ask`, up to the first that is `final`. -/
def batchFuel (ask : σ → α × σ) (final : α → Bool) : Nat → σ → List α
  | 0, _ => []
  | fuel + 1, s =>
      (ask s).1 :: if final (ask s).1 then [] else batchFuel ask final fuel (ask s).2

/-- All of them: one answer more than the measure counts. -/
def batch (measure : σ → Nat) (ask : σ → α × σ) (final : α → Bool) (s : σ) : List α :=
  batchFuel ask final (measure s + 1) s

section Batch

variable {ask : σ → α × σ} {final : α → Bool}

/-- Any two amounts of fuel above the measure give the same answers. -/
theorem batchFuel_eq (h : ∀ s, final (ask s).1 = false → measure (ask s).2 < measure s) :
    ∀ (m n : Nat) (s : σ), measure s < m → measure s < n →
      batchFuel ask final m s = batchFuel ask final n s := by
  intro m
  induction m with
  | zero => intro n s hm; omega
  | succ m ih =>
      intro n s hm hn
      match n, hn with
      | n + 1, hn =>
          rw [batchFuel, batchFuel]
          by_cases hf : final (ask s).1
          · simp [hf]
          · have hlt := h s (Bool.not_eq_true _ ▸ hf)
            rw [ih n (ask s).2 (by omega) (by omega)]

theorem batch_eq (h : ∀ s, final (ask s).1 = false → measure (ask s).2 < measure s) (s : σ) :
    batch measure ask final s
      = (ask s).1 :: if final (ask s).1 then [] else batch measure ask final (ask s).2 := by
  unfold batch
  rw [batchFuel]
  by_cases hf : final (ask s).1
  · simp [hf]
  · have hlt := h s (Bool.not_eq_true _ ▸ hf)
    rw [batchFuel_eq h (measure s) (measure (ask s).2 + 1) (ask s).2 hlt (Nat.lt_succ_self _)]

/-- The last answer is final, and it is the only one. -/
theorem batch_split (h : ∀ s, final (ask s).1 = false → measure (ask s).2 < measure s) :
    ∀ s, ∃ init last, batch measure ask final s = init ++ [last] ∧ final last = true ∧
      ∀ a ∈ init, final a = false := by
  have key : ∀ (n : Nat) (s : σ), measure s < n → ∃ init last,
      batch measure ask final s = init ++ [last] ∧ final last = true ∧
        ∀ a ∈ init, final a = false := by
    intro n
    induction n with
    | zero => intro s hs; omega
    | succ n ih =>
        intro s hs
        rw [batch_eq h]
        by_cases hf : final (ask s).1
        · exact ⟨[], (ask s).1, by simp [hf], hf, by simp⟩
        · have hlt := h s (Bool.not_eq_true _ ▸ hf)
          obtain ⟨init, last, hbatch, hlast, hinit⟩ := ih (ask s).2 (by omega)
          refine ⟨(ask s).1 :: init, last, by simp [hf, hbatch], hlast, ?_⟩
          intro a ha
          rcases List.mem_cons.mp ha with rfl | ha
          · exact Bool.not_eq_true _ ▸ hf
          · exact hinit a ha
  exact fun s => key (measure s + 1) s (by omega)

/-- Wherever one stops asking, one has everything if and only if the last answer was final. -/
theorem batch_stop (h : ∀ s, final (ask s).1 = false → measure (ask s).2 < measure s) {s : σ}
    {asked rest : List α} {a : α} (hbatch : batch measure ask final s = asked ++ a :: rest) :
    final a = true ↔ rest = [] := by
  obtain ⟨init, last, heq, hlast, hinit⟩ := batch_split h s
  rw [heq] at hbatch
  rcases List.eq_nil_or_concat rest with rfl | ⟨front, b, rfl⟩
  · obtain ⟨-, hab⟩ := List.append_inj' hbatch rfl
    cases hab
    simp [hlast]
  · rw [List.concat_eq_append, ← List.cons_append, ← List.append_assoc] at hbatch
    obtain ⟨rfl, -⟩ := List.append_inj' hbatch rfl
    simp [hinit a (by simp)]

end Batch

end Lib
