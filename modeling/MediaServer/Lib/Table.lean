/-
Finite maps, read through `lookup`.

A hash map is used here for three things only: to look a key up, to overwrite a
key and to remove one.  Mathlib's `Finmap` is exactly that, it is extensional, and
it has no order, so nothing proved over it can lean on the order in which a real
hash map happens to be walked.  What is added is the form the proofs want: every
operation read back as an `if` on the key that is looked up.
-/
import Mathlib.Data.Finmap

namespace Lib

/-- A finite map from `κ` to `α`. -/
abbrev Table (κ α : Type*) := Finmap fun _ : κ => α

namespace Table

variable {κ α : Type*} [DecidableEq κ]

@[simp] theorem lookup_insert_ite (m : Table κ α) (k k' : κ) (a : α) :
    (m.insert k a).lookup k' = if k' = k then some a else m.lookup k' := by
  split
  · rename_i h
    rw [h, Finmap.lookup_insert]
  · rename_i h
    rw [Finmap.lookup_insert_of_ne _ h]

@[simp] theorem lookup_erase_ite (m : Table κ α) (k k' : κ) :
    (m.erase k).lookup k' = if k' = k then none else m.lookup k' := by
  split
  · rename_i h
    rw [h, Finmap.lookup_erase]
  · rename_i h
    rw [Finmap.lookup_erase_ne h]

theorem eq_empty_iff (m : Table κ α) : m = ∅ ↔ ∀ k, m.lookup k = none := by
  constructor
  · intro h k
    rw [h, Finmap.lookup_empty]
  · intro h
    exact Finmap.ext_lookup fun k => by rw [h k, Finmap.lookup_empty]

/-- Writing back the value that is there changes nothing. -/
theorem insert_lookup {m : Table κ α} {k : κ} {a : α} (h : m.lookup k = some a) :
    m.insert k a = m := by
  refine Finmap.ext_lookup fun k' => ?_
  rw [lookup_insert_ite]
  split
  · rename_i hk
    rw [hk, h]
  · rfl

/-- The map a list of pairs collects into: of two pairs with one key the later wins. -/
def ofList (l : List (κ × α)) : Table κ α :=
  l.foldl (fun m p => m.insert p.1 p.2) ∅

theorem ofList_concat (l : List (κ × α)) (p : κ × α) :
    ofList (l ++ [p]) = (ofList l).insert p.1 p.2 := by
  rw [ofList, List.foldl_append]
  rfl

/-- What is found was in the list. -/
theorem mem_of_lookup_ofList {l : List (κ × α)} {k : κ} {a : α}
    (h : (ofList l).lookup k = some a) : (k, a) ∈ l := by
  induction l using List.reverseRecOn with
  | nil => cases h
  | append_singleton l p ih =>
      rw [ofList_concat, lookup_insert_ite] at h
      split at h
      · rename_i hk
        cases h
        simp [hk]
      · exact List.mem_append_left _ (ih h)

/-- A key with a pair in the list is found. -/
theorem lookup_ofList_eq_none {l : List (κ × α)} {k : κ} :
    (ofList l).lookup k = none ↔ ∀ p ∈ l, p.1 ≠ k := by
  induction l using List.reverseRecOn with
  | nil => exact iff_of_true rfl (by simp)
  | append_singleton l p ih =>
      rw [ofList_concat, lookup_insert_ite, List.forall_mem_append, ← ih]
      by_cases hk : k = p.1
      · simp [hk]
      · simp [hk, Ne.symm hk]

/-- Where every key has one pair, each pair is found. -/
theorem lookup_ofList_of_nodup {l : List (κ × α)} {p : κ × α} (h : (l.map Prod.fst).Nodup)
    (hp : p ∈ l) : (ofList l).lookup p.1 = some p.2 := by
  induction l using List.reverseRecOn with
  | nil => cases hp
  | append_singleton l q ih =>
      rw [List.map_append, List.map_singleton, List.nodup_append] at h
      rw [ofList_concat, lookup_insert_ite]
      rcases List.mem_append.mp hp with hold | hnew
      · have hne : p.1 ≠ q.1 := h.2.2 p.1 (List.mem_map_of_mem hold) q.1 (by simp)
        rw [if_neg hne]
        exact ih h.1 hold
      · rw [List.mem_singleton.mp hnew, if_pos rfl]

/-- Remove the keys of a list, one after another. -/
def eraseAll (m : Table κ α) (ks : List κ) : Table κ α :=
  ks.foldl (fun m k => m.erase k) m

@[simp] theorem lookup_eraseAll (ks : List κ) :
    ∀ (m : Table κ α) (k : κ),
      (eraseAll m ks).lookup k = if k ∈ ks then none else m.lookup k := by
  induction ks with
  | nil => intro m k; simp [eraseAll]
  | cons x rest ih =>
      intro m k
      show (eraseAll (m.erase x) rest).lookup k = _
      rw [ih, lookup_erase_ite]
      by_cases hk : k = x <;> simp [hk]

end Table

end Lib
