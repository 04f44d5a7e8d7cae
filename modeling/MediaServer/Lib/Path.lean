/-
Paths, resolved by their text alone.

A path is a list of segments: a name is entered, `..` leaves what was entered last, and
`.` stays.  Where nothing was entered `..` leads above where one started, and from there
no path is known to lead back.  `resolve` keeps the names that were entered and not left,
the last one first, and counts the ways up.

`resolve` answers where a whole path leads.  What it takes to stay below one name is told
without it, by counting: the names less the ways up, of every part the path starts with
(`resolve_last`).
-/
import Mathlib.Tactic.Common
import Mathlib.Data.List.Induction

namespace Lib

variable {α : Type*}

inductive Segment (α : Type*)
  | here
  | up
  | name (a : α)
  deriving DecidableEq

/-- Where a path leads: so far up, and then into these names, the last one first. -/
structure Place (α : Type*) where
  ups : Nat
  names : List α

namespace Place

def enter : Segment α → Place α → Place α
  | .here, p => p
  | .name a, p => { p with names := a :: p.names }
  | .up, p =>
      match p.names with
      | [] => { p with ups := p.ups + 1 }
      | _ :: rest => { p with names := rest }

end Place

def resolve (path : List (Segment α)) : Place α :=
  path.foldl (fun p seg => p.enter seg) { ups := 0, names := [] }

theorem resolve_concat (path : List (Segment α)) (seg : Segment α) :
    resolve (path ++ [seg]) = (resolve path).enter seg := by
  rw [resolve, List.foldl_append]
  rfl

/-! ### Counting -/

namespace Segment

def isName : Segment α → Bool
  | .name _ => true
  | .here | .up => false

def isUp : Segment α → Bool
  | .up => true
  | .here | .name _ => false

end Segment

/-- The names of a path, less the ways up. -/
def level (path : List (Segment α)) : Int :=
  path.countP Segment.isName - path.countP Segment.isUp

/-- No part the path starts with leads above where it starts. -/
def Stays (path : List (Segment α)) : Prop := ∀ part, part <+: path → 0 ≤ level part

variable {path pre post : List (Segment α)} {seg : Segment α} {a dir : α}

theorem level_append : level (pre ++ post) = level pre + level post := by
  simp only [level, List.countP_append]
  omega

@[simp] theorem level_here : level [(.here : Segment α)] = 0 := rfl

@[simp] theorem level_up : level [(.up : Segment α)] = -1 := rfl

@[simp] theorem level_name : level [.name a] = 1 := rfl

theorem stays_nil : Stays ([] : List (Segment α)) := by
  intro part hpart
  rw [List.prefix_nil.mp hpart]
  exact Int.le_refl _

theorem stays_concat : Stays (path ++ [seg]) ↔ Stays path ∧ 0 ≤ level (path ++ [seg]) := by
  constructor
  · intro h
    exact ⟨fun part hpart => h part (hpart.trans (List.prefix_append _ _)),
      h _ (List.prefix_refl _)⟩
  · rintro ⟨hpath, hall⟩ part hpart
    rcases List.prefix_concat_iff.mp hpart with rfl | hpart
    · exact hall
    · exact hpath part hpart

/-- A path leads as deep as it counts. -/
theorem resolve_level (path : List (Segment α)) :
    level path = (resolve path).names.length - (resolve path).ups := by
  induction path using List.reverseRecOn with
  | nil => rfl
  | append_singleton path seg ih =>
      rw [level_append, ih, resolve_concat]
      cases seg with
      | here => simp [Place.enter]
      | name a =>
          simp only [Place.enter, level_name, List.length_cons]
          omega
      | up =>
          cases hnames : (resolve path).names with
          | nil =>
              simp only [Place.enter, hnames, level_up, List.length_nil]
              omega
          | cons b rest =>
              simp only [Place.enter, hnames, level_up, List.length_cons]
              omega

/-- A path that stays is one that does not lead above where it starts. -/
theorem stays_iff (path : List (Segment α)) : Stays path ↔ (resolve path).ups = 0 := by
  induction path using List.reverseRecOn with
  | nil => exact iff_of_true stays_nil rfl
  | append_singleton path seg ih =>
      rw [stays_concat, ih, resolve_level, resolve_concat]
      cases seg with
      | here =>
          simp only [Place.enter]
          omega
      | name a =>
          simp only [Place.enter, List.length_cons]
          omega
      | up =>
          cases hnames : (resolve path).names with
          | nil =>
              simp only [Place.enter, hnames, List.length_nil]
              omega
          | cons b rest =>
              simp only [Place.enter, hnames]
              omega

/-- What comes before a path that stays is not left. -/
theorem resolve_append (post : List (Segment α)) (h : Stays post) :
    resolve (pre ++ post)
      = { resolve pre with names := (resolve post).names ++ (resolve pre).names } := by
  induction post using List.reverseRecOn with
  | nil =>
      rw [List.append_nil]
      rfl
  | append_singleton post seg ih =>
      obtain ⟨hpost, hall⟩ := stays_concat.mp h
      rw [← List.append_assoc, resolve_concat, ih hpost, resolve_concat]
      cases seg with
      | here => rfl
      | name a => rfl
      | up =>
          cases hnames : (resolve post).names with
          | nil =>
              -- `post` counts nothing, and with one way up less than nothing.
              have hlevel := resolve_level post
              rw [hnames, (stays_iff post).mp hpost] at hlevel
              simp [level_append, hlevel] at hall
          | cons b rest => simp [Place.enter, hnames]

/-- A path that starts with a part that stays and counts nothing, enters `dir`, and then stays. -/
def Enters (dir : α) (path : List (Segment α)) : Prop :=
  ∃ pre post, path = pre ++ .name dir :: post ∧ Stays pre ∧ level pre = 0 ∧ Stays post

theorem level_cons : level (seg :: path) = level [seg] + level path := by
  rw [← level_append, List.singleton_append]

theorem Enters.concat (h : Enters dir path) (hlevel : 1 ≤ level (path ++ [seg])) :
    Enters dir (path ++ [seg]) := by
  obtain ⟨pre, post, rfl, hpre, hzero, hpost⟩ := h
  refine ⟨pre, post ++ [seg], by simp, hpre, hzero, stays_concat.mpr ⟨hpost, ?_⟩⟩
  rw [List.append_assoc, level_append, hzero, List.cons_append, level_cons, level_name] at hlevel
  omega

theorem Enters.resolve (h : Enters dir path) :
    (resolve path).ups = 0 ∧ (resolve path).names.getLast? = some dir := by
  obtain ⟨pre, post, rfl, hpre, hzero, hpost⟩ := h
  have hups := (stays_iff pre).mp hpre
  have hnames : (Lib.resolve pre).names = [] := by
    have hlength := resolve_level pre
    rw [hzero, hups] at hlength
    exact List.length_eq_zero_iff.mp (by omega)
  have hentered : Lib.resolve (pre ++ [.name dir]) = { ups := 0, names := [dir] } := by
    rw [resolve_concat, Place.enter, hups, hnames]
  have hall : Lib.resolve (pre ++ .name dir :: post)
      = { ups := 0, names := (Lib.resolve post).names ++ [dir] } := by
    rw [List.append_cons, resolve_append post hpost, hentered]
  simp [hall]

/-- **Where a path leads to `dir` or below it.** -/
theorem resolve_iff (dir : α) (path : List (Segment α)) :
    (resolve path).ups = 0 ∧ (resolve path).names.getLast? = some dir ↔ Enters dir path := by
  refine ⟨fun h => ?_, Enters.resolve⟩
  induction path using List.reverseRecOn with
  | nil => cases h.2
  | append_singleton path seg ih =>
      obtain ⟨hups, hlast⟩ := h
      have hups' : (resolve path).ups = 0 :=
        (stays_iff path).mp (stays_concat.mp ((stays_iff _).mpr hups)).1
      have hlevel : 1 ≤ level (path ++ [seg]) := by
        have hlength := List.length_pos_iff.mpr fun hnil : (resolve (path ++ [seg])).names = [] => by
          simp [hnil] at hlast
        rw [resolve_level, hups]
        omega
      by_cases hbefore : (resolve path).names.getLast? = some dir
      · exact (ih ⟨hups', hbefore⟩).concat hlevel
      · -- So it is this segment that enters `dir`, with nothing entered before.
        rw [resolve_concat] at hups hlast
        cases seg with
        | here => exact absurd hlast hbefore
        | name a =>
            cases hnames : (resolve path).names with
            | nil =>
                simp only [Place.enter, hnames, List.getLast?_singleton, Option.some.injEq] at hlast
                refine ⟨path, [], by rw [hlast], (stays_iff path).mpr hups', ?_, stays_nil⟩
                rw [resolve_level, hnames, hups']
                rfl
            | cons b rest =>
                simp only [Place.enter, hnames, List.getLast?_cons_cons] at hlast hbefore
                exact absurd hlast hbefore
        | up =>
            cases hnames : (resolve path).names with
            | nil => simp [Place.enter, hnames] at hups
            | cons b rest =>
                simp only [Place.enter, hnames] at hlast hbefore
                exact absurd (by rw [List.getLast?_cons, hlast]; rfl) hbefore

end Lib
