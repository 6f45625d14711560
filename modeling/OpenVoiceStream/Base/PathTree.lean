import Mathlib.Data.List.Basic
import Mathlib.Data.List.Infix

/-!
# Trees of paths

A directory tree as a function from the paths below its root: what stands there, if
anything does.  What stands under one name of the root is a tree of its own.

## Main definitions

* `PathTree` — the trees.
* `PathTree.sub`, `PathTree.put` — what stands under a name, and another tree in its place.

## Main results

* `PathTree.put_eq_self_iff` — a tree put under a name changes nothing if it was there.
-/

/-- What stands at each path. -/
abbrev PathTree (N ν : Type*) := List N → Option ν

namespace PathTree

variable {N ν : Type*} [DecidableEq N] (t s : PathTree N ν) (n : N)

/-- What stands under a name of the root. -/
def sub : PathTree N ν := fun path => t (n :: path)

/-- Another tree under a name of the root. -/
def put : PathTree N ν
  | [] => t []
  | m :: path => if m = n then s path else t (m :: path)

variable {t s n} {m : N}

@[simp] theorem put_nil : t.put s n [] = t [] := rfl

@[simp] theorem put_cons_self (path : List N) : t.put s n (n :: path) = s path := if_pos rfl

theorem put_cons_of_ne (h : m ≠ n) (path : List N) : t.put s n (m :: path) = t (m :: path) :=
  if_neg h

@[simp] theorem sub_put_self : (t.put s n).sub n = s := funext put_cons_self

theorem sub_put_of_ne (h : m ≠ n) : (t.put s n).sub m = t.sub m := funext (put_cons_of_ne h)

@[simp] theorem put_put (s' : PathTree N ν) : (t.put s n).put s' n = t.put s' n := by
  funext path
  cases path with
  | nil => rfl
  | cons m path =>
    by_cases hm : m = n
    · subst hm
      rw [put_cons_self, put_cons_self]
    · rw [put_cons_of_ne hm, put_cons_of_ne hm, put_cons_of_ne hm]

/-- **A tree put under a name changes nothing** if it was there. -/
theorem put_eq_self_iff : t.put s n = t ↔ s = t.sub n := by
  constructor
  · intro h
    have hsub : (t.put s n).sub n = s := sub_put_self
    rw [← hsub, h]
  · rintro rfl
    funext path
    cases path with
    | nil => rfl
    | cons m path =>
      by_cases hm : m = n
      · subst hm
        exact put_cons_self path
      · exact put_cons_of_ne hm path

@[simp] theorem put_sub : t.put (t.sub n) n = t := put_eq_self_iff.mpr rfl

end PathTree
