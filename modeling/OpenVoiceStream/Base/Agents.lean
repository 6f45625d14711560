import Mathlib.Algebra.BigOperators.Group.Finset.Basic
import Mathlib.Algebra.BigOperators.Fin
import Mathlib.Algebra.Order.BigOperators.Group.Finset
import Mathlib.Data.Fintype.Basic

/-!
# Totals over a family of agents

A system of interchangeable agents keeps one local state per agent, `f : ι → A`,
and a step moves one agent: `Function.update f i a`.  A conservation law speaks
of a total `∑ i, w (f i)`; the lemmas below say how one agent's move changes it.

## Main results

* `total_update_add` — the balance of one move.
* `total_update_eq`, `total_update_succ`, `total_update_pred` — a move that keeps,
  raises or lowers the weight of its agent does the same to the total.
* `total_eq_zero`, `eq_zero_of_total`, `total_le_total`, `total_congr` — reading a total
  off the agents.
-/

namespace Agents

variable {ι A : Type*} [Fintype ι] [DecidableEq ι]

/-- The total weight of a family of agents. -/
def total (w : A → ℕ) (f : ι → A) : ℕ := ∑ i, w (f i)

variable (w : A → ℕ) (f : ι → A) (i : ι) (a : A)

/-- **The balance of one move.**  The total before plus the mover's new weight is
the total after plus the mover's old weight. -/
theorem total_update_add :
    total w (Function.update f i a) + w (f i) = total w f + w a := by
  have hrest : ∑ j ∈ Finset.univ.erase i, w (Function.update f i a j)
      = ∑ j ∈ Finset.univ.erase i, w (f j) :=
    Finset.sum_congr rfl fun j hj => by
      rw [Function.update_of_ne (Finset.ne_of_mem_erase hj)]
  have hnew := Finset.add_sum_erase Finset.univ (fun j => w (Function.update f i a j))
    (Finset.mem_univ i)
  have hold := Finset.add_sum_erase Finset.univ (fun j => w (f j)) (Finset.mem_univ i)
  simp only [Function.update_self] at hnew
  unfold total
  omega

variable {w f i a}

/-- A move that keeps its agent's weight keeps the total. -/
theorem total_update_eq (h : w a = w (f i)) : total w (Function.update f i a) = total w f := by
  have := total_update_add w f i a
  omega

/-- A move that raises its agent's weight by one raises the total by one. -/
theorem total_update_succ (h : w a = w (f i) + 1) :
    total w (Function.update f i a) = total w f + 1 := by
  have := total_update_add w f i a
  omega

/-- A move that lowers its agent's weight by one lowers the total by one. -/
theorem total_update_pred (h : w a + 1 = w (f i)) :
    total w (Function.update f i a) + 1 = total w f := by
  have := total_update_add w f i a
  omega

omit [DecidableEq ι] in
/-- A total of weightless agents is zero. -/
theorem total_eq_zero (h : ∀ j, w (f j) = 0) : total w f = 0 :=
  Finset.sum_eq_zero fun j _ => h j

omit [DecidableEq ι] in
/-- A total of zero has weightless agents only. -/
theorem eq_zero_of_total (h : total w f = 0) (j : ι) : w (f j) = 0 :=
  Finset.sum_eq_zero_iff.mp h j (Finset.mem_univ j)

omit [DecidableEq ι] in
/-- A family whose agents weigh no more has no larger total. -/
theorem total_le_total {B : Type*} {v : B → ℕ} {g : ι → B} (h : ∀ j, w (f j) ≤ v (g j)) :
    total w f ≤ total v g :=
  Finset.sum_le_sum fun j _ => h j

omit [DecidableEq ι] in
/-- Two weights that agree on every agent have the same total. -/
theorem total_congr {v : A → ℕ} (h : ∀ j, v (f j) = w (f j)) : total v f = total w f :=
  Finset.sum_congr rfl fun j _ => h j

end Agents
