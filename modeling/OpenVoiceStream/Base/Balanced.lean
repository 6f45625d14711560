import Mathlib.Algebra.BigOperators.Group.List.Basic
import Mathlib.Algebra.Order.Ring.Int
import Mathlib.Tactic.Linarith

/-!
# Balanced division

A total is divided into a number of pieces that differ by at most one.  If there is any
division into that many pieces between two bounds, the balanced one is between them.

## Main definitions

* `balanced` — the pieces, the larger ones first.

## Main results

* `sum_balanced` — the pieces add up to the total.
* `balanced_bounds` — the pieces are between the bounds.
* `fewest_pieces` — if a total can be divided at all, it can into the fewest pieces that
  are long enough together.
-/

/-- `total` divided into `count` pieces, the larger ones first. -/
def balanced (total : ℤ) (count : ℕ) : List ℤ :=
  (List.range count).map fun i : ℕ =>
    total / count + if (i : ℤ) < total % count then 1 else 0

theorem sum_range_balanced (base r : ℤ) (hr : 0 ≤ r) (n : ℕ) :
    ((List.range n).map fun i : ℕ => base + if (i : ℤ) < r then 1 else 0).sum =
      n * base + min r n := by
  induction n with
  | zero => simp [hr]
  | succ n ih =>
    rw [List.range_succ, List.map_append, List.sum_append, ih]
    simp only [List.map_cons, List.map_nil, List.sum_singleton]
    push_cast
    rw [add_mul, one_mul]
    split <;> omega

/-- The pieces add up to the total. -/
theorem sum_balanced (total : ℤ) {count : ℕ} (hcount : 0 < count) :
    (balanced total count).sum = total := by
  have hpos : (0 : ℤ) < count := by exact_mod_cast hcount
  have hr := Int.emod_nonneg total hpos.ne'
  have hlt := Int.emod_lt_of_pos total hpos
  rw [balanced, sum_range_balanced _ _ hr, min_eq_left hlt.le]
  exact Int.mul_ediv_add_emod total count

/-- The pieces are between the bounds. -/
theorem balanced_bounds {total lo hi : ℤ} {count : ℕ} (hcount : 0 < count)
    (hlo : count * lo ≤ total) (hhi : total ≤ count * hi) :
    ∀ n ∈ balanced total count, lo ≤ n ∧ n ≤ hi := by
  have hpos : (0 : ℤ) < count := by exact_mod_cast hcount
  have hbase : lo ≤ total / count := by
    rw [Int.le_ediv_iff_mul_le hpos, mul_comm]
    exact hlo
  have hdiv := Int.mul_ediv_add_emod total count
  have hr := Int.emod_nonneg total hpos.ne'
  have hceil : total / count ≤ hi := by
    have : total / count < hi + 1 := by
      rw [Int.ediv_lt_iff_lt_mul hpos]
      calc total ≤ count * hi := hhi
        _ < (hi + 1) * count := by rw [add_mul, mul_comm, one_mul]; omega
    omega
  intro n hn
  rw [balanced, List.mem_map] at hn
  obtain ⟨i, -, rfl⟩ := hn
  by_cases hi' : (i : ℤ) < total % count
  · -- a larger piece: the remainder is not zero, so the quotient is below the bound
    have hstrict : total / count ≠ hi := by
      intro heq
      rw [heq] at hdiv
      omega
    rw [if_pos hi']
    omega
  · rw [if_neg hi']
    omega

/-- Pieces between the bounds have their total between the bounds. -/
theorem sum_bounds {lo hi : ℤ} {sizes : List ℤ} (h : ∀ n ∈ sizes, lo ≤ n ∧ n ≤ hi) :
    sizes.length * lo ≤ sizes.sum ∧ sizes.sum ≤ sizes.length * hi := by
  induction sizes with
  | nil => simp
  | cons n sizes ih =>
    obtain ⟨hlo, hhi⟩ := ih fun m hm => h m (List.mem_cons_of_mem n hm)
    have hn := h n List.mem_cons_self
    rw [List.length_cons, List.sum_cons]
    push_cast
    rw [add_mul, add_mul, one_mul, one_mul]
    omega

/-- If a positive total can be divided into pieces between the bounds, then it can into the
fewest that are long enough together. -/
theorem fewest_pieces {total lo hi : ℤ} (hlo : 0 < lo) (hle : lo ≤ hi) (htotal : 0 < total)
    {sizes : List ℤ} (hsum : sizes.sum = total) (h : ∀ n ∈ sizes, lo ≤ n ∧ n ≤ hi) :
    max 1 (-(-total / hi)) ≤ total / lo := by
  obtain ⟨hfew, hmany⟩ := sum_bounds h
  rw [hsum] at hfew hmany
  have hhi : 0 < hi := lt_of_lt_of_le hlo hle
  have hcount : (sizes.length : ℤ) ≤ total / lo := by
    rw [Int.le_ediv_iff_mul_le hlo]
    exact hfew
  have hceil : -(-total / hi) ≤ sizes.length := by
    rw [neg_le, Int.le_ediv_iff_mul_le hhi]
    linarith
  have hone : (1 : ℤ) ≤ sizes.length := by
    by_contra hzero
    have : (sizes.length : ℤ) = 0 := by omega
    rw [this, zero_mul] at hmany
    omega
  exact le_trans (max_le hone hceil) hcount
