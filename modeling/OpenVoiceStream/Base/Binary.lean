import Mathlib.Algebra.Order.Ring.Nat
import Mathlib.Data.Nat.Dist
import Mathlib.Order.Monotone.Basic
import Mathlib.Tactic.Ring

/-!
# Binary floating point

The bits of a binary float without its sign are a number, and floats are ordered as these
numbers are. With `p` bits of mantissa, the bits `k` have the exponent `k / 2 ^ p`; the least
exponent is that of the subnormal floats.

## Main definitions

* `magnitude p k` — what the bits stand for, in units of the least positive float.
* `Nearest f v k` — no `f j` is nearer to `v` than `f k`.

## Main results

* `magnitude_strictMono` — the order of the bits.
* `nearest_of_half` — rounding by which half of the gap the number is in.
* `eq_of_tie` — what else is as near.
* `le_top_iff` — overflow.
-/

namespace Binary

/-- What the bits `k` stand for, in units of the least positive float. -/
def magnitude (p k : ℕ) : ℕ :=
  if k / 2 ^ p = 0 then k % 2 ^ p else (2 ^ p + k % 2 ^ p) * 2 ^ (k / 2 ^ p - 1)

/-- The gap behind the float with the bits `k`. -/
def gap (p k : ℕ) : ℕ := 2 ^ (k / 2 ^ p - 1)

/-- The float by its exponent and its mantissa. -/
theorem magnitude_add {p m : ℕ} (e : ℕ) (hm : m < 2 ^ p) :
    magnitude p (e * 2 ^ p + m) = if e = 0 then m else (2 ^ p + m) * 2 ^ (e - 1) := by
  have hpos : 0 < 2 ^ p := Nat.two_pow_pos p
  have hdiv : (e * 2 ^ p + m) / 2 ^ p = e := by
    rw [Nat.add_comm, Nat.add_mul_div_right _ _ hpos, Nat.div_eq_of_lt hm, Nat.zero_add]
  have hmod : (e * 2 ^ p + m) % 2 ^ p = m := by
    rw [Nat.add_comm, Nat.add_mul_mod_self_right, Nat.mod_eq_of_lt hm]
  rw [magnitude, hdiv, hmod]

theorem gap_add {p m : ℕ} (e : ℕ) (hm : m < 2 ^ p) : gap p (e * 2 ^ p + m) = 2 ^ (e - 1) := by
  rw [gap, Nat.add_comm, Nat.add_mul_div_right _ _ (Nat.two_pow_pos p), Nat.div_eq_of_lt hm,
    Nat.zero_add]

/-- The next float. -/
theorem magnitude_succ (p k : ℕ) : magnitude p (k + 1) = magnitude p k + gap p k := by
  obtain ⟨e, m, hm, rfl⟩ : ∃ e m, m < 2 ^ p ∧ k = e * 2 ^ p + m :=
    ⟨k / 2 ^ p, k % 2 ^ p, Nat.mod_lt _ (Nat.two_pow_pos p), (Nat.div_add_mod' k _).symm⟩
  rw [gap_add e hm, magnitude_add e hm]
  rcases Nat.lt_or_ge (m + 1) (2 ^ p) with hlt | hge
  · -- the exponent stays
    rw [Nat.add_assoc, magnitude_add e hlt]
    split
    · next he => rw [he]; rfl
    · ring
  · -- the mantissa is full, and the exponent grows
    have hfull : m + 1 = 2 ^ p := Nat.le_antisymm hm hge
    have hnext : e * 2 ^ p + m + 1 = (e + 1) * 2 ^ p + 0 := by
      rw [Nat.add_assoc, hfull]
      ring
    rw [hnext, magnitude_add (e + 1) (Nat.two_pow_pos p), if_neg (Nat.succ_ne_zero e),
      Nat.add_sub_cancel, Nat.add_zero]
    rcases Nat.eq_zero_or_pos e with rfl | he
    · rw [if_pos rfl, ← hfull, Nat.pow_zero, Nat.mul_one]
    · rw [if_neg (Nat.pos_iff_ne_zero.mp he)]
      obtain ⟨d, rfl⟩ := Nat.exists_eq_add_of_le' he
      rw [Nat.add_sub_cancel, Nat.pow_succ, ← hfull]
      ring

theorem magnitude_strictMono (p : ℕ) : StrictMono (magnitude p) := by
  refine strictMono_nat_of_lt_succ fun k => ?_
  rw [magnitude_succ]
  exact Nat.lt_add_of_pos_right (Nat.two_pow_pos _)

/-! ### Rounding -/

/-- No `f j` is nearer to `v` than `f k`. -/
def Nearest (f : ℕ → ℕ) (v k : ℕ) : Prop := ∀ j, Nat.dist (f k) v ≤ Nat.dist (f j) v

section Nearest

variable {f : ℕ → ℕ} {v k r j : ℕ}

/-- `v` lies between `f k` and the next one, and `r` is on its side of the gap. -/
structure Half (f : ℕ → ℕ) (v k r : ℕ) : Prop where
  low : f k ≤ v
  high : v < f (k + 1)
  side : (r = k ∧ 2 * v ≤ f k + f (k + 1)) ∨ (r = k + 1 ∧ f k + f (k + 1) ≤ 2 * v)

/-- **Rounding to the side of the gap is rounding to the nearest.** -/
theorem nearest_of_half (hf : StrictMono f) (h : Half f v k r) : Nearest f v r := by
  intro j
  have hlow := h.low
  have hhigh := h.high
  have hj : f j ≤ f k ∨ f (k + 1) ≤ f j := by
    rcases Nat.lt_or_ge k j with hlt | hge
    · exact .inr (hf.monotone hlt)
    · exact .inl (hf.monotone hge)
  unfold Nat.dist
  rcases h.side with ⟨rfl, hside⟩ | ⟨rfl, hside⟩
  · omega
  · omega

/-- What is as near as the one it was rounded to, is the other end of the gap. -/
theorem eq_of_tie (hf : StrictMono f) (h : Half f v k r) (hj : j ≠ r)
    (htie : Nat.dist (f j) v = Nat.dist (f r) v) :
    2 * v = f k + f (k + 1) ∧ j + r = 2 * k + 1 := by
  have hlow := h.low
  have hhigh := h.high
  unfold Nat.dist at htie
  rcases lt_trichotomy j k with hlt | rfl | hgt
  · -- below the gap nothing is as near
    have hbelow : f j < f k := hf hlt
    rcases h.side with ⟨rfl, hside⟩ | ⟨rfl, hside⟩
    · omega
    · omega
  · rcases h.side with ⟨rfl, hside⟩ | ⟨rfl, hside⟩
    · exact absurd rfl hj
    · omega
  · rcases Nat.lt_or_ge (k + 1) j with hgt' | hle
    · -- nor above it
      have habove : f (k + 1) < f j := hf hgt'
      rcases h.side with ⟨rfl, hside⟩ | ⟨rfl, hside⟩
      · omega
      · omega
    · obtain rfl : j = k + 1 := by omega
      rcases h.side with ⟨rfl, hside⟩ | ⟨rfl, hside⟩
      · omega
      · exact absurd rfl hj

/-- **Overflow.** What is rounded to no more than `top` is below the middle of the gap behind it,
if the middle itself is rounded up. -/
theorem le_top_iff (hf : StrictMono f) (h : Half f v k r) {top : ℕ}
    (hmiddle : k = top → r = top → 2 * v ≠ f top + f (top + 1)) :
    r ≤ top ↔ 2 * v < f top + f (top + 1) := by
  have hlow := h.low
  have hhigh := h.high
  rcases lt_trichotomy k top with hlt | rfl | hgt
  · have hle : f (k + 1) ≤ f top := hf.monotone hlt
    have hlt' : f top < f (top + 1) := hf (Nat.lt_succ_self top)
    rcases h.side with ⟨rfl, hside⟩ | ⟨rfl, hside⟩
    · omega
    · omega
  · rcases h.side with ⟨rfl, hside⟩ | ⟨rfl, hside⟩
    · have hne := hmiddle rfl rfl
      omega
    · omega
  · have hle : f (top + 1) ≤ f k := hf.monotone hgt
    have hlt' : f top < f (top + 1) := hf (Nat.lt_succ_self top)
    rcases h.side with ⟨rfl, hside⟩ | ⟨rfl, hside⟩
    · omega
    · omega

/-! The ends of the gap and the number in it as multiples of one unit. -/

section Units

variable {a q t u : ℕ}

theorem half_of_units (hu : 0 < u) (hk : f k = a * q * u) (hk' : f (k + 1) = (a + 1) * q * u)
    (ht : t < q) (hr : (r = k ∧ 2 * t ≤ q) ∨ (r = k + 1 ∧ q ≤ 2 * t)) :
    Half f ((a * q + t) * u) k r := by
  have hstep : (a + 1) * q = a * q + q := Nat.succ_mul a q
  have hside : ∀ {x y : ℕ}, x ≤ y → x * u ≤ y * u := fun h => Nat.mul_le_mul_right u h
  refine ⟨?_, ?_, ?_⟩
  · rw [hk]
    exact hside (Nat.le_add_right _ _)
  · rw [hk', hstep]
    exact Nat.mul_lt_mul_of_pos_right (by omega) hu
  · rw [hk, hk', ← Nat.add_mul, hstep, ← Nat.mul_assoc]
    rcases hr with ⟨rfl, hr⟩ | ⟨rfl, hr⟩
    · exact .inl ⟨rfl, hside (by omega)⟩
    · exact .inr ⟨rfl, hside (by omega)⟩

/-- The middle of the gap. -/
theorem middle_of_units (hu : 0 < u) (hk : f k = a * q * u) (hk' : f (k + 1) = (a + 1) * q * u)
    (h : 2 * ((a * q + t) * u) = f k + f (k + 1)) : 2 * t = q := by
  have hstep : (a + 1) * q = a * q + q := Nat.succ_mul a q
  rw [hk, hk', ← Nat.add_mul, hstep, ← Nat.mul_assoc] at h
  have heq := Nat.eq_of_mul_eq_mul_right hu h
  omega

end Units

end Nearest

end Binary
