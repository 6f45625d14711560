import Mathlib.Algebra.Order.Ring.Int
import Mathlib.Data.Int.Log
import Mathlib.Data.Nat.Cast.Order.Field
import Mathlib.Data.Rat.Floor
import Mathlib.Tactic.FieldSimp
import Mathlib.Tactic.Linarith

/-!
# Rounding to nearest, ties to even

## Main definitions

* `roundHalfEven` — the nearest integer, and the even one of two.
* `roundToBits` — the nearest number with so many significant bits.

## Main results

* `roundHalfEven_mono` — rounding keeps the order.
* `floor_roundToBits_div` — a quotient of integers is rounded within its integer part, as
  long as the numerator has no more bits.
-/

/-- The nearest integer to `q`, and the even one when two are as near. -/
def roundHalfEven (q : ℚ) : ℤ :=
  let below := ⌊q⌋
  if q - below < 1 / 2 then below
  else if 1 / 2 < q - below then below + 1
  else if below % 2 = 0 then below
  else below + 1

theorem floor_le_roundHalfEven (q : ℚ) : ⌊q⌋ ≤ roundHalfEven q := by
  unfold roundHalfEven
  dsimp only
  split
  · omega
  · split
    · omega
    · split <;> omega

theorem roundHalfEven_le_floor_add_one (q : ℚ) : roundHalfEven q ≤ ⌊q⌋ + 1 := by
  unfold roundHalfEven
  dsimp only
  split
  · omega
  · split
    · omega
    · split <;> omega

/-- Rounding keeps the order. -/
theorem roundHalfEven_mono {q r : ℚ} (h : q ≤ r) : roundHalfEven q ≤ roundHalfEven r := by
  rcases (Int.floor_mono h).lt_or_eq with hlt | heq
  · -- different integers below
    calc roundHalfEven q ≤ ⌊q⌋ + 1 := roundHalfEven_le_floor_add_one q
      _ ≤ ⌊r⌋ := hlt
      _ ≤ roundHalfEven r := floor_le_roundHalfEven r
  · -- the same integer below: the distance to it decides
    have hdist : q - ⌊r⌋ ≤ r - ⌊r⌋ := sub_le_sub_right h _
    unfold roundHalfEven
    rw [heq]
    dsimp only
    by_cases hr : r - ⌊r⌋ < 1 / 2
    · have hq : q - ⌊r⌋ < 1 / 2 := lt_of_le_of_lt hdist hr
      simp only [hr, hq, if_true, le_refl]
    · by_cases hr' : 1 / 2 < r - ⌊r⌋
      · simp only [hr, hr', if_false, if_true]
        split
        · omega
        · split
          · omega
          · split <;> omega
      · have hq' : ¬ 1 / 2 < q - ⌊r⌋ := fun hlt => hr' (lt_of_lt_of_le hlt hdist)
        simp only [hr, hr', hq', if_false]
        split
        · split <;> omega
        · omega

theorem roundHalfEven_nonneg {q : ℚ} (h : 0 ≤ q) : 0 ≤ roundHalfEven q :=
  (Int.floor_nonneg.mpr h).trans (floor_le_roundHalfEven q)

@[simp] theorem roundHalfEven_natCast (n : ℕ) : roundHalfEven n = n := by
  unfold roundHalfEven
  simp

theorem roundHalfEven_le_add_half (q : ℚ) : (roundHalfEven q : ℚ) ≤ q + 1 / 2 := by
  have hbelow := Int.floor_le q
  unfold roundHalfEven
  dsimp only
  split
  · linarith
  · rename_i hfar
    have hup : ((⌊q⌋ + 1 : ℤ) : ℚ) ≤ q + 1 / 2 := by
      push_cast
      linarith [not_lt.mp hfar]
    split
    · exact hup
    · split
      · linarith
      · exact hup

example : roundHalfEven (5 / 2) = 2 ∧ roundHalfEven (7 / 2) = 4 := by decide +kernel

/-! ### Significant bits -/

/-- The number with `bits` significant bits that is nearest to `q`, where `q` is not negative. -/
def roundToBits (bits : ℕ) (q : ℚ) : ℚ :=
  roundHalfEven (q * 2 ^ ((bits : ℤ) - 1 - Int.log 2 q)) * 2 ^ (Int.log 2 q - ((bits : ℤ) - 1))

theorem roundToBits_zero (bits : ℕ) : roundToBits bits 0 = 0 := by
  have hzero : roundHalfEven 0 = 0 := roundHalfEven_natCast 0
  simp [roundToBits, hzero]

/-- The bits after the point that a number keeps. -/
theorem roundToBits_eq {bits k : ℕ} {q : ℚ} (h : (k : ℤ) = (bits : ℤ) - 1 - Int.log 2 q) :
    roundToBits bits q = roundHalfEven (q * 2 ^ k) / 2 ^ k := by
  have hneg : Int.log 2 q - ((bits : ℤ) - 1) = -(k : ℤ) := by omega
  rw [roundToBits, ← h, hneg, zpow_natCast, zpow_neg, zpow_natCast, div_eq_mul_inv]

/-- The bits that a quotient takes before the point leave room for `k` after it. -/
theorem bits_after_point {bits a b : ℕ} (hb : 0 < b) (hpos : 0 < a) (ha : a < 2 ^ bits) :
    ∃ k : ℕ, (k : ℤ) = (bits : ℤ) - 1 - Int.log 2 ((a : ℚ) / b) ∧ b * 2 ^ bits ≤ a * 2 ^ (k + 1) := by
  have hb' : (0 : ℚ) < b := by exact_mod_cast hb
  have hq : (0 : ℚ) < (a : ℚ) / b := div_pos (by exact_mod_cast hpos) hb'
  have hlog : (2 : ℚ) ^ Int.log 2 ((a : ℚ) / b) ≤ (a : ℚ) / b := by
    exact_mod_cast Int.zpow_log_le_self (b := 2) Nat.one_lt_two hq
  have hsmall : (a : ℚ) / b < 2 ^ (bits : ℤ) := by
    have hone : (1 : ℚ) ≤ b := by exact_mod_cast hb
    calc (a : ℚ) / b ≤ a := div_le_self (Nat.cast_nonneg a) hone
      _ < 2 ^ bits := by exact_mod_cast ha
      _ = 2 ^ (bits : ℤ) := (zpow_natCast 2 bits).symm
  have hlt : Int.log 2 ((a : ℚ) / b) < bits :=
    (zpow_lt_zpow_iff_right₀ one_lt_two).mp (hlog.trans_lt hsmall)
  refine ⟨((bits : ℤ) - 1 - Int.log 2 ((a : ℚ) / b)).toNat, by omega, ?_⟩
  generalize hk : ((bits : ℤ) - 1 - Int.log 2 ((a : ℚ) / b)).toNat = k
  have hexp : Int.log 2 ((a : ℚ) / b) = (bits : ℤ) - ((k + 1 : ℕ) : ℤ) := by omega
  rw [hexp, zpow_sub₀ two_ne_zero, zpow_natCast, zpow_natCast,
    div_le_div_iff₀ (by positivity) hb'] at hlog
  exact_mod_cast (mul_comm (b : ℚ) (2 ^ bits)).le.trans hlog

/-- **A quotient is rounded within its integer part.** -/
theorem floor_roundToBits_div {bits a b : ℕ} (hb : 0 < b) (ha : a < 2 ^ bits) :
    ⌊roundToBits bits ((a : ℚ) / b)⌋ = (a / b : ℕ) := by
  rcases Nat.eq_zero_or_pos a with rfl | hpos
  · simp [roundToBits_zero]
  obtain ⟨k, hk, hroom⟩ := bits_after_point hb hpos ha
  have hb' : (0 : ℚ) < b := by exact_mod_cast hb
  have htwo : (0 : ℚ) < 2 ^ k := by positivity
  rw [roundToBits_eq hk, Int.floor_eq_iff, le_div_iff₀ htwo, div_lt_iff₀ htwo]
  constructor
  · -- the integer part is a multiple of what the last bit is worth
    have hbelow : ((a / b * 2 ^ k : ℕ) : ℚ) ≤ (a : ℚ) / b * 2 ^ k := by
      push_cast
      exact mul_le_mul_of_nonneg_right Nat.cast_div_le htwo.le
    have hround := roundHalfEven_mono hbelow
    rw [roundHalfEven_natCast] at hround
    exact_mod_cast hround
  · -- the next integer is further away than half of it
    by_contra hover
    have hround := roundHalfEven_le_add_half ((a : ℚ) / b * 2 ^ k)
    have hnext : ((a / b : ℕ) + 1 : ℚ) * 2 ^ k ≤ (a : ℚ) / b * 2 ^ k + 1 / 2 := by
      rw [Int.cast_natCast] at hover
      exact (not_lt.mp hover).trans hround
    have hmul : ((a / b : ℕ) + 1 : ℚ) * b * 2 ^ k * 2 ≤ a * 2 ^ k * 2 + b := by
      have hscaled := mul_le_mul_of_nonneg_right hnext (mul_pos hb' two_pos).le
      field_simp at hscaled ⊢
      linarith
    have hnat : (a / b + 1) * b * 2 ^ k * 2 ≤ a * 2 ^ k * 2 + b := by exact_mod_cast hmul
    have hrest : a + 1 ≤ (a / b + 1) * b := by
      have hdiv := Nat.div_add_mod a b
      have hmod := Nat.mod_lt a hb
      nlinarith
    have hone : (a + 1) * 2 ^ k * 2 ≤ (a / b + 1) * b * 2 ^ k * 2 := by gcongr
    have hb_large : 2 ^ (k + 1) ≤ b := by
      rw [pow_succ]
      linarith
    have hcontra : 2 ^ (k + 1) * 2 ^ bits ≤ a * 2 ^ (k + 1) :=
      (Nat.mul_le_mul_right _ hb_large).trans hroom
    have hle : 2 ^ bits ≤ a := by
      rw [mul_comm a] at hcontra
      exact Nat.le_of_mul_le_mul_left hcontra (Nat.two_pow_pos _)
    omega
