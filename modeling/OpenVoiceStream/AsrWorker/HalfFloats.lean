import OpenVoiceStream.Base.Binary
import Mathlib.Data.Nat.Bitwise

/-!
# The floats of a mel spectrogram

The spectrogram goes to the engine in half precision. Floats of single precision are rounded with
integer operations on their bits; results that are subnormal have a branch of their own, which
shifts the mantissa before it rounds.

## Main definitions

* `f32_to_f16` — the source's, on the bits of the float.
* `single`, `half` — what bits stand for, in units of the least positive single.
* `Rounds` — the nearest half, and which of two.

## Main results

* `toNat_f32_to_f16` — the operations on bits, as arithmetic.
* `f32_to_f16_rounds` — every float is rounded to the nearest.
-/

namespace OpenVoiceStream
namespace AsrWorker

/-! ### The operations on bits -/

/-- `f32_to_f16`. -/
def f32_to_f16 (x : BitVec 32) : BitVec 16 :=
  let sign := x >>> 16 &&& 0x8000#32
  let exp : ℤ := (x >>> 23 &&& 0xFF#32).toInt - 127 + 15
  let mant := x &&& 0x7FFFFF#32
  if exp ≤ 0 then
    if exp < -10 then sign.setWidth 16
    else
      let m := (mant ||| 0x800000#32) >>> (1 - exp).toNat
      let rounded := (m + 0x1000#32) >>> 13
      (sign ||| rounded).setWidth 16
  else if 31 ≤ exp then
    if x >>> 23 &&& 0xFF#32 = 0xFF#32 ∧ mant ≠ 0#32 then (sign ||| 0x7E00#32).setWidth 16
    else (sign ||| 0x7C00#32).setWidth 16
  else
    let m := mant >>> 13
    let r := mant &&& 0x1FFF#32
    let out := (sign ||| BitVec.ofInt 32 exp <<< 10 ||| m).setWidth 16
    if 0x1000#32 < r ∨ (r = 0x1000#32 ∧ m &&& 1#32 ≠ 0#32) then out + 1#16 else out

/-- The bits without the sign, from the exponent and the mantissa. -/
def halfBits (e mant : ℕ) : ℕ :=
  if e ≤ 112 then
    if e < 102 then 0 else ((mant + 2 ^ 23) / 2 ^ (113 - e) + 2 ^ 12) / 2 ^ 13
  else if 143 ≤ e then if e = 255 ∧ mant ≠ 0 then 0x7E00 else 0x7C00
  else
    (e - 112) * 2 ^ 10 + mant / 2 ^ 13 +
      if 2 ^ 12 < mant % 2 ^ 13 ∨ (mant % 2 ^ 13 = 2 ^ 12 ∧ mant / 2 ^ 13 % 2 = 1) then 1 else 0

section Bits

variable (x : BitVec 32)

theorem toNat_sign : (x >>> 16 &&& 0x8000#32).toNat = x.toNat / 2 ^ 31 * 2 ^ 15 := by
  have hx : x.toNat < 2 ^ 32 := x.isLt
  apply Nat.eq_of_testBit_eq
  intro i
  rw [BitVec.toNat_and, BitVec.toNat_ushiftRight, Nat.shiftRight_eq_div_pow, Nat.testBit_and,
    show (0x8000#32).toNat = 2 ^ 15 from rfl, Nat.testBit_two_pow, Nat.testBit_div_two_pow,
    Nat.testBit_mul_two_pow, Nat.testBit_div_two_pow]
  rcases lt_trichotomy i 15 with hlt | rfl | hgt
  · simp [show ¬ 15 = i by omega, show ¬ 15 ≤ i by omega]
  · simp
  · -- there is nothing above the sign
    have hhigh : x.toNat.testBit (i - 15 + 31) = false :=
      Nat.testBit_lt_two_pow (hx.trans_le (Nat.pow_le_pow_right (by decide) (by omega)))
    simp [show ¬ 15 = i by omega, hhigh]

theorem toNat_exp : (x >>> 23 &&& 0xFF#32).toNat = x.toNat / 2 ^ 23 % 2 ^ 8 := by
  rw [BitVec.toNat_and, BitVec.toNat_ushiftRight, Nat.shiftRight_eq_div_pow,
    show (0xFF#32).toNat = 2 ^ 8 - 1 from rfl, Nat.and_two_pow_sub_one_eq_mod]

theorem toInt_exp : (x >>> 23 &&& 0xFF#32).toInt = (x.toNat / 2 ^ 23 % 2 ^ 8 : ℕ) := by
  have hlt : x.toNat / 2 ^ 23 % 2 ^ 8 < 2 ^ 8 := Nat.mod_lt _ (by decide)
  rw [BitVec.toInt_eq_toNat_of_lt, toNat_exp]
  rw [toNat_exp]
  omega

theorem toNat_mant : (x &&& 0x7FFFFF#32).toNat = x.toNat % 2 ^ 23 := by
  rw [BitVec.toNat_and, show (0x7FFFFF#32).toNat = 2 ^ 23 - 1 from rfl,
    Nat.and_two_pow_sub_one_eq_mod]

/-- The sign does not meet the other bits. -/
theorem toNat_sign_or {b : BitVec 32} (hb : b.toNat < 2 ^ 15) :
    (((x >>> 16 &&& 0x8000#32) ||| b).setWidth 16).toNat = x.toNat / 2 ^ 31 * 2 ^ 15 + b.toNat := by
  have hx : x.toNat < 2 ^ 32 := x.isLt
  rw [BitVec.toNat_setWidth, BitVec.toNat_or, toNat_sign, Nat.mul_comm,
    ← Nat.two_pow_add_eq_or_of_lt hb, Nat.mod_eq_of_lt]
  omega

end Bits

theorem toNat_f32_to_f16 (x : BitVec 32) :
    (f32_to_f16 x).toNat =
      x.toNat / 2 ^ 31 * 2 ^ 15 + halfBits (x.toNat / 2 ^ 23 % 2 ^ 8) (x.toNat % 2 ^ 23) := by
  have hx : x.toNat < 2 ^ 32 := x.isLt
  have he : x.toNat / 2 ^ 23 % 2 ^ 8 < 2 ^ 8 := Nat.mod_lt _ (by decide)
  have hm : x.toNat % 2 ^ 23 < 2 ^ 23 := Nat.mod_lt _ (by decide)
  have hmant := toNat_mant x
  have hexp := toNat_exp x
  simp only [f32_to_f16, toInt_exp, halfBits]
  generalize x.toNat / 2 ^ 23 % 2 ^ 8 = e at *
  by_cases hsmall : (e : ℤ) - 127 + 15 ≤ 0
  · rw [if_pos hsmall, if_pos (show e ≤ 112 by omega)]
    by_cases hzero : (e : ℤ) - 127 + 15 < -10
    · rw [if_pos hzero, if_pos (show e < 102 by omega), BitVec.toNat_setWidth, toNat_sign,
        Nat.mod_eq_of_lt, Nat.add_zero]
      omega
    · -- a subnormal result
      rw [if_neg hzero, if_neg (show ¬ e < 102 by omega)]
      have hshift : (1 - ((e : ℤ) - 127 + 15)).toNat = 113 - e := by omega
      have hfull : (x &&& 0x7FFFFF#32 ||| 0x800000#32).toNat = x.toNat % 2 ^ 23 + 2 ^ 23 := by
        rw [BitVec.toNat_or, hmant, Nat.or_comm, show (0x800000#32).toNat = 2 ^ 23 * 1 from rfl,
          ← Nat.two_pow_add_eq_or_of_lt hm]
        omega
      have hm' : (x.toNat % 2 ^ 23 + 2 ^ 23) / 2 ^ (113 - e) < 2 ^ 24 :=
        Nat.lt_of_le_of_lt (Nat.div_le_self _ _) (by omega)
      have hrounded : (((x &&& 0x7FFFFF#32 ||| 0x800000#32) >>> (113 - e) + 0x1000#32) >>> 13).toNat =
          ((x.toNat % 2 ^ 23 + 2 ^ 23) / 2 ^ (113 - e) + 2 ^ 12) / 2 ^ 13 := by
        rw [BitVec.toNat_ushiftRight, BitVec.toNat_add, BitVec.toNat_ushiftRight, hfull,
          Nat.shiftRight_eq_div_pow, Nat.shiftRight_eq_div_pow,
          show (0x1000#32).toNat = 2 ^ 12 from rfl, Nat.mod_eq_of_lt]
        omega
      rw [hshift, toNat_sign_or, hrounded]
      rw [hrounded]
      omega
  · rw [if_neg hsmall, if_neg (show ¬ e ≤ 112 by omega)]
    by_cases hlarge : 31 ≤ (e : ℤ) - 127 + 15
    · rw [if_pos hlarge, if_pos (show 143 ≤ e by omega)]
      have hnan : (x >>> 23 &&& 0xFF#32 = 0xFF#32 ∧ x &&& 0x7FFFFF#32 ≠ 0#32) ↔
          e = 255 ∧ x.toNat % 2 ^ 23 ≠ 0 := by
        rw [← BitVec.toNat_inj, hexp, ← hmant, Ne, ← BitVec.toNat_inj]
        rfl
      split
      · next h => rw [if_pos (hnan.mp h), toNat_sign_or x (by decide)]; rfl
      · next h => rw [if_neg (mt hnan.mpr h), toNat_sign_or x (by decide)]; rfl
    · rw [if_neg hlarge, if_neg (show ¬ 143 ≤ e by omega)]
      have hm10 : ((x &&& 0x7FFFFF#32) >>> 13).toNat = x.toNat % 2 ^ 23 / 2 ^ 13 := by
        rw [BitVec.toNat_ushiftRight, hmant, Nat.shiftRight_eq_div_pow]
      have hr : (x &&& 0x7FFFFF#32 &&& 0x1FFF#32).toNat = x.toNat % 2 ^ 23 % 2 ^ 13 := by
        rw [BitVec.toNat_and, hmant, show (0x1FFF#32).toNat = 2 ^ 13 - 1 from rfl,
          Nat.and_two_pow_sub_one_eq_mod]
      have hodd : ((x &&& 0x7FFFFF#32) >>> 13 &&& 1#32).toNat = x.toNat % 2 ^ 23 / 2 ^ 13 % 2 := by
        rw [BitVec.toNat_and, hm10, show (1#32).toNat = 2 ^ 1 - 1 from rfl,
          Nat.and_two_pow_sub_one_eq_mod]
      have hup : (0x1000#32 < x &&& 0x7FFFFF#32 &&& 0x1FFF#32 ∨
          (x &&& 0x7FFFFF#32 &&& 0x1FFF#32 = 0x1000#32 ∧
            (x &&& 0x7FFFFF#32) >>> 13 &&& 1#32 ≠ 0#32)) ↔
          2 ^ 12 < x.toNat % 2 ^ 23 % 2 ^ 13 ∨
            (x.toNat % 2 ^ 23 % 2 ^ 13 = 2 ^ 12 ∧ x.toNat % 2 ^ 23 / 2 ^ 13 % 2 = 1) := by
        rw [BitVec.lt_def, ← BitVec.toNat_inj, Ne, ← BitVec.toNat_inj, hr, hodd]
        change (4096 < _ ∨ (_ = 4096 ∧ ¬ _ = 0)) ↔ _
        omega
      have hcast : (e : ℤ) - 127 + 15 = ((e - 112 : ℕ) : ℤ) := by omega
      have hb : (BitVec.ofInt 32 ((e : ℤ) - 127 + 15) <<< 10 |||
          (x &&& 0x7FFFFF#32) >>> 13).toNat = (e - 112) * 2 ^ 10 + x.toNat % 2 ^ 23 / 2 ^ 13 := by
        have hlt : (e - 112) % 2 ^ 32 * 2 ^ 10 < 2 ^ 32 := by omega
        rw [hcast, BitVec.ofInt_natCast, BitVec.toNat_or, BitVec.toNat_shiftLeft, BitVec.toNat_ofNat,
          hm10, Nat.shiftLeft_eq, Nat.mod_eq_of_lt hlt, Nat.mul_comm,
          ← Nat.two_pow_add_eq_or_of_lt (by omega)]
        omega
      have hout : (((x >>> 16 &&& 0x8000#32) ||| BitVec.ofInt 32 ((e : ℤ) - 127 + 15) <<< 10 |||
          (x &&& 0x7FFFFF#32) >>> 13).setWidth 16).toNat =
          x.toNat / 2 ^ 31 * 2 ^ 15 + ((e - 112) * 2 ^ 10 + x.toNat % 2 ^ 23 / 2 ^ 13) := by
        rw [BitVec.or_assoc, toNat_sign_or, hb]
        rw [hb]
        omega
      split
      · next h =>
        rw [if_pos (hup.mp h), BitVec.toNat_add, hout, show (1#16).toNat = 1 from rfl,
          Nat.mod_eq_of_lt]
        · omega
        · omega
      · next h => rw [if_neg (mt hup.mpr h), hout, Nat.add_zero]

/-! ### What they stand for -/

/-- What the bits of a single stand for, in units of the least positive one. -/
def single (k : ℕ) : ℕ := Binary.magnitude 23 k

/-- What the bits of a half stand for, in the same units. -/
def half (k : ℕ) : ℕ := Binary.magnitude 10 k * 2 ^ 125

theorem half_strictMono : StrictMono half := fun _ _ h =>
  Nat.mul_lt_mul_of_pos_right (Binary.magnitude_strictMono 10 h) (Nat.two_pow_pos 125)

/-- Infinity, and where the numbers begin that are rounded to it. -/
def infinity : ℕ := 31 * 2 ^ 10

def overflow : ℕ := 65520 * 2 ^ 149

/-- The bits of the half that is nearest to `v`. Of two, it is the one with an even mantissa,
unless `v` is below the least normal half: then it is the larger one. -/
structure Rounds (v r : ℕ) : Prop where
  finite : r < infinity
  nearest : Binary.Nearest half v r
  tie : ∀ j, j ≠ r → Nat.dist (half j) v = Nat.dist (half r) v →
    if v < 2 ^ 135 then j < r else r % 2 = 0

theorem half_of_le {k : ℕ} (hk : k ≤ 2 ^ 10) : half k = k * 2 ^ 125 := by
  unfold half
  rcases Nat.lt_or_ge k (2 ^ 10) with hlt | hge
  · have hmag := Binary.magnitude_add 0 hlt
    rw [Nat.zero_mul, Nat.zero_add, if_pos rfl] at hmag
    rw [hmag]
  · obtain rfl : k = 2 ^ 10 := Nat.le_antisymm hk hge
    rfl

theorem single_of_pos {e m : ℕ} (he : e ≠ 0) (hm : m < 2 ^ 23) :
    single (e * 2 ^ 23 + m) = (2 ^ 23 + m) * 2 ^ (e - 1) := by
  rw [single, Binary.magnitude_add e hm, if_neg he]

/-! ### The branches -/

/-- Below half of the least positive half. -/
theorem rounds_zero {v : ℕ} (hv : v < 2 ^ 124) : Rounds v 0 := by
  have h0 : half 0 = 0 := rfl
  have h1 : half (0 + 1) = 2 ^ 125 := rfl
  have hhalf : Binary.Half half v 0 0 := by
    refine ⟨Nat.zero_le _, ?_, .inl ⟨rfl, ?_⟩⟩
    · rw [h1]
      omega
    · rw [h0, h1]
      omega
  refine ⟨by decide, Binary.nearest_of_half half_strictMono hhalf, ?_⟩
  intro j hj htie
  have hmiddle := (Binary.eq_of_tie half_strictMono hhalf hj htie).1
  rw [h0, h1] at hmiddle
  omega

/-- To add half and to divide. -/
theorem add_half_div (a t : ℕ) {h : ℕ} (hh : 0 < h) (ht : t < 2 * h) :
    (a * (2 * h) + t + h) / (2 * h) = if h ≤ t then a + 1 else a := by
  have hnext : (a + 1) * (2 * h) = a * (2 * h) + 2 * h := Nat.succ_mul a _
  have hnext' : (a + 1 + 1) * (2 * h) = a * (2 * h) + 2 * h + 2 * h := by
    rw [Nat.succ_mul, hnext]
  split
  · exact Nat.div_eq_of_lt_le (by omega) (by omega)
  · exact Nat.div_eq_of_lt_le (by omega) (by omega)

/-- A subnormal result: the shift leaves out bits, and half of what is left out is added. -/
theorem rounds_subnormal {e m : ℕ} (hlow : 102 ≤ e) (hhigh : e ≤ 112) (hm : m < 2 ^ 23) :
    Rounds (single (e * 2 ^ 23 + m)) (((m + 2 ^ 23) / 2 ^ (113 - e) + 2 ^ 12) / 2 ^ 13) := by
  obtain ⟨s, hs, rfl⟩ : ∃ s, s ≤ 10 ∧ e = 112 - s := ⟨112 - e, by omega, by omega⟩
  have hshift : 113 - (112 - s) = s + 1 := by omega
  have hexp : 112 - s - 1 = 111 - s := by omega
  obtain ⟨h, hh⟩ : ∃ h, h = 2 ^ (s + 13) := ⟨_, rfl⟩
  have hpos : 0 < h := hh ▸ Nat.two_pow_pos _
  have hbig : 2 ^ 13 ≤ h := hh ▸ Nat.pow_le_pow_right (by decide) (by omega)
  have hunit : 2 * h * 2 ^ (111 - s) = 2 ^ 125 := by
    rw [hh, Nat.mul_assoc, ← Nat.pow_add, ← Nat.pow_succ']
    congr 1
    omega
  -- the number in units of the last bit that is left out
  obtain ⟨a, t, ht, hfull⟩ : ∃ a t, t < 2 * h ∧ m + 2 ^ 23 = a * (2 * h) + t :=
    ⟨_, _, Nat.mod_lt _ (by omega), (Nat.div_add_mod' _ _).symm⟩
  have ha : a < 2 ^ 10 := by
    by_contra hge
    have hmul : 2 ^ 10 * (2 * h) ≤ a * (2 * h) := Nat.mul_le_mul_right _ (Nat.le_of_not_lt hge)
    omega
  have hround : ((m + 2 ^ 23) / 2 ^ (s + 1) + 2 ^ 12) / 2 ^ 13 = if h ≤ t then a + 1 else a := by
    have hhalf : 2 ^ 12 * 2 ^ (s + 1) = h := by
      rw [hh]
      ring
    have htwo : 2 ^ (s + 1) * 2 ^ 13 = 2 * h := by
      rw [hh]
      ring
    rw [← Nat.add_mul_div_right _ _ (Nat.two_pow_pos (s + 1)), Nat.div_div_eq_div_mul, hhalf, htwo,
      hfull, add_half_div a t hpos ht]
  have hv : single ((112 - s) * 2 ^ 23 + m) = (a * (2 * h) + t) * 2 ^ (111 - s) := by
    rw [single_of_pos (by omega) hm, hexp, Nat.add_comm (2 ^ 23), hfull]
  have hk : half a = a * (2 * h) * 2 ^ (111 - s) := by
    rw [half_of_le (by omega), Nat.mul_assoc, hunit]
  have hk' : half (a + 1) = (a + 1) * (2 * h) * 2 ^ (111 - s) := by
    rw [half_of_le (by omega), Nat.mul_assoc, hunit]
  rw [hshift, hround, hv]
  have hhalf : Binary.Half half ((a * (2 * h) + t) * 2 ^ (111 - s)) a
      (if h ≤ t then a + 1 else a) := by
    refine Binary.half_of_units (Nat.two_pow_pos _) hk hk' ht ?_
    split
    · exact .inr ⟨rfl, by omega⟩
    · exact .inl ⟨rfl, by omega⟩
  refine ⟨?_, Binary.nearest_of_half half_strictMono hhalf, ?_⟩
  · unfold infinity
    split <;> omega
  · intro j hj htie
    obtain ⟨hmiddle, hother⟩ := Binary.eq_of_tie half_strictMono hhalf hj htie
    have htwo := Binary.middle_of_units (Nat.two_pow_pos _) hk hk' hmiddle
    have hlt : (a * (2 * h) + t) * 2 ^ (111 - s) < 2 ^ 135 := by
      rw [← hfull]
      calc (m + 2 ^ 23) * 2 ^ (111 - s)
          < 2 ^ 24 * 2 ^ (111 - s) := Nat.mul_lt_mul_of_pos_right (by omega) (Nat.two_pow_pos _)
        _ ≤ 2 ^ 24 * 2 ^ 111 := Nat.mul_le_mul_left _ (Nat.pow_le_pow_right (by decide) (by omega))
        _ = 2 ^ 135 := by rw [← Nat.pow_add]
    rw [if_pos hlt]
    rw [if_pos (by omega)] at hj hother ⊢
    omega

/-- The half with the exponent of the number, and the gap behind it. -/
theorem half_of_normal {d a : ℕ} (ha : a < 2 ^ 10) :
    half ((d + 1) * 2 ^ 10 + a) = (2 ^ 10 + a) * 2 ^ 13 * (2 ^ d * 2 ^ 112) ∧
      half ((d + 1) * 2 ^ 10 + a + 1) = (2 ^ 10 + a + 1) * 2 ^ 13 * (2 ^ d * 2 ^ 112) := by
  have hsame : half ((d + 1) * 2 ^ 10 + a) = (2 ^ 10 + a) * 2 ^ 13 * (2 ^ d * 2 ^ 112) := by
    rw [half, Binary.magnitude_add _ ha, if_neg (Nat.succ_ne_zero d), Nat.add_sub_cancel]
    ring
  refine ⟨hsame, ?_⟩
  have hgap : half ((d + 1) * 2 ^ 10 + a + 1) =
      half ((d + 1) * 2 ^ 10 + a) + 2 ^ d * 2 ^ 125 := by
    rw [half, Binary.magnitude_succ, Nat.add_mul, Binary.gap_add _ ha, Nat.add_sub_cancel]
    rfl
  rw [hgap, hsame]
  ring

/-- The middle between the largest half and infinity. -/
theorem overflow_eq : 2 * overflow = half (infinity - 1) + half (infinity - 1 + 1) := by decide

/-- A normal result: the last bits of the mantissa are rounded off. -/
theorem rounds_normal {e m : ℕ} (hlow : 113 ≤ e) (hhigh : e ≤ 142) (hm : m < 2 ^ 23) :
    (single (e * 2 ^ 23 + m) < overflow → Rounds (single (e * 2 ^ 23 + m)) (halfBits e m)) ∧
      (overflow ≤ single (e * 2 ^ 23 + m) → halfBits e m = infinity) := by
  obtain ⟨d, hd, rfl⟩ : ∃ d, d ≤ 29 ∧ e = d + 113 := ⟨e - 113, by omega, by omega⟩
  obtain ⟨a, t, ha, ht, rfl⟩ : ∃ a t, a < 2 ^ 10 ∧ t < 2 ^ 13 ∧ m = a * 2 ^ 13 + t :=
    ⟨m / 2 ^ 13, m % 2 ^ 13, by omega, by omega, by omega⟩
  obtain ⟨r, hr⟩ : ∃ r, r = halfBits (d + 113) (a * 2 ^ 13 + t) := ⟨_, rfl⟩
  have hbits : r = (d + 1) * 2 ^ 10 + a + if 2 ^ 12 < t ∨ (t = 2 ^ 12 ∧ a % 2 = 1) then 1 else 0 := by
    have hdiv : (a * 2 ^ 13 + t) / 2 ^ 13 = a := by omega
    have hmod : (a * 2 ^ 13 + t) % 2 ^ 13 = t := by omega
    rw [hr, halfBits, if_neg (show ¬ d + 113 ≤ 112 by omega),
      if_neg (show ¬ 143 ≤ d + 113 by omega), hdiv, hmod, show d + 113 - 112 = d + 1 by omega]
  have hv : single ((d + 113) * 2 ^ 23 + (a * 2 ^ 13 + t)) =
      ((2 ^ 10 + a) * 2 ^ 13 + t) * (2 ^ d * 2 ^ 112) := by
    rw [single_of_pos (by omega) hm, show d + 113 - 1 = d + 112 by omega, Nat.pow_add]
    congr 1
    ring
  obtain ⟨hk, hk'⟩ := half_of_normal (d := d) ha
  have hu : 0 < 2 ^ d * 2 ^ 112 := Nat.mul_pos (Nat.two_pow_pos _) (Nat.two_pow_pos _)
  rw [← hr, hv]
  have hhalf : Binary.Half half (((2 ^ 10 + a) * 2 ^ 13 + t) * (2 ^ d * 2 ^ 112))
      ((d + 1) * 2 ^ 10 + a) r := by
    refine Binary.half_of_units hu hk hk' ht ?_
    rw [hbits]
    split
    · exact .inr ⟨rfl, by omega⟩
    · exact .inl ⟨Nat.add_zero _, by omega⟩
  -- what lies in the middle is rounded to an even mantissa
  have heven : 2 * (((2 ^ 10 + a) * 2 ^ 13 + t) * (2 ^ d * 2 ^ 112)) =
      half ((d + 1) * 2 ^ 10 + a) + half ((d + 1) * 2 ^ 10 + a + 1) → r % 2 = 0 := by
    intro hmiddle
    have htwo := Binary.middle_of_units hu hk hk' hmiddle
    rw [hbits]
    split <;> omega
  have htop : r ≤ infinity - 1 ↔
      ((2 ^ 10 + a) * 2 ^ 13 + t) * (2 ^ d * 2 ^ 112) < overflow := by
    rw [Binary.le_top_iff half_strictMono hhalf, ← overflow_eq, Nat.mul_lt_mul_left (by decide)]
    intro hk hrtop hmiddle
    have hzero := heven (by rw [hk]; exact hmiddle)
    rw [hrtop] at hzero
    cases hzero
  constructor
  · intro hlt
    refine ⟨?_, Binary.nearest_of_half half_strictMono hhalf, ?_⟩
    · have hle := htop.mpr hlt
      unfold infinity at hle ⊢
      omega
    · intro j hj htie
      rw [if_neg]
      · exact heven (Binary.eq_of_tie half_strictMono hhalf hj htie).1
      · refine Nat.not_lt.mpr ?_
        calc 2 ^ 135 = 2 ^ 23 * (1 * 2 ^ 112) := by rw [Nat.one_mul, ← Nat.pow_add]
          _ ≤ ((2 ^ 10 + a) * 2 ^ 13 + t) * (2 ^ d * 2 ^ 112) :=
            Nat.mul_le_mul (by omega) (Nat.mul_le_mul_right _ (Nat.two_pow_pos d))
  · intro hge
    have hnot : ¬ r ≤ infinity - 1 := fun hle => Nat.not_lt.mpr hge (htop.mp hle)
    have hle : r ≤ infinity := by
      rw [hbits]
      unfold infinity
      split <;> omega
    unfold infinity at hnot hle ⊢
    omega

/-- A subnormal single, or one whose exponent is too small for a subnormal half. -/
theorem single_lt_of_small {e m : ℕ} (he : e < 102) (hm : m < 2 ^ 23) :
    single (e * 2 ^ 23 + m) < 2 ^ 124 := by
  rcases Nat.eq_zero_or_pos e with rfl | hpos
  · rw [single, Binary.magnitude_add 0 hm, if_pos rfl]
    exact hm.trans (Nat.pow_lt_pow_right (by decide) (by decide))
  · rw [single_of_pos (by omega) hm]
    calc (2 ^ 23 + m) * 2 ^ (e - 1)
        < 2 ^ 24 * 2 ^ (e - 1) := Nat.mul_lt_mul_of_pos_right (by omega) (Nat.two_pow_pos _)
      _ ≤ 2 ^ 24 * 2 ^ 100 := Nat.mul_le_mul_left _ (Nat.pow_le_pow_right (by decide) (by omega))
      _ = 2 ^ 124 := by rw [← Nat.pow_add]

/-- The branches of the rounding. -/
theorem rounds {e m : ℕ} (he : e < 255) (hm : m < 2 ^ 23) :
    (single (e * 2 ^ 23 + m) < overflow → Rounds (single (e * 2 ^ 23 + m)) (halfBits e m)) ∧
      (overflow ≤ single (e * 2 ^ 23 + m) → halfBits e m = infinity) := by
  have hmono : ∀ {v : ℕ}, v < 2 ^ 142 → v < overflow := by
    intro v hv
    exact hv.trans (by decide)
  rcases Nat.lt_or_ge e 102 with hzero | hlow
  · have hlt := single_lt_of_small hzero hm
    rw [halfBits, if_pos (by omega), if_pos hzero]
    refine ⟨fun _ => rounds_zero hlt, fun hge => absurd (hmono ?_) (Nat.not_lt.mpr hge)⟩
    exact hlt.trans (Nat.pow_lt_pow_right (by decide) (by decide))
  rcases Nat.lt_or_ge 112 e with hnormal | hsmall
  · rcases Nat.lt_or_ge e 143 with hhigh | hlarge
    · exact rounds_normal hnormal (by omega) hm
    · -- too large for a half
      have hge : overflow ≤ single (e * 2 ^ 23 + m) := by
        rw [single_of_pos (by omega) hm]
        calc overflow ≤ 2 ^ 23 * 2 ^ 142 := by decide
          _ ≤ (2 ^ 23 + m) * 2 ^ (e - 1) :=
            Nat.mul_le_mul (Nat.le_add_right _ _) (Nat.pow_le_pow_right (by decide) (by omega))
      rw [halfBits, if_neg (by omega), if_pos hlarge, if_neg (by omega)]
      exact ⟨fun hlt => absurd hlt (Nat.not_lt.mpr hge), fun _ => rfl⟩
  · have hlt : single (e * 2 ^ 23 + m) < 2 ^ 142 := by
      rw [single_of_pos (by omega) hm]
      calc (2 ^ 23 + m) * 2 ^ (e - 1)
          < 2 ^ 24 * 2 ^ (e - 1) := Nat.mul_lt_mul_of_pos_right (by omega) (Nat.two_pow_pos _)
        _ ≤ 2 ^ 24 * 2 ^ 111 := Nat.mul_le_mul_left _ (Nat.pow_le_pow_right (by decide) (by omega))
        _ ≤ 2 ^ 142 := by rw [← Nat.pow_add]; exact Nat.pow_le_pow_right (by decide) (by decide)
    rw [halfBits, if_pos hsmall, if_neg (by omega)]
    exact ⟨fun _ => rounds_subnormal hlow hsmall hm,
      fun hge => absurd (hmono hlt) (Nat.not_lt.mpr hge)⟩

theorem halfBits_lt {e m : ℕ} (hm : m < 2 ^ 23) : halfBits e m < 2 ^ 15 := by
  unfold halfBits
  split
  · split
    · decide
    · have hle : (m + 2 ^ 23) / 2 ^ (113 - e) ≤ m + 2 ^ 23 := Nat.div_le_self _ _
      omega
  · split
    · split <;> decide
    · split <;> omega

/-- **Half precision.** A finite single is rounded to the nearest half, or to infinity if it is
as near to what would be the next half after the largest; the sign stays; infinity stays
infinity, and what is no number stays none. -/
theorem f32_to_f16_rounds (x : BitVec 32) :
    (f32_to_f16 x).toNat / 2 ^ 15 = x.toNat / 2 ^ 31 ∧
      (x.toNat % 2 ^ 31 < 255 * 2 ^ 23 →
        (single (x.toNat % 2 ^ 31) < overflow →
          Rounds (single (x.toNat % 2 ^ 31)) ((f32_to_f16 x).toNat % 2 ^ 15)) ∧
        (overflow ≤ single (x.toNat % 2 ^ 31) →
          (f32_to_f16 x).toNat % 2 ^ 15 = infinity)) ∧
      (x.toNat % 2 ^ 31 = 255 * 2 ^ 23 → (f32_to_f16 x).toNat % 2 ^ 15 = infinity) ∧
      (255 * 2 ^ 23 < x.toNat % 2 ^ 31 → infinity < (f32_to_f16 x).toNat % 2 ^ 15) := by
  have hx : x.toNat < 2 ^ 32 := x.isLt
  obtain ⟨e, he⟩ : ∃ e, e = x.toNat / 2 ^ 23 % 2 ^ 8 := ⟨_, rfl⟩
  obtain ⟨m, hm⟩ : ∃ m, m = x.toNat % 2 ^ 23 := ⟨_, rfl⟩
  have hmlt : m < 2 ^ 23 := hm ▸ Nat.mod_lt _ (by decide)
  have hfields : x.toNat % 2 ^ 31 = e * 2 ^ 23 + m := by omega
  have hbits := toNat_f32_to_f16 x
  rw [← he, ← hm] at hbits
  have hlt := halfBits_lt (e := e) hmlt
  have hlow : (f32_to_f16 x).toNat % 2 ^ 15 = halfBits e m := by omega
  rw [hlow, hfields]
  refine ⟨by omega, fun hfinite => rounds (by omega) hmlt, ?_, ?_⟩
  · intro hinf
    rw [halfBits, if_neg (by omega), if_pos (by omega), if_neg (by omega)]
    rfl
  · intro hnan
    rw [halfBits, if_neg (by omega), if_pos (by omega), if_pos (by omega)]
    decide

end AsrWorker
end OpenVoiceStream
