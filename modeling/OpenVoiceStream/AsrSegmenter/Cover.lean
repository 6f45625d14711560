import Mathlib.Data.List.Chain
import Mathlib.Data.List.Range
import OpenVoiceStream.AsrSegmenter.Bounds

/-!
# Slices that leave nothing out

The loop over the slices allows for rounding; read without it, the slices before the last one
start a stride apart, and the last one ends with the clip.

Where the last slice is too short it is folded into the one before it, whose start is pulled
forward. The start of the slice that was there is heard no more unless the slice before that one
reaches the new start.

## Main definitions

* `slicesWithin`, `fixedSegmentBoundsWithin` — the same with what is allowed for rounding given.
* `Covers` — what is asked of the bounds.
* `Reaches` — the tail is not folded, or the fold leaves no gap.

## Main results

* `exists_mem_of_touching` — intervals that touch cover what is between their ends.
* `slicesWithin_zero` — the slices in closed form.
* `covers_iff_reaches` — every clip.
-/

namespace OpenVoiceStream
namespace AsrSegmenter

/-! ### Rounding as a parameter -/

/-- The loop over the slices. -/
def slicesWithin (slack : ℚ) (hslack : 0 ≤ slack) (duration maxSegmentSeconds : ℚ)
    (step : { step : ℚ // 0 < step }) (start : ℚ) : List Bound :=
  if _ : start < duration - slack then
    let stop := min duration (start + maxSegmentSeconds)
    if duration - slack ≤ stop then [(start, stop)]
    else (start, stop) :: slicesWithin slack hslack duration maxSegmentSeconds step (start + step)
  else []
termination_by ⌈(duration - start) / step⌉₊
decreasing_by
  apply ceil_sub_lt step.2
  linarith

/-- `fixed_segment_bounds`. -/
def fixedSegmentBoundsWithin (slack : ℚ) (hslack : 0 ≤ slack)
    (duration maxSegmentSeconds overlapSeconds : ℚ) : List Bound :=
  if h : duration ≤ 0 ∨ maxSegmentSeconds ≤ 0 then []
  else if duration ≤ maxSegmentSeconds then [(0, duration)]
  else
    foldTail maxSegmentSeconds <| slicesWithin slack hslack duration maxSegmentSeconds
      (stride maxSegmentSeconds overlapSeconds (pos_of_long h)) 0

/-! ### What is asked of the bounds -/

/-- The bounds start at the beginning and end at the end, their starts increase, none is too long,
each starts no later than the one before it ends, and every moment of the clip is in one. -/
structure Covers (duration maxSegmentSeconds : ℚ) (bounds : List Bound) : Prop where
  head : bounds.head?.map Prod.fst = some 0
  last : bounds.getLast?.map Prod.snd = some duration
  increasing : bounds.IsChain fun a b => a.1 < b.1
  short : ∀ b ∈ bounds, b.2 - b.1 ≤ maxSegmentSeconds
  touching : bounds.IsChain fun a b => b.1 ≤ a.2
  heard : ∀ x, 0 ≤ x → x ≤ duration → ∃ b ∈ bounds, b.1 ≤ x ∧ x ≤ b.2

/-- Intervals that touch cover what is between the start of the first and the end of the last. -/
theorem exists_mem_of_touching {α : Type*} [LinearOrder α] {intervals : List (α × α)}
    {first last : α}
    (htouching : intervals.IsChain fun a b => b.1 ≤ a.2)
    (hfirst : intervals.head?.map Prod.fst = some first)
    (hlast : intervals.getLast?.map Prod.snd = some last) {x : α} (hx : first ≤ x)
    (hx' : x ≤ last) : ∃ b ∈ intervals, b.1 ≤ x ∧ x ≤ b.2 := by
  induction intervals generalizing first with
  | nil => cases hfirst
  | cons b rest ih =>
    obtain rfl : b.1 = first := Option.some_inj.mp hfirst
    obtain hle | hgt := le_or_gt x b.2
    · exact ⟨b, List.mem_cons_self, hx, hle⟩
    · cases rest with
      | nil =>
        obtain rfl : b.2 = last := Option.some_inj.mp hlast
        exact absurd hx' (not_le.mpr hgt)
      | cons c rest =>
        obtain ⟨hbc, hrest⟩ := List.isChain_cons_cons.mp htouching
        obtain ⟨d, hd, hin⟩ := ih hrest rfl (by rwa [List.getLast?_cons_cons] at hlast)
          (hbc.trans hgt.le)
        exact ⟨d, List.mem_cons_of_mem b hd, hin⟩

/-! ### The slices in closed form -/

/-- The slice with this number, where it is not the last one. -/
def fullSlice (m step : ℚ) (i : ℕ) : Bound := (i * step, i * step + m)

/-- The number of full slices before the last one. -/
def fullSlices (duration m step : ℚ) : ℕ := ⌈(duration - m) / step⌉₊

section Closed

variable {duration m : ℚ} {step : { step : ℚ // 0 < step }}

theorem slicesWithin_zero_from (hstep : step.1 ≤ m) (n : ℕ) (i : ℕ)
    (hlast : duration ≤ (i + n : ℕ) * step.1 + m)
    (hmore : ∀ k, k < n → (i + k : ℕ) * step.1 + m < duration) (hstart : i * step.1 < duration) :
    slicesWithin 0 le_rfl duration m step (i * step.1) =
      (List.range n).map (fun k => fullSlice m step.1 (i + k)) ++
        [((i + n : ℕ) * step.1, duration)] := by
  induction n generalizing i with
  | zero =>
    rw [slicesWithin, dif_pos (by rwa [sub_zero])]
    rw [Nat.add_zero] at hlast ⊢
    have hmin : min duration (i * step.1 + m) = duration := min_eq_left hlast
    rw [hmin]
    exact if_pos (sub_le_self _ le_rfl)
  | succ n ih =>
    have hfirst : (i : ℚ) * step.1 + m < duration := hmore 0 (Nat.succ_pos n)
    have hmin : min duration (i * step.1 + m) = i * step.1 + m := min_eq_right hfirst.le
    have hnext : (i : ℚ) * step.1 + step.1 = ((i + 1 : ℕ) : ℚ) * step.1 := by
      push_cast
      ring
    have hrest := ih (i + 1) (by rw [Nat.add_assoc, Nat.add_comm 1 n]; exact hlast)
      (fun k hk => by
        rw [Nat.add_assoc, Nat.add_comm 1 k]
        exact hmore (k + 1) (Nat.succ_lt_succ hk))
      (by rw [← hnext]; linarith)
    rw [slicesWithin, dif_pos (by rwa [sub_zero])]
    dsimp only
    rw [hmin, if_neg (by rw [sub_zero]; exact not_le.mpr hfirst), hnext, hrest,
      List.range_succ_eq_map, List.map_cons, List.map_map, Nat.add_assoc, Nat.add_comm 1 n]
    refine congrArg (fullSlice m step.1 i :: ·) (congrArg (· ++ _) (List.map_congr_left ?_))
    intro k _
    rw [Function.comp_apply, Nat.add_assoc, Nat.add_comm 1 k]

theorem fullSlices_le (duration m : ℚ) (step : { step : ℚ // 0 < step }) :
    duration ≤ fullSlices duration m step.1 * step.1 + m := by
  have hceil := Nat.le_ceil ((duration - m) / step.1)
  rw [div_le_iff₀ step.2] at hceil
  rw [fullSlices]
  linarith

theorem lt_of_lt_fullSlices {k : ℕ} (hk : k < fullSlices duration m step.1) :
    k * step.1 + m < duration := by
  have hceil := Nat.lt_ceil.mp hk
  rw [lt_div_iff₀ step.2] at hceil
  linarith

theorem fullSlices_pos (step : { step : ℚ // 0 < step }) (hlong : m < duration) : 0 < fullSlices duration m step.1 :=
  Nat.ceil_pos.mpr (div_pos (sub_pos.mpr hlong) step.2)

/-- **The slices without rounding.** -/
theorem slicesWithin_zero (hstep : step.1 ≤ m) (hlong : m < duration) :
    slicesWithin 0 le_rfl duration m step 0 =
      (List.range (fullSlices duration m step.1)).map (fullSlice m step.1) ++
        [(fullSlices duration m step.1 * step.1, duration)] := by
  have hpos : 0 < m := step.2.trans_le hstep
  have hend : duration ≤ (0 + fullSlices duration m step.1 : ℕ) * step.1 + m := by
    rw [Nat.zero_add]
    exact fullSlices_le duration m step
  have h := slicesWithin_zero_from hstep (fullSlices duration m step.1) 0 hend
    (fun k hk => by rw [Nat.zero_add]; exact lt_of_lt_fullSlices hk)
    (by rw [Nat.cast_zero, zero_mul]; exact hpos.trans hlong)
  rw [Nat.cast_zero, zero_mul, Nat.zero_add] at h
  rw [h]
  refine congrArg (· ++ _) (List.map_congr_left fun k _ => ?_)
  rw [Nat.zero_add]

/-- Full slices and a last one that starts behind the last of them and not after its end. -/
theorem covers_of_last {n : ℕ} {start : ℚ} (hstep : step.1 ≤ m) (hshort : duration - start ≤ m)
    (hzero : n = 0 → start = 0)
    (hsucc : ∀ k, n = k + 1 → k * step.1 < start ∧ start ≤ k * step.1 + m) :
    Covers duration m ((List.range n).map (fullSlice m step.1) ++ [(start, duration)]) := by
  have hpos := step.2
  have hchain {R : Bound → Bound → Prop}
      (hfull : ∀ k : ℕ, R (fullSlice m step.1 k) (fullSlice m step.1 (k + 1)))
      (hend : ∀ k, n = k + 1 → R (fullSlice m step.1 k) (start, duration)) :
      ((List.range n).map (fullSlice m step.1) ++ [(start, duration)]).IsChain R := by
    rw [List.isChain_append]
    refine ⟨?_, List.isChain_singleton _, ?_⟩
    · rw [List.isChain_map, List.isChain_range]
      exact fun k _ => hfull k
    · intro b hb c hc
      cases n with
      | zero => cases hb
      | succ k =>
        rw [List.range_succ, List.map_append, List.map_singleton, List.getLast?_concat] at hb
        cases hb
        cases hc
        exact hend k rfl
  have hhead : ((List.range n).map (fullSlice m step.1) ++ [(start, duration)]).head?.map Prod.fst
      = some 0 := by
    cases n with
    | zero => exact congrArg some (hzero rfl)
    | succ k =>
      rw [List.range_succ_eq_map, List.map_cons, List.cons_append, List.head?_cons]
      simp [fullSlice]
  have hlast : ((List.range n).map (fullSlice m step.1) ++ [(start, duration)]).getLast?.map
      Prod.snd = some duration := by
    rw [List.getLast?_concat]
    rfl
  have htouching : ((List.range n).map (fullSlice m step.1) ++ [(start, duration)]).IsChain
      fun a b => b.1 ≤ a.2 :=
    hchain (fun k => by simp only [fullSlice, Nat.cast_succ]; linarith) fun k hk => (hsucc k hk).2
  refine ⟨hhead, hlast, hchain (fun k => ?_) (fun k hk => (hsucc k hk).1), ?_, htouching,
    fun x hx hx' => exists_mem_of_touching htouching hhead hlast hx hx'⟩
  · simp only [fullSlice, Nat.cast_succ]
    linarith
  · intro b hb
    obtain hb | hb := List.mem_append.mp hb
    · obtain ⟨k, -, rfl⟩ := List.mem_map.mp hb
      simp [fullSlice]
    · rw [List.mem_singleton.mp hb]
      exact hshort

end Closed

/-! ### The fold -/

/-- The tail is long enough, or the slice before the last but one reaches the start to which the
last but one is pulled forward; a clip that fits has one slice. -/
def Reaches (duration maxSegmentSeconds overlapSeconds : ℚ) : Prop :=
  let overlap := clampOverlap maxSegmentSeconds overlapSeconds
  let step := maxSegmentSeconds - overlap
  let full := fullSlices duration maxSegmentSeconds step
  let tail := duration - full * step
  duration ≤ maxSegmentSeconds ∨ minTailSeconds ≤ tail ∨ 2 ≤ full ∧ tail ≤ 2 * overlap

instance (duration m overlap : ℚ) : Decidable (Reaches duration m overlap) := by
  unfold Reaches; infer_instance

theorem foldTail_cons (m : ℚ) (a b c : Bound) (bounds : List Bound) :
    foldTail m (a :: b :: c :: bounds) = a :: foldTail m (b :: c :: bounds) := by
  rw [foldTail]
  intro _ heq
  cases heq

theorem foldTail_append (m : ℚ) (front : List Bound) (before tail : Bound) :
    foldTail m (front ++ [before, tail]) =
      front ++ if tail.2 - tail.1 < minTailSeconds then [(max before.1 (tail.2 - m), tail.2)]
        else [before, tail] := by
  induction front with
  | nil => rfl
  | cons b front ih =>
    have hcons : foldTail m (b :: (front ++ [before, tail])) =
        b :: foldTail m (front ++ [before, tail]) := by
      cases front with
      | nil => exact foldTail_cons m b before tail []
      | cons c front =>
        cases front with
        | nil => exact foldTail_cons m b c before [tail]
        | cons d front => exact foldTail_cons m b c d _
    rw [List.cons_append, hcons, ih]
    rfl

section Fold

variable {duration m overlap : ℚ}

/-- Two slices that become one lose the beginning, three or more the gap between the last two. -/
theorem not_covers_of_folded {step : { step : ℚ // 0 < step }} {k : ℕ} {start : ℚ}
    (hgap : ∀ j, k = j + 1 → j * step.1 + m < start) (hzero : k = 0 → start ≠ 0) :
    ¬ Covers duration m ((List.range k).map (fullSlice m step.1) ++ [(start, duration)]) := by
  intro h
  cases k with
  | zero => exact hzero rfl (Option.some_inj.mp h.head)
  | succ j =>
    have htouching := h.touching
    rw [List.isChain_append] at htouching
    have hle := htouching.2.2 (fullSlice m step.1 j)
      (by rw [List.range_succ, List.map_append, List.map_singleton, List.getLast?_concat]; rfl)
      (start, duration) rfl
    exact absurd hle (not_le.mpr (hgap j rfl))

/-- **The bounds of a long clip**, by the number of its full slices. -/
theorem fixedSegmentBoundsWithin_zero (overlap : ℚ) (hm : 0 < m) (hlong : m < duration) {k : ℕ}
    (hk : fullSlices duration m (stride m overlap hm).1 = k + 1) :
    fixedSegmentBoundsWithin 0 le_rfl duration m overlap =
      (List.range k).map (fullSlice m (stride m overlap hm).1) ++
        if duration - (k + 1 : ℕ) * (stride m overlap hm).1 < minTailSeconds then
          [(duration - m, duration)]
        else [fullSlice m (stride m overlap hm).1 k,
          ((k + 1 : ℕ) * (stride m overlap hm).1, duration)] := by
  have hbefore : (k : ℚ) * (stride m overlap hm).1 + m < duration :=
    lt_of_lt_fullSlices (hk ▸ Nat.lt_succ_self k)
  -- the new start is the one the limit allows
  have hmax : max (fullSlice m (stride m overlap hm).1 k).1 (duration - m) = duration - m :=
    max_eq_right (by simp only [fullSlice]; linarith)
  unfold fixedSegmentBoundsWithin
  rw [dif_neg (by rintro (h | h) <;> linarith), if_neg (not_le.mpr hlong),
    slicesWithin_zero (stride_le hm overlap) hlong, hk, List.range_succ, List.map_append,
    List.map_singleton, List.append_assoc, List.singleton_append, foldTail_append, hmax]

theorem reaches_iff (hm : 0 < m) (hlong : m < duration) {k : ℕ}
    (hk : fullSlices duration m (stride m overlap hm).1 = k + 1) :
    Reaches duration m overlap ↔
      minTailSeconds ≤ duration - (k + 1 : ℕ) * (stride m overlap hm).1 ∨
        1 ≤ k ∧ duration - (k + 1 : ℕ) * (stride m overlap hm).1 ≤ 2 * clampOverlap m overlap := by
  unfold Reaches
  dsimp only
  rw [show fullSlices duration m (m - clampOverlap m overlap) = k + 1 from hk,
    Nat.succ_le_succ_iff]
  exact or_iff_right (not_le.mpr hlong)

/-- **The slices of a clip leave nothing out** exactly in this case. -/
theorem covers_iff_reaches (hduration : 0 < duration) (hm : 0 < m) :
    Covers duration m (fixedSegmentBoundsWithin 0 le_rfl duration m overlap) ↔
      Reaches duration m overlap := by
  have hle := stride_le hm overlap
  have hpos := (stride m overlap hm).2
  have hstride : (stride m overlap hm).1 = m - clampOverlap m overlap := rfl
  rcases le_or_gt duration m with hfits | hlong
  · refine iff_of_true ?_ (.inl hfits)
    unfold fixedSegmentBoundsWithin
    rw [dif_neg (by rintro (h | h) <;> linarith), if_pos hfits]
    have h : Covers duration m ((List.range 0).map (fullSlice m _) ++ [(0, duration)]) :=
      covers_of_last hle (by rwa [sub_zero]) (fun _ => rfl)
        (fun j hj => absurd hj.symm (Nat.succ_ne_zero j))
    exact h
  · obtain ⟨k, hk⟩ := Nat.exists_eq_succ_of_ne_zero
      (fullSlices_pos (stride m overlap hm) hlong).ne'
    have hbefore : (k : ℚ) * (stride m overlap hm).1 + m < duration :=
      lt_of_lt_fullSlices (hk ▸ Nat.lt_succ_self k)
    have hend : duration ≤ (k + 1 : ℕ) * (stride m overlap hm).1 + m := by
      have h := fullSlices_le duration m (stride m overlap hm)
      rwa [hk] at h
    rw [fixedSegmentBoundsWithin_zero overlap hm hlong hk, reaches_iff hm hlong hk]
    split
    · next hfold =>
      rw [or_iff_right (not_le.mpr hfold)]
      constructor
      · intro h
        by_contra hnot
        rw [not_and_or, not_le, not_le] at hnot
        refine not_covers_of_folded (fun j hj => ?_) (fun _ => by linarith) h
        obtain hone | hgap := hnot
        · omega
        · rw [hj] at hgap
          push_cast at hgap ⊢
          rw [hstride] at hgap ⊢
          linarith
      · rintro ⟨hone, hreach⟩
        refine covers_of_last hle (by linarith) (by omega) fun j hj => ?_
        rw [hj] at hbefore hreach
        push_cast at hbefore hreach
        rw [hstride] at hbefore hreach ⊢
        constructor
        · linarith
        · linarith
    · next hlongTail =>
      refine iff_of_true ?_ (.inl (not_lt.mp hlongTail))
      have h : Covers duration m ((List.range (k + 1)).map (fullSlice m (stride m overlap hm).1) ++
          [((k + 1 : ℕ) * (stride m overlap hm).1, duration)]) := by
        refine covers_of_last hle (by linarith) (fun h => absurd h (Nat.succ_ne_zero k))
          fun j hj => ?_
        obtain rfl : k = j := Nat.succ_injective hj
        push_cast
        constructor <;> linarith
      rw [List.range_succ, List.map_append, List.map_singleton, List.append_assoc,
        List.singleton_append] at h
      exact h

end Fold

/-- Twenty-one seconds: the last of three slices is long enough. -/
theorem covers_twentyOneSeconds :
    Covers 21 (21 / 2) (fixedSegmentBoundsWithin 0 le_rfl 21 (21 / 2) (2 / 5)) :=
  (covers_iff_reaches (by norm_num) (by norm_num)).mpr (by decide +kernel)

/-- **The first moment is left out** of a clip that is a little longer than one slice: the two
slices become one that ends with the clip. -/
theorem beginning_lost :
    ¬ ∀ duration maxSegmentSeconds overlapSeconds : ℚ, 0 < duration → 0 < maxSegmentSeconds →
      0 ≤ overlapSeconds → Covers duration maxSegmentSeconds
        (fixedSegmentBoundsWithin 0 le_rfl duration maxSegmentSeconds overlapSeconds) := by
  intro h
  have hbounds : fixedSegmentBoundsWithin 0 le_rfl (211 / 20) (21 / 2) (2 / 5) =
      [(1 / 20, 211 / 20)] := by
    have hm : (0 : ℚ) < 21 / 2 := by norm_num
    have hstride : (stride (21 / 2) (2 / 5) hm).1 = 101 / 10 := by
      norm_num [stride, clampOverlap]
    have hfull : fullSlices (211 / 20) (21 / 2) (stride (21 / 2) (2 / 5) hm).1 = 0 + 1 := by
      rw [hstride]
      decide +kernel
    rw [fixedSegmentBoundsWithin_zero (2 / 5) hm (by norm_num) hfull, hstride,
      if_pos (by norm_num [minTailSeconds])]
    norm_num
  have hhead := (h (211 / 20) (21 / 2) (2 / 5) (by norm_num) (by norm_num) (by norm_num)).head
  rw [hbounds] at hhead
  exact absurd (Option.some_inj.mp hhead) (by norm_num)

end AsrSegmenter
end OpenVoiceStream
