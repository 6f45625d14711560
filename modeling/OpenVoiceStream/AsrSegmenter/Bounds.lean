import Mathlib.Algebra.Order.Floor.Semiring
import Mathlib.Data.Rat.Floor
import Mathlib.Tactic.Linarith
import Mathlib.Tactic.NormNum
import OpenVoiceStream.V2v.Vad

/-!
# Where an offline clip is cut

A clip that is too long for one decode is cut at the silences that the VAD finds, and else
into slices of fixed length that overlap a little.  A last slice that is too short for a
decode of its own is folded into the one before it.

No bound that is planned is longer than the limit.  How many there are is another matter:
the fold and the packing of regions can leave a single one.

## Main definitions

* `slices`, `foldTail`, `fixedSegmentBounds` — slices of fixed length.
* `speechRegions` — the regions that the VAD hears.
* `groupRegions` — the regions, packed.
* `FixedSplits`, `GroupSplits` — the plan has two bounds or more.

## Main results

* `fixedSegmentBounds_le`, `groupRegions_le` — no bound is too long.
* `two_le_length_fixedSegmentBounds`, `two_le_length_groupRegions` — when there is more than
  one.
-/

namespace OpenVoiceStream
namespace AsrSegmenter

open V2v (VadEvent)

/-- The start and the end of a segment, in seconds. -/
abbrev Bound := ℚ × ℚ

/-- What the loop over the slices allows for rounding. -/
def epsilon : ℚ := 1 / 1000000000

theorem epsilon_pos : 0 < epsilon := by norm_num [epsilon]

/-- `_MIN_TAIL_SECONDS`. -/
def minTailSeconds : ℚ := 1 / 2

/-! ### Slices of fixed length -/

/-- The overlap of two slices is at most half of one. -/
def clampOverlap (maxSegmentSeconds overlapSeconds : ℚ) : ℚ :=
  min (max 0 overlapSeconds) (maxSegmentSeconds / 2)

theorem clampOverlap_nonneg {m : ℚ} (hm : 0 < m) (overlap : ℚ) : 0 ≤ clampOverlap m overlap :=
  le_min (le_max_left 0 overlap) (by linarith)

theorem clampOverlap_lt {m : ℚ} (hm : 0 < m) (overlap : ℚ) : clampOverlap m overlap < m :=
  (min_le_right _ _).trans_lt (by linarith)

/-- How far the next slice starts behind the last one. -/
def stride (m overlap : ℚ) (hm : 0 < m) : { step : ℚ // 0 < step } :=
  ⟨m - clampOverlap m overlap, sub_pos.mpr (clampOverlap_lt hm overlap)⟩

theorem stride_le {m : ℚ} (hm : 0 < m) (overlap : ℚ) : (stride m overlap hm).1 ≤ m :=
  sub_le_self m (clampOverlap_nonneg hm overlap)

theorem ceil_sub_lt {duration start step : ℚ} (hstep : 0 < step) (hstart : start < duration) :
    ⌈(duration - (start + step)) / step⌉₊ < ⌈(duration - start) / step⌉₊ := by
  have hpos : 0 < (duration - start) / step := div_pos (sub_pos.mpr hstart) hstep
  have hnext : (duration - (start + step)) / step = (duration - start) / step - 1 := by
    rw [← sub_sub, sub_div, div_self (ne_of_gt hstep)]
  rw [hnext, Nat.ceil_sub_one]
  exact Nat.sub_lt (Nat.ceil_pos.mpr hpos) one_pos

/-- The loop over the slices. -/
def slices (duration maxSegmentSeconds : ℚ) (step : { step : ℚ // 0 < step }) (start : ℚ) :
    List Bound :=
  if _ : start < duration - epsilon then
    let stop := min duration (start + maxSegmentSeconds)
    if duration - epsilon ≤ stop then [(start, stop)]
    else (start, stop) :: slices duration maxSegmentSeconds step (start + step)
  else []
termination_by ⌈(duration - start) / step⌉₊
decreasing_by
  apply ceil_sub_lt step.2
  have heps := epsilon_pos
  linarith

/-- The tail is folded into the slice before it, whose start is pulled forward. -/
def foldTail (maxSegmentSeconds : ℚ) : List Bound → List Bound
  | [before, tail] =>
    if tail.2 - tail.1 < minTailSeconds then
      [(max before.1 (tail.2 - maxSegmentSeconds), tail.2)]
    else [before, tail]
  | b :: bounds => b :: foldTail maxSegmentSeconds bounds
  | [] => []

theorem pos_of_long {duration m : ℚ} (h : ¬(duration ≤ 0 ∨ m ≤ 0)) : 0 < m :=
  not_le.mp (not_or.mp h).2

/-- `fixed_segment_bounds`. -/
def fixedSegmentBounds (duration maxSegmentSeconds overlapSeconds : ℚ) : List Bound :=
  if h : duration ≤ 0 ∨ maxSegmentSeconds ≤ 0 then []
  else if duration ≤ maxSegmentSeconds then [(0, duration)]
  else
    foldTail maxSegmentSeconds <| slices duration maxSegmentSeconds
      (stride maxSegmentSeconds overlapSeconds (pos_of_long h)) 0

/-- A clip is long enough for more than one slice of fixed length: behind the first slice there
is more than rounding, and if the second one is the last, it is not folded. -/
def FixedSplits (duration m overlap : ℚ) : Prop :=
  m < duration - epsilon ∧
    (m - clampOverlap m overlap + m < duration - epsilon ∨
      minTailSeconds ≤
        min duration (m - clampOverlap m overlap + m) - (m - clampOverlap m overlap))

instance (duration m overlap : ℚ) : Decidable (FixedSplits duration m overlap) := by
  unfold FixedSplits; infer_instance

section Slices

variable {duration m start overlap : ℚ} {step : { step : ℚ // 0 < step }}

theorem slices_of_le (h : duration - epsilon ≤ start) : slices duration m step start = [] := by
  rw [slices, dif_neg (not_lt.mpr h)]

/-- The last slice. -/
theorem slices_of_last (h : start < duration - epsilon) (hlast : duration - epsilon ≤ start + m) :
    slices duration m step start = [(start, min duration (start + m))] := by
  have heps := epsilon_pos
  rw [slices, dif_pos h]
  exact if_pos (le_min (by linarith) hlast)

/-- A slice that is followed by another one. -/
theorem slices_of_more (h : start < duration - epsilon) (hmore : start + m < duration - epsilon) :
    slices duration m step start =
      (start, min duration (start + m)) :: slices duration m step (start + step) := by
  rw [slices, dif_pos h]
  exact if_neg (not_le.mpr ((min_le_right _ _).trans_lt hmore))

theorem slices_ne_nil (h : start < duration - epsilon) : slices duration m step start ≠ [] := by
  rcases le_or_gt (duration - epsilon) (start + m) with hlast | hmore
  · rw [slices_of_last h hlast]
    exact List.cons_ne_nil _ _
  · rw [slices_of_more h hmore]
    exact List.cons_ne_nil _ _

/-- No slice is longer than the limit. -/
theorem slices_le : ∀ b ∈ slices duration m step start, b.2 - b.1 ≤ m := by
  fun_induction slices duration m step start with
  | case1 start h stop hlast =>
    intro b hb
    obtain rfl := List.mem_singleton.mp hb
    have : stop ≤ start + m := min_le_right _ _
    linarith
  | case2 start h stop hmore ih =>
    intro b hb
    rcases List.mem_cons.mp hb with rfl | hb
    · have : stop ≤ start + m := min_le_right _ _
      linarith
    · exact ih b hb
  | case3 start h => intro b hb; cases hb

/-- The fold makes no slice longer than the limit either. -/
theorem foldTail_le {bounds : List Bound} (h : ∀ b ∈ bounds, b.2 - b.1 ≤ m) :
    ∀ b ∈ foldTail m bounds, b.2 - b.1 ≤ m := by
  fun_induction foldTail m bounds with
  | case1 before tail htail =>
    intro b hb
    obtain rfl := List.mem_singleton.mp hb
    have : tail.2 - m ≤ max before.1 (tail.2 - m) := le_max_right _ _
    dsimp only
    linarith
  | case2 before tail htail => exact h
  | case3 b bounds _ ih =>
    intro c hc
    rcases List.mem_cons.mp hc with rfl | hc
    · exact h c List.mem_cons_self
    · exact ih (fun d hd => h d (List.mem_cons_of_mem b hd)) c hc
  | case4 => exact h

/-- No slice that is planned is longer than the limit. -/
theorem fixedSegmentBounds_le (duration m overlap : ℚ) :
    ∀ b ∈ fixedSegmentBounds duration m overlap, b.2 - b.1 ≤ m := by
  unfold fixedSegmentBounds
  split
  · intro b hb
    cases hb
  · split
    case isTrue hshort =>
      intro b hb
      obtain rfl := List.mem_singleton.mp hb
      simpa using hshort
    case isFalse => exact foldTail_le slices_le

theorem foldTail_ne_nil {bounds : List Bound} (h : bounds ≠ []) : foldTail m bounds ≠ [] := by
  fun_cases foldTail m bounds with
  | case1 | case2 | case3 => exact List.cons_ne_nil _ _
  | case4 => exact absurd rfl h

/-- Three slices stay two at least. -/
theorem two_le_length_foldTail (a b : Bound) {bounds : List Bound} (h : bounds ≠ []) :
    2 ≤ (foldTail m (a :: b :: bounds)).length := by
  obtain ⟨c, rest, rfl⟩ := List.exists_cons_of_ne_nil h
  have hne : foldTail m (b :: c :: rest) ≠ [] := foldTail_ne_nil (List.cons_ne_nil _ _)
  have hpos := List.length_pos_of_ne_nil hne
  rw [foldTail, List.length_cons]
  · omega
  · intro _ heq
    simp at heq

/-- A clip that is longer than the limit and than rounding gets a slice. -/
theorem fixedSegmentBounds_ne_nil (overlap : ℚ) (hm : 0 < m) (heps : epsilon < duration) :
    fixedSegmentBounds duration m overlap ≠ [] := by
  have hpos := epsilon_pos
  unfold fixedSegmentBounds
  rw [dif_neg (by rintro (h | h) <;> linarith)]
  split
  · exact List.cons_ne_nil _ _
  · exact foldTail_ne_nil (slices_ne_nil (by linarith))

/-- **When there is more than one slice of fixed length.** -/
theorem two_le_length_fixedSegmentBounds (duration overlap : ℚ) (hm : 0 < m) :
    2 ≤ (fixedSegmentBounds duration m overlap).length ↔ FixedSplits duration m overlap := by
  have heps := epsilon_pos
  have hstep := stride_le hm overlap
  rcases le_or_gt (duration - epsilon) m with hone | hmore
  · -- at most one slice
    have hnot : ¬ FixedSplits duration m overlap := fun h => absurd h.1 (not_lt.mpr hone)
    have hlen : (fixedSegmentBounds duration m overlap).length ≤ 1 := by
      unfold fixedSegmentBounds
      split
      · exact Nat.zero_le 1
      · split
        · exact le_rfl
        · rcases lt_or_ge 0 (duration - epsilon) with hpos | hnone
          · rw [slices_of_last hpos (by linarith)]
            exact le_rfl
          · rw [slices_of_le hnone]
            exact Nat.zero_le 1
    constructor
    · intro h
      omega
    · intro h
      exact absurd h hnot
  · unfold fixedSegmentBounds
    rw [dif_neg (by rintro (h | h) <;> linarith), if_neg (by linarith),
      slices_of_more (by linarith) (by linarith), zero_add, zero_add]
    have hsecond : (stride m overlap hm).1 < duration - epsilon := by linarith
    rcases le_or_gt (duration - epsilon) ((stride m overlap hm).1 + m) with htwo | hthree
    · -- two slices, of which the second may be folded
      rw [slices_of_last hsecond htwo, foldTail]
      have hiff : FixedSplits duration m overlap ↔ minTailSeconds ≤
          min duration ((stride m overlap hm).1 + m) - (stride m overlap hm).1 := by
        constructor
        · rintro ⟨_, hthree | htail⟩
          · exact absurd hthree (not_lt.mpr htwo)
          · exact htail
        · intro htail
          exact ⟨hmore, .inr htail⟩
      rw [hiff]
      split
      case isTrue hfold => simpa using hfold
      case isFalse hkeep => simpa using hkeep
    · rw [slices_of_more hsecond hthree]
      have hthird : slices duration m (stride m overlap hm)
          ((stride m overlap hm).1 + (stride m overlap hm).1) ≠ [] :=
        slices_ne_nil (by linarith)
      constructor
      · intro _
        exact ⟨hmore, .inl hthree⟩
      · intro _
        exact two_le_length_foldTail _ _ hthird

end Slices

/-! ### The regions that the VAD hears -/

/-- A VAD session: the number of samples in one window, and what it answers to each.  `none`
is an exception. -/
structure VadSession where
  window : ℕ
  window_pos : 0 < window
  process : ℕ → Option (Option VadEvent)

/-- The loop of `_speech_regions_from_vad` over the next windows, from window `n` on, with the
start of the region that is open. -/
def speechSpans (vad : VadSession) (total : ℕ) : ℕ → ℕ → Option ℕ → Option (List (ℕ × ℕ))
  | 0, _, start => some (start.toList.map fun s => (s, total))
  | k + 1, n, start => do
    match ← vad.process n with
    | some .speechStart => speechSpans vad total k (n + 1) (start.or (some (n * vad.window)))
    | some .speechEnd =>
      let spans ← speechSpans vad total k (n + 1) none
      some (start.toList.map (fun s => (s, n * vad.window + vad.window)) ++ spans)
    | none => speechSpans vad total k (n + 1) start

/-- A region is padded, within the clip. -/
def padSpan (total pad : ℕ) (r : ℕ × ℕ) : ℕ × ℕ := (r.1 - pad, min total (r.2 + pad))

/-- `_speech_regions_from_vad`.  A region of less than a tenth of a second is dropped, the
others are padded by as much. -/
def speechRegions (vad : VadSession) (sampleRate total : ℕ) : Option (List Bound) :=
  (speechSpans vad total (total / vad.window) 0 none).map fun spans =>
    ((spans.filter fun r => decide (sampleRate ≤ (r.2 - r.1) * 10)).map
      (padSpan total (sampleRate / 10))).map
        fun r => ((r.1 : ℚ) / sampleRate, (r.2 : ℚ) / sampleRate)

/-- The loop of `group_regions`, with the segment that is open. -/
def packRegions (maxSegmentSeconds overlapSeconds : ℚ) : Option Bound → List Bound → List Bound
  | cur, [] => cur.toList
  | cur, r :: regions =>
    if maxSegmentSeconds < r.2 - r.1 then
      cur.toList ++
        (fixedSegmentBounds (r.2 - r.1) maxSegmentSeconds overlapSeconds).map
          (fun b => (r.1 + b.1, r.1 + b.2)) ++
        packRegions maxSegmentSeconds overlapSeconds none regions
    else
      match cur with
      | none => packRegions maxSegmentSeconds overlapSeconds (some r) regions
      | some c =>
        if r.2 - c.1 ≤ maxSegmentSeconds then
          packRegions maxSegmentSeconds overlapSeconds (some (c.1, r.2)) regions
        else c :: packRegions maxSegmentSeconds overlapSeconds (some r) regions

/-- `group_regions`. -/
def groupRegions (regions : List Bound) (maxSegmentSeconds overlapSeconds : ℚ) : List Bound :=
  packRegions maxSegmentSeconds overlapSeconds none regions

/-- Regions that do not fit into one segment: from the first to the last it is too long, and a
region of its own is long enough for more than one slice. -/
def GroupSplits (m overlap : ℚ) : List Bound → Prop
  | [] => False
  | r :: regions =>
    m < (regions.getLastD r).2 - r.1 ∧ (regions = [] → FixedSplits (r.2 - r.1) m overlap)

section Regions

variable {m overlap : ℚ} {cur : Option Bound} {c r : Bound} {regions : List Bound}

/-! Regions. -/

/-- The spans begin and end one behind the other, within the clip. -/
theorem speechSpans_ordered (vad : VadSession) {total k n : ℕ} {start : Option ℕ}
    {spans : List (ℕ × ℕ)} (hspans : speechSpans vad total k n start = some spans)
    (hk : (n + k) * vad.window ≤ total) (hstart : ∀ s ∈ start, s ≤ n * vad.window) :
    spans.Pairwise (fun a b => a.2 ≤ b.1) ∧
      ∀ r ∈ spans, r.1 ≤ r.2 ∧ r.2 ≤ total ∧ start.getD (n * vad.window) ≤ r.1 := by
  induction k generalizing n start spans with
  | zero =>
    obtain rfl := (Option.some.inj hspans).symm
    cases start with
    | none => simp
    | some s =>
      have hs : s ≤ total := (hstart s rfl).trans ((Nat.mul_le_mul_right _ (by omega)).trans hk)
      simpa using hs
  | succ k ih =>
    have hk' : (n + 1 + k) * vad.window ≤ total := by rwa [Nat.add_right_comm, Nat.add_assoc]
    have hnext : n * vad.window ≤ (n + 1) * vad.window := Nat.mul_le_mul_right _ (Nat.le_succ n)
    rw [speechSpans] at hspans
    obtain ⟨answer, hanswer, hspans⟩ := Option.bind_eq_some_iff.mp hspans
    rcases answer with _ | _ | _
    · -- no transition in this window
      obtain ⟨hpair, hbounds⟩ := ih hspans hk' fun s hs => (hstart s hs).trans hnext
      refine ⟨hpair, fun r hr => ⟨(hbounds r hr).1, (hbounds r hr).2.1, ?_⟩⟩
      have hlow := (hbounds r hr).2.2
      cases start with
      | none => exact hnext.trans hlow
      | some s => exact hlow
    · obtain ⟨hpair, hbounds⟩ := ih hspans hk' fun s hs => by
        cases start with
        | none =>
          obtain rfl := Option.some.inj hs
          exact hnext
        | some s' => exact (hstart s hs).trans hnext
      refine ⟨hpair, fun r hr => ⟨(hbounds r hr).1, (hbounds r hr).2.1, ?_⟩⟩
      have hlow := (hbounds r hr).2.2
      cases start with
      | none => exact hlow
      | some s => exact hlow
    · obtain ⟨rest, hrest, hspans⟩ := Option.bind_eq_some_iff.mp hspans
      obtain rfl := (Option.some.inj hspans).symm
      obtain ⟨hpair, hbounds⟩ := ih hrest hk' fun s hs => by cases hs
      have hlow : ∀ r ∈ rest, n * vad.window + vad.window ≤ r.1 := by
        intro r hr
        have := (hbounds r hr).2.2
        rwa [Option.getD_none, Nat.succ_mul] at this
      cases start with
      | none =>
        refine ⟨hpair, fun r hr => ⟨(hbounds r hr).1, (hbounds r hr).2.1, ?_⟩⟩
        exact (Nat.le_add_right _ _).trans (hlow r hr)
      | some s =>
        -- the region that ends here lies before all the others
        have hs := hstart s rfl
        have hend : n * vad.window + vad.window ≤ total := by
          rw [← Nat.succ_mul]
          exact (Nat.mul_le_mul_right _ (by omega)).trans hk
        refine ⟨List.pairwise_cons.mpr ⟨hlow, hpair⟩, fun r hr => ?_⟩
        rcases List.mem_cons.mp hr with rfl | hr
        · exact ⟨hs.trans (Nat.le_add_right _ _), hend, le_rfl⟩
        · exact ⟨(hbounds r hr).1, (hbounds r hr).2.1,
            hs.trans ((Nat.le_add_right _ _).trans (hlow r hr))⟩

/-- What the packing needs to know of the regions: they start and end one after the other, and
none is as short as the rounding. -/
structure Ordered (regions : List Bound) : Prop where
  pairwise : regions.Pairwise fun a b => a.1 ≤ b.1 ∧ a.2 ≤ b.2
  long : ∀ r ∈ regions, epsilon < r.2 - r.1

theorem Ordered.tail (h : Ordered (r :: regions)) : Ordered regions where
  pairwise := h.pairwise.of_cons
  long := fun s hs => h.long s (List.mem_cons_of_mem r hs)

/-- The regions that the VAD hears are ordered. -/
theorem speechRegions_ordered {vad : VadSession} {sampleRate total : ℕ} (hrate : 0 < sampleRate)
    (hregions : speechRegions vad sampleRate total = some regions) : Ordered regions := by
  obtain ⟨spans, hspans, rfl⟩ := Option.map_eq_some_iff.mp hregions
  obtain ⟨hpair, hbounds⟩ := speechSpans_ordered vad hspans
    (by rw [Nat.zero_add]; exact Nat.div_mul_le_self total vad.window) (by intro s hs; cases hs)
  have hrateQ : (0 : ℚ) < sampleRate := Nat.cast_pos.mpr hrate
  constructor
  · rw [List.pairwise_map, List.pairwise_map]
    refine (hpair.imp_of_mem fun {a b} ha hb hab => ?_).filter _
    have ha := (hbounds a ha).1
    have hb := (hbounds b hb).1
    constructor
    · exact div_le_div_of_nonneg_right (Nat.cast_le.mpr (by simp only [padSpan]; omega)) hrateQ.le
    · exact div_le_div_of_nonneg_right (Nat.cast_le.mpr (by simp only [padSpan]; omega)) hrateQ.le
  · intro r hr
    simp only [List.map_map, List.mem_map, List.mem_filter, decide_eq_true_eq] at hr
    obtain ⟨a, ⟨ha, hlong⟩, rfl⟩ := hr
    have htotal := (hbounds a ha).2.1
    -- padding does not shorten a region
    have hspan : sampleRate ≤ ((padSpan total (sampleRate / 10) a).2 -
        (padSpan total (sampleRate / 10) a).1) * 10 := by
      simp only [padSpan]
      omega
    have hle : (padSpan total (sampleRate / 10) a).1 ≤ (padSpan total (sampleRate / 10) a).2 := by
      simp only [padSpan]
      omega
    have hcast : (sampleRate : ℚ) ≤ ((padSpan total (sampleRate / 10) a).2 -
        (padSpan total (sampleRate / 10) a).1) * 10 := by
      rw [← Nat.cast_sub hle]
      exact_mod_cast hspan
    dsimp only [Function.comp]
    rw [← sub_div, lt_div_iff₀ hrateQ]
    have heps : epsilon < 1 / 10 := by norm_num [epsilon]
    nlinarith

/-! Packing. -/

theorem packRegions_none_cons (m overlap : ℚ) (r : Bound) (regions : List Bound) :
    packRegions m overlap none (r :: regions) =
      if m < r.2 - r.1 then
        (none : Option Bound).toList ++
          (fixedSegmentBounds (r.2 - r.1) m overlap).map (fun b => (r.1 + b.1, r.1 + b.2)) ++
          packRegions m overlap none regions
      else packRegions m overlap (some r) regions := rfl

theorem packRegions_some_cons (m overlap : ℚ) (c r : Bound) (regions : List Bound) :
    packRegions m overlap (some c) (r :: regions) =
      if m < r.2 - r.1 then
        (some c).toList ++
          (fixedSegmentBounds (r.2 - r.1) m overlap).map (fun b => (r.1 + b.1, r.1 + b.2)) ++
          packRegions m overlap none regions
      else if r.2 - c.1 ≤ m then packRegions m overlap (some (c.1, r.2)) regions
      else c :: packRegions m overlap (some r) regions := rfl

/-- No segment that is packed is too long. -/
theorem packRegions_le (hcur : ∀ c ∈ cur, c.2 - c.1 ≤ m) :
    ∀ b ∈ packRegions m overlap cur regions, b.2 - b.1 ≤ m := by
  fun_induction packRegions m overlap cur regions with
  | case1 cur =>
    intro b hb
    exact hcur b (Option.mem_toList.mp hb)
  | case2 cur r regions hlong ih =>
    intro b hb
    rcases List.mem_append.mp hb with hb | hb
    · rcases List.mem_append.mp hb with hb | hb
      · exact hcur b (Option.mem_toList.mp hb)
      · obtain ⟨s, hs, rfl⟩ := List.mem_map.mp hb
        have := fixedSegmentBounds_le _ m overlap s hs
        dsimp only
        linarith
    · exact ih (by intro c hc; cases hc) b hb
  | case3 r regions hshort ih =>
    apply ih
    intro c hc
    obtain rfl := Option.some.inj hc
    exact not_lt.mp hshort
  | case4 r regions hshort c hfits ih =>
    apply ih
    intro d hd
    obtain rfl := Option.some.inj hd
    exact hfits
  | case5 r regions hshort c hfull ih =>
    intro b hb
    rcases List.mem_cons.mp hb with rfl | hb
    · exact hcur b rfl
    · refine ih (fun d hd => ?_) b hb
      obtain rfl := Option.some.inj hd
      exact not_lt.mp hshort

theorem groupRegions_le (regions : List Bound) (m overlap : ℚ) :
    ∀ b ∈ groupRegions regions m overlap, b.2 - b.1 ≤ m :=
  packRegions_le fun c hc => by cases hc

/-- An open segment is closed at some time. -/
theorem packRegions_some_ne_nil (m overlap : ℚ) (c : Bound) (regions : List Bound) :
    packRegions m overlap (some c) regions ≠ [] := by
  induction regions generalizing c with
  | nil => exact List.cons_ne_nil c []
  | cons r regions ih =>
    rw [packRegions_some_cons]
    split
    · exact List.cons_ne_nil _ _
    · split
      · exact ih _
      · exact List.cons_ne_nil _ _

/-- Regions that end within the limit stay in the segment that is open. -/
theorem packRegions_of_fits (h : ∀ r ∈ regions, c.1 ≤ r.1 ∧ r.2 - c.1 ≤ m) :
    (packRegions m overlap (some c) regions).length = 1 := by
  induction regions generalizing c with
  | nil => rfl
  | cons r regions ih =>
    obtain ⟨hstart, hend⟩ := h r List.mem_cons_self
    rw [packRegions_some_cons, if_neg (by linarith)]
    rw [if_pos hend]
    exact ih fun s hs => h s (List.mem_cons_of_mem r hs)

/-- A region that ends behind the limit is in another segment. -/
theorem two_le_length_packRegions (overlap : ℚ) (hm : 0 < m) (hord : Ordered (r :: regions))
    (h : m < (regions.getLastD r).2 - c.1) :
    2 ≤ (packRegions m overlap (some c) (r :: regions)).length := by
  induction regions generalizing c r with
  | nil =>
    rw [packRegions_some_cons]
    split
    case isTrue hlong =>
      have hpos := List.length_pos_of_ne_nil
        (fixedSegmentBounds_ne_nil overlap hm (hord.long r List.mem_cons_self))
      simp only [List.length_append, List.length_map, Option.toList_some, List.length_singleton]
      omega
    case isFalse =>
      rw [List.getLastD_nil] at h
      rw [if_neg (not_le.mpr h)]
      exact le_rfl
  | cons s regions ih =>
    rw [packRegions_some_cons]
    split
    case isTrue hlong =>
      have hpos := List.length_pos_of_ne_nil
        (fixedSegmentBounds_ne_nil overlap hm (hord.long r List.mem_cons_self))
      simp only [List.length_append, List.length_map, Option.toList_some, List.length_singleton]
      omega
    case isFalse =>
      split
      · exact ih hord.tail (by rwa [List.getLastD_cons] at h)
      · have hpos := List.length_pos_of_ne_nil
          (packRegions_some_ne_nil m overlap r (s :: regions))
        rw [List.length_cons]
        omega

/-- The last region ends last. -/
theorem Ordered.snd_le_last {r : Bound} (hord : Ordered (r :: regions)) :
    ∀ s ∈ r :: regions, s.2 ≤ (regions.getLastD r).2 := by
  induction regions generalizing r with
  | nil =>
    intro s hs
    rw [List.mem_singleton.mp hs]
    exact le_rfl
  | cons t regions ih =>
    intro s hs
    rw [List.getLastD_cons]
    have hrest := ih hord.tail
    rcases List.mem_cons.mp hs with rfl | hs
    · have hnext := ((List.pairwise_cons.mp hord.pairwise).1 t List.mem_cons_self).2
      exact hnext.trans (hrest t List.mem_cons_self)
    · exact hrest s hs

/-- Some region makes some segment. -/
theorem packRegions_none_length_pos {r : Bound} (overlap : ℚ) (hm : 0 < m)
    (hord : Ordered (r :: regions)) :
    0 < (packRegions m overlap none (r :: regions)).length := by
  apply List.length_pos_of_ne_nil
  rw [packRegions_none_cons]
  split
  · have hne := fixedSegmentBounds_ne_nil overlap hm (hord.long r List.mem_cons_self)
    simpa using fun h => absurd h hne
  · exact packRegions_some_ne_nil _ _ _ _

/-- **When the regions are packed into more than one segment.** -/
theorem two_le_length_groupRegions (hm : 0 < m) (hord : Ordered regions) :
    2 ≤ (groupRegions regions m overlap).length ↔ GroupSplits m overlap regions := by
  unfold groupRegions
  cases regions with
  | nil => simp [packRegions, GroupSplits]
  | cons r regions =>
    have hlast := hord.snd_le_last
    rw [packRegions_none_cons]
    split
    case isTrue hlong =>
      -- the first region is cut by itself, and the others begin a new segment
      simp only [Option.toList_none, List.nil_append, List.length_append, List.length_map]
      have hfar : m < (regions.getLastD r).2 - r.1 := by
        linarith [hlast r List.mem_cons_self]
      have hfixed := two_le_length_fixedSegmentBounds (r.2 - r.1) overlap hm
      have hone := List.length_pos_of_ne_nil
        (fixedSegmentBounds_ne_nil overlap hm (hord.long r List.mem_cons_self))
      cases regions with
      | nil =>
        have : (packRegions m overlap none []).length = 0 := rfl
        rw [this, Nat.add_zero, hfixed]
        exact ⟨fun h => ⟨hfar, fun _ => h⟩, fun h => h.2 rfl⟩
      | cons s regions =>
        have hrest := packRegions_none_length_pos overlap hm hord.tail
        constructor
        · intro _
          exact ⟨hfar, fun h => absurd h (List.cons_ne_nil s regions)⟩
        · intro _
          omega
    case isFalse hshort =>
      rcases le_or_gt ((regions.getLastD r).2 - r.1) m with hnear | hfar
      · -- everything fits into the first segment
        have hfits : ∀ s ∈ regions, r.1 ≤ s.1 ∧ s.2 - r.1 ≤ m := by
          intro s hs
          refine ⟨((List.pairwise_cons.mp hord.pairwise).1 s hs).1, ?_⟩
          linarith [hlast s (List.mem_cons_of_mem r hs)]
        rw [packRegions_of_fits hfits]
        constructor
        · intro h
          omega
        · intro h
          exact absurd h.1 (not_lt.mpr hnear)
      · cases regions with
        | nil => exact absurd hfar hshort
        | cons s regions =>
          have htwo := two_le_length_packRegions overlap hm hord.tail (c := r)
            (by rwa [List.getLastD_cons] at hfar)
          constructor
          · intro _
            exact ⟨hfar, fun h => absurd h (List.cons_ne_nil s regions)⟩
          · intro _
            exact htwo

end Regions

end AsrSegmenter
end OpenVoiceStream
