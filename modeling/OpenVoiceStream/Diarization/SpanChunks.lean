import Mathlib.Algebra.Order.BigOperators.Group.List
import OpenVoiceStream.Base.Balanced
import OpenVoiceStream.Base.Rounding

/-!
# Chunks of a speech span

The speaker model takes between `min_frames` and `max_frames` frames at once, so a speech
span is cut into chunks of that many.  The frame count of a chunk is rounded, and the
counts of chunks do not add up to the count of the span; the cut therefore works with the
number of samples a chunk may have.

## Main definitions

* `trtFrameCount`, `strictSpanChunks` — the two functions.
* `Contiguous` — chunks that follow each other through the samples.
* `Splittable` — some division of the span has legal chunks.

## Main results

* `frames_legal_iff` — the legal sample interval of one chunk.
* `cutChunks_ok` — legal sizes are cut without an error.
* `strictSpanChunks_exact` — the span is cut into legal chunks if it can be, and rejected
  at the partition check if not.
-/

namespace OpenVoiceStream
namespace Diarization

/-- The exception classes of the speaker backend. -/
inductive SpanErrorKind
  | speakerBackendError
  | speakerEmbeddingInputError
  deriving DecidableEq, Repr

/-- An error and its text. -/
structure SpanError where
  kind : SpanErrorKind
  message : String
  deriving DecidableEq, Repr

/-- The shift of the extractor: `max(1, round(sr * 0.010))`. -/
def trtShift (sr : ℕ) : ℤ := max 1 (roundHalfEven (sr / 100))

/-- The shift of the span: `max(1, int(sr * 0.010))`. -/
def spanShift (sr : ℕ) : ℤ := max 1 (sr / 100 : ℕ)

/-- `_trt_frame_count`. -/
def trtFrameCount (sampleCount : ℤ) (sr : ℕ) : ℤ :=
  max 1 ((sampleCount + trtShift sr / 2) / trtShift sr)

variable {α : Type}

/-- `samples[ca:cb]`, for places in the samples. -/
def slice (samples : List α) (ca cb : ℤ) : List α := (samples.take cb.toNat).drop ca.toNat

/-- A chunk with its two times in seconds. -/
structure Chunk (α : Type) where
  piece : List α
  startS : ℚ
  endS : ℚ

/-- The loop over the sizes, from `offset` on. -/
def cutChunks (samples : List α) (sr : ℕ) (minFrames maxFrames : ℤ) :
    ℤ → List ℤ → Except SpanError (List (Chunk α))
  | _, [] => .ok []
  | offset, size :: sizes =>
    let piece := slice samples offset (offset + size)
    let actual := trtFrameCount piece.length sr
    if actual < minFrames ∨ maxFrames < actual then
      .error ⟨.speakerEmbeddingInputError,
        "CAM++ TRT chunk does not satisfy the actual frame profile"⟩
    else do
      let chunks ← cutChunks samples sr minFrames maxFrames (offset + size) sizes
      return ⟨piece, offset / sr, (offset + size : ℤ) / sr⟩ :: chunks

/-- The error of the partition check. -/
def partitionError : SpanError :=
  ⟨.speakerEmbeddingInputError,
    "speech span cannot be partitioned into CAM++ TRT profile bounds"⟩

/-- `_strict_span_chunks`. -/
def strictSpanChunks (samples : List α) (startS endS : ℚ) (sr : ℕ) (bounds : ℤ × ℤ) :
    Except SpanError (List (Chunk α)) :=
  let minFrames := bounds.1
  let maxFrames := bounds.2
  if minFrames ≤ 0 ∨ maxFrames < minFrames then
    .error ⟨.speakerBackendError, "invalid CAM++ TRT frame profile"⟩
  else
    let a := roundHalfEven (startS * sr)
    let b := roundHalfEven (endS * sr)
    let total := max 0 (b - a)
    if total = 0 then .ok []
    else
      let shift := spanShift sr
      let lo := max 0 (minFrames * shift - shift / 2)
      let hi := (maxFrames + 1) * shift - shift / 2 - 1
      if lo ≤ 0 ∨ hi < lo then
        .error ⟨.speakerEmbeddingInputError, "invalid CAM++ TRT sample profile bounds"⟩
      else
        let minChunks := max 1 (-(-total / hi))
        let maxChunks := total / lo
        if maxChunks < minChunks then .error partitionError
        else
          let sizes := balanced total minChunks.toNat
          if sizes.any fun size => decide (size < lo ∨ hi < size) then
            .error ⟨.speakerEmbeddingInputError,
              "speech span cannot be partitioned into CAM++ TRT sample bounds"⟩
          else cutChunks samples sr minFrames maxFrames a sizes

/-! ### What the chunks should be -/

/-- Chunks that follow each other through the samples, from `a` to `b`. -/
def Contiguous (samples : List α) (sr : ℕ) : ℤ → ℤ → List (Chunk α) → Prop
  | a, b, [] => a = b
  | a, b, chunk :: chunks => ∃ c, a < c ∧ c ≤ b ∧ chunk.piece = slice samples a c ∧
      (chunk.piece.length : ℤ) = c - a ∧ chunk.startS = (a : ℚ) / sr ∧
      chunk.endS = (c : ℚ) / sr ∧ Contiguous samples sr c b chunks

/-- A number of samples whose frames are in the profile. -/
def Legal (sr : ℕ) (minFrames maxFrames size : ℤ) : Prop :=
  minFrames ≤ trtFrameCount size sr ∧ trtFrameCount size sr ≤ maxFrames

/-- Some division of `total` samples has chunks in the profile. -/
def Splittable (sr : ℕ) (minFrames maxFrames total : ℤ) : Prop :=
  ∃ sizes : List ℤ, sizes.sum = total ∧ ∀ size ∈ sizes, Legal sr minFrames maxFrames size

theorem trtShift_pos (sr : ℕ) : 0 < trtShift sr := by
  unfold trtShift
  omega

/-- **The legal sample interval of one chunk.** -/
theorem frames_legal_iff (sr : ℕ) {minFrames maxFrames : ℤ} (hmin : 2 ≤ minFrames)
    (hmax : minFrames ≤ maxFrames) (size : ℤ) :
    Legal sr minFrames maxFrames size ↔
      minFrames * trtShift sr - trtShift sr / 2 ≤ size ∧
        size ≤ (maxFrames + 1) * trtShift sr - trtShift sr / 2 - 1 := by
  have hpos := trtShift_pos sr
  have hlo : minFrames ≤ (size + trtShift sr / 2) / trtShift sr ↔
      minFrames * trtShift sr ≤ size + trtShift sr / 2 := Int.le_ediv_iff_mul_le hpos
  have hhi : (size + trtShift sr / 2) / trtShift sr < maxFrames + 1 ↔
      size + trtShift sr / 2 < (maxFrames + 1) * trtShift sr := Int.ediv_lt_iff_lt_mul hpos
  unfold Legal trtFrameCount
  omega

/-- The two bounds of the interval. -/
theorem sample_bounds (sr : ℕ) {minFrames maxFrames : ℤ} (hmin : 2 ≤ minFrames)
    (hmax : minFrames ≤ maxFrames) :
    0 < minFrames * trtShift sr - trtShift sr / 2 ∧
      minFrames * trtShift sr - trtShift sr / 2 ≤
        (maxFrames + 1) * trtShift sr - trtShift sr / 2 - 1 := by
  have hpos := trtShift_pos sr
  have htwo : 2 * trtShift sr ≤ minFrames * trtShift sr :=
    mul_le_mul_of_nonneg_right hmin hpos.le
  have hmono : minFrames * trtShift sr ≤ maxFrames * trtShift sr :=
    mul_le_mul_of_nonneg_right hmax hpos.le
  rw [add_mul, one_mul]
  omega

theorem length_slice (samples : List α) {ca cb : ℤ} (h0 : 0 ≤ ca) (hle : ca ≤ cb)
    (hend : cb ≤ samples.length) : ((slice samples ca cb).length : ℤ) = cb - ca := by
  rw [slice, List.length_drop, List.length_take]
  omega

/-- **Legal sizes are cut without an error**, and the chunks follow each other. -/
theorem cutChunks_ok (samples : List α) (sr : ℕ) (minFrames maxFrames : ℤ) (sizes : List ℤ) :
    ∀ offset, 0 ≤ offset → offset + sizes.sum ≤ samples.length →
      (∀ size ∈ sizes, 0 < size ∧ Legal sr minFrames maxFrames size) →
      ∃ chunks, cutChunks samples sr minFrames maxFrames offset sizes = .ok chunks ∧
        Contiguous samples sr offset (offset + sizes.sum) chunks ∧
        ∀ chunk ∈ chunks, Legal sr minFrames maxFrames chunk.piece.length := by
  induction sizes with
  | nil =>
    intro offset _ _ _
    refine ⟨[], rfl, ?_, ?_⟩
    · simp [Contiguous]
    · intro chunk hchunk; cases hchunk
  | cons size sizes ih =>
    intro offset h0 hend hlegal
    obtain ⟨hpos, hsize⟩ := hlegal size List.mem_cons_self
    have hrest : ∀ n ∈ sizes, 0 < n ∧ Legal sr minFrames maxFrames n :=
      fun n hn => hlegal n (List.mem_cons_of_mem size hn)
    have hsum : 0 ≤ sizes.sum := List.sum_nonneg fun n hn => (hrest n hn).1.le
    rw [List.sum_cons] at hend
    obtain ⟨chunks, hcut, hcontiguous, hframes⟩ :=
      ih (offset + size) (by omega) (by omega) hrest
    -- the piece is as long as its size
    have hlength : ((slice samples offset (offset + size)).length : ℤ) = size := by
      rw [length_slice samples h0 (by omega) (by omega)]
      omega
    have hactual :
        ¬ (trtFrameCount (slice samples offset (offset + size)).length sr < minFrames ∨
          maxFrames < trtFrameCount (slice samples offset (offset + size)).length sr) := by
      rw [hlength]
      unfold Legal at hsize
      omega
    refine ⟨⟨slice samples offset (offset + size), offset / sr, (offset + size : ℤ) / sr⟩ ::
      chunks, ?_, ?_, ?_⟩
    · simp only [cutChunks, hactual, if_false, hcut]
      rfl
    · refine ⟨offset + size, by omega, ?_, rfl, by rw [hlength]; omega, rfl, by simp, ?_⟩
      · rw [List.sum_cons]
        omega
      · rw [List.sum_cons, ← add_assoc]
        exact hcontiguous
    · intro chunk hchunk
      rw [List.mem_cons] at hchunk
      rcases hchunk with rfl | hchunk
      · rw [hlength]
        exact hsize
      · exact hframes chunk hchunk

/-- The ends of a span are samples. -/
theorem span_bounds {samples : List α} {startS endS : ℚ} {sr : ℕ} (h0 : 0 ≤ startS)
    (hle : startS ≤ endS) (hend : endS * sr ≤ samples.length) :
    0 ≤ roundHalfEven (startS * sr) ∧
      roundHalfEven (startS * sr) ≤ roundHalfEven (endS * sr) ∧
      roundHalfEven (endS * sr) ≤ samples.length := by
  have hsr : (0 : ℚ) ≤ sr := Nat.cast_nonneg sr
  refine ⟨roundHalfEven_nonneg (mul_nonneg h0 hsr),
    roundHalfEven_mono (mul_le_mul_of_nonneg_right hle hsr), ?_⟩
  have hmono := roundHalfEven_mono hend
  rwa [roundHalfEven_natCast] at hmono

/-- **A span is cut into legal chunks if it can be**: they follow each other from `a` to `b`;
otherwise it is rejected at the partition check. -/
theorem strictSpanChunks_exact (samples : List α) (startS endS : ℚ) (sr : ℕ)
    (minFrames maxFrames : ℤ) (hshift : trtShift sr = spanShift sr) (hmin : 2 ≤ minFrames)
    (hmax : minFrames ≤ maxFrames) (h0 : 0 ≤ startS) (hle : startS ≤ endS)
    (hend : endS * sr ≤ samples.length) :
    let a := roundHalfEven (startS * sr)
    let b := roundHalfEven (endS * sr)
    let result := strictSpanChunks samples startS endS sr (minFrames, maxFrames)
    ((∃ chunks, result = .ok chunks ∧ Contiguous samples sr a b chunks ∧
        ∀ chunk ∈ chunks, Legal sr minFrames maxFrames chunk.piece.length) ∨
      result = .error partitionError) ∧
    (result = .error partitionError ↔ ¬ Splittable sr minFrames maxFrames (b - a)) := by
  intro a b result
  obtain ⟨ha, hab, hb⟩ := span_bounds h0 hle hend
  have hprofile : ¬ (minFrames ≤ 0 ∨ maxFrames < minFrames) := by omega
  have htotal : max 0 (b - a) = b - a := max_eq_right (by omega)
  obtain ⟨hlo, hhi⟩ := sample_bounds sr hmin hmax
  set lo := minFrames * trtShift sr - trtShift sr / 2 with hlodef
  set hi := (maxFrames + 1) * trtShift sr - trtShift sr / 2 - 1 with hhidef
  have hlegal : ∀ size, Legal sr minFrames maxFrames size ↔ lo ≤ size ∧ size ≤ hi :=
    frames_legal_iff sr hmin hmax
  have hresult : result = strictSpanChunks samples startS endS sr (minFrames, maxFrames) := rfl
  by_cases hzero : b - a = 0
  · -- nothing to cut
    have hempty : result = .ok [] := by
      rw [hresult, strictSpanChunks]
      simp only [hprofile, if_false]
      rw [if_pos (htotal.trans hzero)]
    rw [hempty]
    refine ⟨Or.inl ⟨[], rfl, ?_, ?_⟩, ?_⟩
    · show a = b
      omega
    · intro chunk hchunk; cases hchunk
    · constructor
      · intro h; cases h
      · intro h
        refine absurd ⟨[], ?_, ?_⟩ h
        · rw [List.sum_nil, hzero]
        · intro size hsize; cases hsize
  · have hpos : 0 < b - a := by omega
    have hbounds : ¬ (lo ≤ 0 ∨ hi < lo) := by omega
    -- what is left of the function after the checks of the profile
    have hcheck : result =
        if (b - a) / lo < max 1 (-(-(b - a) / hi)) then .error partitionError
        else if (balanced (b - a) (max 1 (-(-(b - a) / hi))).toNat).any
            fun size => decide (size < lo ∨ hi < size) then
          .error ⟨.speakerEmbeddingInputError,
            "speech span cannot be partitioned into CAM++ TRT sample bounds"⟩
        else cutChunks samples sr minFrames maxFrames a
          (balanced (b - a) (max 1 (-(-(b - a) / hi))).toNat) := by
      rw [hresult, strictSpanChunks]
      simp only [hprofile, if_false, ← hshift, ← hlodef, ← hhidef, max_eq_right hlo.le, hbounds]
      rw [htotal, if_neg hzero]
    by_cases hpart : (b - a) / lo < max 1 (-(-(b - a) / hi))
    · rw [hcheck, if_pos hpart]
      refine ⟨Or.inr rfl, fun _ => ?_, fun _ => rfl⟩
      rintro ⟨sizes, hsum, hsizes⟩
      have := fewest_pieces hlo hhi hpos hsum fun n hn => (hlegal n).mp (hsizes n hn)
      omega
    · -- the balanced sizes are legal
      obtain ⟨count, hcount⟩ : ∃ count : ℕ, max 1 (-(-(b - a) / hi)) = count :=
        ⟨(max 1 (-(-(b - a) / hi))).toNat, by omega⟩
      have hone : 0 < count := by omega
      have hfew : (count : ℤ) * lo ≤ b - a := by
        rw [← Int.le_ediv_iff_mul_le hlo]
        omega
      have hmany : b - a ≤ count * hi := by
        have hceil : -(-(b - a) / hi) ≤ count := by omega
        rw [neg_le, Int.le_ediv_iff_mul_le (by omega), neg_mul] at hceil
        omega
      have hsizes := balanced_bounds hone hfew hmany
      have hany : ¬ (balanced (b - a) count).any
          (fun size => decide (size < lo ∨ hi < size)) = true := by
        rw [List.any_eq_true]
        rintro ⟨size, hsize, hout⟩
        have := hsizes size hsize
        rw [decide_eq_true_eq] at hout
        omega
      have hsum := sum_balanced (b - a) hone
      obtain ⟨chunks, hcut, hcontiguous, hframes⟩ :=
        cutChunks_ok samples sr minFrames maxFrames (balanced (b - a) count) a ha
          (by rw [hsum]; omega) fun size hsize =>
            ⟨by have := hsizes size hsize; omega, (hlegal size).mpr (hsizes size hsize)⟩
      rw [hcheck, if_neg hpart, hcount, Int.toNat_natCast, if_neg hany, hcut]
      refine ⟨Or.inl ⟨chunks, rfl, ?_, hframes⟩, ?_⟩
      · rwa [hsum, add_sub_cancel] at hcontiguous
      · constructor
        · intro h; cases h
        · intro h
          exact absurd ⟨_, hsum, fun size hsize => (hlegal size).mpr (hsizes size hsize)⟩ h

/-- Seven seconds at 16 kHz in chunks of two to three hundred frames. -/
theorem strictSpanChunks_exact_seven :
    let result := strictSpanChunks (List.replicate 160000 ()) 1 8 16000 (200, 300)
    ((∃ chunks, result = .ok chunks ∧
        Contiguous (List.replicate 160000 ()) 16000 (roundHalfEven (1 * (16000 : ℕ)))
          (roundHalfEven (8 * (16000 : ℕ))) chunks ∧
        ∀ chunk ∈ chunks, Legal 16000 200 300 chunk.piece.length) ∨
      result = .error partitionError) ∧
    (result = .error partitionError ↔
      ¬ Splittable 16000 200 300
        (roundHalfEven (8 * (16000 : ℕ)) - roundHalfEven (1 * (16000 : ℕ)))) :=
  strictSpanChunks_exact (List.replicate 160000 ()) 1 8 16000 200 300 (by decide +kernel)
    (by decide) (by decide) (by decide +kernel) (by decide +kernel)
    (by rw [List.length_replicate]; decide +kernel)

end Diarization
end OpenVoiceStream
