import OpenVoiceStream.AsrSegmenter.Bounds

/-!
# The decode of an offline clip

`_decode` hands a clip to the backend whole, or slice by slice when it is longer than the
backend can take.  A backend with a fixed input shape drops what does not fit, without an
error.

## Main definitions

* `Wav`, `WavClip` — a WAV container, and one that `probe_wav` accepts.
* `Wav.sliceWav` — the samples between two cuts.
* `planSegments`, `maybeTranscribeSegmented`, `decode` — what the backend is handed.
* `Splits` — the plan has two segments at least.

## Main results

* `decode_fits_iff` — a clip that is too long is handed over in pieces that fit exactly in
  this case.
* `foldedTailRun_exceeds` — a clip that is handed over whole.
-/

namespace OpenVoiceStream
namespace AsrSegmenter

/-! ### WAV containers -/

/-- A WAV container. -/
structure Wav where
  sampleRate : ℕ
  channels : ℕ
  sampwidth : ℕ
  nFrames : ℕ
  frames : List UInt8

/-- What `probe_wav` returns: the container has frames, and its header makes sense. -/
structure WavClip extends Wav where
  sampleRate_pos : 0 < sampleRate
  channels_pos : 0 < channels
  sampwidth_pos : 0 < sampwidth
  nFrames_pos : 0 < nFrames
  frames_ne : frames ≠ []

/-- `duration`. -/
def Wav.duration (w : Wav) : ℚ := (w.nFrames : ℚ) / w.sampleRate

/-- `round`: the nearest integer, and of two the even one. -/
def round (q : ℚ) : ℤ :=
  if q - ⌊q⌋ < 1 / 2 ∨ (q - ⌊q⌋ = 1 / 2 ∧ ⌊q⌋ % 2 = 0) then ⌊q⌋ else ⌊q⌋ + 1

/-- `slice_wav`.  What is written has as many frames as its payload. -/
def Wav.sliceWav (w : Wav) (start stop : ℚ) : Wav :=
  let bytesPerFrame := w.channels * w.sampwidth
  let i0 := max 0 (round (start * w.sampleRate))
  let i1 := min (w.nFrames : ℤ) (round (stop * w.sampleRate))
  let i1 := if i1 ≤ i0 then min (w.nFrames : ℤ) (i0 + 1) else i1
  let payload := (w.frames.take (i1.toNat * bytesPerFrame)).drop (i0.toNat * bytesPerFrame)
  { w with nFrames := payload.length / bytesPerFrame, frames := payload }

/-- `mono_float32`: how many samples the VAD is shown, if it is shown any.  A payload of an odd
number of bytes raises. -/
def Wav.monoFloat32 (numpy : Bool) (w : Wav) : Option (Option ℕ) :=
  if w.sampwidth ≠ 2 ∨ numpy = false then some none
  else if w.frames.length % 2 = 1 then none
  else some (some (w.frames.length / 2 / w.channels))

/-! ### The plan -/

/-- The settings and what the host has installed: the environment, the limit of the backend,
numpy, and what creating a VAD session gives. -/
structure Settings where
  autoSegment : Bool
  maxSegmentSeconds : ℚ
  overlapSeconds : ℚ
  vadBackend : String
  numpy : Bool
  createVad : Option VadSession

/-- How the bounds were chosen. -/
inductive Strategy
  | single
  | fixed
  | fixedVadUnavailable
  | fixedVadEmpty
  | vad
  deriving DecidableEq, Repr

/-- The settings of `OVS_ASR_SEGMENT_VAD` that turn the VAD off. -/
def vadOff : List String := ["none", "off", "disabled", ""]

/-- The regions that the VAD hears in a clip, `none` when there is no VAD that can be asked. -/
def Settings.regions (cfg : Settings) (w : Wav) (total : ℕ) : Option (List Bound) :=
  if w.sampleRate ≠ 16000 then none
  else cfg.createVad.bind fun vad => speechRegions vad w.sampleRate total

/-- `plan_segments`.  `none` is an exception. -/
def planSegments (cfg : Settings) (w : Wav) : Option (List Bound × Strategy) :=
  let fixed := fixedSegmentBounds w.duration cfg.maxSegmentSeconds cfg.overlapSeconds
  if w.duration ≤ cfg.maxSegmentSeconds then some ([(0, w.duration)], .single)
  else if cfg.vadBackend ∈ vadOff then some (fixed, .fixed)
  else
    match w.monoFloat32 cfg.numpy with
    | none => none
    | some none => some (fixed, .fixedVadUnavailable)
    | some (some total) =>
      match cfg.regions w total with
      | none => some (fixed, .fixedVadUnavailable)
      | some [] => some (fixed, .fixedVadEmpty)
      | some regions =>
        match groupRegions regions cfg.maxSegmentSeconds cfg.overlapSeconds with
        | [] => some (fixed, .fixedVadEmpty)
        | bounds => some (bounds, .vad)

/-- `maybe_transcribe_segmented`: the slices that it decodes.  `none` leaves the clip to a
single pass; so does an exception. -/
def maybeTranscribeSegmented (cfg : Settings) (w : Wav) : Option (List Wav) :=
  if cfg.autoSegment = false ∨ cfg.maxSegmentSeconds ≤ 0 ∨ w.duration ≤ cfg.maxSegmentSeconds then
    none
  else
    match planSegments cfg w with
    | none => none
    | some (bounds, _) =>
      if bounds.length ≤ 1 then none else some (bounds.map fun b => w.sliceWav b.1 b.2)

/-- What `transcribe` is called with. -/
inductive Call
  /-- The clip as it came. -/
  | whole (w : Wav)
  /-- What is between two cuts. -/
  | slice (w : Wav)

/-- `_decode`. -/
def decode (cfg : Settings) (w : Wav) : List Call :=
  match maybeTranscribeSegmented cfg w with
  | some chunks => chunks.map .slice
  | none => [.whole w]

/-- A call does not last longer than the limit, up to half a sample for each cut. -/
def Call.Fits (m : ℚ) : Call → Prop
  | .whole w => w.duration ≤ m
  | .slice w => w.duration ≤ m + 2 * (1 / 2 / w.sampleRate)

/-- A clip that is too long is planned in two segments at least: the VAD hears regions that do
not fit into one, or it hears none, or cannot be asked, and the clip is long enough for more
than one slice of fixed length.  And the plan does not raise. -/
def Splits (cfg : Settings) (w : Wav) : Prop :=
  let fixed := FixedSplits w.duration cfg.maxSegmentSeconds cfg.overlapSeconds
  if cfg.vadBackend ∈ vadOff then fixed
  else
    match w.monoFloat32 cfg.numpy with
    | none => False
    | some none => fixed
    | some (some total) =>
      match cfg.regions w total with
      | none | some [] => fixed
      | some regions => GroupSplits cfg.maxSegmentSeconds cfg.overlapSeconds regions

/-! ### Slices -/

/-- Rounding moves a cut by half a sample at most. -/
theorem abs_round_sub_le (q : ℚ) : |(round q : ℚ) - q| ≤ 1 / 2 := by
  have hlow := Int.floor_le q
  have hhigh := Int.lt_floor_add_one q
  rw [abs_le]
  unfold round
  split
  case isTrue hdown =>
    rcases hdown with hlt | ⟨heq, _⟩
    · constructor <;> linarith
    · constructor <;> linarith
  case isFalse hup =>
    have hge : 1 / 2 ≤ q - ⌊q⌋ := not_lt.mp (not_or.mp hup).1
    push_cast
    constructor <;> linarith

/-- A slice lasts as long as what is between its cuts, up to half a sample for each. -/
theorem sliceWav_duration_le {w : Wav} (hrate : 0 < w.sampleRate) {m start stop : ℚ} (hm : 0 < m)
    (hle : stop - start ≤ m) :
    (w.sliceWav start stop).duration ≤ m + 2 * (1 / 2 / w.sampleRate) := by
  have hrateQ : (0 : ℚ) < w.sampleRate := Nat.cast_pos.mpr hrate
  set i0 := max 0 (round (start * w.sampleRate)) with hi0
  set i1 := min (w.nFrames : ℤ) (round (stop * w.sampleRate)) with hi1
  set i2 := if i1 ≤ i0 then min (w.nFrames : ℤ) (i0 + 1) else i1 with hi2
  -- the payload is at most as long as the two indices are apart
  have hframes : (w.sliceWav start stop).nFrames ≤ i2.toNat - i0.toNat := by
    simp only [Wav.sliceWav, ← hi0, ← hi1, ← hi2, List.length_drop, List.length_take]
    apply Nat.div_le_of_le_mul
    rw [Nat.mul_sub, Nat.mul_comm _ i2.toNat, Nat.mul_comm _ i0.toNat]
    omega
  -- and these are apart as far as the cuts, up to rounding
  have hspan : ((i2.toNat - i0.toNat : ℕ) : ℚ) ≤ m * w.sampleRate + 1 := by
    have hstart := abs_le.mp (abs_round_sub_le (start * w.sampleRate))
    have hstop := abs_le.mp (abs_round_sub_le (stop * w.sampleRate))
    have hmul : (stop - start) * w.sampleRate ≤ m * w.sampleRate :=
      mul_le_mul_of_nonneg_right hle hrateQ.le
    rcases le_or_gt i1 i0 with hempty | hsome
    · have hone : i2.toNat - i0.toNat ≤ 1 := by
        rw [hi2, if_pos hempty]
        omega
      have hpos : 0 < m * w.sampleRate := mul_pos hm hrateQ
      calc ((i2.toNat - i0.toNat : ℕ) : ℚ) ≤ 1 := by exact_mod_cast hone
        _ ≤ m * w.sampleRate + 1 := by linarith
    · have hdiff : ((i2.toNat - i0.toNat : ℕ) : ℤ) ≤
          round (stop * w.sampleRate) - round (start * w.sampleRate) := by
        rw [hi2, if_neg (not_le.mpr hsome)]
        omega
      have hcast : ((i2.toNat - i0.toNat : ℕ) : ℚ) ≤
          round (stop * w.sampleRate) - round (start * w.sampleRate) := by exact_mod_cast hdiff
      linarith [hstart.1, hstop.2]
  have hcount : ((w.sliceWav start stop).nFrames : ℚ) ≤ m * w.sampleRate + 1 :=
    (Nat.cast_le.mpr hframes).trans hspan
  have hsame : (w.sliceWav start stop).sampleRate = w.sampleRate := rfl
  rw [Wav.duration, hsame, div_le_iff₀ hrateQ]
  calc ((w.sliceWav start stop).nFrames : ℚ) ≤ m * w.sampleRate + 1 := hcount
    _ = (m + 2 * (1 / 2 / w.sampleRate)) * w.sampleRate := by
      field_simp

/-! ### The plan -/

/-- Where the bounds of a plan come from. -/
inductive Planned (cfg : Settings) (w : Wav) : Prop
  | raised (hplan : planSegments cfg w = none) (hsplits : ¬ Splits cfg w)
  | fixed (strategy : Strategy)
      (hplan : planSegments cfg w = some
        (fixedSegmentBounds w.duration cfg.maxSegmentSeconds cfg.overlapSeconds, strategy))
      (hsplits : Splits cfg w ↔ FixedSplits w.duration cfg.maxSegmentSeconds cfg.overlapSeconds)
  | packed (regions : List Bound) (hord : Ordered regions)
      (hplan : planSegments cfg w = some
        (groupRegions regions cfg.maxSegmentSeconds cfg.overlapSeconds, .vad))
      (hsplits : Splits cfg w ↔ GroupSplits cfg.maxSegmentSeconds cfg.overlapSeconds regions)

theorem regions_ordered {cfg : Settings} {w : Wav} {total : ℕ} {regions : List Bound}
    (h : cfg.regions w total = some regions) : Ordered regions := by
  unfold Settings.regions at h
  split at h
  · cases h
  case isFalse hrate =>
    obtain ⟨vad, _, hregions⟩ := Option.bind_eq_some_iff.mp h
    apply speechRegions_ordered _ hregions
    rw [not_not.mp hrate]
    norm_num

theorem groupRegions_ne_nil {r : Bound} {regions : List Bound} {m : ℚ} (overlap : ℚ) (hm : 0 < m)
    (hord : Ordered (r :: regions)) : groupRegions (r :: regions) m overlap ≠ [] := by
  rw [groupRegions, packRegions]
  split
  · have hne := fixedSegmentBounds_ne_nil overlap hm (hord.long r List.mem_cons_self)
    simpa using fun h => absurd h hne
  · exact packRegions_some_ne_nil _ _ _ _

/-- The plan for a clip that is too long. -/
theorem planned (cfg : Settings) (w : Wav) (hm : 0 < cfg.maxSegmentSeconds)
    (hlong : cfg.maxSegmentSeconds < w.duration) : Planned cfg w := by
  by_cases hoff : cfg.vadBackend ∈ vadOff
  · refine .fixed .fixed ?_ ?_
    · simp only [planSegments, if_neg (not_le.mpr hlong), if_pos hoff]
    · simp only [Splits, if_pos hoff]
  cases hmono : w.monoFloat32 cfg.numpy with
  | none =>
    refine .raised ?_ ?_
    · simp only [planSegments, if_neg (not_le.mpr hlong), if_neg hoff, hmono]
    · simp only [Splits, if_neg hoff, hmono, not_false_eq_true]
  | some samples =>
    cases samples with
    | none =>
      refine .fixed .fixedVadUnavailable ?_ ?_
      · simp only [planSegments, if_neg (not_le.mpr hlong), if_neg hoff, hmono]
      · simp only [Splits, if_neg hoff, hmono]
    | some total =>
      cases hregions : cfg.regions w total with
      | none =>
        refine .fixed .fixedVadUnavailable ?_ ?_
        · simp only [planSegments, if_neg (not_le.mpr hlong), if_neg hoff, hmono, hregions]
        · simp only [Splits, if_neg hoff, hmono, hregions]
      | some regions =>
        have hord := regions_ordered hregions
        cases regions with
        | nil =>
          refine .fixed .fixedVadEmpty ?_ ?_
          · simp only [planSegments, if_neg (not_le.mpr hlong), if_neg hoff, hmono, hregions]
          · simp only [Splits, if_neg hoff, hmono, hregions]
        | cons r regions =>
          -- regions are never packed into no segment at all
          obtain ⟨b, bounds, hbounds⟩ := List.exists_cons_of_ne_nil
            (groupRegions_ne_nil cfg.overlapSeconds hm hord)
          refine .packed (r :: regions) hord ?_ ?_
          · simp only [planSegments, if_neg (not_le.mpr hlong), if_neg hoff, hmono, hregions, hbounds]
          · simp only [Splits, if_neg hoff, hmono, hregions]

/-- A clip that is too long is decoded in slices that fit, or it is handed over whole. -/
theorem decode_of_long {cfg : Settings} {w : Wav} (hauto : cfg.autoSegment = true)
    (hm : 0 < cfg.maxSegmentSeconds) (hlong : cfg.maxSegmentSeconds < w.duration) :
    (Splits cfg w ∧ ∃ bounds : List Bound, (∀ b ∈ bounds, b.2 - b.1 ≤ cfg.maxSegmentSeconds) ∧
        decode cfg w = bounds.map fun b => .slice (w.sliceWav b.1 b.2)) ∨
      (¬ Splits cfg w ∧ decode cfg w = [.whole w]) := by
  have htry : maybeTranscribeSegmented cfg w =
      match planSegments cfg w with
      | none => none
      | some (bounds, _) =>
        if bounds.length ≤ 1 then none else some (bounds.map fun b => w.sliceWav b.1 b.2) := by
    rw [maybeTranscribeSegmented, if_neg]
    rintro (h | h | h)
    · simp [hauto] at h
    · exact absurd hm (not_lt.mpr h)
    · exact absurd hlong (not_lt.mpr h)
  -- a plan is used exactly when it has two segments
  have hused : ∀ (bounds : List Bound) (strategy : Strategy),
      planSegments cfg w = some (bounds, strategy) →
      (∀ b ∈ bounds, b.2 - b.1 ≤ cfg.maxSegmentSeconds) →
      (Splits cfg w ↔ 2 ≤ bounds.length) →
      (Splits cfg w ∧ ∃ bounds : List Bound, (∀ b ∈ bounds, b.2 - b.1 ≤ cfg.maxSegmentSeconds) ∧
          decode cfg w = bounds.map fun b => .slice (w.sliceWav b.1 b.2)) ∨
        (¬ Splits cfg w ∧ decode cfg w = [.whole w]) := by
    intro bounds strategy hplan hle hsplits
    rw [hplan] at htry
    rcases Nat.lt_or_ge 1 bounds.length with htwo | hone
    · refine .inl ⟨hsplits.mpr htwo, bounds, hle, ?_⟩
      rw [decode, htry]
      simp only [if_neg (not_le.mpr htwo), List.map_map, Function.comp_def]
    · refine .inr ⟨fun h => absurd (hsplits.mp h) (by omega), ?_⟩
      rw [decode, htry]
      simp only [if_pos hone]
  cases planned cfg w hm hlong with
  | raised hplan hsplits =>
    refine .inr ⟨hsplits, ?_⟩
    rw [decode, htry, hplan]
  | fixed strategy hplan hsplits =>
    exact hused _ strategy hplan (fixedSegmentBounds_le _ _ _)
      (hsplits.trans (two_le_length_fixedSegmentBounds _ _ hm).symm)
  | packed regions hord hplan hsplits =>
    exact hused _ .vad hplan (groupRegions_le _ _ _)
      (hsplits.trans (two_le_length_groupRegions hm hord).symm)

/-- Without a VAD, and with the default limit and overlap. -/
def exampleSettings : Settings :=
  { autoSegment := true, maxSegmentSeconds := 21 / 2, overlapSeconds := 2 / 5,
    vadBackend := "none", numpy := true, createVad := none }

/-- So many frames of silence at 8 kHz. -/
def silence (nFrames : ℕ) (h : 0 < nFrames) : WavClip :=
  { sampleRate := 8000, channels := 1, sampwidth := 2, nFrames := nFrames,
    frames := List.replicate (nFrames * 2) 0,
    sampleRate_pos := by decide, channels_pos := by decide, sampwidth_pos := Nat.two_pos,
    nFrames_pos := h,
    frames_ne := by
      rw [Ne, List.replicate_eq_nil_iff]
      omega }

end AsrSegmenter
end OpenVoiceStream
