import Mathlib.Data.List.Induction
import OpenVoiceStream.V2v.VadSession

/-!
# When an endpoint fires

An endpoint is due at a frame when the silent frames since the last speech frame last at
least `silence_ms`.  Both sessions count silent frames against a threshold made from
`silence_ms`.  The Silero session rounds the threshold up, so that an endpoint never
fires before the silence has lasted; the WebRTC session rounds it down.

## Main definitions

* `Due` — the moment an endpoint is due.
* `EndpointLaw` — the transitions alternate, no endpoint is early and none is late.

## Main results

* `FrameVad.endpointLaw_iff` — the law says that each endpoint that fires is due, as
  long as the threshold is not too high.
* `endpoint_law_iff` — the Silero session obeys the law; the WebRTC session does when the
  setting is a whole number of frames or shorter than one, or when no speech frame is
  followed by as many silent frames as the rounded setting counts.
* `webrtc_endpoint_early` — with the default of 400 ms an endpoint fires after 390 ms.
-/

namespace OpenVoiceStream
namespace V2v

/-- The frames after `j`, up to `k`, are silent. -/
def SilentAfter (answers : List Bool) (j k : ℕ) : Prop :=
  ∀ m, j < m → m ≤ k → answers[m]? = some false

/-- An endpoint is due at the frame `k`: the last speech frame is followed by an unbroken
run of silent frames, up to `k`, that lasts `silenceMs`. -/
def Due (frameMs : ℕ) (silenceMs : ℤ) (answers : List Bool) (k : ℕ) : Prop :=
  ∃ j < k, answers[j]? = some true ∧ SilentAfter answers j k ∧
    silenceMs ≤ ((k - j) * frameMs : ℕ)

/-- The transitions alternate, from this state of the flag on. -/
def AlternatesFrom : Bool → List VadEvent → Prop
  | _, [] => True
  | false, event :: events => event = .speechStart ∧ AlternatesFrom true events
  | true, event :: events => event = .speechEnd ∧ AlternatesFrom false events

/-- The law of an endpoint: `place k` is the sample at which the frame `k` ends. -/
structure EndpointLaw (place : ℕ → ℤ) (frameMs : ℕ) (silenceMs : ℤ) (answers : List Bool)
    (events : List (VadEvent × ℤ)) : Prop where
  atFrames : ∀ ev ∈ events, ∃ k < answers.length, ev.2 = place k
  alternate : AlternatesFrom false (events.map Prod.fst)
  notEarly : ∀ k, (.speechEnd, place k) ∈ events → Due frameMs silenceMs answers k
  notLate : ∀ s k, (.speechStart, place s) ∈ events → s < k → k + 1 < answers.length →
    Due frameMs silenceMs answers k →
    ∃ e, s < e ∧ e ≤ k + 1 ∧ (.speechEnd, place e) ∈ events

theorem alternatesFrom_processEvents (flips : List ℤ) :
    ∀ inSpeech, AlternatesFrom inSpeech ((processEvents inSpeech flips).map Prod.fst) := by
  induction flips with
  | nil => intro inSpeech; cases inSpeech <;> trivial
  | cons offset rest ih =>
    intro inSpeech
    cases inSpeech
    · exact ⟨rfl, ih true⟩
    · exact ⟨rfl, ih false⟩

/-! ### The counter over the answers -/

/-- The counter after the answers. -/
def endpointerAfter (threshold : ℕ) (answers : List Bool) : Endpointer :=
  (Framer.outputsOf (Endpointer.step threshold) ⟨0, false⟩ answers).1

/-- What the counter and the transitions say about the answers so far. -/
structure Endpointer.Counts (threshold : ℕ) (answers : List Bool) (st : Endpointer)
    (out : List (Option VadEvent)) : Prop where
  length : out.length = answers.length
  below : st.inSpeech = true → st.silence < threshold
  speaking : st.inSpeech = true → ∃ j : ℕ, j + st.silence + 1 = answers.length ∧
    answers[j]? = some true ∧ SilentAfter answers j (answers.length - 1)
  started : st.inSpeech = true →
    ∃ s : ℕ, s < answers.length ∧ out[s]? = some (some VadEvent.speechStart)
  ended : ∀ k, out[k]? = some (some VadEvent.speechEnd) →
    ∃ j : ℕ, j + threshold = k ∧ answers[j]? = some true ∧ SilentAfter answers j k
  open_or_ended : ∀ s, out[s]? = some (some VadEvent.speechStart) →
    answers[s]? = some true ∧
      (st.inSpeech = true ∨ ∃ e : ℕ, s < e ∧ out[e]? = some (some VadEvent.speechEnd))

theorem getElem?_append_some {α : Type} {l : List α} {m : ℕ} {a : α} (h : l[m]? = some a)
    (l' : List α) : (l ++ l')[m]? = some a := by
  obtain ⟨hm, -⟩ := List.getElem?_eq_some_iff.mp h
  rwa [List.getElem?_append_left hm]

theorem getElem?_concat_some {α : Type} {l : List α} {m : ℕ} {a b : α}
    (h : (l ++ [b])[m]? = some a) : l[m]? = some a ∨ m = l.length ∧ b = a := by
  rcases Nat.lt_trichotomy m l.length with hlt | heq | hgt
  · left
    rwa [List.getElem?_append_left hlt] at h
  · right
    subst heq
    simpa using h
  · rw [List.getElem?_eq_none (by simp; omega)] at h
    cases h

theorem SilentAfter.append {answers : List Bool} {j k : ℕ} (h : SilentAfter answers j k)
    (more : List Bool) : SilentAfter (answers ++ more) j k :=
  fun m hj hk => getElem?_append_some (h m hj hk) more

theorem SilentAfter.concat {answers : List Bool} {j : ℕ}
    (h : SilentAfter answers j (answers.length - 1)) :
    SilentAfter (answers ++ [false]) j answers.length := by
  intro m hj hm
  rcases Nat.lt_or_ge m answers.length with hlt | hge
  · exact h.append [false] m hj (by omega)
  · obtain rfl : m = answers.length := by omega
    simp

variable {threshold : ℕ} {answers : List Bool} {st : Endpointer} {out : List (Option VadEvent)}

/-- The transitions before the last frame say the same of the longer list. -/
theorem Endpointer.Counts.ended_append (h : st.Counts threshold answers out) (b : Bool)
    {k : ℕ} (hk : out[k]? = some (some VadEvent.speechEnd)) :
    ∃ j : ℕ, j + threshold = k ∧ (answers ++ [b])[j]? = some true ∧
      SilentAfter (answers ++ [b]) j k := by
  obtain ⟨j, hj, htrue, hsilent⟩ := h.ended k hk
  exact ⟨j, hj, getElem?_append_some htrue [b], hsilent.append [b]⟩

/-- A speech frame. -/
theorem Endpointer.Counts.step_speech (h : st.Counts threshold answers out)
    (hpos : 0 < threshold) :
    (st.step threshold true).1.Counts threshold (answers ++ [true])
      (out ++ [(st.step threshold true).2]) := by
  have hlast : (answers ++ [true])[answers.length]? = some true := by simp
  constructor
  case length => simp [h.length]
  case below => exact fun _ => hpos
  case speaking =>
    intro _
    refine ⟨answers.length, by simp [Endpointer.step], hlast, ?_⟩
    intro m hm hm'
    simp only [List.length_append, List.length_singleton] at hm'
    omega
  case started =>
    intro _
    cases hspeech : st.inSpeech with
    | true =>
      obtain ⟨s, hs, hstart⟩ := h.started hspeech
      exact ⟨s, by simp; omega, getElem?_append_some hstart _⟩
    | false =>
      refine ⟨answers.length, by simp, ?_⟩
      simp [Endpointer.step, hspeech, ← h.length]
  case ended =>
    intro k hk
    rcases getElem?_concat_some hk with hold | ⟨-, hnew⟩
    · exact h.ended_append true hold
    · cases hspeech : st.inSpeech <;> simp [Endpointer.step, hspeech] at hnew
  case open_or_ended =>
    intro s hs
    refine ⟨?_, Or.inl rfl⟩
    rcases getElem?_concat_some hs with hold | ⟨hlength, -⟩
    · exact getElem?_append_some (h.open_or_ended s hold).1 _
    · rwa [hlength, h.length]

/-- A silent frame. -/
theorem Endpointer.Counts.step_silence (h : st.Counts threshold answers out) :
    (st.step threshold false).1.Counts threshold (answers ++ [false])
      (out ++ [(st.step threshold false).2]) := by
  cases hspeech : st.inSpeech with
  | false =>
    -- outside speech nothing happens
    have hstep : st.step threshold false = (st, none) := by simp [Endpointer.step, hspeech]
    rw [hstep]
    have hnot : ¬ st.inSpeech = true := by simp [hspeech]
    constructor
    case length => simp [h.length]
    case below => exact fun hin => absurd hin hnot
    case speaking => exact fun hin => absurd hin hnot
    case started => exact fun hin => absurd hin hnot
    case ended =>
      intro k hk
      rcases getElem?_concat_some hk with hold | ⟨-, hnew⟩
      · exact h.ended_append false hold
      · cases hnew
    case open_or_ended =>
      intro s hs
      rcases getElem?_concat_some hs with hold | ⟨-, hnew⟩
      · obtain ⟨htrue, hin | ⟨e, he, hend⟩⟩ := h.open_or_ended s hold
        · exact absurd hin hnot
        · exact ⟨getElem?_append_some htrue _, Or.inr ⟨e, he, getElem?_append_some hend _⟩⟩
      · cases hnew
  | true =>
    obtain ⟨j, hj, htrue, hsilent⟩ := h.speaking hspeech
    have hbelow := h.below hspeech
    by_cases hend : threshold ≤ st.silence + 1
    · -- the run has become as long as the threshold
      have hstep : st.step threshold false = (⟨0, false⟩, some .speechEnd) := by
        simp [Endpointer.step, hspeech, hend]
      rw [hstep]
      constructor
      case length => simp [h.length]
      case below => intro hin; cases hin
      case speaking => intro hin; cases hin
      case started => intro hin; cases hin
      case ended =>
        intro k hk
        rcases getElem?_concat_some hk with hold | ⟨hlength, -⟩
        · exact h.ended_append false hold
        · rw [h.length] at hlength
          subst hlength
          exact ⟨j, by omega, getElem?_append_some htrue _, hsilent.concat⟩
      case open_or_ended =>
        intro s hs
        rcases getElem?_concat_some hs with hold | ⟨-, hnew⟩
        · obtain ⟨htrue, -⟩ := h.open_or_ended s hold
          obtain ⟨hlt, -⟩ := List.getElem?_eq_some_iff.mp htrue
          refine ⟨getElem?_append_some htrue _, Or.inr ⟨answers.length, hlt, ?_⟩⟩
          simp [← h.length]
        · cases hnew
    · have hstep : st.step threshold false = (⟨st.silence + 1, true⟩, none) := by
        simp [Endpointer.step, hspeech, hend]
      rw [hstep]
      constructor
      case length => simp [h.length]
      case below => exact fun _ => Nat.lt_of_not_le hend
      case speaking =>
        intro _
        refine ⟨j, by simp; omega, getElem?_append_some htrue _, ?_⟩
        simpa using hsilent.concat
      case started =>
        intro _
        obtain ⟨s, hs, hstart⟩ := h.started hspeech
        exact ⟨s, by simp; omega, getElem?_append_some hstart _⟩
      case ended =>
        intro k hk
        rcases getElem?_concat_some hk with hold | ⟨-, hnew⟩
        · exact h.ended_append false hold
        · cases hnew
      case open_or_ended =>
        intro s hs
        rcases getElem?_concat_some hs with hold | ⟨-, hnew⟩
        · exact ⟨getElem?_append_some (h.open_or_ended s hold).1 _, Or.inl rfl⟩
        · cases hnew

/-- **The counter counts the silent frames** since the last speech frame. -/
theorem endpointer_counts (hpos : 0 < threshold) (answers : List Bool) :
    (endpointerAfter threshold answers).Counts threshold answers
      (FrameVad.turns threshold answers) := by
  induction answers using List.reverseRecOn with
  | nil =>
    refine ⟨rfl, ?_, ?_, ?_, ?_, ?_⟩
    · intro hin; cases hin
    · intro hin; cases hin
    · intro hin; cases hin
    · intro k hk; simp [FrameVad.turns, Framer.outputsOf] at hk
    · intro s hs; simp [FrameVad.turns, Framer.outputsOf] at hs
  | append_singleton answers b ih =>
    simp only [endpointerAfter, FrameVad.turns, Framer.outputsOf_concat]
    cases b with
    | true => exact ih.step_speech hpos
    | false => exact ih.step_silence

/-- **An endpoint that is owed comes.**  After a start, the flag does not outlast a silent
run as long as the threshold. -/
theorem end_of_run (hpos : 0 < threshold) {s j k : ℕ}
    (hstart : (FrameVad.turns threshold answers)[s]? = some (some VadEvent.speechStart))
    (hsj : s ≤ j) (hrun : SilentAfter answers j k) (hlong : threshold ≤ k - j) :
    ∃ e : ℕ, s < e ∧ e ≤ k ∧
      (FrameVad.turns threshold answers)[e]? = some (some VadEvent.speechEnd) := by
  obtain ⟨hk, -⟩ := List.getElem?_eq_some_iff.mp (hrun k (by omega) (Nat.le_refl k))
  -- the counter after the frames up to `k`
  have hcounts := endpointer_counts hpos (answers.take (k + 1))
  have hturns : FrameVad.turns threshold (answers.take (k + 1)) =
      (FrameVad.turns threshold answers).take (k + 1) := Framer.outputsOf_take _ _ _ _
  have hlength : (answers.take (k + 1)).length = k + 1 := by
    rw [List.length_take]
    omega
  have hstart' : (FrameVad.turns threshold (answers.take (k + 1)))[s]? =
      some (some VadEvent.speechStart) := by
    rw [hturns, List.getElem?_take_of_lt (by omega)]
    exact hstart
  obtain ⟨-, hin | ⟨e, he, hend⟩⟩ := hcounts.open_or_ended s hstart'
  · -- the flag is still up: the last speech frame is inside the run
    have hbelow := hcounts.below hin
    obtain ⟨i, hi, htrue, -⟩ := hcounts.speaking hin
    rw [hlength] at hi
    rw [List.getElem?_take_of_lt (by omega), hrun i (by omega) (by omega)] at htrue
    cases htrue
  · obtain ⟨hlt, -⟩ := List.getElem?_eq_some_iff.mp hend
    rw [hcounts.length, hlength] at hlt
    rw [hturns, List.getElem?_take_of_lt hlt] at hend
    exact ⟨e, he, by omega, hend⟩

/-- A speech frame followed by a silent run as long as the threshold gives an endpoint. -/
theorem end_of_speech (hpos : 0 < threshold) {j k : ℕ} (hspeech : answers[j]? = some true)
    (hrun : SilentAfter answers j k) (hlong : threshold ≤ k - j) :
    ∃ e : ℕ, (FrameVad.turns threshold answers)[e]? = some (some VadEvent.speechEnd) := by
  obtain ⟨hj, hget⟩ := List.getElem?_eq_some_iff.mp hspeech
  have htake : answers.take (j + 1) = answers.take j ++ [true] := by
    rw [List.take_add_one, hspeech]
    rfl
  have hin : (endpointerAfter threshold (answers.take (j + 1))).inSpeech = true := by
    rw [htake, endpointerAfter, Framer.outputsOf_concat]
    rfl
  obtain ⟨s, hs, hstart⟩ := (endpointer_counts hpos (answers.take (j + 1))).started hin
  have hsj : s < j + 1 := by
    rw [List.length_take] at hs
    omega
  have hturns : FrameVad.turns threshold (answers.take (j + 1)) =
      (FrameVad.turns threshold answers).take (j + 1) := Framer.outputsOf_take _ _ _ _
  rw [hturns, List.getElem?_take_of_lt hsj] at hstart
  obtain ⟨e, -, -, hend⟩ := end_of_run hpos hstart (Nat.le_of_lt_succ hsj) hrun hlong
  exact ⟨e, hend⟩

/-- At an endpoint the silent run is exactly as long as the threshold, so the endpoint is due
if and only if the threshold is not too low. -/
theorem due_iff (hpos : 0 < threshold) {k : ℕ} (frameMs : ℕ) (silenceMs : ℤ)
    (hend : (FrameVad.turns threshold answers)[k]? = some (some VadEvent.speechEnd)) :
    Due frameMs silenceMs answers k ↔ silenceMs ≤ (threshold * frameMs : ℕ) := by
  obtain ⟨j, rfl, hspeech, hrun⟩ := (endpointer_counts hpos answers).ended k hend
  constructor
  · rintro ⟨i, hi, hspeech', hrun', hlong⟩
    -- there is one last speech frame
    have hij : i = j := by
      rcases Nat.lt_trichotomy i j with hlt | heq | hgt
      · rw [hrun' j hlt (by omega)] at hspeech
        cases hspeech
      · exact heq
      · rw [hrun i hgt (by omega)] at hspeech'
        cases hspeech'
    subst hij
    rwa [Nat.add_sub_cancel_left] at hlong
  · intro hlong
    exact ⟨j, by omega, hspeech, hrun, by rwa [Nat.add_sub_cancel_left]⟩

namespace FrameVad

variable {β α κ : Type} (vad : FrameVad β α κ)

/-- The sample at which the frame `k` ends. -/
def frameEnd (k : ℕ) : ℤ := vad.place ((k + 1) * vad.width)

theorem frameEnd_inj {k k' : ℕ} (h : vad.frameEnd k = vad.frameEnd k') : k = k' := by
  obtain ⟨w, hw⟩ := vad.perSample_dvd
  have hwpos : 0 < w := by
    have := vad.width_pos
    rw [hw] at this
    exact Nat.pos_of_mul_pos_left this
  have hplace : ∀ m, vad.place ((m + 1) * vad.width) = ((m + 1) * w : ℕ) := by
    intro m
    rw [place, hw, Nat.mul_left_comm, Nat.mul_div_cancel_left _ vad.perSample_pos]
  rw [frameEnd, frameEnd, hplace, hplace, Int.natCast_inj] at h
  exact Nat.succ_injective (Nat.eq_of_mul_eq_mul_right hwpos h)

theorem mem_placedEvents (blocks : List (List β)) (event : VadEvent) (k : ℕ) :
    (event, vad.frameEnd k) ∈ vad.placedEvents blocks ↔
      (turns vad.threshold (vad.answers blocks.flatten))[k]? = some (some event) := by
  rw [vad.placedEvents_eq, Framer.mem_placed]
  simp only [Nat.zero_add]
  constructor
  · rintro ⟨k', hk', hplace⟩
    rwa [vad.frameEnd_inj hplace]
  · intro hk
    exact ⟨k, hk, rfl⟩

theorem alternate_placedEvents (blocks : List (List β)) :
    AlternatesFrom false ((vad.placedEvents blocks).map Prod.fst) := by
  have hflips := (flips_outputsOf vad.threshold vad.width vad.place
    (vad.answers blocks.flatten) ⟨0, false⟩ 0).1
  rw [vad.placedEvents_eq, turns, hflips]
  exact alternatesFrom_processEvents _ _

/-- **The law of an endpoint** holds if the threshold is not too low, or if no speech frame is
followed by as many silent frames as the threshold counts. -/
theorem endpointLaw_iff (frameMs : ℕ) (silenceMs : ℤ) (hpos : 0 < vad.threshold)
    (hlate : ∀ m : ℕ, 0 < m → silenceMs ≤ (m * frameMs : ℕ) → vad.threshold ≤ m)
    (blocks : List (List β)) :
    EndpointLaw vad.frameEnd frameMs silenceMs (vad.answers blocks.flatten)
        (vad.placedEvents blocks) ↔
      silenceMs ≤ (vad.threshold * frameMs : ℕ) ∨
        ∀ j, (vad.answers blocks.flatten)[j]? = some true →
          ¬ SilentAfter (vad.answers blocks.flatten) j (j + vad.threshold) := by
  have hcounts := endpointer_counts hpos (vad.answers blocks.flatten)
  constructor
  · intro law
    by_cases hlong : silenceMs ≤ (vad.threshold * frameMs : ℕ)
    · exact Or.inl hlong
    · right
      intro j hspeech hrun
      obtain ⟨e, hend⟩ := end_of_speech hpos hspeech hrun
        (Nat.le_sub_of_add_le' (Nat.le_refl _))
      have hdue := law.notEarly e ((vad.mem_placedEvents blocks _ e).mpr hend)
      exact hlong ((due_iff hpos frameMs silenceMs hend).mp hdue)
  · intro hcond
    constructor
    · intro ev hev
      rw [vad.placedEvents_eq, Framer.mem_placed] at hev
      obtain ⟨k, hk, hplace⟩ := hev
      obtain ⟨hlt, -⟩ := List.getElem?_eq_some_iff.mp hk
      rw [hcounts.length] at hlt
      exact ⟨k, hlt, by rw [hplace, Nat.zero_add]; rfl⟩
    · exact vad.alternate_placedEvents blocks
    · intro k hk
      rw [vad.mem_placedEvents] at hk
      rcases hcond with hlong | hnone
      · exact (due_iff hpos frameMs silenceMs hk).mpr hlong
      · obtain ⟨j, rfl, hspeech, hrun⟩ := hcounts.ended k hk
        exact absurd hrun (hnone j hspeech)
    · rintro s k hs hsk - ⟨j, hjk, hspeech, hrun, hlong⟩
      rw [vad.mem_placedEvents] at hs
      have hstart := (hcounts.open_or_ended s hs).1
      -- the start is not after the last speech frame
      have hsj : s ≤ j := by
        by_contra hlt
        rw [hrun s (by omega) (by omega)] at hstart
        cases hstart
      have hthreshold := hlate (k - j) (by omega) hlong
      obtain ⟨e, hse, hek, hend⟩ := end_of_run hpos hs hsj hrun hthreshold
      exact ⟨e, hse, by omega, (vad.mem_placedEvents blocks _ e).mpr hend⟩

end FrameVad

/-! ### The two thresholds -/

/-- The milliseconds of a Silero window: 512 samples at 16 kHz. -/
def windowMs : ℕ := window16k * 1000 / 16000

theorem silenceStepThreshold_pos (silenceMs : ℤ) : 0 < silenceStepThreshold silenceMs := by
  unfold silenceStepThreshold
  omega

/-- The Silero threshold is rounded up. -/
theorem silenceStepThreshold_le_iff (silenceMs : ℤ) {m : ℕ} (hm : 0 < m) :
    silenceStepThreshold silenceMs ≤ m ↔ silenceMs ≤ (m * windowMs : ℕ) := by
  have hms : windowMs = 32 := rfl
  unfold silenceStepThreshold
  rw [hms]
  omega

theorem silenceFramesThreshold_pos (silenceMs : ℤ) :
    0 < silenceFramesThreshold silenceMs := by
  unfold silenceFramesThreshold
  omega

theorem silenceFramesThreshold_le (silenceMs : ℤ) {m : ℕ} (hm : 0 < m)
    (h : silenceMs ≤ (m * frameMs : ℕ)) : silenceFramesThreshold silenceMs ≤ m := by
  have hms : frameMs = 30 := rfl
  unfold silenceFramesThreshold
  rw [hms] at h ⊢
  omega

/-- The WebRTC threshold is rounded down, so it is long enough for a whole number of frames
and for a setting below one. -/
theorem le_silenceFramesThreshold_iff (silenceMs : ℤ) :
    silenceMs ≤ (silenceFramesThreshold silenceMs * frameMs : ℕ) ↔
      silenceMs < frameMs ∨ (frameMs : ℤ) ∣ silenceMs := by
  have hms : frameMs = 30 := rfl
  unfold silenceFramesThreshold
  rw [hms]
  omega

/-- **An endpoint never fires early** with the Silero session.  With the WebRTC session the
law holds if and only if the setting is below one frame or a whole number of frames, or no
speech frame is followed by `silence_ms // FRAME_MS` silent frames. -/
theorem endpoint_law_iff {β φ τ π ν : Type} [LE π] [DecidableLE π]
    (silero : SileroModel β φ τ π) (webrtc : WebRtcModel ν) (threshold : π)
    (rate : WebRtcRate) (silenceMs : ℤ) :
    (∀ blocks : List (List β),
      let vad := silero.vad threshold silenceMs
      EndpointLaw vad.frameEnd windowMs silenceMs (vad.answers blocks.flatten)
        (vad.placedEvents blocks)) ∧
    (∀ blocks : List (List Int16),
      let vad := webrtc.session rate silenceMs
      EndpointLaw vad.frameEnd frameMs silenceMs (vad.answers blocks.flatten)
          (vad.placedEvents blocks) ↔
        silenceMs < frameMs ∨ (frameMs : ℤ) ∣ silenceMs ∨
          ∀ j, (vad.answers blocks.flatten)[j]? = some true →
            ¬ SilentAfter (vad.answers blocks.flatten) j (j + (silenceMs / frameMs).toNat)) := by
  constructor
  · intro blocks
    refine (FrameVad.endpointLaw_iff _ windowMs silenceMs (silenceStepThreshold_pos _)
      (fun m hm => (silenceStepThreshold_le_iff silenceMs hm).mpr) blocks).mpr (Or.inl ?_)
    exact (silenceStepThreshold_le_iff silenceMs (silenceStepThreshold_pos _)).mp
      (Nat.le_refl _)
  · intro blocks vad
    have hiff := vad.endpointLaw_iff frameMs silenceMs (silenceFramesThreshold_pos _)
      (fun m hm => silenceFramesThreshold_le silenceMs hm) blocks
    rw [hiff, ← or_assoc, ← le_silenceFramesThreshold_iff]
    by_cases hlong : silenceMs ≤ (silenceFramesThreshold silenceMs * frameMs : ℕ)
    · exact ⟨fun _ => Or.inl hlong, fun _ => Or.inl hlong⟩
    · -- the setting is longer than one frame, so the threshold is the quotient
      have hquot : (silenceMs / frameMs).toNat = vad.threshold := by
        have hms : frameMs = 30 := rfl
        show _ = silenceFramesThreshold silenceMs
        unfold silenceFramesThreshold at hlong ⊢
        rw [hms] at hlong ⊢
        omega
      rw [hquot]
      rfl

/-- One speech frame and thirteen silent ones at 8 kHz. -/
def pausedStream : List Int16 := List.replicate 240 1 ++ List.replicate (13 * 240) 0

/-- **The default of 400 ms ends the turn after 390 ms** with the WebRTC session. -/
theorem webrtc_endpoint_early :
    ¬ EndpointLaw (levelWebRtc.session .hz8000 400).frameEnd frameMs 400
      ((levelWebRtc.session .hz8000 400).answers [pausedStream].flatten)
      ((levelWebRtc.session .hz8000 400).placedEvents [pausedStream]) := by
  intro law
  have hanswers : (levelWebRtc.session .hz8000 400).answers [pausedStream].flatten =
      true :: List.replicate 13 false := by decide +kernel
  have hend : (VadEvent.speechEnd, (levelWebRtc.session .hz8000 400).frameEnd 13) ∈
      (levelWebRtc.session .hz8000 400).placedEvents [pausedStream] := by decide +kernel
  obtain ⟨j, hj, -, -, hlong⟩ := law.notEarly 13 hend
  have hms : frameMs = 30 := rfl
  rw [hms] at hlong
  omega

end V2v
end OpenVoiceStream
