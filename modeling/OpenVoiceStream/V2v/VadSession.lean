import Mathlib.Algebra.Order.Ring.Int
import Mathlib.Data.Int.Notation
import OpenVoiceStream.Base.Framing
import OpenVoiceStream.V2v.Vad

/-!
# VAD sessions over blocks

A VAD session classifies fixed frames of the stream and counts the silent ones.  The
PCM blocks of a connection are cut by the network, not at frames, so the session keeps
what is left of a block.  The two sessions differ in the frame, in what a sample is
turned into and in the classifier; the frame loop, the counter and the offsets are the
same.

## Main definitions

* `Endpointer.step` — the counter of a session at one frame.
* `FrameVad.processEvents` — `process_events` over any classifier.
* `FrameVad.placedEvents` — the events of the blocks of a stream, placed at block start
  plus offset.
* `SileroModel.vad`, `WebRtcModel.vad` — the two sessions.

## Main results

* `FrameVad.placedEvents_eq` — the events are those of the counter at the frames of the
  whole stream.
* `FrameVad.processEvents_flips` — the events of a block are the flips of the flag.
* `vad_chunk_invariant` — both sessions give the same events however the stream is cut.
-/

namespace OpenVoiceStream
namespace V2v

/-- `_silence_steps` (`_silence_count`) and `_in_speech`. -/
structure Endpointer where
  silence : ℕ
  inSpeech : Bool
  deriving DecidableEq, Repr

/-- What the answer for one frame does to the counter, and the transition it makes. -/
def Endpointer.step (threshold : ℕ) (st : Endpointer) (speech : Bool) :
    Endpointer × Option VadEvent :=
  if speech then
    (⟨0, true⟩, if st.inSpeech then none else some .speechStart)
  else if st.inSpeech then
    if threshold ≤ st.silence + 1 then (⟨0, false⟩, some .speechEnd)
    else (⟨st.silence + 1, true⟩, none)
  else (st, none)

/-- What a session is made with: `width` symbols are a frame, `perSample` of them a
sample. -/
structure FrameVad (β α κ : Type) where
  width : ℕ
  width_pos : 0 < width
  perSample : ℕ
  perSample_pos : 0 < perSample
  perSample_dvd : perSample ∣ width
  symbols : β → List α
  length_symbols : ∀ sample, (symbols sample).length = perSample
  classify : κ → List α → κ × Bool
  threshold : ℕ
  fresh : κ

/-- What a session keeps from one block to the next. -/
structure VadSession (α κ : Type) where
  detector : κ
  endpointer : Endpointer
  leftover : List α

namespace FrameVad

variable {β α κ : Type} (vad : FrameVad β α κ)

/-- `__init__`. -/
def session : VadSession α κ :=
  { detector := vad.fresh, endpointer := ⟨0, false⟩, leftover := [] }

/-- The loop of `process_events`: `i` is the place of the next frame, `rest` is the buffer
from there on, and `offset` gives the offset of an event from where its frame ends. -/
def loop (offset : ℕ → ℤ) :
    ℕ → ℕ → VadSession α κ → List α → VadSession α κ × List (VadEvent × ℤ)
  | 0, _, st, rest => ({ st with leftover := rest }, [])
  | fuel + 1, i, st, rest =>
    if vad.width ≤ rest.length then
      let answer := vad.classify st.detector (rest.take vad.width)
      let turn := st.endpointer.step vad.threshold answer.2
      let next := loop offset fuel (i + vad.width)
        { st with detector := answer.1, endpointer := turn.1 } (rest.drop vad.width)
      (next.1, (turn.2.map (·, offset (i + vad.width))).toList ++ next.2)
    else ({ st with leftover := rest }, [])

/-- `min(max(frame_end - previous_leftover, 0), len(samples))`, in samples. -/
def offset (previousLeftover samples frameEnd : ℕ) : ℤ :=
  min (max ((frameEnd / vad.perSample : ℕ) - (previousLeftover / vad.perSample : ℕ) : ℤ) 0)
    samples

/-- `process_events`. -/
def processEvents (st : VadSession α κ) (samples : List β) :
    VadSession α κ × List (VadEvent × ℤ) :=
  let buf := st.leftover ++ samples.flatMap vad.symbols
  vad.loop (vad.offset st.leftover.length samples.length) buf.length 0 st buf

/-- The events of blocks that begin at the sample `start`, each at block start plus
offset. -/
def placedFrom : VadSession α κ → ℕ → List (List β) → List (VadEvent × ℤ)
  | _, _, [] => []
  | st, start, block :: blocks =>
    let r := vad.processEvents st block
    r.2.map (fun ev => (ev.1, (start : ℤ) + ev.2)) ++ placedFrom r.1 (start + block.length) blocks

/-- The events of a stream that arrives in these blocks. -/
def placedEvents (blocks : List (List β)) : List (VadEvent × ℤ) :=
  vad.placedFrom vad.session 0 blocks

/-! ### The frames of the whole stream -/

/-- The classifier alone: one answer for each frame. -/
def classifier : Framer α κ Bool where
  width := vad.width
  width_pos := vad.width_pos
  step := vad.classify

/-- The classifier and the counter. -/
def framer : Framer α (κ × Endpointer) (Option VadEvent) :=
  vad.classifier.pipe (Endpointer.step vad.threshold)

/-- The answers for the frames of a stream. -/
def answers (stream : List β) : List Bool :=
  (vad.classifier.read vad.fresh (stream.flatMap vad.symbols)).outputs

/-- What the counter makes of the answers, from the start of a session. -/
def turns (threshold : ℕ) (answers : List Bool) : List (Option VadEvent) :=
  (Framer.outputsOf (Endpointer.step threshold) ⟨0, false⟩ answers).2

/-- The sample at which a frame ends. -/
def place (frameEnd : ℕ) : ℤ := (frameEnd / vad.perSample : ℕ)

theorem loop_eq (off : ℕ → ℤ) (fuel : ℕ) : ∀ i (st : VadSession α κ) rest,
    vad.loop off fuel i st rest =
      let r := vad.framer.readWith fuel (st.detector, st.endpointer) rest
      (⟨r.state.1, r.state.2, r.left⟩, Framer.placed vad.width off i r.outputs) := by
  induction fuel with
  | zero => intro i st rest; rfl
  | succ fuel ih =>
    intro i st rest
    by_cases hw : vad.width ≤ rest.length
    · have hw' : vad.framer.width ≤ rest.length := hw
      simp only [loop, Framer.readWith, hw, hw', if_true, ih]
      rfl
    · have hw' : ¬ vad.framer.width ≤ rest.length := hw
      simp only [loop, Framer.readWith, hw, hw', if_false]
      rfl

theorem processEvents_eq (st : VadSession α κ) (samples : List β) :
    vad.processEvents st samples =
      let r := vad.framer.read (st.detector, st.endpointer)
        (st.leftover ++ samples.flatMap vad.symbols)
      (⟨r.state.1, r.state.2, r.left⟩,
        Framer.placed vad.width (vad.offset st.leftover.length samples.length) 0 r.outputs) :=
  vad.loop_eq _ _ _ _ _

theorem length_symbols_flatMap (samples : List β) :
    (samples.flatMap vad.symbols).length = samples.length * vad.perSample := by
  induction samples with
  | nil => simp
  | cons sample samples ih =>
    rw [List.flatMap_cons, List.length_append, ih, vad.length_symbols, List.length_cons,
      Nat.succ_mul, Nat.add_comm]

/-- A session that has read `n` frames of a stream when the block at `start` begins. -/
structure At (st : VadSession α κ) (n start : ℕ) : Prop where
  short : st.leftover.length < vad.width
  read : n * vad.width + st.leftover.length = start * vad.perSample

/-- The clamp of an offset never moves it: the frame of an event ends in the block. -/
theorem offset_eq {st : VadSession α κ} {n start samples k : ℕ} (h : vad.At st n start)
    (hk : (k + 1) * vad.width ≤ st.leftover.length + samples * vad.perSample) :
    start + vad.offset st.leftover.length samples ((k + 1) * vad.width) =
      vad.place (n * vad.width + (k + 1) * vad.width) := by
  have hpos := vad.perSample_pos
  obtain ⟨w, hw⟩ := vad.perSample_dvd
  -- the leftover is a whole number of samples too
  obtain ⟨l, hl⟩ : vad.perSample ∣ st.leftover.length := by
    have hsum : vad.perSample ∣ n * vad.width + st.leftover.length := by
      rw [h.read]
      exact dvd_mul_left _ _
    exact (Nat.dvd_add_right (Dvd.dvd.mul_left vad.perSample_dvd n)).mp hsum
  have hframe : ∀ m, m * vad.width = vad.perSample * (m * w) := by
    intro m
    rw [hw, Nat.mul_left_comm]
  have hstart : n * w + l = start := by
    have := h.read
    rw [hframe, hl, ← Nat.mul_add, Nat.mul_comm start] at this
    exact Nat.eq_of_mul_eq_mul_left hpos this
  have hshort : l < (k + 1) * w := by
    have hlw : vad.perSample * l < vad.perSample * w := by
      rw [← hl, ← hw]
      exact h.short
    calc l < w := Nat.lt_of_mul_lt_mul_left hlw
      _ ≤ (k + 1) * w := Nat.le_mul_of_pos_left _ (Nat.succ_pos k)
  have hend : (k + 1) * w ≤ l + samples := by
    rw [hframe, hl, Nat.mul_comm samples, ← Nat.mul_add] at hk
    exact Nat.le_of_mul_le_mul_left hk hpos
  rw [offset, place, ← Nat.add_mul, hframe, hframe, hl, Nat.mul_div_cancel_left _ hpos,
    Nat.mul_div_cancel_left _ hpos, Nat.mul_div_cancel_left _ hpos, Nat.add_mul n]
  omega

/-- One block: its events are those of its frames, and the session has read them. -/
theorem processEvents_at {st : VadSession α κ} {n start : ℕ} (h : vad.At st n start)
    (block : List β) :
    (vad.processEvents st block).2.map (fun ev => (ev.1, (start : ℤ) + ev.2)) =
      Framer.placed vad.width vad.place (n * vad.width)
        (vad.framer.read (st.detector, st.endpointer)
          (st.leftover ++ block.flatMap vad.symbols)).outputs ∧
    vad.At (vad.processEvents st block).1
      (n + (vad.framer.read (st.detector, st.endpointer)
        (st.leftover ++ block.flatMap vad.symbols)).outputs.length)
      (start + block.length) := by
  rw [processEvents_eq]
  set r := vad.framer.read (st.detector, st.endpointer)
    (st.leftover ++ block.flatMap vad.symbols) with hr
  have hlength : r.outputs.length * vad.width + r.left.length =
      st.leftover.length + block.length * vad.perSample := by
    have := vad.framer.length_read (st.leftover ++ block.flatMap vad.symbols)
      (st.detector, st.endpointer)
    rwa [List.length_append, length_symbols_flatMap] at this
  constructor
  · refine Framer.placed_congr vad.width _ _ (fun o => (start : ℤ) + o) r.outputs 0
      (n * vad.width) ?_
    intro k hk
    rw [Nat.zero_add]
    apply vad.offset_eq h
    calc (k + 1) * vad.width ≤ r.outputs.length * vad.width := Nat.mul_le_mul_right _ hk
      _ ≤ st.leftover.length + block.length * vad.perSample := by omega
  · constructor
    · exact vad.framer.left_lt _ _
    · have := h.read
      simp only [Nat.add_mul]
      omega

theorem placedFrom_eq (blocks : List (List β)) :
    ∀ (st : VadSession α κ) (n start : ℕ), vad.At st n start →
      vad.placedFrom st start blocks =
        Framer.placed vad.width vad.place (n * vad.width)
          (vad.framer.feed (st.detector, st.endpointer) st.leftover
            (blocks.map (List.flatMap vad.symbols))).flatten := by
  induction blocks with
  | nil => intro st n start _; rfl
  | cons block blocks ih =>
    intro st n start h
    obtain ⟨hevents, hnext⟩ := vad.processEvents_at h block
    rw [placedFrom, hevents, ih _ _ _ hnext]
    simp only [processEvents_eq, List.map_cons, Framer.feed, List.flatten_cons,
      Framer.placed_append, Nat.add_mul]

/-- **The events of a stream are those of the counter at its frames**, at the places where
the frames end. -/
theorem placedEvents_eq (blocks : List (List β)) :
    vad.placedEvents blocks =
      Framer.placed vad.width vad.place 0
        (turns vad.threshold (vad.answers blocks.flatten)) := by
  have hat : vad.At vad.session 0 0 := ⟨vad.width_pos, by simp [session]⟩
  have hflat : (blocks.map (List.flatMap vad.symbols)).flatten =
      blocks.flatten.flatMap vad.symbols := by
    induction blocks with
    | nil => rfl
    | cons block blocks ih => simp [ih]
  rw [placedEvents, vad.placedFrom_eq blocks _ 0 0 hat, Nat.zero_mul,
    vad.framer.feed_flatten _ _ _ hat.short, hflat]
  simp only [framer, Framer.read_pipe, turns, answers, session, List.nil_append]

/-- The placed events read the stream only. -/
theorem placedEvents_congr {blocks blocks' : List (List β)}
    (h : blocks.flatten = blocks'.flatten) :
    vad.placedEvents blocks = vad.placedEvents blocks' := by
  rw [placedEvents_eq, placedEvents_eq, h]

end FrameVad

/-! ### The events of a block flip the flag -/

theorem flips_outputsOf (threshold : ℕ) (width : ℕ) (off : ℕ → ℤ) (answers : List Bool) :
    ∀ (st : Endpointer) (i : ℕ),
      let r := Framer.outputsOf (Endpointer.step threshold) st answers
      let events := Framer.placed width off i r.2
      events = processEvents st.inSpeech (events.map Prod.snd) ∧
        r.1.inSpeech = inSpeechAfter st.inSpeech (events.map Prod.snd) := by
  induction answers with
  | nil => intro st i; exact ⟨rfl, rfl⟩
  | cons speech answers ih =>
    intro st i
    have hrest := ih (st.step threshold speech).1 (i + width)
    obtain ⟨silence, inSpeech⟩ := st
    simp only [Framer.outputsOf, Framer.placed]
    -- whether the frame makes a transition
    cases speech <;> cases inSpeech <;> simp only [Endpointer.step] at hrest ⊢
    · exact hrest
    · by_cases hend : threshold ≤ silence + 1
      · simp only [hend, if_true] at hrest ⊢
        exact ⟨congrArg (_ :: ·) hrest.1, hrest.2⟩
      · simp only [hend, if_false] at hrest ⊢
        exact hrest
    · exact ⟨congrArg (_ :: ·) hrest.1, hrest.2⟩
    · exact hrest

/-- **The events of a block are the flips of `_in_speech`**, so the dispatcher's cut applies
to them. -/
theorem FrameVad.processEvents_flips {β α κ : Type} (vad : FrameVad β α κ)
    (st : VadSession α κ) (samples : List β) :
    let r := vad.processEvents st samples
    r.2 = V2v.processEvents st.endpointer.inSpeech (r.2.map Prod.snd) ∧
      r.1.endpointer.inSpeech =
        inSpeechAfter st.endpointer.inSpeech (r.2.map Prod.snd) := by
  rw [processEvents_eq]
  simp only [FrameVad.framer, Framer.read_pipe]
  exact flips_outputsOf _ _ _ _ _ _

/-! ### Silero -/

/-- The ONNX session (`run`, from an input and a state to a probability and a state), the
conversion of a sample to float32 and the zeros. -/
structure SileroModel (β φ τ π : Type) where
  run : List φ → τ → π × τ
  zeroState : τ
  zero : φ
  asFloat32 : β → φ

/-- `WINDOW_16K`. -/
def window16k : ℕ := 512

/-- `CONTEXT_16K`. -/
def context16k : ℕ := 64

theorem window16k_pos : 0 < window16k := by decide

/-- `max(1, math.ceil(silence_ms / 32))`. -/
def silenceStepThreshold (silenceMs : ℤ) : ℕ := (max 1 (-(-silenceMs / 32))).toNat

/-- `SileroVADSession`.  The classifier keeps the LSTM state and the context. -/
def SileroModel.vad {β φ τ π : Type} [LE π] [DecidableLE π] (m : SileroModel β φ τ π)
    (threshold : π) (silenceMs : ℤ) : FrameVad β φ (τ × List φ) where
  width := window16k
  width_pos := window16k_pos
  perSample := 1
  perSample_pos := Nat.one_pos
  perSample_dvd := Nat.one_dvd window16k
  symbols sample := [m.asFloat32 sample]
  length_symbols _ := rfl
  classify st window :=
    let modelInput := st.2 ++ window
    let out := m.run modelInput st.1
    ((out.2, modelInput.drop (modelInput.length - context16k)), decide (threshold ≤ out.1))
  threshold := silenceStepThreshold silenceMs
  fresh := (m.zeroState, List.replicate context16k m.zero)

/-! ### WebRTC -/

/-- The sample rates at which `webrtcvad` takes frames of 30 ms; it raises at any other. -/
inductive WebRtcRate
  | hz8000
  | hz16000
  | hz32000
  | hz48000
  deriving DecidableEq, Repr

/-- The rate in samples a second. -/
def WebRtcRate.hz : WebRtcRate → ℕ
  | .hz8000 => 8000
  | .hz16000 => 16000
  | .hz32000 => 32000
  | .hz48000 => 48000

/-- `FRAME_MS`. -/
def frameMs : ℕ := 30

/-- `int(sample_rate * (FRAME_MS / 1000) * 2)`. -/
def WebRtcRate.frameBytes (rate : WebRtcRate) : ℕ := rate.hz * frameMs * 2 / 1000

theorem WebRtcRate.frameBytes_pos (rate : WebRtcRate) : 0 < rate.frameBytes := by
  cases rate <;> decide

theorem WebRtcRate.two_dvd_frameBytes (rate : WebRtcRate) : 2 ∣ rate.frameBytes := by
  cases rate <;> decide

/-- The bytes of an int16 sample. -/
def tobytes (sample : Int16) : List UInt8 :=
  [sample.toUInt16.toUInt8, (sample.toUInt16 >>> 8).toUInt8]

theorem length_tobytes (sample : Int16) : (tobytes sample).length = 2 := rfl

/-- `webrtcvad.Vad`: the answer for a frame at a rate.  The library may keep a state. -/
structure WebRtcModel (ν : Type) where
  isSpeech : ν → List UInt8 → ℕ → ν × Bool
  vad : ν

/-- `max(1, silence_ms // FRAME_MS)`. -/
def silenceFramesThreshold (silenceMs : ℤ) : ℕ := (max 1 (silenceMs / frameMs)).toNat

/-- `WebRTCVADSession` on int16 samples. -/
def WebRtcModel.session {ν : Type} (m : WebRtcModel ν) (rate : WebRtcRate)
    (silenceMs : ℤ) : FrameVad Int16 UInt8 ν where
  width := rate.frameBytes
  width_pos := rate.frameBytes_pos
  perSample := 2
  perSample_pos := Nat.two_pos
  perSample_dvd := rate.two_dvd_frameBytes
  symbols := tobytes
  length_symbols := length_tobytes
  classify st frame := m.isSpeech st frame rate.hz
  threshold := silenceFramesThreshold silenceMs
  fresh := m.vad

/-! ### Chunk invariance -/

/-- The pieces of a block carry its events, in order. -/
theorem events_splitFrom {α : Type} (samples : List α) (events : List (VadEvent × ℤ)) :
    ∀ cursor, (splitFrom samples cursor events).filterMap Segment.event =
      events.map Prod.fst := by
  induction events with
  | nil =>
    intro cursor
    unfold splitFrom
    split <;> rfl
  | cons ev rest ih =>
    intro cursor
    simp [splitFrom, ih]

theorem events_splitVadBlock {α : Type} (samples : List α) (events : List (VadEvent × ℤ)) :
    (splitVadBlock samples events).filterMap Segment.event = events.map Prod.fst := by
  unfold splitVadBlock
  split
  · rename_i hnil
    rw [hnil]
    rfl
  · exact events_splitFrom samples events 0

/-- **Chunk invariance.**  Two cuttings of one stream give the same events at the same
samples, with either session; and the pieces of a block are the block, with all its events
in order. -/
theorem vad_chunk_invariant {β φ τ π ν : Type} [LE π] [DecidableLE π]
    (silero : SileroModel β φ τ π) (webrtc : WebRtcModel ν) (threshold : π)
    (rate : WebRtcRate) (silenceMs : ℤ) :
    (∀ blocks blocks' : List (List β), blocks.flatten = blocks'.flatten →
      (silero.vad threshold silenceMs).placedEvents blocks =
        (silero.vad threshold silenceMs).placedEvents blocks') ∧
    (∀ blocks blocks' : List (List Int16), blocks.flatten = blocks'.flatten →
      (webrtc.session rate silenceMs).placedEvents blocks =
        (webrtc.session rate silenceMs).placedEvents blocks') ∧
    (∀ st block,
      let events := ((silero.vad threshold silenceMs).processEvents st block).2
      ((splitVadBlock block events).map Segment.samples).flatten = block ∧
        (splitVadBlock block events).filterMap Segment.event = events.map Prod.fst) ∧
    (∀ st block,
      let events := ((webrtc.session rate silenceMs).processEvents st block).2
      ((splitVadBlock block events).map Segment.samples).flatten = block ∧
        (splitVadBlock block events).filterMap Segment.event = events.map Prod.fst) := by
  refine ⟨?_, ?_, ?_, ?_⟩
  · intro blocks blocks' h
    exact FrameVad.placedEvents_congr _ h
  · intro blocks blocks' h
    exact FrameVad.placedEvents_congr _ h
  · intro st block
    exact ⟨flatten_splitVadBlock _ _, events_splitVadBlock _ _⟩
  · intro st block
    exact ⟨flatten_splitVadBlock _ _, events_splitVadBlock _ _⟩

/-- A model that hears the samples above a level. -/
def levelSilero : SileroModel ℕ ℕ Unit ℕ where
  run input st := (input.getLastD 0, st)
  zeroState := ()
  zero := 0
  asFloat32 := id

/-- A classifier that hears the frames whose first byte is not zero. -/
def levelWebRtc : WebRtcModel Unit where
  isSpeech st frame _ := (st, frame.headD 0 != 0)
  vad := ()

/-- Six hundred samples in two blocks and in one. -/
theorem vad_chunk_invariant_cut :
    (levelSilero.vad 1 400).placedEvents [List.replicate 300 1, List.replicate 300 1] =
      (levelSilero.vad 1 400).placedEvents [List.replicate 600 1] ∧
    (levelWebRtc.session .hz16000 400).placedEvents
        [List.replicate 300 1, List.replicate 300 1] =
      (levelWebRtc.session .hz16000 400).placedEvents [List.replicate 600 1] := by
  have h := vad_chunk_invariant levelSilero levelWebRtc 1 .hz16000 400
  exact ⟨h.1 _ _ (by decide +kernel), h.2.1 _ _ (by decide +kernel)⟩

end V2v
end OpenVoiceStream
