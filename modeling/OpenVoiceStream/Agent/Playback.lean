import OpenVoiceStream.Base.Machine
import OpenVoiceStream.Base.Rounding

/-!
# The playback position

Speech and notification tones go through one buffer to the sound device.  One counter says
how much of a response the device has taken, and a barge-in reports it to the server.  The
counter starts again with each response, but the buffer does not: what is left in it from
before is counted for the new response, and so are the tones.

## Main definitions

* `AudioIO` and its operations — the source's.
* `Tracked` — which bytes of the buffer are those of the current response; `tracked` — as a
  machine.
* `Tracked.apart` — the device takes bytes of the current response only.

## Main results

* `playbackPositionMs_eq` — the position is the integer part of the quotient.
* `Tracked.Exact.step` — the step lemma.
* `position_exact` — every run.
-/

namespace OpenVoiceStream
namespace Playback

/-- The part of `AudioIO` that plays. -/
structure AudioIO where
  playbackBuffer : List UInt8
  playbackResponseId : Option String
  playbackDeviceBytes : ℕ
  isPlaying : Bool
  discardPlayback : Bool
  outputSr : ℕ
  sourceSr : ℕ
  /-- `_output_stream` is there. -/
  outputStream : Bool

/-- How the output stream is opened, with the rate of the device. -/
inductive Opening
  /-- There is no way to play. -/
  | unavailable
  | rejected (sr : ℕ)
  | opened (sr : ℕ) (started : Bool)

namespace AudioIO

/-- A new `AudioIO`. -/
def new (outputSr : ℕ) : AudioIO :=
  { playbackBuffer := [], playbackResponseId := none, playbackDeviceBytes := 0, isPlaying := false
    discardPlayback := false, outputSr := outputSr, sourceSr := outputSr, outputStream := false }

/-- `_ensure_output`, and whether it returns. -/
def ensureOutput (io : AudioIO) (opening : Opening) : AudioIO × Bool :=
  if io.outputStream then (io, true)
  else
    match opening with
    | .unavailable => (io, false)
    | .rejected sr => ({ io with outputSr := sr }, false)
    | .opened sr started => ({ io with outputSr := sr, outputStream := true }, started)

/-- The bytes are appended. -/
def extend (io : AudioIO) (pcm : List UInt8) : AudioIO :=
  { io with playbackBuffer := io.playbackBuffer ++ pcm }

/-- `play_notification`. -/
def playNotification (io : AudioIO) (opening : Opening) (pcm : List UInt8) : AudioIO :=
  let ensured := io.ensureOutput opening
  if ensured.2 then ensured.1.extend pcm else ensured.1

/-- The bytes that `play` appends, where it appends some; `resample` may raise. -/
def played (resample : ℕ → ℕ → List UInt8 → Option (List UInt8)) (io : AudioIO)
    (opening : Opening) (pcm : List UInt8) : Option (List UInt8) :=
  let ensured := io.ensureOutput opening
  if io.discardPlayback || !ensured.2 then none
  else if ensured.1.sourceSr ≠ ensured.1.outputSr ∧ pcm ≠ [] then
    resample ensured.1.sourceSr ensured.1.outputSr pcm
  else some pcm

/-- `play`. -/
def play (resample : ℕ → ℕ → List UInt8 → Option (List UInt8)) (io : AudioIO) (opening : Opening)
    (pcm : List UInt8) : AudioIO :=
  if io.discardPlayback then io
  else
    let ensured := io.ensureOutput opening
    if ensured.2 then
      { ensured.1 with isPlaying := true }.extend ((io.played resample opening pcm).getD [])
    else ensured.1

/-- `stop_playback`. -/
def stopPlayback (io : AudioIO) : AudioIO :=
  { io with playbackBuffer := [], isPlaying := false, discardPlayback := true }

/-- `arm_for_next_turn`. -/
def armForNextTurn (io : AudioIO) : AudioIO := { io with discardPlayback := false }

/-- `mark_playback_done`. -/
def markPlaybackDone (io : AudioIO) : AudioIO := { io with isPlaying := false }

/-- `set_output_sample_rate`. -/
def setOutputSampleRate (io : AudioIO) (sr : ℕ) : AudioIO := { io with sourceSr := sr }

/-- `begin_response_playback`. -/
def beginResponsePlayback (io : AudioIO) (responseId : String) : AudioIO :=
  { io with playbackResponseId := some responseId, playbackDeviceBytes := 0 }

/-- `_output_callback`: the device takes what there is, and silence for the rest. -/
def outputCallback (io : AudioIO) (needed : ℕ) : AudioIO × List UInt8 :=
  let n := min needed io.playbackBuffer.length
  ({ io with
      playbackBuffer := io.playbackBuffer.drop n
      playbackDeviceBytes :=
        io.playbackDeviceBytes + if io.playbackResponseId.isSome then n else 0 },
    io.playbackBuffer.take n ++ List.replicate (needed - n) 0)

/-- A quotient of integers, as a float; it is `none` past the largest one. -/
def trueDiv (a b : ℕ) : Option ℚ :=
  if 2 ^ 1024 ≤ roundToBits 53 ((a : ℚ) / b) then none else some (roundToBits 53 ((a : ℚ) / b))

/-- `playback_position_ms`. -/
def playbackPositionMs (io : AudioIO) (responseId : Option String) : Option ℤ :=
  if responseId.getD "" ≠ "" ∧ responseId ≠ io.playbackResponseId then some 0
  else
    (trueDiv (io.playbackDeviceBytes * 1000) (2 * max 1 io.outputSr)).map fun ms => max 0 ⌊ms⌋

end AudioIO

/-- The time that so many bytes take, in whole milliseconds. -/
def durationMs (sr n : ℕ) : ℕ := n * 1000 / (2 * max 1 sr)

theorem lt_two_pow_of_lt {n j k : ℕ} (h : n < 2 ^ j) (hjk : j ≤ k) : n < 2 ^ k :=
  h.trans_le (Nat.pow_le_pow_right two_pos hjk)

/-- The position is the time of the bytes that were counted, as long as a float is exact. -/
theorem playbackPositionMs_eq (io : AudioIO) (h : io.playbackDeviceBytes * 1000 < 2 ^ 53) :
    io.playbackPositionMs io.playbackResponseId =
      some (durationMs io.outputSr io.playbackDeviceBytes : ℤ) := by
  have hpos : 0 < 2 * max 1 io.outputSr := by omega
  have hfloor := floor_roundToBits_div hpos h
  have hfits : ¬ (2 : ℚ) ^ 1024 ≤
      roundToBits 53 ((io.playbackDeviceBytes * 1000 : ℕ) / (2 * max 1 io.outputSr : ℕ)) := by
    intro hlarge
    have hle : ((2 ^ 1024 : ℕ) : ℤ) ≤ _ := Int.le_floor.mpr (by exact_mod_cast hlarge)
    rw [hfloor] at hle
    have hnat : 2 ^ 1024 ≤ io.playbackDeviceBytes * 1000 :=
      (Int.ofNat_le.mp hle).trans (Nat.div_le_self _ _)
    exact absurd hnat (Nat.not_le.mpr (lt_two_pow_of_lt h (by omega)))
  unfold AudioIO.playbackPositionMs AudioIO.trueDiv durationMs
  rw [if_neg fun hother => hother.2 rfl, if_neg hfits, Option.map_some, hfloor]
  exact congrArg some (max_eq_right (Int.natCast_nonneg _))

/-! ### The bytes of the current response -/

/-- The buffer with what is known of each byte. -/
structure Tracked where
  io : AudioIO
  /-- The byte was appended by `play` since the current response began. -/
  own : List Bool
  /-- How many such bytes the device has taken since then. -/
  handed : ℕ

/-- What happens. -/
inductive Act
  | begin (responseId : String)
  | play (opening : Opening) (pcm : List UInt8)
  | playNotification (opening : Opening) (pcm : List UInt8)
  | stopPlayback
  | armForNextTurn
  | markPlaybackDone
  | setOutputSampleRate (sr : ℕ)
  | callback (needed : ℕ)

section

variable (resample : ℕ → ℕ → List UInt8 → Option (List UInt8))

/-- One step. -/
def Tracked.next (t : Tracked) : Act → Tracked
  | .begin responseId =>
    { io := t.io.beginResponsePlayback responseId, own := t.own.map fun _ => false, handed := 0 }
  | .play opening pcm =>
    { t with
      io := t.io.play resample opening pcm
      own := t.own ++ ((t.io.played resample opening pcm).getD []).map fun _ => true }
  | .playNotification opening pcm =>
    { t with
      io := t.io.playNotification opening pcm
      own := t.own ++ if (t.io.ensureOutput opening).2 then pcm.map fun _ => false else [] }
  | .stopPlayback => { t with io := t.io.stopPlayback, own := [] }
  | .armForNextTurn => { t with io := t.io.armForNextTurn }
  | .markPlaybackDone => { t with io := t.io.markPlaybackDone }
  | .setOutputSampleRate sr => { t with io := t.io.setOutputSampleRate sr }
  | .callback needed =>
    { io := (t.io.outputCallback needed).1
      own := t.own.drop (min needed t.io.playbackBuffer.length)
      handed := t.handed + if t.io.playbackResponseId.isSome then
        (t.own.take (min needed t.io.playbackBuffer.length)).count true else 0 }

/-- The buffer as a machine. -/
def tracked (outputSr : ℕ) : Machine Tracked Act :=
  { init := { io := .new outputSr, own := [], handed := 0 }
    step := fun t a => some (t.next resample a) }

end

/-- While there is a response the device takes bytes of it only, and not too many for a
float. -/
def Tracked.apart (t : Tracked) : Act → Bool
  | .callback needed =>
    (!t.io.playbackResponseId.isSome ||
        (t.own.take (min needed t.io.playbackBuffer.length)).all id) &&
      decide ((t.io.playbackDeviceBytes + needed) * 1000 < 2 ^ 53)
  | _ => true

/-- The counter is that of the bytes of the response. -/
structure Tracked.Exact (t : Tracked) : Prop where
  length : t.own.length = t.io.playbackBuffer.length
  counted : t.io.playbackDeviceBytes = t.handed
  small : t.io.playbackDeviceBytes * 1000 < 2 ^ 53

namespace Tracked

variable {resample : ℕ → ℕ → List UInt8 → Option (List UInt8)} {t : Tracked} {a : Act}

@[simp] theorem ensureOutput_playbackBuffer (io : AudioIO) (opening : Opening) :
    (io.ensureOutput opening).1.playbackBuffer = io.playbackBuffer := by
  unfold AudioIO.ensureOutput
  split
  · rfl
  · cases opening <;> rfl

@[simp] theorem ensureOutput_playbackDeviceBytes (io : AudioIO) (opening : Opening) :
    (io.ensureOutput opening).1.playbackDeviceBytes = io.playbackDeviceBytes := by
  unfold AudioIO.ensureOutput
  split
  · rfl
  · cases opening <;> rfl

/-- What `play` appends. -/
theorem playbackBuffer_play (io : AudioIO) (opening : Opening) (pcm : List UInt8) :
    (io.play resample opening pcm).playbackBuffer =
      io.playbackBuffer ++ (io.played resample opening pcm).getD [] := by
  unfold AudioIO.play
  split
  · rename_i hdiscard
    simp [hdiscard, AudioIO.played]
  · dsimp only
    split
    · simp [ AudioIO.extend]
    · rename_i hraised
      simp [hraised, AudioIO.played]

@[simp] theorem playbackDeviceBytes_play (io : AudioIO) (opening : Opening) (pcm : List UInt8) :
    (io.play resample opening pcm).playbackDeviceBytes = io.playbackDeviceBytes := by
  unfold AudioIO.play
  split
  · rfl
  · dsimp only
    split <;> simp [ AudioIO.extend]

/-- What `play_notification` appends. -/
theorem playbackBuffer_playNotification (io : AudioIO) (opening : Opening) (pcm : List UInt8) :
    (io.playNotification opening pcm).playbackBuffer =
      io.playbackBuffer ++ if (io.ensureOutput opening).2 then pcm else [] := by
  unfold AudioIO.playNotification
  dsimp only
  split <;> simp [ AudioIO.extend]

@[simp] theorem playbackDeviceBytes_playNotification (io : AudioIO) (opening : Opening)
    (pcm : List UInt8) :
    (io.playNotification opening pcm).playbackDeviceBytes = io.playbackDeviceBytes := by
  unfold AudioIO.playNotification
  dsimp only
  split <;> simp [ AudioIO.extend]

/-- Where the device takes bytes of the response only, all it takes are counted as such. -/
theorem count_take_of_all {n : ℕ} (h : (t.own.take n).all id = true) (hn : n ≤ t.own.length) :
    (t.own.take n).count true = n := by
  have hall : ∀ b ∈ t.own.take n, true = b := fun b hb => (List.all_eq_true.mp h b hb).symm
  rw [List.count_eq_length.mpr hall, List.length_take_of_le hn]

/-- **The step lemma.** -/
theorem Exact.step (h : t.Exact) (hapart : t.apart a = true) : (t.next resample a).Exact := by
  obtain ⟨hlength, hcounted, hsmall⟩ := h
  cases a with
  | begin responseId => exact ⟨by simpa [next, AudioIO.beginResponsePlayback] using hlength, rfl,
      by simp [next, AudioIO.beginResponsePlayback]⟩
  | play opening pcm =>
    refine ⟨?_, ?_, ?_⟩
    · simp [next, playbackBuffer_play, hlength]
    · simpa [next] using hcounted
    · simpa [next] using hsmall
  | playNotification opening pcm =>
    refine ⟨?_, ?_, ?_⟩
    · simp only [next, playbackBuffer_playNotification, List.length_append, hlength]
      split <;> simp
    · simpa [next] using hcounted
    · simpa [next] using hsmall
  | stopPlayback => exact ⟨rfl, hcounted, hsmall⟩
  | armForNextTurn => exact ⟨hlength, hcounted, hsmall⟩
  | markPlaybackDone => exact ⟨hlength, hcounted, hsmall⟩
  | setOutputSampleRate sr => exact ⟨hlength, hcounted, hsmall⟩
  | callback needed =>
    simp only [apart, Bool.and_eq_true, Bool.or_eq_true, decide_eq_true_eq] at hapart
    obtain ⟨hown, hfits⟩ := hapart
    have htaken : min needed t.io.playbackBuffer.length ≤ t.own.length := by omega
    refine ⟨?_, ?_, ?_⟩
    · simp [next, AudioIO.outputCallback, hlength]
    · simp only [next, AudioIO.outputCallback, hcounted]
      cases hresponse : t.io.playbackResponseId.isSome with
      | false => rfl
      | true =>
        simp only [hresponse, Bool.not_true, Bool.false_eq_true, false_or] at hown
        rw [if_pos rfl, if_pos rfl, count_take_of_all hown htaken]
    · refine lt_of_le_of_lt (Nat.mul_le_mul_right _ (Nat.add_le_add_left ?_ _)) hfits
      split
      · exact Nat.min_le_left _ _
      · exact Nat.zero_le _

end Tracked

/-- **The position counts the response's own audio.**  In every run in which the device takes
bytes of the current response only, the position of that response is the time of those of
its bytes that the device has taken. -/
theorem position_exact (resample : ℕ → ℕ → List UInt8 → Option (List UInt8)) (outputSr : ℕ)
    (as : List Act) (t : Tracked) (hrun : (tracked resample outputSr).run as = some t)
    (hapart : (tracked resample outputSr).Guarded (fun t a => t.apart a = true)
      (tracked resample outputSr).init as) :
    t.io.playbackPositionMs t.io.playbackResponseId =
      some (durationMs t.io.outputSr t.handed : ℤ) := by
  have hstart : (tracked resample outputSr).init.Exact :=
    ⟨rfl, rfl, by simp [tracked, AudioIO.new]⟩
  have hexact : t.Exact := (tracked resample outputSr).invariant_of_guarded
    (fun t a => t.apart a = true) hstart
    (fun t a t' h hok hnext => by cases hnext; exact h.step hok) hapart hrun
  rw [playbackPositionMs_eq t.io hexact.small, hexact.counted]

/-- A device at 16 kHz. -/
def device : Opening := .opened 16000 true

/-- Nothing is resampled. -/
def sameRate (_ _ : ℕ) (pcm : List UInt8) : Option (List UInt8) := some pcm

/-- A response is played, and its first part is taken. -/
def oneResponse : List Act :=
  [.begin "a", .play device (List.replicate 64 1), .callback 32]

theorem position_exact_oneResponse :
    ∃ t, (tracked sameRate 16000).run oneResponse = some t ∧
      t.io.playbackPositionMs (some "a") = some (durationMs 16000 32) :=
  ⟨_, rfl, position_exact sameRate 16000 oneResponse _ rfl (by decide +kernel)⟩

/-- A second response begins while bytes of the first are in the buffer. -/
def twoResponses : List Act := oneResponse ++ [.begin "b", .callback 32]

/-- **Bytes of another response are counted.** -/
theorem twoResponses_counts_other :
    ∃ t, (tracked sameRate 16000).run twoResponses = some t ∧ t.handed = 0 ∧
      t.io.playbackPositionMs (some "b") = some 1 :=
  ⟨_, rfl, rfl, playbackPositionMs_eq _ (by decide +kernel)⟩

end Playback
end OpenVoiceStream
