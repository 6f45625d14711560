import OpenVoiceStream.Agent.SlvClient.Model

/-!
# Frames that take the reader down

A handler raises on a message that is no object, on a JSON text that `json.loads` gives up on
with another exception than a `JSONDecodeError`, and on four kinds of messages in which one
field is converted without a guard.  After that no frame is read any more.

## Main definitions

* `Tame` — the frames that a handler returns on.
* `Handles` — the handlers return on one frame after the other.
* `Survives` — the reader has read all frames and delivered their events in order.

## Main results

* `handleFrame_returns_iff`, `handleFrame_atMostOne` — one frame.
* `readerLoop_stops` — what happens at a frame that is not tame.
* `survives_iff` — the reader survives exactly the tame frames.
-/

namespace OpenVoiceStream
namespace SlvClient

variable {F : Type} {py : Python F}

/-! ### Computations that return -/

/-- The computation returns. -/
def Returns {ε α : Type} (x : Except ε α) : Prop := ∃ a, x = .ok a

@[simp] theorem returns_ok {ε α : Type} (a : α) : Returns (.ok a : Except ε α) := ⟨a, rfl⟩

@[simp] theorem not_returns_error {ε α : Type} (e : ε) : ¬ Returns (.error e : Except ε α) := by
  rintro ⟨a, h⟩
  cases h

theorem returns_bind {ε α β : Type} {x : Except ε α} {f : α → Except ε β} :
    Returns (x >>= f) ↔ ∃ a, x = .ok a ∧ Returns (f a) := by
  cases x with
  | error e =>
    constructor
    · intro h
      exact absurd h (not_returns_error e)
    · rintro ⟨a, h, -⟩
      cases h
  | ok a =>
    constructor
    · exact fun h => ⟨a, rfl, h⟩
    · rintro ⟨a', h, hf⟩
      cases h
      exact hf

/-- What is made of a value that was computed is there when the value is. -/
theorem returns_bind_ok {ε α β : Type} {x : Except ε α} {g : α → β} :
    Returns (x >>= fun a => .ok (g a)) ↔ Returns x := by
  rw [returns_bind]
  constructor
  · rintro ⟨a, ha, -⟩
    exact ⟨a, ha⟩
  · rintro ⟨a, ha⟩
    exact ⟨a, ha, returns_ok (g a)⟩

/-- A handler that returns puts at most one event into the queue. -/
def AtMostOne (h : Handled F) : Prop := ∀ c events, h = .ok (c, events) → events.length ≤ 1

theorem AtMostOne.ok {c : Client} {events : List (V2VEvent F)} (h : events.length ≤ 1) :
    AtMostOne (.ok (c, events)) := by
  rintro c' events' heq
  cases heq
  exact h

theorem AtMostOne.error {message : Str} : AtMostOne (.error message : Handled F) := by
  rintro c' events' heq
  cases heq

theorem AtMostOne.bind {α : Type} {x : Except Str α}
    {f : α → Except Str (Client × List (V2VEvent F))} (h : ∀ a, AtMostOne (f a)) :
    AtMostOne (Except.bind x f) := by
  cases x with
  | error e => exact .error
  | ok a => exact h a

/-! ### Tame frames -/

/-- A value that can be sliced: a text or a list. -/
def Sliceable : Json F → Prop
  | .str _ => True
  | .arr _ => True
  | _ => False

/-- A value that `float` takes: a truth value, a number that is not too large, or the text of
one. -/
def Floatable (py : Python F) : Json F → Prop
  | .bool _ => True
  | .int n => Returns (py.floatOfInt n)
  | .float _ => True
  | .str text => Returns (py.floatOfStr text)
  | _ => False

/-- A value that `int` takes: a truth value, a finite number, or the text of an integer. -/
def Intable (py : Python F) : Json F → Prop
  | .bool _ => True
  | .int _ => True
  | .float f => Returns (py.intOfFloat f)
  | .str text => Returns (py.intOfStr text)
  | _ => False

/-- `json.loads` gives a value or a `JSONDecodeError`. -/
def Decodes (py : Python F) (text : Str) : Prop := ∀ message, py.loads text ≠ .raised message

/-- What a message of a known type needs. -/
def TameType (py : Python F) (evt : Fields F) : ServerType → Prop
  | .ttsStarted => ∀ v, get evt "sentence" = some v → Sliceable v
  | .functionCallArgumentsDone =>
    (∀ text, get evt "arguments" = some (.str text) → text ≠ [] → Decodes py text) ∧
      ∀ v, get (asDict (get evt "x_v2v")) "timeout_s" = some v → Floatable py v
  | .itemTruncated =>
    ∀ v, get evt "audio_end_ms" = some v → truthy py v = true → Intable py v
  | .toolCall => ∀ v, get evt "timeout_s" = some v → Floatable py v
  | _ => True

/-- What was decoded is no JSON, or an object whose converted fields are of a type that the
conversion takes. -/
def TameLoaded (py : Python F) : Loaded F → Prop
  | .badJson _ => True
  | .raised _ => False
  | .value (.obj evt) => ∀ type, typeOf evt = some type → TameType py evt type
  | .value _ => False

/-- The frames that a handler returns on: audio, and texts that are decoded to something
tame. -/
def Tame (py : Python F) : Frame → Prop
  | .binary _ => True
  | .text raw => TameLoaded py (py.loads raw)

/-! ### One frame -/

theorem slice_returns_iff (v : Json F) : Returns (slice py v) ↔ Sliceable v := by
  cases v <;> simp [slice, Sliceable]

theorem toFloat_returns_iff (v : Json F) : Returns (toFloat py v) ↔ Floatable py v := by
  cases v <;> simp [toFloat, Floatable]

theorem toInt_returns_iff (v : Json F) : Returns (toInt py v) ↔ Intable py v := by
  cases v <;> simp [toInt, Intable]

theorem timeoutS_returns_iff (fields : Fields F) :
    Returns (timeoutS py fields) ↔ ∀ v, get fields "timeout_s" = some v → Floatable py v := by
  unfold timeoutS
  cases get fields "timeout_s" with
  | none => simp
  | some v => simpa using toFloat_returns_iff v

theorem sentenceLogged_returns_iff (py : Python F) (evt : Fields F) :
    Returns (sentenceLogged py evt) ↔ ∀ v, get evt "sentence" = some v → Sliceable v := by
  unfold sentenceLogged
  cases get evt "sentence" with
  | none => simp [slice]
  | some v => simpa using slice_returns_iff v

theorem audioEndMs_returns_iff (evt : Fields F) :
    Returns (audioEndMs py evt) ↔
      ∀ v, get evt "audio_end_ms" = some v → truthy py v = true → Intable py v := by
  unfold audioEndMs firstTrue
  cases get evt "audio_end_ms" with
  | none => simp
  | some v =>
    cases htrue : truthy py v with
    | false => simp [htrue]
    | true => simpa [htrue] using toInt_returns_iff v

theorem decodeArguments_returns_iff (text : Str) :
    Returns (decodeArguments py text) ↔ Decodes py text := by
  unfold decodeArguments Decodes
  cases py.loads text <;> simp

theorem argumentsOf_returns_iff (v : Json F) :
    Returns (argumentsOf py v) ↔ ∀ text, v = .str text → Decodes py text := by
  cases v with
  | str text => simpa [argumentsOf] using decodeArguments_returns_iff text
  | _ => simp [argumentsOf]

theorem truthy_str {text : Str} : truthy py (.str text) = true ↔ text ≠ [] := by
  cases text <;> simp [truthy]

theorem callArguments_returns_iff (evt : Fields F) :
    Returns (callArguments py evt) ↔
      ∀ text, get evt "arguments" = some (.str text) → text ≠ [] → Decodes py text := by
  have hempty : Returns (argumentsOf py (.str (str "\x7b\x7d"))) := by
    rw [argumentsOf, decodeArguments, py.loads_empty]
    exact returns_ok _
  unfold callArguments firstTrue
  cases get evt "arguments" with
  | none => simpa using hempty
  | some v =>
    cases htrue : truthy py v with
    | false =>
      have hnone : (List.filterMap id [some v]).find? (truthy py) = none := by simp [htrue]
      rw [hnone, Option.getD_none]
      refine iff_of_true hempty fun text hv hne => ?_
      rw [Option.some_inj.mp hv, truthy_str.mpr hne] at htrue
      cases htrue
    | true =>
      have hsome : (List.filterMap id [some v]).find? (truthy py) = some v := by simp [htrue]
      rw [hsome, Option.getD_some, argumentsOf_returns_iff]
      constructor
      · exact fun h text hv _ => h text (Option.some_inj.mp hv)
      · rintro h text rfl
        exact h text rfl (truthy_str.mp htrue)

/-- **A message** is handled without an exception if it has what its type needs. -/
theorem handleType_returns_iff (c : Client) (evt : Fields F) (type : ServerType) :
    Returns (handleType py c evt type) ↔ TameType py evt type := by
  cases type
  case ttsStarted =>
    rw [handleType, TameType, ← sentenceLogged_returns_iff py]
    exact returns_bind_ok
  case functionCallArgumentsDone =>
    rw [handleType, returns_bind, TameType, ← callArguments_returns_iff, ← timeoutS_returns_iff]
    constructor
    · rintro ⟨arguments, hargs, htimeout⟩
      exact ⟨⟨arguments, hargs⟩, returns_bind_ok.mp htimeout⟩
    · rintro ⟨⟨arguments, hargs⟩, htimeout⟩
      exact ⟨arguments, hargs, returns_bind_ok.mpr htimeout⟩
  case itemTruncated =>
    rw [handleType, TameType, ← audioEndMs_returns_iff]
    exact returns_bind_ok
  case toolCall =>
    rw [handleType, TameType, ← timeoutS_returns_iff]
    exact returns_bind_ok
  all_goals exact iff_of_true (returns_ok _) trivial

theorem handleType_atMostOne (c : Client) (evt : Fields F) (type : ServerType) :
    AtMostOne (handleType py c evt type) := by
  cases type
  case ttsStarted => exact .bind fun _ => .ok le_rfl
  case functionCallArgumentsDone => exact .bind fun _ => .bind fun _ => .ok le_rfl
  case itemTruncated => exact .bind fun _ => .ok le_rfl
  case toolCall => exact .bind fun _ => .ok le_rfl
  all_goals exact .ok le_rfl

theorem handleMessage_returns_iff (c : Client) (evt : Fields F) :
    Returns (handleMessage py c evt) ↔ ∀ type, typeOf evt = some type → TameType py evt type := by
  unfold handleMessage
  cases typeOf evt with
  | none => simp
  | some type => simpa using handleType_returns_iff c evt type

theorem handleLoaded_returns_iff (c : Client) (loaded : Loaded F) :
    Returns (handleLoaded py c loaded) ↔ TameLoaded py loaded := by
  cases loaded with
  | badJson message => exact iff_of_true (returns_ok _) trivial
  | raised message => exact iff_of_false (not_returns_error message) id
  | value v =>
    cases v with
    | obj evt => exact handleMessage_returns_iff c evt
    | _ => exact iff_of_false (not_returns_error _) id

theorem handleBinary_returns (c : Client) (data : List UInt8) :
    Returns (handleBinary c data : Handled F) := by
  unfold handleBinary
  cases c.ttsSampleRate with
  | some rate => exact returns_ok _
  | none =>
    dsimp only
    split
    · exact returns_ok _
    · exact returns_ok _

/-- **A frame** is handled without an exception if it is tame. -/
theorem handleFrame_returns_iff (c : Client) (frame : Frame) :
    Returns (handleFrame py c frame) ↔ Tame py frame := by
  cases frame with
  | binary data => exact iff_of_true (handleBinary_returns c data) trivial
  | text raw => exact handleLoaded_returns_iff c (py.loads raw)

theorem handleLoaded_atMostOne (c : Client) (loaded : Loaded F) :
    AtMostOne (handleLoaded py c loaded) := by
  cases loaded with
  | badJson message => exact .ok le_rfl
  | raised message => exact .error
  | value v =>
    cases v with
    | obj evt =>
      rw [handleLoaded, handleMessage]
      split
      · exact handleType_atMostOne c evt _
      · exact .ok (Nat.zero_le 1)
    | _ => exact .error

theorem handleBinary_atMostOne (c : Client) (data : List UInt8) :
    AtMostOne (handleBinary c data : Handled F) := by
  unfold handleBinary
  cases c.ttsSampleRate with
  | some rate => exact .ok le_rfl
  | none =>
    dsimp only
    split
    · exact .ok le_rfl
    · refine .ok ?_
      split
      · exact Nat.zero_le 1
      · exact le_rfl

/-- **At most one event** comes of a frame. -/
theorem handleFrame_atMostOne (c : Client) (frame : Frame) :
    AtMostOne (handleFrame py c frame) := by
  cases frame with
  | binary data => exact handleBinary_atMostOne c data
  | text raw => exact handleLoaded_atMostOne c (py.loads raw)

/-! ### The loop -/

/-- The handlers return on the frames, one after the other; `outs` are the events of each. -/
inductive Handles (py : Python F) : Client → List Frame → Client → List (List (V2VEvent F)) → Prop
  | nil (c : Client) : Handles py c [] c []
  | cons {c c₁ c' : Client} {frame : Frame} {frames : List Frame} {out : List (V2VEvent F)}
      {outs : List (List (V2VEvent F))} : handleFrame py c frame = .ok (c₁, out) →
      out.length ≤ 1 → Handles py c₁ frames c' outs →
      Handles py c (frame :: frames) c' (out :: outs)

/-- All frames have been read, the queue has the events of each in order, and the reader goes
on. -/
def Survives (py : Python F) (c : Client) (queue : List (V2VEvent F)) (frames : List Frame) :
    Prop :=
  ∃ c' outs, Handles py c frames c' outs ∧
    readerLoop py ⟨c, queue, false⟩ frames = ⟨c', queue ++ outs.flatten, false⟩

variable {c c' : Client} {queue : List (V2VEvent F)} {frames : List Frame}
  {outs : List (List (V2VEvent F))}

theorem readFrame_ok {c₁ : Client} {frame : Frame} {out : List (V2VEvent F)}
    (h : handleFrame py c frame = .ok (c₁, out)) :
    readFrame py ⟨c, queue, false⟩ frame = ⟨c₁, queue ++ out, false⟩ := by
  rw [readFrame, if_neg Bool.false_ne_true, h]

theorem readFrame_error {frame : Frame} {message : Str}
    (h : handleFrame py c frame = .error message) :
    readFrame py ⟨c, queue, false⟩ frame = ⟨c, queue ++ [.slvError message], true⟩ := by
  rw [readFrame, if_neg Bool.false_ne_true, h]

/-- An ended reader reads no more. -/
theorem readerLoop_done {r : Reader F} (h : r.done = true) : readerLoop py r frames = r := by
  induction frames with
  | nil => rfl
  | cons frame frames ih =>
    have hread : readFrame py r frame = r := by rw [readFrame, if_pos h]
    rw [readerLoop, List.foldl_cons, hread]
    exact ih

theorem Handles.readerLoop (h : Handles py c frames c' outs) :
    readerLoop py ⟨c, queue, false⟩ frames = ⟨c', queue ++ outs.flatten, false⟩ := by
  induction h generalizing queue with
  | nil c => rw [List.flatten_nil, List.append_nil, SlvClient.readerLoop, List.foldl_nil]
  | cons hframe _ _ ih =>
    rw [SlvClient.readerLoop, List.foldl_cons, readFrame_ok hframe, List.flatten_cons,
      ← List.append_assoc]
    exact ih

/-- Tame frames are handled one after the other. -/
theorem exists_handles (h : ∀ frame ∈ frames, Tame py frame) (c : Client) :
    ∃ c' outs, Handles py c frames c' outs := by
  induction frames generalizing c with
  | nil => exact ⟨c, [], .nil c⟩
  | cons frame frames ih =>
    obtain ⟨⟨c₁, out⟩, hframe⟩ :=
      (handleFrame_returns_iff c frame).mpr (h frame List.mem_cons_self)
    obtain ⟨c', outs, hrest⟩ := ih (fun f hf => h f (List.mem_cons_of_mem frame hf)) c₁
    exact ⟨c', out :: outs, .cons hframe (handleFrame_atMostOne c frame c₁ out hframe) hrest⟩

theorem Handles.tame (h : Handles py c frames c' outs) : ∀ frame ∈ frames, Tame py frame := by
  induction h with
  | nil c => exact fun _ hmem => absurd hmem List.not_mem_nil
  | cons hframe _ _ ih =>
    intro f hf
    rcases List.mem_cons.mp hf with rfl | hrest
    · exact (handleFrame_returns_iff _ f).mp ⟨_, hframe⟩
    · exact ih f hrest

/-- **At the first frame that is not tame** the reader reports the exception and ends: the
events of the frames before it are delivered, and nothing that comes after it is. -/
theorem readerLoop_stops (c : Client) (queue : List (V2VEvent F)) (after : List Frame)
    {frame : Frame} (hbefore : ∀ f ∈ frames, Tame py f) (hframe : ¬ Tame py frame) :
    ∃ c' outs message, Handles py c frames c' outs ∧
      readerLoop py ⟨c, queue, false⟩ (frames ++ frame :: after) =
        ⟨c', queue ++ outs.flatten ++ [.slvError message], true⟩ := by
  obtain ⟨c', outs, hhandles⟩ := exists_handles hbefore c
  cases hhandled : handleFrame py c' frame with
  | ok out => exact absurd ((handleFrame_returns_iff c' frame).mp ⟨out, hhandled⟩) hframe
  | error message =>
    have hfirst : frames.foldl (readFrame py) ⟨c, queue, false⟩ =
        ⟨c', queue ++ outs.flatten, false⟩ := hhandles.readerLoop
    refine ⟨c', outs, message, hhandles, ?_⟩
    rw [SlvClient.readerLoop, List.foldl_append, hfirst, List.foldl_cons,
      readFrame_error hhandled]
    exact readerLoop_done rfl

/-- **The reader survives exactly the tame frames**: the handlers return, each with at most one
event, and the events are delivered in order. -/
theorem survives_iff (py : Python F) (c : Client) (queue : List (V2VEvent F))
    (frames : List Frame) : Survives py c queue frames ↔ ∀ frame ∈ frames, Tame py frame := by
  constructor
  · rintro ⟨c', outs, hhandles, -⟩
    exact hhandles.tame
  · intro h
    obtain ⟨c', outs, hhandles⟩ := exists_handles h c
    exact ⟨c', outs, hhandles, hhandles.readerLoop⟩

/-- The library on the texts below; there is one float. -/
def samplePython : Python Unit where
  loads text :=
    if text = str "\x7b\x7d" then .value (.obj [])
    else if text = str "[]" then .value (.arr [])
    else if text = str "\x7b\"type\": \"tts_done\"\x7d" then
      .value (.obj [(str "type", .str (str "tts_done"))])
    else .badJson (str "Expecting value: line 1 column 1 (char 0)")
  repr _ := []
  isZero _ := false
  floatOfBool _ := ()
  floatOfInt _ := .ok ()
  floatOfStr _ := .error []
  intOfFloat _ := .ok 0
  intOfStr _ := .error []
  defaultTimeout := ()
  wrongType _ _ := str "'list' object has no attribute 'get'"
  loads_empty := rfl

/-- An object without a type is passed over, and at the list after it the reader ends. -/
theorem readerLoop_stops_list :
    ∃ c' outs message, Handles samplePython ⟨none, none, none⟩ [.text (str "\x7b\x7d")] c' outs ∧
      readerLoop samplePython ⟨⟨none, none, none⟩, [], false⟩
        ([.text (str "\x7b\x7d")] ++ .text (str "[]") ::
          [.text (str "\x7b\"type\": \"tts_done\"\x7d")]) =
        ⟨c', [] ++ outs.flatten ++ [.slvError message], true⟩ := by
  refine readerLoop_stops _ _ _ (fun f hf => ?_) id
  obtain rfl := List.mem_singleton.mp hf
  intro type htype
  cases htype

/-- One empty list, and the well-formed message after it is not delivered. -/
theorem reader_crashes :
    ¬ (∀ (c : Client) (queue : List (V2VEvent Unit)) (frames : List Frame),
      Survives samplePython c queue frames) ∧
    readerLoop samplePython ⟨⟨none, none, none⟩, [], false⟩
      [.text (str "[]"), .text (str "\x7b\"type\": \"tts_done\"\x7d")] =
      ⟨⟨none, none, none⟩, [.slvError (str "'list' object has no attribute 'get'")], true⟩ := by
  have hrun : readerLoop samplePython ⟨⟨none, none, none⟩, [], false⟩
      [.text (str "[]"), .text (str "\x7b\"type\": \"tts_done\"\x7d")] =
      ⟨⟨none, none, none⟩, [.slvError (str "'list' object has no attribute 'get'")], true⟩ := rfl
  refine ⟨fun h => ?_, hrun⟩
  obtain ⟨c', outs, -, hloop⟩ := h ⟨none, none, none⟩ []
    [.text (str "[]"), .text (str "\x7b\"type\": \"tts_done\"\x7d")]
  rw [hrun] at hloop
  have hdone : true = false := congrArg Reader.done hloop
  cases hdone

end SlvClient
end OpenVoiceStream
