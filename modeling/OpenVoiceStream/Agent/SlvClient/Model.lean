import Mathlib.Algebra.Order.Ring.Int

/-!
# The frames of the server

`SLVClient` reads the frames that the server sends over one WebSocket: `_handle_binary` takes
the audio, `_handle_json` turns a JSON message into an event, and `_reader_loop` goes from one
frame to the next until a handler raises.

What Python's library does with texts and numbers is a parameter, and so are the texts of its
exceptions.

## Main definitions

* `Json`, `Python` — JSON values, and what the library does with them.
* `V2VEvent`, `Client` — the events, and what the handlers read and write.
* `handleBinary`, `handleJson` — the handlers.
* `readerLoop` — the loop.
-/

namespace OpenVoiceStream
namespace SlvClient

/-! ### Values -/

/-- A `str` of Python: code points, which may be surrogates. -/
abbrev Str := List ℕ

/-- A text of the source. -/
def str (text : String) : Str := text.toList.map Char.toNat

/-- What `json.loads` returns, with floats of this type. -/
inductive Json (F : Type)
  | null
  | bool (b : Bool)
  | int (n : ℤ)
  | float (f : F)
  | str (text : Str)
  | arr (items : List (Json F))
  | obj (fields : List (Str × Json F))

/-- The fields of an object. -/
abbrev Fields (F : Type) := List (Str × Json F)

/-- A call of `json.loads`: a value, a `JSONDecodeError`, or another exception; with its text. -/
inductive Loaded (F : Type)
  | value (json : Json F)
  | badJson (message : Str)
  | raised (message : Str)

/-- What is done with a value that may be of the wrong type. -/
inductive Use
  | get
  | slice
  | float
  | int
  deriving DecidableEq, Repr

/-- Python's library: `json.loads`, `str` of what is not a text, the conversions of numbers and
texts, and what an exception says where a value has the wrong type. -/
structure Python (F : Type) where
  loads : Str → Loaded F
  repr : Json F → Str
  isZero : F → Bool
  floatOfBool : Bool → F
  floatOfInt : ℤ → Except Str F
  floatOfStr : Str → Except Str F
  intOfFloat : F → Except Str ℤ
  intOfStr : Str → Except Str ℤ
  /-- `15.0`. -/
  defaultTimeout : F
  wrongType : Use → Json F → Str
  /-- The text that stands in for missing arguments is an empty object. -/
  loads_empty : loads (str "\x7b\x7d") = .value (.obj [])

variable {F : Type} (py : Python F)

/-- `d.get(key)`, when the key is there. -/
def get (fields : Fields F) (key : String) : Option (Json F) :=
  (fields.find? fun item => decide (item.1 = str key)).map Prod.snd

/-- `bool(v)`. -/
def truthy : Json F → Bool
  | .null => false
  | .bool b => b
  | .int n => decide (n ≠ 0)
  | .float f => !py.isZero f
  | .str text => !text.isEmpty
  | .arr items => !items.isEmpty
  | .obj fields => !fields.isEmpty

/-- `str(v)`. -/
def toStr : Json F → Str
  | .str text => text
  | v => py.repr v

/-- The first of some values that is there and true: `a or b`. -/
def firstTrue (values : List (Option (Json F))) : Option (Json F) :=
  (values.filterMap id).find? (truthy py)

/-- `str(a or b or default)`. -/
def strOr (values : List (Option (Json F))) (default : String) : Str :=
  ((firstTrue py values).map (toStr py)).getD (str default)

/-- `bool(d.get(key, default))`. -/
def flag (fields : Fields F) (key : String) (default : Bool) : Bool :=
  ((get fields key).map (truthy py)).getD default

/-- `v if isinstance(v, dict) else {}`. -/
def asDict : Option (Json F) → Fields F
  | some (.obj fields) => fields
  | _ => []

/-- `v == text`. -/
def isText (v : Option (Json F)) (text : String) : Bool :=
  match v with
  | some (.str s) => decide (s = str text)
  | _ => false

/-- `v[:80]`, which is only logged. -/
def slice : Json F → Except Str Unit
  | .str _ => .ok ()
  | .arr _ => .ok ()
  | v => .error (py.wrongType .slice v)

/-- `float(v)`. -/
def toFloat : Json F → Except Str F
  | .bool b => .ok (py.floatOfBool b)
  | .int n => py.floatOfInt n
  | .float f => .ok f
  | .str text => py.floatOfStr text
  | v => .error (py.wrongType .float v)

/-- `int(v)`. -/
def toInt : Json F → Except Str ℤ
  | .bool b => .ok (if b then 1 else 0)
  | .int n => .ok n
  | .float f => py.intOfFloat f
  | .str text => py.intOfStr text
  | v => .error (py.wrongType .int v)

/-- `float(d.get("timeout_s", 15.0))`. -/
def timeoutS (fields : Fields F) : Except Str F :=
  match get fields "timeout_s" with
  | some v => toFloat py v
  | none => .ok py.defaultTimeout

/-! ### Events -/

/-- `V2VEvent`. -/
inductive V2VEvent (F : Type)
  | sessionCreated (sessionId : Str) (session : Fields F)
  | sessionUpdated (sessionId : Str) (session : Fields F)
  | responseCreated (responseId : Str) (response : Fields F)
  | responseOutputAudioDone (responseId : Str)
  | assistantTranscriptDelta (responseId delta : Str)
  | assistantTranscriptDone (responseId transcript : Str)
  | responseOutputItemAdded (responseId : Str) (item : Fields F)
  | responseDone (responseId status : Str) (response : Fields F)
  | inputAudioSpeechStarted (itemId : Str)
  | inputAudioSpeechStopped (itemId : Str)
  | inputAudioCommitted (itemId : Str)
  | conversationItemTruncated (itemId : Str) (audioEndMs : ℤ)
  | conversationResetDone
  | asrPartial (text : Json F) (isStable : Bool)
  | asrEndpoint
  | asrFinal (text : Json F) (sessionComplete duplicateOfStreamed : Bool) (language : Json F)
  | ttsStarted (sentence : Json F)
  | ttsSentenceDone (sentence : Json F)
  | ttsDone (sessionComplete : Bool)
  | ttsAudio (pcm : List UInt8) (sampleRate : ℤ)
  | slvError (message : Str)
  | serverToolCall (id name : Str) (arguments : Fields F) (timeoutS : F)

/-- What the handlers read and write of the client. -/
structure Client where
  ttsSampleRate : Option ℤ
  activeResponseId : Option Str
  activeOutputItemId : Option Str
  deriving DecidableEq, Repr

/-- What a handler does: the client after it and what it puts into the queue, or an exception. -/
abbrev Handled (F : Type) := Except Str (Client × List (V2VEvent F))

/-! ### Audio -/

/-- `struct.unpack("<I", data[:4])`. -/
def unpackRate (data : List UInt8) : ℤ :=
  (data.take 4).foldr (fun byte rate => byte.toNat + 256 * rate) 0

/-- `_handle_binary`. -/
def handleBinary (c : Client) (data : List UInt8) : Handled F :=
  match c.ttsSampleRate with
  | none =>
    if data.length < 4 then .ok (c, [.slvError (str "first binary frame < 4 bytes")])
    else
      let rate := unpackRate data
      .ok ({ c with ttsSampleRate := some rate },
        if data.drop 4 = [] then [] else [.ttsAudio (data.drop 4) rate])
  | some rate => .ok (c, [.ttsAudio data rate])

/-! ### Messages -/

/-- The types of the messages that are handled. -/
inductive ServerType
  | asrPartial
  | asrEndpoint
  | asrFinal
  | ttsStarted
  | ttsSentenceDone
  | ttsDone
  | speechStarted
  | speechStopped
  | committed
  | transcriptionDelta
  | transcriptionCompleted
  | sessionCreated
  | sessionUpdated
  | responseCreated
  | outputAudioDone
  | transcriptDelta
  | transcriptDone
  | responseDone
  | outputItemAdded
  | functionCallArgumentsDone
  | itemTruncated
  | resetDone
  | sentenceStarted
  | sentenceDone
  | toolCall
  | error
  deriving DecidableEq, Repr

/-- The values of `type` for them. -/
def serverTypes : List (Str × ServerType) :=
  [(str "asr_partial", .asrPartial),
    (str "asr_endpoint", .asrEndpoint),
    (str "asr_final", .asrFinal),
    (str "tts_started", .ttsStarted),
    (str "tts_sentence_done", .ttsSentenceDone),
    (str "tts_done", .ttsDone),
    (str "input_audio_buffer.speech_started", .speechStarted),
    (str "input_audio_buffer.speech_stopped", .speechStopped),
    (str "input_audio_buffer.committed", .committed),
    (str "conversation.item.input_audio_transcription.delta", .transcriptionDelta),
    (str "conversation.item.input_audio_transcription.completed", .transcriptionCompleted),
    (str "session.created", .sessionCreated),
    (str "session.updated", .sessionUpdated),
    (str "response.created", .responseCreated),
    (str "response.output_audio.done", .outputAudioDone),
    (str "response.output_audio_transcript.delta", .transcriptDelta),
    (str "response.output_audio_transcript.done", .transcriptDone),
    (str "response.done", .responseDone),
    (str "response.output_item.added", .outputItemAdded),
    (str "response.function_call_arguments.done", .functionCallArgumentsDone),
    (str "conversation.item.truncated", .itemTruncated),
    (str "x_v2v.conversation.reset.done", .resetDone),
    (str "x_v2v.tts_sentence.started", .sentenceStarted),
    (str "x_v2v.tts_sentence.done", .sentenceDone),
    (str "tool_call", .toolCall),
    (str "error", .error)]

/-- The type of a message, when it is one that is handled. -/
def typeOf (evt : Fields F) : Option ServerType :=
  match get evt "type" with
  | some (.str text) => (serverTypes.find? fun item => decide (item.1 = text)).map Prod.snd
  | _ => none

/-- Arguments that came as a text; what is no JSON, or no object, is none. -/
def decodeArguments (text : Str) : Except Str (Fields F) :=
  match py.loads text with
  | .value v => .ok (asDict (some v))
  | .badJson _ => .ok []
  | .raised message => .error message

/-- Arguments that are a text are decoded, others are taken as they are. -/
def argumentsOf : Json F → Except Str (Fields F)
  | .str text => decodeArguments py text
  | v => .ok (asDict (some v))

/-- The arguments of a function call. -/
def callArguments (evt : Fields F) : Except Str (Fields F) :=
  argumentsOf py ((firstTrue py [get evt "arguments"]).getD (.str (str "\x7b\x7d")))

/-- `int(evt.get("audio_end_ms") or 0)`. -/
def audioEndMs (evt : Fields F) : Except Str ℤ :=
  match firstTrue py [get evt "audio_end_ms"] with
  | some v => toInt py v
  | none => .ok 0

/-- `evt.get("sentence", "")[:80]`. -/
def sentenceLogged (evt : Fields F) : Except Str Unit :=
  slice py ((get evt "sentence").getD (.str []))

/-- The id of a tool call: `str(evt.get("call_id") or evt.get("id", ""))`. -/
def toolCallId (evt : Fields F) : Str :=
  match firstTrue py [get evt "call_id"] with
  | some v => toStr py v
  | none => ((get evt "id").map (toStr py)).getD []

/-- The message of an error: of the object that `error` is, or `error` itself. -/
def errorMessage (evt : Fields F) : Str :=
  match get evt "error" with
  | some (.obj error) => strOr py [get error "message", get error "code"] "unknown"
  | some v => toStr py v
  | none => str "unknown"

/-- One message of a known type. -/
def handleType (c : Client) (evt : Fields F) :
    ServerType → Except Str (Client × List (V2VEvent F))
  | .asrPartial =>
    .ok (c, [.asrPartial ((get evt "text").getD (.str [])) (flag py evt "is_stable" false)])
  | .asrEndpoint => .ok (c, [.asrEndpoint])
  | .asrFinal =>
    .ok (c, [.asrFinal ((get evt "text").getD (.str [])) (flag py evt "session_complete" true)
      (flag py evt "duplicate_of_streamed" false) ((get evt "language").getD .null)])
  | .ttsStarted => do
    sentenceLogged py evt
    .ok (c, [.ttsStarted ((get evt "sentence").getD (.str []))])
  | .ttsSentenceDone => .ok (c, [.ttsSentenceDone ((get evt "sentence").getD (.str []))])
  | .ttsDone => .ok (c, [.ttsDone (flag py evt "session_complete" true)])
  | .speechStarted => .ok (c, [.inputAudioSpeechStarted (strOr py [get evt "item_id"] "")])
  | .speechStopped => .ok (c, [.inputAudioSpeechStopped (strOr py [get evt "item_id"] "")])
  | .committed => .ok (c, [.inputAudioCommitted (strOr py [get evt "item_id"] "")])
  | .transcriptionDelta =>
    .ok (c, [.asrPartial (.str (strOr py [get evt "delta"] "")) (flag py evt "is_stable" false)])
  | .transcriptionCompleted =>
    .ok (c, [.asrFinal (.str (strOr py [get evt "transcript"] "")) false false
      ((get evt "language").getD .null)])
  | .sessionCreated =>
    let session := asDict (get evt "session")
    .ok (c, [.sessionCreated (strOr py [get session "id"] "") session])
  | .sessionUpdated =>
    let session := asDict (get evt "session")
    .ok (c, [.sessionUpdated (strOr py [get session "id"] "") session])
  | .responseCreated =>
    let response := asDict (get evt "response")
    let responseId := strOr py [get response "id", get evt "response_id"] ""
    .ok ({ c with activeResponseId := some responseId }, [.responseCreated responseId response])
  | .outputAudioDone => .ok (c, [.responseOutputAudioDone (strOr py [get evt "response_id"] "")])
  | .transcriptDelta =>
    .ok (c, [.assistantTranscriptDelta (strOr py [get evt "response_id"] "")
      (strOr py [get evt "delta"] "")])
  | .transcriptDone =>
    .ok (c, [.assistantTranscriptDone (strOr py [get evt "response_id"] "")
      (strOr py [get evt "transcript"] "")])
  | .responseDone =>
    let response := asDict (get evt "response")
    let responseId := strOr py [get response "id", get evt "response_id"] ""
    .ok (if some responseId = c.activeResponseId then
        { c with activeResponseId := none, activeOutputItemId := none } else c,
      [.responseDone responseId (strOr py [get response "status"] "completed") response])
  | .outputItemAdded =>
    let item := asDict (get evt "item")
    let itemId := strOr py [get item "id"] ""
    .ok (if isText (get item "type") "message" && isText (get item "role") "assistant" then
        { c with activeOutputItemId := if itemId = [] then none else some itemId } else c,
      [.responseOutputItemAdded (strOr py [get evt "response_id"] "") item])
  | .functionCallArgumentsDone => do
    let arguments ← callArguments py evt
    let timeout ← timeoutS py (asDict (get evt "x_v2v"))
    .ok (c, [.serverToolCall (strOr py [get evt "call_id"] "") (strOr py [get evt "name"] "")
      arguments timeout])
  | .itemTruncated => do
    let endMs ← audioEndMs py evt
    .ok (c, [.conversationItemTruncated (strOr py [get evt "item_id"] "") endMs])
  | .resetDone => .ok (c, [.conversationResetDone])
  | .sentenceStarted => .ok (c, [.ttsStarted (.str (strOr py [get evt "sentence"] ""))])
  | .sentenceDone => .ok (c, [.ttsSentenceDone (.str (strOr py [get evt "sentence"] ""))])
  | .toolCall => do
    let timeout ← timeoutS py evt
    .ok (c, [.serverToolCall (toolCallId py evt) (((get evt "name").map (toStr py)).getD [])
      (asDict (get evt "arguments")) timeout])
  | .error => .ok (c, [.slvError (errorMessage py evt)])

/-- A message that is an object; one of an unknown type is ignored. -/
def handleMessage (c : Client) (evt : Fields F) : Handled F :=
  match typeOf evt with
  | some type => handleType py c evt type
  | none => .ok (c, [])

/-- What was decoded. -/
def handleLoaded (c : Client) : Loaded F → Handled F
  | .badJson message => .ok (c, [.slvError (str "bad json: " ++ message)])
  | .raised message => .error message
  | .value (.obj evt) => handleMessage py c evt
  | .value v => .error (py.wrongType .get v)

/-- `_handle_json`. -/
def handleJson (c : Client) (raw : Str) : Handled F := handleLoaded py c (py.loads raw)

/-! ### The loop -/

/-- A frame. -/
inductive Frame
  | text (raw : Str)
  | binary (data : List UInt8)
  deriving DecidableEq, Repr

/-- The handler of a frame. -/
def handleFrame (c : Client) : Frame → Handled F
  | .text raw => handleJson py c raw
  | .binary data => handleBinary c data

/-- The reader: the client, what it has put into the queue, and whether it has ended. -/
structure Reader (F : Type) where
  client : Client
  queue : List (V2VEvent F)
  done : Bool

/-- One frame in `_reader_loop`: an exception is reported, and ends the loop. -/
def readFrame (r : Reader F) (frame : Frame) : Reader F :=
  if r.done then r
  else
    match handleFrame py r.client frame with
    | .ok (client, events) => ⟨client, r.queue ++ events, false⟩
    | .error message => { r with queue := r.queue ++ [.slvError message], done := true }

/-- `_reader_loop`. -/
def readerLoop (r : Reader F) (frames : List Frame) : Reader F := frames.foldl (readFrame py) r

end SlvClient
end OpenVoiceStream
