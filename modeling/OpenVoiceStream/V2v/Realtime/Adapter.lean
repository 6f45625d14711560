import OpenVoiceStream.Base.Machine
import OpenVoiceStream.Base.Value

/-!
# The realtime V2 event adapter

`RealtimeV2EventAdapter` turns the JSON events of the local engine (the V1
dialect) into the canonical V2 events of one session.  It owns the ids of the
response that is open and of its audio item, and opens a response lazily, at the
first engine event that needs one.

## Main definitions

* `Body`, `Event` — the canonical events.
* `Adapter` — the fields of the adapter.
* `Adapter.translate` — the events for one engine event.
-/

namespace OpenVoiceStream.V2v.Realtime

/-! ### Engine events -/

def serverAsrPartial := "asr_partial"
def serverAsrEndpoint := "asr_endpoint"
def serverAsrFinal := "asr_final"
def serverTtsStarted := "tts_started"
def serverTtsSentenceDone := "tts_sentence_done"
def serverTtsDone := "tts_done"
def serverVadEvent := "vad_event"
def serverError := "error"
def serverToolCall := "tool_call"
def vadEventSpeechStart := "speech_start"

/-- The branches of `translate`, by the `type` of the engine event. -/
inductive Kind
  /-- Already in canonical form: passed on. -/
  | canonical
  | ttsStarted
  | ttsSentenceDone
  | ttsDone
  | vadEvent
  | asrEndpoint
  | asrPartial
  | asrFinal
  | toolCall
  | error
  /-- Any other type, or none: passed on. -/
  | extension
  deriving DecidableEq, Repr

/-- Types of the canonical vocabulary. -/
def isCanonical (typ : String) : Bool :=
  "session.".toList.isPrefixOf typ.toList
    || "response.".toList.isPrefixOf typ.toList
    || "input_audio_buffer.".toList.isPrefixOf typ.toList
    || "conversation.item.".toList.isPrefixOf typ.toList

/-- The branch `translate` takes, its tests in the order it makes them. -/
def kindOf (payload : Dict) : Kind :=
  match payload.get "type" with
  | .str typ =>
    if isCanonical typ then .canonical
    else if typ = serverTtsStarted then .ttsStarted
    else if typ = serverTtsSentenceDone then .ttsSentenceDone
    else if typ = serverTtsDone then .ttsDone
    else if typ = serverVadEvent then .vadEvent
    else if typ = serverAsrEndpoint then .asrEndpoint
    else if typ = serverAsrPartial then .asrPartial
    else if typ = serverAsrFinal then .asrFinal
    else if typ = serverToolCall then .toolCall
    else if typ = serverError then .error
    else .extension
  | _ => .extension

/-! ### Canonical events -/

/-- The status of a response. -/
inductive Status
  | completed
  | cancelled
  deriving DecidableEq, Repr

/-- The text of a status. -/
def Status.text : Status → String
  | .completed => "completed"
  | .cancelled => "cancelled"

/-- The `item` of a `response.output_item.added`. -/
inductive Item
  /-- The assistant's message, whose content is the audio. -/
  | message (id : Option String)
  | functionCall (id callId : String) (name : Value)

/-- The id of an item. -/
def Item.id : Item → Option String
  | message id => id
  | functionCall id _ _ => some id

/-- A canonical event without its `event_id`: the type is the constructor, and
the constant fields of the wire format are left out. -/
inductive Body
  /-- `response.created`, with `metadata.x_v2v.direct_speak`. -/
  | responseCreated (id : String) (directSpeak : Bool)
  /-- `response.output_item.added`. -/
  | outputItemAdded (responseId : Option String) (outputIndex : ℕ) (item : Item)
  /-- `response.output_audio_transcript.delta`. -/
  | audioTranscriptDelta (responseId itemId : Option String) (outputIndex : ℕ) (delta : String)
  /-- `response.output_audio_transcript.done`. -/
  | audioTranscriptDone (responseId : String) (itemId : Option String) (outputIndex : ℕ)
      (transcript : String)
  /-- `response.output_audio.done`. -/
  | audioDone (responseId : String) (itemId : Option String) (outputIndex : ℕ)
  /-- `response.done`, with the type and the reason of its `status_details`. -/
  | responseDone (id : String) (status : Status) (details : Option (String × String))
  /-- `response.function_call_arguments.done`. -/
  | functionCallArgumentsDone (responseId : Option String) (itemId : String) (outputIndex : ℕ)
      (callId : String) (name : Value) (arguments : String) (timeout : Value)
  /-- `x_v2v.tts_sentence.started`. -/
  | sentenceStarted (responseId : Option String) (sentence : Value)
  /-- `x_v2v.tts_sentence.done`. -/
  | sentenceDone (responseId : Option String) (sentence : String)
  /-- `input_audio_buffer.speech_started`. -/
  | speechStarted (itemId : Option String)
  /-- `input_audio_buffer.speech_stopped`. -/
  | speechStopped (itemId : Option String)
  /-- `input_audio_buffer.committed`. -/
  | committed (itemId : Option String)
  /-- `conversation.item.input_audio_transcription.delta`. -/
  | transcriptionDelta (itemId : Option String) (delta : Value) (isStable : Bool)
  /-- `conversation.item.input_audio_transcription.completed`. -/
  | transcriptionCompleted (itemId : Option String) (transcript : Value) (language : Option Value)
  /-- `error`. -/
  | error (error : Dict)

/-- A canonical event. -/
inductive Event
  /-- An event the adapter builds. -/
  | emitted (eventId : String) (body : Body)
  /-- An engine event passed on as it is, its `event_id` filled in. -/
  | passed (fields : Dict)

/-! ### The adapter -/

/-- The fields of the adapter that `translate` and the marks read or write. -/
structure Adapter where
  /-- How often `id_factory` has been called. -/
  drawn : ℕ
  sessionId : String
  activeResponseId : Option String := none
  activeItemId : Option String := none
  activeStatus : Status := .completed
  activeReason : Option String := none
  inputItemId : Option String := none
  audioItemAnnounced : Bool := false
  directSpeak : Bool := false
  outputItemCount : ℕ := 0
  activeAudioOutputIndex : ℕ := 0
  activeTranscript : List String := []

namespace Adapter

-- The id factory: what its call number `n` answers for a kind of id.
variable (ids : ℕ → String → String) (py : Builtins)

/-- `__post_init__`: a new adapter has drawn its session id. -/
def new : Adapter := { drawn := 1, sessionId := ids 0 "sess" }

/-- An event is built: its `event_id` is drawn. -/
def emit (a : Adapter) (body : Body) : Adapter × Event :=
  ({ a with drawn := a.drawn + 1 }, .emitted (ids a.drawn "evt") body)

/-- `dict(payload)` with its `event_id` filled in: an id is drawn in any case. -/
def pass (a : Adapter) (payload : Dict) : Adapter × List Event :=
  ({ a with drawn := a.drawn + 1 },
    [.passed (payload.setdefault "event_id" (.str (ids a.drawn "evt")))])

/-- `mark_cancelled`. -/
def markCancelled (a : Adapter) (reason : String) : Adapter :=
  if a.activeResponseId.isSome then
    { a with activeStatus := .cancelled, activeReason := some reason }
  else a

/-- `mark_direct_speak`. -/
def markDirectSpeak (a : Adapter) : Adapter := { a with directSpeak := true }

/-- `_ensure_response_created`. -/
def ensureResponseCreated (a : Adapter) : Adapter × List Event :=
  match a.activeResponseId with
  | some _ => (a, [])
  | none =>
    let resp := ids a.drawn "resp"
    let (a, created) := emit ids
      { a with
        drawn := a.drawn + 2
        activeResponseId := some resp
        activeItemId := some (ids (a.drawn + 1) "item")
        activeStatus := .completed
        activeReason := none
        activeTranscript := [] }
      (.responseCreated resp a.directSpeak)
    (a, [created])

/-- `_ensure_audio_item_added`. -/
def ensureAudioItemAdded (a : Adapter) : Adapter × List Event :=
  let (a, events) := ensureResponseCreated ids a
  if a.audioItemAnnounced then (a, events)
  else
    let (a, added) := emit ids
      { a with
        audioItemAnnounced := true
        activeAudioOutputIndex := a.outputItemCount
        outputItemCount := a.outputItemCount + 1 }
      (.outputItemAdded a.activeResponseId a.outputItemCount (.message a.activeItemId))
    (a, events ++ [added])

/-- The two events that end the audio item, if it was announced. -/
def finishAudio (a : Adapter) (responseId : String) : Adapter × List Event :=
  if a.audioItemAnnounced then
    let (a, transcriptDone) := emit ids a (.audioTranscriptDone responseId a.activeItemId
      a.activeAudioOutputIndex (String.join a.activeTranscript))
    let (a, audioDone) := emit ids a
      (.audioDone responseId a.activeItemId a.activeAudioOutputIndex)
    (a, [transcriptDone, audioDone])
  else (a, [])

/-- The `status_details` of a `response.done`: `reason or status`. -/
def statusDetails (status : Status) (reason : Option String) : Option (String × String) :=
  match status with
  | .completed => none
  | .cancelled => some (status.text,
      if reason.getD "" = "" then status.text else reason.getD "")

/-- The fields of a response are back as they were before it. -/
def reset (a : Adapter) : Adapter :=
  { a with
    activeResponseId := none
    activeItemId := none
    activeStatus := .completed
    activeReason := none
    audioItemAnnounced := false
    directSpeak := false
    outputItemCount := 0
    activeAudioOutputIndex := 0
    activeTranscript := [] }

/-- `_finish_response`. -/
def finishResponse (a : Adapter) : Adapter × List Event :=
  let (a, events) := ensureResponseCreated ids a
  let responseId := a.activeResponseId.getD ""
  let (a, audio) := finishAudio ids a responseId
  let (a, done) := emit ids a
    (.responseDone responseId a.activeStatus (statusDetails a.activeStatus a.activeReason))
  (a.reset, events ++ audio ++ [done])

/-- `self.input_item_id = self.input_item_id or self.id_factory("item")`. -/
def ensureInputItem (a : Adapter) : Adapter :=
  if a.inputItemId.getD "" = "" then
    { a with drawn := a.drawn + 1, inputItemId := some (ids a.drawn "item") }
  else a

/-- `tts_started`. -/
def ttsStarted (a : Adapter) (payload : Dict) : Adapter × List Event :=
  let (a, events) := ensureAudioItemAdded ids a
  let (a, started) := emit ids a
    (.sentenceStarted a.activeResponseId (payload.getD "sentence" (.str "")))
  (a, events ++ [started])

/-- `tts_sentence_done`: no response is opened for it. -/
def ttsSentenceDone (a : Adapter) (payload : Dict) : Adapter × List Event :=
  let sentence := py.str ((payload.get "sentence").or (.str ""))
  let a := { a with activeTranscript := a.activeTranscript ++ [sentence] }
  let (a, delta) := emit ids a (.audioTranscriptDelta a.activeResponseId a.activeItemId
    a.activeAudioOutputIndex sentence)
  let (a, done) := emit ids a (.sentenceDone a.activeResponseId sentence)
  (a, [delta, done])

/-- `session_complete is True`. -/
def sessionComplete (payload : Dict) : Bool :=
  match payload.get "session_complete" with
  | .bool b => b
  | _ => false

/-- `tts_done`: the extra one at the end of a session ends no response. -/
def ttsDone (a : Adapter) (payload : Dict) : Adapter × List Event :=
  if a.activeResponseId.isNone && sessionComplete payload then (a, [])
  else finishResponse ids a

/-- `payload.get("event") == VAD_EVENT_SPEECH_START`. -/
def speechStarts (payload : Dict) : Bool := (payload.get "event").isText vadEventSpeechStart

/-- `vad_event`: the start of speech opens the next input item. -/
def vadEvent (a : Adapter) (payload : Dict) : Adapter × List Event :=
  let a := if speechStarts payload then
      { a with drawn := a.drawn + 1, inputItemId := some (ids a.drawn "item") }
    else a
  let (a, event) := emit ids a
    (if speechStarts payload then .speechStarted a.inputItemId else .speechStopped a.inputItemId)
  (a, [event])

/-- `asr_endpoint`. -/
def asrEndpoint (a : Adapter) : Adapter × List Event :=
  let a := ensureInputItem ids a
  let (a, event) := emit ids a (.committed a.inputItemId)
  (a, [event])

/-- `asr_partial`. -/
def asrPartial (a : Adapter) (payload : Dict) : Adapter × List Event :=
  let a := ensureInputItem ids a
  let (a, event) := emit ids a (.transcriptionDelta a.inputItemId
    (payload.getD "text" (.str "")) (payload.getD "is_stable" (.bool false)).truthy)
  (a, [event])

/-- `asr_final`: the input item is over. -/
def asrFinal (a : Adapter) (payload : Dict) : Adapter × List Event :=
  let a := ensureInputItem ids a
  let (a, event) := emit ids a (.transcriptionCompleted a.inputItemId
    (payload.getD "text" (.str ""))
    (if (payload.get "language").truthy then some (payload.get "language") else none))
  ({ a with inputItemId := none }, [event])

/-- The JSON text of a tool call's arguments. -/
def argumentsJson : Value → String
  | .str arguments => arguments
  | .dict arguments => py.dumps arguments
  | _ => py.dumps []

/-- `tool_call`: a function-call item of its own, in a response that is opened
for it if none is open. -/
def toolCall (a : Adapter) (payload : Dict) : Adapter × List Event :=
  let (a, events) := ensureResponseCreated ids a
  let callId := py.str (((payload.get "call_id").or (payload.get "id")).or (.str ""))
  let itemId := ids a.drawn "item"
  let outputIndex := a.outputItemCount
  let name := payload.getD "name" (.str "")
  let (a, added) := emit ids { a with drawn := a.drawn + 1, outputItemCount := outputIndex + 1 }
    (.outputItemAdded a.activeResponseId outputIndex (.functionCall itemId callId name))
  let (a, done) := emit ids a (.functionCallArgumentsDone a.activeResponseId itemId outputIndex
    callId name (argumentsJson py (payload.get "arguments"))
    (payload.getD "timeout_s" (.float 15)))
  (a, events ++ [added, done])

/-- The `error` object of an engine error. -/
def errorOf (payload : Dict) : Dict :=
  match payload.get "error" with
  | .dict raw => raw
  | raw =>
    let code := payload.get "code"
    [("type", .str "server_error"),
      ("code", code.or (.str (py.str (raw.or (.str "unknown_error"))))),
      ("message", .str (py.str (raw.or (.str "unknown server error")))),
      ("param", payload.get "param")]

/-- `error`. -/
def error (a : Adapter) (payload : Dict) : Adapter × List Event :=
  let (a, event) := emit ids a (.error (errorOf py payload))
  (a, [event])

/-- `translate`: the canonical events for one engine event. -/
def translate (a : Adapter) (payload : Dict) : Adapter × List Event :=
  match kindOf payload with
  | .canonical => pass ids a payload
  | .ttsStarted => ttsStarted ids a payload
  | .ttsSentenceDone => ttsSentenceDone ids py a payload
  | .ttsDone => ttsDone ids a payload
  | .vadEvent => vadEvent ids a payload
  | .asrEndpoint => asrEndpoint ids a
  | .asrPartial => asrPartial ids a payload
  | .asrFinal => asrFinal ids a payload
  | .toolCall => toolCall ids py a payload
  | .error => error ids py a payload
  | .extension => pass ids a payload

end Adapter

end OpenVoiceStream.V2v.Realtime
