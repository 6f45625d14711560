import Mathlib.Data.List.Induction
import OpenVoiceStream.V2v.Tts.Buffer

/-!
# Speech to text over Wyoming

`SlvSttHandler` carries the audio of an utterance to `/asr/stream` and answers its
`audio-stop` with one `Transcript`. Frames that go upstream are whole `int16` samples, so a
byte may stay behind for the next frame.

The upstream is `_asr_stream_backend` without a frontend VAD: it answers a block with
nothing, a partial or, where the backend itself hears an endpoint, a final, and the empty
frame with one more final. Its answers wait on the socket until they are read.

What a connection shows is its trace: the events with the effects each had.

## Main definitions

* `Event`, `Effect` — what arrives, and what is done about it.
* `Handler.handleEvent` — the handler.
* `Utterance`, `utterances` — the utterances a trace consists of.
* `Whole` — what an utterance should look like.

## Main results

* `serve_log` — what the handler and the trace say about each other, over any run.
* `whole_iff` — the utterances that are carried whole.
* `transcript_whole_iff` — every run.
-/

namespace OpenVoiceStream.Wyoming

open V2v.Tts (CharTables strip)

/-! ### The upstream -/

/-- A text message of the socket, as `parse_asr_message` reads it. -/
structure Message where
  error : Bool
  isFinal : Bool
  text : Text
  deriving DecidableEq

/-- What `get_partial` gives after a block. -/
inductive Poll
  | silent
  | partialText (text : Text)
  | endpoint (text : Text)

/-- The final frame for a text. -/
def Message.final (text : Text) : Message := { error := false, isFinal := true, text := text }

/-- The messages for a block; an empty text is not sent. -/
def Poll.messages : Poll → List Message
  | .silent => []
  | .partialText text =>
    if text = [] then [] else [{ error := false, isFinal := false, text := text }]
  | .endpoint text => if text = [] then [] else [Message.final text]

/-! ### The handler -/

/-- A Wyoming event, with what the upstream makes of the frame it leads to: the result of
its poll, or the text of the final for the empty frame. -/
inductive Event
  | describe
  | transcribe (language : Option Text)
  | audioStart (rate : ℕ)
  | audioChunk (rate : ℕ) (audio : List UInt8) (poll : Poll)
  | audioStop (last : Text)
  | other

/-- What an event leads to: a socket is opened with a language and a rate or closed, a frame
is sent, the upstream sends a message, or an event is written. -/
inductive Effect
  | opened (language : Text) (rate : ℕ)
  | closed
  | sent (frame : List UInt8)
  | heard (message : Message)
  | info
  | transcript (text : Text)
  deriving DecidableEq

/-- The fields of the handler. An open socket is the list of the messages that wait on it. -/
structure Handler where
  language : Text
  sampleRate : ℕ
  ws : Option (List Message)
  sentBytes : ℕ
  alignTail : List UInt8

/-- `__init__`. -/
def Handler.init : Handler :=
  { language := "auto".toList, sampleRate := 16000, ws := none, sentBytes := 0, alignTail := [] }

/-- `len(buf) - (len(buf) % 2)`. -/
def usable (buf : List UInt8) : ℕ := buf.length - buf.length % 2

/-- The loop of `_finish_upstream` over the messages of the socket. -/
def readTranscript (u : CharTables) : List Message → Text
  | [] => []
  | message :: rest =>
    if message.error then []
    else if message.isFinal then strip u message.text
    else readTranscript u rest

namespace Handler

variable (u : CharTables) (h : Handler)

/-- `_close_upstream`. -/
def closeUpstream : Handler × List Effect :=
  match h.ws with
  | some _ => ({ h with ws := none }, [.closed])
  | none => (h, [])

/-- `_open_upstream`. -/
def openUpstream : Handler × List Effect :=
  let (h, effects) := h.closeUpstream
  ({ h with ws := some [] }, effects ++ [.opened h.language h.sampleRate])

/-- `ws.send_bytes(frame)`, and the messages the upstream answers with. -/
def sendBytes (inbox : List Message) (frame : List UInt8) (answers : List Message) :
    Handler × List Effect :=
  ({ h with ws := some (inbox ++ answers) }, .sent frame :: answers.map .heard)

/-- `_finish_upstream`: the text, the final for the empty frame being `last`. -/
def finishUpstream (last : Text) : Text × Handler × List Effect :=
  match h.ws with
  | none => ([], h, [])
  | some inbox =>
    let (h, sent) := h.sendBytes inbox [] [Message.final last]
    let (h, closed) := h.closeUpstream
    (readTranscript u (inbox ++ [Message.final last]), h, sent ++ closed)

/-- The part of an `audio-chunk` that needs the socket. -/
def forward (audio : List UInt8) (poll : Poll) : Handler × List Effect :=
  match h.ws with
  | none => (h, [])
  | some inbox =>
    let buf := h.alignTail ++ audio
    let n := usable buf
    let h := { h with alignTail := buf.drop n }
    if n = 0 then (h, [])
    else
      let (h, effects) := h.sendBytes inbox (buf.take n) poll.messages
      ({ h with sentBytes := h.sentBytes + n }, effects)

/-- `handle_event`. -/
def handleEvent : Event → Handler × List Effect
  | .describe => (h, [.info])
  | .transcribe language =>
    match language with
    | some language => if language = [] then (h, []) else ({ h with language := language }, [])
    | none => (h, [])
  | .audioStart rate => { h with sampleRate := rate }.openUpstream
  | .audioChunk rate audio poll =>
    -- some clients skip `audio-start`
    let (h, opening) :=
      if h.ws = none then { h with sampleRate := rate }.openUpstream else (h, [])
    let (h, effects) := h.forward audio poll
    (h, opening ++ effects)
  | .audioStop last =>
    let (text, h, effects) := h.finishUpstream u last
    ({ h with sentBytes := 0, alignTail := [] }, effects ++ [.transcript text])
  | .other => (h, [])

end Handler

/-- The events of a connection with the effects each had, and the handler after them. -/
def serve (u : CharTables) (events : List Event) : Handler × List (Event × List Effect) :=
  events.foldl
    (fun done event =>
      let (h, effects) := done.1.handleEvent u event
      (h, done.2 ++ [(event, effects)]))
    (Handler.init, [])

/-! ### The utterances of a trace -/

/-- The frames among some effects. -/
def frames (effects : List Effect) : List (List UInt8) :=
  effects.filterMap fun
    | .sent frame => some frame
    | _ => none

/-- The messages of the upstream among some effects. -/
def messages (effects : List Effect) : List Message :=
  effects.filterMap fun
    | .heard message => some message
    | _ => none

/-- The texts of the transcripts among some effects. -/
def transcripts (effects : List Effect) : List Text :=
  effects.filterMap fun
    | .transcript text => some text
    | _ => none

/-- An utterance: the payloads of its chunks, what was done about its events, and whether
it was stopped or has been replaced or is still going on. -/
structure Utterance where
  payload : List UInt8
  effects : List Effect
  stopped : Bool

namespace Utterance

/-- An utterance that is about to begin. -/
def fresh : Utterance := { payload := [], effects := [], stopped := false }

/-- The `int16` stream that went upstream. -/
def stream (x : Utterance) : List UInt8 := (frames x.effects).flatten

/-- The texts of the finals the upstream sent. -/
def finals (x : Utterance) : List Text :=
  ((messages x.effects).filter Message.isFinal).map Message.text

end Utterance

/-- The utterances that are over, and the one that is going on. -/
structure Log where
  done : List Utterance
  current : Option Utterance

/-- Reads one event: an `audio-start` begins an utterance and so does a chunk outside one; an
`audio-stop` ends it. -/
def Log.next (log : Log) (item : Event × List Effect) : Log :=
  let x := log.current.getD .fresh
  match item.1 with
  | .audioStart _ =>
    { done := log.done ++ log.current.toList
      current := some { Utterance.fresh with effects := item.2 } }
  | .audioChunk _ audio _ =>
    { log with
      current := some { x with payload := x.payload ++ audio, effects := x.effects ++ item.2 } }
  | .audioStop _ =>
    { done := log.done ++ [{ x with effects := x.effects ++ item.2, stopped := true }]
      current := none }
  | _ => log

/-- The log of a trace. -/
def readLog (trace : List (Event × List Effect)) : Log := trace.foldl Log.next ⟨[], none⟩

/-- The utterances of a trace. -/
def utterances (trace : List (Event × List Effect)) : List Utterance :=
  (readLog trace).done ++ (readLog trace).current.toList

/-! ### What is expected of an utterance -/

/-- The text contains the texts of the finals one behind the other. -/
def Contains (u : CharTables) : Text → List Text → Prop
  | _, [] => True
  | text, final :: rest =>
    ∃ before after, text = before ++ strip u final ++ after ∧ Contains u after rest

/-- The stream that went upstream is the payload, without at most its last byte; a stopped
utterance has one transcript, any other has none; a transcript contains every final. -/
structure Whole (u : CharTables) (x : Utterance) : Prop where
  stream : x.stream = x.payload ∨ x.stream = x.payload.dropLast
  once : (transcripts x.effects).length = if x.stopped then 1 else 0
  contained : ∀ text ∈ transcripts x.effects, Contains u text x.finals

/-- The byte that is left behind by some bytes in frames of whole samples. -/
def leftOver (bytes : List UInt8) : List UInt8 := bytes.drop (usable bytes)

/-- The byte that is carried into the utterance after these: a stopped one carries none. -/
def carried : List Utterance → List UInt8 :=
  List.foldl (fun byte x => if x.stopped then [] else leftOver (byte ++ x.payload)) []

/-- The byte carried into an utterance makes no difference: there is none, or no payload, or
the payload is an even number of copies of it. -/
def Harmless (byte payload : List UInt8) : Prop :=
  byte = [] ∨ payload = [] ∨ (2 ∣ payload.length ∧ ∀ b ∈ payload, byte = [b])

/-! ### Whole samples -/

theorem usable_append {xs ys : List UInt8} (h : xs.length % 2 = 0) :
    usable (xs ++ ys) = xs.length + usable ys := by
  unfold usable
  rw [List.length_append]
  omega

theorem usable_of_length_le {bytes : List UInt8} (h : bytes.length ≤ 1) : usable bytes = 0 := by
  unfold usable
  omega

theorem leftOver_length_le (bytes : List UInt8) : (leftOver bytes).length ≤ 1 := by
  unfold leftOver usable
  rw [List.length_drop]
  omega

theorem leftOver_of_length_le {bytes : List UInt8} (h : bytes.length ≤ 1) :
    leftOver bytes = bytes := by
  rw [leftOver, usable_of_length_le h, List.drop_zero]

/-- Bytes are the frames sent for them and what is left behind. -/
theorem split_usable (bytes more : List UInt8) :
    bytes ++ more = bytes.take (usable bytes) ++ (leftOver bytes ++ more) := by
  rw [leftOver, ← List.append_assoc, List.take_append_drop]

theorem length_take_usable (bytes : List UInt8) :
    (bytes.take (usable bytes)).length = usable bytes := by
  rw [List.length_take]
  unfold usable
  omega

/-- Sending bytes in two steps, with the byte left behind in front of the second, sends what
sending them at once does. -/
theorem take_usable_append (bytes more : List UInt8) :
    (bytes ++ more).take (usable (bytes ++ more)) =
      bytes.take (usable bytes) ++
        (leftOver bytes ++ more).take (usable (leftOver bytes ++ more)) := by
  have heven : (bytes.take (usable bytes)).length % 2 = 0 := by
    rw [length_take_usable]
    unfold usable
    omega
  rw [split_usable bytes more, usable_append heven, List.take_length_add_append]

theorem leftOver_append (bytes more : List UInt8) :
    leftOver (bytes ++ more) = leftOver (leftOver bytes ++ more) := by
  have heven : (bytes.take (usable bytes)).length % 2 = 0 := by
    rw [length_take_usable]
    unfold usable
    omega
  conv_lhs => rw [leftOver, split_usable bytes more, usable_append heven,
    List.drop_length_add_append]
  rfl

theorem carried_concat (done : List Utterance) (x : Utterance) :
    carried (done ++ [x]) =
      if x.stopped then [] else leftOver (carried done ++ x.payload) := by
  unfold carried
  rw [List.foldl_append]
  rfl

theorem carried_length_le (done : List Utterance) : (carried done).length ≤ 1 := by
  induction done using List.reverseRecOn with
  | nil => exact Nat.zero_le 1
  | append_singleton done x _ =>
    rw [carried_concat]
    split
    · exact Nat.zero_le 1
    · exact leftOver_length_le _

/-! ### What effects show -/

@[simp] theorem frames_append (xs ys : List Effect) : frames (xs ++ ys) = frames xs ++ frames ys :=
  List.filterMap_append

@[simp] theorem messages_append (xs ys : List Effect) :
    messages (xs ++ ys) = messages xs ++ messages ys :=
  List.filterMap_append

@[simp] theorem transcripts_append (xs ys : List Effect) :
    transcripts (xs ++ ys) = transcripts xs ++ transcripts ys :=
  List.filterMap_append

@[simp] theorem frames_heard (answers : List Message) : frames (answers.map .heard) = [] := by
  induction answers with
  | nil => rfl
  | cons answer rest ih => exact ih

@[simp] theorem messages_heard (answers : List Message) :
    messages (answers.map .heard) = answers := by
  induction answers with
  | nil => rfl
  | cons answer rest ih => exact congrArg (answer :: ·) ih

@[simp] theorem transcripts_heard (answers : List Message) :
    transcripts (answers.map .heard) = [] := by
  induction answers with
  | nil => rfl
  | cons answer rest ih => exact ih

/-- Effects that show nothing of an utterance. -/
def Silent (effects : List Effect) : Prop :=
  frames effects = [] ∧ messages effects = [] ∧ transcripts effects = []

theorem silent_closeUpstream (h : Handler) : Silent h.closeUpstream.2 := by
  unfold Handler.closeUpstream
  split <;> exact ⟨rfl, rfl, rfl⟩

theorem silent_openUpstream (h : Handler) : Silent h.openUpstream.2 := by
  obtain ⟨hf, hm, ht⟩ := silent_closeUpstream h
  unfold Handler.openUpstream
  refine ⟨?_, ?_, ?_⟩
  · rw [frames_append, hf]
    rfl
  · rw [messages_append, hm]
    rfl
  · rw [transcripts_append, ht]
    rfl

theorem alignTail_openUpstream (h : Handler) : h.openUpstream.1.alignTail = h.alignTail := by
  unfold Handler.openUpstream Handler.closeUpstream
  cases h.ws <;> rfl

theorem ws_openUpstream (h : Handler) : h.openUpstream.1.ws = some [] := rfl

theorem readTranscript_eq {u : CharTables} {inbox : List Message}
    (h : ∀ message ∈ inbox, message.error = false) :
    readTranscript u inbox =
      match (inbox.filter Message.isFinal).map Message.text with
      | [] => []
      | final :: _ => strip u final := by
  induction inbox with
  | nil => rfl
  | cons message rest ih =>
    rw [readTranscript, h message List.mem_cons_self]
    rcases hfinal : message.isFinal with _ | _
    · rw [List.filter_cons_of_neg (by simp [hfinal])]
      exact ih fun m hm => h m (List.mem_cons_of_mem _ hm)
    · rw [List.filter_cons_of_pos hfinal]
      rfl

/-! ### The handler and the trace -/

section Run

variable (u : CharTables)

/-- What is true of an utterance into which a byte was carried. -/
structure Carries (byte : List UInt8) (x : Utterance) : Prop where
  stream : x.stream = (byte ++ x.payload).take (usable (byte ++ x.payload))
  written : transcripts x.effects =
    if x.stopped then [readTranscript u (messages x.effects)] else []
  clean : ∀ message ∈ messages x.effects, message.error = false

/-- What the handler and the log of its trace say about each other. -/
structure Agrees (h : Handler) (log : Log) : Prop where
  done : ∀ before x, before ++ [x] <+: log.done → Carries u (carried before) x
  current : ∀ x, log.current = some x →
    Carries u (carried log.done) x ∧ x.stopped = false ∧ h.ws = some (messages x.effects) ∧
      h.alignTail = leftOver (carried log.done ++ x.payload)
  idle : log.current = none → h.ws = none ∧ h.alignTail = carried log.done

variable {u} {h : Handler} {log : Log}

theorem Carries.fresh {byte : List UInt8} (hbyte : byte.length ≤ 1) {effects : List Effect}
    (hsilent : Silent effects) : Carries u byte { Utterance.fresh with effects := effects } := by
  obtain ⟨hf, hm, ht⟩ := hsilent
  constructor
  · show (frames effects).flatten = (byte ++ []).take (usable (byte ++ []))
    rw [hf, List.append_nil, usable_of_length_le hbyte, List.take_zero, List.flatten_nil]
  · exact ht
  · show ∀ message ∈ messages effects, message.error = false
    rw [hm]
    intro message hmessage
    cases hmessage

theorem Poll.clean (poll : Poll) : ∀ message ∈ poll.messages, message.error = false := by
  intro message h
  cases poll with
  | silent => cases h
  | partialText text =>
    rw [messages] at h
    split at h
    · cases h
    · rw [List.mem_singleton.mp h]
  | endpoint text =>
    rw [messages] at h
    split at h
    · cases h
    · rw [List.mem_singleton.mp h]
      rfl

/-- The utterances of a log once the one that is going on is over. -/
theorem Agrees.replaced (hagrees : Agrees u h log) :
    (∀ before x, before ++ [x] <+: log.done ++ log.current.toList →
        Carries u (carried before) x) ∧
      h.alignTail = carried (log.done ++ log.current.toList) := by
  rcases hcurrent : log.current with _ | x
  · obtain ⟨-, htail⟩ := hagrees.idle hcurrent
    rw [Option.toList_none, List.append_nil]
    exact ⟨hagrees.done, htail⟩
  · obtain ⟨hx, hstopped, -, htail⟩ := hagrees.current x hcurrent
    rw [Option.toList_some]
    constructor
    · intro before y hinitial
      rcases List.prefix_concat_iff.mp hinitial with heq | hinitial
      · obtain ⟨rfl, rfl⟩ := List.append_singleton_inj.mp heq
        exact hx
      · exact hagrees.done before y hinitial
    · rw [carried_concat, hstopped, htail]
      rfl

/-- A chunk on an open socket. -/
theorem Carries.chunk {byte : List UInt8} {x : Utterance} (hx : Carries u byte x)
    (hstopped : x.stopped = false) (hws : h.ws = some (messages x.effects))
    (htail : h.alignTail = leftOver (byte ++ x.payload)) (audio : List UInt8) (poll : Poll) :
    let y : Utterance :=
      { x with payload := x.payload ++ audio, effects := x.effects ++ (h.forward audio poll).2 }
    Carries u byte y ∧ (h.forward audio poll).1.ws = some (messages y.effects) ∧
      (h.forward audio poll).1.alignTail = leftOver (byte ++ y.payload) := by
  have hstream := take_usable_append (byte ++ x.payload) audio
  have hleft := leftOver_append (byte ++ x.payload) audio
  rw [← htail, List.append_assoc] at hstream hleft
  unfold Handler.forward
  rw [hws]
  dsimp only
  by_cases hn : usable (h.alignTail ++ audio) = 0
  · -- nothing goes upstream yet
    rw [if_pos hn]
    refine ⟨⟨?_, ?_, ?_⟩, ?_, ?_⟩
    · rw [hn, List.take_zero, List.append_nil, ← hx.stream] at hstream
      rw [hstream, Utterance.stream, List.append_nil, Utterance.stream]
    · rw [List.append_nil]
      exact hx.written
    · rw [List.append_nil]
      exact hx.clean
    · rw [List.append_nil]
    · exact hleft.symm
  · rw [if_neg hn]
    refine ⟨⟨?_, ?_, ?_⟩, ?_, ?_⟩
    · have hframes : frames (Effect.sent ((h.alignTail ++ audio).take
          (usable (h.alignTail ++ audio))) :: poll.messages.map .heard) =
          [(h.alignTail ++ audio).take (usable (h.alignTail ++ audio))] :=
        congrArg _ (frames_heard poll.messages)
      rw [hstream, ← hx.stream]
      show (frames (x.effects ++ _)).flatten = _
      rw [frames_append, List.flatten_append]
      exact congrArg _ ((congrArg List.flatten hframes).trans List.flatten_singleton)
    · have hnone : transcripts (x.effects ++ Effect.sent ((h.alignTail ++ audio).take
          (usable (h.alignTail ++ audio))) :: poll.messages.map .heard) = [] := by
        rw [transcripts_append, hx.written, hstopped]
        exact transcripts_heard poll.messages
      rw [hstopped]
      exact hnone
    · intro message hmessage
      rw [messages_append, List.mem_append] at hmessage
      rcases hmessage with hmessage | hmessage
      · exact hx.clean message hmessage
      · exact poll.clean message ((messages_heard poll.messages) ▸ hmessage)
    · show some (messages x.effects ++ poll.messages) = some (messages (x.effects ++ _))
      rw [messages_append]
      exact congrArg some (congrArg _ (messages_heard poll.messages).symm)
    · exact hleft.symm

/-- The socket a chunk finds, and the utterance it belongs to. -/
theorem Agrees.opened (hagrees : Agrees u h log) (rate : ℕ) :
    let opening : Handler × List Effect :=
      if h.ws = none then { h with sampleRate := rate }.openUpstream else (h, [])
    let x := log.current.getD .fresh
    let y : Utterance := { x with effects := x.effects ++ opening.2 }
    Carries u (carried log.done) y ∧ y.stopped = false ∧
      opening.1.ws = some (messages y.effects) ∧
      opening.1.alignTail = leftOver (carried log.done ++ y.payload) := by
  have hbyte := carried_length_le log.done
  rcases hcurrent : log.current with _ | x
  · obtain ⟨hws, htail⟩ := hagrees.idle hcurrent
    have hsilent := silent_openUpstream { h with sampleRate := rate }
    rw [if_pos hws]
    refine ⟨Carries.fresh hbyte hsilent, rfl, ?_, ?_⟩
    · rw [ws_openUpstream]
      exact congrArg some hsilent.2.1.symm
    · rw [alignTail_openUpstream]
      show h.alignTail = leftOver (carried log.done ++ [])
      rw [List.append_nil, leftOver_of_length_le hbyte, htail]
  · obtain ⟨hx, hstopped, hws, htail⟩ := hagrees.current x hcurrent
    rw [if_neg (by rw [hws]; exact Option.some_ne_none _)]
    dsimp only [Option.getD_some]
    rw [List.append_nil]
    exact ⟨hx, hstopped, hws, htail⟩

/-- The end of an utterance, whether it has a socket or not. -/
theorem Agrees.stopped (hagrees : Agrees u h log) (last : Text) :
    Carries u (carried log.done)
      { log.current.getD .fresh with
        effects := (log.current.getD .fresh).effects ++ (h.handleEvent u (.audioStop last)).2
        stopped := true } := by
  rcases hcurrent : log.current with _ | x
  · obtain ⟨hws, -⟩ := hagrees.idle hcurrent
    have hbyte := carried_length_le log.done
    have heffects : (h.handleEvent u (.audioStop last)).2 = [.transcript []] := by
      simp only [Handler.handleEvent, Handler.finishUpstream, hws, List.nil_append]
    rw [heffects]
    constructor
    · show [] = (carried log.done ++ []).take (usable (carried log.done ++ []))
      rw [List.append_nil, usable_of_length_le hbyte, List.take_zero]
    · rfl
    · intro message hmessage
      cases hmessage
  · obtain ⟨hx, hstopped, hws, -⟩ := hagrees.current x hcurrent
    have heffects : (h.handleEvent u (.audioStop last)).2 =
        [.sent [], .heard (.final last), .closed,
          .transcript (readTranscript u (messages x.effects ++ [.final last]))] := by
      simp only [Handler.handleEvent, Handler.finishUpstream, hws, Handler.sendBytes,
        Handler.closeUpstream]
      rfl
    rw [heffects, Option.getD_some]
    constructor
    · rw [← hx.stream, Utterance.stream, Utterance.stream, frames_append, List.flatten_append]
      exact List.append_nil _
    · rw [transcripts_append, hx.written, hstopped, messages_append]
      rfl
    · intro message hmessage
      rw [messages_append, List.mem_append] at hmessage
      rcases hmessage with hmessage | hmessage
      · exact hx.clean message hmessage
      · rw [List.mem_singleton.mp hmessage]
        rfl

/-- An event keeps the handler and its log in agreement. -/
theorem Agrees.step (hagrees : Agrees u h log) (event : Event) :
    Agrees u (h.handleEvent u event).1 (log.next (event, (h.handleEvent u event).2)) := by
  cases event with
  | describe => exact hagrees
  | other => exact hagrees
  | transcribe language =>
    have hsame : ∀ h' : Handler, h'.ws = h.ws → h'.alignTail = h.alignTail →
        Agrees u h' log := by
      intro h' hws htail
      refine ⟨hagrees.done, ?_, ?_⟩
      · rw [hws, htail]
        exact hagrees.current
      · rw [hws, htail]
        exact hagrees.idle
    simp only [Handler.handleEvent]
    split
    · split <;> exact hsame _ rfl rfl
    · exact hsame _ rfl rfl
  | audioStart rate =>
    obtain ⟨hdone, htail⟩ := hagrees.replaced
    have hbyte := carried_length_le (log.done ++ log.current.toList)
    have hsilent := silent_openUpstream { h with sampleRate := rate }
    refine ⟨hdone, ?_, fun hnone => nomatch hnone⟩
    rintro x hx
    obtain rfl := Option.some.inj hx
    refine ⟨Carries.fresh hbyte hsilent, rfl, congrArg some hsilent.2.1.symm, ?_⟩
    show Handler.alignTail (Handler.openUpstream _).1 =
      leftOver (carried (log.done ++ log.current.toList) ++ [])
    rw [alignTail_openUpstream, List.append_nil, leftOver_of_length_le hbyte]
    exact htail
  | audioChunk rate audio poll =>
    obtain ⟨hx, hstopped, hws, htail⟩ := hagrees.opened rate
    obtain ⟨hy, hws', htail'⟩ := hx.chunk hstopped hws htail audio poll
    dsimp only at hy hws' htail'
    rw [List.append_assoc] at hy hws'
    refine ⟨hagrees.done, ?_, fun hnone => nomatch hnone⟩
    rintro x hsome
    obtain rfl := Option.some.inj hsome
    exact ⟨hy, hstopped, hws', htail'⟩
  | audioStop last =>
    have hstop := hagrees.stopped last
    constructor
    · intro before x hinitial
      rcases List.prefix_concat_iff.mp hinitial with heq | hinitial
      · obtain ⟨rfl, rfl⟩ := List.append_singleton_inj.mp heq
        exact hstop
      · exact hagrees.done before x hinitial
    · exact fun x hx => nomatch hx
    · intro _
      constructor
      · show (Handler.finishUpstream u h last).2.1.ws = none
        unfold Handler.finishUpstream
        split <;> rename_i hws
        · exact hws
        · rfl
      · show [] = carried (log.done ++ [_])
        rw [carried_concat]
        rfl

/-- **The handler and the log of its trace agree**, whatever the connection brings. -/
theorem serve_log (u : CharTables) (events : List Event) :
    Agrees u (serve u events).1 (readLog (serve u events).2) := by
  induction events using List.reverseRecOn with
  | nil =>
    constructor
    · intro before x hinitial
      have hnil := List.prefix_nil.mp hinitial
      exact (List.append_ne_nil_of_right_ne_nil before (List.cons_ne_nil x []) hnil).elim
    · exact fun x hx => nomatch hx
    · exact fun _ => ⟨rfl, rfl⟩
  | append_singleton events event ih =>
    unfold serve at ih ⊢
    rw [List.foldl_append, List.foldl_cons, List.foldl_nil]
    dsimp only
    unfold readLog at ih ⊢
    rw [List.foldl_append]
    exact ih.step event

/-- Every utterance of a connection, with the byte that was carried into it. -/
theorem carries_utterances (u : CharTables) (events : List Event) {before : List Utterance}
    {x : Utterance} (h : before ++ [x] <+: utterances (serve u events).2) :
    Carries u (carried before) x := by
  have hagrees := serve_log u events
  exact hagrees.replaced.1 before x h

/-! ### When an utterance is whole -/

/-- Bytes behind a carried one are the bytes themselves only where all are the same. -/
theorem cons_dropLast_eq_iff {byte : UInt8} {bytes : List UInt8} (hbytes : bytes ≠ []) :
    byte :: bytes.dropLast = bytes ↔ ∀ b ∈ bytes, b = byte := by
  induction bytes generalizing byte with
  | nil => exact (hbytes rfl).elim
  | cons b rest ih =>
    cases rest with
    | nil => simp [eq_comm]
    | cons c rest =>
      rw [List.dropLast_cons_cons, List.cons.injEq, ih (List.cons_ne_nil c rest)]
      constructor
      · rintro ⟨rfl, h⟩
        exact List.forall_mem_cons.mpr ⟨rfl, h⟩
      · intro h
        obtain ⟨rfl, hrest⟩ := List.forall_mem_cons.mp h
        exact ⟨rfl, hrest⟩

theorem take_usable_self (payload : List UInt8) :
    payload.take (usable payload) = payload ∨
      payload.take (usable payload) = payload.dropLast := by
  rcases Nat.mod_two_eq_zero_or_one payload.length with hmod | hmod
  · left
    rw [usable, hmod, Nat.sub_zero, List.take_length]
  · right
    rw [usable, hmod, List.dropLast_eq_take]

/-- The frames for a carried byte and a payload are the payload, without at most its last
byte, exactly where the byte makes no difference. -/
theorem take_usable_iff {byte payload : List UInt8} (hbyte : byte.length ≤ 1) :
    ((byte ++ payload).take (usable (byte ++ payload)) = payload ∨
      (byte ++ payload).take (usable (byte ++ payload)) = payload.dropLast) ↔
    Harmless byte payload := by
  unfold Harmless
  rcases byte with _ | ⟨b, _ | ⟨c, rest⟩⟩
  · rw [List.nil_append]
    exact ⟨fun _ => .inl rfl, fun _ => take_usable_self payload⟩
  · rcases hpayload : payload with _ | ⟨p, rest⟩
    · simp [usable]
    · rw [← hpayload]
      have hne : payload ≠ [] := hpayload ▸ List.cons_ne_nil p rest
      have hpos : 0 < payload.length := List.length_pos_of_ne_nil hne
      have hlen : ((([b] : List UInt8) ++ payload).take (usable ([b] ++ payload))).length =
          usable ([b] ++ payload) := length_take_usable _
      rcases Nat.mod_two_eq_zero_or_one payload.length with hmod | hmod
      · -- the carried byte takes the place of the last one
        have husable : usable ([b] ++ payload) = payload.length := by
          rw [usable, List.length_append, List.length_singleton]
          omega
        have htake : ([b] ++ payload).take payload.length = b :: payload.dropLast := by
          obtain ⟨n, hn⟩ := Nat.exists_eq_add_of_lt hpos
          rw [List.dropLast_eq_take, hn]
          simp
        rw [husable, htake]
        have hshort : b :: payload.dropLast ≠ payload.dropLast := List.cons_ne_self _ _
        rw [or_iff_left hshort, cons_dropLast_eq_iff hne]
        simp only [List.cons_ne_nil, hne, false_or, Nat.dvd_of_mod_eq_zero hmod, true_and,
          List.cons.injEq, and_true]
        exact forall₂_congr fun x _ => eq_comm
      · -- one byte more goes upstream than came in
        have husable : usable ([b] ++ payload) = payload.length + 1 := by
          rw [usable, List.length_append, List.length_singleton]
          omega
        rw [husable] at hlen
        have hodd : ¬ 2 ∣ payload.length := by omega
        simp only [List.cons_ne_nil, hne, hodd, false_and, or_false, iff_false, not_or]
        rw [husable]
        constructor
        · intro heq
          rw [heq] at hlen
          omega
        · intro heq
          rw [heq, List.length_dropLast] at hlen
          omega
  · simp at hbyte

theorem contains_nil_iff {finals : List Text} :
    Contains u [] finals ↔ ∀ final ∈ finals, strip u final = [] := by
  induction finals with
  | nil => simp [Contains]
  | cons final rest ih =>
    rw [Contains, List.forall_mem_cons, ← ih]
    constructor
    · rintro ⟨before, after, htext, hrest⟩
      have hparts := List.append_eq_nil_iff.mp htext.symm
      exact ⟨(List.append_eq_nil_iff.mp hparts.1).2, hparts.2 ▸ hrest⟩
    · rintro ⟨hfinal, hrest⟩
      exact ⟨[], [], by rw [hfinal]; rfl, hrest⟩

/-- The transcript is the first final, and contains the others only where they are blank. -/
theorem contains_iff {inbox : List Message} (h : ∀ message ∈ inbox, message.error = false) :
    Contains u (readTranscript u inbox) ((inbox.filter Message.isFinal).map Message.text) ↔
      ∀ final ∈ ((inbox.filter Message.isFinal).map Message.text).tail, strip u final = [] := by
  rw [readTranscript_eq h]
  generalize (inbox.filter Message.isFinal).map Message.text = finals
  rcases finals with _ | ⟨final, rest⟩
  · simp [Contains]
  · dsimp only
    rw [Contains, List.tail_cons, ← contains_nil_iff]
    constructor
    · rintro ⟨before, after, htext, hrest⟩
      have hlength := congrArg List.length htext
      rw [List.length_append, List.length_append] at hlength
      have hafter : after = [] := List.eq_nil_of_length_eq_zero (by omega)
      exact hafter ▸ hrest
    · intro hrest
      exact ⟨[], [], by simp, hrest⟩

/-- An utterance is carried whole exactly where the byte carried into it makes no difference
and, if it was stopped, all its finals but the first are blank. -/
theorem whole_iff {byte : List UInt8} {x : Utterance} (hbyte : byte.length ≤ 1)
    (hx : Carries u byte x) :
    Whole u x ↔ Harmless byte x.payload ∧
      (x.stopped = true → ∀ final ∈ x.finals.tail, strip u final = []) := by
  rw [← take_usable_iff hbyte, ← hx.stream]
  have hwritten := hx.written
  constructor
  · intro hwhole
    refine ⟨hwhole.stream, fun hstopped => ?_⟩
    rw [if_pos hstopped] at hwritten
    apply (contains_iff hx.clean).mp
    apply hwhole.contained
    rw [hwritten]
    exact List.mem_singleton_self _
  · rintro ⟨hstream, hfinals⟩
    refine ⟨hstream, ?_, ?_⟩
    · rw [hwritten]
      split <;> rfl
    · intro text htext
      rw [hwritten] at htext
      split at htext
      · next hstopped =>
        rw [List.mem_singleton.mp htext]
        exact (contains_iff hx.clean).mpr (hfinals hstopped)
      · cases htext

end Run

/-! ### Every run -/

/-- `AudioStop.is_type`. -/
def Event.isStop : Event → Bool
  | .audioStop _ => true
  | _ => false

theorem transcripts_handleEvent (u : CharTables) (h : Handler) (event : Event) :
    (transcripts (h.handleEvent u event).2).length = if event.isStop then 1 else 0 := by
  cases event with
  | describe => rfl
  | other => rfl
  | transcribe language =>
    simp only [Handler.handleEvent]
    split
    · split <;> rfl
    · rfl
  | audioStart rate =>
    obtain ⟨-, -, ht⟩ := silent_openUpstream { h with sampleRate := rate }
    exact congrArg List.length ht
  | audioChunk rate audio poll =>
    have heffects : ∃ opening : Handler × List Effect, transcripts opening.2 = [] ∧
        (h.handleEvent u (.audioChunk rate audio poll)).2 =
          opening.2 ++ (opening.1.forward audio poll).2 := by
      refine ⟨if h.ws = none then { h with sampleRate := rate }.openUpstream else (h, []), ?_, rfl⟩
      split
      · exact (silent_openUpstream { h with sampleRate := rate }).2.2
      · rfl
    have hforward : ∀ h' : Handler, transcripts (h'.forward audio poll).2 = [] := by
      intro h'
      unfold Handler.forward
      split
      · rfl
      · dsimp only
        split
        · rfl
        · exact transcripts_heard poll.messages
    obtain ⟨opening, hopening, heffects⟩ := heffects
    rw [heffects, transcripts_append, hopening, hforward]
    rfl
  | audioStop last =>
    have hfinish : transcripts (h.finishUpstream u last).2.2 = [] := by
      unfold Handler.finishUpstream
      split <;> rfl
    have heffects : (h.handleEvent u (.audioStop last)).2 =
        (h.finishUpstream u last).2.2 ++ [.transcript (h.finishUpstream u last).1] := rfl
    rw [heffects, transcripts_append, hfinish]
    rfl

/-- The effects in a trace are those the handler had on the event. -/
theorem effects_of_mem (u : CharTables) {events : List Event} {item : Event × List Effect}
    (h : item ∈ (serve u events).2) :
    ∃ handler : Handler, item.2 = (handler.handleEvent u item.1).2 := by
  induction events using List.reverseRecOn with
  | nil => cases h
  | append_singleton events event ih =>
    unfold serve at ih h
    rw [List.foldl_append, List.foldl_cons, List.foldl_nil] at h
    rcases List.mem_append.mp h with hold | hnew
    · exact ih hold
    · rw [List.mem_singleton.mp hnew]
      exact ⟨_, rfl⟩

/-- **What Home Assistant gets of an utterance.** One transcript is written for every
`audio-stop` and none for anything else. An utterance is carried whole exactly where the byte
a replaced utterance left behind makes no difference to it and, if it was stopped, the
upstream sent no text after its first final. -/
theorem transcript_whole_iff (u : CharTables) (events : List Event) :
    (∀ item ∈ (serve u events).2,
      (transcripts item.2).length = if item.1.isStop then 1 else 0) ∧
    ∀ before x, before ++ [x] <+: utterances (serve u events).2 →
      (Whole u x ↔ Harmless (carried before) x.payload ∧
        (x.stopped = true → ∀ final ∈ x.finals.tail, strip u final = [])) := by
  constructor
  · intro item hitem
    obtain ⟨handler, heffects⟩ := effects_of_mem u hitem
    rw [heffects]
    exact transcripts_handleEvent u handler item.1
  · intro before x hx
    exact whole_iff (carried_length_le before) (carries_utterances u events hx)

/-- An endpoint of the backend in the middle of an utterance: its final is the transcript, and
the rest is not in it. -/
def twoFinals : List Event :=
  [.audioStart 16000, .audioChunk 16000 [1, 2] (.endpoint "one".toList), .audioStop "two".toList]

/-- An utterance that leaves a byte behind when it is replaced. -/
def replacedOdd : List Event :=
  [.audioStart 16000, .audioChunk 16000 [1, 2, 3] .silent, .audioStart 16000,
    .audioChunk 16000 [4, 5] .silent, .audioStop []]

theorem utterance_in_part :
    (∃ x ∈ utterances (serve V2v.Tts.asciiTables twoFinals).2, ¬ Whole V2v.Tts.asciiTables x) ∧
      ∃ x ∈ utterances (serve V2v.Tts.asciiTables replacedOdd).2,
        ¬ Whole V2v.Tts.asciiTables x := by
  constructor
  · refine ⟨_, List.mem_singleton_self _, fun hwhole => ?_⟩
    obtain ⟨before, after, hone, before', after', htwo, -⟩ :=
      hwhole.contained "one".toList (by decide)
    have hlength : "one".toList.length = (before ++ "one".toList ++ after).length :=
      congrArg List.length hone
    have hlength' : after.length = (before' ++ "two".toList ++ after').length :=
      congrArg List.length htwo
    simp at hlength hlength'
    omega
  · refine ⟨_, List.mem_cons_of_mem _ (List.mem_singleton_self _), fun hwhole => ?_⟩
    rcases hwhole.stream with h | h
    · exact absurd h (by decide)
    · exact absurd h (by decide)

end OpenVoiceStream.Wyoming
