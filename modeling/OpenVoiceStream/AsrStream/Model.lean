import OpenVoiceStream.Base.Machine
import OpenVoiceStream.Base.Value
import OpenVoiceStream.V2v.Vad

/-!
# The streaming ASR socket

One connection feeds audio to a backend stream and answers with final frames.  There are
five ways to end an utterance: the client asks for it, the client ends the audio, the VAD
hears the end of speech inside a block, the backend reports an endpoint, and the queue
for inference is full, which drops the utterance.

A backend stream is an accumulator: it holds the samples it was fed since it was made,
and the text of a final is the text of these samples.  Finalizing does not empty it, so an
utterance only ends when the handler makes a new stream.

## Main definitions

* `Stream`, `Final`, `Lost` — the accumulator, and what becomes of its samples.
* `Frame` — what arrives on the socket, with what the environment makes of it.
* `Session.onText`, `Session.runSegments`, `Session.onAudio` — the handler.
* `machine` — a connection.
-/

namespace OpenVoiceStream.AsrStream

open V2v (VadEvent Segment splitVadBlock)

variable {α : Type}

/-! ### The backend -/

/-- A backend stream: the samples it was fed, and how many were accepted on the
connection before it was made. -/
structure Stream (α : Type) where
  first : ℕ
  samples : List α

namespace Stream

/-- `accept_waveform`. -/
def acceptWaveform (stream : Stream α) (segment : List α) : Stream α :=
  { stream with samples := stream.samples ++ segment }

/-- `prepare_finalize`: it encodes the tail and empties nothing. -/
def prepareFinalize (stream : Stream α) : Stream α := stream

/-- `finalize`: the samples whose text it returns. -/
def finalize (stream : Stream α) : List α × Stream α := (stream.samples, stream)

/-- `force_endpoint`, where a stream has it. -/
def forceEndpoint (stream : Stream α) : List α × Stream α := (stream.samples, stream)

end Stream

/-- What does not change on a connection. -/
structure Config where
  /-- `vad_session is not None`. -/
  vad : Bool
  /-- The streams have `force_endpoint`. -/
  forceEndpoint : Bool
  spkOn : Bool

/-! ### The session -/

/-- What ends an utterance. -/
inductive Endpoint
  | eou
  | eos
  | vad
  | backend
  deriving DecidableEq

/-- A final frame: the samples its text comes from, and the buffer and the window (in
samples) of its speaker embedding. -/
structure Final (α : Type) where
  endpoint : Endpoint
  first : ℕ
  source : List α
  seg : List α
  window : ℕ × ℕ

/-- The place behind the last sample of a final. -/
def Final.stop (f : Final α) : ℕ := f.first + f.source.length

/-- Why a stream was thrown away with its samples. -/
inductive Reason
  | reset
  | busy (endpoint : Endpoint)
  | closed
  deriving DecidableEq

/-- The samples of a stream that was thrown away. -/
structure Lost (α : Type) where
  reason : Reason
  first : ℕ
  samples : List α

/-- The place behind the last sample that was lost. -/
def Lost.stop (d : Lost α) : ℕ := d.first + d.samples.length

/-- The variables of the handler, with all samples accepted so far, the finals that were
sent and the samples that were thrown away. -/
structure Session (α : Type) where
  accepted : List α
  stream : Stream α
  /-- `_seg`. -/
  seg : List α
  /-- `_t_samples`. -/
  tSamples : ℕ
  finals : List (Final α)
  lost : List (Lost α)
  closed : Bool

namespace Session

/-- A connection that was just opened. -/
def start : Session α :=
  { accepted := [], stream := { first := 0, samples := [] }, seg := [], tSamples := 0
    finals := [], lost := [], closed := false }

/-- A segment is buffered and fed to the stream. -/
def accept (cfg : Config) (s : Session α) (segment : List α) : Session α :=
  { s with
    accepted := s.accepted ++ segment
    stream := s.stream.acceptWaveform segment
    seg := if cfg.spkOn then s.seg ++ segment else s.seg
    tSamples := if cfg.spkOn then s.tSamples + segment.length else s.tSamples }

/-- `asr_be.create_stream()` in place of the old stream. -/
def rearm (s : Session α) : Session α :=
  { s with stream := { first := s.accepted.length, samples := [] }, seg := [] }

/-- The stream is thrown away. -/
def lose (s : Session α) (reason : Reason) : Session α :=
  { s with lost := s.lost ++ [⟨reason, s.stream.first, s.stream.samples⟩] }

/-- The stream is thrown away for a new one. -/
def discard (s : Session α) (reason : Reason) : Session α := (s.lose reason).rearm

/-- The connection ends with the stream. -/
def fail (s : Session α) (reason : Reason) : Session α := { s.lose reason with closed := true }

/-- A final is sent for what the backend returned, and the speaker buffer is emptied. -/
def emit (s : Session α) (endpoint : Endpoint) (out : List α × Stream α) : Session α :=
  { s with
    stream := out.2
    seg := []
    finals := s.finals ++ [{ endpoint := endpoint, first := s.stream.first, source := out.1
                             seg := s.seg, window := (s.tSamples - s.seg.length, s.tSamples) }] }

end Session

/-! ### The frames of the client -/

/-- How the attempt at a final ends: the frame is sent, the queue for inference is full,
or something raises. -/
inductive Outcome
  | done
  | full
  | failed
  deriving DecidableEq

/-- What `get_partial` gives after a block, and whether sending it raises. -/
inductive Poll
  | silent
  | text
  | endpoint
  | failed
  deriving DecidableEq

/-- A message of the socket, with what the VAD and the backend make of it. -/
inductive Frame (α : Type)
  /-- A text, as `json.loads` reads it, if it does. -/
  | text (cmd : Option Value) (outcome : Outcome)
  /-- Audio.  The outcomes are those of the endpoints inside the block. -/
  | binary (data : List α) (events : List (VadEvent × ℤ)) (outcome : ℕ → Outcome) (poll : Poll)
  /-- Bytes that are no sequence of `int16`. -/
  | odd
  | disconnect
  /-- Neither audio nor a control frame. -/
  | other

/-- What a text asks for. -/
inductive Command
  | reset
  | endUtterance
  | ignored
  /-- Reading the command raises. -/
  | raises
  deriving DecidableEq

/-- `text.lower() == "eou"`. -/
def isEou (text : String) : Bool := text.toList.map Char.toLower = "eou".toList

/-- Reads a text frame. -/
def command : Option Value → Command
  | none => .ignored
  | some (.dict items) =>
    let cmd : Dict := items
    if (cmd.get "command").isText "reset" then .reset
    else if (cmd.get "command").isText "end_utterance" then .endUtterance
    else
      match cmd.get "type" with
      | .str text => if isEou text then .endUtterance else .ignored
      | value => if value.truthy then .raises else .ignored
  | some _ => .raises

/-! ### The handler -/

namespace Session

variable (cfg : Config)

/-- A text frame. -/
def onText (s : Session α) (cmd : Option Value) (outcome : Outcome) : Session α :=
  match command cmd with
  | .ignored => s
  | .raises => s.fail .closed
  | .reset =>
    let s := s.discard .reset
    if outcome = .failed then s.fail .closed else s
  | .endUtterance =>
    match outcome with
    | .full => s.discard (.busy .eou)
    | .failed => s.fail .closed
    | .done =>
      -- the stream is kept here, whatever the backend returned
      s.emit .eou
        (if cfg.forceEndpoint then s.stream.forceEndpoint else s.stream.prepareFinalize.finalize)

/-- The segments of a block, from the one with number `i` on. -/
def runSegments (outcome : ℕ → Outcome) : ℕ → List (Segment α) → Session α → Session α
  | _, [], s => s
  | i, segment :: rest, s =>
    let s := s.accept cfg segment.samples
    if segment.event = some .speechEnd then
      match outcome i with
      | .full => runSegments outcome (i + 1) rest (s.discard (.busy .vad))
      | .failed => s.fail .closed
      | .done =>
        runSegments outcome (i + 1) rest (s.emit .vad s.stream.prepareFinalize.finalize).rearm
    else runSegments outcome (i + 1) rest s

/-- A binary frame. -/
def onAudio (s : Session α) (data : List α) (events : List (VadEvent × ℤ))
    (outcome : ℕ → Outcome) (poll : Poll) : Session α :=
  if data = [] then
    match outcome 0 with
    | .full => s.fail (.busy .eos)
    | .failed => s.fail .closed
    | .done => { s.emit .eos s.stream.prepareFinalize.finalize with closed := true }
  else
    let events := if cfg.vad then events else []
    let s := runSegments cfg outcome 0 (splitVadBlock data events) s
    if s.closed then s
    else
      match poll with
      | .silent => s
      | .text => s
      | .endpoint => (s.emit .backend (s.stream.samples, s.stream)).rearm
      | .failed => s.fail .closed

/-- The handler of one frame. -/
def handle (s : Session α) : Frame α → Session α
  | .text cmd outcome => s.onText cfg cmd outcome
  | .binary data events outcome poll => s.onAudio cfg data events outcome poll
  | .odd => s.fail .closed
  | .disconnect => s.fail .closed
  | .other => s

end Session

/-- A connection: frames are handled until it is closed. -/
def machine (cfg : Config) : Machine (Session α) (Frame α) :=
  { init := .start, step := fun s frame => if s.closed then none else some (s.handle cfg frame) }

end OpenVoiceStream.AsrStream
