import OpenVoiceStream.Base.Machine
import OpenVoiceStream.V2v.Vad
import OpenVoiceStream.V2v.PendingAudio
import Mathlib.Data.Rat.Defs
import Mathlib.Algebra.Order.Ring.Unbundled.Rat

/-!
# The speech input of a voice connection

`/v2v/stream` runs a dispatcher, which receives the client's frames, and
`asr_out_task`, which polls the ASR session manager and sends the finals.  They share
one state dictionary and switch only at awaits.  The model has one program counter for
each task.  A counter stands either at an await, where the other task may run, or at a
point between two awaits where the control flow joins; a task at such a point runs on
before anything else happens.

The session manager is not part of the repository.  What a call of it returns is chosen
by the action, with one thing relied on: every successful `on_speech_start` makes a
generation of its own, numbered upwards.  A call takes effect in a step between the one
that makes it and the one that resumes from it.

The field `trace` is a history that the code does not have: what happened, latest
first.  So are `markerNo`, `markerGen`, `answers` and `firedGen`, which say what a final
answers.

## Main definitions

* `Event` — the history.
* `State` — the state dictionary with the locals of both tasks.
* `receive`, `dispStep` — the dispatcher.
* `outStep` — `asr_out_task` with `_drain_pending_turn`.
* `step`, `machine` — both tasks, the manager calls and the background tasks.
-/

namespace OpenVoiceStream
namespace V2v
namespace Asr

/-- What is fixed when the connection is accepted. -/
structure Cfg where
  multiUtterance : Bool
  /-- A frontend VAD session was created. -/
  vad : Bool
  /-- `_asr_backend_prefers_backend_endpoint_vad`. -/
  backendPrefersEndpointVad : Bool
  sampleRate : ℕ
  /-- `OVS_V2V_PENDING_AUDIO_S`. -/
  pendingLimitSeconds : ℕ
  prerollCap : ℕ
  /-- `_keep_asr_max_s()`. -/
  keepAsrMaxS : ℚ
  /-- `OVS_ASR_TURN_TIMEOUT_S` as the error message prints it. -/
  turnTimeout : String
  /-- The backend has a `restart_worker`. -/
  restartWorker : Bool
  punctOn : Bool
  spkOn : Bool

/-- `pending_limit_samples`. -/
def Cfg.pendingLimitSamples (cfg : Cfg) : ℤ :=
  ((cfg.sampleRate * min (max cfg.pendingLimitSeconds 1) 60 : ℕ) : ℤ)

theorem Cfg.pendingLimitSamples_nonneg (cfg : Cfg) : 0 ≤ cfg.pendingLimitSamples :=
  Int.natCast_nonneg _

/-- The payload of an `asr_final`. -/
structure Final where
  text : String
  sessionComplete : Option Bool
  duplicateOfStreamed : Option Bool
  language : Option String
  deriving DecidableEq, Repr

/-- The frames of the speech input side. -/
inductive Frame
  | vadEvent (event : VadEvent)
  | asrPartial (text : String) (isStable : Bool)
  | asrEndpoint
  | asrFinal (payload : Final)
  | error (text : String)
  deriving DecidableEq, Repr

/-- What happens on a connection. -/
inductive Event (α : Type)
  /-- The dispatcher takes up a segment. -/
  | arrived (segment : Segment α)
  /-- A turn is queued: the tail it begins with, and its first segment. -/
  | queued (turn : ℕ) (tail : List (List α)) (start : List α)
  /-- A speech-end or the client sets `endpoint_pending`, or the backend reports an
  endpoint of the active stream. -/
  | trigger
  /-- `on_speech_start` makes a generation, for a queued turn if the drain called it. -/
  | opened (gen : ℕ) (turn : Option ℕ)
  /-- `accept_audio` takes samples into a generation. -/
  | accepted (gen : ℕ) (samples : List α)
  /-- The drain hands a segment of a turn to `accept_audio`. -/
  | fed (turn : ℕ) (samples : List α)
  /-- The drain removes a turn after it fed one. -/
  | popped (removed : Option ℕ) (turn : ℕ)
  /-- `_clear_pending_audio` drops the queue. -/
  | cleared (turns : List ℕ)
  /-- An abort that does not keep the utterance. -/
  | aborted
  /-- A final is handed to the socket: the number of the trigger it answers, and the
  generation it is for, if it is for one. -/
  | final (answers : ℕ) (gen : Option ℕ)
  /-- A frame was sent, or the socket refused it. -/
  | sent (frame : Frame) (ok : Bool)
  deriving Repr

/-- The number of triggers in a history. -/
def triggers {α : Type} : List (Event α) → ℕ
  | [] => 0
  | .trigger :: trace => triggers trace + 1
  | _ :: trace => triggers trace

/-- How a finalize ends. -/
inductive Outcome
  | accepted (text : String) (language : Option String)
  | rejected
  | raised
  /-- It raises `asyncio.TimeoutError`. -/
  | raisedTimeout
  | cancelled
  deriving DecidableEq, Repr

/-- The task running `_finalize_with_coord`. -/
inductive Child
  /-- The flag says that it has been cancelled. -/
  | running (cancelled : Bool)
  | ended (outcome : Outcome)
  deriving DecidableEq, Repr

/-- Where `wait_for` of the finalize stands. -/
inductive Wait
  | waiting
  /-- The timeout has cancelled the child. -/
  | timedOut
  /-- The cancellation of `asr_out_task` has cancelled the child. -/
  | cancelled
  deriving DecidableEq, Repr

/-- A call of the session manager under way. -/
inductive Call
  | issued
  | returned (gen : ℕ)
  | raised
  deriving DecidableEq, Repr

/-- Where the dispatcher stands. -/
inductive DispPc
  /-- At `ws.receive()`. -/
  | recv
  /-- Awaiting `asr_cancel_task`. -/
  | joinCancel
  /-- Sending `asr: abort cleanup timed out`. -/
  | joinFailed
  /-- At the top of the loop over the segments. -/
  | segment
  /-- Blocked: sending the speech-start. -/
  | pendingStart
  /-- Blocked: sending the speech-end. -/
  | pendingEnd
  /-- In `_reject_pending_audio`, sending the error. -/
  | rejecting (reason : String)
  /-- Not blocked: sending the speech-start. -/
  | liveStart
  /-- Awaiting `on_speech_start` after a speech-start. -/
  | openTurn
  /-- Sending `asr_unavailable` after a speech-start. -/
  | openFailed
  /-- Awaiting `accept_audio` of the preroll. -/
  | replay
  /-- Before the test for a lazy open. -/
  | lazyTest
  /-- Awaiting `on_speech_start` of a lazy open. -/
  | lazyOpen
  /-- Sending `asr_unavailable` after a lazy open. -/
  | lazyFailed
  /-- Before `if state["asr_active"]`. -/
  | feedTest
  /-- Awaiting `accept_audio` of the segment. -/
  | feed
  /-- Before `if speech_ended_now`. -/
  | latch
  /-- Sending the speech-end after the marker is set. -/
  | latched
  /-- Before the preroll ring. -/
  | ring
  | ended
  deriving DecidableEq, Repr

/-- The dispatcher is between two awaits. -/
def DispPc.running : DispPc → Bool
  | .segment | .lazyTest | .feedTest | .latch | .ring => true
  | _ => false

/-- Where `asr_out_task` stands. -/
inductive OutPc
  /-- At `asyncio.sleep(0.05)`, or not started yet. -/
  | sleep
  /-- At the top of the polling loop. -/
  | top
  /-- Turn deadline: awaiting `cancel("turn_timeout")`. -/
  | deadlineCancel
  /-- Turn deadline: awaiting `restart_worker`. -/
  | deadlineRestart
  /-- Turn deadline: sending the error. -/
  | deadlineSend
  /-- Awaiting `get_partial_for_generation`. -/
  | getPartial
  | sendPartial
  /-- Before the look at `endpoint_pending`. -/
  | decide
  /-- Sending `asr_endpoint`. -/
  | sendEndpoint
  /-- An endpoint has fired; before `if state["asr_active"]`. -/
  | fired
  /-- Awaiting the prepare task. -/
  | prepWait
  /-- Before the test whether the generation is retired. -/
  | prepared
  /-- Awaiting the finalize task. -/
  | finalize (wait : Wait)
  /-- Finalize timeout: awaiting `cancel("finalize_timeout")`. -/
  | finalizeCancel
  /-- Sending the error of a finalize that was not accepted. -/
  | rejectSend
  /-- The final is ready; before the enrichments. -/
  | enrich
  | punct
  | speakerTest
  | speaker
  /-- Before the payload is made. -/
  | final
  /-- Awaiting `send_lock` for the final. -/
  | finalLock
  /-- Awaiting the socket with the final. -/
  | finalSend
  /-- Drain: awaiting `on_speech_start`. -/
  | drainOpen
  /-- Drain: at the loop over the segments. -/
  | drainNext
  /-- Drain: awaiting `accept_audio` of a segment. -/
  | drainFeed
  /-- Drain failed: awaiting `cancel("pending_turn_activation_failed")`. -/
  | drainFailCancel
  /-- Drain failed: sending the error. -/
  | drainFailSend
  /-- Before the exit test of the polling loop. -/
  | loopEnd
  | ended
  deriving DecidableEq, Repr

/-- `asr_out_task` is between two awaits. -/
def OutPc.running : OutPc → Bool
  | .top | .decide | .fired | .prepared | .enrich | .speakerTest | .final | .drainNext
  | .loopEnd => true
  | _ => false

variable {α : Type}

/-- The dispatcher. -/
structure Disp (α : Type) where
  pc : DispPc
  call : Call
  /-- The block received, with the offsets at which the VAD flag flips in it. -/
  block : List α × List ℤ
  current : Segment α
  rest : List (Segment α)
  /-- `pre`, the concatenated preroll. -/
  pre : List α

/-- `asr_out_task`. -/
structure Out (α : Type) where
  pc : OutPc
  call : Call
  partialText : String
  isEndpoint : Bool
  /-- `endpoint_reason`. -/
  reason : Option Reason
  /-- `finalize_gen`. -/
  gen : ℕ
  text : String
  language : Option String
  /-- `finalize_failure_reason`. -/
  failure : String
  payload : Final
  closing : Bool
  lastStreamedFinal : Option String
  /-- The turn `_drain_pending_turn` holds on to. -/
  turn : ℕ
  index : ℕ
  segment : List α
  newGen : ℕ
  /-- History: the number of the trigger the firing answers. -/
  answers : ℕ
  /-- History: the generation the firing is for: that of the stream active then, or else
  the one its trigger ends. -/
  firedGen : Option ℕ

/-- The state of a connection. -/
structure State (α : Type) where
  asrSessionClosed : Bool
  endpointPending : Option Reason
  endpointPendingGen : Option ℕ
  /-- `pending_turns`, `pending_tail`, their counters and `pending_draining`. -/
  pend : PendingAudio α
  finalizingGen : Option ℕ
  asrFinalizeTask : Option Child
  /-- The task that cancels an aborted utterance; the flag says that it is done. -/
  asrCancelTask : Option Bool
  asrAbortRequested : Bool
  /-- The task of `_run_prepare`; the flag says that it is done. -/
  asrPrepareTask : Option Bool
  asrPrepareGen : Option ℕ
  clientClosed : Bool
  asrActive : Bool
  asrActiveGen : ℕ
  asrStartedOnce : Bool
  asrAudioSamplesAccepted : ℕ
  preroll : List (List α)
  prerollSamples : ℤ
  /-- `asr_turn_started_at` is not `None`. -/
  asrTurnStartedAt : Bool
  spkSeg : List (List α)
  diarSamples : ℕ
  /-- `_in_speech` of the VAD session. -/
  inSpeech : Bool
  /-- `asr_manager.current_generation`. -/
  generation : ℕ
  disp : Disp α
  out : Out α
  /-- History: the number of the trigger that last set `endpoint_pending`. -/
  markerNo : ℕ
  /-- History: the generation that this trigger ends, if it ends one. -/
  markerGen : Option ℕ
  trace : List (Event α)

/-- An accepted connection. -/
def State.start : State α :=
  { asrSessionClosed := false, endpointPending := none, endpointPendingGen := none,
    pend := .start, finalizingGen := none, asrFinalizeTask := none, asrCancelTask := none,
    asrAbortRequested := false, asrPrepareTask := none, asrPrepareGen := none,
    clientClosed := false, asrActive := false, asrActiveGen := 0, asrStartedOnce := false,
    asrAudioSamplesAccepted := 0, preroll := [], prerollSamples := 0, asrTurnStartedAt := false,
    spkSeg := [], diarSamples := 0, inSpeech := false, generation := 0
    disp := { pc := .recv, call := .issued, block := ([], []), current := ⟨[], none⟩, rest := [],
              pre := [] }
    out := { pc := .sleep, call := .issued, partialText := "", isEndpoint := false, reason := none,
             gen := 0, text := "", language := none, failure := "",
             payload := ⟨"", none, none, none⟩, closing := false, lastStreamedFinal := none,
             turn := 0, index := 0, segment := [], newGen := 0, answers := 0, firedGen := none }
    markerNo := 0, markerGen := none, trace := [] }

/-- A control or audio frame of the client. -/
inductive Msg (α : Type)
  | audio (samples : List α) (flips : List ℤ)
  | asrEos
  | asrPrepare
  | abort (keepAsr : Bool)
  /-- Text for the speech output side, a keepalive, or nothing known. -/
  | other
  /-- The client is gone, or silent for the idle timeout. -/
  | disconnect

/-- What a task finds when it runs on. -/
structure Env where
  /-- The await ended without an exception. -/
  ok : Bool := true
  /-- `_asr_manager_idle()`. -/
  managerIdle : Bool := false
  /-- `_asr_stream_prefers_backend_endpoint_vad()`. -/
  prefersBackendVad : Bool := false
  /-- `_asr_stream_allows_frontend_eou_finalize()`. -/
  allowsFrontendEou : Bool := false
  /-- `_asr_stream_frontend_eou_min_audio_s()`. -/
  frontendEouMinAudioS : ℚ := 0
  /-- The active turn is older than `asr_turn_timeout_s`. -/
  expired : Bool := false
  /-- The partial, or the punctuated text. -/
  text : String := ""
  partialGen : ℕ := 0
  isEndpoint : Bool := false

namespace State

/-- `send_json` comes back: the frame is out, or the client counts as closed. -/
def send (s : State α) (e : Env) (frame : Frame) : State α :=
  { s with clientClosed := s.clientClosed || !e.ok, trace := .sent frame e.ok :: s.trace }

/-- `_clear_pending_audio`. -/
def clearPending (s : State α) : State α :=
  { s with pend := s.pend.clear, trace := .cleared s.pend.turns :: s.trace }

/-- `endpoint_pending` and its generation tag are dropped. -/
def clearEndpoint (s : State α) : State α :=
  { s with endpointPending := none, endpointPendingGen := none }

/-- The generation of the active stream. -/
def stream (s : State α) : Option ℕ := if s.asrActive then some s.asrActiveGen else none

/-- `endpoint_pending` is set, by something that ends the generation `ends` if any. -/
def setEndpoint (s : State α) (reason : Reason) (gen : ℕ) (ends : Option ℕ) : State α :=
  { s with
    endpointPending := some reason
    endpointPendingGen := some gen
    markerNo := triggers s.trace
    markerGen := ends
    trace := .trigger :: s.trace }

/-- `_clear_asr_prepare_state`. -/
def clearPrepare (s : State α) : State α :=
  { s with asrPrepareTask := none, asrPrepareGen := none }

/-- A prepare task of the active generation is under way. -/
def preparing (s : State α) : Bool :=
  decide (s.asrPrepareTask = some false) && decide (s.asrPrepareGen = some s.asrActiveGen)

/-- `_schedule_asr_prepare`. -/
def schedulePrepare (s : State α) : State α :=
  let skip := !s.asrActive || s.preparing
  { s with
    asrPrepareTask := if skip then s.asrPrepareTask else some false
    asrPrepareGen := if skip then s.asrPrepareGen else some s.asrActiveGen }

/-- No utterance is active any more. -/
def deactivate (s : State α) : State α :=
  { s with asrActive := false, asrAudioSamplesAccepted := 0, asrTurnStartedAt := false }

/-- `on_speech_start` came back with a generation. -/
def activate (s : State α) (gen : ℕ) : State α :=
  { s with
    asrActive := true
    asrActiveGen := gen
    asrAudioSamplesAccepted := 0
    asrTurnStartedAt := true
    asrStartedOnce := true }

/-- `accept_audio` of the dispatcher came back. -/
def countAudio (cfg : Cfg) (s : State α) (samples : List α) : State α :=
  { s with
    asrAudioSamplesAccepted := s.asrAudioSamplesAccepted + samples.length
    spkSeg := if cfg.spkOn then s.spkSeg ++ [samples] else s.spkSeg
    diarSamples := if cfg.spkOn then s.diarSamples + samples.length else s.diarSamples }

/-- Seconds of audio accepted for the active utterance. -/
def acceptedAudioS (cfg : Cfg) (s : State α) : ℚ :=
  (s.asrAudioSamplesAccepted : ℚ) / max (cfg.sampleRate : ℚ) 1

end State

/-- The oldest frames leave the preroll ring while it is over the cap. -/
def trimPreroll (cap : ℤ) : List (List α) → ℤ → List (List α) × ℤ
  | first :: second :: rest, samples =>
    if cap < samples then trimPreroll cap (second :: rest) (samples - first.length)
    else (first :: second :: rest, samples)
  | ring, samples => (ring, samples)

/-- Segments go into the preroll ring. -/
def State.extendPreroll (cfg : Cfg) (s : State α) (segments : List (List α)) (samples : ℤ) :
    State α :=
  let trimmed := trimPreroll cfg.prerollCap (s.preroll ++ segments) (s.prerollSamples + samples)
  { s with preroll := trimmed.1, prerollSamples := trimmed.2 }

/-- `_move_pending_tail_to_preroll`. -/
def State.movePendingTailToPreroll (cfg : Cfg) (s : State α) : State α :=
  if s.pend.tail = [] then s
  else { s.extendPreroll cfg s.pend.tail s.pend.tailSamples with pend := s.pend.dropTail }

/-! ### The dispatcher -/

/-- The loop over the segments goes on, or ends. -/
def Disp.next (d : Disp α) : Disp α :=
  match d.rest with
  | [] => { d with pc := .recv }
  | segment :: rest => { d with current := segment, rest := rest, pc := .segment }

/-- The dispatcher leaves the body of the loop over the segments. -/
def State.nextSegment (s : State α) : State α := { s with disp := s.disp.next }

/-- `_reject_pending_audio`, up to its await. -/
def State.rejectPending (s : State α) (reason : String) : State α :=
  { s.clearPending.clearEndpoint with
    finalizingGen := none
    asrSessionClosed := true
    disp.pc := .rejecting reason }

/-- An audio block is admitted: the VAD runs over it, and it is cut into segments. -/
def admitAudio (cfg : Cfg) (s : State α) : State α :=
  if s.asrSessionClosed then { s with disp.pc := .recv }
  else if !cfg.multiUtterance && s.asrStartedOnce && !s.asrActive then { s with disp.pc := .recv }
  else
    let flips := if cfg.vad then s.disp.block.2 else []
    State.nextSegment { s with
      inSpeech := inSpeechAfter s.inSpeech flips
      disp.rest := splitVadBlock s.disp.block.1 (processEvents s.inSpeech flips) }

/-- A finalize is in flight. -/
def State.finalizeRunning (s : State α) : Bool :=
  match s.asrFinalizeTask with
  | some (.running _) => true
  | _ => false

/-- `CLIENT_ABORT`: a finalize in flight is cancelled. -/
def State.cancelFinalize (s : State α) : State α :=
  if s.finalizeRunning then
    { s with asrAbortRequested := true, asrFinalizeTask := some (.running true) }
  else s

/-- `CLIENT_ABORT`: an active utterance is cancelled, by the cancel task still under way
or a new one. -/
def State.cancelUtterance (s : State α) : State α :=
  if s.asrActive then { s.deactivate.clearPrepare with asrCancelTask := some false } else s

/-- `CLIENT_ABORT` where the utterance is not kept. -/
def abortAsr (s : State α) : State α :=
  let s := s.cancelFinalize.cancelUtterance.clearEndpoint.clearPending
  { s with finalizingGen := none, trace := .aborted :: s.trace }

/-- What an abort does to each field. -/
theorem abortAsr_eq (s : State α) :
    abortAsr s = { s with
      asrAbortRequested := s.asrAbortRequested || s.finalizeRunning
      asrFinalizeTask := if s.finalizeRunning then some (.running true) else s.asrFinalizeTask
      asrCancelTask := if s.asrActive then some false else s.asrCancelTask
      asrActive := false
      asrAudioSamplesAccepted := if s.asrActive then 0 else s.asrAudioSamplesAccepted
      asrTurnStartedAt := if s.asrActive then false else s.asrTurnStartedAt
      asrPrepareTask := if s.asrActive then none else s.asrPrepareTask
      asrPrepareGen := if s.asrActive then none else s.asrPrepareGen
      endpointPending := none
      endpointPendingGen := none
      finalizingGen := none
      pend := s.pend.clear
      trace := .aborted :: .cleared s.pend.turns :: s.trace } := by
  by_cases hrun : s.finalizeRunning <;> by_cases hactive : s.asrActive <;>
    simp [abortAsr, State.cancelFinalize, State.cancelUtterance, hrun, hactive, State.deactivate,
      State.clearPrepare, State.clearEndpoint, State.clearPending]

/-- `keep_asr` asks to keep the utterance, and it is short enough for that. -/
def keepsAsr (cfg : Cfg) (s : State α) (keepAsr : Bool) : Bool :=
  keepAsr && !decide (cfg.keepAsrMaxS < s.acceptedAudioS cfg)

/-- An audio frame comes in; a cancel task still under way is joined first. -/
def receiveAudio (cfg : Cfg) (s : State α) (samples : List α) (flips : List ℤ) : State α :=
  if s.asrCancelTask = some false then
    { s with disp.block := (samples, flips), disp.pc := .joinCancel }
  else admitAudio cfg { s with asrCancelTask := none, disp.block := (samples, flips) }

/-- A frame of the client is handled, up to the first await. -/
def receiveMsg (cfg : Cfg) (s : State α) : Msg α → State α
  | .audio samples flips => receiveAudio cfg s samples flips
  | .asrEos =>
    { s.setEndpoint .clientEos s.asrActiveGen s.stream with
      asrSessionClosed := s.asrSessionClosed || !cfg.multiUtterance }
  | .asrPrepare => s.schedulePrepare
  | .abort keepAsr => if keepsAsr cfg s keepAsr then s else abortAsr s
  | .other => s
  | .disconnect => { s with clientClosed := true, disp.pc := .ended }

/-- A frame of the client comes in. -/
def receive (cfg : Cfg) (s : State α) (msg : Msg α) : Option (State α) :=
  if s.disp.pc = .recv then
    some (if s.clientClosed then { s with disp.pc := .ended } else receiveMsg cfg s msg)
  else none

/-- `_pending_blocked`. -/
def pendingBlocked (cfg : Cfg) (s : State α) : Bool :=
  cfg.vad && (s.endpointPending.isSome || s.finalizingGen.isSome || s.pend.draining ||
    !s.pend.turns.isEmpty)

/-- The head of the loop over the segments. -/
def dispSegment (cfg : Cfg) (s : State α) : State α :=
  let samples := s.disp.current.samples
  let event := s.disp.current.event
  let s := { s with trace := .arrived s.disp.current :: s.trace }
  if pendingBlocked cfg s then
    if event = some .speechStart then { s with disp.pc := .pendingStart }
    else if s.pend.openTurn.isSome then
      match s.pend.appendTurn cfg.pendingLimitSamples samples with
      | none => s.rejectPending "turn buffer full"
      | some pend =>
        if event = some .speechEnd then { s with pend := pend.markEnd, disp.pc := .pendingEnd }
        else State.nextSegment { s with pend := pend }
    else
      match s.pend.appendTail cfg.pendingLimitSamples samples with
      | none => s.rejectPending "tail buffer full"
      | some pend =>
        if event = some .speechEnd then { s with pend := pend, disp.pc := .pendingEnd }
        else State.nextSegment { s with pend := pend }
  else if event = some .speechStart then { s with disp.pc := .liveStart }
  else { s with disp.pc := .lazyTest }

/-- A speech-start behind a final in flight opens a queued turn. -/
def dispPendingStart (cfg : Cfg) (s : State α) : State α :=
  match s.pend.newTurn cfg.pendingLimitSamples s.disp.current.samples with
  | none => s.rejectPending "speech-start buffer full"
  | some pend =>
    State.nextSegment { s with
      pend := pend
      trace := .queued s.pend.fresh s.pend.tail s.disp.current.samples :: s.trace }

/-- A speech-start that is not held back. -/
def dispLiveStart (cfg : Cfg) (s : State α) (e : Env) : State α :=
  if !cfg.multiUtterance && s.asrStartedOnce && !(s.asrActive && e.prefersBackendVad) then
    s.nextSegment
  else if s.asrActive && e.prefersBackendVad && !e.managerIdle then
    -- a barge-in only: the backend's stream goes on
    { s with disp.pc := .lazyTest }
  else { s with disp.pc := .openTurn, disp.call := .issued }

/-- `on_speech_start` of a speech-start came back: the preroll is replayed. -/
def dispOpened (s : State α) (gen : ℕ) : State α :=
  let s := s.clearEndpoint.clearPrepare.activate gen
  if s.preroll = [] then { s with prerollSamples := 0, disp.pc := .lazyTest }
  else { s with disp.pre := s.preroll.flatten, disp.pc := .replay, disp.call := .issued }

/-- The test for a lazy open. -/
def dispLazyTest (cfg : Cfg) (s : State α) : State α :=
  if (!cfg.vad || cfg.backendPrefersEndpointVad) && !s.asrActive && s.endpointPending.isNone &&
      (cfg.multiUtterance || !s.asrStartedOnce) then
    { s with disp.pc := .lazyOpen, disp.call := .issued }
  else { s with disp.pc := .feedTest }

/-- The speech-end part, after the audio of the segment was accepted. -/
def dispLatch (cfg : Cfg) (s : State α) (e : Env) : State α :=
  if s.disp.current.event = some .speechEnd then
    if !e.prefersBackendVad ||
        (e.allowsFrontendEou && decide (e.frontendEouMinAudioS ≤ s.acceptedAudioS cfg)) then
      { s.schedulePrepare.setEndpoint .vad s.asrActiveGen s.stream with
        asrSessionClosed := s.asrSessionClosed || !cfg.multiUtterance
        disp.pc := .latched }
    else { s with disp.pc := .latched }
  else { s with disp.pc := .ring }

/-- The preroll ring, while no turn is open. -/
def dispRing (cfg : Cfg) (s : State α) : State α :=
  if decide (0 < cfg.prerollCap) && !s.asrActive then
    (s.extendPreroll cfg [s.disp.current.samples] s.disp.current.samples.length).nextSegment
  else s.nextSegment

/-- The dispatcher runs on to its next switch point or join.  A manager call that raises
anything but `ASRSessionUnavailable` ends it. -/
def dispStep (cfg : Cfg) (s : State α) (e : Env) : Option (State α) :=
  match s.disp.pc with
  | .recv | .ended => none
  | .joinCancel =>
    if e.ok then
      if s.asrCancelTask = some true then some (admitAudio cfg { s with asrCancelTask := none })
      else none
    else some { s with disp.pc := .joinFailed }
  | .joinFailed =>
    some { s.send e (.error "asr: abort cleanup timed out") with
      asrSessionClosed := true
      disp.pc := .recv }
  | .segment => some (dispSegment cfg s)
  | .pendingStart => some (dispPendingStart cfg (s.send e (.vadEvent .speechStart)))
  | .pendingEnd => some (s.send e (.vadEvent .speechEnd)).nextSegment
  | .rejecting reason =>
    some (s.send e (.error s!"asr: pending audio limit exceeded ({reason})")).nextSegment
  | .liveStart => some (dispLiveStart cfg (s.send e (.vadEvent .speechStart)) e)
  | .openTurn =>
    match s.disp.call with
    | .issued => none
    | .returned gen => some (dispOpened s gen)
    | .raised => some { s with disp.pc := .openFailed }
  | .openFailed =>
    some { (s.send e (.error "asr_unavailable")).clearEndpoint with asrActive := false }.nextSegment
  | .replay =>
    match s.disp.call with
    | .issued => none
    | .returned _ =>
      some { s.countAudio cfg s.disp.pre with
        preroll := []
        prerollSamples := 0
        disp.pc := .lazyTest }
    | .raised => some { s with disp.pc := .ended }
  | .lazyTest => some (dispLazyTest cfg s)
  | .lazyOpen =>
    match s.disp.call with
    | .issued => none
    | .returned gen =>
      some { s.clearEndpoint.clearPrepare.activate gen with disp.pc := .feedTest }
    | .raised => some { s with disp.pc := .lazyFailed }
  | .lazyFailed =>
    some { s.send e (.error "asr_unavailable") with asrActive := false }.nextSegment
  | .feedTest =>
    if s.asrActive then some { s with disp.pc := .feed, disp.call := .issued }
    else some { s with disp.pc := .latch }
  | .feed =>
    match s.disp.call with
    | .issued => none
    | .returned _ => some { s.countAudio cfg s.disp.current.samples with disp.pc := .latch }
    | .raised => some { s with disp.pc := .ended }
  | .latch => some (dispLatch cfg s e)
  | .latched => some { s.send e (.vadEvent .speechEnd) with disp.pc := .ring }
  | .ring => some (dispRing cfg s)

/-! ### The output task -/

/-- The top of the polling loop. -/
def outTop (s : State α) (e : Env) : State α :=
  if s.clientClosed then { s with out.pc := .ended }
  else if s.asrActive && s.asrTurnStartedAt && e.expired then { s with out.pc := .deadlineCancel }
  else if s.asrActive then { s with out.pc := .getPartial }
  else { s with out.isEndpoint := false, out.pc := .decide }

/-- The turn deadline, after the cancellation. -/
def outDeadline (s : State α) : State α :=
  { s.deactivate.clearEndpoint.clearPrepare with out.pc := .deadlineSend }

/-- The partial is there, or the call failed. -/
def outPartial (s : State α) (e : Env) : State α :=
  if !e.ok then { s with out.isEndpoint := false, out.pc := .decide }
  else if e.text ≠ "" ∧ e.partialGen = s.generation ∧ e.partialGen = s.asrActiveGen then
    { s with out.isEndpoint := e.isEndpoint, out.partialText := e.text, out.pc := .sendPartial }
  else { s with out.isEndpoint := e.isEndpoint, out.pc := .decide }

/-- The marker was set for a generation that is not the active one any more. -/
def staleEndpoint (s : State α) : Bool :=
  s.endpointPending.isSome && s.endpointPendingGen.isSome &&
    decide (s.endpointPendingGen ≠ some s.asrActiveGen)

/-- An endpoint fires, or none does.  An endpoint the backend reports on an active
stream is a trigger. -/
def outDecide (cfg : Cfg) (s : State α) : State α :=
  let s := if staleEndpoint s then s.clearEndpoint else s
  let observed := s.out.isEndpoint && s.asrActive
  let trace := if observed then .trigger :: s.trace else s.trace
  if s.endpointPending.isSome || observed then
    { s with
      trace := trace
      asrSessionClosed := s.asrSessionClosed || !cfg.multiUtterance
      out.reason := s.endpointPending
      out.answers := if s.endpointPending.isSome then s.markerNo else triggers s.trace
      out.firedGen := if s.asrActive then some s.asrActiveGen else s.markerGen
      out.pc := if s.endpointPending = some .clientEos then .fired else .sendEndpoint }
  else { s with out.pc := .loopEnd }

/-- An endpoint has fired: finalize the active generation, or answer at once. -/
def outFired (s : State α) : State α :=
  if s.asrActive then
    { s with
      out.gen := s.asrActiveGen
      out.firedGen := some s.asrActiveGen
      out.pc := if s.preparing then .prepWait else .prepared }
  else { s with out.text := "", out.language := none, out.pc := .enrich }

/-- The generation was retired while prepare ran, or its finalize begins. -/
def outPrepared (s : State α) : State α :=
  if !s.asrActive || decide (s.asrActiveGen ≠ s.out.gen) then
    if s.endpointPendingGen = some s.out.gen then { s.clearEndpoint with out.pc := .top }
    else { s with out.pc := .top }
  else
    { s with
      finalizingGen := some s.out.gen
      asrFinalizeTask := some (.running false)
      out.pc := .finalize .waiting }

/-- The finalize was accepted. -/
def outAccepted (cfg : Cfg) (s : State α) (text : String) (language : Option String) : State α :=
  let s := if s.asrActiveGen = s.out.gen then s.deactivate.clearPrepare else s
  let s := s.clearEndpoint
  let s := if s.pend.turns = [] then s.movePendingTailToPreroll cfg else s
  { s with
    asrFinalizeTask := none
    finalizingGen := none
    out.text := text
    out.language := language
    out.pc := .enrich }

/-- The finalize was not accepted.  Only an aborted one has no failure to report. -/
def outNotAccepted (s : State α) (e : Env) (failure : Option String) : State α :=
  let s := if e.managerIdle then s.deactivate.clearEndpoint.clearPrepare else s
  let s := { s.clearPending with asrFinalizeTask := none, finalizingGen := none }
  match failure with
  | some failure =>
    if s.clientClosed then { s with out.pc := .top }
    else { s with out.failure := failure, out.pc := .rejectSend }
  | none => { s with out.pc := .top }

/-- `except asyncio.CancelledError`: an abort, or the end of the task. -/
def outCancelled (s : State α) (e : Env) : State α :=
  if s.asrAbortRequested then outNotAccepted { s with asrAbortRequested := false } e none
  else { s with asrFinalizeTask := none, out.pc := .ended }

/-- `wait_for` of the finalize comes back. -/
def outFinalize (cfg : Cfg) (s : State α) (e : Env) (wait : Wait) (outcome : Outcome) : State α :=
  match wait, outcome with
  | .cancelled, _ | .waiting, .cancelled => outCancelled s e
  | _, .accepted text language => outAccepted cfg s text language
  | _, .rejected => outNotAccepted s e (some "finalize rejected")
  | _, .raised => { s with asrFinalizeTask := none, out.pc := .ended }
  | _, .raisedTimeout | .timedOut, .cancelled => { s with out.pc := .finalizeCancel }

/-- The payload of the final is made. -/
def outFinal (cfg : Cfg) (s : State α) : State α :=
  let closing := cfg.multiUtterance && s.asrSessionClosed
  { s with
    spkSeg := []
    out.closing := closing
    out.payload :=
      { text := s.out.text
        sessionComplete := if cfg.multiUtterance then some s.asrSessionClosed else none
        duplicateOfStreamed :=
          if closing then some (s.out.text == s.out.lastStreamedFinal.getD "") else none
        language := s.out.language.filter (· ≠ "") }
    out.pc := .finalLock }

/-- The final is out.  A queued turn is opened only now. -/
def outFinalSent (cfg : Cfg) (s : State α) : State α :=
  if !cfg.multiUtterance then { s with clientClosed := true, out.pc := .ended }
  else if s.out.closing then { s with out.pc := .ended }
  else
    let s := { s with out.lastStreamedFinal := some s.out.text }
    match s.pend.turns with
    | [] => { s with out.pc := .loopEnd }
    | turn :: _ =>
      if s.clientClosed then { s with out.pc := .loopEnd }
      else
        { s with
          pend.draining := true
          out.turn := turn
          out.call := .issued
          out.pc := .drainOpen }

/-- Drain: `on_speech_start` came back. -/
def drainOpened (s : State α) (gen : ℕ) : State α :=
  { s.activate gen with
    preroll := []
    prerollSamples := 0
    out.index := 0
    out.newGen := gen
    out.pc := .drainNext }

/-- Drain: `except Exception`. -/
def drainFailed (s : State α) : State α :=
  if s.asrActive then { s with out.pc := .drainFailCancel }
  else
    { s.deactivate.clearEndpoint.clearPending with
      finalizingGen := none
      out.pc := .drainFailSend }

/-- Drain: a turn that has ended sets the marker of its generation. -/
def drainMark (s : State α) : State α :=
  let turn := s.pend.turn s.out.turn
  if turn.ended then
    s.schedulePrepare.setEndpoint (turn.endpointReason.getD .vad) s.out.newGen (some s.out.newGen)
  else s

/-- Drain: the first turn leaves the queue. -/
def drainPop (s : State α) : State α :=
  match s.pend.popTurn s.out.turn with
  | none => drainFailed { s with trace := .popped none s.out.turn :: s.trace }
  | some pend =>
    { s with
      trace := .popped s.pend.turns.head? s.out.turn :: s.trace
      pend := pend
      out.pc := .loopEnd }

/-- Drain: the loop over the segments. -/
def drainNext (s : State α) : State α :=
  match (s.pend.turn s.out.turn).segments[s.out.index]? with
  | some segment =>
    if segment = [] then { s with out.index := s.out.index + 1 }
    else
      { s with
        trace := .fed s.out.turn segment :: s.trace
        out.segment := segment
        out.call := .issued
        out.pc := .drainFeed }
  | none => drainPop (drainMark s)

/-- `asr_out_task` runs on to its next switch point or join. -/
def outStep (cfg : Cfg) (s : State α) (e : Env) : Option (State α) :=
  match s.out.pc with
  | .ended => none
  | .sleep => some { s with out.pc := .top }
  | .top => some (outTop s e)
  | .deadlineCancel =>
    if !e.ok && cfg.restartWorker then some { s with out.pc := .deadlineRestart }
    else some (outDeadline s)
  | .deadlineRestart => some (outDeadline s)
  | .deadlineSend =>
    let s := s.send e (.error s!"asr: per-turn deadline {cfg.turnTimeout}s exceeded")
    if cfg.multiUtterance && !s.asrSessionClosed then some { s with out.pc := .sleep }
    else some { s with out.pc := .ended }
  | .getPartial => some (outPartial s e)
  | .sendPartial =>
    some { s.send e (.asrPartial s.out.partialText s.out.isEndpoint) with out.pc := .decide }
  | .decide => some (outDecide cfg s)
  | .sendEndpoint => some { s.send e .asrEndpoint with out.pc := .fired }
  | .fired => some (outFired s)
  | .prepWait => some { s with out.pc := .prepared }
  | .prepared => some (outPrepared s)
  | .finalize wait =>
    match s.asrFinalizeTask with
    | some (.ended outcome) => some (outFinalize cfg s e wait outcome)
    | _ => none
  | .finalizeCancel => some (outNotAccepted s e (some "finalize timeout"))
  | .rejectSend => some { s.send e (.error s!"asr: {s.out.failure}") with out.pc := .top }
  | .enrich =>
    some { s with out.pc := if cfg.punctOn ∧ s.out.text ≠ "" then .punct else .speakerTest }
  | .punct =>
    some { s with
      out.text := if e.ok then e.text else s.out.text
      out.pc := .speakerTest }
  | .speakerTest => some { s with out.pc := if cfg.spkOn ∧ s.spkSeg ≠ [] then .speaker else .final }
  | .speaker => some { s with out.pc := .final }
  | .final => some (outFinal cfg s)
  | .finalLock =>
    some { s with
      trace := .final s.out.answers s.out.firedGen :: s.trace
      out.pc := .finalSend }
  | .finalSend => some (outFinalSent cfg (s.send e (.asrFinal s.out.payload)))
  | .drainOpen =>
    match s.out.call with
    | .issued => none
    | .returned gen => some (drainOpened s gen)
    | .raised => some (drainFailed s)
  | .drainNext => some (drainNext s)
  | .drainFeed =>
    match s.out.call with
    | .issued => none
    | .returned _ =>
      some { s with
        asrAudioSamplesAccepted := s.asrAudioSamplesAccepted + s.out.segment.length
        out.index := s.out.index + 1
        out.pc := .drainNext }
    | .raised => some (drainFailed s)
  | .drainFailCancel =>
    some { s.deactivate.clearEndpoint.clearPending with
      finalizingGen := none
      out.pc := .drainFailSend }
  | .drainFailSend =>
    some { s.send e (.error "asr: pending turn activation failed") with out.pc := .loopEnd }
  | .loopEnd =>
    if s.asrSessionClosed && !s.asrActive then some { s with out.pc := .ended }
    else some { s with out.pc := .sleep }

/-! ### The connection -/

/-- The actions of a connection. -/
inductive Act (α : Type)
  /-- A frame reaches the dispatcher. -/
  | receive (msg : Msg α)
  /-- The dispatcher runs on. -/
  | disp (e : Env)
  /-- `asr_out_task` runs on. -/
  | out (e : Env)
  /-- A manager call of the dispatcher takes effect, or raises. -/
  | dispCall (ok : Bool)
  /-- A manager call of the drain takes effect, or raises. -/
  | outCall (ok : Bool)
  /-- The finalize task ends. -/
  | finalizeEnds (outcome : Outcome)
  /-- The timeout of the finalize passes. -/
  | finalizeTimeout
  /-- The task that cancels an aborted utterance ends. -/
  | cancelEnds
  /-- The prepare task ends. -/
  | prepareEnds
  /-- A cancellation is delivered to `asr_out_task`. -/
  | cancelOut (e : Env)
  /-- The dispatcher is cancelled, or an exception ends it. -/
  | dispFails
  /-- The handler's `finally` drops the held back audio. -/
  | teardown

/-- The effect of the dispatcher's manager call. -/
def dispCall (s : State α) (ok : Bool) : Option (State α) :=
  if s.disp.call = .issued then
    match s.disp.pc with
    | .openTurn | .lazyOpen =>
      if ok then
        some { s with
          generation := s.generation + 1
          disp.call := .returned (s.generation + 1)
          trace := .opened (s.generation + 1) none :: s.trace }
      else some { s with disp.call := .raised }
    | .replay =>
      if ok then
        some { s with
          disp.call := .returned s.generation
          trace := .accepted s.generation s.disp.pre :: s.trace }
      else some { s with disp.call := .raised }
    | .feed =>
      if ok then
        some { s with
          disp.call := .returned s.generation
          trace := .accepted s.generation s.disp.current.samples :: s.trace }
      else some { s with disp.call := .raised }
    | _ => none
  else none

/-- The effect of the drain's manager call. -/
def outCall (s : State α) (ok : Bool) : Option (State α) :=
  if s.out.call = .issued then
    match s.out.pc with
    | .drainOpen =>
      if ok then
        some { s with
          generation := s.generation + 1
          out.call := .returned (s.generation + 1)
          trace := .opened (s.generation + 1) (some s.out.turn) :: s.trace }
      else some { s with out.call := .raised }
    | .drainFeed =>
      if ok then
        some { s with
          out.call := .returned s.generation
          trace := .accepted s.generation s.out.segment :: s.trace }
      else some { s with out.call := .raised }
    | _ => none
  else none

/-- A cancellation reaches `asr_out_task` at an await.  `wait_for` passes it on to the
child and waits for that; the result of a finished child wins over it. -/
def cancelOut (s : State α) (e : Env) : Option (State α) :=
  match s.out.pc with
  | .ended => none
  | .finalize .waiting =>
    match s.asrFinalizeTask with
    | some (.running _) =>
      some { s with asrFinalizeTask := some (.running true), out.pc := .finalize .cancelled }
    | _ => some s
  | .finalize _ => some (outCancelled s e)
  | _ => some { s with out.pc := .ended }

/-- One step of the connection.  A task between two awaits is not interrupted. -/
def step (cfg : Cfg) (s : State α) : Act α → Option (State α)
  | .disp e => if s.out.pc.running then none else dispStep cfg s e
  | .out e => if s.disp.pc.running then none else outStep cfg s e
  | a =>
    if s.disp.pc.running || s.out.pc.running then none
    else
      match a with
      | .receive msg => receive cfg s msg
      | .dispCall ok => dispCall s ok
      | .outCall ok => outCall s ok
      | .finalizeEnds outcome =>
        match s.asrFinalizeTask with
        | some (.running _) => some { s with asrFinalizeTask := some (.ended outcome) }
        | _ => none
      | .finalizeTimeout =>
        match s.out.pc, s.asrFinalizeTask with
        | .finalize .waiting, some (.running _) =>
          some { s with asrFinalizeTask := some (.running true), out.pc := .finalize .timedOut }
        | _, _ => none
      | .cancelEnds =>
        if s.asrCancelTask = some false then some { s with asrCancelTask := some true } else none
      | .prepareEnds =>
        if s.asrPrepareTask = some false then some { s with asrPrepareTask := some true } else none
      | .cancelOut e => cancelOut s e
      | .dispFails => if s.disp.pc = .ended then none else some { s with disp.pc := .ended }
      | .teardown => some s.clearPending
      | .disp _ | .out _ => none

/-- The connection as a machine. -/
def machine (cfg : Cfg) : Machine (State α) (Act α) := { init := .start, step := step cfg }

/-! ### Pieces of runs -/

/-- A connection with a frontend VAD, kept open over many utterances. -/
def exampleCfg : Cfg :=
  { multiUtterance := true, vad := true, backendPrefersEndpointVad := false, sampleRate := 16000,
    pendingLimitSeconds := 10, prerollCap := 4800, keepAsrMaxS := 5, turnTimeout := "45",
    restartWorker := false, punctOn := false, spkOn := false }

/-- Speech starts with the sample `x` while nothing is held back. -/
def startTurn (x : ℕ) : List (Act ℕ) :=
  [.receive (.audio [x] [1]), .disp {}, .disp {}, .dispCall true, .disp {}, .disp {}, .disp {},
    .dispCall true, .disp {}, .disp {}, .disp {}]

/-- That speech ends with the sample `x`. -/
def endTurn (x : ℕ) : List (Act ℕ) :=
  [.receive (.audio [x] [1]), .disp {}, .disp {}, .disp {}, .dispCall true, .disp {}, .disp {},
    .disp {}, .disp {}]

/-- Speech starts with the sample `x` while a final is in flight. -/
def queueTurn (x : ℕ) : List (Act ℕ) := [.receive (.audio [x] [1]), .disp {}, .disp {}]

/-- `asr_out_task` polls, sees the marker and starts the finalize. -/
def pollToFinalize : List (Act ℕ) :=
  [.out {}, .out {}, .out {}, .out {}, .out {}, .out {}, .prepareEnds, .out {}, .out {}]

/-- The finalize is accepted and its final sent. -/
def sendFinal : List (Act ℕ) :=
  [.finalizeEnds (.accepted "a" none), .out {}, .out {}, .out {}, .out {}, .out {}, .out {}]

end Asr
end V2v
end OpenVoiceStream
