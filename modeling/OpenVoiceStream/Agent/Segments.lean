import Mathlib.Algebra.Order.Ring.Int
import OpenVoiceStream.Base.Machine
import OpenVoiceStream.V2v.Tts.Buffer

/-!
# The segments of an utterance

The recogniser ends a segment after a short silence, the agent ends an utterance by an
`asr_eos`. `BaseApp` keeps the segments that come before and routes them as one turn with the
final that answers.

What is between two awaits is one step. A piece of the program that awaits is a `Task`; it goes
on, or is cancelled, at any later step. The dispatcher handles one event after the other, so its
place is a field. Timers are not tracked: each may fire at any step, as its own tests allow.
What the audio, the voice activity detection and the server do is chosen with the step.

## Main definitions

* `joinAsrSegmentText`, `lowSignal` — the texts.
* `App`, `Entry` — the fields, and what has happened.
* `handleFinal` — what becomes of a final.
* `step`, `machine` — the program.
* `utterance`, `Carries`, `Whole` — what is asked of the turns.
* `Careful` — the steps that keep it so.
-/

namespace OpenVoiceStream.Agent.Segments

open V2v.Tts (CharTables strip)

/-! ### Texts -/

/-- What the program is given: the tables of Unicode with the letters and numbers and
`str.lower`, the intents the configuration names words for, and the settings. -/
structure Config where
  tables : CharTables
  isLetterOrNumber : Char → Bool
  lower : Text → Text
  isStopIntent : Text → Bool
  isExitIntent : Text → Bool
  alwaysOn : Bool
  clientVadDriveEos : Bool
  wakeCommandSingleTurn : Bool
  stopToSleep : Bool

/-- `_INTERJECTIONS`. -/
def interjections : List Text :=
  ["嗯", "啊", "哦", "呃", "唉", "诶", "哎", "噢", "唔", "呀", "哈", "哇", "呢", "吧", "吗", "呐",
    "嘛", "诶呀", "啊啊", "嗯嗯", "uh", "um", "ah", "oh", "ok", "okay", "hmm", "huh", "yeah", "yep",
    "you", "the", "and", "a", "i"].map String.toList

variable (cfg : Config)

/-- `_strip_for_signal`. -/
def stripForSignal (text : Text) : Text := cfg.lower (text.filter cfg.isLetterOrNumber)

/-- `_is_low_signal`. -/
def lowSignal (text : Text) : Bool :=
  decide (strip cfg.tables text = []) || decide ((stripForSignal cfg text).length ≤ 1) ||
    decide (stripForSignal cfg text ∈ interjections)

/-- `_is_ascii_word_char`. -/
def isAsciiWordChar (c : Char) : Bool := c.isAlphanum || c == '_'

/-- The seam of two texts. -/
def seam (left right : Text) : Text :=
  if left.getLast?.any isAsciiWordChar && right.head?.any isAsciiWordChar then [' '] else []

/-- `_join_asr_segment_text`. -/
def joinAsrSegmentText (left right : Text) : Text :=
  let left := strip cfg.tables left
  let right := strip cfg.tables right
  if left = [] then right
  else if right = [] then left
  else left ++ seam left right ++ right

/-- The texts joined one after the other. -/
def joined (texts : List Text) : Text := texts.foldl (joinAsrSegmentText cfg) []

/-! ### The fields -/

/-- `ConvState`. -/
inductive ConvState
  | idle
  | listening
  | thinking
  | speaking
  | bargedIn
  | sleeping
  deriving DecidableEq

/-- `ASRFinal`. -/
structure ASRFinal where
  text : Text
  duplicateOfStreamed : Bool
  sessionComplete : Bool
  deriving DecidableEq

/-- `_final_text`. -/
def ASRFinal.finalText (final : ASRFinal) : Text :=
  if final.duplicateOfStreamed then [] else final.text

/-- What a piece of the program awaits, by what it does next. -/
inductive Task
  /-- `_interrupt_current_turn_for_barge_in`. -/
  | bargeIn
  /-- `_update_vad`, the broadcast at the end of speech. -/
  | speechEnd
  /-- `slv.asr_eos`, where the caller then goes to `THINKING`. -/
  | claimThinking
  /-- `slv.asr_eos` in `_bargein_eos_fallback`. -/
  | claimBargedIn
  /-- `_speak_wake_command_no_final_feedback`. -/
  | noFinalFeedback
  /-- `_thinking_watchdog`, the abort and the reconnect. -/
  | recovery
  /-- `sleep`, and whether it is part of the end of a turn. -/
  | sleep (turnDone : Bool)
  /-- `wake`, and whether `_api_ptt_start` called it. -/
  | wake (ptt : Bool)
  /-- `_api_ptt_start`, the wake reply. -/
  | pttListen
  /-- The end of `ResponseDone` and `TTSDone`. -/
  | turnDone
  /-- `ResponseDone` with function calls only. -/
  | functionCall
  /-- `SLVError`, and the state it came in. -/
  | transportError (oldState : ConvState)
  /-- `_slv_dispatch`, the reconnect. -/
  | reopen
  /-- A stop or an exit, and whether the agent should sleep. -/
  | stop (shouldSleep : Bool)
  deriving DecidableEq

/-- Where the dispatcher is: in `ASRFinal` it awaits the reconnect, the interruption of the reply
that still plays, `on_user_utterance`, or the end of the last LLM task. -/
inductive Place
  | ready
  | reconnecting (final : ASRFinal) (hadPendingEos : Bool)
  | superseding (fullText : Text)
  | announcing (fullText : Text)
  | replacing (fullText : Text)
  | awaiting (task : Task)
  deriving DecidableEq

/-- What has happened: a final came, while an EOS was outstanding or not, a turn went out, or an
utterance was abandoned. -/
inductive Entry
  | final (final : ASRFinal) (closing : Bool)
  | turn (text : Text)
  | abandoned
  deriving DecidableEq

/-- The fields of `BaseApp`. Not of the program are `outstanding`, an EOS has gone out and neither
been answered nor been abandoned, and `log`, newest first. -/
structure App where
  state : ConvState
  eosSentThisTurn : Bool
  pendingAsrUtteranceText : Text
  place : Place
  tasks : List Task
  outstanding : Bool
  log : List Entry

/-- `__init__`. -/
def App.init : App :=
  { state := if cfg.alwaysOn then .idle else .sleeping
    eosSentThisTurn := false
    pendingAsrUtteranceText := []
    place := .ready
    tasks := []
    outstanding := false
    log := [] }

namespace App

variable (s : App)

/-- The utterance is abandoned. -/
def abandon : App := { s with outstanding := false, log := .abandoned :: s.log }

/-- The utterance is abandoned with its segments: `_clear_pending_asr_utterance`. -/
def clearPendingAsrUtterance : App := { s.abandon with pendingAsrUtteranceText := [] }

/-- A task is started. -/
def start (task : Task) : App := { s with tasks := s.tasks ++ [task] }

/-- `send_asr_eos_once`, where it sends. -/
def sendAsrEos (delivered : Bool) : App :=
  { s with eosSentThisTurn := true, outstanding := s.outstanding || delivered }

/-- `_return_to_sleep_after_command_turn`. -/
def returnToSleep : App :=
  if s.state = .sleeping then s
  else { s.clearPendingAsrUtterance with eosSentThisTurn := false, state := .sleeping }

end App

/-! ### Tasks -/

/-- What a task does until it awaits again; `ok` tells whether what it awaited, or what it then
sends, succeeds. -/
def Task.goOn (s : App) (ok : Bool) : Task → App × Option Task
  | .bargeIn => ({ s with eosSentThisTurn := false }, none)
  | .speechEnd =>
    if s.eosSentThisTurn then ({ s with state := .thinking }, none)
    else (s.sendAsrEos ok, some .claimThinking)
  | .claimThinking => ({ s with state := .thinking }, none)
  | .claimBargedIn => (if s.state = .bargedIn then { s with state := .thinking } else s, none)
  | .noFinalFeedback => (if ok then s else s.returnToSleep, none)
  | .recovery => ({ s with eosSentThisTurn := false, state := .idle }, none)
  | .sleep ends =>
    ({ s.clearPendingAsrUtterance with state := .sleeping },
      if ends then some .turnDone else none)
  | .wake ptt =>
    (if ok then { s with state := .idle } else s, if ptt then some .pttListen else none)
  | .pttListen => ({ s with state := .listening, eosSentThisTurn := false }, none)
  | .turnDone => ({ s with eosSentThisTurn := false }, none)
  | .functionCall => (if s.state = .bargedIn then s else { s with state := .thinking }, none)
  | .transportError oldState =>
    (if oldState = .sleeping then s else { s with state := .idle }, none)
  | .reopen =>
    if ok then
      ({ s.clearPendingAsrUtterance with
          eosSentThisTurn := false
          state := if s.state = .thinking ∨ s.state = .bargedIn then .idle else s.state }, none)
    else (s, none)
  | .stop shouldSleep =>
    if !shouldSleep then ({ s with state := .idle }, none)
    -- the exit reply is spoken, and the sleep comes after it
    else if ok then (if s.state = .bargedIn then { s with state := .idle } else s, none)
    else (s, if s.state = .sleeping then none else some (.sleep false))

/-- What ends a turn in `_complete_assistant_turn`. -/
inductive Completion
  | sleepAfter
  | retryWindow
  | returnToSleep
  | plain
  deriving DecidableEq

/-- `_complete_assistant_turn`. -/
def completeAssistantTurn (s : App) : Completion → App × Option Task
  | .sleepAfter => (s, if s.state = .sleeping then none else some (.sleep false))
  | .retryWindow =>
    if s.state = .bargedIn then (s, none)
    else ({ s with eosSentThisTurn := false, state := .idle }, none)
  | .returnToSleep => (if s.state = .bargedIn then s else s.returnToSleep, none)
  | .plain => (if s.state = .bargedIn then s else { s with state := .idle }, none)

/-! ### A final -/

/-- A low-signal final that closes nothing. -/
def dropFinal (s : App) (hadPendingEos : Bool) : App :=
  if (s.state = .listening ∨ s.state = .bargedIn) ∧ s.pendingAsrUtteranceText = [] then
    { s with state := .idle }
  else if s.state = .thinking ∧ hadPendingEos then
    if cfg.wakeCommandSingleTurn then { s with place := .awaiting .noFinalFeedback }
    else { s with state := .idle }
  else s

/-- A final that would be dropped by itself. -/
def noise (final : ASRFinal) : Bool :=
  lowSignal cfg final.text && !(cfg.isStopIntent final.text || cfg.isExitIntent final.text)

/-- What becomes of a final after the reconnect: it is dropped, kept for the end of the utterance,
or routed with what has been kept. A reply that still plays is interrupted first. -/
def handleFinal (s : App) (final : ASRFinal) (hadPendingEos interrupts : Bool) : App :=
  let s := { s with place := .ready }
  if noise cfg final && !(hadPendingEos && decide (s.pendingAsrUtteranceText ≠ [])) then
    dropFinal cfg s hadPendingEos
  else if cfg.clientVadDriveEos && !hadPendingEos &&
      decide (s.state = .listening ∨ s.state = .bargedIn) then
    -- `_accumulate_asr_segment`
    if strip cfg.tables final.finalText = [] then s
    else
      { s with
        pendingAsrUtteranceText :=
          joinAsrSegmentText cfg s.pendingAsrUtteranceText final.finalText }
  else
    let fullText := joinAsrSegmentText cfg s.pendingAsrUtteranceText final.finalText
    let s := { s with pendingAsrUtteranceText := [] }
    if interrupts then { s with place := .superseding fullText }
    else { s with place := .announcing fullText, eosSentThisTurn := false }

/-- A final arrives. -/
def asrFinal (s : App) (final : ASRFinal) (interrupts : Bool) : App :=
  let s' := { s with outstanding := false, log := .final final s.outstanding :: s.log }
  -- the reconnect of a session that is complete changes nothing here
  if s.state = .sleeping then s'.abandon
  else
    let hadPendingEos := s.eosSentThisTurn
    let s' := { s' with eosSentThisTurn := false }
    if final.duplicateOfStreamed && decide (s.pendingAsrUtteranceText = []) then
      if s.state = .thinking then { s' with state := .idle } else s'
    else if final.sessionComplete then { s' with place := .reconnecting final hadPendingEos }
    else handleFinal cfg s' final hadPendingEos interrupts

/-- The LLM task is started. -/
def startTurn (s : App) (fullText : Text) : App :=
  { s with place := .ready, state := .thinking, log := .turn fullText :: s.log }

/-- The dispatcher goes on. `ok` tells, in an `ASRFinal`, whether something is in the way: the
reply that still plays, or the last LLM task. -/
def goOn (s : App) (ok : Bool) : Option App :=
  match s.place with
  | .ready => none
  | .reconnecting final hadPendingEos => some (handleFinal cfg s final hadPendingEos ok)
  | .superseding fullText =>
    some { s with place := .announcing fullText, eosSentThisTurn := false }
  | .announcing fullText =>
    if cfg.isExitIntent fullText || cfg.isStopIntent fullText then
      some
        { s with
          place := .awaiting (.stop (cfg.isExitIntent fullText || cfg.stopToSleep))
          log := .turn fullText :: s.log }
    else if ok then some { s with place := .replacing fullText }
    else some (startTurn s fullText)
  | .replacing fullText => some (startTurn s fullText)
  | .awaiting task =>
    let (s, next) := task.goOn s ok
    some { s with place := next.elim .ready .awaiting }

/-! ### Steps -/

/-- What happens next. -/
inductive Event
  /-- The dispatcher takes an event of the server, or goes on. -/
  | asrFinal (final : ASRFinal) (interrupts : Bool)
  | bargeInFrame
  | firstTtsAudio
  | functionCallDone
  | turnDone (completion : Completion)
  | slvError
  | readerExited (replaced : Bool)
  | goOn (ok : Bool)
  /-- The client-side voice activity detection and the gate of the microphone. -/
  | speechStarted (playing bargeInEnabled delayElapsed : Bool)
  | speechEnded
  | gateClosed (delivered : Bool)
  /-- The timers. -/
  | asrFinalTimeout
  | thinkingTimeout
  | stallTimeout (delivered : Bool)
  | bargeInTimeout (delivered : Bool)
  | wakeCommandTimeout (delivered : Bool)
  | sleepTimeout
  /-- What others call. -/
  | sleep
  | wake
  | pttStart
  | pttEnd (delivered : Bool)
  /-- The LLM task failed, or a mode took the turn without a reply. -/
  | llmFailed
  | silentTurn
  /-- The playback has drained. -/
  | playbackDrained (completion : Completion)
  /-- A task goes on or is cancelled. -/
  | resume (i : ℕ) (ok : Bool)
  | cancel (i : ℕ)
  deriving DecidableEq

/-- `sleep` up to its first await. -/
def callSleep (s : App) : Option App :=
  if s.state = .sleeping then none else some (s.start (.sleep false))

/-- The steps of the program. -/
def step (s : App) : Event → Option App
  | .asrFinal final interrupts =>
    if s.place = .ready then some (asrFinal cfg s final interrupts) else none
  | .bargeInFrame =>
    if s.place = .ready ∧ (s.state = .speaking ∨ s.state = .bargedIn) then
      some { s with state := .bargedIn, place := .awaiting .bargeIn }
    else none
  | .firstTtsAudio =>
    if s.place = .ready ∧ s.state ≠ .bargedIn then some { s with state := .speaking } else none
  | .functionCallDone =>
    if s.place = .ready then some { s with place := .awaiting .functionCall } else none
  | .turnDone completion =>
    if s.place = .ready then
      let (s, next) := completeAssistantTurn s completion
      some { s with place := .awaiting (if next = none then .turnDone else .sleep true) }
    else none
  | .slvError =>
    if s.place = .ready then
      some { s.clearPendingAsrUtterance with place := .awaiting (.transportError s.state) }
    else none
  | .readerExited replaced =>
    -- another connection is there already, or is coming: the dispatcher goes on with it
    if s.place = .ready then
      some { s.abandon with place := if replaced then .ready else .awaiting .reopen }
    else none
  | .goOn ok => goOn cfg s ok
  | .speechStarted playing bargeInEnabled delayElapsed =>
    if s.state = .sleeping then none
    else
      let s :=
        if s.state = .thinking ∧ s.eosSentThisTurn then { s with eosSentThisTurn := false } else s
      if playing then
        if s.state = .speaking ∧ bargeInEnabled ∧ delayElapsed then
          some ({ s with state := .bargedIn }.start .bargeIn)
        else some s
      else some { s with state := .listening }
  | .speechEnded =>
    if s.state = .sleeping then none
    else some (s.start (if cfg.clientVadDriveEos then .speechEnd else .claimThinking))
  | .gateClosed delivered =>
    if s.eosSentThisTurn then none else some ((s.sendAsrEos delivered).start .claimThinking)
  | .asrFinalTimeout =>
    if !s.eosSentThisTurn then none
    else if s.state = .thinking then
      let s := { s.clearPendingAsrUtterance with eosSentThisTurn := false }
      if cfg.wakeCommandSingleTurn then some (s.start .noFinalFeedback)
      else some { s with state := .idle }
    else some { s with eosSentThisTurn := false }
  | .thinkingTimeout => if s.state = .thinking then some (s.abandon.start .recovery) else none
  | .stallTimeout delivered =>
    if (s.state = .idle ∨ s.state = .listening) ∧ !s.eosSentThisTurn then
      some (s.sendAsrEos delivered)
    else none
  | .bargeInTimeout delivered =>
    if s.state = .bargedIn then
      if s.eosSentThisTurn then some { s with state := .thinking }
      else some ((s.sendAsrEos delivered).start .claimBargedIn)
    else none
  | .wakeCommandTimeout delivered =>
    if cfg.wakeCommandSingleTurn ∧ (s.state = .idle ∨ s.state = .listening) then
      if s.eosSentThisTurn then some { s with state := .thinking }
      else some ({ s with state := .thinking }.sendAsrEos delivered)
    else none
  | .sleepTimeout => if s.state = .idle then callSleep s else none
  | .sleep => callSleep s
  | .wake => if s.state = .sleeping then some (s.start (.wake false)) else none
  | .pttStart =>
    if s.state = .sleeping then some (s.start (.wake true))
    else some { s with state := .listening, eosSentThisTurn := false }
  | .pttEnd delivered =>
    if s.eosSentThisTurn then some { s with state := .thinking }
    else some ((s.sendAsrEos delivered).start .claimThinking)
  | .llmFailed => some { s with state := .idle }
  | .silentTurn => if s.state = .thinking then some { s with state := .idle } else none
  | .playbackDrained completion =>
    let (s, next) := completeAssistantTurn s completion
    some (next.elim s s.start)
  | .resume i ok =>
    match s.tasks[i]? with
    | none => none
    | some task =>
      let (s, next) := task.goOn { s with tasks := s.tasks.eraseIdx i } ok
      some (next.elim s s.start)
  | .cancel i =>
    match s.tasks[i]? with
    | none => none
    | some _ => some { s with tasks := s.tasks.eraseIdx i }

/-- `BaseApp` with its tasks. -/
def machine : Machine App Event := ⟨App.init cfg, step cfg⟩

/-! ### What is asked of the turns -/

/-- The final says something new. -/
def ASRFinal.isNew (final : ASRFinal) : Bool := decide (strip cfg.tables final.finalText ≠ [])

/-- The new texts of the finals. -/
def news (finals : List ASRFinal) : List Text :=
  (finals.filter (ASRFinal.isNew cfg)).map ASRFinal.text

/-- The finals since the last turn, the last final that closed an utterance, or the last
utterance that was abandoned. -/
def opened : List Entry → List ASRFinal
  | .final final false :: log => opened log ++ [final]
  | _ => []

/-- The finals since an utterance was last abandoned. -/
def sinceAbandoned : List Entry → List ASRFinal
  | .final final _ :: log => sinceAbandoned log ++ [final]
  | .turn _ :: log => sinceAbandoned log
  | .abandoned :: _ | [] => []

/-- The finals up to the first that closes the utterance, oldest first. -/
def upToClosing : List Entry → List ASRFinal
  | .final final true :: _ => [final]
  | .final final false :: later => final :: upToClosing later
  | .turn _ :: later => upToClosing later
  | .abandoned :: _ | [] => []

/-- The last final closed its utterance. -/
def closed : List Entry → Bool
  | .final _ true :: _ => true
  | _ => false

/-- The utterance up to here. -/
def heard : List Entry → List ASRFinal
  | .final final _ :: log => opened log ++ [final]
  | _ => []

/-- The utterance of a turn, from what was before it, newest first, and what came after it, oldest
first. -/
def utterance (before later : List Entry) : List ASRFinal :=
  heard before ++ if closed before then [] else upToClosing later

/-- The text is the texts one after the other, each without the white space around it, with at
most a space between two. -/
inductive Assembled : List Text → Text → Prop
  | nil : Assembled [] []
  | single (text : Text) : Assembled [text] (strip cfg.tables text)
  | snoc {texts : List Text} {whole : Text} (gap text : Text) : texts ≠ [] →
      Assembled texts whole → gap = [] ∨ gap = [' '] →
      Assembled (texts ++ [text]) (whole ++ gap ++ strip cfg.tables text)

/-- What a turn should carry: new texts, each once and in order, none of them from an utterance
that was abandoned, and all of its own utterance, unless all of that together is low-signal. -/
def Carries (before later : List Entry) (text : Text) : Prop :=
  ∃ texts, Assembled cfg texts text ∧ texts.Sublist (news cfg (sinceAbandoned before)) ∧
    (lowSignal cfg (joined cfg (news cfg (utterance before later))) = true ∨
      (news cfg (utterance before later)).Sublist texts)

/-- Every turn carries what it should. -/
def Whole (log : List Entry) : Prop :=
  ∀ after text before, log = after ++ .turn text :: before → Carries cfg before after.reverse text

/-! ### The steps that keep it so -/

/-- A turn has gone out of an utterance that is not closed. -/
def unclosed : List Entry → Bool
  | .final _ false :: log => unclosed log
  | .turn _ :: log => !closed log
  | .final _ true :: _ | .abandoned :: _ | [] => false

/-- Nothing has been abandoned since the last final came. -/
def fresh : List Entry → Bool
  | .final _ _ :: _ => true
  | _ => false

/-- None of the finals would have been dropped as noise. -/
def quiet (finals : List ASRFinal) : Bool :=
  finals.all fun final => !(final.isNew cfg && noise cfg final)

/-- Nothing has been abandoned since the final of the turn came, and no final before it was noise,
or all of the utterance together is low-signal. -/
def fit (log : List Entry) : Bool :=
  fresh log && (quiet cfg (opened log.tail) || lowSignal cfg (joined cfg (news cfg (heard log))))

/-- The dispatcher goes on with a final, or a reconnect, that has nothing left behind it. -/
def CarefulAt (s : App) (ok : Bool) : Place → Prop
  | .reconnecting final _ =>
    final.isNew cfg = true → noise cfg final = true ∨ fresh s.log = true
  | .announcing _ | .replacing _ => fit cfg s.log = true
  | .awaiting .reopen => ok = false → s.pendingAsrUtteranceText = []
  | _ => True

/-- The step does not go where text is lost, torn apart or kept too long. -/
def Careful (s : App) : Event → Prop
  -- no turn has gone out of the utterance already
  | .asrFinal final _ => final.isNew cfg = true → unclosed s.log = false
  | .goOn ok => CarefulAt cfg s ok s.place
  -- nothing that has been kept stays behind
  | .thinkingTimeout => s.state = .thinking → s.pendingAsrUtteranceText = []
  | .readerExited replaced => replaced = true → s.pendingAsrUtteranceText = []
  | _ => True

instance decidableCarefulAt (s : App) (ok : Bool) : ∀ place, Decidable (CarefulAt cfg s ok place)
  | .reconnecting final _ =>
    inferInstanceAs (Decidable (final.isNew cfg = true → noise cfg final = true ∨ fresh s.log = true))
  | .announcing _ | .replacing _ => inferInstanceAs (Decidable (fit cfg s.log = true))
  | .awaiting .reopen => inferInstanceAs (Decidable (ok = false → s.pendingAsrUtteranceText = []))
  | .ready | .superseding _ | .awaiting .bargeIn | .awaiting .speechEnd | .awaiting .claimThinking
  | .awaiting .claimBargedIn | .awaiting .noFinalFeedback | .awaiting .recovery
  | .awaiting (.sleep _) | .awaiting (.wake _) | .awaiting .pttListen | .awaiting .turnDone
  | .awaiting .functionCall | .awaiting (.transportError _) | .awaiting (.stop _) => isTrue trivial

instance decidableCareful (s : App) : ∀ e, Decidable (Careful cfg s e)
  | .asrFinal final _ =>
    inferInstanceAs (Decidable (final.isNew cfg = true → unclosed s.log = false))
  | .goOn ok => decidableCarefulAt cfg s ok s.place
  | .thinkingTimeout =>
    inferInstanceAs (Decidable (s.state = .thinking → s.pendingAsrUtteranceText = []))
  | .readerExited replaced =>
    inferInstanceAs (Decidable (replaced = true → s.pendingAsrUtteranceText = []))
  | .bargeInFrame | .firstTtsAudio | .functionCallDone | .turnDone _ | .slvError
  | .speechStarted _ _ _ | .speechEnded | .gateClosed _ | .asrFinalTimeout | .stallTimeout _
  | .bargeInTimeout _ | .wakeCommandTimeout _ | .sleepTimeout | .sleep | .wake | .pttStart
  | .pttEnd _ | .llmFailed | .silentTurn | .playbackDrained _ | .resume _ _ | .cancel _ =>
    isTrue trivial

end OpenVoiceStream.Agent.Segments
