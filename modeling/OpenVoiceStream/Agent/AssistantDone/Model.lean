import OpenVoiceStream.Base.Machine
import Mathlib.Logic.Function.Basic

/-!
# The end of an assistant turn

When the server is done with a reply, the agent completes the turn, at once or in a task
that waits until the local playback has drained.  Completing it may put the agent to sleep,
and `sleep` cancels the task that waits.  What a task does between two awaits is one step
here.  A task that was cancelled gets the exception at its next await.

`on_assistant_done` is broadcast by a call that starts the hooks of the plugins as tasks of
their own; it is done when they have started.  The handlers of other events, and whoever
else sets the state, are steps that set it to anything.

The fields `dispatched`, `done` and `overtaken` are ones that the code does not have: how many
events have completed a reply, for which of them the plugins were told, and which were
followed by another one, or by a new utterance, before the playback had drained.

## Main definitions

* `App`, `Drain`, `Dispatcher` — the agent, and its tasks.
* `App.completeState`, `completePc`, `App.sleepEnd` — `_complete_assistant_turn` and `sleep`.
* `App.complete` — the end of the handlers of `TTSDone` and `ResponseDone`.
* `machine` — all of it.
-/

namespace OpenVoiceStream.Agent.AssistantDone

/-- `ConvState`. -/
inductive ConvState
  | idle | listening | thinking | speaking | bargedIn | sleeping
  deriving DecidableEq, Repr

/-- The settings. -/
structure Config where
  /-- `playback_drain_enabled`. -/
  drainEnabled : Bool
  /-- `_wake_command_single_turn_enabled()`. -/
  singleTurn : Bool
  deriving DecidableEq, Repr

/-- What `_complete_assistant_turn` awaits. -/
inductive Pc
  /-- The broadcast of `on_sleep`. -/
  | sleepHook
  /-- The turn of the language model, which was cancelled. -/
  | sleepTurn
  /-- `slv.abort()`. -/
  | sleepAbort
  /-- `audio.stop_playback()`. -/
  | sleepStop
  /-- The broadcast of `on_assistant_done`; no hook has started. -/
  | announcing
  /-- The hooks. -/
  | announced
  deriving DecidableEq, Repr

/-- Where a task that waits for the playback stands. -/
inductive DrainPc
  | waiting
  | finishing (pc : Pc)
  | finished
  deriving DecidableEq, Repr

/-- A task of `_finish_assistant_turn_after_playback`. -/
structure Drain where
  pc : DrainPc
  /-- `task.cancel()` was called, and the exception has not been raised yet. -/
  cancelled : Bool
  /-- The playback was over at some time since the event. -/
  drained : Bool
  deriving DecidableEq, Repr

/-- What the dispatch loop does. -/
inductive Dispatcher
  | ready
  /-- `on_response_done` is broadcast. -/
  | responding (toolOnly : Bool)
  /-- The turn of this event is completed. -/
  | completing (e : ℕ) (pc : Pc)
  deriving DecidableEq, Repr

/-- Why the plugins were told. -/
inductive Cause
  | event (e : ℕ)
  /-- A turn without a usable final was given up. -/
  | noFinal
  deriving DecidableEq, Repr

/-- `BaseApp`. -/
structure App where
  conv : ConvState
  /-- `_sleep_after_assistant_turn`. -/
  sleepAfter : Bool
  /-- `_in_wake_greeting`. -/
  inGreeting : Bool
  /-- `_wake_command_retry_after_no_final`. -/
  retry : Bool
  awaitingNewReply : Bool
  /-- `audio.is_playing`. -/
  playing : Bool
  dispatcher : Dispatcher
  /-- The tasks that wait, by the event that made them. -/
  drains : ℕ → Option Drain
  /-- `_playback_drain_task`. -/
  current : Option ℕ
  dispatched : ℕ
  done : List Cause
  overtaken : List ℕ

/-! ### Tasks that wait -/

/-- `task.cancel()`, if it is not done. -/
def Drain.cancel (d : Drain) : Drain := if d.pc = .finished then d else { d with cancelled := true }

/-- `drain_task.cancel()`. -/
def App.cancelDrain (s : App) : App :=
  match s.current with
  | none => s
  | some k => { s with drains := Function.update s.drains k ((s.drains k).map Drain.cancel) }

/-- The task that waits is overtaken: it is still there, and the playback has not drained. -/
def App.isOvertaken (s : App) (k : ℕ) : Bool :=
  match s.drains k with
  | some d => decide (d.pc ≠ .finished) && !d.drained
  | none => false

/-- The task that waits is cancelled by an event that follows. -/
def App.overtake (s : App) : App :=
  match s.current with
  | none => s
  | some k =>
    { s.cancelDrain with overtaken := if s.isOvertaken k then k :: s.overtaken else s.overtaken }

/-- The task goes on to another point. -/
def App.setPc (s : App) (k : ℕ) (pc : DrainPc) : App :=
  { s with drains := Function.update s.drains k ((s.drains k).map fun d => { d with pc := pc }) }

/-- The exception is raised in the task: it goes on to this point. -/
def App.raiseAt (s : App) (k : ℕ) (pc : DrainPc) : App :=
  { s with
    drains := Function.update s.drains k
      ((s.drains k).map fun d => { d with pc := pc, cancelled := false }) }

/-- The playback starts or is over. -/
def App.setPlaying (s : App) (playing : Bool) : App :=
  { s with
    playing := playing
    drains := fun k =>
      if playing then s.drains k else (s.drains k).map fun d => { d with drained := true } }

/-! ### Completing a turn -/

/-- What `sleep` does after its last await. -/
def App.sleepEnd (s : App) : App := { s.cancelDrain with conv := .sleeping }

/-- The state that `_complete_assistant_turn` sets before its first await. -/
def App.completeState (cfg : Config) (s : App) : App :=
  if s.sleepAfter then { s with sleepAfter := false }
  else if s.inGreeting then
    { s with inGreeting := false, conv := if s.conv = .bargedIn then .bargedIn else .idle }
  else if s.conv = .bargedIn then s
  else if cfg.singleTurn then
    -- `_open_wake_command_retry_window`, and `_return_to_sleep_after_command_turn`
    if s.retry then { s with retry := false, conv := .idle }
    else { s with conv := .sleeping }
  else { s with conv := .idle }

/-- Its first await. -/
def App.completePc (s : App) : Pc :=
  if s.sleepAfter && decide (s.conv ≠ .sleeping) then .sleepHook else .announcing

/-- The await after the one of `on_sleep`, and after that of the turn. -/
def Pc.nextSleep (turn : Bool) : Pc → Pc
  | .sleepHook => if turn then .sleepTurn else .sleepAbort
  | .sleepTurn => .sleepAbort
  | .sleepAbort => .sleepStop
  | pc => pc

/-- The turn is completed by the dispatch loop. -/
def App.completeInline (cfg : Config) (s : App) : App :=
  { s.completeState cfg with
    dispatcher := .completing s.dispatched s.completePc
    dispatched := s.dispatched + 1 }

/-- The turn is left to a task that waits. -/
def App.startDrain (s : App) : App :=
  { s with
    drains := Function.update s.drains s.dispatched (some ⟨.waiting, false, false⟩)
    current := some s.dispatched
    dispatcher := .ready
    dispatched := s.dispatched + 1 }

/-- The end of the handlers of `TTSDone` and `ResponseDone`. -/
def App.complete (cfg : Config) (s : App) : App :=
  if s.conv = .bargedIn then s.completeInline cfg
  else if cfg.drainEnabled && s.playing then s.overtake.startDrain
  else s.overtake.completeInline cfg

/-- The end of the handler of `ResponseDone`. -/
def App.respond (cfg : Config) (s : App) (toolOnly : Bool) : App :=
  if toolOnly then
    { s with
      conv := if s.conv = .bargedIn then .bargedIn else .thinking
      dispatcher := .ready }
  else s.complete cfg

/-! ### Steps -/

/-- The dispatch loop goes on with a turn that it completes. -/
def App.completeStep (s : App) (e : ℕ) (turn : Bool) : Pc → App
  | .sleepStop => { s.sleepEnd with dispatcher := .completing e .announcing }
  | .announcing => { s with done := .event e :: s.done, dispatcher := .completing e .announced }
  | .announced => { s with dispatcher := .ready }
  | pc => { s with dispatcher := .completing e (pc.nextSleep turn) }

/-- A task that has waited goes on with its turn. -/
def App.finishStep (s : App) (k : ℕ) (turn : Bool) : Pc → App
  | .sleepStop => s.sleepEnd.setPc k (.finishing .announcing)
  | .announcing => { s.setPc k (.finishing .announced) with done := .event k :: s.done }
  | .announced => s.setPc k .finished
  | pc => s.setPc k (.finishing (pc.nextSleep turn))

/-- The exception in a task that was cancelled; `sleep` catches it while it awaits the turn. -/
def App.cancelStep (s : App) (k : ℕ) : DrainPc → App
  | .finishing .sleepTurn => s.raiseAt k (.finishing .sleepAbort)
  | _ => s.raiseAt k .finished

/-- The wait is over. -/
def App.waitOver (s : App) (timedOut : Bool) : Bool :=
  decide (s.conv = .bargedIn) || !s.playing || timedOut

/-- A task that waits goes on, if it can. -/
def App.drainStep (cfg : Config) (s : App) (k : ℕ) (timedOut turn : Bool) : Option App :=
  match s.drains k with
  | none => none
  | some d =>
    if d.pc = .finished then none
    else if d.cancelled then some (s.cancelStep k d.pc)
    else
      match d.pc with
      | .waiting =>
        if s.waitOver timedOut then some ((s.completeState cfg).setPc k (.finishing s.completePc))
        else none
      | .finishing pc => some (s.finishStep k turn pc)
      | .finished => none

/-- What happens next. -/
inductive Act
  /-- `TTSDone`; the playback may have been over but for the mark. -/
  | ttsDone (stillPlaying : Bool)
  | responseDone (toolOnly : Bool)
  /-- The dispatch loop goes on; `turn`: there is a turn of the language model to cancel. -/
  | dispatcherStep (turn : Bool)
  | drainStep (k : ℕ) (timedOut turn : Bool)
  | playback (playing : Bool)
  /-- A new utterance interrupts a reply that is still playing. -/
  | interrupt
  /-- Someone else's `sleep` comes to its end. -/
  | sleepElsewhere
  /-- A turn without a usable final is given up. -/
  | noFinal
  /-- Anything else. -/
  | elsewhere (conv : ConvState) (sleepAfter inGreeting retry awaitingNewReply : Bool)
  deriving DecidableEq, Repr

/-- An event for the dispatch loop. -/
def App.ttsDone (cfg : Config) (s : App) (stillPlaying : Bool) : App :=
  if s.awaitingNewReply then s
  else (s.setPlaying (s.playing && stillPlaying)).complete cfg

/-- The agent. -/
def machine (cfg : Config) : Machine App Act where
  init :=
    { conv := .idle, sleepAfter := false, inGreeting := false, retry := false
      awaitingNewReply := false, playing := false, dispatcher := .ready, drains := fun _ => none
      current := none, dispatched := 0, done := [], overtaken := [] }
  step s
    | .ttsDone stillPlaying =>
      if s.dispatcher = .ready then some (s.ttsDone cfg stillPlaying) else none
    | .responseDone toolOnly =>
      if s.dispatcher = .ready then
        some (if s.awaitingNewReply then s else { s with dispatcher := .responding toolOnly })
      else none
    | .dispatcherStep turn =>
      match s.dispatcher with
      | .ready => none
      | .responding toolOnly => some (s.respond cfg toolOnly)
      | .completing e pc => some (s.completeStep e turn pc)
    | .drainStep k timedOut turn => s.drainStep cfg k timedOut turn
    | .playback playing => some (s.setPlaying playing)
    | .interrupt => some s.overtake
    | .sleepElsewhere => some s.sleepEnd
    | .noFinal => some { s with done := .noFinal :: s.done }
    | .elsewhere conv sleepAfter inGreeting retry awaitingNewReply =>
      some
        { s with
          conv := conv
          sleepAfter := sleepAfter
          inGreeting := inGreeting
          retry := retry
          awaitingNewReply := awaitingNewReply }

end OpenVoiceStream.Agent.AssistantDone
