import OpenVoiceStream.Base.Machine
import OpenVoiceStream.V2v.Tts.Buffer

/-!
# The reply of a voice session

The dispatcher of a `/v2v/stream` connection cuts the text of the reply into sentences and
queues them; `tts_out_task` takes one sentence after the other, and has it spoken by a task of
its own, `drain`, for which it waits.

The tasks switch at their awaits only, so a step here is what a task does between two of them.
A task that is cancelled notices it at the await where it stands, when it runs again.
`wait_for` is the one of Python 3.10: it runs `tts_q.get()` in a task of its own, and when it is
cancelled after that task has ended, it returns.

## Main definitions

* `State`, `Act`, `step`, `machine` — the connection, as far as the reply goes.
* `State.loopHead` — `tts_out_task` at the head of its loop.
* `State.deliver` — a cancellation reaches `tts_out_task`.

## Main results

* `loopHead_frame` — what the head of the loop leaves alone.
-/

namespace OpenVoiceStream
namespace V2v
namespace Tts

/-- A sentence that has left the buffer, when so many aborts had been processed.  `held` is set
by an abort that finds the sentence in neither the queue nor the hands of `tts_out_task`. -/
structure Utterance where
  sentence : Text
  epoch : ℕ
  held : Bool
  deriving DecidableEq, Repr

/-- How a task ends. -/
inductive End
  | returned
  | cancelled
  | raised
  deriving DecidableEq, Repr

/-- Where a `drain` task stands. -/
inductive DrainPc
  | created
  /-- At `acquire_cm.__aenter__()`. -/
  | acquiring
  /-- At `coord_cm.__aenter__()`. -/
  | coordinating
  /-- At the sample-rate header. -/
  | sendingHeader
  /-- At `tts_started`. -/
  | sendingStarted
  /-- The executor has got the sentence. -/
  | synthesizing
  | ended (how : End)
  deriving DecidableEq, Repr

/-- A `drain` task, and its stop event. -/
structure Drain where
  utterance : Utterance
  pc : DrainPc
  cancelled : Bool
  stop : Bool
  deriving DecidableEq, Repr

/-- The task that runs `tts_q.get()` in `wait_for`. -/
inductive Getter
  | pending
  | taken (u : Utterance)
  /-- It is cancelled, since the time is up. -/
  | expired
  deriving DecidableEq, Repr

/-- Where `tts_out_task` stands. -/
inductive Pc
  | created
  /-- At the `tts_done` that ends a turn. -/
  | sendingTurnDone
  | getting (g : Getter)
  /-- At `wait_for(shield(task))`; `told` says that the shield knows that the task has ended. -/
  | waiting (told : Bool)
  /-- At the error after the deadline of a sentence. -/
  | sendingDeadline
  /-- At the last `tts_done`. -/
  | sendingDone
  | ended (how : End)
  deriving DecidableEq, Repr

/-- The connection: its buffer, whether it is a multi-utterance one, and `_to_speakable`. -/
structure Cfg (β : Type) where
  buffer : TextBuffer β
  empty : β
  multiUtterance : Bool
  speakable : Text → Text

variable {β : Type}

/-- The state of the connection.  `started` are the sentences that the executor has got, each
with the number of aborts that had been processed. -/
structure State (β : Type) where
  ttsBuffer : β
  ttsQ : List Utterance
  ttsFlush : Bool
  clientClosed : Bool
  asrSessionClosed : Bool
  pc : Pc
  cancelling : Bool
  current : Option Drain
  detached : List Drain
  aborts : ℕ
  started : List (Utterance × ℕ)

/-- A new connection. -/
def State.start (cfg : Cfg β) : State β :=
  { ttsBuffer := cfg.empty, ttsQ := [], ttsFlush := false, clientClosed := false
    asrSessionClosed := false, pc := .created, cancelling := false, current := none
    detached := [], aborts := 0, started := [] }

/-! ### The dispatcher -/

/-- The sentences are queued. -/
def State.put (s : State β) (emitted : List Text × β) : State β :=
  { s with
    ttsQ := s.ttsQ ++ emitted.1.map fun sentence =>
      { sentence := sentence, epoch := s.aborts, held := false }
    ttsBuffer := emitted.2 }

/-- `CLIENT_TEXT`. -/
def State.text (cfg : Cfg β) (s : State β) (text : Text) : State β :=
  s.put (cfg.buffer.add s.ttsBuffer text)

/-- `CLIENT_TTS_FLUSH`. -/
def State.flush (cfg : Cfg β) (s : State β) : State β :=
  { s.put (cfg.buffer.flush s.ttsBuffer) with ttsFlush := true }

/-- `CLIENT_DIRECT_SPEAK`. -/
def State.directSpeak (cfg : Cfg β) (s : State β) (text : Text) : State β :=
  if text = [] then { s with ttsFlush := true } else (s.text cfg text).flush cfg

/-- `task.cancel()` and `stop.set()`. -/
def Drain.interrupt (d : Drain) : Drain :=
  { d with
    cancelled := match d.pc with
      | .ended _ => d.cancelled
      | _ => true
    stop := true }

/-- A barge-in that the server hears: the sentence that is being spoken is interrupted. -/
def State.bargeIn (s : State β) : State β := { s with current := s.current.map Drain.interrupt }

/-- An abort finds a sentence that `get` has taken, while `tts_out_task` has not. -/
def Pc.hold : Pc → Pc
  | .getting (.taken u) => .getting (.taken { u with held := true })
  | pc => pc

/-- `CLIENT_ABORT`: the sentence is interrupted, and the queue emptied. -/
def State.abort (s : State β) : State β :=
  { s.bargeIn with ttsQ := [], pc := s.pc.hold, aborts := s.aborts + 1 }

/-! ### The task that speaks a sentence -/

/-- A `drain` task up to its next await. -/
def Drain.advance (d : Drain) : Drain :=
  let checked (pc : DrainPc) : Drain :=
    { d with pc := if d.cancelled then .ended .cancelled
        else if d.stop then .ended .returned else pc }
  match d.pc with
  | .created => { d with pc := if d.cancelled then .ended .cancelled else .acquiring }
  | .acquiring => checked .coordinating
  | .coordinating => checked .sendingHeader
  | .sendingHeader => checked .sendingStarted
  | .sendingStarted => checked .synthesizing
  | .synthesizing => { d with pc := .ended (if d.cancelled then .cancelled else .returned) }
  | .ended how => { d with pc := .ended how }

/-- The executor gets the sentence in this step. -/
def Drain.Starts (d : Drain) : Prop := d.pc ≠ .synthesizing ∧ d.advance.pc = .synthesizing

instance (d : Drain) : Decidable d.Starts := by
  unfold Drain.Starts; infer_instance

/-- It is noted which sentences the executor has got. -/
def State.note (s : State β) (d : Drain) : State β :=
  { s with
    started := s.started ++ if d.Starts then [(d.utterance, s.aborts)] else [] }

/-- The `drain` task runs that `tts_out_task` waits for. -/
def State.drain (s : State β) (d : Drain) : State β :=
  { s.note d with current := some d.advance }

/-- Another `drain` task runs. -/
def State.drainDetached (s : State β) (i : ℕ) (d : Drain) : State β :=
  { s.note d with detached := s.detached.set i d.advance }

/-! ### The task that takes the sentences -/

/-- `break`, or the end of the loop. -/
def State.leaveLoop (s : State β) : State β :=
  { s with pc := if s.clientClosed then .ended .returned else .sendingDone }

/-- The head of the loop. -/
def State.loopHead (cfg : Cfg β) (s : State β) : State β :=
  if s.clientClosed then s.leaveLoop
  else if s.ttsFlush = true ∧ s.ttsQ = [] then
    if cfg.multiUtterance = true ∧ s.asrSessionClosed = false then
      { s with ttsFlush := false, pc := .sendingTurnDone }
    else s.leaveLoop
  else { s with pc := .getting .pending }

/-- A sentence has come out of the queue. -/
def State.gotten (cfg : Cfg β) (s : State β) (u : Utterance) : State β :=
  if cfg.speakable u.sentence = [] then s.loopHead cfg
  else
    { s with
      current := some { utterance := u, pc := .created, cancelled := false, stop := false }
      pc := .waiting false }

/-- The `drain` task is left to itself, with its stop event set. -/
def State.detach (s : State β) : State β :=
  { s with
    detached := s.detached ++ s.current.toList.map fun d => { d with stop := true }
    current := none }

/-- `stop_event.set()`. -/
def State.stopCurrent (s : State β) : State β :=
  { s with current := s.current.map fun d : Drain => { d with stop := true } }

/-- The `drain` task has ended. -/
def State.clear (s : State β) : State β := { s with current := none }

/-- How the task ended that `tts_out_task` waits for. -/
def State.childEnd (s : State β) : Option End :=
  match s.current with
  | some { pc := .ended how, .. } => some how
  | _ => none

/-- A cancellation reaches `tts_out_task`. -/
def State.deliver (cfg : Cfg β) (s : State β) : State β :=
  let s := { s with cancelling := false }
  match s.pc with
  | .getting (.taken u) => s.gotten cfg u
  | .waiting told =>
    if told = true ∧ s.childEnd = some .raised then
      { s.clear with pc := .ended .raised }
    else if told = true ∧ s.childEnd = some .returned then s.clear.loopHead cfg
    else s.detach.loopHead cfg
  | .sendingDeadline => { s.detach with pc := .ended .cancelled }
  | .ended how => { s with pc := .ended how }
  | _ => { s with pc := .ended .cancelled }

/-- `tts_out_task` runs again, and has not been cancelled. -/
def State.resume (cfg : Cfg β) (s : State β) : Option (State β) :=
  match s.pc with
  | .created | .sendingTurnDone | .getting .expired => some (s.loopHead cfg)
  | .getting (.taken u) => some (s.gotten cfg u)
  | .waiting true =>
    match s.childEnd with
    | some .returned => some (s.clear.loopHead cfg)
    | some .cancelled => some (s.detach.loopHead cfg)
    | some .raised => some { s.clear with pc := .ended .raised }
    | none => none
  | .sendingDeadline => some (s.detach.loopHead cfg)
  | .sendingDone => some { s with pc := .ended .returned }
  | .getting .pending | .waiting false | .ended _ => none

/-- `tts_out_task` is cancelled. -/
def State.cancel (s : State β) : State β :=
  match s.pc with
  | .ended _ => s
  | _ => { s with cancelling := true }

/-! ### The machine -/

/-- The steps of the tasks. -/
inductive Act
  | text (text : Text)
  | flush
  | directSpeak (text : Text)
  | abort
  | bargeIn
  /-- The client is gone, or another task is done with the connection. -/
  | closeClient
  | closeAsr
  /-- `task.cancel()` on `tts_out_task`. -/
  | cancel
  /-- The task of `tts_q.get()` runs. -/
  | get
  /-- The timer of `wait_for(tts_q.get())` goes off. -/
  | getTimeout
  /-- The `drain` task runs up to its next await. -/
  | drain
  /-- The `drain` task raises. -/
  | drainRaises
  /-- The shield is told that the `drain` task has ended. -/
  | told
  /-- The timer of `wait_for(shield(task))` goes off. -/
  | deadline
  /-- A `drain` task that has been left to itself runs. -/
  | drainDetached (i : ℕ)
  /-- `tts_out_task` runs. -/
  | wake
  deriving DecidableEq, Repr

/-- One step. -/
def step (cfg : Cfg β) (s : State β) : Act → Option (State β)
  | .text text => some (s.text cfg text)
  | .flush => some (s.flush cfg)
  | .directSpeak text => some (s.directSpeak cfg text)
  | .abort => some s.abort
  | .bargeIn => some s.bargeIn
  | .closeClient => some { s with clientClosed := true }
  | .closeAsr => some { s with asrSessionClosed := true }
  | .cancel => some s.cancel
  | .get =>
    match s.pc, s.ttsQ with
    | .getting .pending, u :: rest => some { s with ttsQ := rest, pc := .getting (.taken u) }
    | _, _ => none
  | .getTimeout =>
    match s.pc, s.cancelling with
    | .getting .pending, false => some { s with pc := .getting .expired }
    | _, _ => none
  | .drain =>
    match s.current with
    | some d => some (s.drain d)
    | none => none
  | .drainRaises =>
    match s.current, s.childEnd with
    | some d, none => some { s with current := some { d with pc := .ended .raised } }
    | _, _ => none
  | .told =>
    match s.pc, s.childEnd with
    | .waiting false, some _ => some { s with pc := .waiting true }
    | _, _ => none
  | .deadline =>
    match s.pc, s.cancelling with
    | .waiting false, false =>
      if s.clientClosed then some (s.detach.loopHead cfg)
      else some { s.stopCurrent with pc := .sendingDeadline }
    | _, _ => none
  | .drainDetached i =>
    match s.detached[i]? with
    | some d => some (s.drainDetached i d)
    | none => none
  | .wake => if s.cancelling then some (s.deliver cfg) else s.resume cfg

/-- The connection from its start on. -/
def machine (cfg : Cfg β) : Machine (State β) Act :=
  { init := State.start cfg, step := step cfg }

/-! ### The head of the loop -/

section LoopHead

variable {cfg : Cfg β} {s : State β}

/-- What the head of the loop leaves alone. -/
theorem loopHead_frame (cfg : Cfg β) (s : State β) :
    (s.loopHead cfg).ttsQ = s.ttsQ ∧ (s.loopHead cfg).current = s.current ∧
      (s.loopHead cfg).detached = s.detached ∧ (s.loopHead cfg).aborts = s.aborts ∧
      (s.loopHead cfg).started = s.started := by
  unfold State.loopHead State.leaveLoop
  split
  · exact ⟨rfl, rfl, rfl, rfl, rfl⟩
  · split
    · split
      · exact ⟨rfl, rfl, rfl, rfl, rfl⟩
      · exact ⟨rfl, rfl, rfl, rfl, rfl⟩
    · exact ⟨rfl, rfl, rfl, rfl, rfl⟩

/-- No sentence is in the hands of the task there. -/
theorem loopHead_pc_ne (cfg : Cfg β) (s : State β) (u : Utterance) :
    (s.loopHead cfg).pc ≠ .getting (.taken u) := by
  unfold State.loopHead State.leaveLoop
  split
  · exact nofun
  · split
    · split
      · exact nofun
      · exact nofun
    · exact nofun

end LoopHead

/-! ### A connection for examples -/

/-- A connection with the buffer of the server, for English. -/
def exampleCfg : Cfg Text :=
  { buffer := (LowLatency.make asciiTables "en".toList 24 48 80).buffer, empty := []
    multiUtterance := true, speakable := id }

end Tts
end V2v
end OpenVoiceStream
