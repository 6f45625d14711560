import OpenVoiceStream.Backend.Manager
import OpenVoiceStream.Base.Future
import OpenVoiceStream.Coordinator

/-!
# Native calls under leases

Three functions hand a native call to an executor thread while they hold a context
of the backend manager and one of the coordinator: `execute_tts` with a Kokoro
backend (`_execute_kokoro_call`), the `drain` of a v2v sentence, and `execute_asr`
(`_decode`).  A thread that runs cannot be stopped; who waits for it can be
cancelled, any number of times.

A request is modelled from one await to the next, with the other parties that act
on it: the executor thread, the owner task and the disconnect watcher of the finite
path, `tts_out_task` behind a drain.  The manager is the one of
`OpenVoiceStream.Backend`, one for each kind of backend.

A native call returns or raises an `Exception`; the executor future is not cancelled
by anybody but the task that awaits it.

## Main definitions

* `Req` — one request and the parties that act on it.
* `taskStep`, `ownerStep`, `threadStep`, `agentStep` — their moves.
* `Sys`, `step`, `machine` — requests, coordinator and managers together.
-/

namespace OpenVoiceStream
namespace Execution

/-- What a request runs. -/
inductive Program
  /-- `execute_tts` with a Kokoro backend, and whether it is given a
  `disconnect_awaitable`. -/
  | finite (watched : Bool)
  /-- `drain`. -/
  | drain
  /-- `execute_asr`. -/
  | decode
  deriving DecidableEq, Repr

/-- The kind of backend it uses. -/
def Program.slot : Program → Slot
  | .finite _ | .drain => .tts
  | .decode => .asr

/-- The executor job. -/
inductive Job
  | none
  /-- Waiting for a thread. -/
  | queued
  /-- A thread is inside the native call. -/
  | running
  /-- The thread is done. -/
  | returned
  /-- Cancelled before a thread took it up. -/
  | dropped
  deriving DecidableEq, Repr

/-- `own_work`. -/
inductive Owner
  | none
  /-- `create_task` has been called. -/
  | created
  /-- At `asyncio.wait((future, watcher))`. -/
  | both
  /-- At `await future`. -/
  | future
  /-- At `await future`, the client being gone. -/
  | disconnected
  /-- In the `finally`, at `await watcher`. -/
  | joiningWatcher
  /-- In the `finally`, at `await future`. -/
  | joiningFuture
  | done
  deriving DecidableEq, Repr

/-- How `watch_disconnect` ends. -/
inductive Watched
  | disconnect
  /-- It returns `False`. -/
  | other
  | raised
  deriving DecidableEq, Repr

/-- `watch_disconnect`. -/
inductive Watcher
  | none
  | running
  | ended (how : Watched)
  deriving DecidableEq, Repr

/-- An item of `audio_queue`. -/
inductive Item
  | chunk
  | saturated
  | error
  /-- `None`. -/
  | last
  deriving DecidableEq, Repr

/-- Where a request stands. -/
inductive Pc
  | idle
  /-- `__aenter__` of the manager's `acquire` has been called, if there is a manager. -/
  | entering
  /-- At the lock of the coordinator. -/
  | waiting
  /-- In the context of the coordinator. -/
  | admitted
  /-- `_execute_kokoro_call`: at `sleep`. -/
  | polling
  /-- `_execute_kokoro_call`: at `sleep` in the shielded scope. -/
  | absorbing
  /-- `drain`: at the `send_bytes` of the sample rate. -/
  | sendingRate
  /-- `drain`: at the `send_json` before the call. -/
  | sendingStarted
  /-- `drain`: at `wait_for(audio_queue.get())`. -/
  | receiving
  /-- `drain`: at the `send_bytes` of a chunk. -/
  | sendingChunk
  /-- `drain`: at the message before a `break`; whether `except Exception` stands around it. -/
  | sendingLast (guarded : Bool)
  /-- `drain`: at the `send_json` after the loop. -/
  | sendingDone
  /-- `drain`: in the `finally`, at `shield(synth_future)`. -/
  | joining
  /-- `_decode`: at `await run_in_executor`. -/
  | decoding
  /-- Before `__aexit__` of the coordinator's context. -/
  | leavingSlot
  /-- Before `__aexit__` of the manager's context. -/
  | leavingManager
  /-- `__aexit__` of the manager's context has been called. -/
  | exiting
  | ended
  deriving DecidableEq, Repr

/-- What has become of the leases and of the call, in the order in which it happens. -/
inductive Mark
  /-- The manager's context is entered. -/
  | managed
  /-- The coordinator's context is entered. -/
  | admitted
  /-- The call is handed to the executor. -/
  | submitted
  /-- The executor future is done. -/
  | completed
  /-- The coordinator's context is left. -/
  | freed
  /-- The manager's context is left. -/
  | left
  deriving DecidableEq, Repr

/-- One request. -/
structure Req where
  pc : Pc
  /-- `task.cancel()` has been called since the task last ran. -/
  cancelling : Bool
  /-- `cancel_event`, or `stop_event`. -/
  stop : Bool
  job : Job
  /-- The event-loop future of the job. -/
  fut : Fut
  owner : Owner
  watcher : Watcher
  /-- `audio_queue`. -/
  queue : List Item
  /-- `tts_out_task` does not wait for the drain any more. -/
  detached : Bool
  marks : List Mark
  deriving DecidableEq, Repr

/-- A request that nobody has made yet. -/
def Req.fresh : Req :=
  { pc := .idle, cancelling := false, stop := false, job := .none, fut := .pending,
    owner := .none, watcher := .none, queue := [], detached := false, marks := [] }

/-- What a move does to the leases. -/
inductive LeaseOp
  | keep
  /-- `acquire().__aenter__()` of the manager. -/
  | enter
  /-- `acquire().__aenter__()` of the coordinator. -/
  | take
  /-- `__aexit__` of the coordinator's context. -/
  | give
  /-- `__aexit__` of the manager's context. -/
  | leave
  deriving DecidableEq, Repr

/-- The effect of one move. -/
structure Move where
  req : Req
  op : LeaseOp := .keep

/-- The moves around one request. -/
inductive Kind
  | begin
  /-- The straight-line code runs to its next switch point.  `ok` is a choice of foreign code:
  whether it raises, or whether the sample rate is still to be sent. -/
  | advance (ok : Bool)
  /-- The task runs again at its await, which returns or raises. -/
  | resume (ok : Bool)
  /-- `CancelledError` is delivered at the await. -/
  | throw
  /-- The timer of `wait_for` goes off. -/
  | timeout
  /-- `task.cancel()`. -/
  | cancel
  /-- The event is set by somebody else. -/
  | stop
  /-- The sentence's deadline passes, or `tts_out_task` is cancelled. -/
  | detach
  /-- The owner runs. -/
  | own (ok : Bool)
  | watcherEnds (how : Watched)
  | jobStarts
  /-- The native call yields something for the queue. -/
  | produce (item : Item)
  /-- The native call returns or raises. -/
  | jobEnds
  /-- The event loop hears of it. -/
  | jobDone
  deriving DecidableEq, Repr

/-! ### The request's task -/

/-- `run_in_executor`. -/
def Req.submit (r : Req) : Req :=
  { r with job := .queued, marks := r.marks ++ [.submitted] }

/-- The code between the two contexts: `prepare` and the choice of the arguments, or the look at
`stop_event`. -/
def Req.entered (program : Program) (ok : Bool) (r : Req) : Req :=
  match program with
  | .finite _ | .decode => { r with pc := if ok then .waiting else .leavingManager }
  | .drain => { r with pc := if r.stop then .leavingManager else .waiting }

/-- The body of the coordinator's context up to its first await.  For a drain `ok` says that the
sample rate has not been sent yet. -/
def Req.body (program : Program) (ok : Bool) (r : Req) : Req :=
  match program with
  | .finite _ => { r with pc := .polling, owner := .created }
  | .drain =>
    if r.stop then { r with pc := .joining }
    else { r with pc := if ok then .sendingRate else .sendingStarted }
  | .decode => { r.submit with pc := .decoding }

/-- `drain` after its loop. -/
def Req.finish (r : Req) : Req := { r with pc := if r.stop then .joining else .sendingDone }

/-- The straight-line code. -/
def advance {β : Type} (mode : Mode) (program : Program) (managed : Bool) (ctx : Backend.Ctx β)
    (free : Bool) (r : Req) (ok : Bool) : Option Move :=
  match r.pc with
  | .entering =>
    if managed then
      match ctx with
      | .held _ => some { req := Req.entered program ok { r with marks := r.marks ++ [.managed] } }
      -- `HTTPException` 503
      | .outside => some { req := { r with pc := .ended } }
      | .entering | .leaving _ => none
    else some { req := r.entered program ok }
  | .waiting =>
    if free then
      -- with `exclusive` a backend is unloaded or preloaded first, which may raise
      if mode = .exclusive ∧ ok = false then some { req := { r with pc := .leavingManager } }
      else some { req := { r with pc := .admitted, marks := r.marks ++ [.admitted] }, op := .take }
    else none
  | .admitted => some { req := r.body program ok }
  | .leavingSlot =>
    some { req := { r with pc := .leavingManager, marks := r.marks ++ [.freed] }, op := .give }
  | .leavingManager =>
    if managed then
      some { req := { r with pc := .exiting, marks := r.marks ++ [.left] }, op := .leave }
    else some { req := { r with pc := .ended } }
  | .exiting =>
    match ctx with
    | .outside => some { req := { r with pc := .ended } }
    | _ => none
  | _ => none

/-- The task runs again without a cancellation. -/
def resume (r : Req) (ok : Bool) : Option Req :=
  match r.pc with
  | .polling | .absorbing =>
    some { r with pc := if r.owner = .done then .leavingSlot else r.pc }
  | .sendingRate =>
    some { r with pc := if ok = false ∨ r.stop then .joining else .sendingStarted }
  | .sendingStarted =>
    some (if ok = false ∨ r.stop then { r with pc := .joining }
      else { r.submit with pc := .receiving })
  | .receiving =>
    match r.queue with
    | [] => none
    | item :: queue =>
      -- `wait_for` may return the item although the task has been cancelled
      let r := { r with queue := queue, cancelling := false }
      if item = .last ∨ r.stop then some r.finish
      else
        match item with
        | .saturated => some { r with pc := .sendingLast true }
        | .error => some { r with pc := .sendingLast false }
        | .chunk | .last => some { r with pc := .sendingChunk }
  | .sendingChunk => some { r with pc := if ok then .receiving else .joining }
  | .sendingLast guarded => some (if ok || guarded then r.finish else { r with pc := .joining })
  | .sendingDone => some { r with pc := .joining }
  | .joining => if r.job = .none ∨ r.fut.isDone then some { r with pc := .leavingSlot } else none
  | .decoding => if r.fut.isDone then some { r with pc := .leavingSlot } else none
  | _ => none

/-- `CancelledError` is delivered. -/
def throw (r : Req) : Option Req :=
  match r.pc with
  | .idle => some { r with pc := .ended }
  | .waiting => some { r with pc := .leavingManager }
  | .polling =>
    some { r with stop := true, pc := if r.owner = .done then .leavingSlot else .absorbing }
  | .absorbing => some { r with pc := if r.owner = .done then .leavingSlot else .absorbing }
  | .sendingRate | .sendingStarted | .receiving | .sendingChunk | .sendingLast _ | .sendingDone =>
    some { r with pc := .joining }
  | .joining =>
    -- `continue`, and the condition of the loop
    some { r with pc := if r.job = .none ∨ r.fut.isDone then .leavingSlot else .joining }
  | .decoding =>
    -- the future is cancelled with the task, and the job with it unless it has started
    some { r with
      pc := .leavingSlot
      fut := r.fut.cancel
      job := if r.job = .queued then .dropped else r.job }
  | _ => none

/-- The moves of the request's task. -/
def taskStep {β : Type} (mode : Mode) (program : Program) (managed : Bool) (ctx : Backend.Ctx β)
    (free : Bool) (r : Req) : Kind → Option Move
  | .begin =>
    if r.pc = .idle then
      some { req := { r with pc := .entering }, op := if managed then .enter else .keep }
    else none
  | .advance ok => advance mode program managed ctx free r ok
  | .resume ok =>
    if r.cancelling = false ∨ r.pc = .receiving then
      (resume r ok).map fun r => { req := r }
    else none
  | .throw =>
    if r.cancelling then (throw { r with cancelling := false }).map fun r => { req := r } else none
  | .timeout =>
    if r.pc = .receiving then
      some { req :=
        if r.stop then r.finish else { r with stop := true, pc := .sendingLast false } }
    else none
  | .cancel => some { req := { r with cancelling := true } }
  | .stop => some { req := { r with stop := true } }
  | .detach =>
    if program = .drain ∧ r.detached = false then
      some { req := { r with stop := true, detached := true } }
    else none
  | _ => none

/-! ### The other parties -/

/-- `own_work` from one await to the next; `ok` says that what it awaits has not raised. -/
def ownerStep (watched : Bool) (r : Req) (ok : Bool) : Option Req :=
  match r.owner with
  | .created =>
    some (if watched then { r.submit with owner := .both, watcher := .running }
      else { r.submit with owner := .future })
  | .both =>
    if r.fut.isDone then some { r with owner := .joiningWatcher, stop := r.stop || !ok }
    else
      match r.watcher with
      | .ended .disconnect => some { r with owner := .disconnected, stop := true }
      | .ended .raised => some { r with owner := .joiningWatcher, stop := true }
      | .ended .other => some { r with owner := .future }
      | .none | .running => none
  | .future =>
    if r.fut.isDone then some { r with owner := .joiningWatcher, stop := r.stop || !ok } else none
  | .disconnected =>
    if r.fut.isDone then some { r with owner := .joiningWatcher, stop := true } else none
  | .joiningWatcher =>
    -- the scope of the watcher is cancelled
    if r.watcher = .running then none else some { r with owner := .joiningFuture }
  | .joiningFuture => if r.fut.isDone then some { r with owner := .done } else none
  | .none | .done => none

/-- The moves of the thread, and what the loop hears of it. -/
def threadStep (program : Program) (r : Req) : Kind → Option Req
  | .jobStarts => if r.job = .queued then some { r with job := .running } else none
  | .produce item =>
    -- a chunk is dropped, and the generator left, once the event is set
    if program = .drain ∧ r.job = .running ∧ item ≠ .last ∧ (item = .chunk → r.stop = false) then
      some { r with queue := r.queue ++ [item] }
    else none
  | .jobEnds =>
    if r.job = .running then
      some { r with
        job := .returned
        queue := if program = .drain then r.queue ++ [.last] else r.queue }
    else none
  | .jobDone =>
    if r.job = .returned ∧ r.fut = .pending then
      some { r with fut := r.fut.setResult, marks := r.marks ++ [.completed] }
    else none
  | _ => none

/-- One move around one request. -/
def agentStep {β : Type} (mode : Mode) (program : Program) (managed : Bool) (ctx : Backend.Ctx β)
    (free : Bool) (r : Req) (kind : Kind) : Option Move :=
  match kind with
  | .own ok =>
    match program with
    | .finite watched => (ownerStep watched r ok).map fun r => { req := r }
    | .drain | .decode => none
  | .watcherEnds how =>
    if r.watcher = .running then some { req := { r with watcher := .ended how } } else none
  | .jobStarts | .produce _ | .jobEnds | .jobDone =>
    (threadStep program r kind).map fun r => { req := r }
  | _ => taskStep mode program managed ctx free r kind

/-! ### The system -/

/-- The mode of the coordinator, the managers' arguments, and what each request runs. -/
structure Cfg (ι β ρ : Type) where
  mode : Mode
  backend : Slot → Backend.Cfg β ρ
  program : ι → Program
  /-- There is a manager for the request's kind of backend. -/
  managed : ι → Bool

/-- Requests, coordinator and managers. -/
structure Sys (ι β ρ : Type) where
  manager : Slot → Backend.State ι β ρ
  coord : Coordinator ι
  req : ι → Req

variable {ι β ρ : Type} [DecidableEq ι]

/-- The system before the first request. -/
def Sys.start (cfg : Cfg ι β ρ) : Sys ι β ρ :=
  { manager := fun _ => .start, coord := .start cfg.mode, req := fun _ => .fresh }

/-- The actions: moves around requests, and what else is done to the managers. -/
inductive Act (ι β ρ : Type)
  | move (i : ι) (kind : Kind)
  | manager (slot : Slot) (a : Backend.Act ι β ρ)

/-- The action is not one of a request's. -/
def foreign : Backend.Act ι β ρ → Bool
  | .enter _ | .leave _ => false
  | _ => true

/-- The manager's context of a request. -/
def Sys.ctx (cfg : Cfg ι β ρ) (s : Sys ι β ρ) (i : ι) : Backend.Ctx β :=
  (s.manager (cfg.program i).slot).ctx i

/-- The manager of a kind takes a step. -/
def Sys.manage (cfg : Cfg ι β ρ) (s : Sys ι β ρ) (slot : Slot) (a : Backend.Act ι β ρ) :
    Option (Sys ι β ρ) :=
  (Backend.step (cfg.backend slot) (s.manager slot) a).map fun m =>
    { s with manager := Function.update s.manager slot m }

/-- What a move does to the leases. -/
def Sys.lease (cfg : Cfg ι β ρ) (s : Sys ι β ρ) (i : ι) : LeaseOp → Option (Sys ι β ρ)
  | .keep => some s
  | .enter => s.manage cfg (cfg.program i).slot (.enter i)
  | .leave => s.manage cfg (cfg.program i).slot (.leave i)
  | .take => some { s with coord := s.coord.enter i (cfg.program i).slot }
  | .give => some { s with coord := s.coord.leave i }

/-- One step. -/
def step (cfg : Cfg ι β ρ) (s : Sys ι β ρ) : Act ι β ρ → Option (Sys ι β ρ)
  | .move i kind =>
    match agentStep cfg.mode (cfg.program i) (cfg.managed i) (s.ctx cfg i) s.coord.free (s.req i)
        kind with
    | none => none
    | some m => { s with req := Function.update s.req i m.req }.lease cfg i m.op
  | .manager slot a => if foreign a then s.manage cfg slot a else none

/-- The system as a machine. -/
def machine (cfg : Cfg ι β ρ) : Machine (Sys ι β ρ) (Act ι β ρ) :=
  { init := .start cfg, step := step cfg }

end Execution
end OpenVoiceStream
