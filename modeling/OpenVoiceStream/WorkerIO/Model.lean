import OpenVoiceStream.Base.Machine
import OpenVoiceStream.Base.Agents
import OpenVoiceStream.Base.Future

/-!
# The worker multiplexer

`WorkerIO` lets any number of requests share one subprocess.  A semaphore of
`max_slots` permits bounds the requests in flight; `send_request` is the
coroutine form of a request and `request` the blocking one.  The model has one
step for every piece of code that runs without a thread or task switch.

The permit of a coroutine request is taken on an executor thread, so its life is
spread over four places that move separately: the executor job calling
`Semaphore.acquire`, the event-loop future `run_in_executor` returned for it, the
task awaiting that future, and the done-callback the task leaves behind when the
await is cut short.

## Main definitions

* `Req` — one request: its program counter and the parts of its acquire.
* `agentStep` — what one move of one request does to it and to the shared state.
* `step`, `machine` — the interleaving of the requests, the reader thread and
  `close()`.
-/

namespace OpenVoiceStream
namespace WorkerIO

/-- An event of the worker, as the consumer of a request sees it. -/
inductive Event
  /-- Any event that does not end the request. -/
  | chunk (n : ℕ)
  /-- `"event": "done"`. -/
  | done
  /-- `"event": "cancelled"`. -/
  | cancelled
  /-- The sentinel `"_worker_exit"` of the reader thread and of `close()`. -/
  | workerExit
  deriving DecidableEq, Repr

/-- The events after which a request returns. -/
def Event.terminal : Event → Bool
  | .done | .cancelled => true
  | .chunk _ | .workerExit => false

/-- The executor job behind the future of `run_in_executor(None, self._sem.acquire)`. -/
inductive Job
  /-- The request never submitted one. -/
  | none
  /-- Waiting for an executor thread. -/
  | queued
  /-- A thread is inside `self._sem.acquire()`. -/
  | blocked
  /-- The thread has its permit; the event loop has not heard of it. -/
  | acquired
  /-- The event loop has been told. -/
  | returned
  /-- Withdrawn before a thread took it up. -/
  | cancelled
  deriving DecidableEq, Repr

/-- The done-callback `_release_if_late_acquire`. -/
inductive Late
  | none
  | scheduled
  | ran
  deriving DecidableEq, Repr

/-- Where a request stands. -/
inductive Pc
  | idle
  /-- `send_request`: at `await _fut`; the flag is the task's pending cancellation. -/
  | acquiring (mustCancel : Bool)
  /-- `send_request`: the permit is ours, `_closed` not looked at yet. -/
  | holding
  /-- `send_request`: before the insertion into `_inflight`. -/
  | checked
  /-- `send_request`: before the locked stdin write. -/
  | registered
  /-- `send_request`: awaiting `q.get`; the flag is a delivered cancellation. -/
  | getting (cancelled : Bool)
  /-- `send_request`: suspended at `yield event`. -/
  | yielded (event : Event)
  /-- `send_request`: in the `finally`, before the `_inflight` entry is popped. -/
  | leaving (natural : Bool)
  /-- `send_request`: in the `finally`, before `self._sem.release()`. -/
  | popped (natural : Bool)
  /-- `send_request`: in the `finally`, before `self.cancel(request_id)`. -/
  | notifying
  /-- `request`: the calling thread is inside `self._sem.acquire()`. -/
  | blocked
  /-- `request`: the permit is ours, `_closed` not looked at yet. -/
  | entered
  /-- `request`: before `payload["id"]` is read. -/
  | unnamed
  /-- `request`: before the insertion into `_inflight`. -/
  | named
  /-- `request`: before the locked stdin write. -/
  | inserted
  /-- `request`: inside `q.get(timeout=60.0)`. -/
  | reading
  /-- `request`: suspended at `yield event`. -/
  | handed (event : Event)
  /-- `request`: in the `finally`, before the `_inflight` entry is popped. -/
  | unwinding
  /-- `request`: in the `finally`, before `self._sem.release()`. -/
  | unwound
  | ended
  deriving DecidableEq, Repr

/-- One request. -/
structure Req where
  pc : Pc
  /-- The event-loop future of the executor job. -/
  fut : Fut
  job : Job
  late : Late
  /-- The `queue.Queue` the reader thread fills, oldest event first. -/
  queue : List Event
  deriving DecidableEq, Repr

/-- A request nobody has made yet. -/
def Req.fresh : Req :=
  { pc := .idle, fut := .pending, job := .none, late := .none, queue := [] }

/-- What a move of a request does to the shared `_inflight` map. -/
inductive InflightOp
  | keep
  | insert
  | pop
  deriving DecidableEq, Repr

/-- A line on the worker's stdin. -/
inductive Line
  | payload
  | cancel
  deriving DecidableEq, Repr

/-- The effect of one move: the request afterwards, the permits left in the
semaphore, and what happened to `_inflight` and to stdin. -/
structure Move where
  req : Req
  sem : ℕ
  inflight : InflightOp := .keep
  stdin : Option Line := none

/-- The moves of one request.  `fail` is an exception of the statement at hand:
the payload check of `send_request`, the missing `id` of `request`, or the stdin
write. -/
inductive Move.Kind
  /-- The consumer starts `send_request`. -/
  | send (fail : Bool)
  /-- An executor thread takes up the acquire job. -/
  | jobStart
  /-- `Semaphore.acquire` of the job returns. -/
  | jobAcquire
  /-- The result of the job reaches the event loop. -/
  | jobReturn
  /-- The cancellation of the future reaches the job. -/
  | jobCancel
  /-- The task awaiting the acquire future runs again. -/
  | resume
  /-- The done-callback runs. -/
  | lateCallback
  /-- `task.cancel()` on the task of the request. -/
  | cancelTask
  /-- The straight-line code of `send_request` runs to its next switch point. -/
  | advance (fail : Bool)
  /-- `q.get` of `send_request` returns an event. -/
  | getEvent
  /-- `q.get` of `send_request` ends without one: empty for 60 s, or cancelled. -/
  | getFails
  /-- The consumer asks `send_request` for the next event. -/
  | next
  /-- The consumer closes `send_request` at its `yield`. -/
  | aclose
  /-- The consumer starts `request`. -/
  | request
  /-- `Semaphore.acquire` of `request` returns. -/
  | take
  /-- The straight-line code of `request` runs to its next switch point. -/
  | advanceSync (fail : Bool)
  /-- `q.get` of `request` returns an event. -/
  | readEvent
  /-- `q.get` of `request` raises `queue.Empty`. -/
  | readFails
  /-- The consumer asks `request` for the next event. -/
  | nextSync
  /-- The consumer closes `request` at its `yield`. -/
  | closeSync
  deriving DecidableEq, Repr

/-- The constructor arguments and the environment switch. -/
structure Cfg where
  /-- `self._max_slots`, that is `max(1, int(concurrency))`. -/
  maxSlots : ℕ
  /-- `OVS_WORKER_IO_QUEUE_WHEN_SATURATED`. -/
  queueWhenSaturated : Bool

/-- `max(1, int(concurrency))`. -/
def Cfg.ofConcurrency (concurrency : ℤ) (queueWhenSaturated : Bool) : Cfg :=
  { maxSlots := (max 1 concurrency).toNat, queueWhenSaturated := queueWhenSaturated }

/-- `send_request` up to its first await. -/
def sendRequest (cfg : Cfg) (sem : ℕ) (r : Req) (fail : Bool) : Option Move :=
  if fail then
    -- `payload["id"] != request_id`
    some { req := { r with pc := .ended }, sem := sem }
  else if cfg.queueWhenSaturated then
    some { req := { r with pc := .acquiring false, job := .queued }, sem := sem }
  else if 0 < sem then
    some { req := { r with pc := .holding }, sem := sem - 1 }
  else
    -- `PoolSaturatedError`
    some { req := { r with pc := .ended }, sem := sem }

/-- The task at `await _fut` runs again.  When the await raises, the callback is
added to a future that is already done, which schedules it at once. -/
def resumeAcquire (sem : ℕ) (r : Req) (mustCancel : Bool) : Option Move :=
  match r.fut with
  | .pending => none
  | .done =>
    if mustCancel then
      some { req := { r with pc := .ended, late := .scheduled }, sem := sem }
    else
      some { req := { r with pc := .holding }, sem := sem }
  | .cancelled => some { req := { r with pc := .ended, late := .scheduled }, sem := sem }

/-- `task.cancel()`: a pending future is cancelled with the task that awaits it;
a finished one leaves the cancellation for the task's next step. -/
def cancelTask (sem : ℕ) (r : Req) : Option Move :=
  match r.pc with
  | .acquiring _ =>
    match r.fut with
    | .pending => some { req := { r with fut := .cancelled }, sem := sem }
    | .done | .cancelled => some { req := { r with pc := .acquiring true }, sem := sem }
  | .getting _ => some { req := { r with pc := .getting true }, sem := sem }
  | _ => none

/-- `_release_if_late_acquire`: `f.result()` of a cancelled future raises, and the
callback swallows it. -/
def lateCallback (sem : ℕ) (r : Req) : Option Move :=
  if r.late = .scheduled then
    match r.fut with
    | .done => some { req := { r with late := .ran }, sem := sem + 1 }
    | .pending | .cancelled => some { req := { r with late := .ran }, sem := sem }
  else none

/-- The straight-line code of `send_request` after the acquire. -/
def advanceSend (closed : Bool) (sem : ℕ) (r : Req) (fail : Bool) : Option Move :=
  match r.pc with
  | .holding =>
    if closed then some { req := { r with pc := .ended }, sem := sem + 1 }
    else some { req := { r with pc := .checked }, sem := sem }
  | .checked =>
    some { req := { r with pc := .registered, queue := [] }, sem := sem, inflight := .insert }
  | .registered =>
    -- the re-check under `_stdin_lock`, then the write itself
    if closed || fail then
      some { req := { r with pc := .leaving false }, sem := sem, inflight := .pop }
    else
      some { req := { r with pc := .getting false }, sem := sem, stdin := some .payload }
  | .leaving natural =>
    some { req := { r with pc := .popped natural }, sem := sem, inflight := .pop }
  | .popped natural =>
    some { req := { r with pc := if natural then .ended else .notifying }, sem := sem + 1 }
  | .notifying =>
    some { req := { r with pc := .ended }, sem := sem,
           stdin := if closed || fail then none else some .cancel }
  | _ => none

/-- The straight-line code of `request` after the acquire. -/
def advanceRequest (closed : Bool) (sem : ℕ) (r : Req) (fail : Bool) : Option Move :=
  match r.pc with
  | .entered =>
    some { req := { r with pc := if closed then .unwound else .unnamed }, sem := sem }
  | .unnamed =>
    some { req := { r with pc := if fail then .unwound else .named }, sem := sem }
  | .named =>
    some { req := { r with pc := .inserted, queue := [] }, sem := sem, inflight := .insert }
  | .inserted =>
    if closed || fail then some { req := { r with pc := .unwinding }, sem := sem }
    else some { req := { r with pc := .reading }, sem := sem, stdin := some .payload }
  | .unwinding =>
    some { req := { r with pc := .unwound }, sem := sem, inflight := .pop }
  | .unwound => some { req := { r with pc := .ended }, sem := sem + 1 }
  | _ => none

/-- What one move does to the request that makes it and to the semaphore. -/
def agentStep (cfg : Cfg) (closed : Bool) (sem : ℕ) (r : Req) : Move.Kind → Option Move
  | .send fail => if r.pc = .idle then sendRequest cfg sem r fail else none
  | .jobStart =>
    if r.job = .queued then some { req := { r with job := .blocked }, sem := sem } else none
  | .jobAcquire =>
    if r.job = .blocked ∧ 0 < sem then
      some { req := { r with job := .acquired }, sem := sem - 1 }
    else none
  | .jobReturn =>
    -- the result is copied into the future unless that is cancelled already
    if r.job = .acquired then
      some { req := { r with job := .returned, fut := r.fut.setResult }, sem := sem }
    else none
  | .jobCancel =>
    if r.fut = .cancelled ∧ r.job = .queued then
      some { req := { r with job := .cancelled }, sem := sem }
    else none
  | .resume =>
    match r.pc with
    | .acquiring mustCancel => resumeAcquire sem r mustCancel
    | _ => none
  | .lateCallback => lateCallback sem r
  | .cancelTask => cancelTask sem r
  | .advance fail => advanceSend closed sem r fail
  | .getEvent =>
    match r.pc, r.queue with
    | .getting false, event :: queue =>
      if event = .workerExit then
        some { req := { r with pc := .leaving false, queue := queue }, sem := sem }
      else some { req := { r with pc := .yielded event, queue := queue }, sem := sem }
    | _, _ => none
  | .getFails =>
    match r.pc with
    | .getting _ => some { req := { r with pc := .leaving false }, sem := sem }
    | _ => none
  | .next =>
    match r.pc with
    | .yielded event =>
      some { req := { r with pc := if event.terminal then .leaving true else .getting false },
             sem := sem }
    | _ => none
  | .aclose =>
    match r.pc with
    | .yielded _ => some { req := { r with pc := .leaving false }, sem := sem }
    | _ => none
  | .request =>
    if r.pc = .idle then
      if cfg.queueWhenSaturated then some { req := { r with pc := .blocked }, sem := sem }
      else if 0 < sem then some { req := { r with pc := .entered }, sem := sem - 1 }
      else some { req := { r with pc := .ended }, sem := sem }
    else none
  | .take =>
    if r.pc = .blocked ∧ 0 < sem then
      some { req := { r with pc := .entered }, sem := sem - 1 }
    else none
  | .advanceSync fail => advanceRequest closed sem r fail
  | .readEvent =>
    match r.pc, r.queue with
    | .reading, event :: queue =>
      if event = .workerExit then
        some { req := { r with pc := .unwinding, queue := queue }, sem := sem }
      else some { req := { r with pc := .handed event, queue := queue }, sem := sem }
    | _, _ => none
  | .readFails =>
    if r.pc = .reading then some { req := { r with pc := .unwinding }, sem := sem } else none
  | .nextSync =>
    match r.pc with
    | .handed event =>
      some { req := { r with pc := if event.terminal then .unwinding else .reading },
             sem := sem }
    | _ => none
  | .closeSync =>
    match r.pc with
    | .handed _ => some { req := { r with pc := .unwinding }, sem := sem }
    | _ => none

variable {ι ρ : Type} [DecidableEq ι] [DecidableEq ρ]

/-- A worker multiplexer with requests `ι` whose ids are in `ρ`. -/
structure State (ι ρ : Type) where
  /-- The permits in `self._sem`. -/
  sem : ℕ
  closed : Bool
  /-- `self._inflight`, the request whose queue is registered under an id. -/
  inflight : ρ → Option ι
  req : ι → Req
  /-- What has been written to the worker's stdin, latest line first. -/
  stdin : List (ι × Line)

/-- The parties' actions. -/
inductive Act (ι ρ : Type)
  /-- A move of one request. -/
  | move (i : ι) (kind : Move.Kind)
  /-- `close()`, the section under `_stdin_lock`. -/
  | close
  /-- `close()`, the queues it wakes. -/
  | closeDrain
  /-- The reader thread has an event of the worker for an id. -/
  | line (rid : ρ) (event : Event)
  /-- The reader thread ends: the worker's stdout is closed. -/
  | eof
  deriving DecidableEq, Repr

/-- A new `WorkerIO`. -/
def State.start (cfg : Cfg) : State ι ρ :=
  { sem := cfg.maxSlots, closed := false, inflight := fun _ => none, req := fun _ => Req.fresh,
    stdin := [] }

/-- `queue.put(event)` on the queue of request `i`. -/
def State.put (s : State ι ρ) (i : ι) (event : Event) : State ι ρ :=
  { s with
    req := Function.update s.req i { s.req i with queue := (s.req i).queue ++ [event] } }

/-- Every registered request gets the exit sentinel and `_inflight` is emptied. -/
def State.wakeAll (rid : ι → ρ) (s : State ι ρ) : State ι ρ :=
  { s with
    inflight := fun _ => none
    req := fun i =>
      if s.inflight (rid i) = some i then
        { s.req i with queue := (s.req i).queue ++ [.workerExit] }
      else s.req i }

/-- The move `m` of request `i` takes effect on the shared state. -/
def State.apply (rid : ι → ρ) (s : State ι ρ) (i : ι) (m : Move) : State ι ρ :=
  { s with
    sem := m.sem
    req := Function.update s.req i m.req
    inflight :=
      match m.inflight with
      | .keep => s.inflight
      | .insert => Function.update s.inflight (rid i) (some i)
      | .pop => Function.update s.inflight (rid i) none
    stdin :=
      match m.stdin with
      | none => s.stdin
      | some l => (i, l) :: s.stdin }

/-- One step of the multiplexer. -/
def step (cfg : Cfg) (rid : ι → ρ) (s : State ι ρ) : Act ι ρ → Option (State ι ρ)
  | .move i kind => (agentStep cfg s.closed s.sem (s.req i) kind).map (s.apply rid i)
  | .close => some { s with closed := true }
  | .closeDrain => if s.closed then some (s.wakeAll rid) else none
  | .line id event =>
    match s.inflight id with
    | none => some s
    | some i => some (s.put i event)
  | .eof => some (s.wakeAll rid)

/-- The multiplexer as a machine. -/
def machine (cfg : Cfg) (rid : ι → ρ) : Machine (State ι ρ) (Act ι ρ) :=
  { init := State.start cfg, step := step cfg rid }

end WorkerIO
end OpenVoiceStream
