import OpenVoiceStream.AsrInferGate
import OpenVoiceStream.Coordinator

/-!
# Utterance slots of the streaming ASR socket

With sentence-level locking a handler of `/asr/stream` takes a slot for each utterance:
a permit of the inference gate first, the lock of the coordinator second.  Inside it
runs its jobs, one after the other, on threads of an executor, and on its way out it
waits for those that are still under way.

A job has two futures.  The one of the thread pool is done when the thread has left the
backend.  The one of the event loop, which the handler awaits, is cancelled together
with the handler; this cancels the job only if no thread has taken it up.

A handler is modelled from one await to the next.  It may also be interrupted at the
lock where the code finds it free and does not wait, which only adds interleavings.

## Main definitions

* `Job`, `Handler` — the jobs of a handler and where it stands.
* `Handler.exitSlot` — `drain`, and the way out of the slot.
* `handlerStep` — the moves of a handler and of the threads on its jobs.
* `Sys`, `step`, `machine` — all handlers, the gate and the coordinator.
-/

namespace OpenVoiceStream
namespace AsrSlots

open AsrInferGate (Gate)

/-- The future of a job in the thread pool. -/
inductive Job
  /-- No thread has taken it up. -/
  | pending
  /-- A thread is inside the backend. -/
  | running
  | finished
  /-- Cancelled before a thread took it up. -/
  | cancelled
  deriving DecidableEq, Repr

/-- `cf.done()`. -/
def Job.done : Job → Bool
  | .pending | .running => false
  | .finished | .cancelled => true

/-- Where a handler stands. -/
inductive Pc
  /-- Between two utterances. -/
  | idle
  /-- At the future of the gate. -/
  | gate
  /-- At the lock of the coordinator, with a permit; the flag is a pending cancellation. -/
  | lock (mustCancel : Bool)
  /-- In the slot, between two jobs. -/
  | body
  /-- At the event-loop future of the last job. -/
  | awaiting (wrapped : Fut) (mustCancel : Bool)
  /-- In `drain`; whether the handler ends behind it. -/
  | draining (mustCancel ends : Bool)
  | ended
  deriving DecidableEq, Repr

/-- A handler of a connection. -/
structure Handler where
  pc : Pc
  /-- The jobs it has submitted, oldest first. -/
  jobs : List Job
  /-- How many of them belong to earlier slots. -/
  slotFrom : ℕ
  /-- How many cancellations were delivered to it. -/
  cancels : ℕ
  deriving DecidableEq, Repr

namespace Handler

/-- A connection that was just opened. -/
def fresh : Handler := { pc := .idle, jobs := [], slotFrom := 0, cancels := 0 }

/-- `futures`: the jobs of the current slot. -/
def futures (h : Handler) : List Job := h.jobs.drop h.slotFrom

/-- The threads inside the backend for this handler. -/
def threads (h : Handler) : ℕ := h.jobs.count .running

end Handler

/-- What a move does to the slot. -/
inductive SlotOp
  | keep
  /-- The coordinator is entered. -/
  | enter
  /-- The coordinator and the gate are left. -/
  | leave
  /-- The gate is left; the coordinator was not entered. -/
  | leaveGate
  deriving DecidableEq, Repr

namespace Handler

/-- Behind the slot: the next utterance, or the end of the handler. -/
def behind (h : Handler) (ends : Bool) : Handler :=
  { h with pc := if ends then .ended else .idle, slotFrom := h.jobs.length }

/-- `drain` up to its first await, and the way out of the slot if it has none. -/
def exitSlot (h : Handler) (ends : Bool) : Handler × SlotOp :=
  if h.futures.all Job.done then (h.behind ends, .leave)
  else ({ h with pc := .draining false ends }, .keep)

end Handler

/-- The moves of a handler that need nothing of the others. -/
inductive Move
  /-- The connection ends between two utterances. -/
  | quit
  /-- The lock is taken; in the mode `exclusive` what follows may raise. -/
  | lock (raises : Bool)
  /-- A handler that was cancelled at the lock runs again. -/
  | unwind
  /-- `submit`, which may raise. -/
  | submit (raises : Bool)
  /-- The body of the slot ends. -/
  | leave (ends : Bool)
  /-- A thread takes up a job. -/
  | start (k : ℕ)
  /-- A thread leaves the backend. -/
  | finish (k : ℕ)
  /-- The result of the last job is copied to its event-loop future. -/
  | deliver
  /-- The cancellation of the event-loop future is passed on to the job. -/
  | relay
  /-- The handler awaiting a job runs again; the job may have raised. -/
  | wake (raised : Bool)
  /-- The handler in `drain` runs again. -/
  | drained
  /-- `task.cancel()`. -/
  | cancel
  deriving DecidableEq, Repr

/-- The moves of a handler, and of the threads on its jobs. -/
def handlerStep (h : Handler) : Move → Option (Handler × SlotOp)
  | .quit => if h.pc = .idle then some ({ h with pc := .ended }, .keep) else none
  | .lock raises =>
    if h.pc = .lock false then
      if raises then some (h.behind true, .leaveGate) else some ({ h with pc := .body }, .enter)
    else none
  | .unwind => if h.pc = .lock true then some (h.behind true, .leaveGate) else none
  | .submit raises =>
    if h.pc = .body then
      if raises then some (h.exitSlot true)
      else some ({ h with pc := .awaiting .pending false, jobs := h.jobs ++ [.pending] }, .keep)
    else none
  | .leave ends => if h.pc = .body then some (h.exitSlot ends) else none
  | .start k =>
    if h.jobs[k]? = some .pending then some ({ h with jobs := h.jobs.set k .running }, .keep)
    else none
  | .finish k =>
    if h.jobs[k]? = some .running then some ({ h with jobs := h.jobs.set k .finished }, .keep)
    else none
  | .deliver =>
    match h.pc with
    | .awaiting wrapped mustCancel =>
      if h.jobs.getLast? = some .finished then
        some ({ h with pc := .awaiting wrapped.setResult mustCancel }, .keep)
      else none
    | _ => none
  | .relay =>
    match h.pc with
    | .awaiting .cancelled _ =>
      if h.jobs.getLast? = some .pending then
        some ({ h with jobs := h.jobs.set (h.jobs.length - 1) .cancelled }, .keep)
      else none
    | _ => none
  | .wake raised =>
    match h.pc with
    | .awaiting .pending _ => none
    | .awaiting .cancelled _ =>
      -- the callback that passes the cancellation on was registered first
      if h.jobs.getLast? = some .pending then none else some (h.exitSlot true)
    | .awaiting .done true => some (h.exitSlot true)
    | .awaiting .done false =>
      if raised then some (h.exitSlot true) else some ({ h with pc := .body }, .keep)
    | _ => none
  | .drained =>
    match h.pc with
    | .draining mustCancel ends =>
      -- a second cancellation ends the wait, whatever the threads do
      if mustCancel || h.futures.all Job.done then some (h.behind ends, .leave) else none
    | _ => none
  | .cancel =>
    let h := { h with cancels := h.cancels + 1 }
    match h.pc with
    | .idle => some ({ h with pc := .ended }, .keep)
    | .lock _ => some ({ h with pc := .lock true }, .keep)
    | .awaiting wrapped mustCancel =>
      some ({ h with pc := .awaiting wrapped.cancel (mustCancel || wrapped.isDone) }, .keep)
    | .draining _ ends => some ({ h with pc := .draining true ends }, .keep)
    | .gate | .body | .ended => none

/-! ### All handlers together -/

variable {ι : Type} [DecidableEq ι] [Fintype ι]

/-- The handlers, the gate and the coordinator. -/
structure Sys (ι : Type) where
  gate : Gate ι
  coord : Coordinator ι
  handler : ι → Handler

/-- The gate, the mode of the coordinator and the size of the thread pool. -/
structure Cfg where
  gate : AsrInferGate.Cfg
  mode : Mode
  workers : ℕ

namespace Sys

/-- The threads inside the backend. -/
def threads (s : Sys ι) : ℕ := Agents.total Handler.threads s.handler

/-- Handler `i` moves to `h`. -/
def put (s : Sys ι) (i : ι) (h : Handler) : Sys ι :=
  { s with handler := Function.update s.handler i h }

/-- What a move does to the gate and to the coordinator. -/
def apply (cfg : Cfg) (s : Sys ι) (i : ι) : SlotOp → Option (Sys ι)
  | .keep => some s
  | .enter =>
    if s.coord.free then some { s with coord := s.coord.enter i .asr } else none
  | .leave =>
    (AsrInferGate.step cfg.gate s.gate (.exit i)).map fun g =>
      { s with gate := g, coord := s.coord.leave i }
  | .leaveGate =>
    (AsrInferGate.step cfg.gate s.gate (.exit i)).map fun g => { s with gate := g }

/-- Handler `i` behind a step of the gate; `out` is where it is without a permit. -/
def afterGate (s : Sys ι) (i : ι) (g : Gate ι) (h : Handler) (out : Pc) : Sys ι :=
  let pc :=
    match g.task i with
    | .inside => .lock false
    | .waiting _ _ => .gate
    | .outside => out
  { s with gate := g }.put i { h with pc := pc }

end Sys

/-- The moves of the system. -/
inductive Act (ι : Type)
  /-- The handler wants a slot. -/
  | acquire (i : ι)
  /-- The handler waiting at the gate runs again. -/
  | permit (i : ι)
  /-- `task.cancel()` at the gate. -/
  | cancelAtGate (i : ι)
  | move (i : ι) (m : Move)
  deriving DecidableEq, Repr

/-- A thread is free for a job that is to start. -/
def Sys.idleThread (cfg : Cfg) (s : Sys ι) : Move → Bool
  | .start _ => decide (s.threads < cfg.workers)
  | _ => true

/-- One step of the system. -/
def step (cfg : Cfg) (s : Sys ι) : Act ι → Option (Sys ι)
  | .acquire i =>
    if (s.handler i).pc = .idle then
      -- `InferenceQueueFull` leaves the handler where it was
      (AsrInferGate.step cfg.gate s.gate (.enter i)).map fun g =>
        s.afterGate i g (s.handler i) .idle
    else none
  | .permit i =>
    if (s.handler i).pc = .gate then
      (AsrInferGate.step cfg.gate s.gate (.resume i)).map fun g =>
        s.afterGate i g (s.handler i) .ended
    else none
  | .cancelAtGate i =>
    if (s.handler i).pc = .gate then
      (AsrInferGate.step cfg.gate s.gate (.cancel i)).map fun g =>
        s.afterGate i g { s.handler i with cancels := (s.handler i).cancels + 1 } .ended
    else none
  | .move i m =>
    if s.idleThread cfg m then
      (handlerStep (s.handler i) m).bind fun (h, op) => (s.put i h).apply cfg i op
    else none

/-- The system as a machine. -/
def machine (cfg : Cfg) : Machine (Sys ι) (Act ι) where
  init := { gate := Gate.start, coord := Coordinator.start cfg.mode, handler := fun _ => .fresh }
  step := step cfg

/-- A cancellation is the first one of its handler. -/
def Once (s : Sys ι) : Act ι → Prop
  | .cancelAtGate i => (s.handler i).cancels = 0
  | .move i .cancel => (s.handler i).cancels = 0
  | _ => True

omit [DecidableEq ι] [Fintype ι] in
instance (s : Sys ι) : ∀ a, Decidable (Once s a)
  | .cancelAtGate i => inferInstanceAs (Decidable ((s.handler i).cancels = 0))
  | .move i .cancel => inferInstanceAs (Decidable ((s.handler i).cancels = 0))
  | .move _ .quit | .move _ (.lock _) | .move _ .unwind | .move _ (.submit _)
  | .move _ (.leave _) | .move _ (.start _) | .move _ (.finish _) | .move _ .deliver
  | .move _ .relay | .move _ (.wake _) | .move _ .drained => isTrue trivial
  | .acquire _ | .permit _ => isTrue trivial

end AsrSlots
end OpenVoiceStream
