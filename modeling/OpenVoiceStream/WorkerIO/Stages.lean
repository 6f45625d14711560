import OpenVoiceStream.WorkerIO.Model

/-!
# The stages of a request

For what becomes of its events a request is in one of five stages, the same for
`send_request` and for `request`.  `agentStep_shift` says everything one move can
do in terms of them.

## Main definitions

* `Stage`, `Pc.stage` — the stages.
* `Shift` — the moves between them.

## Main results

* `agentStep_shift` — every move is one of those.
-/

namespace OpenVoiceStream
namespace WorkerIO

/-- The stage of a request. -/
inductive Stage
  /-- Not in `_inflight` yet. -/
  | before
  /-- In `_inflight`, the payload not written yet. -/
  | enrolled
  /-- At `q.get`. -/
  | waiting
  /-- Suspended at `yield event`. -/
  | given (event : Event)
  /-- On its way out, or gone. -/
  | over
  deriving DecidableEq, Repr

/-- The stage of a program counter. -/
def Pc.stage : Pc → Stage
  | .idle | .acquiring _ | .holding | .checked => .before
  | .blocked | .entered | .unnamed | .named => .before
  | .registered | .inserted => .enrolled
  | .getting _ | .reading => .waiting
  | .yielded event | .handed event => .given event
  | .leaving _ | .popped _ | .notifying | .unwinding | .unwound | .ended => .over

/-- What a move does to the stage, the queue, `_inflight` and stdin. -/
inductive Shift (closed : Bool) (r : Req) (m : Move) : Prop
  /-- Nothing. -/
  | stay (hstage : m.req.pc.stage = r.pc.stage) (hqueue : m.req.queue = r.queue)
      (hin : m.inflight = .keep) (hout : m.stdin = none)
  /-- The request is over before it is registered. -/
  | refuse (hfrom : r.pc.stage = .before) (hto : m.req.pc.stage = .over)
      (hqueue : m.req.queue = r.queue) (hin : m.inflight = .keep) (hout : m.stdin = none)
  /-- It is registered with an empty queue. -/
  | enrol (hfrom : r.pc.stage = .before) (hto : m.req.pc.stage = .enrolled)
      (hqueue : m.req.queue = []) (hin : m.inflight = .insert) (hout : m.stdin = none)
  /-- Its payload is written, the flag not being set. -/
  | write (hfrom : r.pc.stage = .enrolled) (hto : m.req.pc.stage = .waiting)
      (hopen : closed = false) (hqueue : m.req.queue = r.queue) (hin : m.inflight = .keep)
      (hout : m.stdin = some .payload)
  /-- The flag is set, or the write raises. -/
  | refuseWrite (hfrom : r.pc.stage = .enrolled) (hto : m.req.pc.stage = .over)
      (hqueue : m.req.queue = r.queue) (hin : m.inflight ≠ .insert) (hout : m.stdin = none)
  /-- `q.get` returns an event. -/
  | receive (event : Event) (hfrom : r.pc.stage = .waiting)
      (hto : m.req.pc.stage = .given event) (hevent : event ≠ .workerExit)
      (hqueue : r.queue = event :: m.req.queue) (hin : m.inflight = .keep)
      (hout : m.stdin = none)
  /-- `q.get` returns the sentinel. -/
  | wake (hfrom : r.pc.stage = .waiting) (hto : m.req.pc.stage = .over)
      (hqueue : r.queue = .workerExit :: m.req.queue) (hin : m.inflight = .keep)
      (hout : m.stdin = none)
  /-- `q.get` ends without an event. -/
  | giveUp (hfrom : r.pc.stage = .waiting) (hto : m.req.pc.stage = .over)
      (hqueue : m.req.queue = r.queue) (hin : m.inflight = .keep) (hout : m.stdin = none)
  /-- The consumer asks for the event after one that is not terminal. -/
  | next (event : Event) (hfrom : r.pc.stage = .given event) (hto : m.req.pc.stage = .waiting)
      (hevent : event.terminal = false) (hqueue : m.req.queue = r.queue)
      (hin : m.inflight = .keep) (hout : m.stdin = none)
  /-- The request ends at its `yield`. -/
  | finish (event : Event) (hfrom : r.pc.stage = .given event) (hto : m.req.pc.stage = .over)
      (hqueue : m.req.queue = r.queue) (hin : m.inflight = .keep) (hout : m.stdin = none)
  /-- The `finally` unregisters, or writes a cancel while the flag is not set. -/
  | unwind (hfrom : r.pc.stage = .over) (hto : m.req.pc.stage = .over)
      (hqueue : m.req.queue = r.queue) (hin : m.inflight ≠ .insert)
      (hout : m.stdin = none ∨ m.stdin = some .cancel ∧ closed = false)

variable {cfg : Cfg} {closed : Bool} {sem : ℕ} {r : Req} {m : Move} {fail : Bool}

theorem advanceSend_shift (h : advanceSend closed sem r fail = some m) : Shift closed r m := by
  rw [advanceSend] at h
  cases hpc : r.pc with
  | holding =>
    simp only [hpc] at h
    split at h <;> cases h
    · exact .refuse (by rw [hpc]; rfl) rfl rfl rfl rfl
    · exact .stay (by rw [hpc]; rfl) rfl rfl rfl
  | checked =>
    simp only [hpc] at h
    cases h
    exact .enrol (by rw [hpc]; rfl) rfl rfl rfl rfl
  | registered =>
    simp only [hpc] at h
    split at h <;> cases h
    · exact .refuseWrite (by rw [hpc]; rfl) rfl rfl (by simp) rfl
    · rename_i hno
      exact .write (by rw [hpc]; rfl) rfl (by simp at hno; exact hno.1) rfl rfl rfl
  | leaving natural =>
    simp only [hpc] at h
    cases h
    exact .unwind (by rw [hpc]; rfl) rfl rfl (by simp) (.inl rfl)
  | popped natural =>
    simp only [hpc] at h
    cases h
    refine .unwind (by rw [hpc]; rfl) ?_ rfl (by simp) (.inl rfl)
    cases natural <;> rfl
  | notifying =>
    simp only [hpc] at h
    cases h
    refine .unwind (by rw [hpc]; rfl) rfl rfl (by simp) ?_
    cases closed with
    | true => exact .inl rfl
    | false => cases fail with
      | true => exact .inl rfl
      | false => exact .inr ⟨rfl, rfl⟩
  | _ => simp only [hpc] at h; cases h

theorem advanceRequest_shift (h : advanceRequest closed sem r fail = some m) :
    Shift closed r m := by
  rw [advanceRequest] at h
  cases hpc : r.pc with
  | entered =>
    simp only [hpc] at h
    cases h
    cases closed with
    | true => exact .refuse (by rw [hpc]; rfl) rfl rfl rfl rfl
    | false => exact .stay (by rw [hpc]; rfl) rfl rfl rfl
  | unnamed =>
    simp only [hpc] at h
    cases h
    cases fail with
    | true => exact .refuse (by rw [hpc]; rfl) rfl rfl rfl rfl
    | false => exact .stay (by rw [hpc]; rfl) rfl rfl rfl
  | named =>
    simp only [hpc] at h
    cases h
    exact .enrol (by rw [hpc]; rfl) rfl rfl rfl rfl
  | inserted =>
    simp only [hpc] at h
    split at h <;> cases h
    · exact .refuseWrite (by rw [hpc]; rfl) rfl rfl (by simp) rfl
    · rename_i hno
      exact .write (by rw [hpc]; rfl) rfl (by simp at hno; exact hno.1) rfl rfl rfl
  | unwinding =>
    simp only [hpc] at h
    cases h
    exact .unwind (by rw [hpc]; rfl) rfl rfl (by simp) (.inl rfl)
  | unwound =>
    simp only [hpc] at h
    cases h
    exact .unwind (by rw [hpc]; rfl) rfl rfl (by simp) (.inl rfl)
  | _ => simp only [hpc] at h; cases h

/-- **One move.** -/
theorem agentStep_shift {kind : Move.Kind} (h : agentStep cfg closed sem r kind = some m) :
    Shift closed r m := by
  cases kind with
  | send fail =>
    simp only [agentStep, sendRequest] at h
    split at h
    case isFalse => cases h
    rename_i hpc
    split at h
    · cases h; exact .refuse (by rw [hpc]; rfl) rfl rfl rfl rfl
    split at h
    · cases h; exact .stay (by rw [hpc]; rfl) rfl rfl rfl
    split at h
    · cases h; exact .stay (by rw [hpc]; rfl) rfl rfl rfl
    · cases h; exact .refuse (by rw [hpc]; rfl) rfl rfl rfl rfl
  | jobStart =>
    simp only [agentStep] at h
    split at h <;> cases h
    exact .stay rfl rfl rfl rfl
  | jobAcquire =>
    simp only [agentStep] at h
    split at h <;> cases h
    exact .stay rfl rfl rfl rfl
  | jobReturn =>
    simp only [agentStep] at h
    split at h <;> cases h
    exact .stay rfl rfl rfl rfl
  | jobCancel =>
    simp only [agentStep] at h
    split at h <;> cases h
    exact .stay rfl rfl rfl rfl
  | resume =>
    simp only [agentStep, resumeAcquire] at h
    split at h
    case h_2 => cases h
    rename_i mustCancel hpc
    split at h
    case h_1 => cases h
    · split at h <;> cases h
      · exact .refuse (by rw [hpc]; rfl) rfl rfl rfl rfl
      · exact .stay (by rw [hpc]; rfl) rfl rfl rfl
    · cases h
      exact .refuse (by rw [hpc]; rfl) rfl rfl rfl rfl
  | lateCallback =>
    simp only [agentStep, lateCallback] at h
    split at h
    case isFalse => cases h
    split at h <;> cases h <;> exact .stay rfl rfl rfl rfl
  | cancelTask =>
    simp only [agentStep, cancelTask] at h
    split at h
    case h_3 => cases h
    · rename_i hpc
      split at h <;> cases h
      all_goals exact .stay (by simp only [hpc, Pc.stage]) rfl rfl rfl
    · rename_i hpc
      cases h
      exact .stay (by rw [hpc]; rfl) rfl rfl rfl
  | advance fail => exact advanceSend_shift h
  | getEvent =>
    simp only [agentStep] at h
    split at h
    case h_2 => cases h
    rename_i event queue hpc hqueue
    split at h <;> cases h
    · rename_i hexit
      exact .wake (by rw [hpc]; rfl) rfl (by rw [hqueue, hexit]) rfl rfl
    · rename_i hexit
      exact .receive event (by rw [hpc]; rfl) rfl hexit hqueue rfl rfl
  | getFails =>
    simp only [agentStep] at h
    split at h <;> cases h
    rename_i hpc
    exact .giveUp (by rw [hpc]; rfl) rfl rfl rfl rfl
  | next =>
    simp only [agentStep] at h
    split at h <;> cases h
    rename_i event hpc
    cases hterm : event.terminal with
    | true => exact .finish event (by rw [hpc]; rfl) (by simp [Pc.stage]) rfl rfl rfl
    | false => exact .next event (by rw [hpc]; rfl) (by simp [Pc.stage]) hterm rfl rfl rfl
  | aclose =>
    simp only [agentStep] at h
    split at h <;> cases h
    rename_i event hpc
    exact .finish event (by rw [hpc]; rfl) rfl rfl rfl rfl
  | request =>
    simp only [agentStep] at h
    split at h
    case isFalse => cases h
    rename_i hpc
    split at h
    · cases h; exact .stay (by rw [hpc]; rfl) rfl rfl rfl
    split at h
    · cases h; exact .stay (by rw [hpc]; rfl) rfl rfl rfl
    · cases h; exact .refuse (by rw [hpc]; rfl) rfl rfl rfl rfl
  | take =>
    simp only [agentStep] at h
    split at h <;> cases h
    rename_i hpc
    exact .stay (by rw [hpc.1]; rfl) rfl rfl rfl
  | advanceSync fail => exact advanceRequest_shift h
  | readEvent =>
    simp only [agentStep] at h
    split at h
    case h_2 => cases h
    rename_i event queue hpc hqueue
    split at h <;> cases h
    · rename_i hexit
      exact .wake (by rw [hpc]; rfl) rfl (by rw [hqueue, hexit]) rfl rfl
    · rename_i hexit
      exact .receive event (by rw [hpc]; rfl) rfl hexit hqueue rfl rfl
  | readFails =>
    simp only [agentStep] at h
    split at h <;> cases h
    rename_i hpc
    exact .giveUp (by rw [hpc]; rfl) rfl rfl rfl rfl
  | nextSync =>
    simp only [agentStep] at h
    split at h <;> cases h
    rename_i event hpc
    cases hterm : event.terminal with
    | true => exact .finish event (by rw [hpc]; rfl) (by simp [Pc.stage]) rfl rfl rfl
    | false => exact .next event (by rw [hpc]; rfl) (by simp [Pc.stage]) hterm rfl rfl rfl
  | closeSync =>
    simp only [agentStep] at h
    split at h <;> cases h
    rename_i event hpc
    exact .finish event (by rw [hpc]; rfl) rfl rfl rfl rfl

end WorkerIO
end OpenVoiceStream
