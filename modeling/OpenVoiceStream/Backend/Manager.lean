import OpenVoiceStream.Base.Machine
import OpenVoiceStream.Base.Agents

/-!
# The backend manager

`BackendManager` owns one backend.  Requests use it inside `acquire` contexts, which are
counted; `reload` closes the WebSockets, waits until no context is open, unloads the backend
and builds another one.

The tasks switch at their awaits only, so a step here is what a task does between two of them.
Everything under `_state_lock` is done without an await, so nobody ever finds the lock taken;
the awaits behind a taken lock are kept in the model all the same, for the contexts.

`wait_for` is the one of Python 3.10: it runs its coroutine in a task of its own, and when it
is cancelled after that task has ended, it returns.

## Main definitions

* `State`, `Act`, `step`, `machine` — the manager and the tasks that use it.
* `State.swap` — a reload, once nobody uses the old backend.
* `Inv` — the invariant.
* `Effect` — what a step does.

## Main results

* `step_effect` — a step is one of these effects, as the lock is free.
* `step_inv`, `run_inv` — the invariant along every run.
* `swap_frame` — what a step that unloads the old backend leaves alone.
-/

namespace OpenVoiceStream
namespace Backend

/-- `BackendState`. -/
inductive BackendState
  | init
  | ready
  | draining
  | reloading
  | failed
  deriving DecidableEq, Repr

/-- How a call of foreign code ends: it returns, it raises an `Exception`, or it raises
something that `except Exception` does not catch. -/
inductive Call
  | ok
  | raised
  | fatal
  deriving DecidableEq, Repr

/-- What the foreign code does when a backend is built: `apply_profile`, the factory and what it
returns, and the preloader. -/
structure Build (β : Type) where
  apply : Call
  factory : Call
  made : β
  preload : Call
  deriving Repr

/-- A backend that is built; a failure, with what the factory had returned. -/
inductive Built (β : Type)
  | ok (backend : β)
  | raised (partly : Option β)
  | fatal
  deriving DecidableEq, Repr

/-- What the foreign code does in one reload. -/
structure Plugins (β : Type) where
  unloadOld : Call
  build : Build β
  unloadNew : Call
  rollback : Build β
  deriving Repr

/-- How a reload ends. -/
inductive Ending
  | reloaded
  | rolledBack
  | refused
  | drainTimeout
  | failed
  | cancelled
  | fatal
  deriving DecidableEq, Repr

/-- What happens to a backend, and how reloads end. -/
inductive Event (β : Type)
  | unloadOld (backend : β)
  | unloadNew (backend : β)
  | ended (how : Ending)
  deriving DecidableEq, Repr

/-- Where a task stands that uses `acquire`. -/
inductive Ctx (β : Type)
  | outside
  /-- At the lock in `__aenter__`. -/
  | entering
  /-- In the body. -/
  | held (backend : β)
  /-- At the lock in `__aexit__`. -/
  | leaving (backend : β)
  deriving DecidableEq, Repr

/-- The context has been entered and not been left. -/
def Ctx.isOpen {β : Type} : Ctx β → ℕ
  | .held _ | .leaving _ => 1
  | .outside | .entering => 0

/-- The task that runs `_wait_zero`. -/
inductive Waiter
  | unborn
  | scheduled
  /-- At `_drained_cond.wait()`. -/
  | waiting
  /-- The condition has been notified. -/
  | notified
  /-- `task.cancel()` has been called. -/
  | cancelling
  | done
  | cancelled
  deriving DecidableEq, Repr

/-- What a reload remembers. -/
structure Job (β ρ : Type) where
  profileRef : Option ρ
  oldBackend : β
  oldProfileRef : Option ρ
  deriving DecidableEq, Repr

/-- Where a reload stands. -/
inductive ReloadPc (β ρ : Type)
  | idle
  /-- At `ws.close()`, with so many more of them to come. -/
  | closing (job : Job β ρ) (more : ℕ)
  /-- In `wait_for`: whether the task has been cancelled, and whether the timer has gone off. -/
  | draining (job : Job β ρ) (cancelled timedOut : Bool)
  /-- After the timeout, until the waiter has ended. -/
  | timingOut (job : Job β ρ)
  /-- After a cancellation, until the waiter has ended. -/
  | cancelling
  deriving DecidableEq, Repr

/-- The constructor arguments, and `supports_hot_reload`. -/
structure Cfg (β ρ : Type) where
  initialProfileRef : Option ρ
  supportsHotReload : β → Bool

variable {ι β ρ : Type}

/-- The manager and the tasks that use it. -/
structure State (ι β ρ : Type) where
  state : BackendState
  current : Option β
  inflightHttp : ℤ
  lastProfileRef : Option ρ
  stateLocked : Bool
  ctx : ι → Ctx β
  reload : ReloadPc β ρ
  waiter : Waiter
  log : List (Event β)

/-- A new manager. -/
def State.start : State ι β ρ :=
  { state := .init, current := none, inflightHttp := 0, lastProfileRef := none,
    stateLocked := false, ctx := fun _ => .outside, reload := .idle, waiter := .unborn, log := [] }

/-! ### The code -/

/-- The body of `async with self._state_lock`, when the lock is free. -/
def State.underLock (s : State ι β ρ) (body : State ι β ρ → State ι β ρ) : State ι β ρ :=
  { body { s with stateLocked := true } with stateLocked := false }

/-- Setting the state under the lock. -/
def State.setState (s : State ι β ρ) (state : BackendState) : State ι β ρ :=
  s.underLock fun s => { s with state := state }

/-- Task `i` moves to `c`. -/
def State.move [DecidableEq ι] (s : State ι β ρ) (i : ι) (c : Ctx β) : State ι β ρ :=
  { s with ctx := Function.update s.ctx i c }

/-- A reload ends. -/
def State.finish (s : State ι β ρ) (how : Ending) : State ι β ρ :=
  { s with reload := .idle, log := s.log ++ [.ended how] }

/-- `notify_all`. -/
def Waiter.notify : Waiter → Waiter
  | .waiting => .notified
  | w => w

/-- The first half of `acquire`. -/
def State.enter [DecidableEq ι] (s : State ι β ρ) (i : ι) : State ι β ρ :=
  s.underLock fun s =>
    match s.state, s.current with
    | .ready, some backend =>
      { s with inflightHttp := s.inflightHttp + 1 }.move i (.held backend)
    | _, _ => s.move i .outside

/-- The second half of `acquire`. -/
def State.leave [DecidableEq ι] (s : State ι β ρ) (i : ι) : State ι β ρ :=
  s.underLock fun s =>
    let s := { s with inflightHttp := s.inflightHttp - 1 }.move i .outside
    if s.inflightHttp ≤ 0 then
      { s with inflightHttp := max 0 s.inflightHttp, waiter := s.waiter.notify }
    else s

/-- A profile is applied if there is one, and a backend is built. -/
def Build.run (p : Build β) (applies : Bool) : Built β :=
  match (if applies then p.apply else .ok) with
  | .raised => .raised none
  | .fatal => .fatal
  | .ok =>
    match p.factory with
    | .raised => .raised none
    | .fatal => .fatal
    | .ok =>
      match p.preload with
      | .raised => .raised (some p.made)
      | .fatal => .fatal
      | .ok => .ok p.made

/-- `start`. -/
def State.startUp (cfg : Cfg β ρ) (s : State ι β ρ) (p : Build β) : State ι β ρ :=
  match p.run false with
  | .fatal => s
  | .raised _ => { s with state := .failed }
  | .ok backend =>
    { s with
      current := some backend
      lastProfileRef := s.lastProfileRef.or cfg.initialProfileRef }.setState .ready

/-- The rollback of a reload. -/
def State.rollback (s : State ι β ρ) (job : Job β ρ) (p : Plugins β) : State ι β ρ :=
  match p.rollback.run (job.profileRef.isSome && job.oldProfileRef.isSome) with
  | .ok restored => ({ s with current := some restored }.setState .ready).finish .rolledBack
  | .raised _ => ({ s with current := none }.setState .failed).finish .failed
  | .fatal => s.finish .fatal

/-- A reload from the end of the drain on. -/
def State.swap (s : State ι β ρ) (job : Job β ρ) (p : Plugins β) : State ι β ρ :=
  let s : State ι β ρ :=
    { s.setState .reloading with
      current := none, log := s.log ++ [Event.unloadOld job.oldBackend] }
  if p.unloadOld = .fatal then s.finish .fatal
  else
    match p.build.run job.profileRef.isSome with
    | .fatal => s.finish .fatal
    | .ok backend =>
      ({ s with
        current := some backend
        lastProfileRef := job.profileRef.or s.lastProfileRef }.setState .ready).finish .reloaded
    | .raised none => s.rollback job p
    | .raised (some partly) =>
      let s : State ι β ρ := { s with log := s.log ++ [Event.unloadNew partly] }
      if p.unloadNew = .fatal then s.finish .fatal else s.rollback job p

/-- `_wait_for_http_drain` up to its first switch point. -/
def State.checkDrain (s : State ι β ρ) (job : Job β ρ) (p : Plugins β) : State ι β ρ :=
  if s.inflightHttp = 0 then s.swap job p
  else { s with waiter := .scheduled, reload := .draining job false false }

/-- A reload from `DRAINING` up to its first switch point: so many of the WebSockets take time
to close. -/
def State.beginDrain (s : State ι β ρ) (job : Job β ρ) (closes : ℕ) (p : Plugins β) :
    State ι β ρ :=
  let s := s.setState .draining
  match closes with
  | 0 => s.checkDrain job p
  | more + 1 => { s with reload := .closing job more }

/-- `reload` up to its first switch point.  `profileName` is the name of the current profile,
`valid` says that the new one can be read and misses no artifact. -/
def State.beginReload (cfg : Cfg β ρ) (s : State ι β ρ) (profileRef profileName : Option ρ)
    (valid : Bool) (closes : ℕ) (p : Plugins β) : State ι β ρ :=
  match s.reload, s.state, s.current with
  | .idle, .ready, some backend =>
    if cfg.supportsHotReload backend = false ∨ (profileRef.isSome ∧ valid = false) then
      { s with log := s.log ++ [.ended .refused] }
    else
      s.beginDrain
        { profileRef := profileRef, oldBackend := backend,
          oldProfileRef := s.lastProfileRef.or profileName } closes p
  | _, _, _ => { s with log := s.log ++ [.ended .refused] }

/-- `_wait_zero` from one switch point to the next. -/
def State.waitZero (s : State ι β ρ) : State ι β ρ :=
  s.underLock fun s => { s with waiter := if 0 < s.inflightHttp then .waiting else .done }

/-! ### The machine -/

/-- The steps of the tasks, with what the foreign code does in them. -/
inductive Act (ι β ρ : Type)
  | start (p : Build β)
  /-- The task calls `acquire`. -/
  | enter (i : ι)
  /-- The body of the context ends: it returns, raises or is cancelled at one of its awaits. -/
  | leave (i : ι)
  /-- The task runs again that waits for the lock. -/
  | locked (i : ι)
  /-- The task is cancelled that waits for the lock. -/
  | lockCancelled (i : ι)
  | reload (profileRef profileName : Option ρ) (valid : Bool) (closes : ℕ) (p : Plugins β)
  /-- A `ws.close()` ends. -/
  | wsClosed (p : Plugins β)
  /-- The task of `_wait_zero` runs. -/
  | waitZero
  /-- The timer of `wait_for` goes off. -/
  | timeout
  /-- The reload runs again in `wait_for`. -/
  | waitFor (p : Plugins β)
  /-- The task of the reload is cancelled. -/
  | cancel
  deriving Repr

/-- One step. -/
def step [DecidableEq ι] (cfg : Cfg β ρ) (s : State ι β ρ) : Act ι β ρ → Option (State ι β ρ)
  | .start p =>
    if s.stateLocked = true then none
    else if s.state ≠ .init then some s else some (s.startUp cfg p)
  | .enter i =>
    match s.ctx i with
    | .outside => some (if s.stateLocked then s.move i .entering else s.enter i)
    | _ => none
  | .leave i =>
    match s.ctx i with
    | .held backend => some (if s.stateLocked then s.move i (.leaving backend) else s.leave i)
    | _ => none
  | .locked i =>
    if s.stateLocked = true then none
    else
      match s.ctx i with
      | .entering => some (s.enter i)
      | .leaving _ => some (s.leave i)
      | _ => none
  | .lockCancelled i =>
    match s.ctx i with
    -- a cancellation here skips the counting
    | .entering | .leaving _ => some (s.move i .outside)
    | _ => none
  | .reload profileRef profileName valid closes p =>
    if s.stateLocked = true then none
    else some (s.beginReload cfg profileRef profileName valid closes p)
  | .wsClosed p =>
    match s.reload with
    | .closing job 0 => if s.stateLocked = true then none else some (s.checkDrain job p)
    | .closing job (more + 1) => some { s with reload := .closing job more }
    | _ => none
  | .waitZero =>
    match s.waiter with
    | .scheduled | .notified => if s.stateLocked = true then none else some s.waitZero
    | .cancelling => if s.stateLocked = true then none else some { s with waiter := .cancelled }
    | _ => none
  | .timeout =>
    match s.reload with
    | .draining job cancelled _ => some { s with reload := .draining job cancelled true }
    | _ => none
  | .waitFor p =>
    match s.reload with
    | .draining job cancelled timedOut =>
      if s.waiter = .done then if s.stateLocked = true then none else some (s.swap job p)
      else if cancelled then some { s with waiter := .cancelling, reload := .cancelling }
      else if timedOut then some { s with waiter := .cancelling, reload := .timingOut job }
      else none
    | .timingOut _ =>
      if s.waiter = .cancelled then
        if s.stateLocked = true then none else some ((s.setState .ready).finish .drainTimeout)
      else none
    | .cancelling => if s.waiter = .cancelled then some (s.finish .cancelled) else none
    | _ => none
  | .cancel =>
    match s.reload with
    | .draining job _ timedOut => some { s with reload := .draining job true timedOut }
    | .closing _ _ | .timingOut _ | .cancelling => some (s.finish .cancelled)
    | .idle => none

/-- The manager as a machine. -/
def machine (ι : Type) [DecidableEq ι] (cfg : Cfg β ρ) : Machine (State ι β ρ) (Act ι β ρ) :=
  { init := .start, step := step cfg }

/-! ### What the operations leave alone -/

section Frames

variable {s s' : State ι β ρ} {job : Job β ρ} {p : Plugins β}

@[simp] theorem setState_current (state : BackendState) :
    (s.setState state).current = s.current := rfl

@[simp] theorem setState_state (state : BackendState) : (s.setState state).state = state := rfl

@[simp] theorem setState_reload (state : BackendState) : (s.setState state).reload = s.reload := rfl

/-- What a reload from the end of the drain on leaves alone: the contexts and their number. -/
structure Frame (s s' : State ι β ρ) : Prop where
  ctx : s'.ctx = s.ctx
  inflightHttp : s'.inflightHttp = s.inflightHttp
  unlocked : s.stateLocked = false → s'.stateLocked = false

theorem rollback_frame (s : State ι β ρ) (job : Job β ρ) (p : Plugins β) :
    Frame s (s.rollback job p) ∧ (s.rollback job p).reload = .idle := by
  unfold State.rollback
  split
  · exact ⟨⟨rfl, rfl, fun _ => rfl⟩, rfl⟩
  · exact ⟨⟨rfl, rfl, fun _ => rfl⟩, rfl⟩
  · exact ⟨⟨rfl, rfl, id⟩, rfl⟩

theorem swap_frame (s : State ι β ρ) (job : Job β ρ) (p : Plugins β) :
    Frame s (s.swap job p) ∧ (s.swap job p).reload = .idle ∧ (s.swap job p).stateLocked = false := by
  unfold State.swap
  extract_lets old
  have hold : Frame s old ∧ old.stateLocked = false := ⟨⟨rfl, rfl, fun _ => rfl⟩, rfl⟩
  have hroll : ∀ t : State ι β ρ, t.ctx = s.ctx → t.inflightHttp = s.inflightHttp →
      t.stateLocked = false → Frame s (t.rollback job p) ∧ (t.rollback job p).reload = .idle ∧
        (t.rollback job p).stateLocked = false := by
    intro t hctx hinflight hunlocked
    obtain ⟨hframe, hidle⟩ := rollback_frame t job p
    exact ⟨⟨hframe.ctx.trans hctx, hframe.inflightHttp.trans hinflight,
      fun _ => hframe.unlocked hunlocked⟩, hidle, hframe.unlocked hunlocked⟩
  split
  · exact ⟨⟨rfl, rfl, fun _ => rfl⟩, rfl, rfl⟩
  · split
    · exact ⟨⟨rfl, rfl, fun _ => rfl⟩, rfl, rfl⟩
    · exact ⟨⟨rfl, rfl, fun _ => rfl⟩, rfl, rfl⟩
    · exact hroll _ rfl rfl rfl
    · split
      · exact ⟨⟨rfl, rfl, fun _ => rfl⟩, rfl, rfl⟩
      · exact hroll _ rfl rfl rfl

end Frames

/-! ### The invariant -/

section Invariant

variable [Fintype ι] [DecidableEq ι] {cfg : Cfg β ρ} {s s' : State ι β ρ} {job : Job β ρ} {p : Plugins β}

/-- The invariant. -/
structure Inv (s : State ι β ρ) : Prop where
  /-- Nobody is suspended while it holds the lock, -/
  unlocked : s.stateLocked = false
  /-- so nobody waits for it. -/
  settled : ∀ i, s.ctx i ≠ .entering ∧ ∀ backend, s.ctx i ≠ .leaving backend
  /-- The open contexts are counted. -/
  count : s.inflightHttp = Agents.total Ctx.isOpen s.ctx
  /-- While a reload is suspended no context is entered. -/
  busy : s.reload ≠ .idle → s.state = .draining ∧ s.current.isSome
  /-- What `_wait_zero` has found stays so until the reload runs again. -/
  drained : ∀ job cancelled timedOut, s.reload = .draining job cancelled timedOut →
    s.waiter = .done → s.inflightHttp = 0

omit [DecidableEq ι] in
theorem inv_start : Inv (State.start : State ι β ρ) where
  unlocked := rfl
  settled := fun _ => ⟨by simp [State.start], by simp [State.start]⟩
  count := by
    have : Agents.total Ctx.isOpen (fun _ : ι => (Ctx.outside : Ctx β)) = 0 :=
      Agents.total_eq_zero fun _ => rfl
    simp [State.start, this]
  busy := fun h => absurd rfl h
  drained := fun _ _ _ h => by cases h

omit [DecidableEq ι] in
/-- A step that leaves the contexts alone and ends the reload, or leaves it idle. -/
theorem Inv.idle (hs : Inv s) (hframe : Frame s s') (hidle : s'.reload = .idle) : Inv s' where
  unlocked := hframe.unlocked hs.unlocked
  settled := fun i => by rw [hframe.ctx]; exact hs.settled i
  count := by rw [hframe.inflightHttp, hframe.ctx]; exact hs.count
  busy := fun h => absurd hidle h
  drained := fun _ _ _ h => by rw [hidle] at h; cases h

omit [DecidableEq ι] in
/-- A step that leaves the contexts alone and drains on. -/
theorem Inv.drain (hs : Inv s) (hframe : Frame s s') (hstate : s'.state = .draining)
    (hcurrent : s'.current.isSome)
    (hdone : ∀ job cancelled timedOut, s'.reload = .draining job cancelled timedOut →
      s'.waiter = .done → s'.inflightHttp = 0) : Inv s' where
  unlocked := hframe.unlocked hs.unlocked
  settled := fun i => by rw [hframe.ctx]; exact hs.settled i
  count := by rw [hframe.inflightHttp, hframe.ctx]; exact hs.count
  busy := fun _ => ⟨hstate, hcurrent⟩
  drained := hdone

/-- A context is entered while the manager is ready, and else nothing happens. -/
theorem Inv.enter (hs : Inv s) {i : ι} (hi : s.ctx i = .outside) : Inv (s.enter i) := by
  by_cases hready : s.state = .ready ∧ s.current.isSome
  · obtain ⟨hstate, hcurrent⟩ := hready
    obtain ⟨backend, hbackend⟩ := Option.isSome_iff_exists.mp hcurrent
    have henter : s.enter i =
        { s with
          inflightHttp := s.inflightHttp + 1, stateLocked := false,
          ctx := Function.update s.ctx i (.held backend) } := by
      simp only [State.enter, State.underLock, hstate, hbackend]
      rfl
    have hidle : s.reload = .idle := by
      by_contra hbusy
      rw [(hs.busy hbusy).1] at hstate
      cases hstate
    have hmove := Agents.total_update_succ (w := Ctx.isOpen) (f := s.ctx) (i := i)
      (a := .held backend) (by rw [hi]; rfl)
    have hcount := hs.count
    rw [henter]
    constructor
    · rfl
    · intro j
      by_cases hj : j = i
      · subst hj
        simp
      · simp only [Function.update_of_ne hj]
        exact hs.settled j
    · dsimp only
      rw [hmove]
      omega
    · intro hbusy
      exact absurd hidle hbusy
    · intro job cancelled timedOut hpc
      rw [hidle] at hpc
      cases hpc
  · have henter : s.enter i = { s with stateLocked := false } := by
      have hctx : Function.update s.ctx i .outside = s.ctx := by
        rw [← hi]
        exact Function.update_eq_self i s.ctx
      simp only [State.enter, State.underLock]
      split
      · next heq hsome => exact absurd ⟨heq, by rw [hsome]; rfl⟩ hready
      · simp only [State.move, hctx]
    rw [henter]
    exact ⟨rfl, hs.settled, hs.count, hs.busy, hs.drained⟩

omit [Fintype ι] in
theorem leave_eq (i : ι) (hpos : 0 < s.inflightHttp) :
    ∃ waiter, s.leave i =
      { s with
        inflightHttp := s.inflightHttp - 1, stateLocked := false, waiter := waiter,
        ctx := Function.update s.ctx i .outside } ∧ (waiter = .done → s.waiter = .done) := by
  by_cases hlast : s.inflightHttp - 1 ≤ 0
  · refine ⟨s.waiter.notify, ?_, ?_⟩
    · have hzero : max 0 (s.inflightHttp - 1) = s.inflightHttp - 1 := max_eq_right (by omega)
      simp only [State.leave, State.underLock, State.move, if_pos hlast, hzero]
    · cases s.waiter <;> simp [Waiter.notify]
  · refine ⟨s.waiter, ?_, id⟩
    simp only [State.leave, State.underLock, State.move, hlast, ↓reduceIte]

/-- A context is left. -/
theorem Inv.leave (hs : Inv s) {i : ι} {backend : β} (hi : s.ctx i = .held backend) :
    Inv (s.leave i) := by
  have hcount := hs.count
  have hmove := Agents.total_update_pred (w := Ctx.isOpen) (f := s.ctx) (i := i)
    (a := (.outside : Ctx β)) (by rw [hi]; rfl)
  have hpos : 0 < s.inflightHttp := by omega
  obtain ⟨waiter, hleave, hwaiter⟩ := leave_eq i hpos
  rw [hleave]
  constructor
  · rfl
  · intro j
    by_cases hj : j = i
    · subst hj
      simp
    · simp only [Function.update_of_ne hj]
      exact hs.settled j
  · dsimp only
    omega
  · exact hs.busy
  · intro job cancelled timedOut hpc hdone
    have := hs.drained job cancelled timedOut hpc (hwaiter hdone)
    omega

omit [DecidableEq ι] in
theorem Inv.checkDrain (hs : Inv s) (hstate : s.state = .draining) (hcurrent : s.current.isSome)
    (job : Job β ρ) (p : Plugins β) : Inv (s.checkDrain job p) := by
  unfold State.checkDrain
  split
  · obtain ⟨hframe, hidle, _⟩ := swap_frame s job p
    exact hs.idle hframe hidle
  · refine hs.drain ⟨rfl, rfl, id⟩ hstate hcurrent ?_
    intro _ _ _ _ hdone
    cases hdone

omit [DecidableEq ι] in
theorem Inv.startUp (hs : Inv s) (cfg : Cfg β ρ) (hinit : s.state = .init) (p : Build β) :
    Inv (s.startUp cfg p) := by
  have hidle : s.reload = .idle := by
    by_contra hbusy
    rw [(hs.busy hbusy).1] at hinit
    cases hinit
  unfold State.startUp
  split
  · exact hs
  · exact hs.idle ⟨rfl, rfl, id⟩ hidle
  · exact hs.idle ⟨rfl, rfl, fun _ => rfl⟩ hidle

omit [DecidableEq ι] in
theorem Inv.beginReload (hs : Inv s) (cfg : Cfg β ρ) (profileRef profileName : Option ρ)
    (valid : Bool) (closes : ℕ) (p : Plugins β) :
    Inv (s.beginReload cfg profileRef profileName valid closes p) := by
  have hrefused : Inv ({ s with log := s.log ++ [.ended .refused] } : State ι β ρ) :=
    ⟨hs.unlocked, hs.settled, hs.count, hs.busy, hs.drained⟩
  unfold State.beginReload
  split
  · next backend hidle hready hcurrent =>
    split
    · exact hrefused
    · have hdraining : Inv (s.setState .draining) :=
        hs.drain ⟨rfl, rfl, fun _ => rfl⟩ rfl (by rw [setState_current, hcurrent]; rfl)
          fun _ _ _ hpc => by rw [setState_reload, hidle] at hpc; cases hpc
      unfold State.beginDrain
      cases closes with
      | zero => exact hdraining.checkDrain rfl (by rw [setState_current, hcurrent]; rfl) _ p
      | succ more =>
        refine hdraining.drain ⟨rfl, rfl, id⟩ rfl (by simp [hcurrent]) ?_
        intro _ _ _ hpc
        cases hpc
  · exact hrefused

omit [DecidableEq ι] in
theorem Inv.waitZero (hs : Inv s) : Inv s.waitZero := by
  constructor
  · rfl
  · exact hs.settled
  · exact hs.count
  · exact hs.busy
  · intro job cancelled timedOut hpc hdone
    have hnonneg : 0 ≤ s.inflightHttp := by
      rw [hs.count]
      exact Int.natCast_nonneg _
    have hzero : ¬ 0 < s.inflightHttp := by
      intro hpos
      simp [State.waitZero, State.underLock, hpos] at hdone
    exact le_antisymm (not_lt.mp hzero) hnonneg

/-- What a step does when nobody holds the lock. -/
inductive Effect (cfg : Cfg β ρ) (s : State ι β ρ) : Act ι β ρ → State ι β ρ → Prop
  | started (p : Build β) (hstate : s.state ≠ .init) : Effect cfg s (.start p) s
  | starts (p : Build β) (hstate : s.state = .init) : Effect cfg s (.start p) (s.startUp cfg p)
  | enters (i : ι) (hi : s.ctx i = .outside) : Effect cfg s (.enter i) (s.enter i)
  | leaves (i : ι) (backend : β) (hi : s.ctx i = .held backend) :
      Effect cfg s (.leave i) (s.leave i)
  | reloads (profileRef profileName : Option ρ) (valid : Bool) (closes : ℕ) (p : Plugins β) :
      Effect cfg s (.reload profileRef profileName valid closes p)
        (s.beginReload cfg profileRef profileName valid closes p)
  | closesOne (job : Job β ρ) (more : ℕ) (p : Plugins β)
      (hpc : s.reload = .closing job (more + 1)) :
      Effect cfg s (.wsClosed p) { s with reload := .closing job more }
  | closesLast (job : Job β ρ) (p : Plugins β) (hpc : s.reload = .closing job 0) :
      Effect cfg s (.wsClosed p) (s.checkDrain job p)
  | waits : Effect cfg s .waitZero s.waitZero
  | waiterEnds : Effect cfg s .waitZero { s with waiter := .cancelled }
  | timerGoesOff (job : Job β ρ) (cancelled timedOut : Bool)
      (hpc : s.reload = .draining job cancelled timedOut) :
      Effect cfg s .timeout { s with reload := .draining job cancelled true }
  | swaps (job : Job β ρ) (cancelled timedOut : Bool) (p : Plugins β)
      (hpc : s.reload = .draining job cancelled timedOut) (hdone : s.waiter = .done) :
      Effect cfg s (.waitFor p) (s.swap job p)
  | stopsWaiting (job : Job β ρ) (timedOut : Bool) (p : Plugins β)
      (hpc : s.reload = .draining job true timedOut) (hwaits : s.waiter ≠ .done) :
      Effect cfg s (.waitFor p) { s with waiter := .cancelling, reload := .cancelling }
  | givesUp (job : Job β ρ) (p : Plugins β) (hpc : s.reload = .draining job false true) :
      Effect cfg s (.waitFor p) { s with waiter := .cancelling, reload := .timingOut job }
  | timedOut (job : Job β ρ) (p : Plugins β) (hpc : s.reload = .timingOut job) :
      Effect cfg s (.waitFor p) ((s.setState .ready).finish .drainTimeout)
  | cancelled (p : Plugins β) (hpc : s.reload = .cancelling) :
      Effect cfg s (.waitFor p) (s.finish .cancelled)
  | cancelNoted (job : Job β ρ) (cancelled timedOut : Bool)
      (hpc : s.reload = .draining job cancelled timedOut) :
      Effect cfg s .cancel { s with reload := .draining job true timedOut }
  | cancels (hbusy : s.reload ≠ .idle)
      (hpc : ∀ job cancelled timedOut, s.reload ≠ .draining job cancelled timedOut) :
      Effect cfg s .cancel (s.finish .cancelled)

omit [Fintype ι] in
/-- **What a step does.**  The lock is free, so the awaits behind a taken lock are never reached. -/
theorem step_effect {a : Act ι β ρ} (hunlocked : s.stateLocked = false)
    (hsettled : ∀ i, s.ctx i ≠ .entering ∧ ∀ backend, s.ctx i ≠ .leaving backend)
    (hstep : step cfg s a = some s') : Effect cfg s a s' := by
  have hfree : ¬ s.stateLocked = true := by
    rw [hunlocked]
    exact Bool.false_ne_true
  cases a with
  | start p =>
    rw [step, if_neg hfree] at hstep
    split at hstep
    · next hstate =>
      obtain rfl := Option.some.inj hstep
      exact .started p hstate
    · next hstate =>
      obtain rfl := Option.some.inj hstep
      exact .starts p (not_not.mp hstate)
  | enter i =>
    rw [step] at hstep
    split at hstep
    · next hi =>
      rw [if_neg hfree] at hstep
      obtain rfl := Option.some.inj hstep
      exact .enters i hi
    · cases hstep
  | leave i =>
    rw [step] at hstep
    split at hstep
    · next backend hi =>
      rw [if_neg hfree] at hstep
      obtain rfl := Option.some.inj hstep
      exact .leaves i backend hi
    · cases hstep
  | locked i =>
    rw [step, if_neg hfree] at hstep
    split at hstep
    · next hi => exact absurd hi (hsettled i).1
    · next backend hi => exact absurd hi ((hsettled i).2 backend)
    · cases hstep
  | lockCancelled i =>
    rw [step] at hstep
    split at hstep
    · next hi => exact absurd hi (hsettled i).1
    · next backend hi => exact absurd hi ((hsettled i).2 backend)
    · cases hstep
  | reload profileRef profileName valid closes p =>
    rw [step, if_neg hfree] at hstep
    obtain rfl := Option.some.inj hstep
    exact .reloads profileRef profileName valid closes p
  | wsClosed p =>
    rw [step] at hstep
    split at hstep
    · next job hpc =>
      rw [if_neg hfree] at hstep
      obtain rfl := Option.some.inj hstep
      exact .closesLast job p hpc
    · next job more hpc =>
      obtain rfl := Option.some.inj hstep
      exact .closesOne job more p hpc
    · cases hstep
  | waitZero =>
    rw [step] at hstep
    split at hstep
    · rw [if_neg hfree] at hstep
      obtain rfl := Option.some.inj hstep
      exact .waits
    · rw [if_neg hfree] at hstep
      obtain rfl := Option.some.inj hstep
      exact .waits
    · rw [if_neg hfree] at hstep
      obtain rfl := Option.some.inj hstep
      exact .waiterEnds
    · cases hstep
  | timeout =>
    rw [step] at hstep
    split at hstep
    · next job cancelled timedOut hpc =>
      obtain rfl := Option.some.inj hstep
      exact .timerGoesOff job cancelled timedOut hpc
    · cases hstep
  | waitFor p =>
    rw [step] at hstep
    split at hstep
    · next job cancelled timedOut hpc =>
      split at hstep
      · next hdone =>
        obtain rfl := Option.some.inj hstep
        exact .swaps job cancelled timedOut p hpc hdone
      · next hwaits =>
        cases cancelled with
        | true =>
          obtain rfl := Option.some.inj hstep
          exact .stopsWaiting job timedOut p hpc hwaits
        | false =>
          cases timedOut with
          | true =>
            obtain rfl := Option.some.inj hstep
            exact .givesUp job p hpc
          | false => cases hstep
    · next job hpc =>
      rw [if_neg hfree] at hstep
      split at hstep
      · obtain rfl := Option.some.inj hstep
        exact .timedOut job p hpc
      · cases hstep
    · next hpc =>
      split at hstep
      · obtain rfl := Option.some.inj hstep
        exact .cancelled p hpc
      · cases hstep
    · cases hstep
  | cancel =>
    rw [step] at hstep
    cases hpc : s.reload with
    | idle =>
      rw [hpc] at hstep
      cases hstep
    | draining job cancelled timedOut =>
      rw [hpc] at hstep
      obtain rfl := Option.some.inj hstep
      exact .cancelNoted job cancelled timedOut hpc
    | closing job more =>
      rw [hpc] at hstep
      obtain rfl := Option.some.inj hstep
      exact .cancels (by simp [hpc]) (by simp [hpc])
    | timingOut job =>
      rw [hpc] at hstep
      obtain rfl := Option.some.inj hstep
      exact .cancels (by simp [hpc]) (by simp [hpc])
    | cancelling =>
      rw [hpc] at hstep
      obtain rfl := Option.some.inj hstep
      exact .cancels (by simp [hpc]) (by simp [hpc])

theorem Inv.effect {a : Act ι β ρ} (hs : Inv s) (hstep : step cfg s a = some s') :
    Effect cfg s a s' :=
  step_effect hs.unlocked hs.settled hstep

/-- **Every step keeps the invariant.** -/
theorem step_inv {a : Act ι β ρ} (hs : Inv s) (hstep : step cfg s a = some s') : Inv s' := by
  cases hs.effect hstep with
  | started p _ => exact hs
  | starts p hinit => exact hs.startUp cfg hinit p
  | enters i hi => exact hs.enter hi
  | leaves i backend hi => exact hs.leave hi
  | reloads profileRef profileName valid closes p =>
    exact hs.beginReload cfg profileRef profileName valid closes p
  | closesOne job more p hpc =>
    obtain ⟨hstate, hcurrent⟩ := hs.busy (by simp [hpc])
    exact hs.drain ⟨rfl, rfl, id⟩ hstate hcurrent fun _ _ _ h => by cases h
  | closesLast job p hpc =>
    obtain ⟨hstate, hcurrent⟩ := hs.busy (by simp [hpc])
    exact hs.checkDrain hstate hcurrent job p
  | waits => exact hs.waitZero
  | waiterEnds =>
    exact ⟨hs.unlocked, hs.settled, hs.count, hs.busy, fun _ _ _ _ h => by cases h⟩
  | timerGoesOff job cancelled timedOut hpc =>
    obtain ⟨hstate, hcurrent⟩ := hs.busy (by simp [hpc])
    exact hs.drain ⟨rfl, rfl, id⟩ hstate hcurrent
      fun _ _ _ _ hdone => hs.drained job cancelled timedOut hpc hdone
  | swaps job _ _ p _ _ =>
    obtain ⟨hframe, hidle, _⟩ := swap_frame s job p
    exact hs.idle hframe hidle
  | stopsWaiting job timedOut p hpc _ =>
    obtain ⟨hstate, hcurrent⟩ := hs.busy (by simp [hpc])
    exact hs.drain ⟨rfl, rfl, id⟩ hstate hcurrent fun _ _ _ h => by cases h
  | givesUp job p hpc =>
    obtain ⟨hstate, hcurrent⟩ := hs.busy (by simp [hpc])
    exact hs.drain ⟨rfl, rfl, id⟩ hstate hcurrent fun _ _ _ h => by cases h
  | timedOut job p hpc => exact hs.idle ⟨rfl, rfl, fun _ => rfl⟩ rfl
  | cancelled p hpc => exact hs.idle ⟨rfl, rfl, id⟩ rfl
  | cancelNoted job cancelled timedOut hpc =>
    obtain ⟨hstate, hcurrent⟩ := hs.busy (by simp [hpc])
    exact hs.drain ⟨rfl, rfl, id⟩ hstate hcurrent
      fun _ _ _ _ hdone => hs.drained job cancelled timedOut hpc hdone
  | cancels _ _ => exact hs.idle ⟨rfl, rfl, id⟩ rfl

/-- **The invariant along every run.** -/
theorem run_inv {as : List (Act ι β ρ)} (hrun : (machine ι cfg).run as = some s) : Inv s :=
  (machine ι cfg).invariant_of_step inv_start (fun _ _ _ hs h => step_inv hs h) hrun

end Invariant

/-! ### A backend for examples -/

/-- Backends and profiles that are numbers; every backend can be reloaded. -/
def exampleCfg : Cfg ℕ ℕ := { initialProfileRef := none, supportsHotReload := fun _ => true }

/-- A backend that is built without a failure. -/
def goodBuild (backend : ℕ) : Build ℕ :=
  { apply := .ok, factory := .ok, made := backend, preload := .ok }

/-- A reload without a failure. -/
def goodPlugins : Plugins ℕ :=
  { unloadOld := .ok, build := goodBuild 2, unloadNew := .ok, rollback := goodBuild 1 }

end Backend
end OpenVoiceStream
