import OpenVoiceStream.Backend.Manager

/-!
# A manager that is stuck

A reload leaves `DRAINING` by its own hands only: nobody else does it when the reload is
cancelled at one of its awaits.  A reload that is not cancelled there leaves the manager ready,
or failed.

## Main definitions

* `Undisturbed` — a step in which no reload is cancelled.

## Main results

* `never_stuck` — without such a cancellation the manager is never left behind in `DRAINING` or
  `RELOADING`.
* `disconnectRun_stuck` — a client that disconnects while its reload drains.
-/

namespace OpenVoiceStream
namespace Backend

variable {ι β ρ : Type}

/-- The foreign code raises nothing that `except Exception` does not catch. -/
def Build.Catchable (p : Build β) : Prop :=
  p.apply ≠ .fatal ∧ p.factory ≠ .fatal ∧ p.preload ≠ .fatal

/-- The same for all that is called in a reload. -/
def Plugins.Catchable (p : Plugins β) : Prop :=
  p.unloadOld ≠ .fatal ∧ p.unloadNew ≠ .fatal ∧ p.build.Catchable ∧ p.rollback.Catchable

instance (p : Build β) : Decidable p.Catchable := by unfold Build.Catchable; infer_instance

instance (p : Plugins β) : Decidable p.Catchable := by unfold Plugins.Catchable; infer_instance

/-- In this step no reload is cancelled at a `ws.close()` or in the drain: a cancellation that
reaches `wait_for` after the waiter has ended does no harm.  And the foreign code raises
nothing that is not caught. -/
def Undisturbed (s : State ι β ρ) : Act ι β ρ → Prop
  | .cancel =>
    match s.reload with
    | .draining _ _ _ => True
    | _ => False
  | .waitFor p =>
    match s.reload with
    | .draining _ true _ => s.waiter = .done ∧ p.Catchable
    | _ => p.Catchable
  | .wsClosed p | .reload _ _ _ _ p => p.Catchable
  | _ => True

/-- What the states between two reloads have in common: there is a backend exactly when the
manager is ready, and it is not on its way to another state. -/
def State.Serves (s : State ι β ρ) : Prop :=
  (s.state = .init ∨ s.state = .ready ∨ s.state = .failed) ∧
    (s.state = .ready ↔ s.current.isSome)

section Reloads

variable {s s' : State ι β ρ} {job : Job β ρ} {p : Plugins β} {b : Build β}

theorem Build.Catchable.run_ne (hb : b.Catchable) (applies : Bool) : b.run applies ≠ .fatal := by
  obtain ⟨happly, hfactory, hpreload⟩ := hb
  unfold Build.run
  split
  · simp
  · next heq =>
    cases applies
    · simp at heq
    · exact absurd heq happly
  · split
    · simp
    · next heq => exact absurd heq hfactory
    · split
      · simp
      · next heq => exact absurd heq hpreload
      · simp

theorem rollback_serves (hp : p.Catchable) (s : State ι β ρ) (job : Job β ρ) :
    (s.rollback job p).Serves := by
  obtain ⟨_, _, _, hrollback⟩ := hp
  unfold State.rollback
  split
  · exact ⟨.inr (.inl rfl), by simp [State.finish]⟩
  · exact ⟨.inr (.inr rfl), by simp [State.finish, State.setState, State.underLock]⟩
  · next heq => exact absurd heq (hrollback.run_ne _)

/-- A reload that has drained leaves the manager ready or failed. -/
theorem swap_serves (hp : p.Catchable) (s : State ι β ρ) (job : Job β ρ) :
    (s.swap job p).Serves := by
  obtain ⟨hold, hnew, hbuild, _⟩ := id hp
  unfold State.swap
  extract_lets old
  rw [if_neg hold]
  split
  · next heq => exact absurd heq (hbuild.run_ne _)
  · exact ⟨.inr (.inl rfl), by simp [State.finish]⟩
  · exact rollback_serves hp _ job
  · rw [if_neg hnew]
    exact rollback_serves hp _ job

end Reloads

/-! ### Runs -/

section Runs

variable [Fintype ι] [DecidableEq ι] {cfg : Cfg β ρ} {s s' : State ι β ρ} {p : Plugins β}

/-- What holds along a run in which no reload is cancelled. -/
structure State.Unstuck (s : State ι β ρ) : Prop where
  serves : s.reload = .idle → s.Serves
  going : s.reload ≠ .cancelling

omit [Fintype ι] [DecidableEq ι] in
/-- A step that leaves the reload and the backend alone. -/
theorem State.Unstuck.same (hs : s.Unstuck) (hstate : s'.state = s.state)
    (hcurrent : s'.current = s.current) (hreload : s'.reload = s.reload) : s'.Unstuck := by
  refine ⟨fun hidle => ?_, by rw [hreload]; exact hs.going⟩
  rw [hreload] at hidle
  unfold State.Serves
  rw [hstate, hcurrent]
  exact hs.serves hidle

omit [Fintype ι] [DecidableEq ι] in
theorem unstuck_of_busy (hbusy : s.reload ≠ .idle) (hgoing : s.reload ≠ .cancelling) : s.Unstuck :=
  ⟨fun hidle => absurd hidle hbusy, hgoing⟩

omit [Fintype ι] [DecidableEq ι] in
theorem unstuck_of_idle (hidle : s.reload = .idle) (hserves : s.Serves) : s.Unstuck :=
  ⟨fun _ => hserves, by rw [hidle]; simp⟩

omit [Fintype ι] [DecidableEq ι] in
theorem swap_unstuck (hp : p.Catchable) (s : State ι β ρ) (job : Job β ρ) :
    (s.swap job p).Unstuck :=
  unstuck_of_idle (swap_frame s job p).2.1 (swap_serves hp s job)

omit [Fintype ι] [DecidableEq ι] in
theorem checkDrain_unstuck (hp : p.Catchable) (s : State ι β ρ) (job : Job β ρ) :
    (s.checkDrain job p).Unstuck := by
  unfold State.checkDrain
  split
  · exact swap_unstuck hp s job
  · exact unstuck_of_busy (by simp) (by simp)

omit [Fintype ι] in
theorem enter_same (s : State ι β ρ) (i : ι) :
    (s.enter i).state = s.state ∧ (s.enter i).current = s.current ∧
      (s.enter i).reload = s.reload := by
  simp only [State.enter, State.underLock]
  split <;> exact ⟨rfl, rfl, rfl⟩

omit [Fintype ι] in
theorem leave_same (s : State ι β ρ) (i : ι) :
    (s.leave i).state = s.state ∧ (s.leave i).current = s.current ∧
      (s.leave i).reload = s.reload := by
  by_cases hlast : s.inflightHttp - 1 ≤ 0
  · simp only [State.leave, State.underLock, State.move, hlast, ↓reduceIte, and_self]
  · simp only [State.leave, State.underLock, State.move, hlast, ↓reduceIte, and_self]

omit [Fintype ι] [DecidableEq ι] in
theorem startUp_unstuck (hs : s.Unstuck) (hidle : s.reload = .idle) (hinit : s.state = .init)
    (cfg : Cfg β ρ) (p : Build β) : (s.startUp cfg p).Unstuck := by
  have hnone : s.current.isSome = false := by
    have hiff := (hs.serves hidle).2
    rw [hinit] at hiff
    simpa using hiff
  unfold State.startUp
  split
  · exact hs
  · exact unstuck_of_idle hidle ⟨.inr (.inr rfl), by simp [hnone]⟩
  · exact unstuck_of_idle hidle ⟨.inr (.inl rfl), by simp⟩

omit [Fintype ι] [DecidableEq ι] in
theorem beginReload_unstuck (hs : s.Unstuck) (hp : p.Catchable) (cfg : Cfg β ρ)
    (profileRef profileName : Option ρ) (valid : Bool) (closes : ℕ) :
    (s.beginReload cfg profileRef profileName valid closes p).Unstuck := by
  unfold State.beginReload
  split
  · split
    · exact hs.same rfl rfl rfl
    · unfold State.beginDrain
      cases closes with
      | zero => exact checkDrain_unstuck hp _ _
      | succ more => exact unstuck_of_busy (by simp) (by simp)
  · exact hs.same rfl rfl rfl

/-- A step in which no reload is cancelled. -/
theorem step_unstuck {a : Act ι β ρ} (hinv : Inv s) (hs : s.Unstuck) (hok : Undisturbed s a)
    (hstep : step cfg s a = some s') : s'.Unstuck := by
  cases hinv.effect hstep with
  | started p _ => exact hs
  | starts p hinit =>
    have hidle : s.reload = .idle := by
      by_contra hbusy
      rw [(hinv.busy hbusy).1] at hinit
      cases hinit
    exact startUp_unstuck hs hidle hinit cfg p
  | enters i _ =>
    obtain ⟨hstate, hcurrent, hreload⟩ := enter_same s i
    exact hs.same hstate hcurrent hreload
  | leaves i _ _ =>
    obtain ⟨hstate, hcurrent, hreload⟩ := leave_same s i
    exact hs.same hstate hcurrent hreload
  | reloads profileRef profileName valid closes p =>
    exact beginReload_unstuck hs hok cfg profileRef profileName valid closes
  | closesLast job p _ => exact checkDrain_unstuck hok s job
  | waits => exact hs.same rfl rfl rfl
  | waiterEnds => exact hs.same rfl rfl rfl
  | swaps job cancelled timedOut p hpc _ =>
    have hcatch : p.Catchable := by
      simp only [Undisturbed, hpc] at hok
      cases cancelled with
      | false => exact hok
      | true => exact hok.2
    exact swap_unstuck hcatch s job
  | stopsWaiting job timedOut p hpc hwaits =>
    simp only [Undisturbed, hpc] at hok
    exact absurd hok.1 hwaits
  | timedOut job p hpc =>
    -- the old backend is still there
    obtain ⟨_, hcurrent⟩ := hinv.busy (by simp [hpc])
    exact unstuck_of_idle rfl ⟨.inr (.inl rfl), by simpa [State.finish] using hcurrent⟩
  | cancelled p hpc => exact absurd hpc hs.going
  | cancels _ hpc =>
    -- such a cancellation is the one that is excluded
    have hdraining : ∃ job cancelled timedOut, s.reload = .draining job cancelled timedOut := by
      cases hreload : s.reload with
      | draining job cancelled timedOut => exact ⟨job, cancelled, timedOut, rfl⟩
      | _ => simp only [Undisturbed, hreload] at hok
    obtain ⟨job, cancelled, timedOut, hreload⟩ := hdraining
    exact absurd hreload (hpc job cancelled timedOut)
  | closesOne | timerGoesOff | givesUp | cancelNoted => exact unstuck_of_busy (by simp) (by simp)

/-- **The manager is not stuck unless a reload is cancelled.**  After every run of `start`, of
contexts and of reloads, in which no reload is cancelled at a `ws.close()` or in the drain: when
no reload is executing, the state is `INIT`, `READY` or `FAILED`, and it is `READY` exactly when
there is a backend. -/
theorem never_stuck {as : List (Act ι β ρ)} (hrun : (machine ι cfg).run as = some s)
    (hok : (machine ι cfg).Guarded Undisturbed (machine ι cfg).init as)
    (hidle : s.reload = .idle) :
    (s.state = .init ∨ s.state = .ready ∨ s.state = .failed) ∧
      (s.state = .ready ↔ s.current.isSome) := by
  have hs : Inv s ∧ s.Unstuck := by
    refine (machine ι cfg).invariant_of_guarded Undisturbed (P := fun s => Inv s ∧ s.Unstuck)
      ⟨inv_start, unstuck_of_idle rfl ⟨.inl rfl, by simp [machine, State.start]⟩⟩ ?_ hok hrun
    intro s a s' hs hok hstep
    exact ⟨step_inv hs.1 hstep, step_unstuck hs.1 hs.2 hok hstep⟩
  exact hs.2.serves hidle

/-- A reload whose new backend does not load. -/
def failingPlugins : Plugins ℕ :=
  { goodPlugins with build := { goodBuild 2 with preload := .raised } }

/-- A reload that is rolled back. -/
def rolledBackRun : List (Act Unit ℕ ℕ) :=
  [.start (goodBuild 1), .reload (some 7) none true 0 failingPlugins]

/-- The state after it. -/
def rolledBack : State Unit ℕ ℕ := ((machine Unit exampleCfg).run rolledBackRun).getD .start

theorem never_stuck_rolledBackRun :
    (rolledBack.state = .init ∨ rolledBack.state = .ready ∨ rolledBack.state = .failed) ∧
      (rolledBack.state = .ready ↔ rolledBack.current.isSome) :=
  never_stuck (show (machine Unit exampleCfg).run rolledBackRun = some rolledBack from rfl)
    ⟨trivial, fun _ _ => ⟨(by decide : failingPlugins.Catchable), fun _ _ => trivial⟩⟩ rfl

/-- **A client that disconnects while its reload drains**: the reload is cancelled, and the manager
stays in `DRAINING` with a backend that it refuses to everybody. -/
theorem disconnectRun_stuck :
    ((machine Unit exampleCfg).run
      [.start (goodBuild 1), .enter (), .reload none none true 0 goodPlugins, .waitZero, .cancel,
        .waitFor goodPlugins, .waitZero, .waitFor goodPlugins, .leave ()]).map
        (fun s => (s.reload, s.state, s.current, s.log)) =
      some (.idle, .draining, some 1, [.ended .cancelled]) := by
  decide

end Runs

end Backend
end OpenVoiceStream
