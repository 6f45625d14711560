import OpenVoiceStream.Backend.Manager

/-!
# Backends in use

The manager unloads a backend only when no `acquire` context is open: the contexts are counted
exactly, none is entered while a reload drains, and what the drain has found stays so until the
unloader is called.

## Main results

* `step_unloads` — the steps that unload the old backend.
* `step_ctx` — the steps that move no context.
* `inflight_exact` — the count is exact, and no backend in use is unloaded.
-/

namespace OpenVoiceStream
namespace Backend

variable {ι β ρ : Type}

/-- What a step does to the old backend: nothing, or it finds that no context is open. -/
inductive Unloads (s s' : State ι β ρ) : Prop
  | quiet (events : List (Event β)) (hlog : s'.log = s.log ++ events)
      (hnone : ∀ backend, .unloadOld backend ∉ events)
  | drained (hzero : s.inflightHttp = 0) (hctx : s'.ctx = s.ctx)

variable {s s' : State ι β ρ} {job : Job β ρ} {p : Plugins β}

theorem Unloads.same (h : s'.log = s.log) : Unloads s s' :=
  .quiet [] (by rw [h, List.append_nil]) fun _ => List.not_mem_nil

theorem Unloads.ended {how : Ending} (h : s'.log = s.log ++ [.ended how]) : Unloads s s' :=
  .quiet [.ended how] h fun backend => by simp

theorem checkDrain_unloads (s : State ι β ρ) (job : Job β ρ) (p : Plugins β) :
    Unloads s (s.checkDrain job p) := by
  unfold State.checkDrain
  split
  case isTrue hzero => exact .drained hzero (swap_frame s job p).1.ctx
  case isFalse => exact .same rfl

theorem beginReload_unloads (cfg : Cfg β ρ) (s : State ι β ρ) (profileRef profileName : Option ρ)
    (valid : Bool) (closes : ℕ) (p : Plugins β) :
    Unloads s (s.beginReload cfg profileRef profileName valid closes p) := by
  unfold State.beginReload
  split
  · split
    · exact .ended rfl
    · unfold State.beginDrain
      cases closes with
      | zero =>
        cases checkDrain_unloads (s.setState .draining) _ p with
        | quiet events hlog hnone => exact .quiet events hlog hnone
        | drained hzero hctx => exact .drained hzero hctx
      | succ more => exact .same rfl
  · exact .ended rfl

section Steps

variable [Fintype ι] [DecidableEq ι] {cfg : Cfg β ρ}

omit [Fintype ι] in
theorem enter_log (s : State ι β ρ) (i : ι) : (s.enter i).log = s.log := by
  simp only [State.enter, State.underLock]
  split <;> rfl

omit [Fintype ι] in
theorem leave_log (s : State ι β ρ) (i : ι) : (s.leave i).log = s.log := by
  by_cases hlast : s.inflightHttp - 1 ≤ 0
  · simp only [State.leave, State.underLock, State.move, hlast, ↓reduceIte]
  · simp only [State.leave, State.underLock, State.move, hlast, ↓reduceIte]

/-- **The old backend is unloaded only when no context is open.** -/
theorem step_unloads {a : Act ι β ρ} (hs : Inv s) (hstep : step cfg s a = some s') :
    Unloads s s' := by
  cases hs.effect hstep with
  | started p _ => exact .same rfl
  | starts p _ =>
    apply Unloads.same
    unfold State.startUp
    split <;> rfl
  | enters i _ => exact .same (enter_log s i)
  | leaves i _ _ => exact .same (leave_log s i)
  | reloads profileRef profileName valid closes p =>
    exact beginReload_unloads cfg s profileRef profileName valid closes p
  | closesLast job p _ => exact checkDrain_unloads s job p
  | swaps job cancelled timedOut p hpc hdone =>
    -- the waiter has found that no context is open, and it is still so
    exact .drained (hs.drained job cancelled timedOut hpc hdone) (swap_frame s job p).1.ctx
  | timedOut | cancelled | cancels => exact .ended rfl
  | closesOne | waits | waiterEnds | timerGoesOff | stopsWaiting | givesUp | cancelNoted =>
    exact .same rfl

/-! ### Contexts -/

omit [Fintype ι] in
/-- Who asks for a context gets it, or stays outside. -/
theorem enter_ctx (s : State ι β ρ) (i : ι) :
    ∃ c, (s.enter i).ctx = Function.update s.ctx i c ∧ (c = .outside ∨ ∃ backend, c = .held backend) := by
  simp only [State.enter, State.underLock]
  split
  · exact ⟨_, rfl, .inr ⟨_, rfl⟩⟩
  · exact ⟨_, rfl, .inl rfl⟩

omit [Fintype ι] in
theorem leave_ctx (s : State ι β ρ) (i : ι) :
    (s.leave i).ctx = Function.update s.ctx i .outside := by
  by_cases hlast : s.inflightHttp - 1 ≤ 0
  · simp only [State.leave, State.underLock, State.move, hlast, ↓reduceIte]
  · simp only [State.leave, State.underLock, State.move, hlast, ↓reduceIte]

/-- **Nobody else moves a context.** -/
theorem step_ctx {a : Act ι β ρ} (hs : Inv s) (hstep : step cfg s a = some s')
    (henter : ∀ i, a ≠ .enter i) (hleave : ∀ i, a ≠ .leave i) : s'.ctx = s.ctx := by
  have hdrain : ∀ (t : State ι β ρ) (job : Job β ρ) (p : Plugins β),
      (t.checkDrain job p).ctx = t.ctx := by
    intro t job p
    unfold State.checkDrain
    split
    · exact (swap_frame t job p).1.ctx
    · rfl
  cases hs.effect hstep with
  | started p _ => rfl
  | starts p _ =>
    unfold State.startUp
    split <;> rfl
  | enters i _ => exact absurd rfl (henter i)
  | leaves i _ _ => exact absurd rfl (hleave i)
  | reloads profileRef profileName valid closes p =>
    unfold State.beginReload
    split
    · split
      · rfl
      · unfold State.beginDrain
        cases closes with
        | zero => exact hdrain _ _ _
        | succ more => rfl
    · rfl
  | closesLast job p _ => exact hdrain s job p
  | swaps job _ _ p _ _ => exact (swap_frame s job p).1.ctx
  | _ => rfl

/-- **The count is exact, and no backend in use is unloaded.**  After every run of contexts and
reloads `_inflight_http` is the number of contexts that have been entered and not left; and
when the next step calls the unloader on the old backend, no context is open. -/
theorem inflight_exact {as : List (Act ι β ρ)} (hrun : (machine ι cfg).run as = some s) :
    s.inflightHttp = Agents.total Ctx.isOpen s.ctx ∧
      ∀ a s' backend, step cfg s a = some s' → .unloadOld backend ∈ s'.log.drop s.log.length →
        ∀ i, (s.ctx i).isOpen = 0 ∧ s'.ctx i = s.ctx i := by
  have hs := run_inv hrun
  refine ⟨hs.count, ?_⟩
  intro a s' backend hstep hunload i
  cases step_unloads hs hstep with
  | quiet events hlog hnone =>
    rw [hlog, List.drop_left] at hunload
    exact absurd hunload (hnone backend)
  | drained hzero hctx =>
    refine ⟨?_, by rw [hctx]⟩
    have htotal : Agents.total Ctx.isOpen s.ctx = 0 := by
      have := hs.count
      omega
    exact Agents.eq_zero_of_total htotal i

/-- A reload waits for a context, which is left: the backend can be unloaded. -/
def drainRun : List (Act Unit ℕ ℕ) :=
  [.start (goodBuild 1), .enter (), .reload none none true 1 goodPlugins, .wsClosed goodPlugins,
    .waitZero, .leave (), .waitZero]

/-- The state after it. -/
def drained : State Unit ℕ ℕ := ((machine Unit exampleCfg).run drainRun).getD .start

theorem inflight_exact_drainRun :
    drained.inflightHttp = Agents.total Ctx.isOpen drained.ctx ∧
      ∀ a s' backend, step exampleCfg drained a = some s' →
        .unloadOld backend ∈ s'.log.drop drained.log.length →
        ∀ i, (drained.ctx i).isOpen = 0 ∧ s'.ctx i = drained.ctx i :=
  inflight_exact (show (machine Unit exampleCfg).run drainRun = some drained from rfl)

example : (step exampleCfg drained (.waitFor goodPlugins)).map State.log =
    some [.unloadOld 1, .ended .reloaded] := by
  decide

end Steps

end Backend
end OpenVoiceStream
