import OpenVoiceStream.Arm.Gripper.Limits

/-!
# The force of a grasp

`_g_target_force` is what a `grasp` without a force takes for its ceiling, what it sets for
the call, and what the control thread holds with.  A call with a force, or an adaptive one,
leaves its own force behind for the calls that give none.

## Main definitions

* `ceiling`, `startingForce` — those of a first call.
* `Gripper.remembers` — a call takes what an earlier one has left.
* `Held` — the force in a call.

## Main results

* `Held.step` — the step lemma.
* `grip_force` — every run.
-/

namespace OpenVoiceStream
namespace Gripper

/-- The ceiling of a first call. -/
def ceiling : Option ℚ → ℚ
  | some force => clip force (5 / 100) gTauMax
  | none => gDefaultForce

/-- The force that a first call starts with. -/
def startingForce (force : Option ℚ) (adaptive : Bool) (adaptiveStart : ℚ) : ℚ :=
  if adaptive then clip adaptiveStart (5 / 100) (ceiling force) else ceiling force

/-- The call that is going on. -/
def CmdPc.call : CmdPc → Option Grasp
  | .graspClose call | .graspWait call | .graspRamp call _ | .graspWindow call _ _
  | .graspCreep call _ _ | .graspBump call _ => some call
  | _ => Option.none

/-- The call that is going on, once it has set the state. -/
def CmdPc.closed : CmdPc → Option Grasp
  | .graspWait call | .graspRamp call _ | .graspWindow call _ _ | .graspCreep call _ _
  | .graspBump call _ => some call
  | _ => Option.none

/-- A call gives no force and finds another one than the default, or steps down. -/
def remembers (g : Gripper) : Act → Bool
  | .grasp force adaptive _ adaptiveStep _ =>
    !force.isSome && decide (g.targetForce ≠ gDefaultForce) ||
      adaptive && decide (adaptiveStep < 0)
  | _ => false

/-- The call has the ceiling and the starting force of a first one. -/
structure Grasp.First (call : Grasp) : Prop where
  cap : call.cap = ceiling call.force
  initial : call.initial = startingForce call.force call.adaptive call.adaptiveStart
  step : call.adaptive = true → 0 ≤ call.adaptiveStep

/-- The force at each place of a call. -/
def CallOk (force : ℚ) : CmdPc → Prop
  | .graspClose call | .graspWait call => call.First ∧ force = call.initial
  | .graspRamp call tf | .graspWindow call tf _ | .graspCreep call tf _ =>
    call.First ∧ call.adaptive = true ∧ force = tf ∧ call.initial ≤ tf ∧ tf ≤ call.cap
  | .graspBump call tf =>
    call.First ∧ call.adaptive = true ∧ call.initial ≤ force ∧ force ≤ tf ∧ tf ≤ call.cap
  | _ => True

/-- The force in a call. -/
structure Held (g : Gripper) : Prop where
  seen : g.seen ≤ g.epoch
  call : CallOk g.targetForce g.cmd
  /-- A tick that has read the state since the call has set it holds with a force of the call. -/
  applied : ∀ tf call, g.tick = .holding tf → g.seen = g.epoch → g.cmd.closed = some call →
    call.initial ≤ tf ∧ tf ≤ g.targetForce

variable {g g' : Gripper} {a : Act} {call : Grasp}

theorem Grasp.First.initial_le (h : call.First) : call.initial ≤ call.cap := by
  rw [h.initial, h.cap, startingForce]
  split
  · exact clip_le _ _ _
  · exact le_rfl

/-- The force of a call is between the one it starts with and its ceiling. -/
theorem CallOk.bounds {force : ℚ} {cmd : CmdPc} (h : CallOk force cmd) (hcall : cmd.call = some call) :
    call.First ∧ call.initial ≤ force ∧ force ≤ call.cap ∧
      (call.adaptive = false → force = call.initial) := by
  cases cmd with
  | graspClose own =>
    cases hcall
    obtain ⟨hfirst, rfl⟩ := h
    exact ⟨hfirst, le_rfl, hfirst.initial_le, fun _ => rfl⟩
  | graspWait own =>
    cases hcall
    obtain ⟨hfirst, rfl⟩ := h
    exact ⟨hfirst, le_rfl, hfirst.initial_le, fun _ => rfl⟩
  | graspRamp own tf =>
    cases hcall
    obtain ⟨hfirst, hadaptive, rfl, hlow, hhigh⟩ := h
    exact ⟨hfirst, hlow, hhigh, fun hnot => by simp [hadaptive] at hnot⟩
  | graspWindow own tf p0 =>
    cases hcall
    obtain ⟨hfirst, hadaptive, rfl, hlow, hhigh⟩ := h
    exact ⟨hfirst, hlow, hhigh, fun hnot => by simp [hadaptive] at hnot⟩
  | graspCreep own tf p0 =>
    cases hcall
    obtain ⟨hfirst, hadaptive, rfl, hlow, hhigh⟩ := h
    exact ⟨hfirst, hlow, hhigh, fun hnot => by simp [hadaptive] at hnot⟩
  | graspBump own tf =>
    cases hcall
    obtain ⟨hfirst, hadaptive, hlow, hle, hhigh⟩ := h
    exact ⟨hfirst, hlow, hle.trans hhigh, fun hnot => by simp [hadaptive] at hnot⟩
  | none => cases hcall
  | openMark target => cases hcall
  | openWait target => cases hcall
  | releaseWait => cases hcall
  | releaseHome => cases hcall
  | homeWait => cases hcall

theorem CmdPc.call_of_closed {cmd : CmdPc} (h : cmd.closed = some call) : cmd.call = some call := by
  cases cmd <;> first | exact h | cases h

/-! ### The control thread -/

/-- What a section of a tick does about the force. -/
theorem tickNext_force (hnext : g.tickNext = some g') :
    g'.targetForce = g.targetForce ∧ g'.cmd = g.cmd ∧ g'.epoch = g.epoch ∧
      (g'.seen = g.seen ∨ g'.seen = g.epoch) ∧
      ∀ tf, g'.tick = .holding tf → g'.seen = g.epoch ∧ tf = g.targetForce := by
  unfold Gripper.tickNext at hnext
  cases hpc : g.tick with
  | rest => simp [hpc] at hnext
  | sensed dt =>
    simp only [hpc, Option.some_inj] at hnext
    subst hnext
    refine ⟨rfl, rfl, rfl, .inr rfl, fun tf htick => ⟨rfl, ?_⟩⟩
    have hbranch : g.branch dt = .holding tf := htick
    unfold branch at hbranch
    split at hbranch <;> cases hbranch
    rfl
  | opening dt =>
    simp only [hpc, Option.some_inj] at hnext
    subst hnext
    refine ⟨rfl, rfl, rfl, .inl rfl, fun tf htick => ?_⟩
    have hafter : g.afterOpening dt (g.ramp dt) = .holding tf := htick
    unfold afterOpening at hafter
    split at hafter
    · cases hafter
    split at hafter <;> cases hafter
  | openingStall dt q target =>
    simp only [hpc] at hnext
    split at hnext <;> simp only [Option.some_inj] at hnext <;> subst hnext <;>
      exact ⟨rfl, rfl, rfl, .inl rfl, fun tf htick => by cases htick⟩
  | openingDone reason =>
    simp only [hpc, Option.some_inj] at hnext
    subst hnext
    exact ⟨rfl, rfl, rfl, .inl rfl, fun tf htick => by cases htick⟩
  | closing dt =>
    simp only [hpc, Option.some_inj] at hnext
    subst hnext
    refine ⟨rfl, rfl, rfl, .inl rfl, fun tf htick => ?_⟩
    have hafter : g.afterClosing (g.closeElapsed + dt) = .holding tf := htick
    unfold afterClosing at hafter
    split at hafter
    · split at hafter
      · cases hafter
      split at hafter <;> cases hafter
    · cases hafter
  | closingHardStop pos =>
    simp only [hpc, Option.some_inj] at hnext
    subst hnext
    exact ⟨rfl, rfl, rfl, .inl rfl, fun tf htick => by cases htick⟩
  | closingContact pos vel =>
    simp only [hpc, Option.some_inj] at hnext
    subst hnext
    exact ⟨rfl, rfl, rfl, .inl rfl, fun tf htick => by cases htick⟩
  | contact dt =>
    simp only [hpc, Option.some_inj] at hnext
    subst hnext
    exact ⟨rfl, rfl, rfl, .inl rfl, fun tf htick => by cases htick⟩
  | contactTimer dt =>
    simp only [hpc] at hnext
    split at hnext <;> simp only [Option.some_inj] at hnext <;> subst hnext <;>
      exact ⟨rfl, rfl, rfl, .inl rfl, fun tf htick => by cases htick⟩
  | holding tf =>
    simp only [hpc, Option.some_inj] at hnext
    subst hnext
    exact ⟨rfl, rfl, rfl, .inl rfl, fun tf htick => by cases htick⟩
  | homing =>
    simp only [hpc, Option.some_inj] at hnext
    subst hnext
    refine ⟨rfl, rfl, rfl, .inl rfl, fun tf htick => ?_⟩
    have hafter : g.afterHoming = .holding tf := htick
    unfold afterHoming at hafter
    split at hafter <;> cases hafter
  | homingDone pos =>
    simp only [hpc, Option.some_inj] at hnext
    subst hnext
    exact ⟨rfl, rfl, rfl, .inl rfl, fun tf htick => by cases htick⟩

theorem Held.tickNext (h : g.Held) (hnext : g.tickNext = some g') : g'.Held := by
  obtain ⟨hforce, hcmd, hepoch, hseen, htick⟩ := tickNext_force hnext
  refine ⟨?_, by rw [hforce, hcmd]; exact h.call, fun tf call hholding _ hclosed => ?_⟩
  · rw [hepoch]
    rcases hseen with hseen | hseen
    · exact hseen.le.trans h.seen
    · exact hseen.le
  · obtain ⟨-, rfl⟩ := htick tf hholding
    have hcall : g.cmd.call = some call := CmdPc.call_of_closed (hcmd ▸ hclosed)
    exact ⟨(h.call.bounds hcall).2.1, hforce.ge⟩

/-! ### Commands -/

/-- Outside the calls nothing is asked. -/
theorem Held.of_none (h : g.Held) (hseen : g'.seen = g.seen) (hepoch : g.epoch ≤ g'.epoch)
    (hcall : g'.cmd.call = Option.none) : g'.Held := by
  refine ⟨hseen.le.trans (h.seen.trans hepoch), ?_, fun tf call _ _ hclosed => ?_⟩
  · generalize g'.cmd = cmd at hcall
    cases cmd <;> trivial
  · cases (CmdPc.call_of_closed hclosed).symm.trans hcall

/-- A call goes on with a force that is no lower. -/
theorem Held.goes (h : g.Held) (hseen : g'.seen = g.seen) (hepoch : g'.epoch = g.epoch)
    (htick : g'.tick = g.tick) (hclosed : g'.cmd.closed = g.cmd.closed)
    (hforce : g.targetForce ≤ g'.targetForce) (hcall : CallOk g'.targetForce g'.cmd) : g'.Held := by
  refine ⟨by rw [hseen, hepoch]; exact h.seen, hcall, fun tf call hholding hsame hcalling => ?_⟩
  rw [htick] at hholding
  rw [hseen, hepoch] at hsame
  rw [hclosed] at hcalling
  obtain ⟨hlow, hhigh⟩ := h.applied tf call hholding hsame hcalling
  exact ⟨hlow, hhigh.trans hforce⟩

/-- The next section of a command, and what it does about the force of a call. -/
theorem Held.cmdNext (h : g.Held) (hnext : g.cmdNext = some g') :
    g'.Held ∧ (g.cmd.call.isSome → g.targetForce ≤ g'.targetForce) := by
  have hcall := h.call
  unfold Gripper.cmdNext at hnext
  cases hpc : g.cmd with
  | none => simp [hpc] at hnext
  | openMark target =>
    simp only [hpc, Option.some_inj] at hnext
    subst hnext
    exact ⟨h.of_none rfl le_rfl rfl, fun _ => le_rfl⟩
  | openWait target =>
    simp only [hpc] at hnext
    split at hnext <;> simp only [Option.some_inj] at hnext <;> subst hnext
    · exact ⟨h.of_none rfl le_rfl rfl, fun _ => le_rfl⟩
    · exact ⟨h, fun _ => le_rfl⟩
  | graspClose call =>
    rw [hpc] at hcall
    simp only [hpc, Option.some_inj] at hnext
    subst hnext
    refine ⟨⟨h.seen.trans (Nat.le_succ _), hcall, fun tf own _ hsame => ?_⟩, fun _ => le_rfl⟩
    -- no tick has read the state since
    have hpast : g.seen = g.epoch + 1 := hsame
    have hle := h.seen
    omega
  | graspWait call =>
    rw [hpc] at hcall
    simp only [hpc] at hnext
    split at hnext
    · split at hnext <;> simp only [Option.some_inj] at hnext <;> subst hnext
      · rename_i hadaptive
        refine ⟨h.goes rfl rfl rfl (by rw [hpc]; rfl) le_rfl ?_, fun _ => le_rfl⟩
        exact ⟨hcall.1, hadaptive, hcall.2, le_rfl, hcall.1.initial_le⟩
      · exact ⟨h.of_none rfl le_rfl rfl, fun _ => le_rfl⟩
    split at hnext <;> simp only [Option.some_inj] at hnext <;> subst hnext
    · exact ⟨h.of_none rfl le_rfl rfl, fun _ => le_rfl⟩
    · exact ⟨h, fun _ => le_rfl⟩
  | graspRamp call tf =>
    rw [hpc] at hcall
    simp only [hpc] at hnext
    split at hnext <;> simp only [Option.some_inj] at hnext <;> subst hnext
    · exact ⟨h.goes rfl rfl rfl (by rw [hpc]; rfl) le_rfl hcall, fun _ => le_rfl⟩
    · exact ⟨h.of_none rfl le_rfl rfl, fun _ => le_rfl⟩
  | graspWindow call tf p0 =>
    rw [hpc] at hcall
    simp only [hpc] at hnext
    split at hnext <;> simp only [Option.some_inj] at hnext <;> subst hnext
    · exact ⟨h.goes rfl rfl rfl (by rw [hpc]; rfl) le_rfl hcall, fun _ => le_rfl⟩
    · exact ⟨h.of_none rfl le_rfl rfl, fun _ => le_rfl⟩
  | graspCreep call tf p0 =>
    rw [hpc] at hcall
    simp only [hpc] at hnext
    split at hnext <;> simp only [Option.some_inj] at hnext <;> subst hnext
    · exact ⟨h.of_none rfl le_rfl rfl, fun _ => le_rfl⟩
    · obtain ⟨hfirst, hadaptive, hforce, hlow, hhigh⟩ := hcall
      have hup : tf ≤ min call.cap (tf + call.adaptiveStep) :=
        le_min hhigh (le_add_of_nonneg_right (hfirst.step hadaptive))
      refine ⟨h.goes rfl rfl rfl (by rw [hpc]; rfl) le_rfl ?_, fun _ => le_rfl⟩
      exact ⟨hfirst, hadaptive, hlow.trans hforce.ge, hforce.le.trans hup, min_le_left _ _⟩
  | graspBump call tf =>
    rw [hpc] at hcall
    obtain ⟨hfirst, hadaptive, hlow, hup, hhigh⟩ := hcall
    simp only [hpc, Option.some_inj] at hnext
    subst hnext
    refine ⟨h.goes rfl rfl rfl (by rw [hpc]; rfl) hup ?_, fun _ => hup⟩
    exact ⟨hfirst, hadaptive, rfl, hlow.trans hup, hhigh⟩
  | releaseWait =>
    simp only [hpc] at hnext
    split at hnext <;> simp only [Option.some_inj] at hnext <;> subst hnext
    · exact ⟨h.of_none rfl le_rfl rfl, fun _ => le_rfl⟩
    · exact ⟨h, fun _ => le_rfl⟩
  | releaseHome =>
    simp only [hpc, Option.some_inj] at hnext
    subst hnext
    exact ⟨h.of_none rfl (Nat.le_succ _) rfl, fun _ => le_rfl⟩
  | homeWait =>
    simp only [hpc] at hnext
    split at hnext <;> simp only [Option.some_inj] at hnext <;> subst hnext
    · exact ⟨h.of_none rfl le_rfl rfl, fun _ => le_rfl⟩
    · exact ⟨h, fun _ => le_rfl⟩

theorem Held.cmdTimeout (h : g.Held) (hnext : g.cmdTimeout = some g') :
    g'.Held ∧ g'.targetForce = g.targetForce := by
  unfold Gripper.cmdTimeout at hnext
  split at hnext
  · simp only [Option.some_inj] at hnext
    subst hnext
    exact ⟨h.of_none rfl (Nat.le_succ _) rfl, rfl⟩
  · simp only [Option.some_inj] at hnext
    subst hnext
    exact ⟨h.of_none rfl (Nat.le_succ _) rfl, rfl⟩
  · simp only [Option.some_inj] at hnext
    subst hnext
    exact ⟨h.of_none rfl le_rfl rfl, rfl⟩
  · simp only [Option.some_inj] at hnext
    subst hnext
    exact ⟨h.of_none rfl le_rfl rfl, rfl⟩
  · simp only [Option.some_inj] at hnext
    subst hnext
    exact ⟨h.of_none rfl le_rfl rfl, rfl⟩
  · cases hnext

/-- A new call has the ceiling and the starting force of a first one. -/
theorem Held.grasp (h : g.Held) {force : Option ℚ} {adaptive : Bool}
    {adaptiveStart adaptiveStep adaptiveCreepRad : ℚ}
    (hkeeps : g.remembers (.grasp force adaptive adaptiveStart adaptiveStep adaptiveCreepRad) =
      false) :
    (g.grasp force adaptive adaptiveStart adaptiveStep adaptiveCreepRad).Held := by
  simp only [remembers, Bool.or_eq_false_iff, Bool.and_eq_false_iff, Bool.not_eq_false',
    decide_eq_false_iff_not, not_lt, ne_eq, not_not] at hkeeps
  obtain ⟨hforce, hstep⟩ := hkeeps
  have hcap : clip (force.getD g.targetForce) (5 / 100) gTauMax = ceiling force := by
    cases force with
    | some value => rfl
    | none =>
      have hdefault : g.targetForce = gDefaultForce := by simpa using hforce
      rw [Option.getD_none, hdefault]
      decide +kernel
  refine ⟨h.seen, ⟨⟨hcap, ?_, fun hadaptive => ?_⟩, ?_⟩,
    fun tf call _ _ hclosed => by cases hclosed⟩
  · show (if adaptive then _ else _) = startingForce force adaptive adaptiveStart
    rw [hcap]
    rfl
  · rcases hstep with hnot | hup
    · cases hnot.symm.trans hadaptive
    · exact hup
  · show (if force.isSome || adaptive then _ else g.targetForce) = if adaptive then _ else _
    cases adaptive with
    | true => simp
    | false =>
      cases force with
      | some value => rfl
      | none =>
        have hdefault : g.targetForce = gDefaultForce := by simpa using hforce
        simp only [Option.isSome_none, Bool.or_self, Bool.false_eq_true, if_false]
        rw [hcap, hdefault]
        rfl

/-! ### Runs -/

theorem Held.new : Gripper.new.Held :=
  ⟨le_rfl, trivial, fun tf call htick => by cases htick⟩

/-- **The step lemma**, and what a step does about the force of a call. -/
theorem Held.step (h : g.Held) (hkeeps : g.remembers a = false) (hnext : g.step a = some g') :
    g'.Held ∧ (g.cmd.call.isSome → g.targetForce ≤ g'.targetForce) := by
  cases a with
  | sense dt feedback =>
    simp only [Gripper.step] at hnext
    split at hnext <;> cases hnext
    unfold Gripper.sense
    split
    · exact ⟨⟨h.seen, h.call, fun tf call htick => by cases htick⟩, fun _ => le_rfl⟩
    split <;> exact ⟨⟨h.seen, h.call, fun tf call htick => by cases htick⟩, fun _ => le_rfl⟩
  | tick => exact ⟨h.tickNext hnext, fun _ => (tickNext_force hnext).1.ge⟩
  | cmd => exact h.cmdNext hnext
  | timeout =>
    obtain ⟨hheld, hforce⟩ := h.cmdTimeout hnext
    exact ⟨hheld, fun _ => hforce.ge⟩
  | openGripper distanceM =>
    simp only [Gripper.step] at hnext
    split at hnext <;> cases hnext
    exact ⟨h.of_none rfl (Nat.le_succ _) rfl, fun _ => le_rfl⟩
  | closeGripper =>
    simp only [Gripper.step] at hnext
    split at hnext <;> cases hnext
    rename_i hpc
    have hcall : g.closeGripper.cmd.call = Option.none := by
      show g.cmd.call = Option.none
      rw [hpc]
      rfl
    exact ⟨h.of_none rfl (Nat.le_succ _) hcall, fun _ => le_rfl⟩
  | grasp force adaptive adaptiveStart adaptiveStep adaptiveCreepRad =>
    simp only [Gripper.step] at hnext
    split at hnext <;> cases hnext
    rename_i hpc
    exact ⟨h.grasp hkeeps, fun hcall => by rw [hpc] at hcall; cases hcall⟩
  | releaseGripper =>
    simp only [Gripper.step] at hnext
    split at hnext <;> cases hnext
    exact ⟨h.of_none rfl (Nat.le_succ _) rfl, fun _ => le_rfl⟩

/-- **The force of a grasp.**  In every run whose calls take nothing that an earlier one has
left, and do not step down: the call that is going on has the ceiling and the starting force
of a first call; its force, and that of every tick that has read the state since it was set,
is at most the ceiling and, in a call that is not adaptive, equal to it; and no step of the
call lowers it. -/
theorem grip_force (as : List Act) (a : Act) (g g' : Gripper) (call : Grasp)
    (hrun : machine.run as = some g) (hstep : machine.step g a = some g')
    (hkeeps : machine.Guarded (fun g a => g.remembers a = false) machine.init (as ++ [a]))
    (hcall : g.cmd.call = some call) :
    call.cap = ceiling call.force ∧
      call.initial = startingForce call.force call.adaptive call.adaptiveStart ∧
      g.targetForce ≤ ceiling call.force ∧
      (call.adaptive = false → g.targetForce = ceiling call.force) ∧
      g.targetForce ≤ g'.targetForce ∧
      ∀ tf, g.tick = .holding tf → g.seen = g.epoch → g.cmd.closed = some call →
        tf ≤ ceiling call.force ∧ (call.adaptive = false → tf = ceiling call.force) := by
  obtain ⟨hbefore, hlast⟩ := machine.guarded_append.mp hkeeps
  have hheld : g.Held := machine.invariant_of_guarded (fun g a => g.remembers a = false) Held.new
    (fun _ _ _ h hok hnext => (h.step hok hnext).1) hbefore hrun
  obtain ⟨hfirst, -, hhigh, hplain⟩ := hheld.call.bounds hcall
  have hstart (hnot : call.adaptive = false) : call.initial = ceiling call.force := by
    rw [hfirst.initial, startingForce, hnot]
    rfl
  rw [hfirst.cap] at hhigh
  refine ⟨hfirst.cap, hfirst.initial, hhigh, fun hnot => (hplain hnot).trans (hstart hnot), ?_,
    fun tf htick hsame hclosed => ?_⟩
  · exact (hheld.step (hlast g hrun).1 hstep).2 (by rw [hcall]; rfl)
  · obtain ⟨hlow, hup⟩ := hheld.applied tf call htick hsame hclosed
    refine ⟨hup.trans hhigh, fun hnot => le_antisymm (hup.trans hhigh) ?_⟩
    exact (hstart hnot).ge.trans hlow

/-- A grasp with a force, up to where it holds. -/
def graspRun (force : Option ℚ) : List Act :=
  [.grasp force false (2 / 10) (1 / 10) (4 / 100), .cmd, .sense (1 / 2) (some ⟨-1, 0, 0⟩), .tick,
    .tick, .tick, .sense (1 / 2) (some ⟨-1, 0, 0⟩), .tick, .tick, .tick]

theorem grip_force_graspRun :
    ∃ g call, machine.run (graspRun (some 1)) = some g ∧ g.cmd.call = some call ∧
      g.state = .holding ∧ (call.adaptive = false → g.targetForce = ceiling call.force) := by
  have hruns : ((machine.run (graspRun (some 1))).any fun g => g.cmd.call.isSome &&
      (decide (g.state = .holding) && (machine.step g (.sense 1 none)).isSome)) = true := by
    decide +kernel
  obtain ⟨g, hrun, hg⟩ := (Option.any_eq_true _ _).mp hruns
  rw [Bool.and_eq_true, Bool.and_eq_true, decide_eq_true_eq] at hg
  obtain ⟨call, hcall⟩ := Option.isSome_iff_exists.mp hg.1
  obtain ⟨g', hstep⟩ := Option.isSome_iff_exists.mp hg.2.2
  exact ⟨g, call, hrun, hcall, hg.2.1,
    (grip_force (graspRun (some 1)) (.sense 1 none) g g' call hrun hstep (by decide +kernel)
      hcall).2.2.2.1⟩

/-- A grasp with a force, and one without. -/
def forgetfulRun : List Act :=
  graspRun (some 1) ++ ([.cmd, .grasp none false (2 / 10) (1 / 10) (4 / 100)] : List Act)

/-- **A call without a force takes the last one for its ceiling.** -/
theorem forgetfulRun_keeps_force :
    ∃ g call, machine.run forgetfulRun = some g ∧ g.cmd.call = some call ∧ call.force = Option.none ∧
      call.cap = 1 ∧ ceiling call.force = 3 / 10 ∧ g.targetForce = 1 := by
  have hruns : ((machine.run forgetfulRun).any fun g => g.cmd.call.any fun call =>
      decide (call.force = Option.none ∧ call.cap = 1 ∧ ceiling call.force = 3 / 10 ∧
        g.targetForce = 1)) = true := by decide +kernel
  obtain ⟨g, hrun, hg⟩ := (Option.any_eq_true _ _).mp hruns
  obtain ⟨call, hcall, hforce⟩ := (Option.any_eq_true _ _).mp hg
  exact ⟨g, call, hrun, hcall, of_decide_eq_true hforce⟩

end Gripper
end OpenVoiceStream
