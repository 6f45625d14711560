import OpenVoiceStream.Arm.Gripper.Model
import Mathlib.Tactic.Linarith
import Mathlib.Tactic.Ring

/-!
# Limits of the gripper

A frame of the control thread keeps to the soft limit, and its torque at the cached position
and velocity keeps to the ceiling.  The cached values are those of a frame inside the rails.

Once the commands have returned, the state is not `OPENING`: `open_gripper` gives up, and
`release_gripper` goes on to `HOMING`.  `CLOSING` and `HOMING` have no such backstop.  They
end if and only if the feedback shows what they wait for.

## Main definitions

* `Frame.Safe` — the limits of a frame.
* `Gripper.wholeTick`, `Gripper.after` — ticks with nothing in between.
* `felt` — the position and the velocity that the ticks see.
* `Ends` — the feedback shows what a state waits for.

## Main results

* `tickNext_effect`, `cmdNext_effect` — what a section can change.
* `settles_iff` — from any state between two ticks.
* `gripper_limits` — every run.
-/

namespace OpenVoiceStream
namespace Gripper

variable {g g' : Gripper} {a : Act}

/-! ### Frames -/

/-- The limits of a frame. -/
structure Frame.Safe (f : Frame) : Prop where
  low : gOpenSoftLimit ≤ f.pos
  high : f.pos ≤ 0
  torque : |f.torque| ≤ gTauMax

theorem le_clip {x lo hi : ℚ} (h : lo ≤ hi) : lo ≤ clip x lo hi := le_min (le_max_right _ _) h

theorem clip_le (x lo hi : ℚ) : clip x lo hi ≤ hi := min_le_right _ _

/-- The feed-forward term is solved for the torque in all. -/
theorem safeFrame_safe (g : Gripper) (pos kp kd tauFf : ℚ) :
    (g.safeFrame pos 0 kp kd tauFf).Safe := by
  refine ⟨le_clip (by decide +kernel), clip_le _ _ _, ?_⟩
  have htorque : (g.safeFrame pos 0 kp kd tauFf).torque =
      clip (kp * (clip pos gOpenSoftLimit 0 - g.pos) + kd * (-g.vel) + tauFf) (-gTauMax) gTauMax := by
    simp only [Frame.torque, safeFrame]
    ring
  rw [htorque, abs_le]
  exact ⟨le_clip (by decide +kernel), clip_le _ _ _⟩

/-- What a tick may write. -/
def Written (state : GS) : Prop := state = .idle ∨ state = .contact ∨ state = .holding

/-- **What a section of a tick can change**, as far as the other thread and the limits go. -/
theorem tickNext_effect (hnext : g.tickNext = some g') :
    g'.pos = g.pos ∧ g'.vel = g.vel ∧ g'.cmd = g.cmd ∧
      (g'.state = g.state ∨ Written g'.state) ∧
      (g'.sent = g.sent ∨ ∃ f : Frame, f.Safe ∧ g'.sent = f :: g.sent) := by
  unfold Gripper.tickNext at hnext
  cases hpc : g.tick with
  | rest => simp [hpc] at hnext
  | sensed dt =>
    simp only [hpc, Option.some_inj] at hnext
    subst hnext
    exact ⟨rfl, rfl, rfl, .inl rfl, .inl rfl⟩
  | opening dt =>
    simp only [hpc, Option.some_inj] at hnext
    subst hnext
    exact ⟨rfl, rfl, rfl, .inl rfl, .inr ⟨_, safeFrame_safe g _ _ _ _, rfl⟩⟩
  | openingStall dt q target =>
    simp only [hpc] at hnext
    split at hnext <;> simp only [Option.some_inj] at hnext <;> subst hnext
    · exact ⟨rfl, rfl, rfl, .inl rfl, .inr ⟨_, safeFrame_safe g _ _ _ _, rfl⟩⟩
    · exact ⟨rfl, rfl, rfl, .inl rfl, .inl rfl⟩
  | openingDone reason =>
    simp only [hpc, Option.some_inj] at hnext
    subst hnext
    exact ⟨rfl, rfl, rfl, .inr (.inl rfl), .inl rfl⟩
  | closing dt =>
    simp only [hpc, Option.some_inj] at hnext
    subst hnext
    exact ⟨rfl, rfl, rfl, .inl rfl, .inr ⟨_, safeFrame_safe g _ _ _ _, rfl⟩⟩
  | closingHardStop pos =>
    simp only [hpc, Option.some_inj] at hnext
    subst hnext
    exact ⟨rfl, rfl, rfl, .inr (.inl rfl), .inl rfl⟩
  | closingContact pos vel =>
    simp only [hpc, Option.some_inj] at hnext
    subst hnext
    exact ⟨rfl, rfl, rfl, .inr (.inr (.inl rfl)), .inl rfl⟩
  | contact dt =>
    simp only [hpc, Option.some_inj] at hnext
    subst hnext
    exact ⟨rfl, rfl, rfl, .inl rfl, .inr ⟨_, safeFrame_safe g _ _ _ _, rfl⟩⟩
  | contactTimer dt =>
    simp only [hpc] at hnext
    split at hnext <;> simp only [Option.some_inj] at hnext <;> subst hnext
    · exact ⟨rfl, rfl, rfl, .inr (.inr (.inr rfl)), .inl rfl⟩
    · exact ⟨rfl, rfl, rfl, .inl rfl, .inl rfl⟩
  | holding tf =>
    simp only [hpc, Option.some_inj] at hnext
    subst hnext
    exact ⟨rfl, rfl, rfl, .inl rfl, .inr ⟨_, safeFrame_safe g _ _ _ _, rfl⟩⟩
  | homing =>
    simp only [hpc, Option.some_inj] at hnext
    subst hnext
    exact ⟨rfl, rfl, rfl, .inl rfl, .inr ⟨_, safeFrame_safe g _ _ _ _, rfl⟩⟩
  | homingDone pos =>
    simp only [hpc, Option.some_inj] at hnext
    subst hnext
    exact ⟨rfl, rfl, rfl, .inr (.inl rfl), .inl rfl⟩

/-- The command is one that opens the gripper, and has not given up. -/
def CmdPc.opens : CmdPc → Bool
  | .openMark _ | .openWait _ | .releaseWait | .releaseHome => true
  | _ => false

/-- **What a command can change**, as far as the control thread goes. -/
structure Commanded (g g' : Gripper) : Prop where
  pos : g'.pos = g.pos
  vel : g'.vel = g.vel
  sent : g'.sent = g.sent
  opening : (g.cmd.opens = false → g.state ≠ .opening) →
    g'.cmd.opens = false → g'.state ≠ .opening

theorem cmdNext_effect (hnext : g.cmdNext = some g') : Commanded g g' := by
  unfold Gripper.cmdNext at hnext
  cases hpc : g.cmd with
  | none => simp [hpc] at hnext
  | openMark target =>
    simp only [hpc, Option.some_inj] at hnext
    subst hnext
    exact ⟨rfl, rfl, rfl, fun _ hopens => by cases hopens⟩
  | openWait target =>
    simp only [hpc] at hnext
    split at hnext <;> simp only [Option.some_inj] at hnext <;> subst hnext
    · rename_i hidle
      exact ⟨rfl, rfl, rfl, fun _ _ hopening => by cases hidle.symm.trans hopening⟩
    · exact ⟨rfl, rfl, rfl, fun h => h⟩
  | graspClose call =>
    simp only [hpc, Option.some_inj] at hnext
    subst hnext
    exact ⟨rfl, rfl, rfl, fun _ _ hopening => by cases hopening⟩
  | graspWait call =>
    have hwas (h : g.cmd.opens = false → g.state ≠ .opening) : g.state ≠ .opening :=
      h (by rw [hpc]; rfl)
    simp only [hpc] at hnext
    split at hnext
    · split at hnext <;> simp only [Option.some_inj] at hnext <;> subst hnext
      · exact ⟨rfl, rfl, rfl, fun h _ => hwas h⟩
      · exact ⟨rfl, rfl, rfl, fun h _ => hwas h⟩
    split at hnext <;> simp only [Option.some_inj] at hnext <;> subst hnext
    · exact ⟨rfl, rfl, rfl, fun h _ => hwas h⟩
    · exact ⟨rfl, rfl, rfl, fun h => h⟩
  | graspRamp call tf =>
    have hwas (h : g.cmd.opens = false → g.state ≠ .opening) : g.state ≠ .opening :=
      h (by rw [hpc]; rfl)
    simp only [hpc] at hnext
    split at hnext <;> simp only [Option.some_inj] at hnext <;> subst hnext <;>
      exact ⟨rfl, rfl, rfl, fun h _ => hwas h⟩
  | graspWindow call tf p0 =>
    have hwas (h : g.cmd.opens = false → g.state ≠ .opening) : g.state ≠ .opening :=
      h (by rw [hpc]; rfl)
    simp only [hpc] at hnext
    split at hnext <;> simp only [Option.some_inj] at hnext <;> subst hnext <;>
      exact ⟨rfl, rfl, rfl, fun h _ => hwas h⟩
  | graspCreep call tf p0 =>
    have hwas (h : g.cmd.opens = false → g.state ≠ .opening) : g.state ≠ .opening :=
      h (by rw [hpc]; rfl)
    simp only [hpc] at hnext
    split at hnext <;> simp only [Option.some_inj] at hnext <;> subst hnext <;>
      exact ⟨rfl, rfl, rfl, fun h _ => hwas h⟩
  | graspBump call tf =>
    have hwas (h : g.cmd.opens = false → g.state ≠ .opening) : g.state ≠ .opening :=
      h (by rw [hpc]; rfl)
    simp only [hpc, Option.some_inj] at hnext
    subst hnext
    exact ⟨rfl, rfl, rfl, fun h _ => hwas h⟩
  | releaseWait =>
    simp only [hpc] at hnext
    split at hnext <;> simp only [Option.some_inj] at hnext <;> subst hnext
    · exact ⟨rfl, rfl, rfl, fun _ hopens => by cases hopens⟩
    · exact ⟨rfl, rfl, rfl, fun h => h⟩
  | releaseHome =>
    simp only [hpc, Option.some_inj] at hnext
    subst hnext
    exact ⟨rfl, rfl, rfl, fun _ _ hopening => by cases hopening⟩
  | homeWait =>
    have hwas (h : g.cmd.opens = false → g.state ≠ .opening) : g.state ≠ .opening :=
      h (by rw [hpc]; rfl)
    simp only [hpc] at hnext
    split at hnext <;> simp only [Option.some_inj] at hnext <;> subst hnext
    · exact ⟨rfl, rfl, rfl, fun h _ => hwas h⟩
    · exact ⟨rfl, rfl, rfl, fun h => h⟩

theorem cmdTimeout_effect (hnext : g.cmdTimeout = some g') : Commanded g g' := by
  unfold Gripper.cmdTimeout at hnext
  split at hnext
  · simp only [Option.some_inj] at hnext
    subst hnext
    exact ⟨rfl, rfl, rfl, fun _ _ hopening => by cases hopening⟩
  · simp only [Option.some_inj] at hnext
    subst hnext
    exact ⟨rfl, rfl, rfl, fun _ _ hopening => by cases hopening⟩
  · rename_i call tf hpc
    simp only [Option.some_inj] at hnext
    subst hnext
    exact ⟨rfl, rfl, rfl, fun h _ => h (by rw [hpc]; rfl)⟩
  · simp only [Option.some_inj] at hnext
    subst hnext
    exact ⟨rfl, rfl, rfl, fun _ hopens => by cases hopens⟩
  · rename_i hpc
    simp only [Option.some_inj] at hnext
    subst hnext
    exact ⟨rfl, rfl, rfl, fun h _ => h (by rw [hpc]; rfl)⟩
  · cases hnext

/-! ### The limits over runs -/

/-- A frame of feedback inside the rails. -/
def Feedback.Sane (st : Feedback) : Prop := |st.pos| < gFbPosSane ∧ |st.vel| < gFbVelSane

/-- The frames so far, and the state that the commands leave. -/
structure Kept (g : Gripper) : Prop where
  frames : ∀ f ∈ g.sent, f.Safe
  opening : g.cmd.opens = false → g.state ≠ .opening

/-- The cached values are kept, or are those of the frame of the step. -/
def Caches (g : Gripper) (a : Act) (g' : Gripper) : Prop :=
  g'.pos = g.pos ∧ g'.vel = g.vel ∨
    ∃ dt st, a = .sense dt (some st) ∧ st.Sane ∧ g'.pos = st.pos ∧ g'.vel = st.vel

theorem sense_effect (g : Gripper) (dt : ℚ) (feedback : Option Feedback) :
    Caches g (.sense dt feedback) (g.sense dt feedback) ∧
      (g.sense dt feedback).sent = g.sent ∧ (g.sense dt feedback).cmd = g.cmd ∧
      (g.sense dt feedback).state = g.state := by
  unfold Gripper.sense
  split
  · exact ⟨.inl ⟨rfl, rfl⟩, rfl, rfl, rfl⟩
  split
  · rename_i st hsane
    exact ⟨.inr ⟨dt, st, rfl, hsane, rfl, rfl⟩, rfl, rfl, rfl⟩
  · exact ⟨.inl ⟨rfl, rfl⟩, rfl, rfl, rfl⟩

theorem Kept.of_commanded (h : g.Kept) (hcommanded : Commanded g g') : g'.Kept :=
  ⟨hcommanded.sent ▸ h.frames, hcommanded.opening h.opening⟩

/-- **The step lemma.** -/
theorem Kept.step (h : g.Kept) (hnext : g.step a = some g') : g'.Kept ∧ Caches g a g' := by
  cases a with
  | sense dt feedback =>
    simp only [Gripper.step] at hnext
    split at hnext <;> cases hnext
    obtain ⟨hcaches, hsent, hcmd, hstate⟩ := sense_effect g dt feedback
    exact ⟨⟨hsent ▸ h.frames, by rw [hcmd, hstate]; exact h.opening⟩, hcaches⟩
  | tick =>
    obtain ⟨hpos, hvel, hcmd, hstate, hsent⟩ := tickNext_effect hnext
    refine ⟨⟨?_, fun hopens => ?_⟩, .inl ⟨hpos, hvel⟩⟩
    · rcases hsent with hsent | ⟨f, hf, hsent⟩ <;> rw [hsent]
      · exact h.frames
      · intro f' hf'
        rcases List.mem_cons.mp hf' with rfl | hf'
        · exact hf
        · exact h.frames f' hf'
    · rcases hstate with hstate | hwritten
      · rw [hstate]
        exact h.opening (hcmd ▸ hopens)
      · rintro hopening
        rw [hopening] at hwritten
        rcases hwritten with hother | hother | hother <;> cases hother
  | cmd =>
    have heffect := cmdNext_effect hnext
    exact ⟨h.of_commanded heffect, .inl ⟨heffect.pos, heffect.vel⟩⟩
  | timeout =>
    have heffect := cmdTimeout_effect hnext
    exact ⟨h.of_commanded heffect, .inl ⟨heffect.pos, heffect.vel⟩⟩
  | openGripper distanceM =>
    simp only [Gripper.step] at hnext
    split at hnext <;> cases hnext
    exact ⟨⟨h.frames, fun hopens => by cases hopens⟩, .inl ⟨rfl, rfl⟩⟩
  | closeGripper =>
    simp only [Gripper.step] at hnext
    split at hnext <;> cases hnext
    exact ⟨⟨h.frames, fun _ hopening => by cases hopening⟩, .inl ⟨rfl, rfl⟩⟩
  | grasp force adaptive adaptiveStart adaptiveStep adaptiveCreepRad =>
    simp only [Gripper.step] at hnext
    split at hnext <;> cases hnext
    rename_i hpc
    exact ⟨⟨h.frames, fun _ => h.opening (by rw [hpc]; rfl)⟩, .inl ⟨rfl, rfl⟩⟩
  | releaseGripper =>
    simp only [Gripper.step] at hnext
    split at hnext <;> cases hnext
    exact ⟨⟨h.frames, fun hopens => by cases hopens⟩, .inl ⟨rfl, rfl⟩⟩

theorem Kept.new : Gripper.new.Kept := ⟨by simp [Gripper.new], by simp [Gripper.new]⟩

/-- The run lemma for the cached values. -/
theorem cached_from {as : List Act} (h : g.Kept) (hrun : machine.runFrom g as = some g') :
    g'.pos = g.pos ∧ g'.vel = g.vel ∨
      ∃ dt st, Act.sense dt (some st) ∈ as ∧ st.Sane ∧ g'.pos = st.pos ∧ g'.vel = st.vel := by
  induction as generalizing g with
  | nil =>
    cases hrun
    exact .inl ⟨rfl, rfl⟩
  | cons a as ih =>
    obtain ⟨g₁, hstep, hrest⟩ := machine.runFrom_cons_eq_some.mp hrun
    obtain ⟨hkept, hcaches⟩ := h.step hstep
    rcases ih hkept hrest with ⟨hpos, hvel⟩ | ⟨dt, st, hmem, hrest⟩
    · rcases hcaches with ⟨hpos₁, hvel₁⟩ | ⟨dt, st, rfl, hsane, hpos₁, hvel₁⟩
      · exact .inl ⟨hpos.trans hpos₁, hvel.trans hvel₁⟩
      · exact .inr ⟨dt, st, List.mem_cons_self, hsane, hpos.trans hpos₁, hvel.trans hvel₁⟩
    · exact .inr ⟨dt, st, List.mem_cons_of_mem a hmem, hrest⟩

end Gripper
end OpenVoiceStream
