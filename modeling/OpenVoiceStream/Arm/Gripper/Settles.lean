import OpenVoiceStream.Arm.Gripper.Limits
import Mathlib.Algebra.Order.Archimedean.Basic
import Mathlib.Data.Rat.Floor

/-!
# Where the gripper comes to rest

Once the commands have returned, only the control thread runs.  It leaves `CONTACT` after
some time.  It leaves `CLOSING` when, after the grace period or enough travel, the feedback
shows the hard stop or a stall, and `HOMING` when it shows the jaw at home.  A jaw that is
blocked or jitters shows neither, and then the motor drives for ever.

## Main definitions

* `Gripper.wholeTick`, `Gripper.after` — ticks with nothing in between.
* `felt`, `ticked` — what the ticks see, and how long they took.
* `Ends` — the feedback shows what the state waits for.

## Main results

* `homing_tick`, `closing_tick`, `contact_tick` — one tick.
* `settles_iff` — from any state between two ticks.
* `gripper_limits` — every run.
-/

namespace OpenVoiceStream
namespace Gripper

/-- What a tick is given. -/
structure Tick where
  dt : ℚ
  feedback : Option Feedback

/-- The sections of a tick that are left, `n` at most. -/
def finishTick : ℕ → Gripper → Gripper
  | 0, g => g
  | n + 1, g =>
    match g.tickNext with
    | none => g
    | some g' => finishTick n g'

/-- `_g_tick`, with nothing in between: it has four sections at most. -/
def wholeTick (g : Gripper) (t : Tick) : Gripper := finishTick 4 (g.sense t.dt t.feedback)

/-- The state after so many ticks. -/
def after (g : Gripper) (ticks : ℕ → Tick) : ℕ → Gripper
  | 0 => g
  | n + 1 => (g.after ticks n).wholeTick (ticks n)

/-- The cached position and velocity, with the feedback of one more tick. -/
def takes (cached : ℚ × ℚ) : Option Feedback → ℚ × ℚ
  | none => cached
  | some st => if |st.pos| < gFbPosSane ∧ |st.vel| < gFbVelSane then (st.pos, st.vel) else cached

/-- The cached position and velocity after so many ticks. -/
def felt (g : Gripper) (ticks : ℕ → Tick) : ℕ → ℚ × ℚ
  | 0 => (g.pos, g.vel)
  | n + 1 => takes (felt g ticks n) (ticks n).feedback

/-- How long so many ticks took. -/
def ticked (ticks : ℕ → Tick) : ℕ → ℚ
  | 0 => 0
  | n + 1 => ticked ticks n + (ticks n).dt

/-- A tick of `CLOSING` sees that the jaw has stopped, so long after it was set. -/
def Stopped (posStart elapsed : ℚ) (cached : ℚ × ℚ) : Prop :=
  (gStartupDist ≤ |cached.1 - posStart| ∨ gCloseGraceS ≤ elapsed) ∧
    (gHardStopAngle < cached.1 ∨ |cached.2| < gStallVel)

/-- The feedback shows what the state waits for. -/
def Ends (g : Gripper) (ticks : ℕ → Tick) : Prop :=
  match g.state with
  | .closing =>
    ∃ n, Stopped g.posStart (g.closeElapsed + ticked ticks (n + 1)) (felt g ticks (n + 1))
  | .homing => ∃ n, |(felt g ticks (n + 1)).1| < gArriveTol
  | _ => True

/-- The motor is not driven, or holds. -/
def Rests (state : GS) : Prop := state = .idle ∨ state = .holding

variable {g g' : Gripper} {t : Tick} {ticks : ℕ → Tick}

/-! ### One tick -/

theorem sense_eq (g : Gripper) (dt : ℚ) (feedback : Option Feedback) :
    ∃ torq badFrames, g.sense dt feedback =
      { g with
        pos := (takes (g.pos, g.vel) feedback).1
        vel := (takes (g.pos, g.vel) feedback).2
        torq := torq
        badFrames := badFrames
        tick := .sensed dt } := by
  unfold Gripper.sense takes
  cases feedback with
  | none => exact ⟨g.torq, g.badFrames, rfl⟩
  | some st =>
    dsimp only
    split
    · exact ⟨st.torq, g.badFrames, rfl⟩
    · exact ⟨g.torq, g.badFrames + 1, rfl⟩

theorem finishTick_cached (n : ℕ) (g : Gripper) :
    (finishTick n g).pos = g.pos ∧ (finishTick n g).vel = g.vel := by
  induction n generalizing g with
  | zero => exact ⟨rfl, rfl⟩
  | succ n ih =>
    unfold finishTick
    split
    · exact ⟨rfl, rfl⟩
    · rename_i g' hnext
      obtain ⟨hpos, hvel, -⟩ := tickNext_effect hnext
      exact ⟨(ih g').1.trans hpos, (ih g').2.trans hvel⟩

/-- The cached values are those of the feedback. -/
theorem after_cached (g : Gripper) (ticks : ℕ → Tick) (n : ℕ) :
    ((g.after ticks n).pos, (g.after ticks n).vel) = felt g ticks n := by
  induction n with
  | zero => rfl
  | succ n ih =>
    obtain ⟨hpos, hvel⟩ := finishTick_cached 4
      ((g.after ticks n).sense (ticks n).dt (ticks n).feedback)
    obtain ⟨torq, badFrames, hsense⟩ := sense_eq (g.after ticks n) (ticks n).dt (ticks n).feedback
    rw [hsense] at hpos hvel
    rw [felt, ← ih]
    exact Prod.ext (by rw [after, wholeTick, hsense]; exact hpos) (by rw [after, wholeTick, hsense]; exact hvel)

theorem idle_tick (h : g.state = .idle) : (g.wholeTick t).state = .idle := by
  obtain ⟨torq, badFrames, hsense⟩ := sense_eq g t.dt t.feedback
  simp [wholeTick, hsense, finishTick, tickNext, branch, h]

theorem holding_tick (h : g.state = .holding) : (g.wholeTick t).state = .holding := by
  obtain ⟨torq, badFrames, hsense⟩ := sense_eq g t.dt t.feedback
  simp [wholeTick, hsense, finishTick, tickNext, branch, safeMit, h]

theorem homing_tick (h : g.state = .homing) :
    (g.wholeTick t).state =
      if |(takes (g.pos, g.vel) t.feedback).1| < gArriveTol then .idle else .homing := by
  obtain ⟨torq, badFrames, hsense⟩ := sense_eq g t.dt t.feedback
  by_cases hhome : |(takes (g.pos, g.vel) t.feedback).1| < gArriveTol <;>
    simp [wholeTick, hsense, finishTick, tickNext, branch, safeMit, afterHoming, write, h, hhome]

/-- A tick in `CONTACT`. -/
theorem contact_tick (h : g.state = .contact) :
    (g.wholeTick t).contactElapsed = g.contactElapsed + t.dt ∧
      (g.wholeTick t).state =
        if gContactS ≤ g.contactElapsed + t.dt then .holding else .contact := by
  obtain ⟨torq, badFrames, hsense⟩ := sense_eq g t.dt t.feedback
  by_cases hlong : gContactS ≤ g.contactElapsed + t.dt <;>
    simp [wholeTick, hsense, finishTick, tickNext, branch, safeMit, write, h, hlong]

/-- A tick in `CLOSING`. -/
theorem closing_tick (h : g.state = .closing) :
    Stopped g.posStart (g.closeElapsed + t.dt) (takes (g.pos, g.vel) t.feedback) ∧
        ((g.wholeTick t).state = .idle ∨ (g.wholeTick t).state = .contact) ∨
      ¬ Stopped g.posStart (g.closeElapsed + t.dt) (takes (g.pos, g.vel) t.feedback) ∧
        (g.wholeTick t).state = .closing ∧ (g.wholeTick t).posStart = g.posStart ∧
        (g.wholeTick t).closeElapsed = g.closeElapsed + t.dt := by
  obtain ⟨torq, badFrames, hsense⟩ := sense_eq g t.dt t.feedback
  generalize hcached : takes (g.pos, g.vel) t.feedback = cached at hsense ⊢
  by_cases hmoved : gStartupDist ≤ |cached.1 - g.posStart| ∨ gCloseGraceS ≤ g.closeElapsed + t.dt
  · by_cases hstop : gHardStopAngle < cached.1
    · refine .inl ⟨⟨hmoved, .inl hstop⟩, .inl ?_⟩
      simp [wholeTick, hsense, finishTick, tickNext, branch, safeMit, afterClosing, write, h, hmoved,
        hstop]
    by_cases hstall : |cached.2| < gStallVel
    · refine .inl ⟨⟨hmoved, .inr hstall⟩, .inr ?_⟩
      simp [wholeTick, hsense, finishTick, tickNext, branch, safeMit, afterClosing, write, h, hmoved,
        hstop, hstall]
    · refine .inr ⟨fun hstopped => hstopped.2.elim hstop hstall, ?_⟩
      simp [wholeTick, hsense, finishTick, tickNext, branch, safeMit, afterClosing, h, hmoved, hstop,
        hstall]
  · refine .inr ⟨fun hstopped => hmoved hstopped.1, ?_⟩
    simp [wholeTick, hsense, finishTick, tickNext, branch, safeMit, afterClosing, h, hmoved]

/-! ### Many ticks -/

theorem after_add (g : Gripper) (ticks : ℕ → Tick) (m n : ℕ) :
    g.after ticks (m + n) = (g.after ticks m).after (fun k => ticks (m + k)) n := by
  induction n with
  | zero => rfl
  | succ n ih => rw [← Nat.add_assoc, after, ih, after]

/-- Once at rest, the gripper stays there. -/
theorem rests_after (h : Rests g.state) (n : ℕ) : Rests (g.after ticks n).state := by
  induction n with
  | zero => exact h
  | succ n ih =>
    rcases ih with hidle | hholding
    · exact .inl (idle_tick hidle)
    · exact .inr (holding_tick hholding)

theorem rests_of_le {m n : ℕ} (h : Rests (g.after ticks m).state) (hmn : m ≤ n) :
    Rests (g.after ticks n).state := by
  obtain ⟨k, rfl⟩ := Nat.exists_eq_add_of_le hmn
  rw [after_add]
  exact rests_after h k

/-- `CONTACT` is left after some time. -/
theorem contact_settles (h : g.state = .contact) (hdt : ∀ n, 1 / 500 ≤ (ticks n).dt) :
    ∃ n, Rests (g.after ticks n).state := by
  by_contra hnever
  push Not at hnever
  have hstays : ∀ n : ℕ, (g.after ticks n).state = .contact ∧
      g.contactElapsed + n * (1 / 500) ≤ (g.after ticks n).contactElapsed := by
    intro n
    induction n with
    | zero => exact ⟨h, by simp [after]⟩
    | succ n ih =>
      obtain ⟨helapsed, hstate⟩ := contact_tick (t := ticks n) ih.1
      have hnot := hnever (n + 1)
      rw [after, hstate] at hnot
      refine ⟨?_, ?_⟩
      · rw [after, hstate, if_neg fun hlong => hnot (.inr (if_pos hlong))]
      · rw [after, helapsed]
        push_cast
        linarith [ih.2, hdt n]
  obtain ⟨n, hn⟩ := exists_nat_gt ((gContactS - g.contactElapsed) * 500)
  obtain ⟨hcontact, hlong⟩ := hstays n
  obtain ⟨-, hstate⟩ := contact_tick (t := ticks n) hcontact
  refine hnever (n + 1) (.inr ?_)
  rw [after, hstate, if_pos (by linarith [hdt n])]

/-- Until the feedback shows the jaw at home, the state is `HOMING`. -/
theorem homing_until (h : g.state = .homing) {m : ℕ}
    (hnot : ∀ k < m, ¬ |(felt g ticks (k + 1)).1| < gArriveTol) :
    (g.after ticks m).state = .homing := by
  induction m with
  | zero => exact h
  | succ m ih =>
    have hstate := homing_tick (t := ticks m) (ih fun k hk => hnot k (Nat.lt_succ_of_lt hk))
    rw [after_cached] at hstate
    rw [after, hstate]
    exact if_neg (hnot m (Nat.lt_succ_self m))

/-- Until the feedback shows that the jaw has stopped, the state is `CLOSING`. -/
theorem closing_until (h : g.state = .closing) {m : ℕ}
    (hnot : ∀ k < m,
      ¬ Stopped g.posStart (g.closeElapsed + ticked ticks (k + 1)) (felt g ticks (k + 1))) :
    (g.after ticks m).state = .closing ∧ (g.after ticks m).posStart = g.posStart ∧
      (g.after ticks m).closeElapsed = g.closeElapsed + ticked ticks m := by
  induction m with
  | zero => exact ⟨h, rfl, by simp [after, ticked]⟩
  | succ m ih =>
    obtain ⟨hclosing, hstart, helapsed⟩ := ih fun k hk => hnot k (Nat.lt_succ_of_lt hk)
    have htick := closing_tick (t := ticks m) hclosing
    rw [after_cached, hstart, helapsed, add_assoc] at htick
    rcases htick with ⟨hstopped, -⟩ | ⟨-, hstays⟩
    · exact absurd hstopped (hnot m (Nat.lt_succ_self m))
    · exact hstays

/-- **From any state between two ticks**, other than `OPENING`, the gripper comes to rest if
and only if the feedback shows what the state waits for. -/
theorem settles_iff (hopening : g.state ≠ .opening) (hdt : ∀ n, 1 / 500 ≤ (ticks n).dt) :
    (∃ n, ∀ m, n ≤ m → Rests (g.after ticks m).state) ↔ Ends g ticks := by
  have hsome : (∃ n, ∀ m, n ≤ m → Rests (g.after ticks m).state) ↔
      ∃ n, Rests (g.after ticks n).state :=
    ⟨fun ⟨n, h⟩ => ⟨n, h n le_rfl⟩, fun ⟨n, h⟩ => ⟨n, fun _ hm => rests_of_le h hm⟩⟩
  rw [hsome]
  unfold Ends
  cases hstate : g.state with
  | opening => exact absurd hstate hopening
  | idle => exact iff_of_true ⟨0, .inl hstate⟩ trivial
  | holding => exact iff_of_true ⟨0, .inr hstate⟩ trivial
  | contact => exact iff_of_true (contact_settles hstate hdt) trivial
  | homing =>
    dsimp only
    constructor
    · rintro ⟨n, hrests⟩
      by_contra hnever
      push Not at hnever
      rw [homing_until hstate fun k _ => not_lt.mpr (hnever k)] at hrests
      rcases hrests with hother | hother <;> cases hother
    · intro hends
      classical
      have hfirst := Nat.find_spec hends
      have hstill := homing_until hstate fun k hk => Nat.find_min hends hk
      refine ⟨Nat.find hends + 1, .inl ?_⟩
      rw [after, homing_tick hstill, after_cached]
      exact if_pos hfirst
  | closing =>
    dsimp only
    constructor
    · rintro ⟨n, hrests⟩
      by_contra hnever
      push Not at hnever
      rw [(closing_until hstate fun k _ => hnever k).1] at hrests
      rcases hrests with hother | hother <;> cases hother
    · intro hends
      classical
      have hfirst := Nat.find_spec hends
      obtain ⟨hstill, hstart, helapsed⟩ := closing_until hstate fun k hk => Nat.find_min hends hk
      have htick := closing_tick (t := ticks (Nat.find hends)) hstill
      rw [after_cached, hstart, helapsed, add_assoc] at htick
      rcases htick with ⟨-, hidle | hcontact⟩ | ⟨hnot, -⟩
      · exact ⟨Nat.find hends + 1, .inl hidle⟩
      · -- the contact is confirmed by the ticks that follow
        have hsettles : ∃ n, Rests ((g.after ticks (Nat.find hends + 1)).after
            (fun k => ticks (Nat.find hends + 1 + k)) n).state :=
          contact_settles hcontact fun k => hdt _
        obtain ⟨n, hrests⟩ := hsettles
        exact ⟨Nat.find hends + 1 + n, by rwa [after_add]⟩
      · exact absurd hfirst hnot

/-! ### Runs -/

/-- The state that the commands leave is not `OPENING`, also once the tick is over. -/
theorem finishTick_opening (n : ℕ) (h : g.state ≠ .opening) : (finishTick n g).state ≠ .opening := by
  induction n generalizing g with
  | zero => exact h
  | succ n ih =>
    unfold finishTick
    split
    · exact h
    · rename_i g' hnext
      obtain ⟨-, -, -, hstate, -⟩ := tickNext_effect hnext
      refine ih ?_
      rcases hstate with hsame | hwritten
      · rwa [hsame]
      · rintro hopening
        rw [hopening] at hwritten
        rcases hwritten with hother | hother | hother <;> cases hother

/-- **The limits of the gripper.**  After every run, every frame of the control thread keeps
its limits, and the cached values are those of a frame inside the rails, or zero.  Where no
command runs any more, and the tick that may be under way is over, the gripper comes to rest
if and only if the feedback shows what its state waits for. -/
theorem gripper_limits (as : List Act) (g : Gripper) (hrun : machine.run as = some g) :
    (∀ f ∈ g.sent, f.Safe) ∧
      (g.pos = 0 ∧ g.vel = 0 ∨ ∃ dt st, Act.sense dt (some st) ∈ as ∧ st.Sane ∧
        g.pos = st.pos ∧ g.vel = st.vel) ∧
      (g.cmd = .none → g.state ≠ .opening ∧
        ∀ ticks : ℕ → Tick, (∀ n, 1 / 500 ≤ (ticks n).dt) →
          ((∃ n, ∀ m, n ≤ m → Rests ((finishTick 4 g).after ticks m).state) ↔
            Ends (finishTick 4 g) ticks)) := by
  have hkept : g.Kept := machine.invariant_of_step Kept.new
    (fun _ _ _ h hstep => (h.step hstep).1) hrun
  refine ⟨hkept.frames, cached_from Kept.new hrun, fun hcmd => ?_⟩
  have hopening : g.state ≠ .opening := hkept.opening (by rw [hcmd]; rfl)
  exact ⟨hopening, fun ticks hdt => settles_iff (finishTick_opening 4 hopening) hdt⟩

/-- The gripper is released, and no time is left. -/
def releasedRun : List Act := [.releaseGripper, .timeout, .cmd, .timeout]

/-- A jaw that is blocked. -/
def blocked (_ : ℕ) : Tick := ⟨1 / 500, some ⟨-2, 0, 0⟩⟩

theorem gripper_limits_releasedRun :
    ∃ g, machine.run releasedRun = some g ∧ g.cmd = .none ∧
      ((∃ n, ∀ m, n ≤ m → Rests ((finishTick 4 g).after blocked m).state) ↔
        Ends (finishTick 4 g) blocked) :=
  ⟨_, rfl, rfl, ((gripper_limits releasedRun _ rfl).2.2 rfl).2 blocked fun _ => le_rfl⟩

theorem felt_blocked (g : Gripper) (n : ℕ) : felt g blocked (n + 1) = (-2, 0) := by
  have hsane : |(-2 : ℚ)| < gFbPosSane ∧ |(0 : ℚ)| < gFbVelSane := by decide +kernel
  simp only [felt, takes, blocked]
  exact if_pos hsane

/-- **A blocked jaw is driven for ever.** -/
theorem releasedRun_drives_on :
    ∃ g, machine.run releasedRun = some g ∧ g.cmd = .none ∧
      ∀ n, (g.after blocked n).state = .homing :=
  ⟨_, rfl, rfl, fun n => homing_until rfl fun k _ => by
    rw [felt_blocked]
    decide +kernel⟩

end Gripper
end OpenVoiceStream
