import OpenVoiceStream.Base.Machine
import Mathlib.Algebra.Order.Ring.Rat
import Mathlib.Algebra.Order.Group.Unbundled.Abs

/-!
# The gripper

Two threads share the state machine of the gripper.  The control thread runs `_g_tick`: it
takes the feedback of the motor, reads the state, sends a frame and may write the next
state.  The other one runs the commands, one at a time.  What either does under the lock is
one step here.  Only the control thread writes the position and the velocity.

Numbers are rational.  How long a tick took, the feedback and what a command does when its
time is over are chosen by the environment.  The gripper is there.

The fields `epoch`, `seen`, `writes`, `sent`, `parked` and `returned` are ones that the code
does not have: how often a command has set the state, at what count the tick has read it,
and what was written, sent and returned.

## Main definitions

* `Gripper` — the state of both threads.
* `Gripper.safeMit`, `Gripper.sense`, `Gripper.tickNext` — the control thread.
* `Gripper.cmdNext`, `Gripper.cmdTimeout` — the commands.
* `machine` — all of it.
-/

namespace OpenVoiceStream
namespace Gripper

/-- `_GS`. -/
inductive GS
  | idle | opening | closing | contact | holding | homing
  deriving DecidableEq, Repr

/-! ### Constants -/

def gMaxDistM : ℚ := 1 / 10
def gAngleOpen : ℚ := -5763 / 1000
def gOpenSoftLimit : ℚ := -585 / 100
def gArriveTol : ℚ := 12 / 100
def gHardStopAngle : ℚ := -5 / 100
def gTauMax : ℚ := 3 / 2
def gKpMove : ℚ := 5
def gKdMove : ℚ := 1
def gOpenRate : ℚ := 4
def gOpenRateSlow : ℚ := 4
def gSlowZone : ℚ := -5
def gCloseTorque : ℚ := 1
def gKdClose : ℚ := 1 / 2
def gStallVel : ℚ := 5 / 100
def gStartupDist : ℚ := 3 / 10
def gKpHold : ℚ := 5
def gKdHold : ℚ := 1
def gDefaultForce : ℚ := 3 / 10
def gOpenStallS : ℚ := 2 / 10
def gCloseGraceS : ℚ := 4 / 10
def gContactS : ℚ := 2 / 100
def gFbPosSane : ℚ := 7
def gFbVelSane : ℚ := 25

/-- `np.clip`. -/
def clip (x lo hi : ℚ) : ℚ := min (max x lo) hi

/-! ### The state -/

/-- What the motor says of itself. -/
structure Feedback where
  pos : ℚ
  vel : ℚ
  torq : ℚ

/-- What `send_mit` is given, and the cached position and velocity at that time. -/
structure Frame where
  pos : ℚ
  vel : ℚ
  kp : ℚ
  kd : ℚ
  tau : ℚ
  atPos : ℚ
  atVel : ℚ

/-- The torque a frame asks for at the cached position and velocity. -/
def Frame.torque (f : Frame) : ℚ := f.kp * (f.pos - f.atPos) + f.kd * (f.vel - f.atVel) + f.tau

/-- Why a tick writes a state. -/
inductive Reason
  | arrived (pos target : ℚ)
  | stalled (q target stall : ℚ)
  | hardStop (pos : ℚ)
  | touched (pos vel : ℚ)
  | confirmed (elapsed : ℚ)
  | home (pos : ℚ)

/-- A state that a tick has written. -/
structure Write where
  /-- The state that the tick has read, and the count then. -/
  read : GS
  seen : ℕ
  /-- What it found when it wrote. -/
  found : GS
  epoch : ℕ
  openTarget : ℚ
  next : GS
  reason : Reason

/-- Where a tick stands. -/
inductive TickPc
  | rest
  /-- The feedback was taken. -/
  | sensed (dt : ℚ)
  | opening (dt : ℚ)
  | openingStall (dt q target : ℚ)
  | openingDone (reason : Reason)
  | closing (dt : ℚ)
  | closingHardStop (pos : ℚ)
  | closingContact (pos vel : ℚ)
  | contact (dt : ℚ)
  | contactTimer (dt : ℚ)
  | holding (tf : ℚ)
  | homing
  | homingDone (pos : ℚ)

/-- The arguments of a `grasp`, with the ceiling and the first force that it has computed. -/
structure Grasp where
  force : Option ℚ
  adaptive : Bool
  adaptiveStart : ℚ
  adaptiveStep : ℚ
  adaptiveCreepRad : ℚ
  cap : ℚ
  initial : ℚ

/-- Where a command stands. -/
inductive CmdPc
  | none
  | openMark (target : ℚ)
  | openWait (target : ℚ)
  /-- The force has been set where it is to be. -/
  | graspClose (call : Grasp)
  | graspWait (call : Grasp)
  | graspRamp (call : Grasp) (tf : ℚ)
  | graspWindow (call : Grasp) (tf p0 : ℚ)
  | graspCreep (call : Grasp) (tf p0 : ℚ)
  | graspBump (call : Grasp) (tf : ℚ)
  | releaseWait
  | releaseHome
  | homeWait

/-- What a command has returned. -/
inductive Returned
  | opened (epoch : ℕ) (target : ℚ) (ok : Bool)
  | grasped (epoch : ℕ) (ok : Bool)
  | released
  deriving DecidableEq

end Gripper

open Gripper in
/-- The gripper. -/
structure Gripper where
  state : GS
  pos : ℚ
  vel : ℚ
  torq : ℚ
  posStart : ℚ
  qContact : ℚ
  contactElapsed : ℚ
  openQDes : ℚ
  openTarget : ℚ
  openLastTarget : Option ℚ
  openStallS : ℚ
  closeElapsed : ℚ
  targetForce : ℚ
  badFrames : ℕ
  tick : TickPc
  cmd : CmdPc
  epoch : ℕ
  seen : ℕ
  writes : List Write
  /-- The frames of the control thread, and those of `open_gripper`. -/
  sent : List Frame
  parked : List Frame
  returned : List Returned

namespace Gripper

/-- A new gripper. -/
def new : Gripper :=
  { state := .idle, pos := 0, vel := 0, torq := 0, posStart := 0, qContact := 0
    contactElapsed := 0, openQDes := gOpenSoftLimit, openTarget := gOpenSoftLimit
    openLastTarget := none, openStallS := 0, closeElapsed := 0, targetForce := gDefaultForce
    badFrames := 0, tick := .rest, cmd := .none, epoch := 0, seen := 0, writes := [], sent := []
    parked := [], returned := [] }

/-! ### The control thread -/

/-- The frame of `_g_safe_mit`. -/
def safeFrame (g : Gripper) (pos vel kp kd tauFf : ℚ) : Frame :=
  let posCmd := clip pos gOpenSoftLimit 0
  let posTerm := kp * (posCmd - g.pos) + kd * (-g.vel)
  { pos := posCmd, vel := vel, kp := kp, kd := kd
    tau := clip (posTerm + tauFf) (-gTauMax) gTauMax - posTerm, atPos := g.pos, atVel := g.vel }

/-- `_g_safe_mit`, in a tick. -/
def safeMit (g : Gripper) (pos vel kp kd tauFf : ℚ) : Gripper :=
  { g with sent := g.safeFrame pos vel kp kd tauFf :: g.sent }

/-- The feedback at the start of a tick. -/
def sense (g : Gripper) (dt : ℚ) (feedback : Option Feedback) : Gripper :=
  match feedback with
  | none => { g with tick := .sensed dt }
  | some st =>
    if |st.pos| < gFbPosSane ∧ |st.vel| < gFbVelSane then
      { g with pos := st.pos, vel := st.vel, torq := st.torq, tick := .sensed dt }
    else { g with badFrames := g.badFrames + 1, tick := .sensed dt }

/-- A tick writes a state. -/
def write (g : Gripper) (read next : GS) (reason : Reason) : Gripper :=
  { g with
    state := next
    tick := .rest
    writes := ⟨read, g.seen, g.state, g.epoch, g.openTarget, next, reason⟩ :: g.writes }

/-- The branch of `_g_tick` for the state that it reads. -/
def branch (g : Gripper) (dt : ℚ) : TickPc :=
  match g.state with
  | .idle => .rest
  | .opening => .opening dt
  | .closing => .closing dt
  | .contact => .contact dt
  | .holding => .holding g.targetForce
  | .homing => .homing

/-- The ramp of an open, one tick on. -/
def ramp (g : Gripper) (dt : ℚ) : ℚ :=
  max (g.openQDes - (if gSlowZone < g.openQDes then gOpenRate else gOpenRateSlow) * dt) g.openTarget

/-- For how long the jaw has not moved, one tick on. -/
def stall (g : Gripper) (dt : ℚ) : ℚ := if |g.vel| < gStallVel then g.openStallS + dt else 0

/-- What follows the frame in `OPENING`, with the ramp at `q`. -/
def afterOpening (g : Gripper) (dt q : ℚ) : TickPc :=
  if |g.pos - g.openTarget| < gArriveTol then .openingDone (.arrived g.pos g.openTarget)
  else if q ≤ g.openTarget + 1 / 10 ^ 9 then .openingStall dt q g.openTarget
  else .rest

/-- What follows the frame in `CLOSING`, so long after it was set. -/
def afterClosing (g : Gripper) (elapsed : ℚ) : TickPc :=
  if gStartupDist ≤ |g.pos - g.posStart| ∨ gCloseGraceS ≤ elapsed then
    if gHardStopAngle < g.pos then .closingHardStop g.pos
    else if |g.vel| < gStallVel then .closingContact g.pos g.vel
    else .rest
  else .rest

/-- What follows the frame in `HOMING`. -/
def afterHoming (g : Gripper) : TickPc :=
  if |g.pos| < gArriveTol then .homingDone g.pos else .rest

/-- The next section of a tick, with the frames that go with it. -/
def tickNext (g : Gripper) : Option Gripper :=
  match g.tick with
  | .rest => none
  | .sensed dt =>
    some { g with seen := g.epoch, tick := g.branch dt }
  | .opening dt =>
    some
      { g.safeMit (g.ramp dt) 0 gKpMove gKdMove 0 with
        openQDes := g.ramp dt
        tick := g.afterOpening dt (g.ramp dt) }
  | .openingStall dt q target =>
    if gOpenStallS ≤ g.stall dt then
      some
        { g.safeMit g.pos 0 0 gKdMove 0 with
          openStallS := g.stall dt
          tick := .openingDone (.stalled q target (g.stall dt)) }
    else some { g with openStallS := g.stall dt, tick := .rest }
  | .openingDone reason => some { g.write .opening .idle reason with openStallS := 0 }
  | .closing dt =>
    some
      { g.safeMit 0 0 0 gKdClose gCloseTorque with
        closeElapsed := g.closeElapsed + dt
        tick := g.afterClosing (g.closeElapsed + dt) }
  | .closingHardStop pos => some (g.write .closing .idle (.hardStop pos))
  | .closingContact pos vel =>
    some
      { g.write .closing .contact (.touched pos vel) with
        qContact := pos
        contactElapsed := 0 }
  | .contact dt => some { g.safeMit g.qContact 0 gKpHold gKdHold 0 with tick := .contactTimer dt }
  | .contactTimer dt =>
    let elapsed := g.contactElapsed + dt
    if gContactS ≤ elapsed then
      some { g.write .contact .holding (.confirmed elapsed) with contactElapsed := elapsed }
    else some { g with contactElapsed := elapsed, tick := .rest }
  | .holding tf => some { g.safeMit g.qContact 0 gKpHold gKdHold tf with tick := .rest }
  | .homing => some { g.safeMit 0 0 gKpMove gKdMove 0 with tick := g.afterHoming }
  | .homingDone pos => some (g.write .homing .idle (.home pos))

/-! ### Commands -/

/-- A command sets the state. -/
def set (g : Gripper) (state : GS) : Gripper := { g with state := state, epoch := g.epoch + 1 }

/-- A command returns. -/
def returns (g : Gripper) (returned : Returned) : Gripper :=
  { g with cmd := .none, returned := returned :: g.returned }

/-- `open_gripper`, up to the first lock. -/
def openGripper (g : Gripper) (distanceM : ℚ) : Gripper :=
  let d := clip distanceM 0 gMaxDistM
  let target := max (d / gMaxDistM * gAngleOpen) gOpenSoftLimit
  { g.set .opening with
    openTarget := target, openQDes := g.pos, openStallS := 0, cmd := .openMark target }

/-- The state `CLOSING` is set. -/
def startClosing (g : Gripper) : Gripper :=
  { g.set .closing with openLastTarget := none, posStart := g.pos, closeElapsed := 0 }

/-- `close_gripper`. -/
def closeGripper (g : Gripper) : Gripper := g.startClosing

/-- `grasp`, up to where the force is set. -/
def grasp (g : Gripper) (force : Option ℚ) (adaptive : Bool)
    (adaptiveStart adaptiveStep adaptiveCreepRad : ℚ) : Gripper :=
  let cap := clip (force.getD g.targetForce) (5 / 100) gTauMax
  let initial := if adaptive then clip adaptiveStart (5 / 100) cap else cap
  let call : Grasp :=
    ⟨force, adaptive, adaptiveStart, adaptiveStep, adaptiveCreepRad, cap, initial⟩
  { g with
    targetForce := if force.isSome || adaptive then initial else g.targetForce
    cmd := .graspClose call }

/-- `release_gripper`, up to where it waits. -/
def releaseGripper (g : Gripper) : Gripper :=
  { g.set .opening with openQDes := g.pos, openStallS := 0, cmd := .releaseWait }

/-- The next section of a command; it waits where nothing changes. -/
def cmdNext (g : Gripper) : Option Gripper :=
  match g.cmd with
  | .none => none
  | .openMark target => some { g with openLastTarget := some target, cmd := .openWait target }
  | .openWait target =>
    if g.state = .idle then some (g.returns (.opened g.epoch target true)) else some g
  | .graspClose call => some { g.startClosing with cmd := .graspWait call }
  | .graspWait call =>
    if g.state = .holding then
      if call.adaptive then some { g with cmd := .graspRamp call call.initial }
      else some (g.returns (.grasped g.epoch true))
    else if g.state = .idle then some (g.returns (.grasped g.epoch false))
    else some g
  | .graspRamp call tf =>
    if tf < call.cap then some { g with cmd := .graspWindow call tf g.pos }
    else some (g.returns (.grasped g.epoch true))
  | .graspWindow call tf p0 =>
    if g.state = .holding then some { g with cmd := .graspCreep call tf p0 }
    else some (g.returns (.grasped g.epoch true))
  | .graspCreep call tf p0 =>
    if g.pos - p0 < call.adaptiveCreepRad then some (g.returns (.grasped g.epoch true))
    else some { g with cmd := .graspBump call (min call.cap (tf + call.adaptiveStep)) }
  | .graspBump call tf =>
    some { g with targetForce := tf, qContact := g.pos, cmd := .graspRamp call tf }
  | .releaseWait => if g.state = .idle then some { g with cmd := .releaseHome } else some g
  | .releaseHome => some { g.set .homing with cmd := .homeWait }
  | .homeWait => if g.state = .idle then some (g.returns .released) else some g

/-- The time of a command is over. -/
def cmdTimeout (g : Gripper) : Option Gripper :=
  match g.cmd with
  | .openWait target =>
    some
      { (g.set .idle).returns (.opened g.epoch target false) with
        openStallS := 0
        parked := g.safeFrame g.pos 0 0 gKdMove 0 :: g.parked }
  | .graspWait _ => some ((g.set .idle).returns (.grasped g.epoch false))
  | .graspRamp _ _ => some (g.returns (.grasped g.epoch true))
  | .releaseWait => some { g with cmd := .releaseHome }
  | .homeWait => some (g.returns .released)
  | _ => none

/-! ### Both threads -/

/-- The steps of both threads. -/
inductive Act
  | sense (dt : ℚ) (feedback : Option Feedback)
  | tick
  | openGripper (distanceM : ℚ)
  | closeGripper
  | grasp (force : Option ℚ) (adaptive : Bool) (adaptiveStart adaptiveStep adaptiveCreepRad : ℚ)
  | releaseGripper
  | cmd
  | timeout

/-- One step. -/
def step (g : Gripper) : Act → Option Gripper
  | .sense dt feedback => match g.tick with
    | .rest => some (g.sense dt feedback)
    | _ => none
  | .tick => g.tickNext
  | .cmd => g.cmdNext
  | .timeout => g.cmdTimeout
  | .openGripper distanceM => match g.cmd with
    | .none => some (g.openGripper distanceM)
    | _ => none
  | .closeGripper => match g.cmd with
    | .none => some g.closeGripper
    | _ => none
  | .grasp force adaptive adaptiveStart adaptiveStep adaptiveCreepRad => match g.cmd with
    | .none => some (g.grasp force adaptive adaptiveStart adaptiveStep adaptiveCreepRad)
    | _ => none
  | .releaseGripper => match g.cmd with
    | .none => some g.releaseGripper
    | _ => none

/-- The gripper as a machine. -/
def machine : Machine Gripper Act := { init := .new, step := step }

end Gripper
end OpenVoiceStream
