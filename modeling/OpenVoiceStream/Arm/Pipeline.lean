import OpenVoiceStream.Base.Script
import Mathlib.Data.Rat.Defs
import Mathlib.Algebra.Order.Ring.Rat

/-!
# The grasp and the put-down

`run_grasp_once` looks for an object, picks it up and carries it home, in several attempts;
`run_put_down_once` puts it down again. Both move the arm and its gripper step by step and ask
`cancel_event` between the steps.

The pipeline is a script: the calls of the camera, the detector, the inverse kinematics, the arm
and the gripper are its questions, and each may raise. Poses and images are not modelled; where
the code decides by them the answer is asked for.

## Main definitions

* `Device`, `Query`, `Exn`, `Pipe` — the calls, the questions and what is raised.
* `checkCancel`, `sleepCancellable` — the two places where the event is looked at.
* `captureAndDetect`, `graspAttempt`, `runGraspOnce` — the grasp.
* `runPutDownOnce` — the put-down.
-/

namespace OpenVoiceStream.Arm.Pipeline

open Script (Event)

/-! ### Calls -/

/-- Where the arm is sent. -/
inductive Waypoint
  | scan (i : ℕ)
  | retract
  | orbit
  | reobserve
  | pregrasp
  | grasp
  | clearance
  | home
  | approach
  | place
  | hop
  deriving DecidableEq

/-- What is decided by poses and widths. -/
inductive Judgement
  | sideTooLow
  | farOrWide
  | jawFits
  | inPlausibleBox
  deriving DecidableEq

/-- A grasp that the detector has estimated. -/
structure Grasp where
  method : String
  isValid : Bool
  hasPosition : Bool
  ggcnnAgree : Option Bool
  confident : Bool
  deriving DecidableEq

/-- The calls that may raise. `geometry` stands for what is computed from poses, `select` and
`aggregate` for the choice of a grasp, `spillTilts` for the number of pitches that are tried. -/
inductive Device
  | warmUp
  | frame
  | detect
  | select
  | aggregate
  | frameSink
  | lock
  | tcpPose
  | checkIk
  | geometry
  | judge (judgement : Judgement)
  | spillTilts
  | startThread
  | joinThread
  | moveTo (waypoint : Waypoint)
  | openGripper
  | closeGripper
  | grasp (adaptive : Bool)
  | isHolding
  | gripperOpening
  deriving DecidableEq

/-- What a call answers: `frame` whether there is one, `moveTo` whether the pose can be reached. -/
@[reducible] def Device.Result : Device → Type
  | .frame | .checkIk | .judge _ | .moveTo _ | .grasp _ => Bool
  | .detect => List Grasp
  | .select | .aggregate => Option Grasp
  | .spillTilts => ℕ
  | .isHolding => Option Bool
  | _ => Unit

/-- What a call raises. -/
inductive Raised
  | typeError
  | other
  deriving DecidableEq

/-- The questions of the pipeline: whether the event is set, asked by a wait (`poll`) or by
`_check_cancel` (`check`); how many rounds a wait goes; what the thread has captured by now; and
the calls. `ended` asks nothing, it marks the end of an attempt. -/
inductive Query
  | poll
  | check
  | rounds
  | captured
  | ended
  | device (call : Device)
  deriving DecidableEq

/-- The answers. -/
@[reducible] def Answer : Query → Type
  | .poll | .check => Bool
  | .rounds => ℕ
  | .captured => Option (Option Grasp)
  | .ended => Unit
  | .device call => Except Raised call.Result

/-- Why an attempt or a put-down has failed. -/
inductive Failure
  | noSegmenter
  | noCamera
  | noCalibration
  | tooWide
  | noGrasp
  | sideTooLow
  | jawWidth
  | position
  | pregraspIk
  | graspIk
  | nothingHeld
  | lost
  | placeIk
  | stillGripping
  | raised
  deriving DecidableEq

/-- The result of an attempt. -/
structure Outcome where
  success : Bool
  cancelled : Bool
  retriable : Bool
  error : Option Failure
  attempt : ℕ
  deriving DecidableEq

/-- A failure that is not tried again, and one that is. -/
def Outcome.failed (error : Failure) : Outcome :=
  { success := false, cancelled := false, retriable := false, error := some error, attempt := 0 }

/-- A failure that is worth a fresh attempt. -/
def Outcome.again (error : Failure) : Outcome := { Outcome.failed error with retriable := true }

/-- What is raised: `GraspCancelled`, a `TypeError`, another exception. `returned` is not raised,
it is the early `return` of an attempt. -/
inductive Exn
  | graspCancelled
  | typeError
  | other
  | returned (outcome : Outcome)
  deriving DecidableEq

/-- The scripts of the pipeline. -/
abbrev Pipe := Script Answer Exn

/-- What an answer comes to: its result, or what it raises. -/
def fromAnswer {α : Type} : Except Raised α → Pipe α
  | .ok result => pure result
  | .error .typeError => .raise .typeError
  | .error .other => .raise .other

/-- A call, which may raise. -/
def call (device : Device) : Pipe device.Result :=
  Script.ask (A := Answer) (.device device) >>= fromAnswer

/-- `cancel_event.is_set()` in a wait. -/
def poll : Pipe Bool := Script.ask (A := Answer) .poll

/-- `cancel_event.is_set()` in `_check_cancel`. -/
def check : Pipe Bool := Script.ask (A := Answer) .check

/-- The rounds that a wait goes. -/
def rounds : Pipe ℕ := Script.ask (A := Answer) .rounds

/-- What the thread has left so far. -/
def captured : Pipe (Option (Option Grasp)) := Script.ask (A := Answer) .captured

/-- The end of an attempt. -/
def ended : Pipe Unit := Script.ask (A := Answer) .ended

/-- `check_ik`. -/
def checkIk : Pipe Bool := call .checkIk

/-- `get_frame`, and whether there is one. -/
def getFrame : Pipe Bool := call .frame

/-- `try: ... except Exception: pass`. -/
def swallow (x : Pipe Unit) : Pipe Unit := x.tryCatch fun _ => pure ()

/-- Only under a condition. -/
def onlyIf (condition : Bool) (x : Pipe Unit) : Pipe Unit := if condition then x else pure ()

/-- `with _motion_lock(actuator): move_to(...)`. -/
def moveTo (waypoint : Waypoint) : Pipe Bool := do
  call .lock
  call (.moveTo waypoint)

/-- `with _motion_lock(actuator): _open_gripper_safe(...)`. -/
def openLocked : Pipe Unit := do
  call .lock
  call .openGripper

/-- `with _motion_lock(actuator): get_tcp_pose()`. -/
def readTcp : Pipe Unit := do
  call .lock
  call .tcpPose

/-! ### The event -/

/-- `_check_cancel`. -/
def checkCancel : Pipe Unit := do
  if ← check then
    swallow (call .openGripper)
    .raise .graspCancelled
  else pure ()

/-- The loop of `sleep_cancellable`, and the look after it. -/
def sleepLoop : ℕ → Pipe Bool
  | 0 => do
    let isSet ← poll
    pure (!isSet)
  | rounds + 1 => do
    if ← poll then pure false else sleepLoop rounds

/-- `sleep_cancellable`. -/
def sleepCancellable (delay : ℚ) : Pipe Bool :=
  if delay ≤ 0 then pure true
  else do
    let n ← rounds
    sleepLoop n

/-- `_wait_motion_cancellable`. -/
def waitMotionCancellable (duration : ℚ) : Pipe Bool := sleepCancellable (max 0 duration)

/-- `if not _wait_motion_cancellable(...): _check_cancel(...)`. -/
def settle (duration : ℚ) : Pipe Unit := do
  if ← waitMotionCancellable duration then pure () else checkCancel

/-! ### Reach -/

/-- The arguments of `run_grasp_once`, what the environment sets, and whether the arm has
`check_ik`. `openDistance`: the opening distance is one. -/
structure Params where
  segmenter : Bool
  camera : Bool
  handEye : Bool
  openDistance : Bool
  scanPoses : ℕ
  moveDuration : ℚ
  warmUpFrames : ℤ
  detectFrames : ℤ
  retries : ℤ
  plausibleBox : Bool
  adaptiveForce : Bool
  reobserve : Bool
  servoCorrect : Bool
  releaseAfter : Bool
  frameSink : Bool
  earlyOut : Bool
  wideboxOrbit : Bool
  hasCheckIk : Bool

/-- The candidates of a ladder, each of two poses, until one is reached with both. -/
def ladderLoop : ℕ → Pipe Bool
  | 0 => pure false
  | candidates + 1 => do
    let first ← checkIk
    let second ← checkIk
    if first && second then pure true else ladderLoop candidates

/-- A ladder; an arm without `check_ik` and one whose `check_ik` raises reach nothing. -/
def ladder (p : Params) (candidates : ℕ) : Pipe Bool :=
  if p.hasCheckIk then (ladderLoop candidates).tryCatch fun _ => pure false else pure false

/-- `_relax_orientation`. -/
def relaxOrientation (p : Params) : Pipe Bool := ladder p 5

/-- `_level_side_to_reachable`, with the cap on the tilt of what spills. -/
def levelSideToReachable (p : Params) : Pipe Bool := do
  let tilts ← call .spillTilts
  ladder p (min 6 tilts)

/-- `_grasp_is_reachable`. -/
def graspIsReachable (p : Params) (grasp : Grasp) : Pipe Bool := do
  if ← ladder p 1 then pure true
  else if grasp.method = "side_face" then pure false
  else relaxOrientation p

/-- The candidates are looked at one by one before one is chosen. -/
def selectLoop (p : Params) : List Grasp → Pipe (Option Grasp)
  | [] => call .select
  | grasp :: grasps => do
    swallow (do
      call .geometry
      let _ ← graspIsReachable p grasp)
    selectLoop p grasps

/-- `_select_reachable_grasp`. -/
def selectReachableGrasp (p : Params) (grasps : List Grasp) : Pipe (Option Grasp) :=
  if p.hasCheckIk then selectLoop p grasps else call .select

/-- The viewpoints of an orbit, until one can be reached. -/
def orbitPoseLoop : ℕ → Pipe Bool
  | 0 => pure false
  | candidates + 1 => do
    if ← checkIk then pure true else orbitPoseLoop candidates

/-- `_widebox_orbit_pose`: six angles, five radii and three directions. -/
def wideboxOrbitPose (p : Params) : Pipe Bool :=
  if p.hasCheckIk then (orbitPoseLoop 90).tryCatch fun _ => pure false else pure false

/-! ### Looking -/

/-- The best valid grasp of a frame. -/
def frameBest (p : Params) (grasps : List Grasp) : Pipe (Option Grasp) :=
  if 2 ≤ (grasps.filter (·.isValid)).length then do
    readTcp
    selectReachableGrasp p (grasps.filter (·.isValid))
  else pure (grasps.filter (·.isValid)).head?

/-- A frame without a valid grasp: whether a measured box that is too wide has been noted. -/
def noteTooWide (grasps : List Grasp) (seen : Bool) : Pipe Bool :=
  if (grasps.filter (·.isValid)).isEmpty &&
      grasps.any (fun grasp => grasp.method = "too_wide" && grasp.hasPosition) then
    (do
      readTcp
      call .geometry
      pure true).tryCatch fun _ => pure seen
  else pure seen

/-- The frames of `_capture_and_detect`: what ends the loop at once, the bests of the frames, and
whether a box that is too wide has been noted. -/
def frames (p : Params) : ℕ → List Grasp → Bool → Pipe (Option Grasp × List Grasp × Bool)
  | 0, bests, seen => pure (none, bests, seen)
  | n + 1, bests, seen => do
    checkCancel
    if ← getFrame then
      let grasps ← call .detect
      let seen ← noteTooWide grasps seen
      let best ← frameBest p grasps
      onlyIf p.frameSink (swallow (call .frameSink))
      match best with
      | some best =>
        if p.earlyOut && best.confident then pure (some best, bests, seen)
        else frames p n (bests ++ [best]) seen
      | none => frames p n bests seen
    else frames p n bests seen

/-- `_capture_and_detect`. -/
def captureAndDetect (p : Params) (seen : Bool) : Pipe (Option Grasp × Bool) := do
  onlyIf (0 < p.warmUpFrames) (swallow (call .warmUp))
  swallow readTcp
  let (first, bests, seen) ← frames p (max 3 (max 1 p.detectFrames)).toNat [] seen
  match first, bests with
  | some best, _ => pure (some best, seen)
  | none, [] => pure (none, seen)
  | none, [best] => pure (some best, seen)
  | none, _ => do
    let best ← call .aggregate
    pure (best, seen)

/-- `_bg_capture`, the body of the thread: what it captures, if it gets to the end. -/
def bgCapture (p : Params) : Pipe (Option (Option Grasp)) :=
  (do
    let (best, _) ← captureAndDetect p false
    pure (some best)).tryCatch fun _ => pure none

/-- The scan: the poses are visited until something is found. -/
def scan (p : Params) : ℕ → Bool → Pipe (Option Grasp × Bool)
  | 0, seen => pure (none, seen)
  | poses + 1, seen => do
    checkCancel
    if ← moveTo (.scan (p.scanPoses - (poses + 1))) then
      settle p.moveDuration
      let (best, seen) ← captureAndDetect p seen
      match best with
      | some best => pure (some best, seen)
      | none => scan p poses seen
    else scan p poses seen

/-- The way to the first pose of the scan, from which an orbit is entered. -/
def retract (p : Params) : Pipe Unit :=
  onlyIf (0 < p.scanPoses) (do
    let _ ← moveTo .retract
    settle p.moveDuration)

/-- The sides of a box that is too wide, one after the other. -/
def orbit (p : Params) : ℕ → Bool → Pipe (Option Grasp)
  | 0, _ => pure none
  | sides + 1, seen => do
    checkCancel
    if ← (do
        readTcp
        pure true).tryCatch fun _ => pure false then
      if ← wideboxOrbitPose p then
        retract p
        checkCancel
        if ← moveTo .orbit then
          settle p.moveDuration
          let (best, seen) ← captureAndDetect p seen
          match best with
          | some best => pure (some best)
          | none => orbit p sides seen
        else orbit p sides seen
      else orbit p sides seen
    else pure none

/-- The box is too wide from every side: the arm goes back, and the wait's answer is not looked
at. -/
def verdict (p : Params) : Pipe Grasp := do
  onlyIf (0 < p.scanPoses) (swallow (do
    let _ ← moveTo .retract
    let _ ← waitMotionCancellable p.moveDuration))
  .raise (.returned (.failed .tooWide))

/-- What is found at once, or else by the scan. -/
def captureOrScan (p : Params) : Pipe (Option Grasp × Bool) := do
  let (best, seen) ← captureAndDetect p false
  match best with
  | some best => pure (some best, seen)
  | none => scan p p.scanPoses seen

/-- The orbit, and the verdict on a box that is too wide from every side. -/
def orbitOrVerdict (p : Params) (seen : Bool) : Pipe Grasp := do
  match ← orbit p 2 seen with
  | some best => pure best
  | none => verdict p

/-- Capture, scan and orbit, until something is found. -/
def look (p : Params) : Pipe Grasp := do
  checkCancel
  let (best, seen) ← captureOrScan p
  match best with
  | some best => pure best
  | none =>
    if p.wideboxOrbit && seen then orbitOrVerdict p seen
    else .raise (.returned (.failed (if seen then .tooWide else .noGrasp)))

/-! ### Measuring -/

/-- From the camera to the base, and the clearance of a side grasp above the table. -/
def transform (best : Grasp) : Pipe Unit := do
  checkCancel
  readTcp
  call .geometry
  if best.method = "side_face" then
    let low ← call (.judge .sideTooLow)
    onlyIf low (.raise (.returned (.again .sideTooLow)))
  else pure ()

/-- The grasp as it has been transformed, after one closer look where that is due. -/
def measure (p : Params) (best : Grasp) : Pipe Grasp := do
  transform best
  if p.reobserve && best.method ≠ "round" then
    let far ← call (.judge .farOrWide)
    if far || best.ggcnnAgree = some false then
      checkCancel
      if ← moveTo .reobserve then
        settle p.moveDuration
        let (again, _) ← captureAndDetect p false
        match again with
        | some again => do
          transform again
          pure again
        | none => pure best
      else pure best
    else pure best
  else pure best

/-- The width of the jaw and the box of plausible positions. -/
def gates (p : Params) : Pipe Unit := do
  let fits ← call (.judge .jawFits)
  onlyIf (!fits) (.raise (.returned (.again .jawWidth)))
  call .geometry
  onlyIf p.plausibleBox (do
    let inBox ← call (.judge .inPlausibleBox)
    onlyIf (!inBox) (.raise (.returned (.again .position))))

/-! ### Grasping -/

/-- A move that cannot be reached is tried once more with a relaxed orientation: whether the pose
is reached, and whether the orientation has been relaxed. -/
def moveRelaxed (waypoint : Waypoint) (relax : Pipe Bool) : Pipe (Bool × Bool) := do
  if ← moveTo waypoint then pure (true, false)
  else if ← relax then do
    let reached ← moveTo waypoint
    pure (reached, true)
  else pure (false, false)

/-- The approach; whether the orientation has been relaxed. -/
def pregrasp (p : Params) (best : Grasp) : Pipe Bool := do
  checkCancel
  let (reached, relaxed) ← moveRelaxed .pregrasp
    (if best.method = "side_face" then levelSideToReachable p else relaxOrientation p)
  onlyIf (!reached) (.raise (.returned (.again .pregraspIk)))
  pure relaxed

/-- The settling of the approach; a thread captures during its tail. -/
def approachSettle (p : Params) : Pipe Unit :=
  if p.servoCorrect then do
    settle (max 0 (p.moveDuration - 2 / 5))
    call .startThread
    settle (2 / 5)
    call .joinThread
  else settle p.moveDuration

/-- The second detection, the thread's if it has one. -/
def redetect (p : Params) : Pipe (Option Grasp) := do
  match ← captured with
  | some best => pure best
  | none =>
    let (best, _) ← captureAndDetect p false
    pure best

/-- The correction by a second detection. -/
def servo (p : Params) : Pipe Unit :=
  onlyIf p.servoCorrect (do
    checkCancel
    let best ← redetect p
    match best with
    | some best =>
      onlyIf best.hasPosition (swallow (do
        readTcp
        call .geometry))
    | none => pure ())

/-- The way to the object. -/
def graspMove (p : Params) (best : Grasp) (relaxed : Bool) : Pipe Unit := do
  checkCancel
  let (reached, _) ← moveRelaxed .grasp
    (if !relaxed && best.method ≠ "side_face" then relaxOrientation p else pure false)
  onlyIf (!reached) (.raise (.returned (.again .graspIk)))
  settle (max 1 (p.moveDuration * (3 / 4)))
  swallow readTcp

/-- `arm.grasp`. -/
def armGrasp (adaptive : Bool) : Pipe Bool := call (.grasp adaptive)

/-- The compliant close; an arm that does not know the adaptive mode is asked again without it. -/
def closeJaw (p : Params) : Pipe Bool :=
  if p.adaptiveForce then
    (armGrasp true).tryCatch fun
      | .typeError => armGrasp false
      | exn => .raise exn
  else armGrasp false

/-- `_gripper_holding`. -/
def gripperHolding (default : Option Bool) : Pipe (Option Bool) :=
  (do
    let holding ← call .isHolding
    pure (holding.or default)).tryCatch fun _ => pure default

/-- The compliant grasp, and the look whether anything is held. -/
def grasp (p : Params) : Pipe Bool := do
  checkCancel
  call .lock
  let held ← closeJaw p
  let holding ← gripperHolding none
  onlyIf (!held && holding ≠ some true) (do
    swallow openLocked
    .raise (.returned (.again .nothingHeld)))
  pure held

/-- The lift off the table and the way home. -/
def carryHome (p : Params) : Pipe Unit := do
  checkCancel
  let clear ← moveTo .clearance
  onlyIf clear (settle (max 1 (p.moveDuration * (3 / 5))))
  checkCancel
  let home ← moveTo .home
  onlyIf home (settle p.moveDuration)

/-- The release and what is held in the end. -/
def finish (p : Params) (held : Bool) : Pipe Outcome := do
  onlyIf p.releaseAfter (do
    checkCancel
    openLocked)
  let holding ← gripperHolding none
  onlyIf (!p.releaseAfter && held && holding = some false)
    (.raise (.returned (.again .lost)))
  pure
    { success := held || (!p.releaseAfter && holding.getD held)
      cancelled := false, retriable := false, error := none, attempt := 0 }

/-- The `try` block of `_grasp_attempt`. -/
def attemptBody (p : Params) : Pipe Outcome := do
  let best ← look p
  let best ← measure p best
  gates p
  checkCancel
  openLocked
  let relaxed ← pregrasp p best
  approachSettle p
  servo p
  graspMove p best relaxed
  let held ← grasp p
  carryHome p
  finish p held

/-- The `except` clauses of `_grasp_attempt`. -/
def attemptHandler : Exn → Pipe Outcome
  | .returned outcome => pure outcome
  | .graspCancelled => pure { Outcome.failed .raised with cancelled := true, error := none }
  | .typeError | .other => do
    swallow (call .openGripper)
    pure (.failed .raised)

/-- `_grasp_attempt`. -/
def graspAttempt (p : Params) : Pipe Outcome :=
  if p.openDistance then do
    let outcome ← (attemptBody p).tryCatch attemptHandler
    ended
    pure outcome
  else .raise .other

/-- `_close_on_failure`. -/
def closeOnFailure (outcome : Outcome) : Pipe Outcome :=
  if outcome.success || outcome.cancelled then pure outcome
  else do
    swallow (do
      call .lock
      call .closeGripper)
    pure outcome

/-- The attempts that are left. -/
def attempts (p : Params) : ℕ → ℕ → Pipe Outcome
  | left, attempt => do
    let outcome ← graspAttempt p
    let outcome := { outcome with attempt := attempt }
    if outcome.success || outcome.cancelled || !outcome.retriable then
      closeOnFailure { outcome with retriable := false }
    else
      match left with
      | 0 => closeOnFailure { outcome with retriable := false }
      | left + 1 => attempts p left (attempt + 1)

/-- `run_grasp_once`. -/
def runGraspOnce (p : Params) : Pipe Outcome :=
  if !p.segmenter then do
    ended
    pure (.failed .noSegmenter)
  else if !p.camera then do
    ended
    pure (.failed .noCamera)
  else if !p.handEye then do
    ended
    pure (.failed .noCalibration)
  else attempts p p.retries.toNat 1

/-! ### Putting down -/

/-- The arguments of `run_put_down_once`. -/
structure PutDownParams where
  openDistance : Bool
  moveDuration : ℚ

/-- Whether something is still held, after a second try where that is due. -/
def openAgain (holding : Option Bool) : Pipe (Option Bool) :=
  if holding = some true then do
    openLocked
    gripperHolding (some false)
  else pure holding

/-- Up and back; the pose in between is left out where it cannot be reached. -/
def retreat (p : PutDownParams) : Pipe Unit := do
  checkCancel
  let hopped ← moveTo .hop
  onlyIf hopped (settle (max (4 / 5) (p.moveDuration * (1 / 2))))
  let retreated ← moveTo .approach
  onlyIf retreated (settle p.moveDuration)

/-- The `try` block of `run_put_down_once`. -/
def putDownBody (p : PutDownParams) : Pipe Outcome := do
  call .geometry
  checkCancel
  let approached ← moveTo .approach
  onlyIf approached (settle p.moveDuration)
  checkCancel
  let placed ← moveTo .place
  onlyIf (!placed) (.raise (.returned (.failed .placeIk)))
  settle p.moveDuration
  checkCancel
  openLocked
  let holding ← gripperHolding (some false)
  let holding ← openAgain holding
  swallow (call .gripperOpening)
  onlyIf (holding = some true) (.raise (.returned (.failed .stillGripping)))
  retreat p
  checkCancel
  let home ← moveTo .home
  onlyIf home (settle p.moveDuration)
  swallow (do
    call .lock
    let _ ← armGrasp false)
  pure { success := true, cancelled := false, retriable := false, error := none, attempt := 0 }

/-- The `except` clauses of `run_put_down_once`. -/
def putDownHandler : Exn → Pipe Outcome
  | .returned outcome => pure outcome
  | .graspCancelled => pure { Outcome.failed .raised with cancelled := true, error := none }
  | .typeError | .other => pure (.failed .raised)

/-- `run_put_down_once`. -/
def runPutDownOnce (p : PutDownParams) : Pipe Outcome :=
  if p.openDistance then do
    let outcome ← (putDownBody p).tryCatch putDownHandler
    ended
    pure outcome
  else .raise .other

end OpenVoiceStream.Arm.Pipeline
