import OpenVoiceStream.Base.Assoc
import OpenVoiceStream.Base.Machine

/-!
# One motion at a time

The arm is moved by worker threads: `execute_action` and `dispatch_action` of the arm plugin
run a recorded sequence, the grasp plugin a grasp, a search or a put-down. Each plugin keeps
its tasks in a book and asks both books before it starts a motion.

A task that is cancelled is done, but a thread that runs goes on. `execute_action` asks no book
and is in none.

## Main definitions

* `Motion`, `Config` — a motion with its task and its thread, and the books of the plugins.
* `busyAction`, `refuseIfMotionBusy` — what the books show.
* `step`, `machine` — the coroutines, the tasks and the threads.
* `OneMotion` — at most one thread is inside a motion.
* `Exclusive` — a motion that is started finds none that the books do not show.

## Main results

* `Alone.step` — such a step leaves at most one motion that can still move the arm.
* `oneMotion_of_exclusive` — runs of such steps.
-/

namespace OpenVoiceStream.Arm

/-! ### Motions -/

/-- Who starts a motion. -/
inductive Kind
  | execute
  | action (name : String)
  | grasp
  | search
  | putDown
  deriving DecidableEq

/-- The task that awaits the thread of a motion; for `execute_action` the coroutine itself. It
has been created, awaits the thread, or has ended, by itself or cancelled. -/
inductive Task
  | created
  | waiting
  | done
  | cancelled
  deriving DecidableEq

/-- What has been given to a thread: nothing yet, a job no thread has taken, one that waits for
the camera, one that is inside its motion, or one that is over. -/
inductive Job
  | none
  | queued
  | locking
  | inside
  | over
  deriving DecidableEq

/-- A motion. -/
structure Motion where
  kind : Kind
  task : Task
  job : Job
  deriving DecidableEq

/-- `not task.done()`. -/
def Motion.unfinished (m : Motion) : Bool :=
  match m.task with
  | .created | .waiting => true
  | .done | .cancelled => false

/-- The motion has moved the arm or may still do so. -/
def Motion.live (m : Motion) : Bool :=
  match m.task, m.job with
  | .created, _ => true
  | _, .queued | _, .locking | _, .inside => true
  | _, _ => false

/-- `task.cancel()`: a job that no thread has taken is taken back. -/
def Motion.cancel (m : Motion) : Motion :=
  if m.unfinished then
    { m with task := .cancelled, job := if m.job = .queued then .over else m.job }
  else m

/-- The motions by number, the books (`_inflight_tasks` and `_grasp_task`), the coroutines that
are in `dispatch_action` and in `wait_action_completion` with the task they look at, and who has
the camera: the idle observer or a motion. -/
structure Config where
  motions : List Motion
  inflightTasks : Dictionary String ℕ
  graspTask : Option ℕ
  dispatching : List (String × ℕ)
  waiting : List (String × ℕ)
  camLock : Option (Option ℕ)

/-- The motion with this number has a task that is not done. -/
def Config.unfinished (c : Config) (i : ℕ) : Bool := (c.motions[i]?).any Motion.unfinished

/-- The motion with this number has moved the arm or may still do so. -/
def Config.live (c : Config) (i : ℕ) : Bool := (c.motions[i]?).any Motion.live

/-- The thread of the motion with this number is inside it. -/
def Config.inside (c : Config) (i : ℕ) : Prop := (c.motions[i]?).map Motion.job = some .inside

/-! ### The books -/

/-- `_busy_motion_name` names a motion. -/
def busyMotionName (c : Config) : Bool := c.graspTask.any c.unfinished

/-- `busy_action` names a motion; the source of the grasp plugin is registered. -/
def busyAction (c : Config) : Bool :=
  (c.inflightTasks.items.any fun item => c.unfinished item.2) || busyMotionName c

/-- `_refuse_if_motion_busy` refuses. -/
def refuseIfMotionBusy (c : Config) : Bool := busyMotionName c || busyAction c

/-- What the tools of the grasp plugin check besides: a target of the catalogue, an arm that is
there and connected, its torque, its jaw, the camera with the model, and whether something may be
held. -/
structure Checks where
  target : Bool
  arm : Bool
  robot : Bool
  torqueEnabled : Bool
  gripper : Bool
  perception : Bool
  held : Bool

/-- The checks of `_dispatch_grasp`. -/
def Checks.grasp (checks : Checks) : Bool :=
  checks.target && checks.arm && checks.robot && checks.torqueEnabled && checks.gripper &&
    checks.perception

/-- The checks of `_dispatch_search`. -/
def Checks.search (checks : Checks) : Bool :=
  checks.target && checks.arm && checks.robot && checks.torqueEnabled && checks.perception

/-- The checks of `_dispatch_put_down`. -/
def Checks.putDown (checks : Checks) : Bool :=
  checks.arm && checks.robot && checks.torqueEnabled && checks.gripper && checks.held

/-! ### Steps -/

/-- What happens: a call, with what its checks come to; a coroutine goes on or is cancelled; a task
begins or ends; a thread takes a job, gets the camera or is through; the idle observer takes the
camera or gives it back. -/
inductive Act
  | executeAction (known : Bool)
  | cancelExecute (i : ℕ)
  | dispatchAction (name : String) (known : Bool)
  | dispatched (call : ℕ)
  | cancelDispatch (call : ℕ)
  | waitActionCompletion (name : String)
  | waited (call : ℕ)
  | cancelWait (call : ℕ)
  | dispatchGrasp (checks : Checks)
  | dispatchSearch (checks : Checks)
  | dispatchPutDown (checks : Checks)
  | beginTask (i : ℕ)
  | endTask (i : ℕ)
  | beginJob (i : ℕ)
  | takeCamera (i : ℕ)
  | endJob (i : ℕ)
  | observe
  | observed

/-- A motion is changed. -/
def Config.update (c : Config) (i : ℕ) (f : Motion → Motion) : Config :=
  { c with motions := c.motions.modify i f }

/-- The grasp plugin starts a motion, or refuses to. -/
def startGrasp (c : Config) (kind : Kind) (admitted : Bool) : Config :=
  if admitted && !refuseIfMotionBusy c then
    { c with
      motions := c.motions ++ [{ kind := kind, task := .created, job := .none }]
      graspTask := some c.motions.length }
  else c

/-- `_dispatch_grasp`. -/
def dispatchGrasp (c : Config) (checks : Checks) : Config := startGrasp c .grasp checks.grasp

/-- `_dispatch_search`. -/
def dispatchSearch (c : Config) (checks : Checks) : Config := startGrasp c .search checks.search

/-- `_dispatch_put_down`. -/
def dispatchPutDown (c : Config) (checks : Checks) : Config :=
  startGrasp c .putDown checks.putDown

/-- `execute_action` until it awaits the thread. -/
def executeAction (c : Config) (known : Bool) : Config :=
  if known then
    { c with motions := c.motions ++ [{ kind := .execute, task := .waiting, job := .queued }] }
  else c

/-- `dispatch_action` until it waits for the first slice of the motion. -/
def dispatchAction (c : Config) (name : String) (known : Bool) : Config :=
  if !known then c
  else if (c.inflightTasks.get name).any c.unfinished then c
  else if busyAction c then c
  else
    { c with
      motions := c.motions ++ [{ kind := .action name, task := .created, job := .none }]
      inflightTasks := c.inflightTasks.put name c.motions.length
      dispatching := c.dispatching ++ [(name, c.motions.length)] }

/-- The thread of a motion takes the camera first. -/
def Kind.usesCamera : Kind → Bool
  | .grasp | .search => true
  | _ => false

/-- A step. -/
def step (c : Config) : Act → Option Config
  | .executeAction known => some (executeAction c known)
  | .cancelExecute i =>
    match c.motions[i]? with
    | some m => if m.kind = .execute then some (c.update i Motion.cancel) else none
    | none => none
  | .dispatchAction name known => some (dispatchAction c name known)
  | .dispatched call =>
    match c.dispatching[call]? with
    | some (name, i) =>
      let c := { c with dispatching := c.dispatching.eraseIdx call }
      -- the task has ended within the window, whatever is under its name by now
      if (c.motions[i]?).any (fun m => m.task = .done) then
        some { c with inflightTasks := c.inflightTasks.erase name }
      else some c
    | none => none
  | .cancelDispatch call =>
    match c.dispatching[call]? with
    | some _ => some { c with dispatching := c.dispatching.eraseIdx call }
    | none => none
  | .waitActionCompletion name =>
    match c.inflightTasks.get name with
    | some i => some { c with waiting := c.waiting ++ [(name, i)] }
    | none => some c
  | .waited call =>
    match c.waiting[call]? with
    | some (name, i) =>
      if c.unfinished i then none
      else
        let c := { c with waiting := c.waiting.eraseIdx call }
        if c.inflightTasks.get name = some i then
          some { c with inflightTasks := c.inflightTasks.erase name }
        else some c
    | none => none
  | .cancelWait call =>
    -- a coroutine that awaits a task cancels it
    match c.waiting[call]? with
    | some (_, i) => some (c.update i Motion.cancel)
    | none => none
  | .dispatchGrasp checks => some (dispatchGrasp c checks)
  | .dispatchSearch checks => some (dispatchSearch c checks)
  | .dispatchPutDown checks => some (dispatchPutDown c checks)
  | .beginTask i =>
    match c.motions[i]? with
    | some m =>
      if m.task = .created then
        some (c.update i fun m => { m with task := .waiting, job := .queued })
      else none
    | none => none
  | .endTask i =>
    match c.motions[i]? with
    | some m =>
      if m.task = .waiting ∧ m.job = .over then some (c.update i fun m => { m with task := .done })
      else none
    | none => none
  | .beginJob i =>
    match c.motions[i]? with
    | some m =>
      if m.job = .queued then
        some (c.update i fun m =>
          { m with job := if m.kind.usesCamera then .locking else .inside })
      else none
    | none => none
  | .takeCamera i =>
    match c.motions[i]? with
    | some m =>
      if m.job = .locking ∧ c.camLock = none then
        some { c.update i (fun m => { m with job := .inside }) with camLock := some (some i) }
      else none
    | none => none
  | .endJob i =>
    match c.motions[i]? with
    | some m =>
      if m.job = .inside then
        some { c.update i (fun m => { m with job := .over }) with
          camLock := if c.camLock = some (some i) then none else c.camLock }
      else none
    | none => none
  | .observe =>
    if c.camLock = none ∧ busyMotionName c = false then some { c with camLock := some none }
    else none
  | .observed => if c.camLock = some none then some { c with camLock := none } else none

/-- The plugins from their start. -/
def machine : Machine Config Act where
  init :=
    { motions := [], inflightTasks := .empty, graspTask := none, dispatching := [], waiting := []
      camLock := none }
  step := step

/-! ### What is asked of a run -/

/-- At most one thread is inside a motion. -/
def OneMotion (c : Config) : Prop := ∀ i j, c.inside i → c.inside j → i = j

/-- A book has the motion with this number, and its task is not done. -/
def Config.shown (c : Config) (i : ℕ) : Bool :=
  c.unfinished i &&
    ((c.inflightTasks.items.any fun item => item.2 = i) || c.graspTask = some i)

/-- A motion is started only where the books show every motion that may still move the arm, and by
`execute_action` only where there is none. -/
def Exclusive (c : Config) : Act → Prop
  | .executeAction known => known = true → ∀ i < c.motions.length, c.live i = false
  | .dispatchAction _ known =>
    known = true → ∀ i < c.motions.length, c.live i = true → c.shown i = true
  | .dispatchGrasp checks =>
    checks.grasp = true → ∀ i < c.motions.length, c.live i = true → c.shown i = true
  | .dispatchSearch checks =>
    checks.search = true → ∀ i < c.motions.length, c.live i = true → c.shown i = true
  | .dispatchPutDown checks =>
    checks.putDown = true → ∀ i < c.motions.length, c.live i = true → c.shown i = true
  | _ => True

instance (c : Config) (act : Act) : Decidable (Exclusive c act) :=
  match act with
  | .executeAction _ | .dispatchAction _ _ | .dispatchGrasp _ | .dispatchSearch _
  | .dispatchPutDown _ => inferInstanceAs (Decidable (_ → ∀ i < c.motions.length, _))
  | .cancelExecute _ | .dispatched _ | .cancelDispatch _ | .waitActionCompletion _ | .waited _
  | .cancelWait _ | .beginTask _ | .endTask _ | .beginJob _ | .takeCamera _ | .endJob _
  | .observe | .observed => isTrue trivial

/-! ### Motions that can move the arm -/

/-- At most one motion can still move the arm. -/
def Alone (c : Config) : Prop := ∀ i j, c.live i = true → c.live j = true → i = j

variable {c c' : Config}

/-- A motion whose thread is inside it is live. -/
theorem Config.live_of_inside {i : ℕ} (h : c.inside i) : c.live i = true := by
  rw [Config.inside, Option.map_eq_some_iff] at h
  obtain ⟨⟨kind, task, job⟩, hm, hjob⟩ := h
  rw [Config.live, hm]
  cases hjob
  cases task <;> rfl

theorem Alone.oneMotion (h : Alone c) : OneMotion c :=
  fun i j hi hj => h i j (Config.live_of_inside hi) (Config.live_of_inside hj)

/-- A live motion has been started. -/
theorem Config.lt_of_live {i : ℕ} (h : c.live i = true) : i < c.motions.length := by
  by_contra hge
  rw [Config.live, List.getElem?_eq_none (by omega)] at h
  cases h

/-- A change that brings no motion to life leaves at most one. -/
theorem Alone.of_le (h : Alone c) (hle : ∀ i, c'.live i = true → c.live i = true) : Alone c' :=
  fun i j hi hj => h i j (hle i hi) (hle j hj)

theorem Config.live_update {i j : ℕ} {f : Motion → Motion}
    (hf : ∀ m, c.motions[i]? = some m → (f m).live = true → m.live = true)
    (h : (c.update i f).live j = true) : c.live j = true := by
  rw [Config.live, Config.update, List.getElem?_modify] at h
  rw [Config.live]
  by_cases hij : i = j
  · subst hij
    cases hm : c.motions[i]? with
    | none =>
      rw [hm] at h
      cases h
    | some m =>
      rw [hm] at h
      simp only [if_true, Option.map_eq_map, Option.map_some, Option.any_some] at h
      exact hf m hm h
  · simpa [hij] using h

/-- Cancelling brings no motion to life. -/
theorem Motion.live_of_cancel {m : Motion} (h : m.cancel.live = true) : m.live = true := by
  obtain ⟨kind, task, job⟩ := m
  cases task <;> cases job <;> first | rfl | exact h

/-- What the books show they answer for. -/
theorem busyAction_of_shown {i : ℕ} (h : c.shown i = true) : busyAction c = true := by
  rw [Config.shown, Bool.and_eq_true, Bool.or_eq_true] at h
  obtain ⟨hunfinished, hinflight | hgrasp⟩ := h
  · obtain ⟨item, hitem, hi⟩ := List.any_eq_true.mp hinflight
    rw [decide_eq_true_eq] at hi
    rw [busyAction, Bool.or_eq_true]
    exact .inl (List.any_eq_true.mpr ⟨item, hitem, by rw [hi, hunfinished]⟩)
  · rw [decide_eq_true_eq] at hgrasp
    rw [busyAction, busyMotionName, hgrasp, Option.any_some, hunfinished, Bool.or_true]

/-- Where the books show every live motion and no other, none is. -/
theorem not_live_of_not_busy
    (hshown : ∀ i < c.motions.length, c.live i = true → c.shown i = true)
    (hfree : busyAction c = false) (i : ℕ) : c.live i = false := by
  by_contra hlive
  rw [Bool.not_eq_false] at hlive
  have hbusy := busyAction_of_shown (hshown i (Config.lt_of_live hlive) hlive)
  rw [hfree] at hbusy
  cases hbusy

/-- A motion that is started where none is live is alone. -/
theorem alone_of_start {m : Motion} (hnone : ∀ i, c.live i = false)
    (hmotions : c'.motions = c.motions ++ [m]) : Alone c' := by
  have hold : ∀ i, c'.live i = true → i = c.motions.length := by
    intro i hi
    by_contra hne
    have hlt := Config.lt_of_live hi
    rw [hmotions, List.length_append, List.length_singleton] at hlt
    rw [Config.live, hmotions, List.getElem?_append_left (by omega)] at hi
    have hno := hnone i
    rw [Config.live, hi] at hno
    cases hno
  intro i j hi hj
  rw [hold i hi, hold j hj]

theorem Alone.startGrasp (h : Alone c) {kind : Kind} {admitted : Bool}
    (hshown : admitted = true → ∀ i < c.motions.length, c.live i = true → c.shown i = true) :
    Alone (startGrasp c kind admitted) := by
  rw [Arm.startGrasp]
  split
  · next hstart =>
    rw [Bool.and_eq_true, Bool.not_eq_true', refuseIfMotionBusy, Bool.or_eq_false_iff] at hstart
    exact alone_of_start (not_live_of_not_busy (hshown hstart.1) hstart.2.2) rfl
  · exact h

/-! ### Runs -/

/-- **One step.** A motion that is started under the condition is alone, and no other step brings
a motion to life. -/
theorem Alone.step (h : Alone c) {act : Act} (hexclusive : Exclusive c act)
    (hstep : step c act = some c') : Alone c' := by
  cases act with
  | executeAction known =>
    cases hstep
    rw [executeAction]
    split
    · next hknown =>
      refine alone_of_start (fun i => ?_) rfl
      by_contra hlive
      rw [Bool.not_eq_false] at hlive
      have hno := hexclusive hknown i (Config.lt_of_live hlive)
      rw [hlive] at hno
      cases hno
    · exact h
  | dispatchAction name known =>
    cases hstep
    rw [dispatchAction]
    split
    · exact h
    · next hknown =>
      rw [Bool.not_eq_true', Bool.not_eq_false] at hknown
      split
      · exact h
      · split
        · exact h
        · next hfree =>
          rw [Bool.not_eq_true] at hfree
          exact alone_of_start (not_live_of_not_busy (hexclusive hknown) hfree) rfl
  | dispatchGrasp checks =>
    cases hstep
    exact h.startGrasp hexclusive
  | dispatchSearch checks =>
    cases hstep
    exact h.startGrasp hexclusive
  | dispatchPutDown checks =>
    cases hstep
    exact h.startGrasp hexclusive
  | cancelExecute i =>
    rw [Arm.step] at hstep
    split at hstep
    · split at hstep
      · cases hstep
        exact h.of_le fun _ => Config.live_update fun _ _ => Motion.live_of_cancel
      · cases hstep
    · cases hstep
  | cancelWait call =>
    rw [Arm.step] at hstep
    split at hstep
    · cases hstep
      exact h.of_le fun _ => Config.live_update fun _ _ => Motion.live_of_cancel
    · cases hstep
  | dispatched call =>
    rw [Arm.step] at hstep
    dsimp only at hstep
    split at hstep
    · split at hstep <;> cases hstep <;> exact h.of_le fun _ hi => hi
    · cases hstep
  | cancelDispatch call =>
    rw [Arm.step] at hstep
    split at hstep <;> cases hstep
    exact h.of_le fun _ hi => hi
  | waitActionCompletion name =>
    rw [Arm.step] at hstep
    split at hstep <;> cases hstep <;> exact h.of_le fun _ hi => hi
  | waited call =>
    rw [Arm.step] at hstep
    dsimp only at hstep
    split at hstep
    · split at hstep
      · cases hstep
      · split at hstep <;> cases hstep <;> exact h.of_le fun _ hi => hi
    · cases hstep
  | beginTask i =>
    rw [Arm.step] at hstep
    split at hstep
    · next m hm =>
      split at hstep
      · next htask =>
        cases hstep
        refine h.of_le fun _ => Config.live_update fun m' hm' _ => ?_
        cases hm.symm.trans hm'
        rw [Motion.live, htask]
      · cases hstep
    · cases hstep
  | endTask i =>
    rw [Arm.step] at hstep
    split at hstep
    · next m hm =>
      split at hstep
      · next hended =>
        cases hstep
        refine h.of_le fun _ => Config.live_update fun m' hm' hlive => ?_
        cases hm.symm.trans hm'
        rw [Motion.live, hended.2] at hlive
        cases hlive
      · cases hstep
    · cases hstep
  | beginJob i =>
    rw [Arm.step] at hstep
    split at hstep
    · next m hm =>
      split at hstep
      · next hjob =>
        cases hstep
        refine h.of_le fun _ => Config.live_update fun m' hm' _ => ?_
        cases hm.symm.trans hm'
        rw [Motion.live, hjob]
        cases m.task <;> rfl
      · cases hstep
    · cases hstep
  | takeCamera i =>
    rw [Arm.step] at hstep
    split at hstep
    · next m hm =>
      split at hstep
      · next hjob =>
        cases hstep
        refine h.of_le fun _ hi => Config.live_update (c := c) (fun m' hm' _ => ?_) hi
        cases hm.symm.trans hm'
        rw [Motion.live, hjob.1]
        cases m.task <;> rfl
      · cases hstep
    · cases hstep
  | endJob i =>
    rw [Arm.step] at hstep
    split at hstep
    · next m hm =>
      split at hstep
      · next hjob =>
        cases hstep
        refine h.of_le fun _ hi => Config.live_update (c := c) (fun m' hm' _ => ?_) hi
        cases hm.symm.trans hm'
        rw [Motion.live, hjob]
        cases m.task <;> rfl
      · cases hstep
    · cases hstep
  | observe =>
    rw [Arm.step] at hstep
    split at hstep <;> cases hstep
    exact h.of_le fun _ hi => hi
  | observed =>
    rw [Arm.step] at hstep
    split at hstep <;> cases hstep
    exact h.of_le fun _ hi => hi

/-- **One motion at a time** in every run that starts a motion only where the books show every
motion that may still move the arm, and by `execute_action` only where there is none. -/
theorem oneMotion_of_exclusive {acts : List Act} {c : Config} (hrun : machine.run acts = some c)
    (hexclusive : machine.Guarded Exclusive machine.init acts) : OneMotion c := by
  have hinit : Alone machine.init := fun i j hi _ => by cases hi
  exact (machine.invariant_of_guarded Exclusive hinit (fun _ _ _ h hok hstep => h.step hok hstep)
    hexclusive hrun).oneMotion

/-- Two calls of `execute_action` ask no book. -/
theorem two_sequences : ¬ ∀ acts c, machine.run acts = some c → OneMotion c := by
  intro hall
  have hone := hall [.executeAction true, .beginJob 0, .executeAction true, .beginJob 1] _ rfl
  exact absurd (hone 0 1 rfl rfl) (by decide)

/-- A wave, and a put-down that is refused while the arm waves. -/
def waveThenPutDown : List Act :=
  [.dispatchAction "wave" true, .beginTask 0, .beginJob 0, .dispatchPutDown
    { target := true, arm := true, robot := true, torqueEnabled := true, gripper := true
      perception := true, held := true }]

theorem waveThenPutDown_oneMotion : ∃ c, machine.run waveThenPutDown = some c ∧ OneMotion c := by
  obtain ⟨c, hrun⟩ : ∃ c, machine.run waveThenPutDown = some c := ⟨_, rfl⟩
  exact ⟨c, hrun, oneMotion_of_exclusive hrun (by decide +kernel)⟩

end OpenVoiceStream.Arm
