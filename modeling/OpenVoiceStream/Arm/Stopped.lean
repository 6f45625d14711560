import OpenVoiceStream.Arm.Stop

/-!
# The grasp and the put-down stop

The parts of the pipeline, one after the other, keep the discipline: a check before each command.
Three commands have none, the way back after a box was too wide, the closing after a failure and
the closing at the end of a put-down; no check comes after them.

## Main results

* `meets_graspAttempt` — how an attempt ends.
* `over_runGraspOnce`, `over_runPutDownOnce` — how a run ends.
* `stopped_iff_of_over`, `stopped_iff` — when a run stops in time.
-/

namespace OpenVoiceStream.Arm.Pipeline

open Script (Event Meets)

variable {p : Params}

/-! ### Reach and detection -/

theorem looks_ladder (candidates : ℕ) : Looks (ladder p candidates) := by
  have hloop : ∀ n, Looks (ladderLoop n) := by
    intro n
    induction n with
    | zero => exact only_pure _
    | succ n ih =>
      refine looks_checkIk.bind fun first => looks_checkIk.bind fun second => ?_
      split
      · exact only_pure _
      · exact ih
  rw [ladder]
  split
  · exact (hloop candidates).catch false
  · exact only_pure _

theorem looks_relaxOrientation : Looks (relaxOrientation p) := looks_ladder 5

theorem looks_levelSideToReachable : Looks (levelSideToReachable p) :=
  (only_call fun _ => rfl).bind fun _ => looks_ladder _

theorem looks_graspIsReachable (grasp : Grasp) : Looks (graspIsReachable p grasp) := by
  refine (looks_ladder 1).bind fun reached => ?_
  split
  · exact only_pure _
  · split
    · exact only_pure _
    · exact looks_relaxOrientation

theorem looks_wideboxOrbitPose : Looks (wideboxOrbitPose p) := by
  have hloop : ∀ n, Looks (orbitPoseLoop n) := by
    intro n
    induction n with
    | zero => exact only_pure _
    | succ n ih =>
      refine looks_checkIk.bind fun reached => ?_
      split
      · exact only_pure _
      · exact ih
  rw [wideboxOrbitPose]
  split
  · exact (hloop 90).catch false
  · exact only_pure _

theorem quiet_selectReachableGrasp (grasps : List Grasp) :
    Quiet (selectReachableGrasp p grasps) := by
  have hselect : Quiet (call .select : Pipe (Option Grasp)) := quiet_call fun _ => rfl
  have hloop : ∀ grasps, Quiet (selectLoop p grasps) := by
    intro grasps
    induction grasps with
    | nil => exact hselect
    | cons grasp grasps ih =>
      refine Only.bind (Only.swallow ?_) fun _ => ih
      exact (quiet_call fun _ => rfl).bind fun _ =>
        (looks_graspIsReachable grasp).quiet.bind fun _ => only_pure _
  rw [selectReachableGrasp]
  split
  · exact hloop grasps
  · exact hselect

theorem quiet_frameBest (grasps : List Grasp) : Quiet (frameBest p grasps) := by
  rw [frameBest]
  split
  · exact looks_readTcp.quiet.bind fun _ => quiet_selectReachableGrasp _
  · exact only_pure _

theorem quiet_noteTooWide (grasps : List Grasp) (seen : Bool) :
    Quiet (noteTooWide grasps seen) := by
  rw [noteTooWide]
  split
  · exact (looks_readTcp.quiet.bind fun _ =>
      (quiet_call fun _ => rfl).bind fun _ => only_pure _).catch seen
  · exact only_pure _

/-! ### Looking -/

theorem quiet_getFrame : Quiet getFrame := quiet_call fun _ => rfl

theorem quiet_detect : Quiet (call .detect : Pipe (List Grasp)) := quiet_call fun _ => rfl

theorem quiet_frameSink (condition : Bool) :
    Quiet (onlyIf condition (swallow (call .frameSink))) :=
  (Only.swallow (quiet_call fun _ => rfl)).onlyIf condition

theorem calm_frames (n : ℕ) (bests : List Grasp) (seen : Bool) : Calm (frames p n bests seen) := by
  induction n generalizing bests seen with
  | zero => exact calm_pure _
  | succ n ih =>
    refine calm_checkCancel.bind fun _ => quiet_getFrame.calm.bind fun got => ?_
    split
    · refine quiet_detect.calm.bind fun grasps =>
        (quiet_noteTooWide grasps seen).calm.bind fun seen =>
          (quiet_frameBest grasps).calm.bind fun best =>
            (quiet_frameSink p.frameSink).calm.bind fun _ => ?_
      cases best with
      | none => exact ih _ _
      | some best =>
        dsimp only
        split
        · exact calm_pure _
        · exact ih _ _
    · exact ih _ _

theorem quiet_warmUp (condition : Bool) : Quiet (onlyIf condition (swallow (call .warmUp))) :=
  (Only.swallow (quiet_call fun _ => rfl)).onlyIf condition

theorem quiet_aggregate (seen : Bool) :
    Quiet (do
      let best ← (call .aggregate : Pipe (Option Grasp))
      pure (best, seen)) :=
  (quiet_call fun _ => rfl).bind fun _ => only_pure _

theorem quiet_upHint : Quiet (swallow readTcp) := Only.swallow looks_readTcp.quiet

theorem calm_captureAndDetect (seen : Bool) : Calm (captureAndDetect p seen) := by
  refine (quiet_warmUp _).calm.bind fun _ => quiet_upHint.calm.bind fun _ =>
    (calm_frames _ _ _).bind fun ⟨first, bests, seen⟩ => ?_
  match first, bests with
  | some best, _ => exact calm_pure _
  | none, [] => exact calm_pure _
  | none, [best] => exact calm_pure _
  | none, _ :: _ :: _ => exact (quiet_aggregate seen).calm

theorem calm_scan (poses : ℕ) (seen : Bool) : Calm (scan p poses seen) := by
  induction poses generalizing seen with
  | zero => exact calm_pure _
  | succ poses ih =>
    refine calm_check_bind (armed_moveTo_bind ?_ (ih seen).armed)
    refine (calm_settle _).bind fun _ => (calm_captureAndDetect seen).bind fun ⟨best, seen⟩ => ?_
    cases best with
    | some best => exact calm_pure _
    | none => exact ih seen

theorem armed_retract : Armed (retract p) := by
  rw [retract, onlyIf]
  split
  · exact armed_moveTo_bind (calm_settle _) (calm_settle _).armed
  · exact (calm_pure ()).armed

theorem calm_orbit (sides : ℕ) (seen : Bool) : Calm (orbit p sides seen) := by
  induction sides generalizing seen with
  | zero => exact calm_pure _
  | succ sides ih =>
    refine calm_check_bind (Looks.armed_bind
      ((looks_readTcp.bind fun _ => only_pure true).catch false) fun got => ?_)
    split
    · refine looks_wideboxOrbitPose.armed_bind fun found => ?_
      split
      · refine armed_retract.bind fun _ => calm_check_bind (armed_moveTo_bind ?_ (ih seen).armed)
        refine (calm_settle _).bind fun _ =>
          (calm_captureAndDetect seen).bind fun ⟨best, seen⟩ => ?_
        cases best with
        | some best => exact calm_pure _
        | none => exact ih seen
      · exact (ih seen).armed
    · exact (calm_pure _).armed

/-- The way back is commanded without a check, and none comes after it. -/
theorem calm_verdict : Calm (verdict p) := by
  have hback : Meets Loose (swallow (do
      let _ ← moveTo .retract
      let _ ← waitMotionCancellable p.moveDuration)) (fun _ => Loose) Err := by
    refine Meets.tryCatch (E := fun _ => Loose) ?_ fun _ => Meets.pure fun _ => id
    have hmove : Meets Loose (moveTo .retract) (fun _ => Loose) fun _ => Loose :=
      Meets.bind
        (meets_call (fun past _ h => h.append rfl) fun past _ _ h _ => h.append rfl)
        fun _ => meets_call (fun past _ h => h.append rfl) fun past _ _ h _ => h.append rfl
    have hwait := quiet_waitMotionCancellable p.moveDuration Loose fun _ _ h hkind =>
      h.append hkind.2
    exact Meets.bind hmove fun _ =>
      Meets.bind (hwait.mono (fun _ => id) (fun _ _ => id) fun _ _ he => he.2) fun _ =>
        Meets.pure fun _ => id
  have hgo : Meets Open (onlyIf (0 < p.scanPoses) (swallow (do
      let _ ← moveTo .retract
      let _ ← waitMotionCancellable p.moveDuration))) (fun _ => Loose) Err := by
    rw [onlyIf]
    split
    · exact hback.mono (fun _ => Open.loose) (fun _ _ => id) fun _ _ => id
    · exact Meets.pure fun _ => Open.loose
  exact Meets.bind hgo fun _ => Meets.raise fun _ hloose => ⟨rfl, .inr ⟨hloose, rfl⟩⟩

theorem calm_look : Calm (look p) := by
  have hfirst : Calm (captureOrScan p) := by
    refine (calm_captureAndDetect false).bind fun ⟨best, seen⟩ => ?_
    cases best with
    | some best => exact calm_pure _
    | none => exact calm_scan _ _
  refine calm_checkCancel.bind fun _ => hfirst.bind fun ⟨best, seen⟩ => ?_
  cases best with
  | some best => exact calm_pure _
  | none =>
    dsimp only
    split
    · refine (calm_orbit 2 seen).bind fun best => ?_
      cases best with
      | some best => exact calm_pure _
      | none => exact calm_verdict
    · exact calm_return rfl

/-! ### Measuring and grasping -/

theorem calm_transform (best : Grasp) : Calm (transform best) := by
  refine calm_checkCancel.bind fun _ => looks_readTcp.quiet.calm.bind fun _ =>
    Calm.bind (Quiet.calm (quiet_call fun _ => rfl)) fun _ => ?_
  split
  · exact Calm.bind (Quiet.calm (quiet_call fun _ => rfl)) fun low =>
      (calm_return rfl).onlyIf low
  · exact calm_pure _

theorem quiet_judge (judgement : Judgement) : Quiet (call (.judge judgement)) :=
  quiet_call fun _ => rfl

theorem quiet_geometry : Quiet (call .geometry) := quiet_call fun _ => rfl

theorem calm_measure (best : Grasp) : Calm (measure p best) := by
  refine (calm_transform best).bind fun _ => ?_
  split
  · refine (quiet_judge .farOrWide).calm.bind fun far => ?_
    split
    · refine calm_check_bind (armed_moveTo_bind ?_ (calm_pure _).armed)
      refine (calm_settle _).bind fun _ =>
        (calm_captureAndDetect false).bind fun ⟨again, _⟩ => ?_
      cases again with
      | some again => exact (calm_transform again).bind fun _ => calm_pure _
      | none => exact calm_pure _
    · exact calm_pure _
  · exact calm_pure _

theorem calm_gates : Calm (gates p) := by
  refine (quiet_judge .jawFits).calm.bind fun fits =>
    ((calm_return rfl).onlyIf (!fits)).bind fun _ => quiet_geometry.calm.bind fun _ => ?_
  exact ((quiet_judge .inPlausibleBox).calm.bind fun inBox =>
    (calm_return rfl).onlyIf (!inBox)).onlyIf _

/-- The second move is made where the first could not be reached. -/
theorem armed_moveRelaxed {waypoint : Waypoint} {relax : Pipe Bool} (h : Looks relax) :
    Armed (moveRelaxed waypoint relax) := by
  refine armed_moveTo_bind (calm_pure _) (h.armed_bind fun relaxed => ?_)
  cases relaxed with
  | true => exact armed_moveTo_bind (calm_pure _) (calm_pure _).armed
  | false => exact (calm_pure _).armed

theorem calm_pregrasp (best : Grasp) : Calm (pregrasp p best) := by
  refine calm_check_bind ((armed_moveRelaxed ?_).bind fun ⟨reached, relaxed⟩ => ?_)
  · split
    · exact looks_levelSideToReachable
    · exact looks_relaxOrientation
  · exact ((calm_return rfl).onlyIf (!reached)).bind fun _ => calm_pure _

theorem calm_approachSettle : Calm (approachSettle p) := by
  rw [approachSettle]
  split
  · exact (calm_settle _).bind fun _ => Calm.bind (Quiet.calm (quiet_call fun _ => rfl)) fun _ =>
      (calm_settle _).bind fun _ => Quiet.calm (quiet_call fun _ => rfl)
  · exact calm_settle _

theorem quiet_captured : Quiet captured :=
  fun _ hP => Meets.ask fun past _ hpast => hP past _ hpast ⟨rfl, rfl⟩

theorem calm_redetect : Calm (redetect p) := by
  refine quiet_captured.calm.bind fun captured => ?_
  cases captured with
  | some best => exact calm_pure _
  | none => exact (calm_captureAndDetect false).bind fun ⟨best, _⟩ => calm_pure _

theorem calm_servo : Calm (servo p) := by
  refine Calm.onlyIf ?_ _
  refine calm_checkCancel.bind fun _ => calm_redetect.bind fun best => ?_
  cases best with
  | some best =>
    refine Quiet.calm (Only.onlyIf (Only.swallow ?_) _)
    exact looks_readTcp.quiet.bind fun _ => quiet_geometry
  | none => exact calm_pure _

theorem calm_graspMove (best : Grasp) (relaxed : Bool) : Calm (graspMove p best relaxed) := by
  refine calm_check_bind ((armed_moveRelaxed ?_).bind fun ⟨reached, _⟩ => ?_)
  · split
    · exact looks_relaxOrientation
    · exact only_pure _
  · exact ((calm_return rfl).onlyIf (!reached)).bind fun _ => (calm_settle _).bind fun _ =>
      quiet_upHint.calm

theorem quiet_gripperHolding (default : Option Bool) : Quiet (gripperHolding default) :=
  ((quiet_call fun _ => rfl).bind fun _ => only_pure _).catch default

theorem calm_grasp : Calm (grasp p) := by
  refine calm_check_bind (looks_lock.armed_bind fun _ => (armed_closeJaw p).bind fun held =>
    (quiet_gripperHolding none).calm.bind fun holding => Calm.bind (Calm.onlyIf ?_ _) fun _ =>
      calm_pure _)
  exact (Quiet.calm (Only.swallow quiet_openLocked)).bind fun _ => calm_return rfl

/-- A motion and its settling, before something that looks at the event itself. -/
theorem meets_goThere {waypoint : Waypoint} {duration : ℚ} {α : Type} {rest : Pipe α}
    {Q : α → List Step → Prop} (h : Meets Open rest Q Err) :
    Meets Ready (do
      let reached ← moveTo waypoint
      onlyIf reached (settle duration)
      rest) Q Err := by
  refine Meets.bind ((meets_moveTo waypoint).mono (fun _ => id) (fun _ _ => id)
    fun _ _ he => err_of_plain he.1 he.2) fun reached => ?_
  cases reached with
  | true => exact Meets.bind (calm_settle duration) fun _ => h
  | false => exact h.mono (fun _ hready => hready.1) (fun _ _ => id) fun _ _ => id

theorem calm_carryHome : Calm (carryHome p) := by
  refine Meets.bind meets_checkCancel fun _ => meets_goThere ?_
  refine Meets.bind meets_checkCancel fun _ => ?_
  exact armed_moveTo_bind ((calm_settle _).onlyIf _) ((calm_settle _).onlyIf _).armed

/-- A result that was not cancelled. -/
theorem meets_finish (held : Bool) :
    Meets Open (finish p held) (fun outcome past => outcome.cancelled = false ∧ Open past) Err := by
  refine Meets.bind (Calm.onlyIf (calm_checkCancel.bind fun _ => quiet_openLocked.calm) _)
    fun _ => Meets.bind (quiet_gripperHolding none).calm fun holding => ?_
  exact Meets.bind ((calm_return rfl).onlyIf _) fun _ => Meets.pure fun _ hopen => ⟨rfl, hopen⟩

theorem meets_attemptBody :
    Meets Open (attemptBody p) (fun outcome past => outcome.cancelled = false ∧ Open past) Err :=
  Meets.bind calm_look fun best => Meets.bind (calm_measure best) fun best =>
    Meets.bind calm_gates fun _ => Meets.bind calm_checkCancel fun _ =>
      Meets.bind quiet_openLocked.calm fun _ => Meets.bind (calm_pregrasp best) fun relaxed =>
        Meets.bind calm_approachSettle fun _ => Meets.bind calm_servo fun _ =>
          Meets.bind (calm_graspMove best relaxed) fun _ => Meets.bind calm_grasp fun held =>
            Meets.bind calm_carryHome fun _ => meets_finish held

/-! ### The end of a run -/

/-- What holds at the end of an attempt: it was cancelled and the event has been found set, or it
was not, and a command without a check has been the last; such an attempt is not tried again. -/
def Finished (outcome : Outcome) (past : List Step) : Prop :=
  outcome.cancelled = true ∧ Halted past ∨
    outcome.cancelled = false ∧ (Open past ∨ Loose past ∧ outcome.retriable = false)

theorem meets_attemptHandler (exn : Exn) :
    Meets (Err exn) (attemptHandler exn) Finished fun _ _ => False := by
  have hopening : Meets Open (do
      swallow (call .openGripper)
      pure (Outcome.failed .raised)) Finished fun _ _ => False := by
    have hopen : Meets Open (swallow (call .openGripper)) (fun _ => Open) fun _ _ => False :=
      Meets.tryCatch (Quiet.keepsOpen (quiet_call fun _ => rfl)) fun _ =>
        Meets.pure fun _ he => he.2
    exact Meets.bind hopen fun _ => Meets.pure fun _ h => .inr ⟨rfl, .inl h⟩
  cases exn with
  | returned outcome => exact Meets.pure fun _ => .inr
  | graspCancelled => exact Meets.pure fun _ h => .inl ⟨rfl, h⟩
  | typeError => exact hopening
  | other => exact hopening

/-- An attempt ends with its mark. -/
theorem meets_graspAttempt (hopen : p.openDistance = true) :
    Meets Open (graspAttempt p) (fun outcome past => ∃ before, past = before ++ [⟨.ended, ()⟩] ∧
      Finished outcome before) fun _ _ => False := by
  rw [graspAttempt, if_pos hopen]
  have hbody : Meets Open ((attemptBody p).tryCatch attemptHandler) Finished fun _ _ => False :=
    Meets.tryCatch (meets_attemptBody.mono (fun _ => id)
      (fun _ _ h => .inr ⟨h.1, .inl h.2⟩) fun _ _ => id) meets_attemptHandler
  refine Meets.bind hbody fun outcome => ?_
  have hended : Meets (Finished outcome) ended
      (fun _ past => ∃ before, past = before ++ [⟨.ended, ()⟩] ∧ Finished outcome before)
      fun _ _ => False :=
    Meets.ask fun past _ h => ⟨past, rfl, h⟩
  exact Meets.bind hended fun _ => Meets.pure fun _ => id

/-- A step of the closing after a failure: no motion and no look at the event. -/
def isClosingStep (step : Step) : Prop :=
  isEnded step = false ∧ isCheck step = false ∧ isMotion step = false ∧ passes step = false

/-- How a run ends: an attempt is over, cancelled with the event found set or not cancelled; only
the closing after a failure comes after it. -/
def Over (outcome : Outcome) (run : List Step) : Prop :=
  ∃ before after, run = before ++ ⟨.ended, ()⟩ :: after ∧ (∀ step ∈ after, isClosingStep step) ∧
    (outcome.cancelled = true ∧ Halted before ∧ after = [] ∨
      outcome.cancelled = false ∧ Loose before)

theorem meets_closeOnFailure (outcome : Outcome) :
    Meets (fun past => ∃ before, past = before ++ [⟨.ended, ()⟩] ∧ Finished outcome before)
      (closeOnFailure { outcome with retriable := false }) Over fun _ _ => False := by
  rw [closeOnFailure]
  split
  · refine Meets.pure fun past h => ?_
    obtain ⟨before, rfl, h⟩ := h
    refine ⟨before, [], rfl, List.forall_mem_nil _, ?_⟩
    obtain ⟨hcancelled, hhalted⟩ | ⟨hcancelled, hopen | ⟨hloose, -⟩⟩ := h
    · exact .inl ⟨hcancelled, hhalted, rfl⟩
    · exact .inr ⟨hcancelled, hopen.loose⟩
    · exact .inr ⟨hcancelled, hloose⟩
  · next hfailed =>
    simp only [Bool.or_eq_true, not_or, Bool.not_eq_true] at hfailed
    let ends (past : List Step) : Prop := ∃ before after,
      past = before ++ ⟨.ended, ()⟩ :: after ∧ (∀ step ∈ after, isClosingStep step) ∧ Loose before
    have happend : ∀ past step, ends past → isClosingStep step → ends (past ++ [step]) := by
      rintro _ step ⟨before, after, rfl, hafter, hloose⟩ hstep
      refine ⟨before, after ++ [step], ?_, fun other hother => ?_, hloose⟩
      · rw [List.append_assoc, List.cons_append]
      · obtain hother | hother := List.mem_append.mp hother
        · exact hafter other hother
        · rw [List.mem_singleton.mp hother]
          exact hstep
    have hlock : Only isClosingStep (call .lock) := only_call fun _ => ⟨rfl, rfl, rfl, rfl⟩
    have hclose : Only isClosingStep (call .closeGripper) := only_call fun _ => ⟨rfl, rfl, rfl, rfl⟩
    have hclosing : Meets ends (swallow (do
        call .lock
        call .closeGripper)) (fun _ => ends) fun _ _ => False :=
      Meets.tryCatch ((hlock.bind fun _ => hclose) ends happend) fun _ =>
        Meets.pure fun _ he => he.2
    refine Meets.bind (hclosing.mono (fun past h => ?_) (fun _ _ => id) fun _ _ => id)
      fun _ => Meets.pure fun past h => ?_
    · obtain ⟨before, rfl, ⟨hcancelled, -⟩ | ⟨-, hopen | ⟨hloose, -⟩⟩⟩ := h
      · exact absurd (hfailed.2.symm.trans hcancelled) (by decide)
      · exact ⟨before, [], rfl, List.forall_mem_nil _, hopen.loose⟩
      · exact ⟨before, [], rfl, List.forall_mem_nil _, hloose⟩
    · obtain ⟨before, after, rfl, hafter, hloose⟩ := h
      exact ⟨before, after, rfl, hafter, .inr ⟨hfailed.2, hloose⟩⟩

theorem meets_attempts (hopen : p.openDistance = true) (left attempt : ℕ) :
    Meets Open (attempts p left attempt) Over fun _ _ => False := by
  induction left generalizing attempt with
  | zero =>
    rw [attempts]
    refine Meets.bind (meets_graspAttempt hopen) fun outcome => ?_
    dsimp only
    split
    · exact meets_closeOnFailure { outcome with attempt := attempt }
    · exact meets_closeOnFailure { outcome with attempt := attempt }
  | succ left ih =>
    rw [attempts]
    refine Meets.bind (meets_graspAttempt hopen) fun outcome => ?_
    dsimp only
    split
    · exact meets_closeOnFailure { outcome with attempt := attempt }
    · next hagain =>
      simp only [Bool.or_eq_true, Bool.not_eq_true', not_or, Bool.not_eq_true,
        Bool.not_eq_false] at hagain
      refine (ih (attempt + 1)).mono (fun past h => ?_) (fun _ _ => id) fun _ _ => id
      obtain ⟨before, rfl, ⟨hcancelled, -⟩ | ⟨-, hopen | ⟨-, hretriable⟩⟩⟩ := h
      · exact absurd (hagain.1.2.symm.trans hcancelled) (by decide)
      · exact hopen.append (fun hanswer => by cases hanswer) rfl
      · exact absurd (hagain.2.symm.trans hretriable) (by decide)

/-- An opening distance that is none is refused before anything is asked. -/
theorem meets_attempts_refused (hopen : p.openDistance = false) (left attempt : ℕ) :
    Meets (fun past => past = []) (attempts p left attempt) Over fun _ past => past = [] := by
  have hrefused : Meets (fun past => past = []) (graspAttempt p) (fun _ _ => False)
      fun _ past => past = [] := by
    rw [graspAttempt, hopen]
    exact Meets.raise fun _ => id
  cases left with
  | zero =>
    rw [attempts]
    exact Meets.bind hrefused fun _ _ _ h => h.elim
  | succ left =>
    rw [attempts]
    exact Meets.bind hrefused fun _ _ _ h => h.elim

/-- How a grasp ends. -/
theorem over_runGraspOnce :
    Meets (fun past => past = []) (runGraspOnce p) Over fun _ past => past = [] := by
  have hrefused : ∀ failure, Meets (fun past => past = []) (do
      ended
      pure (Outcome.failed failure)) Over fun _ past => past = [] := by
    intro failure
    have hended : Meets (fun past => past = []) ended
        (fun _ past => past = [⟨.ended, ()⟩]) fun _ past => past = [] :=
      Meets.ask fun past _ hpast => by
        rw [hpast]
        rfl
    refine Meets.bind hended fun _ => Meets.pure fun past hpast => ?_
    exact ⟨[], [], hpast, List.forall_mem_nil _, .inr ⟨rfl, open_nil.loose⟩⟩
  have hattempts : Meets (fun past => past = []) (attempts p p.retries.toNat 1) Over
      fun _ past => past = [] := by
    cases hopen : p.openDistance with
    | true =>
      exact (meets_attempts hopen _ 1).mono (fun past hpast => hpast ▸ open_nil)
        (fun _ _ => id) fun _ _ => False.elim
    | false => exact meets_attempts_refused hopen _ 1
  rw [runGraspOnce]
  split
  · exact hrefused _
  · split
    · exact hrefused _
    · split
      · exact hrefused _
      · exact hattempts

/-! ### Putting down -/

theorem armed_moveTo (waypoint : Waypoint) : Armed (moveTo waypoint) :=
  (meets_moveTo waypoint).mono (fun _ => id) (fun reached _ h => by
    cases reached with
    | true => exact h
    | false => exact h.1) fun _ _ he => err_of_plain he.1 he.2

theorem quiet_opening : Quiet (swallow (call .gripperOpening)) :=
  Only.swallow (quiet_call fun _ => rfl)

theorem calm_openAgain (holding : Option Bool) : Calm (openAgain holding) := by
  rw [openAgain]
  split
  · exact quiet_openLocked.calm.bind fun _ => (quiet_gripperHolding _).calm
  · exact calm_pure _

variable {d : PutDownParams}

/-- The way back follows a wait or a motion that was none. -/
theorem calm_retreat : Calm (retreat d) := by
  have hback : Armed (do
      let retreated ← moveTo .approach
      onlyIf retreated (settle d.moveDuration)) :=
    armed_moveTo_bind ((calm_settle _).onlyIf _) ((calm_settle _).onlyIf _).armed
  refine Meets.bind meets_checkCancel fun _ => armed_moveTo_bind ?_ hback
  have hlong : 0 < max (4 / 5) (d.moveDuration * (1 / 2)) := lt_max_of_lt_left (by decide +kernel)
  exact Meets.bind (meets_settle hlong) fun _ => hback

/-- The closing at the end is commanded without a check, and none comes after it. -/
theorem meets_restClose :
    Meets Open (swallow (do
      call .lock
      let _ ← armGrasp false)) (fun _ => Loose) Err := by
  have hclosing : Meets Loose (do
      call .lock
      let _ ← armGrasp false) (fun _ => Loose) fun _ => Loose :=
    Meets.bind (meets_call (fun past _ h => h.append rfl) fun past _ _ h _ => h.append rfl)
      fun _ => Meets.bind
        (meets_call (fun past _ h => h.append rfl) fun past _ _ h _ => h.append rfl)
        fun _ => Meets.pure fun _ => id
  exact Meets.tryCatch (hclosing.mono (fun _ => Open.loose) (fun _ _ => id) fun _ _ => id)
    fun _ => Meets.pure fun _ => id

theorem meets_putDownBody :
    Meets Open (putDownBody d) (fun outcome past => outcome.cancelled = false ∧ Loose past)
      Err := by
  refine Meets.bind quiet_geometry.calm fun _ => Meets.bind meets_checkCancel fun _ =>
    meets_goThere ?_
  refine Meets.bind meets_checkCancel fun _ => Meets.bind (armed_moveTo .place) fun placed =>
    Meets.bind ((calm_return rfl).onlyIf _) fun _ => Meets.bind (calm_settle _) fun _ => ?_
  refine Meets.bind calm_checkCancel fun _ => Meets.bind quiet_openLocked.calm fun _ =>
    Meets.bind (quiet_gripperHolding _).calm fun holding =>
      Meets.bind (calm_openAgain holding) fun holding => Meets.bind quiet_opening.calm fun _ =>
        Meets.bind ((calm_return rfl).onlyIf _) fun _ => Meets.bind calm_retreat fun _ => ?_
  refine Meets.bind meets_checkCancel fun _ => meets_goThere ?_
  exact Meets.bind meets_restClose fun _ => Meets.pure fun _ h => ⟨rfl, h⟩

theorem meets_putDownHandler (exn : Exn) :
    Meets (Err exn) (putDownHandler exn) Finished fun _ _ => False := by
  cases exn with
  | returned outcome => exact Meets.pure fun _ => .inr
  | graspCancelled => exact Meets.pure fun _ h => .inl ⟨rfl, h⟩
  | typeError | other => exact Meets.pure fun _ h => .inr ⟨rfl, .inl h⟩

/-- How a put-down ends. -/
theorem over_runPutDownOnce :
    Meets (fun past => past = []) (runPutDownOnce d) Over fun _ past => past = [] := by
  let closed (outcome : Outcome) (past : List Step) : Prop :=
    outcome.cancelled = true ∧ Halted past ∨ outcome.cancelled = false ∧ Loose past
  have hbody : Meets Open ((putDownBody d).tryCatch putDownHandler) closed fun _ _ => False := by
    refine Meets.tryCatch (meets_putDownBody.mono (fun _ => id) (fun _ _ => .inr) fun _ _ => id)
      fun exn => (meets_putDownHandler exn).mono (fun _ => id) (fun _ _ h => ?_) fun _ _ => id
    exact h.imp id fun h => ⟨h.1, h.2.elim Open.loose And.left⟩
  rw [runPutDownOnce]
  split
  · refine Meets.bind (hbody.mono (fun _ hpast => hpast ▸ open_nil) (fun _ _ => id)
      fun _ _ => False.elim) fun outcome => ?_
    have hended : Meets (closed outcome) ended (fun _ => Over outcome) fun _ past => past = [] :=
      Meets.ask fun past _ h => by
        refine ⟨past, [], rfl, List.forall_mem_nil _, ?_⟩
        exact h.imp (fun h => ⟨h.1, h.2, rfl⟩) id
    exact Meets.bind hended fun _ => Meets.pure fun _ => id
  · exact Meets.raise fun _ => id

/-! ### Runs -/

theorem mem_drop_iff {α : Type} {l : List α} {n : ℕ} {a : α} :
    a ∈ l.drop n ↔ ∃ before after, l = before ++ a :: after ∧ n ≤ before.length := by
  constructor
  · intro h
    obtain ⟨before, after, heq⟩ := List.append_of_mem h
    have hlt : n < l.length := by
      by_contra hge
      rw [List.drop_eq_nil_of_le (by omega)] at h
      cases h
    refine ⟨l.take n ++ before, after, ?_, ?_⟩
    · rw [List.append_assoc, ← heq, List.take_append_drop]
    · rw [List.length_append, List.length_take]
      omega
  · rintro ⟨before, after, rfl, hle⟩
    rw [List.drop_append_of_le_length hle]
    exact List.mem_append_right _ List.mem_cons_self

/-- Where no two of a kind follow one another there is at most one. -/
theorem length_filter_le_one {α : Type} {kind : α → Bool} {l : List α}
    (h : ∀ before a after, l = before ++ a :: after → kind a = true →
      ∀ b ∈ after, kind b = false) : (l.filter kind).length ≤ 1 := by
  induction l with
  | nil => exact Nat.zero_le _
  | cons a l ih =>
    cases ha : kind a with
    | true =>
      have hnone : l.filter kind = [] :=
        List.filter_eq_nil_iff.mpr fun b hb => by
          rw [h [] a l rfl ha b hb]
          exact Bool.false_ne_true
      rw [List.filter_cons_of_pos ha, hnone]
      exact Nat.le_refl 1
    | false =>
      rw [List.filter_cons_of_neg (by rw [ha]; exact Bool.false_ne_true)]
      exact ih fun before b after heq => h (a :: before) b after (by rw [heq, List.cons_append])

variable {answers : ℕ → (q : Query) → Answer q} {moment : ℕ} {run before after : List Step}
  {step : Step}

/-- The answer to the question with this number. -/
theorem answer_eq (hhonest : Script.Honest (answersWith answers moment) run)
    (hrun : run = before ++ step :: after) :
    step.2 = answersWith answers moment before.length step.1 := by
  refine hhonest before.length step ?_
  rw [hrun, List.getElem?_append_right (Nat.le_refl _), Nat.sub_self]
  rfl

/-- `_check_cancel` finds the event set from the moment on, and only then. -/
theorem cancels_iff (hhonest : Script.Honest (answersWith answers moment) run)
    (hrun : run = before ++ step :: after) :
    cancels step = true ↔ isCheck step = true ∧ moment ≤ before.length := by
  have hanswer := answer_eq hhonest hrun
  obtain ⟨query, answer⟩ := step
  cases query with
  | check =>
    cases hanswer
    exact decide_eq_true_iff.trans (and_iff_right rfl).symm
  | _ =>
    refine iff_of_false ?_ fun h => ?_
    · intro h
      cases h
    · cases h.1

/-- The event is looked at and not set only before the moment. -/
theorem lt_of_passes (after : List Step)
    (hhonest : Script.Honest (answersWith answers moment) run)
    (hrun : run = before ++ step :: after) (h : passes step = true) : before.length < moment := by
  have hanswer := answer_eq hhonest hrun
  obtain ⟨query, answer⟩ := step
  cases query with
  | check | poll =>
    cases hanswer
    have hnot : decide (moment ≤ before.length) = false := (Bool.not_eq_true' _).mp h
    exact not_le.mp (of_decide_eq_false hnot)
  | _ => cases h

/-- Where every command before the event was found set had passed its check, at most one of them
is after the moment. -/
theorem motions_le_one (hhonest : Script.Honest (answersWith answers moment) run)
    (hfresh : ∀ before step after, run = before ++ step :: after → moment ≤ before.length →
      isMotion step = true → Fresh before) :
    ((run.drop moment).filter isMotion).length ≤ 1 := by
  refine length_filter_le_one fun before first after heq hfirst second hsecond => ?_
  by_contra hmotion
  rw [Bool.not_eq_false] at hmotion
  obtain ⟨between, rest, rfl⟩ := List.append_of_mem hsecond
  have hlength : moment ≤ run.length := by
    by_contra hlt
    rw [List.drop_eq_nil_of_le (by omega)] at heq
    cases before <;> cases heq
  have hrun : run = (run.take moment ++ before ++ first :: between) ++ second :: rest := by
    rw [List.append_assoc, List.append_assoc, List.cons_append, ← heq, List.take_append_drop]
  have htake : (run.take moment).length = moment := by
    rw [List.length_take]
    omega
  obtain ⟨past, look, others, hpast, hpasses, hidle⟩ := hfresh _ second rest hrun
    (by rw [List.length_append, List.length_append, htake]; omega) hmotion
  -- the look is before the moment, so that the first motion is between it and the second
  have hlook : past.length < moment := by
    refine lt_of_passes (others ++ second :: rest) hhonest ?_ hpasses
    rw [hrun, hpast, List.append_assoc, List.cons_append]
  have hmem : first ∈ others := by
    obtain ⟨as, hlonger, -⟩ | ⟨bs, hsplit, hrest⟩ := List.append_eq_append_iff.mp hpast
    · rw [hlonger, List.length_append, List.length_append, htake] at hlook
      omega
    · cases bs with
      | nil =>
        rw [List.append_nil] at hsplit
        rw [← hsplit, List.length_append, htake] at hlook
        omega
      | cons other bs =>
        obtain ⟨-, rfl⟩ := List.cons_eq_cons.mp hrest
        exact List.mem_append_right _ List.mem_cons_self
  have hnot := not_isCommand_of_idle (hidle first hmem)
  rw [isCommand, hfirst] at hnot
  cases hnot

/-- The closing after a failure has no check of its own: the end of the attempt lies between. -/
theorem not_fresh_of_ended {before after : List Step}
    (hafter : ∀ step ∈ after, isClosingStep step) :
    ¬ Fresh (before ++ ⟨.ended, ()⟩ :: after) := by
  rintro ⟨past, look, others, heq, hpasses, hidle⟩
  obtain ⟨as, rfl, hrest⟩ | ⟨bs, rfl, hrest⟩ := List.append_eq_append_iff.mp heq
  · cases as with
    | nil =>
      obtain ⟨rfl, -⟩ := List.cons_eq_cons.mp hrest
      cases hpasses
    | cons other as =>
      obtain ⟨-, rfl⟩ := List.cons_eq_cons.mp hrest
      have hlook := (hafter look (List.mem_append_right _ List.mem_cons_self)).2.2.2
      rw [hlook] at hpasses
      cases hpasses
  · cases bs with
    | nil =>
      obtain ⟨rfl, -⟩ := List.cons_eq_cons.mp hrest
      cases hpasses
    | cons other bs =>
      obtain ⟨-, rfl⟩ := List.cons_eq_cons.mp hrest
      have hended := hidle _ (List.mem_append_right bs List.mem_cons_self)
      cases hended

/-- What comes after the moment comes after the end of the last attempt, if that end does not. -/
theorem split_of_not_ended {past rest : List Step} (hrun : run = before ++ ⟨.ended, ()⟩ :: after)
    (hnone : ∀ step ∈ run.drop moment, isEnded step = false) (heq : run = past ++ step :: rest)
    (hmoment : moment ≤ past.length) :
    ∃ as, past = before ++ ⟨.ended, ()⟩ :: as ∧ (∀ other ∈ as, other ∈ after) ∧ step ∈ after := by
  have hlt : before.length < moment := by
    by_contra hge
    have hmem : (⟨.ended, ()⟩ : Step) ∈ run.drop moment :=
      mem_drop_iff.mpr ⟨before, after, hrun, not_lt.mp hge⟩
    cases hnone _ hmem
  obtain ⟨as, rfl, hrest⟩ | ⟨bs, rfl, -⟩ := List.append_eq_append_iff.mp (hrun.symm.trans heq)
  · cases as with
    | nil =>
      rw [List.append_nil] at hmoment
      omega
    | cons other as =>
      obtain ⟨rfl, rfl⟩ := List.cons_eq_cons.mp hrest
      exact ⟨as, rfl, fun other hother => List.mem_append_left _ hother,
        List.mem_append_right _ List.mem_cons_self⟩
  · rw [List.length_append] at hlt
    omega

/-- Where nothing is commanded after the discipline has been kept, every command has passed its
check. -/
theorem Open.fresh {pre tail past rest : List Step} (hopen : Open pre)
    (htail : ∀ step ∈ tail, isCommand step = false) (heq : pre ++ tail = past ++ step :: rest)
    (hcommand : isCommand step = true) : Fresh past := by
  obtain ⟨as, rfl, hrest⟩ | ⟨bs, rfl, hrest⟩ := List.append_eq_append_iff.mp heq
  · have hmem : step ∈ tail := by
      rw [hrest]
      exact List.mem_append_right _ List.mem_cons_self
    rw [htail step hmem] at hcommand
    cases hcommand
  · cases bs with
    | nil =>
      have hmem : step ∈ tail := by
        rw [← List.nil_append tail, ← hrest]
        exact List.mem_cons_self
      rw [htail step hmem] at hcommand
      cases hcommand
    | cons other bs =>
      obtain ⟨rfl, -⟩ := List.cons_eq_cons.mp hrest
      exact hopen.1 past step bs rfl hcommand

theorem not_isCommand_of_cancels (h : cancels step = true) : isCommand step = false := by
  obtain ⟨query, answer⟩ := step
  cases query with
  | check => rfl
  | _ => cases h

/-- **A run that has ended** stops exactly where `_check_cancel` is reached after the moment, or
neither the end of an attempt nor a closing of the gripper is. -/
theorem stopped_iff_of_over {outcome : Outcome}
    (hhonest : Script.Honest (answersWith answers moment) run) (hover : Over outcome run) :
    Stopped run moment (.ok outcome) ↔ StopsInTime run moment := by
  obtain ⟨before, after, hrun, hafter, hend⟩ := hover
  -- a `_check_cancel` after the moment finds the event set, and then all is as it should be
  have hchecked : (∃ step ∈ run.drop moment, isCheck step = true) →
      Stopped run moment (.ok outcome) := by
    rintro ⟨found, hmem, hcheck⟩
    obtain ⟨past, rest, hsplit, hmoment⟩ := mem_drop_iff.mp hmem
    have hcancels := (cancels_iff hhonest hsplit).mpr ⟨hcheck, hmoment⟩
    have hbefore : found ∈ before := by
      have hfound : found ∈ before ++ (⟨.ended, ()⟩ :: after : List Step) := by
        rw [← hrun, hsplit]
        exact List.mem_append_right _ List.mem_cons_self
      obtain hfound | hfound := List.mem_append.mp hfound
      · exact hfound
      · obtain rfl | hfound := List.mem_cons.mp hfound
        · cases hcheck
        · rw [(hafter found hfound).2.1] at hcheck
          cases hcheck
    obtain ⟨hcancelled, ⟨pre, last, post, hhalted, hopen, hlast, hpost⟩, rfl⟩ | ⟨-, hloose⟩ := hend
    · have htail : ∀ step ∈ (last :: post) ++ [(⟨.ended, ()⟩ : Step)], isCommand step = false := by
        intro step hstep
        obtain hstep | hstep := List.mem_append.mp hstep
        · obtain rfl | hstep := List.mem_cons.mp hstep
          · exact not_isCommand_of_cancels hlast
          · exact (hpost step hstep).1
        · rw [List.mem_singleton.mp hstep]
          rfl
      have hfresh : ∀ past step rest, run = past ++ step :: rest → isCommand step = true →
          Fresh past := by
        intro past step rest heq hcommand
        have hparts : pre ++ ((last :: post) ++ [(⟨.ended, ()⟩ : Step)]) = past ++ step :: rest := by
          rw [← heq, hrun, hhalted, List.append_assoc]
        exact hopen.fresh htail hparts hcommand
      have hmotion : ∀ past step rest, run = past ++ step :: rest → moment ≤ past.length →
          isMotion step = true → Fresh past := fun past step rest heq _ h =>
        hfresh past step rest heq (by rw [isCommand, h]; rfl)
      exact ⟨motions_le_one hhonest hmotion, hmotion,
        fun past step rest heq _ h => hfresh past step rest heq (by rw [isCommand, h, Bool.or_true]),
        fun _ heq => by cases heq; exact .inl hcancelled⟩
    · obtain ⟨pre, post, rfl, hopen, hpost⟩ := hloose
      obtain hfound | hfound := List.mem_append.mp hbefore
      · rw [hopen.2 found hfound] at hcancels
        cases hcancels
      · rw [hpost found hfound] at hcheck
        cases hcheck
  constructor
  · intro hstopped
    by_cases hcheck : ∃ step ∈ run.drop moment, isCheck step = true
    · exact .inl hcheck
    · obtain hcancelled | hnone := hstopped.cancelled outcome rfl
      · obtain ⟨-, ⟨pre, last, post, rfl, -, hlast, -⟩, rfl⟩ | ⟨hnot, -⟩ := hend
        · rw [List.append_assoc, List.cons_append] at hrun
          obtain ⟨hischeck, hmoment⟩ := (cancels_iff hhonest hrun).mp hlast
          exact absurd ⟨last, mem_drop_iff.mpr ⟨pre, _, hrun, hmoment⟩, hischeck⟩ hcheck
        · exact absurd (hnot.symm.trans hcancelled) (by decide)
      · refine .inr fun step hstep => ⟨hnone step hstep, ?_⟩
        by_contra hclosing
        rw [Bool.not_eq_false] at hclosing
        obtain ⟨past, rest, heq, hmoment⟩ := mem_drop_iff.mp hstep
        obtain ⟨as, rfl, hsub, -⟩ := split_of_not_ended hrun hnone heq hmoment
        exact not_fresh_of_ended (fun other hother => hafter other (hsub other hother))
          (hstopped.closing _ step rest heq hmoment hclosing)
  · rintro (hcheck | hquiet)
    · exact hchecked hcheck
    · have hnone : ∀ step ∈ run.drop moment, isEnded step = false :=
        fun step hstep => (hquiet step hstep).1
      have hmotion : ∀ step ∈ run.drop moment, isMotion step = false := by
        intro step hstep
        obtain ⟨past, rest, heq, hmoment⟩ := mem_drop_iff.mp hstep
        obtain ⟨-, -, -, hmem⟩ := split_of_not_ended hrun hnone heq hmoment
        exact (hafter step hmem).2.2.1
      refine ⟨?_, fun past step rest heq hmoment h => ?_, fun past step rest heq hmoment h => ?_,
        fun _ _ => .inr hnone⟩
      · rw [List.filter_eq_nil_iff.mpr fun step hstep => by
          rw [hmotion step hstep]
          exact Bool.false_ne_true]
        exact Nat.zero_le 1
      · rw [hmotion step (mem_drop_iff.mpr ⟨past, rest, heq, hmoment⟩)] at h
        cases h
      · rw [(hquiet step (mem_drop_iff.mpr ⟨past, rest, heq, hmoment⟩)).2] at h
        cases h

/-- A call that raises before it asks anything stops in any case. -/
theorem stopped_nil (result : Except Exn Outcome) :
    Stopped [] moment result ↔ StopsInTime [] moment := by
  have hsplit : ∀ {before : List Step} {step : Step} {after : List Step},
      [] = before ++ step :: after → False := by
    intro before step after h
    cases before <;> cases h
  refine ⟨fun _ => .inr ?_, fun _ => ⟨?_, ?_, ?_, fun _ _ => .inr ?_⟩⟩
  · rw [List.drop_nil]
    exact List.forall_mem_nil _
  · rw [List.drop_nil]
    exact Nat.zero_le 1
  · exact fun _ _ _ h => (hsplit h).elim
  · exact fun _ _ _ h => (hsplit h).elim
  · rw [List.drop_nil]
    exact List.forall_mem_nil _

/-- The run of a grasp. -/
def graspRun (p : Params) (answers : ℕ → (q : Query) → Answer q) (moment : ℕ) :
    Except Exn Outcome × List Step :=
  (runGraspOnce p).run (answersWith answers moment) []

/-- The run of a put-down. -/
def putDownRun (d : PutDownParams) (answers : ℕ → (q : Query) → Answer q) (moment : ℕ) :
    Except Exn Outcome × List Step :=
  (runPutDownOnce d).run (answersWith answers moment) []

/-- The run of the thread that captures during a grasp. -/
def captureRun (p : Params) (answers : ℕ → (q : Query) → Answer q) (moment : ℕ) :
    Except Exn (Option (Option Grasp)) × List Step :=
  (bgCapture p).run (answersWith answers moment) []

/-- A run from the start, of a script that ends like these. -/
theorem stopped_iff_of_meets {x : Pipe Outcome}
    (h : Meets (fun past => past = []) x Over fun _ past => past = []) :
    Stopped (x.run (answersWith answers moment) []).2 moment
        (x.run (answersWith answers moment) []).1 ↔
      StopsInTime (x.run (answersWith answers moment) []).2 moment := by
  have hhonest := Script.honest_run x (Script.honest_nil (answersWith answers moment))
  have hover := h (answersWith answers moment) [] rfl
  split at hover
  · next outcome run heq =>
    rw [heq] at hhonest ⊢
    exact stopped_iff_of_over hhonest hover
  · next exn run heq =>
    rw [heq, hover]
    exact stopped_nil _

/-! ### The thread -/

/-- A part that commands nothing, whatever it raises. -/
abbrev Tame {α : Type} (x : Pipe α) : Prop :=
  Meets (fun past => ∀ step ∈ past, isCommand step = false) x
    (fun _ past => ∀ step ∈ past, isCommand step = false)
    fun _ past => ∀ step ∈ past, isCommand step = false

theorem not_isCommand_append {past : List Step} (h : ∀ step ∈ past, isCommand step = false)
    (hstep : isCommand step = false) : ∀ other ∈ past ++ [step], isCommand other = false := by
  intro other hother
  obtain hother | hother := List.mem_append.mp hother
  · exact h other hother
  · rw [List.mem_singleton.mp hother]
    exact hstep

theorem Quiet.tame {α : Type} {x : Pipe α} (h : Quiet x) : Tame x :=
  (h _ fun _ _ hpast hkind => not_isCommand_append hpast hkind.1).mono (fun _ => id)
    (fun _ _ => id) fun _ _ he => he.2

theorem tame_checkCancel : Tame checkCancel := by
  have hcheck : Tame check := Meets.ask fun past isSet h => not_isCommand_append h rfl
  refine Meets.bind hcheck fun isSet => ?_
  cases isSet with
  | true =>
    exact Meets.bind (Quiet.tame (Only.swallow (quiet_call fun _ => rfl))) fun _ =>
      Meets.raise fun _ => id
  | false => exact Meets.pure fun _ => id

theorem tame_frames (n : ℕ) (bests : List Grasp) (seen : Bool) : Tame (frames p n bests seen) := by
  induction n generalizing bests seen with
  | zero => exact Meets.pure fun _ => id
  | succ n ih =>
    refine Meets.bind tame_checkCancel fun _ => Meets.bind quiet_getFrame.tame fun got => ?_
    split
    · refine Meets.bind quiet_detect.tame fun grasps =>
        Meets.bind (quiet_noteTooWide grasps seen).tame fun seen =>
          Meets.bind (quiet_frameBest grasps).tame fun best =>
            Meets.bind (quiet_frameSink p.frameSink).tame fun _ => ?_
      cases best with
      | none => exact ih _ _
      | some best =>
        dsimp only
        split
        · exact Meets.pure fun _ => id
        · exact ih _ _
    · exact ih _ _

/-- The thread commands nothing, whenever the event is set. -/
theorem captureRun_tame : ∀ step ∈ (captureRun p answers moment).2, isCommand step = false := by
  have hcapture : Tame (captureAndDetect p false) := by
    refine Meets.bind (quiet_warmUp _).tame fun _ => Meets.bind quiet_upHint.tame fun _ =>
      Meets.bind (tame_frames _ _ _) fun ⟨first, bests, seen⟩ => ?_
    match first, bests with
    | some best, _ => exact Meets.pure fun _ => id
    | none, [] => exact Meets.pure fun _ => id
    | none, [best] => exact Meets.pure fun _ => id
    | none, _ :: _ :: _ => exact (quiet_aggregate seen).tame
  have hthread : Tame (bgCapture p) :=
    Meets.tryCatch (Meets.bind hcapture fun ⟨best, _⟩ => Meets.pure fun _ => id) fun _ =>
      Meets.pure fun _ => id
  have hrun := hthread (answersWith answers moment) []
    (List.forall_mem_nil _)
  rw [captureRun]
  split at hrun
  · next heq =>
    rw [heq]
    exact hrun
  · next heq =>
    rw [heq]
    exact hrun

/-! ### Every run -/

/-- **Stop means stop** exactly in the runs that reach `_check_cancel` after the moment, or neither
the end of an attempt nor a closing of the gripper; and the thread that captures during a grasp
commands nothing. -/
theorem stopped_iff (answers : ℕ → (q : Query) → Answer q) (moment : ℕ) :
    (∀ p, (Stopped (graspRun p answers moment).2 moment (graspRun p answers moment).1 ↔
        StopsInTime (graspRun p answers moment).2 moment) ∧
      ∀ step ∈ (captureRun p answers moment).2, isCommand step = false) ∧
    ∀ d, Stopped (putDownRun d answers moment).2 moment (putDownRun d answers moment).1 ↔
      StopsInTime (putDownRun d answers moment).2 moment :=
  ⟨fun _ => ⟨stopped_iff_of_meets over_runGraspOnce, captureRun_tame⟩,
    fun _ => stopped_iff_of_meets over_runPutDownOnce⟩

/-- A grasp with the default settings and no poses to scan. -/
def table : Params where
  segmenter := true
  camera := true
  handEye := true
  openDistance := true
  scanPoses := 0
  moveDuration := 2
  warmUpFrames := 5
  detectFrames := 3
  retries := 1
  plausibleBox := false
  adaptiveForce := false
  reobserve := true
  servoCorrect := true
  releaseAfter := false
  frameSink := false
  earlyOut := false
  wideboxOrbit := false
  hasCheckIk := true

/-- A camera that gives no frame. -/
def noFrames (_ : ℕ) : (q : Query) → Answer q
  | .poll | .check => false
  | .rounds => 0
  | .captured => none
  | .ended => ()
  | .device device => .ok (match device with
    | .frame | .checkIk | .judge _ | .moveTo _ | .grasp _ => false
    | .detect => []
    | .select | .aggregate | .isHolding => none
    | .spillTilts => 0
    | .warmUp | .frameSink | .lock | .tcpPose | .geometry | .startThread | .joinThread
    | .openGripper | .closeGripper | .gripperOpening => ())

/-- The event is set while the last frame is taken: nothing is found, and the gripper closes. -/
theorem closes_after_stop : ¬ ∀ p answers moment,
    Stopped (graspRun p answers moment).2 moment (graspRun p answers moment).1 := by
  intro hall
  obtain hcancelled | hnone := (hall table noFrames 10).cancelled _ rfl
  · cases hcancelled
  · exact absurd (hnone ⟨.ended, ()⟩ (.head _)) (by decide)

end OpenVoiceStream.Arm.Pipeline
