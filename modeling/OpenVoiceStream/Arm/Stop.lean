import OpenVoiceStream.Arm.Pipeline
import Mathlib.Data.List.Basic

/-!
# Stop means stop

The event may be set at any moment of a grasp or a put-down. A run is its list of questions and
answers; the moment is the number of questions that have been asked before.

A command has passed its check where the event was looked at directly before it, with nothing in
between but looks at the pose and at what can be reached.

## Main definitions

* `Stopped` — what is asked of a run after the moment.
* `StopsInTime` — `_check_cancel` is reached after the moment, or neither the end of an attempt
  nor a closing of the gripper is.

## Main results

* `meets_call`, `meets_checkCancel`, `calm_check_bind` — the rules of calls and checks.
-/

namespace OpenVoiceStream.Arm.Pipeline

open Script (Event Meets)

/-! ### What is seen of a run -/

/-- A question with its answer. -/
abbrev Step := Event Answer

/-- The event has been looked at and was not set. -/
def passes : Step → Bool
  | ⟨.poll, isSet⟩ | ⟨.check, isSet⟩ => !(show Bool from isSet)
  | _ => false

/-- `_check_cancel`. -/
def isCheck : Step → Bool
  | ⟨.check, _⟩ => true
  | _ => false

/-- `_check_cancel` that finds the event set. -/
def cancels : Step → Bool
  | ⟨.check, isSet⟩ => isSet
  | _ => false

/-- A motion is commanded; a pose that cannot be reached is none. -/
def isMotion : Step → Bool
  | ⟨.device (.moveTo _), answer⟩ =>
    match (show Except Raised Bool from answer) with
    | .ok reached => reached
    | .error _ => true
  | _ => false

/-- The gripper is commanded to close; a call with an argument that the arm does not know is no
command. -/
def isClosing : Step → Bool
  | ⟨.device .closeGripper, _⟩ => true
  | ⟨.device (.grasp _), answer⟩ =>
    match (show Except Raised Bool from answer) with
    | .error .typeError => false
    | _ => true
  | _ => false

/-- The end of an attempt. -/
def isEnded : Step → Bool
  | ⟨.ended, _⟩ => true
  | _ => false

/-- A command to the arm or to close the gripper. -/
def isCommand (step : Step) : Bool := isMotion step || isClosing step

/-- A look at the pose or at what can be reached, or a command that is none. -/
def idle : Step → Bool
  | ⟨.device .lock, _⟩ | ⟨.device .tcpPose, _⟩ | ⟨.device .checkIk, _⟩
  | ⟨.device .spillTilts, _⟩ => true
  | ⟨.device (.moveTo waypoint), answer⟩ => !isMotion ⟨.device (.moveTo waypoint), answer⟩
  | ⟨.device (.grasp adaptive), answer⟩ => !isClosing ⟨.device (.grasp adaptive), answer⟩
  | _ => false

/-- The event has been looked at directly before. -/
def Fresh (past : List Step) : Prop :=
  ∃ before look between, past = before ++ look :: between ∧ passes look = true ∧
    ∀ step ∈ between, idle step = true

/-- The answers where the event is set before the question with this number. -/
def answersWith (answers : ℕ → (q : Query) → Answer q) (moment : ℕ) : ℕ → (q : Query) → Answer q
  | t, .poll => (decide (moment ≤ t) : Bool)
  | t, .check => (decide (moment ≤ t) : Bool)
  | t, .rounds => answers t .rounds
  | t, .captured => answers t .captured
  | t, .ended => answers t .ended
  | t, .device call => answers t (.device call)

/-- After the moment at most one motion is commanded; it and every closing of the gripper had
passed its check; and the result says so, unless the last attempt was over. -/
structure Stopped (run : List Step) (moment : ℕ) (result : Except Exn Outcome) : Prop where
  motions : ((run.drop moment).filter isMotion).length ≤ 1
  motion : ∀ before step after, run = before ++ step :: after → moment ≤ before.length →
    isMotion step = true → Fresh before
  closing : ∀ before step after, run = before ++ step :: after → moment ≤ before.length →
    isClosing step = true → Fresh before
  cancelled : ∀ outcome, result = .ok outcome → outcome.cancelled = true ∨
    ∀ step ∈ run.drop moment, isEnded step = false

/-- `_check_cancel` is reached after the moment, or neither the end of an attempt nor a closing of
the gripper is. -/
def StopsInTime (run : List Step) (moment : ℕ) : Prop :=
  (∃ step ∈ run.drop moment, isCheck step = true) ∨
    ∀ step ∈ run.drop moment, isEnded step = false ∧ isClosing step = false

/-! ### The discipline -/

/-- Every command has passed its check, and the event has not been found set. -/
def Open (past : List Step) : Prop :=
  (∀ before step after, past = before ++ step :: after → isCommand step = true → Fresh before) ∧
    ∀ step ∈ past, cancels step = false

/-- So it is, and the event has just been looked at. -/
def Ready (past : List Step) : Prop := Open past ∧ Fresh past

/-- The event has been found set, and nothing has been commanded since. -/
def Halted (past : List Step) : Prop :=
  ∃ before found after, past = before ++ found :: after ∧ Open before ∧ cancels found = true ∧
    ∀ step ∈ after, isCommand step = false ∧ isCheck step = false

/-- Every command up to some point had passed its check, and the event is not looked at by
`_check_cancel` from there. -/
def Loose (past : List Step) : Prop :=
  ∃ before after, past = before ++ after ∧ Open before ∧ ∀ step ∈ after, isCheck step = false

variable {past : List Step} {step : Step}

theorem fresh_of_passes (h : passes step = true) : Fresh (past ++ [step]) :=
  ⟨past, step, [], rfl, h, List.forall_mem_nil _⟩

theorem Fresh.idle (h : Fresh past) (hidle : idle step = true) : Fresh (past ++ [step]) := by
  obtain ⟨before, look, between, rfl, hpasses, hbetween⟩ := h
  refine ⟨before, look, between ++ [step], ?_, hpasses, fun other hother => ?_⟩
  · rw [List.append_assoc, List.cons_append]
  · obtain hother | hother := List.mem_append.mp hother
    · exact hbetween other hother
    · rw [List.mem_singleton.mp hother]
      exact hidle

/-- A look is no command. -/
theorem not_isCommand_of_idle (h : idle step = true) : isCommand step = false := by
  obtain ⟨query, answer⟩ := step
  cases query with
  | device device =>
    cases device with
    | moveTo waypoint =>
      rw [isCommand, (Bool.not_eq_true' _).mp h]
      rfl
    | grasp adaptive =>
      rw [isCommand, (Bool.not_eq_true' _).mp h]
      rfl
    | closeGripper => cases h
    | _ => rfl
  | _ => rfl

theorem not_isCheck_of_idle (h : idle step = true) : isCheck step = false := by
  obtain ⟨query, answer⟩ := step
  cases query with
  | check => cases h
  | _ => rfl

theorem not_cancels_of_not_isCheck (h : isCheck step = false) : cancels step = false := by
  obtain ⟨query, answer⟩ := step
  cases query with
  | check => cases h
  | _ => rfl

/-- One more step. -/
theorem Open.append (h : Open past) (hcommand : isCommand step = true → Fresh past)
    (hcancels : cancels step = false) : Open (past ++ [step]) := by
  refine ⟨fun before other after heq hother => ?_, fun other hother => ?_⟩
  · obtain rfl | ⟨after, last, rfl⟩ := after.eq_nil_or_concat
    · obtain ⟨rfl, hlast⟩ := List.append_inj' heq rfl
      cases hlast
      exact hcommand hother
    · rw [List.concat_eq_append, ← List.cons_append, ← List.append_assoc] at heq
      obtain ⟨hpast, -⟩ := List.append_inj' heq rfl
      exact h.1 before other after hpast hother
  · obtain hother | hother := List.mem_append.mp hother
    · exact h.2 other hother
    · rw [List.mem_singleton.mp hother]
      exact hcancels

theorem Ready.idle (h : Ready past) (hidle : idle step = true) : Ready (past ++ [step]) :=
  ⟨h.1.append (fun _ => h.2) (not_cancels_of_not_isCheck (not_isCheck_of_idle hidle)),
    h.2.idle hidle⟩

theorem open_nil : Open [] := by
  refine ⟨fun before step after h => ?_, List.forall_mem_nil _⟩
  cases before <;> cases h

theorem Open.loose (h : Open past) : Loose past :=
  ⟨past, [], (List.append_nil past).symm, h, List.forall_mem_nil _⟩

theorem Loose.append (h : Loose past) (hcheck : isCheck step = false) :
    Loose (past ++ [step]) := by
  obtain ⟨before, after, rfl, hopen, hafter⟩ := h
  refine ⟨before, after ++ [step], (List.append_assoc ..), hopen, fun other hother => ?_⟩
  obtain hother | hother := List.mem_append.mp hother
  · exact hafter other hother
  · rw [List.mem_singleton.mp hother]
    exact hcheck

theorem Halted.append (h : Halted past) (hcommand : isCommand step = false)
    (hcheck : isCheck step = false) : Halted (past ++ [step]) := by
  obtain ⟨before, found, after, rfl, hopen, hfound, hafter⟩ := h
  refine ⟨before, found, after ++ [step], ?_, hopen, hfound, fun other hother => ?_⟩
  · rw [List.append_assoc, List.cons_append]
  · obtain hother | hother := List.mem_append.mp hother
    · exact hafter other hother
    · rw [List.mem_singleton.mp hother]
      exact ⟨hcommand, hcheck⟩

/-! ### How the parts of the pipeline keep it -/

/-- What a call raises. -/
def Plain (exn : Exn) : Prop := exn = .typeError ∨ exn = .other

/-- What holds where something is raised or an attempt returns early. -/
def Err : Exn → List Step → Prop
  | .graspCancelled, past => Halted past
  | .typeError, past | .other, past => Open past
  | .returned outcome, past =>
    outcome.cancelled = false ∧ (Open past ∨ Loose past ∧ outcome.retriable = false)

theorem err_of_plain {exn : Exn} (h : Plain exn) (hopen : Open past) : Err exn past := by
  obtain rfl | rfl := h <;> exact hopen

/-- A part that keeps the discipline. -/
def Calm {α : Type} (x : Pipe α) : Prop := Meets Open x (fun _ => Open) Err

/-- A part that keeps it where the event has just been looked at. -/
def Armed {α : Type} (x : Pipe α) : Prop := Meets Ready x (fun _ => Open) Err

/-- A part whose steps are all of one kind: whatever such steps keep, it keeps. -/
def Only {α : Type} (kind : Step → Prop) (x : Pipe α) : Prop :=
  ∀ P : List Step → Prop, (∀ past step, P past → kind step → P (past ++ [step])) →
    Meets P x (fun _ => P) (fun exn past => Plain exn ∧ P past)

/-- A part that commands nothing and does not ask `_check_cancel`. -/
abbrev Quiet {α : Type} (x : Pipe α) : Prop :=
  Only (fun step => isCommand step = false ∧ isCheck step = false) x

/-- A part that only looks at the pose and at what can be reached. -/
abbrev Looks {α : Type} (x : Pipe α) : Prop := Only (fun step => idle step = true) x

variable {α β : Type} {x : Pipe α} {f : α → Pipe β}

theorem Calm.armed (h : Calm x) : Armed x := h.mono (fun _ hp => hp.1) (fun _ _ => id) fun _ _ => id

variable {kind : Step → Prop}

theorem Quiet.keepsOpen (h : Quiet x) :
    Meets Open x (fun _ => Open) fun exn past => Plain exn ∧ Open past :=
  h Open fun _ _ hopen hkind => hopen.append (fun hcommand => by
    rw [hkind.1] at hcommand
    cases hcommand) (not_cancels_of_not_isCheck hkind.2)

theorem Quiet.calm (h : Quiet x) : Calm x :=
  h.keepsOpen.mono (fun _ => id) (fun _ _ => id) fun _ _ he => err_of_plain he.1 he.2

theorem Looks.ready (h : Looks x) :
    Meets Ready x (fun _ => Ready) fun exn past => Plain exn ∧ Ready past :=
  h Ready fun _ _ => Ready.idle

theorem Looks.quiet (h : Looks x) : Quiet x :=
  fun P hP => h P fun past step hpast hidle =>
    hP past step hpast ⟨not_isCommand_of_idle hidle, not_isCheck_of_idle hidle⟩

theorem calm_pure (a : α) : Calm (pure a : Pipe α) := Meets.pure fun _ => id

theorem only_pure (a : α) : Only kind (pure a : Pipe α) := fun _ _ => Meets.pure fun _ => id

theorem Calm.bind (hx : Calm x) (hf : ∀ a, Calm (f a)) : Calm (x >>= f) := Meets.bind hx hf

theorem Only.bind (hx : Only kind x) (hf : ∀ a, Only kind (f a)) : Only kind (x >>= f) :=
  fun P hP => Meets.bind (hx P hP) fun a => hf a P hP

theorem Armed.bind (hx : Armed x) (hf : ∀ a, Calm (f a)) : Armed (x >>= f) := Meets.bind hx hf

/-- Looks between the check and the command. -/
theorem Looks.armed_bind (hx : Looks x) (hf : ∀ a, Armed (f a)) : Armed (x >>= f) :=
  Meets.bind (hx.ready.mono (fun _ => id) (fun _ _ => id)
    fun _ _ he => err_of_plain he.1 he.2.1) hf

theorem Only.catch (h : Only kind x) (a : α) : Only kind (x.tryCatch fun _ => pure a) :=
  fun P hP => Meets.tryCatch (h P hP) fun _ => Meets.pure fun _ he => he.2

theorem Only.swallow {x : Pipe Unit} (h : Only kind x) : Only kind (swallow x) := Only.catch h ()

theorem Only.onlyIf {x : Pipe Unit} (h : Only kind x) (condition : Bool) :
    Only kind (onlyIf condition x) := by
  rw [Pipeline.onlyIf]
  split
  · exact h
  · exact only_pure ()

theorem Calm.onlyIf {x : Pipe Unit} (h : Calm x) (condition : Bool) :
    Calm (onlyIf condition x) := by
  rw [Pipeline.onlyIf]
  split
  · exact h
  · exact calm_pure ()

/-- An early return of a failure. -/
theorem calm_return {outcome : Outcome} (h : outcome.cancelled = false) :
    Calm (.raise (.returned outcome) : Pipe α) :=
  Meets.raise fun _ hopen => ⟨h, .inl hopen⟩

/-! ### Calls -/

/-- The rule of a call: what holds after each answer. -/
theorem meets_call {device : Device} {P : List Step → Prop}
    {Q : device.Result → List Step → Prop} {E : Exn → List Step → Prop}
    (hok : ∀ past result, P past →
      Q result (past ++ [⟨.device device, (.ok result : Except Raised device.Result)⟩]))
    (herror : ∀ past raised exn, P past → Plain exn →
      E exn (past ++ [⟨.device device, (.error raised : Except Raised device.Result)⟩])) :
    Meets P (call device) Q E := by
  rw [call]
  refine Meets.bind (M := fun answer past => ∃ before, P before ∧
    past = before ++ [⟨.device device, answer⟩]) (Meets.ask fun past a hp => ⟨past, hp, rfl⟩) ?_
  intro answer
  cases answer with
  | ok result =>
    refine Meets.pure fun past hp => ?_
    obtain ⟨before, hbefore, rfl⟩ := hp
    exact hok before result hbefore
  | error raised =>
    cases raised with
    | typeError =>
      refine Meets.raise fun past hp => ?_
      obtain ⟨before, hbefore, rfl⟩ := hp
      exact herror before _ _ hbefore (.inl rfl)
    | other =>
      refine Meets.raise fun past hp => ?_
      obtain ⟨before, hbefore, rfl⟩ := hp
      exact herror before _ _ hbefore (.inr rfl)

/-- A call of one kind. -/
theorem only_call {device : Device} (h : ∀ answer, kind ⟨.device device, answer⟩) :
    Only kind (call device) :=
  fun _ hP => meets_call (fun past _ hpast => hP past _ hpast (h _))
    fun past _ _ hpast hplain => ⟨hplain, hP past _ hpast (h _)⟩

/-- A call that commands nothing. -/
theorem quiet_call {device : Device}
    (h : ∀ answer, isCommand ⟨.device device, answer⟩ = false) : Quiet (call device) :=
  only_call fun answer => ⟨h answer, rfl⟩

theorem looks_lock : Looks (call .lock) := only_call fun _ => rfl

theorem looks_readTcp : Looks readTcp := looks_lock.bind fun _ => only_call fun _ => rfl

theorem looks_checkIk : Looks checkIk := only_call fun _ => rfl

theorem quiet_openLocked : Quiet openLocked :=
  looks_lock.quiet.bind fun _ => quiet_call fun _ => rfl

/-- A motion that has passed its check; where the pose cannot be reached none is commanded. -/
theorem meets_moveTo (waypoint : Waypoint) :
    Meets Ready (moveTo waypoint) (fun reached past => if reached then Open past else Ready past)
      fun exn past => Plain exn ∧ Open past := by
  refine Meets.bind (looks_lock.ready.mono (fun _ => id) (fun _ _ => id) fun _ _ he => ⟨he.1, he.2.1⟩)
    fun _ => meets_call (fun past reached hready => ?_) fun past raised exn hready hplain => ?_
  · cases reached with
    | true => exact hready.1.append (fun _ => hready.2) rfl
    | false => exact ⟨hready.1.append (fun _ => hready.2) rfl, hready.2.idle rfl⟩
  · exact ⟨hplain, hready.1.append (fun _ => hready.2) rfl⟩

theorem armed_moveTo_bind {waypoint : Waypoint} {f : Bool → Pipe α} (hreached : Calm (f true))
    (hnot : Armed (f false)) : Armed (moveTo waypoint >>= f) := by
  refine Meets.bind ((meets_moveTo waypoint).mono (fun _ => id) (fun _ _ => id)
    fun _ _ he => err_of_plain he.1 he.2) fun reached => ?_
  cases reached with
  | true => exact hreached
  | false => exact hnot

/-- A grasp that has passed its check. -/
theorem armed_closeJaw (p : Params) : Armed (closeJaw p) := by
  have hplainGrasp : Armed (armGrasp false) := by
    refine meets_call (fun past held hready => ?_) fun past raised exn hready hplain => ?_
    · exact hready.1.append (fun _ => hready.2) rfl
    · exact err_of_plain hplain (hready.1.append (fun _ => hready.2) rfl)
  rw [closeJaw]
  by_cases hmode : p.adaptiveForce = true
  · -- an unknown argument is no command, so that the check still holds for the second call
    rw [if_pos hmode]
    have hadaptive : Meets Ready (armGrasp true) (fun _ => Open) fun exn past =>
        Plain exn ∧ Open past ∧ (exn = .typeError → Ready past) := by
      rw [armGrasp, call]
      refine Meets.bind (M := fun answer past => ∃ before, Ready before ∧
        past = before ++ [⟨.device (.grasp true), answer⟩])
        (Meets.ask fun past a hp => ⟨past, hp, rfl⟩) fun answer => ?_
      cases answer with
      | ok held =>
        refine Meets.pure fun past hp => ?_
        obtain ⟨before, hready, rfl⟩ := hp
        exact hready.1.append (fun _ => hready.2) rfl
      | error raised =>
        cases raised with
        | typeError =>
          refine Meets.raise fun past hp => ?_
          obtain ⟨before, hready, rfl⟩ := hp
          have hopen : Open (before ++ [⟨.device (.grasp true), .error .typeError⟩]) :=
            hready.1.append (fun _ => hready.2) rfl
          exact ⟨.inl rfl, hopen, fun _ => ⟨hopen, hready.2.idle rfl⟩⟩
        | other =>
          refine Meets.raise fun past hp => ?_
          obtain ⟨before, hready, rfl⟩ := hp
          exact ⟨.inr rfl, hready.1.append (fun _ => hready.2) rfl, fun hexn => by cases hexn⟩
    refine Meets.tryCatch hadaptive fun exn => ?_
    cases exn with
    | typeError => exact hplainGrasp.mono (fun _ he => he.2.2 rfl) (fun _ _ => id) fun _ _ => id
    | graspCancelled | other | returned =>
      exact Meets.raise fun past he => err_of_plain he.1 he.2.1
  · rw [if_neg hmode]
    exact hplainGrasp

/-! ### The event -/

/-- `_check_cancel` goes on where the event is not set. -/
theorem meets_checkCancel : Meets Open checkCancel (fun _ => Ready) Err := by
  refine Meets.bind (M := fun isSet past => if isSet then Halted past else Ready past)
    (Meets.ask fun past isSet hopen => ?_) fun isSet => ?_
  · cases (show Bool from isSet) with
    | true => exact ⟨past, _, [], rfl, hopen, rfl, List.forall_mem_nil _⟩
    | false => exact ⟨hopen.append (fun hanswer => by cases hanswer) rfl, fresh_of_passes rfl⟩
  · cases isSet with
    | true =>
      have hopening : Meets Halted (swallow (call .openGripper)) (fun _ => Halted) Err :=
        Meets.tryCatch (E := fun _ => Halted)
          (meets_call (fun past _ h => h.append rfl rfl) fun past _ _ h _ => h.append rfl rfl)
          fun _ => Meets.pure fun _ => id
      exact Meets.bind hopening fun _ => Meets.raise fun _ => id
    | false => exact Meets.pure fun _ => id

theorem calm_checkCancel : Calm checkCancel :=
  meets_checkCancel.mono (fun _ => id) (fun _ _ h => h.1) fun _ _ => id

/-- What comes after a check. -/
theorem calm_check_bind {f : Unit → Pipe α} (h : Armed (f ())) : Calm (checkCancel >>= f) :=
  Meets.bind meets_checkCancel fun _ => h

theorem quiet_poll : Quiet poll :=
  fun _ hP => Meets.ask fun past _ hpast => hP past _ hpast ⟨rfl, rfl⟩

theorem quiet_rounds : Quiet rounds :=
  fun _ hP => Meets.ask fun past _ hpast => hP past _ hpast ⟨rfl, rfl⟩

theorem quiet_waitMotionCancellable (duration : ℚ) : Quiet (waitMotionCancellable duration) := by
  have hloop : ∀ n, Quiet (sleepLoop n) := by
    intro n
    induction n with
    | zero => exact quiet_poll.bind fun _ => only_pure _
    | succ n ih =>
      refine quiet_poll.bind fun isSet => ?_
      cases isSet with
      | true => exact only_pure _
      | false => exact ih
  rw [waitMotionCancellable, sleepCancellable]
  split
  · exact only_pure _
  · exact quiet_rounds.bind hloop

theorem calm_settle (duration : ℚ) : Calm (settle duration) := by
  refine (quiet_waitMotionCancellable duration).calm.bind fun done => ?_
  cases done with
  | true => exact calm_pure ()
  | false => exact calm_checkCancel

/-- A wait that is not interrupted has just looked at the event. -/
theorem meets_sleepLoop (n : ℕ) :
    Meets Open (sleepLoop n) (fun done past => Open past ∧ (done = true → Fresh past)) Err := by
  have hpoll : Meets Open poll
      (fun isSet past => Open past ∧ (isSet = false → Fresh past)) Err := by
    refine Meets.ask fun past isSet hopen =>
      ⟨hopen.append (fun hanswer => by cases hanswer) rfl, fun hnot => ?_⟩
    refine fresh_of_passes ?_
    cases hnot
    rfl
  induction n with
  | zero =>
    refine Meets.bind hpoll fun isSet => Meets.pure fun past hp => ⟨hp.1, fun hdone => ?_⟩
    exact hp.2 (by simpa using hdone)
  | succ n ih =>
    refine Meets.bind hpoll fun isSet => ?_
    cases isSet with
    | true => exact Meets.pure fun past hp => ⟨hp.1, fun hanswer => by cases hanswer⟩
    | false => exact ih.mono (fun _ hp => hp.1) (fun _ _ => id) fun _ _ => id

/-- A wait for something has just looked at the event. -/
theorem meets_settle {duration : ℚ} (h : 0 < duration) :
    Meets Open (settle duration) (fun _ => Ready) Err := by
  have hwait : Meets Open (waitMotionCancellable duration)
      (fun done past => Open past ∧ (done = true → Fresh past)) Err := by
    rw [waitMotionCancellable, sleepCancellable, if_neg (not_le.mpr (lt_max_of_lt_right h))]
    exact Meets.bind quiet_rounds.calm meets_sleepLoop
  refine Meets.bind hwait fun done => ?_
  cases done with
  | true => exact Meets.pure fun past hp => ⟨hp.1, hp.2 rfl⟩
  | false => exact meets_checkCancel.mono (fun _ hp => hp.1) (fun _ _ => id) fun _ _ => id

end OpenVoiceStream.Arm.Pipeline
