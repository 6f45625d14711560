import OpenVoiceStream.Agent.AssistantDone.Once

/-!
# A turn comes to its end

A task that is at an event can always go on, and it has few steps to go: that many awaits
lie between where it stands and the end of the broadcast.  No step of anyone else adds one.

## Main results

* `rank_step` — every step of a task brings it closer to its end.
* `assistant_done_once` — every run of clean steps.
-/

namespace OpenVoiceStream.Agent.AssistantDone

/-! ### How far a task has to go -/

/-- How many steps are left of `_complete_assistant_turn`, at the most. -/
def Pc.rank : Pc → ℕ
  | .sleepHook => 6
  | .sleepTurn => 5
  | .sleepAbort => 4
  | .sleepStop => 3
  | .announcing => 2
  | .announced => 1

/-- How many steps are left of a task that waits. -/
def DrainPc.rank : DrainPc → ℕ
  | .waiting => 7
  | .finishing pc => pc.rank
  | .finished => 0

/-- Where the dispatch loop stands with the event. -/
def Dispatcher.rank (e : ℕ) : Dispatcher → ℕ
  | .completing e' pc => if e' = e then pc.rank else 0
  | .ready | .responding _ => 0

/-- Where the task of the event stands. -/
def App.drainPc (s : App) (e : ℕ) : DrainPc :=
  match s.drains e with
  | none => .finished
  | some d => d.pc

/-- How many steps are left of the tasks that are at the event. -/
def App.rank (s : App) (e : ℕ) : ℕ := s.dispatcher.rank e + (s.drainPc e).rank

/-- The step is one of a task that is at the event. -/
def Act.own (e : ℕ) (s : App) : Act → Bool
  | .dispatcherStep _ =>
    match s.dispatcher with
    | .completing e' _ => decide (e' = e)
    | .ready | .responding _ => false
  | .drainStep k _ _ => decide (k = e)
  | _ => false

/-- **A turn comes to its end.**  A task that is at the event can go on, whatever the others
have done, and it takes no more steps than its rank says. -/
structure Ends (cfg : Config) (s : App) (e : ℕ) : Prop where
  goesOn : s.Busy e → ∃ a, Act.own e s a = true ∧ ((machine cfg).step s a).isSome = true
  bounded : ∀ as t, (machine cfg).runFrom s as = some t →
    (machine cfg).count (Act.own e) s as + t.rank e ≤ s.rank e

/-- There is nothing left to do exactly when no task is at the event. -/
theorem rank_eq_zero_iff (s : App) (e : ℕ) : s.rank e = 0 ↔ ¬ s.Busy e := by
  have hpc : ∀ pc : Pc, 0 < pc.rank := fun pc => by cases pc <;> decide
  have hinline : s.dispatcher.rank e = 0 ↔ ∀ pc, s.dispatcher ≠ .completing e pc := by
    cases hdisp : s.dispatcher with
    | ready => simp [Dispatcher.rank]
    | responding toolOnly => simp [Dispatcher.rank]
    | completing e' pc =>
      have := hpc pc
      by_cases hee : e' = e
      · simp [Dispatcher.rank, hee]
        omega
      · simp [Dispatcher.rank, hee]
  have hdrain : (s.drainPc e).rank = 0 ↔ ∀ d, s.drains e = some d → d.pc = .finished := by
    unfold App.drainPc
    cases s.drains e with
    | none => simp [DrainPc.rank]
    | some d =>
      cases hd : d.pc with
      | waiting => simp [DrainPc.rank, hd]
      | finishing pc =>
        have := hpc pc
        simp [DrainPc.rank, hd]
        omega
      | finished => simp [DrainPc.rank, hd]
  rw [App.rank, Nat.add_eq_zero_iff, hinline, hdrain, App.Busy]
  simp only [not_or, not_exists, not_and, not_not, ne_eq]

/-! ### Steps of the others -/

variable {s t : App} {e k : ℕ}

theorem drainPc_congr (h : t.drains e = s.drains e) : t.drainPc e = s.drainPc e := by
  rw [App.drainPc, App.drainPc, h]

theorem drainPc_map {f : Drain → Drain} (hf : ∀ d, (f d).pc = d.pc)
    (h : t.drains e = (s.drains e).map f) : t.drainPc e = s.drainPc e := by
  rw [App.drainPc, App.drainPc, h]
  cases s.drains e with
  | none => rfl
  | some d => exact hf d

theorem drainPc_cancelDrain (s : App) (e : ℕ) : s.cancelDrain.drainPc e = s.drainPc e := by
  unfold App.cancelDrain
  cases s.current with
  | none => rfl
  | some k =>
    by_cases hek : e = k
    · subst hek
      exact drainPc_map Drain.cancel_pc (Function.update_self ..)
    · exact drainPc_congr (Function.update_of_ne hek _ _)

theorem drainPc_overtake (s : App) (e : ℕ) : s.overtake.drainPc e = s.drainPc e := by
  refine Eq.trans ?_ (drainPc_cancelDrain s e)
  refine drainPc_congr ?_
  unfold App.overtake App.cancelDrain
  cases s.current <;> rfl

theorem drainPc_setPlaying (s : App) (playing : Bool) (e : ℕ) :
    (s.setPlaying playing).drainPc e = s.drainPc e := by
  cases playing with
  | true => rfl
  | false => exact drainPc_map (f := fun d => { d with drained := true }) (fun _ => rfl) rfl

theorem drainPc_completeState (cfg : Config) (s : App) (e : ℕ) :
    (s.completeState cfg).drainPc e = s.drainPc e :=
  drainPc_congr (congrFun (keeps_completeState cfg s).2 e)

/-- The end of a handler is about another event. -/
theorem complete_rank (cfg : Config) (he : e < s.dispatched) :
    (s.complete cfg).dispatcher.rank e = 0 ∧ (s.complete cfg).drainPc e = s.drainPc e := by
  have hinline : ∀ {s : App}, e < s.dispatched →
      (s.completeInline cfg).dispatcher.rank e = 0 ∧
        (s.completeInline cfg).drainPc e = s.drainPc e := by
    intro s he
    exact ⟨if_neg (Nat.ne_of_gt he), drainPc_completeState cfg s e⟩
  have he' : e < s.overtake.dispatched := (keeps_overtake s).dispatched ▸ he
  unfold App.complete
  split
  · exact hinline he
  · rw [← drainPc_overtake s e]
    split
    · exact ⟨rfl, drainPc_congr (Function.update_of_ne (Nat.ne_of_lt he') _ _)⟩
    · exact hinline he'

theorem respond_rank (cfg : Config) (toolOnly : Bool) (he : e < s.dispatched) :
    (s.respond cfg toolOnly).dispatcher.rank e = 0 ∧
      (s.respond cfg toolOnly).drainPc e = s.drainPc e := by
  unfold App.respond
  split
  · exact ⟨rfl, rfl⟩
  · exact complete_rank cfg he

/-! ### Steps of the task -/

theorem nextSleep_rank (turn : Bool) (pc : Pc) (h : 3 < pc.rank) :
    (pc.nextSleep turn).rank < pc.rank := by
  cases pc <;> cases turn <;> revert h <;> decide

/-- The dispatch loop goes on with an event. -/
theorem completeStep_rank (s : App) (e k : ℕ) (turn : Bool) (pc : Pc) :
    (s.completeStep k turn pc).dispatcher.rank e + (if k = e then 1 else 0) ≤
        (Dispatcher.completing k pc).rank e ∧
      (s.completeStep k turn pc).drainPc e = s.drainPc e := by
  have hnext : ∀ pc', pc'.rank < pc.rank →
      (Dispatcher.completing k pc').rank e + (if k = e then 1 else 0) ≤
        (Dispatcher.completing k pc).rank e := by
    intro pc' h
    by_cases hke : k = e
    · simp only [Dispatcher.rank, if_pos hke]
      omega
    · simp [Dispatcher.rank, hke]
  cases pc with
  | sleepStop => exact ⟨hnext .announcing (by decide), drainPc_cancelDrain s e⟩
  | announcing => exact ⟨hnext .announced (by decide), rfl⟩
  | announced =>
    refine ⟨?_, rfl⟩
    rw [show (s.completeStep k turn .announced).dispatcher = .ready from rfl]
    by_cases hke : k = e <;> simp [Dispatcher.rank, Pc.rank, hke]
  | sleepHook => exact ⟨hnext _ (nextSleep_rank turn _ (by decide)), rfl⟩
  | sleepTurn => exact ⟨hnext _ (nextSleep_rank turn _ (by decide)), rfl⟩
  | sleepAbort => exact ⟨hnext _ (nextSleep_rank turn _ (by decide)), rfl⟩

theorem drainPc_of_some {d : Drain} (h : s.drains e = some d) : s.drainPc e = d.pc := by
  rw [App.drainPc, h]

/-- A task that waits is the only one that moves. -/
theorem setPc_drainPc {d : Drain} (hk : s.drains k = some d) (pc : DrainPc) :
    (s.setPc k pc).drainPc k = pc ∧ ∀ e ≠ k, (s.setPc k pc).drainPc e = s.drainPc e := by
  rw [← and_comm]
  refine ⟨fun e he => drainPc_congr (Function.update_of_ne he _ _), ?_⟩
  refine drainPc_of_some (d := { d with pc := pc }) ?_
  rw [setPc_drains hk, Function.update_self]

theorem raiseAt_drainPc {d : Drain} (hk : s.drains k = some d) (pc : DrainPc) :
    (s.raiseAt k pc).drainPc k = pc ∧ ∀ e ≠ k, (s.raiseAt k pc).drainPc e = s.drainPc e := by
  rw [← and_comm]
  refine ⟨fun e he => drainPc_congr (Function.update_of_ne he _ _), ?_⟩
  refine drainPc_of_some (d := { d with pc := pc, cancelled := false }) ?_
  rw [App.raiseAt, hk]
  exact Function.update_self ..

/-- What a step of a task that waits leaves to do. -/
structure Moves (s t : App) (k : ℕ) : Prop where
  dispatcher : t.dispatcher = s.dispatcher
  dispatched : t.dispatched = s.dispatched
  less : (t.drainPc k).rank < (s.drainPc k).rank
  other : ∀ e ≠ k, t.drainPc e = s.drainPc e

theorem finishStep_moves {d : Drain} {pc : Pc} (hk : s.drains k = some d)
    (hpc : d.pc = .finishing pc) (turn : Bool) : Moves s (s.finishStep k turn pc) k := by
  have hold : s.drainPc k = .finishing pc := (drainPc_of_some hk).trans hpc
  have hnext : ∀ pc', pc'.rank < pc.rank → Moves s (s.setPc k (.finishing pc')) k := by
    intro pc' h
    obtain ⟨hself, hother⟩ := setPc_drainPc hk (.finishing pc')
    refine ⟨rfl, rfl, ?_, hother⟩
    rw [hself, hold]
    exact h
  cases pc with
  | sleepStop =>
    obtain ⟨d', hk'⟩ : ∃ d', s.sleepEnd.drains k = some d' := by
      rcases sleepEnd_drains hk with h | h
      · exact ⟨d, h⟩
      · exact ⟨d.cancel, h⟩
    obtain ⟨hself, hother⟩ := setPc_drainPc hk' (.finishing .announcing)
    refine ⟨(keeps_sleepEnd s).dispatcher, (keeps_sleepEnd s).dispatched, ?_, fun e he => ?_⟩
    · rw [App.finishStep, hself, hold]
      decide
    · exact (hother e he).trans (drainPc_cancelDrain s e)
  | announcing =>
    obtain ⟨hdisp, hdispatched, hless, hother⟩ := hnext .announced (by decide)
    exact ⟨hdisp, hdispatched, hless, hother⟩
  | announced =>
    obtain ⟨hself, hother⟩ := setPc_drainPc hk .finished
    refine ⟨rfl, rfl, ?_, hother⟩
    rw [App.finishStep, hself, hold]
    decide
  | sleepHook => exact hnext _ (nextSleep_rank turn _ (by decide))
  | sleepTurn => exact hnext _ (nextSleep_rank turn _ (by decide))
  | sleepAbort => exact hnext _ (nextSleep_rank turn _ (by decide))

theorem cancelStep_moves {d : Drain} (hk : s.drains k = some d) (hover : d.pc ≠ .finished) :
    Moves s (s.cancelStep k d.pc) k := by
  have hold : s.drainPc k = d.pc := drainPc_of_some hk
  have hnext : ∀ pc, pc.rank < d.pc.rank → Moves s (s.raiseAt k pc) k := by
    intro pc h
    obtain ⟨hself, hother⟩ := raiseAt_drainPc hk pc
    refine ⟨rfl, rfl, ?_, hother⟩
    rw [hself, hold]
    exact h
  unfold App.cancelStep
  split
  case h_1 hpc =>
    refine hnext _ ?_
    rw [hpc]
    decide
  case h_2 =>
    refine hnext .finished ?_
    cases hpc : d.pc with
    | waiting => decide
    | finishing pc => cases pc <;> decide
    | finished => exact absurd hpc hover

/-- **A step of a task that waits** brings it closer to its end, and no other. -/
theorem drainStep_moves {cfg : Config} {timedOut turn : Bool}
    (h : s.drainStep cfg k timedOut turn = some t) : Moves s t k := by
  obtain ⟨d, hk, hover, ⟨-, rfl⟩ | ⟨-, hpc, rfl⟩ | ⟨-, pc, hpc, rfl⟩⟩ := drainStep_cases h
  · exact cancelStep_moves hk hover
  · obtain ⟨hkeeps, hdrains⟩ := keeps_completeState cfg s
    have hk' : (s.completeState cfg).drains k = some d := (congrFun hdrains k).trans hk
    obtain ⟨hself, hother⟩ := setPc_drainPc hk' (.finishing s.completePc)
    refine ⟨hkeeps.dispatcher, hkeeps.dispatched, ?_, fun e he => ?_⟩
    · rw [hself, drainPc_of_some hk, hpc]
      unfold App.completePc
      split <;> decide
    · exact (hother e he).trans (drainPc_completeState cfg s e)
  · exact finishStep_moves hk hpc turn

/-- The step is someone else's. -/
theorem rank_le (hdisp : t.dispatcher.rank e = s.dispatcher.rank e)
    (hdrain : t.drainPc e = s.drainPc e) : t.rank e ≤ s.rank e :=
  Nat.le_of_eq (by rw [App.rank, App.rank, hdisp, hdrain])

/-- The dispatch loop is at another event now, or at none. -/
theorem rank_le_of_zero (h : t.dispatcher.rank e = 0 ∧ t.drainPc e = s.drainPc e) :
    t.rank e ≤ s.rank e := by
  rw [App.rank, App.rank, h.1, h.2]
  omega

/-- **A step**: one of a task that is at the event brings it closer to its end. -/
theorem rank_step (cfg : Config) {a : Act} (he : e < s.dispatched)
    (h : (machine cfg).step s a = some t) :
    t.rank e + (if Act.own e s a then 1 else 0) ≤ s.rank e := by
  cases a with
  | ttsDone stillPlaying =>
    dsimp only [machine] at h
    split at h
    case isFalse => cases h
    case isTrue =>
      obtain rfl := Option.some_inj.mp h
      unfold App.ttsDone
      split
      · exact Nat.le_refl _
      · refine rank_le_of_zero ?_
        rw [← drainPc_setPlaying s (s.playing && stillPlaying) e]
        exact complete_rank cfg he
  | responseDone toolOnly =>
    dsimp only [machine] at h
    split at h
    case isFalse => cases h
    case isTrue =>
      obtain rfl := Option.some_inj.mp h
      split
      · exact Nat.le_refl _
      · exact rank_le_of_zero ⟨rfl, rfl⟩
  | dispatcherStep turn =>
    dsimp only [machine] at h
    cases hpc : s.dispatcher with
    | ready =>
      rw [hpc] at h
      cases h
    | responding toolOnly =>
      rw [hpc] at h
      obtain rfl := Option.some_inj.mp h
      have hown : Act.own e s (.dispatcherStep turn) = false := by rw [Act.own, hpc]
      rw [hown]
      exact rank_le_of_zero (respond_rank cfg toolOnly he)
    | completing k pc =>
      rw [hpc] at h
      obtain rfl := Option.some_inj.mp h
      have hown : Act.own e s (.dispatcherStep turn) = decide (k = e) := by rw [Act.own, hpc]
      obtain ⟨hdisp, hdrain⟩ := completeStep_rank s e k turn pc
      rw [← hpc] at hdisp
      rw [hown, App.rank, App.rank, hdrain]
      simp only [decide_eq_true_eq]
      omega
  | drainStep k timedOut turn =>
    obtain ⟨hdisp, -, hless, hrest⟩ := drainStep_moves h
    by_cases hke : k = e
    · subst hke
      simp only [Act.own, decide_true, if_true, App.rank, hdisp]
      omega
    · simp only [Act.own, hke, decide_false]
      exact rank_le (by rw [hdisp]) (hrest e fun h => hke h.symm)
  | playback playing =>
    obtain rfl := Option.some_inj.mp h
    exact rank_le rfl (drainPc_setPlaying s playing e)
  | interrupt =>
    obtain rfl := Option.some_inj.mp h
    exact rank_le (by rw [(keeps_overtake s).dispatcher]) (drainPc_overtake s e)
  | sleepElsewhere =>
    obtain rfl := Option.some_inj.mp h
    exact rank_le (by rw [(keeps_sleepEnd s).dispatcher]) (drainPc_cancelDrain s e)
  | noFinal =>
    obtain rfl := Option.some_inj.mp h
    exact rank_le rfl rfl
  | elsewhere conv sleepAfter inGreeting retry awaitingNewReply =>
    obtain rfl := Option.some_inj.mp h
    exact rank_le rfl rfl

/-! ### Every run -/

theorem complete_dispatched (cfg : Config) (s : App) :
    (s.complete cfg).dispatched = s.dispatched + 1 := by
  unfold App.complete
  repeat' split
  · rfl
  · exact congrArg (· + 1) (keeps_overtake s).dispatched
  · exact congrArg (· + 1) (keeps_overtake s).dispatched

/-- Events are counted. -/
theorem dispatched_step (cfg : Config) {a : Act} (h : (machine cfg).step s a = some t) :
    s.dispatched ≤ t.dispatched := by
  cases a with
  | ttsDone stillPlaying =>
    dsimp only [machine] at h
    split at h
    case isFalse => cases h
    case isTrue =>
      obtain rfl := Option.some_inj.mp h
      unfold App.ttsDone
      split
      · exact Nat.le_refl _
      · rw [complete_dispatched]
        exact Nat.le_succ _
  | responseDone toolOnly =>
    dsimp only [machine] at h
    split at h
    case isFalse => cases h
    case isTrue =>
      obtain rfl := Option.some_inj.mp h
      split <;> exact Nat.le_refl _
  | dispatcherStep turn =>
    dsimp only [machine] at h
    split at h
    case h_1 => cases h
    case h_2 toolOnly _ =>
      obtain rfl := Option.some_inj.mp h
      unfold App.respond
      split
      · exact Nat.le_refl _
      · rw [complete_dispatched]
        exact Nat.le_succ _
    case h_3 k pc _ =>
      obtain rfl := Option.some_inj.mp h
      cases pc with
      | sleepStop => exact Nat.le_of_eq (keeps_sleepEnd s).dispatched.symm
      | announcing | announced | sleepHook | sleepTurn | sleepAbort => exact Nat.le_refl _
  | drainStep k timedOut turn => exact Nat.le_of_eq (drainStep_moves h).dispatched.symm
  | interrupt =>
    obtain rfl := Option.some_inj.mp h
    exact Nat.le_of_eq (keeps_overtake s).dispatched.symm
  | sleepElsewhere =>
    obtain rfl := Option.some_inj.mp h
    exact Nat.le_of_eq (keeps_sleepEnd s).dispatched.symm
  | playback | noFinal | elsewhere =>
    obtain rfl := Option.some_inj.mp h
    exact Nat.le_refl _

/-- A task that is at an event can go on. -/
theorem own_step (cfg : Config) (h : s.Busy e) :
    ∃ a, Act.own e s a = true ∧ ((machine cfg).step s a).isSome = true := by
  obtain ⟨pc, hpc⟩ | ⟨d, hd, hover⟩ := h
  · refine ⟨.dispatcherStep false, ?_, ?_⟩
    · rw [Act.own, hpc]
      exact decide_eq_true rfl
    · dsimp only [machine]
      rw [hpc]
      rfl
  · -- the wait is over after a time, whatever the playback does
    refine ⟨.drainStep e true false, decide_eq_true rfl, ?_⟩
    have htimeout : s.waitOver true = true := by simp [App.waitOver]
    dsimp only [machine]
    rw [App.drainStep, hd]
    dsimp only
    rw [if_neg hover, htimeout]
    split
    · rfl
    · split
      case h_1 => rfl
      case h_2 => rfl
      case h_3 h => exact absurd h hover

theorem ends_of_lt (cfg : Config) (he : e < s.dispatched) : Ends cfg s e where
  goesOn := own_step cfg
  bounded _ _ hrun :=
    (machine cfg).count_add_rank_le (Act.own e) (P := fun s => e < s.dispatched) (fun s => s.rank e)
      (fun _ _ _ hlt hstep => Nat.lt_of_lt_of_le hlt (dispatched_step cfg hstep))
      (fun _ _ _ hlt hstep => rank_step cfg hlt hstep) he hrun

/-- **Every run of clean steps** tells the plugins once of every completed reply: of one that
was not overtaken, as soon as no task is at it, and the task that is at it comes to its end. -/
theorem assistant_done_once (cfg : Config) (as : List Act) (s : App)
    (hclean : (machine cfg).Guarded Clean (machine cfg).init as)
    (hrun : (machine cfg).run as = some s) :
    Reported s ∧ ∀ e < s.dispatched, Ends cfg s e := by
  have hinv : Inv s := (machine cfg).invariant_of_guarded Clean (inv_init cfg)
    (fun _ _ _ hinv hok hstep => hinv.step cfg hok hstep) hclean hrun
  exact ⟨hinv.reported, fun e he => ends_of_lt cfg he⟩

/-- Two replies, the first of which is told by a task that has waited. -/
def twoReplies : List Act :=
  [.playback true, .elsewhere .speaking false false false false, .ttsDone true, .playback false,
    .drainStep 0 false false, .drainStep 0 false false, .drainStep 0 false false,
    .elsewhere .speaking false false false false, .ttsDone true, .dispatcherStep false,
    .dispatcherStep false]

theorem twoReplies_isSome : ((machine ⟨true, true⟩).run twoReplies).isSome = true := rfl

theorem assistant_done_once_twoReplies :
    ∃ s, (machine ⟨true, true⟩).run twoReplies = some s ∧ s.told 0 = 1 ∧ s.told 1 = 1 ∧
      Reported s ∧ ∀ e < s.dispatched, Ends ⟨true, true⟩ s e :=
  ⟨_, (Option.some_get twoReplies_isSome).symm, by decide +kernel, by decide +kernel,
    assistant_done_once ⟨true, true⟩ twoReplies _ (by decide +kernel)
      (Option.some_get twoReplies_isSome).symm⟩

/-- A farewell: the task that has waited for the playback puts the agent to sleep. -/
def farewellRun : List Act :=
  [.playback true, .elsewhere .speaking true false false false, .ttsDone true, .playback false,
    .drainStep 0 false false, .drainStep 0 false false, .drainStep 0 false false,
    .drainStep 0 false false, .drainStep 0 false false]

theorem farewellRun_isSome : ((machine ⟨true, false⟩).run farewellRun).isSome = true := rfl

/-- `sleep` cancels the task that runs it, and the plugins are never told. -/
theorem farewellRun_tells_nobody :
    ∃ s, (machine ⟨true, false⟩).run farewellRun = some s ∧ s.conv = .sleeping ∧
      s.dispatched = 1 ∧ s.overtaken = [] ∧ s.done = [] ∧ ¬ s.Busy 0 ∧ ¬ Reported s := by
  have hbusy : ¬ (((machine ⟨true, false⟩).run farewellRun).get farewellRun_isSome).Busy 0 :=
    (rank_eq_zero_iff _ 0).mp (by decide +kernel)
  refine ⟨_, (Option.some_get farewellRun_isSome).symm, by decide +kernel, by decide +kernel,
    by decide +kernel, by decide +kernel, hbusy, fun hreported => ?_⟩
  rcases hreported.reported 0 (by decide +kernel) with h | h | h
  · exact hbusy h
  · revert h
    decide +kernel
  · revert h
    decide +kernel

end OpenVoiceStream.Agent.AssistantDone
