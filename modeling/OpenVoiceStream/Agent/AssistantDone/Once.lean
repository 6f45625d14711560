import OpenVoiceStream.Agent.AssistantDone.Model
import Mathlib.Data.List.Count

/-!
# The plugins are told once

Every completed reply belongs to one task: the dispatch loop, or one that waits for the
playback.  While no task that waits is cancelled too late, it is told once, when its task
tells it.

## Main definitions

* `Clean` — a step that cancels no task whose playback has drained, unless the plugins were
  told.
* `Reported` — every event is told once, or was overtaken, or a task is at it.
* `Inv` — every event belongs to one task.

## Main results

* `Inv.step` — what a clean step preserves.
-/

namespace OpenVoiceStream.Agent.AssistantDone

/-! ### What is to be shown -/

/-- How often the plugins were told of an event. -/
def App.told (s : App) (e : ℕ) : ℕ := s.done.count (.event e)

/-- A task is at the event. -/
def App.Busy (s : App) (e : ℕ) : Prop :=
  (∃ pc, s.dispatcher = .completing e pc) ∨ ∃ d, s.drains e = some d ∧ d.pc ≠ .finished

/-- **Completion is reported once.** -/
structure Reported (s : App) : Prop where
  once : ∀ e, s.told e ≤ 1
  caused : ∀ e, .event e ∈ s.done → e < s.dispatched
  reported : ∀ e < s.dispatched, s.Busy e ∨ e ∈ s.overtaken ∨ s.told e = 1

/-- The task is done with its event, the plugins were told, or the event was overtaken. -/
def App.Settled (s : App) (k : ℕ) (d : Drain) : Prop :=
  d.pc = .finished ∨ d.pc = .finishing .announced ∨ k ∈ s.overtaken

/-- An event that follows cancels a task that is settled, or whose playback has not drained. -/
def App.SparesOvertaking (s : App) : Prop :=
  ∀ k ∈ s.current, ∀ d ∈ s.drains k, s.Settled k d ∨ d.drained = false

/-- A `sleep` cancels a task that is settled. -/
def App.SparesSleep (s : App) : Prop := ∀ k ∈ s.current, ∀ d ∈ s.drains k, s.Settled k d

/-- Whatever the step cancels is spared. -/
def Clean (s : App) : Act → Prop
  | .ttsDone stillPlaying =>
    s.awaitingNewReply = false → s.conv ≠ .bargedIn →
      (s.setPlaying (s.playing && stillPlaying)).SparesOvertaking
  | .dispatcherStep _ =>
    (s.dispatcher = .responding false → s.conv ≠ .bargedIn → s.SparesOvertaking) ∧
      ∀ e < s.dispatched, s.dispatcher = .completing e .sleepStop → s.SparesSleep
  | .drainStep k _ _ =>
    (∀ d ∈ s.drains k, d.pc = .finishing .sleepStop → d.cancelled = false → s.SparesSleep)
  | .interrupt => s.SparesOvertaking
  | .sleepElsewhere => s.SparesSleep
  | .responseDone _ | .playback _ | .noFinal | .elsewhere _ _ _ _ _ => True

instance (s : App) (k : ℕ) (d : Drain) : Decidable (s.Settled k d) :=
  inferInstanceAs (Decidable (_ ∨ _ ∨ _))

instance (s : App) : Decidable s.SparesOvertaking :=
  inferInstanceAs (Decidable (∀ k ∈ s.current, ∀ d ∈ s.drains k, s.Settled k d ∨ d.drained = false))

instance (s : App) : Decidable s.SparesSleep :=
  inferInstanceAs (Decidable (∀ k ∈ s.current, ∀ d ∈ s.drains k, s.Settled k d))

instance (s : App) : ∀ a, Decidable (Clean s a)
  | .ttsDone stillPlaying =>
    inferInstanceAs (Decidable (s.awaitingNewReply = false → s.conv ≠ .bargedIn →
      (s.setPlaying (s.playing && stillPlaying)).SparesOvertaking))
  | .dispatcherStep _ =>
    inferInstanceAs (Decidable
      ((s.dispatcher = .responding false → s.conv ≠ .bargedIn → s.SparesOvertaking) ∧
        ∀ e < s.dispatched, s.dispatcher = .completing e .sleepStop → s.SparesSleep))
  | .drainStep k _ _ =>
    inferInstanceAs (Decidable (∀ d ∈ s.drains k, d.pc = .finishing .sleepStop →
      d.cancelled = false → s.SparesSleep))
  | .interrupt => inferInstanceAs (Decidable s.SparesOvertaking)
  | .sleepElsewhere => inferInstanceAs (Decidable s.SparesSleep)
  | .responseDone _ | .playback _ | .noFinal | .elsewhere _ _ _ _ _ => isTrue trivial

/-! ### The invariant -/

/-- What is true of a task that waits. -/
structure Fate (s : App) (e : ℕ) (d : Drain) : Prop where
  told : d.pc ≠ .finished → s.told e = if d.pc = .finishing .announced then 1 else 0
  finished : d.pc = .finished → s.told e = 1 ∨ s.told e = 0 ∧ e ∈ s.overtaken
  cancelled : d.cancelled = true → s.Settled e d

/-- Every event belongs to one task, which has told it or will, unless it was overtaken. -/
structure Inv (s : App) : Prop where
  fresh : ∀ e, s.dispatched ≤ e → s.drains e = none ∧ s.told e = 0
  inline : ∀ e pc, s.dispatcher = .completing e pc →
    e < s.dispatched ∧ s.drains e = none ∧ s.told e = if pc = .announced then 1 else 0
  drain : ∀ e d, s.drains e = some d → Fate s e d
  ended : ∀ e < s.dispatched, s.drains e = none → (∀ pc, s.dispatcher ≠ .completing e pc) →
    s.told e = 1

theorem inv_init (cfg : Config) : Inv (machine cfg).init where
  fresh e _ := ⟨rfl, rfl⟩
  inline e pc h := by cases h
  drain e d h := by cases h
  ended e h := absurd h (Nat.not_lt_zero e)

/-- The plugins are told once, by the invariant. -/
theorem Inv.reported {s : App} (hinv : Inv s) : Reported s := by
  have hlt : ∀ e, s.told e ≠ 0 → e < s.dispatched := by
    intro e he
    by_contra hle
    exact he (hinv.fresh e (Nat.le_of_not_lt hle)).2
  have hcases : ∀ e < s.dispatched,
      s.told e ≤ 1 ∧ (s.Busy e ∨ e ∈ s.overtaken ∨ s.told e = 1) := by
    intro e he
    by_cases hinline : ∃ pc, s.dispatcher = .completing e pc
    · obtain ⟨pc, hpc⟩ := hinline
      obtain ⟨-, -, htold⟩ := hinv.inline e pc hpc
      refine ⟨?_, .inl (.inl ⟨pc, hpc⟩)⟩
      rw [htold]
      split <;> omega
    cases hdrain : s.drains e with
    | none =>
      have htold := hinv.ended e he hdrain fun pc hpc => hinline ⟨pc, hpc⟩
      exact ⟨Nat.le_of_eq htold, .inr (.inr htold)⟩
    | some d =>
      have hfate := hinv.drain e d hdrain
      by_cases hover : d.pc = .finished
      · rcases hfate.finished hover with htold | ⟨htold, hovertaken⟩
        · exact ⟨Nat.le_of_eq htold, .inr (.inr htold)⟩
        · exact ⟨by omega, .inr (.inl hovertaken)⟩
      · refine ⟨?_, .inl (.inr ⟨d, hdrain, hover⟩)⟩
        rw [hfate.told hover]
        split <;> omega
  refine ⟨fun e => ?_, fun e he => hlt e (Nat.ne_of_gt (List.count_pos_iff.mpr he)), fun e he => (hcases e he).2⟩
  by_cases hzero : s.told e = 0
  · omega
  · exact (hcases e (hlt e hzero)).1

/-! ### Preservation -/

variable {s t : App} {k : ℕ} {d : Drain}

theorem Inv.lt_of_drain (hinv : Inv s) (hk : s.drains k = some d) : k < s.dispatched := by
  by_contra hle
  rw [(hinv.fresh k (Nat.le_of_not_lt hle)).1] at hk
  cases hk

/-- The events and what was told are the same, and no less was overtaken. -/
structure Keeps (s t : App) : Prop where
  dispatcher : t.dispatcher = s.dispatcher
  dispatched : t.dispatched = s.dispatched
  told : ∀ e, t.told e = s.told e
  overtaken : ∀ e ∈ s.overtaken, e ∈ t.overtaken

theorem Fate.mono {e : ℕ} (hfate : Fate s e d) (h : Keeps s t) : Fate t e d where
  told hover := (h.told e).trans (hfate.told hover)
  finished hover := by
    rw [h.told e]
    exact (hfate.finished hover).imp_right fun hboth => ⟨hboth.1, h.overtaken e hboth.2⟩
  cancelled hcancelled :=
    (hfate.cancelled hcancelled).imp_right (Or.imp_right (h.overtaken e))

/-- The tasks that wait change, each to one that the invariant allows. -/
theorem Inv.of_drains (hinv : Inv s) (h : Keeps s t)
    (hdrains : ∀ e, t.drains e = s.drains e ∨
      ∃ d d', s.drains e = some d ∧ t.drains e = some d' ∧ Fate t e d') : Inv t := by
  have hnone : ∀ e, t.drains e = none ↔ s.drains e = none := by
    intro e
    rcases hdrains e with hsame | ⟨d, d', hd, hd', -⟩
    · rw [hsame]
    · rw [hd, hd']
      simp
  constructor
  case fresh =>
    intro e he
    rw [h.dispatched] at he
    rw [hnone, h.told]
    exact hinv.fresh e he
  case inline =>
    intro e pc hpc
    rw [h.dispatcher] at hpc
    rw [h.dispatched, hnone, h.told]
    exact hinv.inline e pc hpc
  case drain =>
    intro e d he
    rcases hdrains e with hsame | ⟨-, d', -, hd', hfate⟩
    · exact (hinv.drain e d (hsame ▸ he)).mono h
    · obtain rfl := Option.some_inj.mp (he.symm.trans hd')
      exact hfate
  case ended =>
    intro e he hno hnot
    rw [h.dispatched] at he
    rw [h.dispatcher] at hnot
    rw [h.told]
    exact hinv.ended e he ((hnone e).mp hno) hnot

/-- The state, the flags and the playback do not matter. -/
theorem Inv.congr (hinv : Inv s) (h : Keeps s t) (hdrains : t.drains = s.drains) : Inv t :=
  hinv.of_drains h fun e => .inl (congrFun hdrains e)

/-- One task that waits changes. -/
theorem Inv.setDrain (hinv : Inv s) (h : Keeps s t) (hk : s.drains k = some d) {d' : Drain}
    (hdrains : t.drains = Function.update s.drains k (some d')) (hfate : Fate t k d') : Inv t := by
  refine hinv.of_drains h fun e => ?_
  rw [hdrains]
  by_cases hek : e = k
  · subst hek
    exact .inr ⟨d, d', hk, Function.update_self .., hfate⟩
  · exact .inl (Function.update_of_ne hek _ _)

/-- The task that waits is cancelled: it is settled, perhaps because it is overtaken now. -/
theorem Inv.cancelDrain (hinv : Inv s) (h : Keeps s t) (hdrains : t.drains = s.cancelDrain.drains)
    (hsettled : ∀ k ∈ s.current, ∀ d ∈ s.drains k, t.Settled k d) : Inv t := by
  refine hinv.of_drains h fun e => ?_
  rw [hdrains, App.cancelDrain]
  cases hcurrent : s.current with
  | none => exact .inl rfl
  | some k =>
    by_cases hek : e = k
    · subst hek
      cases hd : s.drains e with
      | none =>
        refine .inl ?_
        dsimp only
        rw [Function.update_self, hd]
        rfl
      | some d =>
        refine .inr ⟨d, d.cancel, rfl, ?_, ?_⟩
        · dsimp only
          rw [Function.update_self, hd]
          rfl
        have hfate := (hinv.drain e d hd).mono h
        unfold Drain.cancel
        split
        · exact hfate
        · exact ⟨hfate.told, hfate.finished, fun _ => hsettled e hcurrent d hd⟩
    · exact .inl (Function.update_of_ne hek _ _)

theorem keeps_sleepEnd (s : App) : Keeps s s.sleepEnd := by
  unfold App.sleepEnd App.cancelDrain
  cases s.current <;> exact ⟨rfl, rfl, fun _ => rfl, fun e he => he⟩

/-- `sleep` cancels a task that is settled. -/
theorem Inv.sleepEnd (hinv : Inv s) (hspares : s.SparesSleep) : Inv s.sleepEnd :=
  hinv.cancelDrain (keeps_sleepEnd s) rfl fun k hk d hd =>
    (hspares k hk d hd).imp_right (Or.imp_right ((keeps_sleepEnd s).overtaken k))

theorem keeps_overtake (s : App) : Keeps s s.overtake := by
  unfold App.overtake App.cancelDrain
  cases s.current with
  | none => exact ⟨rfl, rfl, fun _ => rfl, fun e he => he⟩
  | some k =>
    refine ⟨rfl, rfl, fun _ => rfl, fun e he => ?_⟩
    dsimp only
    split
    · exact List.mem_cons_of_mem k he
    · exact he

/-- An event that follows cancels a task that is settled or overtaken. -/
theorem Inv.overtake (hinv : Inv s) (hspares : s.SparesOvertaking) : Inv s.overtake := by
  have hdrains : s.overtake.drains = s.cancelDrain.drains := by
    unfold App.overtake
    cases hcurrent : s.current with
    | none => simp [App.cancelDrain, hcurrent]
    | some k => rfl
  refine hinv.cancelDrain (keeps_overtake s) hdrains fun k hk d hd => ?_
  rcases hspares k hk d hd with hsettled | hplaying
  · exact hsettled.imp_right (Or.imp_right ((keeps_overtake s).overtaken k))
  · by_cases hover : d.pc = .finished
    · exact .inl hover
    · have hovertaken : s.isOvertaken k = true := by
        rw [App.isOvertaken, show s.drains k = some d from hd]
        simp [hover, hplaying]
      refine .inr (.inr ?_)
      rw [App.overtake, show s.current = some k from hk]
      dsimp only
      rw [if_pos hovertaken]
      exact List.mem_cons_self

theorem Inv.setPlaying (hinv : Inv s) (playing : Bool) : Inv (s.setPlaying playing) := by
  have hkeeps : Keeps s (s.setPlaying playing) := ⟨rfl, rfl, fun _ => rfl, fun e he => he⟩
  refine hinv.of_drains hkeeps fun e => ?_
  cases hd : s.drains e with
  | none => simp [App.setPlaying, hd]
  | some d =>
    cases playing with
    | true => exact .inl (by simp [App.setPlaying, hd])
    | false =>
      have hfate := (hinv.drain e d hd).mono hkeeps
      refine .inr ⟨d, { d with drained := true }, rfl, ?_, ?_⟩
      · simp [App.setPlaying, hd]
      · exact ⟨hfate.told, hfate.finished, hfate.cancelled⟩

/-! ### Completing a turn -/

theorem keeps_completeState (cfg : Config) (s : App) :
    Keeps s (s.completeState cfg) ∧ (s.completeState cfg).drains = s.drains := by
  unfold App.completeState
  repeat' split
  all_goals exact ⟨⟨rfl, rfl, fun _ => rfl, fun e he => he⟩, rfl⟩

theorem completePc_ne (s : App) : s.completePc ≠ .announced := by
  unfold App.completePc
  split <;> simp

/-- The dispatch loop takes the next event. -/
theorem Inv.completeInline (hinv : Inv s) (cfg : Config)
    (hfree : ∀ e pc, s.dispatcher ≠ .completing e pc) : Inv (s.completeInline cfg) := by
  obtain ⟨hkeeps, hdrains⟩ := keeps_completeState cfg s
  have htold : ∀ e, (s.completeInline cfg).told e = s.told e := hkeeps.told
  have hsame : (s.completeInline cfg).drains = s.drains := hdrains
  have hnext : (s.completeInline cfg).dispatched = s.dispatched + 1 := rfl
  constructor
  case fresh =>
    intro e he
    rw [hnext] at he
    rw [hsame, htold]
    exact hinv.fresh e (by omega)
  case inline =>
    intro e pc hpc
    obtain ⟨rfl, rfl⟩ := Dispatcher.completing.inj hpc
    rw [hnext, hsame, htold, if_neg (completePc_ne s)]
    obtain ⟨hnone, hzero⟩ := hinv.fresh s.dispatched (Nat.le_refl _)
    exact ⟨Nat.lt_succ_self _, hnone, hzero⟩
  case drain =>
    intro e d he
    rw [hsame] at he
    have hfate := (hinv.drain e d he).mono hkeeps
    exact ⟨hfate.told, hfate.finished, hfate.cancelled⟩
  case ended =>
    intro e he hnone hnot
    rw [hnext] at he
    rw [hsame] at hnone
    have hne : e ≠ s.dispatched := fun h => hnot s.completePc (h ▸ rfl)
    rw [htold]
    exact hinv.ended e (by omega) hnone (hfree e)

/-- A task is made that waits for the playback of the next event. -/
theorem Inv.startDrain (hinv : Inv s) (hfree : ∀ e pc, s.dispatcher ≠ .completing e pc) :
    Inv s.startDrain := by
  obtain ⟨hnone, hzero⟩ := hinv.fresh s.dispatched (Nat.le_refl _)
  have hnext : s.startDrain.dispatched = s.dispatched + 1 := rfl
  have hself : s.startDrain.drains s.dispatched = some ⟨.waiting, false, false⟩ :=
    Function.update_self ..
  have hother : ∀ e ≠ s.dispatched, s.startDrain.drains e = s.drains e := fun e he =>
    Function.update_of_ne he _ _
  constructor
  case fresh =>
    intro e he
    rw [hnext] at he
    rw [hother e (by omega)]
    exact hinv.fresh e (by omega)
  case inline =>
    intro e pc hpc
    cases hpc
  case drain =>
    intro e d he
    by_cases hee : e = s.dispatched
    · subst hee
      obtain rfl := Option.some_inj.mp (hself.symm.trans he)
      exact ⟨fun _ => hzero, fun h => (by cases h), fun h => (by cases h)⟩
    · rw [hother e hee] at he
      have hfate := hinv.drain e d he
      exact ⟨hfate.told, hfate.finished, hfate.cancelled⟩
  case ended =>
    intro e he hdrain _
    rw [hnext] at he
    by_cases hee : e = s.dispatched
    · rw [hee, hself] at hdrain
      cases hdrain
    · rw [hother e hee] at hdrain
      exact hinv.ended e (by omega) hdrain (hfree e)

/-- **The end of a handler**: it cancels a task that is settled or overtaken. -/
theorem Inv.complete (hinv : Inv s) (cfg : Config) (hfree : ∀ e pc, s.dispatcher ≠ .completing e pc)
    (hspares : s.conv ≠ .bargedIn → s.SparesOvertaking) : Inv (s.complete cfg) := by
  unfold App.complete
  split
  case isTrue => exact hinv.completeInline cfg hfree
  case isFalse hconv =>
    have hinv' := hinv.overtake (hspares hconv)
    have hfree' : ∀ e pc, s.overtake.dispatcher ≠ .completing e pc := by
      rw [(keeps_overtake s).dispatcher]
      exact hfree
    split
    · exact hinv'.startDrain hfree'
    · exact hinv'.completeInline cfg hfree'

/-- The dispatch loop is at no event, before or after. -/
theorem Inv.setFree (hinv : Inv s) (hfree : ∀ e pc, s.dispatcher ≠ .completing e pc)
    (hfree' : ∀ e pc, t.dispatcher ≠ .completing e pc) (hdrains : t.drains = s.drains)
    (hdispatched : t.dispatched = s.dispatched) (htold : ∀ e, t.told e = s.told e)
    (hovertaken : t.overtaken = s.overtaken) : Inv t := by
  constructor
  case fresh =>
    intro e he
    rw [hdispatched] at he
    rw [hdrains, htold]
    exact hinv.fresh e he
  case inline =>
    intro e pc hpc
    exact absurd hpc (hfree' e pc)
  case drain =>
    intro e d he
    rw [hdrains] at he
    have hfate := hinv.drain e d he
    have hsettled : t.Settled e d = s.Settled e d := by rw [App.Settled, App.Settled, hovertaken]
    constructor
    · rw [htold]
      exact hfate.told
    · rw [htold, hovertaken]
      exact hfate.finished
    · rw [hsettled]
      exact hfate.cancelled
  case ended =>
    intro e he hnone _
    rw [hdispatched] at he
    rw [hdrains] at hnone
    rw [htold]
    exact hinv.ended e he hnone (hfree e)

/-! ### The steps of a task -/

theorem told_cons_self (s : App) (k : ℕ) : ({ s with done := .event k :: s.done } : App).told k =
    s.told k + 1 := by
  rw [App.told, App.told]
  exact List.count_cons_self

theorem told_cons_of_ne (s : App) {k e : ℕ} (h : e ≠ k) :
    ({ s with done := .event k :: s.done } : App).told e = s.told e := by
  rw [App.told, App.told]
  refine List.count_cons_of_ne fun heq => h ?_
  exact (Cause.event.inj heq).symm

/-- The dispatch loop goes on with its event, or is done with it. -/
theorem Inv.of_dispatcher {e : ℕ} {pc : Pc} (hinv : Inv s) (hpc : s.dispatcher = .completing e pc)
    (hdrains : t.drains = s.drains) (hdispatched : t.dispatched = s.dispatched)
    (hovertaken : t.overtaken = s.overtaken) (hother : ∀ e' ≠ e, t.told e' = s.told e')
    (hself : ∀ e' pc', t.dispatcher = .completing e' pc' →
      e' = e ∧ t.told e = if pc' = .announced then 1 else 0)
    (hend : (∀ pc', t.dispatcher ≠ .completing e pc') → t.told e = 1) : Inv t := by
  obtain ⟨hlt, hnone, -⟩ := hinv.inline e pc hpc
  constructor
  case fresh =>
    intro e' he
    rw [hdispatched] at he
    rw [hdrains, hother e' (by omega)]
    exact hinv.fresh e' he
  case inline =>
    intro e' pc' h
    obtain ⟨rfl, htold⟩ := hself e' pc' h
    rw [hdispatched, hdrains]
    exact ⟨hlt, hnone, htold⟩
  case drain =>
    intro e' d he
    rw [hdrains] at he
    have hne : e' ≠ e := by
      rintro rfl
      rw [hnone] at he
      cases he
    have hfate := hinv.drain e' d he
    have hsettled : t.Settled e' d = s.Settled e' d := by rw [App.Settled, App.Settled, hovertaken]
    constructor
    · rw [hother e' hne]
      exact hfate.told
    · rw [hother e' hne, hovertaken]
      exact hfate.finished
    · rw [hsettled]
      exact hfate.cancelled
  case ended =>
    intro e' he hno hnot
    by_cases hee : e' = e
    · subst hee
      exact hend hnot
    · rw [hdispatched] at he
      rw [hdrains] at hno
      rw [hother e' hee]
      refine hinv.ended e' he hno fun pc' h => hee ?_
      rw [hpc] at h
      exact (Dispatcher.completing.inj h).1.symm

/-- The dispatch loop goes on, and has told nobody. -/
theorem Inv.setInline {e : ℕ} {pc pc' : Pc} (hinv : Inv s) (hpc : s.dispatcher = .completing e pc)
    (hold : pc ≠ .announced) (hnew : pc' ≠ .announced) :
    Inv { s with dispatcher := .completing e pc' } := by
  obtain ⟨-, -, htold⟩ := hinv.inline e pc hpc
  rw [if_neg hold] at htold
  refine hinv.of_dispatcher hpc rfl rfl rfl (fun _ _ => rfl) (fun e' pc'' h => ?_) fun h => ?_
  · obtain ⟨rfl, rfl⟩ := Dispatcher.completing.inj h
    rw [if_neg hnew]
    exact ⟨rfl, htold⟩
  · exact absurd rfl (h pc')

theorem nextSleep_ne {pc : Pc} (turn : Bool) (h : pc ≠ .announced) :
    pc.nextSleep turn ≠ .announced := by
  cases pc <;> cases turn <;> simp_all [Pc.nextSleep]

/-- **The dispatch loop goes on.** -/
theorem Inv.completeStep {e : ℕ} {pc : Pc} (hinv : Inv s) (hpc : s.dispatcher = .completing e pc)
    (hspares : pc = .sleepStop → s.SparesSleep) (turn : Bool) : Inv (s.completeStep e turn pc) := by
  obtain ⟨-, -, htold⟩ := hinv.inline e pc hpc
  cases pc with
  | sleepStop =>
    have hpc' : s.sleepEnd.dispatcher = .completing e .sleepStop :=
      (keeps_sleepEnd s).dispatcher.trans hpc
    exact (hinv.sleepEnd (hspares rfl)).setInline hpc' (by decide) (by decide)
  | announcing =>
    have hone : (s.completeStep e turn .announcing).told e = 1 := by
      rw [show (s.completeStep e turn .announcing).told e = _ from told_cons_self s e, htold]
      rfl
    refine hinv.of_dispatcher hpc rfl rfl rfl (fun e' he => told_cons_of_ne s he)
      (fun e' pc' h => ?_) fun _ => hone
    obtain ⟨rfl, rfl⟩ := Dispatcher.completing.inj h
    exact ⟨rfl, hone⟩
  | announced =>
    refine hinv.of_dispatcher hpc rfl rfl rfl (fun _ _ => rfl) (fun e' pc' h => ?_) fun _ => htold
    cases h
  | sleepHook => exact hinv.setInline hpc (by decide) (nextSleep_ne turn (by decide))
  | sleepTurn => exact hinv.setInline hpc (by decide) (nextSleep_ne turn (by decide))
  | sleepAbort => exact hinv.setInline hpc (by decide) (nextSleep_ne turn (by decide))

/-- A task that has waited goes on, and has told nobody. -/
theorem Inv.setPc (hinv : Inv s) (hk : s.drains k = some d) {pc : DrainPc} (hover : d.pc ≠ .finished)
    (hold : d.pc ≠ .finishing .announced) (hover' : pc ≠ .finished)
    (hnew : pc ≠ .finishing .announced) : Inv (s.setPc k pc) := by
  have hfate := hinv.drain k d hk
  have htold := hfate.told hover
  rw [if_neg hold] at htold
  have hdrains : (s.setPc k pc).drains = Function.update s.drains k (some { d with pc := pc }) := by
    rw [App.setPc, hk]
    rfl
  refine hinv.setDrain ⟨rfl, rfl, fun _ => rfl, fun e he => he⟩ hk hdrains ⟨fun _ => ?_, fun h => ?_, fun h => ?_⟩
  · rw [if_neg hnew]
    exact htold
  · exact absurd h hover'
  · rcases hfate.cancelled h with h | h | h
    · exact absurd h hover
    · exact absurd h hold
    · exact .inr (.inr h)

/-- A task tells the plugins. -/
theorem Inv.tell (hinv : Inv s) (hk : s.drains k = some d) (hpc : d.pc = .finishing .announcing)
    (hdrains : t.drains =
      Function.update s.drains k (some { d with pc := .finishing .announced }))
    (hdispatcher : t.dispatcher = s.dispatcher) (hdispatched : t.dispatched = s.dispatched)
    (hdone : t.done = .event k :: s.done) (hovertaken : t.overtaken = s.overtaken) : Inv t := by
  have hlt := hinv.lt_of_drain hk
  have hself : t.drains k = some { d with pc := .finishing .announced } := by
    rw [hdrains, Function.update_self]
  have hother : ∀ e ≠ k, t.drains e = s.drains e ∧ t.told e = s.told e := by
    intro e he
    rw [hdrains, Function.update_of_ne he, App.told, hdone]
    exact ⟨rfl, told_cons_of_ne s he⟩
  have hone : t.told k = 1 := by
    have hzero : s.told k = 0 := by
      rw [(hinv.drain k d hk).told (by rw [hpc]; decide), hpc]
      rfl
    rw [App.told, hdone]
    exact (told_cons_self s k).trans (by rw [hzero])
  constructor
  case fresh =>
    intro e he
    rw [hdispatched] at he
    obtain ⟨hsame, htold⟩ := hother e (by omega)
    rw [hsame, htold]
    exact hinv.fresh e he
  case inline =>
    intro e pc h
    rw [hdispatcher] at h
    obtain ⟨hlt', hnone, htold⟩ := hinv.inline e pc h
    have hne : e ≠ k := by
      rintro rfl
      rw [hk] at hnone
      cases hnone
    obtain ⟨hsame, htold'⟩ := hother e hne
    rw [hdispatched, hsame, htold']
    exact ⟨hlt', hnone, htold⟩
  case drain =>
    intro e d' he
    by_cases hek : e = k
    · subst hek
      obtain rfl := Option.some_inj.mp (hself.symm.trans he)
      exact ⟨fun _ => hone, fun _ => .inl hone, fun _ => .inr (.inl rfl)⟩
    · obtain ⟨hsame, htold⟩ := hother e hek
      have hfate := hinv.drain e d' (hsame ▸ he)
      have hsettled : t.Settled e d' = s.Settled e d' := by
        rw [App.Settled, App.Settled, hovertaken]
      refine ⟨fun h => htold.trans (hfate.told h), ?_, ?_⟩
      · rw [htold, hovertaken]
        exact hfate.finished
      · rw [hsettled]
        exact hfate.cancelled
  case ended =>
    intro e he hnone hnot
    rw [hdispatched] at he
    rw [hdispatcher] at hnot
    by_cases hek : e = k
    · rw [hek]
      exact hone
    · obtain ⟨hsame, htold⟩ := hother e hek
      rw [htold]
      exact hinv.ended e he (hsame ▸ hnone) hnot

/-- A task comes to its end: it has told the plugins, or was overtaken. -/
theorem Inv.setOver (hinv : Inv s) (h : Keeps s t) (hk : s.drains k = some d)
    (hover : d.pc ≠ .finished) (hsettled : s.Settled k d) {d' : Drain} (hd' : d'.pc = .finished)
    (hdrains : t.drains = Function.update s.drains k (some d')) : Inv t := by
  have hfate := hinv.drain k d hk
  refine hinv.setDrain h hk hdrains ⟨fun h => absurd hd' h, fun _ => ?_, fun _ => .inl hd'⟩
  rw [h.told k, hfate.told hover]
  rcases hsettled with hpc | hpc | hovertaken
  · exact absurd hpc hover
  · exact .inl (if_pos hpc)
  · split
    · exact .inl rfl
    · exact .inr ⟨rfl, h.overtaken k hovertaken⟩

/-- The exception in a task that was cancelled. -/
theorem Inv.cancelStep (hinv : Inv s) (hk : s.drains k = some d) (hover : d.pc ≠ .finished)
    (hcancelled : d.cancelled = true) : Inv (s.cancelStep k d.pc) := by
  have hfate := hinv.drain k d hk
  have hdrains : ∀ pc, (s.raiseAt k pc).drains =
      Function.update s.drains k (some { d with pc := pc, cancelled := false }) := by
    intro pc
    rw [App.raiseAt, hk]
    rfl
  have hkeeps : ∀ pc, Keeps s (s.raiseAt k pc) := fun pc => ⟨rfl, rfl, fun _ => rfl, fun e he => he⟩
  have hend : Inv (s.raiseAt k .finished) :=
    hinv.setOver (hkeeps .finished) hk hover (hfate.cancelled hcancelled) rfl (hdrains .finished)
  unfold App.cancelStep
  split
  case h_1 hpc =>
    have hzero : s.told k = 0 := by
      rw [hfate.told hover, hpc]
      rfl
    exact hinv.setDrain (hkeeps _) hk (hdrains _)
      ⟨fun _ => hzero, fun h => (by cases h), fun h => (by cases h)⟩
  case h_2 => exact hend

theorem setPc_drains (hk : s.drains k = some d) (pc : DrainPc) :
    (s.setPc k pc).drains = Function.update s.drains k (some { d with pc := pc }) := by
  rw [App.setPc, hk]
  rfl

theorem sleepEnd_drains (hk : s.drains k = some d) :
    s.sleepEnd.drains k = some d ∨ s.sleepEnd.drains k = some d.cancel := by
  rw [show s.sleepEnd.drains = s.cancelDrain.drains from rfl, App.cancelDrain]
  cases s.current with
  | none => exact .inl hk
  | some j =>
    dsimp only
    by_cases hkj : k = j
    · rw [hkj, Function.update_self, ← hkj, hk]
      exact .inr rfl
    · rw [Function.update_of_ne hkj]
      exact .inl hk

theorem Drain.cancel_pc (d : Drain) : d.cancel.pc = d.pc := by
  unfold Drain.cancel
  split <;> rfl

/-- **A task that has waited goes on.** -/
theorem Inv.finishStep {pc : Pc} (hinv : Inv s) (hk : s.drains k = some d)
    (hpc : d.pc = .finishing pc) (hspares : pc = .sleepStop → s.SparesSleep) (turn : Bool) :
    Inv (s.finishStep k turn pc) := by
  have hover : d.pc ≠ .finished := by
    rw [hpc]
    intro h
    cases h
  have hnext : pc ≠ .announced → ∀ pc' ≠ .announced, Inv (s.setPc k (.finishing pc')) := by
    intro hold pc' hnew
    refine hinv.setPc hk hover ?_ (fun h => by cases h) fun h => hnew (DrainPc.finishing.inj h)
    rw [hpc]
    exact fun h => hold (DrainPc.finishing.inj h)
  cases pc with
  | sleepStop =>
    -- `sleep` may have cancelled the very task that it runs in
    obtain ⟨d', hk', hpc'⟩ : ∃ d', s.sleepEnd.drains k = some d' ∧ d'.pc = d.pc := by
      rcases sleepEnd_drains hk with h | h
      · exact ⟨d, h, rfl⟩
      · exact ⟨d.cancel, h, d.cancel_pc⟩
    rw [hpc] at hpc'
    refine (hinv.sleepEnd (hspares rfl)).setPc hk' ?_ ?_ (fun h => by cases h) fun h => by cases h
    · rw [hpc']
      exact fun h => by cases h
    · rw [hpc']
      exact fun h => by cases h
  | announcing => exact hinv.tell hk hpc (setPc_drains hk _) rfl rfl rfl rfl
  | announced =>
    refine hinv.setOver ⟨rfl, rfl, fun _ => rfl, fun e he => he⟩ hk hover (.inr (.inl hpc)) ?_
      (setPc_drains hk .finished)
    rfl
  | sleepHook => exact hnext (by decide) _ (nextSleep_ne turn (by decide))
  | sleepTurn => exact hnext (by decide) _ (nextSleep_ne turn (by decide))
  | sleepAbort => exact hnext (by decide) _ (nextSleep_ne turn (by decide))

/-- What a step of a task that waits does. -/
theorem drainStep_cases {cfg : Config} {timedOut turn : Bool}
    (h : s.drainStep cfg k timedOut turn = some t) :
    ∃ d, s.drains k = some d ∧ d.pc ≠ .finished ∧
      (d.cancelled = true ∧ t = s.cancelStep k d.pc ∨
        d.cancelled = false ∧ d.pc = .waiting ∧
          t = (s.completeState cfg).setPc k (.finishing s.completePc) ∨
        d.cancelled = false ∧ ∃ pc, d.pc = .finishing pc ∧ t = s.finishStep k turn pc) := by
  unfold App.drainStep at h
  cases hk : s.drains k with
  | none =>
    rw [hk] at h
    cases h
  | some d =>
    rw [hk] at h
    dsimp only at h
    split at h
    case isTrue => cases h
    case isFalse hover =>
      refine ⟨d, rfl, hover, ?_⟩
      split at h
      case isTrue hcancelled => exact .inl ⟨hcancelled, (Option.some_inj.mp h).symm⟩
      case isFalse hcancelled =>
        have hcancelled' : d.cancelled = false := by simpa using hcancelled
        split at h
        case h_1 hpc =>
          split at h
          · exact .inr (.inl ⟨hcancelled', hpc, (Option.some_inj.mp h).symm⟩)
          · cases h
        case h_2 pc hpc =>
          exact .inr (.inr ⟨hcancelled', pc, hpc, (Option.some_inj.mp h).symm⟩)
        case h_3 => cases h

/-- **A task that waits goes on.** -/
theorem Inv.drainStep (hinv : Inv s) {cfg : Config} {timedOut turn : Bool}
    (hclean : Clean s (.drainStep k timedOut turn))
    (h : s.drainStep cfg k timedOut turn = some t) : Inv t := by
  obtain ⟨d, hk, hover, ⟨hcancelled, rfl⟩ | ⟨hcancelled, hpc, rfl⟩ | ⟨hcancelled, pc, hpc, rfl⟩⟩ :=
    drainStep_cases h
  · exact hinv.cancelStep hk hover hcancelled
  · obtain ⟨hkeeps, hdrains⟩ := keeps_completeState cfg s
    have hk' : (s.completeState cfg).drains k = some d := (congrFun hdrains k).trans hk
    refine (hinv.congr hkeeps hdrains).setPc hk' hover ?_ (fun h => by cases h) fun h => ?_
    · rw [hpc]
      exact fun h => by cases h
    · exact completePc_ne s (DrainPc.finishing.inj h)
  · exact hinv.finishStep hk hpc (fun h => hclean d hk (h ▸ hpc) hcancelled) turn

/-- **A step.** -/
theorem Inv.step (cfg : Config) (hinv : Inv s) {a : Act} (hclean : Clean s a)
    (h : (machine cfg).step s a = some t) : Inv t := by
  cases a with
  | ttsDone stillPlaying =>
    dsimp only [machine] at h
    split at h
    case isFalse => cases h
    case isTrue hready =>
      obtain rfl := Option.some_inj.mp h
      unfold App.ttsDone
      split
      case isTrue => exact hinv
      case isFalse hreply =>
        refine (hinv.setPlaying _).complete cfg (fun e pc hpc => ?_) fun hconv => ?_
        · rw [show (s.setPlaying (s.playing && stillPlaying)).dispatcher = s.dispatcher from rfl,
            hready] at hpc
          cases hpc
        · exact hclean (by simpa using hreply) hconv
  | responseDone toolOnly =>
    dsimp only [machine] at h
    split at h
    case isFalse => cases h
    case isTrue hready =>
      obtain rfl := Option.some_inj.mp h
      split
      · exact hinv
      · refine hinv.setFree (fun e pc hpc => ?_) (fun e pc hpc => by cases hpc) rfl rfl (fun _ => rfl) rfl
        rw [hready] at hpc
        cases hpc
  | dispatcherStep turn =>
    dsimp only [machine] at h
    cases hpc : s.dispatcher with
    | ready =>
      rw [hpc] at h
      cases h
    | responding toolOnly =>
      rw [hpc] at h
      obtain rfl := Option.some_inj.mp h
      have hfree : ∀ e pc, s.dispatcher ≠ .completing e pc := by
        intro e pc h
        rw [hpc] at h
        cases h
      unfold App.respond
      split
      case isTrue =>
        exact hinv.setFree hfree (fun e pc hpc => by cases hpc) rfl rfl (fun _ => rfl) rfl
      case isFalse htool =>
        refine hinv.complete cfg hfree (hclean.1 ?_)
        rw [hpc]
        simpa using htool
    | completing e pc =>
      rw [hpc] at h
      obtain rfl := Option.some_inj.mp h
      exact hinv.completeStep hpc
        (fun hstop => hclean.2 e (hinv.inline e pc hpc).1 (hstop ▸ hpc)) turn
  | drainStep k timedOut turn => exact hinv.drainStep hclean h
  | playback playing =>
    obtain rfl := Option.some_inj.mp h
    exact hinv.setPlaying playing
  | interrupt =>
    obtain rfl := Option.some_inj.mp h
    exact hinv.overtake hclean
  | sleepElsewhere =>
    obtain rfl := Option.some_inj.mp h
    exact hinv.sleepEnd hclean
  | noFinal =>
    obtain rfl := Option.some_inj.mp h
    refine hinv.congr ⟨rfl, rfl, fun e => ?_, fun e he => he⟩ rfl
    exact List.count_cons_of_ne fun h => by cases h
  | elsewhere conv sleepAfter inGreeting retry awaitingNewReply =>
    obtain rfl := Option.some_inj.mp h
    exact hinv.congr ⟨rfl, rfl, fun _ => rfl, fun e he => he⟩ rfl

end OpenVoiceStream.Agent.AssistantDone
