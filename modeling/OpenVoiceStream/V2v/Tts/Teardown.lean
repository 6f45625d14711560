import OpenVoiceStream.V2v.Tts.Model

/-!
# The teardown of the reply

When the connection ends, `tts_out_task` is cancelled.  While it waits for a sentence to be
spoken it takes the cancellation for a barge-in, and goes on with its loop; and a cancellation
that comes when `wait_for` has a sentence already is lost.

## Main definitions

* `State.Over` — the task has left its loop.
* `State.Exits` — the loop ends by itself when its head is reached.
* `State.Heeds` — a cancellation takes effect.

## Main results

* `over_step` — the loop is left for good.
* `cancellation_ends_iff` — when a cancellation ends the task, and what a barge-in does.
* `teardownRun_goes_on` — a cancellation that is swallowed.
-/

namespace OpenVoiceStream
namespace V2v
namespace Tts

variable {β : Type} {cfg : Cfg β} {s s' : State β}

/-- `tts_out_task` has ended, or has left its loop and says so. -/
def State.Over (s : State β) : Prop := (∃ how, s.pc = .ended how) ∨ s.pc = .sendingDone

/-- The loop ends when its head is reached. -/
def State.Exits (cfg : Cfg β) (s : State β) : Prop :=
  s.clientClosed = true ∨
    (s.ttsFlush = true ∧ s.ttsQ = [] ∧
      ¬ (cfg.multiUtterance = true ∧ s.asrSessionClosed = false))

/-- A cancellation of `tts_out_task` takes effect: it is at an await that lets it through, or
the loop ends anyway.  The wait for a sentence lets only through what the `drain` task raises,
and `wait_for` lets nothing through once it has a sentence. -/
def State.Heeds (cfg : Cfg β) (s : State β) : Prop :=
  match s.pc with
  | .getting (.taken u) => cfg.speakable u.sentence = [] ∧ s.Exits cfg
  | .waiting told => (told = true ∧ s.childEnd = some .raised) ∨ s.Exits cfg
  | _ => True

/-! ### Leaving the loop -/

theorem leaveLoop_over (s : State β) : s.leaveLoop.Over := by
  unfold State.leaveLoop State.Over
  dsimp only
  split
  · exact .inl ⟨_, rfl⟩
  · exact .inr rfl

/-- What the head of the loop does. -/
theorem loopHead_over_iff : (s.loopHead cfg).Over ↔ s.Exits cfg := by
  unfold State.loopHead State.Exits
  split
  · next hclosed => exact iff_of_true (leaveLoop_over s) (.inl hclosed)
  · next hopen =>
    split
    · next hflushed =>
      split
      · next hturn =>
        refine iff_of_false ?_ ?_
        · rintro (⟨how, h⟩ | h)
          · cases h
          · cases h
        · rintro (h | ⟨_, _, h⟩)
          · exact hopen h
          · exact h hturn
      · next hturn =>
        exact iff_of_true (leaveLoop_over s) (.inr ⟨hflushed.1, hflushed.2, hturn⟩)
    · next hmore =>
      refine iff_of_false ?_ ?_
      · rintro (⟨how, h⟩ | h)
        · cases h
        · cases h
      · rintro (h | ⟨hflush, hq, _⟩)
        · exact hopen h
        · exact hmore ⟨hflush, hq⟩

theorem gotten_over_iff {u : Utterance} :
    (s.gotten cfg u).Over ↔ cfg.speakable u.sentence = [] ∧ s.Exits cfg := by
  unfold State.gotten
  split
  · next hempty =>
    rw [loopHead_over_iff]
    exact (and_iff_right hempty).symm
  · next hspoken =>
    refine iff_of_false ?_ fun h => hspoken h.1
    rintro (⟨how, h⟩ | h)
    · cases h
    · cases h

/-- A cancellation that reaches the task. -/
theorem deliver_over_iff : (s.deliver cfg).Over ↔ s.Heeds cfg := by
  unfold State.deliver State.Heeds
  cases hpc : s.pc with
  | getting g =>
    cases g with
    | taken u => exact gotten_over_iff
    | pending => exact iff_of_true (.inl ⟨_, rfl⟩) trivial
    | expired => exact iff_of_true (.inl ⟨_, rfl⟩) trivial
  | waiting told =>
    dsimp only
    split
    · next hraised => exact iff_of_true (.inl ⟨_, rfl⟩) (.inl hraised)
    · next hraised =>
      -- the head of the loop is reached, with or without the task left to itself
      have hexits : ((told = true ∧ s.childEnd = some .raised) ∨ s.Exits cfg) ↔ s.Exits cfg :=
        ⟨fun h => h.resolve_left fun h => hraised h, .inr⟩
      rw [hexits]
      split
      · exact loopHead_over_iff
      · exact loopHead_over_iff
  | created => exact iff_of_true (.inl ⟨_, rfl⟩) trivial
  | sendingTurnDone => exact iff_of_true (.inl ⟨_, rfl⟩) trivial
  | sendingDeadline => exact iff_of_true (.inl ⟨_, rfl⟩) trivial
  | sendingDone => exact iff_of_true (.inl ⟨_, rfl⟩) trivial
  | ended how => exact iff_of_true (.inl ⟨_, rfl⟩) trivial

/-! ### The loop is left for good -/

theorem over_abort (hover : s.Over) : s.abort.Over := by
  have hpc : s.abort.pc = s.pc.hold := rfl
  unfold State.Over
  rw [hpc]
  rcases hover with ⟨how, h⟩ | h
  · rw [h]
    exact .inl ⟨how, rfl⟩
  · rw [h]
    exact .inr rfl

theorem over_resume (hover : s.Over) (hstep : s.resume cfg = some s') : s'.Over := by
  unfold State.resume at hstep
  rcases hover with ⟨how, h⟩ | h
  · rw [h] at hstep
    cases hstep
  · rw [h] at hstep
    exact Option.some.inj hstep ▸ .inl ⟨_, rfl⟩

theorem heeds_of_over (hover : s.Over) : s.Heeds cfg := by
  unfold State.Heeds
  rcases hover with ⟨how, h⟩ | h
  · rw [h]
    trivial
  · rw [h]
    trivial

/-- Once the loop has been left, it is not entered again. -/
theorem over_step (hover : s.Over) {a : Act} (hstep : step cfg s a = some s') : s'.Over := by
  -- the task is at no other await
  have hother : ∀ pc, s.pc = pc → (∀ how, pc ≠ .ended how) → pc = .sendingDone := by
    intro pc hpc hnot
    rcases hover with ⟨how, h⟩ | h
    · exact absurd (hpc.symm.trans h) (hnot how)
    · exact hpc.symm.trans h
  cases a with
  | text text => exact Option.some.inj hstep ▸ hover
  | flush => exact Option.some.inj hstep ▸ hover
  | directSpeak text =>
    rw [← Option.some.inj hstep]
    unfold State.directSpeak
    split
    · exact hover
    · exact hover
  | abort => exact Option.some.inj hstep ▸ over_abort hover
  | bargeIn => exact Option.some.inj hstep ▸ hover
  | closeClient => exact Option.some.inj hstep ▸ hover
  | closeAsr => exact Option.some.inj hstep ▸ hover
  | cancel =>
    rw [← Option.some.inj hstep]
    unfold State.cancel
    split
    · exact hover
    · exact hover
  | get =>
    simp only [step] at hstep
    split at hstep
    · next hpc _ => cases hother _ hpc nofun
    · cases hstep
  | getTimeout =>
    simp only [step] at hstep
    split at hstep
    · next hpc _ => cases hother _ hpc nofun
    · cases hstep
  | drain =>
    simp only [step] at hstep
    split at hstep
    · exact Option.some.inj hstep ▸ hover
    · cases hstep
  | drainRaises =>
    simp only [step] at hstep
    split at hstep
    · exact Option.some.inj hstep ▸ hover
    · cases hstep
  | told =>
    simp only [step] at hstep
    split at hstep
    · next hpc _ => cases hother _ hpc nofun
    · cases hstep
  | deadline =>
    simp only [step] at hstep
    split at hstep
    · next hpc _ => cases hother _ hpc nofun
    · cases hstep
  | drainDetached i =>
    simp only [step] at hstep
    split at hstep
    · exact Option.some.inj hstep ▸ hover
    · cases hstep
  | wake =>
    simp only [step] at hstep
    split at hstep
    · exact Option.some.inj hstep ▸ deliver_over_iff.mpr (heeds_of_over hover)
    · exact over_resume hover hstep

/-- However the run goes on. -/
theorem forall_over_iff (cfg : Cfg β) (s : State β) :
    (∀ as t, (machine cfg).runFrom s as = some t → t.Over) ↔ s.Over := by
  constructor
  · exact fun h => h [] s rfl
  · intro hover as t hrun
    exact (machine cfg).invariant_of_step_from (fun _ _ _ h hstep => over_step h hstep) hover hrun

/-- **When a cancellation ends `tts_out_task`.**  In every state: a cancellation that is delivered
to the task makes it leave its loop for good exactly when it heeds the cancellation; and when the
`drain` task has been cancelled alone, the task goes on with its loop, unless that ends anyway. -/
theorem cancellation_ends_iff (cfg : Cfg β) (s : State β) :
    (s.cancelling = true → ∃ s', step cfg s .wake = some s' ∧
        ((∀ as t, (machine cfg).runFrom s' as = some t → t.Over) ↔ s.Heeds cfg)) ∧
      (s.cancelling = false → s.pc = .waiting true → s.childEnd = some .cancelled →
        ∃ s', step cfg s .wake = some s' ∧
          ((∀ as t, (machine cfg).runFrom s' as = some t → t.Over) ↔ s.Exits cfg)) := by
  constructor
  · intro hcancel
    refine ⟨s.deliver cfg, if_pos hcancel, ?_⟩
    rw [forall_over_iff]
    exact deliver_over_iff
  · intro hcancel hpc hchild
    refine ⟨s.detach.loopHead cfg, ?_, ?_⟩
    · have hresume : s.resume cfg = some (s.detach.loopHead cfg) := by
        unfold State.resume
        rw [hpc]
        dsimp only
        rw [hchild]
      rw [← hresume]
      exact if_neg (by rw [hcancel]; exact Bool.false_ne_true)
    · rw [forall_over_iff]
      exact loopHead_over_iff

/-- The task is cancelled while it waits for a sentence, after the client has gone. -/
def closedRun : List Act :=
  [.wake, .text "Hi!".toList, .get, .wake, .drain, .closeClient, .cancel]

theorem cancellation_ends_closedRun :
    ∃ s, (machine exampleCfg).run closedRun = some s ∧ s.cancelling = true ∧
      ∃ s', step exampleCfg s .wake = some s' ∧
        ((∀ as t, (machine exampleCfg).runFrom s' as = some t → t.Over) ↔ s.Heeds exampleCfg) :=
  ⟨_, rfl, rfl, (cancellation_ends_iff exampleCfg _).1 rfl⟩

/-- **A cancellation that is swallowed**: another task has failed, `tts_out_task` is cancelled
while it waits for a sentence, and waits for the next one. -/
theorem teardownRun_goes_on :
    ∃ s, (machine exampleCfg).run
        [.wake, .text "Hi!".toList, .get, .wake, .drain, .cancel, .wake] = some s ∧
      s.pc = .getting .pending ∧ s.cancelling = false ∧ s.clientClosed = false ∧
      (machine exampleCfg).runFrom s [.wake] = none :=
  ⟨_, rfl, rfl, rfl, rfl, rfl⟩

end Tts
end V2v
end OpenVoiceStream
