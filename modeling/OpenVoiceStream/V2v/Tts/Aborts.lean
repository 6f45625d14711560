import OpenVoiceStream.V2v.Tts.Model

/-!
# Aborts and the reply

An abort empties the queue and interrupts the sentence that is being spoken, so that no sentence
that was cut before it is spoken after it.  What is still in the buffer stays there, and is
spoken with the text that comes next.

A sentence that `wait_for` has got out of the queue, and `tts_out_task` has not got yet, is not
found by the abort.

## Main definitions

* `Utterance.Fresh` — a sentence that may still be spoken.
* `Inv` — the invariant.

## Main results

* `step_inv` — one step.
* `no_stale_sentence` — the sentences that are spoken, in every run.
* `remainderRun_speaks` — what was in the buffer is spoken.
-/

namespace OpenVoiceStream
namespace V2v
namespace Tts

variable {β : Type} {cfg : Cfg β} {s s' : State β}

/-- The sentence has left the buffer after the last abort, or an abort has missed it. -/
def Utterance.Fresh (u : Utterance) (aborts : ℕ) : Prop := u.epoch = aborts ∨ u.held = true

instance (u : Utterance) (aborts : ℕ) : Decidable (u.Fresh aborts) := by
  unfold Utterance.Fresh; infer_instance

/-- Whatever may still be spoken is fresh, and what has been spoken was. -/
structure Inv (s : State β) : Prop where
  queued : ∀ u ∈ s.ttsQ, u.Fresh s.aborts
  taken : ∀ u, s.pc = .getting (.taken u) → u.Fresh s.aborts
  speaking : ∀ d ∈ s.current, d.stop = false → d.utterance.Fresh s.aborts
  stopped : ∀ d ∈ s.detached, d.stop = true
  noted : ∀ e ∈ s.started, e.1.Fresh e.2

/-! ### The `drain` tasks -/

/-- A task does not start the synthesis once it is told to stop. -/
theorem Drain.Starts.stop {d : Drain} (h : d.Starts) : d.stop = false := by
  obtain ⟨hbefore, hafter⟩ := h
  cases hstop : d.stop with
  | false => rfl
  | true =>
    exfalso
    unfold Drain.advance at hafter
    cases hpc : d.pc with
    | synthesizing => exact hbefore hpc
    | ended how =>
      rw [hpc] at hafter
      cases hafter
    | _ =>
      rw [hpc, hstop] at hafter
      cases hcancelled : d.cancelled <;> rw [hcancelled] at hafter <;> cases hafter

@[simp] theorem advance_stop (d : Drain) : d.advance.stop = d.stop := by
  unfold Drain.advance
  cases d.pc <;> rfl

@[simp] theorem advance_utterance (d : Drain) : d.advance.utterance = d.utterance := by
  unfold Drain.advance
  cases d.pc <;> rfl

/-- What is noted when a task runs. -/
theorem noted_note (hinv : Inv s) {d : Drain} (hd : d.stop = false → d.utterance.Fresh s.aborts) :
    ∀ e ∈ (s.note d).started, e.1.Fresh e.2 := by
  intro e he
  rcases List.mem_append.mp he with he | he
  · exact hinv.noted e he
  · split at he
    · next hstarts =>
      obtain rfl := List.mem_singleton.mp he
      exact hd hstarts.stop
    · cases he

/-! ### The steps -/

theorem inv_start (cfg : Cfg β) : Inv (State.start cfg) where
  queued := fun _ h => by cases h
  taken := fun _ h => by cases h
  speaking := fun _ h => by cases h
  stopped := fun _ h => by cases h
  noted := fun _ h => by cases h

/-- `tts_out_task` moves, and has no sentence in its hands. -/
theorem Inv.move (hinv : Inv s) {pc : Pc} (hpc : ∀ u, pc ≠ .getting (.taken u)) :
    Inv { s with pc := pc } where
  queued := hinv.queued
  taken := fun u h => absurd h (hpc u)
  speaking := hinv.speaking
  stopped := hinv.stopped
  noted := hinv.noted

theorem Inv.loopHead (hinv : Inv s) : Inv (s.loopHead cfg) := by
  obtain ⟨hq, hcurrent, hdetached, haborts, hstarted⟩ := loopHead_frame cfg s
  constructor
  · rw [hq, haborts]
    exact hinv.queued
  · exact fun u h => absurd h (loopHead_pc_ne cfg s u)
  · rw [hcurrent, haborts]
    exact hinv.speaking
  · rw [hdetached]
    exact hinv.stopped
  · rw [hstarted]
    exact hinv.noted

theorem Inv.clear (hinv : Inv s) : Inv s.clear where
  queued := hinv.queued
  taken := hinv.taken
  speaking := fun _ h => by cases h
  stopped := hinv.stopped
  noted := hinv.noted

theorem Inv.detach (hinv : Inv s) : Inv s.detach where
  queued := hinv.queued
  taken := hinv.taken
  speaking := fun _ h => by cases h
  stopped := by
    intro d hd
    rcases List.mem_append.mp hd with hd | hd
    · exact hinv.stopped d hd
    · obtain ⟨_, _, rfl⟩ := List.mem_map.mp hd
      rfl
  noted := hinv.noted

theorem Inv.gotten (hinv : Inv s) {u : Utterance} (hu : u.Fresh s.aborts) :
    Inv (s.gotten cfg u) := by
  unfold State.gotten
  split
  · exact hinv.loopHead
  · constructor
    · exact hinv.queued
    · intro _ h
      cases h
    · intro d hd _
      obtain rfl := Option.some.inj hd
      exact hu
    · exact hinv.stopped
    · exact hinv.noted

theorem Inv.put (hinv : Inv s) (emitted : List Text × β) : Inv (s.put emitted) where
  queued := by
    intro u hu
    rcases List.mem_append.mp hu with hu | hu
    · exact hinv.queued u hu
    · obtain ⟨_, _, rfl⟩ := List.mem_map.mp hu
      exact .inl rfl
  taken := hinv.taken
  speaking := hinv.speaking
  stopped := hinv.stopped
  noted := hinv.noted

theorem Inv.flush (hinv : Inv s) : Inv (s.flush cfg) :=
  have hput := hinv.put (cfg.buffer.flush s.ttsBuffer)
  { queued := hput.queued
    taken := hput.taken
    speaking := hput.speaking
    stopped := hput.stopped
    noted := hput.noted }

theorem Inv.directSpeak (hinv : Inv s) (text : Text) : Inv (s.directSpeak cfg text) := by
  unfold State.directSpeak
  split
  · exact ⟨hinv.queued, hinv.taken, hinv.speaking, hinv.stopped, hinv.noted⟩
  · exact (hinv.put _).flush

/-- A task that is interrupted is told to stop. -/
theorem stop_of_mem_bargeIn {d : Drain} (h : d ∈ s.bargeIn.current) : d.stop = true := by
  obtain ⟨_, _, rfl⟩ := Option.map_eq_some_iff.mp h
  rfl

theorem Inv.bargeIn (hinv : Inv s) : Inv s.bargeIn where
  queued := hinv.queued
  taken := hinv.taken
  speaking := fun d hd hstop => by rw [stop_of_mem_bargeIn hd] at hstop; cases hstop
  stopped := hinv.stopped
  noted := hinv.noted

/-- An abort leaves nothing of what was queued. -/
theorem Inv.abort (hinv : Inv s) : Inv s.abort where
  queued := fun _ h => by cases h
  taken := by
    intro u h
    have hhold : s.pc.hold = .getting (.taken u) := h
    unfold Pc.hold at hhold
    split at hhold
    · cases hhold
      exact .inr rfl
    · next hother => exact absurd hhold (hother u)
  speaking := fun d hd hstop => by rw [stop_of_mem_bargeIn hd] at hstop; cases hstop
  stopped := hinv.stopped
  noted := hinv.noted

theorem Inv.drain (hinv : Inv s) {d : Drain} (hd : d ∈ s.current) : Inv (s.drain d) where
  queued := hinv.queued
  taken := hinv.taken
  speaking := by
    intro d' hd' hstop
    obtain rfl := Option.some.inj hd'
    rw [advance_stop] at hstop
    rw [advance_utterance]
    exact hinv.speaking d hd hstop
  stopped := hinv.stopped
  noted := noted_note hinv (hinv.speaking d hd)

theorem Inv.drainDetached (hinv : Inv s) {i : ℕ} {d : Drain} (hd : s.detached[i]? = some d) :
    Inv (s.drainDetached i d) where
  queued := hinv.queued
  taken := hinv.taken
  speaking := hinv.speaking
  stopped := by
    intro d' hd'
    rcases List.mem_or_eq_of_mem_set hd' with hd' | rfl
    · exact hinv.stopped d' hd'
    · rw [advance_stop]
      exact hinv.stopped d (List.mem_of_getElem? hd)
  noted := by
    apply noted_note hinv
    intro hstop
    rw [hinv.stopped d (List.mem_of_getElem? hd)] at hstop
    cases hstop

/-- A cancellation reaches `tts_out_task`. -/
theorem Inv.deliver (hinv : Inv s) : Inv (s.deliver cfg) := by
  have hdone : Inv { s with cancelling := false } :=
    ⟨hinv.queued, hinv.taken, hinv.speaking, hinv.stopped, hinv.noted⟩
  unfold State.deliver
  dsimp only
  split
  · next u hpc => exact hdone.gotten (hinv.taken u hpc)
  · split
    · exact hdone.clear.move nofun
    · split
      · exact hdone.clear.loopHead
      · exact hdone.detach.loopHead
  · exact hdone.detach.move nofun
  · exact hdone.move nofun
  · exact hdone.move nofun

theorem Inv.resume (hinv : Inv s) (hstep : s.resume cfg = some s') : Inv s' := by
  unfold State.resume at hstep
  split at hstep
  · exact Option.some.inj hstep ▸ hinv.loopHead
  · exact Option.some.inj hstep ▸ hinv.loopHead
  · exact Option.some.inj hstep ▸ hinv.loopHead
  · next u hpc => exact Option.some.inj hstep ▸ hinv.gotten (hinv.taken u hpc)
  · split at hstep
    · exact Option.some.inj hstep ▸ hinv.clear.loopHead
    · exact Option.some.inj hstep ▸ hinv.detach.loopHead
    · exact Option.some.inj hstep ▸ hinv.clear.move nofun
    · cases hstep
  · exact Option.some.inj hstep ▸ hinv.detach.loopHead
  · exact Option.some.inj hstep ▸ hinv.move nofun
  · cases hstep
  · cases hstep
  · cases hstep

/-- `get` takes the first sentence of the queue. -/
theorem Inv.get {u : Utterance} {rest : List Utterance} (hinv : Inv s) (hq : s.ttsQ = u :: rest) :
    Inv { s with ttsQ := rest, pc := .getting (.taken u) } where
  queued := fun v hv => hinv.queued v (hq ▸ List.mem_cons_of_mem u hv)
  taken := by
    intro v hv
    cases hv
    exact hinv.queued u (hq ▸ List.mem_cons_self)
  speaking := hinv.speaking
  stopped := hinv.stopped
  noted := hinv.noted

theorem Inv.deadline (hinv : Inv s) : Inv { s.stopCurrent with pc := .sendingDeadline } where
  queued := hinv.queued
  taken := fun _ h => by cases h
  speaking := by
    intro d hd hstop
    obtain ⟨_, _, rfl⟩ := Option.map_eq_some_iff.mp hd
    cases hstop
  stopped := hinv.stopped
  noted := hinv.noted

/-- One step keeps the invariant. -/
theorem step_inv (hinv : Inv s) {a : Act} (hstep : step cfg s a = some s') : Inv s' := by
  cases a with
  | text text => exact Option.some.inj hstep ▸ hinv.put _
  | flush => exact Option.some.inj hstep ▸ hinv.flush
  | directSpeak text => exact Option.some.inj hstep ▸ hinv.directSpeak text
  | abort => exact Option.some.inj hstep ▸ hinv.abort
  | bargeIn => exact Option.some.inj hstep ▸ hinv.bargeIn
  | closeClient =>
    exact Option.some.inj hstep ▸
      ⟨hinv.queued, hinv.taken, hinv.speaking, hinv.stopped, hinv.noted⟩
  | closeAsr =>
    exact Option.some.inj hstep ▸
      ⟨hinv.queued, hinv.taken, hinv.speaking, hinv.stopped, hinv.noted⟩
  | cancel =>
    rw [← Option.some.inj hstep]
    unfold State.cancel
    split
    · exact hinv
    · exact ⟨hinv.queued, hinv.taken, hinv.speaking, hinv.stopped, hinv.noted⟩
  | get =>
    simp only [step] at hstep
    split at hstep
    · next hq => exact Option.some.inj hstep ▸ hinv.get hq
    · cases hstep
  | getTimeout =>
    simp only [step] at hstep
    split at hstep
    · exact Option.some.inj hstep ▸ hinv.move nofun
    · cases hstep
  | drain =>
    simp only [step] at hstep
    split at hstep
    · next d hd => exact Option.some.inj hstep ▸ hinv.drain hd
    · cases hstep
  | drainRaises =>
    simp only [step] at hstep
    split at hstep
    · next d hd _ =>
      rw [← Option.some.inj hstep]
      refine ⟨hinv.queued, hinv.taken, ?_, hinv.stopped, hinv.noted⟩
      intro d' hd' hstop
      obtain rfl := Option.some.inj hd'
      exact hinv.speaking d hd hstop
    · cases hstep
  | told =>
    simp only [step] at hstep
    split at hstep
    · exact Option.some.inj hstep ▸ hinv.move nofun
    · cases hstep
  | deadline =>
    simp only [step] at hstep
    split at hstep
    · split at hstep
      · exact Option.some.inj hstep ▸ hinv.detach.loopHead
      · exact Option.some.inj hstep ▸ hinv.deadline
    · cases hstep
  | drainDetached i =>
    simp only [step] at hstep
    split at hstep
    · next d hd => exact Option.some.inj hstep ▸ hinv.drainDetached hd
    · cases hstep
  | wake =>
    simp only [step] at hstep
    split at hstep
    · exact Option.some.inj hstep ▸ hinv.deliver
    · exact hinv.resume hstep

/-! ### Runs -/

/-- **An abort discards what has been cut.**  In every run, a sentence that the executor gets has
left the buffer after the last abort that was processed before, or an abort has found it taken
out of the queue by `wait_for` and not yet in the hands of `tts_out_task`. -/
theorem no_stale_sentence (cfg : Cfg β) (as : List Act) {s : State β}
    (hrun : (machine cfg).run as = some s) :
    ∀ e ∈ s.started, e.1.epoch = e.2 ∨ e.1.held = true :=
  ((machine cfg).invariant_of_step (inv_start cfg)
    (fun _ _ _ hinv hstep => step_inv hinv hstep) hrun).noted

/-- The steps from the head of the loop until the executor has got a sentence. -/
def speakSteps : List Act := [.get, .wake, .drain, .drain, .drain, .drain, .drain]

/-- An abort after the first of two sentences, and a third sentence. -/
def abortRun : List Act :=
  .wake :: .text "Hi!".toList :: .text "Who?".toList :: speakSteps ++
    ([.abort, .drain, .told, .wake, .text "Yes!".toList] : List Act) ++ speakSteps

theorem no_stale_sentence_abortRun :
    ∃ s, (machine exampleCfg).run abortRun = some s ∧
      s.started.map (fun e => (e.1.sentence, e.2)) =
        [("Hi!".toList, 0), ("Yes!".toList, 1)] ∧
      ∀ e ∈ s.started, e.1.epoch = e.2 ∨ e.1.held = true :=
  ⟨_, rfl, rfl, no_stale_sentence exampleCfg abortRun rfl⟩

/-- **What is in the buffer outlives an abort**: the text came before the abort, and is spoken
after it. -/
theorem remainderRun_speaks :
    ∃ s, (machine exampleCfg).run
        (.wake :: .text "Hi".toList :: .abort :: .flush :: speakSteps) = some s ∧
      s.started.map (fun e => (e.1.sentence, e.2)) = [("Hi".toList, 1)] :=
  ⟨_, rfl, rfl⟩

end Tts
end V2v
end OpenVoiceStream
