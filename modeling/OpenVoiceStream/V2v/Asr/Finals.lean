import OpenVoiceStream.V2v.Asr.PendingTurns

/-!
# Finals and the triggers they answer

A speech-end, an `asr_eos` or an endpoint the backend reports triggers a firing, and a
firing leads to at most one final.  The marker of a speech-end or an `asr_eos` stays set
while its final is in flight; an accepted finalize clears it.  A firing that finds no
active stream is answered at once, and nothing clears the marker then.

## Main definitions

* `answered` — the triggers that finals have answered.
* `ConsumesMarker` — the guard: a firing is not answered while its own marker stays set.
* `Phase` — what `asr_out_task` owes; `Answers` — the invariant.

## Main results

* `step_answers`, `run_answers` — the invariant along runs that meet the guard.
* `finals_le_triggers` — in these runs every final has a trigger of its own.
* `idleEosRun_repeats_final` — one `asr_eos` on an idle connection: three finals.
-/

namespace OpenVoiceStream
namespace V2v
namespace Asr

variable {α : Type}

/-- The triggers that finals have answered, by number, latest first. -/
def answered : List (Event α) → List ℕ
  | [] => []
  | .final answers _ :: trace => answers :: answered trace
  | _ :: trace => answered trace

/-- A firing is not answered without a finalize while its own marker is set and the
session goes on. -/
def ConsumesMarker (s : State α) : Act α → Prop
  | .out _ => s.out.pc = .fired → s.asrActive = false → s.asrSessionClosed = false →
      s.endpointPending.isSome → s.markerNo ≠ s.out.answers
  | _ => True

instance (s : State α) (a : Act α) : Decidable (ConsumesMarker s a) := by
  cases a <;> unfold ConsumesMarker <;> infer_instance

/-! ### The invariant -/

/-- What `asr_out_task` owes. -/
inductive Phase
  | idle
  /-- An endpoint has fired for this trigger. -/
  | firing (answers : ℕ)
  /-- The final for this trigger is on its way. -/
  | answering (answers : ℕ)
  /-- The final for this trigger waits for the socket; the flag says that it is the last. -/
  | sending (answers : ℕ) (last : Bool)
  /-- No more finals. -/
  | over
  deriving DecidableEq, Repr

/-- The phase of `asr_out_task`. -/
def Out.phase (cfg : Cfg) (o : Out α) : Phase :=
  match o.pc with
  | .sendEndpoint | .fired | .prepWait | .prepared | .finalize _ | .finalizeCancel =>
    .firing o.answers
  | .enrich | .punct | .speakerTest | .speaker | .final => .answering o.answers
  | .finalLock => .sending o.answers (o.closing || !cfg.multiUtterance)
  | .finalSend => if o.closing || !cfg.multiUtterance then .over else .idle
  | .ended => .over
  | _ => .idle

section Answers

variable {marked closed closed' last : Bool} {no n a : ℕ} {phase : Phase} {done : List ℕ}

/-- The invariant, after `n` triggers of which those in `done` are answered. -/
structure Answers (marked : Bool) (no : ℕ) (closed : Bool) (phase : Phase) (n : ℕ)
    (done : List ℕ) : Prop where
  nodup : done.Nodup
  lt : ∀ a ∈ done, a < n
  /-- The marker has not been answered, unless nobody will look at it again. -/
  marker : phase ≠ .over → marked → no < n ∧ no ∉ done
  firing : ∀ a, phase = .firing a → a < n ∧ a ∉ done
  answering : ∀ a, phase = .answering a → a < n ∧ a ∉ done ∧ (closed = false → marked → no ≠ a)
  sending : ∀ a last, phase = .sending a last →
    a < n ∧ a ∉ done ∧ (last = false → marked → no ≠ a)

theorem Answers.unmark (h : Answers marked no closed phase n done) :
    Answers false no closed phase n done :=
  ⟨h.nodup, h.lt, by simp, h.firing, fun a ha => ⟨(h.answering a ha).1, (h.answering a ha).2.1, by simp⟩,
    fun a last ha => ⟨(h.sending a last ha).1, (h.sending a last ha).2.1, by simp⟩⟩

/-- A new trigger sets the marker. -/
theorem Answers.mark (h : Answers marked no closed phase n done) :
    Answers true n closed phase (n + 1) done := by
  have hfresh : n ∉ done := fun hmem => lt_irrefl n (h.lt n hmem)
  refine ⟨h.nodup, fun a ha => Nat.lt_succ_of_lt (h.lt a ha), fun _ _ => ⟨Nat.lt_succ_self n, hfresh⟩,
    fun a ha => ⟨Nat.lt_succ_of_lt (h.firing a ha).1, (h.firing a ha).2⟩, fun a ha => ?_,
    fun a last ha => ?_⟩
  · obtain ⟨hlt, hnot, _⟩ := h.answering a ha
    exact ⟨Nat.lt_succ_of_lt hlt, hnot, fun _ _ => Nat.ne_of_gt hlt⟩
  · obtain ⟨hlt, hnot, _⟩ := h.sending a last ha
    exact ⟨Nat.lt_succ_of_lt hlt, hnot, fun _ _ => Nat.ne_of_gt hlt⟩

/-- A trigger that sets no marker. -/
theorem Answers.observe (h : Answers marked no closed phase n done) :
    Answers marked no closed phase (n + 1) done := by
  refine ⟨h.nodup, fun a ha => Nat.lt_succ_of_lt (h.lt a ha),
    fun ho hm => ⟨Nat.lt_succ_of_lt (h.marker ho hm).1, (h.marker ho hm).2⟩,
    fun a ha => ⟨Nat.lt_succ_of_lt (h.firing a ha).1, (h.firing a ha).2⟩,
    fun a ha => ⟨Nat.lt_succ_of_lt (h.answering a ha).1, (h.answering a ha).2⟩,
    fun a last ha => ⟨Nat.lt_succ_of_lt (h.sending a last ha).1, (h.sending a last ha).2⟩⟩

/-- A closed session stays closed. -/
theorem Answers.close (h : Answers marked no closed phase n done)
    (hc : closed = true → closed' = true) : Answers marked no closed' phase n done := by
  refine ⟨h.nodup, h.lt, h.marker, h.firing, fun a ha => ?_, h.sending⟩
  obtain ⟨hlt, hnot, hne⟩ := h.answering a ha
  refine ⟨hlt, hnot, fun hc' => hne ?_⟩
  cases closed
  · rfl
  · exact absurd (hc rfl) (by simp [hc'])

/-- Whatever was owed may be given up. -/
theorem Answers.rest (h : Answers marked no closed phase n done) (ho : phase ≠ .over) :
    Answers marked no closed .idle n done :=
  ⟨h.nodup, h.lt, fun _ => h.marker ho, by simp, by simp, by simp⟩

theorem Answers.finish (h : Answers marked no closed phase n done) :
    Answers marked no closed .over n done :=
  ⟨h.nodup, h.lt, by simp, by simp, by simp, by simp⟩

/-- An endpoint fires for an open trigger. -/
theorem Answers.fire (h : Answers marked no closed phase n done) (ho : phase ≠ .over)
    (ha : a < n ∧ a ∉ done) : Answers marked no closed (.firing a) n done :=
  ⟨h.nodup, h.lt, fun _ => h.marker ho, by simpa using ha, by simp, by simp⟩

/-- The final is on its way. -/
theorem Answers.answer (h : Answers marked no closed (.firing a) n done)
    (hne : closed = false → marked → no ≠ a) :
    Answers marked no closed (.answering a) n done :=
  ⟨h.nodup, h.lt, fun _ => h.marker (by simp), by simp,
    by simpa using ⟨(h.firing a rfl).1, (h.firing a rfl).2, hne⟩, by simp⟩

/-- The final waits for the socket. -/
theorem Answers.wait (h : Answers marked no closed (.answering a) n done)
    (hlast : last = false → closed = false) :
    Answers marked no closed (.sending a last) n done := by
  obtain ⟨hlt, hnot, hne⟩ := h.answering a rfl
  refine ⟨h.nodup, h.lt, fun _ => h.marker (by simp), by simp, by simp, ?_⟩
  rintro b last' hb
  cases hb
  exact ⟨hlt, hnot, fun hl => hne (hlast hl)⟩

/-- The final is handed to the socket. -/
theorem Answers.send (h : Answers marked no closed (.sending a last) n done) :
    Answers marked no closed (if last then .over else .idle) n (a :: done) := by
  obtain ⟨hlt, hnot, hne⟩ := h.sending a last rfl
  have hnodup : (a :: done).Nodup := List.nodup_cons.mpr ⟨hnot, h.nodup⟩
  have hall : ∀ b ∈ a :: done, b < n := by
    intro b hb
    rcases List.mem_cons.mp hb with rfl | hb
    · exact hlt
    · exact h.lt b hb
  cases last
  · refine ⟨hnodup, hall, fun _ hm => ?_, by simp, by simp, by simp⟩
    obtain ⟨hlt', hnot'⟩ := h.marker (by simp) hm
    exact ⟨hlt', by simp [hne rfl hm, hnot']⟩
  · exact ⟨hnodup, hall, by simp, by simp, by simp, by simp⟩

end Answers

/-! ### Steps -/

variable {cfg : Cfg} {s s' : State α} {e : Env}

/-- The invariant of a state. -/
def State.Answers (cfg : Cfg) (s : State α) : Prop :=
  Asr.Answers s.endpointPending.isSome s.markerNo s.asrSessionClosed (s.out.phase cfg)
    (triggers s.trace) (answered s.trace)

theorem answers_rejectPending (hs : s.Answers cfg) (reason : String) :
    (s.rejectPending reason).Answers cfg :=
  (Answers.unmark hs).close (fun _ => rfl)

theorem answers_admitAudio (hs : s.Answers cfg) : (admitAudio cfg s).Answers cfg := by
  obtain ⟨disp, inSpeech, heq⟩ := admitAudio_eq cfg s
  rw [heq]
  exact hs

theorem answers_dispSegment (hs : s.Answers cfg) : (dispSegment cfg s).Answers cfg := by
  have harrived : State.Answers cfg { s with trace := .arrived s.disp.current :: s.trace } := hs
  unfold dispSegment
  dsimp only
  split
  case isTrue hblocked =>
    split
    · exact hs
    split
    · split
      · exact answers_rejectPending harrived _
      · split <;> exact hs
    · split
      · exact answers_rejectPending harrived _
      · split <;> exact hs
  case isFalse => split <;> exact hs

/-- The dispatcher's steps. -/
theorem dispStep_answers (hs : s.Answers cfg) (h : dispStep cfg s e = some s') :
    s'.Answers cfg := by
  cases hpc : s.disp.pc <;> simp only [dispStep, hpc] at h
  case recv => cases h
  case ended => cases h
  case segment =>
    cases h
    exact answers_dispSegment hs
  case pendingStart =>
    cases h
    unfold dispPendingStart
    split
    · exact answers_rejectPending (s := s.send e (.vadEvent .speechStart)) hs _
    · exact hs
  case joinCancel =>
    split at h
    · split at h <;> cases h
      exact answers_admitAudio (s := { s with asrCancelTask := none }) hs
    · cases h
      exact hs
  case joinFailed =>
    cases h
    exact Answers.close hs fun _ => rfl
  case liveStart =>
    cases h
    unfold dispLiveStart
    repeat' split
    all_goals exact hs
  case openTurn =>
    split at h <;> cases h
    · unfold dispOpened
      dsimp only
      split <;> exact Answers.unmark hs
    · exact hs
  case openFailed =>
    cases h
    exact Answers.unmark hs
  case lazyTest =>
    cases h
    unfold dispLazyTest
    split <;> exact hs
  case lazyOpen =>
    split at h <;> cases h
    · exact Answers.unmark hs
    · exact hs
  case latch =>
    cases h
    unfold dispLatch
    split
    · split
      · exact (Answers.mark hs).close fun hc => by simp [hc]
      · exact hs
    · exact hs
  case ring =>
    cases h
    unfold dispRing
    split <;> exact hs
  case pendingEnd | rejecting | lazyFailed | latched =>
    cases h
    exact hs
  case replay | feed | feedTest =>
    split at h <;> cases h <;> exact hs

/-- Frames of the client. -/
theorem receive_answers {msg : Msg α} (hs : s.Answers cfg) (h : receive cfg s msg = some s') :
    s'.Answers cfg := by
  unfold receive at h
  split at h <;> cases h
  split
  · exact hs
  cases msg with
  | audio samples flips =>
    show (receiveAudio cfg s samples flips).Answers cfg
    unfold receiveAudio
    split
    · exact hs
    · exact answers_admitAudio (s := { s with asrCancelTask := none, disp.block := (samples, flips) }) hs
  | asrEos => exact (Answers.mark hs).close fun hc => by simp [receiveMsg, hc]
  | abort keepAsr =>
    simp only [receiveMsg]
    split
    · exact hs
    · rw [abortAsr_eq]
      exact Answers.unmark hs
  | asrPrepare | other | disconnect => exact hs

theorem answers_outNotAccepted (hs : s.Answers cfg) (ho : s.out.phase cfg ≠ .over)
    (failure : Option String) : (outNotAccepted s e failure).Answers cfg := by
  have hrest := Answers.rest hs ho
  unfold outNotAccepted
  dsimp only
  repeat' split
  all_goals first
    | exact hrest.unmark
    | exact hrest

theorem answers_outCancelled (hs : s.Answers cfg) (ho : s.out.phase cfg ≠ .over) :
    (outCancelled s e).Answers cfg := by
  unfold outCancelled
  split
  · exact answers_outNotAccepted (s := { s with asrAbortRequested := false }) hs ho none
  · exact Answers.finish hs

/-- An accepted finalize clears the marker. -/
theorem answers_outAccepted (hs : s.Answers cfg) (hphase : s.out.phase cfg = .firing s.out.answers)
    (text : String) (language : Option String) :
    (outAccepted cfg s text language).Answers cfg := by
  unfold State.Answers at hs
  rw [hphase] at hs
  have hanswer := hs.unmark.answer (by simp)
  unfold outAccepted State.movePendingTailToPreroll
  dsimp only
  repeat' split
  all_goals exact hanswer

theorem answers_outFinalize (hs : s.Answers cfg) (wait : Wait) (outcome : Outcome)
    (hpc : s.out.pc = .finalize wait) : (outFinalize cfg s e wait outcome).Answers cfg := by
  have hphase : s.out.phase cfg = .firing s.out.answers := by simp [Out.phase, hpc]
  have ho : s.out.phase cfg ≠ .over := by simp [hphase]
  unfold outFinalize
  split
  · exact answers_outCancelled hs ho
  · exact answers_outCancelled hs ho
  · exact answers_outAccepted hs hphase _ _
  · exact answers_outNotAccepted hs ho _
  · exact Answers.finish hs
  all_goals
    show Asr.Answers _ _ _ (.firing s.out.answers) _ _
    rw [← hphase]
    exact hs

/-- The look at the marker: whatever fires has an open trigger. -/
theorem answers_outDecide (hs : s.Answers cfg) (hpc : s.out.pc = .decide) :
    (outDecide cfg s).Answers cfg := by
  have hphase : s.out.phase cfg = .idle := by simp [Out.phase, hpc]
  unfold State.Answers at hs
  rw [hphase] at hs
  obtain ⟨t, ht, htout, hts⟩ : ∃ t, (if staleEndpoint s then s.clearEndpoint else s) = t ∧
      t.out = s.out ∧ Asr.Answers t.endpointPending.isSome t.markerNo t.asrSessionClosed .idle
        (triggers t.trace) (answered t.trace) := by
    refine ⟨_, rfl, ?_, ?_⟩ <;> split
    · rfl
    · rfl
    · exact Answers.unmark hs
    · exact hs
  unfold outDecide
  rw [ht]
  dsimp only
  have hclose : t.asrSessionClosed = true →
      (t.asrSessionClosed || !cfg.multiUtterance) = true := fun hc => by simp [hc]
  split
  case isFalse => exact hts
  case isTrue hfired =>
    by_cases hmark : t.endpointPending.isSome
    · -- the trigger that set the marker
      have hfire := (Answers.fire hts (by simp) (hts.marker (by simp) hmark)).close hclose
      by_cases hobs : (t.out.isEndpoint && t.asrActive) = true
      · simp only [hmark, hobs, if_true]
        split <;> exact hfire.observe
      · simp only [hmark, hobs, if_true]
        split <;> exact hfire
    · -- the report of the backend is the trigger
      have hobs : (t.out.isEndpoint && t.asrActive) = true := by simpa [hmark] using hfired
      have hopen : triggers t.trace < triggers t.trace + 1 ∧ triggers t.trace ∉ answered t.trace :=
        ⟨Nat.lt_succ_self _, fun hmem => lt_irrefl _ (hts.lt _ hmem)⟩
      have hfire := (Answers.fire hts.observe (by simp) hopen).close hclose
      simp only [hmark, hobs, if_true]
      split <;> exact hfire

/-- A last final ends the task. -/
theorem answers_outFinalSent (hs : s.Answers cfg) (hpc : s.out.pc = .finalSend) :
    (outFinalSent cfg s).Answers cfg := by
  unfold State.Answers at hs
  simp only [Out.phase, hpc] at hs
  unfold outFinalSent
  split
  · exact Answers.finish hs
  rename_i hmulti
  split
  · exact Answers.finish hs
  rename_i hclosing
  rw [if_neg (by simpa [hclosing] using hmulti)] at hs
  dsimp only
  repeat' split
  all_goals exact hs

theorem answers_drainFailed (hs : Asr.Answers s.endpointPending.isSome s.markerNo s.asrSessionClosed
    .idle (triggers s.trace) (answered s.trace)) : (drainFailed s).Answers cfg := by
  unfold drainFailed
  split
  · exact hs
  · exact Answers.unmark hs

theorem answers_drainPop (hs : Asr.Answers s.endpointPending.isSome s.markerNo s.asrSessionClosed
    .idle (triggers s.trace) (answered s.trace)) : (drainPop s).Answers cfg := by
  unfold drainPop
  split
  · exact answers_drainFailed hs
  · exact hs

theorem answers_drainNext (hs : s.Answers cfg) (hpc : s.out.pc = .drainNext) :
    (drainNext s).Answers cfg := by
  unfold State.Answers at hs
  simp only [Out.phase, hpc] at hs
  unfold drainNext
  split
  · split
    · show Asr.Answers _ _ _ (Out.phase cfg { s.out with index := s.out.index + 1 }) _ _
      simp only [Out.phase, hpc]
      exact hs
    · exact hs
  · unfold drainMark
    dsimp only
    split
    · exact answers_drainPop (Answers.mark hs)
    · exact answers_drainPop hs

/-- The steps of `asr_out_task`. -/
theorem outStep_answers (hs : s.Answers cfg) (hok : ConsumesMarker s (.out e))
    (h : outStep cfg s e = some s') : s'.Answers cfg := by
  have hwas := hs
  unfold State.Answers at hwas
  cases hpc : s.out.pc <;> simp only [outStep, hpc] at h <;>
    simp only [Out.phase, hpc] at hwas
  case ended => cases h
  case top =>
    cases h
    unfold outTop
    repeat' split
    all_goals first
      | exact hwas
      | exact Answers.finish hwas
  case deadlineCancel => split at h <;> cases h; exacts [hwas, hwas.unmark]
  case deadlineRestart => cases h; exact hwas.unmark
  case deadlineSend => split at h <;> cases h; exacts [hwas, hwas.finish]
  case getPartial =>
    cases h
    unfold outPartial
    repeat' split
    all_goals exact hwas
  case decide =>
    cases h
    exact answers_outDecide hs hpc
  case fired =>
    cases h
    unfold outFired
    split
    · split <;> exact hwas
    · rename_i hactive
      exact hwas.answer (hok hpc (by simpa using hactive))
  case prepared =>
    cases h
    unfold outPrepared
    split
    · split
      · exact (hwas.rest (by simp)).unmark
      · exact hwas.rest (by simp)
    · exact hwas
  case finalize wait =>
    split at h <;> cases h
    exact answers_outFinalize hs wait _ hpc
  case finalizeCancel =>
    cases h
    exact answers_outNotAccepted hs (by simp [Out.phase, hpc]) _
  case enrich => cases h; split <;> exact hwas
  case speakerTest => cases h; split <;> exact hwas
  case final =>
    cases h
    refine hwas.wait fun hlast => ?_
    have hlast' : (cfg.multiUtterance && s.asrSessionClosed || !cfg.multiUtterance) = false := hlast
    cases hm : cfg.multiUtterance
    · simp [hm] at hlast'
    · simpa [hm] using hlast'
  case finalLock =>
    cases h
    exact hwas.send
  case finalSend =>
    cases h
    exact answers_outFinalSent (s := s.send e _) hs hpc
  case drainOpen =>
    split at h <;> cases h
    · exact hwas
    · exact answers_drainFailed hwas
  case drainNext =>
    cases h
    exact answers_drainNext hs hpc
  case drainFeed =>
    split at h <;> cases h
    · exact hwas
    · exact answers_drainFailed hwas
  case drainFailCancel =>
    cases h
    exact hwas.unmark
  case loopEnd => split at h <;> cases h; exacts [hwas.finish, hwas]
  all_goals
    cases h
    exact hwas

/-- **The step lemma.** -/
theorem step_answers {a : Act α} (hs : s.Answers cfg) (hok : ConsumesMarker s a)
    (h : step cfg s a = some s') : s'.Answers cfg := by
  cases a <;> simp only [step] at h <;> split at h
  all_goals try cases h; done
  case receive msg _ => exact receive_answers hs h
  case disp e _ => exact dispStep_answers hs h
  case out e _ => exact outStep_answers hs hok h
  case dispCall ok _ =>
    unfold dispCall at h
    repeat' split at h
    all_goals cases h <;> exact hs
  case outCall ok _ =>
    unfold outCall at h
    repeat' split at h
    all_goals cases h <;> exact hs
  case cancelOut e _ =>
    unfold cancelOut at h
    split at h
    case h_1 => cases h
    case h_2 hpc =>
      have hphase : s.out.phase cfg = .firing s.out.answers := by simp [Out.phase, hpc]
      split at h <;> cases h
      · show Asr.Answers _ _ _ (.firing s.out.answers) _ _
        rw [← hphase]
        exact hs
      · exact hs
    case h_3 wait _ hpc =>
      cases h
      exact answers_outCancelled hs (by simp [Out.phase, hpc])
    case h_4 =>
      cases h
      exact Answers.finish hs
  case teardown =>
    cases h
    exact hs
  case finalizeTimeout =>
    split at h <;> cases h
    rename_i hpc _
    have hphase : s.out.phase cfg = .firing s.out.answers := by simp [Out.phase, hpc]
    show Asr.Answers _ _ _ (.firing s.out.answers) _ _
    rw [← hphase]
    exact hs
  case dispFails | finalizeEnds | cancelEnds | prepareEnds =>
    split at h <;> cases h
    exact hs

/-- **The run lemma.** -/
theorem run_answers {as : List (Act α)} (hrun : (machine cfg).run as = some s)
    (hok : (machine cfg).Guarded ConsumesMarker .start as) : s.Answers cfg := by
  have hstart : (State.start : State α).Answers cfg :=
    ⟨List.nodup_nil, by simp [answered, State.start], by simp [State.start],
      by simp [Out.phase, State.start], by simp [Out.phase, State.start],
      by simp [Out.phase, State.start]⟩
  exact (machine cfg).invariant_of_guarded ConsumesMarker hstart
    (fun _ _ _ hs hok h => step_answers hs hok h) hok hrun

/-- **Every final has a trigger of its own.**  In a run where no firing is answered
without a finalize while its marker stays set, no two finals answer the same trigger, and
there are no more finals than triggers. -/
theorem finals_le_triggers (cfg : Cfg) (as : List (Act α)) (s : State α)
    (hrun : (machine cfg).run as = some s)
    (hok : (machine cfg).Guarded ConsumesMarker .start as) :
    (answered s.trace).Nodup ∧ (∀ a ∈ answered s.trace, a < triggers s.trace) ∧
      (answered s.trace).length ≤ triggers s.trace := by
  have hs := run_answers hrun hok
  refine ⟨hs.nodup, hs.lt, ?_⟩
  have hsub : answered s.trace ⊆ List.range (triggers s.trace) := fun a ha =>
    List.mem_range.mpr (hs.lt a ha)
  simpa using (List.subperm_of_subset hs.nodup hsub).length_le

/-- The final of the first utterance, and a turn queued behind it. -/
theorem finals_le_triggers_queuedTurnRun :
    ∃ s, (machine exampleCfg).run queuedTurnRun = some s ∧ (answered s.trace).length = 1 ∧
      (answered s.trace).length ≤ triggers s.trace :=
  ⟨_, rfl, rfl, (finals_le_triggers exampleCfg queuedTurnRun _ rfl (by decide)).2.2⟩

/-- A poll that finds the marker and no active stream sends a final. -/
def idlePoll : List (Act ℕ) :=
  [.out {}, .out {}, .out {}, .out {}, .out {}, .out {}, .out {}, .out {}, .out {}, .out {}]

/-- The client sends one `asr_eos` before it speaks. -/
def idleEosRun : List (Act ℕ) := .receive .asrEos :: (idlePoll ++ idlePoll ++ idlePoll)

/-- **One trigger, three finals**: the marker is never consumed. -/
theorem idleEosRun_repeats_final :
    ∃ s, (machine exampleCfg).run idleEosRun = some s ∧ triggers s.trace = 1 ∧
      (answered s.trace).length = 3 ∧ s.endpointPending = some .clientEos :=
  ⟨_, rfl, by decide, by decide, by decide⟩

end Asr
end V2v
end OpenVoiceStream
