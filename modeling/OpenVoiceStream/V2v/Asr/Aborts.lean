import OpenVoiceStream.V2v.Asr.TurnQueue

/-!
# Finals and aborts

An abort that does not keep the utterance is to discard the finals still to come.  It
tells `asr_out_task` in three ways: it drops the marker, it makes the stream inactive, and
it cancels a finalize in flight and leaves `asr_abort_requested` for it.  None of these
reaches a final that has been accepted, nor a generation the drain is about to announce.

## Main definitions

* `abortedGens`, `FinalsFresh` — no final is for a generation an abort had retired.
* `abortsLate`, `DiscardsFinals` — the guard.
* `Stage` — what `asr_out_task` is going to answer for; `Discards` — the invariant.

## Main results

* `step_discards`, `run_discards` — the invariant along runs that meet the guard.
* `abort_discards_finals` — in these runs no final is for an aborted generation, and
  `asr_abort_requested` is set only while the finalize it was set for is in flight.
* `abortInPunctRun_sends_final` — an abort during the punctuation, and one just before the
  finalize times out.
-/

namespace OpenVoiceStream
namespace V2v
namespace Asr

open PendingAudio

variable {α : Type}

/-- The generations opened so far. -/
def openedGens : List (Event α) → List ℕ
  | [] => []
  | .opened gen _ :: trace => gen :: openedGens trace
  | _ :: trace => openedGens trace

/-- The generations opened before the last abort. -/
def abortedGens : List (Event α) → List ℕ
  | [] => []
  | .aborted :: trace => openedGens trace
  | _ :: trace => abortedGens trace

/-- No final is for a generation opened before an abort that came before the final. -/
def FinalsFresh : List (Event α) → Prop
  | [] => True
  | .final _ gen :: trace => (∀ g ∈ gen, g ∉ abortedGens trace) ∧ FinalsFresh trace
  | _ :: trace => FinalsFresh trace

instance : ∀ trace : List (Event α), Decidable (FinalsFresh trace)
  | [] => isTrue trivial
  | .final _ _ :: trace => by
    have := instDecidableFinalsFresh trace
    unfold FinalsFresh; infer_instance
  | .arrived _ :: trace | .queued _ _ _ :: trace | .trigger :: trace | .opened _ _ :: trace
  | .accepted _ _ :: trace | .fed _ _ :: trace | .popped _ _ :: trace | .cleared _ :: trace
  | .aborted :: trace | .sent _ _ :: trace => instDecidableFinalsFresh trace

/-- What `asr_out_task` is going to answer for. -/
inductive Stage
  | idle
  /-- An endpoint has fired, or its final is on its way, for this generation if for any. -/
  | answering (fired : Option ℕ)
  /-- It is about to finalize `gen`. -/
  | preparing (fired : Option ℕ) (gen : ℕ)
  | finalizing (wait : Wait) (fired : Option ℕ) (gen : ℕ)
  /-- The drain opens this turn; the generation is there, or not yet. -/
  | opening (turn : ℕ) (gen : Option ℕ)
  /-- The drain feeds this turn into `gen`. -/
  | draining (turn gen : ℕ)

/-- The generation a call has returned. -/
def Call.gen : Call → Option ℕ
  | .returned gen => some gen
  | _ => none

/-- The stage of `asr_out_task`. -/
def Out.stage (o : Out α) : Stage :=
  match o.pc with
  | .sendEndpoint | .fired | .enrich | .punct | .speakerTest | .speaker | .final | .finalLock =>
    .answering o.firedGen
  | .prepWait | .prepared => .preparing o.firedGen o.gen
  | .finalize wait => .finalizing wait o.firedGen o.gen
  | .drainOpen => .opening o.turn o.call.gen
  | .drainNext | .drainFeed => .draining o.turn o.newGen
  | _ => .idle

/-- An abort comes too late for the final: its endpoint has fired or its finalize was
accepted, the finalize has timed out, or the drain is going to announce the generation. -/
def abortsLate (s : State α) : Bool :=
  match s.out.stage with
  | .answering fired => fired.isSome
  | .finalizing .cancelled _ _ => false
  | .finalizing wait _ _ =>
    match s.asrFinalizeTask with
    | some (.ended (.accepted _ _)) => true
    | some (.running _) => decide (wait = .timedOut)
    | _ => false
  | .opening _ gen => gen.isSome
  | .draining turn _ => (s.pend.turn turn).ended
  | .idle | .preparing _ _ => false

/-- No abort comes late.  While a finalize is being aborted, the manager honours the
cancellation, and the timeout does not pass. -/
def DiscardsFinals (cfg : Cfg) (s : State α) : Act α → Prop
  | .receive (.abort keepAsr) => keepsAsr cfg s keepAsr = false → abortsLate s = false
  | .finalizeEnds outcome => s.asrAbortRequested = true → outcome = .cancelled
  | .finalizeTimeout => s.asrAbortRequested = false
  | _ => True

instance (cfg : Cfg) (s : State α) : (a : Act α) → Decidable (DiscardsFinals cfg s a)
  | .receive (.abort keepAsr) =>
    inferInstanceAs (Decidable (keepsAsr cfg s keepAsr = false → abortsLate s = false))
  | .finalizeEnds outcome =>
    inferInstanceAs (Decidable (s.asrAbortRequested = true → outcome = .cancelled))
  | .finalizeTimeout => inferInstanceAs (Decidable (s.asrAbortRequested = false))
  | .receive (.audio _ _) | .receive .asrEos | .receive .asrPrepare | .receive .other
  | .receive .disconnect | .disp _ | .out _ | .dispCall _ | .outCall _ | .cancelEnds
  | .prepareEnds | .cancelOut _ | .dispFails | .teardown => isTrue trivial

/-! ### The invariant -/

section Discards

variable {opened aborted : List ℕ} {top : ℕ} {stream stream' marker marker' opening opening' : Option ℕ}
  {p q : PendingAudio α} {task task' : Option Child} {flag flag' : Bool} {stage stage' : Stage}
  {log : Prop} {limit : ℤ} {samples : List α} {t g : ℕ} {wait : Wait} {fired : Option ℕ}

/-- No finalize is in flight, and no abort waits for one. -/
def Quiet (task : Option Child) (flag : Bool) : Prop :=
  flag = false ∧ ∀ c, task ≠ some (.running c)

/-- The finalize will not be accepted. -/
def Doomed (wait : Wait) (task : Option Child) (flag : Bool) : Prop :=
  wait = .cancelled ∨ (∀ text language, task ≠ some (.ended (.accepted text language))) ∧
    ∀ c, task = some (.running c) → flag = true

/-- The finalize of an abort is in flight. -/
def InFlight (task : Option Child) : Prop :=
  task = some (.running true) ∨ task = some (.ended .cancelled)

/-- What is going to be answered was not aborted. -/
def Stage.Safe (opened aborted : List ℕ) (p : PendingAudio α) (task : Option Child) (flag : Bool) :
    Stage → Prop
  | .idle => Quiet task flag
  | .answering fired => Quiet task flag ∧ ∀ g ∈ fired, g ∉ aborted
  | .preparing fired gen => Quiet task flag ∧ fired = some gen
  | .finalizing wait fired gen =>
    fired = some gen ∧ gen ∈ opened ∧ (gen ∉ aborted ∨ Doomed wait task flag) ∧
      (flag = true → gen ∈ aborted ∧ wait ≠ .timedOut ∧ InFlight task)
  | .opening turn gen =>
    Quiet task flag ∧ turn < p.fresh ∧ ∀ g ∈ gen, g ∈ opened ∧ g ∉ aborted
  | .draining turn gen =>
    -- a turn dropped under the drain before it ended sets no marker
    Quiet task flag ∧ turn < p.fresh ∧
      (gen ∉ aborted ∨ turn ∉ p.turns ∧ (p.turn turn).ended = false)

/-- The invariant: the generation of the stream, the one that the marker ends and the one
the dispatcher is about to announce were not aborted, nor is what the stage answers for. -/
structure Discards (opened aborted : List ℕ) (top : ℕ) (stream marker opening : Option ℕ)
    (p : PendingAudio α) (task : Option Child) (flag : Bool) (stage : Stage) (log : Prop) :
    Prop where
  bound : ∀ g ∈ opened, g ≤ top
  retired : ∀ g ∈ aborted, g ∈ opened
  active : ∀ g ∈ stream, g ∈ opened ∧ g ∉ aborted
  marked : ∀ g ∈ marker, g ∉ aborted
  called : ∀ g ∈ opening, g ∈ opened ∧ g ∉ aborted
  safe : stage.Safe opened aborted p task flag
  ok : log

/-- `asr_out_task` moves on. -/
theorem Discards.goto (h : Discards opened aborted top stream marker opening p task flag stage log)
    (hstage : stage'.Safe opened aborted q task' flag') :
    Discards opened aborted top stream marker opening q task' flag' stage' log :=
  ⟨h.bound, h.retired, h.active, h.marked, h.called, hstage, h.ok⟩

/-- Nothing is left to answer for. -/
theorem Discards.rest (h : Discards opened aborted top stream marker opening p task flag stage log)
    (hquiet : Quiet task' flag') :
    Discards opened aborted top stream marker opening q task' flag' .idle log :=
  h.goto hquiet

/-- The stream ends. -/
theorem Discards.deactivate
    (h : Discards opened aborted top stream marker opening p task flag stage log) :
    Discards opened aborted top none marker opening p task flag stage log :=
  ⟨h.bound, h.retired, by simp, h.marked, h.called, h.safe, h.ok⟩

/-- The generation a call returned becomes the stream. -/
theorem Discards.activate
    (h : Discards opened aborted top stream marker opening p task flag stage log)
    (hg : g ∈ opened ∧ g ∉ aborted) :
    Discards opened aborted top (some g) marker opening p task flag stage log :=
  ⟨h.bound, h.retired, by simpa using hg, h.marked, h.called, h.safe, h.ok⟩

/-- The dispatcher leaves its call. -/
theorem Discards.moveDisp
    (h : Discards opened aborted top stream marker opening p task flag stage log) :
    Discards opened aborted top stream marker none p task flag stage log :=
  ⟨h.bound, h.retired, h.active, h.marked, by simp, h.safe, h.ok⟩

theorem Discards.unmark
    (h : Discards opened aborted top stream marker opening p task flag stage log) :
    Discards opened aborted top stream none opening p task flag stage log :=
  ⟨h.bound, h.retired, h.active, by simp, h.called, h.safe, h.ok⟩

theorem Discards.mark
    (h : Discards opened aborted top stream marker opening p task flag stage log)
    (hmarker : ∀ g ∈ marker', g ∉ aborted) :
    Discards opened aborted top stream marker' opening p task flag stage log :=
  ⟨h.bound, h.retired, h.active, hmarker, h.called, h.safe, h.ok⟩

/-- A turn that was dropped stays dropped, as it was. -/
def Keeps (p q : PendingAudio α) : Prop :=
  p.fresh ≤ q.fresh ∧
    ∀ t < p.fresh, t ∉ p.turns → t ∉ q.turns ∧ (q.turn t).ended = (p.turn t).ended

theorem Discards.of_queue
    (h : Discards opened aborted top stream marker opening p task flag stage log)
    (hq : Keeps p q) : Discards opened aborted top stream marker opening q task flag stage log := by
  refine h.goto ?_
  have hs := h.safe
  cases stage with
  | idle | answering fired | preparing fired gen | finalizing wait fired gen => exact hs
  | opening turn gen => exact ⟨hs.1, hs.2.1.trans_le hq.1, hs.2.2⟩
  | draining turn gen =>
    obtain ⟨hquiet, hlt, hgen⟩ := hs
    refine ⟨hquiet, hlt.trans_le hq.1, hgen.imp_right ?_⟩
    rintro ⟨hnot, hended⟩
    obtain ⟨hnot', hsame⟩ := hq.2 turn hlt hnot
    exact ⟨hnot', hsame ▸ hended⟩

theorem keeps_clear (p : PendingAudio α) : Keeps p p.clear :=
  ⟨le_rfl, fun _ _ _ => ⟨by simp [PendingAudio.clear], rfl⟩⟩

theorem keeps_appendTail (h : p.appendTail limit samples = some q) : Keeps p q := by
  obtain ⟨hturns, hturn, hfresh, _⟩ := appendTail_queue h
  exact ⟨hfresh.ge, fun t _ hnot => ⟨hturns ▸ hnot, by rw [hturn]⟩⟩

theorem keeps_appendTurn (h : p.appendTurn limit samples = some q) : Keeps p q := by
  obtain ⟨hturns, hfresh, _, hturn⟩ := appendTurn_queue h
  exact ⟨hfresh.ge, fun t _ hnot => ⟨hturns ▸ hnot, (hturn t).1⟩⟩

theorem keeps_newTurn (h : p.newTurn limit samples = some q) : Keeps p q := by
  obtain ⟨hturns, hfresh, _, _, _, hturn⟩ := newTurn_queue h
  refine ⟨by omega, fun t hlt hnot => ⟨?_, ?_⟩⟩
  · rw [hturns]
    simp [hnot, Nat.ne_of_lt hlt]
  · rw [hturn t (Nat.ne_of_lt hlt)]

theorem keeps_markEnd (p : PendingAudio α) : Keeps p p.markEnd := by
  obtain ⟨hturns, hfresh, _⟩ := markEnd_queue p
  refine ⟨hfresh.ge, fun t _ hnot => ⟨hturns ▸ hnot, ?_⟩⟩
  unfold PendingAudio.markEnd
  split
  · rfl
  · rename_i u hlast
    have hne : t ≠ u := fun heq => hnot (heq ▸ List.mem_of_getLast? hlast)
    split
    · simp [PendingAudio.modify, Function.update_of_ne hne]
    · rfl

theorem Keeps.trans {r : PendingAudio α} (h : Keeps p q) (h' : Keeps q r) : Keeps p r := by
  refine ⟨h.1.trans h'.1, fun t hlt hnot => ?_⟩
  obtain ⟨hnot', hsame⟩ := h.2 t hlt hnot
  obtain ⟨hnot'', hsame'⟩ := h'.2 t (hlt.trans_le h.1) hnot'
  exact ⟨hnot'', hsame'.trans hsame⟩

/-- A generation is opened. -/
theorem Discards.open
    (h : Discards opened aborted top stream marker opening p task flag stage log)
    (hopening : ∀ g ∈ opening', g ∈ opening ∨ g = top + 1)
    (hstage : stage.Safe opened aborted p task flag →
      stage'.Safe ((top + 1) :: opened) aborted p task flag) :
    Discards ((top + 1) :: opened) aborted (top + 1) stream marker opening' p task flag stage'
      log := by
  have hnew : top + 1 ∉ aborted := fun hmem =>
    absurd (h.bound _ (h.retired _ hmem)) (by omega)
  refine ⟨fun g hg => ?_, fun g hg => List.mem_cons_of_mem _ (h.retired g hg), fun g hg => ?_,
    h.marked, fun g hg => ?_, hstage h.safe, h.ok⟩
  · rcases List.mem_cons.mp hg with rfl | hg
    · exact le_rfl
    · exact (h.bound g hg).trans (Nat.le_succ _)
  · exact ⟨List.mem_cons_of_mem _ (h.active g hg).1, (h.active g hg).2⟩
  · rcases hopening g hg with hg | rfl
    · exact ⟨List.mem_cons_of_mem _ (h.called g hg).1, (h.called g hg).2⟩
    · exact ⟨List.mem_cons_self, hnew⟩

/-- What is safe stays safe when generations are opened. -/
theorem Stage.Safe.mono (h : stage.Safe opened aborted p task flag) :
    stage.Safe (g :: opened) aborted p task flag := by
  cases stage with
  | idle | answering fired | preparing fired gen | draining turn gen => exact h
  | finalizing wait fired gen => exact ⟨h.1, List.mem_cons_of_mem _ h.2.1, h.2.2⟩
  | opening turn gen =>
    exact ⟨h.1, h.2.1, fun g hg => ⟨List.mem_cons_of_mem _ (h.2.2 g hg).1, (h.2.2 g hg).2⟩⟩

/-- An abort is processed: it comes in time for whatever is under way. -/
theorem Discards.abort
    (h : Discards opened aborted top stream marker none p task flag stage log)
    (hstage : stage.Safe opened aborted p task flag → stage.Safe opened opened p.clear task' flag') :
    Discards opened opened top none none none p.clear task' flag' stage log :=
  ⟨h.bound, fun _ hg => hg, by simp, by simp, by simp, hstage h.safe, h.ok⟩

end Discards

/-! ### Steps -/

variable {cfg : Cfg} {s s' : State α} {e : Env}

/-- The generation that the marker ends. -/
def State.markedGen (s : State α) : Option ℕ :=
  if s.endpointPending.isSome then s.markerGen else none

/-- The generation the dispatcher is about to announce. -/
def Disp.opening (d : Disp α) : Option ℕ :=
  match d.pc with
  | .openTurn | .lazyOpen => d.call.gen
  | _ => none

theorem opening_next (d : Disp α) : d.next.opening = none := by
  cases hrest : d.rest <;> simp [Disp.next, hrest, Disp.opening]

/-- The invariant of a state. -/
def State.Discards (s : State α) : Prop :=
  Asr.Discards (openedGens s.trace) (abortedGens s.trace) s.generation s.stream s.markedGen
    s.disp.opening s.pend s.asrFinalizeTask s.asrAbortRequested s.out.stage (FinalsFresh s.trace)

theorem discards_nextSegment (hs : s.Discards) : s.nextSegment.Discards := by
  unfold State.Discards
  show Asr.Discards _ _ _ _ _ s.disp.next.opening _ _ _ _ _
  rw [opening_next]
  exact Discards.moveDisp hs

/-- A marker set by the dispatcher ends the active stream. -/
theorem discards_setEndpoint (hs : s.Discards) (reason : Reason) (gen : ℕ) :
    (s.setEndpoint reason gen s.stream).Discards :=
  Discards.mark hs fun g hg => (hs.active g hg).2

theorem discards_rejectPending (hs : s.Discards) (reason : String) :
    (s.rejectPending reason).Discards :=
  (Discards.unmark hs).moveDisp.of_queue (keeps_clear _)

theorem discards_admitAudio (hs : s.Discards) : (admitAudio cfg s).Discards := by
  unfold admitAudio
  split
  · exact Discards.moveDisp hs
  split
  · exact Discards.moveDisp hs
  unfold State.Discards
  show Asr.Discards _ _ _ _ _ (Disp.next _).opening _ _ _ _ _
  rw [opening_next]
  exact Discards.moveDisp hs

theorem discards_dispSegment (hs : s.Discards) : (dispSegment cfg s).Discards := by
  have harrived : State.Discards { s with trace := .arrived s.disp.current :: s.trace } := hs
  unfold dispSegment
  dsimp only
  split
  case isTrue hblocked =>
    split
    · exact Discards.moveDisp hs
    split
    · split
      · exact discards_rejectPending harrived _
      · rename_i pend hq
        split
        · exact (Discards.of_queue hs ((keeps_appendTurn hq).trans (keeps_markEnd _))).moveDisp
        · exact discards_nextSegment
            (s := { s with trace := .arrived s.disp.current :: s.trace, pend := pend })
            (Discards.of_queue hs (keeps_appendTurn hq))
    · split
      · exact discards_rejectPending harrived _
      · rename_i pend hq
        split
        · exact (Discards.of_queue hs (keeps_appendTail hq)).moveDisp
        · exact discards_nextSegment
            (s := { s with trace := .arrived s.disp.current :: s.trace, pend := pend })
            (Discards.of_queue hs (keeps_appendTail hq))
  case isFalse => split <;> exact Discards.moveDisp hs

theorem discards_dispPendingStart (hs : s.Discards) : (dispPendingStart cfg s).Discards := by
  unfold dispPendingStart
  split
  · exact discards_rejectPending hs _
  · rename_i pend hq
    exact discards_nextSegment
      (s := { s with
        pend := pend
        trace := .queued s.pend.fresh s.pend.tail s.disp.current.samples :: s.trace })
      (Discards.of_queue hs (keeps_newTurn hq))

/-- The dispatcher's steps. -/
theorem dispStep_discards (hs : s.Discards) (h : dispStep cfg s e = some s') : s'.Discards := by
  cases hpc : s.disp.pc <;> simp only [dispStep, hpc] at h
  case recv => cases h
  case ended => cases h
  case segment =>
    cases h
    exact discards_dispSegment hs
  case pendingStart =>
    cases h
    exact discards_dispPendingStart (s := s.send e _) hs
  case joinCancel =>
    split at h
    · split at h <;> cases h
      exact discards_admitAudio (s := { s with asrCancelTask := none }) hs
    · cases h
      exact Discards.moveDisp hs
  case joinFailed | latched =>
    cases h
    exact Discards.moveDisp hs
  case pendingEnd | rejecting =>
    cases h
    exact discards_nextSegment (s := s.send e _) hs
  case liveStart =>
    cases h
    unfold dispLiveStart
    repeat' split
    · exact discards_nextSegment (s := s.send e _) hs
    all_goals exact Discards.moveDisp hs
  case openTurn =>
    have hopening : s.disp.opening = s.disp.call.gen := by simp [Disp.opening, hpc]
    split at h <;> cases h
    · rename_i gen hcall
      have hgen := hs.called gen (by rw [hopening, hcall]; rfl)
      unfold dispOpened
      dsimp only
      split <;> exact ((Discards.activate hs hgen).unmark).moveDisp
    · exact Discards.moveDisp hs
  case openFailed =>
    cases h
    exact discards_nextSegment
      (s := { (s.send e _).clearEndpoint with asrActive := false }) (Discards.deactivate hs).unmark
  case lazyFailed =>
    cases h
    exact discards_nextSegment (s := { s.send e _ with asrActive := false }) (Discards.deactivate hs)
  case lazyTest =>
    cases h
    unfold dispLazyTest
    split <;> exact Discards.moveDisp hs
  case lazyOpen =>
    have hopening : s.disp.opening = s.disp.call.gen := by simp [Disp.opening, hpc]
    split at h <;> cases h
    · rename_i gen hcall
      have hgen := hs.called gen (by rw [hopening, hcall]; rfl)
      exact ((Discards.activate hs hgen).unmark).moveDisp
    · exact Discards.moveDisp hs
  case latch =>
    cases h
    unfold dispLatch
    split
    · split
      · have hmark := discards_setEndpoint (s := s.schedulePrepare) hs .vad s.asrActiveGen
        exact Discards.moveDisp hmark
      · exact Discards.moveDisp hs
    · exact Discards.moveDisp hs
  case ring =>
    cases h
    unfold dispRing
    split
    · exact discards_nextSegment (s := s.extendPreroll cfg _ _) hs
    · exact discards_nextSegment hs
  case replay | feed | feedTest => split at h <;> cases h <;> exact Discards.moveDisp hs

/-- An abort that comes in time. -/
theorem discards_abortAsr (hs : s.Discards) (hopening : s.disp.opening = none)
    (hlate : abortsLate s = false) : (abortAsr s).Discards := by
  rw [abortAsr_eq]
  unfold State.Discards at hs ⊢
  rw [hopening] at hs
  show Asr.Discards _ _ _ _ _ s.disp.opening _ _ _ _ _
  rw [hopening]
  refine Discards.abort hs fun hsafe => ?_
  unfold abortsLate at hlate
  -- where no finalize is in flight, the abort sets no flag
  have hquiet : Quiet s.asrFinalizeTask s.asrAbortRequested →
      Quiet (if s.finalizeRunning then some (.running true) else s.asrFinalizeTask)
        (s.asrAbortRequested || s.finalizeRunning) := by
    rintro ⟨hflag, htask⟩
    have hnot : s.finalizeRunning = false := by
      unfold State.finalizeRunning
      split
      · rename_i c hc
        exact absurd hc (htask c)
      · rfl
    rw [hnot, hflag]
    exact ⟨rfl, htask⟩
  cases hstage : s.out.stage with
  | idle =>
    rw [hstage] at hsafe
    exact hquiet hsafe
  | answering fired =>
    rw [hstage] at hsafe hlate
    have hnone : fired = none := by simpa using hlate
    exact ⟨hquiet hsafe.1, by simp [hnone]⟩
  | preparing fired gen =>
    rw [hstage] at hsafe
    exact ⟨hquiet hsafe.1, hsafe.2⟩
  | opening turn gen =>
    rw [hstage] at hsafe hlate
    have hnone : gen = none := by simpa using hlate
    exact ⟨hquiet hsafe.1, hsafe.2.1, by simp [hnone]⟩
  | draining turn gen =>
    rw [hstage] at hsafe hlate
    exact ⟨hquiet hsafe.1, hsafe.2.1, .inr ⟨by simp [PendingAudio.clear], hlate⟩⟩
  | finalizing wait fired gen =>
    rw [hstage] at hsafe hlate
    obtain ⟨hfired, hopened, _, hflag⟩ := hsafe
    cases htask : s.asrFinalizeTask with
    | none =>
      rw [htask] at hflag
      have hrun : s.finalizeRunning = false := by simp [State.finalizeRunning, htask]
      rw [hrun, Bool.or_false]
      exact ⟨hfired, hopened, .inr (.inr ⟨by simp, by simp⟩), fun hf => ⟨hopened, (hflag hf).2⟩⟩
    | some child =>
      rw [htask] at hflag
      cases child with
      | running c =>
        -- the finalize is cancelled, and the flag is set for it
        have hrun : s.finalizeRunning = true := by simp [State.finalizeRunning, htask]
        rw [hrun, Bool.or_true]
        have hwait : wait ≠ .timedOut := by
          rintro rfl
          simp [htask] at hlate
        exact ⟨hfired, hopened, .inr (.inr ⟨by simp, fun _ _ => rfl⟩),
          fun _ => ⟨hopened, hwait, .inl rfl⟩⟩
      | ended outcome =>
        have hrun : s.finalizeRunning = false := by simp [State.finalizeRunning, htask]
        rw [hrun, Bool.or_false]
        refine ⟨hfired, hopened, .inr ?_, fun hf => ⟨hopened, (hflag hf).2⟩⟩
        cases wait with
        | cancelled => exact .inl rfl
        | waiting | timedOut =>
          refine .inr ⟨?_, by simp⟩
          rintro text language heq
          cases heq
          simp [htask] at hlate

/-- Frames of the client. -/
theorem receive_discards {msg : Msg α} (hs : s.Discards)
    (hok : DiscardsFinals cfg s (.receive msg)) (h : receive cfg s msg = some s') :
    s'.Discards := by
  unfold receive at h
  split at h <;> cases h
  rename_i hpc
  have hopening : s.disp.opening = none := by simp [Disp.opening, hpc]
  split
  · exact Discards.moveDisp hs
  cases msg with
  | audio samples flips =>
    show (receiveAudio cfg s samples flips).Discards
    unfold receiveAudio
    split
    · exact Discards.moveDisp hs
    · refine discards_admitAudio
        (s := { s with asrCancelTask := none, disp.block := (samples, flips) }) ?_
      unfold State.Discards at hs ⊢
      rw [hopening] at hs
      show Asr.Discards _ _ _ _ _ (Disp.opening _) _ _ _ _ _
      simp only [Disp.opening, hpc]
      exact hs
  | abort keepAsr =>
    simp only [receiveMsg]
    split
    · exact hs
    · rename_i hkeep
      exact discards_abortAsr hs hopening (hok (by simpa using hkeep))
  | asrEos => exact discards_setEndpoint hs .clientEos s.asrActiveGen
  | disconnect => exact Discards.moveDisp hs
  | asrPrepare | other => exact hs

/-! The steps of `asr_out_task`. -/

theorem discards_outDecide (hs : s.Discards)
    (hquiet : Quiet s.asrFinalizeTask s.asrAbortRequested) : (outDecide cfg s).Discards := by
  obtain ⟨t, ht, hts, hquiet⟩ : ∃ t, (if staleEndpoint s then s.clearEndpoint else s) = t ∧
      t.Discards ∧ Quiet t.asrFinalizeTask t.asrAbortRequested := by
    refine ⟨_, rfl, ?_, ?_⟩ <;> split
    · exact Discards.unmark hs
    · exact hs
    · exact hquiet
    · exact hquiet
  unfold outDecide
  rw [ht]
  dsimp only
  split
  case isFalse => exact Discards.rest hts hquiet
  case isTrue hfired =>
    have hsafe : ∀ g ∈ (if t.asrActive then some t.asrActiveGen else t.markerGen),
        g ∉ abortedGens t.trace := by
      intro g hg
      cases hactive : t.asrActive with
      | true => exact (hts.active g (by simpa [State.stream, hactive] using hg)).2
      | false =>
        have hmark : t.endpointPending.isSome = true := by simpa [hactive] using hfired
        exact hts.marked g (by simpa [State.markedGen, hmark, hactive] using hg)
    by_cases hobs : (t.out.isEndpoint && t.asrActive) = true
    · simp only [hobs, if_true]
      split <;> exact Discards.goto hts ⟨hquiet, hsafe⟩
    · simp only [hobs, Bool.false_eq_true, if_false]
      split <;> exact Discards.goto hts ⟨hquiet, hsafe⟩

theorem discards_outNotAccepted {task : Option Child} {flag : Bool} {stage : Stage}
    (hs : Asr.Discards (openedGens s.trace) (abortedGens s.trace) s.generation s.stream s.markedGen
      s.disp.opening s.pend task flag stage (FinalsFresh s.trace))
    (hflag : s.asrAbortRequested = false) (failure : Option String) :
    (outNotAccepted s e failure).Discards := by
  have hquiet : Quiet none s.asrAbortRequested := ⟨hflag, by simp⟩
  unfold outNotAccepted
  dsimp only
  repeat' split
  all_goals first
    | exact Discards.rest hs hquiet
    | exact hs.deactivate.unmark.rest hquiet

theorem discards_outCancelled (hs : s.Discards) : (outCancelled s e).Discards := by
  unfold outCancelled
  split
  · exact discards_outNotAccepted (s := { s with asrAbortRequested := false }) hs rfl none
  · rename_i hflag
    exact Discards.rest hs ⟨by simpa using hflag, by simp⟩

theorem discards_outAccepted (hs : s.Discards)
    (hsafe : ∀ g ∈ s.out.firedGen, g ∉ abortedGens s.trace) (hflag : s.asrAbortRequested = false)
    (text : String) (language : Option String) : (outAccepted cfg s text language).Discards := by
  have hstage : ∀ p : PendingAudio α, (Stage.answering s.out.firedGen).Safe (openedGens s.trace)
      (abortedGens s.trace) p none s.asrAbortRequested := fun _ => ⟨⟨hflag, by simp⟩, hsafe⟩
  unfold outAccepted State.movePendingTailToPreroll
  dsimp only
  repeat' split
  all_goals first
    | exact (Discards.deactivate hs).unmark.goto (hstage _)
    | exact (Discards.unmark hs).goto (hstage _)

/-- `wait_for` of the finalize comes back. -/
theorem discards_outFinalize (hs : s.Discards) {wait : Wait} {outcome : Outcome}
    (hpc : s.out.pc = .finalize wait) (htask : s.asrFinalizeTask = some (.ended outcome)) :
    (outFinalize cfg s e wait outcome).Discards := by
  have hsafe := hs.safe
  simp only [Out.stage, hpc, Stage.Safe] at hsafe
  obtain ⟨hfired, hopened, hgen, hflag⟩ := hsafe
  have hnot : outcome ≠ .cancelled → s.asrAbortRequested = false := by
    intro hne
    by_contra hset
    rcases (hflag (by simpa using hset)).2.2 with hrun | hcancel
    · rw [htask] at hrun
      cases hrun
    · rw [htask] at hcancel
      cases hcancel
      exact hne rfl
  unfold outFinalize
  split
  · exact discards_outCancelled hs
  · exact discards_outCancelled hs
  · rename_i text language hwait
    refine discards_outAccepted hs (fun g hg => ?_) (hnot (by simp)) _ _
    rw [hfired] at hg
    obtain rfl := Option.some.inj hg
    rcases hgen with hgen | hdoomed | hdoomed
    · exact hgen
    · exact absurd hdoomed hwait
    · exact absurd htask (hdoomed.1 _ _)
  · exact discards_outNotAccepted hs (hnot (by simp)) _
  · exact Discards.rest hs ⟨hnot (by simp), by simp⟩
  · exact Discards.rest hs ⟨hnot (by simp), by simp [htask]⟩
  · refine Discards.rest hs ⟨?_, by simp [htask]⟩
    by_contra hset
    exact (hflag (by simpa using hset)).2.1 rfl

theorem discards_drainFailed (hs : s.Discards)
    (hquiet : Quiet s.asrFinalizeTask s.asrAbortRequested) : (drainFailed s).Discards := by
  unfold drainFailed
  split
  · exact Discards.rest hs hquiet
  · exact (Discards.deactivate hs).unmark.rest hquiet

theorem discards_drainPop (hs : s.Discards)
    (hquiet : Quiet s.asrFinalizeTask s.asrAbortRequested) : (drainPop s).Discards := by
  unfold drainPop
  split
  · exact discards_drainFailed (s := { s with trace := .popped none s.out.turn :: s.trace }) hs hquiet
  · exact Discards.rest hs hquiet

/-- A turn that has ended was not dropped under the drain. -/
theorem discards_drainNext (hs : s.Discards) (hpc : s.out.pc = .drainNext) :
    (drainNext s).Discards := by
  have hsafe := hs.safe
  simp only [Out.stage, hpc, Stage.Safe] at hsafe
  obtain ⟨hquiet, hlt, hgen⟩ := hsafe
  unfold drainNext
  split
  · split
    · exact hs
    · exact Discards.goto hs ⟨hquiet, hlt, hgen⟩
  · unfold drainMark
    dsimp only
    split
    · rename_i hended
      have hfresh : s.out.newGen ∉ abortedGens s.trace := by
        rcases hgen with hgen | ⟨_, hnot⟩
        · exact hgen
        · rw [hnot] at hended
          cases hended
      exact discards_drainPop (Discards.mark hs fun g hg => Option.some.inj hg ▸ hfresh) hquiet
    · exact discards_drainPop hs hquiet

theorem discards_outFinalSent (hs : s.Discards) (hqueue : s.TurnQueue cfg)
    (hquiet : Quiet s.asrFinalizeTask s.asrAbortRequested) : (outFinalSent cfg s).Discards := by
  unfold outFinalSent
  dsimp only
  repeat' split
  case h_2.isFalse turn _ hturns _ =>
    have hlt : turn < s.pend.fresh := hqueue.fresh turn (by rw [hturns]; exact List.mem_cons_self)
    exact Discards.goto hs ⟨hquiet, hlt, by simp [Call.gen]⟩
  all_goals exact Discards.rest hs hquiet

/-- The steps of `asr_out_task`. -/
theorem outStep_discards (hs : s.Discards) (hqueue : s.TurnQueue cfg)
    (h : outStep cfg s e = some s') : s'.Discards := by
  have hsafe := hs.safe
  cases hpc : s.out.pc <;> simp only [outStep, hpc] at h <;>
    simp only [Out.stage, hpc, Stage.Safe] at hsafe
  case ended => cases h
  case top =>
    cases h
    unfold outTop
    repeat' split
    all_goals exact Discards.rest hs hsafe
  case deadlineCancel =>
    split at h <;> cases h
    · exact Discards.rest hs hsafe
    · exact (Discards.deactivate hs).unmark.rest hsafe
  case deadlineRestart =>
    cases h
    exact (Discards.deactivate hs).unmark.rest hsafe
  case deadlineSend => split at h <;> cases h <;> exact Discards.rest hs hsafe
  case getPartial =>
    cases h
    unfold outPartial
    repeat' split
    all_goals exact Discards.rest hs hsafe
  case decide =>
    cases h
    exact discards_outDecide hs hsafe
  case fired =>
    cases h
    unfold outFired
    split
    · split <;> exact Discards.goto hs ⟨hsafe.1, rfl⟩
    · exact Discards.goto hs hsafe
  case prepared =>
    cases h
    unfold outPrepared
    split
    · split
      · exact (Discards.unmark hs).rest hsafe.1
      · exact Discards.rest hs hsafe.1
    · rename_i hretired
      have hstream : s.stream = some s.out.gen := by
        simp only [Bool.or_eq_true, Bool.not_eq_true', decide_eq_true_eq, not_or,
          Bool.not_eq_false, not_not] at hretired
        rw [State.stream, if_pos hretired.1, hretired.2]
      obtain ⟨hopened, hfresh⟩ := hs.active s.out.gen hstream
      exact Discards.goto hs ⟨hsafe.2, hopened, .inl hfresh,
        fun hf => absurd hf (by simp [hsafe.1.1])⟩
  case finalize wait =>
    split at h <;> cases h
    rename_i htask
    exact discards_outFinalize hs hpc htask
  case finalizeCancel =>
    cases h
    exact discards_outNotAccepted hs hsafe.1 _
  case enrich | speakerTest =>
    cases h
    split <;> exact Discards.goto hs hsafe
  case finalLock =>
    cases h
    exact ⟨hs.bound, hs.retired, hs.active, hs.marked, hs.called, hsafe.1, hsafe.2, hs.ok⟩
  case finalSend =>
    cases h
    exact discards_outFinalSent (s := s.send e _) hs hqueue hsafe
  case drainOpen =>
    split at h <;> cases h
    · rename_i gen hcall
      have hgen := hsafe.2.2 gen (by rw [hcall]; rfl)
      exact (Discards.activate hs hgen).goto ⟨hsafe.1, hsafe.2.1, .inl hgen.2⟩
    · exact discards_drainFailed hs hsafe.1
  case drainNext =>
    cases h
    exact discards_drainNext hs hpc
  case drainFeed =>
    split at h <;> cases h
    · exact Discards.goto hs hsafe
    · exact discards_drainFailed hs hsafe.1
  case drainFailCancel =>
    cases h
    exact (Discards.deactivate hs).unmark.rest hsafe
  case loopEnd => split at h <;> cases h <;> exact Discards.rest hs hsafe
  all_goals
    cases h
    exact Discards.goto hs hsafe

/-! Calls and background tasks. -/

/-- Only at the finalize is there a finalize in flight, or an abort that waits for one. -/
theorem quiet_of_pc (hs : s.Discards) (hpc : ∀ wait, s.out.pc ≠ .finalize wait) :
    Quiet s.asrFinalizeTask s.asrAbortRequested := by
  have hsafe := hs.safe
  cases hout : s.out.pc <;> simp only [Out.stage, hout, Stage.Safe] at hsafe
  case finalize wait => exact absurd hout (hpc wait)
  all_goals first
    | exact hsafe
    | exact hsafe.1

theorem dispCall_discards {ok : Bool} (hs : s.Discards) (h : dispCall s ok = some s') :
    s'.Discards := by
  unfold dispCall at h
  split at h
  case isFalse => cases h
  unfold State.Discards
  split at h
  case h_5 => cases h
  all_goals
    rename_i hpc
    split at h <;> cases h
    all_goals
      show Asr.Discards _ _ _ _ _ (Disp.opening _) _ _ _ _ _
      simp only [Disp.opening, hpc]
  case h_1.isTrue | h_2.isTrue =>
    exact Discards.open hs (fun g hg => .inr (Option.some.inj hg).symm) fun hsafe => hsafe.mono
  all_goals exact Discards.moveDisp hs

theorem outCall_discards {ok : Bool} (hs : s.Discards) (h : outCall s ok = some s') :
    s'.Discards := by
  have hsafe := hs.safe
  unfold outCall at h
  split at h
  case isFalse => cases h
  unfold State.Discards
  split at h
  case h_3 => cases h
  all_goals
    rename_i hpc
    simp only [Out.stage, hpc, Stage.Safe] at hsafe
    split at h <;> cases h
    all_goals
      show Asr.Discards _ _ _ _ _ _ _ _ _ (Out.stage _) _
      simp only [Out.stage, hpc]
  case h_1.isTrue =>
    -- the generation of the turn is opened
    refine Discards.open hs (fun g hg => .inl hg) fun _ => ?_
    have hnew : s.generation + 1 ∉ abortedGens s.trace := fun hmem =>
      absurd (hs.bound _ (hs.retired _ hmem)) (by omega)
    refine ⟨hsafe.1, hsafe.2.1, fun g hg => ?_⟩
    obtain rfl := Option.some.inj hg
    exact ⟨List.mem_cons_self, hnew⟩
  case h_1.isFalse => exact Discards.goto hs ⟨hsafe.1, hsafe.2.1, by simp [Call.gen]⟩
  all_goals exact Discards.goto hs hsafe

/-- The finalize ends, as the manager wants if no abort waits for it. -/
theorem finalizeEnds_discards {c : Bool} {outcome : Outcome} (hs : s.Discards)
    (htask : s.asrFinalizeTask = some (.running c))
    (hok : s.asrAbortRequested = true → outcome = .cancelled) :
    State.Discards { s with asrFinalizeTask := some (.ended outcome) } := by
  have hsafe := hs.safe
  refine Discards.goto hs ?_
  show s.out.stage.Safe _ _ _ _ _
  cases hstage : s.out.stage <;> rw [hstage, Stage.Safe] at hsafe
  case finalizing wait fired gen =>
    obtain ⟨hfired, hopened, hgen, hflag⟩ := hsafe
    refine ⟨hfired, hopened, ?_, fun hf => ⟨(hflag hf).1, (hflag hf).2.1, ?_⟩⟩
    · rcases hgen with hgen | hwait | hdoomed
      · exact .inl hgen
      · exact .inr (.inl hwait)
      · obtain rfl := hok (hdoomed.2 c htask)
        exact .inr (.inr ⟨by simp, by simp⟩)
    · rw [hok hf]
      exact .inr rfl
  case idle => exact absurd htask (hsafe.2 c)
  all_goals exact absurd htask (hsafe.1.2 c)

theorem finalizeTimeout_discards {c : Bool} (hs : s.Discards) (hpc : s.out.pc = .finalize .waiting)
    (htask : s.asrFinalizeTask = some (.running c)) (hflag : s.asrAbortRequested = false) :
    State.Discards { s with
      asrFinalizeTask := some (.running true), out.pc := .finalize .timedOut } := by
  have hsafe := hs.safe
  simp only [Out.stage, hpc, Stage.Safe] at hsafe
  obtain ⟨hfired, hopened, hgen, _⟩ := hsafe
  refine Discards.goto hs ⟨hfired, hopened, .inl ?_, fun hf => absurd hf (by simp [hflag])⟩
  rcases hgen with hgen | hwait | hdoomed
  · exact hgen
  · cases hwait
  · rw [hdoomed.2 c htask] at hflag
    cases hflag

theorem cancelOut_discards (hs : s.Discards) (h : cancelOut s e = some s') : s'.Discards := by
  unfold cancelOut at h
  split at h
  · cases h
  · rename_i hpc
    split at h <;> cases h
    · have hsafe := hs.safe
      simp only [Out.stage, hpc, Stage.Safe] at hsafe
      obtain ⟨hfired, hopened, _, hflag⟩ := hsafe
      exact Discards.goto hs ⟨hfired, hopened, .inr (.inl rfl),
        fun hf => ⟨(hflag hf).1, by simp, .inl rfl⟩⟩
    · exact hs
  · cases h
    exact discards_outCancelled hs
  · rename_i hpc
    have hquiet := quiet_of_pc hs hpc
    cases h
    exact Discards.rest hs hquiet

/-- **The step lemma.** -/
theorem step_discards {a : Act α} (hs : s.Discards) (hqueue : s.TurnQueue cfg)
    (hok : DiscardsFinals cfg s a) (h : step cfg s a = some s') : s'.Discards := by
  cases a <;> simp only [step] at h <;> split at h
  all_goals try cases h; done
  case receive msg _ => exact receive_discards hs hok h
  case disp e _ => exact dispStep_discards hs h
  case out e _ => exact outStep_discards hs hqueue h
  case dispCall ok _ => exact dispCall_discards hs h
  case outCall ok _ => exact outCall_discards hs h
  case cancelOut e _ => exact cancelOut_discards hs h
  case teardown =>
    cases h
    exact Discards.of_queue hs (keeps_clear _)
  case finalizeTimeout =>
    split at h <;> cases h
    rename_i hpc htask
    exact finalizeTimeout_discards hs hpc htask hok
  case finalizeEnds outcome _ =>
    split at h <;> cases h
    rename_i htask
    exact finalizeEnds_discards hs htask hok
  case dispFails =>
    split at h <;> cases h
    exact Discards.moveDisp hs
  case cancelEnds | prepareEnds =>
    split at h <;> cases h
    exact hs

/-- **The run lemma.** -/
theorem run_discards {as : List (Act α)} (hrun : (machine cfg).run as = some s)
    (hok : (machine cfg).Guarded (DiscardsFinals cfg) .start as) : s.Discards := by
  have hstart : (State.start : State α).Discards ∧ (State.start : State α).TurnQueue cfg := by
    refine ⟨⟨?_, ?_, ?_, ?_, ?_, ⟨rfl, ?_⟩, trivial⟩, turnQueue_start⟩ <;>
      simp [State.start, openedGens, abortedGens, State.stream, State.markedGen, Disp.opening]
  exact ((machine cfg).invariant_of_guarded (DiscardsFinals cfg)
    (P := fun s => s.Discards ∧ s.TurnQueue cfg) hstart
    (fun _ _ _ hs hok h => ⟨step_discards hs.1 hs.2 hok h, step_turnQueue hs.2 h⟩) hok hrun).1

/-- **An abort discards the finals still to come.**  In a run in which no abort comes
late, no final is for a generation opened before an abort that was processed before the
final; and `asr_abort_requested` is set only while `asr_out_task` waits for the finalize
of an aborted generation, which is cancelled. -/
theorem abort_discards_finals (cfg : Cfg) (as : List (Act α)) (s : State α)
    (hrun : (machine cfg).run as = some s)
    (hok : (machine cfg).Guarded (DiscardsFinals cfg) .start as) :
    FinalsFresh s.trace ∧
      (s.asrAbortRequested = true → ∃ wait, s.out.pc = .finalize wait ∧
        s.out.gen ∈ abortedGens s.trace ∧ InFlight s.asrFinalizeTask) := by
  have hs := run_discards hrun hok
  refine ⟨hs.ok, fun hflag => ?_⟩
  by_cases hpc : ∀ wait, s.out.pc ≠ .finalize wait
  · have hquiet := quiet_of_pc hs hpc
    rw [hquiet.1] at hflag
    cases hflag
  · push Not at hpc
    obtain ⟨wait, hpc⟩ := hpc
    have hsafe := hs.safe
    simp only [Out.stage, hpc, Stage.Safe] at hsafe
    exact ⟨wait, hpc, (hsafe.2.2.2 hflag).1, (hsafe.2.2.2 hflag).2.2⟩

/-- The client aborts while the finalize of the first turn is in flight. -/
def abortInFinalizeRun : List (Act ℕ) :=
  startTurn 1 ++ endTurn 2 ++ pollToFinalize ++ ([.receive (.abort false)] : List (Act ℕ))

theorem abort_discards_finals_abortInFinalizeRun :
    ∃ s, (machine exampleCfg).run abortInFinalizeRun = some s ∧ s.asrAbortRequested = true ∧
      FinalsFresh s.trace :=
  ⟨_, rfl, rfl, (abort_discards_finals exampleCfg abortInFinalizeRun _ rfl (by decide)).1⟩

/-- The client aborts while the accepted text is being punctuated. -/
def abortInPunctRun : List (Act ℕ) :=
  startTurn 1 ++ endTurn 2 ++ pollToFinalize ++
    ([.finalizeEnds (.accepted "a" none), .out {}, .out {}, .receive (.abort false),
      .out { text := "a." }, .out {}, .out {}, .out {}] : List (Act ℕ))

/-- The finalize that an abort has cancelled times out before it ends. -/
def abortTimeoutRun : List (Act ℕ) :=
  abortInFinalizeRun ++
    ([.finalizeTimeout, .finalizeEnds .cancelled, .out {}, .out {}, .out {}] : List (Act ℕ))

/-- **Two ways around an abort.**  An abort during the punctuation: the final of the
aborted generation is sent.  A finalize that times out while it is being cancelled: the
flag stays set at the top of the polling loop. -/
theorem abortInPunctRun_sends_final :
    (∃ s, (machine { exampleCfg with punctOn := true }).run abortInPunctRun = some s ∧
        ¬ FinalsFresh s.trace) ∧
      ∃ s, (machine exampleCfg).run abortTimeoutRun = some s ∧ s.asrAbortRequested = true ∧
        s.out.pc = .top :=
  ⟨⟨_, rfl, by decide⟩, _, rfl, rfl, rfl⟩

end Asr
end V2v
end OpenVoiceStream
