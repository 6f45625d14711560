import OpenVoiceStream.V2v.Asr.Model

/-!
# Accounts of the held back audio

`_drain_pending_turn` takes the head of the queue, feeds it over many awaits, and
removes the head of the queue at the end.  The two heads are the same turn as long as
nobody drops the queue in between; an abort or an overflow does exactly that.

## Main definitions

* `Out.held` — the turn the drain holds on to.
* `DrainOk` — a history in which the drain removes the turn it fed, and feeds no turn
  that was dropped.
* `NoDropInDrain` — no step drops the held back audio under the drain.
* `Held` — the invariant.

## Main results

* `step_held`, `run_held` — the invariant along runs that meet the guard.
* `pending_accounted` — in these runs the counters agree with the lists, and the drain
  removes what it fed.
* `abortInDrainRun_feeds_dropped` — an abort under the drain: a dropped turn is fed.
-/

namespace OpenVoiceStream
namespace V2v
namespace Asr

open PendingAudio

variable {α : Type}

/-- The turn `_drain_pending_turn` holds on to, until it removes one. -/
def Out.held (o : Out α) : Option ℕ :=
  match o.pc with
  | .drainOpen | .drainNext | .drainFeed => some o.turn
  | _ => none

/-- The turns dropped so far. -/
def clearedTurns : List (Event α) → List ℕ
  | [] => []
  | .cleared turns :: trace => turns ++ clearedTurns trace
  | _ :: trace => clearedTurns trace

/-- Whatever the drain removed is the turn it had fed, and what it fed was not dropped
before. -/
def DrainOk : List (Event α) → Prop
  | [] => True
  | .popped removed turn :: trace => removed = some turn ∧ DrainOk trace
  | .fed turn _ :: trace => turn ∉ clearedTurns trace ∧ DrainOk trace
  | _ :: trace => DrainOk trace

instance : ∀ trace : List (Event α), Decidable (DrainOk trace)
  | [] => isTrue trivial
  | .popped _ _ :: trace => by
    have := instDecidableDrainOk trace
    unfold DrainOk; infer_instance
  | .fed _ _ :: trace => by
    have := instDecidableDrainOk trace
    unfold DrainOk; infer_instance
  | .arrived _ :: trace | .queued _ _ _ :: trace | .trigger :: trace | .opened _ _ :: trace
  | .accepted _ _ :: trace | .cleared _ :: trace | .aborted :: trace | .final _ _ :: trace
  | .sent _ _ :: trace => instDecidableDrainOk trace

/-- The segment at hand does not fit into the held back audio. -/
def overflows (cfg : Cfg) (s : State α) : Bool :=
  match s.disp.pc with
  | .segment =>
    pendingBlocked cfg s && decide (s.disp.current.event ≠ some .speechStart) &&
      (if s.pend.openTurn.isSome then
        (s.pend.appendTurn cfg.pendingLimitSamples s.disp.current.samples).isNone
      else (s.pend.appendTail cfg.pendingLimitSamples s.disp.current.samples).isNone)
  | .pendingStart => (s.pend.newTurn cfg.pendingLimitSamples s.disp.current.samples).isNone
  | _ => false

/-- The step drops the held back audio, and is not one of `asr_out_task`. -/
def dropsPending (cfg : Cfg) (s : State α) : Act α → Bool
  | .receive (.abort keepAsr) => !keepsAsr cfg s keepAsr
  | .disp _ => overflows cfg s
  | .teardown => true
  | _ => false

/-- Nothing drops the held back audio while the drain holds on to a turn. -/
def NoDropInDrain (cfg : Cfg) (s : State α) (a : Act α) : Prop :=
  dropsPending cfg s a = true → s.out.held = none

instance (cfg : Cfg) (s : State α) (a : Act α) : Decidable (NoDropInDrain cfg s a) := by
  unfold NoDropInDrain; infer_instance

/-! ### The invariant -/

section Held

variable {limit : ℤ} {p q : PendingAudio α} {held : Option ℕ} {cleared : List ℕ} {log : Prop}
  {samples : List α} {t : ℕ}

/-- The invariant, for a drain that holds the turn `held` and a history with the dropped
turns `cleared` of which `log` is to be shown. -/
structure Held (limit : ℤ) (p : PendingAudio α) (held : Option ℕ) (cleared : List ℕ)
    (log : Prop) : Prop where
  acc : p.Accounted limit
  head : ∀ t ∈ held, p.turns.head? = some t
  /-- A dropped turn does not come back. -/
  gone : ∀ t ∈ cleared, t < p.fresh ∧ t ∉ p.turns
  ok : log

/-- The drain may let go. -/
theorem Held.release (h : Held limit p held cleared log) : Held limit p none cleared log :=
  ⟨h.acc, by simp, h.gone, h.ok⟩

/-- The drain takes the head of the queue. -/
theorem Held.take (h : Held limit p held cleared log) (ht : p.turns.head? = some t) :
    Held limit { p with draining := true } (some t) cleared log :=
  ⟨h.acc.setDraining true, by simpa using ht, h.gone, h.ok⟩

/-- A held turn was not dropped. -/
theorem Held.not_mem_cleared (h : Held limit p (some t) cleared log) : t ∉ cleared := by
  intro hmem
  exact (h.gone t hmem).2 (List.mem_of_head? (h.head t rfl))

/-- The queue and its addresses stay. -/
theorem Held.of_turns (h : Held limit p held cleared log) (hacc : q.Accounted limit)
    (hturns : q.turns = p.turns) (hfresh : q.fresh = p.fresh) : Held limit q held cleared log :=
  ⟨hacc, by rw [hturns]; exact h.head, by rw [hturns, hfresh]; exact h.gone, h.ok⟩

theorem Held.clear (h : Held limit p held cleared log) :
    Held limit p.clear none (p.turns ++ cleared) log where
  acc := h.acc.clear
  head := by simp
  gone := by
    intro t ht
    refine ⟨?_, by simp [PendingAudio.clear]⟩
    rcases List.mem_append.mp ht with ht | ht
    · exact h.acc.fresh t ht
    · exact (h.gone t ht).1
  ok := h.ok

theorem Held.dropTail (h : Held limit p held cleared log) : Held limit p.dropTail held cleared log :=
  h.of_turns h.acc.dropTail rfl rfl

theorem Held.appendTail (h : Held limit p held cleared log)
    (hq : p.appendTail limit samples = some q) : Held limit q held cleared log := by
  obtain ⟨hturns, _, hfresh, _⟩ := appendTail_queue hq
  exact h.of_turns (h.acc.appendTail hq) hturns hfresh

theorem Held.appendTurn (h : Held limit p held cleared log)
    (hq : p.appendTurn limit samples = some q) : Held limit q held cleared log := by
  obtain ⟨hturns, hfresh, _⟩ := appendTurn_queue hq
  exact h.of_turns (h.acc.appendTurn hq) hturns hfresh

theorem Held.markEnd (h : Held limit p held cleared log) : Held limit p.markEnd held cleared log :=
  h.of_turns h.acc.markEnd (markEnd_queue p).1 (markEnd_queue p).2.1

theorem Held.newTurn (h : Held limit p held cleared log)
    (hq : p.newTurn limit samples = some q) : Held limit q held cleared log := by
  obtain ⟨hturns, hfresh, _⟩ := newTurn_queue hq
  refine ⟨h.acc.newTurn hq, fun t ht => ?_, fun t ht => ?_, h.ok⟩
  · rw [hturns, List.head?_append, h.head t ht]
    rfl
  · obtain ⟨hlt, hnot⟩ := h.gone t ht
    rw [hturns, hfresh]
    exact ⟨Nat.lt_succ_of_lt hlt, by simp [hnot, Nat.ne_of_lt hlt]⟩

/-- The drain removes the turn it holds. -/
theorem Held.popTurn (h : Held limit p (some t) cleared log) (hq : p.popTurn t = some q) :
    Held limit q none cleared (p.turns.head? = some t ∧ log) := by
  have hhead := h.head t rfl
  obtain ⟨⟨u, hturns⟩, _, hfresh, _⟩ := popTurn_queue hq
  refine ⟨h.acc.popTurn hhead hq, by simp, fun v hv => ?_, hhead, h.ok⟩
  obtain ⟨hlt, hnot⟩ := h.gone v hv
  rw [hfresh]
  exact ⟨hlt, fun hmem => hnot (by simp [hturns, hmem])⟩

end Held

/-! ### Steps -/

variable {cfg : Cfg} {s s' : State α} {e : Env}

/-- The invariant of a state. -/
def State.Held (cfg : Cfg) (s : State α) : Prop :=
  Asr.Held cfg.pendingLimitSamples s.pend s.out.held (clearedTurns s.trace) (DrainOk s.trace)

theorem held_rejectPending (hs : s.Held cfg) (hout : s.out.held = none) (reason : String) :
    (s.rejectPending reason).Held cfg := by
  unfold State.Held
  show Asr.Held _ _ s.out.held _ _
  rw [hout]
  exact Held.clear hs

/-- Admitting a block moves the dispatcher and the VAD. -/
theorem admitAudio_eq (cfg : Cfg) (s : State α) :
    ∃ disp inSpeech, admitAudio cfg s = { s with disp := disp, inSpeech := inSpeech } := by
  unfold admitAudio
  repeat' split
  all_goals exact ⟨_, _, rfl⟩

theorem held_admitAudio (hs : s.Held cfg) : (admitAudio cfg s).Held cfg := by
  obtain ⟨disp, inSpeech, heq⟩ := admitAudio_eq cfg s
  rw [heq]
  exact hs

theorem held_dispSegment (hs : s.Held cfg) (hpc : s.disp.pc = .segment)
    (hok : overflows cfg s = true → s.out.held = none) : (dispSegment cfg s).Held cfg := by
  have harrived : State.Held cfg { s with trace := .arrived s.disp.current :: s.trace } := hs
  unfold dispSegment
  dsimp only
  split
  case isTrue hblocked =>
    split
    · exact hs
    rename_i hstart
    have hblocked' : pendingBlocked cfg s = true := hblocked
    split
    · rename_i hopen
      split
      · rename_i hnone
        exact held_rejectPending harrived
          (hok (by simp [overflows, hpc, hblocked', hstart, hopen, hnone])) _
      · rename_i hq
        split
        · exact (Held.appendTurn hs hq).markEnd
        · exact Held.appendTurn hs hq
    · rename_i hopen
      split
      · rename_i hnone
        exact held_rejectPending harrived
          (hok (by simp [overflows, hpc, hblocked', hstart, hopen, hnone])) _
      · rename_i hq
        split <;> exact Held.appendTail hs hq
  case isFalse => split <;> exact hs

theorem held_dispPendingStart (hs : s.Held cfg)
    (hok : (s.pend.newTurn cfg.pendingLimitSamples s.disp.current.samples).isNone →
      s.out.held = none) : (dispPendingStart cfg s).Held cfg := by
  unfold dispPendingStart
  split
  · rename_i hnone
    exact held_rejectPending hs (hok (by simp [hnone])) _
  · rename_i hq
    exact Held.newTurn hs hq

/-- The dispatcher's steps. -/
theorem dispStep_held (hs : s.Held cfg) (hok : overflows cfg s = true → s.out.held = none)
    (h : dispStep cfg s e = some s') : s'.Held cfg := by
  cases hpc : s.disp.pc <;> simp only [dispStep, hpc] at h
  case recv => cases h
  case ended => cases h
  case segment =>
    cases h
    exact held_dispSegment hs hpc hok
  case pendingStart =>
    cases h
    refine held_dispPendingStart (s := s.send e _) hs fun hnone => hok ?_
    rw [overflows, hpc]
    exact hnone
  case joinCancel =>
    split at h
    · split at h <;> cases h
      exact held_admitAudio (s := { s with asrCancelTask := none }) hs
    · cases h
      exact hs
  case liveStart =>
    cases h
    unfold dispLiveStart
    repeat' split
    all_goals exact hs
  case openTurn =>
    split at h <;> cases h
    · unfold dispOpened
      dsimp only
      split <;> exact hs
    · exact hs
  case lazyTest =>
    cases h
    unfold dispLazyTest
    split <;> exact hs
  case latch =>
    cases h
    unfold dispLatch
    repeat' split
    all_goals exact hs
  case ring =>
    cases h
    unfold dispRing
    split <;> exact hs
  case joinFailed | pendingEnd | rejecting | openFailed | lazyFailed | latched =>
    cases h
    exact hs
  case replay | lazyOpen | feed | feedTest =>
    split at h <;> cases h <;> exact hs

/-- Frames of the client. -/
theorem receive_held {msg : Msg α} (hs : s.Held cfg)
    (hok : dropsPending cfg s (.receive msg) = true → s.out.held = none)
    (h : receive cfg s msg = some s') : s'.Held cfg := by
  unfold receive at h
  split at h <;> cases h
  split
  · exact hs
  cases msg with
  | audio samples flips =>
    show (receiveAudio cfg s samples flips).Held cfg
    unfold receiveAudio
    split
    · exact hs
    · exact held_admitAudio (s := { s with asrCancelTask := none, disp.block := (samples, flips) }) hs
  | abort keepAsr =>
    simp only [receiveMsg]
    split
    · exact hs
    rename_i hkeep
    have hnone : s.out.held = none := hok (by simpa [dropsPending] using hkeep)
    rw [abortAsr_eq]
    unfold State.Held
    show Asr.Held _ _ s.out.held _ _
    rw [hnone]
    exact Held.clear hs
  | asrEos | asrPrepare | other | disconnect => exact hs

/-! The steps of `asr_out_task`.  Where the drain does not hold a turn afterwards the
invariant can only get weaker. -/

theorem held_outDecide (hs : s.Held cfg) : (outDecide cfg s).Held cfg := by
  unfold outDecide
  dsimp only
  repeat' split
  all_goals exact Held.release hs

theorem held_outAccepted (hs : s.Held cfg) (text : String) (language : Option String) :
    (outAccepted cfg s text language).Held cfg := by
  unfold outAccepted State.movePendingTailToPreroll
  dsimp only
  repeat' split
  all_goals first
    | exact Held.release hs
    | exact (Held.dropTail (p := s.pend) hs).release

theorem held_outNotAccepted (hs : s.Held cfg) (failure : Option String) :
    (outNotAccepted s e failure).Held cfg := by
  unfold outNotAccepted
  dsimp only
  repeat' split
  all_goals exact Held.clear hs

theorem held_outCancelled (hs : s.Held cfg) : (outCancelled s e).Held cfg := by
  unfold outCancelled
  split
  · exact held_outNotAccepted (s := { s with asrAbortRequested := false }) hs none
  · exact Held.release hs

theorem held_outFinalize (hs : s.Held cfg) (wait : Wait) (outcome : Outcome) :
    (outFinalize cfg s e wait outcome).Held cfg := by
  unfold outFinalize
  split
  · exact held_outCancelled hs
  · exact held_outCancelled hs
  · exact held_outAccepted hs _ _
  · exact held_outNotAccepted hs _
  all_goals exact Held.release hs

theorem held_outFinalSent (hs : s.Held cfg) : (outFinalSent cfg s).Held cfg := by
  unfold outFinalSent
  dsimp only
  repeat' split
  case h_2.isFalse hturns _ => exact (Held.release hs).take (by rw [hturns]; rfl)
  all_goals exact Held.release hs

theorem held_drainFailed (hs : s.Held cfg) : (drainFailed s).Held cfg := by
  unfold drainFailed
  split
  · exact Held.release hs
  · exact Held.clear hs

/-- The turn that leaves the queue is the one that was fed. -/
theorem held_drainPop (hs : Asr.Held cfg.pendingLimitSamples s.pend (some s.out.turn)
    (clearedTurns s.trace) (DrainOk s.trace)) : (drainPop s).Held cfg := by
  unfold drainPop
  split
  · rename_i hpop
    have hhead := hs.head _ rfl
    rw [popTurn_eq_none_iff.mp hpop] at hhead
    cases hhead
  · rename_i hpop
    exact hs.popTurn hpop

theorem held_drainNext (hs : s.Held cfg) (hpc : s.out.pc = .drainNext) :
    (drainNext s).Held cfg := by
  have hheld : s.out.held = some s.out.turn := by simp [Out.held, hpc]
  have hturn : Asr.Held cfg.pendingLimitSamples s.pend (some s.out.turn) (clearedTurns s.trace)
      (DrainOk s.trace) := hheld ▸ hs
  unfold drainNext
  split
  · split
    · exact hs
    · -- a segment of the held turn is fed
      exact ⟨hturn.acc, hturn.head, hturn.gone, hturn.not_mem_cleared, hturn.ok⟩
  · unfold drainMark
    dsimp only
    split <;> exact held_drainPop hturn

/-- The steps of `asr_out_task`. -/
theorem outStep_held (hs : s.Held cfg) (h : outStep cfg s e = some s') : s'.Held cfg := by
  cases hpc : s.out.pc <;> simp only [outStep, hpc] at h
  case ended => cases h
  case top =>
    cases h
    unfold outTop
    repeat' split
    all_goals exact Held.release hs
  case deadlineCancel => split at h <;> cases h <;> exact Held.release hs
  case deadlineSend => split at h <;> cases h <;> exact Held.release hs
  case getPartial =>
    cases h
    unfold outPartial
    repeat' split
    all_goals exact Held.release hs
  case decide =>
    cases h
    exact held_outDecide hs
  case fired =>
    cases h
    unfold outFired
    split
    · split <;> exact Held.release hs
    · exact Held.release hs
  case prepared =>
    cases h
    unfold outPrepared
    repeat' split
    all_goals exact Held.release hs
  case finalize wait =>
    split at h <;> cases h
    exact held_outFinalize hs wait _
  case finalizeCancel =>
    cases h
    exact held_outNotAccepted hs _
  case enrich => cases h; split <;> exact Held.release hs
  case speakerTest => cases h; split <;> exact Held.release hs
  case finalSend =>
    cases h
    exact held_outFinalSent (s := s.send e _) hs
  case drainOpen =>
    split at h <;> cases h
    · have hheld : s.out.held = some s.out.turn := by simp [Out.held, hpc]
      show Asr.Held _ _ (some s.out.turn) _ _
      rw [← hheld]
      exact hs
    · exact held_drainFailed hs
  case drainNext =>
    cases h
    exact held_drainNext hs hpc
  case drainFeed =>
    split at h <;> cases h
    · have hheld : s.out.held = some s.out.turn := by simp [Out.held, hpc]
      show Asr.Held _ _ (some s.out.turn) _ _
      rw [← hheld]
      exact hs
    · exact held_drainFailed hs
  case drainFailCancel =>
    cases h
    exact Held.clear hs
  case loopEnd => split at h <;> cases h <;> exact Held.release hs
  all_goals
    -- one await after another, with no turn in hand
    cases h
    exact Held.release hs

/-- **The step lemma.** -/
theorem step_held {a : Act α} (hs : s.Held cfg) (hok : NoDropInDrain cfg s a)
    (h : step cfg s a = some s') : s'.Held cfg := by
  cases a <;> simp only [step] at h <;> split at h
  all_goals try cases h; done
  case receive msg _ => exact receive_held hs hok h
  case disp e _ => exact dispStep_held hs hok h
  case out e _ => exact outStep_held hs h
  case dispCall ok _ =>
    unfold dispCall at h
    repeat' split at h
    all_goals (cases h; try exact hs)
  case outCall ok _ =>
    unfold outCall at h
    repeat' split at h
    all_goals cases h <;> exact hs
  case cancelOut e _ =>
    unfold cancelOut at h
    split at h
    · cases h
    · split at h <;> cases h
      · exact Held.release hs
      · exact hs
    · cases h
      exact held_outCancelled hs
    · cases h
      exact Held.release hs
  case teardown =>
    cases h
    have hnone : s.out.held = none := hok rfl
    show Asr.Held _ _ s.out.held _ _
    rw [hnone]
    exact Held.clear hs
  case finalizeTimeout =>
    split at h <;> cases h
    exact Held.release hs
  case dispFails | finalizeEnds | cancelEnds | prepareEnds =>
    split at h <;> cases h
    exact hs

/-- **The run lemma.** -/
theorem run_held {as : List (Act α)} (hrun : (machine cfg).run as = some s)
    (hok : (machine cfg).Guarded (NoDropInDrain cfg) .start as) : s.Held cfg := by
  have hstart : (State.start : State α).Held cfg :=
    ⟨PendingAudio.accounted_start cfg.pendingLimitSamples_nonneg, by simp [Out.held, State.start],
      by simp [clearedTurns, State.start], trivial⟩
  exact (machine cfg).invariant_of_guarded (NoDropInDrain cfg) hstart
    (fun _ _ _ hs hok h => step_held hs hok h) hok hrun

/-- **The accounts of the held back audio.**  In a run that never drops the held back
audio under the drain, the counters are the sums over the turns and the tail, within the
limit; the turn in the drain is the head of the queue; and all the drain did so far was to
remove the turns it had fed, of which none had been dropped. -/
theorem pending_accounted (cfg : Cfg) (as : List (Act α)) (s : State α)
    (hrun : (machine cfg).run as = some s)
    (hok : (machine cfg).Guarded (NoDropInDrain cfg) .start as) :
    s.pend.turnSamples = (s.pend.turns.map fun t => (s.pend.turn t).samples).sum ∧
      s.pend.tailSamples = size s.pend.tail ∧
      0 ≤ s.pend.turnSamples + s.pend.tailSamples ∧
      s.pend.turnSamples + s.pend.tailSamples ≤ cfg.pendingLimitSamples ∧
      (∀ t ∈ s.out.held, s.pend.turns.head? = some t) ∧ DrainOk s.trace := by
  have hs := run_held hrun hok
  have htail : 0 ≤ s.pend.tailSamples := hs.acc.tailSize ▸ PendingAudio.size_nonneg _
  have hturns := hs.acc.turnSamples_nonneg
  exact ⟨hs.acc.turnSum, hs.acc.tailSize, by omega, hs.acc.limit, hs.head, hs.ok⟩

/-- A second turn is spoken while the first final is in flight. -/
def queuedTurnRun : List (Act ℕ) :=
  startTurn 1 ++ endTurn 2 ++ pollToFinalize ++ queueTurn 3 ++
    ([.receive (.audio [4] []), .disp {}] : List (Act ℕ)) ++ sendFinal ++
    ([.outCall true, .out {}, .out {}] : List (Act ℕ))

theorem pending_accounted_queuedTurnRun :
    ∃ s, (machine exampleCfg).run queuedTurnRun = some s ∧ s.out.held = some 0 ∧
      s.pend.turns.head? = some 0 :=
  ⟨_, rfl, rfl, (pending_accounted exampleCfg queuedTurnRun _ rfl (by decide)).2.2.2.2.1 0 rfl⟩

/-- The client aborts while the drain feeds the turn, and goes on speaking behind an
`asr_eos`. -/
def abortInDrainRun : List (Act ℕ) :=
  queuedTurnRun ++
    ([.receive (.abort false), .cancelEnds, .receive .asrEos, .receive (.audio [5] [0, 1]),
      .disp {}, .disp {}, .disp {}, .disp {}, .outCall true, .out {}, .out {}, .outCall true,
      .out {}, .out {}] : List (Act ℕ))

/-- **The drain goes on with a dropped turn**: after the abort it feeds the rest of turn
`0`, removes turn `1`, and leaves the counter below zero. -/
theorem abortInDrainRun_feeds_dropped :
    ((machine exampleCfg).run abortInDrainRun).map (fun s => (s.pend.turns, s.pend.turnSamples))
        = some ([], -1) ∧
      ∃ s, (machine exampleCfg).run abortInDrainRun = some s ∧ ¬ DrainOk s.trace :=
  ⟨by decide, _, rfl, by decide⟩

end Asr
end V2v
end OpenVoiceStream
