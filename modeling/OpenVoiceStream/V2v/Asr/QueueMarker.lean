import OpenVoiceStream.V2v.Asr.TurnQueue

/-!
# The marker of a queued turn

While a turn is queued, all later audio is queued behind it.  `asr_out_task` comes to the
queue only behind a final, and a final needs `endpoint_pending`: a queued turn without
that marker is never opened.  Most branches that drop the marker drop the queue with it;
the turn deadline, the stale marker and the retired generation do not.

## Main definitions

* `KeepsMarker` — the guard: no step drops the marker and leaves turns queued, or queues
  a turn behind nothing.
* `Duty` — what `asr_out_task` is at; `Marked` — the invariant.

## Main results

* `step_marked`, `run_marked` — the invariant along runs that meet the guard.
* `queued_turn_marked` — in these runs a queued turn has a marker at the top of the loop.
* `deadlineRun_strands_turn` — a turn deadline with a turn behind it: it stays queued, and
  nothing is going to open it.
-/

namespace OpenVoiceStream
namespace V2v
namespace Asr

open PendingAudio

variable {α : Type}

/-- Neither the session nor the client is closed. -/
def State.live (s : State α) : Bool := !s.asrSessionClosed && !s.clientClosed

/-- The generation `asr_out_task` prepared is not the active one any more. -/
def retired (s : State α) : Bool := !s.asrActive || decide (s.asrActiveGen ≠ s.out.gen)

/-- What `asr_out_task` is at. -/
inductive Duty
  /-- It polls, or goes on to a finalize. -/
  | polling
  /-- A finalize is in flight. -/
  | finalizing
  /-- A final is on its way; the queue is looked at behind it. -/
  | answering
  | draining
  /-- A drain has failed; the queue is about to be dropped. -/
  | failing
  | over
  deriving DecidableEq, Repr

/-- The duty at each point. -/
def OutPc.duty : OutPc → Duty
  | .finalize _ | .finalizeCancel => .finalizing
  | .enrich | .punct | .speakerTest | .speaker | .final | .finalLock | .finalSend => .answering
  | .drainOpen | .drainNext | .drainFeed => .draining
  | .drainFailCancel => .failing
  | .ended => .over
  | _ => .polling

/-- The step drops the marker, and leaves the queue. -/
def dropsMarker (cfg : Cfg) (s : State α) : Act α → Bool
  | .out e =>
    match s.out.pc with
    | .deadlineCancel => e.ok || !cfg.restartWorker
    | .deadlineRestart => true
    | .decide => staleEndpoint s
    | .prepared => retired s && decide (s.endpointPendingGen = some s.out.gen)
    | _ => false
  | _ => false

/-- The step queues a turn although what held it back is gone. -/
def queuesLate (cfg : Cfg) (s : State α) : Act α → Bool
  | .disp _ =>
    decide (s.disp.pc = .pendingStart) && !pendingBlocked cfg s &&
      (s.pend.newTurn cfg.pendingLimitSamples s.disp.current.samples).isSome
  | _ => false

/-- No step of a live connection drops the marker of queued turns, or queues one without a
marker while `asr_out_task` polls or drains. -/
def KeepsMarker (cfg : Cfg) (s : State α) (a : Act α) : Prop :=
  s.live = true →
    (dropsMarker cfg s a = true → s.pend.turns = []) ∧
      (queuesLate cfg s a = true → s.out.pc.duty ≠ .polling ∧ s.out.pc.duty ≠ .draining)

instance (cfg : Cfg) (s : State α) (a : Act α) : Decidable (KeepsMarker cfg s a) := by
  unfold KeepsMarker; infer_instance

/-! ### The invariant -/

section Marked

variable {live live' marked marked' finalizing : Bool} {p q : PendingAudio α} {duty duty' : Duty}
  {limit : ℤ} {samples : List α} {t u : ℕ}

/-- The invariant: what a live connection keeps while `asr_out_task` is at `duty`, with the
turn `t` in its hands if it drains. -/
structure Marked (live marked finalizing : Bool) (p : PendingAudio α) (duty : Duty) (t : ℕ) :
    Prop where
  polling : live = true → duty = .polling → p.turns ≠ [] → marked = true
  /-- The turn in the drain is the head of the queue, or the queue was dropped. -/
  draining : live = true → duty = .draining →
    if p.draining then p.turns.head? = some t else p.turns ≠ [] → marked = true
  finalizing : live = true → finalizing = true → duty = .finalizing ∨ duty = .over
  flag : live = true → p.draining = true → duty = .draining ∨ duty = .failing ∨ duty = .over

theorem Marked.close (h : Marked live marked finalizing p duty t) (hl : live' = true → live = true) :
    Marked live' marked finalizing p duty t :=
  ⟨fun h' => h.polling (hl h'), fun h' => h.draining (hl h'), fun h' => h.finalizing (hl h'),
    fun h' => h.flag (hl h')⟩

/-- The marker is set. -/
theorem Marked.mark (h : Marked live marked finalizing p duty t) :
    Marked live true finalizing p duty t := by
  refine ⟨fun _ _ _ => rfl, fun hl hd => ?_, h.finalizing, h.flag⟩
  have := h.draining hl hd
  split at this <;> simp_all

/-- The marker is dropped while nothing is queued. -/
theorem Marked.unmark (h : Marked live marked finalizing p duty t)
    (hturns : live = true → p.turns = []) : Marked live marked' finalizing p duty t := by
  refine ⟨fun hl _ hne => absurd (hturns hl) hne, fun hl hd => ?_, h.finalizing, h.flag⟩
  have := h.draining hl hd
  have := hturns hl
  split at * <;> simp_all

/-- Nothing is held back any more. -/
theorem marked_clear : Marked live marked false p.clear duty t :=
  ⟨fun _ _ hne => absurd rfl hne, fun _ _ => by simp [PendingAudio.clear], by simp,
    by simp [PendingAudio.clear]⟩

/-- The queue is dropped. -/
theorem Marked.clearQueue (h : Marked live marked finalizing p duty t) :
    Marked live marked finalizing p.clear duty t :=
  ⟨fun _ _ hne => absurd rfl hne, fun _ _ => by simp [PendingAudio.clear], h.finalizing,
    by simp [PendingAudio.clear]⟩

/-- The end of the task owes nothing. -/
theorem marked_over : Marked live marked finalizing p .over t :=
  ⟨by simp, by simp, by simp, by simp⟩

/-- The queue stays. -/
theorem Marked.of_turns (h : Marked live marked finalizing p duty t) (hturns : q.turns = p.turns)
    (hflag : q.draining = p.draining) : Marked live marked finalizing q duty t :=
  ⟨by rw [hturns]; exact h.polling, by rw [hturns, hflag]; exact h.draining, h.finalizing,
    by rw [hflag]; exact h.flag⟩

/-- A new turn is queued behind something. -/
theorem Marked.newTurn (h : Marked live marked finalizing p duty t)
    (hq : p.newTurn limit samples = some q)
    (hblocked : live = true → duty = .polling ∨ duty = .draining →
      marked = true ∨ finalizing = true ∨ p.draining = true ∨ p.turns ≠ []) :
    Marked live marked finalizing q duty t := by
  obtain ⟨hturns, _, hflag, _⟩ := newTurn_queue hq
  refine ⟨fun hl hd _ => ?_, fun hl hd => ?_, h.finalizing, by rw [hflag]; exact h.flag⟩
  · subst hd
    rcases hblocked hl (.inl rfl) with hm | hf | hflag' | hne
    · exact hm
    · simpa using h.finalizing hl hf
    · simpa using h.flag hl hflag'
    · exact h.polling hl rfl hne
  · subst hd
    have hdrain := h.draining hl rfl
    rw [hflag, hturns]
    split at hdrain
    · rename_i hflag'
      rw [if_pos hflag', List.head?_append, hdrain]
      rfl
    · rename_i hflag'
      rw [if_neg hflag']
      intro _
      rcases hblocked hl (.inr rfl) with hm | hf | hflag'' | hne
      · exact hm
      · simpa using h.finalizing hl hf
      · exact absurd hflag'' hflag'
      · exact hdrain hne

/-- The generation is finalized. -/
theorem Marked.finalize (h : Marked live marked finalizing p .polling t) :
    Marked live marked true p .finalizing t :=
  ⟨by simp, by simp, by simp, fun hl hf => by simpa using h.flag hl hf⟩

/-- The endpoint is answered at once. -/
theorem Marked.answer (h : Marked live marked finalizing p .polling t) :
    Marked live marked finalizing p .answering t :=
  ⟨by simp, by simp, fun hl hf => by simpa using h.finalizing hl hf,
    fun hl hf => by simpa using h.flag hl hf⟩

/-- The finalize was accepted, and the marker is dropped. -/
theorem Marked.accept (h : Marked live marked finalizing p .finalizing t) :
    Marked live marked' false p .answering t :=
  ⟨by simp, by simp, by simp, fun hl hf => by simpa using h.flag hl hf⟩

/-- The final is out, and nothing is queued behind it. -/
theorem Marked.poll (h : Marked live marked finalizing p .answering t)
    (hturns : live = true → p.turns = []) : Marked live marked finalizing p .polling t :=
  ⟨fun hl _ hne => absurd (hturns hl) hne, by simp, fun hl hf => by simpa using h.finalizing hl hf,
    fun hl hf => by simpa using h.flag hl hf⟩

/-- The final is out, and the drain takes the head of the queue. -/
theorem Marked.drain (h : Marked live marked finalizing p .answering t)
    (hhead : p.turns.head? = some u) :
    Marked live marked finalizing { p with draining := true } .draining u :=
  ⟨by simp, fun _ _ => by simpa using hhead, fun hl hf => by simpa using h.finalizing hl hf,
    by simp⟩

/-- The drain has failed. -/
theorem Marked.fail (h : Marked live marked finalizing p .draining t) :
    Marked live marked finalizing p .failing t :=
  ⟨by simp, by simp, fun hl hf => by simpa using h.finalizing hl hf, by simp⟩

/-- The drain removes the head of the queue.  If turns are left behind it, the turn in the
drain had ended and its marker is set. -/
theorem Marked.popTurn (h : Marked live marked finalizing p .draining t)
    (hchain : ∀ u ∈ p.turns.dropLast, (p.turn u).ended) (hended : (p.turn t).ended → marked = true)
    (hq : p.popTurn t = some q) : Marked live marked finalizing q .polling t := by
  obtain ⟨⟨u, hturns⟩, _, _, hflag⟩ := popTurn_queue hq
  refine ⟨fun hl _ hne => ?_, by simp, fun hl hf => by simpa using h.finalizing hl hf,
    by simp [hflag]⟩
  have hdrain := h.draining hl rfl
  split at hdrain
  · rw [hturns, List.head?_cons, Option.some_inj] at hdrain
    subst hdrain
    refine hended (hchain u ?_)
    rw [hturns, List.dropLast_cons_of_ne_nil hne]
    exact List.mem_cons_self
  · exact hdrain (by simp [hturns])

end Marked

/-! ### Steps -/

variable {cfg : Cfg} {s s' : State α} {e : Env}

/-- The invariant of a state. -/
def State.Marked (s : State α) : Prop :=
  Asr.Marked s.live s.endpointPending.isSome s.finalizingGen.isSome s.pend s.out.pc.duty s.out.turn

/-- A connection was live before the client closed. -/
theorem live_closeClient (s : State α) (b : Bool)
    (h : (!s.asrSessionClosed && !(s.clientClosed || b)) = true) : s.live = true := by
  simp_all [State.live]

/-- A connection was live before the session closed. -/
theorem live_closeSession (s : State α) (b : Bool)
    (h : (!(s.asrSessionClosed || b) && !s.clientClosed) = true) : s.live = true := by
  simp_all [State.live]

theorem marked_send (hs : s.Marked) (frame : Frame) : (s.send e frame).Marked :=
  Marked.close hs (live_closeClient s _)

theorem marked_rejectPending (reason : String) : (s.rejectPending reason).Marked := marked_clear

theorem marked_admitAudio (hs : s.Marked) : (admitAudio cfg s).Marked := by
  obtain ⟨disp, inSpeech, heq⟩ := admitAudio_eq cfg s
  rw [heq]
  exact hs

theorem marked_dispSegment (hs : s.Marked) : (dispSegment cfg s).Marked := by
  unfold dispSegment
  dsimp only
  split
  case isTrue hblocked =>
    split
    · exact hs
    split
    · split
      · exact marked_rejectPending _
      · rename_i hq
        obtain ⟨hturns, _, hflag, _⟩ := appendTurn_queue hq
        have hs' := Marked.of_turns hs hturns hflag
        split
        · exact hs'.of_turns (markEnd_queue _).1 (markEnd_queue _).2.2
        · exact hs'
    · split
      · exact marked_rejectPending _
      · rename_i hq
        obtain ⟨hturns, _, _, hflag⟩ := appendTail_queue hq
        have hs' := Marked.of_turns hs hturns hflag
        split <;> exact hs'
  case isFalse => split <;> exact hs

/-- A turn is queued behind something, or nobody minds. -/
theorem marked_dispPendingStart (hs : s.Marked) (hvad : cfg.vad = true)
    (hok : s.live = true → !pendingBlocked cfg s &&
      (s.pend.newTurn cfg.pendingLimitSamples s.disp.current.samples).isSome →
      s.out.pc.duty ≠ .polling ∧ s.out.pc.duty ≠ .draining) :
    (dispPendingStart cfg s).Marked := by
  unfold dispPendingStart
  split
  · exact marked_rejectPending _
  · rename_i hq
    refine Marked.newTurn hs hq fun hl hduty => ?_
    cases hblocked : pendingBlocked cfg s with
    | true =>
      simp only [pendingBlocked, hvad, Bool.true_and, Bool.or_eq_true, Bool.not_eq_true',
        List.isEmpty_eq_false_iff] at hblocked
      tauto
    | false =>
      obtain ⟨hpoll, hdrain⟩ := hok hl (by simp [hblocked, hq])
      tauto

/-- The dispatcher's steps.  It drops a marker only with a segment that it does not hold
back, and then nothing is queued. -/
theorem dispStep_marked (hs : s.Marked) (hqueue : s.TurnQueue cfg) (hok : KeepsMarker cfg s (.disp e))
    (h : dispStep cfg s e = some s') : s'.Marked := by
  cases hpc : s.disp.pc <;> simp only [dispStep, hpc] at h
  case recv => cases h
  case ended => cases h
  case segment =>
    cases h
    exact marked_dispSegment hs
  case pendingStart =>
    cases h
    refine marked_dispPendingStart (s := s.send e _) (marked_send hs _) (hqueue.start hpc).1 ?_
    intro hl hlate
    refine (hok (live_closeClient s _ hl)).2 ?_
    rw [queuesLate, hpc]
    exact hlate
  case joinCancel =>
    split at h
    · split at h <;> cases h
      exact marked_admitAudio (s := { s with asrCancelTask := none }) hs
    · cases h
      exact hs
  case joinFailed =>
    cases h
    exact Marked.close hs (by simp [State.live])
  case pendingEnd | rejecting | lazyFailed | latched =>
    cases h
    exact Marked.close hs (live_closeClient s _)
  case liveStart =>
    cases h
    unfold dispLiveStart
    repeat' split
    all_goals exact Marked.close hs (live_closeClient s _)
  all_goals
    have hturns : s.pend.turns = [] := hqueue.live (by simp [hpc, DispPc.live])
  case openTurn =>
    split at h <;> cases h
    · unfold dispOpened
      dsimp only
      split <;> exact Marked.unmark hs fun _ => hturns
    · exact hs
  case openFailed =>
    cases h
    exact (Marked.unmark hs fun _ => hturns).close (live_closeClient s _)
  case lazyTest =>
    cases h
    unfold dispLazyTest
    split <;> exact hs
  case lazyOpen =>
    split at h <;> cases h
    · exact Marked.unmark hs fun _ => hturns
    · exact hs
  case latch =>
    cases h
    unfold dispLatch
    split
    · split
      · exact (Marked.mark hs).close (live_closeSession s _)
      · exact hs
    · exact hs
  case ring =>
    cases h
    unfold dispRing
    split <;> exact hs
  case replay | feed | feedTest => split at h <;> cases h <;> exact hs

/-- Frames of the client. -/
theorem receive_marked {msg : Msg α} (hs : s.Marked) (h : receive cfg s msg = some s') :
    s'.Marked := by
  unfold receive at h
  split at h <;> cases h
  split
  · exact hs
  cases msg with
  | audio samples flips =>
    show (receiveAudio cfg s samples flips).Marked
    unfold receiveAudio
    split
    · exact hs
    · exact marked_admitAudio
        (s := { s with asrCancelTask := none, disp.block := (samples, flips) }) hs
  | abort keepAsr =>
    simp only [receiveMsg]
    split
    · exact hs
    · rw [abortAsr_eq]
      exact marked_clear
  | asrEos => exact (Marked.mark hs).close (live_closeSession s _)
  | disconnect => exact Marked.close hs (by simp [State.live, receiveMsg])
  | asrPrepare | other => exact hs

/-! The steps of `asr_out_task`. -/

theorem marked_outDecide (hs : Asr.Marked s.live s.endpointPending.isSome s.finalizingGen.isSome
      s.pend .polling s.out.turn)
    (hok : s.live = true → staleEndpoint s = true → s.pend.turns = []) :
    (outDecide cfg s).Marked := by
  obtain ⟨t, ht, hts⟩ : ∃ t, (if staleEndpoint s then s.clearEndpoint else s) = t ∧
      Asr.Marked t.live t.endpointPending.isSome t.finalizingGen.isSome t.pend .polling
        t.out.turn := by
    refine ⟨_, rfl, ?_⟩
    split
    · rename_i hstale
      exact hs.unmark fun hl => hok hl hstale
    · exact hs
  unfold outDecide
  rw [ht]
  dsimp only
  split
  · have hduty : (if t.endpointPending = some .clientEos then OutPc.fired
        else .sendEndpoint).duty = .polling := by split <;> rfl
    show Asr.Marked _ _ _ _ (OutPc.duty (if _ then _ else _)) _
    rw [hduty]
    exact hts.close (live_closeSession t _)
  · exact hts

theorem marked_outAccepted (hs : Asr.Marked s.live s.endpointPending.isSome
      s.finalizingGen.isSome s.pend .finalizing s.out.turn) (text : String)
    (language : Option String) : (outAccepted cfg s text language).Marked := by
  unfold outAccepted State.movePendingTailToPreroll
  dsimp only
  repeat' split
  all_goals first
    | exact Marked.accept hs
    | exact (Marked.accept hs).of_turns (q := s.pend.dropTail) rfl rfl

theorem marked_outNotAccepted (failure : Option String) : (outNotAccepted s e failure).Marked := by
  unfold outNotAccepted
  dsimp only
  repeat' split
  all_goals exact marked_clear

theorem marked_outCancelled : (outCancelled s e).Marked := by
  unfold outCancelled
  split
  · exact marked_outNotAccepted none
  · exact marked_over

theorem marked_outFinalize (hs : Asr.Marked s.live s.endpointPending.isSome
      s.finalizingGen.isSome s.pend .finalizing s.out.turn) (wait : Wait) (outcome : Outcome) :
    (outFinalize cfg s e wait outcome).Marked := by
  unfold outFinalize
  split
  · exact marked_outCancelled
  · exact marked_outCancelled
  · exact marked_outAccepted hs _ _
  · exact marked_outNotAccepted _
  · exact marked_over
  all_goals exact hs

theorem marked_outFinalSent (hs : Asr.Marked s.live s.endpointPending.isSome
      s.finalizingGen.isSome s.pend .answering s.out.turn) : (outFinalSent cfg s).Marked := by
  unfold outFinalSent
  dsimp only
  split
  · exact marked_over
  split
  · exact marked_over
  split
  · rename_i hturns
    exact hs.poll fun _ => hturns
  · rename_i turn rest hturns
    split
    · rename_i hclosed
      exact hs.poll fun hl => by simp [State.live, hclosed] at hl
    · exact hs.drain (by rw [hturns]; rfl)

theorem marked_drainFailed (hs : Asr.Marked s.live s.endpointPending.isSome
      s.finalizingGen.isSome s.pend .draining s.out.turn) : (drainFailed s).Marked := by
  unfold drainFailed
  split
  · exact hs.fail
  · exact marked_clear

theorem marked_drainPop (hs : Asr.Marked s.live s.endpointPending.isSome
      s.finalizingGen.isSome s.pend .draining s.out.turn)
    (hchain : ∀ u ∈ s.pend.turns.dropLast, (s.pend.turn u).ended)
    (hended : (s.pend.turn s.out.turn).ended → s.endpointPending.isSome) :
    (drainPop s).Marked := by
  unfold drainPop
  split
  · exact marked_drainFailed (s := { s with trace := .popped none s.out.turn :: s.trace }) hs
  · rename_i hq
    exact hs.popTurn hchain hended hq

theorem marked_drainNext (hs : Asr.Marked s.live s.endpointPending.isSome
      s.finalizingGen.isSome s.pend .draining s.out.turn) (hpc : s.out.pc = .drainNext)
    (hqueue : s.TurnQueue cfg) : (drainNext s).Marked := by
  unfold drainNext
  split
  · split
    · show Asr.Marked _ _ _ _ s.out.pc.duty _
      rw [hpc]
      exact hs
    · exact hs
  · unfold drainMark
    dsimp only
    split
    · exact marked_drainPop (Marked.mark hs) hqueue.chain fun _ => rfl
    · rename_i hended
      exact marked_drainPop hs hqueue.chain fun h => absurd h hended

/-- The steps of `asr_out_task`. -/
theorem outStep_marked (hs : s.Marked) (hqueue : s.TurnQueue cfg) (hok : KeepsMarker cfg s (.out e))
    (h : outStep cfg s e = some s') : s'.Marked := by
  unfold State.Marked at hs
  cases hpc : s.out.pc <;> simp only [outStep, hpc] at h <;> rw [hpc] at hs
  case ended => cases h
  case top =>
    cases h
    unfold outTop
    repeat' split
    · exact marked_over
    all_goals exact hs
  case deadlineCancel =>
    split at h <;> cases h
    · exact hs
    · rename_i hdrop
      refine Marked.unmark hs fun hl => (hok hl).1 ?_
      rw [dropsMarker, hpc]
      cases hok' : e.ok <;> simp_all
  case deadlineRestart =>
    cases h
    exact Marked.unmark hs fun hl => (hok hl).1 (by simp [dropsMarker, hpc])
  case deadlineSend =>
    split at h <;> cases h
    · exact Marked.close hs (live_closeClient s _)
    · exact marked_over
  case getPartial =>
    cases h
    unfold outPartial
    repeat' split
    all_goals exact hs
  case decide =>
    cases h
    exact marked_outDecide hs fun hl hstale => (hok hl).1 (by simpa [dropsMarker, hpc] using hstale)
  case fired =>
    cases h
    unfold outFired
    split
    · split <;> exact hs
    · exact Marked.answer hs
  case prepared =>
    cases h
    unfold outPrepared
    split
    · rename_i hretired
      split
      · rename_i hgen
        refine Marked.unmark hs fun hl => (hok hl).1 ?_
        simp only [dropsMarker, hpc, retired, hretired, hgen]
        simp
      · exact hs
    · exact Marked.finalize hs
  case finalize wait =>
    split at h <;> cases h
    exact marked_outFinalize hs wait _
  case finalizeCancel =>
    cases h
    exact marked_outNotAccepted _
  case enrich | speakerTest => cases h; split <;> exact hs
  case finalSend =>
    cases h
    exact marked_outFinalSent (s := s.send e _) (Marked.close hs (live_closeClient s _))
  case drainOpen =>
    split at h <;> cases h
    · exact hs
    · exact marked_drainFailed hs
  case drainNext =>
    cases h
    exact marked_drainNext hs hpc hqueue
  case drainFeed =>
    split at h <;> cases h
    · exact hs
    · exact marked_drainFailed hs
  case drainFailCancel =>
    cases h
    exact marked_clear
  case loopEnd =>
    split at h <;> cases h
    · exact marked_over
    · exact hs
  case sendPartial | sendEndpoint | rejectSend | drainFailSend =>
    cases h
    exact Marked.close hs (live_closeClient s _)
  all_goals
    cases h
    exact hs

/-- **The step lemma.** -/
theorem step_marked {a : Act α} (hs : s.Marked) (hqueue : s.TurnQueue cfg) (hok : KeepsMarker cfg s a)
    (h : step cfg s a = some s') : s'.Marked := by
  cases a <;> simp only [step] at h <;> split at h
  all_goals try cases h; done
  case receive msg _ => exact receive_marked hs h
  case disp e _ => exact dispStep_marked hs hqueue hok h
  case out e _ => exact outStep_marked hs hqueue hok h
  case dispCall ok _ =>
    unfold dispCall at h
    repeat' split at h
    all_goals (cases h; try exact hs)
  case outCall ok _ =>
    unfold outCall at h
    repeat' split at h
    all_goals cases h <;> exact hs
  case cancelOut e _ =>
    unfold cancelOut at h
    split at h
    · cases h
    · rename_i hpc
      split at h <;> cases h
      · unfold State.Marked at hs
        rw [hpc] at hs
        exact hs
      · exact hs
    · cases h
      exact marked_outCancelled
    · cases h
      exact marked_over
  case teardown =>
    cases h
    exact Marked.clearQueue hs
  case finalizeTimeout =>
    split at h <;> cases h
    rename_i hpc _
    unfold State.Marked at hs
    rw [hpc] at hs
    exact hs
  case dispFails | finalizeEnds | cancelEnds | prepareEnds =>
    split at h <;> cases h
    exact hs

/-- **The run lemma.** -/
theorem run_marked {as : List (Act α)} (hrun : (machine cfg).run as = some s)
    (hok : (machine cfg).Guarded (KeepsMarker cfg) .start as) : s.Marked := by
  have hstart : (State.start : State α).Marked ∧ (State.start : State α).TurnQueue cfg := by
    refine ⟨⟨?_, ?_, ?_, ?_⟩, turnQueue_start⟩ <;>
      simp [State.start, PendingAudio.start, OutPc.duty]
  exact ((machine cfg).invariant_of_guarded (KeepsMarker cfg)
    (P := fun s => s.Marked ∧ s.TurnQueue cfg) hstart
    (fun _ _ _ hs hok h => ⟨step_marked hs.1 hs.2 hok h, step_turnQueue hs.2 h⟩) hok hrun).1

/-- **A queued turn has a marker.**  In a run that never drops the marker of queued turns
nor queues a turn late, whenever a live connection is at the top of the polling loop with
turns in the queue, `endpoint_pending` is set. -/
theorem queued_turn_marked (cfg : Cfg) (as : List (Act α)) (s : State α)
    (hrun : (machine cfg).run as = some s)
    (hok : (machine cfg).Guarded (KeepsMarker cfg) .start as)
    (hsession : s.asrSessionClosed = false) (hclient : s.clientClosed = false)
    (hpc : s.out.pc = .top) (hturns : s.pend.turns ≠ []) : s.endpointPending.isSome := by
  have hs := run_marked hrun hok
  exact hs.polling (by simp [State.live, hsession, hclient]) (by simp [hpc, OutPc.duty]) hturns

/-- A second turn starts before `asr_out_task` has seen the end of the first. -/
def earlyTurnRun : List (Act ℕ) := startTurn 1 ++ endTurn 2 ++ queueTurn 3 ++ [.out {}]

theorem queued_turn_marked_earlyTurnRun :
    ∃ s, (machine exampleCfg).run earlyTurnRun = some s ∧ s.pend.turns = [0] ∧
      s.endpointPending.isSome :=
  ⟨_, rfl, rfl, queued_turn_marked exampleCfg earlyTurnRun _ rfl (by decide) rfl rfl rfl (by decide)⟩

/-- The deadline of the first turn passes with the second one behind it. -/
def deadlineRun : List (Act ℕ) :=
  earlyTurnRun ++ ([.out { expired := true }, .out {}, .out {}, .out {}] : List (Act ℕ))

/-- **The deadline strands a turn**: the connection is live and at the top of the polling
loop, the turn is queued, the marker is gone, and the next audio goes to the queue too. -/
theorem deadlineRun_strands_turn :
    ∃ s, (machine exampleCfg).run deadlineRun = some s ∧ s.asrSessionClosed = false ∧
      s.clientClosed = false ∧ s.out.pc = .top ∧ s.pend.turns = [0] ∧ s.endpointPending = none ∧
      pendingBlocked exampleCfg s = true :=
  ⟨_, rfl, rfl, rfl, rfl, rfl, rfl, rfl⟩

end Asr
end V2v
end OpenVoiceStream
