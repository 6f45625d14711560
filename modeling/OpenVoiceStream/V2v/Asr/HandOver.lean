import OpenVoiceStream.V2v.Asr.Intake

/-!
# The hand-over of a queued turn

The steps that cut no turn off keep the invariant of the latest generation.  So what a
generation opened for a queued turn has accepted, and what is on its way to it, is what
the turn has heard: every sample once, in arrival order, and nothing else.

## Main results

* `step_intake`, `run_intake` — the invariant along runs that cut no turn off.
* `accepted_append_inFlight` — what a generation opened for a queued turn takes in.
* `eosInTurnRun_loses_speech` — an `asr_eos` in the middle of the turn ends its generation.
-/

namespace OpenVoiceStream
namespace V2v
namespace Asr

open PendingAudio

variable {α : Type}

/-! ### Steps -/

variable {cfg : Cfg} {s s' : State α} {e : Env}

/-- The invariant of a state. -/
def State.Intake (cfg : Cfg) (s : State α) : Prop :=
  Asr.Intake cfg.vad (turnGens s.trace) (latestTurn s.trace) (fun n => accepted n s.trace)
    (fun t => heard t s.trace) (speaking s.trace) s.generation s.stream s.endpointPending.isSome s.endpointPendingGen
    s.finalizingGen.isSome s.pend s.disp s.out

/-- What holds along every run that does not drop the queue under the drain. -/
structure State.Sound (cfg : Cfg) (s : State α) : Prop where
  queue : s.TurnQueue cfg
  heard : s.Heard
  held : s.Held cfg

/-- A step that cuts no turn does not drop the queue under the drain. -/
theorem NoCut.noDropInDrain {a : Act α} (h : NoCut cfg s a) : NoDropInDrain cfg s a := by
  intro hdrops
  cases a with
  | receive msg => cases msg <;> simp_all [dropsPending, NoCut, cutsTurn]
  | disp e => simp_all [dropsPending, NoCut, cutsTurn]
  | teardown => simp_all [NoCut, cutsTurn]
  | _ => simp [dropsPending] at hdrops

theorem live_of_feeds {pc : DispPc} (h : pc.feeds = true) : pc.live = true := by
  cases pc <;> simp_all [DispPc.feeds, DispPc.live]

/-- While the dispatcher handles a segment that it does not hold back, nothing is in the
drain. -/
theorem State.Sound.held_eq_none (hs : s.Sound cfg) (hlive : s.disp.pc.live = true) :
    s.out.held = none := by
  cases hheld : s.out.held with
  | none => rfl
  | some t =>
    have hhead := hs.held.head t hheld
    rw [hs.queue.live hlive] at hhead
    cases hhead

theorem held_of_opened {o : Out α} {t g : ℕ} (h : o.drain = .opened t g) : o.held = some t := by
  cases hpc : o.pc <;> cases hcall : o.call <;> simp_all [Out.held, Out.drain]

theorem held_of_feeding {o : Out α} {t g fed : ℕ} (h : o.drain = .feeding t g fed) :
    o.held = some t := by
  cases hpc : o.pc <;> cases hcall : o.call <;> simp_all [Out.held, Out.drain]

theorem drain_off_of_held {o : Out α} (h : o.held = none) : o.drain = .off := by
  cases hpc : o.pc <;> simp_all [Out.held, Out.drain]

theorem State.Sound.drain_off (hs : s.Sound cfg) (hlive : s.disp.pc.live = true) :
    s.out.drain = .off := drain_off_of_held (hs.held_eq_none hlive)

theorem intake_admitAudio (hs : s.Intake cfg) (hpc : s.disp.pc.feeds = false) :
    (admitAudio cfg s).Intake cfg := by
  unfold admitAudio
  split
  · exact Intake.stay hs hpc rfl
  split
  · exact Intake.stay hs hpc rfl
  exact Intake.stay hs hpc (not_feeds_next _)

theorem intake_nextSegment (hs : s.Intake cfg) (hpc : s.disp.pc.feeds = false) :
    s.nextSegment.Intake cfg :=
  Intake.stay hs hpc (not_feeds_next _)

theorem intake_dispSegment (hs : s.Intake cfg) (hsound : s.Sound cfg) (hpc : s.disp.pc = .segment)
    (hok : overflows cfg s = false) : (dispSegment cfg s).Intake cfg := by
  have hup : s.disp.upcoming = s.disp.current :: s.disp.rest := by simp [Disp.upcoming, hpc]
  have he : s.disp.pc ≠ .ended := by simp [hpc]
  unfold dispSegment
  dsimp only
  split
  case isTrue hblocked =>
    have hblocked' : pendingBlocked cfg s = true := hblocked
    have hhold : s.endpointPending.isSome = true ∨ s.finalizingGen.isSome = true ∨
        s.pend.draining = true ∨ s.pend.turns ≠ [] := by
      simp only [pendingBlocked, Bool.and_eq_true, Bool.or_eq_true, Bool.not_eq_true',
        List.isEmpty_eq_false_iff] at hblocked'
      tauto
    split
    · exact Intake.arriveHeld hs rfl hhold (fun u => List.prefix_rfl) rfl _
    rename_i hstart
    split
    · rename_i hopen
      split
      · rename_i hnone
        simp [overflows, hpc, hblocked', hstart, hopen, hnone] at hok
      · rename_i pend hq
        obtain ⟨_, hfresh, _⟩ := appendTurn_queue hq
        split
        · refine Intake.arriveHeld hs rfl hhold (fun u => ?_) ((markEnd_queue _).2.1.trans hfresh) _
          rw [markEnd_segments]
          exact appendTurn_extends hq u
        · exact Intake.arriveHeld hs (not_feeds_next _) hhold (appendTurn_extends hq) hfresh _
    · rename_i hopen
      split
      · rename_i hnone
        simp [overflows, hpc, hblocked', hstart, hopen, hnone] at hok
      · rename_i pend hq
        obtain ⟨_, hturn, hfresh, _⟩ := appendTail_queue hq
        have hprefix : ∀ u, (s.pend.turn u).segments <+: (pend.turn u).segments := by
          intro u
          simp only [hturn, List.prefix_rfl]
        split
        · exact Intake.arriveHeld hs rfl hhold hprefix hfresh _
        · exact Intake.arriveHeld hs (not_feeds_next _) hhold hprefix hfresh _
  case isFalse hfree =>
    have hunmarked : (latestTurn s.trace).isSome → s.endpointPending.isSome = false := by
      intro hsome
      have hvad := hs.vad hsome
      have hfree' : ¬ pendingBlocked cfg s = true := hfree
      simp only [pendingBlocked, hvad, Bool.true_and, Bool.or_eq_true, not_or] at hfree'
      simpa using hfree'.1.1.1
    have hnow := fun hn => Heard.event_ne_start hsound.heard hup he hn
    split
    · rename_i hevent
      exact Intake.arriveLive hs hpc hunmarked hnow (by rw [if_pos hevent]) rfl
    · rename_i hevent
      exact Intake.arriveLive hs hpc hunmarked hnow (by rw [if_neg hevent]) rfl

theorem intake_dispPendingStart (hs : s.Intake cfg) (hsound : s.Sound cfg)
    (hpc : s.disp.pc = .pendingStart) (hok : overflows cfg s = false) :
    (dispPendingStart cfg s).Intake cfg := by
  have hnow : speaking s.trace = none := hsound.heard.starts (by simp [hpc, DispPc.starts])
  unfold dispPendingStart
  split
  · rename_i hnone
    simp [overflows, hpc, hnone] at hok
  · rename_i hq
    obtain ⟨_, hfresh, _, _, _, hold⟩ := newTurn_queue hq
    exact Intake.queue hs hpc hnow (not_feeds_next _) hold hfresh _

theorem stream_eq_some_iff {g : ℕ} :
    s.stream = some g ↔ s.asrActive = true ∧ s.asrActiveGen = g := by
  unfold State.stream
  split <;> simp_all

/-- The generation of a queued turn is in the middle of it. -/
theorem Live.midTurn {t : ℕ} (h : Live (fun n => accepted n s.trace) (fun t => heard t s.trace)
      (speaking s.trace) s.generation s.stream s.endpointPending.isSome s.finalizingGen.isSome
      s.pend s.disp s.out.role t) (hlatest : latestTurn s.trace = some t)
    (hheld : s.out.held = none) : midTurn s = true := by
  have hactive := (stream_eq_some_iff.mp h.stream).1
  have hunmarked : s.endpointPending = none := by simpa using h.unmarked
  simp [Asr.midTurn, hactive, hlatest, hunmarked, hheld]


theorem intake_dispLatch (hs : s.Intake cfg) (hsound : s.Sound cfg) (hpc : s.disp.pc = .latch)
    (hok : cutsTurn cfg s (.disp e) = false) : (dispLatch cfg s e).Intake cfg := by
  have hlive : s.disp.pc.live = true := by simp [hpc, DispPc.live]
  have hoff := hsound.drain_off hlive
  have hfeeds : s.disp.pc.feeds = true := by simp [hpc, DispPc.feeds]
  unfold dispLatch
  split
  case isTrue hevent =>
    split
    case isTrue hmarks =>
      exact Intake.mark hs hpc hevent hoff
        (fun g hg => congrArg some (stream_eq_some_iff.mp (show s.stream = some g from hg)).2) rfl
    case isFalse hmarks =>
      refine Intake.away hs hoff hfeeds (fun t ht hl => ?_) (by simp) (by simp) (by simp) id
      have hmid := Live.midTurn (s := s) hl ht (hsound.held_eq_none hlive)
      have hnot : marksEnd cfg s e = false := Bool.eq_false_iff.mpr hmarks
      simp [cutsTurn, hmid, hpc, hevent, hnot] at hok
  case isFalse hevent =>
    refine Intake.follow hs (by simp) (by simp) (fun t hl => ?_) fun t hshut => ?_
    · exact hl.follow (by simp [Disp.ends, hpc, hevent]) (by simp [Disp.inFlight, hpc]) (by simp)
        (by simp)
    · exact Shut.of_inactive hshut.settled (by simp) (hshut.inactive hfeeds)

/-- The dispatcher's steps. -/
theorem dispStep_intake (hs : s.Intake cfg) (hsound : s.Sound cfg)
    (hok : cutsTurn cfg s (.disp e) = false) (h : dispStep cfg s e = some s') : s'.Intake cfg := by
  have hover : overflows cfg s = false := by
    simp only [cutsTurn, Bool.or_eq_false_iff] at hok
    exact hok.1
  cases hpc : s.disp.pc <;> simp only [dispStep, hpc] at h
  case recv => cases h
  case ended => cases h
  case segment =>
    cases h
    exact intake_dispSegment hs hsound hpc hover
  case pendingStart =>
    cases h
    refine intake_dispPendingStart (s := s.send e _) hs ?_ hpc hover
    exact ⟨hsound.queue, hsound.heard, hsound.held⟩
  case joinCancel =>
    have hquiet : s.disp.pc.feeds = false := by simp [hpc, DispPc.feeds]
    split at h
    · split at h <;> cases h
      exact intake_admitAudio (s := { s with asrCancelTask := none }) hs hquiet
    · cases h
      exact Intake.stay hs hquiet rfl
  case joinFailed | latched =>
    cases h
    exact Intake.stay hs (by simp [hpc, DispPc.feeds]) rfl
  case pendingEnd | rejecting =>
    cases h
    exact intake_nextSegment (s := s.send e _) hs (by simp [hpc, DispPc.feeds, State.send])
  case ring =>
    have hquiet : s.disp.pc.feeds = false := by simp [hpc, DispPc.feeds]
    cases h
    unfold dispRing
    split
    · exact intake_nextSegment (s := s.extendPreroll cfg _ _) hs hquiet
    · exact intake_nextSegment hs hquiet
  case latch =>
    cases h
    exact intake_dispLatch hs hsound hpc hok
  all_goals
    have hoff := hsound.drain_off (by simp [hpc, DispPc.live])
    have hfeeds : s.disp.pc.feeds = true := by simp [hpc, DispPc.feeds]
  case liveStart =>
    have hst : s.disp.pc.starts = true := by simp [hpc, DispPc.starts]
    have hnow := hsound.heard.starts hst
    cases h
    unfold dispLiveStart
    repeat' split
    · exact Intake.awayQuiet hs hoff hfeeds (fun t _ => not_live_of_starts hst hnow t)
        (not_feeds_next _) id
    · exact Intake.away hs hoff hfeeds (fun t _ => not_live_of_starts hst hnow t) (by simp) (by simp)
        (by simp) id
    · exact Intake.away hs hoff hfeeds (fun t _ => not_live_of_starts hst hnow t) (by simp) (by simp)
        (by simp) id
  case openTurn =>
    have hst : s.disp.pc.starts = true := by simp [hpc, DispPc.starts]
    have hnow := hsound.heard.starts hst
    split at h <;> cases h
    · rename_i gen hcall
      have hnone := hs.called (.inl hpc) gen hcall
      unfold dispOpened
      dsimp only
      split <;> exact Intake.of_none hs.ledger hnone hoff hs.finalizing hs.segment
    · exact Intake.away hs hoff hfeeds (fun t _ => not_live_of_starts hst hnow t) (by simp) (by simp)
        (by simp) id
  case openFailed =>
    have hst : s.disp.pc.starts = true := by simp [hpc, DispPc.starts]
    have hnow := hsound.heard.starts hst
    cases h
    exact Intake.awayQuiet hs hoff hfeeds (fun t _ => not_live_of_starts hst hnow t)
      (not_feeds_next _) fun _ => rfl
  case replay =>
    have hnone := hs.replay hpc
    split at h <;> cases h <;> exact Intake.of_none hs.ledger hnone hoff hs.finalizing hs.segment
  case lazyTest =>
    cases h
    unfold dispLazyTest
    split
    · rename_i hopen
      have hinactive : ¬ s.asrActive = true := by
        simp only [Bool.and_eq_true, Bool.not_eq_true'] at hopen
        simp [hopen.1.1.2]
      refine Intake.away hs hoff hfeeds (fun t _ hl => ?_) (by simp) (by simp) (by simp) id
      exact hinactive (stream_eq_some_iff.mp hl.stream).1
    · refine Intake.follow hs (by simp) (by simp) (fun t hl => ?_) fun t hshut => ?_
      · exact hl.follow (by simp [Disp.ends, hpc]) (by simp [Disp.inFlight, hpc]) (by simp) (by simp)
      · exact Shut.of_inactive hshut.settled (by simp) (hshut.inactive hfeeds)
  case lazyOpen =>
    split at h <;> cases h
    · rename_i gen hcall
      exact Intake.of_none hs.ledger (hs.called (.inr hpc) gen hcall) hoff hs.finalizing hs.segment
    · exact Intake.away hs hoff hfeeds (fun t _ hl => hl.opens.1 hpc) (by simp) (by simp) (by simp) id
  case lazyFailed =>
    cases h
    exact Intake.awayQuiet hs hoff hfeeds (fun t _ hl => hl.opens.2 hpc) (not_feeds_next _)
      fun _ => rfl
  case feedTest =>
    split at h <;> cases h
    · rename_i hactive
      refine Intake.follow hs (by simp) (by simp) (fun t hl => ?_) fun t hshut => ?_
      · exact hl.follow (by simp [Disp.ends, hpc]) (by simp [Disp.inFlight, hpc]) (by simp) (by simp)
      · have hnone := hshut.inactive hfeeds
        rw [State.stream, if_pos hactive] at hnone
        cases hnone
    · rename_i hinactive
      refine Intake.away hs hoff hfeeds (fun t _ hl => ?_) (by simp) (by simp) (by simp) id
      exact hinactive (stream_eq_some_iff.mp hl.stream).1
  case feed =>
    split at h <;> cases h
    · rename_i hcall
      refine Intake.follow hs (by simp) (by simp) (fun t hl => ?_) fun t hshut => ?_
      · refine hl.follow ?_ (by simp [Disp.inFlight, hpc, hcall]) (by simp) (by simp)
        unfold Disp.ends
        rw [hpc]
        rfl
      · exact absurd hpc hshut.feed
    · rename_i hcall
      refine Intake.follow hs (by simp) (by simp) (fun t hl => ?_) fun t hshut => ?_
      · exact absurd hcall (hl.call hpc)
      · exact absurd hpc hshut.feed

/-- The generation is live only while nothing is in the drain. -/
theorem State.Sound.held_of_turns (hs : s.Sound cfg) (h : s.pend.turns = []) :
    s.out.held = none := by
  cases hheld : s.out.held with
  | none => rfl
  | some t =>
    have hhead := hs.held.head t hheld
    rw [h] at hhead
    cases hhead

/-- Frames of the client. -/
theorem receive_intake {msg : Msg α} (hs : s.Intake cfg) (hsound : s.Sound cfg)
    (hok : cutsTurn cfg s (.receive msg) = false) (h : receive cfg s msg = some s') :
    s'.Intake cfg := by
  unfold receive at h
  split at h <;> cases h
  rename_i hpc
  have hquiet : s.disp.pc.feeds = false := by simp [hpc, DispPc.feeds]
  split
  · exact Intake.stay hs hquiet rfl
  cases msg with
  | audio samples flips =>
    show (receiveAudio cfg s samples flips).Intake cfg
    unfold receiveAudio
    split
    · exact Intake.stay hs hquiet rfl
    · exact intake_admitAudio
        (s := { s with asrCancelTask := none, disp.block := (samples, flips) })
        (Intake.stay hs hquiet (by simp [hpc, DispPc.feeds])) hquiet
  | asrEos =>
    refine ⟨hs.ledger, hs.vad, hs.known, hs.called, hs.replay, hs.finalizing, hs.segment, hs.drain,
      fun hidle t ht => ?_⟩
    rcases hs.rest hidle t ht with hlive | hshut
    · have hmid := Live.midTurn (s := s) hlive ht (hsound.held_of_turns hlive.free.2.1)
      simp [cutsTurn, hmid] at hok
    · refine .inr ⟨hshut.settled, hshut.feed, hshut.shut.imp_right ?_⟩
      rintro ⟨hstream, _, _, hfeeds, hrole⟩
      exact ⟨hstream, rfl, congrArg some (stream_eq_some_iff.mp hstream).2, hfeeds, hrole⟩
  | abort keepAsr =>
    have hkeep : keepsAsr cfg s keepAsr = true := by simpa [cutsTurn] using hok
    simp only [receiveMsg, hkeep, if_true]
    exact hs
  | disconnect => exact Intake.stay hs hquiet rfl
  | asrPrepare | other => exact hs

/-! The steps of `asr_out_task`. -/

/-- An endpoint fires. -/
theorem fire_pc {o : Out α} {c : Prop} [Decidable c]
    (h : o.pc = if c then .fired else .sendEndpoint) :
    o.role = .other ∧ o.drain.idle = true := by
  by_cases hc : c
  · rw [if_pos hc] at h
    simp [Out.role, Out.drain, h, Drain.idle]
  · rw [if_neg hc] at h
    simp [Out.role, Out.drain, h, Drain.idle]

/-- No endpoint fires in the middle of a turn. -/
theorem outDecide_of_unmarked (hmark : s.endpointPending = none)
    (hobs : (s.out.isEndpoint && s.asrActive) = false) :
    outDecide cfg s = { s with out.pc := .loopEnd } := by
  have hstale : staleEndpoint s = false := by simp [staleEndpoint, hmark]
  simp [outDecide, hstale, hmark, hobs]

/-- The marker of a generation that is active is not stale. -/
theorem stream_of_stale {t : ℕ} {taken content : ℕ → List α} {now : Option ℕ} {gen : ℕ}
    {role : Role} (h : Shut taken content now gen s.stream s.endpointPending.isSome
      s.endpointPendingGen s.disp role t) (hstale : staleEndpoint s = true) : s.stream = none := by
  rcases h.shut with hnone | ⟨hstream, _, hfor, _⟩
  · exact hnone
  · simp [staleEndpoint, hfor, (stream_eq_some_iff.mp hstream).2] at hstale

theorem intake_outDecide (hs : s.Intake cfg) (hsound : s.Sound cfg) (hpc : s.out.pc = .decide)
    (hok : cutsTurn cfg s (.out e) = false) : (outDecide cfg s).Intake cfg := by
  have hidle : s.out.drain.idle = true := by simp [Out.drain, hpc, Drain.idle]
  have hrole : s.out.role = .polling := by simp [Out.role, hpc]
  have hfin : ¬ s.finalizingGen.isSome = true := fun hf =>
    not_finalizes (.inr hrole) (hs.finalizing hf)
  by_cases hlive : ∃ t ∈ latestTurn s.trace, Live (fun n => accepted n s.trace)
      (fun t => heard t s.trace) (speaking s.trace) s.generation s.stream
      s.endpointPending.isSome s.finalizingGen.isSome s.pend s.disp s.out.role t
  · obtain ⟨t, ht, hl⟩ := hlive
    have hmid := hl.midTurn ht (hsound.held_of_turns hl.free.2.1)
    have hquiet : s.out.isEndpoint = false := by
      cases hobs : s.out.isEndpoint with
      | false => rfl
      | true => simp [cutsTurn, hpc, hmid, hobs] at hok
    rw [outDecide_of_unmarked (by simpa using hl.unmarked) (by simp [hquiet])]
    exact Intake.poll hs hidle rfl hrole (.inl rfl)
  · have hnot : ∀ t ∈ latestTurn s.trace, ¬ Live (fun n => accepted n s.trace)
        (fun t => heard t s.trace) (speaking s.trace) s.generation s.stream
        s.endpointPending.isSome s.finalizingGen.isSome s.pend s.disp s.out.role t :=
      fun t ht hl => hlive ⟨t, ht, hl⟩
    obtain ⟨t, ht, hts⟩ : ∃ t, (if staleEndpoint s then s.clearEndpoint else s) = t ∧
        ∀ o' : Out α, o'.drain.idle = true → (∀ g, o'.role ≠ .finalizing g) →
          Asr.Intake cfg.vad (turnGens t.trace) (latestTurn t.trace) (fun n => accepted n t.trace)
            (fun u => heard u t.trace) (speaking t.trace) t.generation t.stream
            t.endpointPending.isSome t.endpointPendingGen t.finalizingGen.isSome t.pend t.disp o' := by
      refine ⟨_, rfl, fun o' hidle' hrole' => ?_⟩
      split
      · rename_i hstale
        exact Intake.leave hs hidle hidle' hnot (fun t hsh =>
          Shut.of_inactive hsh.settled hsh.feed (stream_of_stale (s := s) hsh hstale))
          (fun hf => absurd hf hfin) rfl
      · exact Intake.leave hs hidle hidle' hnot
          (fun t hsh => hsh.goto fun _ g hg => absurd hg (hrole' g)) (fun hf => absurd hf hfin) rfl
    unfold outDecide
    rw [ht]
    dsimp only
    split
    · by_cases hobs : (t.out.isEndpoint && t.asrActive) = true
      · simp only [hobs, if_true]
        refine hts _ (fire_pc rfl).2 fun g hg => ?_
        rw [(fire_pc rfl).1] at hg
        cases hg
      · simp only [hobs, Bool.false_eq_true, if_false]
        refine hts _ (fire_pc rfl).2 fun g hg => ?_
        rw [(fire_pc rfl).1] at hg
        cases hg
    · exact hts { t.out with pc := .loopEnd } rfl (by simp [Out.role])

theorem intake_outNotAccepted (hs : s.Intake cfg)
    (hidle : s.out.drain.idle) (hrole : s.out.role ≠ .polling ∧ s.out.role ≠ .over)
    (failure : Option String) : (outNotAccepted s e failure).Intake cfg := by
  unfold outNotAccepted
  dsimp only
  repeat' split
  all_goals first
    | exact Intake.leave hs hidle rfl (fun t _ => not_live_of_role hrole t)
        (fun t hsh => hsh.deactivate) (by simp) rfl
    | exact Intake.leave hs hidle rfl (fun t _ => not_live_of_role hrole t)
        (fun t hsh => hsh.goto fun _ g hg => by cases hg) (by simp) rfl

section Finalize

variable {wait : Wait}

theorem drain_of_finalize (hpc : s.out.pc = .finalize wait) : s.out.drain.idle = true := by
  simp [Out.drain, hpc, Drain.idle]

theorem role_of_finalize (hpc : s.out.pc = .finalize wait) :
    s.out.role = .finalizing s.out.gen := by
  simp [Out.role, hpc]

theorem intake_outCancelled (hs : s.Intake cfg) (hpc : s.out.pc = .finalize wait) :
    (outCancelled s e).Intake cfg := by
  have hrole : s.out.role ≠ .polling ∧ s.out.role ≠ .over := by simp [role_of_finalize hpc]
  unfold outCancelled
  split
  · exact intake_outNotAccepted (s := { s with asrAbortRequested := false }) hs
      (drain_of_finalize hpc) hrole none
  · exact Intake.leave hs (drain_of_finalize hpc) rfl (fun t _ => not_live_of_role hrole t)
      (fun t hsh => hsh.goto fun _ g hg => by cases hg) (fun _ => rfl) rfl

/-- The generation that is finalized is the active one, and the accepted finalize ends it. -/
theorem intake_outAccepted (hs : s.Intake cfg) (hpc : s.out.pc = .finalize wait)
    (text : String) (language : Option String) : (outAccepted cfg s text language).Intake cfg := by
  have hrole : s.out.role ≠ .polling ∧ s.out.role ≠ .over := by simp [role_of_finalize hpc]
  have hother : ∀ t, s.asrActiveGen ≠ s.out.gen →
      Shut (fun n => accepted n s.trace) (fun t => heard t s.trace) (speaking s.trace) s.generation
        s.stream s.endpointPending.isSome s.endpointPendingGen s.disp s.out.role t →
      s.stream = none := by
    intro t hne hsh
    rw [role_of_finalize hpc] at hsh
    rcases hsh.finalized with hnone | hstream
    · exact hnone
    · exact absurd (stream_eq_some_iff.mp hstream).2 hne
  unfold outAccepted State.movePendingTailToPreroll
  dsimp only
  repeat' split
  all_goals first
    | exact Intake.leave hs (drain_of_finalize hpc) rfl (fun t _ => not_live_of_role hrole t)
        (fun t hsh => hsh.deactivate) (by simp) rfl
    | exact Intake.leave hs (drain_of_finalize hpc) rfl (fun t _ => not_live_of_role hrole t)
        (fun t hsh => Shut.of_inactive hsh.settled hsh.feed (hother t (by assumption) hsh))
        (by simp) rfl

/-- `wait_for` of the finalize comes back. -/
theorem intake_outFinalize (hs : s.Intake cfg) (hpc : s.out.pc = .finalize wait)
    (outcome : Outcome) : (outFinalize cfg s e wait outcome).Intake cfg := by
  have hrole : s.out.role ≠ .polling ∧ s.out.role ≠ .over := by simp [role_of_finalize hpc]
  unfold outFinalize
  split
  · exact intake_outCancelled hs hpc
  · exact intake_outCancelled hs hpc
  · exact intake_outAccepted hs hpc _ _
  · exact intake_outNotAccepted hs (drain_of_finalize hpc) hrole _
  · exact Intake.leave hs (drain_of_finalize hpc) rfl (fun t _ => not_live_of_role hrole t)
      (fun t hsh => hsh.goto fun _ g hg => by cases hg) (fun _ => rfl) rfl
  all_goals
    exact Intake.leave hs (drain_of_finalize hpc) rfl (fun t _ => not_live_of_role hrole t)
      (fun t hsh => by rw [role_of_finalize hpc] at hsh; exact hsh) (fun _ => rfl) rfl

end Finalize

/-- A generation that was retired is not active; otherwise its finalize begins. -/
theorem intake_outPrepared (hs : s.Intake cfg) (hpc : s.out.pc = .prepared) :
    (outPrepared s).Intake cfg := by
  have hidle : s.out.drain.idle = true := by simp [Out.drain, hpc, Drain.idle]
  have hrole : s.out.role = .finalizing s.out.gen := by simp [Out.role, hpc]
  have hnot : s.out.role ≠ .polling ∧ s.out.role ≠ .over := by simp [hrole]
  have hfin : ¬ s.finalizingGen.isSome = true := fun hf => by
    simpa [Out.finalizes, hpc] using hs.finalizing hf
  unfold outPrepared
  split
  case isTrue hretired =>
    have hinactive : ∀ t, Shut (fun n => accepted n s.trace) (fun t => heard t s.trace)
        (speaking s.trace) s.generation s.stream s.endpointPending.isSome s.endpointPendingGen
        s.disp s.out.role t → s.stream = none := by
      intro t hsh
      rw [hrole] at hsh
      rcases hsh.finalized with hnone | hstream
      · exact hnone
      · obtain ⟨hactive, hgen⟩ := stream_eq_some_iff.mp hstream
        simp [hactive, hgen] at hretired
    split
    all_goals
      exact Intake.leave hs hidle rfl (fun t _ => not_live_of_role hnot t)
        (fun t hsh => Shut.of_inactive hsh.settled hsh.feed (hinactive t hsh))
        (fun hf => absurd hf hfin) rfl
  case isFalse =>
    refine Intake.leave hs hidle rfl (fun t _ => not_live_of_role hnot t) (fun t hsh => ?_)
      (fun _ => rfl) rfl
    rw [hrole] at hsh
    exact hsh

/-! The drain. -/

theorem intake_drainFailed (hs : s.Intake cfg) (hrole : s.out.role = .other)
    (hidle : s.out.drain.idle) : (drainFailed s).Intake cfg := by
  unfold drainFailed
  split
  · exact Intake.other hs hrole hidle rfl (fun t hsh => hsh.goto fun _ g hg => by cases hg) id rfl
  · exact Intake.other hs hrole hidle rfl (fun t hsh => hsh.deactivate) (by simp) rfl

/-- The first generation of a drain has taken in nothing yet. -/
theorem intake_drainOpened (hs : s.Intake cfg) {gen : ℕ} (hpc : s.out.pc = .drainOpen)
    (hcall : s.out.call = .returned gen) : (drainOpened s gen).Intake cfg := by
  have hdrain := hs.drain
  simp only [Out.drain, hpc, hcall, Drain.Fed] at hdrain
  obtain ⟨hgen, hlatest, htaken⟩ := hdrain
  have hrole : s.out.role = .other := by simp [Out.role, hpc]
  refine Intake.feed hs hrole rfl ?_ (by simp [drainOpened])
  exact ⟨hgen, hlatest, congrArg some hgen, Nat.zero_le _, htaken⟩

/-- The whole turn has been fed: the drain hands it over. -/
theorem intake_drainPop (hs : s.Intake cfg) (hsound : s.Sound cfg) (hpc : s.out.pc = .drainNext)
    (hall : (s.pend.turn s.out.turn).segments[s.out.index]? = none)
    (hok : cutsTurn cfg s (.out e) = false) : (drainPop (drainMark s)).Intake cfg := by
  have hrole : s.out.role = .other := by simp [Out.role, hpc]
  have hdrain : s.out.drain = .feeding s.out.turn s.out.newGen s.out.index := by
    cases hcall : s.out.call <;> simp [Out.drain, hpc, hcall]
  have hfed := hs.drain
  rw [hdrain] at hfed
  have hgen : s.out.newGen = s.generation := hfed.1
  have hhead : s.pend.turns.head? = some s.out.turn :=
    hsound.held.head s.out.turn (by simp [Out.held, hpc])
  obtain ⟨rest, hturns⟩ : ∃ rest, s.pend.turns = s.out.turn :: rest := by
    cases hts : s.pend.turns <;> simp_all
  have hmem : s.out.turn ∈ s.pend.turns := by simp [hturns]
  have hquiet : s.disp.pc.feeds = false := by
    by_contra hfeeds
    have hnil := hsound.queue.live (live_of_feeds (by simpa using hfeeds))
    rw [hturns] at hnil
    cases hnil
  have hcontent : accepted s.generation s.trace = heard s.out.turn s.trace :=
    (hfed.all hall).trans (hsound.heard.segments s.out.turn hmem)
  rw [hgen] at hdrain
  unfold drainMark
  dsimp only
  split
  case isTrue hended =>
    unfold drainPop
    dsimp only
    split
    · rename_i hnone
      have hnil := popTurn_eq_none_iff.mp hnone
      rw [show s.pend.turns = [] from hnil] at hturns
      cases hturns
    · rename_i pend hpop
      obtain ⟨_, _, hfresh, hflag⟩ := popTurn_queue hpop
      exact Intake.handOver hs hrole hquiet rfl rfl (by simp) hdrain hcontent hfresh hflag
        (.inl ⟨hsound.heard.ended s.out.turn hmem hended, rfl, congrArg some hgen⟩)
  case isFalse hopen =>
    have hspeak := hsound.heard.unended s.out.turn hmem (by simpa using hopen)
    have hunmarked : s.endpointPending.isSome = false := by
      have hle := List.getElem?_eq_none_iff.mp hall
      by_contra hm
      simp [cutsTurn, hpc, hle, hopen, hm] at hok
    -- nothing is queued behind a turn that is still being spoken
    have hlast : rest = [] := by
      by_contra hne
      refine hopen (hsound.queue.chain s.out.turn ?_)
      rw [hturns, List.dropLast_cons_of_ne_nil hne]
      exact List.mem_cons_self
    unfold drainPop
    split
    · rename_i hnone
      have hnil := popTurn_eq_none_iff.mp hnone
      rw [hnil] at hturns
      cases hturns
    · rename_i pend hpop
      obtain ⟨⟨u, hu⟩, _, hfresh, hflag⟩ := popTurn_queue hpop
      rw [hturns, hlast] at hu
      exact Intake.handOver hs hrole hquiet rfl rfl (by simp) hdrain hcontent hfresh hflag
        (.inr ⟨hspeak, hunmarked, (List.cons.inj hu).2.symm⟩)

/-- The loop over the segments. -/
theorem intake_drainNext (hs : s.Intake cfg) (hsound : s.Sound cfg) (hpc : s.out.pc = .drainNext)
    (hok : cutsTurn cfg s (.out e) = false) : (drainNext s).Intake cfg := by
  have hrole : s.out.role = .other := by simp [Out.role, hpc]
  have hdrain : s.out.drain = .feeding s.out.turn s.out.newGen s.out.index := by
    cases hcall : s.out.call <;> simp [Out.drain, hpc, hcall]
  have hfed := hs.drain
  rw [hdrain] at hfed
  unfold drainNext
  split
  · rename_i segment hseg
    split
    · rename_i hempty
      rw [hempty] at hseg
      have hnext : Out.drain { s.out with index := s.out.index + 1 } =
          .feeding s.out.turn s.out.newGen (s.out.index + 1) := by
        cases hcall : s.out.call <;> simp [Out.drain, hpc, hcall]
      have hskip := hfed.skip hseg
      rw [← hnext] at hskip
      refine Intake.feed hs hrole ?_ hskip (by simp [hpc])
      rw [hnext]
      rfl
    · exact Intake.feed hs hrole rfl hfed fun _ => hseg
  · rename_i hall
    exact intake_drainPop hs hsound hpc hall hok

/-- The steps of `asr_out_task`. -/
theorem outStep_intake (hs : s.Intake cfg) (hsound : s.Sound cfg)
    (hok : cutsTurn cfg s (.out e) = false) (h : outStep cfg s e = some s') : s'.Intake cfg := by
  cases hpc : s.out.pc <;> simp only [outStep, hpc] at h
  case ended => cases h
  case drainOpen =>
    have hrole : s.out.role = .other := by simp [Out.role, hpc]
    split at h <;> cases h
    · rename_i gen hcall
      exact intake_drainOpened hs hpc hcall
    · rename_i hcall
      exact intake_drainFailed hs hrole (by simp [Out.drain, hpc, hcall, Drain.idle])
  case drainNext =>
    cases h
    exact intake_drainNext hs hsound hpc hok
  case drainFeed =>
    have hrole : s.out.role = .other := by simp [Out.role, hpc]
    have hdrain := hs.drain
    split at h <;> cases h
    · rename_i hcall
      simp only [Out.drain, hpc, hcall] at hdrain
      exact Intake.feed hs hrole rfl hdrain (by simp)
    · rename_i hcall
      simp only [Out.drain, hpc, hcall, Drain.Fed] at hdrain
  all_goals
    have hidle : s.out.drain.idle = true := by simp [Out.drain, hpc, Drain.idle]
  case sleep =>
    cases h
    exact Intake.poll hs hidle rfl (by simp [Out.role, hpc]) (.inl rfl)
  case sendPartial =>
    cases h
    exact Intake.poll hs hidle rfl (by simp [Out.role, hpc]) (.inl rfl)
  case getPartial =>
    cases h
    unfold outPartial
    repeat' split
    all_goals exact Intake.poll hs hidle rfl (by simp [Out.role, hpc]) (.inl rfl)
  case loopEnd =>
    split at h <;> cases h
    · exact Intake.poll hs hidle rfl (by simp [Out.role, hpc]) (.inr rfl)
    · exact Intake.poll hs hidle rfl (by simp [Out.role, hpc]) (.inl rfl)
  case top =>
    cases h
    unfold outTop
    split
    · exact Intake.poll hs hidle rfl (by simp [Out.role, hpc]) (.inr rfl)
    split
    · rename_i hdeadline
      refine Intake.leave hs hidle rfl (fun t ht hl => ?_) (fun t hsh => ?_) ?_ rfl
      · have hmid := Live.midTurn (s := s) hl ht (hsound.held_of_turns hl.free.2.1)
        simp only [Bool.and_eq_true] at hdeadline
        simp [cutsTurn, hpc, hmid, hdeadline.1.2, hdeadline.2] at hok
      · exact hsh.goto fun _ g hg => by cases hg
      · intro hf
        exact absurd (hs.finalizing hf) (not_finalizes (.inr (by simp [Out.role, hpc])))
    split
    · exact Intake.poll hs hidle rfl (by simp [Out.role, hpc]) (.inl rfl)
    · exact Intake.poll hs hidle rfl (by simp [Out.role, hpc]) (.inl rfl)
  case decide =>
    cases h
    exact intake_outDecide hs hsound hpc hok
  case finalize wait =>
    split at h <;> cases h
    exact intake_outFinalize hs hpc _
  case finalizeCancel =>
    cases h
    exact intake_outNotAccepted hs hidle (by simp [Out.role, hpc]) _
  case prepWait =>
    have hrole : s.out.role = .finalizing s.out.gen := by simp [Out.role, hpc]
    cases h
    exact Intake.leave hs hidle rfl (fun t _ => not_live_of_role (by simp [hrole]) t)
      (fun t hsh => by rw [hrole] at hsh; exact hsh)
      (fun hf => absurd (hs.finalizing hf) (by simp [Out.finalizes, hpc])) rfl
  case prepared =>
    have hrole : s.out.role = .finalizing s.out.gen := by simp [Out.role, hpc]
    cases h
    exact intake_outPrepared hs hpc
  all_goals
    have hrole : s.out.role = .other := by simp [Out.role, hpc]
  case deadlineCancel =>
    split at h <;> cases h
    · exact Intake.other hs hrole hidle rfl (fun t hsh => hsh.goto fun _ g hg => by cases hg) id rfl
    · exact Intake.other hs hrole hidle rfl (fun t hsh => hsh.deactivate) id rfl
  case deadlineRestart =>
    cases h
    exact Intake.other hs hrole hidle rfl (fun t hsh => hsh.deactivate) id rfl
  case deadlineSend =>
    split at h <;> cases h <;>
      exact Intake.other hs hrole hidle rfl (fun t hsh => hsh.goto fun _ g hg => by cases hg) id rfl
  case fired =>
    cases h
    unfold outFired
    split
    · split
      all_goals
        refine Intake.other hs hrole hidle rfl (fun t hsh => hsh.goto fun hstream g hg => ?_) id rfl
        obtain rfl : s.asrActiveGen = g := by simpa [Out.role] using hg
        exact (stream_eq_some_iff.mp hstream).2
    · exact Intake.other hs hrole hidle rfl (fun t hsh => hsh.goto fun _ g hg => by cases hg) id rfl
  case enrich | speakerTest =>
    cases h
    split <;>
      exact Intake.other hs hrole hidle rfl (fun t hsh => hsh.goto fun _ g hg => by cases hg) id rfl
  case finalSend =>
    cases h
    unfold outFinalSent
    dsimp only
    repeat' split
    all_goals
      exact Intake.other hs hrole hidle rfl (fun t hsh => hsh.goto fun _ g hg => by cases hg) id rfl
  case drainFailCancel =>
    cases h
    exact Intake.other hs hrole hidle rfl (fun t hsh => hsh.deactivate) (by simp) rfl
  all_goals
    cases h
    exact Intake.other hs hrole hidle rfl (fun t hsh => hsh.goto fun _ g hg => by cases hg) id rfl

/-! The manager calls. -/

/-- No generation opened for a queued turn is behind the dispatcher while it opens one. -/
theorem settled_of_opens (hs : s.Intake cfg) (hsound : s.Sound cfg)
    (hpc : s.disp.pc = .openTurn ∨ s.disp.pc = .lazyOpen) :
    ∀ t ∈ latestTurn s.trace, Settled (fun n => accepted n s.trace) (fun t => heard t s.trace)
      (speaking s.trace) s.generation t := by
  have hlive : s.disp.pc.live = true := by rcases hpc with hpc | hpc <;> simp [hpc, DispPc.live]
  intro t ht
  rcases hs.rest (by rw [hsound.drain_off hlive]; rfl) t ht with hl | hshut
  · rcases hpc with hpc | hpc
    · have hst : s.disp.pc.starts = true := by simp [hpc, DispPc.starts]
      exact absurd hl (not_live_of_starts hst (hsound.heard.starts hst) t)
    · exact absurd hpc hl.opens.1
  · exact hshut.settled

/-- The dispatcher's manager calls. -/
theorem dispCall_intake {ok : Bool} (hs : s.Intake cfg) (hsound : s.Sound cfg)
    (hok : cutsTurn cfg s (.dispCall ok) = false) (h : dispCall s ok = some s') :
    s'.Intake cfg := by
  obtain rfl : ok = true := by simpa [cutsTurn] using hok
  unfold dispCall at h
  split at h
  case isFalse => cases h
  case isTrue hcall =>
  cases hpc : s.disp.pc <;> simp only [hpc, if_true] at h <;> cases h
  all_goals
    have hoff := hsound.drain_off (by simp [hpc, DispPc.live])
  case openTurn =>
    exact Intake.of_none (hs.ledger.open (settled_of_opens hs hsound (.inl hpc))) rfl hoff
      hs.finalizing hs.segment
  case lazyOpen =>
    exact Intake.of_none (hs.ledger.open (settled_of_opens hs hsound (.inr hpc))) rfl hoff
      hs.finalizing hs.segment
  case replay =>
    exact Intake.of_none hs.ledger.accept (hs.replay hpc) hoff hs.finalizing hs.segment
  case feed =>
    refine ⟨hs.ledger.accept, hs.vad, hs.known, by simp, by simp, hs.finalizing, hs.segment, ?_,
      fun hidle t ht => ?_⟩
    · show s.out.drain.Fed _ _ _ _ _
      rw [hoff]
      trivial
    rcases hs.rest hidle t ht with hl | hshut
    · have hends : s.disp.ends = decide (s.disp.current.event = some .speechEnd) := by
        simp [Disp.ends, hpc]
      have hflight : s.disp.inFlight = s.disp.current.samples := by
        simp [Disp.inFlight, hpc, hcall]
      have hfed := hl.fed
      have hnow := hl.now
      rw [hflight] at hfed
      rw [hends] at hnow
      refine .inl ⟨hl.stream, hl.unmarked, hl.free, hl.role, ?_, by simp, by simp, ?_⟩
      · exact hnow
      · simp only [Disp.inFlight, List.append_nil, accepted, if_true]
        exact hfed
    · exact absurd hpc hshut.feed

/-- The drain's manager calls. -/
theorem outCall_intake {ok : Bool} (hs : s.Intake cfg) (hsound : s.Sound cfg)
    (hok : cutsTurn cfg s (.outCall ok) = false) (h : outCall s ok = some s') :
    s'.Intake cfg := by
  obtain rfl : ok = true := by simpa [cutsTurn] using hok
  unfold outCall at h
  split at h
  case isFalse => cases h
  case isTrue hcall =>
  cases hpc : s.out.pc <;> simp only [hpc, if_true] at h <;> cases h
  all_goals
    have hhead : s.pend.turns.head? = some s.out.turn :=
      hsound.held.head s.out.turn (by simp [Out.held, hpc])
    have hmem : s.out.turn ∈ s.pend.turns := List.mem_of_head? hhead
    have hnil : s.pend.turns ≠ [] := List.ne_nil_of_mem hmem
    have hrole : s.out.role = .other := by simp [Out.role, hpc]
  case drainOpen =>
    have hlt := hsound.queue.fresh s.out.turn hmem
    have hidle : s.out.drain.idle = true := by simp [Out.drain, hpc, hcall, Drain.idle]
    have hsettled : ∀ t ∈ latestTurn s.trace, Settled (fun n => accepted n s.trace)
        (fun t => heard t s.trace) (speaking s.trace) s.generation t := by
      intro t ht
      rcases hs.rest hidle t ht with hl | hshut
      · exact absurd hl (not_live_of_role (by simp [hrole]) t)
      · exact hshut.settled
    -- the dispatcher does not open a generation while a turn is queued
    have hquiet : s.disp.pc.live ≠ true := fun hlive => hnil (hsound.queue.live hlive)
    refine ⟨hs.ledger.openTurn hsettled hlt, fun _ => ?_, fun t ht => ?_, fun hp => ?_, fun hp => ?_,
      fun hf => ?_, by simp, ?_, fun hi => ?_⟩
    · by_contra hvad
      exact hnil (hsound.queue.novad (by simpa using hvad))
    · obtain rfl : s.out.turn = t := Option.some.inj ht
      exact hlt
    · have hp' : s.disp.pc = .openTurn ∨ s.disp.pc = .lazyOpen := hp
      exact absurd (by rcases hp' with hp | hp <;> rw [hp] <;> rfl) hquiet
    · have hp' : s.disp.pc = .replay := hp
      exact absurd (by rw [hp']; rfl) hquiet
    · exact absurd (hs.finalizing hf) (not_finalizes (.inl hrole))
    · exact ⟨rfl, rfl, hs.ledger.future _ (Nat.lt_succ_self _)⟩
    · cases hi
  case drainFeed =>
    have hdrain := hs.drain
    have hseg := hs.segment hpc
    simp only [Out.drain, hpc, hcall] at hdrain
    refine ⟨hs.ledger.accept, hs.vad, hs.known, hs.called, hs.replay, fun hf => ?_, fun _ => hseg, ?_,
      fun hi => ?_⟩
    · exact absurd (hs.finalizing hf) (not_finalizes (.inl hrole))
    · exact hdrain.accept hseg
    · cases hi

/-- **The step lemma.** -/
theorem step_intake {a : Act α} (hs : s.Intake cfg) (hsound : s.Sound cfg) (hok : NoCut cfg s a)
    (h : step cfg s a = some s') : s'.Intake cfg := by
  cases a <;> simp only [step] at h <;> split at h
  all_goals try cases h; done
  case receive msg _ => exact receive_intake hs hsound hok h
  case disp e _ => exact dispStep_intake hs hsound hok h
  case out e _ => exact outStep_intake hs hsound hok h
  case dispCall ok _ => exact dispCall_intake hs hsound hok h
  case outCall ok _ => exact outCall_intake hs hsound hok h
  case finalizeTimeout =>
    split at h <;> cases h
    rename_i hpc _
    have hrole : s.out.role = .finalizing s.out.gen := role_of_finalize hpc
    refine Intake.leave hs (drain_of_finalize hpc) rfl
      (fun t _ => not_live_of_role (by simp [hrole]) t) (fun t hsh => ?_) (fun _ => rfl) rfl
    rw [hrole] at hsh
    exact hsh
  case cancelOut | dispFails | teardown => cases hok
  case finalizeEnds | cancelEnds | prepareEnds =>
    split at h <;> cases h
    exact hs

/-- An accepted connection. -/
theorem intake_start : (State.start : State α).Intake cfg :=
  Intake.of_none ⟨by simp [State.start, turnGens], by simp [State.start, turnGens],
    by simp [State.start, turnGens], fun _ _ => rfl⟩ rfl rfl (by simp [State.start])
    (by simp [State.start])

/-- **The run lemma.** -/
theorem run_intake {as : List (Act α)} (hrun : (machine cfg).run as = some s)
    (hok : (machine cfg).Guarded (NoCut cfg) .start as) : s.Intake cfg ∧ s.Sound cfg := by
  have hnil : (machine cfg).run ([] : List (Act α)) = some .start := rfl
  have hstart : (State.start : State α).Held cfg := run_held hnil trivial
  refine (machine cfg).invariant_of_guarded (NoCut cfg) (P := fun s => s.Intake cfg ∧ s.Sound cfg)
    ⟨intake_start, turnQueue_start, heard_start, hstart⟩ (fun s s' a hs hok h => ?_) hok hrun
  obtain ⟨hin, hsound⟩ := hs
  exact ⟨step_intake hin hsound hok h, step_turnQueue hsound.queue h,
    step_heard hsound.heard hsound.queue h, step_held hsound.held hok.noDropInDrain h⟩

/-- The session stays open. -/
theorem step_admits {a : Act α} (hs : s.Admits) (hmulti : cfg.multiUtterance = true)
    (hok : NoCut cfg s a) (h : step cfg s a = some s') : s'.Admits := by
  cases a <;> simp only [step] at h <;> split at h
  all_goals try cases h; done
  case receive msg _ => exact receive_admits hs hmulti hok h
  case disp e _ =>
    have hover : overflows cfg s = false := (Bool.or_eq_false_iff.mp hok).1
    exact dispStep_admits hs hmulti hover h
  case out e _ => exact outStep_admits hs hmulti h
  case dispCall ok _ =>
    unfold dispCall at h
    repeat' split at h
    all_goals cases h <;> exact ⟨hs.session, hs.cancel, hs.join⟩
  case outCall ok _ =>
    unfold outCall at h
    repeat' split at h
    all_goals cases h <;> exact ⟨hs.session, hs.cancel, hs.join⟩
  case cancelOut | dispFails | teardown => cases hok
  case cancelEnds =>
    split at h <;> cases h
    rename_i hcancel
    rw [hs.cancel] at hcancel
    cases hcancel
  case finalizeTimeout | finalizeEnds | prepareEnds =>
    split at h <;> cases h
    exact ⟨hs.session, hs.cancel, hs.join⟩

/-- What the latest generation has accepted and what is on its way to it are what its turn
has heard. -/
theorem State.Intake.accepted_latest (hs : s.Intake cfg) (hsound : s.Sound cfg) {t : ℕ}
    (ht : latestTurn s.trace = some t) :
    accepted s.generation s.trace ++ s.inFlight s.generation = heard t s.trace := by
  have hdrain := hs.drain
  have hrest := hs.rest
  unfold State.inFlight
  rw [if_pos rfl]
  cases hd : s.out.drain with
  | broken =>
    rw [hd] at hdrain
    exact hdrain.elim
  | opened u gen =>
    rw [hd] at hdrain
    obtain ⟨_, hlatest, htaken⟩ := hdrain
    change accepted s.generation s.trace = [] at htaken
    obtain rfl : u = t := Option.some.inj (hlatest.symm.trans ht)
    have hheld := held_of_opened hd
    rw [htaken, List.nil_append]
    exact hsound.heard.segments u (List.mem_of_head? (hsound.held.head u hheld))
  | feeding u gen fed =>
    rw [hd] at hdrain
    obtain ⟨_, hlatest, _, _, htaken⟩ := hdrain
    change accepted s.generation s.trace = _ at htaken
    obtain rfl : u = t := Option.some.inj (hlatest.symm.trans ht)
    have hheld := held_of_feeding hd
    rw [htaken, ← List.flatten_append, List.take_append_drop]
    exact hsound.heard.segments u (List.mem_of_head? (hsound.held.head u hheld))
  | off | opening =>
    rcases hrest (by rw [hd]; rfl) t ht with hl | hshut
    · have hactive := (stream_eq_some_iff.mp hl.stream).1
      have hunmarked : s.endpointPending = none := by simpa using hl.unmarked
      rw [if_pos ⟨hactive, hunmarked⟩]
      exact hl.fed
    · have hnot : ¬ (s.asrActive = true ∧ s.endpointPending = none) := by
        rintro ⟨hactive, hunmarked⟩
        rcases hshut.shut with hnone | ⟨_, hmarked, _⟩
        · simp [State.stream, hactive] at hnone
        · simp [hunmarked] at hmarked
      rw [if_neg hnot, List.append_nil]
      exact hshut.settled.1

/-- What any generation opened for a queued turn has accepted and what is on its way to it
are what the turn has heard. -/
theorem State.Intake.accepted_append (hs : s.Intake cfg) (hsound : s.Sound cfg) {gen t : ℕ}
    (hmem : (gen, t) ∈ turnGens s.trace) :
    accepted gen s.trace ++ s.inFlight gen = heard t s.trace := by
  rcases (hs.ledger.bound _ hmem).1.lt_or_eq with hlt | heq
  · obtain ⟨htaken, _⟩ := hs.ledger.settled _ hmem hlt
    rw [State.inFlight, if_neg (Nat.ne_of_lt hlt), List.append_nil]
    exact htaken
  · obtain rfl : gen = s.generation := heq
    exact hs.accepted_latest hsound (hs.ledger.latest _ hmem rfl)

/-- Nothing is on its way while the dispatcher waits for a frame and the drain holds no
turn. -/
theorem inFlight_eq_nil (hpc : s.disp.pc = .recv) (hheld : s.out.held = none) (gen : ℕ) :
    s.inFlight gen = [] := by
  have hflight : s.disp.inFlight = [] := by simp [Disp.inFlight, hpc]
  unfold State.inFlight
  rw [drain_off_of_held hheld, hflight]
  simp

/-- In a connection for many utterances, audio is admitted as long as no turn is cut off. -/
theorem run_admits {as : List (Act α)} (hrun : (machine cfg).run as = some s)
    (hok : (machine cfg).Guarded (NoCut cfg) .start as) (hmulti : cfg.multiUtterance = true) :
    s.Admits := by
  have hstart : (State.start : State α).Admits := ⟨rfl, rfl, by simp [State.start]⟩
  exact (machine cfg).invariant_of_guarded (NoCut cfg) hstart
    (fun _ _ _ hs hok h => step_admits hs hmulti hok h) hok hrun

/-- **Queued speech is neither lost nor repeated nor reordered.**  In a run that cuts no turn
off, audio stays admitted, and what a generation opened for a queued turn has accepted,
followed by what is on its way to it, is what the turn has heard: the tail it began with and
every segment from its speech-start to its speech-end.  Nothing is on its way while the
dispatcher waits for a frame and nothing is in the drain. -/
theorem accepted_append_inFlight (cfg : Cfg) (as : List (Act α)) (s : State α)
    (hrun : (machine cfg).run as = some s)
    (hok : (machine cfg).Guarded (NoCut cfg) .start as) (hmulti : cfg.multiUtterance = true) :
    s.asrSessionClosed = false ∧
      ∀ gen t, (gen, t) ∈ turnGens s.trace →
        accepted gen s.trace ++ s.inFlight gen = heard t s.trace ∧
          (s.disp.pc = .recv → s.out.held = none → accepted gen s.trace = heard t s.trace) := by
  obtain ⟨hs, hsound⟩ := run_intake hrun hok
  refine ⟨(run_admits hrun hok hmulti).session, fun gen t hmem => ?_⟩
  have haccepted := hs.accepted_append hsound hmem
  refine ⟨haccepted, fun hpc hheld => ?_⟩
  rw [inFlight_eq_nil hpc hheld, List.append_nil] at haccepted
  exact haccepted

/-- A turn is queued, fed by the drain and handed over while it is still being spoken. -/
def handOverRun : List (Act ℕ) :=
  queuedTurnRun ++
    ([.outCall true, .out {}, .out {}, .outCall true, .out {}, .out {}, .out {}] : List (Act ℕ))

set_option maxRecDepth 2000 in
theorem accepted_append_inFlight_handOverRun :
    ∃ s, (machine exampleCfg).run (handOverRun ++ endTurn 5) = some s ∧
      turnGens s.trace = [(2, 0)] ∧ heard 0 s.trace = [3, 4, 5] ∧
      accepted 2 s.trace = heard 0 s.trace := by
  refine ⟨_, rfl, by decide, by decide, ?_⟩
  exact ((accepted_append_inFlight exampleCfg (handOverRun ++ endTurn 5) _ rfl (by decide) rfl).2
    2 0 (by decide)).2 rfl rfl

/-- The client sends `asr_eos` before the last words of that turn. -/
def eosInTurnRun : List (Act ℕ) :=
  handOverRun ++ ([.receive .asrEos, .receive (.audio [5] [1]), .disp {}, .disp {}] : List (Act ℕ))

/-- **An `asr_eos` in the middle of a turn ends its generation**: the rest of the speech is
heard and never taken in, though nothing was aborted, nothing overflowed and no call of the
manager failed. -/
theorem eosInTurnRun_loses_speech :
    ∃ s, (machine exampleCfg).run eosInTurnRun = some s ∧ turnGens s.trace = [(2, 0)] ∧
      s.disp.pc = .recv ∧ s.out.held = none ∧ speaking s.trace = none ∧
      heard 0 s.trace = [3, 4, 5] ∧ accepted 2 s.trace = [3, 4] :=
  ⟨_, rfl, by decide, rfl, rfl, by decide, by decide, by decide⟩

end Asr
end V2v
end OpenVoiceStream
