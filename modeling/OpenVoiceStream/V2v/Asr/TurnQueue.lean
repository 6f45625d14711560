import OpenVoiceStream.V2v.Asr.PendingTurns

/-!
# The shape of the queue of turns

Because the events of a VAD session alternate, at most the last queued turn is still
being spoken.  And while the dispatcher handles a segment that it does not hold back,
nothing is queued.  Both hold along every run.

## Main definitions

* `Disp.upcoming` — the segments whose events the dispatcher has still to act on.
* `TurnQueue` — the invariant.

## Main results

* `step_turnQueue`, `run_turnQueue` — the invariant along every run.
-/

namespace OpenVoiceStream
namespace V2v
namespace Asr

open PendingAudio

variable {α : Type}

/-- The dispatcher is not in the loop over the segments. -/
def DispPc.atFrame : DispPc → Bool
  | .recv | .joinCancel | .joinFailed => true
  | _ => false

/-- The dispatcher handles a segment that it does not hold back. -/
def DispPc.live : DispPc → Bool
  | .liveStart | .openTurn | .openFailed | .replay | .lazyTest | .lazyOpen | .lazyFailed
  | .feedTest | .feed | .latch | .latched | .ring => true
  | _ => false

/-- The segments whose events the dispatcher has still to act on. -/
def Disp.upcoming (d : Disp α) : List (Segment α) :=
  match d.pc with
  | .segment | .pendingStart => d.current :: d.rest
  | _ => d.rest

theorem upcoming_next (d : Disp α) : d.next.upcoming = d.rest := by
  unfold Disp.next
  split <;> simp [Disp.upcoming, *]

/-- No segment is left when the dispatcher goes back to the socket. -/
theorem next_rest (d : Disp α) (h : d.next.pc.atFrame) : d.next.rest = [] := by
  cases hrest : d.rest <;> simp_all [Disp.next, DispPc.atFrame]

theorem next_live (d : Disp α) : ¬ d.next.pc.live := by
  cases hrest : d.rest <;> simp [Disp.next, hrest, DispPc.live]

theorem next_start (d : Disp α) : d.next.pc ≠ .pendingStart := by
  cases hrest : d.rest <;> simp [Disp.next, hrest]

section TurnQueue

variable {vad inSpeech : Bool} {p q : PendingAudio α} {d d' : Disp α} {limit : ℤ}
  {samples : List α}

/-- The invariant of the queue, the dispatcher and the flag of the VAD. -/
structure TurnQueue (vad : Bool) (p : PendingAudio α) (d : Disp α) (inSpeech : Bool) : Prop where
  fresh : ∀ t ∈ p.turns, t < p.fresh
  started : ∀ t ∈ p.turns, (p.turn t).started
  /-- Only the last turn is still being spoken. -/
  chain : ∀ t ∈ p.turns.dropLast, (p.turn t).ended
  /-- A turn that is still being spoken ends before the next one starts. -/
  spoken : d.pc ≠ .ended → ∃ b, Alternates b d.upcoming inSpeech ∧ (p.openTurn.isSome → b = true)
  atFrame : d.pc.atFrame → d.rest = []
  /-- Nothing is queued while a segment goes straight to the manager. -/
  live : d.pc.live → p.turns = []
  start : d.pc = .pendingStart → vad = true ∧ d.current.event = some .speechStart
  novad : vad = false → p.turns = []

/-- No turn of an empty queue is being spoken. -/
theorem openTurn_eq_none (h : p.turns = []) : p.openTurn = none := by
  simp [openTurn, h]

theorem openTurn_isSome_iff : p.openTurn.isSome ↔ ∃ t, p.turns.getLast? = some t ∧
    (p.turn t).ended = false := by
  unfold openTurn
  cases p.turns.getLast? <;> simp [Option.filter]

/-- Turns leave the queue at its head. -/
theorem TurnQueue.of_suffix (h : TurnQueue vad p d inSpeech) (hturns : q.turns <:+ p.turns)
    (hturn : q.turn = p.turn) (hfresh : q.fresh = p.fresh) : TurnQueue vad q d inSpeech := by
  have hmem : ∀ t ∈ q.turns, t ∈ p.turns := fun t ht => hturns.mem ht
  obtain ⟨pre, hpre⟩ := hturns
  refine ⟨fun t ht => hfresh ▸ h.fresh t (hmem t ht), fun t ht => hturn ▸ h.started t (hmem t ht),
    fun t ht => ?_, fun he => ?_, h.atFrame, fun hl => ?_, h.start, fun hv => ?_⟩
  · have hne : q.turns ≠ [] := by
      rintro hnil
      simp [hnil] at ht
    rw [hturn]
    refine h.chain t ?_
    rw [← hpre, List.dropLast_append_of_ne_nil hne]
    exact List.mem_append_right _ ht
  · obtain ⟨b, halt, hopen⟩ := h.spoken he
    refine ⟨b, halt, fun hq => hopen ?_⟩
    rw [openTurn_isSome_iff] at hq ⊢
    obtain ⟨t, hlast, hended⟩ := hq
    refine ⟨t, ?_, hturn ▸ hended⟩
    rw [← hpre, List.getLast?_append, hlast]
    rfl
  · have := h.live hl
    rw [← hpre] at this
    exact (List.append_eq_nil_iff.mp this).2
  · have := h.novad hv
    rw [← hpre] at this
    exact (List.append_eq_nil_iff.mp this).2

/-- Dropping the queue. -/
theorem TurnQueue.clear (h : TurnQueue vad p d inSpeech) : TurnQueue vad p.clear d inSpeech :=
  h.of_suffix (List.nil_suffix) rfl rfl

/-- The queue stays, and no turn of it begins or ends. -/
theorem TurnQueue.of_queue (h : TurnQueue vad p d inSpeech) (hturns : q.turns = p.turns)
    (hfresh : q.fresh = p.fresh)
    (hturn : ∀ u, (q.turn u).ended = (p.turn u).ended ∧ (q.turn u).started = (p.turn u).started) :
    TurnQueue vad q d inSpeech := by
  have hopen : q.openTurn.isSome ↔ p.openTurn.isSome := by
    simp only [openTurn_isSome_iff, hturns, fun u => (hturn u).1]
  refine ⟨by rw [hturns, hfresh]; exact h.fresh, fun t ht => ?_, fun t ht => ?_, fun he => ?_,
    h.atFrame, by rw [hturns]; exact h.live, h.start, by rw [hturns]; exact h.novad⟩
  · rw [(hturn t).2]
    exact h.started t (hturns ▸ ht)
  · rw [(hturn t).1]
    exact h.chain t (hturns ▸ ht)
  · obtain ⟨b, halt, hb⟩ := h.spoken he
    exact ⟨b, halt, fun hq => hb (hopen.mp hq)⟩

theorem TurnQueue.appendTail (h : TurnQueue vad p d inSpeech)
    (hq : p.appendTail limit samples = some q) : TurnQueue vad q d inSpeech := by
  obtain ⟨hturns, hturn, hfresh, _⟩ := appendTail_queue hq
  exact h.of_queue hturns hfresh fun u => by simp [hturn]

theorem TurnQueue.appendTurn (h : TurnQueue vad p d inSpeech)
    (hq : p.appendTurn limit samples = some q) : TurnQueue vad q d inSpeech := by
  obtain ⟨hturns, hfresh, _, hturn⟩ := appendTurn_queue hq
  exact h.of_queue hturns hfresh hturn

/-- The dispatcher moves on without touching the queue. -/
theorem TurnQueue.follow (h : TurnQueue vad p d inSpeech)
    (hspoken : d'.pc ≠ .ended → d.pc ≠ .ended ∧ d'.upcoming = d.upcoming)
    (hframe : d'.pc.atFrame → d'.rest = []) (hlive : d'.pc.live → p.turns = [])
    (hstart : d'.pc ≠ .pendingStart) : TurnQueue vad p d' inSpeech :=
  ⟨h.fresh, h.started, h.chain, fun he => (hspoken he).2 ▸ h.spoken (hspoken he).1, hframe, hlive,
    fun hs => absurd hs hstart, h.novad⟩

/-- The dispatcher is done with its segment. -/
theorem TurnQueue.next (h : TurnQueue vad p d inSpeech) (he : d.pc ≠ .ended)
    (hup : d.upcoming = d.rest) : TurnQueue vad p d.next inSpeech := by
  refine h.follow (fun _ => ⟨he, ?_⟩) (next_rest d) (fun hl => absurd hl (next_live _)) (next_start d)
  rw [upcoming_next, hup]

/-- The dispatcher dies. -/
theorem TurnQueue.die (h : TurnQueue vad p d inSpeech) (hpc : d'.pc = .ended) :
    TurnQueue vad p d' inSpeech := by
  refine h.follow ?_ ?_ ?_ ?_ <;> simp [hpc, DispPc.atFrame, DispPc.live]

theorem upcoming_of_live (h : d.pc.live = true) : d.upcoming = d.rest := by
  unfold Disp.upcoming
  split <;> simp_all [DispPc.live]

theorem ne_ended_of_live (h : d.pc.live = true) : d.pc ≠ .ended := by
  rintro hpc
  simp [hpc, DispPc.live] at h

/-- The dispatcher goes on with a segment it does not hold back. -/
theorem TurnQueue.stay (h : TurnQueue vad p d inSpeech) (hl : d.pc.live = true)
    (hl' : d'.pc.live = true) (hrest : d'.rest = d.rest) : TurnQueue vad p d' inSpeech := by
  have hframe : d'.pc.atFrame ≠ true := by
    cases hpc : d'.pc <;> simp_all [DispPc.live, DispPc.atFrame]
  have hstart : d'.pc ≠ .pendingStart := by
    rintro hpc
    simp [hpc, DispPc.live] at hl'
  refine h.follow (fun _ => ⟨ne_ended_of_live hl, ?_⟩) (fun hf => absurd hf hframe)
    (fun _ => h.live hl) hstart
  rw [upcoming_of_live hl', upcoming_of_live hl, hrest]

/-- The dispatcher leaves a segment it did not hold back. -/
theorem TurnQueue.leave (h : TurnQueue vad p d inSpeech) (hl : d.pc.live = true) :
    TurnQueue vad p d.next inSpeech :=
  h.next (ne_ended_of_live hl) (upcoming_of_live hl)

/-- A block is admitted, and cut into segments. -/
theorem TurnQueue.admit {flips : List ℤ} {block : List α}
    (h : TurnQueue vad p d inSpeech) (hframe : d.pc.atFrame) :
    TurnQueue vad p
      { d with rest := splitVadBlock block (processEvents inSpeech flips) : Disp α }.next
      (inSpeechAfter inSpeech flips) := by
  have hended : d.pc ≠ .ended := by
    rintro hpc
    simp [hpc, DispPc.atFrame] at hframe
  have hup : d.upcoming = [] := by
    rw [← h.atFrame hframe]
    unfold Disp.upcoming
    split <;> simp_all [DispPc.atFrame]
  obtain ⟨b, halt, hopen⟩ := h.spoken hended
  rw [hup] at halt
  obtain rfl : b = inSpeech := halt
  refine ⟨h.fresh, h.started, h.chain, fun _ => ⟨b, ?_, hopen⟩, next_rest _,
    fun hl => absurd hl (next_live _), fun hs => absurd hs (next_start _), h.novad⟩
  rw [upcoming_next]
  exact alternates_splitVadBlock block b flips

/-- The event of the first segment has been acted on. -/
theorem alternates_tail {b last : Bool} {segment : Segment α} {rest : List (Segment α)}
    (h : Alternates b (segment :: rest) last) : ∃ b', Alternates b' rest last := by
  unfold Alternates at h
  split at h
  · exact ⟨_, h⟩
  · exact ⟨_, h.2⟩
  · exact ⟨_, h.2⟩

/-- The event of the current segment has been acted on, and no turn is being spoken. -/
theorem TurnQueue.consume (h : TurnQueue vad p d inSpeech) (hup : d.upcoming = d.current :: d.rest)
    (he : d.pc ≠ .ended) (hopen : p.openTurn = none) (hup' : d'.upcoming = d.rest)
    (hframe : d'.pc.atFrame → d'.rest = []) (hlive : d'.pc.live → p.turns = [])
    (hstart : d'.pc ≠ .pendingStart) : TurnQueue vad p d' inSpeech := by
  obtain ⟨b, halt, _⟩ := h.spoken he
  rw [hup] at halt
  obtain ⟨b', halt'⟩ := alternates_tail halt
  exact ⟨h.fresh, h.started, h.chain, fun _ => ⟨b', hup' ▸ halt', by simp [hopen]⟩, hframe, hlive,
    fun hs => absurd hs hstart, h.novad⟩

/-- The current segment belongs to the turn that is being spoken. -/
theorem TurnQueue.continueTurn (h : TurnQueue vad p d inSpeech)
    (hup : d.upcoming = d.current :: d.rest) (he : d.pc ≠ .ended) (hevent : d.current.event = none) :
    TurnQueue vad p d.next inSpeech := by
  obtain ⟨b, halt, hb⟩ := h.spoken he
  rw [hup] at halt
  simp only [Alternates, hevent] at halt
  exact ⟨h.fresh, h.started, h.chain, fun _ => ⟨b, upcoming_next d ▸ halt, hb⟩, next_rest d,
    fun hl => absurd hl (next_live _), fun hs => absurd hs (next_start d), h.novad⟩

/-- Marking the end keeps the shape, and afterwards no turn is being spoken. -/
theorem TurnQueue.markEnd (h : TurnQueue vad p d inSpeech) :
    TurnQueue vad p.markEnd d inSpeech ∧ p.markEnd.openTurn = none := by
  cases hlast : p.turns.getLast? with
  | none =>
    have hnil : p.turns = [] := List.getLast?_eq_none_iff.mp hlast
    have hmark : p.markEnd = p := by simp [PendingAudio.markEnd, hnil]
    exact ⟨hmark.symm ▸ h, hmark.symm ▸ openTurn_eq_none hnil⟩
  | some t =>
    have hstarted : (p.turn t).started = true := h.started t (List.mem_of_getLast? hlast)
    cases hended : (p.turn t).ended with
    | true =>
      have hmark : p.markEnd = p := by simp [PendingAudio.markEnd, hlast, hended]
      refine ⟨hmark.symm ▸ h, ?_⟩
      rw [hmark]
      simp [openTurn, hlast, hended, Option.filter]
    | false =>
      have hmark : p.markEnd = p.modify t fun u =>
          { u with ended := true, endpointReason := some .vad } := by
        simp [PendingAudio.markEnd, hlast, hstarted, hended]
      have hopen : p.markEnd.openTurn = none := by
        rw [hmark]
        simp [openTurn, PendingAudio.modify, hlast, Option.filter]
      refine ⟨?_, hopen⟩
      have hkeep : ∀ u, (p.turn u).started → (p.markEnd.turn u).started := by
        intro u hu
        rw [hmark]
        by_cases hut : u = t
        · subst hut
          simp [PendingAudio.modify, hu]
        · simp [PendingAudio.modify, Function.update_of_ne hut, hu]
      have hend : ∀ u, (p.turn u).ended → (p.markEnd.turn u).ended := by
        intro u hu
        rw [hmark]
        by_cases hut : u = t
        · subst hut
          simp [PendingAudio.modify]
        · simp [PendingAudio.modify, Function.update_of_ne hut, hu]
      obtain ⟨hturns, hfresh, _⟩ := markEnd_queue p
      refine ⟨by rw [hturns, hfresh]; exact h.fresh, fun u hu => ?_, fun u hu => ?_, fun he => ?_,
        h.atFrame, by rw [hturns]; exact h.live, h.start, by rw [hturns]; exact h.novad⟩
      · exact hkeep u (h.started u (hturns ▸ hu))
      · exact hend u (h.chain u (hturns ▸ hu))
      · obtain ⟨b, halt, _⟩ := h.spoken he
        exact ⟨b, halt, by simp [hopen]⟩

/-- All turns have ended, or one is being spoken. -/
theorem TurnQueue.all_ended (h : TurnQueue vad p d inSpeech) (hopen : p.openTurn = none) :
    ∀ t ∈ p.turns, (p.turn t).ended = true := by
  intro t ht
  by_contra hnot
  have hlast : p.turns.getLast? = some t := by
    rcases List.eq_nil_or_concat p.turns with hnil | ⟨init, last, hinit⟩
    · simp [hnil] at ht
    · rw [List.concat_eq_append] at hinit
      rw [hinit] at ht ⊢
      rcases List.mem_append.mp ht with ht | ht
      · exact absurd (h.chain t (by rw [hinit]; simpa using ht)) hnot
      · simp [List.mem_singleton.mp ht]
  have := openTurn_isSome_iff.mpr ⟨t, hlast, by simpa using hnot⟩
  simp [hopen] at this

/-- A new turn starts behind turns that have all ended. -/
theorem TurnQueue.startTurn (h : TurnQueue vad p d inSpeech) (hpc : d.pc = .pendingStart)
    (hq : p.newTurn limit samples = some q) : TurnQueue vad q d.next inSpeech := by
  obtain ⟨hturns, hfresh, _, hstarted, hended, hold⟩ := newTurn_queue hq
  obtain ⟨hvad, hevent⟩ := h.start hpc
  have hne : ∀ t ∈ p.turns, t ≠ p.fresh := fun t ht => Nat.ne_of_lt (h.fresh t ht)
  obtain ⟨b, halt, hb⟩ := h.spoken (by simp [hpc])
  have hup : d.upcoming = d.current :: d.rest := by simp [Disp.upcoming, hpc]
  rw [hup] at halt
  simp only [Alternates, hevent] at halt
  obtain ⟨rfl, hrest⟩ := halt
  refine ⟨fun t ht => ?_, fun t ht => ?_, fun t ht => ?_, fun _ => ⟨true, ?_, fun _ => rfl⟩,
    next_rest d, fun hl => absurd hl (next_live _), fun hs => absurd hs (next_start d), fun hv => by simp [hvad] at hv⟩
  · rw [hturns] at ht
    rcases List.mem_append.mp ht with ht | ht
    · rw [hfresh]
      exact Nat.lt_succ_of_lt (h.fresh t ht)
    · rw [hfresh, List.mem_singleton.mp ht]
      exact Nat.lt_succ_self _
  · rw [hturns] at ht
    rcases List.mem_append.mp ht with ht | ht
    · rw [hold t (hne t ht)]
      exact h.started t ht
    · rw [List.mem_singleton.mp ht, hstarted]
  · rw [hturns, List.dropLast_concat] at ht
    rw [hold t (hne t ht)]
    refine h.all_ended ?_ t ht
    -- a turn that is being spoken would end before this one starts
    cases hopen : p.openTurn with
    | none => rfl
    | some u => cases hb (by simp [hopen])
  · rw [upcoming_next]
    exact hrest

end TurnQueue

/-! ### Steps -/

variable {cfg : Cfg} {s s' : State α} {e : Env}

/-- The invariant of a state. -/
def State.TurnQueue (cfg : Cfg) (s : State α) : Prop :=
  Asr.TurnQueue cfg.vad s.pend s.disp s.inSpeech

/-- Nothing is queued while the dispatcher does not hold audio back. -/
theorem State.TurnQueue.turns_eq_nil (hs : s.TurnQueue cfg) (h : ¬ pendingBlocked cfg s = true) :
    s.pend.turns = [] := by
  cases hvad : cfg.vad with
  | false => exact hs.novad hvad
  | true => simp_all [pendingBlocked]

/-- Dropping everything ends the turn that was being spoken. -/
theorem turnQueue_rejectPending (hs : s.TurnQueue cfg)
    (hup : s.disp.upcoming = s.disp.current :: s.disp.rest) (he : s.disp.pc ≠ .ended)
    (reason : String) : (s.rejectPending reason).TurnQueue cfg := by
  have hclear : Asr.TurnQueue cfg.vad s.pend.clear s.disp s.inSpeech := TurnQueue.clear hs
  exact hclear.consume hup he (openTurn_eq_none rfl) rfl (by simp [State.rejectPending,
    DispPc.atFrame]) (fun _ => rfl) (by simp [State.rejectPending])

theorem turnQueue_admitAudio (hs : s.TurnQueue cfg) (hframe : s.disp.pc.atFrame) :
    (admitAudio cfg s).TurnQueue cfg := by
  have hrecv : State.TurnQueue cfg { s with disp.pc := .recv } := by
    refine TurnQueue.follow hs (fun _ => ?_) (fun _ => hs.atFrame hframe) (by simp [DispPc.live])
      (by simp)
    cases hpc : s.disp.pc <;> simp_all [DispPc.atFrame, Disp.upcoming]
  unfold admitAudio
  split
  · exact hrecv
  split
  · exact hrecv
  exact TurnQueue.admit hs hframe

theorem turnQueue_dispSegment (hs : s.TurnQueue cfg) (hpc : s.disp.pc = .segment) :
    (dispSegment cfg s).TurnQueue cfg := by
  have hup : s.disp.upcoming = s.disp.current :: s.disp.rest := by simp [Disp.upcoming, hpc]
  have he : s.disp.pc ≠ .ended := by simp [hpc]
  have harrived : State.TurnQueue cfg { s with trace := .arrived s.disp.current :: s.trace } := hs
  unfold dispSegment
  dsimp only
  split
  case isTrue hblocked =>
    have hvad : cfg.vad = true := by
      have : pendingBlocked cfg s = true := hblocked
      simp only [pendingBlocked, Bool.and_eq_true] at this
      exact this.1
    split
    · rename_i hstart
      have hspoken := hs.spoken he
      rw [hup] at hspoken
      exact ⟨hs.fresh, hs.started, hs.chain, fun _ => hspoken,
        by simp [DispPc.atFrame], by simp [DispPc.live], fun _ => ⟨hvad, hstart⟩, hs.novad⟩
    rename_i hstart
    split
    · split
      · exact turnQueue_rejectPending harrived hup he _
      · rename_i hq
        have hs' := TurnQueue.appendTurn hs hq
        split
        · obtain ⟨hmark, hopen⟩ := hs'.markEnd
          exact hmark.consume hup he hopen rfl (by simp [DispPc.atFrame]) (by simp [DispPc.live])
            (by simp)
        · rename_i hend
          have hevent : s.disp.current.event = none := by
            cases hev : s.disp.current.event with
            | none => rfl
            | some ev => cases ev <;> simp_all
          exact hs'.continueTurn hup he hevent
    · rename_i hopen
      split
      · exact turnQueue_rejectPending harrived hup he _
      · rename_i pend hq
        have hs' := TurnQueue.appendTail hs hq
        have hopen' : pend.openTurn = none := by
          obtain ⟨hturns, hturn, _⟩ := appendTail_queue hq
          have : s.pend.openTurn = none := by simpa using hopen
          rw [← this, openTurn, openTurn, hturns, hturn]
        split
        · exact hs'.consume hup he hopen' rfl (by simp [DispPc.atFrame]) (by simp [DispPc.live])
            (by simp)
        · exact hs'.consume hup he hopen' (upcoming_next _) (next_rest _)
            (fun hl => absurd hl (next_live _)) (next_start _)
  case isFalse hfree =>
    have hnil : s.pend.turns = [] := hs.turns_eq_nil hfree
    split <;>
      exact hs.consume hup he (openTurn_eq_none hnil) rfl (by simp [DispPc.atFrame])
        (fun _ => hnil) (by simp)

theorem turnQueue_dispPendingStart (hs : s.TurnQueue cfg) (hpc : s.disp.pc = .pendingStart) :
    (dispPendingStart cfg s).TurnQueue cfg := by
  unfold dispPendingStart
  split
  · exact turnQueue_rejectPending hs (by simp [Disp.upcoming, hpc]) (by simp [hpc]) _
  · rename_i hq
    exact TurnQueue.startTurn hs hpc hq

/-- The dispatcher's steps. -/
theorem dispStep_turnQueue (hs : s.TurnQueue cfg) (h : dispStep cfg s e = some s') :
    s'.TurnQueue cfg := by
  cases hpc : s.disp.pc <;> simp only [dispStep, hpc] at h
  case recv => cases h
  case ended => cases h
  case segment =>
    cases h
    exact turnQueue_dispSegment hs hpc
  case pendingStart =>
    cases h
    exact turnQueue_dispPendingStart (s := s.send e _) hs hpc
  case joinCancel =>
    split at h
    · split at h <;> cases h
      exact turnQueue_admitAudio (s := { s with asrCancelTask := none }) hs (by simp [hpc, DispPc.atFrame])
    · cases h
      exact TurnQueue.follow hs (fun _ => ⟨by simp [hpc], by simp [Disp.upcoming, hpc]⟩)
        (fun _ => hs.atFrame (by simp [hpc, DispPc.atFrame])) (by simp [DispPc.live]) (by simp)
  case joinFailed =>
    cases h
    exact TurnQueue.follow hs (fun _ => ⟨by simp [hpc], by simp [Disp.upcoming, hpc, State.send]⟩)
      (fun _ => hs.atFrame (by simp [hpc, DispPc.atFrame])) (by simp [DispPc.live]) (by simp)
  case pendingEnd | rejecting =>
    cases h
    exact TurnQueue.next (d := s.disp) hs (by simp [hpc]) (by simp [Disp.upcoming, hpc])
  all_goals
    have hl : s.disp.pc.live = true := by simp [hpc, DispPc.live]
  case liveStart =>
    cases h
    unfold dispLiveStart
    repeat' split
    · exact TurnQueue.leave hs hl
    all_goals exact TurnQueue.stay hs hl rfl rfl
  case openTurn =>
    split at h <;> cases h
    · unfold dispOpened
      dsimp only
      split <;> exact TurnQueue.stay hs hl rfl rfl
    · exact TurnQueue.stay hs hl rfl rfl
  case lazyTest =>
    cases h
    unfold dispLazyTest
    split <;> exact TurnQueue.stay hs hl rfl rfl
  case latch =>
    cases h
    unfold dispLatch
    repeat' split
    all_goals exact TurnQueue.stay hs hl rfl rfl
  case ring =>
    cases h
    unfold dispRing
    split <;> exact TurnQueue.leave hs hl
  case openFailed | lazyFailed =>
    cases h
    exact TurnQueue.leave hs hl
  case latched =>
    cases h
    exact TurnQueue.stay hs hl rfl rfl
  case lazyOpen | feedTest =>
    split at h <;> cases h <;> exact TurnQueue.stay hs hl rfl rfl
  case replay | feed =>
    split at h <;> cases h
    · exact TurnQueue.stay hs hl rfl rfl
    · exact TurnQueue.die hs rfl

/-- Frames of the client. -/
theorem receive_turnQueue {msg : Msg α} (hs : s.TurnQueue cfg) (h : receive cfg s msg = some s') :
    s'.TurnQueue cfg := by
  unfold receive at h
  split at h <;> cases h
  rename_i hpc
  split
  · exact TurnQueue.die hs rfl
  cases msg with
  | audio samples flips =>
    show (receiveAudio cfg s samples flips).TurnQueue cfg
    unfold receiveAudio
    split
    · exact TurnQueue.follow hs (fun _ => ⟨by simp [hpc], by simp [Disp.upcoming, hpc]⟩)
        (fun _ => hs.atFrame (by simp [hpc, DispPc.atFrame])) (by simp [DispPc.live]) (by simp)
    · have hblock : Asr.TurnQueue cfg.vad s.pend { s.disp with block := (samples, flips) }
          s.inSpeech :=
        TurnQueue.follow hs (fun _ => ⟨by simp [hpc], by simp [Disp.upcoming, hpc]⟩)
          (fun _ => hs.atFrame (by simp [hpc, DispPc.atFrame])) (by simp [hpc, DispPc.live])
          (by simp [hpc])
      exact turnQueue_admitAudio
        (s := { s with asrCancelTask := none, disp.block := (samples, flips) }) hblock
        (by simp [hpc, DispPc.atFrame])
  | abort keepAsr =>
    simp only [receiveMsg]
    split
    · exact hs
    · rw [abortAsr_eq]
      exact TurnQueue.clear hs
  | disconnect => exact TurnQueue.die hs rfl
  | asrEos | asrPrepare | other => exact hs

/-! `asr_out_task` only takes turns off the queue. -/

theorem turnQueue_outNotAccepted (hs : s.TurnQueue cfg) (failure : Option String) :
    (outNotAccepted s e failure).TurnQueue cfg := by
  unfold outNotAccepted
  dsimp only
  repeat' split
  all_goals exact TurnQueue.clear hs

theorem turnQueue_outCancelled (hs : s.TurnQueue cfg) : (outCancelled s e).TurnQueue cfg := by
  unfold outCancelled
  split
  · exact turnQueue_outNotAccepted (s := { s with asrAbortRequested := false }) hs none
  · exact hs

theorem turnQueue_outAccepted (hs : s.TurnQueue cfg) (text : String) (language : Option String) :
    (outAccepted cfg s text language).TurnQueue cfg := by
  unfold outAccepted State.movePendingTailToPreroll
  dsimp only
  repeat' split
  all_goals first
    | exact hs
    | exact TurnQueue.of_suffix hs (q := s.pend.dropTail) List.suffix_rfl rfl rfl

theorem turnQueue_outFinalize (hs : s.TurnQueue cfg) (wait : Wait) (outcome : Outcome) :
    (outFinalize cfg s e wait outcome).TurnQueue cfg := by
  unfold outFinalize
  split
  · exact turnQueue_outCancelled hs
  · exact turnQueue_outCancelled hs
  · exact turnQueue_outAccepted hs _ _
  · exact turnQueue_outNotAccepted hs _
  all_goals exact hs

theorem turnQueue_drainFailed (hs : s.TurnQueue cfg) : (drainFailed s).TurnQueue cfg := by
  unfold drainFailed
  split
  · exact hs
  · exact TurnQueue.clear hs

theorem turnQueue_drainNext (hs : s.TurnQueue cfg) : (drainNext s).TurnQueue cfg := by
  have hpop : ∀ s' : State α, s'.TurnQueue cfg → (drainPop s').TurnQueue cfg := by
    intro s' hs'
    unfold drainPop
    split
    · exact turnQueue_drainFailed (s := { s' with trace := .popped none s'.out.turn :: s'.trace }) hs'
    · rename_i pend hpend
      obtain ⟨⟨u, hturns⟩, hturn, hfresh, _⟩ := popTurn_queue hpend
      exact TurnQueue.of_suffix (q := pend) hs' (hturns ▸ List.suffix_cons u pend.turns) hturn hfresh
  unfold drainNext
  split
  · split <;> exact hs
  · refine hpop _ ?_
    unfold drainMark
    dsimp only
    split <;> exact hs

/-- The steps of `asr_out_task`. -/
theorem outStep_turnQueue (hs : s.TurnQueue cfg) (h : outStep cfg s e = some s') :
    s'.TurnQueue cfg := by
  cases hpc : s.out.pc <;> simp only [outStep, hpc] at h
  case ended => cases h
  case top =>
    cases h
    unfold outTop
    repeat' split
    all_goals exact hs
  case deadlineCancel | deadlineSend => split at h <;> cases h <;> exact hs
  case getPartial =>
    cases h
    unfold outPartial
    repeat' split
    all_goals exact hs
  case decide =>
    cases h
    unfold outDecide
    dsimp only
    repeat' split
    all_goals exact hs
  case fired =>
    cases h
    unfold outFired
    split
    · split <;> exact hs
    · exact hs
  case prepared =>
    cases h
    unfold outPrepared
    repeat' split
    all_goals exact hs
  case finalize wait =>
    split at h <;> cases h
    exact turnQueue_outFinalize hs wait _
  case finalizeCancel =>
    cases h
    exact turnQueue_outNotAccepted hs _
  case enrich | speakerTest => cases h; split <;> exact hs
  case finalSend =>
    cases h
    unfold outFinalSent
    dsimp only
    repeat' split
    case h_2.isFalse =>
      exact TurnQueue.of_suffix hs (q := { s.pend with draining := true }) List.suffix_rfl rfl rfl
    all_goals exact hs
  case drainOpen =>
    split at h <;> cases h
    · exact hs
    · exact turnQueue_drainFailed hs
  case drainNext =>
    cases h
    exact turnQueue_drainNext hs
  case drainFeed =>
    split at h <;> cases h
    · exact hs
    · exact turnQueue_drainFailed hs
  case drainFailCancel =>
    cases h
    exact TurnQueue.clear hs
  case loopEnd => split at h <;> cases h <;> exact hs
  all_goals
    cases h
    exact hs

/-- **The step lemma.** -/
theorem step_turnQueue {a : Act α} (hs : s.TurnQueue cfg) (h : step cfg s a = some s') :
    s'.TurnQueue cfg := by
  cases a <;> simp only [step] at h <;> split at h
  all_goals try cases h; done
  case receive msg _ => exact receive_turnQueue hs h
  case disp e _ => exact dispStep_turnQueue hs h
  case out e _ => exact outStep_turnQueue hs h
  case dispCall ok _ =>
    unfold dispCall at h
    repeat' split at h
    all_goals cases h
    all_goals exact TurnQueue.stay hs (by simp [*, DispPc.live]) (by simp [*, DispPc.live]) rfl
  case outCall ok _ =>
    unfold outCall at h
    repeat' split at h
    all_goals cases h <;> exact hs
  case cancelOut e _ =>
    unfold cancelOut at h
    split at h
    · cases h
    · split at h <;> cases h <;> exact hs
    · cases h
      exact turnQueue_outCancelled hs
    · cases h
      exact hs
  case teardown =>
    cases h
    exact TurnQueue.clear hs
  case dispFails =>
    split at h <;> cases h
    exact TurnQueue.die hs rfl
  case finalizeTimeout | finalizeEnds | cancelEnds | prepareEnds =>
    split at h <;> cases h
    exact hs

/-- An accepted connection. -/
theorem turnQueue_start : (State.start : State α).TurnQueue cfg :=
  ⟨by simp [State.start, PendingAudio.start], by simp [State.start, PendingAudio.start],
    by simp [State.start, PendingAudio.start],
    fun _ => ⟨false, rfl, by simp [State.start, PendingAudio.start, openTurn]⟩, fun _ => rfl,
    by simp [State.start, DispPc.live], by simp [State.start], fun _ => rfl⟩

/-- **The run lemma.** -/
theorem run_turnQueue {as : List (Act α)} (hrun : (machine cfg).run as = some s) :
    s.TurnQueue cfg :=
  (machine cfg).invariant_of_step turnQueue_start (fun _ _ _ hs h => step_turnQueue hs h) hrun

end Asr
end V2v
end OpenVoiceStream
