import OpenVoiceStream.V2v.Asr.TurnQueue

/-!
# What the queued turns have heard

The history says what a queued turn is made of: the tail it began with, and every
segment from its speech-start to its speech-end.  A turn in the queue holds exactly that,
whether it is still being spoken or not.

## Main definitions

* `speaking` — the queued turn that is being spoken.
* `heard` — the samples of a queued turn, in arrival order.
* `Heard` — the invariant.

## Main results

* `step_heard`, `run_heard` — the invariant along every run.
-/

namespace OpenVoiceStream
namespace V2v
namespace Asr

open PendingAudio

variable {α : Type}

/-- The queued turn that is being spoken: no speech event has come in since its
speech-start. -/
def speaking : List (Event α) → Option ℕ
  | [] => none
  | .queued turn _ _ :: _ => some turn
  | .arrived segment :: trace => if segment.event = none then speaking trace else none
  | _ :: trace => speaking trace

/-- The samples of a queued turn: its tail and its speech-start segment, and every segment
since, up to and including the one with the speech-end. -/
def heard (t : ℕ) : List (Event α) → List α
  | [] => []
  | .queued turn tail start :: trace => if turn = t then tail.flatten ++ start else heard t trace
  | .arrived segment :: trace =>
    if speaking trace = some t then heard t trace ++ segment.samples else heard t trace
  | _ :: trace => heard t trace

/-- The dispatcher handles a speech-start. -/
def DispPc.starts : DispPc → Bool
  | .pendingStart | .liveStart | .openTurn | .openFailed | .replay => true
  | _ => false

section Heard

variable {now now' : Option ℕ} {content content' : ℕ → List α} {vad inSpeech : Bool}
  {p q : PendingAudio α} {d d' : Disp α} {limit : ℤ} {samples : List α} {t : ℕ}

/-- The invariant, while the turn `now` is being spoken and turn `t` has heard `content t`. -/
structure Heard (now : Option ℕ) (content : ℕ → List α) (p : PendingAudio α) (d : Disp α)
    (inSpeech : Bool) : Prop where
  segments : ∀ t ∈ p.turns, (p.turn t).segments.flatten = content t
  ended : ∀ t ∈ p.turns, (p.turn t).ended = true → now ≠ some t
  unended : ∀ t ∈ p.turns, (p.turn t).ended = false → now = some t
  known : ∀ t ∈ now, t < p.fresh
  /-- The turn that is being spoken ends before anything else starts. -/
  alternates : now.isSome → d.pc ≠ .ended → Alternates true d.upcoming inSpeech
  starts : d.pc.starts → now = none

/-- Turns leave the queue. -/
theorem Heard.of_sublist (h : Heard now content p d inSpeech)
    (hturns : ∀ t ∈ q.turns, t ∈ p.turns) (hturn : q.turn = p.turn) (hfresh : q.fresh = p.fresh) :
    Heard now content q d inSpeech :=
  ⟨fun t ht => hturn ▸ h.segments t (hturns t ht), fun t ht => hturn ▸ h.ended t (hturns t ht),
    fun t ht => hturn ▸ h.unended t (hturns t ht), hfresh ▸ h.known, h.alternates, h.starts⟩

theorem Heard.clear (h : Heard now content p d inSpeech) : Heard now content p.clear d inSpeech :=
  h.of_sublist (by simp [PendingAudio.clear]) rfl rfl

/-- The dispatcher moves on. -/
theorem Heard.follow (h : Heard now content p d inSpeech)
    (halternates : now.isSome → d'.pc ≠ .ended → Alternates true d'.upcoming inSpeech)
    (hstarts : d'.pc.starts → now = none) : Heard now content p d' inSpeech :=
  ⟨h.segments, h.ended, h.unended, h.known, halternates, hstarts⟩

/-- The dispatcher goes on with its segment. -/
theorem Heard.stay (h : Heard now content p d inSpeech) (hended : d.pc ≠ .ended)
    (hup : d'.upcoming = d.upcoming) (hstarts : d'.pc.starts → d.pc.starts) :
    Heard now content p d' inSpeech :=
  h.follow (fun hn _ => hup ▸ h.alternates hn hended) fun hs => h.starts (hstarts hs)

/-- The dispatcher dies. -/
theorem Heard.die (h : Heard now content p d inSpeech) (hpc : d'.pc = .ended) :
    Heard now content p d' inSpeech :=
  h.follow (fun _ he => absurd hpc he) (by simp [hpc, DispPc.starts])

theorem not_starts_next (d : Disp α) : ¬ d.next.pc.starts := by
  cases hrest : d.rest <;> simp [Disp.next, hrest, DispPc.starts]

/-- The dispatcher is done with its segment. -/
theorem Heard.next (h : Heard now content p d inSpeech) (hended : d.pc ≠ .ended)
    (hup : d.upcoming = d.rest) : Heard now content p d.next inSpeech :=
  h.stay hended (by rw [upcoming_next, hup]) fun hs => absurd hs (not_starts_next d)

/-- A block is admitted. -/
theorem Heard.admit {flips : List ℤ} {block : List α} (h : Heard now content p d inSpeech)
    (hended : d.pc ≠ .ended) (hup : d.upcoming = []) :
    Heard now content p
      { d with rest := splitVadBlock block (processEvents inSpeech flips) : Disp α }.next
      (inSpeechAfter inSpeech flips) := by
  refine ⟨h.segments, h.ended, h.unended, h.known, fun hn _ => ?_,
    fun hs => absurd hs (not_starts_next _)⟩
  have halt := h.alternates hn hended
  rw [hup] at halt
  obtain rfl : true = inSpeech := halt
  rw [upcoming_next]
  exact alternates_splitVadBlock block true flips

/-- What is being spoken after a segment. -/
def nowAfter (now : Option ℕ) (segment : Segment α) : Option ℕ :=
  if segment.event = none then now else none

/-- What a turn has heard after a segment. -/
def contentAfter (now : Option ℕ) (content : ℕ → List α) (segment : Segment α) (t : ℕ) : List α :=
  if now = some t then content t ++ segment.samples else content t

theorem nowAfter_ne (h : now ≠ some t) (segment : Segment α) : nowAfter now segment ≠ some t := by
  unfold nowAfter
  split
  · exact h
  · simp

theorem contentAfter_of_ne (h : now ≠ some t) (segment : Segment α) :
    contentAfter now content segment t = content t := if_neg h

/-- The rest of the segments alternates as before. -/
theorem Heard.alternates_rest (h : Heard now content p d inSpeech)
    (hup : d.upcoming = d.current :: d.rest) (hended : d.pc ≠ .ended)
    (hnow : (nowAfter now d.current).isSome) : Alternates true d.rest inSpeech := by
  unfold nowAfter at hnow
  split at hnow
  case isFalse => cases hnow
  case isTrue hevent =>
    have halt := h.alternates hnow hended
    rw [hup] at halt
    simpa only [Alternates, hevent] using halt

/-- No speech-start comes in while a turn is being spoken. -/
theorem Heard.event_ne_start (h : Heard now content p d inSpeech)
    (hup : d.upcoming = d.current :: d.rest) (hended : d.pc ≠ .ended) (hnow : now.isSome) :
    d.current.event ≠ some .speechStart := by
  intro hevent
  have halt := h.alternates hnow hended
  rw [hup] at halt
  simp only [Alternates, hevent] at halt
  cases halt.1

/-- A segment comes in while every queued turn has ended. -/
theorem Heard.arrive (h : Heard now content p d inSpeech)
    (hall : ∀ t ∈ p.turns, (p.turn t).ended = true) (hturns : q.turns = p.turns)
    (hturn : q.turn = p.turn) (hfresh : q.fresh = p.fresh)
    (halternates : (nowAfter now d.current).isSome → d'.pc ≠ .ended →
      Alternates true d'.upcoming inSpeech)
    (hstarts : d'.pc.starts → nowAfter now d.current = none) :
    Heard (nowAfter now d.current) (contentAfter now content d.current) q d' inSpeech := by
  refine ⟨fun t ht => ?_, fun t ht _ => ?_, fun t ht hnot => ?_, fun t ht => ?_, halternates, hstarts⟩
  · rw [hturns] at ht
    rw [hturn, contentAfter_of_ne (h.ended t ht (hall t ht)), h.segments t ht]
  · rw [hturns] at ht
    exact nowAfter_ne (h.ended t ht (hall t ht)) _
  · rw [hturns] at ht
    rw [hturn, hall t ht] at hnot
    cases hnot
  · rw [hfresh]
    by_contra hlt
    refine nowAfter_ne (fun hnow => hlt (h.known t hnow)) d.current ht

/-- A segment inside the turn that is being spoken goes to that turn. -/
theorem Heard.continueTurn (h : Heard now content p d inSpeech)
    (hup : d.upcoming = d.current :: d.rest) (hended : d.pc ≠ .ended)
    (hevent : d.current.event = none) (hopen : p.openTurn = some t)
    (hq : p.appendTurn limit d.current.samples = some q) :
    Heard (nowAfter now d.current) (contentAfter now content d.current) q d.next inSpeech := by
  obtain ⟨hturns, hfresh, _, hflags⟩ := appendTurn_queue hq
  obtain ⟨hgrown, hother⟩ := appendTurn_open hq hopen
  obtain ⟨u, hlast, hnot⟩ := openTurn_isSome_iff.mp (by rw [hopen]; rfl)
  obtain rfl : u = t := by simpa [openTurn, hlast, hnot, Option.filter] using hopen
  have hnow : now = some u := h.unended u (List.mem_of_getLast? hlast) hnot
  have hafter : nowAfter now d.current = now := by simp [nowAfter, hevent]
  refine ⟨fun v hv => ?_, fun v hv => ?_, fun v hv => ?_, ?_, fun hn _ => ?_,
    fun hs => absurd hs (not_starts_next d)⟩
  · rw [hturns] at hv
    by_cases hvu : v = u
    · rw [hvu, hgrown, contentAfter, if_pos hnow, ← h.segments u (hvu ▸ hv)]
    · have hne : now ≠ some v := by
        rw [hnow]
        simpa using Ne.symm hvu
      rw [hother v hvu, contentAfter_of_ne hne, h.segments v hv]
  · rw [hafter, (hflags v).1]
    exact h.ended v (hturns ▸ hv)
  · rw [hafter, (hflags v).1]
    exact h.unended v (hturns ▸ hv)
  · rw [hafter, hfresh]
    exact h.known
  · rw [upcoming_next]
    exact h.alternates_rest hup hended hn

/-- The segment with the speech-end is the last of its turn. -/
theorem Heard.endTurn (h : Heard now content p d inSpeech)
    (hqueue : TurnQueue vad p d inSpeech) (hevent : d.current.event = some .speechEnd)
    (hopen : p.openTurn = some t) (hq : p.appendTurn limit d.current.samples = some q)
    (hpc : ¬ d'.pc.starts) :
    Heard (nowAfter now d.current) (contentAfter now content d.current) q.markEnd d' inSpeech := by
  obtain ⟨hturns, hfresh, _, hflags⟩ := appendTurn_queue hq
  obtain ⟨hgrown, hother⟩ := appendTurn_open hq hopen
  obtain ⟨u, hlast, hnot⟩ := openTurn_isSome_iff.mp (by rw [hopen]; rfl)
  obtain rfl : u = t := by simpa [openTurn, hlast, hnot, Option.filter] using hopen
  have hnow : now = some u := h.unended u (List.mem_of_getLast? hlast) hnot
  have hafter : nowAfter now d.current = none := by simp [nowAfter, hevent]
  obtain ⟨hmark, hclosed⟩ := (hqueue.appendTurn hq).markEnd
  rw [hafter]
  refine ⟨fun v hv => ?_, by simp, fun v hv hv' => ?_, by simp, by simp, fun hs => absurd hs hpc⟩
  · rw [(markEnd_queue q).1, hturns] at hv
    rw [markEnd_segments]
    by_cases hvu : v = u
    · rw [hvu, hgrown, contentAfter, if_pos hnow, ← h.segments u (hvu ▸ hv)]
    · have hne : now ≠ some v := by
        rw [hnow]
        simpa using Ne.symm hvu
      rw [hother v hvu, contentAfter_of_ne hne, h.segments v hv]
  · rw [hmark.all_ended hclosed v hv] at hv'
    cases hv'

/-- A new turn begins with the tail and the segment of its speech-start. -/
theorem Heard.startTurn (h : Heard now content p d inSpeech)
    (hqueue : TurnQueue vad p d inSpeech) (hpc : d.pc = .pendingStart)
    (hq : p.newTurn limit samples = some q) :
    Heard (some p.fresh)
      (fun t => if p.fresh = t then p.tail.flatten ++ samples else content t) q d.next
      inSpeech := by
  obtain ⟨hturns, hfresh, _, _, hended, hold⟩ := newTurn_queue hq
  have hnone : now = none := h.starts (by simp [hpc, DispPc.starts])
  have hne : ∀ t ∈ p.turns, p.fresh ≠ t := fun t ht => Nat.ne_of_gt (hqueue.fresh t ht)
  have hall : ∀ t ∈ p.turns, (p.turn t).ended = true := by
    intro t ht
    by_contra hnot
    have := h.unended t ht (by simpa using hnot)
    rw [hnone] at this
    cases this
  refine ⟨fun t ht => ?_, fun t ht => ?_, fun t ht hnot => ?_, ?_, fun _ _ => ?_,
    fun hs => absurd hs (not_starts_next d)⟩
  · rw [hturns] at ht
    rcases List.mem_append.mp ht with ht | ht
    · rw [if_neg (hne t ht), hold t (hne t ht).symm, h.segments t ht]
    · obtain rfl := List.mem_singleton.mp ht
      rw [if_pos rfl, newTurn_segments hq]
  · rw [hturns] at ht
    rcases List.mem_append.mp ht with ht | ht
    · intro _
      simpa using hne t ht
    · obtain rfl := List.mem_singleton.mp ht
      simp [hended]
  · rw [hturns] at ht
    rcases List.mem_append.mp ht with ht | ht
    · rw [hold t (hne t ht).symm, hall t ht] at hnot
      cases hnot
    · rw [List.mem_singleton.mp ht]
  · simp [hfresh]
  · obtain ⟨b, halt, _⟩ := hqueue.spoken (by simp [hpc])
    have hup : d.upcoming = d.current :: d.rest := by simp [Disp.upcoming, hpc]
    rw [hup] at halt
    simp only [Alternates, (hqueue.start hpc).2] at halt
    rw [upcoming_next]
    exact halt.2

end Heard

/-! ### Steps -/

variable {cfg : Cfg} {s s' : State α} {e : Env}

/-- The invariant of a state. -/
def State.Heard (s : State α) : Prop :=
  Asr.Heard (speaking s.trace) (fun t => heard t s.trace) s.pend s.disp s.inSpeech

theorem heard_admitAudio (hs : s.Heard) (hframe : s.disp.pc.atFrame) (hrest : s.disp.rest = []) :
    (admitAudio cfg s).Heard := by
  have hended : s.disp.pc ≠ .ended := by
    rintro hpc
    simp [hpc, DispPc.atFrame] at hframe
  have hup : s.disp.upcoming = [] := by
    cases hpc : s.disp.pc <;> simp_all [DispPc.atFrame, Disp.upcoming]
  have hrecv : State.Heard { s with disp.pc := .recv } :=
    Heard.stay hs hended (by rw [hup]; exact hrest) (by simp [DispPc.starts])
  unfold admitAudio
  split
  · exact hrecv
  split
  · exact hrecv
  exact Heard.admit hs hended hup

theorem heard_dispSegment (hs : s.Heard) (hqueue : s.TurnQueue cfg) (hpc : s.disp.pc = .segment) :
    (dispSegment cfg s).Heard := by
  have hup : s.disp.upcoming = s.disp.current :: s.disp.rest := by simp [Disp.upcoming, hpc]
  have he : s.disp.pc ≠ .ended := by simp [hpc]
  have hrest := fun hn => Heard.alternates_rest hs hup he hn
  have hstart : s.disp.current.event = some .speechStart →
      nowAfter (speaking s.trace) s.disp.current = none := fun hevent => by simp [nowAfter, hevent]
  -- an overflow drops the whole queue
  have hreject : ∀ reason, State.Heard
      (State.rejectPending { s with trace := .arrived s.disp.current :: s.trace } reason) := by
    intro reason
    exact (Heard.clear hs).arrive (by simp [PendingAudio.clear]) rfl rfl rfl (fun hn _ => hrest hn)
      (by simp [State.rejectPending, DispPc.starts])
  unfold dispSegment
  dsimp only
  split
  case isTrue hblocked =>
    split
    · rename_i hevent
      have hopen : s.pend.openTurn = none := by
        obtain ⟨b, halt, hb⟩ := hqueue.spoken he
        rw [hup] at halt
        simp only [Alternates, hevent] at halt
        obtain ⟨rfl, _⟩ := halt
        cases hopen : s.pend.openTurn with
        | none => rfl
        | some t => cases hb (by simp [hopen])
      exact Heard.arrive hs (hqueue.all_ended hopen) rfl rfl rfl
        (fun hn => by simp [hstart hevent] at hn) fun _ => hstart hevent
    rename_i hstart'
    split
    · rename_i hopen
      obtain ⟨t, ht⟩ := Option.isSome_iff_exists.mp hopen
      split
      · exact hreject _
      · rename_i hq
        split
        · rename_i hevent
          exact Heard.endTurn hs hqueue hevent ht hq (by simp [DispPc.starts])
        · rename_i hend
          have hevent : s.disp.current.event = none := by
            cases hev : s.disp.current.event with
            | none => rfl
            | some ev => cases ev <;> simp_all
          exact Heard.continueTurn hs hup he hevent ht hq
    · rename_i hopen
      have hopen' : s.pend.openTurn = none := by simpa using hopen
      split
      · exact hreject _
      · rename_i hq
        obtain ⟨hturns, hturn, hfresh, _⟩ := appendTail_queue hq
        split
        · exact Heard.arrive hs (hqueue.all_ended hopen') hturns hturn hfresh
            (fun hn _ => hrest hn) (by simp [DispPc.starts])
        · refine Heard.arrive hs (hqueue.all_ended hopen') hturns hturn hfresh (fun hn _ => ?_)
            fun hs => absurd hs (not_starts_next _)
          show Alternates true s.disp.next.upcoming s.inSpeech
          rw [upcoming_next]
          exact hrest hn
  case isFalse hfree =>
    have hnil : s.pend.turns = [] := hqueue.turns_eq_nil hfree
    split
    · rename_i hevent
      exact Heard.arrive hs (by simp [hnil]) rfl rfl rfl (fun hn _ => hrest hn)
        fun _ => hstart hevent
    · exact Heard.arrive hs (by simp [hnil]) rfl rfl rfl (fun hn _ => hrest hn)
        (by simp [DispPc.starts])

theorem heard_dispPendingStart (hs : s.Heard) (hqueue : s.TurnQueue cfg)
    (hpc : s.disp.pc = .pendingStart) : (dispPendingStart cfg s).Heard := by
  unfold dispPendingStart
  split
  · have hnone : speaking s.trace = none := hs.starts (by simp [hpc, DispPc.starts])
    refine Heard.follow (Heard.clear hs) (fun hn => ?_) fun _ => hnone
    rw [Option.isSome_iff_exists] at hn
    obtain ⟨t, ht⟩ := hn
    cases hnone.symm.trans ht
  · rename_i hq
    exact Heard.startTurn hs hqueue hpc hq

/-- The dispatcher's steps. -/
theorem dispStep_heard (hs : s.Heard) (hqueue : s.TurnQueue cfg) (h : dispStep cfg s e = some s') :
    s'.Heard := by
  cases hpc : s.disp.pc <;> simp only [dispStep, hpc] at h
  case recv => cases h
  case ended => cases h
  all_goals
    have he : s.disp.pc ≠ .ended := by simp [hpc]
  case segment =>
    cases h
    exact heard_dispSegment hs hqueue hpc
  case pendingStart =>
    cases h
    exact heard_dispPendingStart (s := s.send e _) hs hqueue hpc
  case joinCancel =>
    have hframe : s.disp.pc.atFrame := by simp [hpc, DispPc.atFrame]
    split at h
    · split at h <;> cases h
      exact heard_admitAudio (s := { s with asrCancelTask := none }) hs hframe (hqueue.atFrame hframe)
    · cases h
      exact Heard.stay hs he (by simp [Disp.upcoming, hpc]) (by simp [DispPc.starts])
  case joinFailed =>
    cases h
    exact Heard.stay hs he (by simp [Disp.upcoming, hpc, State.send]) (by simp [DispPc.starts])
  all_goals
    have hup : s.disp.upcoming = s.disp.rest := by simp [Disp.upcoming, hpc]
  case pendingEnd | rejecting | openFailed | lazyFailed =>
    cases h
    exact Heard.next (d := s.disp) hs he hup
  case liveStart =>
    cases h
    unfold dispLiveStart
    repeat' split
    · exact Heard.next (d := s.disp) hs he hup
    · exact Heard.stay hs he hup.symm (by simp [DispPc.starts])
    · exact Heard.stay hs he hup.symm (by simp [hpc, DispPc.starts])
  case openTurn =>
    split at h <;> cases h
    · unfold dispOpened
      dsimp only
      split <;> exact Heard.stay hs he hup.symm (by simp [hpc, DispPc.starts])
    · exact Heard.stay hs he hup.symm (by simp [hpc, DispPc.starts])
  case lazyTest =>
    cases h
    unfold dispLazyTest
    split <;> exact Heard.stay hs he hup.symm (by simp [DispPc.starts])
  case latch =>
    cases h
    unfold dispLatch
    repeat' split
    all_goals exact Heard.stay hs he hup.symm (by simp [DispPc.starts])
  case ring =>
    cases h
    unfold dispRing
    split <;> exact Heard.next (d := s.disp) hs he hup
  case latched =>
    cases h
    exact Heard.stay hs he hup.symm (by simp [DispPc.starts])
  case lazyOpen | feedTest =>
    split at h <;> cases h <;> exact Heard.stay hs he hup.symm (by simp [DispPc.starts])
  case replay | feed =>
    split at h <;> cases h
    · exact Heard.stay hs he hup.symm (by simp [DispPc.starts])
    · exact Heard.die hs rfl

/-- Frames of the client. -/
theorem receive_heard {msg : Msg α} (hs : s.Heard) (hqueue : s.TurnQueue cfg)
    (h : receive cfg s msg = some s') : s'.Heard := by
  unfold receive at h
  split at h <;> cases h
  rename_i hpc
  have he : s.disp.pc ≠ .ended := by simp [hpc]
  have hrest : s.disp.rest = [] := hqueue.atFrame (by simp [hpc, DispPc.atFrame])
  split
  · exact Heard.die hs rfl
  cases msg with
  | audio samples flips =>
    show (receiveAudio cfg s samples flips).Heard
    unfold receiveAudio
    split
    · exact Heard.stay hs he (by simp [hpc, Disp.upcoming]) (by simp [DispPc.starts])
    · exact heard_admitAudio
        (s := { s with asrCancelTask := none, disp.block := (samples, flips) })
        (Heard.stay hs he (by simp [hpc, Disp.upcoming]) (by simp [hpc, DispPc.starts]))
        (by simp [hpc, DispPc.atFrame]) hrest
  | abort keepAsr =>
    simp only [receiveMsg]
    split
    · exact hs
    · rw [abortAsr_eq]
      exact Heard.clear hs
  | disconnect => exact Heard.die hs rfl
  | asrEos | asrPrepare | other => exact hs

/-! `asr_out_task` only takes turns off the queue. -/

theorem heard_outNotAccepted (hs : s.Heard) (failure : Option String) :
    (outNotAccepted s e failure).Heard := by
  unfold outNotAccepted
  dsimp only
  repeat' split
  all_goals exact Heard.clear hs

theorem heard_outCancelled (hs : s.Heard) : (outCancelled s e).Heard := by
  unfold outCancelled
  split
  · exact heard_outNotAccepted (s := { s with asrAbortRequested := false }) hs none
  · exact hs

theorem heard_outAccepted (hs : s.Heard) (text : String) (language : Option String) :
    (outAccepted cfg s text language).Heard := by
  unfold outAccepted State.movePendingTailToPreroll
  dsimp only
  repeat' split
  all_goals first
    | exact hs
    | exact Heard.of_sublist (q := s.pend.dropTail) hs (fun _ ht => ht) rfl rfl

theorem heard_outFinalize (hs : s.Heard) (wait : Wait) (outcome : Outcome) :
    (outFinalize cfg s e wait outcome).Heard := by
  unfold outFinalize
  split
  · exact heard_outCancelled hs
  · exact heard_outCancelled hs
  · exact heard_outAccepted hs _ _
  · exact heard_outNotAccepted hs _
  all_goals exact hs

theorem heard_drainFailed (hs : s.Heard) : (drainFailed s).Heard := by
  unfold drainFailed
  split
  · exact hs
  · exact Heard.clear hs

theorem heard_drainPop (hs : s.Heard) : (drainPop s).Heard := by
  unfold drainPop
  split
  · exact heard_drainFailed (s := { s with trace := .popped none s.out.turn :: s.trace }) hs
  · rename_i pend hpend
    obtain ⟨⟨u, hturns⟩, hturn, hfresh, _⟩ := popTurn_queue hpend
    exact Heard.of_sublist (q := pend) hs
      (fun t ht => by rw [hturns]; exact List.mem_cons_of_mem u ht) hturn hfresh

theorem heard_drainNext (hs : s.Heard) : (drainNext s).Heard := by
  unfold drainNext
  split
  · split <;> exact hs
  · refine heard_drainPop ?_
    unfold drainMark
    dsimp only
    split <;> exact hs

theorem heard_outDecide (hs : s.Heard) : (outDecide cfg s).Heard := by
  obtain ⟨t, ht, hts⟩ : ∃ t, (if staleEndpoint s then s.clearEndpoint else s) = t ∧ t.Heard := by
    refine ⟨_, rfl, ?_⟩
    split <;> exact hs
  unfold outDecide
  rw [ht]
  dsimp only
  split
  · by_cases hobs : (t.out.isEndpoint && t.asrActive) = true
    · simp only [hobs, if_true]
      exact hts
    · simp only [hobs, Bool.false_eq_true, if_false]
      exact hts
  · exact hts

/-- The steps of `asr_out_task`. -/
theorem outStep_heard (hs : s.Heard) (h : outStep cfg s e = some s') : s'.Heard := by
  cases hpc : s.out.pc <;> simp only [outStep, hpc] at h
  case ended => cases h
  case top =>
    cases h
    unfold outTop
    repeat' split
    all_goals exact hs
  case deadlineCancel | deadlineSend => split at h <;> cases h <;> exact hs
  case getPartial =>
    cases h
    unfold outPartial
    repeat' split
    all_goals exact hs
  case decide =>
    cases h
    exact heard_outDecide hs
  case fired =>
    cases h
    unfold outFired
    split
    · split <;> exact hs
    · exact hs
  case prepared =>
    cases h
    unfold outPrepared
    repeat' split
    all_goals exact hs
  case finalize wait =>
    split at h <;> cases h
    exact heard_outFinalize hs wait _
  case finalizeCancel =>
    cases h
    exact heard_outNotAccepted hs _
  case enrich | speakerTest => cases h; split <;> exact hs
  case finalSend =>
    cases h
    unfold outFinalSent
    dsimp only
    repeat' split
    case h_2.isFalse =>
      exact Heard.of_sublist (q := { s.pend with draining := true }) hs (fun _ ht => ht) rfl rfl
    all_goals exact hs
  case drainOpen =>
    split at h <;> cases h
    · exact hs
    · exact heard_drainFailed hs
  case drainNext =>
    cases h
    exact heard_drainNext hs
  case drainFeed =>
    split at h <;> cases h
    · exact hs
    · exact heard_drainFailed hs
  case drainFailCancel =>
    cases h
    exact Heard.clear hs
  case loopEnd => split at h <;> cases h <;> exact hs
  all_goals
    cases h
    exact hs

/-- **The step lemma.** -/
theorem step_heard {a : Act α} (hs : s.Heard) (hqueue : s.TurnQueue cfg)
    (h : step cfg s a = some s') : s'.Heard := by
  cases a <;> simp only [step] at h <;> split at h
  all_goals try cases h; done
  case receive msg _ => exact receive_heard hs hqueue h
  case disp e _ => exact dispStep_heard hs hqueue h
  case out e _ => exact outStep_heard hs h
  case dispCall ok _ =>
    unfold dispCall at h
    repeat' split at h
    all_goals cases h
    all_goals
      refine Heard.stay hs (by simp [*]) ?_ (by simp [*, DispPc.starts])
      simp [Disp.upcoming, *]
  case outCall ok _ =>
    unfold outCall at h
    repeat' split at h
    all_goals cases h <;> exact hs
  case cancelOut e _ =>
    unfold cancelOut at h
    split at h
    · cases h
    · split at h <;> cases h <;> exact hs
    · cases h
      exact heard_outCancelled hs
    · cases h
      exact hs
  case teardown =>
    cases h
    exact Heard.clear hs
  case dispFails =>
    split at h <;> cases h
    exact Heard.die hs rfl
  case finalizeTimeout | finalizeEnds | cancelEnds | prepareEnds =>
    split at h <;> cases h
    exact hs

/-- An accepted connection. -/
theorem heard_start : (State.start : State α).Heard :=
  ⟨by simp [State.start, PendingAudio.start], by simp [State.start, PendingAudio.start],
    by simp [State.start, PendingAudio.start], by simp [State.start, speaking],
    by simp [State.start, speaking], fun _ => rfl⟩

/-- **The run lemma.** -/
theorem run_heard {as : List (Act α)} (hrun : (machine cfg).run as = some s) : s.Heard :=
  ((machine cfg).invariant_of_step (P := fun s => s.Heard ∧ s.TurnQueue cfg)
    ⟨heard_start, turnQueue_start⟩
    (fun _ _ _ hs h => ⟨step_heard hs.1 hs.2 h, step_turnQueue hs.2 h⟩) hrun).1

end Asr
end V2v
end OpenVoiceStream
