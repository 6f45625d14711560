import OpenVoiceStream.V2v.Asr.Intake

/-!
# The audio a speaker embedding is computed over

With speaker embedding on, the dispatcher keeps a copy of every array it feeds to the
session manager in `spk_seg`, and counts the samples in `diar_samples`.  A final embeds
whatever the buffer holds after the punctuation of its text, and the payload of the final
empties it.  Nothing else does, and no entry of the buffer says which generation it was
accepted for.

So the buffer is right as long as it is empty whenever a generation begins.  An abort, a
turn deadline, a finalize that was not accepted and a speech-start that preempts a stream
leave the audio of a generation that gets no final.  Speech that comes in between the
finalize and the payload mixes into the embedding or is wiped with it.  And what the drain
feeds of a queued turn is neither kept nor counted.

## Main definitions

* `acceptedOf`, `acceptedTotal` — what the manager has accepted.
* `Disp.taking` — what it has accepted and the dispatcher has not counted yet.
* `State.SpeakerExact` — the embedding and the counter agree with the manager.
* `mixesAudio`, `missesAudio`, `KeepsApart` — the guard.
* `Buffered` — the invariant of the buffer.

## Main results

* `step_counted`, `step_buffered` — one step of the connection.
* `speaker_audio_exact` — every run that meets the guard.
-/

namespace OpenVoiceStream
namespace V2v
namespace Asr

variable {α : Type}

/-- The samples accepted for the generation a final is for. -/
def acceptedOf (gen : Option ℕ) (trace : List (Event α)) : List α :=
  match gen with
  | some gen => accepted gen trace
  | none => []

/-- The number of samples accepted in the session. -/
def acceptedTotal : List (Event α) → ℕ
  | [] => 0
  | .accepted _ samples :: trace => acceptedTotal trace + samples.length
  | _ :: trace => acceptedTotal trace

/-- What the dispatcher hands to `accept_audio`. -/
def Disp.offered (d : Disp α) : List α :=
  match d.pc with
  | .replay => d.pre
  | .feed => d.current.samples
  | _ => []

/-- What the manager has accepted from the dispatcher, which has not run on since. -/
def Disp.taking (d : Disp α) : List α :=
  match d.pc, d.call with
  | .replay, .returned _ => d.pre
  | .feed, .returned _ => d.current.samples
  | _, _ => []

/-- The generation opened for the dispatcher, which has not run on since. -/
def Disp.granted (d : Disp α) : Option ℕ :=
  match d.pc, d.call with
  | .openTurn, .returned gen | .lazyOpen, .returned gen => some gen
  | _, _ => none

/-- The generation opened for the drain, which has not run on since. -/
def Out.granted (o : Out α) : Option ℕ :=
  match o.pc, o.call with
  | .drainOpen, .returned gen => some gen
  | _, _ => none

/-- The embedding of a final is computed over what was accepted for its generation, and
the counter is the total: what has been accepted is counted as soon as the dispatcher runs
on. -/
def State.SpeakerExact (s : State α) : Prop :=
  (s.out.pc = .speakerTest → s.spkSeg.flatten = acceptedOf s.out.firedGen s.trace) ∧
    s.diarSamples + s.disp.taking.length = acceptedTotal s.trace

/-- What `asr_out_task` holds on to. -/
inductive Hold
  | polling
  /-- An endpoint has fired. -/
  | fired (gen : Option ℕ)
  /-- The generation is finalized, or about to be. -/
  | finalizing (firedGen : Option ℕ) (gen : ℕ)
  /-- The drain feeds the generation. -/
  | feeding (gen : ℕ)
  /-- The text of the final is there, its payload is not. -/
  | enriching (gen : Option ℕ)

/-- What it holds at each point. -/
def Out.hold (o : Out α) : Hold :=
  match o.pc with
  | .sendEndpoint | .fired => .fired o.firedGen
  | .prepWait | .prepared | .finalize _ | .finalizeCancel => .finalizing o.firedGen o.gen
  | .enrich | .punct | .speakerTest | .speaker | .final => .enriching o.firedGen
  | .drainNext | .drainFeed => .feeding o.newGen
  | _ => .polling

/-- A final is being enriched: what the buffer holds is its own. -/
def Hold.enriches : Hold → Bool
  | .enriching _ => true
  | _ => false

/-- What the buffer holds for the active generation. -/
def Hold.own (hold : Hold) (buffer : List α) : List α :=
  match hold with
  | .enriching _ => []
  | _ => buffer

/-- Audio that has had no final: in the buffer, or on its way there. -/
def State.unanswered (s : State α) : List α :=
  s.out.hold.own s.spkSeg.flatten ++ s.disp.taking

/-- Some audio has had no final. -/
def State.holdsAudio (s : State α) : Bool := !s.unanswered.isEmpty

/-- A finalize ends and its generation gets no final, or not with all its audio. -/
def finalizeMixes (s : State α) (e : Env) (wait : Wait) (outcome : Outcome) : Bool :=
  match wait, outcome with
  | .cancelled, _ | .waiting, .cancelled =>
    s.asrAbortRequested && e.managerIdle && s.holdsAudio
  | _, .accepted _ _ =>
    if s.asrActiveGen = s.out.gen then !s.disp.taking.isEmpty else s.holdsAudio
  | _, .rejected => e.managerIdle && s.holdsAudio
  | _, _ => false

/-- The step puts audio of one generation with that of another: a generation ends without
a final, or another begins, while audio of it is in the buffer; or audio is accepted where
no generation is active, or while a final is enriched. -/
def mixesAudio (cfg : Cfg) (s : State α) : Act α → Bool
  | .receive (.abort keepAsr) => !s.clientClosed && !keepsAsr cfg s keepAsr && s.holdsAudio
  | .disp _ =>
    match s.disp.pc with
    | .openTurn | .lazyOpen => s.disp.granted.isSome && s.holdsAudio
    | .openFailed | .lazyFailed => s.holdsAudio
    | _ => false
  | .out e =>
    match s.out.pc with
    | .deadlineCancel => (e.ok || !cfg.restartWorker) && s.holdsAudio
    | .deadlineRestart | .drainFailCancel => s.holdsAudio
    | .finalize wait =>
      match s.asrFinalizeTask with
      | some (.ended outcome) => finalizeMixes s e wait outcome
      | _ => false
    | .finalizeCancel => e.managerIdle && s.holdsAudio
    | .drainOpen => s.out.granted.isSome && s.holdsAudio
    | _ => false
  | .dispCall ok =>
    ok && !s.disp.offered.isEmpty &&
      (s.out.hold.enriches || decide (s.stream ≠ some s.generation))
  | .cancelOut e =>
    match s.out.pc with
    | .finalize .waiting => false
    | .finalize _ => s.asrAbortRequested && e.managerIdle && s.holdsAudio
    | _ => false
  | _ => false

/-- The step leaves accepted audio out: the drain feeds a queued turn, or the dispatcher
ends before it counts. -/
def missesAudio (s : State α) : Act α → Bool
  | .outCall ok => ok && decide (s.out.pc = .drainFeed)
  | .dispFails => !s.disp.taking.isEmpty
  | _ => false

/-- The guard.  Where `asr_out_task` has ended, no final follows. -/
def KeepsApart (cfg : Cfg) (s : State α) (a : Act α) : Prop :=
  missesAudio s a = false ∧ (s.out.pc ≠ .ended → mixesAudio cfg s a = false)

instance (cfg : Cfg) (s : State α) (a : Act α) : Decidable (KeepsApart cfg s a) := by
  unfold KeepsApart; infer_instance

/-! ### The buffer -/

section Buffered

variable {taken : ℕ → List α} {latest g : ℕ} {stream marker marker' d o : Option ℕ}
  {buffer taking samples : List α} {hold : Hold}

/-- The generation is the active one, or it has taken in nothing. -/
def Current (taken : ℕ → List α) (stream : Option ℕ) (g : ℕ) : Prop :=
  stream = some g ∨ taken g = []

/-- What it relies on. -/
def Hold.Ok (taken : ℕ → List α) (stream : Option ℕ) (buffer taking : List α) : Hold → Prop
  | .polling => True
  | .fired gen => ∀ g, gen = some g → Current taken stream g
  | .finalizing firedGen gen => firedGen = some gen ∧ Current taken stream gen
  | .feeding gen => Current taken stream gen
  | .enriching gen => taking = [] ∧ buffer = gen.elim [] taken

/-- The invariant of the buffer, where the generations up to `latest` have been opened,
`stream` is the active one, and `d` and `o` are those the two tasks are about to take up. -/
structure Buffered (taken : ℕ → List α) (latest : ℕ) (stream marker d o : Option ℕ)
    (buffer taking : List α) (hold : Hold) : Prop where
  future : ∀ n, latest < n → taken n = []
  known : ∀ g, stream = some g → g ≤ latest
  fresh : ∀ g, d = some g ∨ o = some g → g ≤ latest ∧ taken g = [] ∧ stream ≠ some g
  apart : ∀ g, d = some g → o ≠ some g
  kept : ∀ g, stream = some g → taken g = hold.own buffer ++ taking
  empty : stream = none → hold.own buffer ++ taking = []
  marker : ∀ g, marker = some g → Current taken stream g
  hold : hold.Ok taken stream buffer taking

theorem own_of_not_enriches (h : hold.enriches = false) (buffer : List α) :
    hold.own buffer = buffer := by
  cases hold with
  | enriching gen => cases h
  | polling | fired gen | finalizing firedGen gen | feeding gen => rfl

/-- It may go on relying on that when every current generation stays current. -/
theorem Hold.Ok.mono {taken' : ℕ → List α} {stream' : Option ℕ} {taking' : List α}
    (h : hold.Ok taken stream buffer taking)
    (hcurrent : ∀ g, Current taken stream g → Current taken' stream' g)
    (henrich : hold.enriches = true → taking = [] → taking' = [] ∧ taken' = taken) :
    hold.Ok taken' stream' buffer taking' := by
  cases hold with
  | polling => trivial
  | fired gen => exact fun g hg => hcurrent g (h g hg)
  | finalizing firedGen gen => exact ⟨h.1, hcurrent gen h.2⟩
  | feeding gen => exact hcurrent gen h
  | enriching gen =>
    obtain ⟨htaking, htaken⟩ := henrich rfl h.1
    exact ⟨htaking, htaken ▸ h.2⟩

/-- `asr_out_task` moves on, and not from an enrichment. -/
theorem Buffered.goto (h : Buffered taken latest stream marker d o buffer taking hold)
    (hold' : Hold) (hwas : hold.enriches = false) (hnow : hold'.enriches = false)
    (hok : hold'.Ok taken stream buffer taking) :
    Buffered taken latest stream marker d o buffer taking hold' := by
  have hown : hold'.own buffer = hold.own buffer := by
    rw [own_of_not_enriches hwas, own_of_not_enriches hnow]
  exact ⟨h.future, h.known, h.fresh, h.apart, hown ▸ h.kept, hown ▸ h.empty, h.marker, hok⟩

/-- `asr_out_task` polls again. -/
theorem Buffered.poll (h : Buffered taken latest stream marker d o buffer taking hold)
    (hwas : hold.enriches = false) :
    Buffered taken latest stream marker d o buffer taking .polling :=
  h.goto .polling hwas rfl trivial

theorem Buffered.unmark (h : Buffered taken latest stream marker d o buffer taking hold) :
    Buffered taken latest stream none d o buffer taking hold :=
  ⟨h.future, h.known, h.fresh, h.apart, h.kept, h.empty, by simp, h.hold⟩

theorem Buffered.mark (h : Buffered taken latest stream marker d o buffer taking hold)
    (hg : ∀ g, marker' = some g → Current taken stream g) :
    Buffered taken latest stream marker' d o buffer taking hold :=
  ⟨h.future, h.known, h.fresh, h.apart, h.kept, h.empty, hg, h.hold⟩

/-- The end of the active generation is marked. -/
theorem Buffered.markStream (h : Buffered taken latest stream marker d o buffer taking hold) :
    Buffered taken latest stream stream d o buffer taking hold :=
  h.mark fun _ hg => .inl hg

/-- The dispatcher goes elsewhere, with nothing in transit. -/
theorem Buffered.leave (h : Buffered taken latest stream marker d o buffer taking hold)
    (htaking : taking = []) :
    Buffered taken latest stream marker none o buffer [] hold := by
  subst htaking
  exact ⟨h.future, h.known, fun g hg => h.fresh g (.inr (by simpa using hg)), by simp, h.kept,
    h.empty, h.marker, h.hold⟩

/-- What the manager has accepted is counted. -/
theorem Buffered.count (h : Buffered taken latest stream marker d o buffer taking hold) :
    Buffered taken latest stream marker none o (buffer ++ taking) [] hold := by
  have hown : hold.own (buffer ++ taking) ++ [] = hold.own buffer ++ taking := by
    cases hold with
    | enriching gen => simp [Hold.own, h.hold.1]
    | polling | fired gen | finalizing firedGen gen | feeding gen => simp [Hold.own]
  refine ⟨h.future, h.known, fun g hg => h.fresh g (.inr (by simpa using hg)), by simp,
    fun g hg => hown ▸ h.kept g hg, fun hnone => hown ▸ h.empty hnone, h.marker, ?_⟩
  cases hold with
  | enriching gen => exact ⟨rfl, by rw [h.hold.1, List.append_nil]; exact h.hold.2⟩
  | polling => trivial
  | fired gen | finalizing firedGen gen | feeding gen => exact h.hold

/-- No generation is active any more, and none has audio without a final. -/
theorem Buffered.close (h : Buffered taken latest stream marker d o buffer taking hold)
    (hempty : hold.own buffer ++ taking = []) :
    Buffered taken latest none marker d o buffer taking hold := by
  have hcurrent : ∀ g, Current taken stream g → Current taken none g := by
    rintro g (hg | hg)
    · exact .inr ((h.kept g hg).trans hempty)
    · exact .inr hg
  exact ⟨h.future, by simp, fun g hg => ⟨(h.fresh g hg).1, (h.fresh g hg).2.1, by simp⟩, h.apart,
    by simp, fun _ => hempty, fun g hg => hcurrent g (h.marker g hg),
    h.hold.mono hcurrent fun _ htaking => ⟨htaking, rfl⟩⟩

/-- A generation that was opened becomes the active one, over an empty buffer. -/
theorem Buffered.begin (h : Buffered taken latest stream marker d o buffer taking hold)
    (d' o' : Option ℕ)
    (hg : d = some g ∨ o = some g) (hempty : hold.own buffer ++ taking = [])
    (hrest : ∀ n, d' = some n ∨ o' = some n → (d = some n ∨ o = some n) ∧ n ≠ g)
    (hapart : ∀ n, d' = some n → o' ≠ some n) :
    Buffered taken latest (some g) marker d' o' buffer taking hold := by
  obtain ⟨hle, htaken, -⟩ := h.fresh g hg
  have hcurrent : ∀ n, Current taken stream n → Current taken (some g) n := by
    rintro n (hn | hn)
    · exact .inr ((h.kept n hn).trans hempty)
    · exact .inr hn
  refine ⟨h.future, ?_, fun n hn => ?_, hapart, ?_, by simp, fun n hn => hcurrent n (h.marker n hn),
    h.hold.mono hcurrent fun _ htaking => ⟨htaking, rfl⟩⟩
  · rintro n ⟨⟩
    exact hle
  · obtain ⟨hwas, hne⟩ := hrest n hn
    exact ⟨(h.fresh n hwas).1, (h.fresh n hwas).2.1, by simpa using Ne.symm hne⟩
  · rintro n ⟨⟩
    rw [htaken, hempty]

/-- The manager opens a generation for the dispatcher. -/
theorem Buffered.grantDisp (h : Buffered taken latest stream marker none o buffer taking hold) :
    Buffered taken (latest + 1) stream marker (some (latest + 1)) o buffer taking hold := by
  have hknown : ∀ n, stream = some n → n ≤ latest + 1 := fun n hn => Nat.le_succ_of_le (h.known n hn)
  refine ⟨fun n hn => h.future n (by omega), hknown, fun n hn => ?_, fun n hn ho => ?_, h.kept,
    h.empty, h.marker, h.hold⟩
  · rcases hn with hn | hn
    · obtain rfl : latest + 1 = n := by simpa using hn
      exact ⟨le_rfl, h.future _ (Nat.lt_succ_self _), fun hs => by have := h.known _ hs; omega⟩
    · obtain ⟨hle, htaken, hne⟩ := h.fresh n (.inr hn)
      exact ⟨Nat.le_succ_of_le hle, htaken, hne⟩
  · obtain rfl : latest + 1 = n := by simpa using hn
    have := (h.fresh _ (.inr ho)).1
    omega

/-- The manager opens a generation for the drain. -/
theorem Buffered.grantOut (h : Buffered taken latest stream marker d none buffer taking hold) :
    Buffered taken (latest + 1) stream marker d (some (latest + 1)) buffer taking hold := by
  have hknown : ∀ n, stream = some n → n ≤ latest + 1 := fun n hn => Nat.le_succ_of_le (h.known n hn)
  refine ⟨fun n hn => h.future n (by omega), hknown, fun n hn => ?_, fun n hn ho => ?_, h.kept,
    h.empty, h.marker, h.hold⟩
  · rcases hn with hn | hn
    · obtain ⟨hle, htaken, hne⟩ := h.fresh n (.inl hn)
      exact ⟨Nat.le_succ_of_le hle, htaken, hne⟩
    · obtain rfl : latest + 1 = n := by simpa using hn
      exact ⟨le_rfl, h.future _ (Nat.lt_succ_self _), fun hs => by have := h.known _ hs; omega⟩
  · obtain rfl : latest + 1 = n := by simpa using ho
    have := (h.fresh _ (.inl hn)).1
    omega

/-- The manager accepts samples into the active generation, while no final is enriched. -/
theorem Buffered.accept (h : Buffered taken latest stream marker d o buffer [] hold)
    (hstream : stream = some latest) (henrich : hold.enriches = false) :
    Buffered (fun n => if latest = n then taken n ++ samples else taken n) latest stream marker d o
      buffer samples hold := by
  have hother : ∀ n, stream ≠ some n → (if latest = n then taken n ++ samples else taken n) = taken n := by
    intro n hn
    refine if_neg ?_
    rintro rfl
    exact hn hstream
  have hcurrent : ∀ n, Current taken stream n →
      Current (fun n => if latest = n then taken n ++ samples else taken n) stream n := by
    intro n hn
    by_cases hs : stream = some n
    · exact .inl hs
    · exact .inr ((hother n hs).trans (hn.resolve_left hs))
  refine ⟨fun n hn => ?_, h.known, fun n hn => ?_, h.apart, fun n hn => ?_, fun hnone => ?_,
    fun n hn => hcurrent n (h.marker n hn), h.hold.mono hcurrent fun he => ?_⟩
  · exact (if_neg (Nat.ne_of_lt hn)).trans (h.future n hn)
  · obtain ⟨hle, htaken, hne⟩ := h.fresh n hn
    exact ⟨hle, (hother n hne).trans htaken, hne⟩
  · obtain rfl : latest = n := by simpa [hstream] using hn
    rw [if_pos rfl, h.kept latest hn, List.append_nil]
  · rw [hstream] at hnone
    cases hnone
  · rw [henrich] at he
    cases he

/-- The finalize of the active generation is accepted when all of it is in the buffer. -/
theorem Buffered.finalized {firedGen : Option ℕ}
    (h : Buffered taken latest stream marker d o buffer [] (.finalizing firedGen g))
    (hstream : stream = some g ∨ stream = none) :
    Buffered taken latest none none d o buffer [] (.enriching firedGen) := by
  obtain ⟨hfired, hcurrent⟩ := h.hold
  have hbuffer : buffer = taken g := by
    rcases hstream with hs | hs
    · simpa [Hold.own] using (h.kept g hs).symm
    · have hempty : buffer = [] := by simpa [Hold.own] using h.empty hs
      rcases hcurrent with hg | hg
      · rw [hs] at hg
        cases hg
      · rw [hempty, hg]
  exact ⟨h.future, by simp, fun n hn => ⟨(h.fresh n hn).1, (h.fresh n hn).2.1, by simp⟩, h.apart,
    by simp, fun _ => rfl, by simp, rfl, by rw [hfired]; exact hbuffer⟩

/-- The finalize of a generation that is not active any more is accepted. -/
theorem Buffered.finalizedLate {firedGen : Option ℕ}
    (h : Buffered taken latest stream marker d o buffer taking (.finalizing firedGen g))
    (hne : stream ≠ some g) (hempty : buffer ++ taking = []) :
    Buffered taken latest stream none d o buffer taking (.enriching firedGen) := by
  obtain ⟨hfired, hcurrent⟩ := h.hold
  obtain ⟨rfl, rfl⟩ := List.append_eq_nil_iff.mp hempty
  exact ⟨h.future, h.known, h.fresh, h.apart, h.kept, h.empty, by simp, rfl,
    by rw [hfired]; exact (hcurrent.resolve_left hne).symm⟩

/-- An endpoint that fired with no active generation is answered without a finalize. -/
theorem Buffered.answered {gen : Option ℕ}
    (h : Buffered taken latest stream marker d o buffer taking (.fired gen))
    (hstream : stream = none) :
    Buffered taken latest stream marker d o buffer taking (.enriching gen) := by
  subst hstream
  obtain ⟨rfl, rfl⟩ := List.append_eq_nil_iff.mp (h.empty rfl)
  refine ⟨h.future, h.known, h.fresh, h.apart, h.kept, h.empty, h.marker, rfl, ?_⟩
  cases gen with
  | none => rfl
  | some gen => exact ((h.hold gen rfl).resolve_left (by simp)).symm

/-- The payload of the final empties the buffer. -/
theorem Buffered.finish {gen : Option ℕ}
    (h : Buffered taken latest stream marker d o buffer taking (.enriching gen)) :
    Buffered taken latest stream marker d o [] taking .polling :=
  ⟨h.future, h.known, h.fresh, h.apart, h.kept, h.empty, h.marker, trivial⟩

end Buffered

/-! ### Steps -/

variable {cfg : Cfg} {s s' : State α} {e : Env}

/-- The generation that the marker ends, if it is set. -/
def State.markerEnds (s : State α) : Option ℕ :=
  if s.endpointPending.isSome then s.markerGen else none

/-- The invariant of a state. -/
def State.Buffered (s : State α) : Prop :=
  Asr.Buffered (fun n => accepted n s.trace) s.generation s.stream s.markerEnds s.disp.granted
    s.out.granted s.spkSeg.flatten s.disp.taking s.out.hold

theorem holdsAudio_eq_false : s.holdsAudio = false ↔ s.unanswered = [] := by
  simp [State.holdsAudio]

/-- The dispatcher has nothing in transit. -/
def Disp.Idle (d : Disp α) : Prop := d.taking = [] ∧ d.granted = none

theorem idle_next (d : Disp α) : d.next.Idle := by
  have hpc : d.next.pc = .recv ∨ d.next.pc = .segment := by
    cases hrest : d.rest <;> simp [Disp.next, hrest]
  rcases hpc with hpc | hpc <;> exact ⟨by simp [Disp.taking, hpc], by simp [Disp.granted, hpc]⟩

/-- The dispatcher moves on. -/
theorem buffered_goto (hs : s.Buffered) (htaking : s.disp.taking = []) {d : Disp α} (hd : d.Idle) :
    State.Buffered { s with disp := d } := by
  show Asr.Buffered _ _ _ _ d.granted _ _ d.taking _
  rw [hd.1, hd.2]
  exact Buffered.leave hs htaking

theorem buffered_rejectPending (hs : s.Buffered) (htaking : s.disp.taking = []) (reason : String) :
    (s.rejectPending reason).Buffered :=
  (Buffered.leave hs htaking).unmark

theorem admitAudio_idle (cfg : Cfg) (s : State α) : (admitAudio cfg s).disp.Idle := by
  unfold admitAudio
  split
  · exact ⟨rfl, rfl⟩
  split
  · exact ⟨rfl, rfl⟩
  exact idle_next _

theorem buffered_admitAudio (hs : s.Buffered) (htaking : s.disp.taking = []) :
    (admitAudio cfg s).Buffered := by
  have hidle := admitAudio_idle cfg s
  obtain ⟨disp, inSpeech, heq⟩ := admitAudio_eq cfg s
  rw [heq] at hidle ⊢
  exact buffered_goto hs htaking hidle

theorem buffered_dispSegment (hs : s.Buffered) (hpc : s.disp.pc = .segment) :
    (dispSegment cfg s).Buffered := by
  have htaking : s.disp.taking = [] := by simp [Disp.taking, hpc]
  have harrived : State.Buffered { s with trace := .arrived s.disp.current :: s.trace } := hs
  unfold dispSegment
  dsimp only
  split
  · split
    · exact Buffered.leave hs htaking
    split
    · split
      · exact buffered_rejectPending harrived htaking _
      · split
        · exact Buffered.leave hs htaking
        · exact buffered_goto (s := { s with trace := _ :: s.trace, pend := _ }) hs htaking
            (idle_next _)
    · split
      · exact buffered_rejectPending harrived htaking _
      · split
        · exact Buffered.leave hs htaking
        · exact buffered_goto (s := { s with trace := _ :: s.trace, pend := _ }) hs htaking
            (idle_next _)
  · split
    · exact Buffered.leave hs htaking
    · exact Buffered.leave hs htaking

/-- The dispatcher takes up a generation opened for it. -/
theorem buffered_open {gen : ℕ} (hs : s.Buffered) (htaking : s.disp.taking = [])
    (hgranted : s.disp.granted = some gen) (hempty : s.unanswered = []) :
    Asr.Buffered (fun n => accepted n s.trace) s.generation (some gen) none none s.out.granted
      s.spkSeg.flatten [] s.out.hold := by
  have hwas := hs
  unfold State.Buffered at hwas
  rw [hgranted] at hwas
  rw [← htaking]
  refine (hwas.begin none s.out.granted (.inl rfl) hempty (fun n hn => ?_) (by simp)).unmark
  have ho : s.out.granted = some n := by simpa using hn
  refine ⟨.inr ho, ?_⟩
  rintro rfl
  exact hwas.apart n rfl ho

/-- The dispatcher counts what it has fed. -/
theorem buffered_countAudio (hspk : cfg.spkOn = true) (hs : s.Buffered) {samples : List α}
    (htaking : s.disp.taking = samples) {d : Disp α} (hd : d.Idle) :
    State.Buffered { s.countAudio cfg samples with disp := d } := by
  have hcount := Buffered.count hs
  rw [htaking] at hcount
  have hflat : (if cfg.spkOn = true then s.spkSeg ++ [samples] else s.spkSeg).flatten =
      s.spkSeg.flatten ++ samples := by simp [hspk]
  show Asr.Buffered _ _ _ _ d.granted _
    (if cfg.spkOn = true then s.spkSeg ++ [samples] else s.spkSeg).flatten d.taking _
  rw [hd.1, hd.2, hflat]
  exact hcount

/-- The dispatcher's steps. -/
theorem dispStep_buffered (hspk : cfg.spkOn = true) (hs : s.Buffered)
    (hok : mixesAudio cfg s (.disp e) = false) (h : dispStep cfg s e = some s') : s'.Buffered := by
  cases hpc : s.disp.pc <;> simp only [dispStep, hpc] at h
  case recv | ended => cases h
  case segment =>
    cases h
    exact buffered_dispSegment hs hpc
  case replay =>
    split at h <;> cases h
    · rename_i hcall
      exact buffered_countAudio hspk hs (d := { s.disp with pc := .lazyTest })
        (by simp [Disp.taking, hpc, hcall]) ⟨rfl, rfl⟩
    · rename_i hcall
      exact Buffered.leave hs (by simp [Disp.taking, hpc, hcall])
  case feed =>
    split at h <;> cases h
    · rename_i hcall
      exact buffered_countAudio hspk hs (d := { s.disp with pc := .latch })
        (by simp [Disp.taking, hpc, hcall]) ⟨rfl, rfl⟩
    · rename_i hcall
      exact Buffered.leave hs (by simp [Disp.taking, hpc, hcall])
  all_goals have htaking : s.disp.taking = [] := by simp [Disp.taking, hpc]
  case joinCancel =>
    split at h
    · split at h <;> cases h
      exact buffered_admitAudio (s := { s with asrCancelTask := none }) hs htaking
    · cases h
      exact Buffered.leave hs htaking
  case pendingStart =>
    cases h
    unfold dispPendingStart
    split
    · exact buffered_rejectPending (s := s.send e (.vadEvent .speechStart)) hs htaking _
    · rename_i pend _
      exact buffered_goto (s := { s.send e (.vadEvent .speechStart) with
        pend := pend
        trace := .queued s.pend.fresh s.pend.tail s.disp.current.samples ::
          (s.send e (.vadEvent .speechStart)).trace }) hs htaking (idle_next _)
  case liveStart =>
    cases h
    unfold dispLiveStart
    repeat' split
    · exact buffered_goto (s := s.send e (.vadEvent .speechStart)) hs htaking (idle_next _)
    · exact Buffered.leave hs htaking
    · exact Buffered.leave hs htaking
  case openTurn =>
    split at h <;> cases h
    · rename_i gen hcall
      have hgranted : s.disp.granted = some gen := by simp [Disp.granted, hpc, hcall]
      have hempty : s.unanswered = [] := by
        simpa [mixesAudio, hpc, hgranted, holdsAudio_eq_false] using hok
      have hopen := buffered_open hs htaking hgranted hempty
      unfold dispOpened
      dsimp only
      split <;> exact hopen
    · exact Buffered.leave hs htaking
  case openFailed =>
    cases h
    have hempty : s.unanswered = [] := by simpa [mixesAudio, hpc, holdsAudio_eq_false] using hok
    exact buffered_goto (s := { (s.send e (.error "asr_unavailable")).clearEndpoint with
      asrActive := false }) (Buffered.close hs hempty).unmark htaking (idle_next _)
  case lazyTest =>
    cases h
    unfold dispLazyTest
    split <;> exact Buffered.leave hs htaking
  case lazyOpen =>
    split at h <;> cases h
    · rename_i gen hcall
      have hgranted : s.disp.granted = some gen := by simp [Disp.granted, hpc, hcall]
      have hempty : s.unanswered = [] := by
        simpa [mixesAudio, hpc, hgranted, holdsAudio_eq_false] using hok
      have hopen := buffered_open hs htaking hgranted hempty
      exact hopen
    · exact Buffered.leave hs htaking
  case lazyFailed =>
    cases h
    have hempty : s.unanswered = [] := by simpa [mixesAudio, hpc, holdsAudio_eq_false] using hok
    exact buffered_goto (s := { s.send e (.error "asr_unavailable") with asrActive := false })
      (Buffered.close hs hempty) htaking (idle_next _)
  case feedTest =>
    split at h <;> cases h <;> exact Buffered.leave hs htaking
  case latch =>
    cases h
    unfold dispLatch
    repeat' split
    · exact (Buffered.leave hs htaking).markStream
    · exact Buffered.leave hs htaking
    · exact Buffered.leave hs htaking
  case ring =>
    cases h
    unfold dispRing
    split
    · exact buffered_goto (s := s.extendPreroll cfg _ _) hs htaking (idle_next _)
    · exact buffered_goto hs htaking (idle_next _)
  case pendingEnd =>
    cases h
    exact buffered_goto (s := s.send e (.vadEvent .speechEnd)) hs htaking (idle_next _)
  case rejecting =>
    cases h
    exact buffered_goto (s := s.send e _) hs htaking (idle_next _)
  case joinFailed | latched =>
    cases h
    exact Buffered.leave hs htaking

/-- Frames of the client. -/
theorem receive_buffered {msg : Msg α} (hs : s.Buffered)
    (hok : mixesAudio cfg s (.receive msg) = false) (h : receive cfg s msg = some s') :
    s'.Buffered := by
  unfold receive at h
  split at h <;> cases h
  rename_i hpc
  have htaking : s.disp.taking = [] := by simp [Disp.taking, hpc]
  split
  · exact Buffered.leave hs htaking
  rename_i hopen
  cases msg with
  | audio samples flips =>
    show (receiveAudio cfg s samples flips).Buffered
    unfold receiveAudio
    split
    · exact Buffered.leave hs htaking
    · exact buffered_admitAudio
        (s := { s with asrCancelTask := none, disp.block := (samples, flips) }) hs htaking
  | asrEos => exact Buffered.markStream hs
  | abort keepAsr =>
    simp only [receiveMsg]
    split
    · exact hs
    · rename_i hkeep
      have hempty : s.unanswered = [] := by
        simpa [mixesAudio, hopen, hkeep, holdsAudio_eq_false] using hok
      rw [abortAsr_eq]
      exact (Buffered.close hs hempty).unmark
  | disconnect => exact Buffered.leave hs htaking
  | asrPrepare | other => exact hs

/-- The finalize was not accepted. -/
theorem buffered_outNotAccepted (hs : s.Buffered) (hwas : s.out.hold.enriches = false)
    (hgranted : s.out.granted = none) (hempty : e.managerIdle = true → s.unanswered = [])
    (failure : Option String) : (outNotAccepted s e failure).Buffered := by
  have hpoll := Buffered.poll hs hwas
  rw [hgranted] at hpoll
  unfold outNotAccepted
  dsimp only
  by_cases hidle : e.managerIdle = true
  · have hclose := (Buffered.close hs (hempty hidle)).unmark.poll hwas
    rw [hgranted] at hclose
    rw [if_pos hidle]
    repeat' split
    all_goals exact hclose
  · rw [if_neg hidle]
    repeat' split
    all_goals exact hpoll

theorem buffered_outCancelled (hs : s.Buffered) (hwas : s.out.hold.enriches = false)
    (hgranted : s.out.granted = none)
    (hempty : (s.asrAbortRequested && e.managerIdle && s.holdsAudio) = false) :
    (outCancelled s e).out.pc = .ended ∨ (outCancelled s e).Buffered := by
  unfold outCancelled
  split
  · rename_i habort
    have hempty' : e.managerIdle = true → s.unanswered = [] := fun hidle => by
      simpa [habort, hidle, holdsAudio_eq_false] using hempty
    exact .inr (buffered_outNotAccepted (s := { s with asrAbortRequested := false }) hs hwas
      hgranted hempty' none)
  · exact .inl rfl

/-- The finalize was accepted: what the buffer holds is the audio of its generation. -/
theorem buffered_outAccepted (hs : s.Buffered) (hhold : s.out.hold = .finalizing s.out.firedGen s.out.gen)
    (hgranted : s.out.granted = none)
    (hok : (if s.asrActiveGen = s.out.gen then !s.disp.taking.isEmpty else s.holdsAudio) = false)
    (text : String) (language : Option String) : (outAccepted cfg s text language).Buffered := by
  have hwas := hs
  unfold State.Buffered at hwas
  rw [hhold, hgranted] at hwas
  unfold outAccepted State.movePendingTailToPreroll
  dsimp only
  split at hok
  case isTrue hgen =>
    have htaking : s.disp.taking = [] := by simpa using hok
    rw [htaking] at hwas
    have hstream : s.stream = some s.out.gen ∨ s.stream = none := by
      rw [← hgen]
      unfold State.stream
      split <;> simp
    have hdone := hwas.finalized hstream
    rw [← htaking] at hdone
    rw [if_pos hgen]
    repeat' split
    all_goals exact hdone
  case isFalse hgen =>
    have hempty : s.unanswered = [] := holdsAudio_eq_false.mp hok
    unfold State.unanswered at hempty
    rw [hhold] at hempty
    have hne : s.stream ≠ some s.out.gen := by
      unfold State.stream
      split <;> simp [hgen]
    have hdone := hwas.finalizedLate hne hempty
    rw [if_neg hgen]
    repeat' split
    all_goals exact hdone.unmark

theorem buffered_outFinalize (hs : s.Buffered) (wait : Wait) (outcome : Outcome)
    (hpc : s.out.pc = .finalize wait) (hok : finalizeMixes s e wait outcome = false) :
    (outFinalize cfg s e wait outcome).out.pc = .ended ∨
      (outFinalize cfg s e wait outcome).Buffered := by
  have hhold : s.out.hold = .finalizing s.out.firedGen s.out.gen := by simp [Out.hold, hpc]
  have hwas : s.out.hold.enriches = false := by rw [hhold]; rfl
  have hgranted : s.out.granted = none := by simp [Out.granted, hpc]
  have hrejected : (e.managerIdle && s.holdsAudio) = false →
      (outNotAccepted s e (some "finalize rejected")).Buffered := fun hok =>
    buffered_outNotAccepted hs hwas hgranted
      (fun hidle => by simpa [hidle, holdsAudio_eq_false] using hok) _
  have hretry : State.Buffered { s with out.pc := .finalizeCancel } := by
    unfold State.Buffered at hs
    rw [hhold, hgranted] at hs
    exact hs
  cases wait with
  | cancelled => exact buffered_outCancelled hs hwas hgranted hok
  | waiting =>
    cases outcome with
    | accepted text language => exact .inr (buffered_outAccepted hs hhold hgranted hok _ _)
    | rejected => exact .inr (hrejected hok)
    | raised => exact .inl rfl
    | raisedTimeout => exact .inr hretry
    | cancelled => exact buffered_outCancelled hs hwas hgranted hok
  | timedOut =>
    cases outcome with
    | accepted text language => exact .inr (buffered_outAccepted hs hhold hgranted hok _ _)
    | rejected => exact .inr (hrejected hok)
    | raised => exact .inl rfl
    | raisedTimeout | cancelled => exact .inr hretry

/-- An endpoint fires. -/
theorem hold_fire {o : Out α} {c : Prop} [Decidable c]
    (h : o.pc = if c then .fired else .sendEndpoint) :
    o.hold = .fired o.firedGen ∧ o.granted = none := by
  by_cases hc : c
  · rw [if_pos hc] at h
    simp [Out.hold, Out.granted, h]
  · rw [if_neg hc] at h
    simp [Out.hold, Out.granted, h]

/-- The look at the marker: an endpoint fires for the active generation, or for one that has
taken in nothing. -/
theorem buffered_outDecide (hs : s.Buffered) (hpc : s.out.pc = .decide) :
    (outDecide cfg s).Buffered := by
  have hwas := hs
  unfold State.Buffered at hwas
  simp only [Out.hold, Out.granted, hpc] at hwas
  obtain ⟨t, ht, hts⟩ : ∃ t, (if staleEndpoint s then s.clearEndpoint else s) = t ∧
      Asr.Buffered (fun n => accepted n t.trace) t.generation t.stream t.markerEnds t.disp.granted
        none t.spkSeg.flatten t.disp.taking .polling := by
    refine ⟨_, rfl, ?_⟩
    split
    · exact hwas.unmark
    · exact hwas
  unfold outDecide
  rw [ht]
  dsimp only
  split
  case isFalse => exact hts
  case isTrue hfired =>
    have hcurrent : ∀ g, (if t.asrActive then some t.asrActiveGen else t.markerGen) = some g →
        Current (fun n => accepted n t.trace) t.stream g := by
      intro g hg
      by_cases hactive : t.asrActive = true
      · rw [if_pos hactive] at hg
        exact .inl (by rw [State.stream, if_pos hactive, hg])
      · rw [if_neg hactive] at hg
        have hmark : t.endpointPending.isSome = true := by simpa [hactive] using hfired
        exact hts.marker g (by rw [State.markerEnds, if_pos hmark, hg])
    have hfire := hts.goto (.fired _) rfl rfl hcurrent
    have hgo : ∀ o : Out α,
        o.hold = .fired (if t.asrActive then some t.asrActiveGen else t.markerGen) →
        o.granted = none → Asr.Buffered (fun n => accepted n t.trace) t.generation t.stream
          t.markerEnds t.disp.granted o.granted t.spkSeg.flatten t.disp.taking o.hold := by
      intro o hhold hgranted
      rw [hhold, hgranted]
      exact hfire
    have htrace : ∀ n, accepted n (if (t.out.isEndpoint && t.asrActive) = true then
        .trigger :: t.trace else t.trace) = accepted n t.trace := by
      intro n
      split <;> rfl
    unfold State.Buffered
    simp only [htrace]
    exact hgo _ (hold_fire rfl).1 (hold_fire rfl).2

theorem buffered_drainFailed
    (hs : Asr.Buffered (fun n => accepted n s.trace) s.generation s.stream s.markerEnds s.disp.granted
      none s.spkSeg.flatten s.disp.taking .polling) : (drainFailed s).Buffered := by
  unfold drainFailed
  split
  · exact hs
  · rename_i hactive
    have hstream : s.stream = none := by simp [State.stream, hactive]
    exact (hs.close (hs.empty hstream)).unmark

theorem buffered_drainPop
    (hs : Asr.Buffered (fun n => accepted n s.trace) s.generation s.stream s.markerEnds s.disp.granted
      none s.spkSeg.flatten s.disp.taking .polling) : (drainPop s).Buffered := by
  unfold drainPop
  split
  · exact buffered_drainFailed (s := { s with trace := .popped none s.out.turn :: s.trace }) hs
  · exact hs

theorem buffered_drainNext (hs : s.Buffered) (hpc : s.out.pc = .drainNext) :
    (drainNext s).Buffered := by
  have hwas := hs
  unfold State.Buffered at hwas
  simp only [Out.hold, Out.granted, hpc] at hwas
  unfold drainNext
  split
  · split
    · unfold State.Buffered
      simp only [Out.hold, Out.granted, hpc]
      exact hwas
    · exact hwas
  · have hpoll := hwas.poll rfl
    unfold drainMark
    dsimp only
    split
    · have hmark : ∀ g, some s.out.newGen = some g →
          Current (fun n => accepted n s.trace) s.stream g := by
        rintro g ⟨⟩
        exact hwas.hold
      exact buffered_drainPop (hpoll.mark hmark)
    · exact buffered_drainPop hpoll

/-- The steps of `asr_out_task`. -/
theorem outStep_buffered (hs : s.Buffered) (hok : mixesAudio cfg s (.out e) = false)
    (h : outStep cfg s e = some s') : s'.out.pc = .ended ∨ s'.Buffered := by
  have hwas := hs
  unfold State.Buffered at hwas
  have hmixes := hok
  cases hpc : s.out.pc <;> simp only [outStep, hpc] at h <;>
    simp only [Out.hold, Out.granted, hpc] at hwas <;> simp only [mixesAudio, hpc] at hmixes
  case ended => cases h
  case sleep | sendPartial | finalLock | prepWait | speaker =>
    cases h
    exact .inr hwas
  case top =>
    cases h
    unfold outTop
    repeat' split
    all_goals exact .inr hwas
  case deadlineCancel =>
    split at h <;> cases h
    · exact .inr hwas
    · rename_i hrestart
      have hempty : s.unanswered = [] := by
        cases hsent : e.ok <;> simp_all [holdsAudio_eq_false]
      exact .inr (Buffered.close hwas (by simpa [State.unanswered, Out.hold, hpc] using hempty)).unmark
  case deadlineRestart =>
    cases h
    have hempty : s.unanswered = [] := holdsAudio_eq_false.mp hmixes
    exact .inr (Buffered.close hwas (by simpa [State.unanswered, Out.hold, hpc] using hempty)).unmark
  case deadlineSend =>
    split at h <;> cases h
    · exact .inr hwas
    · exact .inl rfl
  case getPartial =>
    cases h
    unfold outPartial
    repeat' split
    all_goals exact .inr hwas
  case decide =>
    cases h
    exact .inr (buffered_outDecide hs hpc)
  case sendEndpoint =>
    cases h
    exact .inr hwas
  case fired =>
    cases h
    unfold outFired
    split
    · rename_i hactive
      have hstream : s.stream = some s.asrActiveGen := by simp [State.stream, hactive]
      have hgo := hwas.goto (.finalizing (some s.asrActiveGen) s.asrActiveGen) rfl rfl
        ⟨rfl, .inl hstream⟩
      split <;> exact .inr hgo
    · rename_i hactive
      have hstream : s.stream = none := by simp [State.stream, hactive]
      exact .inr (hwas.answered hstream)
  case prepared =>
    cases h
    unfold outPrepared
    split
    · split
      · exact .inr (hwas.poll rfl).unmark
      · exact .inr (hwas.poll rfl)
    · exact .inr hwas
  case finalize wait =>
    split at h <;> cases h
    rename_i outcome htask
    rw [htask] at hmixes
    exact buffered_outFinalize hs wait outcome hpc hmixes
  case finalizeCancel =>
    cases h
    refine .inr (buffered_outNotAccepted hs (by simp [Out.hold, hpc, Hold.enriches])
      (by simp [Out.granted, hpc]) (fun hidle => ?_) _)
    simpa [hidle, holdsAudio_eq_false] using hmixes
  case rejectSend =>
    cases h
    exact .inr hwas
  case enrich =>
    cases h
    split <;> exact .inr hwas
  case punct =>
    cases h
    exact .inr hwas
  case speakerTest =>
    cases h
    split <;> exact .inr hwas
  case final =>
    cases h
    exact .inr hwas.finish
  case finalSend =>
    cases h
    unfold outFinalSent
    dsimp only
    repeat' split
    all_goals first
      | exact .inl rfl
      | exact .inr hwas
  case drainOpen =>
    split at h <;> cases h
    · rename_i gen hcall
      rw [hcall] at hwas
      have hempty : s.unanswered = [] := by
        simpa [Out.granted, hpc, hcall, holdsAudio_eq_false] using hmixes
      have hbegin := hwas.begin s.disp.granted none (.inr rfl)
        (by simpa [State.unanswered, Out.hold, hpc] using hempty)
        (fun n hn => by
          have hd : s.disp.granted = some n := by simpa using hn
          refine ⟨.inl hd, ?_⟩
          rintro rfl
          exact hwas.apart n hd rfl) (by simp)
      exact .inr (hbegin.goto (.feeding gen) rfl rfl (.inl rfl))
    · rename_i hcall
      rw [hcall] at hwas
      exact .inr (buffered_drainFailed hwas)
  case drainNext =>
    cases h
    exact .inr (buffered_drainNext hs hpc)
  case drainFeed =>
    split at h <;> cases h
    · exact .inr hwas
    · exact .inr (buffered_drainFailed (hwas.poll rfl))
  case drainFailCancel =>
    cases h
    have hempty : s.unanswered = [] := holdsAudio_eq_false.mp hmixes
    exact .inr (Buffered.close hwas (by simpa [State.unanswered, Out.hold, hpc] using hempty)).unmark
  case drainFailSend =>
    cases h
    exact .inr hwas
  case loopEnd =>
    split at h <;> cases h
    · exact .inl rfl
    · exact .inr hwas

/-- The manager accepts what the dispatcher hands it. -/
theorem buffered_taken (hs : s.Buffered) (htaking : s.disp.taking = [])
    (hgranted : s.disp.granted = none) {samples : List α}
    (hok : samples = [] ∨ s.stream = some s.generation ∧ s.out.hold.enriches = false)
    {d : Disp α} (hd : d.taking = samples) (hd' : d.granted = none) :
    State.Buffered { s with
      disp := d
      trace := .accepted s.generation samples :: s.trace } := by
  have hwas := hs
  unfold State.Buffered at hwas
  rw [htaking, hgranted] at hwas
  show Asr.Buffered (fun n => if s.generation = n then accepted n s.trace ++ samples
    else accepted n s.trace) _ _ _ d.granted _ _ d.taking _
  rw [hd, hd']
  rcases hok with rfl | ⟨hstream, henrich⟩
  · simp only [List.append_nil, ite_self]
    exact hwas
  · exact hwas.accept hstream henrich

/-- The effect of the dispatcher's manager call. -/
theorem dispCall_buffered {ok : Bool} (hs : s.Buffered)
    (hok : mixesAudio cfg s (.dispCall ok) = false) (h : dispCall s ok = some s') :
    s'.Buffered := by
  unfold dispCall at h
  split at h
  case isFalse => cases h
  rename_i hcall
  have htaking : s.disp.taking = [] := by cases hpc : s.disp.pc <;> simp [Disp.taking, hcall, hpc]
  have hgranted : s.disp.granted = none := by
    cases hpc : s.disp.pc <;> simp [Disp.granted, hcall, hpc]
  have hraise : State.Buffered { s with disp.call := .raised } :=
    buffered_goto hs htaking ⟨by cases hpc : s.disp.pc <;> simp [Disp.taking, hpc],
      by cases hpc : s.disp.pc <;> simp [Disp.granted, hpc]⟩
  have hopen : s.disp.pc = .openTurn ∨ s.disp.pc = .lazyOpen →
      State.Buffered { s with
        generation := s.generation + 1
        disp.call := .returned (s.generation + 1)
        trace := .opened (s.generation + 1) none :: s.trace } := by
    intro hpc
    have hwas := hs
    unfold State.Buffered at hwas
    rw [hgranted, htaking] at hwas
    have hgrant : Disp.granted { s.disp with call := .returned (s.generation + 1) } =
        some (s.generation + 1) := by rcases hpc with hpc | hpc <;> simp [Disp.granted, hpc]
    have htake : Disp.taking { s.disp with call := .returned (s.generation + 1) } = [] := by
      rcases hpc with hpc | hpc <;> simp [Disp.taking, hpc]
    show Asr.Buffered _ _ _ _ (Disp.granted { s.disp with call := .returned (s.generation + 1) }) _ _
      (Disp.taking { s.disp with call := .returned (s.generation + 1) }) _
    rw [hgrant, htake]
    exact hwas.grantDisp
  have haccept : ok = true → s.disp.offered = [] ∨
      s.stream = some s.generation ∧ s.out.hold.enriches = false := by
    rintro rfl
    by_cases hoffer : s.disp.offered = []
    · exact .inl hoffer
    · refine .inr ?_
      simpa [mixesAudio, hoffer, and_comm] using hok
  split at h
  case h_1 hpc =>
    split at h <;> cases h
    · exact hopen (.inl hpc)
    · exact hraise
  case h_2 hpc =>
    split at h <;> cases h
    · exact hopen (.inr hpc)
    · exact hraise
  case h_3 hpc =>
    split at h <;> cases h
    · rename_i hsent
      exact buffered_taken hs htaking hgranted (by simpa [Disp.offered, hpc] using haccept hsent)
        (by simp [Disp.taking, hpc]) (by simp [Disp.granted, hpc])
    · exact hraise
  case h_4 hpc =>
    split at h <;> cases h
    · rename_i hsent
      exact buffered_taken hs htaking hgranted (by simpa [Disp.offered, hpc] using haccept hsent)
        (by simp [Disp.taking, hpc]) (by simp [Disp.granted, hpc])
    · exact hraise
  case h_5 => cases h

/-- The effect of the drain's manager call. -/
theorem outCall_buffered {ok : Bool} (hs : s.Buffered)
    (hok : missesAudio s (.outCall ok) = false) (h : outCall s ok = some s') : s'.Buffered := by
  unfold outCall at h
  split at h
  case isFalse => cases h
  rename_i hcall
  have hwas := hs
  unfold State.Buffered at hwas
  split at h
  case h_1 hpc =>
    simp only [Out.hold, Out.granted, hpc, hcall] at hwas
    split at h <;> cases h
    · unfold State.Buffered
      simp only [Out.hold, Out.granted, hpc]
      exact hwas.grantOut
    · unfold State.Buffered
      simp only [Out.hold, Out.granted, hpc]
      exact hwas
  case h_2 hpc =>
    simp only [Out.hold, Out.granted, hpc] at hwas
    have hfails : ok = false := by simpa [missesAudio, hpc] using hok
    rw [if_neg (by simp [hfails])] at h
    cases h
    unfold State.Buffered
    simp only [Out.hold, Out.granted, hpc]
    exact hwas
  case h_3 => cases h

/-- A cancellation reaches `asr_out_task`. -/
theorem cancelOut_buffered (hs : s.Buffered) (hok : mixesAudio cfg s (.cancelOut e) = false)
    (h : cancelOut s e = some s') : s'.out.pc = .ended ∨ s'.Buffered := by
  have hwas := hs
  unfold State.Buffered at hwas
  unfold cancelOut at h
  split at h
  case h_1 => cases h
  case h_2 hpc =>
    simp only [Out.hold, Out.granted, hpc] at hwas
    split at h <;> cases h
    · exact .inr hwas
    · exact .inr hs
  case h_3 wait hwait hpc =>
    cases h
    have hcancel : (s.asrAbortRequested && e.managerIdle && s.holdsAudio) = false := by
      cases wait with
      | waiting => exact absurd rfl hwait
      | timedOut | cancelled => simpa only [mixesAudio, hpc] using hok
    exact buffered_outCancelled hs (by simp [Out.hold, hpc, Hold.enriches])
      (by simp [Out.granted, hpc]) hcancel
  case h_4 =>
    cases h
    exact .inl rfl

/-- **The step lemma of the buffer.** -/
theorem step_buffered {a : Act α} (hspk : cfg.spkOn = true) (hs : s.Buffered)
    (hmiss : missesAudio s a = false) (hmix : mixesAudio cfg s a = false)
    (h : step cfg s a = some s') : s'.out.pc = .ended ∨ s'.Buffered := by
  cases a <;> simp only [step] at h <;> split at h
  all_goals try cases h; done
  case receive msg _ => exact .inr (receive_buffered hs hmix h)
  case disp e _ => exact .inr (dispStep_buffered hspk hs hmix h)
  case out e _ => exact outStep_buffered hs hmix h
  case dispCall ok _ => exact .inr (dispCall_buffered hs hmix h)
  case outCall ok _ => exact .inr (outCall_buffered hs hmiss h)
  case cancelOut e _ => exact cancelOut_buffered hs hmix h
  case dispFails =>
    split at h <;> cases h
    have htaking : s.disp.taking = [] := by simpa [missesAudio] using hmiss
    exact .inr (Buffered.leave hs htaking)
  case teardown =>
    cases h
    exact .inr hs
  case finalizeTimeout =>
    split at h <;> cases h
    rename_i hpc _
    have hwas := hs
    unfold State.Buffered at hwas
    simp only [Out.hold, Out.granted, hpc] at hwas
    exact .inr hwas
  case finalizeEnds | cancelEnds | prepareEnds =>
    split at h <;> cases h
    exact .inr hs

/-! ### The counter -/

/-- The counter lags behind the manager by what is in transit. -/
def State.Counted (s : State α) : Prop :=
  s.diarSamples + s.disp.taking.length = acceptedTotal s.trace

theorem counted_goto (hs : s.Counted) (htaking : s.disp.taking = []) {d : Disp α}
    (hd : d.taking = []) : State.Counted { s with disp := d } := by
  unfold State.Counted at hs ⊢
  show s.diarSamples + d.taking.length = acceptedTotal s.trace
  rw [hd]
  rwa [htaking] at hs

theorem counted_countAudio (hspk : cfg.spkOn = true) (hs : s.Counted) {samples : List α}
    (htaking : s.disp.taking = samples) {d : Disp α} (hd : d.taking = []) :
    State.Counted { s.countAudio cfg samples with disp := d } := by
  unfold State.Counted at hs
  rw [htaking] at hs
  have hcount : (if cfg.spkOn = true then s.diarSamples + samples.length else s.diarSamples) =
      acceptedTotal s.trace := by rw [if_pos hspk, hs]
  show (if cfg.spkOn = true then s.diarSamples + samples.length else s.diarSamples) +
    d.taking.length = acceptedTotal s.trace
  rw [hd, hcount]
  rfl

/-- A step that counts nothing, and in which the manager accepts nothing. -/
structure Uncounted (s s' : State α) : Prop where
  diar : s'.diarSamples = s.diarSamples
  total : acceptedTotal s'.trace = acceptedTotal s.trace
  taking : s'.disp.taking = s.disp.taking

theorem Uncounted.counted (h : Uncounted s s') (hs : s.Counted) : s'.Counted := by
  unfold State.Counted
  rw [h.diar, h.total, h.taking]
  exact hs

/-- Away from `accept_audio` the dispatcher has nothing to count. -/
theorem dispStep_uncounted (hreplay : s.disp.pc ≠ .replay) (hfeed : s.disp.pc ≠ .feed)
    (h : dispStep cfg s e = some s') : Uncounted s s' ∧ s'.out = s.out := by
  have htaking : s.disp.taking = [] := by
    cases hpc : s.disp.pc <;> simp_all [Disp.taking]
  have hidle : ∀ {t : State α}, t.diarSamples = s.diarSamples →
      acceptedTotal t.trace = acceptedTotal s.trace → t.disp.taking = [] → t.out = s.out →
      Uncounted s t ∧ t.out = s.out :=
    fun hdiar htotal ht hout => ⟨⟨hdiar, htotal, ht.trans htaking.symm⟩, hout⟩
  cases hpc : s.disp.pc <;> simp only [dispStep, hpc] at h
  case recv | ended => cases h
  case replay => exact absurd hpc hreplay
  case feed => exact absurd hpc hfeed
  case segment =>
    cases h
    unfold dispSegment
    dsimp only
    repeat' split
    all_goals first
      | exact hidle rfl rfl rfl rfl
      | exact hidle rfl rfl (idle_next _).1 rfl
  case joinCancel =>
    split at h
    · split at h <;> cases h
      have hadmit := (admitAudio_idle cfg { s with asrCancelTask := none }).1
      obtain ⟨disp, inSpeech, heq⟩ := admitAudio_eq cfg { s with asrCancelTask := none }
      rw [heq] at hadmit ⊢
      exact hidle rfl rfl hadmit rfl
    · cases h
      exact hidle rfl rfl rfl rfl
  case pendingStart =>
    cases h
    unfold dispPendingStart
    split
    · exact hidle rfl rfl rfl rfl
    · exact hidle rfl rfl (idle_next _).1 rfl
  case liveStart =>
    cases h
    unfold dispLiveStart
    repeat' split
    · exact hidle rfl rfl (idle_next _).1 rfl
    · exact hidle rfl rfl rfl rfl
    · exact hidle rfl rfl rfl rfl
  case openTurn =>
    split at h <;> cases h
    · unfold dispOpened
      dsimp only
      split <;> exact hidle rfl rfl rfl rfl
    · exact hidle rfl rfl rfl rfl
  case lazyTest =>
    cases h
    unfold dispLazyTest
    split <;> exact hidle rfl rfl rfl rfl
  case lazyOpen | feedTest =>
    split at h <;> cases h <;> exact hidle rfl rfl rfl rfl
  case latch =>
    cases h
    unfold dispLatch
    repeat' split
    all_goals exact hidle rfl rfl rfl rfl
  case ring =>
    cases h
    unfold dispRing
    split <;> exact hidle rfl rfl (idle_next _).1 rfl
  case pendingEnd | rejecting | openFailed | lazyFailed =>
    cases h
    exact hidle rfl rfl (idle_next _).1 rfl
  case joinFailed | latched =>
    cases h
    exact hidle rfl rfl rfl rfl

theorem receive_uncounted {msg : Msg α} (h : receive cfg s msg = some s') :
    Uncounted s s' ∧ s'.out = s.out := by
  unfold receive at h
  split at h <;> cases h
  rename_i hpc
  have htaking : s.disp.taking = [] := by simp [Disp.taking, hpc]
  split
  · exact ⟨⟨rfl, rfl, htaking.symm⟩, rfl⟩
  cases msg with
  | audio samples flips =>
    show Uncounted s (receiveAudio cfg s samples flips) ∧
      (receiveAudio cfg s samples flips).out = s.out
    unfold receiveAudio
    split
    · exact ⟨⟨rfl, rfl, htaking.symm⟩, rfl⟩
    · have hadmit := (admitAudio_idle cfg
        { s with asrCancelTask := none, disp.block := (samples, flips) }).1
      obtain ⟨disp, inSpeech, heq⟩ := admitAudio_eq cfg
        { s with asrCancelTask := none, disp.block := (samples, flips) }
      rw [heq] at hadmit ⊢
      exact ⟨⟨rfl, rfl, hadmit.trans htaking.symm⟩, rfl⟩
  | abort keepAsr =>
    simp only [receiveMsg]
    split
    · exact ⟨⟨rfl, rfl, rfl⟩, rfl⟩
    · rw [abortAsr_eq]
      exact ⟨⟨rfl, rfl, rfl⟩, rfl⟩
  | disconnect => exact ⟨⟨rfl, rfl, htaking.symm⟩, rfl⟩
  | asrEos | asrPrepare | other => exact ⟨⟨rfl, rfl, rfl⟩, rfl⟩

/-- `asr_out_task` leaves the counter to the dispatcher. -/
theorem outStep_uncounted (h : outStep cfg s e = some s') : Uncounted s s' := by
  cases hpc : s.out.pc <;> simp only [outStep, hpc] at h
  case ended => cases h
  case top =>
    cases h
    unfold outTop
    repeat' split
    all_goals exact ⟨rfl, rfl, rfl⟩
  case getPartial =>
    cases h
    unfold outPartial
    repeat' split
    all_goals exact ⟨rfl, rfl, rfl⟩
  case decide =>
    cases h
    unfold outDecide
    dsimp only
    repeat' split
    all_goals exact ⟨rfl, rfl, rfl⟩
  case fired =>
    cases h
    unfold outFired
    split <;> exact ⟨rfl, rfl, rfl⟩
  case prepared =>
    cases h
    unfold outPrepared
    repeat' split
    all_goals exact ⟨rfl, rfl, rfl⟩
  case finalize wait =>
    split at h <;> cases h
    unfold outFinalize outCancelled outNotAccepted outAccepted State.movePendingTailToPreroll
    dsimp only
    repeat' split
    all_goals exact ⟨rfl, rfl, rfl⟩
  case finalizeCancel =>
    cases h
    unfold outNotAccepted
    dsimp only
    repeat' split
    all_goals exact ⟨rfl, rfl, rfl⟩
  case finalSend =>
    cases h
    unfold outFinalSent
    dsimp only
    repeat' split
    all_goals exact ⟨rfl, rfl, rfl⟩
  case drainNext =>
    cases h
    unfold drainNext drainMark drainPop drainFailed
    dsimp only
    repeat' split
    all_goals exact ⟨rfl, rfl, rfl⟩
  case drainOpen | drainFeed =>
    split at h <;> cases h
    · exact ⟨rfl, rfl, rfl⟩
    · unfold drainFailed
      split <;> exact ⟨rfl, rfl, rfl⟩
  case deadlineCancel | deadlineSend | loopEnd =>
    split at h <;> cases h <;> exact ⟨rfl, rfl, rfl⟩
  all_goals
    cases h
    exact ⟨rfl, rfl, rfl⟩

/-- What the manager takes in of the dispatcher's audio is in transit. -/
theorem dispCall_counted {ok : Bool} (hs : s.Counted) (h : dispCall s ok = some s') :
    s'.Counted := by
  unfold dispCall at h
  split at h
  case isFalse => cases h
  rename_i hcall
  have htaking : s.disp.taking = [] := by cases hpc : s.disp.pc <;> simp [Disp.taking, hcall, hpc]
  have hraise : State.Counted { s with disp.call := .raised } :=
    counted_goto hs htaking (by cases hpc : s.disp.pc <;> simp [Disp.taking, hpc])
  have hwas := hs
  unfold State.Counted at hwas
  rw [htaking] at hwas
  split at h
  case h_1 hpc | h_2 hpc =>
    split at h <;> cases h
    · exact counted_goto hs htaking (by simp [Disp.taking, hpc])
    · exact hraise
  case h_3 hpc | h_4 hpc =>
    split at h <;> cases h
    · unfold State.Counted
      simpa [Disp.taking, hpc, acceptedTotal] using hwas
    · exact hraise
  case h_5 => cases h

/-- **The step lemma of the counter.** -/
theorem step_counted {a : Act α} (hspk : cfg.spkOn = true) (hs : s.Counted)
    (hok : missesAudio s a = false) (h : step cfg s a = some s') : s'.Counted := by
  cases a <;> simp only [step] at h <;> split at h
  all_goals try cases h; done
  case receive msg _ => exact (receive_uncounted h).1.counted hs
  case disp e _ =>
    by_cases hreplay : s.disp.pc = .replay
    · simp only [dispStep, hreplay] at h
      split at h <;> cases h
      · rename_i hcall
        exact counted_countAudio hspk hs (d := { s.disp with pc := .lazyTest })
          (by simp [Disp.taking, hreplay, hcall]) rfl
      · rename_i hcall
        exact counted_goto hs (by simp [Disp.taking, hreplay, hcall]) rfl
    by_cases hfeed : s.disp.pc = .feed
    · simp only [dispStep, hfeed] at h
      split at h <;> cases h
      · rename_i hcall
        exact counted_countAudio hspk hs (d := { s.disp with pc := .latch })
          (by simp [Disp.taking, hfeed, hcall]) rfl
      · rename_i hcall
        exact counted_goto hs (by simp [Disp.taking, hfeed, hcall]) rfl
    exact (dispStep_uncounted hreplay hfeed h).1.counted hs
  case out e _ => exact (outStep_uncounted h).counted hs
  case dispCall ok _ => exact dispCall_counted hs h
  case outCall ok _ =>
    unfold outCall at h
    split at h
    case isFalse => cases h
    split at h
    case h_1 hpc => split at h <;> cases h <;> exact hs
    case h_2 hpc =>
      have hfails : ok = false := by simpa [missesAudio, hpc] using hok
      rw [if_neg (by simp [hfails])] at h
      cases h
      exact hs
    case h_3 => cases h
  case cancelOut e _ =>
    have hcancel : Uncounted s s' := by
      unfold cancelOut outCancelled outNotAccepted at h
      dsimp only at h
      repeat' split at h
      all_goals cases h <;> exact ⟨rfl, rfl, rfl⟩
    exact hcancel.counted hs
  case dispFails =>
    split at h <;> cases h
    have htaking : s.disp.taking = [] := by simpa [missesAudio] using hok
    exact counted_goto hs htaking rfl
  case teardown =>
    cases h
    exact hs
  case finalizeTimeout | finalizeEnds | cancelEnds | prepareEnds =>
    split at h <;> cases h
    exact hs

/-- `asr_out_task` does not come back. -/
theorem step_ended {a : Act α} (hended : s.out.pc = .ended) (h : step cfg s a = some s') :
    s'.out.pc = .ended := by
  have hstay : s'.out = s.out → s'.out.pc = .ended := fun hout => hout ▸ hended
  cases a <;> simp only [step] at h <;> split at h
  all_goals try cases h; done
  case receive msg _ => exact hstay (receive_uncounted h).2
  case disp e _ =>
    by_cases hreplay : s.disp.pc = .replay
    · simp only [dispStep, hreplay] at h
      split at h <;> cases h <;> exact hended
    by_cases hfeed : s.disp.pc = .feed
    · simp only [dispStep, hfeed] at h
      split at h <;> cases h <;> exact hended
    exact hstay (dispStep_uncounted hreplay hfeed h).2
  case out e _ =>
    simp only [outStep, hended] at h
    cases h
  case dispCall ok _ =>
    unfold dispCall at h
    repeat' split at h
    all_goals cases h <;> exact hended
  case outCall ok _ =>
    simp only [outCall, hended] at h
    split at h <;> cases h
  case cancelOut e _ =>
    simp only [cancelOut, hended] at h
    cases h
  case teardown =>
    cases h
    exact hended
  case finalizeTimeout =>
    simp only [hended] at h
    cases h
  case dispFails | finalizeEnds | cancelEnds | prepareEnds =>
    split at h <;> cases h
    exact hended

/-! ### Runs -/

/-- **The step lemma.** -/
theorem step_speaker {a : Act α} (hspk : cfg.spkOn = true)
    (hs : s.Counted ∧ (s.out.pc = .ended ∨ s.Buffered)) (hok : KeepsApart cfg s a)
    (h : step cfg s a = some s') : s'.Counted ∧ (s'.out.pc = .ended ∨ s'.Buffered) := by
  obtain ⟨hcount, hs⟩ := hs
  refine ⟨step_counted hspk hcount hok.1 h, ?_⟩
  by_cases hended : s.out.pc = .ended
  · exact .inl (step_ended hended h)
  · exact step_buffered hspk (hs.resolve_left hended) hok.1 (hok.2 hended) h

theorem buffered_start : (State.start : State α).Buffered :=
  ⟨fun _ _ => rfl, by simp [State.stream, State.start],
    by simp [Disp.granted, Out.granted, State.start], by simp [Disp.granted, State.start],
    by simp [State.stream, State.start], fun _ => rfl, by simp [State.markerEnds, State.start],
    trivial⟩

/-- **The run lemma.** -/
theorem run_speaker (hspk : cfg.spkOn = true) {as : List (Act α)}
    (hrun : (machine cfg).run as = some s)
    (hok : (machine cfg).Guarded (KeepsApart cfg) .start as) :
    s.Counted ∧ (s.out.pc = .ended ∨ s.Buffered) :=
  (machine cfg).invariant_of_guarded (KeepsApart cfg) ⟨rfl, .inr buffered_start⟩
    (fun _ _ _ hs hok h => step_speaker hspk hs hok h) hok hrun

/-- **A final embeds the audio of its generation.**  In a run that never puts the audio of
one generation with that of another and never leaves accepted audio out, every embedding is
computed over what the manager accepted for the generation of its final, and the counter is
the total of what it accepted. -/
theorem speaker_audio_exact (cfg : Cfg) (hspk : cfg.spkOn = true) (as : List (Act α)) (s : State α)
    (hrun : (machine cfg).run as = some s)
    (hok : (machine cfg).Guarded (KeepsApart cfg) .start as) : s.SpeakerExact := by
  obtain ⟨hcount, hs⟩ := run_speaker hspk hrun hok
  refine ⟨fun hpc => ?_, hcount⟩
  have hbuffered : s.Buffered := hs.resolve_left (by simp [hpc])
  have hhold := hbuffered.hold
  simp only [Out.hold, hpc] at hhold
  rw [hhold.2]
  cases s.out.firedGen <;> rfl

/-- A connection with speaker embedding. -/
def speakerCfg : Cfg := { exampleCfg with spkOn := true }

/-- An utterance is spoken and finalized, up to the embedding of its final. -/
def utteranceRun : List (Act ℕ) :=
  startTurn 1 ++ endTurn 2 ++ pollToFinalize ++
    ([.finalizeEnds (.accepted "a" none), .out {}, .out {}] : List (Act ℕ))

theorem speaker_audio_exact_utteranceRun :
    ∃ s, (machine speakerCfg).run utteranceRun = some s ∧ s.out.pc = .speakerTest ∧
      s.SpeakerExact :=
  ⟨_, rfl, rfl, speaker_audio_exact speakerCfg rfl utteranceRun _ rfl (by decide)⟩

/-- A second turn is spoken while the first is finalized, fed by the drain and finalized in
its turn. -/
def queuedSpeakerRun : List (Act ℕ) :=
  startTurn 1 ++ endTurn 2 ++ pollToFinalize ++ queueTurn 3 ++
    ([.receive (.audio [4] [1]), .disp {}, .disp {}] : List (Act ℕ)) ++ sendFinal ++
    ([.out {}, .outCall true, .out {}, .out {}, .outCall true, .out {}, .out {}, .outCall true,
      .out {}, .out {}, .out {}] : List (Act ℕ)) ++
    pollToFinalize ++ ([.finalizeEnds (.accepted "b" none), .out {}, .out {}] : List (Act ℕ))

/-- **A queued turn has no embedding**: the manager accepted its samples for generation `2`,
and the buffer holds none of them.  The counter misses them as well. -/
theorem queuedSpeakerRun_misses_audio :
    ∃ s, (machine speakerCfg).run queuedSpeakerRun = some s ∧ s.out.pc = .speakerTest ∧
      s.out.firedGen = some 2 ∧ accepted 2 s.trace = [3, 4] ∧ s.spkSeg.flatten = [] ∧
      s.diarSamples = 2 ∧ acceptedTotal s.trace = 4 ∧ ¬ s.SpeakerExact :=
  ⟨_, rfl, rfl, rfl, by decide, by decide, rfl, by decide,
    fun h => absurd (h.1 rfl) (by decide)⟩

end Asr
end V2v
end OpenVoiceStream
