import OpenVoiceStream.AsrStream.Model
import Mathlib.Data.List.Infix
import Mathlib.Tactic.Common

/-!
# Utterances partition the audio

Every stream of a connection holds a block of consecutive samples, and a new stream begins
where the last one ended.  So the finals of different streams do not overlap.  A stream has
more than one final only if the client asked for one: the handler keeps the stream then,
and the next final covers the samples of the last one again, followed by those that came
since.  All other endpoints make a new stream or close the connection.

## Main definitions

* `Partition` — where the finals lie, and what became of all other samples.
* `Live` — the same with the current stream of an open connection.

## Main results

* `Live.accept`, `Live.emit`, `Live.rearm`, `Live.discard` — what the steps of the handler
  do.
* `Tracked.handle` — a frame keeps the partition.
* `partition_of_run` — the finals of every run.
-/

namespace OpenVoiceStream.AsrStream

open V2v (VadEvent Segment splitVadBlock)

variable {α : Type}

/-! ### The partition -/

/-- The samples of a final are consecutive, in the order of their arrival.  A later final
begins behind an earlier one, or goes on with its stream, which the client asked to be
finalized.  After any other final the stream is a new one.  A sample that is in no final
was lost with its stream, or is in the current one. -/
structure Partition (s : Session α) : Prop where
  inOrder : ∀ f ∈ s.finals, f.source = (s.accepted.drop f.first).take f.source.length
  apart : s.finals.Pairwise fun f g =>
    f.stop ≤ g.first ∨ (f.endpoint = .eou ∧ f.first = g.first ∧ f.source <+: g.source)
  rearmed : ∀ f ∈ s.finals, f.endpoint ≠ .eou → s.closed = true ∨ f.stop ≤ s.stream.first
  covered : ∀ i < s.accepted.length, (∃ f ∈ s.finals, f.first ≤ i ∧ i < f.stop) ∨
    (∃ d ∈ s.lost, d.first ≤ i ∧ i < d.stop) ∨ (s.closed = false ∧ s.stream.first ≤ i)

/-- The stream holds what was accepted since it was made, and every final lies before it
or was asked for by the client and is a beginning of it. -/
structure Live (s : Session α) : Prop where
  first_le : s.stream.first ≤ s.accepted.length
  holds : s.stream.samples = s.accepted.drop s.stream.first
  inOrder : ∀ f ∈ s.finals, f.source = (s.accepted.drop f.first).take f.source.length
  apart : s.finals.Pairwise fun f g =>
    f.stop ≤ g.first ∨ (f.endpoint = .eou ∧ f.first = g.first ∧ f.source <+: g.source)
  before : ∀ f ∈ s.finals, f.stop ≤ s.stream.first ∨
    (f.endpoint = .eou ∧ f.first = s.stream.first ∧ f.source <+: s.stream.samples)
  covered : ∀ i < s.stream.first, (∃ f ∈ s.finals, f.first ≤ i ∧ i < f.stop) ∨
    ∃ d ∈ s.lost, d.first ≤ i ∧ i < d.stop

/-- A connection whose stream holds what it should is partitioned. -/
theorem Live.partition {s : Session α} (h : Live s) (hopen : s.closed = false) : Partition s := by
  refine ⟨h.inOrder, h.apart, ?_, ?_⟩
  · intro f hf hne
    refine .inr ((h.before f hf).resolve_right ?_)
    exact fun hkept => hne hkept.1
  · intro i hi
    by_cases hlt : i < s.stream.first
    · exact (h.covered i hlt).imp id .inl
    · exact .inr (.inr ⟨hopen, not_lt.mp hlt⟩)

/-- The samples of a stream are the last ones accepted. -/
theorem Live.stop_eq {s : Session α} (h : Live s) :
    s.stream.first + s.stream.samples.length = s.accepted.length := by
  have hle := h.first_le
  rw [h.holds, List.length_drop]
  omega

/-! ### The steps of the handler -/

/-- A connection that was just opened. -/
theorem live_start : Live (Session.start : Session α) := by
  refine ⟨le_refl 0, rfl, ?_, List.Pairwise.nil, ?_, ?_⟩
  · exact fun f hf => absurd hf List.not_mem_nil
  · exact fun f hf => absurd hf List.not_mem_nil
  · exact fun i hi => absurd hi (Nat.not_lt_zero i)

/-- A slice of what was accepted is one of all that is accepted later. -/
theorem slice_append {accepted segment source : List α} {first : ℕ}
    (h : source = (accepted.drop first).take source.length) :
    source = ((accepted ++ segment).drop first).take source.length := by
  have hlen : source.length ≤ (accepted.drop first).length := by
    conv_lhs => rw [h]
    exact List.length_take_le' ..
  rcases Nat.lt_or_ge accepted.length first with hlt | hle
  · -- a slice that begins behind the end is empty
    have hnil : source = [] := by
      rw [List.drop_eq_nil_of_le hlt.le] at hlen
      exact List.eq_nil_of_length_eq_zero (Nat.le_zero.mp hlen)
    rw [hnil]
    rfl
  · rw [List.drop_append_of_le_length hle, List.take_append_of_le_length hlen]
    exact h

/-- Feeding a segment. -/
theorem Live.accept {s : Session α} (h : Live s) (cfg : Config) (segment : List α) :
    Live (s.accept cfg segment) := by
  refine ⟨?_, ?_, ?_, h.apart, ?_, h.covered⟩
  · show s.stream.first ≤ (s.accepted ++ segment).length
    rw [List.length_append]
    exact h.first_le.trans (Nat.le_add_right ..)
  · show s.stream.samples ++ segment = (s.accepted ++ segment).drop s.stream.first
    rw [List.drop_append_of_le_length h.first_le, h.holds]
  · exact fun f hf => slice_append (h.inOrder f hf)
  · intro f hf
    refine (h.before f hf).imp id ?_
    rintro ⟨heou, hfirst, hprefix⟩
    exact ⟨heou, hfirst, hprefix.trans (List.prefix_append ..)⟩

/-- A new stream begins behind all that was accepted. -/
theorem Live.rearm_of_covered {s : Session α} (h : Live s)
    (hcovered : ∀ i, s.stream.first ≤ i → i < s.accepted.length →
      (∃ f ∈ s.finals, f.first ≤ i ∧ i < f.stop) ∨ ∃ d ∈ s.lost, d.first ≤ i ∧ i < d.stop) :
    Live s.rearm := by
  have hstop := h.stop_eq
  refine ⟨le_refl _, ?_, h.inOrder, h.apart, ?_, ?_⟩
  · exact (List.drop_eq_nil_of_le (le_refl s.accepted.length)).symm
  · intro f hf
    left
    show f.stop ≤ s.accepted.length
    rcases h.before f hf with hle | ⟨-, hfirst, hprefix⟩
    · exact hle.trans h.first_le
    · have hlen := hprefix.length_le
      unfold Final.stop
      omega
  · intro i hi
    rcases Nat.lt_or_ge i s.stream.first with hlt | hge
    · exact h.covered i hlt
    · exact hcovered i hge hi

/-- A final is sent for the samples of the stream. -/
def emitted (s : Session α) (endpoint : Endpoint) : Session α :=
  s.emit endpoint (s.stream.samples, s.stream)

/-- The new final lies behind the others as the stream does, and covers the stream. -/
theorem emitted_spec {s : Session α} (h : Live s) (endpoint : Endpoint) :
    (∀ f ∈ (emitted s endpoint).finals,
      f.source = (s.accepted.drop f.first).take f.source.length) ∧
    (emitted s endpoint).finals.Pairwise (fun f g =>
      f.stop ≤ g.first ∨ (f.endpoint = .eou ∧ f.first = g.first ∧ f.source <+: g.source)) ∧
    ∃ g ∈ (emitted s endpoint).finals, g.first = s.stream.first ∧ g.stop = s.accepted.length := by
  have hmem : ∀ f ∈ (emitted s endpoint).finals, f ∈ s.finals ∨
      (f.endpoint = endpoint ∧ f.first = s.stream.first ∧ f.source = s.stream.samples) := by
    intro f hf
    rcases List.mem_append.mp hf with hf | hf
    · exact .inl hf
    · rw [List.mem_singleton] at hf
      subst hf
      exact .inr ⟨rfl, rfl, rfl⟩
  refine ⟨?_, ?_, ?_⟩
  · intro f hf
    rcases hmem f hf with hf | ⟨-, hfirst, hsource⟩
    · exact h.inOrder f hf
    · rw [hfirst, hsource, h.holds, List.take_length]
  · refine List.pairwise_append.mpr ⟨h.apart, List.pairwise_singleton _ _, ?_⟩
    intro f hf g hg
    rw [List.mem_singleton] at hg
    subst hg
    exact h.before f hf
  · exact ⟨_, List.mem_append_right _ List.mem_cons_self, rfl, h.stop_eq⟩

/-- **A final the client asked for.**  The stream is kept, and so is what holds of it. -/
theorem Live.emit_eou {s : Session α} (h : Live s) : Live (emitted s .eou) := by
  obtain ⟨hinOrder, hapart, -⟩ := emitted_spec h .eou
  refine ⟨h.first_le, h.holds, hinOrder, hapart, ?_, ?_⟩
  · intro f hf
    rcases List.mem_append.mp hf with hf | hf
    · exact h.before f hf
    · rw [List.mem_singleton] at hf
      subst hf
      exact .inr ⟨rfl, rfl, List.prefix_refl _⟩
  · intro i hi
    refine (h.covered i hi).imp ?_ id
    rintro ⟨f, hf, hin⟩
    exact ⟨f, List.mem_append_left _ hf, hin⟩

/-- **Any other final**, after which the stream is made anew. -/
theorem Live.emit_rearm {s : Session α} (h : Live s) (endpoint : Endpoint) :
    Live (emitted s endpoint).rearm := by
  obtain ⟨hinOrder, hapart, g, hg, hfirst, hstop⟩ := emitted_spec h endpoint
  refine ⟨le_refl _, ?_, hinOrder, hapart, ?_, ?_⟩
  · exact (List.drop_eq_nil_of_le (le_refl s.accepted.length)).symm
  · intro f hf
    left
    show f.stop ≤ s.accepted.length
    have hlen := h.stop_eq
    rcases List.mem_append.mp hf with hf | hf
    · rcases h.before f hf with hle | ⟨-, hfirst, hprefix⟩
      · exact hle.trans h.first_le
      · have hle := hprefix.length_le
        unfold Final.stop
        omega
    · rw [List.mem_singleton] at hf
      subst hf
      exact hlen.le
  · intro i hi
    rcases Nat.lt_or_ge i s.stream.first with hlt | hge
    · refine (h.covered i hlt).imp ?_ id
      rintro ⟨f, hf, hin⟩
      exact ⟨f, List.mem_append_left _ hf, hin⟩
    · exact .inl ⟨g, hg, hfirst ▸ hge, hstop ▸ hi⟩

/-- What is lost with a stream covers it. -/
theorem Live.covered_lose {s : Session α} (h : Live s) (reason : Reason) :
    ∀ i < s.accepted.length, (∃ f ∈ s.finals, f.first ≤ i ∧ i < f.stop) ∨
      ∃ d ∈ (s.lose reason).lost, d.first ≤ i ∧ i < d.stop := by
  intro i hi
  have hstop := h.stop_eq
  rcases Nat.lt_or_ge i s.stream.first with hlt | hge
  · refine (h.covered i hlt).imp id ?_
    rintro ⟨d, hd, hin⟩
    exact ⟨d, List.mem_append_left _ hd, hin⟩
  · refine .inr ⟨_, List.mem_append_right _ List.mem_cons_self, hge, ?_⟩
    show i < s.stream.first + s.stream.samples.length
    omega

/-- A stream is thrown away for a new one. -/
theorem Live.discard {s : Session α} (h : Live s) (reason : Reason) :
    Live (s.discard reason) := by
  have hlose : Live (s.lose reason) := by
    refine ⟨h.first_le, h.holds, h.inOrder, h.apart, h.before, ?_⟩
    exact fun i hi => h.covered_lose reason i (hi.trans_le h.first_le)
  exact hlose.rearm_of_covered fun i _ hi => h.covered_lose reason i hi

/-- The connection ends with the stream. -/
theorem Live.fail {s : Session α} (h : Live s) (reason : Reason) :
    Partition (s.fail reason) := by
  refine ⟨h.inOrder, h.apart, fun _ _ _ => .inl rfl, ?_⟩
  intro i hi
  exact (h.covered_lose reason i hi).imp id .inl

/-- The connection ends with a final. -/
theorem Live.emit_closed {s : Session α} (h : Live s) (endpoint : Endpoint) :
    Partition { emitted s endpoint with closed := true } := by
  obtain ⟨hinOrder, hapart, g, hg, hfirst, hstop⟩ := emitted_spec h endpoint
  refine ⟨hinOrder, hapart, fun _ _ _ => .inl rfl, ?_⟩
  intro i hi
  rcases Nat.lt_or_ge i s.stream.first with hlt | hge
  · rcases h.covered i hlt with ⟨f, hf, hin⟩ | hlost
    · exact .inl ⟨f, List.mem_append_left _ hf, hin⟩
    · exact .inr (.inl hlost)
  · exact .inl ⟨g, hg, hfirst ▸ hge, hstop ▸ hi⟩

/-! ### Frames and runs -/

/-- A connection is partitioned, and its stream holds what it should while it is open. -/
def Tracked (s : Session α) : Prop := Partition s ∧ (s.closed = false → Live s)

/-- An open connection whose stream holds what it should. -/
theorem Live.tracked {s : Session α} (h : Live s) (hopen : s.closed = false) : Tracked s :=
  ⟨h.partition hopen, fun _ => h⟩

/-- A closed connection that is partitioned. -/
theorem Partition.tracked {s : Session α} (h : Partition s) (hclosed : s.closed = true) :
    Tracked s := by
  refine ⟨h, fun hopen => ?_⟩
  rw [hclosed] at hopen
  cases hopen

/-- The segments of a block. -/
theorem tracked_runSegments (cfg : Config) (outcome : ℕ → Outcome) (segments : List (Segment α)) :
    ∀ (i : ℕ) (s : Session α), Live s → s.closed = false →
      Tracked (s.runSegments cfg outcome i segments) := by
  induction segments with
  | nil => exact fun i s h hopen => h.tracked hopen
  | cons segment rest ih =>
    intro i s h hopen
    have haccept := h.accept cfg segment.samples
    unfold Session.runSegments
    dsimp only
    split
    · cases outcome i with
      | done => exact ih (i + 1) _ (haccept.emit_rearm .vad) hopen
      | full => exact ih (i + 1) _ (haccept.discard (.busy .vad)) hopen
      | failed => exact (haccept.fail .closed).tracked rfl
    · exact ih (i + 1) _ haccept hopen

/-- A text frame. -/
theorem tracked_onText (cfg : Config) {s : Session α} (h : Live s) (hopen : s.closed = false)
    (cmd : Option Value) (outcome : Outcome) : Tracked (s.onText cfg cmd outcome) := by
  unfold Session.onText
  cases command cmd with
  | ignored => exact h.tracked hopen
  | raises => exact (h.fail .closed).tracked rfl
  | reset =>
    dsimp only
    split
    · exact ((h.discard .reset).fail .closed).tracked rfl
    · exact (h.discard .reset).tracked hopen
  | endUtterance =>
    cases outcome with
    | done =>
      -- both ways of ending the utterance return the samples of the stream and keep it
      have hout : (if cfg.forceEndpoint then s.stream.forceEndpoint
          else s.stream.prepareFinalize.finalize) = (s.stream.samples, s.stream) := by
        split <;> rfl
      dsimp only
      rw [hout]
      exact h.emit_eou.tracked hopen
    | full => exact (h.discard (.busy .eou)).tracked hopen
    | failed => exact (h.fail .closed).tracked rfl

/-- A binary frame. -/
theorem tracked_onAudio (cfg : Config) {s : Session α} (h : Live s) (hopen : s.closed = false)
    (data : List α) (events : List (VadEvent × ℤ)) (outcome : ℕ → Outcome) (poll : Poll) :
    Tracked (s.onAudio cfg data events outcome poll) := by
  unfold Session.onAudio
  split
  · cases outcome 0 with
    | done => exact (h.emit_closed .eos).tracked rfl
    | full => exact (h.fail (.busy .eos)).tracked rfl
    | failed => exact (h.fail .closed).tracked rfl
  · dsimp only
    have hrun := tracked_runSegments cfg outcome
      (splitVadBlock data (if cfg.vad then events else [])) 0 s h hopen
    generalize s.runSegments cfg outcome 0
      (splitVadBlock data (if cfg.vad then events else [])) = after at hrun ⊢
    by_cases hclosed : after.closed = true
    · rw [if_pos hclosed]
      exact hrun
    · rw [if_neg hclosed]
      have hlive := hrun.2 (Bool.not_eq_true _ ▸ hclosed)
      cases poll with
      | silent => exact hrun
      | text => exact hrun
      | endpoint => exact (hlive.emit_rearm .backend).tracked (Bool.not_eq_true _ ▸ hclosed)
      | failed => exact (hlive.fail .closed).tracked rfl

/-- **A frame keeps the partition.** -/
theorem Tracked.handle (cfg : Config) {s : Session α} (h : Tracked s) (hopen : s.closed = false)
    (frame : Frame α) : Tracked (s.handle cfg frame) := by
  have hlive := h.2 hopen
  cases frame with
  | text cmd outcome => exact tracked_onText cfg hlive hopen cmd outcome
  | binary data events outcome poll => exact tracked_onAudio cfg hlive hopen data events outcome poll
  | odd => exact (hlive.fail .closed).tracked rfl
  | disconnect => exact (hlive.fail .closed).tracked rfl
  | other => exact h

/-- **Utterances partition the audio.**  In every run the finals lie as `Partition` says. -/
theorem partition_of_run (cfg : Config) {frames : List (Frame α)} {s : Session α}
    (hrun : (machine cfg).run frames = some s) : Partition s := by
  have htracked : Tracked s := (machine cfg).invariant_of_step
    (P := Tracked) (live_start.tracked rfl)
    (fun s frame s' hs hstep => by
      by_cases hclosed : s.closed = true
      · simp only [machine, hclosed, if_true] at hstep
        cases hstep
      · simp only [machine, hclosed] at hstep
        cases hstep
        exact hs.handle cfg (Bool.not_eq_true _ ▸ hclosed) frame)
    hrun
  exact htracked.1

/-! ### Runs -/

/-- A block with the end of one utterance inside, a rejected request, and the end of the
audio. -/
def spokenFrames : List (Frame ℤ) :=
  [.binary [1, 2, 3, 4] [(.speechStart, 0), (.speechEnd, 3)] (fun _ => .done) .silent,
   .text (some (.dict [("command", .str "end_utterance")])) .full,
   .binary [5, 6] [] (fun _ => .done) .text,
   .binary [] [] (fun _ => .done) .silent]

/-- A backend that accumulates, behind a VAD. -/
def plainConfig : Config := { vad := true, forceEndpoint := false, spkOn := true }

theorem partition_of_run_spokenFrames :
    ∃ s, (machine plainConfig).run spokenFrames = some s ∧ Partition s ∧
      s.finals.map Final.source = [[1, 2, 3], [5, 6]] :=
  ⟨_, rfl, (partition_of_run plainConfig : (machine plainConfig).run spokenFrames = _ → _) rfl, rfl⟩

/-- The client ends two utterances. -/
def twiceFrames : List (Frame ℤ) :=
  [.binary [1] [] (fun _ => .done) .silent, .text (some (.dict [("type", .str "eou")])) .done,
   .binary [2] [] (fun _ => .done) .silent, .text (some (.dict [("type", .str "eou")])) .done]

/-- The second final covers the first utterance again. -/
theorem twiceFrames_overlap :
    ∃ s, (machine plainConfig).run twiceFrames = some s ∧
      s.finals.map Final.source = [[1], [1, 2]] ∧
      ¬ s.finals.Pairwise fun f g => f.stop ≤ g.first :=
  ⟨_, rfl, rfl, by decide +kernel⟩

end OpenVoiceStream.AsrStream
