import Mathlib.Data.List.Chain
import Mathlib.Data.List.Induction
import OpenVoiceStream.Base.Framing
import OpenVoiceStream.Base.Rounding

/-!
# The client's utterance segmenter

`vad_gated` turns a stream of chunks into utterances.  While idle it keeps the last
chunks in a ring; a run of speech chunks of `min_speech_ms` confirms an onset, and the
ring is replayed; from then on each chunk is sent on until `silence_ms` of silence.

## Main definitions

* `Gate.step` — one chunk: the state after it and what is yielded.
* `vadGated` — what is yielded at each chunk of a stream.
* `Segmented` — the contract: utterances in order, nothing twice, no clipped onset, the
  end on time.
* `Gate.Inv` — what the state says about the chunks so far.

## Main results

* `Gate.Inv.step` — one chunk keeps the invariant.
-/

namespace OpenVoiceStream
namespace VadGate

/-- What `vad_gated` yields. -/
inductive GateEvent (α : Type)
  | speechStart
  | audio (chunk : α)
  | speechEnd
  deriving DecidableEq, Repr

/-- The same event with another name for its chunk. -/
def GateEvent.map {α β : Type} (f : α → β) : GateEvent α → GateEvent β
  | .speechStart => .speechStart
  | .audio chunk => .audio (f chunk)
  | .speechEnd => .speechEnd

/-- The keyword arguments. -/
structure Params where
  chunkMs : ℤ
  prerollMs : ℤ
  silenceMs : ℤ
  minSpeechMs : ℤ

namespace Params

variable (p : Params)

/-- `max(1, int(chunk_ms))`. -/
def chunk : ℤ := max 1 p.chunkMs

/-- `max(1, int(round(preroll_ms / chunk_ms)))`. -/
def prerollMax : ℕ := (max 1 (roundHalfEven (p.prerollMs / p.chunk))).toNat

/-- How many chunks of speech confirm an onset. -/
def onsetChunks : ℕ := (max 1 (-(-p.minSpeechMs / p.chunk))).toNat

theorem chunk_pos : 0 < p.chunk := by
  unfold chunk
  omega

theorem prerollMax_pos : 0 < p.prerollMax := by
  unfold prerollMax
  omega

theorem onsetChunks_pos : 0 < p.onsetChunks := by
  unfold onsetChunks
  omega

/-- An onset is confirmed when the chunks last `min_speech_ms`. -/
theorem onsetChunks_le_iff {m : ℕ} (hm : 0 < m) :
    p.onsetChunks ≤ m ↔ p.minSpeechMs ≤ p.chunk * m := by
  have hceil : -(-p.minSpeechMs / p.chunk) ≤ m ↔ p.minSpeechMs ≤ p.chunk * m := by
    rw [neg_le, Int.le_ediv_iff_mul_le p.chunk_pos, neg_mul, neg_le_neg_iff, mul_comm]
  unfold onsetChunks
  rw [← hceil]
  omega

end Params

/-- `deque(maxlen=cap)`. -/
structure Deque (α : Type) (cap : ℕ) where
  slots : List α
  bound : slots.length ≤ cap

namespace Deque

variable {α β : Type} {cap : ℕ}

theorem bound_nil : ([] : List α).length ≤ cap := Nat.zero_le _

/-- `clear`. -/
def empty : Deque α cap := ⟨[], bound_nil⟩

theorem bound_append (slots : List α) (x : α) :
    ((slots ++ [x]).drop ((slots ++ [x]).length - cap)).length ≤ cap := by
  rw [List.length_drop]
  omega

/-- `append`: the oldest slot makes room. -/
def append (d : Deque α cap) (x : α) : Deque α cap :=
  ⟨(d.slots ++ [x]).drop ((d.slots ++ [x]).length - cap), bound_append d.slots x⟩

theorem length_append (d : Deque α cap) (x : α) :
    (d.append x).slots.length = min cap (d.slots.length + 1) := by
  simp only [append, List.length_drop, List.length_append, List.length_singleton]
  omega

end Deque

/-- The local variables of `vad_gated`. -/
structure Gate (α : Type) (cap : ℕ) where
  speaking : Bool
  preroll : Deque α cap
  speechAcc : ℤ
  silenceAcc : ℤ

namespace Gate

variable {α β : Type}

/-- `state = "idle"`, with nothing in the ring and both accumulators at zero. -/
def idle {cap : ℕ} : Gate α cap :=
  { speaking := false, preroll := .empty, speechAcc := 0, silenceAcc := 0 }

/-- One chunk of the loop of `vad_gated`: the state after it and what is yielded. -/
def step (p : Params) (st : Gate α p.prerollMax) (c : α × Bool) :
    Gate α p.prerollMax × List (GateEvent α) :=
  if st.speaking then
    if c.2 then ({ st with silenceAcc := 0 }, [.audio c.1])
    else if p.silenceMs ≤ st.silenceAcc + p.chunk then (idle, [.audio c.1, .speechEnd])
    else ({ st with silenceAcc := st.silenceAcc + p.chunk }, [.audio c.1])
  else if c.2 then
    if p.minSpeechMs ≤ st.speechAcc + p.chunk then
      ({ speaking := true, preroll := .empty, speechAcc := st.speechAcc + p.chunk,
         silenceAcc := 0 },
        .speechStart :: (st.preroll.append c.1).slots.map .audio)
    else
      ({ st with speechAcc := st.speechAcc + p.chunk, preroll := st.preroll.append c.1 }, [])
  else ({ st with speechAcc := 0, preroll := st.preroll.append c.1 }, [])

section Cases

variable {p : Params} {st : Gate α p.prerollMax} {chunk : α}

theorem step_speaking (h : st.speaking = true) :
    st.step p (chunk, true) = ({ st with silenceAcc := 0 }, [.audio chunk]) := by
  simp [step, h]

theorem step_ends (h : st.speaking = true) (hend : p.silenceMs ≤ st.silenceAcc + p.chunk) :
    st.step p (chunk, false) = (idle, [.audio chunk, .speechEnd]) := by
  simp [step, h, hend]

theorem step_pauses (h : st.speaking = true)
    (hend : ¬ p.silenceMs ≤ st.silenceAcc + p.chunk) :
    st.step p (chunk, false) =
      ({ st with silenceAcc := st.silenceAcc + p.chunk }, [.audio chunk]) := by
  simp [step, h, hend]

theorem step_confirms (h : st.speaking = false)
    (hmin : p.minSpeechMs ≤ st.speechAcc + p.chunk) :
    st.step p (chunk, true) =
      ({ speaking := true, preroll := .empty, speechAcc := st.speechAcc + p.chunk,
         silenceAcc := 0 },
        .speechStart :: (st.preroll.append chunk).slots.map .audio) := by
  simp [step, h, hmin]

theorem step_hears (h : st.speaking = false)
    (hmin : ¬ p.minSpeechMs ≤ st.speechAcc + p.chunk) :
    st.step p (chunk, true) =
      ({ st with speechAcc := st.speechAcc + p.chunk, preroll := st.preroll.append chunk },
        []) := by
  simp [step, h, hmin]

theorem step_idle (h : st.speaking = false) :
    st.step p (chunk, false) =
      ({ st with speechAcc := 0, preroll := st.preroll.append chunk }, []) := by
  simp [step, h]

end Cases

end Gate

variable {α β : Type}

/-- What the loop yields at each chunk. -/
def segment (p : Params) (chunks : List (α × Bool)) : List (List (GateEvent α)) :=
  (Framer.outputsOf (Gate.step p) Gate.idle chunks).2

/-- `is_speech`: an error of the VAD is silence. -/
def heard (answer : Option Bool) : Bool := answer.getD false

/-- `vad_gated` over chunks, each with the answer of the VAD (`none` when it raises): what is
yielded at each of them. -/
def vadGated (p : Params) (chunks : List (α × Option Bool)) : List (List (GateEvent α)) :=
  segment p (chunks.map fun c => (c.1, heard c.2))

/-! ### The contract -/

/-- Where a client is in `(speech_start audio+ speech_end)*`. -/
inductive Phase
  | between
  | started
  | talking
  deriving DecidableEq, Repr

/-- The events that may come next. -/
def Phase.next {α : Type} : Phase → GateEvent α → Option Phase
  | .between, .speechStart => some .started
  | .started, .audio _ => some .talking
  | .talking, .audio _ => some .talking
  | .talking, .speechEnd => some .between
  | _, _ => none

/-- The phase after some events, if they are in the grammar. -/
def phaseAfter (events : List (GateEvent α)) : Option Phase :=
  events.foldlM Phase.next .between

/-- The chunk an event carries. -/
def GateEvent.chunk? : GateEvent α → Option α
  | .audio chunk => some chunk
  | _ => none

/-- Two events one after the other: chunks of one utterance are neighbours in the input. -/
def Neighbours : GateEvent ℕ → GateEvent ℕ → Prop
  | .audio i, .audio j => j = i + 1
  | _, _ => True

/-- What is yielded at the chunk `k`. -/
def yieldsAt (out : List (List (GateEvent α))) (k : ℕ) : List (GateEvent α) :=
  (out[k]?).getD []

/-- How many answers at the end are `b`. -/
def trailing (b : Bool) (answers : List Bool) : ℕ :=
  (answers.reverse.takeWhile (· == b)).length

/-- The utterance that began at `c` is still open at the chunk `k`. -/
def OpenSince (out : List (List (GateEvent ℕ))) (c k : ℕ) : Prop :=
  c < k ∧ .speechStart ∈ yieldsAt out c ∧
    ∀ e, c < e → e < k → .speechEnd ∉ yieldsAt out e

/-- The contract of the segmenter, for the chunks named by their positions. -/
structure Segmented (p : Params) (answers : List Bool) (out : List (List (GateEvent ℕ))) :
    Prop where
  /-- The output is a prefix of `(speech_start audio+ speech_end)*`. -/
  grammar : (phaseAfter out.flatten).isSome
  /-- Each chunk comes at most once, in input order. -/
  ordered : (out.flatten.filterMap GateEvent.chunk?).Pairwise (· < ·)
  /-- The chunks are of the input. -/
  fromInput : ∀ i ∈ out.flatten.filterMap GateEvent.chunk?, i < answers.length
  /-- The chunks of one utterance are a contiguous run of the input. -/
  contiguous : out.flatten.IsChain Neighbours
  /-- Each chunk of the speech run that confirmed an onset is replayed at the onset. -/
  unclipped : ∀ c, .speechStart ∈ yieldsAt out c → ∀ i ≤ c,
    (∀ m, i ≤ m → m ≤ c → answers[m]? = some true) → .audio i ∈ yieldsAt out c
  /-- An utterance ends exactly when its trailing silence reaches `silence_ms`. -/
  ends : ∀ k < answers.length, .speechEnd ∈ yieldsAt out k ↔ ∃ c, OpenSince out c k ∧
    0 < trailing false ((answers.take (k + 1)).drop (c + 1)) ∧
    p.silenceMs ≤ p.chunk * trailing false ((answers.take (k + 1)).drop (c + 1))

/-- The chunks of the input named by their positions. -/
def positions (answers : List Bool) : List (ℕ × Bool) :=
  answers.zipIdx.map Prod.swap

/-! ### Runs at the end of the answers -/

@[simp] theorem trailing_nil (b : Bool) : trailing b [] = 0 := rfl

@[simp] theorem trailing_concat_self (b : Bool) (answers : List Bool) :
    trailing b (answers ++ [b]) = trailing b answers + 1 := by
  simp [trailing]

@[simp] theorem trailing_concat_not (b : Bool) (answers : List Bool) :
    trailing b (answers ++ [!b]) = 0 := by
  cases b <;> simp [trailing]

theorem trailing_le_length (b : Bool) (answers : List Bool) :
    trailing b answers ≤ answers.length := by
  have := (List.takeWhile_prefix (p := (· == b)) (l := answers.reverse)).length_le
  rwa [List.length_reverse] at this

/-- The answers of the run at the end. -/
theorem getElem?_of_trailing (b : Bool) (answers : List Bool) :
    ∀ m < answers.length, answers.length - trailing b answers ≤ m → answers[m]? = some b := by
  induction answers using List.reverseRecOn with
  | nil => intro m hm; simp at hm
  | append_singleton answers b' ih =>
    intro m hm hle
    rw [List.length_append, List.length_singleton] at hm hle
    by_cases hb : b' = b
    · subst hb
      rw [trailing_concat_self] at hle
      rcases Nat.lt_succ_iff_lt_or_eq.mp hm with hlt | rfl
      · rw [List.getElem?_append_left hlt]
        exact ih m hlt (by omega)
      · simp
    · obtain rfl : b' = !b := by cases b <;> cases b' <;> simp_all
      rw [trailing_concat_not] at hle
      omega

/-- A run up to the end is part of the run at the end. -/
theorem le_trailing (b : Bool) (answers : List Bool) : ∀ i,
    (∀ m, i ≤ m → m < answers.length → answers[m]? = some b) →
      answers.length - i ≤ trailing b answers := by
  induction answers using List.reverseRecOn with
  | nil => intro i _; simp
  | append_singleton answers b' ih =>
    intro i hrun
    rw [List.length_append, List.length_singleton]
    by_cases hi : i ≤ answers.length
    · have hlast := hrun answers.length hi (by simp)
      rw [List.getElem?_append_right (Nat.le_refl _), Nat.sub_self] at hlast
      obtain rfl : b' = b := by simpa using hlast
      have hrest := ih i (by
        intro m hm hlt
        have := hrun m hm (by rw [List.length_append]; omega)
        rwa [List.getElem?_append_left hlt] at this)
      rw [trailing_concat_self]
      omega
    · omega

/-! ### What is yielded at a chunk -/

theorem yieldsAt_concat_lt (out : List (List (GateEvent α))) (events : List (GateEvent α))
    {k : ℕ} (h : k < out.length) : yieldsAt (out ++ [events]) k = yieldsAt out k := by
  rw [yieldsAt, yieldsAt, List.getElem?_append_left h]

theorem yieldsAt_concat_length (out : List (List (GateEvent α)))
    (events : List (GateEvent α)) : yieldsAt (out ++ [events]) out.length = events := by
  simp [yieldsAt]

theorem yieldsAt_take (out : List (List (GateEvent α))) {j k : ℕ} (h : j < k) :
    yieldsAt (out.take k) j = yieldsAt out j := by
  rw [yieldsAt, yieldsAt, List.getElem?_take_of_lt h]

theorem lt_length_of_mem_yieldsAt {out : List (List (GateEvent α))} {k : ℕ}
    {event : GateEvent α} (h : event ∈ yieldsAt out k) : k < out.length := by
  by_contra hge
  rw [yieldsAt, List.getElem?_eq_none (Nat.le_of_not_lt hge)] at h
  cases h

/-- The utterances that are open after one more chunk. -/
theorem openSince_concat {out : List (List (GateEvent ℕ))} {n : ℕ} (hn : out.length = n)
    (events : List (GateEvent ℕ)) (c : ℕ) :
    OpenSince (out ++ [events]) c (n + 1) ↔
      OpenSince out c n ∧ .speechEnd ∉ events ∨ c = n ∧ .speechStart ∈ events := by
  subst hn
  constructor
  · rintro ⟨hc, hstart, hopen⟩
    rcases Nat.lt_succ_iff_lt_or_eq.mp hc with hlt | rfl
    · left
      rw [yieldsAt_concat_lt out events hlt] at hstart
      refine ⟨⟨hlt, hstart, ?_⟩, ?_⟩
      · intro e he hlt'
        have := hopen e he (by omega)
        rwa [yieldsAt_concat_lt out events hlt'] at this
      · have := hopen out.length hlt (Nat.lt_succ_self _)
        rwa [yieldsAt_concat_length] at this
    · right
      rw [yieldsAt_concat_length] at hstart
      exact ⟨rfl, hstart⟩
  · rintro (⟨⟨hc, hstart, hopen⟩, hend⟩ | ⟨rfl, hstart⟩)
    · refine ⟨by omega, by rwa [yieldsAt_concat_lt out events hc], ?_⟩
      intro e he hlt
      rcases Nat.lt_succ_iff_lt_or_eq.mp hlt with hlt' | rfl
      · rw [yieldsAt_concat_lt out events hlt']
        exact hopen e he hlt'
      · rwa [yieldsAt_concat_length]
    · refine ⟨Nat.lt_succ_self _, by rwa [yieldsAt_concat_length], ?_⟩
      intro e he hlt
      omega

theorem openSince_take {out : List (List (GateEvent ℕ))} {c k : ℕ} :
    OpenSince (out.take k) c k ↔ OpenSince out c k := by
  unfold OpenSince
  constructor
  · rintro ⟨hc, hstart, hopen⟩
    rw [yieldsAt_take out hc] at hstart
    refine ⟨hc, hstart, ?_⟩
    intro e he hlt
    have := hopen e he hlt
    rwa [yieldsAt_take out hlt] at this
  · rintro ⟨hc, hstart, hopen⟩
    refine ⟨hc, by rwa [yieldsAt_take out hc], ?_⟩
    intro e he hlt
    rw [yieldsAt_take out hlt]
    exact hopen e he hlt

/-! ### The events so far -/

/-- The events so far, from the two states of the segmenter: the chunks among them are
below `bound`. -/
structure Emitted (speaking : Bool) (bound : ℕ) (events : List (GateEvent ℕ)) : Prop where
  phase : phaseAfter events = some (if speaking then .talking else .between)
  ordered : (events.filterMap GateEvent.chunk?).Pairwise (· < ·)
  before : ∀ i ∈ events.filterMap GateEvent.chunk?, i < bound
  contiguous : events.IsChain Neighbours
  last : ∀ i, events.getLast? = some (.audio i) → speaking = true ∧ i + 1 = bound

namespace Emitted

variable {bound : ℕ} {events : List (GateEvent ℕ)}

theorem nil : Emitted false 0 [] := by
  constructor
  · rfl
  · exact List.Pairwise.nil
  · intro i hi; cases hi
  · exact List.IsChain.nil
  · intro i hi; cases hi

/-- While idle the next chunks may be skipped. -/
theorem mono (h : Emitted false bound events) {bound' : ℕ} (hle : bound ≤ bound') :
    Emitted false bound' events := by
  refine ⟨h.phase, h.ordered, ?_, h.contiguous, ?_⟩
  · intro i hi
    have := h.before i hi
    omega
  · intro i hi
    cases (h.last i hi).1

/-- A chunk after the one before it. -/
theorem audio (h : Emitted true bound events) :
    Emitted true (bound + 1) (events ++ [.audio bound]) := by
  have hphase := h.phase
  unfold phaseAfter at hphase
  constructor
  · simp [phaseAfter, hphase, Phase.next]
  · simp only [List.filterMap_append, List.pairwise_append]
    refine ⟨h.ordered, by simp [GateEvent.chunk?], ?_⟩
    intro i hi j hj
    simp only [List.filterMap_cons, GateEvent.chunk?, List.filterMap_nil,
      List.mem_singleton] at hj
    rw [hj]
    exact h.before i hi
  · intro i hi
    simp only [List.filterMap_append, List.mem_append, List.filterMap_cons, GateEvent.chunk?,
      List.filterMap_nil, List.mem_singleton] at hi
    rcases hi with hold | rfl
    · have := h.before i hold
      omega
    · exact Nat.lt_succ_self _
  · rw [List.isChain_append]
    refine ⟨h.contiguous, List.isChain_singleton _, ?_⟩
    intro x hx y hy
    obtain rfl : GateEvent.audio bound = y := by simpa using hy
    cases x with
    | audio i => exact (h.last i hx).2.symm
    | speechStart => trivial
    | speechEnd => trivial
  · intro i hi
    have : bound = i := by simpa using hi
    exact ⟨rfl, by rw [this]⟩

/-- The end of an utterance. -/
theorem finish (h : Emitted true bound events) :
    Emitted false bound (events ++ [.speechEnd]) := by
  have hphase := h.phase
  unfold phaseAfter at hphase
  have hnone : ([.speechEnd] : List (GateEvent ℕ)).filterMap GateEvent.chunk? = [] := rfl
  constructor
  · simp [phaseAfter, hphase, Phase.next]
  · rw [List.filterMap_append, hnone, List.append_nil]
    exact h.ordered
  · rw [List.filterMap_append, hnone, List.append_nil]
    exact h.before
  · rw [List.isChain_append]
    refine ⟨h.contiguous, List.isChain_singleton _, ?_⟩
    intro x _ y hy
    obtain rfl : GateEvent.speechEnd = y := by simpa using hy
    cases x <;> trivial
  · intro i hi
    simp at hi

/-- An onset, and the chunks of the ring. -/
theorem start (h : Emitted false bound events) {first : ℕ} (hle : bound ≤ first) (len : ℕ) :
    Emitted true (first + (len + 1))
      (events ++ .speechStart :: (List.range' first (len + 1)).map .audio) := by
  induction len with
  | zero =>
    have hphase := h.phase
    unfold phaseAfter at hphase
    have hone : (GateEvent.speechStart :: (List.range' first (0 + 1)).map .audio).filterMap
        GateEvent.chunk? = [first] := rfl
    constructor
    · simp [phaseAfter, hphase, Phase.next]
    · rw [List.filterMap_append, hone, List.pairwise_append]
      refine ⟨h.ordered, List.pairwise_singleton _ _, ?_⟩
      intro i hi j hj
      have := h.before i hi
      rw [List.mem_singleton] at hj
      omega
    · intro i hi
      rw [List.filterMap_append, hone, List.mem_append, List.mem_singleton] at hi
      rcases hi with hold | rfl
      · have := h.before i hold
        omega
      · omega
    · rw [List.isChain_append]
      refine ⟨h.contiguous, ?_, ?_⟩
      · simp [Neighbours]
      · intro x _ y hy
        obtain rfl : GateEvent.speechStart = y := by simpa using hy
        cases x <;> trivial
    · intro i hi
      have : first = i := by simpa using hi
      exact ⟨rfl, by omega⟩
  | succ len ih =>
    have hnext := ih.audio
    rw [List.append_assoc, List.cons_append] at hnext
    rw [List.range'_1_concat, List.map_append]
    exact hnext

end Emitted

/-! ### The state after any chunks -/

namespace Gate

/-- The state after the answers so far, over the chunks named by their positions. -/
structure Inv (p : Params) (answers : List Bool) (st : Gate ℕ p.prerollMax)
    (out : List (List (GateEvent ℕ))) : Prop where
  length : out.length = answers.length
  ringLe : st.preroll.slots.length ≤ answers.length
  ring : st.preroll.slots =
    List.range' (answers.length - st.preroll.slots.length) st.preroll.slots.length
  emptied : st.speaking = true → st.preroll.slots = []
  held : st.speaking = false →
    min p.prerollMax (trailing true answers) ≤ st.preroll.slots.length
  emitted : Emitted st.speaking (answers.length - st.preroll.slots.length) out.flatten
  speech : st.speaking = false → st.speechAcc = p.chunk * trailing true answers
  unconfirmed : st.speaking = false → trailing true answers < p.onsetChunks
  opened : st.speaking = true → ∃ c, OpenSince out c answers.length
  silence : ∀ c, OpenSince out c answers.length →
    st.speaking = true ∧ st.silenceAcc = p.chunk * trailing false (answers.drop (c + 1))

variable {p : Params} {answers : List Bool} {st : Gate ℕ p.prerollMax}
  {out : List (List (GateEvent ℕ))}

/-- The next chunk goes to the end of the ring. -/
theorem Inv.ring_append (h : st.Inv p answers out) :
    (st.preroll.append answers.length).slots =
      List.range' (answers.length + 1 - (st.preroll.append answers.length).slots.length)
        (st.preroll.append answers.length).slots.length := by
  have hle := h.ringLe
  have hconcat : st.preroll.slots ++ [answers.length] =
      List.range' (answers.length - st.preroll.slots.length)
        (st.preroll.slots.length + 1) := by
    rw [List.range'_1_concat, ← h.ring, Nat.sub_add_cancel hle]
  rw [Deque.length_append]
  simp only [Deque.append, hconcat, List.drop_range', List.length_range', Nat.mul_one]
  congr 1 <;> omega

/-- The ring keeps a run that fits. -/
theorem Inv.held_append (h : st.Inv p answers out) (hidle : st.speaking = false) :
    min p.prerollMax (trailing true answers + 1) ≤
      (st.preroll.append answers.length).slots.length := by
  have hheld := h.held hidle
  rw [Deque.length_append]
  omega

theorem Inv.ringLe_append (h : st.Inv p answers out) :
    (st.preroll.append answers.length).slots.length ≤ answers.length + 1 := by
  have hle := h.ringLe
  rw [Deque.length_append]
  omega

/-- An idle state has no open utterance. -/
theorem Inv.not_open (h : st.Inv p answers out) (hidle : st.speaking = false) (c : ℕ) :
    ¬ OpenSince out c answers.length := by
  intro hopen
  have := (h.silence c hopen).1
  rw [hidle] at this
  cases this

theorem Inv.init (p : Params) : (idle : Gate ℕ p.prerollMax).Inv p [] [] := by
  constructor
  case length => rfl
  case ringLe => exact Nat.le_refl _
  case ring => rfl
  case emptied => intro h; cases h
  case held => exact fun _ => Nat.min_le_right _ _
  case emitted => exact Emitted.nil
  case speech => intro _; simp [idle]
  case unconfirmed => exact fun _ => p.onsetChunks_pos
  case opened => intro h; cases h
  case silence =>
    rintro c ⟨hc, -, -⟩
    cases hc

/-- Idle, and the chunk confirms nothing. -/
theorem Inv.step_wait (h : st.Inv p answers out) (hidle : st.speaking = false) (b : Bool)
    {acc : ℤ} (hacc : acc = p.chunk * trailing true (answers ++ [b]))
    (hrun : trailing true (answers ++ [b]) < p.onsetChunks) :
    Inv p (answers ++ [b])
      { st with speechAcc := acc, preroll := st.preroll.append answers.length }
      (out ++ [[]]) := by
  have hlength : (answers ++ [b]).length = answers.length + 1 := by simp
  have hnew := h.ringLe_append
  constructor
  case length => simp [h.length]
  case ringLe => rwa [hlength]
  case ring => rw [hlength]; exact h.ring_append
  case emptied => intro hspeaking; simp [hidle] at hspeaking
  case held =>
    intro _
    refine le_trans ?_ (h.held_append hidle)
    cases b with
    | true => rw [trailing_concat_self]
    | false =>
      have : trailing true (answers ++ [false]) = 0 := trailing_concat_not true answers
      omega
  case emitted =>
    have hemitted := h.emitted
    have hlong : (st.preroll.append answers.length).slots.length ≤
        st.preroll.slots.length + 1 := by
      rw [Deque.length_append]
      omega
    have hle := h.ringLe
    simp only [hidle] at hemitted ⊢
    have hmono : Emitted false
        (answers.length + 1 - (st.preroll.append answers.length).slots.length) out.flatten :=
      hemitted.mono (by omega)
    rw [hlength]
    simpa using hmono
  case speech => exact fun _ => hacc
  case unconfirmed => exact fun _ => hrun
  case opened => intro hspeaking; simp [hidle] at hspeaking
  case silence =>
    intro c hopen
    rw [hlength, openSince_concat h.length] at hopen
    rcases hopen with ⟨hold, -⟩ | ⟨-, hnone⟩
    · exact absurd hold (h.not_open hidle c)
    · cases hnone

/-- Idle, and the chunk confirms an onset. -/
theorem Inv.step_onset (h : st.Inv p answers out) (hidle : st.speaking = false) (acc : ℤ) :
    Inv p (answers ++ [true])
      { speaking := true, preroll := .empty, speechAcc := acc, silenceAcc := 0 }
      (out ++ [.speechStart :: (st.preroll.append answers.length).slots.map .audio]) := by
  have hlength : (answers ++ [true]).length = answers.length + 1 := by simp
  have hpos := p.prerollMax_pos
  obtain ⟨len, hlen⟩ : ∃ len, (st.preroll.append answers.length).slots.length = len + 1 := by
    rw [Deque.length_append]
    exact ⟨min p.prerollMax (st.preroll.slots.length + 1) - 1, by omega⟩
  constructor
  case length => simp [h.length]
  case ringLe => exact Nat.zero_le _
  case ring => rfl
  case emptied => exact fun _ => rfl
  case held => intro hspeaking; cases hspeaking
  case emitted =>
    have hemitted := h.emitted
    rw [hidle] at hemitted
    have hle := h.ringLe
    have hnew := h.ringLe_append
    have hlong : len ≤ st.preroll.slots.length := by
      rw [Deque.length_append] at hlen
      omega
    have hfirst : answers.length - st.preroll.slots.length ≤
        answers.length + 1 - (len + 1) := by omega
    have hstart := hemitted.start hfirst len
    have hend : answers.length + 1 - (len + 1) + (len + 1) = answers.length + 1 := by omega
    rw [h.ring_append, hlen, hlength, List.flatten_append, List.flatten_singleton]
    rw [hend] at hstart
    exact hstart
  case speech => intro hspeaking; cases hspeaking
  case unconfirmed => intro hspeaking; cases hspeaking
  case opened =>
    intro _
    rw [hlength]
    exact ⟨answers.length, (openSince_concat h.length _ _).mpr (Or.inr ⟨rfl, by simp⟩)⟩
  case silence =>
    intro c hopen
    rw [hlength, openSince_concat h.length] at hopen
    rcases hopen with ⟨hold, -⟩ | ⟨rfl, -⟩
    · exact absurd hold (h.not_open hidle c)
    · simp

/-- In an utterance, and it goes on. -/
theorem Inv.step_talk (h : st.Inv p answers out) (hspeaking : st.speaking = true) (b : Bool)
    {acc : ℤ} (hacc : ∀ c, OpenSince out c answers.length →
      acc = p.chunk * trailing false (answers.drop (c + 1) ++ [b])) :
    Inv p (answers ++ [b]) { st with silenceAcc := acc }
      (out ++ [[.audio answers.length]]) := by
  have hlength : (answers ++ [b]).length = answers.length + 1 := by simp
  have hempty := h.emptied hspeaking
  constructor
  case length => simp [h.length]
  case ringLe => rw [hempty]; exact Nat.zero_le _
  case ring => rw [hempty]; rfl
  case emptied => exact fun _ => hempty
  case held => intro hidle; simp [hspeaking] at hidle
  case emitted =>
    have hemitted := h.emitted
    rw [hspeaking, hempty] at hemitted
    rw [hlength, List.flatten_append, List.flatten_singleton]
    simp only [hspeaking, hempty]
    exact hemitted.audio
  case speech => intro hidle; simp [hspeaking] at hidle
  case unconfirmed => intro hidle; simp [hspeaking] at hidle
  case opened =>
    intro _
    obtain ⟨c, hopen⟩ := h.opened hspeaking
    rw [hlength]
    exact ⟨c, (openSince_concat h.length _ _).mpr (Or.inl ⟨hopen, by simp⟩)⟩
  case silence =>
    intro c hopen
    rw [hlength, openSince_concat h.length] at hopen
    rcases hopen with ⟨hold, -⟩ | ⟨-, hnone⟩
    · refine ⟨hspeaking, ?_⟩
      rw [List.drop_append_of_le_length hold.1]
      exact hacc c hold
    · simp at hnone

/-- In an utterance, and it ends. -/
theorem Inv.step_end (h : st.Inv p answers out) (hspeaking : st.speaking = true) :
    Inv p (answers ++ [false]) idle (out ++ [[.audio answers.length, .speechEnd]]) := by
  have hlength : (answers ++ [false]).length = answers.length + 1 := by simp
  have hnone : trailing true (answers ++ [false]) = 0 := trailing_concat_not true answers
  constructor
  case length => simp [h.length]
  case ringLe => exact Nat.zero_le _
  case ring => rfl
  case emptied => exact fun _ => rfl
  case held => intro _; rw [hnone]; exact Nat.min_le_right _ _
  case emitted =>
    have hemitted := h.emitted
    rw [hspeaking, h.emptied hspeaking] at hemitted
    have hend := hemitted.audio.finish
    rw [List.append_assoc] at hend
    rw [hlength, List.flatten_append, List.flatten_singleton]
    exact hend
  case speech => intro _; rw [hnone]; simp [idle]
  case unconfirmed => intro _; rw [hnone]; exact p.onsetChunks_pos
  case opened => intro hspeaking'; cases hspeaking'
  case silence =>
    intro c hopen
    rw [hlength, openSince_concat h.length] at hopen
    rcases hopen with ⟨-, hend⟩ | ⟨-, hstart⟩
    · simp at hend
    · simp at hstart

/-- Whether the accumulated speech confirms an onset. -/
theorem Inv.confirms_iff (h : st.Inv p answers out) (hidle : st.speaking = false) :
    p.minSpeechMs ≤ st.speechAcc + p.chunk ↔ p.onsetChunks ≤ trailing true answers + 1 := by
  rw [p.onsetChunks_le_iff (Nat.succ_pos _), h.speech hidle]
  push_cast
  rw [mul_add, mul_one]

/-- **One chunk keeps the invariant.** -/
theorem Inv.step (h : st.Inv p answers out) (b : Bool) :
    Inv p (answers ++ [b]) (st.step p (answers.length, b)).1
      (out ++ [(st.step p (answers.length, b)).2]) := by
  cases hspeaking : st.speaking with
  | false =>
    cases b with
    | false =>
      have hnone : trailing true (answers ++ [false]) = 0 := trailing_concat_not true answers
      rw [step_idle hspeaking]
      exact h.step_wait hspeaking false (by rw [hnone]; simp)
        (by rw [hnone]; exact p.onsetChunks_pos)
    | true =>
      by_cases hmin : p.minSpeechMs ≤ st.speechAcc + p.chunk
      · rw [step_confirms hspeaking hmin]
        exact h.step_onset hspeaking _
      · have hrun : trailing true (answers ++ [true]) < p.onsetChunks := by
          rw [trailing_concat_self]
          have := (h.confirms_iff hspeaking).not.mp hmin
          omega
        rw [step_hears hspeaking hmin]
        refine h.step_wait hspeaking true ?_ hrun
        rw [trailing_concat_self, h.speech hspeaking]
        push_cast
        rw [mul_add, mul_one]
  | true =>
    cases b with
    | true =>
      rw [step_speaking hspeaking]
      refine h.step_talk hspeaking true (fun c _ => ?_)
      have : trailing false (answers.drop (c + 1) ++ [true]) = 0 := trailing_concat_not false _
      rw [this]
      simp
    | false =>
      by_cases hend : p.silenceMs ≤ st.silenceAcc + p.chunk
      · rw [step_ends hspeaking hend]
        exact h.step_end hspeaking
      · rw [step_pauses hspeaking hend]
        refine h.step_talk hspeaking false (fun c hopen => ?_)
        rw [trailing_concat_self, (h.silence c hopen).2]
        push_cast
        rw [mul_add, mul_one]

end Gate

end VadGate
end OpenVoiceStream
