import OpenVoiceStream.Agent.VadGate.Model

/-!
# Utterances of the client's segmenter

The contract of `vad_gated` over whole streams.  All of it holds for every setting, except
that the ring may be shorter than the run of speech that confirms an onset.

## Main results

* `Gate.inv_segment` — the state after any chunks.
* `unclipped_iff`, `ends_iff` — onsets and ends.
* `vadGated_segmented_iff` — the contract holds if and only if the ring holds the chunks
  that confirm an onset, or no onset is confirmed.
* `vadGated_clipped` — a ring of 250 ms does not hold a run of 250 ms.
-/

namespace OpenVoiceStream
namespace VadGate

variable {α β : Type}

/-! ### The whole run -/

theorem positions_concat (answers : List Bool) (b : Bool) :
    positions (answers ++ [b]) = positions answers ++ [(answers.length, b)] := by
  simp [positions, List.zipIdx_append]

/-- The state after the answers. -/
def stateAfter (p : Params) (answers : List Bool) : Gate ℕ p.prerollMax :=
  (Framer.outputsOf (Gate.step p) Gate.idle (positions answers)).1

theorem stateAfter_concat (p : Params) (answers : List Bool) (b : Bool) :
    stateAfter p (answers ++ [b]) = ((stateAfter p answers).step p (answers.length, b)).1 := by
  rw [stateAfter, positions_concat, Framer.outputsOf_concat]
  rfl

theorem segment_concat (p : Params) (answers : List Bool) (b : Bool) :
    segment p (positions (answers ++ [b])) =
      segment p (positions answers) ++ [((stateAfter p answers).step p (answers.length, b)).2] := by
  rw [segment, positions_concat, Framer.outputsOf_concat]
  rfl

/-- **The state after any chunks.** -/
theorem Gate.inv_segment (p : Params) (answers : List Bool) :
    (stateAfter p answers).Inv p answers (segment p (positions answers)) := by
  induction answers using List.reverseRecOn with
  | nil => exact Gate.Inv.init p
  | append_singleton answers b ih =>
    rw [stateAfter_concat, segment_concat]
    exact ih.step b

section Run

variable (p : Params) (answers : List Bool)

theorem segment_take (k : ℕ) :
    segment p (positions (answers.take k)) = (segment p (positions answers)).take k := by
  induction answers using List.reverseRecOn with
  | nil => simp [positions, segment, Framer.outputsOf]
  | append_singleton answers b ih =>
    have hlength := (Gate.inv_segment p answers).length
    by_cases hk : k ≤ answers.length
    · rw [List.take_append_of_le_length hk, segment_concat, ih,
        List.take_append_of_le_length (by omega)]
    · rw [List.take_of_length_le (by simp; omega), List.take_of_length_le]
      rw [segment_concat, List.length_append, hlength, List.length_singleton]
      omega

/-- What is yielded at a chunk is what the state before it yields. -/
theorem yieldsAt_segment {k : ℕ} {b : Bool} (hk : answers[k]? = some b) :
    yieldsAt (segment p (positions answers)) k =
      ((stateAfter p (answers.take k)).step p (k, b)).2 := by
  obtain ⟨hlt, -⟩ := List.getElem?_eq_some_iff.mp hk
  have htake : answers.take (k + 1) = answers.take k ++ [b] := by
    rw [List.take_add_one, hk]
    rfl
  have hlength : (answers.take k).length = k := List.length_take_of_le (Nat.le_of_lt hlt)
  have hout := (Gate.inv_segment p (answers.take k)).length
  have hlast := yieldsAt_concat_length (segment p (positions (answers.take k)))
    ((stateAfter p (answers.take k)).step p (k, b)).2
  rw [hout, hlength] at hlast
  rwa [← yieldsAt_take _ (Nat.lt_succ_self k), ← segment_take, htake, segment_concat, hlength]

/-- The invariant before the chunk `k`. -/
theorem inv_take {k : ℕ} (hk : k ≤ answers.length) :
    (stateAfter p (answers.take k)).Inv p (answers.take k)
        ((segment p (positions answers)).take k) ∧ (answers.take k).length = k := by
  refine ⟨?_, List.length_take_of_le hk⟩
  rw [← segment_take]
  exact Gate.inv_segment p (answers.take k)

end Run

section Mem

variable {p : Params} {st : Gate ℕ p.prerollMax} {i : ℕ} {b : Bool}

/-- When a chunk ends an utterance. -/
theorem Gate.speechEnd_mem_step_iff :
    .speechEnd ∈ (st.step p (i, b)).2 ↔
      st.speaking = true ∧ b = false ∧ p.silenceMs ≤ st.silenceAcc + p.chunk := by
  cases hspeaking : st.speaking with
  | true =>
    cases b with
    | true => simp [step_speaking hspeaking]
    | false =>
      by_cases hend : p.silenceMs ≤ st.silenceAcc + p.chunk
      · simp [step_ends hspeaking hend, hend]
      · simp [step_pauses hspeaking hend, hend]
  | false =>
    cases b with
    | true =>
      by_cases hmin : p.minSpeechMs ≤ st.speechAcc + p.chunk
      · simp [step_confirms hspeaking hmin]
      · simp [step_hears hspeaking hmin]
    | false => simp [step_idle hspeaking]

/-- When a chunk confirms an onset, and what is replayed. -/
theorem Gate.speechStart_mem_step (h : .speechStart ∈ (st.step p (i, b)).2) :
    st.speaking = false ∧ b = true ∧ p.minSpeechMs ≤ st.speechAcc + p.chunk ∧
      (st.step p (i, b)).2 = .speechStart :: (st.preroll.append i).slots.map .audio := by
  cases hspeaking : st.speaking with
  | true =>
    cases b with
    | true => simp [step_speaking hspeaking] at h
    | false =>
      by_cases hend : p.silenceMs ≤ st.silenceAcc + p.chunk
      · simp [step_ends hspeaking hend] at h
      · simp [step_pauses hspeaking hend] at h
  | false =>
    cases b with
    | true =>
      by_cases hmin : p.minSpeechMs ≤ st.speechAcc + p.chunk
      · exact ⟨rfl, rfl, hmin, by rw [step_confirms hspeaking hmin]⟩
      · simp [step_hears hspeaking hmin] at h
    | false => simp [step_idle hspeaking] at h

end Mem

section Contract

variable (p : Params) (answers : List Bool)

/-- What an onset replays: the chunks of the ring, the confirming one last. -/
theorem onset_replays {c : ℕ}
    (h : .speechStart ∈ yieldsAt (segment p (positions answers)) c) :
    c < answers.length ∧ ∃ len, len ≤ p.prerollMax ∧ len ≤ c + 1 ∧
      min p.prerollMax (trailing true (answers.take (c + 1))) ≤ len ∧
      trailing true (answers.take (c + 1)) = p.onsetChunks ∧
      ∀ i, .audio i ∈ yieldsAt (segment p (positions answers)) c ↔
        c + 1 - len ≤ i ∧ i ≤ c := by
  have hlt : c < answers.length := by
    have := lt_length_of_mem_yieldsAt h
    rwa [(Gate.inv_segment p answers).length] at this
  have hget : answers[c]? = some answers[c] := List.getElem?_eq_getElem hlt
  rw [yieldsAt_segment p answers hget] at h
  obtain ⟨hidle, htrue, hmin, hevents⟩ := Gate.speechStart_mem_step h
  obtain ⟨hinv, hlength⟩ := inv_take p answers (Nat.le_of_lt hlt)
  have htake : answers.take (c + 1) = answers.take c ++ [true] := by
    rw [List.take_add_one, hget, htrue]
    rfl
  have hring := hinv.ring_append
  have hheld := hinv.held_append hidle
  have hle := hinv.ringLe_append
  have hconfirms := (hinv.confirms_iff hidle).mp hmin
  have hunconfirmed := hinv.unconfirmed hidle
  rw [hlength] at hring hheld hle
  refine ⟨hlt, _, ((stateAfter p (answers.take c)).preroll.append c).bound, hle, ?_, ?_, ?_⟩
  · rwa [htake, trailing_concat_self]
  · rw [htake, trailing_concat_self]
    omega
  · intro i
    rw [yieldsAt_segment p answers hget, hevents, hring]
    simp only [List.mem_cons, reduceCtorEq, List.mem_map, GateEvent.audio.injEq,
      exists_eq_right, false_or, List.mem_range'_1, List.length_range']
    omega

/-- **No onset is clipped** if and only if the ring holds the chunks that confirm one, or
none is confirmed. -/
theorem unclipped_iff :
    (∀ c, .speechStart ∈ yieldsAt (segment p (positions answers)) c → ∀ i ≤ c,
      (∀ m, i ≤ m → m ≤ c → answers[m]? = some true) →
        .audio i ∈ yieldsAt (segment p (positions answers)) c) ↔
      p.onsetChunks ≤ p.prerollMax ∨
        ∀ i, ¬ ∀ m < p.onsetChunks, answers[i + m]? = some true := by
  have hpos := p.onsetChunks_pos
  constructor
  · intro hunclipped
    by_contra hcond
    rw [not_or, not_le] at hcond
    obtain ⟨hshort, hrun⟩ := hcond
    obtain ⟨i, hrun⟩ := not_forall_not.mp hrun
    -- after the run an utterance is open
    have hlast := hrun (p.onsetChunks - 1) (by omega)
    obtain ⟨hlt, -⟩ := List.getElem?_eq_some_iff.mp hlast
    obtain ⟨hinv, hlength⟩ := inv_take p answers (k := i + p.onsetChunks) (by omega)
    have hspeaking : (stateAfter p (answers.take (i + p.onsetChunks))).speaking = true := by
      by_contra hidle
      have hbelow := hinv.unconfirmed (by simpa using hidle)
      have hlong := le_trailing true (answers.take (i + p.onsetChunks)) i (by
        intro m hm hm'
        rw [hlength] at hm'
        rw [List.getElem?_take_of_lt hm']
        have := hrun (m - i) (by omega)
        rwa [Nat.add_sub_cancel' hm] at this)
      omega
    obtain ⟨c, hopen⟩ := hinv.opened hspeaking
    rw [hlength, openSince_take] at hopen
    -- its onset replays fewer chunks than confirmed it
    obtain ⟨hc, len, hlen, -, -, htrailing, haudio⟩ := onset_replays p answers hopen.2.1
    have hfull := trailing_le_length true (answers.take (c + 1))
    have hlength' : (answers.take (c + 1)).length = c + 1 := List.length_take_of_le hc
    have hfirst := hunclipped c hopen.2.1 (c + 1 - p.onsetChunks) (by omega) (by
      intro m hm hm'
      have := getElem?_of_trailing true (answers.take (c + 1)) m (by omega) (by omega)
      rwa [List.getElem?_take_of_lt (by omega)] at this)
    have := ((haudio _).mp hfirst).1
    omega
  · intro hcond c hstart i hi hrun
    obtain ⟨hc, len, -, -, hlen, htrailing, haudio⟩ := onset_replays p answers hstart
    have hlength' : (answers.take (c + 1)).length = c + 1 := List.length_take_of_le hc
    have hfull := trailing_le_length true (answers.take (c + 1))
    rcases hcond with hlong | hnone
    · have hle := le_trailing true (answers.take (c + 1)) i (by
        intro m hm hm'
        rw [List.getElem?_take_of_lt (by omega)]
        exact hrun m hm (by omega))
      rw [haudio]
      omega
    · -- the run that confirmed the onset
      exfalso
      refine hnone (c + 1 - p.onsetChunks) (fun m hm => ?_)
      have := getElem?_of_trailing true (answers.take (c + 1)) (c + 1 - p.onsetChunks + m)
        (by omega) (by omega)
      rwa [List.getElem?_take_of_lt (by omega)] at this

/-- **An utterance ends exactly when its trailing silence reaches `silence_ms`.** -/
theorem ends_iff {k : ℕ} (hk : k < answers.length) :
    .speechEnd ∈ yieldsAt (segment p (positions answers)) k ↔
      ∃ c, OpenSince (segment p (positions answers)) c k ∧
        0 < trailing false ((answers.take (k + 1)).drop (c + 1)) ∧
        p.silenceMs ≤ p.chunk * trailing false ((answers.take (k + 1)).drop (c + 1)) := by
  have hget : answers[k]? = some answers[k] := List.getElem?_eq_getElem hk
  obtain ⟨hinv, hlength⟩ := inv_take p answers (Nat.le_of_lt hk)
  have hdrop : ∀ c < k, (answers.take (k + 1)).drop (c + 1) =
      (answers.take k).drop (c + 1) ++ [answers[k]] := by
    intro c hc
    rw [List.take_add_one, hget, List.drop_append_of_le_length (by omega)]
    rfl
  -- the silence counted so far in an open utterance
  have hsilence : ∀ c, OpenSince (segment p (positions answers)) c k →
      (stateAfter p (answers.take k)).speaking = true ∧
      (stateAfter p (answers.take k)).silenceAcc =
        p.chunk * trailing false ((answers.take k).drop (c + 1)) := by
    intro c hopen
    exact hinv.silence c (by rw [hlength]; exact openSince_take.mpr hopen)
  rw [yieldsAt_segment p answers hget, Gate.speechEnd_mem_step_iff]
  constructor
  · rintro ⟨hspeaking, hfalse, hend⟩
    obtain ⟨c, hopen⟩ := hinv.opened hspeaking
    rw [hlength, openSince_take] at hopen
    rw [(hsilence c hopen).2] at hend
    refine ⟨c, hopen, ?_, ?_⟩
    · rw [hdrop c hopen.1, hfalse, trailing_concat_self]
      exact Nat.succ_pos _
    · rw [hdrop c hopen.1, hfalse, trailing_concat_self]
      push_cast
      rwa [mul_add, mul_one]
  · rintro ⟨c, hopen, hrun, hend⟩
    obtain ⟨hspeaking, hacc⟩ := hsilence c hopen
    rw [hdrop c hopen.1] at hrun hend
    cases hb : answers[k] with
    | true =>
      have : trailing false ((answers.take k).drop (c + 1) ++ [true]) = 0 :=
        trailing_concat_not false _
      rw [hb, this] at hrun
      cases hrun
    | false =>
      rw [hb, trailing_concat_self] at hend
      push_cast at hend
      rw [mul_add, mul_one] at hend
      exact ⟨hspeaking, rfl, by rwa [hacc]⟩

end Contract

/-! ### The chunks themselves -/

theorem Deque.bound_map {cap : ℕ} (f : α → β) (d : Deque α cap) :
    (d.slots.map f).length ≤ cap := by
  rw [List.length_map]
  exact d.bound

/-- The same ring with other names for the chunks. -/
def Deque.map {cap : ℕ} (f : α → β) (d : Deque α cap) : Deque β cap :=
  ⟨d.slots.map f, d.bound_map f⟩

theorem Deque.map_append {cap : ℕ} (f : α → β) (d : Deque α cap) (x : α) :
    (d.map f).append (f x) = (d.append x).map f := by
  simp only [append, map, List.map_drop, List.map_append, List.map_cons, List.map_nil,
    List.length_append, List.length_map, List.length_singleton]

/-- The same state with other names for the chunks. -/
def Gate.map {cap : ℕ} (f : α → β) (st : Gate α cap) : Gate β cap :=
  { speaking := st.speaking, preroll := st.preroll.map f, speechAcc := st.speechAcc,
    silenceAcc := st.silenceAcc }

/-- One step does not look at the chunk. -/
theorem Gate.step_map (p : Params) (f : α → β) (st : Gate α p.prerollMax) (c : α × Bool) :
    (st.map f).step p (f c.1, c.2) =
      ((st.step p c).1.map f, (st.step p c).2.map (GateEvent.map f)) := by
  obtain ⟨chunk, b⟩ := c
  cases hspeaking : st.speaking with
  | true =>
    have hspeaking' : (st.map f).speaking = true := hspeaking
    cases b with
    | true =>
      rw [step_speaking hspeaking, step_speaking hspeaking']
      rfl
    | false =>
      by_cases hend : p.silenceMs ≤ st.silenceAcc + p.chunk
      · rw [step_ends hspeaking hend, step_ends hspeaking' hend]
        rfl
      · rw [step_pauses hspeaking hend, step_pauses hspeaking' hend]
        rfl
  | false =>
    have hspeaking' : (st.map f).speaking = false := hspeaking
    have happend : (st.map f).preroll.append (f chunk) = (st.preroll.append chunk).map f :=
      st.preroll.map_append f chunk
    cases b with
    | true =>
      by_cases hmin : p.minSpeechMs ≤ st.speechAcc + p.chunk
      · rw [step_confirms hspeaking hmin, step_confirms hspeaking' hmin]
        simp only [happend]
        simp [Deque.map, GateEvent.map, Gate.map, Function.comp_def, Deque.empty]
      · rw [step_hears hspeaking hmin, step_hears hspeaking' hmin]
        simp only [happend]
        rfl
    | false =>
      rw [step_idle hspeaking, step_idle hspeaking']
      simp only [happend]
      rfl

/-- The segmenter does not look at a chunk. -/
theorem segment_map (p : Params) (f : α → β) (chunks : List (α × Bool)) :
    segment p (chunks.map fun c => (f c.1, c.2)) =
      (segment p chunks).map (List.map (GateEvent.map f)) := by
  have hrun : ∀ st : Gate α p.prerollMax,
      (Framer.outputsOf (Gate.step p) (st.map f) (chunks.map fun c => (f c.1, c.2))).2 =
        (Framer.outputsOf (Gate.step p) st chunks).2.map (List.map (GateEvent.map f)) := by
    induction chunks with
    | nil => intro st; rfl
    | cons c chunks ih =>
      intro st
      simp only [List.map_cons, Framer.outputsOf, Gate.step_map, ih]
  exact hrun Gate.idle

/-- The answers of the VAD, an error read as silence. -/
def answersOf (chunks : List (α × Option Bool)) : List Bool :=
  chunks.map fun c => heard c.2

/-- What is yielded are the chunks at the positions that are yielded. -/
theorem vadGated_positions (p : Params) (chunks : List (α × Option Bool)) :
    (vadGated p chunks).map (List.map (GateEvent.map some)) =
      (segment p (positions (answersOf chunks))).map
        (List.map (GateEvent.map fun i => chunks[i]?.map Prod.fst)) := by
  rw [vadGated, ← segment_map, ← segment_map]
  congr 1
  apply List.ext_getElem?
  intro i
  simp only [positions, answersOf, List.getElem?_map, List.getElem?_zipIdx, Nat.zero_add,
    Option.map_map, Function.comp_def, Prod.swap_prod_mk]
  cases hi : chunks[i]? with
  | none => rfl
  | some c => simp

/-- **The segmenter cuts the stream into utterances**: what is yielded are chunks of the
input, and it meets the contract if and only if the ring is as long as the run that
confirms an onset, or the stream has no such run. -/
theorem vadGated_segmented_iff (p : Params) (chunks : List (α × Option Bool)) :
    (vadGated p chunks).map (List.map (GateEvent.map some)) =
      (segment p (positions (answersOf chunks))).map
        (List.map (GateEvent.map fun i => chunks[i]?.map Prod.fst)) ∧
    (Segmented p (answersOf chunks) (segment p (positions (answersOf chunks))) ↔
      p.onsetChunks ≤ p.prerollMax ∨
        ∀ i, ¬ ∀ m < p.onsetChunks, (answersOf chunks)[i + m]? = some true) := by
  refine ⟨vadGated_positions p chunks, ?_⟩
  rw [← unclipped_iff]
  have hinv := Gate.inv_segment p (answersOf chunks)
  have hemitted := hinv.emitted
  constructor
  · exact fun h => h.unclipped
  · intro hunclipped
    constructor
    · simp [hemitted.phase]
    · exact hemitted.ordered
    · intro i hi
      have := hemitted.before i hi
      omega
    · exact hemitted.contiguous
    · exact hunclipped
    · exact fun k hk => ends_iff p (answersOf chunks) hk

/-- Chunks of 100 ms, and 250 ms both for the ring and for an onset. -/
def halfChunk : Params :=
  { chunkMs := 100, prerollMs := 250, silenceMs := 600, minSpeechMs := 250 }

/-- **A clipped onset.**  Three chunks confirm the onset, but `round(2.5)` is 2, so the ring
has lost the first of them. -/
theorem vadGated_clipped :
    vadGated halfChunk [(10, some true), (11, some true), (12, some true)] =
      [[], [], [.speechStart, .audio 11, .audio 12]] ∧
    ¬ Segmented halfChunk [true, true, true]
      (segment halfChunk (positions [true, true, true])) := by
  have hsegment : segment halfChunk (positions [true, true, true]) =
      [[], [], [.speechStart, .audio 1, .audio 2]] := by decide +kernel
  refine ⟨by decide +kernel, fun h => ?_⟩
  rw [hsegment] at h
  have hfirst := h.unclipped 2 (by decide) 0 (by decide) (by decide)
  revert hfirst
  decide

end VadGate
end OpenVoiceStream
