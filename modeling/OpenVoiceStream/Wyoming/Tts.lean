import OpenVoiceStream.Wyoming.Clause

/-!
# Text to speech over Wyoming

`SlvTtsHandler` takes a reply in one of two shapes: `synthesize-start`, chunks, perhaps the
whole text once more in a `synthesize`, and `synthesize-stop`; or a bare `synthesize`. It asks
`/tts/stream` for the clauses as they come and passes the audio on.

Each call of `tts_stream` yields some chunks and then ends or raises; how the calls of a
connection go, in order, is `Upstream`.

## Main definitions

* `Event`, `Effect`, `Call` — what arrives, and what is done about it.
* `Handler.handleEvent` — the handler.
* `Reply`, `serve` — the replies of a connection with the effects each had.
* `Right` — what the effects of a reply should be.
* `Fine` — the replies that come out right.

## Main results

* `speakAll_spec` — what asking for some clauses does.
* `streamed_effects`, `bare_effects` — what a reply of either shape leads to.
* `reply_right_iff` — every run.
-/

namespace OpenVoiceStream.Wyoming.Tts

open V2v.Tts (strip)

/-! ### Events and effects -/

/-- A `SynthesizeVoice`. -/
structure Voice where
  language : Option Text
  speaker : Option Text

/-- What a call of `tts_stream` yields, and whether it raises in the end. -/
structure Answer where
  chunks : List (ℕ × List UInt8)
  raised : Bool

/-- How the calls on a connection go, by their number. -/
abbrev Upstream := ℕ → Answer

/-- The Wyoming events. -/
inductive Event
  | describe
  | start (voice : Option Voice)
  | chunk (text : Text)
  | stop
  | synthesize (text : Text) (voice : Option Voice)
  | other

/-- A call of `tts_stream`, with what became of it. -/
structure Call where
  text : Text
  speaker : Option ℤ
  answer : Answer

/-- An audio event, or the last event of a streamed reply. -/
inductive Out
  | audioStart (rate : ℕ)
  | audioChunk (rate : ℕ) (pcm : List UInt8)
  | audioStop
  | synthesizeStopped
  deriving DecidableEq

/-- What an event leads to. -/
inductive Effect
  | info
  | called (call : Call)
  | wrote (out : Out)

/-- The calls among some effects. -/
def calls (effects : List Effect) : List Call :=
  effects.filterMap fun
    | .called call => some call
    | _ => none

/-- The events written among some effects. -/
def outs (effects : List Effect) : List Out :=
  effects.filterMap fun
    | .wrote out => some out
    | _ => none

/-! ### The handler -/

/-- `_speaker_from_voice`. -/
def speakerFromVoice (py : Python) (speaker : Option Text) : Option ℤ :=
  match speaker with
  | none => none
  | some speaker => if speaker = [] then none else py.int speaker

/-- The fields of the handler, and how often it has called `tts_stream`. A buffer is its
settings with the text it holds. -/
structure Handler where
  streaming : Bool
  synthesizedAny : Bool
  audioStarted : Bool
  sampleRate : ℕ
  buffer : Option (ClauseBuffer × Text)
  speakerId : Option ℤ
  totalBytes : ℕ
  asked : ℕ

/-- `__init__`. -/
def Handler.init (asked : ℕ) : Handler :=
  { streaming := false, synthesizedAny := false, audioStarted := false, sampleRate := 0
    buffer := none, speakerId := none, totalBytes := 0, asked := asked }

namespace Handler

variable (py : Python) (env : Sizes) (up : Upstream) (h : Handler)

/-- `_reset`. -/
def reset : Handler := .init h.asked

/-- One round of the loop over a `tts_stream`. -/
def play (chunk : ℕ × List UInt8) : Handler × List Effect :=
  if h.audioStarted then
    ({ h with totalBytes := h.totalBytes + chunk.2.length },
      [.wrote (.audioChunk h.sampleRate chunk.2)])
  else
    ({ h with
        audioStarted := true
        sampleRate := chunk.1
        totalBytes := h.totalBytes + chunk.2.length },
      [.wrote (.audioStart chunk.1), .wrote (.audioChunk chunk.1 chunk.2)])

/-- The loop over a `tts_stream`. -/
def playAll (h : Handler) : List (ℕ × List UInt8) → Handler × List Effect
  | [] => (h, [])
  | chunk :: rest =>
    ((playAll (h.play chunk).1 rest).1, (h.play chunk).2 ++ (playAll (h.play chunk).1 rest).2)

/-- `_synthesize_clause`. -/
def synthesizeClause (text : Text) : Handler × List Effect :=
  let text := strip py.tables text
  if text = [] then (h, [])
  else
    let answer := up h.asked
    let (h', effects) := { h with asked := h.asked + 1 }.playAll answer.chunks
    ({ h' with synthesizedAny := h'.synthesizedAny || !answer.raised },
      .called ⟨text, h.speakerId, answer⟩ :: effects)

/-- `_synthesize_clause` for one clause after the other. -/
def speakAll (h : Handler) : List Text → Handler × List Effect
  | [] => (h, [])
  | clause :: rest =>
    ((speakAll (h.synthesizeClause py up clause).1 rest).1,
      (h.synthesizeClause py up clause).2 ++
        (speakAll (h.synthesizeClause py up clause).1 rest).2)

/-- `_finish`. -/
def finish : Handler × List Effect :=
  if h.audioStarted then ({ h with audioStarted := false }, [.wrote .audioStop]) else (h, [])

/-- `handle_event`. -/
def handleEvent : Event → Handler × List Effect
  | .describe => (h, [.info])
  | .start voice =>
    let h := match voice with
      | some voice => { h with speakerId := speakerFromVoice py voice.speaker }
      | none => h
    ({ h.reset with
        streaming := true
        buffer := some (.make py env (voice.bind Voice.language), []) }, [])
  | .chunk text =>
    let (h, b, buf) := match h.buffer with
      | some (b, buf) => (h, b, buf)
      | none => ({ h with streaming := true }, .make py env none, [])
    { h with buffer := some (b, (b.add py buf text).2) }.speakAll py up (b.add py buf text).1
  | .stop =>
    let (h, effects) := match h.buffer with
      | some (b, buf) =>
        { h with buffer := some (b, (b.flush py buf).2) }.speakAll py up (b.flush py buf).1
      | none => (h, [])
    let (h, finishing) := h.finish
    (h.reset, effects ++ finishing ++ [.wrote .synthesizeStopped])
  | .synthesize text voice =>
    if h.streaming && h.synthesizedAny then (h, [])
    else
      let h := if h.streaming then h else h.reset
      let h := match voice with
        | some voice => { h with speakerId := speakerFromVoice py voice.speaker }
        | none => h
      let (h, effects) := h.synthesizeClause py up (strip py.tables text)
      let (h, finishing) := h.finish
      (h.reset, effects ++ finishing)
  | .other => (h, [])

/-- The events one after the other. -/
def handleAll (h : Handler) : List Event → Handler × List Effect
  | [] => (h, [])
  | event :: rest =>
    ((handleAll (h.handleEvent py env up event).1 rest).1,
      (h.handleEvent py env up event).2 ++
        (handleAll (h.handleEvent py env up event).1 rest).2)

end Handler

/-! ### Replies -/

/-- A reply: the voice and the chunks of a streamed one, and the voice of the `synthesize`
that repeats its text, if there is one; or a bare `synthesize`. -/
inductive Reply
  | streamed (voice : Option Voice) (chunks : List Text) (repeated : Option (Option Voice))
  | bare (text : Text) (voice : Option Voice)

namespace Reply

/-- The text of a reply. -/
def text : Reply → Text
  | .streamed _ chunks _ => chunks.flatten
  | .bare text _ => text

/-- The events of a reply. -/
def events : Reply → List Event
  | .streamed voice chunks repeated =>
    .start voice :: (chunks.map Event.chunk ++
      ((repeated.map (Event.synthesize chunks.flatten)).toList ++ [Event.stop]))
  | .bare text voice => [.synthesize text voice]

/-- The voices the events of a reply name. -/
def voices : Reply → List Voice
  | .streamed voice _ repeated => voice.toList ++ repeated.join.toList
  | .bare _ voice => voice.toList

/-- The speakers its voices name; without a voice it is the speaker of the backend. -/
def speakers (py : Python) (reply : Reply) : List (Option ℤ) :=
  if reply.voices.isEmpty then [none]
  else reply.voices.map fun voice => speakerFromVoice py voice.speaker

/-- What stands behind the audio of a reply. -/
def ending : Reply → List Out
  | .streamed _ _ _ => [.synthesizeStopped]
  | .bare _ _ => []

end Reply

/-- The replies of a connection, each with the number of the calls before it and the effects
it had. -/
def serve (py : Python) (env : Sizes) (up : Upstream) (h : Handler) :
    List Reply → List (ℕ × Reply × List Effect)
  | [] => []
  | reply :: rest =>
    (h.asked, reply, (h.handleAll py env up reply.events).2) ::
      serve py env up (h.handleAll py env up reply.events).1 rest

/-! ### What is expected of a reply -/

/-- No audio events, or one `audio-start`, chunks and one `audio-stop`. -/
def Audio (written : List Out) : Prop :=
  written = [] ∨ ∃ rate : ℕ, ∃ pcm : List (List UInt8),
    written = .audioStart rate :: (pcm.map (.audioChunk rate) ++ [.audioStop])

/-- The calls have places in the text such that none comes before the end of one that has
given audio. -/
def NotAgain (py : Python) (text : Text) (asked : List Call) : Prop :=
  ∃ placed : List (ℕ × Call), placed.map Prod.snd = asked ∧
    (∀ x ∈ placed, solid py.tables x.2.text <+: (solid py.tables text).drop x.1) ∧
    placed.Pairwise fun x y =>
      x.2.answer.chunks ≠ [] → x.1 + (solid py.tables x.2.text).length ≤ y.1

/-- What the effects of a reply should be. -/
structure Right (py : Python) (reply : Reply) (effects : List Effect) : Prop where
  once : (∀ call ∈ calls effects, call.answer.raised = false) →
    solid py.tables ((calls effects).map Call.text).flatten = solid py.tables reply.text
  notAgain : NotAgain py reply.text (calls effects)
  voice : ∀ call ∈ calls effects, call.speaker ∈ reply.speakers py
  audio : ∃ written, Audio written ∧ outs effects = written ++ reply.ending

/-- The clauses the chunks of a streamed reply lead to. -/
def early (py : Python) (env : Sizes) (voice : Option Voice) (chunks : List Text) : List Text :=
  ((ClauseBuffer.make py env (voice.bind Voice.language)).addAll py [] chunks).1

/-- The replies that come out right. A streamed one must not name a speaker, unless the text
that is repeated with a voice is the first there is to say or there is nothing to say; and
where the text is repeated, a clause before it must have come through or none given audio. -/
def Fine (py : Python) (env : Sizes) (up : Upstream) (asked : ℕ) : Reply → Prop
  | .bare _ _ => True
  | .streamed voice chunks repeated =>
    let clauses := early py env voice chunks
    let answers := (List.range' asked clauses.length).map up
    (none ∈ (Reply.streamed voice chunks repeated).speakers py ∨
      clauses = [] ∧ (solid py.tables chunks.flatten = [] ∨ repeated.join.isSome)) ∧
    (repeated.isSome → (∃ answer ∈ answers, answer.raised = false) ∨
      ∀ answer ∈ answers, answer.chunks = [])

section Run

variable (py : Python) (env : Sizes) (up : Upstream)

/-! ### What effects show -/

@[simp] theorem calls_append (xs ys : List Effect) : calls (xs ++ ys) = calls xs ++ calls ys :=
  List.filterMap_append

@[simp] theorem outs_append (xs ys : List Effect) : outs (xs ++ ys) = outs xs ++ outs ys :=
  List.filterMap_append

/-- What has been written of the audio of a reply that is not finished. -/
def Playing (written : List Out) (h : Handler) : Prop :=
  if h.audioStarted then
    ∃ pcm : List (List UInt8),
      written = .audioStart h.sampleRate :: pcm.map (.audioChunk h.sampleRate)
  else written = []

/-- What the audio of one call leaves as it is. -/
structure Played (h h' : Handler) (effects : List Effect) : Prop where
  calls : calls effects = []
  asked : h'.asked = h.asked
  any : h'.synthesizedAny = h.synthesizedAny
  streaming : h'.streaming = h.streaming
  speaker : h'.speakerId = h.speakerId
  buffer : h'.buffer = h.buffer
  audio : ∀ written, Playing written h → Playing (written ++ outs effects) h'

theorem play_spec (h : Handler) (chunk : ℕ × List UInt8) :
    Played h (h.play chunk).1 (h.play chunk).2 := by
  unfold Handler.play
  rcases hstarted : h.audioStarted with _ | _
  · refine ⟨rfl, rfl, rfl, rfl, rfl, rfl, ?_⟩
    intro written hwritten
    rw [Playing, hstarted] at hwritten
    rw [if_neg Bool.false_ne_true] at hwritten ⊢
    exact ⟨[chunk.2], by rw [hwritten]; rfl⟩
  · refine ⟨rfl, rfl, rfl, rfl, rfl, rfl, ?_⟩
    intro written hwritten
    rw [Playing, hstarted, if_pos rfl] at hwritten
    obtain ⟨pcm, rfl⟩ := hwritten
    refine (if_pos rfl).mpr ⟨pcm ++ [chunk.2], ?_⟩
    rw [List.map_append]
    rfl

theorem playAll_spec (h : Handler) (chunks : List (ℕ × List UInt8)) :
    Played h (h.playAll chunks).1 (h.playAll chunks).2 := by
  induction chunks generalizing h with
  | nil =>
    refine ⟨rfl, rfl, rfl, rfl, rfl, rfl, fun written hwritten => ?_⟩
    exact (List.append_nil written).symm ▸ hwritten
  | cons chunk rest ih =>
    have hone := play_spec h chunk
    have hrest := ih (h.play chunk).1
    unfold Handler.playAll
    constructor
    · rw [calls_append, hone.calls, hrest.calls, List.append_nil]
    · exact hrest.asked.trans hone.asked
    · exact hrest.any.trans hone.any
    · exact hrest.streaming.trans hone.streaming
    · exact hrest.speaker.trans hone.speaker
    · exact hrest.buffer.trans hone.buffer
    · intro written hwritten
      rw [outs_append, ← List.append_assoc]
      exact hrest.audio _ (hone.audio _ hwritten)

/-! ### Asking for clauses -/

/-- The calls for some clauses. -/
def callsFor (asked : ℕ) (speaker : Option ℤ) : List Text → List Call
  | [] => []
  | clause :: rest =>
    ⟨strip py.tables clause, speaker, up asked⟩ :: callsFor (asked + 1) speaker rest

/-- How the calls from some number on go. -/
def answersFor (asked count : ℕ) : List Answer := (List.range' asked count).map up

/-- What asking for some clauses does. -/
structure Spoken (h h' : Handler) (clauses : List Text) (effects : List Effect) : Prop where
  calls : calls effects = callsFor py up h.asked h.speakerId clauses
  asked : h'.asked = h.asked + clauses.length
  any : h'.synthesizedAny =
    (h.synthesizedAny || (answersFor up h.asked clauses.length).any fun a => !a.raised)
  streaming : h'.streaming = h.streaming
  speaker : h'.speakerId = h.speakerId
  audio : ∀ written, Playing written h → Playing (written ++ outs effects) h'

variable {py env up}

theorem callsFor_append (asked : ℕ) (speaker : Option ℤ) (xs ys : List Text) :
    callsFor py up asked speaker (xs ++ ys) =
      callsFor py up asked speaker xs ++ callsFor py up (asked + xs.length) speaker ys := by
  induction xs generalizing asked with
  | nil => rfl
  | cons clause rest ih =>
    rw [List.cons_append, callsFor, ih, callsFor, List.cons_append, List.length_cons,
      Nat.add_right_comm, Nat.add_assoc]

theorem answersFor_add (asked n m : ℕ) :
    answersFor up asked (n + m) = answersFor up asked n ++ answersFor up (asked + n) m := by
  unfold answersFor
  rw [← List.map_append, List.range'_append_1]

theorem Spoken.refl (h : Handler) : Spoken py up h h [] [] := by
  refine ⟨rfl, rfl, ?_, rfl, rfl, fun written hwritten => ?_⟩
  · exact (Bool.or_false _).symm
  · exact (List.append_nil written).symm ▸ hwritten

theorem Spoken.append {h h' h'' : Handler} {xs ys : List Text} {before after : List Effect}
    (hx : Spoken py up h h' xs before) (hy : Spoken py up h' h'' ys after) :
    Spoken py up h h'' (xs ++ ys) (before ++ after) := by
  constructor
  · rw [calls_append, hx.calls, hy.calls, callsFor_append, hx.asked, hx.speaker]
  · rw [hy.asked, hx.asked, List.length_append, Nat.add_assoc]
  · rw [hy.any, hx.any, hx.asked, List.length_append, answersFor_add, List.any_append,
      Bool.or_assoc]
  · exact hy.streaming.trans hx.streaming
  · exact hy.speaker.trans hx.speaker
  · intro written hwritten
    rw [outs_append, ← List.append_assoc]
    exact hy.audio _ (hx.audio _ hwritten)

/-- What the buffer holds does not matter to what is asked for. -/
theorem Spoken.of_buffer {h h' : Handler} {buffer : Option (ClauseBuffer × Text)}
    {clauses : List Text} {effects : List Effect}
    (hs : Spoken py up { h with buffer := buffer } h' clauses effects) :
    Spoken py up h h' clauses effects :=
  ⟨hs.calls, hs.asked, hs.any, hs.streaming, hs.speaker, hs.audio⟩

/-- The clause that is asked for, if it is not blank. -/
def nonBlank (py : Python) (text : Text) : List Text :=
  if solid py.tables text = [] then [] else [text]

variable (py up)

theorem synthesizeClause_spec (h : Handler) (text : Text) :
    Spoken py up h (h.synthesizeClause py up text).1 (nonBlank py text)
      (h.synthesizeClause py up text).2 := by
  unfold Handler.synthesizeClause nonBlank
  dsimp only
  by_cases hblank : solid py.tables text = []
  · rw [if_pos hblank, if_pos ((strip_eq_nil_iff py.tables).mpr hblank)]
    exact Spoken.refl h
  · rw [if_neg hblank, if_neg fun h => hblank ((strip_eq_nil_iff py.tables).mp h)]
    have hplayed := playAll_spec { h with asked := h.asked + 1 } (up h.asked).chunks
    constructor
    · exact congrArg (_ :: ·) hplayed.calls
    · exact hplayed.asked
    · show (Handler.synthesizedAny _ || _) = _
      rw [hplayed.any]
      simp [answersFor]
    · exact hplayed.streaming
    · exact hplayed.speaker
    · exact hplayed.audio

theorem buffer_synthesizeClause (h : Handler) (text : Text) :
    (h.synthesizeClause py up text).1.buffer = h.buffer := by
  unfold Handler.synthesizeClause
  dsimp only
  split
  · rfl
  · exact (playAll_spec { h with asked := h.asked + 1 } (up h.asked).chunks).buffer

theorem buffer_speakAll (h : Handler) (clauses : List Text) :
    (h.speakAll py up clauses).1.buffer = h.buffer := by
  induction clauses generalizing h with
  | nil => rfl
  | cons clause rest ih => exact (ih _).trans (buffer_synthesizeClause py up h clause)

/-- **Asking for clauses**, none of them blank, makes one call for each, in order. -/
theorem speakAll_spec (h : Handler) {clauses : List Text}
    (hclauses : ∀ clause ∈ clauses, solid py.tables clause ≠ []) :
    Spoken py up h (h.speakAll py up clauses).1 clauses (h.speakAll py up clauses).2 := by
  induction clauses generalizing h with
  | nil => exact Spoken.refl h
  | cons clause rest ih =>
    have hone := synthesizeClause_spec py up h clause
    rw [nonBlank, if_neg (hclauses clause List.mem_cons_self)] at hone
    exact hone.append (ih _ fun c hc => hclauses c (List.mem_cons_of_mem _ hc))

/-- The end of the audio of a reply. -/
theorem finish_spec {h : Handler} {written : List Out} (hwritten : Playing written h) :
    calls h.finish.2 = [] ∧ h.finish.1.asked = h.asked ∧ Audio (written ++ outs h.finish.2) := by
  unfold Handler.finish
  rcases hstarted : h.audioStarted with _ | _
  · rw [Playing, hstarted] at hwritten
    exact ⟨rfl, rfl, .inl (by rw [hwritten]; rfl)⟩
  · rw [Playing, hstarted] at hwritten
    obtain ⟨pcm, rfl⟩ := hwritten
    exact ⟨rfl, rfl, .inr ⟨h.sampleRate, pcm, rfl⟩⟩

/-! ### The events of a reply -/

theorem handleAll_append (h : Handler) (xs ys : List Event) :
    h.handleAll py env up (xs ++ ys) =
      (((h.handleAll py env up xs).1.handleAll py env up ys).1,
        (h.handleAll py env up xs).2 ++ ((h.handleAll py env up xs).1.handleAll py env up ys).2) := by
  induction xs generalizing h with
  | nil => rfl
  | cons event rest ih =>
    rw [List.cons_append, Handler.handleAll, ih, Handler.handleAll, List.append_assoc]

variable (env)

/-- The chunks of a reply lead to the clauses the buffer cuts out of them. -/
theorem handleAll_chunks {h : Handler} {b : ClauseBuffer} {buf : Text}
    (hbuffer : h.buffer = some (b, buf)) (chunks : List Text) :
    Spoken py up h (h.handleAll py env up (chunks.map .chunk)).1 (b.addAll py buf chunks).1
        (h.handleAll py env up (chunks.map .chunk)).2 ∧
      (h.handleAll py env up (chunks.map .chunk)).1.buffer =
        some (b, (b.addAll py buf chunks).2) := by
  induction chunks generalizing h buf with
  | nil => exact ⟨Spoken.refl h, hbuffer⟩
  | cons chunk rest ih =>
    have hadd : ∀ part ∈ (b.add py buf chunk).1, solid py.tables part ≠ [] := by
      intro part hpart
      exact b.addAll_ne_blank py buf [chunk] part (List.mem_append_left _ hpart)
    have hevent : h.handleEvent py env up (.chunk chunk) =
        { h with buffer := some (b, (b.add py buf chunk).2) }.speakAll py up
          (b.add py buf chunk).1 := by
      simp only [Handler.handleEvent, hbuffer]
    have hone := (speakAll_spec py up { h with buffer := some (b, (b.add py buf chunk).2) }
      hadd).of_buffer
    have hbuf := buffer_speakAll py up { h with buffer := some (b, (b.add py buf chunk).2) }
      (b.add py buf chunk).1
    rw [← hevent] at hone hbuf
    obtain ⟨hrest, hafter⟩ := ih hbuf
    exact ⟨hone.append hrest, hafter⟩

/-- `synthesize-stop`, the buffer being there. -/
theorem stop_spec {h : Handler} {b : ClauseBuffer} {buf : Text}
    (hbuffer : h.buffer = some (b, buf)) {written : List Out} (hwritten : Playing written h) :
    (h.handleEvent py env up .stop).1 = .init (h.asked + (b.flush py buf).1.length) ∧
      calls (h.handleEvent py env up .stop).2 =
        callsFor py up h.asked h.speakerId (b.flush py buf).1 ∧
      ∃ audio, Audio audio ∧
        written ++ outs (h.handleEvent py env up .stop).2 = audio ++ [.synthesizeStopped] := by
  have hspoken := (speakAll_spec py up { h with buffer := some (b, (b.flush py buf).2) }
    (b.flush_ne_blank py buf)).of_buffer
  obtain ⟨hcalls, hasked, haudio⟩ := finish_spec (hspoken.audio written hwritten)
  simp only [Handler.handleEvent, hbuffer]
  refine ⟨?_, ?_, _, haudio, ?_⟩
  · rw [Handler.reset, hasked, hspoken.asked]
  · rw [calls_append, calls_append, hspoken.calls, hcalls, List.append_nil]
    exact List.append_nil _
  · rw [outs_append, outs_append, ← List.append_assoc, ← List.append_assoc]
    rfl

/-- The speaker a voice names, if there is a voice. -/
def speakerOf (py : Python) (voice : Option Voice) : Option ℤ :=
  voice.bind fun v => speakerFromVoice py v.speaker

/-- A `synthesize` that is not ignored. -/
theorem synthesize_spec {h : Handler} (text : Text) (voice : Option Voice)
    (hnew : (h.streaming && h.synthesizedAny) = false)
    (hstart : h.streaming = false → h = .init h.asked) (hspeaker : h.speakerId = none)
    {written : List Out} (hwritten : Playing written h) :
    (h.handleEvent py env up (.synthesize text voice)).1 =
        .init (h.asked + (nonBlank py (strip py.tables text)).length) ∧
      calls (h.handleEvent py env up (.synthesize text voice)).2 =
        callsFor py up h.asked (speakerOf py voice) (nonBlank py (strip py.tables text)) ∧
      Audio (written ++ outs (h.handleEvent py env up (.synthesize text voice)).2) := by
  -- nothing is left to reset, and only the speaker is set
  have hreset : (if h.streaming then h else h.reset) = h := by
    rcases hstreaming : h.streaming with _ | _
    · exact (hstart hstreaming).symm
    · rfl
  have hvoice : (match voice with
      | some v => { h with speakerId := speakerFromVoice py v.speaker }
      | none => h) = { h with speakerId := speakerOf py voice } := by
    cases voice with
    | some v => rfl
    | none =>
      show h = { h with speakerId := none }
      rw [← hspeaker]
  have hspoken := synthesizeClause_spec py up { h with speakerId := speakerOf py voice }
    (strip py.tables text)
  obtain ⟨hcalls, hasked, haudio⟩ := finish_spec (hspoken.audio written hwritten)
  simp only [Handler.handleEvent, hnew, hreset, hvoice, Bool.false_eq_true, if_false]
  refine ⟨?_, ?_, ?_⟩
  · rw [Handler.reset, hasked, hspoken.asked]
  · rw [calls_append, hspoken.calls, hcalls, List.append_nil]
  · rw [outs_append, ← List.append_assoc]
    exact haudio

/-! ### A reply -/

/-- The clauses that are left when the chunks of a streamed reply are over. -/
def late (py : Python) (env : Sizes) (voice : Option Voice) (chunks : List Text) : List Text :=
  let b := ClauseBuffer.make py env (voice.bind Voice.language)
  (b.flush py (b.addAll py [] chunks).2).1

/-- No call of the chunks has come through. -/
def allRaised (up : Upstream) (asked count : ℕ) : Bool :=
  !(answersFor up asked count).any fun a => !a.raised

/-- The calls of a streamed reply: where it is repeated and no call has come through, its
whole text is asked for in place of what is left. -/
def streamedCalls (py : Python) (env : Sizes) (up : Upstream) (asked : ℕ) (voice : Option Voice)
    (chunks : List Text) (repeated : Option (Option Voice)) : List Call :=
  let first := early py env voice chunks
  match repeated with
  | none => callsFor py up asked none (first ++ late py env voice chunks)
  | some again =>
    if allRaised up asked first.length then
      callsFor py up asked none first ++
        callsFor py up (asked + first.length) (speakerOf py again)
          (nonBlank py (strip py.tables chunks.flatten))
    else callsFor py up asked none (first ++ late py env voice chunks)

/-- What a streamed reply leads to. -/
theorem streamed_effects (py : Python) (env : Sizes) (up : Upstream) (asked : ℕ)
    (voice : Option Voice) (chunks : List Text) (repeated : Option (Option Voice)) :
    (∃ n, ((Handler.init asked).handleAll py env up
        (Reply.streamed voice chunks repeated).events).1 = .init n) ∧
      calls ((Handler.init asked).handleAll py env up
        (Reply.streamed voice chunks repeated).events).2 =
          streamedCalls py env up asked voice chunks repeated ∧
      ∃ audio, Audio audio ∧ outs ((Handler.init asked).handleAll py env up
        (Reply.streamed voice chunks repeated).events).2 = audio ++ [.synthesizeStopped] := by
  let b := ClauseBuffer.make py env (voice.bind Voice.language)
  let h₀ : Handler := { Handler.init asked with streaming := true, buffer := some (b, []) }
  have hstart : (Handler.init asked).handleEvent py env up (.start voice) = (h₀, []) := by
    cases voice <;> rfl
  obtain ⟨hspoken, hbuffer⟩ := handleAll_chunks py env up
    (show h₀.buffer = some (b, []) from rfl) chunks
  have hplaying := hspoken.audio [] rfl
  have hspeaker : (h₀.handleAll py env up (chunks.map .chunk)).1.speakerId = none :=
    hspoken.speaker
  have hstreaming : (h₀.handleAll py env up (chunks.map .chunk)).1.streaming = true :=
    hspoken.streaming
  have hasked : (h₀.handleAll py env up (chunks.map .chunk)).1.asked =
      asked + (early py env voice chunks).length := hspoken.asked
  have hany : (h₀.handleAll py env up (chunks.map .chunk)).1.synthesizedAny =
      !allRaised up asked (early py env voice chunks).length := by
    rw [hspoken.any, allRaised, Bool.not_not]
    rfl
  have hcalls : calls (h₀.handleAll py env up (chunks.map .chunk)).2 =
      callsFor py up asked none (early py env voice chunks) := hspoken.calls
  simp only [Reply.events, Handler.handleAll, hstart, handleAll_append, List.nil_append,
    calls_append, outs_append, hcalls]
  generalize h₀.handleAll py env up (chunks.map .chunk) = mid at *
  -- the end of the reply where nothing was asked for in place of what is left
  obtain ⟨hinit, hlate, audio, haudio, hwritten⟩ := stop_spec py env up hbuffer hplaying
  rw [hspeaker, hasked] at hlate
  have hrest : callsFor py up asked none (early py env voice chunks) ++
      calls (mid.1.handleEvent py env up .stop).2 =
        callsFor py up asked none (early py env voice chunks ++ late py env voice chunks) := by
    rw [hlate, callsFor_append]
    rfl
  rw [List.nil_append] at hwritten hplaying
  rcases repeated with _ | again
  · refine ⟨⟨_, hinit⟩, ?_, audio, haudio, ?_⟩
    · exact (congrArg _ (List.append_nil _)).trans hrest
    · exact (congrArg _ (List.append_nil _)).trans hwritten
  · unfold streamedCalls
    dsimp only
    rcases hraised : allRaised up asked (early py env voice chunks).length with _ | _
    · -- the repeated text is ignored
      rw [if_neg Bool.false_ne_true]
      have hignored : mid.1.handleEvent py env up (.synthesize chunks.flatten again) =
          (mid.1, []) := by
        rw [Handler.handleEvent, hstreaming, hany, hraised]
        rfl
      simp only [Option.map_some, Option.toList_some, Handler.handleAll, hignored]
      refine ⟨⟨_, hinit⟩, ?_, audio, haudio, ?_⟩
      · exact (congrArg _ (List.append_nil _)).trans hrest
      · exact (congrArg _ (List.append_nil _)).trans hwritten
    · -- the whole text is asked for, and nothing is left to be done
      rw [if_pos rfl]
      have hnew : (mid.1.streaming && mid.1.synthesizedAny) = false := by
        rw [hany, hraised, Bool.not_true, Bool.and_false]
      obtain ⟨hafter, hwhole, haudio⟩ := synthesize_spec py env up chunks.flatten again hnew
        (fun h => Bool.noConfusion (hstreaming.symm.trans h)) hspeaker hplaying
      simp only [Option.map_some, Option.toList_some, Handler.handleAll, hafter]
      rw [hasked] at hwhole
      refine ⟨⟨_, rfl⟩, ?_, _, haudio, ?_⟩
      · rw [List.append_nil, hwhole]
        exact congrArg _ (List.append_nil _)
      · rw [List.append_nil, ← List.append_assoc]
        rfl

/-- What a bare `synthesize` leads to. -/
theorem bare_effects (asked : ℕ) (text : Text) (voice : Option Voice) :
    (∃ n, ((Handler.init asked).handleAll py env up (Reply.bare text voice).events).1 =
        .init n) ∧
      calls ((Handler.init asked).handleAll py env up (Reply.bare text voice).events).2 =
        callsFor py up asked (speakerOf py voice) (nonBlank py (strip py.tables text)) ∧
      Audio (outs ((Handler.init asked).handleAll py env up (Reply.bare text voice).events).2) := by
  have hplaying : Playing [] (Handler.init asked) := rfl
  obtain ⟨hafter, hcalls, haudio⟩ := synthesize_spec py env up text voice
    (show ((Handler.init asked).streaming && (Handler.init asked).synthesizedAny) = false from rfl)
    (fun _ => rfl) rfl hplaying
  simp only [Reply.events, Handler.handleAll, List.append_nil]
  exact ⟨⟨_, hafter⟩, hcalls, haudio⟩

/-! ### The calls of a reply -/

variable {py up}

theorem solid_callsFor (asked : ℕ) (speaker : Option ℤ) (clauses : List Text) :
    solid py.tables ((callsFor py up asked speaker clauses).map Call.text).flatten =
      solid py.tables clauses.flatten := by
  induction clauses generalizing asked with
  | nil => rfl
  | cons clause rest ih =>
    rw [callsFor, List.map_cons, List.flatten_cons, solid_append, solid_strip, ih,
      List.flatten_cons, solid_append]

theorem speaker_callsFor {asked : ℕ} {speaker : Option ℤ} {clauses : List Text} {call : Call}
    (h : call ∈ callsFor py up asked speaker clauses) : call.speaker = speaker := by
  induction clauses generalizing asked with
  | nil => cases h
  | cons clause rest ih =>
    rcases List.mem_cons.mp h with rfl | h
    · rfl
    · exact ih h

theorem answer_callsFor (py : Python) (up : Upstream) (asked : ℕ) (speaker : Option ℤ) (clauses : List Text) :
    (callsFor py up asked speaker clauses).map Call.answer =
      answersFor up asked clauses.length := by
  induction clauses generalizing asked with
  | nil => rfl
  | cons clause rest ih =>
    rw [callsFor, List.map_cons, ih, List.length_cons, Nat.add_comm rest.length 1,
      answersFor_add]
    rfl

theorem text_callsFor {asked : ℕ} {speaker : Option ℤ} {clauses : List Text} {call : Call}
    (h : call ∈ callsFor py up asked speaker clauses) :
    ∃ clause ∈ clauses, call.text = strip py.tables clause := by
  induction clauses generalizing asked with
  | nil => cases h
  | cons clause rest ih =>
    rcases List.mem_cons.mp h with rfl | h
    · exact ⟨clause, List.mem_cons_self, rfl⟩
    · obtain ⟨other, hother, htext⟩ := ih h
      exact ⟨other, List.mem_cons_of_mem _ hother, htext⟩

theorem exists_mem_callsFor (py : Python) (up : Upstream) (asked : ℕ) {clauses : List Text}
    (h : clauses ≠ []) : ∃ call, call ∈ callsFor py up asked none clauses := by
  cases clauses with
  | nil => exact absurd rfl h
  | cons clause rest => exact ⟨_, List.mem_cons_self⟩

/-- The calls with the places their texts have when they stand one behind the other. -/
def placed (py : Python) : ℕ → List Call → List (ℕ × Call)
  | _, [] => []
  | start, call :: rest =>
    (start, call) :: placed py (start + (solid py.tables call.text).length) rest

theorem map_snd_placed (start : ℕ) (asked : List Call) :
    (placed py start asked).map Prod.snd = asked := by
  induction asked generalizing start with
  | nil => rfl
  | cons call rest ih => rw [placed, List.map_cons, ih]

theorem le_placed {start : ℕ} {asked : List Call} {x : ℕ × Call}
    (h : x ∈ placed py start asked) : start ≤ x.1 := by
  induction asked generalizing start with
  | nil => cases h
  | cons call rest ih =>
    rcases List.mem_cons.mp h with rfl | h
    · exact Nat.le_refl _
    · exact Nat.le_trans (Nat.le_add_right _ _) (ih h)

theorem pairwise_placed (start : ℕ) (asked : List Call) :
    (placed py start asked).Pairwise fun x y =>
      x.2.answer.chunks ≠ [] → x.1 + (solid py.tables x.2.text).length ≤ y.1 := by
  induction asked generalizing start with
  | nil => exact List.Pairwise.nil
  | cons call rest ih => exact List.Pairwise.cons (fun y hy _ => le_placed hy) (ih _)

theorem prefix_placed {text : Text} {start : ℕ} {asked : List Call}
    (h : solid py.tables (asked.map Call.text).flatten <+: text.drop start) :
    ∀ x ∈ placed py start asked, solid py.tables x.2.text <+: text.drop x.1 := by
  induction asked generalizing start with
  | nil => exact fun x hx => nomatch hx
  | cons call rest ih =>
    rw [List.map_cons, List.flatten_cons, solid_append] at h
    intro x hx
    rcases List.mem_cons.mp hx with rfl | hx
    · exact (List.prefix_append _ _).trans h
    · refine ih ?_ x hx
      obtain ⟨tail, htail⟩ := h
      rw [← List.drop_drop, ← htail, List.append_assoc, List.drop_left]
      exact List.prefix_append _ _

/-- Calls whose texts stand one behind the other in the text say nothing again. -/
theorem notAgain_of_prefix {text : Text} {asked : List Call}
    (h : solid py.tables (asked.map Call.text).flatten <+: solid py.tables text) :
    NotAgain py text asked :=
  ⟨placed py 0 asked, map_snd_placed 0 asked, prefix_placed h, pairwise_placed 0 asked⟩

/-- Asking for the whole text after some calls says nothing again exactly where none of these
has given audio. -/
theorem notAgain_whole_iff {text : Text} {before : List Call} {whole : Call}
    (hbefore : solid py.tables (before.map Call.text).flatten <+: solid py.tables text)
    (hsolid : ∀ call ∈ before, solid py.tables call.text ≠ [])
    (hwhole : solid py.tables whole.text = solid py.tables text)
    (htext : solid py.tables text ≠ []) :
    NotAgain py text (before ++ [whole]) ↔ ∀ call ∈ before, call.answer.chunks = [] := by
  constructor
  · rintro ⟨places, hplaces, hinitial, hpairwise⟩ call hcall
    obtain ⟨first, last, rfl, hfirst, hlast⟩ := List.map_eq_append_iff.mp hplaces
    obtain ⟨x, rfl, rfl⟩ := List.map_eq_singleton_iff.mp hlast
    rw [← hfirst] at hcall
    obtain ⟨y, hy, rfl⟩ := List.mem_map.mp hcall
    by_contra haudio
    have hle := (List.pairwise_append.mp hpairwise).2.2 y hy x (List.mem_singleton_self x) haudio
    -- the whole text fits only at the beginning
    have hfits := (hinitial x (List.mem_append_right _ (List.mem_singleton_self x))).length_le
    rw [hwhole, List.length_drop] at hfits
    have hpos : 0 < (solid py.tables text).length := List.length_pos_of_ne_nil htext
    have hy' : y.2 ∈ before := hfirst ▸ List.mem_map_of_mem hy
    have hpos' : 0 < (solid py.tables y.2.text).length :=
      List.length_pos_of_ne_nil (hsolid y.2 hy')
    omega
  · intro hsilent
    refine ⟨placed py 0 before ++ [(0, whole)], ?_, ?_, ?_⟩
    · rw [List.map_append, map_snd_placed]
      rfl
    · intro x hx
      rcases List.mem_append.mp hx with hx | hx
      · exact prefix_placed hbefore x hx
      · rw [List.mem_singleton.mp hx, List.drop_zero]
        exact hwhole ▸ List.prefix_refl _
    · refine List.pairwise_append.mpr
        ⟨pairwise_placed 0 before, List.pairwise_singleton _ _, ?_⟩
      intro x hx y _ haudio
      have hmem : x.2 ∈ before := by
        rw [← map_snd_placed 0 before]
        exact List.mem_map_of_mem hx
      exact absurd (hsilent x.2 hmem) haudio

/-! ### When a reply comes out right -/

section Streamed

variable (py : Python) (env : Sizes) (voice : Option Voice) (chunks : List Text)

theorem early_ne_blank : ∀ clause ∈ early py env voice chunks, solid py.tables clause ≠ [] :=
  ClauseBuffer.addAll_ne_blank py _ [] chunks

theorem solid_early_late :
    solid py.tables (early py env voice chunks ++ late py env voice chunks).flatten =
      solid py.tables chunks.flatten :=
  ClauseBuffer.solid_addAll_flush py _ chunks

theorem solid_early_prefix :
    solid py.tables (early py env voice chunks).flatten <+: solid py.tables chunks.flatten := by
  rw [← solid_early_late py env voice chunks, List.flatten_append, solid_append]
  exact List.prefix_append _ _

/-- With nothing solid to say there is no clause. -/
theorem eq_nil_of_blank {clauses : List Text}
    (hclauses : ∀ clause ∈ clauses, solid py.tables clause ≠ [])
    (hblank : solid py.tables clauses.flatten = []) : clauses = [] := by
  cases clauses with
  | nil => rfl
  | cons clause rest =>
    rw [List.flatten_cons, solid_append] at hblank
    exact absurd (List.append_eq_nil_iff.mp hblank).1 (hclauses clause List.mem_cons_self)

variable {chunks}

theorem early_late_eq_nil (hblank : solid py.tables chunks.flatten = []) :
    early py env voice chunks ++ late py env voice chunks = [] := by
  refine eq_nil_of_blank py ?_ ((solid_early_late py env voice chunks).trans hblank)
  intro clause hclause
  rcases List.mem_append.mp hclause with hclause | hclause
  · exact early_ne_blank py env voice chunks clause hclause
  · exact ClauseBuffer.flush_ne_blank py _ _ clause hclause

theorem early_eq_nil (hblank : solid py.tables chunks.flatten = []) :
    early py env voice chunks = [] :=
  (List.append_eq_nil_iff.mp (early_late_eq_nil py env voice hblank)).1

variable {py env voice} {asked : ℕ} {repeated : Option (Option Voice)} {effects : List Effect}

/-- A streamed reply whose clauses are asked for one behind the other comes out right unless it
names a speaker. -/
theorem straight_right_iff
    (hcalls : calls effects =
      callsFor py up asked none (early py env voice chunks ++ late py env voice chunks))
    (haudio : ∃ audio, Audio audio ∧ outs effects = audio ++ [.synthesizeStopped]) :
    Right py (.streamed voice chunks repeated) effects ↔
      none ∈ (Reply.streamed voice chunks repeated).speakers py ∨
        solid py.tables chunks.flatten = [] := by
  have hsolid : solid py.tables ((calls effects).map Call.text).flatten =
      solid py.tables chunks.flatten := by
    rw [hcalls, solid_callsFor, solid_early_late]
  constructor
  · intro hright
    by_contra hneither
    rw [not_or] at hneither
    have hne : calls effects ≠ [] := by
      intro hnil
      rw [hnil] at hsolid
      exact hneither.2 hsolid.symm
    obtain ⟨call, hcall⟩ := List.exists_mem_of_ne_nil _ hne
    have hspeaker := hright.voice call hcall
    rw [hcalls] at hcall
    rw [speaker_callsFor hcall] at hspeaker
    exact hneither.1 hspeaker
  · intro heither
    refine ⟨fun _ => hsolid, notAgain_of_prefix (hsolid ▸ List.prefix_refl _), ?_, haudio⟩
    intro call hcall
    rw [hcalls] at hcall
    rcases heither with hnone | hblank
    · rw [speaker_callsFor hcall]
      exact hnone
    · rw [early_late_eq_nil py env voice hblank] at hcall
      cases hcall

theorem mem_answersFor_raised (hraised : allRaised up asked (early py env voice chunks).length) :
    ∀ answer ∈ answersFor up asked (early py env voice chunks).length, answer.raised = true := by
  unfold allRaised at hraised
  simpa using hraised

/-- A streamed reply whose whole text is asked for in the end, after clauses that all raised,
comes out right exactly where none of these gave audio and the speaker is one it names. -/
theorem repeated_right_iff {again : Option Voice}
    (hraised : allRaised up asked (early py env voice chunks).length = true)
    (hcalls : calls effects = callsFor py up asked none (early py env voice chunks) ++
      callsFor py up (asked + (early py env voice chunks).length) (speakerOf py again)
        (nonBlank py (strip py.tables chunks.flatten)))
    (haudio : ∃ audio, Audio audio ∧ outs effects = audio ++ [.synthesizeStopped])
    (htext : solid py.tables chunks.flatten ≠ []) :
    Right py (.streamed voice chunks (some again)) effects ↔
      (none ∈ (Reply.streamed voice chunks (some again)).speakers py ∨
        early py env voice chunks = [] ∧ again.isSome) ∧
      ∀ answer ∈ answersFor up asked (early py env voice chunks).length, answer.chunks = [] := by
  have hne := early_ne_blank py env voice chunks
  let whole : Call := ⟨strip py.tables (strip py.tables chunks.flatten), speakerOf py again,
    up (asked + (early py env voice chunks).length)⟩
  have hwhole : calls effects =
      callsFor py up asked none (early py env voice chunks) ++ [whole] := by
    rw [hcalls, nonBlank, solid_strip, if_neg htext]
    rfl
  have hnotAgain : NotAgain py chunks.flatten (calls effects) ↔
      ∀ answer ∈ answersFor up asked (early py env voice chunks).length,
        answer.chunks = [] := by
    rw [hwhole, notAgain_whole_iff, ← answer_callsFor py up asked none, List.forall_mem_map]
    · rw [solid_callsFor]
      exact solid_early_prefix py env voice chunks
    · intro call hcall
      obtain ⟨clause, hclause, hcalled⟩ := text_callsFor hcall
      rw [hcalled, solid_strip]
      exact hne clause hclause
    · rw [solid_strip, solid_strip]
    · exact htext
  have hmem : whole ∈ calls effects := hwhole ▸ List.mem_append_right _ (List.mem_singleton_self _)
  constructor
  · intro hright
    refine ⟨?_, hnotAgain.mp hright.notAgain⟩
    by_cases hearly : early py env voice chunks = []
    · cases again with
      | none => exact .inl (hright.voice whole hmem)
      | some v => exact .inr ⟨hearly, rfl⟩
    · obtain ⟨call, hcall⟩ := exists_mem_callsFor py up asked hearly
      have hspeaker := hright.voice call (hwhole ▸ List.mem_append_left _ hcall)
      rw [speaker_callsFor hcall] at hspeaker
      exact .inl hspeaker
  · rintro ⟨hspeaker, hsilent⟩
    refine ⟨?_, hnotAgain.mpr hsilent, ?_, haudio⟩
    · intro hthrough
      -- then there is no call before the one for the whole text
      have hearly : early py env voice chunks = [] := by
        by_contra hearly
        obtain ⟨call, hcall⟩ := exists_mem_callsFor py up asked hearly
        have hanswer : call.answer ∈ answersFor up asked (early py env voice chunks).length :=
          answer_callsFor py up asked none _ ▸ List.mem_map_of_mem hcall
        have hfalse := hthrough call (hwhole ▸ List.mem_append_left _ hcall)
        rw [mem_answersFor_raised hraised _ hanswer] at hfalse
        cases hfalse
      rw [hwhole, hearly]
      show solid py.tables ([whole.text].flatten) = _
      rw [List.flatten_singleton, solid_strip, solid_strip]
      rfl
    · intro call hcall
      rw [hwhole, List.mem_append, List.mem_singleton] at hcall
      have hagain : again.isSome → speakerOf py again ∈
          (Reply.streamed voice chunks (some again)).speakers py := by
        intro hsome
        obtain ⟨v, rfl⟩ := Option.isSome_iff_exists.mp hsome
        have hnonempty : (Reply.streamed voice chunks (some (some v))).voices.isEmpty = false := by
          cases voice <;> rfl
        rw [Reply.speakers, hnonempty, if_neg Bool.false_ne_true]
        exact List.mem_map.mpr ⟨v, List.mem_append_right _ (List.mem_singleton_self v), rfl⟩
      rcases hcall with hcall | rfl
      · rw [speaker_callsFor hcall]
        rcases hspeaker with hnone | ⟨hearly, -⟩
        · exact hnone
        · rw [hearly] at hcall
          cases hcall
      · rcases hspeaker with hnone | ⟨-, hsome⟩
        · cases again with
          | none => exact hnone
          | some v => exact hagain rfl
        · exact hagain hsome

/-- A streamed reply comes out right exactly where it is fine. -/
theorem streamed_right_iff (asked : ℕ) (voice : Option Voice) (chunks : List Text)
    (repeated : Option (Option Voice)) :
    Right py (.streamed voice chunks repeated) ((Handler.init asked).handleAll py env up
        (Reply.streamed voice chunks repeated).events).2 ↔
      Fine py env up asked (.streamed voice chunks repeated) := by
  obtain ⟨-, hcalls, haudio⟩ := streamed_effects py env up asked voice chunks repeated
  generalize ((Handler.init asked).handleAll py env up
    (Reply.streamed voice chunks repeated).events).2 = effects at hcalls haudio
  have hblank : solid py.tables chunks.flatten = [] → early py env voice chunks = [] :=
    early_eq_nil py env voice
  unfold streamedCalls at hcalls
  unfold Fine
  dsimp only at hcalls ⊢
  rw [show (List.range' asked (early py env voice chunks).length).map up =
    answersFor up asked (early py env voice chunks).length from rfl]
  rcases repeated with _ | again
  · -- the text is not repeated
    rw [straight_right_iff hcalls haudio]
    constructor
    · rintro (hnone | htext)
      · exact ⟨.inl hnone, fun h => nomatch h⟩
      · exact ⟨.inr ⟨hblank htext, .inl htext⟩, fun h => nomatch h⟩
    · rintro ⟨hnone | ⟨-, htext | hsome⟩, -⟩
      · exact .inl hnone
      · exact .inr htext
      · cases hsome
  · dsimp only at hcalls
    rcases hraised : allRaised up asked (early py env voice chunks).length with _ | _
    · -- a clause has come through
      rw [hraised, if_neg Bool.false_ne_true] at hcalls
      rw [straight_right_iff hcalls haudio]
      have hthrough : ∃ answer ∈ answersFor up asked (early py env voice chunks).length,
          answer.raised = false := by
        unfold allRaised at hraised
        simpa using hraised
      have hearly : early py env voice chunks ≠ [] := by
        intro hnil
        obtain ⟨answer, hanswer, -⟩ := hthrough
        rw [hnil] at hanswer
        cases hanswer
      constructor
      · rintro (hnone | htext)
        · exact ⟨.inl hnone, fun _ => .inl hthrough⟩
        · exact absurd (hblank htext) hearly
      · rintro ⟨hnone | ⟨hnil, -⟩, -⟩
        · exact .inl hnone
        · exact absurd hnil hearly
    · rw [hraised, if_pos rfl] at hcalls
      have hnever : ¬ ∃ answer ∈ answersFor up asked (early py env voice chunks).length,
          answer.raised = false := by
        rintro ⟨answer, hanswer, hfalse⟩
        rw [mem_answersFor_raised hraised answer hanswer] at hfalse
        cases hfalse
      by_cases htext : solid py.tables chunks.flatten = []
      · -- nothing is said at all
        have hearly := hblank htext
        have hnothing : calls effects =
            callsFor py up asked none (early py env voice chunks ++ late py env voice chunks) := by
          rw [hcalls, nonBlank, solid_strip, if_pos htext, early_late_eq_nil py env voice htext,
            hearly]
          rfl
        rw [straight_right_iff hnothing haudio, hearly]
        exact ⟨fun _ => ⟨.inr ⟨rfl, .inl htext⟩, fun _ => .inr fun _ h => nomatch h⟩,
          fun _ => .inr htext⟩
      · rw [repeated_right_iff hraised hcalls haudio htext]
        simp only [htext, hnever, false_or, Option.join_some, Option.isSome_some, forall_const]

end Streamed

/-- A bare `synthesize` always comes out right. -/
theorem bare_right (py : Python) (env : Sizes) (up : Upstream) (asked : ℕ) (text : Text)
    (voice : Option Voice) :
    Right py (.bare text voice) ((Handler.init asked).handleAll py env up
      (Reply.bare text voice).events).2 := by
  obtain ⟨-, hcalls, haudio⟩ := bare_effects py env up asked text voice
  have hsolid : solid py.tables (nonBlank py (strip py.tables text)).flatten =
      solid py.tables text := by
    unfold nonBlank
    split
    · next hblank =>
      rw [solid_strip] at hblank
      exact hblank.symm
    · rw [List.flatten_singleton, solid_strip]
  have hcalled : solid py.tables ((calls ((Handler.init asked).handleAll py env up
      (Reply.bare text voice).events).2).map Call.text).flatten = solid py.tables text := by
    rw [hcalls, solid_callsFor, hsolid]
  refine ⟨fun _ => hcalled, notAgain_of_prefix (hcalled ▸ List.prefix_refl _), ?_, ?_⟩
  · intro call hcall
    rw [hcalls] at hcall
    rw [speaker_callsFor hcall]
    cases voice with
    | none => exact List.mem_singleton_self _
    | some v => exact List.mem_singleton_self _
  · exact ⟨_, haudio, (List.append_nil _).symm⟩

/-! ### Every run -/

/-- **How the replies of a connection come out.** Whatever the replies and however the calls of
`tts_stream` go, a reply comes out right exactly where it is fine. -/
theorem reply_right_iff (py : Python) (env : Sizes) (up : Upstream) (replies : List Reply) :
    ∀ item ∈ serve py env up (.init 0) replies,
      Right py item.2.1 item.2.2 ↔ Fine py env up item.1 item.2.1 := by
  suffices h : ∀ asked, ∀ item ∈ serve py env up (.init asked) replies,
      Right py item.2.1 item.2.2 ↔ Fine py env up item.1 item.2.1 from h 0
  induction replies with
  | nil => exact fun asked item h => nomatch h
  | cons reply rest ih =>
    intro asked item hitem
    have hafter : ∃ n, ((Handler.init asked).handleAll py env up reply.events).1 = .init n := by
      cases reply with
      | streamed voice chunks repeated =>
        exact (streamed_effects py env up asked voice chunks repeated).1
      | bare text voice => exact (bare_effects py env up asked text voice).1
    obtain ⟨n, hn⟩ := hafter
    rw [serve, hn] at hitem
    rcases List.mem_cons.mp hitem with rfl | hitem
    · cases reply with
      | streamed voice chunks repeated => exact streamed_right_iff asked voice chunks repeated
      | bare text voice => exact ⟨fun _ => trivial, fun _ => bare_right py env up asked text voice⟩
    · exact ih n item hitem

/-- Python's library, as far as ASCII goes. -/
def asciiPython : Python :=
  { tables := V2v.Tts.asciiTables
    lower := List.map Char.toLower
    int := fun text => if text = "7".toList then some 7 else none }

/-- A reply of one sentence, in the voice of speaker 7, as Home Assistant sends it. -/
def helloReply : Reply :=
  let voice : Voice := { language := none, speaker := some "7".toList }
  .streamed (some voice) ["Hello!".toList] (some (some voice))

/-- The first call breaks off after some audio. -/
def brokenUpstream : Upstream
  | 0 => { chunks := [(16000, [1, 2])], raised := true }
  | _ => { chunks := [(16000, [1, 2])], raised := false }

/-- The sentence is asked for with no speaker, and once more after its audio has been given. -/
theorem hello_twice :
    ¬ ∀ py env up, ∀ item ∈ serve py env up (.init 0) [helloReply],
      Right py item.2.1 item.2.2 := by
  intro hall
  have hright := hall asciiPython defaultSizes brokenUpstream _ List.mem_cons_self
  have hfine : Fine asciiPython defaultSizes brokenUpstream 0 helloReply :=
    (streamed_right_iff 0 _ _ _).mp hright
  obtain ⟨hnone | ⟨hearly, -⟩, -⟩ := hfine
  · exact absurd hnone (by decide)
  · exact absurd hearly (by decide)

/-- A bare request comes out right, also where its call breaks off. -/
theorem hello_bare :
    Right asciiPython (.bare "Hello!".toList none) ((Handler.init 0).handleAll asciiPython
      defaultSizes brokenUpstream (Reply.bare "Hello!".toList none).events).2 :=
  (reply_right_iff asciiPython defaultSizes brokenUpstream [.bare "Hello!".toList none] _
    List.mem_cons_self).mpr trivial

end Run

end OpenVoiceStream.Wyoming.Tts
