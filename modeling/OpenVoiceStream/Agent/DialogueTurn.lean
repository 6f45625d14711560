import Mathlib.Data.List.Basic
import Mathlib.Data.List.Induction
import OpenVoiceStream.Base.Template

/-!
# A dialogue turn

`run_default_dialogue_turn` lets `stream_with_tools` talk to the model and sends the texts it
hands out to the server, where they wait until a `tts_flush` speaks them or an `abort` drops
them. The turn flushes when the stream came to its end, and aborts when it failed or was
cancelled after something had been sent.

Every await can be cancelled; a frame may have gone out by then. What the stream does after a
callback of its has raised is its own affair.

## Main definitions

* `Await`, `Send`, `Last` — how an await can end.
* `Callback`, `Callback.run` — the callbacks of the turn.
* `Stream`, `Exit` — how the stream and the awaits behind it go.
* `runDefaultDialogueTurn` — the turn.
* `Clean` — a turn that leaves no text at the server.
* `Safe` — the turns that are clean.

## Main results

* `runAll_spec` — what the callbacks send and what the turn remembers of it.
* `turn_clean_iff` — every turn.
-/

namespace OpenVoiceStream.Agent.DialogueTurn

/-! ### Awaits -/

/-- How an await ends: it returns, it raises an `Exception`, or it is cancelled. -/
inductive Await
  | done
  | raised
  | cancelled
  deriving DecidableEq

/-- How `slv.send_text` ends, and whether the frame went out where it does not return. -/
inductive Send
  | done
  | raised (out : Bool)
  | cancelled (out : Bool)
  deriving DecidableEq

/-- How an await ends that does not raise by itself: `slv.abort` and `slv.flush_tts`. -/
inductive Last
  | done
  | cancelled (out : Bool)
  deriving DecidableEq

/-- The frame went out. -/
def Send.out : Send → Bool
  | .done => true
  | .raised out => out
  | .cancelled out => out

/-- What the caller of `send_text` sees of it. -/
def Send.await : Send → Await
  | .done => .done
  | .raised _ => .raised
  | .cancelled _ => .cancelled

/-- The frame went out. -/
def Last.out : Last → Bool
  | .done => true
  | .cancelled out => out

/-- A frame on the socket. -/
inductive Frame
  | text (text : Text)
  | ttsFlush
  | abort
  deriving DecidableEq

/-! ### The callbacks -/

/-- What the turn keeps while it streams, and the frames it has sent. -/
structure Turn where
  chunks : List Text
  sentAnyText : Bool
  frames : List Frame

/-- A call of a callback, and how its awaits end. -/
inductive Callback
  | token (text : Text) (broadcast : Await) (send : Send)
  | toolStarted (broadcast : Await)
  | toolPreamble (text : Text) (send : Send)
  | toolCompletionText (text : Text) (send : Send)
  | toolCompleted (broadcast : Await)

/-- `slv.send_text(text)`. -/
def Turn.sendText (t : Turn) (text : Text) (send : Send) : Turn :=
  if send.out then { t with frames := t.frames ++ [.text text] } else t

/-- `_on_token`. -/
def onToken (t : Turn) (token : Text) (broadcast : Await) (send : Send) : Turn × Await :=
  let t := { t with chunks := t.chunks ++ [token] }
  if broadcast ≠ .done then (t, broadcast)
  else
    let t := t.sendText token send
    if send = .done then ({ t with sentAnyText := true }, .done) else (t, send.await)

/-- `_on_tool_preamble` and `_on_tool_completion_text`; what `send_text` raises stays inside. -/
def onToolText (t : Turn) (text : Text) (send : Send) : Turn × Await :=
  if text = [] then (t, .done)
  else
    let t := t.sendText text send
    match send with
    | .done => ({ t with sentAnyText := true }, .done)
    | .raised _ => (t, .done)
    | .cancelled _ => (t, .cancelled)

/-- A callback: the turn after it, and what the stream sees of it. -/
def Callback.run (t : Turn) : Callback → Turn × Await
  | .token text broadcast send => onToken t text broadcast send
  | .toolStarted broadcast => (t, broadcast)
  | .toolPreamble text send => onToolText t text send
  | .toolCompletionText text send => onToolText t text send
  | .toolCompleted broadcast => (t, broadcast)

/-- How a call of `stream_with_tools` goes: the callbacks it calls, and how it ends. -/
structure Stream where
  callbacks : List Callback
  ending : Await

/-- The callbacks one after the other. -/
def runAll (t : Turn) (callbacks : List Callback) : Turn :=
  callbacks.foldl (fun t callback => (callback.run t).1) t

/-! ### The turn -/

/-- How the awaits behind the stream end, where they are made. There may be no
`stop_playback` to call and no metrics to broadcast. -/
structure Exit where
  abort : Last
  stopPlayback : Option Await
  flush : Last
  metrics : Option Await

/-- What a turn depends on before it streams: its text, whether it is blank, whether the
server owns the conversation, and whether the model is known to be down. -/
structure Begin where
  blank : Bool
  serverLoop : Bool
  llmDown : Bool

/-- The frames a turn sent, and how it ended. -/
structure Result where
  frames : List Frame
  ended : Await

/-- The part of both `except` clauses that aborts: the turn, and whether it was cancelled
there. -/
def abortTurn (t : Turn) (exit : Exit) : Turn × Bool :=
  if t.chunks ≠ [] ∨ t.sentAnyText then
    let t := if exit.abort.out then { t with frames := t.frames ++ [.abort] } else t
    match exit.abort with
    | .cancelled _ => (t, true)
    | .done => (t, exit.stopPlayback = some .cancelled)
  else (t, false)

/-- The end of the `finally` clause: a turn that is cancelled in the last broadcast ends so. -/
def Result.afterMetrics (r : Result) (exit : Exit) : Result :=
  if exit.metrics = some .cancelled then { r with ended := .cancelled } else r

/-- `run_default_dialogue_turn`. -/
def runDefaultDialogueTurn (start : Begin) (stream : Stream) (exit : Exit) : Result :=
  if start.blank then { frames := [], ended := .done }
  else if start.serverLoop then { frames := [], ended := .done }
  else if start.llmDown then { frames := [], ended := .raised }
  else
    let t := runAll { chunks := [], sentAnyText := false, frames := [] } stream.callbacks
    match stream.ending with
    | .done =>
      -- `completed and not cancelled`
      match exit.flush with
      | .done => Result.afterMetrics { frames := t.frames ++ [.ttsFlush], ended := .done } exit
      | .cancelled out =>
        { frames := if out then t.frames ++ [.ttsFlush] else t.frames, ended := .cancelled }
    | ending =>
      let (t, cancelled) := abortTurn t exit
      Result.afterMetrics
        { frames := t.frames, ended := if cancelled then .cancelled else ending } exit

/-! ### What a turn leaves behind -/

/-- Every text of the turn is followed by a flush or an abort of its own, and a turn that
ends with an exception or cancelled has not flushed. -/
structure Clean (r : Result) : Prop where
  followed : ∀ before text after, r.frames = before ++ .text text :: after →
    .ttsFlush ∈ after ∨ .abort ∈ after
  unflushed : r.ended ≠ .done → .ttsFlush ∉ r.frames

/-- The callback puts a text on the socket. -/
def Callback.sends : Callback → Bool
  | .token _ broadcast send => broadcast = .done && send.out
  | .toolPreamble text send => text ≠ [] && send.out
  | .toolCompletionText text send => text ≠ [] && send.out
  | _ => false

/-- The callback is a token, or a text of a tool whose `send_text` returned. -/
def Callback.remembered : Callback → Bool
  | .token _ _ _ => true
  | .toolPreamble text send => text ≠ [] && send = .done
  | .toolCompletionText text send => text ≠ [] && send = .done
  | _ => false

/-- The turns that leave nothing behind. One that is skipped does. One whose stream returns
must not be cancelled any more, or not before the flush goes out and with nothing sent. One
whose stream fails or is cancelled must have sent nothing, or remember that it has sent
something and not be cancelled before the abort goes out. -/
def Safe (start : Begin) (stream : Stream) (exit : Exit) : Prop :=
  start.blank ∨ start.serverLoop ∨ start.llmDown ∨
    match stream.ending with
    | .done =>
      (exit.flush = .done ∧ exit.metrics ≠ some .cancelled) ∨
        (exit.flush = .cancelled false ∧ stream.callbacks.any Callback.sends = false)
    | _ =>
      stream.callbacks.any Callback.sends = false ∨
        (stream.callbacks.any Callback.remembered ∧ exit.abort.out)

/-! ### The callbacks of a run -/

/-- What is true of a turn after some callbacks. -/
structure Streamed (t : Turn) (callbacks : List Callback) : Prop where
  texts : ∀ frame ∈ t.frames, ∃ text, frame = .text text
  sends : t.frames ≠ [] ↔ callbacks.any Callback.sends
  remembers : (t.chunks ≠ [] ∨ t.sentAnyText) ↔ callbacks.any Callback.remembered

theorem Streamed.init : Streamed { chunks := [], sentAnyText := false, frames := [] } [] := by
  constructor
  · exact fun frame h => nomatch h
  · simp
  · simp

/-- What a callback adds is what it sends and what the turn remembers of it. -/
structure Adds (t t' : Turn) (callback : Callback) : Prop where
  frames : (callback.sends = true ∧ ∃ text, t'.frames = t.frames ++ [.text text]) ∨
    (callback.sends = false ∧ t'.frames = t.frames)
  remembers : (t'.chunks ≠ [] ∨ t'.sentAnyText) ↔
    ((t.chunks ≠ [] ∨ t.sentAnyText) ∨ callback.remembered)

theorem adds_onToken (t : Turn) (text : Text) (broadcast : Await) (send : Send) :
    Adds t (onToken t text broadcast send).1 (.token text broadcast send) := by
  constructor
  · cases broadcast with
    | raised => exact .inr ⟨rfl, rfl⟩
    | cancelled => exact .inr ⟨rfl, rfl⟩
    | done =>
      rcases send with _ | (_ | _) | (_ | _)
      · exact .inl ⟨rfl, text, rfl⟩
      · exact .inr ⟨rfl, rfl⟩
      · exact .inl ⟨rfl, text, rfl⟩
      · exact .inr ⟨rfl, rfl⟩
      · exact .inl ⟨rfl, text, rfl⟩
  · have hchunks : (onToken t text broadcast send).1.chunks = t.chunks ++ [text] := by
      unfold onToken Turn.sendText
      dsimp only
      split
      · rfl
      · split <;> split <;> rfl
    simp [hchunks, Callback.remembered]

/-- A text of a tool, sent by either callback. -/
theorem adds_onToolText (t : Turn) (text : Text) (send : Send) {callback : Callback}
    (hsends : callback.sends = (text ≠ [] && send.out))
    (hremembered : callback.remembered = (text ≠ [] && send = .done)) :
    Adds t (onToolText t text send).1 callback := by
  unfold onToolText
  by_cases htext : text = []
  · rw [if_pos htext]
    exact ⟨.inr ⟨by simp [hsends, htext], rfl⟩, by simp [hremembered, htext]⟩
  · rw [if_neg htext]
    rcases send with _ | (_ | _) | (_ | _)
    · exact ⟨.inl ⟨by simp [hsends, htext, Send.out], text, rfl⟩,
        by simp [hremembered, htext]⟩
    · exact ⟨.inr ⟨by simp [hsends, Send.out], rfl⟩,
        by simp [hremembered, Turn.sendText, Send.out]⟩
    · exact ⟨.inl ⟨by simp [hsends, htext, Send.out], text, rfl⟩,
        by simp [hremembered, Turn.sendText, Send.out]⟩
    · exact ⟨.inr ⟨by simp [hsends, Send.out], rfl⟩,
        by simp [hremembered, Turn.sendText, Send.out]⟩
    · exact ⟨.inl ⟨by simp [hsends, htext, Send.out], text, rfl⟩,
        by simp [hremembered, Turn.sendText, Send.out]⟩

theorem adds_run (t : Turn) (callback : Callback) : Adds t (callback.run t).1 callback := by
  cases callback with
  | token text broadcast send => exact adds_onToken t text broadcast send
  | toolStarted broadcast => exact ⟨.inr ⟨rfl, rfl⟩, by simp [Callback.run, Callback.remembered]⟩
  | toolPreamble text send => exact adds_onToolText t text send rfl rfl
  | toolCompletionText text send => exact adds_onToolText t text send rfl rfl
  | toolCompleted broadcast =>
    exact ⟨.inr ⟨rfl, rfl⟩, by simp [Callback.run, Callback.remembered]⟩

theorem Streamed.step {t t' : Turn} {callbacks : List Callback} {callback : Callback}
    (ht : Streamed t callbacks) (hadds : Adds t t' callback) :
    Streamed t' (callbacks ++ [callback]) := by
  constructor
  · intro frame hframe
    rcases hadds.frames with ⟨-, text, hframes⟩ | ⟨-, hframes⟩
    · rw [hframes] at hframe
      rcases List.mem_append.mp hframe with hold | hnew
      · exact ht.texts frame hold
      · exact ⟨text, List.mem_singleton.mp hnew⟩
    · rw [hframes] at hframe
      exact ht.texts frame hframe
  · rw [List.any_append, List.any_cons, List.any_nil, Bool.or_false]
    rcases hadds.frames with ⟨hsends, text, hframes⟩ | ⟨hsends, hframes⟩
    · rw [hframes, hsends]
      simp
    · rw [hframes, hsends, Bool.or_false]
      exact ht.sends
  · rw [hadds.remembers, ht.remembers, List.any_append]
    simp

/-- **What the callbacks send** and what the turn remembers of it. -/
theorem runAll_spec (callbacks : List Callback) :
    Streamed (runAll { chunks := [], sentAnyText := false, frames := [] } callbacks)
      callbacks := by
  induction callbacks using List.reverseRecOn with
  | nil => exact Streamed.init
  | append_singleton callbacks callback ih =>
    unfold runAll at ih ⊢
    rw [List.foldl_append]
    exact ih.step (adds_run _ callback)

/-! ### When a turn is clean -/

theorem Clean.nil (ended : Await) : Clean { frames := [], ended := ended } := by
  refine ⟨fun before text after h => ?_, fun _ h => nomatch h⟩
  exact absurd h.symm (List.append_ne_nil_of_right_ne_nil before (List.cons_ne_nil _ after))

/-- Texts with a flush or an abort behind them. -/
theorem followed_concat {frames : List Frame} {last : Frame}
    (hlast : last = .ttsFlush ∨ last = .abort) {before after : List Frame} {text : Text}
    (h : frames ++ [last] = before ++ .text text :: after) :
    .ttsFlush ∈ after ∨ .abort ∈ after := by
  have hmem : last ∈ after := by
    rcases List.eq_nil_or_concat after with rfl | ⟨rest, x, rfl⟩
    · have heq := (List.append_inj' h rfl).2
      rcases hlast with rfl | rfl <;> cases heq
    · rw [List.concat_eq_append, ← List.cons_append, ← List.append_assoc] at h
      have heq := (List.append_inj' h rfl).2
      rw [List.concat_eq_append, ← heq]
      exact List.mem_append_right _ List.mem_cons_self
  rcases hlast with rfl | rfl
  · exact .inl hmem
  · exact .inr hmem

/-- Texts with nothing behind them are clean only where there are none. -/
theorem clean_texts_iff {t : Turn} {callbacks : List Callback} (ht : Streamed t callbacks)
    (ended : Await) :
    Clean { frames := t.frames, ended := ended } ↔ callbacks.any Callback.sends = false := by
  rw [← Bool.not_eq_true, ← ht.sends, not_not]
  constructor
  · intro hclean
    rcases List.eq_nil_or_concat t.frames with hnil | ⟨before, frame, hframes⟩
    · exact hnil
    · rw [List.concat_eq_append] at hframes
      obtain ⟨text, rfl⟩ := ht.texts frame (hframes ▸ List.mem_append_right _ List.mem_cons_self)
      rcases hclean.followed before text [] hframes with h | h <;> cases h
  · intro hnil
    rw [hnil]
    exact Clean.nil ended

theorem notMem_texts {t : Turn} {callbacks : List Callback} (ht : Streamed t callbacks) :
    .ttsFlush ∉ t.frames := by
  intro hmem
  obtain ⟨text, htext⟩ := ht.texts _ hmem
  cases htext

/-- A flush behind the texts is clean where the turn then returns. -/
theorem clean_flushed_iff {t : Turn} (ended : Await) :
    Clean { frames := t.frames ++ [.ttsFlush], ended := ended } ↔ ended = .done := by
  constructor
  · intro hclean
    by_contra hended
    exact hclean.unflushed hended (List.mem_append_right _ List.mem_cons_self)
  · rintro rfl
    exact ⟨fun before text after h => followed_concat (.inl rfl) h, fun h => absurd rfl h⟩

/-- An abort behind the texts is always clean. -/
theorem clean_aborted {t : Turn} {callbacks : List Callback} (ht : Streamed t callbacks)
    (ended : Await) : Clean { frames := t.frames ++ [.abort], ended := ended } := by
  refine ⟨fun before text after h => followed_concat (.inr rfl) h, fun _ hmem => ?_⟩
  rcases List.mem_append.mp hmem with hmem | hmem
  · exact notMem_texts ht hmem
  · cases List.mem_singleton.mp hmem

/-- A stream that failed or was cancelled. -/
theorem clean_failed_iff {t : Turn} {callbacks : List Callback} (ht : Streamed t callbacks)
    (exit : Exit) (ended : Await) :
    Clean { frames := (abortTurn t exit).1.frames, ended := ended } ↔
      callbacks.any Callback.sends = false ∨
        (callbacks.any Callback.remembered ∧ exit.abort.out) := by
  have hremembers := ht.remembers
  unfold abortTurn
  by_cases hremembered : t.chunks ≠ [] ∨ t.sentAnyText
  · rw [if_pos hremembered, ← hremembers]
    rcases habort : exit.abort with _ | (_ | _)
    · exact ⟨fun _ => .inr ⟨hremembered, rfl⟩, fun _ => clean_aborted ht ended⟩
    · rw [show (Last.cancelled false).out = false from rfl]
      simp only [Bool.false_eq_true, if_false, and_false, or_false]
      exact clean_texts_iff ht ended
    · exact ⟨fun _ => .inr ⟨hremembered, rfl⟩, fun _ => clean_aborted ht ended⟩
  · rw [if_neg hremembered, clean_texts_iff ht ended, ← hremembers]
    exact ⟨.inl, fun h => h.resolve_right fun h => hremembered h.1⟩

/-- **A turn leaves no text at the server** exactly where it is safe. -/
theorem turn_clean_iff (start : Begin) (stream : Stream) (exit : Exit) :
    Clean (runDefaultDialogueTurn start stream exit) ↔ Safe start stream exit := by
  unfold runDefaultDialogueTurn Safe
  rcases hblank : start.blank with _ | _
  swap
  · exact ⟨fun _ => .inl rfl, fun _ => Clean.nil _⟩
  rcases hserver : start.serverLoop with _ | _
  swap
  · exact ⟨fun _ => .inr (.inl rfl), fun _ => Clean.nil _⟩
  rcases hdown : start.llmDown with _ | _
  swap
  · exact ⟨fun _ => .inr (.inr (.inl rfl)), fun _ => Clean.nil _⟩
  simp only [Bool.false_eq_true, if_false, false_or]
  have ht := runAll_spec stream.callbacks
  generalize runAll { chunks := [], sentAnyText := false, frames := [] } stream.callbacks = t at ht
  have hfailed : ∀ ended : Await, Clean (Result.afterMetrics
      { frames := (abortTurn t exit).1.frames, ended := ended } exit) ↔
        stream.callbacks.any Callback.sends = false ∨
          (stream.callbacks.any Callback.remembered ∧ exit.abort.out) := by
    intro ended
    unfold Result.afterMetrics
    split <;> exact clean_failed_iff ht exit _
  rcases hending : stream.ending with _ | _ | _
  · dsimp only
    rcases hflush : exit.flush with _ | (_ | _)
    · dsimp only
      unfold Result.afterMetrics
      split
      · next hmetrics =>
        rw [clean_flushed_iff]
        simp [hmetrics]
      · next hmetrics =>
        rw [clean_flushed_iff]
        simp [hmetrics]
    · dsimp only
      rw [if_neg Bool.false_ne_true, clean_texts_iff ht]
      simp
    · dsimp only
      rw [if_pos rfl, clean_flushed_iff]
      simp
  · exact hfailed _
  · exact hfailed _

/-- The preamble of a tool has gone out when its `send_text` is cancelled, and nothing aborts;
a turn is cancelled in its flush, and its text stays. -/
theorem text_left_behind :
    ¬ Clean (runDefaultDialogueTurn ⟨false, false, false⟩
      { callbacks := [.toolStarted .done, .toolPreamble "Let me see.".toList (.cancelled true)]
        ending := .cancelled }
      { abort := .done, stopPlayback := some .done, flush := .done, metrics := none }) ∧
    ¬ Clean (runDefaultDialogueTurn ⟨false, false, false⟩
      { callbacks := [.token "Hello.".toList .done .done], ending := .done }
      { abort := .done, stopPlayback := some .done, flush := .cancelled false
        metrics := none }) := by
  constructor
  · intro hclean
    rcases hclean.followed [] "Let me see.".toList [] (by decide) with h | h <;> cases h
  · intro hclean
    rcases hclean.followed [] "Hello.".toList [] (by decide) with h | h <;> cases h

end OpenVoiceStream.Agent.DialogueTurn
