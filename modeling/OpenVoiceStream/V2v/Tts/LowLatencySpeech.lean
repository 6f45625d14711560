import Mathlib.Data.List.DropRight
import OpenVoiceStream.Base.Emits
import OpenVoiceStream.V2v.Tts.Spoken

/-!
# The low latency buffer speaks every character once

`LowLatencyTTSBuffer` cuts at six kinds of places, but in every case it hands out the front of
its text and keeps what is behind it, white space apart (`nextChunk_takes`). So the loop of
`_emit_ready` ends (`emits_emitReady`), and the parts of a reply are the reply.

## Main definitions

* `LowLatency.ofSettings` — the buffer that `__post_init__` makes of its arguments and of the
  environment.

## Main results

* `lowLatency_speaks_once` — the parts are the text; at the end only a rest that cannot be
  spoken is dropped.
-/

namespace OpenVoiceStream
namespace V2v
namespace Tts

open Wyoming (Python Sizes solid solid_nil solid_append solid_strip strip_eq_nil_iff lstrip_eq_nil_iff)

namespace LowLatency

/-- `__post_init__`: what is not given is read from the environment. -/
def ofSettings (py : Python) (env : Sizes) (language : Option Text)
    (minChars targetChars maxChars : Option ℤ) : LowLatency :=
  let lang := py.lower (strip py.tables (language.getD []))
  let (defaultMin, defaultTarget, defaultMax) := if lang ∈ cjkLanguages then env.cjk else env.latin
  { make py.tables (language.getD []) (minChars.getD defaultMin).toNat
      (targetChars.getD defaultTarget).toNat (maxChars.getD defaultMax).toNat with
    lower := py.lower }

variable (b : LowLatency)

/-! ### One part -/

/-- What `out or None` is. -/
theorem orNone_eq_some {out part : Text} (h : (if out = [] then none else some out) = some part) :
    out = part ∧ part ≠ [] := by
  split at h
  · cases h
  · next hne =>
    obtain rfl := Option.some.inj h
    exact ⟨rfl, hne⟩

theorem take_takes (text : Text) (stop : ℕ) :
    Takes b.tables (Blank b.tables) text (b.take text stop).1.toList (b.take text stop).2 := by
  have hfront : Takes b.tables (Blank b.tables) text (b.take text stop).1.toList
      (text.drop stop) := by
    refine ⟨text.take stop, (List.take_append_drop stop text).symm, ?_⟩
    unfold take
    dsimp only
    split
    · next hblank =>
      rw [strip_eq_nil_iff] at hblank
      exact .skipped hblank
    · exact .single _
  have htakes := hfront.trans (takes_lstrip (text.drop stop))
  rwa [List.append_nil] at htakes

/-- **A part is the front of what the buffer held.** -/
theorem nextChunk_takes (buf : Text) :
    Takes b.tables (Blank b.tables) buf (b.nextChunk false buf).1.toList
      (b.nextChunk false buf).2 := by
  have hleft : Takes b.tables (Blank b.tables) buf [] (lstrip b.tables buf) := takes_lstrip buf
  unfold nextChunk
  dsimp only
  split
  · next hempty =>
    rw [hempty] at hleft
    exact hleft
  · rw [if_neg Bool.false_ne_true]
    split
    · next stop _ => exact hleft.trans (b.take_takes _ stop)
    · exact hleft

theorem nextChunk_ne_nil {final : Bool} {buf rest part : Text}
    (h : b.nextChunk final buf = (some part, rest)) : part ≠ [] := by
  unfold nextChunk at h
  dsimp only at h
  split at h
  · cases h
  · split at h
    · obtain ⟨hout, -⟩ := Prod.mk.inj h
      split at hout
      · next hspeak =>
        obtain rfl := Option.some.inj hout
        exact hspeak.1
      · cases hout
    · split at h
      · exact (orNone_eq_some (Prod.mk.inj h).1).2
      · cases h

/-- At the end of a reply the buffer is emptied. What is not handed out has nothing to speak. -/
theorem nextChunk_final (buf : Text) :
    (b.nextChunk true buf).2 = [] ∧
      ((b.nextChunk true buf).1 = some (strip b.tables buf) ∨
        (b.nextChunk true buf).1 = none ∧ hasSpeakableText b.tables (strip b.tables buf) = false) := by
  have hagain : strip b.tables (lstrip b.tables buf) = strip b.tables buf := by
    have htwice : lstrip b.tables (lstrip b.tables buf) = lstrip b.tables buf :=
      List.dropWhile_idempotent _ _
    rw [strip, strip, htwice]
  unfold nextChunk
  dsimp only
  rw [hagain]
  split
  · next hempty =>
    have hnothing : strip b.tables buf = [] := by
      rw [strip_eq_nil_iff, ← lstrip_eq_nil_iff]
      exact hempty
    exact ⟨rfl, .inr ⟨rfl, by rw [hnothing]; rfl⟩⟩
  · rw [if_pos rfl]
    split
    · exact ⟨rfl, .inl rfl⟩
    · next hspeak =>
      refine ⟨rfl, .inr ⟨rfl, ?_⟩⟩
      by_cases hnothing : strip b.tables buf = []
      · rw [hnothing]
        rfl
      · exact Bool.eq_false_iff.mpr fun htrue => hspeak ⟨hnothing, htrue⟩

/-! ### The loop -/

/-- `_emit_ready` ends, whatever the buffer holds, and `emitReady` is where it ends. -/
theorem emits_emitReady (final : Bool) {n : ℕ} {buf : Text} (hn : buf.length < n) :
    Emits (b.nextChunk final) buf (b.emitReady final n buf).1 (b.emitReady final n buf).2 := by
  induction n generalizing buf with
  | zero => omega
  | succ n ih =>
    unfold emitReady
    split
    · next hnext => exact .stop hnext
    · next hnext =>
      have hlt := b.nextChunk_length_lt hnext
      exact .item hnext (ih (by omega))

theorem emits_takes {buf rest : Text} {parts : List Text}
    (h : Emits (b.nextChunk false) buf parts rest) :
    Takes b.tables (Blank b.tables) buf parts rest := by
  induction h with
  | @stop buf _ hstop =>
    have htakes := b.nextChunk_takes buf
    rwa [hstop] at htakes
  | @item buf _ _ _ _ hitem _ ih =>
    have htakes := b.nextChunk_takes buf
    rw [hitem] at htakes
    exact htakes.trans ih

theorem emits_ne_nil {final : Bool} {buf rest : Text} {parts : List Text}
    (h : Emits (b.nextChunk final) buf parts rest) : ∀ part ∈ parts, part ≠ [] := by
  induction h with
  | stop _ => exact fun part hpart => nomatch hpart
  | item hitem _ ih => exact List.forall_mem_cons.mpr ⟨b.nextChunk_ne_nil hitem, ih⟩

/-- At the end there is one part, or a rest that cannot be spoken. -/
theorem emits_final {buf rest : Text} {parts : List Text}
    (h : Emits (b.nextChunk true) buf parts rest) :
    rest = [] ∧ (parts = [strip b.tables buf] ∨
      parts = [] ∧ hasSpeakableText b.tables (strip b.tables buf) = false) := by
  have hfirst := b.nextChunk_final buf
  cases h with
  | stop hstop =>
    rw [hstop] at hfirst
    obtain ⟨rfl, hnone | hdrop⟩ := hfirst
    · cases hnone
    · exact ⟨rfl, .inr ⟨rfl, hdrop.2⟩⟩
  | item hitem hrest =>
    rw [hitem] at hfirst
    obtain ⟨rfl, hsome | hdrop⟩ := hfirst
    · obtain rfl := Option.some.inj hsome
      -- the second request finds the buffer empty
      have hstop : b.nextChunk true [] = (none, []) := rfl
      obtain ⟨rfl, rfl⟩ := hrest.unique (.stop hstop)
      exact ⟨rfl, .inl rfl⟩
    · cases hdrop.1

/-! ### Replies -/

theorem add_takes (buf chunk : Text) :
    Takes b.tables (Blank b.tables) (buf ++ chunk) (b.buffer.add buf chunk).1
      (b.buffer.add buf chunk).2 := by
  unfold buffer
  dsimp only
  split
  · next hchunk =>
    rw [hchunk, List.append_nil]
    exact .refl buf
  · exact b.emits_takes (b.emits_emitReady false (Nat.lt_succ_self _))

theorem addAll_ne_nil (buf : Text) (chunks : List Text) :
    ∀ part ∈ (b.buffer.addAll buf chunks).1, part ≠ [] := by
  induction chunks generalizing buf with
  | nil => exact fun part hpart => nomatch hpart
  | cons chunk rest ih =>
    intro part hpart
    rcases List.mem_append.mp hpart with hpart | hpart
    · unfold buffer at hpart
      dsimp only at hpart
      split at hpart
      · cases hpart
      · exact b.emits_ne_nil (b.emits_emitReady false (Nat.lt_succ_self _)) part hpart
    · exact ih _ part hpart

end LowLatency

/-- **The parts of a reply are its text, white space apart.** Only a rest with nothing to speak
in it is left out at the end. No part is empty, the buffer is empty afterwards, and the loops of
`add` and `flush` end, since each part takes something out of the buffer. -/
theorem lowLatency_speaks_once (py : Python) (env : Sizes) (language : Option Text)
    (minChars targetChars maxChars : Option ℤ) (chunks : List Text) :
    let b := LowLatency.ofSettings py env language minChars targetChars maxChars
    (∃ dropped, solid py.tables (b.buffer.speak [] chunks).1.flatten ++ solid py.tables dropped =
        solid py.tables chunks.flatten ∧
      hasSpeakableText py.tables dropped = false ∧
      (dropped = [] ∨ (b.buffer.flush (b.buffer.addAll [] chunks).2).1 = [])) ∧
    (∀ part ∈ (b.buffer.speak [] chunks).1, part ≠ []) ∧
    (b.buffer.speak [] chunks).2 = [] ∧
    (∀ buf chunk, chunk ≠ [] →
      Emits (b.nextChunk false) (buf ++ chunk) (b.buffer.add buf chunk).1
        (b.buffer.add buf chunk).2) ∧
    (∀ buf, Emits (b.nextChunk true) buf (b.buffer.flush buf).1 (b.buffer.flush buf).2) ∧
    ∀ final buf part rest, b.nextChunk final buf = (some part, rest) →
      rest.length < buf.length := by
  intro b
  have hflush : ∀ buf, Emits (b.nextChunk true) buf (b.buffer.flush buf).1
      (b.buffer.flush buf).2 := fun buf => b.emits_emitReady true (Nat.lt_succ_self _)
  obtain ⟨hrest, hlast⟩ := b.emits_final (hflush (b.buffer.addAll [] chunks).2)
  refine ⟨?_, ?_, hrest, ?_, hflush, fun _ _ _ _ h => b.nextChunk_length_lt h⟩
  · obtain ⟨front, hfront, hspoken⟩ := TextBuffer.takes_addAll b.add_takes [] chunks
    rw [List.nil_append] at hfront
    rcases hlast with hlast | ⟨hlast, hdrop⟩
    · refine ⟨[], ?_, rfl, .inl rfl⟩
      have hall := hspoken.append (.single (b.buffer.addAll [] chunks).2)
      rw [← hfront, ← hlast] at hall
      rw [solid_nil, List.append_nil]
      exact hall.solid_eq
    · refine ⟨strip py.tables (b.buffer.addAll [] chunks).2, ?_, hdrop, .inr hlast⟩
      rw [TextBuffer.speak, hlast, List.append_nil, solid_strip, hfront, solid_append]
      exact congrArg (· ++ _) hspoken.solid_eq
  · intro part hpart
    rcases List.mem_append.mp hpart with hpart | hpart
    · exact b.addAll_ne_nil [] chunks part hpart
    · exact b.emits_ne_nil (hflush _) part hpart
  · intro buf chunk hchunk
    have hadd : b.buffer.add buf chunk =
        b.emitReady false ((buf ++ chunk).length + 1) (buf ++ chunk) := if_neg hchunk
    rw [hadd]
    exact b.emits_emitReady false (Nat.lt_succ_self _)

end Tts
end V2v
end OpenVoiceStream
