import Mathlib.Data.List.Basic
import Mathlib.Data.List.TakeDrop
import OpenVoiceStream.Base.Template

/-!
# Text buffers for speech

The text of a reply comes in chunks, and is handed to the synthesis in parts.  A buffer keeps
what is not yet a part.

`LowLatencyTTSBuffer` cuts early: at the end of a sentence, at the last comma of a text that is
long enough, or where it has become too long.

## Main definitions

* `TextBuffer` — what a buffer does.
* `LowLatency`, `LowLatency.nextChunk` — the buffer of the server, and where it cuts.
* `LowLatency.buffer` — it is one.

## Main results

* `nextChunk_length_lt` — a part takes at least one character out of the buffer.
* `emitReady_eq` — the loop ends by itself.
-/

namespace OpenVoiceStream
namespace V2v
namespace Tts

/-- A buffer with states `β`: what `add` and `flush` yield, and leave. -/
structure TextBuffer (β : Type) where
  add : β → Text → List Text × β
  flush : β → List Text × β

/-! ### Texts -/

/-- What the tables of Unicode say about a character: `str.isspace` and `str.isalnum`. -/
structure CharTables where
  isSpace : Char → Bool
  isAlnum : Char → Bool

/-- The tables, as far as ASCII goes. -/
def asciiTables : CharTables := { isSpace := Char.isWhitespace, isAlnum := Char.isAlphanum }

section Texts

variable (u : CharTables)

/-- `str.lstrip`. -/
def lstrip (text : Text) : Text := text.dropWhile u.isSpace

/-- `str.strip`. -/
def strip (text : Text) : Text := ((lstrip u text).reverse.dropWhile u.isSpace).reverse

/-- `_has_speakable_text`. -/
def hasSpeakableText (text : Text) : Bool := text.any u.isAlnum

end Texts

/-- `_contains_cjk`. -/
def containsCjk (text : Text) : Bool :=
  text.any fun c =>
    (0x4E00 ≤ c.toNat && c.toNat ≤ 0x9FFF) || (0x3040 ≤ c.toNat && c.toNat ≤ 0x30FF) ||
      (0xAC00 ≤ c.toNat && c.toNat ≤ 0xD7AF)

/-- `_first_break_index`. -/
def firstBreakIndex (text chars : Text) : Option ℕ := text.findIdx? (· ∈ chars)

/-- `_last_break_index`. -/
def lastBreakIndex (text chars : Text) (limit : ℕ) : Option ℕ :=
  ((text.take limit).reverse.findIdx? (· ∈ chars)).map fun i => (text.take limit).length - 1 - i

/-! ### The buffer of the server -/

/-- `DEFAULT_MIN_SENTENCE_CHARS`. -/
def defaultMinSentenceChars : ℕ := 2

/-- The languages without blanks between words. -/
def cjkLanguages : List Text :=
  ["zh".toList, "chinese".toList, "ja".toList, "japanese".toList, "ko".toList, "korean".toList]

/-- The settings of a `LowLatencyTTSBuffer`, as `__post_init__` leaves them; `lower` is
`str.lower`. -/
structure LowLatency where
  tables : CharTables
  lower : Text → Text := List.map Char.toLower
  language : Text
  minChars : ℕ
  targetChars : ℕ
  maxChars : ℕ
  two_le_min : 2 ≤ minChars
  min_le_target : minChars ≤ targetChars
  target_le_max : targetChars ≤ maxChars

/-- `__post_init__`, for the numbers that are given or stand in the environment. -/
def LowLatency.make (u : CharTables) (language : Text) (minChars targetChars maxChars : ℕ) :
    LowLatency :=
  { tables := u
    language := language
    minChars := max 2 minChars
    targetChars := max (max 2 minChars) targetChars
    maxChars := max (max (max 2 minChars) targetChars) maxChars
    two_le_min := Nat.le_max_left 2 minChars
    min_le_target := Nat.le_max_left _ _
    target_le_max := Nat.le_max_left _ _ }

namespace LowLatency

variable (b : LowLatency)

/-- `is_cjk`. -/
def isCjk (text : Text) : Bool :=
  containsCjk text || decide (b.lower b.language ∈ cjkLanguages)

/-- `_take`: a part, and what is left. -/
def take (text : Text) (stop : ℕ) : Option Text × Text :=
  let out := strip b.tables (text.take stop)
  (if out = [] then none else some out, lstrip b.tables (text.drop stop))

/-- `_choose_length_cut`. -/
def chooseLengthCut (text : Text) : ℕ :=
  let limit := min text.length b.maxChars
  if b.isCjk text then
    match lastBreakIndex text "，,、：:".toList limit with
    | some i => if b.minChars - 1 ≤ i then i + 1 else limit
    | none => limit
  else
    match (List.range limit).reverse.find? fun i =>
      b.minChars - 1 ≤ i && (text[i]?.any b.tables.isSpace) with
    | some i => i + 1
    | none => min text.length b.targetChars

/-- `soft_breaks`. -/
def softBreaks (text : Text) : Text :=
  if b.isCjk text then "，,、：:".toList else ",;:".toList

/-- `length_cut_threshold`. -/
def lengthCutThreshold (text : Text) : ℕ :=
  if b.isCjk text then b.maxChars else b.targetChars

/-- Where the buffer is cut, if it is not the end of the reply: `text` has no blanks in front,
and is not empty. -/
def cut (text : Text) : Option ℕ :=
  let size := (strip b.tables text).length
  let long (stop least : ℕ) : Bool := least ≤ (strip b.tables (text.take stop)).length
  match (firstBreakIndex text "。！？!?；;\n".toList).filter
      fun i => long (i + 1) defaultMinSentenceChars with
  | some i => some (i + 1)
  | none =>
    let soft := lastBreakIndex text (b.softBreaks text) text.length
    match soft.filter fun i => long (i + 1) b.minChars with
    | some i => some (i + 1)
    | none =>
      if soft.isSome && b.targetChars ≤ size then some text.length
      else if size < b.lengthCutThreshold text then none
      else if b.chooseLengthCut text = 0 then none
      else some (b.chooseLengthCut text)

/-- `_next_chunk`: a part, if there is one, and the buffer after it. -/
def nextChunk (final : Bool) (buf : Text) : Option Text × Text :=
  let text := lstrip b.tables buf
  if text = [] then (none, [])
  else if final then
    let out := strip b.tables text
    (if out ≠ [] ∧ hasSpeakableText b.tables out then some out else none, [])
  else
    match b.cut text with
    | some stop => b.take text stop
    | none => (none, text)

/-- `_emit_ready`, for so many rounds at most. -/
def emitReady (final : Bool) : ℕ → Text → List Text × Text
  | 0, buf => ([], buf)
  | n + 1, buf =>
    match b.nextChunk final buf with
    | (none, buf) => ([], buf)
    | (some part, buf) => (part :: (emitReady final n buf).1, (emitReady final n buf).2)

/-- `add` and `flush`. -/
def buffer : TextBuffer Text where
  add buf chunk :=
    if chunk = [] then ([], buf)
    else b.emitReady false ((buf ++ chunk).length + 1) (buf ++ chunk)
  flush buf := b.emitReady true (buf.length + 1) buf

/-! ### Termination -/

theorem lstrip_length_le (u : CharTables) (text : Text) : (lstrip u text).length ≤ text.length :=
  (List.dropWhile_sublist _).length_le

/-- The buffer is cut behind its first character. -/
theorem cut_pos {text : Text} (htext : text ≠ []) {stop : ℕ} (h : b.cut text = some stop) :
    0 < stop := by
  unfold cut at h
  dsimp only at h
  split at h
  · obtain rfl := Option.some.inj h
    omega
  · split at h
    · obtain rfl := Option.some.inj h
      omega
    · split at h
      · obtain rfl := Option.some.inj h
        exact List.length_pos_of_ne_nil htext
      · split at h
        · cases h
        · split at h
          · cases h
          · next hne =>
            obtain rfl := Option.some.inj h
            omega

/-- **A part takes at least one character out of the buffer.** -/
theorem nextChunk_length_lt {final : Bool} {buf buf' : Text} {part : Text}
    (h : b.nextChunk final buf = (some part, buf')) : buf'.length < buf.length := by
  have hle := lstrip_length_le b.tables buf
  unfold nextChunk at h
  dsimp only at h
  split at h
  · cases h
  · next htext =>
    have hpos : 0 < (lstrip b.tables buf).length := List.length_pos_of_ne_nil htext
    split at h
    · obtain ⟨_, rfl⟩ := Prod.mk.inj h
      simp only [List.length_nil]
      omega
    · split at h
      · next stop hcut =>
        have hstop := b.cut_pos htext hcut
        obtain ⟨_, rfl⟩ := Prod.mk.inj h
        have hrest := lstrip_length_le b.tables ((lstrip b.tables buf).drop stop)
        rw [List.length_drop] at hrest
        omega
      · cases h

/-- The loop ends by itself: more rounds than there are characters make no difference. -/
theorem emitReady_eq {final : Bool} {n m : ℕ} {buf : Text} (hn : buf.length < n)
    (hm : buf.length < m) : b.emitReady final n buf = b.emitReady final m buf := by
  induction n generalizing m buf with
  | zero => omega
  | succ n ih =>
    cases m with
    | zero => omega
    | succ m =>
      unfold emitReady
      split
      · rfl
      · next part buf' hchunk =>
        have hlt := b.nextChunk_length_lt hchunk
        have hrest : b.emitReady final n buf' = b.emitReady final m buf' :=
          ih (by omega) (by omega)
        rw [hrest]

end LowLatency

end Tts
end V2v
end OpenVoiceStream
