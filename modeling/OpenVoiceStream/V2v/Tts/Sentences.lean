import OpenVoiceStream.Base.Emits
import OpenVoiceStream.V2v.Tts.Spoken

/-!
# The sentence buffer

`SentenceBuffer` waits for whole sentences. It has two splitters: `pysbd`, where that is there
for the language, and a regular expression. With the expression a sentence that is too short is
kept for the next one; with `pysbd` it is swallowed.

Of `pysbd` only this is used: the pieces of a text, put together, are the text.

## Main definitions

* `Segmenter` — what `pysbd` does.
* `SentenceBuffer`, `SentenceBuffer.buffer` — the buffer, for both splitters.
* `SentenceBuffer.Swallowed` — the pieces that are left out on purpose.
* `SentenceBuffer.Settled` — what the buffer may hold after an `add`.

## Main results

* `sentences_spoken` — everything else is spoken, and the buffer is settled after each `add`.
-/

namespace OpenVoiceStream
namespace V2v
namespace Tts

open Wyoming (Python solid solid_nil solid_append solid_strip strip_eq_nil_iff)

/-- `pysbd.Segmenter(language=code, clean=False)`. -/
structure Segmenter where
  segment : Text → List Text
  flatten_segment : ∀ text, (segment text).flatten = text

/-! ### Languages -/

/-- `_PYSBD_LANGS`. -/
def pysbdLangs : List Text :=
  ["am", "ar", "bg", "da", "de", "el", "en", "es", "fa", "fr", "hi", "hy", "it", "ja", "kk", "mr",
    "my", "nl", "pl", "ru", "ur", "zh"].map String.toList

/-- `_LANG_ALIASES`. -/
def langAliases : List (Text × Text) :=
  [("english", "en"), ("chinese", "zh"), ("japanese", "ja"), ("korean", "ko"), ("spanish", "es"),
    ("french", "fr"), ("german", "de"), ("italian", "it"), ("portuguese", "pt"), ("russian", "ru"),
    ("arabic", "ar"), ("hindi", "hi"), ("dutch", "nl"), ("polish", "pl"), ("greek", "el"),
    ("burmese", "my"), ("marathi", "mr")].map fun (name, code) => (name.toList, code.toList)

/-- `_normalize_lang`. -/
def normalizeLang (py : Python) (lang : Option Text) : Option Text :=
  if lang.getD [] = [] then none
  else
    let lc := py.lower (strip py.tables (lang.getD []))
    let code := (langAliases.lookup lc).getD lc
    if code ∈ pysbdLangs then some code else none

/-! ### The boundaries of the expression -/

/-- `[。！？；\n]`. -/
def fullStops : Text := "。！？；\n".toList

/-- `[!?.]`. -/
def asciiStops : Text := "!?.".toList

/-- The length of a match of `_SENTENCE_END_RE` at the beginning of a text: a run of full stops,
or one ASCII stop before white space or the end. -/
def matchLength (u : CharTables) : Text → Option ℕ
  | [] => none
  | c :: rest =>
    if c ∈ fullStops then some (1 + (rest.takeWhile (· ∈ fullStops)).length)
    else if c ∈ asciiStops ∧ rest.head?.all u.isSpace then some 1
    else none

/-- Where the first match in a text ends. -/
def searchEnd (u : CharTables) : Text → Option ℕ
  | [] => none
  | c :: rest => (matchLength u (c :: rest)).or ((searchEnd u rest).map (· + 1))

/-- `_SENTENCE_END_RE.search(text, pos)`, as `m.end()`. -/
def search (u : CharTables) (text : Text) (pos : ℕ) : Option ℕ :=
  (searchEnd u (text.drop pos)).map (pos + ·)

/-! ### The buffer -/

/-- `DEFAULT_MAX_BUFFER_CHARS`. -/
def defaultMaxBufferChars : ℤ := 200

/-- A `SentenceBuffer`, as `__post_init__` leaves it. -/
structure SentenceBuffer where
  tables : CharTables
  minChars : ℤ
  maxBuffer : ℤ
  seg : Option Segmenter

namespace SentenceBuffer

/-- `__post_init__`. `pysbd` is the package, if it can be imported; its constructor may raise. -/
def make (py : Python) (pysbd : Option (Text → Option Segmenter)) (language : Option Text)
    (minChars maxBuffer : ℤ) : SentenceBuffer :=
  { tables := py.tables
    minChars := minChars
    maxBuffer := maxBuffer
    seg := pysbd.bind fun segmenter => (normalizeLang py language).bind segmenter }

variable (b : SentenceBuffer)

/-- `_emit_pysbd`. -/
def emitPysbd (seg : Segmenter) (buf : Text) : List Text × Text :=
  let sentences := seg.segment buf
  if 1 < sentences.length then
    ((sentences.dropLast.map (strip b.tables)).filter fun s => b.minChars ≤ s.length,
      sentences.getLastD [])
  else if b.maxBuffer ≤ buf.length then
    (if strip b.tables buf = [] then [] else [strip b.tables buf], [])
  else ([], buf)

/-- `_extract_next_sentence_regex` from `pos` on, for so many matches at most: a sentence, if
there is one, and the buffer after it. -/
def extractFrom (buf : Text) : ℕ → ℕ → Option Text × Text
  | 0, _ => (none, buf)
  | n + 1, pos =>
    match search b.tables buf pos with
    | none =>
      if b.maxBuffer ≤ buf.length then
        (if strip b.tables buf = [] then none else some (strip b.tables buf), [])
      else (none, buf)
    | some stop =>
      if b.minChars ≤ (strip b.tables (buf.take stop)).length then
        (some (strip b.tables (buf.take stop)), buf.drop stop)
      else extractFrom buf n stop

/-- `_extract_next_sentence_regex`. -/
def extractNextSentenceRegex (buf : Text) : Option Text × Text :=
  b.extractFrom buf (buf.length + 1) 0

/-- `add` and `flush`. -/
def buffer : TextBuffer Text where
  add buf chunk :=
    if chunk = [] then ([], buf)
    else
      match b.seg with
      | some seg => b.emitPysbd seg (buf ++ chunk)
      | none => emitWithin b.extractNextSentenceRegex ((buf ++ chunk).length + 1) (buf ++ chunk)
  flush buf :=
    let leftover := strip b.tables buf
    (if leftover ≠ [] ∧ hasSpeakableText b.tables leftover then [leftover] else [], [])

/-- What is left out: white space, and with `pysbd` a sentence that is too short. -/
def Swallowed (piece : Text) : Prop :=
  Blank b.tables piece ∨ b.seg.isSome ∧ ((strip b.tables piece).length : ℤ) < b.minChars

/-- What the buffer may hold after an `add`: less than the limit, or a text without a boundary.
With `pysbd` that is the last piece of what it was given. -/
def Settled (buf : Text) : Prop :=
  (buf.length : ℤ) < b.maxBuffer ∨
    match b.seg with
    | none => search b.tables buf 0 = none
    | some seg =>
      buf = [] ∨ ∃ text, 1 < (seg.segment text).length ∧ (seg.segment text).getLast? = some buf

/-! ### Boundaries -/

theorem matchLength_le {u : CharTables} {text : Text} {n : ℕ} (h : matchLength u text = some n) :
    0 < n ∧ n ≤ text.length := by
  cases text with
  | nil => cases h
  | cons c rest =>
    rw [matchLength] at h
    split at h
    · obtain rfl := Option.some.inj h
      have hrun := (List.takeWhile_sublist (l := rest) (· ∈ fullStops)).length_le
      rw [List.length_cons]
      omega
    · split at h
      · obtain rfl := Option.some.inj h
        exact ⟨Nat.one_pos, by rw [List.length_cons]; omega⟩
      · cases h

theorem searchEnd_le {u : CharTables} {text : Text} {n : ℕ} (h : searchEnd u text = some n) :
    0 < n ∧ n ≤ text.length := by
  induction text generalizing n with
  | nil => cases h
  | cons c rest ih =>
    unfold searchEnd at h
    rcases Option.or_eq_some_iff.mp h with h | ⟨-, h⟩
    · exact matchLength_le h
    · obtain ⟨m, hm, rfl⟩ := Option.map_eq_some_iff.mp h
      have hle := ih hm
      rw [List.length_cons]
      omega

/-- A match is not empty, and lies in the text. -/
theorem search_le {u : CharTables} {text : Text} {pos stop : ℕ} (hpos : pos ≤ text.length)
    (h : search u text pos = some stop) : pos < stop ∧ stop ≤ text.length := by
  obtain ⟨m, hm, rfl⟩ := Option.map_eq_some_iff.mp h
  have hle := searchEnd_le hm
  rw [List.length_drop] at hle
  omega

/-! ### The expression -/

theorem extractFrom_takes (buf : Text) (n pos : ℕ) :
    Takes b.tables b.Swallowed buf (b.extractFrom buf n pos).1.toList
      (b.extractFrom buf n pos).2 := by
  induction n generalizing pos with
  | zero => exact .refl buf
  | succ n ih =>
    unfold extractFrom
    split
    · split
      · refine ⟨buf, (List.append_nil _).symm, ?_⟩
        split
        · next hblank => exact .skipped (.inl ((strip_eq_nil_iff _).mp hblank))
        · exact .single buf
      · exact .refl buf
    · next stop _ =>
      split
      · exact ⟨buf.take stop, (List.take_append_drop stop buf).symm, .single _⟩
      · exact ih stop

theorem extractFrom_length_lt {buf rest sentence : Text} {n pos : ℕ} (hpos : pos ≤ buf.length)
    (h : b.extractFrom buf n pos = (some sentence, rest)) : rest.length < buf.length := by
  induction n generalizing pos with
  | zero => cases h
  | succ n ih =>
    unfold extractFrom at h
    split at h
    · split at h
      · obtain ⟨hout, rfl⟩ := Prod.mk.inj h
        have hne : buf ≠ [] := by
          rintro rfl
          cases hout
        exact List.length_pos_of_ne_nil hne
      · cases h
    · next stop hsearch =>
      have hstop := search_le hpos hsearch
      split at h
      · obtain ⟨-, rfl⟩ := Prod.mk.inj h
        rw [List.length_drop]
        omega
      · exact ih hstop.2 h

/-- Where nothing more is handed out, the rest is short, or nothing is left. -/
theorem extractFrom_none {buf rest : Text} {n pos : ℕ} (hn : buf.length < pos + n)
    (hpos : pos ≤ buf.length) (h : b.extractFrom buf n pos = (none, rest)) :
    (rest.length : ℤ) < b.maxBuffer ∨ rest = [] := by
  induction n generalizing pos with
  | zero => omega
  | succ n ih =>
    unfold extractFrom at h
    split at h
    · split at h
      · exact .inr (Prod.mk.inj h).2.symm
      · obtain ⟨-, rfl⟩ := Prod.mk.inj h
        exact .inl (by omega)
    · next stop hsearch =>
      have hstop := search_le hpos hsearch
      split at h
      · cases h
      · exact ih (by omega) hstop.2 h

theorem emits_extract (buf : Text) :
    Emits b.extractNextSentenceRegex buf
      (emitWithin b.extractNextSentenceRegex (buf.length + 1) buf).1
      (emitWithin b.extractNextSentenceRegex (buf.length + 1) buf).2 :=
  emits_emitWithin (fun h => b.extractFrom_length_lt (Nat.zero_le _) h) (Nat.lt_succ_self _)

theorem emits_extract_takes {buf rest : Text} {sentences : List Text}
    (h : Emits b.extractNextSentenceRegex buf sentences rest) :
    Takes b.tables b.Swallowed buf sentences rest := by
  induction h with
  | @stop buf _ hstop =>
    have htakes := b.extractFrom_takes buf (buf.length + 1) 0
    rw [extractNextSentenceRegex] at hstop
    rwa [hstop] at htakes
  | @item buf _ _ _ _ hitem _ ih =>
    have htakes := b.extractFrom_takes buf (buf.length + 1) 0
    rw [extractNextSentenceRegex] at hitem
    rw [hitem] at htakes
    exact htakes.trans ih

/-! ### `pysbd` -/

/-- The pieces are handed out one after the other, but for those that are too short. -/
theorem spoken_pieces {seg : Segmenter} (hseg : b.seg = some seg) (pieces : List Text) :
    Spoken b.tables b.Swallowed pieces.flatten
      ((pieces.map (strip b.tables)).filter fun s => b.minChars ≤ s.length) := by
  induction pieces with
  | nil => exact .nil
  | cons piece rest ih =>
    rw [List.flatten_cons, List.map_cons, List.filter_cons]
    split
    · exact .part piece ih
    · next hshort =>
      rw [decide_eq_true_eq, Int.not_le] at hshort
      exact .skip (.inr ⟨by rw [hseg]; rfl, hshort⟩) ih

theorem emitPysbd_takes {seg : Segmenter} (hseg : b.seg = some seg) (buf : Text) :
    Takes b.tables b.Swallowed buf (b.emitPysbd seg buf).1 (b.emitPysbd seg buf).2 := by
  unfold emitPysbd
  dsimp only
  split
  · next hmany =>
    refine ⟨(seg.segment buf).dropLast.flatten, ?_, b.spoken_pieces hseg _⟩
    have hne : seg.segment buf ≠ [] := List.ne_nil_of_length_pos (by omega)
    have hlast : (seg.segment buf).getLastD [] = (seg.segment buf).getLast hne := by
      rw [List.getLastD_eq_getLast?, List.getLast?_eq_some_getLast hne, Option.getD_some]
    calc buf = (seg.segment buf).flatten := (seg.flatten_segment buf).symm
      _ = ((seg.segment buf).dropLast ++ [(seg.segment buf).getLast hne]).flatten := by
        rw [List.dropLast_append_getLast]
      _ = (seg.segment buf).dropLast.flatten ++ (seg.segment buf).getLastD [] := by
        rw [List.flatten_append, hlast, List.flatten_singleton]
  · split
    · refine ⟨buf, (List.append_nil _).symm, ?_⟩
      split
      · next hblank => exact .skipped (.inl ((strip_eq_nil_iff _).mp hblank))
      · exact .single buf
    · exact .refl buf

/-! ### Both -/

theorem add_takes (buf chunk : Text) :
    Takes b.tables b.Swallowed (buf ++ chunk) (b.buffer.add buf chunk).1
      (b.buffer.add buf chunk).2 := by
  unfold buffer
  dsimp only
  split
  · next hchunk =>
    rw [hchunk, List.append_nil]
    exact .refl buf
  · split
    · next seg hseg => exact b.emitPysbd_takes hseg _
    · exact b.emits_extract_takes (b.emits_extract _)

theorem settled_nil : b.Settled [] := by
  refine .inr ?_
  split
  · rfl
  · exact .inl rfl

theorem add_settled {buf : Text} (hbuf : b.Settled buf) (chunk : Text) :
    b.Settled (b.buffer.add buf chunk).2 := by
  unfold buffer
  dsimp only
  split
  · exact hbuf
  · split
    · next seg hseg =>
      unfold emitPysbd
      dsimp only
      split
      · next hmany =>
        have hne : seg.segment (buf ++ chunk) ≠ [] := List.ne_nil_of_length_pos (by omega)
        refine .inr ?_
        rw [hseg]
        refine .inr ⟨buf ++ chunk, hmany, ?_⟩
        rw [List.getLastD_eq_getLast?, List.getLast?_eq_some_getLast hne, Option.getD_some]
      · split
        · exact b.settled_nil
        · next hshort => exact .inl (by simpa using hshort)
    · obtain ⟨last, hlast⟩ := (b.emits_extract (buf ++ chunk)).stopped
      rcases b.extractFrom_none (by omega) (Nat.zero_le _) hlast with hshort | hnil
      · exact .inl hshort
      · rw [hnil]
        exact b.settled_nil

theorem flush_spoken (buf : Text) :
    (b.buffer.flush buf).1 = [strip b.tables buf] ∨
      (b.buffer.flush buf).1 = [] ∧ hasSpeakableText b.tables (strip b.tables buf) = false := by
  unfold buffer
  dsimp only
  split
  · exact .inl rfl
  · next hdrop =>
    refine .inr ⟨rfl, ?_⟩
    by_cases hnil : strip b.tables buf = []
    · rw [hnil]
      rfl
    · exact Bool.eq_false_iff.mpr fun htrue => hdrop ⟨hnil, htrue⟩

end SentenceBuffer

/-- The lines of a text, each with its end. -/
def linesOf : Text → List Text
  | [] => []
  | c :: rest =>
    if c = '\n' then [c] :: linesOf rest
    else
      match linesOf rest with
      | [] => [[c]]
      | line :: lines => (c :: line) :: lines

/-- A segmenter that knows no boundaries but the ends of lines. -/
def lineSegmenter : Segmenter where
  segment := linesOf
  flatten_segment text := by
    induction text with
    | nil => rfl
    | cons c rest ih =>
      rw [linesOf]
      split
      · rw [List.flatten_cons, ih, List.singleton_append]
      · split
        · next hnil =>
          rw [hnil] at ih
          rw [← ih]
          rfl
        · next line lines hlines =>
          rw [hlines] at ih
          rw [← ih]
          rfl

/-- A segmenter that takes one letter at a time off the front. -/
def headSegmenter : Segmenter where
  segment text := [text.take 1, text.drop 1]
  flatten_segment text := by
    rw [List.flatten_cons, List.flatten_singleton, List.take_append_drop]

/-- What is solid in a text, and may not be left out, is in the parts. -/
theorem Spoken.mem_flatten {u : CharTables} {Skip : Text → Prop} {text : Text} {parts : List Text}
    {c : Char} (h : Spoken u Skip text parts) (hc : c ∈ text) (hsolid : ¬u.isSpace c)
    (hskip : ∀ piece, Skip piece → c ∉ piece) : c ∈ parts.flatten := by
  induction h with
  | nil => cases hc
  | @part piece _ _ _ ih =>
    rw [List.flatten_cons, List.mem_append]
    rcases List.mem_append.mp hc with hc | hc
    · have hmem : c ∈ solid u piece := List.mem_filter.mpr ⟨hc, by simp [hsolid]⟩
      rw [← solid_strip] at hmem
      exact .inl (List.mem_filter.mp hmem).1
    · exact .inr (ih hc)
  | skip hpiece _ ih =>
    rcases List.mem_append.mp hc with hc | hc
    · exact (hskip _ hpiece hc).elim
    · exact ih hc

/-- English, with the defaults, where `pysbd` is this segmenter. -/
def englishBuffer (seg : Segmenter) (maxBuffer : ℤ) : SentenceBuffer :=
  .make { tables := asciiTables, lower := fun text => text.map Char.toLower, int := fun _ => none }
    (some fun _ => some seg) (some "English".toList) 2 maxBuffer

end Tts
end V2v
end OpenVoiceStream
