import OpenVoiceStream.V2v.Tts.LowLatencySpeech
import OpenVoiceStream.Wyoming.Tts

/-!
# The clause buffer and the buffer of the server

`ClauseBuffer` is a copy of `LowLatencyTTSBuffer`, and is to cut as that one does.  The copy knows
one more block of Chinese characters, and hands out what is left at the end even if there is
nothing in it to speak.  Where neither matters, each call yields the same.

## Main definitions

* `ClauseBuffer.ofSettings` — the buffer that `__post_init__` makes of its arguments and of the
  environment.
* `ClauseBuffer.buffer` — it is a text buffer.
* `calls` — what each call yields.
* `Alike` — the two take a text for Chinese alike.
* `EveryRound` — what holds of every text that is asked for a part.

## Main results

* `cut_eq` — a text that is taken alike is cut alike.
* `calls_add` — so each call of `add` yields the same, and leaves the same.
* `calls_eq_iff` — and `flush` yields the same if what is left is blank or can be spoken.
-/

namespace OpenVoiceStream.Wyoming

open V2v.Tts (CharTables strip lstrip cjkLanguages LowLatency TextBuffer hasSpeakableText)

/-- `__post_init__`: what is not given is read from the environment. -/
def ClauseBuffer.ofSettings (py : Python) (env : Sizes) (language : Option Text)
    (minChars targetChars maxChars : Option ℤ) : ClauseBuffer :=
  let lang := py.lower (strip py.tables (language.getD []))
  let (dMin, dTarget, dMax) := if lang ∈ cjkLanguages then env.cjk else env.latin
  let least := (max 2 (minChars.getD dMin)).toNat
  let target := max least (targetChars.getD dTarget).toNat
  { language := language.getD []
    minChars := least
    targetChars := target
    maxChars := max target (maxChars.getD dMax).toNat
    two_le_min := Int.toNat_le_toNat (Int.le_max_left 2 _)
    min_le_target := Nat.le_max_left _ _
    target_le_max := Nat.le_max_left _ _ }

/-- The clause buffer as a text buffer. -/
def ClauseBuffer.buffer (py : Python) (b : ClauseBuffer) : TextBuffer Text where
  add := b.add py
  flush := b.flush py

/-- What each call of `add` yields, and what `flush` yields behind them. -/
def calls (b : TextBuffer Text) (buf : Text) : List Text → List (List Text)
  | [] => [(b.flush buf).1]
  | chunk :: rest => (b.add buf chunk).1 :: calls b (b.add buf chunk).2 rest

/-- The two take a text for Chinese alike: where the adapter sees a Chinese character, the server
sees one as well, or the language says so. -/
def Alike (py : Python) (language : Option Text) (text : Text) : Prop :=
  containsCjk text = true →
    V2v.Tts.containsCjk text = true ∨ py.lower (language.getD []) ∈ cjkLanguages

/-- The texts that the loop of `_emit_ready` asks for a part, one after the other. -/
inductive Asked (b : LowLatency) : Text → Text → Prop
  | first (buf : Text) : Asked b buf (lstrip b.tables buf)
  | next {buf rest part text : Text} :
      b.nextChunk false buf = (some part, rest) → Asked b rest text → Asked b buf text

/-- Every text that is asked for a part in a call of `add` is such a text. -/
def EveryRound (b : LowLatency) (P : Text → Prop) : Text → List Text → Prop
  | _, [] => True
  | buf, chunk :: rest =>
    (chunk ≠ [] → ∀ text, Asked b (buf ++ chunk) text → P text) ∧
      EveryRound b P (b.buffer.add buf chunk).2 rest

theorem EveryRound.of_forall {b : LowLatency} {P : Text → Prop} (h : ∀ text, P text) (buf : Text)
    (chunks : List Text) : EveryRound b P buf chunks := by
  induction chunks generalizing buf with
  | nil => trivial
  | cons chunk rest ih => exact ⟨fun _ text _ => h text, ih _⟩

/-! ### One text -/

/-- The settings of the two buffers are the same. -/
structure Same (py : Python) (b : LowLatency) (c : ClauseBuffer) : Prop where
  tables : b.tables = py.tables
  lower : b.lower = py.lower
  language : b.language = c.language
  minChars : b.minChars = c.minChars
  targetChars : b.targetChars = c.targetChars
  maxChars : b.maxChars = c.maxChars

theorem settings_same (py : Python) (env : Sizes) (language : Option Text)
    (minChars targetChars maxChars : Option ℤ) :
    Same py (LowLatency.ofSettings py env language minChars targetChars maxChars)
      (ClauseBuffer.ofSettings py env language minChars targetChars maxChars) := by
  have hmax : ∀ n : ℤ, max 2 n.toNat = (max 2 n).toNat := by
    intro n
    omega
  exact
    { tables := rfl
      lower := rfl
      language := rfl
      minChars := hmax _
      targetChars := congrArg (max · _) (hmax _)
      maxChars := congrArg (fun least => max (max least _) _) (hmax _) }

section Same

variable {py : Python} {b : LowLatency} {c : ClauseBuffer}

theorem Same.isCjk_eq (h : Same py b c) {language : Option Text}
    (hlanguage : c.language = language.getD []) {text : Text} (halike : Alike py language text) :
    b.isCjk text = c.isCjk py text := by
  have hmore : V2v.Tts.containsCjk text = true → containsCjk text = true := by
    intro hcjk
    rw [V2v.Tts.containsCjk, List.any_eq_true] at hcjk
    rw [containsCjk, List.any_eq_true]
    obtain ⟨d, hd, hblock⟩ := hcjk
    refine ⟨d, hd, ?_⟩
    simp only [Bool.or_eq_true] at hblock ⊢
    tauto
  rw [Bool.eq_iff_iff, LowLatency.isCjk, ClauseBuffer.isCjk, h.lower, h.language,
    Bool.or_eq_true, Bool.or_eq_true, decide_eq_true_eq]
  constructor
  · exact Or.imp_left hmore
  · rintro (hcjk | hlang)
    · rw [hlanguage]
      exact halike hcjk
    · exact .inr hlang

/-- **A text that is taken alike is cut alike.** -/
theorem Same.cut_eq (h : Same py b c) {text : Text} (hcjk : b.isCjk text = c.isCjk py text) :
    b.cut text = c.cut py text := by
  have hlength : b.chooseLengthCut text = c.lengthCut py text := by
    rw [LowLatency.chooseLengthCut, hcjk, h.tables, h.minChars, h.targetChars, h.maxChars]
    rfl
  have hsoft : b.softBreaks text = c.softBreaks py text := by
    rw [LowLatency.softBreaks, hcjk]
    rfl
  have hthreshold : b.lengthCutThreshold text = c.threshold py text := by
    rw [LowLatency.lengthCutThreshold, hcjk, h.targetChars, h.maxChars]
    rfl
  rw [LowLatency.cut, hlength, hsoft, hthreshold, h.tables, h.minChars, h.targetChars]
  rfl

/-- What is asked for a part yields the same. -/
theorem Same.next_eq (h : Same py b c) {buf : Text}
    (hcjk : b.isCjk (lstrip b.tables buf) = c.isCjk py (lstrip b.tables buf)) :
    b.nextChunk false buf = c.nextPart py false buf := by
  have hcut := h.cut_eq hcjk
  unfold LowLatency.nextChunk ClauseBuffer.nextPart
  rw [h.tables] at hcut ⊢
  dsimp only
  split
  · rfl
  · rw [if_neg Bool.false_ne_true, if_neg Bool.false_ne_true, hcut]
    cases c.cut py (lstrip py.tables buf) with
    | none => rfl
    | some stop =>
      show b.take _ _ = ClauseBuffer.take py _ _
      rw [LowLatency.take, ClauseBuffer.take, h.tables]

/-! ### The calls -/

variable {language : Option Text}

theorem Same.emit_eq (h : Same py b c) (hlanguage : c.language = language.getD []) (n : ℕ)
    {buf : Text} (halike : ∀ text, Asked b buf text → Alike py language text) :
    b.emitReady false n buf = c.emit py false n buf := by
  induction n generalizing buf with
  | zero => rfl
  | succ n ih =>
    have hnext := h.next_eq (h.isCjk_eq hlanguage (halike _ (.first buf)))
    rw [LowLatency.emitReady, ClauseBuffer.emit, ← hnext]
    cases hpart : b.nextChunk false buf with
    | mk part rest =>
      cases part with
      | none => rfl
      | some part =>
        dsimp only
        rw [ih fun text hasked => halike text (.next hpart hasked)]

/-- Where every text is taken alike, `add` yields the same, and leaves the same. -/
theorem Same.add_eq (h : Same py b c) (hlanguage : c.language = language.getD [])
    {buf chunk : Text}
    (halike : chunk ≠ [] → ∀ text, Asked b (buf ++ chunk) text → Alike py language text) :
    b.buffer.add buf chunk = (c.buffer py).add buf chunk := by
  show (if chunk = [] then ([], buf) else _) = ClauseBuffer.add py c buf chunk
  unfold ClauseBuffer.add
  split
  · rfl
  · next hchunk => exact h.emit_eq hlanguage _ (halike hchunk)

/-! ### The end of a reply -/

theorem strip_lstrip (u : CharTables) (text : Text) : strip u (lstrip u text) = strip u text := by
  have htwice : lstrip u (lstrip u text) = lstrip u text := List.dropWhile_idempotent _ _
  rw [strip, strip, htwice]

theorem strip_of_lstrip_eq_nil {u : CharTables} {text : Text} (h : lstrip u text = []) :
    strip u text = [] := by
  rw [← strip_lstrip, h]
  rfl

/-- What the server yields at the end. -/
theorem flush_server (b : LowLatency) (buf : Text) :
    (b.buffer.flush buf).1 =
      if strip b.tables buf ≠ [] ∧ hasSpeakableText b.tables (strip b.tables buf) then
        [strip b.tables buf]
      else [] := by
  have hnext : b.nextChunk true buf =
      (if strip b.tables buf ≠ [] ∧ hasSpeakableText b.tables (strip b.tables buf) then
        some (strip b.tables buf) else none, []) := by
    unfold LowLatency.nextChunk
    dsimp only
    split
    · next hblank => rw [if_neg fun h => h.1 (strip_of_lstrip_eq_nil hblank)]
    · rw [if_pos rfl, strip_lstrip]
  have hnil : ∀ n, (b.emitReady true n []).1 = [] := by
    intro n
    cases n <;> rfl
  show (b.emitReady true (buf.length + 1) buf).1 = _
  rw [LowLatency.emitReady, hnext]
  split_ifs
  · exact congrArg (_ :: ·) (hnil _)
  · rfl

/-- What the adapter yields at the end. -/
theorem flush_adapter (py : Python) (c : ClauseBuffer) (buf : Text) :
    ((c.buffer py).flush buf).1 =
      if strip py.tables buf = [] then [] else [strip py.tables buf] := by
  have hnext : c.nextPart py true buf =
      (if strip py.tables buf = [] then none else some (strip py.tables buf), []) := by
    unfold ClauseBuffer.nextPart
    dsimp only
    split
    · next hblank => rw [if_pos (strip_of_lstrip_eq_nil hblank)]
    · rw [if_pos rfl, strip_lstrip]
  have hnil : ∀ n, (c.emit py true n []).1 = [] := by
    intro n
    cases n <;> rfl
  show (c.emit py true (buf.length + 1) buf).1 = _
  rw [ClauseBuffer.emit, hnext]
  split_ifs
  · rfl
  · exact congrArg (_ :: ·) (hnil _)

/-- `flush` yields the same, if what is left is blank or can be spoken. -/
theorem Same.flush_eq_iff (h : Same py b c) (buf : Text) :
    ((c.buffer py).flush buf).1 = (b.buffer.flush buf).1 ↔
      strip py.tables buf = [] ∨ hasSpeakableText py.tables (strip py.tables buf) = true := by
  rw [flush_server, flush_adapter, h.tables]
  by_cases hblank : strip py.tables buf = []
  · rw [if_pos hblank, if_neg fun hspeak => hspeak.1 hblank]
    exact ⟨fun _ => .inl hblank, fun _ => rfl⟩
  · rw [if_neg hblank]
    by_cases hspeak : hasSpeakableText py.tables (strip py.tables buf) = true
    · rw [if_pos ⟨hblank, hspeak⟩]
      exact ⟨fun _ => .inr hspeak, fun _ => rfl⟩
    · rw [if_neg fun h => hspeak h.2]
      constructor
      · intro heq
        cases heq
      · rintro (hor | hor)
        · exact absurd hor hblank
        · exact absurd hor hspeak

theorem Same.calls_eq_iff (h : Same py b c) (hlanguage : c.language = language.getD [])
    {buf : Text} {chunks : List Text} (hrounds : EveryRound b (Alike py language) buf chunks) :
    calls (c.buffer py) buf chunks = calls b.buffer buf chunks ↔
      strip py.tables (b.buffer.addAll buf chunks).2 = [] ∨
        hasSpeakableText py.tables (strip py.tables (b.buffer.addAll buf chunks).2) = true := by
  induction chunks generalizing buf with
  | nil =>
    rw [calls, calls, List.singleton_inj]
    exact h.flush_eq_iff buf
  | cons chunk rest ih =>
    obtain ⟨hfirst, hrest⟩ := hrounds
    rw [calls, calls, ← h.add_eq hlanguage hfirst, List.cons_inj_right]
    exact ih hrest

end Same

/-- **The clause buffer yields what the buffer of the server yields**, call by call: if every text
that is asked for a part is taken for Chinese by both or by neither, this is so exactly if what is
left at the end is blank, or has something in it to speak. -/
theorem clauses_eq_iff (py : Python) (env : Sizes) (language : Option Text)
    (minChars targetChars maxChars : Option ℤ) (chunks : List Text)
    (hrounds : EveryRound (LowLatency.ofSettings py env language minChars targetChars maxChars)
      (Alike py language) [] chunks) :
    let b := LowLatency.ofSettings py env language minChars targetChars maxChars
    let c := ClauseBuffer.ofSettings py env language minChars targetChars maxChars
    calls (c.buffer py) [] chunks = calls b.buffer [] chunks ↔
      strip py.tables (b.buffer.addAll [] chunks).2 = [] ∨
        hasSpeakableText py.tables (strip py.tables (b.buffer.addAll [] chunks).2) = true := by
  intro b c
  exact (settings_same py env language minChars targetChars maxChars).calls_eq_iff rfl hrounds

/-- A Chinese reply that ends without a full stop. -/
theorem clauses_eq_reply :
    calls ((ClauseBuffer.ofSettings Tts.asciiPython defaultSizes (some "zh".toList) none none
        none).buffer Tts.asciiPython) [] ["你好。".toList, "㐀？".toList, "ok".toList] =
      calls (LowLatency.ofSettings Tts.asciiPython defaultSizes (some "zh".toList) none none
        none).buffer [] ["你好。".toList, "㐀？".toList, "ok".toList] :=
  (clauses_eq_iff Tts.asciiPython defaultSizes (some "zh".toList) none none none
    ["你好。".toList, "㐀？".toList, "ok".toList]
    (EveryRound.of_forall (fun _ _ => .inr (by decide)) _ _)).mpr (by decide +kernel)

/-- A question mark that comes alone is handed out by the adapter only; and behind characters of
extension A only the adapter cuts at a Chinese comma. -/
theorem clauses_differ :
    calls ((ClauseBuffer.ofSettings Tts.asciiPython defaultSizes none none none
        none).buffer Tts.asciiPython) [] ["?".toList] ≠
      calls (LowLatency.ofSettings Tts.asciiPython defaultSizes none none none
        none).buffer [] ["?".toList] ∧
    calls ((ClauseBuffer.ofSettings Tts.asciiPython defaultSizes none none none
        none).buffer Tts.asciiPython) [] [List.replicate 24 '㐀' ++ "，a".toList] ≠
      calls (LowLatency.ofSettings Tts.asciiPython defaultSizes none none none
        none).buffer [] [List.replicate 24 '㐀' ++ "，a".toList] := by
  decide +kernel

end OpenVoiceStream.Wyoming
