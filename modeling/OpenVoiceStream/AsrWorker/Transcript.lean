import OpenVoiceStream.AsrWorker.Json

/-!
# Transcripts

The decoder puts the language in front of a transcript, and the answers strip it: the name
of a known language, so that a word glued to it survives.  Between two hops of a session the
last tokens of the transcript are rolled back.

## Main definitions

* `stripLangTag`, `parseAsrText` — the transcript behind its tag.
* `confirmedPrefix` — the transcript without its last tokens.

## Main results

* `validUtf8_stripLangTag`, `validUtf8_parseAsrText` — a well-formed transcript is stripped
  to a well-formed one.
-/

namespace OpenVoiceStream
namespace AsrWorker

/-- An ASCII capital as a small letter. -/
def lower (b : UInt8) : UInt8 := if between 0x41 b 0x5A then b + 0x20 else b

/-- `asciiIEqualsAt`: the string begins with `lit`, in small letters or capitals. -/
def asciiIEquals : Bytes → Bytes → Bool
  | _, [] => true
  | [], _ :: _ => false
  | a :: s, b :: lit => decide (lower a = lower b) && asciiIEquals s lit

/-- `kLanguages`. -/
def languages : List String :=
  ["Chinese", "English", "Cantonese", "Japanese", "Korean", "French", "German", "Spanish",
    "Italian", "Portuguese", "Russian", "Arabic", "Hindi", "Bengali", "Urdu", "Indonesian",
    "Malay", "Vietnamese", "Thai", "Turkish", "Dutch", "Polish", "Ukrainian", "Swedish",
    "Norwegian", "Danish", "Finnish", "Greek", "Hebrew", "Persian", "Czech", "Slovak",
    "Hungarian", "Romanian", "Bulgarian", "Croatian", "Serbian", "Tamil", "Telugu",
    "Marathi", "Gujarati", "Kannada", "Malayalam", "Punjabi", "Nepali", "Sinhala",
    "Burmese", "Khmer", "Lao", "Mongolian", "Tibetan", "Uyghur"]

/-- One language of `knownAsrLanguagePrefixLen`. -/
def longerPrefix (s : Bytes) (best : ℕ) (language : String) : ℕ :=
  if best < (ascii language).length ∧ asciiIEquals s (ascii language) then
    (ascii language).length
  else best

/-- `knownAsrLanguagePrefixLen`. -/
def knownAsrLanguagePrefixLen (s : Bytes) : ℕ := languages.foldl (longerPrefix s) 0

/-- A blank, a tab or the end of a line. -/
def isBlank (b : UInt8) : Bool :=
  decide (b = 0x20) || decide (b = 0x09) || decide (b = 0x0D) || decide (b = 0x0A)

/-- `kTag`. -/
def langTag : Bytes := ascii "language "

/-- `kAsrTextTag`. -/
def asrTextTag : Bytes := ascii "<asr_text>"

/-- Without `lit` in front, if it is there. -/
def dropTag (s lit : Bytes) : Bytes := if asciiIEquals s lit then s.drop lit.length else s

/-- `stripLangTag`. -/
def stripLangTag (s : Bytes) : Bytes :=
  if !asciiIEquals s langTag then s
  else
    let rest := s.drop langTag.length
    if asciiIEquals rest asrTextTag then rest.drop asrTextTag.length
    else
      let langLen := knownAsrLanguagePrefixLen rest
      if langLen = 0 then s
      else dropTag ((rest.drop langLen).dropWhile isBlank) asrTextTag

/-- What is behind the first `tag`. -/
def behindTag (tag : Bytes) : Bytes → Option Bytes
  | [] => none
  | b :: s =>
    if tag.isPrefixOf (b :: s) then some ((b :: s).drop tag.length) else behindTag tag s

/-- `parseAsrText`. -/
def parseAsrText (raw : Bytes) : Bytes := (behindTag asrTextTag raw).getD (stripLangTag raw)

/-! ### Rolling back -/

/-- The tokenizer of the decoder. -/
structure Tokenizer where
  encode : Bytes → List ℕ
  decode : List ℕ → Bytes

/-- `kUtf8Replacement` is in the string. -/
def hasReplacement : Bytes → Bool
  | 0xEF :: 0xBF :: 0xBD :: _ => true
  | _ :: s => hasReplacement s
  | [] => false

/-- The loop of `computePrefix`, where so many tokens stay. -/
def rollBack (tok : Tokenizer) (tokens : List ℕ) (isFinish : Bool) : ℕ → Bytes
  | 0 => []
  | kept + 1 =>
    let confirmed := tok.decode (tokens.take (kept + 1))
    if !hasReplacement confirmed || (isFinish && decide (kept = 0)) then confirmed
    else rollBack tok tokens isFinish kept

/-! ### Well-formed transcripts -/

section Valid

variable {s t lit : Bytes}

theorem isAscii_of_lower {a b : UInt8} (hb : isAscii b = true) (h : lower a = lower b) :
    isAscii a = true := by
  have h' := congrArg UInt8.toNat h
  unfold lower at h'
  rw [isAscii, between_iff] at hb ⊢
  have ha := a.toNat_lt
  simp only [UInt8.reduceToNat] at *
  split at h' <;> split at h' <;> rename_i h1 h2 <;> rw [between_iff] at h1 h2 <;>
    simp only [UInt8.toNat_add, UInt8.reduceToNat] at * <;> omega

/-- What an ASCII literal matches is ASCII. -/
theorem ascii_of_asciiIEquals (h : asciiIEquals s lit = true) (hlit : lit.all isAscii = true) :
    (s.take lit.length).all isAscii = true := by
  induction s, lit using asciiIEquals.induct with
  | case1 s => simp
  | case2 b lit => cases h
  | case3 a s b lit ih =>
    rw [asciiIEquals, Bool.and_eq_true, decide_eq_true_eq] at h
    rw [List.all_cons, Bool.and_eq_true] at hlit
    rw [List.length_cons, List.take_succ_cons, List.all_cons, Bool.and_eq_true]
    exact ⟨isAscii_of_lower hlit.1 h.1, ih h.2 hlit.2⟩

theorem validUtf8_drop {n : ℕ} (hs : (s.take n).all isAscii = true) (h : validUtf8 s = true) :
    validUtf8 (s.drop n) = true :=
  validUtf8_drop_ascii hs (by rwa [List.take_append_drop])

theorem validUtf8_dropTag (hlit : lit.all isAscii = true) (h : validUtf8 s = true) :
    validUtf8 (dropTag s lit) = true := by
  unfold dropTag
  split
  · rename_i hequals
    exact validUtf8_drop (ascii_of_asciiIEquals hequals hlit) h
  · exact h

/-- The name of a known language is ASCII. -/
theorem ascii_knownAsrLanguagePrefixLen (s : Bytes) :
    (s.take (knownAsrLanguagePrefixLen s)).all isAscii = true := by
  have hnames : languages.all fun language => (ascii language).all isAscii := by decide
  have hfold : ∀ (names : List String) (best : ℕ), (names.all fun name => (ascii name).all isAscii) →
      (s.take best).all isAscii = true →
      (s.take (names.foldl (longerPrefix s) best)).all isAscii = true := by
    intro names
    induction names with
    | nil => exact fun best _ hbest => hbest
    | cons name names ih =>
      intro best hall hbest
      rw [List.all_cons, Bool.and_eq_true] at hall
      refine ih _ hall.2 ?_
      unfold longerPrefix
      split
      · rename_i hlonger
        exact ascii_of_asciiIEquals hlonger.2 hall.1
      · exact hbest
  exact hfold languages 0 hnames (by simp)

theorem isAscii_of_isBlank {b : UInt8} (h : isBlank b = true) : isAscii b = true := by
  simp only [isBlank, Bool.or_eq_true, decide_eq_true_eq] at h
  rcases h with ((rfl | rfl) | rfl) | rfl <;> decide

theorem validUtf8_dropWhile_isBlank (h : validUtf8 s = true) :
    validUtf8 (s.dropWhile isBlank) = true := by
  refine validUtf8_drop_ascii (s := s.takeWhile isBlank) ?_ (by rwa [List.takeWhile_append_dropWhile])
  have hblank := List.all_eq_true.mp (List.all_takeWhile (l := s) (p := isBlank))
  exact List.all_eq_true.mpr fun b hb => isAscii_of_isBlank (hblank b hb)

theorem asrTextTag_ascii : asrTextTag.all isAscii = true := by decide

/-- **The tag is stripped between two characters.** -/
theorem validUtf8_stripLangTag (h : validUtf8 s = true) : validUtf8 (stripLangTag s) = true := by
  unfold stripLangTag
  split
  · exact h
  rename_i hequals
  have hrest : validUtf8 (s.drop langTag.length) = true :=
    validUtf8_drop (ascii_of_asciiIEquals (by simpa using hequals) (by decide)) h
  dsimp only
  split
  · rename_i htag
    exact validUtf8_drop (ascii_of_asciiIEquals htag asrTextTag_ascii) hrest
  split
  · exact h
  · have hname := validUtf8_drop (ascii_knownAsrLanguagePrefixLen _) hrest
    exact validUtf8_dropTag asrTextTag_ascii (validUtf8_dropWhile_isBlank hname)

/-- A tag that is found stands somewhere in the string. -/
theorem behindTag_spec {tag rest : Bytes} (h : behindTag tag s = some rest) :
    ∃ front, s = front ++ (tag ++ rest) := by
  induction s with
  | nil => cases h
  | cons b s ih =>
    rw [behindTag] at h
    split at h
    · rename_i hprefix
      cases h
      exact ⟨[], (List.prefix_iff_eq_append.mp (List.isPrefixOf_iff_prefix.mp hprefix)).symm⟩
    · obtain ⟨front, rfl⟩ := ih h
      exact ⟨b :: front, rfl⟩

theorem validUtf8_parseAsrText (h : validUtf8 s = true) : validUtf8 (parseAsrText s) = true := by
  unfold parseAsrText
  cases hbehind : behindTag asrTextTag s with
  | none => exact validUtf8_stripLangTag h
  | some rest =>
    obtain ⟨front, rfl⟩ := behindTag_spec hbehind
    have htag : validUtf8 (asrTextTag ++ rest) = true := validUtf8_of_ascii_cons (by decide) h
    exact validUtf8_drop_ascii asrTextTag_ascii htag

end Valid

end AsrWorker
end OpenVoiceStream
