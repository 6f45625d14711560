import OpenVoiceStream.AsrSegmenter.Decode
import OpenVoiceStream.Wyoming.Clause

/-!
# The text of a clip that is decoded in segments

The texts of the segments are joined, with a space where one is needed. Slices of fixed length
overlap, and what is decoded twice is dropped: the longest beginning of a text that the text so
far ends with. Regions that the VAD hears do not overlap, but their texts are treated alike.

## Main definitions

* `stripOverlapRepeat`, `joinStep`, `joinSegmentTexts` — the texts, one after the other.
* `transcribeSegmented` — the result of `maybe_transcribe_segmented`.
* `Adds`, `Whole` — what a segment may do to the text so far, and what it does at a pause.
* `Joined` — each segment adds to the text, and is kept whole at a pause.
* `Repeats` — a text begins as the text so far ends.

## Main results

* `joinStep_adds` — a segment only loses a repetition.
* `joined_iff_unrepeated` — the segments are kept whole at every pause exactly if none of them
  begins there as the text so far ends.
-/

namespace OpenVoiceStream
namespace AsrSegmenter

open V2v.Tts (CharTables strip lstrip)
open Wyoming (solid strip_eq_nil_iff lstrip_eq_nil_iff)

/-! ### Joining -/

/-- `_CJK_RANGES`. -/
def cjkRanges : List (ℕ × ℕ) :=
  [(0x3000, 0x303F), (0x3040, 0x30FF), (0x3400, 0x4DBF), (0x4E00, 0x9FFF), (0xF900, 0xFAFF),
    (0xFF00, 0xFFEF), (0x20000, 0x2FA1F), (0xAC00, 0xD7AF)]

/-- `is_cjk`. -/
def isCjk (c : Char) : Bool := cjkRanges.any fun (lo, hi) => lo ≤ c.toNat && c.toNat ≤ hi

/-- `_MAX_OVERLAP_DEDUP_CHARS`. -/
def maxOverlapDedupChars : ℕ := 60

section Join

variable (u : CharTables)

/-- The first `n` characters of `cur` are dropped: `prev` ends with them, and they are CJK, or
whole words on both sides. -/
def repeatsAt (prev cur : Text) (n : ℕ) : Bool :=
  let head := cur.take n
  head.isSuffixOf prev &&
    (head.all isCjk ||
      ((prev.take (prev.length - n)).getLast?.all u.isSpace && (cur.drop n).head?.all u.isSpace))

/-- `strip_overlap_repeat`. -/
def stripOverlapRepeat (prev cur : Text) : Text :=
  if prev = [] ∨ cur = [] then cur
  else
    let limit := min (min prev.length cur.length) maxOverlapDedupChars
    match ((List.range limit).map (· + 1)).reverse.find? (repeatsAt u prev cur) with
    | some n => lstrip u (cur.drop n)
    | none => cur

/-- One round of `join_segment_texts`. -/
def joinStep (out raw : Text) : Text :=
  let piece := strip u raw
  if piece = [] then out
  else if out = [] then piece
  else
    match out.getLast?, stripOverlapRepeat u out piece with
    | some left, right :: rest =>
      if u.isSpace left || u.isSpace right then out ++ right :: rest
      else if isCjk left && isCjk right then out ++ right :: rest
      else out ++ ' ' :: right :: rest
    | _, _ => out

/-- `join_segment_texts`. -/
def joinSegmentTexts (parts : List Text) : Text := parts.foldl (joinStep u) []

end Join

/-! ### Results -/

/-- What `transcribe` returns, as far as it is read. -/
structure Transcription where
  text : Option Text
  language : Option Text

/-- `DecodedSegment`. -/
structure DecodedSegment where
  index : ℕ
  start : ℚ
  stop : ℚ
  text : Text
  language : Option Text

/-- `SegmentedTranscription`. -/
structure SegmentedTranscription where
  text : Text
  language : Option Text
  segments : List DecodedSegment
  totalDuration : ℚ
  strategy : Strategy

/-- `resolved_lang`: the language that is named most often, and of several the first. -/
def resolvedLang (languages : List Text) : Option Text :=
  languages.foldl (fun best lang =>
    match best with
    | none => some lang
    | some l => if languages.count l < languages.count lang then some lang else some l) none

/-- The segments, decoded one after the other. -/
def decodeSegments (w : Wav) (transcribe : Wav → Transcription) (bounds : List Bound) :
    List DecodedSegment :=
  bounds.zipIdx.map fun ((start, stop), index) =>
    let result := transcribe (w.sliceWav start stop)
    { index := index
      start := start
      stop := stop
      text := result.text.getD []
      language := result.language }

/-- `maybe_transcribe_segmented`, with its result. -/
def transcribeSegmented (u : CharTables) (cfg : Settings) (w : Wav)
    (transcribe : Wav → Transcription) : Option SegmentedTranscription :=
  if cfg.autoSegment = false ∨ cfg.maxSegmentSeconds ≤ 0 ∨ w.duration ≤ cfg.maxSegmentSeconds then
    none
  else
    (planSegments cfg w).bind fun (bounds, strategy) =>
      if bounds.length ≤ 1 then none
      else
        let decoded := decodeSegments w transcribe bounds
        some
          { text := joinSegmentTexts u (decoded.map (·.text))
            language := resolvedLang ((decoded.filterMap (·.language)).filter (· ≠ []))
            segments := decoded
            totalDuration := w.duration
            strategy := strategy }

/-! ### What a segment does to the text -/

section Adds

variable (u : CharTables)

/-- A piece is added to the text so far, behind a space at most. What is deleted in front of it
is something that the text so far ends with, and the white space behind that. -/
def Adds (out piece next : Text) : Prop :=
  ∃ head blank kept gap, piece = head ++ blank ++ kept ∧ head <:+ out ∧
    (∀ c ∈ blank, u.isSpace c) ∧ (head = [] → blank = []) ∧ (gap = [] ∨ gap = [' ']) ∧
    next = out ++ gap ++ kept

/-- A piece is added in full. -/
def Whole (out piece next : Text) : Prop := next = out ++ piece ∨ next = out ++ ' ' :: piece

/-- The text before a segment. -/
def textBefore (segments : List DecodedSegment) (i : ℕ) : Text :=
  joinSegmentTexts u ((segments.take i).map (·.text))

/-- Two segments, one after the other, that do not overlap in time. -/
def Pause (segments : List DecodedSegment) (i : ℕ) (next : DecodedSegment) : Prop :=
  ∃ prev, segments[i]? = some prev ∧ segments[i + 1]? = some next ∧ prev.stop ≤ next.start

/-- Every segment only loses what it repeats, and loses nothing after a pause. -/
def Joined (segments : List DecodedSegment) : Prop :=
  (∀ i segment, segments[i]? = some segment →
    Adds u (textBefore u segments i) (strip u segment.text) (textBefore u segments (i + 1))) ∧
  ∀ i segment, Pause segments i segment →
    Whole (textBefore u segments (i + 1)) (strip u segment.text) (textBefore u segments (i + 2))

/-- A piece begins as the text so far ends. -/
def Repeats (out piece : Text) : Prop :=
  ∃ n, 0 < n ∧ n ≤ out.length ∧ n ≤ piece.length ∧ n ≤ maxOverlapDedupChars ∧
    repeatsAt u out piece n = true

/-- No segment after a pause begins as the text before it ends. -/
def Unrepeated (segments : List DecodedSegment) : Prop :=
  ∀ i segment, Pause segments i segment →
    ¬Repeats u (textBefore u segments (i + 1)) (strip u segment.text)

end Adds

/-! ### One step -/

section Step

variable {u : CharTables}

/-- A stripped text does not begin with white space. -/
theorem not_isSpace_of_strip {text rest : Text} {c : Char} (h : strip u text = c :: rest) :
    ¬u.isSpace c := by
  have hfront : strip u text <+: lstrip u text :=
    List.reverse_suffix.mp (by
      rw [strip, List.reverse_reverse]
      exact List.dropWhile_suffix _)
  rw [h] at hfront
  obtain ⟨more, hmore⟩ := hfront
  have hhead := List.head?_dropWhile_not u.isSpace text
  rw [show text.dropWhile u.isSpace = lstrip u text from rfl, ← hmore] at hhead
  simpa using hhead

theorem Adds.of_whole {out piece next : Text} (h : Whole out piece next) :
    Adds u out piece next := by
  rcases h with rfl | rfl
  · exact ⟨[], [], piece, [], rfl, List.nil_suffix, by simp, fun _ => rfl, .inl rfl, by simp⟩
  · exact ⟨[], [], piece, [' '], rfl, List.nil_suffix, by simp, fun _ => rfl, .inr rfl, by simp⟩

/-- Either nothing is dropped and nothing is repeated, or a repetition is dropped. -/
theorem stripOverlapRepeat_spec (prev cur : Text) :
    (stripOverlapRepeat u prev cur = cur ∧ ¬Repeats u prev cur) ∨
      ∃ n, 0 < n ∧ n ≤ cur.length ∧ repeatsAt u prev cur n = true ∧ Repeats u prev cur ∧
        stripOverlapRepeat u prev cur = lstrip u (cur.drop n) := by
  unfold stripOverlapRepeat
  split
  · next hempty =>
    refine .inl ⟨rfl, ?_⟩
    rintro ⟨n, hpos, hprev, hcur, -⟩
    rcases hempty with rfl | rfl
    · exact absurd hprev (Nat.not_le.mpr hpos)
    · exact absurd hcur (Nat.not_le.mpr hpos)
  · dsimp only
    split
    · next n hfind =>
      have hmem := List.mem_of_find?_eq_some hfind
      have hrepeats := List.find?_some hfind
      rw [List.mem_reverse, List.mem_map] at hmem
      obtain ⟨k, hk, rfl⟩ := hmem
      rw [List.mem_range] at hk
      exact .inr ⟨k + 1, by omega, by omega, hrepeats,
        ⟨k + 1, by omega, by omega, by omega, by omega, hrepeats⟩, rfl⟩
    · next hnone =>
      refine .inl ⟨rfl, ?_⟩
      rintro ⟨n, hpos, hprev, hcur, hcap, hrepeats⟩
      rw [List.find?_eq_none] at hnone
      refine hnone n ?_ hrepeats
      rw [List.mem_reverse, List.mem_map]
      exact ⟨n - 1, List.mem_range.mpr (by omega), by omega⟩

/-- What is left of a piece is put behind the text so far. -/
theorem joinStep_eq {out raw : Text} (hout : out ≠ []) (hraw : strip u raw ≠ []) :
    (stripOverlapRepeat u out (strip u raw) = [] ∧ joinStep u out raw = out) ∨
      ∃ gap, (gap = [] ∨ gap = [' ']) ∧
        joinStep u out raw = out ++ gap ++ stripOverlapRepeat u out (strip u raw) := by
  have hleft : out.getLast? = some (out.getLast hout) := List.getLast?_eq_some_getLast hout
  unfold joinStep
  rw [if_neg hraw, if_neg hout, hleft]
  cases hkept : stripOverlapRepeat u out (strip u raw) with
  | nil => exact .inl ⟨rfl, rfl⟩
  | cons right rest =>
    refine .inr ?_
    dsimp only
    split
    · exact ⟨[], .inl rfl, by rw [List.append_nil]⟩
    · split
      · exact ⟨[], .inl rfl, by rw [List.append_nil]⟩
      · exact ⟨[' '], .inr rfl, by rw [List.append_assoc, List.singleton_append]⟩

/-- **A segment only loses a repetition**, and is put behind the text with a space at most. -/
theorem joinStep_adds (out raw : Text) : Adds u out (strip u raw) (joinStep u out raw) := by
  by_cases hraw : strip u raw = []
  · exact .of_whole (.inl (by simp [joinStep, hraw]))
  by_cases hout : out = []
  · exact .of_whole (.inl (by simp [joinStep, hraw, hout]))
  -- what is deleted, and what is kept
  have hparts : ∃ head blank, strip u raw =
      head ++ blank ++ stripOverlapRepeat u out (strip u raw) ∧ head <:+ out ∧
      (∀ c ∈ blank, u.isSpace c) ∧ (head = [] → blank = []) := by
    rcases stripOverlapRepeat_spec (u := u) out (strip u raw) with
      ⟨hkept, -⟩ | ⟨n, hpos, hle, hrepeats, -, hkept⟩
    · exact ⟨[], [], by rw [hkept]; rfl, List.nil_suffix, by simp, fun _ => rfl⟩
    · refine ⟨(strip u raw).take n, ((strip u raw).drop n).takeWhile u.isSpace, ?_, ?_, ?_, ?_⟩
      · rw [hkept, List.append_assoc, lstrip, List.takeWhile_append_dropWhile,
          List.take_append_drop]
      · unfold repeatsAt at hrepeats
        exact List.isSuffixOf_iff_suffix.mp (Bool.and_eq_true_iff.mp hrepeats).1
      · exact fun c hc => List.all_eq_true.mp List.all_takeWhile c hc
      · intro hnil
        have hlength := congrArg List.length hnil
        rw [List.length_take, List.length_nil] at hlength
        omega
  obtain ⟨head, blank, hpiece, hsuffix, hblank, hnil⟩ := hparts
  rcases joinStep_eq hout hraw with ⟨hkept, hstep⟩ | ⟨gap, hgap, hstep⟩
  · exact ⟨head, blank, [], [], by rw [hkept] at hpiece; exact hpiece, hsuffix, hblank, hnil,
      .inl rfl, by rw [hstep, List.append_nil, List.append_nil]⟩
  · exact ⟨head, blank, _, gap, hpiece, hsuffix, hblank, hnil, hgap, hstep⟩

/-- **A segment is kept whole exactly if it does not begin as the text so far ends.** -/
theorem joinStep_whole_iff (hblank : u.isSpace ' ' = true) (out raw : Text) :
    Whole out (strip u raw) (joinStep u out raw) ↔ ¬Repeats u out (strip u raw) := by
  by_cases hraw : strip u raw = []
  · rw [hraw]
    refine iff_of_true (.inl (by simp [joinStep, hraw])) ?_
    rintro ⟨n, hpos, -, hle, -⟩
    exact absurd hle (Nat.not_le.mpr hpos)
  by_cases hout : out = []
  · rw [hout]
    refine iff_of_true (.inl (by simp [joinStep, hraw])) ?_
    rintro ⟨n, hpos, hle, -⟩
    exact absurd hle (Nat.not_le.mpr hpos)
  rcases stripOverlapRepeat_spec (u := u) out (strip u raw) with
    ⟨hkept, hnot⟩ | ⟨n, hpos, hle, -, hrepeats, hkept⟩
  · refine iff_of_true ?_ hnot
    rcases joinStep_eq hout hraw with ⟨hnil, -⟩ | ⟨gap, hgap, hstep⟩
    · rw [hkept] at hnil
      exact absurd hnil hraw
    · rw [hkept] at hstep
      rcases hgap with rfl | rfl
      · exact .inl (by rw [hstep, List.append_nil])
      · exact .inr (by rw [hstep, List.append_assoc, List.singleton_append])
  · refine iff_of_false ?_ (not_not.mpr hrepeats)
    -- what is left is shorter than the piece
    have hshort : (stripOverlapRepeat u out (strip u raw)).length < (strip u raw).length := by
      have hdrop := (List.dropWhile_sublist u.isSpace (l := (strip u raw).drop n)).length_le
      rw [List.length_drop] at hdrop
      rw [hkept, lstrip]
      omega
    obtain ⟨c, rest, hpiece⟩ := List.exists_cons_of_ne_nil hraw
    rcases joinStep_eq hout hraw with ⟨-, hstep⟩ | ⟨gap, hgap, hstep⟩
    · rintro (hwhole | hwhole)
      · rw [hstep] at hwhole
        exact hraw (List.append_right_eq_self.mp hwhole.symm)
      · rw [hstep] at hwhole
        exact absurd (List.append_right_eq_self.mp hwhole.symm) (List.cons_ne_nil _ _)
    · rw [List.append_assoc] at hstep
      rintro (hwhole | hwhole)
      · rw [hstep, List.append_cancel_left_eq] at hwhole
        rcases hgap with rfl | rfl
        · rw [List.nil_append] at hwhole
          rw [hwhole] at hshort
          exact absurd hshort (Nat.lt_irrefl _)
        · rw [hpiece, List.singleton_append] at hwhole
          rw [← (List.cons.inj hwhole).1] at hpiece
          exact not_isSpace_of_strip hpiece hblank
      · rw [hstep, List.append_cancel_left_eq] at hwhole
        have hlength := congrArg List.length hwhole
        rw [List.length_append, List.length_cons] at hlength
        have hgaps : gap.length ≤ 1 := by
          rcases hgap with rfl | rfl
          · exact Nat.zero_le _
          · exact Nat.le_refl _
        omega

end Step

/-! ### A whole clip -/

theorem textBefore_succ (u : CharTables) {segments : List DecodedSegment} {i : ℕ}
    {segment : DecodedSegment} (h : segments[i]? = some segment) :
    textBefore u segments (i + 1) = joinStep u (textBefore u segments i) segment.text := by
  unfold textBefore joinSegmentTexts
  rw [List.take_add_one, h, Option.toList_some, List.map_append, List.foldl_append]
  rfl

theorem textBefore_length (u : CharTables) (segments : List DecodedSegment) :
    textBefore u segments segments.length = joinSegmentTexts u (segments.map (·.text)) := by
  rw [textBefore, List.take_length]

/-- The segments of a result are the planned ones, and its text is theirs. -/
theorem transcribeSegmented_some {u : CharTables} {cfg : Settings} {w : Wav}
    {transcribe : Wav → Transcription} {r : SegmentedTranscription}
    (h : transcribeSegmented u cfg w transcribe = some r) :
    (∃ bounds strategy, planSegments cfg w = some (bounds, strategy) ∧ 2 ≤ bounds.length ∧
      r.segments = decodeSegments w transcribe bounds) ∧
      r.text = textBefore u r.segments r.segments.length := by
  unfold transcribeSegmented at h
  split at h
  · cases h
  · obtain ⟨⟨bounds, strategy⟩, hplan, hresult⟩ := Option.bind_eq_some_iff.mp h
    dsimp only at hresult
    split at hresult
    · cases hresult
    · next hmany =>
      obtain rfl := Option.some.inj hresult
      exact ⟨⟨bounds, strategy, hplan, by omega, rfl⟩, (textBefore_length u _).symm⟩

/-- **When the segments of a clip are kept whole at its pauses.** The text of the clip is what
is there behind the last segment. Each segment adds to the text, and only loses what it repeats.
It loses nothing at any pause exactly if at no pause a segment begins as the text before it
ends. -/
theorem joined_iff_unrepeated (u : CharTables) (hblank : u.isSpace ' ' = true) :
    (∀ segments, Joined u segments ↔ Unrepeated u segments) ∧
      (∀ segments i segment, segments[i]? = some segment →
        Adds u (textBefore u segments i) (strip u segment.text) (textBefore u segments (i + 1))) ∧
      ∀ cfg w transcribe r, transcribeSegmented u cfg w transcribe = some r →
        r.text = textBefore u r.segments r.segments.length := by
  have hadds : ∀ segments i segment, segments[i]? = some segment →
      Adds u (textBefore u segments i) (strip u segment.text)
        (textBefore u segments (i + 1)) := by
    intro segments i segment hsegment
    rw [textBefore_succ u hsegment]
    exact joinStep_adds _ _
  refine ⟨fun segments => ?_, hadds, fun _ _ _ _ h => (transcribeSegmented_some h).2⟩
  have hwhole : ∀ i segment, Pause segments i segment →
      (Whole (textBefore u segments (i + 1)) (strip u segment.text)
          (textBefore u segments (i + 2)) ↔
        ¬Repeats u (textBefore u segments (i + 1)) (strip u segment.text)) := by
    rintro i segment ⟨_, _, hsegment, _⟩
    rw [textBefore_succ u hsegment]
    exact joinStep_whole_iff hblank _ _
  constructor
  · intro h i segment hpause
    exact (hwhole i segment hpause).mp (h.2 i segment hpause)
  · intro h
    exact ⟨hadds segments, fun i segment hpause =>
      (hwhole i segment hpause).mpr (h i segment hpause)⟩

/-- Two regions with two seconds of silence between them, and what is heard in them. -/
def twoRegions (first second : String) : List DecodedSegment :=
  [{ index := 0, start := 0, stop := 8, text := first.toList, language := none },
    { index := 1, start := 10, stop := 18, text := second.toList, language := none }]

theorem twoRegions_pause (first second : String) :
    Pause (twoRegions first second) 0
      { index := 1, start := 10, stop := 18, text := second.toList, language := none } :=
  ⟨_, rfl, rfl, by norm_num⟩

theorem joined_helloWorld :
    Joined V2v.Tts.asciiTables (twoRegions "hello" "world") := by
  refine ((joined_iff_unrepeated V2v.Tts.asciiTables (by decide)).1 _).mpr ?_
  rintro i segment ⟨prev, hprev, hsegment, -⟩
  match i with
  | 0 =>
    obtain rfl := Option.some.inj hsegment
    rintro ⟨n, hpos, hle, -, -, hrepeats⟩
    have hnone : ∀ n ∈ List.range 6, 0 < n →
        repeatsAt V2v.Tts.asciiTables "hello".toList "world".toList n = false := by decide
    have hfalse := hnone n (List.mem_range.mpr (Nat.lt_succ_of_le hle)) hpos
    exact absurd (hfalse.symm.trans hrepeats) Bool.false_ne_true
  | i + 1 => cases hsegment

/-- **A repetition across a pause is lost**: the two regions are planned as two segments, and
what is heard, `go` and then `go on`, comes out as `go on`. -/
theorem goOn_lost :
    groupRegions [(0, 8), (10, 18)] (21 / 2) (2 / 5) = [(0, 8), (10, 18)] ∧
      joinSegmentTexts V2v.Tts.asciiTables ["go".toList, "go on".toList] = "go on".toList ∧
      ¬Joined V2v.Tts.asciiTables (twoRegions "go" "go on") := by
  refine ⟨by norm_num [groupRegions, packRegions], by decide, fun h => ?_⟩
  have hwhole := h.2 0 _ (twoRegions_pause "go" "go on")
  have hlost : ¬(textBefore V2v.Tts.asciiTables (twoRegions "go" "go on") 2 =
        textBefore V2v.Tts.asciiTables (twoRegions "go" "go on") 1 ++ "go on".toList ∨
      textBefore V2v.Tts.asciiTables (twoRegions "go" "go on") 2 =
        textBefore V2v.Tts.asciiTables (twoRegions "go" "go on") 1 ++ ' ' :: "go on".toList) := by
    decide
  exact hlost hwhole

end AsrSegmenter
end OpenVoiceStream
