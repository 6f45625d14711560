import OpenVoiceStream.AsrWorker.Lanes

/-!
# The audio of a session

Three fields of a session describe its audio: the path that is decoded, the path of the mel
file that the worker has made, and the samples.  A chunk writes what it carries to them and
then converts the samples, whether they are its own or older ones.  It removes the old mel
file first, and a conversion that is refused leaves the fields as they are.

A session is decoded from the audio of the last line that carried some and was not rejected,
as long as no chunk has the worker convert older samples over a path, or gives up what the
session has for samples that are refused.  A chunk that could not be decoded has not been
rejected: its audio stays.

## Main definitions

* `Audio`, `carried` — what a line carries.
* `Reply.rejected` — samples were refused.
* `hear` — the audio of the session after a line.
* `Careful` — what a chunk must not do.
* `Hears` — what is decoded in a step.

## Main results

* `hears_handleEnd`, `hears_handleChunk` — one step.
* `settled_onJson` — what one step leaves.
* `decodes_last_audio` — every run.
-/

namespace OpenVoiceStream
namespace AsrWorker

/-- The audio that a line carries. -/
inductive Audio
  /-- A mel file of the caller's. -/
  | path (p : Bytes)
  | samples (pcm : Bytes)

/-- The path that a line carries. -/
def carriedPath (parsed : Json) : Option Bytes :=
  (parsed.stringAt "mel_path").or (parsed.stringAt "audio")

/-- What a line carries: its samples, if there are any, or else its path. -/
def carried (parsed : Json) : Option Audio :=
  match parsed.stringAt "pcm_b64" with
  | some (b :: pcm) => some (.samples (b :: pcm))
  | _ => (carriedPath parsed).map .path

/-- The samples that the mel file at a path was made from. -/
def contentAt (disk : List MelFile) (path : Bytes) : Option Bytes :=
  (disk.find? fun f => f.path == path).map (·.pcm)

/-- The decoder was called with this audio. -/
def Audio.Is (audio : Audio) (path : Bytes) (content : Option Bytes) : Prop :=
  match audio with
  | .path p => path = p
  | .samples pcm => content = some pcm

/-- Samples were refused. -/
def Reply.rejected (reply : Reply) : Bool :=
  reply.lines.any fun line =>
    decide (line.stringAt "error" = some (ascii "pcm_input_unsupported")) ||
      decide (line.stringAt "error" = some (ascii "pcm_to_mel_failed"))

/-- The audio of the session after a step: what the last line carried that was not rejected. -/
def hear (cfg : Cfg) (sid : Bytes) (heard : Option Audio) (w : Worker) : Act → Option Audio
  | .sweep _ => heard
  | .line env parsed =>
    if w.sessions.get sid = none then none
    else if parsed.valueString "event" [] = some (ascii "chunk") ∧
        (onJson cfg w env parsed).rejected = false then (carried parsed).or heard
    else heard

/-- Samples are refused in a step. -/
def Refused (cfg : Cfg) (env : Env) : Prop :=
  cfg.melExtractor = false ∨ ∃ opened what, env.conversion = .failed opened what

/-- The session is at a mel file of the worker's. -/
def Session.Own (st : Session) : Prop := st.melPath = st.melPathOwned ∧ st.melPath ≠ []

/-- The mel file the session is at was made from the samples it has. -/
def Session.Made (st : Session) (disk : List MelFile) : Prop :=
  st.melPath = st.melPathOwned ∧ contentAt disk st.melPath = some st.pcmB64

/-- A chunk keeps the audio that the session has. -/
structure Keeps (cfg : Cfg) (disk : List MelFile) (env : Env) (st : Session) (parsed : Json) :
    Prop where
  /-- Where samples are converted again, the chunk carries nothing, and the mel file is theirs. -/
  again : parsed.stringAt "pcm_b64" = none → st.pcmB64 ≠ [] →
    carriedPath parsed = none ∧ (Refused cfg env ∨ st.Made disk)
  /-- Where samples are refused, the session has a path of the caller's, and keeps it. -/
  refused : (st.describe parsed).pcmB64 ≠ [] → Refused cfg env →
    carriedPath parsed = none ∧ ¬ st.Own

/-- Every chunk of the session, but for the last, keeps its audio. -/
def Careful (cfg : Cfg) (sid : Bytes) (w : Worker) : Act → Prop
  | .sweep _ => True
  | .line env parsed =>
    ∀ st, w.sessions.get sid = some st → parsed.valueString "event" [] = some (ascii "chunk") →
      parsed.valueBool "last" false = some false → Keeps cfg w.disk env st parsed

/-- A line of the session. -/
def OfSession (sid : Bytes) : Act → Prop
  | .sweep _ => False
  | .line _ parsed => parsed.valueString "id" [] = some sid

/-- A line is a partial or a final. -/
def Json.isTranscript (line : Json) : Bool :=
  decide (line.stringAt "event" = some (ascii "partial")) ||
    decide (line.stringAt "event" = some (ascii "final"))

/-- Whatever is decoded for the session in a step is this audio, and a partial or a final is
only written where something is decoded. -/
def Hears (sid : Bytes) (audio : Option Audio) (w : Worker) (reply : Reply) : Prop :=
  ∃ events, reply.worker.history = events ++ w.history ∧
    (∀ path content, .decoded sid path content ∈ events → ∃ a ∈ audio, a.Is path content) ∧
    ∀ line ∈ reply.lines, line.isTranscript = true →
      ∃ path content, .decoded sid path content ∈ events

/-- The session is at this audio. -/
def Holds (disk : List MelFile) (st : Session) : Option Audio → Prop
  | none => st.melPath = []
  | some (.path p) => st.melPath = p
  | some (.samples pcm) => st.melPath ≠ [] ∧ contentAt disk st.melPath = some pcm

variable {cfg : Cfg} {w w' : Worker} {env : Env} {sid : Bytes} {st kept made : Session}
  {disk disk' : List MelFile} {parsed : Json} {audio heard : Option Audio}

/-! ### What a line carries -/

theorem describe_melPath (st : Session) (parsed : Json) :
    (st.describe parsed).melPath = (carriedPath parsed).getD st.melPath := by
  unfold carriedPath Session.describe
  cases parsed.stringAt "mel_path" <;> rfl

theorem describe_pcmB64 (st : Session) (parsed : Json) :
    (st.describe parsed).pcmB64 = (parsed.stringAt "pcm_b64").getD st.pcmB64 := rfl

/-- A line that carries samples. -/
theorem carried_samples {pcm : Bytes} (hpcm : parsed.stringAt "pcm_b64" = some pcm)
    (hne : pcm ≠ []) : carried parsed = some (.samples pcm) := by
  unfold carried
  rw [hpcm]
  cases pcm with
  | nil => exact absurd rfl hne
  | cons b pcm => rfl

/-- A line that carries no samples, or empty ones. -/
theorem carried_path (parsed : Json) (hpcm : ∀ pcm ∈ parsed.stringAt "pcm_b64", pcm = []) :
    carried parsed = (carriedPath parsed).map .path := by
  unfold carried
  split
  · rename_i b pcm hsome
    exact absurd (hpcm _ hsome) (List.cons_ne_nil b pcm)
  · rfl

/-- Without samples, the fields hold what the line carries. -/
theorem Holds.describe (env : Env) (h : carriedPath parsed = none → Holds disk st heard) :
    Holds disk { st.describe parsed with lastActivity := env.now }
      (((carriedPath parsed).map .path).or heard) := by
  have hpath := describe_melPath st parsed
  cases hcarried : carriedPath parsed with
  | none =>
    rw [hcarried] at hpath
    have hsame : (st.describe parsed).melPath = st.melPath := hpath
    have hheld := h hcarried
    cases heard with
    | none => exact hsame.trans hheld
    | some a =>
      cases a with
      | path p => exact hsame.trans hheld
      | samples pcm =>
        refine ⟨fun hnil => hheld.1 (hsame.symm.trans hnil), ?_⟩
        show contentAt disk (st.describe parsed).melPath = some pcm
        rw [hsame]
        exact hheld.2
  | some p =>
    rw [hcarried] at hpath
    exact hpath

/-! ### What is decoded -/

theorem Hears.say (events : List Event) (hhistory : w'.history = events ++ w.history)
    (hdecoded : ∀ path content, .decoded sid path content ∈ events →
      ∃ a ∈ audio, a.Is path content) {line : Json}
    (hline : line.isTranscript = true → ∃ path content, .decoded sid path content ∈ events) :
    Hears sid audio w (w'.say line) := by
  refine ⟨events, by rw [say_worker, hhistory], hdecoded, fun l hl => ?_⟩
  unfold Worker.say at hl
  split at hl
  · rw [List.mem_singleton.mp hl]
    exact hline
  · cases hl

/-- Nothing is decoded, and the answer is no transcript. -/
theorem Hears.quiet {line : Json} (hhistory : w'.history = w.history)
    (hline : line.isTranscript = false) : Hears sid audio w (w'.say line) :=
  Hears.say [] hhistory (fun _ _ h => by cases h)
    fun h => absurd (h.symm.trans hline) (by decide)

/-- The session is decoded. -/
theorem Hears.decode (h : Holds w.disk st audio) (hne : st.melPath ≠ []) {line : Json}
    (events : List Event) (hevents : ∀ path content, .decoded sid path content ∉ events)
    (hhistory : w'.history = events ++ (w.decode sid st.melPath).history) :
    Hears sid audio w (w'.say line) := by
  refine Hears.say (events ++ [.decoded sid st.melPath (contentAt w.disk st.melPath)]) ?_ ?_
    fun _ => ?_
  · rw [hhistory, List.append_assoc]
    rfl
  · intro path content hmem
    rcases List.mem_append.mp hmem with hmem | hmem
    · exact absurd hmem (hevents path content)
    · cases List.mem_singleton.mp hmem
      cases audio with
      | none => exact absurd h hne
      | some a =>
        refine ⟨a, rfl, ?_⟩
        cases a with
        | path p => exact h
        | samples pcm => exact h.2
  · exact ⟨_, _, List.mem_append_right _ (List.mem_singleton.mpr rfl)⟩

theorem not_isTranscript_errorOf (sid : Bytes) {error : String} {more : List (String × Json)} :
    (errorOf sid error more).isTranscript = false := by
  have hevent : (errorOf sid error more).stringAt "event" = some (ascii "error") := rfl
  rw [Json.isTranscript, hevent]
  decide

/-- A hop of the session. -/
theorem hears_decodeChunk (h : Holds w.disk st audio) (hpcm : st.pcmB64 ≠ [] → st.melPath ≠ []) :
    Hears sid audio w (decodeChunk cfg w env sid st) := by
  unfold decodeChunk
  split
  · exact Hears.quiet rfl rfl
  rename_i hsome
  have hne : st.melPath ≠ [] := by
    intro hnil
    by_cases hstored : st.pcmB64 = []
    · exact hsome ⟨hnil, hstored⟩
    · exact hpcm hstored hnil
  have hanswer : ∀ (w' : Worker) (line : Json), w'.history = (w.decode sid st.melPath).history →
      Hears sid audio w (w'.say line) :=
    fun w' line hhistory => Hears.decode h hne [] (fun _ _ hmem => by cases hmem) hhistory
  dsimp only
  split
  · split
    · exact hanswer _ _ rfl
    · exact hanswer _ _ rfl
  · split
    · exact hanswer _ _ rfl
    · exact hanswer _ _ rfl

/-- The answer of `end`, and the session is closed. -/
theorem hears_finalAnswer (h : Holds w.disk st audio) (lane : ℤ) (owned : List Bytes) :
    Hears sid audio w
      (((finalAnswer cfg w env sid st).1.close sid lane owned).say
        (finalAnswer cfg w env sid st).2) := by
  have hclosed : ∀ path content, Event.decoded sid path content ∉ [Event.closed sid] := by
    intro path content hmem
    cases List.mem_singleton.mp hmem
  unfold finalAnswer
  split
  · refine Hears.say [.closed sid] rfl
      (fun path content hmem => absurd hmem (hclosed path content)) fun hline => ?_
    rw [not_isTranscript_errorOf] at hline
    cases hline
  rename_i hne
  split
  · exact Hears.decode h hne [.closed sid] hclosed rfl
  · exact Hears.decode h hne [.closed sid] hclosed rfl

/-- A conversion that returns: the session is at a file made from its samples. -/
theorem remakeMel_ok {conversion : Conversion}
    (hmade : remakeMel cfg disk sid st conversion = (disk', .ok made)) :
    st.pcmB64 ≠ [] ∧ made.melPath ≠ [] ∧ made.melPath = made.melPathOwned ∧
      made.pcmB64 = st.pcmB64 ∧ contentAt disk' made.melPath = some st.pcmB64 ∧
      ∃ tick, conversion = .made tick := by
  unfold remakeMel at hmade
  dsimp only at hmade
  split at hmade
  case h_2 => cases hmade
  case h_1 path hpath =>
    cases hmade
    by_cases hpcm : st.pcmB64 = []
    · simp only [pcmB64ToMelSafetensors, if_pos hpcm] at hpath
      cases hpath
    simp only [pcmB64ToMelSafetensors, if_neg hpcm] at hpath ⊢
    cases conversion with
    | failed opened what => cases opened <;> cases hpath
    | made tick =>
      cases hpath
      refine ⟨hpcm, melFile_ne_nil cfg sid tick, trivial, trivial, ?_, tick, rfl⟩
      simp [contentAt]

/-- A conversion that throws was refused. -/
theorem refused_of_remakeMel {what : Bytes} (hpcm : st.pcmB64 ≠ [])
    (hmade : remakeMel cfg disk sid st env.conversion = (disk', .error what)) :
    Refused cfg env := by
  unfold remakeMel at hmade
  dsimp only at hmade
  split at hmade
  case h_1 => cases hmade
  case h_2 message hmessage =>
    simp only [pcmB64ToMelSafetensors, if_neg hpcm] at hmessage
    cases hconversion : env.conversion with
    | made tick =>
      rw [hconversion] at hmessage
      cases hmessage
    | failed opened what => exact .inr ⟨opened, what, hconversion⟩

/-- The session that an `end` without samples is answered from. -/
theorem holds_describe (hpcm : parsed.stringAt "pcm_b64" = none)
    (h : carried parsed = none → Holds disk st heard) :
    Holds disk (st.describe parsed) ((carried parsed).or heard) := by
  have hpath := carried_path parsed (by rw [hpcm]; intro pcm h; cases h)
  rw [hpath]
  exact Holds.describe ⟨st.lastActivity, 0, .made 0, .threw []⟩ fun hcarried =>
    h (by rw [hpath, hcarried]; rfl)

/-- **`end`.**  Where the line carries nothing, what the session holds is decoded. -/
theorem hears_handleEnd (hid : parsed.valueString "id" [] = some sid)
    (hget : w.sessions.get sid = some kept)
    (h : carried parsed = none → Holds w.disk kept heard) :
    Hears sid ((carried parsed).or heard) w (handleEnd cfg w env parsed) := by
  have hclosed : ∀ path content, Event.decoded sid path content ∉ [Event.closed sid] := by
    intro path content hmem
    cases List.mem_singleton.mp hmem
  -- a session that is closed without being decoded
  have hrefused : ∀ (disk : List MelFile) (error : String) (more : List (String × Json)),
      Hears sid ((carried parsed).or heard) w
        (({ w with disk := disk }.close sid kept.laneId [kept.melPathOwned]).say
          (errorOf sid error more)) := by
    intro disk error more
    refine Hears.say [.closed sid] rfl
      (fun path content hmem => absurd hmem (hclosed path content)) fun hline => ?_
    rw [not_isTranscript_errorOf] at hline
    cases hline
  unfold handleEnd
  rw [hid]
  dsimp only
  rw [hget]
  dsimp only
  split
  · rename_i hsome
    obtain ⟨pcm, hpcm⟩ := Option.isSome_iff_exists.mp hsome
    split
    · split
      · rename_i disk made hmade
        obtain ⟨hne, hpath, -, -, hcontent, -⟩ := remakeMel_ok hmade
        rw [describe_pcmB64, hpcm] at hne hcontent
        rw [carried_samples hpcm hne]
        have hholds : Holds disk made (some (.samples pcm)) := ⟨hpath, hcontent⟩
        exact hears_finalAnswer (w := { w with disk := disk }) hholds _ _
      · exact hrefused _ _ _
    · exact hrefused w.disk _ _
  · rename_i hnone
    have hpcm : parsed.stringAt "pcm_b64" = none := Option.not_isSome_iff_eq_none.mp hnone
    exact hears_finalAnswer (holds_describe hpcm h) _ _

/-- An `end` without samples finalizes the audio, if there is any. -/
theorem finalizes_handleEnd {a : Audio} (hid : parsed.valueString "id" [] = some sid)
    (hget : w.sessions.get sid = some kept)
    (h : carried parsed = none → Holds w.disk kept heard)
    (hpcm : parsed.stringAt "pcm_b64" = none) (haudio : (carried parsed).or heard = some a)
    (ha : a ≠ .path []) :
    ∃ path content, a.Is path content ∧
      (handleEnd cfg w env parsed).worker.history =
        .closed sid :: .decoded sid path content :: w.history := by
  have hholds := holds_describe hpcm h
  rw [haudio] at hholds
  have hne : (kept.describe parsed).melPath ≠ [] := by
    intro hnil
    cases a with
    | path p => exact ha (congrArg Audio.path (hholds.symm.trans hnil))
    | samples pcm => exact hholds.1 hnil
  refine ⟨(kept.describe parsed).melPath, contentAt w.disk (kept.describe parsed).melPath, ?_, ?_⟩
  · cases a with
    | path p => exact hholds
    | samples pcm => exact hholds.2
  · unfold handleEnd
    rw [hid]
    dsimp only
    rw [hget]
    dsimp only
    rw [hpcm, if_neg (by simp), say_worker]
    unfold finalAnswer
    rw [if_neg hne]
    split
    · rfl
    · rfl

/-! ### A chunk -/

/-- The session with what a chunk carries. -/
def Session.listen (st : Session) (env : Env) (parsed : Json) : Session :=
  { st.describe parsed with lastActivity := env.now }

theorem handleChunk_throws (hid : parsed.valueString "id" [] = some sid)
    (hget : w.sessions.get sid = some st) (hlast : parsed.valueBool "last" false = none) :
    handleChunk cfg w env parsed = (w.put sid (st.listen env parsed)).throws := by
  unfold handleChunk
  rw [hid]
  dsimp only
  rw [hget]
  dsimp only
  rw [hlast]
  rfl

theorem handleChunk_last (hid : parsed.valueString "id" [] = some sid)
    (hget : w.sessions.get sid = some st) (hlast : parsed.valueBool "last" false = some true) :
    handleChunk cfg w env parsed =
      handleEnd cfg (w.put sid (st.listen env parsed)) env parsed := by
  unfold handleChunk
  rw [hid]
  dsimp only
  rw [hget]
  dsimp only
  rw [hlast]
  rfl

/-- What a chunk does, that is not the last: it decodes the session, which has no samples or
whose samples it converts, or the samples are refused. -/
theorem handleChunk_cases (hid : parsed.valueString "id" [] = some sid)
    (hget : w.sessions.get sid = some st) (hlast : parsed.valueBool "last" false = some false) :
    ((st.listen env parsed).pcmB64 = [] ∧
      handleChunk cfg w env parsed =
        decodeChunk cfg (w.put sid (st.listen env parsed)) env sid (st.listen env parsed)) ∨
    (∃ disk made,
      remakeMel cfg w.disk sid (st.listen env parsed) env.conversion = (disk, .ok made) ∧
      ¬ Refused cfg env ∧
      handleChunk cfg w env parsed =
        decodeChunk cfg ({ w.put sid (st.listen env parsed) with disk := disk }.put sid made) env
          sid made) ∨
    ∃ disk error more, (st.listen env parsed).pcmB64 ≠ [] ∧ Refused cfg env ∧
      (error = "pcm_input_unsupported" ∨ error = "pcm_to_mel_failed") ∧
      handleChunk cfg w env parsed =
        { w.put sid (st.listen env parsed) with disk := disk }.say (errorOf sid error more) := by
  unfold handleChunk
  rw [hid]
  dsimp only
  rw [hget]
  dsimp only
  rw [hlast]
  dsimp only
  split
  · rename_i hpcm
    exact .inl ⟨hpcm, rfl⟩
  rename_i hsome
  have hpcm : (st.listen env parsed).pcmB64 ≠ [] := hsome
  split
  · rename_i hmissing
    exact .inr (.inr ⟨w.disk, _, _, hpcm, .inl (by simpa using hmissing), .inl rfl, rfl⟩)
  rename_i hmelExtractor
  split
  · rename_i disk made hmade
    obtain ⟨-, -, -, -, -, tick, htick⟩ := remakeMel_ok hmade
    refine .inr (.inl ⟨disk, made, hmade, ?_, rfl⟩)
    rintro (hmissing | ⟨opened, what, hfailed⟩)
    · exact hmelExtractor (by simp [hmissing])
    · rw [htick] at hfailed
      cases hfailed
  · rename_i disk what hmade
    exact .inr (.inr ⟨disk, _, _, hpcm, refused_of_remakeMel hpcm hmade, .inr rfl, rfl⟩)

theorem rejected_say {line : Json} (h : ∀ error, line.stringAt "error" = some error →
    error ≠ ascii "pcm_input_unsupported" ∧ error ≠ ascii "pcm_to_mel_failed") :
    (w.say line).rejected = false := by
  unfold Worker.say Reply.rejected
  split
  · rw [List.any_cons, List.any_nil, Bool.or_false, Bool.or_eq_false_iff, decide_eq_false_iff_not,
      decide_eq_false_iff_not]
    exact ⟨fun herror => (h _ herror).1 rfl, fun herror => (h _ herror).2 rfl⟩
  · rfl

/-- A hop is not rejected. -/
theorem rejected_decodeChunk : (decodeChunk cfg w env sid st).rejected = false := by
  have hfailed : ∀ (w : Worker) more, (w.say (errorOf sid "partial_decode_failed" more)).rejected =
      false := by
    intro w more
    refine rejected_say fun error herror => ?_
    cases herror
    decide
  have hquiet : ∀ (w : Worker) text, (w.say (partialOf sid text)).rejected = false := by
    intro w text
    refine rejected_say fun error herror => ?_
    cases herror
  unfold decodeChunk
  split
  · refine rejected_say fun error herror => ?_
    cases herror
  dsimp only
  split
  · split
    · exact hquiet _ _
    · exact hfailed _ _
  · split
    · exact hquiet _ _
    · exact hfailed _ _

/-- Refused samples are rejected, if the answer can be written. -/
theorem rejected_refused {error : String} {more : List (String × Json)}
    (herror : error = "pcm_input_unsupported" ∨ error = "pcm_to_mel_failed")
    (hkept : (w.say (errorOf sid error more)).escaped = false) :
    (w.say (errorOf sid error more)).rejected = true := by
  have hwas : (errorOf sid error more).stringAt "error" = some (ascii error) := rfl
  unfold Worker.say at hkept ⊢
  split
  · rw [Reply.rejected, List.any_cons, hwas]
    rcases herror with rfl | rfl <;> rfl
  · rename_i hdumps
    rw [if_neg hdumps] at hkept
    cases hkept

/-! ### What a step leaves -/

/-- The session is at this audio, and its samples are those of its mel file only where this is
the audio. -/
structure Settled (disk : List MelFile) (st : Session) (heard : Option Audio) : Prop where
  holds : Holds disk st heard
  made : st.pcmB64 ≠ [] → st.Made disk → heard = some (.samples st.pcmB64)
  own : ∀ pcm, heard = some (.samples pcm) → st.melPath = st.melPathOwned

/-- The fields that describe the audio decide. -/
theorem Settled.congr {st' : Session} (h : Settled disk st heard) (hpath : st'.melPath = st.melPath)
    (howned : st'.melPathOwned = st.melPathOwned) (hpcm : st'.pcmB64 = st.pcmB64) :
    Settled disk st' heard := by
  refine ⟨?_, ?_, ?_⟩
  · have hheld := h.holds
    unfold Holds at hheld ⊢
    rwa [hpath]
  · have hmade := h.made
    unfold Session.Made at hmade ⊢
    rwa [hpath, howned, hpcm]
  · rw [hpath, howned]
    exact h.own

/-- The session at its new file. -/
theorem settled_remakeMel {conversion : Conversion}
    (hmade : remakeMel cfg disk sid st conversion = (disk', .ok made)) :
    Settled disk' made (some (.samples st.pcmB64)) := by
  obtain ⟨-, hne, howned, hpcm, hcontent, -⟩ := remakeMel_ok hmade
  refine ⟨⟨hne, hcontent⟩, fun _ _ => by rw [hpcm], fun _ _ => howned⟩

/-- A chunk without samples, of a session without any. -/
theorem Settled.listen (h : Settled disk st heard) (hpcm : (st.listen env parsed).pcmB64 = []) :
    Settled disk (st.listen env parsed) ((carried parsed).or heard) := by
  have hcarried : carried parsed = (carriedPath parsed).map .path := by
    refine carried_path parsed fun pcm hmem => ?_
    have hwas : (parsed.stringAt "pcm_b64").getD st.pcmB64 = [] := hpcm
    rwa [hmem] at hwas
  rw [hcarried]
  refine ⟨Holds.describe env fun _ => h.holds, fun hne => absurd hpcm hne, fun pcm hsamples => ?_⟩
  have hpath := describe_melPath st parsed
  cases hnone : carriedPath parsed with
  | some p =>
    rw [hnone] at hsamples
    cases hsamples
  | none =>
    rw [hnone] at hsamples hpath
    exact hpath.trans (h.own pcm hsamples)

/-- No mel file is at the empty path. -/
theorem contentAt_nil (h : ∀ f ∈ disk, f.path ≠ []) : contentAt disk [] = none := by
  have hnone : disk.find? (fun f => f.path == []) = none :=
    List.find?_eq_none.mpr fun f hf => by simpa using h f hf
  rw [contentAt, hnone]
  rfl

/-- Samples that are refused leave a session that is not at a mel file of the worker's. -/
theorem Settled.refuse (h : Settled disk st heard) (hdisk : ∀ f ∈ disk', f.path ≠ [])
    (hcarried : carriedPath parsed = none) (hown : ¬ st.Own) :
    Settled disk' (st.listen env parsed) heard := by
  have hpath : (st.listen env parsed).melPath = st.melPath := by
    have hwas := describe_melPath st parsed
    rwa [hcarried] at hwas
  have hnot : ∀ pcm, heard ≠ some (.samples pcm) := by
    intro pcm hsamples
    have hheld := h.holds
    rw [hsamples] at hheld
    exact hown ⟨h.own pcm hsamples, hheld.1⟩
  refine ⟨?_, fun _ hmade => ?_, fun pcm hsamples => absurd hsamples (hnot pcm)⟩
  · have hheld := h.holds
    cases heard with
    | none => exact hpath.trans hheld
    | some a =>
      cases a with
      | path p => exact hpath.trans hheld
      | samples pcm => exact absurd rfl (hnot pcm)
  · -- the path would be empty, where no file is
    have hnil : st.melPath = [] := by
      by_contra hne
      exact hown ⟨hpath.symm.trans hmade.1, hne⟩
    have hcontent := hmade.2
    rw [hpath, hnil, contentAt_nil hdisk] at hcontent
    cases hcontent

/-- A hop leaves the audio as it is. -/
theorem decodeChunk_leaves (hget : w.sessions.get sid = some st) :
    (decodeChunk cfg w env sid st).worker.disk = w.disk ∧
      ∃ st', (decodeChunk cfg w env sid st).worker.sessions.get sid = some st' ∧
        st'.melPath = st.melPath ∧ st'.melPathOwned = st.melPathOwned ∧ st'.pcmB64 = st.pcmB64 := by
  unfold decodeChunk
  split
  · rw [say_worker]
    exact ⟨rfl, st, hget, rfl, rfl, rfl⟩
  dsimp only
  split
  · split
    · rw [say_worker]
      exact ⟨rfl, _, Dictionary.get_put_self _, rfl, rfl, rfl⟩
    · rw [say_worker]
      exact ⟨rfl, st, hget, rfl, rfl, rfl⟩
  · split
    · rw [say_worker]
      exact ⟨rfl, st, hget, rfl, rfl, rfl⟩
    · rw [say_worker]
      exact ⟨rfl, st, hget, rfl, rfl, rfl⟩

/-- `end` closes the session. -/
theorem get_handleEnd_self (hid : parsed.valueString "id" [] = some sid)
    (hget : w.sessions.get sid = some st) :
    (handleEnd cfg w env parsed).worker.sessions.get sid = none := by
  have hclose : ∀ (w : Worker) lane owned, (w.close sid lane owned).sessions.get sid = none :=
    fun w lane owned => Dictionary.get_erase_self _
  unfold handleEnd
  rw [hid]
  dsimp only
  rw [hget]
  dsimp only
  split
  · split
    · split
      · rw [say_worker]
        exact hclose _ _ _
      · rw [say_worker]
        exact hclose _ _ _
    · rw [say_worker]
      exact hclose _ _ _
  · rw [say_worker]
    exact hclose _ _ _

/-- The samples that a chunk converts are those it carries, or those of the audio. -/
theorem carried_listen (h : Settled disk st heard) (hkeeps : Keeps cfg disk env st parsed)
    (hrefused : ¬ Refused cfg env) (hpcm : (st.listen env parsed).pcmB64 ≠ []) :
    (carried parsed).or heard = some (.samples (st.listen env parsed).pcmB64) := by
  have hwas : (st.listen env parsed).pcmB64 = (parsed.stringAt "pcm_b64").getD st.pcmB64 := rfl
  cases hcarried : parsed.stringAt "pcm_b64" with
  | some pcm =>
    rw [hcarried, Option.getD_some] at hwas
    rw [hwas] at hpcm ⊢
    rw [carried_samples hcarried hpcm, Option.some_or]
  | none =>
    rw [hcarried, Option.getD_none] at hwas
    rw [hwas] at hpcm ⊢
    obtain ⟨hpath, hmade⟩ := hkeeps.again hcarried hpcm
    have hnone : carried parsed = none := by
      rw [carried_path parsed (by rw [hcarried]; intro pcm hmem; cases hmem), hpath]
      rfl
    rw [hnone, Option.none_or]
    exact h.made hpcm (hmade.resolve_left hrefused)

/-- **A chunk.**  Every hop, and the final of the last one, is decoded from what the chunk
carries or from the audio of the session. -/
theorem hears_handleChunk (hid : parsed.valueString "id" [] = some sid)
    (hget : w.sessions.get sid = some st) (h : Settled w.disk st heard)
    (hkeeps : parsed.valueBool "last" false = some false → Keeps cfg w.disk env st parsed) :
    Hears sid ((carried parsed).or heard) w (handleChunk cfg w env parsed) := by
  cases hlast : parsed.valueBool "last" false with
  | none =>
    rw [handleChunk_throws hid hget hlast]
    refine ⟨[], rfl, fun path content hmem => ?_, fun line hmem => ?_⟩
    · cases hmem
    · cases hmem
  | some last =>
    cases last with
    | true =>
      rw [handleChunk_last hid hget hlast]
      refine hears_handleEnd (w := w.put sid (st.listen env parsed)) hid (Dictionary.get_put_self _)
        fun hnone => ?_
      have hlisten : carriedPath parsed = none := by
        unfold carried at hnone
        split at hnone
        · cases hnone
        · exact Option.map_eq_none_iff.mp hnone
      have hheld : Holds w.disk (st.listen env parsed)
          (((carriedPath parsed).map .path).or heard) := Holds.describe env fun _ => h.holds
      rwa [hlisten] at hheld
    | false =>
      rcases handleChunk_cases hid hget hlast with ⟨hpcm, hchunk⟩ |
        ⟨disk, made, hmade, hrefused, hchunk⟩ | ⟨disk, error, more, -, -, -, hchunk⟩
      -- nothing to convert: the path that the chunk carries, or the one the session has
      · rw [hchunk]
        exact hears_decodeChunk (w := w.put sid (st.listen env parsed)) (h.listen hpcm).holds
          fun hne => absurd hpcm hne
      -- converted: the samples of the chunk, or again those of the audio
      · rw [hchunk]
        obtain ⟨hpcm, hne, -⟩ := remakeMel_ok hmade
        have hholds := (settled_remakeMel hmade).holds
        rw [← carried_listen h (hkeeps hlast) hrefused hpcm] at hholds
        exact hears_decodeChunk
          (w := { w.put sid (st.listen env parsed) with disk := disk }.put sid made) hholds
          fun _ => hne
      · rw [hchunk]
        exact Hears.quiet rfl (not_isTranscript_errorOf sid)

/-- What a chunk leaves, when it is noted whether it was rejected. -/
theorem settled_handleChunk (hid : parsed.valueString "id" [] = some sid)
    (hget : w.sessions.get sid = some st) (h : Settled w.disk st heard)
    (hkeeps : parsed.valueBool "last" false = some false → Keeps cfg w.disk env st parsed)
    (hkept : (handleChunk cfg w env parsed).escaped = false)
    (hdisk : ∀ f ∈ (handleChunk cfg w env parsed).worker.disk, f.path ≠ []) {st' : Session}
    (hget' : (handleChunk cfg w env parsed).worker.sessions.get sid = some st') :
    Settled (handleChunk cfg w env parsed).worker.disk st'
      (if (handleChunk cfg w env parsed).rejected = false then (carried parsed).or heard
      else heard) := by
  cases hlast : parsed.valueBool "last" false with
  | none =>
    -- `last` cannot be read, and the process has ended
    rw [handleChunk_throws hid hget hlast] at hkept
    cases hkept
  | some last =>
    cases last with
    | true =>
      -- the last chunk closes the session
      rw [handleChunk_last hid hget hlast,
        get_handleEnd_self hid (Dictionary.get_put_self _)] at hget'
      cases hget'
    | false =>
      rcases handleChunk_cases hid hget hlast with ⟨hpcm, hchunk⟩ |
        ⟨disk, made, hmade, hrefused, hchunk⟩ | ⟨disk, error, more, hpcm, hrefused, herror, hchunk⟩
      · rw [hchunk] at hget' ⊢
        obtain ⟨hsame, after, hafter, hpath, howned, hstored⟩ :=
          decodeChunk_leaves (w := w.put sid (st.listen env parsed)) (Dictionary.get_put_self _)
        rw [hafter, Option.some_inj] at hget'
        rw [rejected_decodeChunk, if_pos rfl, hsame, ← hget']
        exact (h.listen hpcm).congr hpath howned hstored
      · rw [hchunk] at hget' ⊢
        obtain ⟨hpcm, -⟩ := remakeMel_ok hmade
        obtain ⟨hsame, after, hafter, hpath, howned, hstored⟩ :=
          decodeChunk_leaves
            (w := { w.put sid (st.listen env parsed) with disk := disk }.put sid made)
            (Dictionary.get_put_self _)
        rw [hafter, Option.some_inj] at hget'
        rw [rejected_decodeChunk, if_pos rfl, hsame, ← hget',
          carried_listen h (hkeeps hlast) hrefused hpcm]
        exact (settled_remakeMel hmade).congr hpath howned hstored
      · rw [hchunk] at hkept hdisk hget' ⊢
        rw [say_worker] at hdisk hget' ⊢
        obtain ⟨hcarried, hown⟩ := (hkeeps hlast).refused hpcm hrefused
        have hsession : st.listen env parsed = st' :=
          Option.some_inj.mp ((Dictionary.get_put_self _).symm.trans hget')
        rw [rejected_refused herror hkept, if_neg (by decide), ← hsession]
        exact h.refuse hdisk hcarried hown

/-- A `begin` opens a session without audio, or touches one that is open. -/
theorem settled_handleBegin (hid : parsed.valueString "id" [] = some sid)
    (hnew : w.sessions.get sid = none → heard = none)
    (h : ∀ st, w.sessions.get sid = some st → Settled w.disk st heard) {st' : Session}
    (hget' : (handleBegin cfg w env parsed).worker.sessions.get sid = some st') :
    Settled (handleBegin cfg w env parsed).worker.disk st' heard := by
  unfold handleBegin at hget' ⊢
  rw [hid] at hget' ⊢
  dsimp only at hget' ⊢
  split at hget'
  · rename_i hnil
    rw [if_pos hnil]
    rw [say_worker] at hget' ⊢
    exact h st' hget'
  rename_i hne
  rw [if_neg hne]
  cases hget : w.sessions.get sid with
  | some st =>
    rw [hget] at hget'
    dsimp only at hget' ⊢
    rw [say_worker] at hget' ⊢
    have hsession := Option.some_inj.mp ((Dictionary.get_put_self _).symm.trans hget')
    rw [← hsession]
    exact (h st hget).congr rfl rfl rfl
  | none =>
    rw [hget] at hget'
    dsimp only at hget' ⊢
    split at hget'
    · rw [say_worker, hget] at hget'
      cases hget'
    · rename_i hlane
      rw [if_neg hlane]
      rw [say_worker] at hget' ⊢
      have hsession := Option.some_inj.mp ((Dictionary.get_put_self _).symm.trans hget')
      rw [← hsession, hnew hget]
      exact ⟨rfl, fun hpcm => absurd rfl hpcm, fun pcm hsamples => by cases hsamples⟩

/-- Without a session, a chunk and an `end` change nothing. -/
theorem handleChunk_unknown (hid : parsed.valueString "id" [] = some sid)
    (hget : w.sessions.get sid = none) :
    handleChunk cfg w env parsed = w.say (errorOf sid "unknown_session" []) := by
  unfold handleChunk
  rw [hid]
  dsimp only
  rw [hget]

theorem handleEnd_unknown (hid : parsed.valueString "id" [] = some sid)
    (hget : w.sessions.get sid = none) :
    handleEnd cfg w env parsed = w.say (errorOf sid "unknown_session" []) := by
  unfold handleEnd
  rw [hid]
  dsimp only
  rw [hget]

/-! ### A line -/

/-- A value that is not there is the default. -/
theorem valueString_of_not_contains {key : String} {default s : Bytes}
    (h : parsed.contains key = false) (hvalue : parsed.valueString key default = some s) :
    s = default := by
  cases parsed with
  | object items =>
    have hsome : (items.lookup key).isSome = false := h
    have hlookup : items.lookup key = none := by
      rwa [Option.isSome_eq_false_iff, Option.isNone_iff_eq_none] at hsome
    simp only [Json.valueString, hlookup, Option.some_inj] at hvalue
    exact hvalue.symm
  | null | boolean | integer | real | string | array => cases hvalue

theorem not_isTranscript_runOneShotCore (input : Json) (ran : Ran) :
    (runOneShotCore input ran).isTranscript = false := by
  have hthrew : ∀ what, (coreThrew what).isTranscript = false := fun _ => rfl
  unfold runOneShotCore
  split
  · exact hthrew _
  · exact hthrew _
  · rename_i ok texts totalMs id hvalue
    cases ok <;> rfl

/-- What a line does that names a session: the handler of its event, or nothing. -/
theorem onJson_cases (cfg : Cfg) (w : Worker) (env : Env)
    (hid : parsed.valueString "id" [] = some sid) :
    (parsed.valueString "event" [] ≠ some (ascii "chunk") ∧
      onJson cfg w env parsed = handleBegin cfg w env parsed) ∨
    (parsed.valueString "event" [] = some (ascii "chunk") ∧
      onJson cfg w env parsed = handleChunk cfg w env parsed) ∨
    (parsed.valueString "event" [] ≠ some (ascii "chunk") ∧
      onJson cfg w env parsed = handleEnd cfg w env parsed) ∨
    (parsed.valueString "event" [] ≠ some (ascii "chunk") ∧
      (onJson cfg w env parsed = w.throws ∨
        ∃ line, onJson cfg w env parsed = w.say line ∧ line.isTranscript = false)) := by
  unfold onJson
  cases hcontains : parsed.contains "event" with
  | false =>
    have hchunk : parsed.valueString "event" [] ≠ some (ascii "chunk") := by
      intro hvalue
      have hnil := valueString_of_not_contains hcontains hvalue
      revert hnil
      decide
    exact .inr (.inr (.inr ⟨hchunk, .inr ⟨_, rfl, not_isTranscript_runOneShotCore _ _⟩⟩))
  | true =>
    simp only [Bool.not_true, Bool.false_eq_true, if_false]
    cases hevent : parsed.valueString "event" [] with
    | none => exact .inr (.inr (.inr ⟨Option.some_ne_none _ |>.symm, .inl rfl⟩))
    | some event =>
      dsimp only
      split
      · rename_i hbegin
        exact .inl ⟨by rw [hbegin]; decide, rfl⟩
      split
      · rename_i hchunk
        exact .inr (.inl ⟨by rw [hchunk], rfl⟩)
      rename_i hchunk
      have hne : some event ≠ some (ascii "chunk") := fun h => hchunk (Option.some_inj.mp h)
      split
      · exact .inr (.inr (.inl ⟨hne, rfl⟩))
      · rw [hid]
        refine .inr (.inr (.inr ⟨hne, .inr ⟨_, rfl, ?_⟩⟩))
        rfl

/-- The audio of the session, if it is open, is what was heard. -/
structure Recorded (sid : Bytes) (heard : Option Audio) (w : Worker) : Prop where
  sound : w.Sound
  session : ∀ st, w.sessions.get sid = some st → Settled w.disk st heard

theorem hear_new (hget : w.sessions.get sid = none) :
    hear cfg sid heard w (.line env parsed) = none := if_pos hget

theorem hear_chunk (hget : w.sessions.get sid = some st)
    (hevent : parsed.valueString "event" [] = some (ascii "chunk")) :
    hear cfg sid heard w (.line env parsed) =
      if (onJson cfg w env parsed).rejected = false then (carried parsed).or heard else heard := by
  have hopen : w.sessions.get sid ≠ none := by
    rw [hget]
    exact Option.some_ne_none st
  refine (if_neg hopen).trans ?_
  simp only [hevent, true_and]

theorem hear_other (hget : w.sessions.get sid = some st)
    (hevent : parsed.valueString "event" [] ≠ some (ascii "chunk")) :
    hear cfg sid heard w (.line env parsed) = heard := by
  have hopen : w.sessions.get sid ≠ none := by
    rw [hget]
    exact Option.some_ne_none st
  exact (if_neg hopen).trans (if_neg fun h => hevent h.1)

/-- **The step lemma.** -/
theorem settled_onJson (h : Recorded sid heard w) (hid : parsed.valueString "id" [] = some sid)
    (hcareful : Careful cfg sid w (.line env parsed)) (hlane : env.lane ∉ w.acquired)
    (hkept : (onJson cfg w env parsed).escaped = false) :
    Recorded sid (hear cfg sid heard w (.line env parsed)) (onJson cfg w env parsed).worker := by
  have hsound : (onJson cfg w env parsed).worker.Sound := sound_onJson h.sound hlane parsed
  refine ⟨hsound, fun st' hget' => ?_⟩
  have hdisk : ∀ f ∈ (onJson cfg w env parsed).worker.disk, f.path ≠ [] :=
    fun f hf => (hsound.2 f hf).1
  cases hget : w.sessions.get sid with
  | none =>
    -- only a `begin` can open the session, and it has no audio then
    rw [hear_new hget]
    have hgone : ∀ {P : Prop}, w.sessions.get sid = some st' → P := by
      intro P hopen
      rw [hget] at hopen
      cases hopen
    rcases onJson_cases cfg w env hid with ⟨-, honJson⟩ | ⟨-, honJson⟩ | ⟨-, honJson⟩ |
      ⟨-, honJson | ⟨line, honJson, -⟩⟩
    · rw [honJson] at hget' ⊢
      exact settled_handleBegin hid (fun _ => rfl)
        (fun st hopen => by rw [hget] at hopen; cases hopen) hget'
    · rw [honJson, handleChunk_unknown hid hget, say_worker] at hget'
      exact hgone hget'
    · rw [honJson, handleEnd_unknown hid hget, say_worker] at hget'
      exact hgone hget'
    · rw [honJson] at hget'
      exact hgone hget'
    · rw [honJson, say_worker] at hget'
      exact hgone hget'
  | some st =>
    have hsettled := h.session st hget
    rcases onJson_cases cfg w env hid with ⟨hevent, honJson⟩ | ⟨hevent, honJson⟩ |
      ⟨hevent, honJson⟩ | ⟨hevent, honJson⟩
    · rw [hear_other hget hevent]
      rw [honJson] at hget' ⊢
      exact settled_handleBegin hid (fun hnone => by rw [hget] at hnone; cases hnone)
        h.session hget'
    · rw [hear_chunk hget hevent]
      rw [honJson] at hkept hdisk hget' ⊢
      exact settled_handleChunk hid hget hsettled (hcareful st hget hevent) hkept hdisk hget'
    · rw [honJson, get_handleEnd_self hid hget] at hget'
      cases hget'
    · rw [hear_other hget hevent]
      have hsame : (onJson cfg w env parsed).worker = w := by
        rcases honJson with honJson | ⟨line, honJson, -⟩
        · rw [honJson, throws_worker]
        · rw [honJson, say_worker]
      rw [hsame] at hget' ⊢
      exact h.session st' hget'

/-- `begin` decodes nothing. -/
theorem hears_handleBegin (input : Json) : Hears sid audio w (handleBegin cfg w env input) := by
  have hopened : ∀ other path content,
      Event.decoded sid path content ∉ [Event.acked other] := by
    intro other path content hmem
    cases List.mem_singleton.mp hmem
  unfold handleBegin
  split
  · exact ⟨[], rfl, fun _ _ hmem => (List.not_mem_nil hmem).elim,
      fun _ hmem => (List.not_mem_nil hmem).elim⟩
  split
  · exact Hears.quiet rfl rfl
  split
  · exact Hears.quiet rfl rfl
  split
  · exact Hears.quiet rfl (not_isTranscript_errorOf _)
  · refine Hears.say [.acked _] rfl
      (fun path content hmem => absurd hmem (hopened _ path content)) fun hline => ?_
    cases hline

/-- What a line has decoded. -/
theorem hears_onJson (h : Recorded sid heard w) (hid : parsed.valueString "id" [] = some sid)
    (hcareful : Careful cfg sid w (.line env parsed)) :
    Hears sid ((carried parsed).or heard) w (onJson cfg w env parsed) := by
  rcases onJson_cases cfg w env hid with ⟨-, honJson⟩ | ⟨hevent, honJson⟩ | ⟨-, honJson⟩ |
    ⟨-, honJson | ⟨line, honJson, hline⟩⟩
  · rw [honJson]
    exact hears_handleBegin parsed
  · rw [honJson]
    cases hget : w.sessions.get sid with
    | none =>
      rw [handleChunk_unknown hid hget]
      exact Hears.quiet rfl (not_isTranscript_errorOf sid)
    | some st =>
      exact hears_handleChunk hid hget (h.session st hget) (hcareful st hget hevent)
  · rw [honJson]
    cases hget : w.sessions.get sid with
    | none =>
      rw [handleEnd_unknown hid hget]
      exact Hears.quiet rfl (not_isTranscript_errorOf sid)
    | some st => exact hears_handleEnd hid hget fun _ => (h.session st hget).holds
  · rw [honJson]
    exact ⟨[], rfl, fun _ _ hmem => (List.not_mem_nil hmem).elim,
      fun _ hmem => (List.not_mem_nil hmem).elim⟩
  · rw [honJson]
    exact Hears.quiet rfl hline

/-- The lines of the session, each of which keeps its audio. -/
def CarefulLine (cfg : Cfg) (sid : Bytes) (w : Worker) (a : Act) : Prop :=
  OfSession sid a ∧ Careful cfg sid w a

/-- What was heard is recorded along the run. -/
theorem recorded_run {as : List Act} (h : Recorded sid heard w)
    (hcareful : (machine cfg).Guarded (CarefulLine cfg sid) w as)
    (hrun : (machine cfg).runFrom w as = some w') :
    Recorded sid ((machine cfg).track (hear cfg sid) heard w as) w' := by
  refine (machine cfg).invariant_of_track (fun heard w a w' h hline hstep => ?_) h hcareful hrun
  cases a with
  | sweep now => exact hline.1.elim
  | line env parsed =>
    have hwas : step cfg w (.line env parsed) = some w' := hstep
    simp only [step] at hwas
    split at hwas
    · cases hwas
    rename_i hlane
    split at hwas
    · cases hwas
    · rename_i hescaped
      cases hwas
      exact settled_onJson h hline.1 hline.2 hlane (by simpa using hescaped)

/-- **What is decoded is the audio of the last line that was not rejected.**  A session is
opened and its lines come in any order.  As long as every chunk keeps the audio of the session,
whatever is decoded for a line is what the line carries, or else what the last line carried
that carried something and was not rejected.  A partial or a final is only written for what is
decoded, and an `end` without samples finalizes this audio. -/
theorem decodes_last_audio (cfg : Cfg) (sid : Bytes) (before as : List Act) (w₀ w : Worker)
    (hbefore : (machine cfg).run before = some w₀) (hnew : w₀.sessions.get sid = none)
    (hcareful : (machine cfg).Guarded (CarefulLine cfg sid) w₀ as)
    (hrun : (machine cfg).runFrom w₀ as = some w) (env : Env) (parsed : Json)
    (hline : CarefulLine cfg sid w (.line env parsed)) :
    Hears sid ((carried parsed).or ((machine cfg).track (hear cfg sid) none w₀ as)) w
        (onJson cfg w env parsed) ∧
      ∀ a ∈ (carried parsed).or ((machine cfg).track (hear cfg sid) none w₀ as), a ≠ .path [] →
        parsed.valueString "event" [] = some (ascii "end") → parsed.stringAt "pcm_b64" = none →
          (w.sessions.get sid).isSome = true →
            ∃ path content, a.Is path content ∧
              (onJson cfg w env parsed).worker.history =
                .closed sid :: .decoded sid path content :: w.history := by
  have hsound : w₀.Sound := (machine cfg).invariant_of_step sound_start
    (fun _ _ _ h hstep => step_sound h hstep) hbefore
  have hstart : Recorded sid none w₀ :=
    ⟨hsound, fun st hopen => by rw [hnew] at hopen; cases hopen⟩
  have hrecorded := recorded_run hstart hcareful hrun
  refine ⟨hears_onJson hrecorded hline.1 hline.2, fun a haudio ha hevent hpcm hopen => ?_⟩
  obtain ⟨st, hget⟩ := Option.isSome_iff_exists.mp hopen
  have hend : onJson cfg w env parsed = handleEnd cfg w env parsed := by
    have hcontains : parsed.contains "event" = true := by
      by_contra hnot
      have hnil := valueString_of_not_contains (Bool.eq_false_iff.mpr hnot) hevent
      revert hnil
      decide
    unfold onJson
    rw [hcontains, hevent]
    rfl
  rw [hend]
  exact finalizes_handleEnd hline.1 hget (fun _ => (hrecorded.session st hget).holds) hpcm haudio ha

/-- A step with a lane of its own. -/
def answersNext (conversion : Conversion) : Env := { answers conversion with lane := 1 }

/-- A chunk with a path, and one whose samples are refused. -/
def refusedRun : List Act :=
  [.line (answers (.made 0)) (lineOf "begin" []),
    .line (answersNext (.made 1)) (lineOf "chunk" [("mel_path", .literal "a")]),
    .line (answersNext (.failed none [])) (lineOf "chunk" [("pcm_b64", .literal "p")])]

/-- The session at the path. -/
def pathSession : Session :=
  { laneId := 0, melPath := ascii "a", melPathOwned := [], pcmB64 := [], beginMeta := []
    lastActivity := 0, rawDecoded := [], chunkId := 0 }

/-- The path is finalized after the samples have been refused. -/
theorem decodes_last_audio_refusedRun :
    ∃ w, (machine exampleCfg).run refusedRun = some w ∧
      Hears (ascii "s") (some (.path (ascii "a"))) w
        (onJson exampleCfg w (answersNext (.made 2)) (lineOf "end" [])) := by
  have hother : ∀ {env : Env} {event : String} {more : List (String × Json)} {w : Worker},
      ascii event ≠ ascii "chunk" →
        CarefulLine exampleCfg (ascii "s") w (.line env (lineOf event more)) :=
    fun hne => ⟨rfl, fun _ _ hchunk _ => absurd (Option.some_inj.mp hchunk) hne⟩
  refine ⟨_, rfl, ?_⟩
  refine (decodes_last_audio exampleCfg (ascii "s") [] refusedRun .start _ rfl rfl ?_ rfl _ _
    (hother (by decide))).1
  refine Machine.guarded_cons_of_step _ rfl (hother (by decide)) ?_
  refine Machine.guarded_cons_of_step _ rfl ⟨rfl, fun st hget _ _ => ?_⟩ ?_
  · cases hget
    exact ⟨fun _ hpcm => absurd rfl hpcm, fun hpcm => absurd rfl hpcm⟩
  refine Machine.guarded_cons_of_step _ rfl ⟨rfl, fun st hget _ _ => ?_⟩ trivial
  have hwas : st = pathSession := (Option.some.inj hget).symm
  rw [hwas]
  constructor
  · intro hpcm
    cases hpcm
  · intro _ _
    exact ⟨rfl, fun hown => absurd hown.1 (by decide)⟩

/-- A second path whose chunk is not decoded. -/
def failedDecode : Act :=
  .line { answersNext (.made 1) with ran := .threw [] }
    (lineOf "chunk" [("mel_path", .literal "b")])

/-- **A chunk that is not decoded has not been rejected**: it is answered with an error, and its
audio is finalized.  And a path after samples is replaced by them. -/
theorem last_audio_differs :
    (∃ w w', (machine exampleCfg).run (refusedRun.take 2) = some w ∧
      (∃ env parsed, failedDecode = .line env parsed ∧
        (onJson exampleCfg w env parsed).lines.map (·.stringAt "event") = [some (ascii "error")]) ∧
      (machine exampleCfg).runFrom w
        [failedDecode, .line (answersNext (.made 2)) (lineOf "end" [])] = some w' ∧
      w'.history.take 2 =
        [.closed (ascii "s"), .decoded (ascii "s") (ascii "b") none]) ∧
    ∃ w, (machine exampleCfg).run
        [.line (answers (.made 0)) (lineOf "begin" []),
          .line (answersNext (.made 1)) (lineOf "chunk" [("pcm_b64", .literal "p")]),
          .line (answersNext (.made 2)) (lineOf "chunk" [("mel_path", .literal "b")])] = some w ∧
      w.history.head? =
        some (.decoded (ascii "s") (melFile exampleCfg (ascii "s") 2) (some (ascii "p"))) :=
  ⟨⟨_, _, rfl, ⟨_, _, rfl, rfl⟩, rfl, rfl⟩, ⟨_, rfl, rfl⟩⟩

end AsrWorker
end OpenVoiceStream
