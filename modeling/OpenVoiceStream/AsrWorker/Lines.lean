import OpenVoiceStream.AsrWorker.Lanes

/-!
# A line and its answer

The loop reads a line inside of a `try`, and a line that is not JSON is answered with an
error.  What it does with a value that could be read is not inside of one: it reads the
event, the id and `last` with accessors that convert, and it writes out the strings that it
has received and those that come from the decoder.

A line is answered where these fields can be read and these strings can be written.  A line
without characters is skipped.

Whatever a line says, it reaches no session but the one it names.

## Main definitions

* `Reply.Answered` — something is written, and no exception escapes.
* `Fields`, `Fits` — the fields of a line that are read can be.
* `Surroundings` — what comes from outside is well-formed.
* `names` — the session that a line names.

## Main results

* `dumps_runOneShotCore` — the answer of the decoder can be written.
* `lines_answered` — every line.
-/

namespace OpenVoiceStream
namespace AsrWorker

/-- Something is written, and no exception escapes. -/
structure Reply.Answered (reply : Reply) : Prop where
  written : reply.lines ≠ []
  kept : reply.escaped = false

/-- The fields that are read of a value with an event. -/
structure Fields (w : Worker) (parsed : Json) : Prop where
  event : (parsed.valueString "event" []).isSome = true
  id : (parsed.valueString "id" []).isSome = true
  /-- A chunk of a session that is open. -/
  last : ∀ sid, parsed.valueString "event" [] = some (ascii "chunk") →
    parsed.valueString "id" [] = some sid → (w.sessions.get sid).isSome = true →
      (parsed.valueBool "last" false).isSome = true

/-- The line is read, or the message says why not. -/
def Fits (parse : Bytes → Except Bytes Json) (w : Worker) (line : Bytes) : Prop :=
  match parse line with
  | .error what => validUtf8 what = true
  | .ok parsed => parsed.contains "event" = true → Fields w parsed

/-- The session that a line names. -/
def names (parse : Bytes → Except Bytes Json) (line : Bytes) : Option Bytes :=
  match parse line with
  | .error _ => none
  | .ok parsed => parsed.valueString "id" []

/-- The texts of the decoder and its messages are well-formed. -/
def Ran.WellFormed : Ran → Prop
  | .threw what => validUtf8 what = true
  | .finished _ texts _ => ∀ item ∈ texts, validUtf8 item.2.2 = true

/-- What comes from outside in a step is well-formed. -/
structure Surroundings (cfg : Cfg) (env : Env) : Prop where
  ran : env.ran.WellFormed
  conversion : ∀ opened what, env.conversion = .failed opened what → validUtf8 what = true
  tokenizer : ∀ tok ∈ cfg.prefixTokenizer, ∀ tokens, validUtf8 (tok.decode tokens) = true

variable {cfg : Cfg} {w w' : Worker} {env : Env} {sid : Bytes} {st : Session} {parsed core : Json}

/-! ### What can be written -/

theorem dumps_literal {s : String} (h : (ascii s).all isAscii = true) :
    (Json.literal s).dumps = true :=
  validUtf8_ascii h

/-- A value inside of one that can be written. -/
theorem dumps_find {key : String} {value : Json} (h : core.dumps = true)
    (hfind : core.find key = some value) : value.dumps = true := by
  cases core with
  | object items =>
    rw [Json.dumps_object, List.all_eq_true] at h
    exact h (key, value) (Assoc.mem_of_lookup hfind)
  | null | boolean | integer | real | string | array => cases hfind

theorem validUtf8_valueString {key : String} {default s : Bytes} (h : core.dumps = true)
    (hdefault : validUtf8 default = true) (hvalue : core.valueString key default = some s) :
    validUtf8 s = true := by
  cases core with
  | object items =>
    simp only [Json.valueString] at hvalue
    split at hvalue
    · exact (Option.some.inj hvalue) ▸ hdefault
    · rename_i hlookup
      cases hvalue
      have hfind : (Json.object items).find key = some (.string s) := hlookup
      exact dumps_find h hfind
    · cases hvalue
  | null | boolean | integer | real | string | array => cases hvalue

theorem validUtf8_stringAt {key : String} {s : Bytes} (h : core.dumps = true)
    (hvalue : core.stringAt key = some s) : validUtf8 s = true := by
  unfold Json.stringAt at hvalue
  split at hvalue
  · rename_i hfind
    cases hvalue
    exact dumps_find h hfind
  · cases hvalue

/-- The answer of the decoder has the id of the request, texts and a message. -/
theorem dumps_runOneShotCore {input : Json} {ran : Ran}
    (hid : ∀ id, input.valueString "id" [] = some id → validUtf8 id = true)
    (hran : ran.WellFormed) : (runOneShotCore input ran).dumps = true := by
  have hthrew : ∀ what, validUtf8 what = true → (coreThrew what).dumps = true := by
    intro what hwhat
    simp [coreThrew, Json.dumps_object, hwhat, dumps_literal (s := "error") (by decide)]
  unfold runOneShotCore
  split
  · exact hthrew _ hran
  · exact hthrew _ (validUtf8_ascii (by decide))
  · rename_i ok texts totalMs id hvalue
    have htexts : (Json.array (texts.map responseItem)).dumps = true := by
      rw [Json.dumps_array, List.all_map, List.all_eq_true]
      intro item hitem
      simp [responseItem, Json.dumps_object, hran item hitem]
    have hevent : (Json.literal (if ok then "done" else "error")).dumps = true := by
      cases ok <;> exact dumps_literal (by decide)
    simp [Json.dumps_object, hid id hvalue, htexts, hevent]

/-- The text that is stripped for an answer. -/
theorem validUtf8_outputText {text : Bytes} (h : core.dumps = true)
    (htext : outputText core = some text) : validUtf8 text = true := by
  unfold outputText at htext
  split at htext
  · rename_i first rest hfind
    have hall := dumps_find h hfind
    rw [Json.dumps_array, List.all_cons, Bool.and_eq_true] at hall
    exact validUtf8_stringAt hall.1 htext
  · cases htext

theorem validUtf8_transcriptFromCore (h : core.dumps = true) :
    validUtf8 (transcriptFromCore core) = true := by
  unfold transcriptFromCore
  cases htext : outputText core with
  | none => rfl
  | some text => exact validUtf8_stripLangTag (validUtf8_outputText h htext)

/-- The id of a request is that of its session. -/
theorem valueString_put_id {items : List (String × Json)} {key : String} {value : Json}
    (hkey : "id" ≠ key) (h : (Json.object items).valueString "id" [] = some sid) :
    (Json.object (Assoc.put items key value)).valueString "id" [] = some sid := by
  simp only [Json.valueString] at h ⊢
  rwa [Assoc.lookup_put_of_ne hkey]

theorem valueString_requestMeta (sid : Bytes) (st : Session) :
    (Json.object (requestMeta sid st)).valueString "id" [] = some sid := by
  simp only [Json.valueString, requestMeta, Assoc.lookup_put_self]

theorem valueString_buildFinalizeRequest (sid : Bytes) (st : Session) :
    (buildFinalizeRequest sid st).valueString "id" [] = some sid :=
  valueString_put_id (by decide) (valueString_requestMeta sid st)

theorem valueString_buildPrefixRequest (sid : Bytes) (st : Session) (confirmed : Bytes) :
    (buildPrefixRequest sid st confirmed).valueString "id" [] = some sid := by
  refine valueString_put_id (by decide) (valueString_put_id (by decide) ?_)
  exact valueString_put_id (by decide)
    (valueString_put_id (by decide) (valueString_requestMeta sid st))

/-- A session is decoded to an answer that can be written. -/
theorem dumps_finalize (hsid : validUtf8 sid = true) (hran : env.ran.WellFormed) (st : Session) :
    (runOneShotCore (buildFinalizeRequest sid st) env.ran).dumps = true := by
  refine dumps_runOneShotCore (fun id hid => ?_) hran
  rw [valueString_buildFinalizeRequest, Option.some_inj] at hid
  exact hid ▸ hsid

/-- What a hop makes of the answer of the decoder. -/
theorem validUtf8_runPrefixHop (hsid : validUtf8 sid = true) (hran : env.ran.WellFormed)
    (st : Session) (confirmed : Bytes) :
    validUtf8 (runPrefixHop sid st confirmed env.ran).generated = true ∧
      validUtf8 (runPrefixHop sid st confirmed env.ran).error = true := by
  have hcore : (runOneShotCore (buildPrefixRequest sid st confirmed) env.ran).dumps = true := by
    refine dumps_runOneShotCore (fun id hid => ?_) hran
    rw [valueString_buildPrefixRequest, Option.some_inj] at hid
    exact hid ▸ hsid
  simp only [runPrefixHop]
  constructor
  · split
    · cases htext : outputText (runOneShotCore (buildPrefixRequest sid st confirmed) env.ran) with
      | none => rfl
      | some text => exact validUtf8_parseAsrText (validUtf8_outputText hcore htext)
    · rfl
  · split
    · rfl
    · cases herror : (runOneShotCore (buildPrefixRequest sid st confirmed) env.ran).stringAt
          "error" with
      | none => rfl
      | some what => exact validUtf8_stringAt hcore herror

theorem validUtf8_rollBack {tok : Tokenizer} (htok : ∀ tokens, validUtf8 (tok.decode tokens) = true)
    (tokens : List ℕ) (isFinish : Bool) (kept : ℕ) :
    validUtf8 (rollBack tok tokens isFinish kept) = true := by
  induction kept with
  | zero => rfl
  | succ kept ih =>
    simp only [rollBack]
    split
    · exact htok _
    · exact ih

theorem validUtf8_computePrefix (h : Surroundings cfg env) (st : Session) (isFinish : Bool) :
    validUtf8 (computePrefix cfg st isFinish) = true := by
  unfold computePrefix
  split
  · rfl
  · rename_i tok htok
    split
    · rfl
    · dsimp only
      split
      · rfl
      · exact validUtf8_rollBack (h.tokenizer tok htok) _ _ _

theorem dumps_errorOf {error : String} {more : List (String × Json)}
    (hsid : validUtf8 sid = true) (herror : (ascii error).all isAscii = true)
    (hmore : (more.all fun item => item.2.dumps) = true) :
    (errorOf sid error more).dumps = true := by
  rw [errorOf, Json.dumps_object, List.all_append, hmore, Bool.and_true]
  simp [hsid, dumps_literal herror, dumps_literal (s := "error") (by decide)]

/-- A field of the answer of the decoder that is passed on. -/
theorem dumps_passed (h : core.dumps = true) (key name : String) :
    (((core.find key).map ((name, ·))).toList.all fun item => item.2.dumps) = true := by
  cases hfind : core.find key with
  | none => rfl
  | some value => simp [dumps_find h hfind]

theorem dumps_finalOf (hsid : validUtf8 sid = true) (h : core.dumps = true) :
    (finalOf sid core).dumps = true := by
  have htext : ((if coreOk core then [("text", Json.string (transcriptFromCore core))]
      else []).all fun item => item.2.dumps) = true := by
    split
    · simp [validUtf8_transcriptFromCore h]
    · rfl
  rw [finalOf, Json.dumps_object]
  simp only [List.all_append, dumps_passed h, htext, Bool.and_true]
  simp [hsid, dumps_literal (s := "final") (by decide)]

theorem dumps_finalOfHop {confirmed : Bytes} {hop : HopOut} (hsid : validUtf8 sid = true)
    (hconfirmed : validUtf8 confirmed = true)
    (hhop : validUtf8 hop.generated = true ∧ validUtf8 hop.error = true) :
    (finalOfHop sid confirmed hop).dumps = true := by
  have hraw := validUtf8_append hconfirmed hhop.1
  have hresponses :
      (Json.array [responseItem (0, 0, confirmed ++ hop.generated)]).dumps = true := by
    simp [Json.dumps_array, responseItem, Json.dumps_object, hraw]
  rw [finalOfHop, Json.dumps_object]
  simp only [List.all_append, Bool.and_eq_true]
  refine ⟨⟨⟨?_, ?_⟩, ?_⟩, ?_⟩
  · simp [hsid, dumps_literal (s := "final") (by decide)]
  · split
    · simp [hresponses, validUtf8_stripLangTag hraw]
    · rfl
  · simp
  · split
    · rfl
    · simp [hhop.2]

/-! ### What is answered -/

theorem answered_say {line : Json} (h : line.dumps = true) : (w.say line).Answered := by
  unfold Worker.say
  rw [if_pos h]
  exact ⟨List.cons_ne_nil _ _, rfl⟩

theorem dumps_finalAnswer (h : Surroundings cfg env) (hsid : validUtf8 sid = true) (w : Worker)
    (st : Session) : (finalAnswer cfg w env sid st).2.dumps = true := by
  unfold finalAnswer
  split
  · exact dumps_errorOf hsid (by decide) rfl
  split
  · exact dumps_finalOfHop hsid (validUtf8_computePrefix h st true)
      (validUtf8_runPrefixHop hsid h.ran st _)
  · exact dumps_finalOf hsid (dumps_finalize hsid h.ran st)

/-- A conversion that fails says why, in a message of its own or in that of an exception. -/
theorem validUtf8_remakeMel (h : Surroundings cfg env) {disk : List MelFile} {what : Bytes}
    {made : List MelFile} (hmade : remakeMel cfg disk sid st env.conversion = (made, .error what)) :
    validUtf8 what = true := by
  unfold remakeMel at hmade
  dsimp only at hmade
  split at hmade
  · cases hmade
  rename_i message hmessage
  cases hmade
  unfold pcmB64ToMelSafetensors at hmessage
  split at hmessage
  · cases hmessage
    exact validUtf8_ascii (by decide)
  split at hmessage
  · cases hmessage
  · rename_i hconversion
    cases hmessage
    exact h.conversion _ _ hconversion
  · rename_i hconversion
    cases hmessage
    exact h.conversion _ _ hconversion

theorem dumps_conversionFailed {what : Bytes} (hsid : validUtf8 sid = true)
    (hwhat : validUtf8 what = true) : (conversionFailed sid what).dumps = true :=
  dumps_errorOf hsid (by decide) (by simp [hwhat])

theorem dumps_unsupported {hint : String} (hsid : validUtf8 sid = true)
    (hhint : (ascii hint).all isAscii = true) : (unsupported sid hint).dumps = true :=
  dumps_errorOf hsid (by decide) (by simp [dumps_literal hhint])

theorem answered_handleEnd (h : Surroundings cfg env) (hsid : validUtf8 sid = true)
    (hid : parsed.valueString "id" [] = some sid) : (handleEnd cfg w env parsed).Answered := by
  unfold handleEnd
  rw [hid]
  dsimp only
  split
  · exact answered_say (dumps_errorOf hsid (by decide) rfl)
  split
  · split
    · split
      · exact answered_say (dumps_finalAnswer h hsid _ _)
      · rename_i hmade
        exact answered_say (dumps_conversionFailed hsid (validUtf8_remakeMel h hmade))
    · exact answered_say (dumps_unsupported hsid (by decide))
  · exact answered_say (dumps_finalAnswer h hsid _ _)

theorem answered_decodeChunk (h : Surroundings cfg env) (hsid : validUtf8 sid = true) :
    (decodeChunk cfg w env sid st).Answered := by
  unfold decodeChunk
  split
  · refine answered_say ?_
    simp [Json.dumps_object, hsid, dumps_literal (s := "chunk_ack") (by decide)]
  have htranscript : ∀ text, validUtf8 text = true → (partialOf sid text).dumps = true := by
    intro text htext
    simp [partialOf, Json.dumps_object, hsid, htext, dumps_literal (s := "partial") (by decide)]
  dsimp only
  split
  · have hhop := validUtf8_runPrefixHop hsid h.ran st (computePrefix cfg st false)
    split
    · refine answered_say (htranscript _ (validUtf8_stripLangTag ?_))
      exact validUtf8_append (validUtf8_computePrefix h st false) hhop.1
    · refine answered_say (dumps_errorOf hsid (by decide) ?_)
      split
      · rfl
      · simp [hhop.2]
  · have hcore := dumps_finalize hsid h.ran st
    split
    · exact answered_say (htranscript _ (validUtf8_transcriptFromCore hcore))
    · exact answered_say (dumps_errorOf hsid (by decide) (dumps_passed hcore _ _))

theorem answered_handleChunk (h : Surroundings cfg env) (hsid : validUtf8 sid = true)
    (hid : parsed.valueString "id" [] = some sid)
    (hlast : (w.sessions.get sid).isSome = true → (parsed.valueBool "last" false).isSome = true) :
    (handleChunk cfg w env parsed).Answered := by
  unfold handleChunk
  rw [hid]
  dsimp only
  split
  · exact answered_say (dumps_errorOf hsid (by decide) rfl)
  rename_i hget
  obtain ⟨last, hvalue⟩ := Option.isSome_iff_exists.mp (hlast (by rw [hget]; rfl))
  rw [hvalue]
  cases last with
  | true => exact answered_handleEnd h hsid hid
  | false =>
    dsimp only
    split
    · exact answered_decodeChunk h hsid
    split
    · exact answered_say (dumps_unsupported hsid (by decide))
    split
    · exact answered_decodeChunk h hsid
    · rename_i hmade
      exact answered_say (dumps_conversionFailed hsid (validUtf8_remakeMel h hmade))

theorem answered_handleBegin (hsid : validUtf8 sid = true)
    (hid : parsed.valueString "id" [] = some sid) : (handleBegin cfg w env parsed).Answered := by
  have hack : ∀ lane, (beginAck sid lane).dumps = true := by
    intro lane
    simp [beginAck, Json.dumps_object, hsid, dumps_literal (s := "begin_ack") (by decide)]
  unfold handleBegin
  rw [hid]
  dsimp only
  split
  · refine answered_say ?_
    simp [Json.dumps_object, dumps_literal (s := "error") (by decide),
      dumps_literal (s := "begin_missing_id") (by decide)]
  split
  · exact answered_say (hack _)
  split
  · exact answered_say (dumps_errorOf hsid (by decide) (by simp))
  · exact answered_say (hack _)

/-- **A value whose fields can be read is answered.** -/
theorem answered_onJson (h : Surroundings cfg env) (hdumps : parsed.dumps = true)
    (hfields : parsed.contains "event" = true → Fields w parsed) :
    (onJson cfg w env parsed).Answered := by
  have hvalid : ∀ {key : String} {s : Bytes}, parsed.valueString key [] = some s →
      validUtf8 s = true := fun hvalue => validUtf8_valueString hdumps rfl hvalue
  unfold onJson
  cases hevent : parsed.contains "event" with
  | false => exact answered_say (dumps_runOneShotCore (fun _ hid => hvalid hid) h.ran)
  | true =>
    have hread := hfields hevent
    obtain ⟨event, hname⟩ := Option.isSome_iff_exists.mp hread.event
    obtain ⟨id, hid⟩ := Option.isSome_iff_exists.mp hread.id
    rw [hname]
    simp only [Bool.not_true, Bool.false_eq_true, if_false]
    split
    · exact answered_handleBegin (hvalid hid) hid
    split
    · rename_i hchunk
      exact answered_handleChunk h (hvalid hid) hid
        fun hopen => hread.last id (by rw [hname, hchunk]) hid hopen
    split
    · exact answered_handleEnd h (hvalid hid) hid
    · rw [hid]
      refine answered_say ?_
      rw [Json.dumps_object, List.all_append, Bool.and_eq_true]
      constructor
      · simp [hvalid hname, dumps_literal (s := "error") (by decide),
          dumps_literal (s := "unknown_event") (by decide)]
      · split
        · rfl
        · simp [hvalid hid]

/-! ### What is left alone -/

section Alone

variable {other : Bytes}

theorem get_put_ne (hother : sid ≠ other) :
    (w.put sid st).sessions.get other = w.sessions.get other :=
  Dictionary.get_put_of_ne hother.symm

theorem get_close_ne (hother : sid ≠ other) (lane : ℤ) (owned : List Bytes) :
    (w.close sid lane owned).sessions.get other = w.sessions.get other :=
  Dictionary.get_erase_of_ne hother.symm

theorem sessions_finalAnswer (cfg : Cfg) (w : Worker) (env : Env) (sid : Bytes) (st : Session) :
    (finalAnswer cfg w env sid st).1.sessions = w.sessions := by
  rcases finalAnswer_worker cfg w env sid st with hsame | hsame <;> rw [hsame]
  rfl

theorem get_handleEnd (hother : parsed.valueString "id" [] ≠ some other) :
    (handleEnd cfg w env parsed).worker.sessions.get other = w.sessions.get other := by
  unfold handleEnd
  split
  · rfl
  rename_i sid hid
  have hne : sid ≠ other := fun h => hother (hid.trans (congrArg some h))
  split
  · rw [say_worker]
  dsimp only
  split
  · split
    · split
      · rw [say_worker, get_close_ne hne, sessions_finalAnswer]
      · rw [say_worker, get_close_ne hne]
    · rw [say_worker, get_close_ne hne]
  · rw [say_worker, get_close_ne hne, sessions_finalAnswer]

theorem get_decodeChunk (hne : sid ≠ other) :
    (decodeChunk cfg w env sid st).worker.sessions.get other = w.sessions.get other := by
  unfold decodeChunk
  dsimp only
  split
  · rw [say_worker]
  split
  · split
    · rw [say_worker, get_put_ne hne]
      rfl
    · rw [say_worker]
      rfl
  · split <;> rw [say_worker] <;> rfl

theorem get_handleChunk (hother : parsed.valueString "id" [] ≠ some other) :
    (handleChunk cfg w env parsed).worker.sessions.get other = w.sessions.get other := by
  unfold handleChunk
  split
  · rfl
  rename_i sid hid
  have hne : sid ≠ other := fun h => hother (hid.trans (congrArg some h))
  split
  · rw [say_worker]
  dsimp only
  split
  · exact get_put_ne hne
  · rw [get_handleEnd hother]
    exact get_put_ne hne
  split
  · rw [get_decodeChunk hne]
    exact get_put_ne hne
  split
  · rw [say_worker]
    exact get_put_ne hne
  split
  · rw [get_decodeChunk hne, get_put_ne hne]
    exact get_put_ne hne
  · rw [say_worker]
    exact get_put_ne hne

theorem get_handleBegin (hother : parsed.valueString "id" [] ≠ some other) :
    (handleBegin cfg w env parsed).worker.sessions.get other = w.sessions.get other := by
  unfold handleBegin
  split
  · rfl
  rename_i sid hid
  have hne : sid ≠ other := fun h => hother (hid.trans (congrArg some h))
  split
  · rw [say_worker]
  split
  · rw [say_worker, get_put_ne hne]
  split
  · rw [say_worker]
  · rw [say_worker]
    exact get_put_ne hne

/-- **A line reaches no session but the one it names.** -/
theorem get_onJson (hother : parsed.valueString "id" [] ≠ some other) :
    (onJson cfg w env parsed).worker.sessions.get other = w.sessions.get other := by
  unfold onJson
  split
  · rw [say_worker]
  split
  · rfl
  split
  · exact get_handleBegin hother
  split
  · exact get_handleChunk hother
  split
  · exact get_handleEnd hother
  split
  · rfl
  · rw [say_worker]

end Alone

/-! ### The loop -/

/-- **Lines and answers.**  A line without characters is skipped.  Any other line is answered,
and no exception escapes, where its fields can be read and what comes from outside is
well-formed.  No line reaches a session that it does not name.  The reader makes well-formed
strings. -/
theorem lines_answered (cfg : Cfg) (parse : Bytes → Except Bytes Json)
    (hparse : ∀ line parsed, parse line = .ok parsed → parsed.dumps = true) (w : Worker)
    (env : Env) (line : Bytes) :
    (line = [] → onLine cfg parse w env line = ⟨w, [], false⟩) ∧
      (line ≠ [] → Fits parse w line → Surroundings cfg env →
        (onLine cfg parse w env line).Answered) ∧
      ∀ sid, names parse line ≠ some sid →
        (onLine cfg parse w env line).worker.sessions.get sid = w.sessions.get sid := by
  refine ⟨fun hline => if_pos hline, fun hline hfits h => ?_, fun sid hother => ?_⟩
  · rw [onLine, if_neg hline]
    unfold Fits at hfits
    cases hread : parse line with
    | error what =>
      rw [hread] at hfits
      refine answered_say ?_
      have hprefix : validUtf8 (ascii "json_parse_failed: ") = true := validUtf8_ascii (by decide)
      have hmessage := validUtf8_append hprefix hfits
      simp [Json.dumps_object, hmessage, dumps_literal (s := "error") (by decide)]
    | ok parsed =>
      rw [hread] at hfits
      exact answered_onJson h (hparse line parsed hread) hfits
  · unfold onLine
    unfold names at hother
    split
    · rfl
    split
    · rw [say_worker]
    · rename_i parsed hread
      rw [hread] at hother
      exact get_onJson hother

/-- A `begin` is read. -/
def readBegin : Bytes → Except Bytes Json := fun _ => .ok (lineOf "begin" [])

theorem surroundings_exampleCfg : Surroundings exampleCfg (answers (.made 0)) where
  ran := by
    intro item hitem
    rw [List.mem_singleton.mp hitem]
    decide
  conversion := by
    intro opened what h
    cases h
  tokenizer := by
    intro tok htok
    cases htok

theorem lines_answered_begin :
    (onLine exampleCfg readBegin .start (answers (.made 0))
      (ascii "\x7b\"event\":\"begin\",\"id\":\"s\"\x7d")).Answered := by
  refine (lines_answered exampleCfg readBegin ?_ .start _ _).2.1 (by decide) ?_
    surroundings_exampleCfg
  · intro line parsed hread
    cases hread
    rfl
  · exact fun _ => ⟨rfl, rfl, fun _ hchunk => absurd hchunk (by decide)⟩

/-- An event that is a number. -/
def readNumber : Bytes → Except Bytes Json := fun _ => .ok (.object [("event", .integer 5)])

/-- **Not every line is answered**: the line without characters is skipped, and an event that is
a number cannot be read. -/
theorem lines_unanswered :
    (onLine exampleCfg readNumber .start (answers (.made 0)) []).lines = [] ∧
      (onLine exampleCfg readNumber .start (answers (.made 0))
        (ascii "\x7b\"event\":5\x7d")).escaped = true :=
  ⟨rfl, rfl⟩

end AsrWorker
end OpenVoiceStream
