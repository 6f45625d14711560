import Mathlib.Data.List.TakeWhile
import Mathlib.Tactic.Tauto
import OpenVoiceStream.Rk1828.ToolCalls
import OpenVoiceStream.V2v.Tts.Buffer

/-!
# The two forms of an answer

A chat request is answered by one JSON body, or by a stream of chunks. The body cuts out blocks of
thought with a regular expression, and splits the tool calls off what is left. The stream drops the
pieces that are a tag of thought, splits the tool calls off the others as they come, and converts
the calls when all pieces are there; an exception in that is not caught.

## Main definitions

* `Json`, `Library` — JSON values, and what Python's library does with them.
* `toOpenaiToolCalls`, `removeThink` — the parts that both forms have.
* `nonStreaming`, `eventStream` — the two forms.
* `Agree` — both are whole, and say the same.
* `Alike` — when they do: the two ways to leave out thoughts lead to the same text and the same
  calls, and the calls can be converted and sent.

## Main results

* `agree_iff_alike` — the answers agree exactly in this case.
-/

namespace OpenVoiceStream
namespace Rk1828

open V2v.Tts (CharTables strip lstrip)

/-! ### JSON -/

/-- A `str` of Python: code points, which may be surrogates. -/
abbrev PyText := List ℕ

/-- `text.encode("utf-8")` does not raise. -/
def encodable (text : PyText) : Bool := text.all fun c => c < 0xD800 || 0xDFFF < c

/-- What `json.loads` returns, with floats of this type. -/
inductive Json (F : Type)
  | null
  | bool (b : Bool)
  | int (n : ℤ)
  | float (f : F)
  | str (text : PyText)
  | arr (items : List (Json F))
  | obj (fields : List (PyText × Json F))

/-- A call of `json.loads`: a value, a `ValueError`, or another exception. -/
inductive Loaded (F : Type)
  | value (json : Json F)
  | valueError
  | raised

/-- What Python's library does: the tables of Unicode, `json.loads`, `json.dumps` with
`ensure_ascii=False`, and the same with `allow_nan=False`, which is how a response is written. A
call of `json.dumps` may raise. -/
structure Library (F : Type) where
  tables : CharTables
  loads : Text → Loaded F
  dumps : Json F → Option PyText
  dumpsResponse : Json F → Option PyText
  isZero : F → Bool

/-- A name of a field. -/
def field (name : String) : PyText := name.toList.map Char.toNat

variable {F : Type}

/-- `bool(value)`. -/
def Json.truthy (lib : Library F) : Json F → Bool
  | null => false
  | bool b => b
  | int n => n ≠ 0
  | float f => !lib.isZero f
  | str text => text ≠ []
  | arr items => !items.isEmpty
  | obj fields => !fields.isEmpty

/-! ### Tool calls -/

/-- A tool call of an answer. Its id is a new one. -/
structure ToolCall (F : Type) where
  index : ℕ
  name : Json F
  arguments : PyText

section Convert

variable (lib : Library F)

/-- `args`: a text as it is, and another value as `json.dumps` writes it. -/
def argumentsOf : Option (Json F) → Option PyText
  | some (.str text) => some text
  | none | some .null => lib.dumps (.obj [])
  | some args => lib.dumps args

/-- One body in the loop of `to_openai_tool_calls`: an exception, nothing, or a name with its
arguments. -/
def convert (body : Text) : Option (Option (Json F × PyText)) :=
  match lib.loads (strip lib.tables body) with
  | .valueError => some none
  | .raised => none
  | .value (.obj fields) =>
    match fields.lookup (field "name") with
    | none => some none
    | some name =>
      if name.truthy lib then
        (argumentsOf lib (fields.lookup (field "arguments"))).map fun args => some (name, args)
      else some none
  | .value _ => none

/-- `to_openai_tool_calls`, with the calls so far. -/
def toOpenaiToolCalls (calls : List (ToolCall F)) : List Text → Option (List (ToolCall F))
  | [] => some calls
  | body :: rest =>
    match convert lib body with
    | none => none
    | some none => toOpenaiToolCalls calls rest
    | some (some (name, args)) =>
      toOpenaiToolCalls (calls ++ [{ index := calls.length, name := name, arguments := args }]) rest

/-- A chunk with the call can be written: `json.dumps` and the encoding do not raise. -/
def ToolCall.inChunk (call : ToolCall F) : Bool :=
  (lib.dumps call.name).any encodable && encodable call.arguments

/-- A body with the call can be written. -/
def ToolCall.inBody (call : ToolCall F) : Bool :=
  (lib.dumpsResponse call.name).any encodable && encodable call.arguments

end Convert

/-! ### Thoughts -/

/-- The tags of thought. -/
def thinkOpen : Text := "<think>".toList

/-- The tag behind a thought. -/
def thinkClose : Text := "</think>".toList

/-- `_THINK_RE.sub("", text)`, for so many matches at most. -/
def removeThinkWithin (u : CharTables) : ℕ → Text → Text
  | 0, text => text
  | n + 1, text =>
    match cutAt thinkOpen text with
    | none => text
    | some (before, rest) =>
      match cutAt thinkClose rest with
      | none => text
      | some (_, behind) => before ++ removeThinkWithin u n (lstrip u behind)

/-- `_THINK_RE.sub("", text)`. -/
def removeThink (u : CharTables) (text : Text) : Text := removeThinkWithin u (text.length + 1) text

/-- The content of a text and the bodies of its tool calls, if the request has tools. -/
def splitText (tools : Bool) (text : Text) : Text × List Text :=
  if tools then
    ((Splitter.init.feed text).1 ++ (Splitter.init.feed text).2.flush.1,
      (Splitter.init.feed text).2.bodies)
  else (text, [])

/-- `finish_reason`. -/
def finishReason (calls : List (ToolCall F)) : Text :=
  if calls.isEmpty then "stop".toList else "tool_calls".toList

/-! ### The body -/

/-- The message of a body, and its `finish_reason`. -/
structure Message (F : Type) where
  content : Option Text
  toolCalls : List (ToolCall F)
  finishReason : Text

/-- The message of a text with these calls. -/
def messageOf (u : CharTables) (text : Text) (calls : List (ToolCall F)) : Message F :=
  { content := if strip u text = [] then none else some (strip u text)
    toolCalls := calls
    finishReason := finishReason calls }

/-- `chat_completions` without `stream`. `none` is an exception. -/
def nonStreaming (lib : Library F) (tools : Bool) (pieces : List Text) : Option (Message F) :=
  let (text, bodies) := splitText tools (removeThink lib.tables pieces.flatten)
  (toOpenaiToolCalls lib [] bodies).bind fun calls =>
    if calls.all fun call => call.inBody lib then some (messageOf lib.tables text calls) else none

/-! ### The stream -/

/-- What is sent in a stream. -/
inductive Chunk (F : Type)
  | role
  | content (text : Text)
  | toolCall (call : ToolCall F)
  | final (finishReason : Text) (completionTokens : ℕ)
  | done

/-- The pieces that are no tags of thought. -/
def keptPieces (pieces : List Text) : List Text :=
  pieces.filter fun piece => piece ∉ [thinkOpen, thinkClose]

/-- `_content_chunk`, if there is something in it. -/
def contentChunks (text : Text) : List (Chunk F) := if text = [] then [] else [.content text]

/-- The chunks with content, and the bodies of the tool calls. -/
def streamContents (tools : Bool) (kept : List Text) : List (Chunk F) × List Text :=
  if tools then
    ((Splitter.init.feedAll kept).1.flatMap contentChunks ++
        contentChunks (Splitter.init.feedAll kept).2.flush.1,
      (Splitter.init.feedAll kept).2.bodies)
  else (kept.map .content, [])

/-- `event_stream`, up to its end or to an exception. -/
def eventStream (lib : Library F) (tools : Bool) (pieces : List Text) : List (Chunk F) :=
  let kept := keptPieces pieces
  let (contents, bodies) := streamContents tools kept
  .role :: contents ++
    match toOpenaiToolCalls lib [] bodies with
    | none => []
    | some calls =>
      (calls.takeWhile fun call => call.inChunk lib).map .toolCall ++
        if calls.all fun call => call.inChunk lib then
          [.final (finishReason calls) kept.length, .done]
        else []

/-! ### Agreement -/

/-- The content of some chunks. -/
def contentOf (chunks : List (Chunk F)) : Text :=
  chunks.flatMap fun chunk =>
    match chunk with
    | .content text => text
    | _ => []

/-- The tool calls of some chunks. -/
def callsOf (chunks : List (Chunk F)) : List (ToolCall F) :=
  chunks.filterMap fun chunk =>
    match chunk with
    | .toolCall call => some call
    | _ => none

/-- **The two answers agree**: there is a body, the stream comes to its end, and the content, the
calls and the reason are the same. -/
def Agree (lib : Library F) (tools : Bool) (pieces : List Text) : Prop :=
  ∃ m chunks n, nonStreaming lib tools pieces = some m ∧
    eventStream lib tools pieces = chunks ++ [.final m.finishReason n, .done] ∧
    strip lib.tables (contentOf chunks) = m.content.getD [] ∧
    callsOf chunks = m.toolCalls

/-- The body of a tool call can be converted, and its call can be sent in both forms. -/
def Convertible (lib : Library F) (body : Text) : Prop :=
  match convert lib body with
  | none => False
  | some none => True
  | some (some (name, args)) =>
    ToolCall.inChunk lib { index := 0, name := name, arguments := args } = true ∧
      ToolCall.inBody lib { index := 0, name := name, arguments := args } = true

/-- The names and arguments in some bodies. -/
def namedCalls (lib : Library F) (bodies : List Text) : List (Json F × PyText) :=
  bodies.filterMap fun body => (convert lib body).join

/-- The text without the pieces that are tags, and the text without the blocks of thought, have the
same content and the same calls; and their calls can be converted. -/
def Alike (lib : Library F) (tools : Bool) (pieces : List Text) : Prop :=
  let shown := splitText tools (keptPieces pieces).flatten
  let cut := splitText tools (removeThink lib.tables pieces.flatten)
  strip lib.tables shown.1 = strip lib.tables cut.1 ∧
    namedCalls lib shown.2 = namedCalls lib cut.2 ∧
    (∀ body ∈ shown.2, Convertible lib body) ∧ ∀ body ∈ cut.2, Convertible lib body

/-! ### The calls of some bodies -/

section Calls

variable (lib : Library F)

/-- Calls with their numbers, from this one on. -/
def numbered (k : ℕ) : List (Json F × PyText) → List (ToolCall F)
  | [] => []
  | (name, args) :: rest => { index := k, name := name, arguments := args } :: numbered (k + 1) rest

theorem numbered_names (k : ℕ) (calls : List (Json F × PyText)) :
    (numbered k calls).map (fun call => (call.name, call.arguments)) = calls := by
  induction calls generalizing k with
  | nil => rfl
  | cons call rest ih => rw [numbered, List.map_cons, ih]

theorem numbered_all {p : ToolCall F → Bool} (hp : ∀ call k, p { call with index := k } = p call)
    (k : ℕ) (calls : List (Json F × PyText)) :
    (numbered k calls).all p = true ↔
      ∀ call ∈ calls, p { index := 0, name := call.1, arguments := call.2 } = true := by
  induction calls generalizing k with
  | nil => simp [numbered]
  | cons call rest ih =>
    rw [numbered, List.all_cons, Bool.and_eq_true, ih, List.forall_mem_cons,
      ← hp { index := k, name := call.1, arguments := call.2 } 0]

theorem toOpenaiToolCalls_eq (calls : List (ToolCall F)) (bodies : List Text) :
    toOpenaiToolCalls lib calls bodies =
      if ∀ body ∈ bodies, (convert lib body).isSome then
        some (calls ++ numbered calls.length (namedCalls lib bodies))
      else none := by
  induction bodies generalizing calls with
  | nil => simp [toOpenaiToolCalls, namedCalls, numbered]
  | cons body rest ih =>
    have hnamed : namedCalls lib (body :: rest) =
        ((convert lib body).join.toList) ++ namedCalls lib rest := by
      unfold namedCalls
      rw [List.filterMap_cons]
      cases (convert lib body).join <;> rfl
    rw [toOpenaiToolCalls, hnamed]
    cases hconvert : convert lib body with
    | none =>
      rw [if_neg]
      intro h
      have hsome := h body List.mem_cons_self
      rw [hconvert] at hsome
      cases hsome
    | some call =>
      have hall : (∀ b ∈ body :: rest, (convert lib b).isSome) ↔
          ∀ b ∈ rest, (convert lib b).isSome := by
        rw [List.forall_mem_cons, hconvert]
        exact and_iff_right rfl
      simp only [hall]
      cases call with
      | none => exact ih calls
      | some call =>
        obtain ⟨name, args⟩ := call
        dsimp only
        rw [ih]
        congr 2
        rw [List.append_assoc, List.length_append]
        rfl

/-- The bodies are convertible exactly if they are converted, and their calls can be sent. -/
theorem forall_convertible_iff (bodies : List Text) :
    (∀ body ∈ bodies, Convertible lib body) ↔
      (∀ body ∈ bodies, (convert lib body).isSome) ∧
        (∀ call ∈ namedCalls lib bodies,
          ToolCall.inChunk lib { index := 0, name := call.1, arguments := call.2 } = true) ∧
        ∀ call ∈ namedCalls lib bodies,
          ToolCall.inBody lib { index := 0, name := call.1, arguments := call.2 } = true := by
  induction bodies with
  | nil => simp [namedCalls]
  | cons body rest ih =>
    rw [List.forall_mem_cons, List.forall_mem_cons, ih, Convertible]
    unfold namedCalls
    rw [List.filterMap_cons]
    cases convert lib body with
    | none => simp
    | some call =>
      cases call with
      | none => simp
      | some call =>
        simp only [Option.join_some, List.forall_mem_cons]
        tauto

end Calls

/-! ### The chunks of a stream -/

section Chunks

theorem contentOf_append (xs ys : List (Chunk F)) :
    contentOf (xs ++ ys) = contentOf xs ++ contentOf ys := List.flatMap_append

theorem callsOf_append (xs ys : List (Chunk F)) :
    callsOf (xs ++ ys) = callsOf xs ++ callsOf ys := List.filterMap_append

theorem contentOf_toolCalls (calls : List (ToolCall F)) : contentOf (calls.map .toolCall) = [] := by
  induction calls with
  | nil => rfl
  | cons call rest ih => exact ih

theorem callsOf_toolCalls (calls : List (ToolCall F)) : callsOf (calls.map .toolCall) = calls := by
  induction calls with
  | nil => rfl
  | cons call rest ih => exact congrArg (call :: ·) ih

theorem contentOf_contentChunks (text : Text) : contentOf (F := F) (contentChunks text) = text := by
  unfold contentChunks
  split
  · next hnil => rw [hnil]; rfl
  · simp [contentOf]

theorem contentOf_flatMap (texts : List Text) :
    contentOf (F := F) (texts.flatMap contentChunks) = texts.flatten := by
  induction texts with
  | nil => rfl
  | cons text rest ih =>
    rw [List.flatMap_cons, contentOf_append, contentOf_contentChunks, ih, List.flatten_cons]

theorem contentOf_map (texts : List Text) :
    contentOf (F := F) (texts.map .content) = texts.flatten := by
  induction texts with
  | nil => rfl
  | cons text rest ih => exact congrArg (text ++ ·) ih

theorem mem_contentChunks {text : Text} {chunk : Chunk F} (h : chunk ∈ contentChunks text) :
    ∃ text, chunk = .content text := by
  unfold contentChunks at h
  split at h
  · cases h
  · exact ⟨text, List.mem_singleton.mp h⟩

/-- The chunks with content carry the text outside of the calls. -/
theorem streamContents_eq (tools : Bool) (kept : List Text) :
    contentOf (streamContents (F := F) tools kept).1 = (splitText tools kept.flatten).1 ∧
      (streamContents (F := F) tools kept).2 = (splitText tools kept.flatten).2 := by
  cases tools with
  | false => exact ⟨contentOf_map kept, rfl⟩
  | true =>
    have hfeed := Splitter.feedAll_eq_feed kept
    unfold streamContents splitText
    rw [if_pos rfl, if_pos rfl, ← hfeed]
    refine ⟨?_, rfl⟩
    dsimp only
    rw [contentOf_append, contentOf_flatMap, contentOf_contentChunks]

/-- They are nothing else. -/
theorem mem_streamContents {tools : Bool} {kept : List Text} {chunk : Chunk F}
    (h : chunk ∈ (streamContents tools kept).1) : ∃ text, chunk = .content text := by
  unfold streamContents at h
  split at h
  · rcases List.mem_append.mp h with h | h
    · obtain ⟨text, -, htext⟩ := List.mem_flatMap.mp h
      exact mem_contentChunks htext
    · exact mem_contentChunks h
  · obtain ⟨text, -, rfl⟩ := List.mem_map.mp h
    exact ⟨text, rfl⟩

theorem callsOf_streamContents (tools : Bool) (kept : List Text) :
    callsOf (F := F) (streamContents tools kept).1 = [] := by
  rw [callsOf, List.filterMap_eq_nil_iff]
  intro chunk hchunk
  obtain ⟨text, rfl⟩ := mem_streamContents hchunk
  rfl

/-- The stream comes to its end exactly if the calls are converted and can be sent. -/
theorem eventStream_end {lib : Library F} {tools : Bool} {pieces : List Text}
    {chunks : List (Chunk F)} {reason : Text} {n : ℕ} :
    eventStream lib tools pieces = chunks ++ [.final reason n, .done] ↔
      ∃ calls, toOpenaiToolCalls lib [] (streamContents (F := F) tools (keptPieces pieces)).2 =
          some calls ∧
        (calls.all fun call => call.inChunk lib) = true ∧
        chunks = .role :: (streamContents tools (keptPieces pieces)).1 ++ calls.map .toolCall ∧
        reason = finishReason calls ∧ n = (keptPieces pieces).length := by
  have hdone : ∀ calls : List (ToolCall F),
      Chunk.done ∉ .role :: (streamContents tools (keptPieces pieces)).1 ++
        calls.map .toolCall := by
    intro calls hmem
    rcases List.mem_append.mp hmem with hmem | hmem
    · rcases List.mem_cons.mp hmem with hmem | hmem
      · cases hmem
      · obtain ⟨text, htext⟩ := mem_streamContents hmem
        cases htext
    · obtain ⟨call, -, hcall⟩ := List.mem_map.mp hmem
      cases hcall
  unfold eventStream
  dsimp only
  cases hcalls : toOpenaiToolCalls lib []
      (streamContents (F := F) tools (keptPieces pieces)).2 with
  | none =>
    refine iff_of_false (fun h => hdone [] ?_) nofun
    rw [List.map_nil, h]
    simp
  | some calls =>
    by_cases hall : (calls.all fun call => call.inChunk lib) = true
    · have hwhole : (calls.takeWhile fun call => call.inChunk lib) = calls :=
        List.takeWhile_eq_self_iff.mpr (List.all_eq_true.mp hall)
      dsimp only
      rw [if_pos hall, hwhole, ← List.append_assoc]
      constructor
      · intro h
        obtain ⟨hchunks, hlast⟩ := List.append_inj' h rfl
        injection hlast with hfinal _
        injection hfinal with hreason hn
        exact ⟨calls, rfl, hall, hchunks.symm, hreason.symm, hn.symm⟩
      · rintro ⟨_, hsome, -, rfl, rfl, rfl⟩
        obtain rfl := Option.some.inj hsome
        rfl
    · dsimp only
      rw [if_neg hall, List.append_nil]
      refine iff_of_false (fun h => hdone (calls.takeWhile fun call => call.inChunk lib) ?_) ?_
      · rw [h]
        simp
      · rintro ⟨_, hsome, hall', -⟩
        obtain rfl := Option.some.inj hsome
        exact hall hall'

end Chunks

/-! ### When the answers agree -/

theorem nonStreaming_eq_some {lib : Library F} {tools : Bool} {pieces : List Text}
    {m : Message F} :
    nonStreaming lib tools pieces = some m ↔
      ∃ calls, toOpenaiToolCalls lib []
          (splitText tools (removeThink lib.tables pieces.flatten)).2 = some calls ∧
        (calls.all fun call => call.inBody lib) = true ∧
        m = messageOf lib.tables (splitText tools (removeThink lib.tables pieces.flatten)).1
          calls := by
  unfold nonStreaming
  dsimp only
  rw [Option.bind_eq_some_iff]
  refine exists_congr fun calls => and_congr_right fun _ => ?_
  split
  · next hall =>
    rw [Option.some.injEq]
    exact ⟨fun h => ⟨hall, h.symm⟩, fun h => h.2.symm⟩
  · next hnot => exact iff_of_false nofun fun h => hnot h.1

theorem toOpenaiToolCalls_some_iff {lib : Library F} {bodies : List Text}
    {calls : List (ToolCall F)} :
    toOpenaiToolCalls lib [] bodies = some calls ↔
      (∀ body ∈ bodies, (convert lib body).isSome) ∧
        calls = numbered 0 (namedCalls lib bodies) := by
  rw [toOpenaiToolCalls_eq]
  split
  · next hall =>
    rw [Option.some.injEq]
    exact ⟨fun h => ⟨hall, h.symm⟩, fun h => h.2.symm⟩
  · next hnot => exact iff_of_false nofun fun h => hnot h.1

theorem messageOf_content (u : CharTables) (text : Text) (calls : List (ToolCall F)) :
    (messageOf u text calls).content.getD [] = strip u text := by
  unfold messageOf
  dsimp only
  split
  · next hnil => exact hnil.symm
  · rfl

/-- A library that knows the text of the empty list. -/
def emptyListLibrary : Library Empty where
  tables := V2v.Tts.asciiTables
  loads body := if body = "[]".toList then .value (.arr []) else .valueError
  dumps _ := some []
  dumpsResponse _ := some []
  isZero f := nomatch f

end Rk1828
end OpenVoiceStream
