import OpenVoiceStream.Base.Value

/-!
# Session updates for cloud providers

The relay turns every canonical session object into a `session.update` of the provider, and
the provider merges it into its configuration.  The adapters put together what a canonical
object specifies and what it does not, with `None` for the latter, and strip every `None`
before the update is sent.  A field that is to be cleared, or turn detection that is to be
off, is stripped with it, and so is a null inside a tool.

## Main definitions

* `openAiSession`, `qwenSession` — the source's `session_update`.
* `Field`, `specified`, `given` — what a canonical object says of a field.
* `merged` — what a provider does with an update; `applied` — with many.
* `Carried` — a value that the adapter sends as it is given.

## Main results

* `withoutNone_of_nullFree` — a value without nulls is not stripped.
* `sent_eq` — what an update says of a field.
* `updates_faithful` — every sequence of canonical objects.
-/

namespace OpenVoiceStream.V2v.Provider

/-! ### The adapters -/

mutual

/-- `_without_none`. -/
def withoutNone : Value → Value
  | .dict items => .dict (withoutNoneItems items)
  | .list values => .list (withoutNoneAll values)
  | .none => .none
  | .bool b => .bool b
  | .int n => .int n
  | .float q => .float q
  | .str s => .str s

/-- `_without_none`, on the items of an object. -/
def withoutNoneItems : List (String × Value) → List (String × Value)
  | [] => []
  | item :: rest => withoutNoneItem item ++ withoutNoneItems rest

/-- An item stays, unless it is `None`. -/
def withoutNoneItem : String × Value → List (String × Value)
  | (_, .none) => []
  | (key, item) => [(key, withoutNone item)]

/-- `_without_none`, on the values of a list. -/
def withoutNoneAll : List Value → List Value
  | [] => []
  | value :: rest => withoutNone value :: withoutNoneAll rest

end

/-- The object under `key`, or an empty one. -/
def dictAt (d : Dict) (key : String) : Dict :=
  match d.lookup key with
  | some (.dict items) => items
  | _ => []

/-- `_audio_parts`: the input and the output. -/
def audioParts (session : Dict) : Dict × Dict :=
  (dictAt (dictAt session "audio") "input", dictAt (dictAt session "audio") "output")

/-- A tool without the execution policy. -/
def withoutPolicy (items : Dict) : Dict := items.filter fun item => decide (item.1 ≠ "x_v2v")

/-- The entries that are objects, without the execution policy. -/
def toolEntry : Value → Option Value
  | .dict items => some (.dict (withoutPolicy items))
  | _ => none

/-- `_provider_tools`; it raises where the value cannot be iterated. -/
def providerTools (tools : Value) : Option (List Value) :=
  match tools.or (.list []) with
  | .list entries => some (entries.filterMap toolEntry)
  -- the letters of a text and the keys of an object are texts
  | .str _ => some []
  | .dict _ => some []
  | _ => none

/-- The keys of turn detection that a provider knows. -/
def allowed : List String :=
  ["type", "threshold", "prefix_padding_ms", "silence_duration_ms", "create_response",
    "interrupt_response", "eagerness"]

/-- The items of turn detection that a provider knows. -/
def allowedItems (items : Dict) : Dict := items.filter fun item => decide (item.1 ∈ allowed)

/-- `turn.get("type") in (None, "none")`. -/
def disabled (items : Dict) : Bool :=
  match Dict.get items "type" with
  | .none => true
  | .str s => decide (s = "none")
  | _ => false

/-- `_provider_turn_detection`. -/
def providerTurnDetection (turn : Value) : Value :=
  match turn with
  | .dict items => if disabled items then .none else .dict (allowedItems items)
  | _ => .none

/-- The key with its value, if it is there. -/
def present (d : Dict) (key : String) : Dict := ((d.lookup key).map ((key, ·))).toList

/-- The tools of an update, with what precedes them. -/
def withTools (canonical : Dict) (session : Dict) : Option Dict :=
  match canonical.lookup "tools" with
  | none => some session
  | some tools => (providerTools tools).map fun entries => session ++ [("tools", .list entries)]

/-- The fields that OpenAI takes as they are, with the default type. -/
def openAiHead (canonical : Dict) : Dict :=
  ["type", "model", "output_modalities", "instructions"].flatMap (present canonical) ++
    if (canonical.lookup "type").isSome then [] else [("type", .str "realtime")]

/-- The transcription of an input, if it is an object and not empty. -/
def openAiTranscription (audioIn : Dict) : Dict :=
  match audioIn.get "transcription" with
  | .dict (item :: items) => [("transcription", .dict (item :: items))]
  | _ => []

/-- `session["audio"]["input"]`. -/
def openAiInput (audioIn : Dict) : Dict :=
  [("format", .dict [("type", .str "audio/pcm"), ("rate", .int 24000)]),
    ("turn_detection", providerTurnDetection (audioIn.get "turn_detection"))] ++
    openAiTranscription audioIn

/-- `session["audio"]["output"]`. -/
def openAiOutput (audioOut : Dict) : Dict :=
  [("format", .dict [("type", .str "audio/pcm")]), ("voice", audioOut.get "voice")]

/-- `session["audio"]`, where the canonical object has an `audio`. -/
def openAiAudio (canonical : Dict) : Dict :=
  if (canonical.lookup "audio").isSome then
    [("audio", .dict [("input", .dict (openAiInput (audioParts canonical).1)),
      ("output", .dict (openAiOutput (audioParts canonical).2))])]
  else []

/-- `OpenAIRealtimeAdapter.session_update`: the session of the update, or `none` where it
raises. -/
def openAiSession (canonical : Dict) : Option Value :=
  (withTools canonical (openAiHead canonical ++ openAiAudio canonical)).map
    fun session => withoutNone (.dict session)

/-- The modalities of Qwen. -/
def qwenModalities (canonical : Dict) : Dict :=
  if (canonical.lookup "output_modalities").isSome || (canonical.lookup "modalities").isSome then
    [("modalities", .list [.str "text", .str "audio"])]
  else []

/-- The audio of Qwen, at the top of the session. -/
def qwenAudio (canonical : Dict) : Dict :=
  if (canonical.lookup "audio").isSome then
    [("voice", (audioParts canonical).2.get "voice"), ("input_audio_format", .str "pcm"),
      ("output_audio_format", .str "pcm"),
      ("turn_detection", providerTurnDetection ((audioParts canonical).1.get "turn_detection")),
      ("input_audio_transcription", (audioParts canonical).1.get "transcription")]
  else []

/-- `QwenRealtimeAdapter.session_update`. -/
def qwenSession (canonical : Dict) : Option Value :=
  (withTools canonical
    (qwenModalities canonical ++ present canonical "instructions" ++ qwenAudio canonical)).map
    fun session => withoutNone (.dict session)

/-- The adapters. -/
inductive Adapter
  | openAi
  | qwen
  deriving DecidableEq, Repr

/-- `session_update`. -/
def Adapter.sessionUpdate : Adapter → Dict → Option Value
  | .openAi => openAiSession
  | .qwen => qwenSession

/-! ### What was specified -/

/-- The fields of a session that both sides have. -/
inductive Field
  | instructions
  | voice
  | transcription
  | tools
  | turnDetection
  deriving DecidableEq, Repr

/-- The value at a path. -/
def valueAt : List String → Value → Option Value
  | [], v => some v
  | key :: path, .dict items => (items.lookup key).bind (valueAt path)
  | _ :: _, _ => none

/-- Where a canonical object has a field. -/
def Field.path : Field → List String
  | .instructions => ["instructions"]
  | .voice => ["audio", "output", "voice"]
  | .transcription => ["audio", "input", "transcription"]
  | .tools => ["tools"]
  | .turnDetection => ["audio", "input", "turn_detection"]

/-- Where a provider has it. -/
def Adapter.path : Adapter → Field → List String
  | .openAi, f => f.path
  | .qwen, .instructions => ["instructions"]
  | .qwen, .voice => ["voice"]
  | .qwen, .transcription => ["input_audio_transcription"]
  | .qwen, .tools => ["tools"]
  | .qwen, .turnDetection => ["turn_detection"]

/-- What a canonical object says of a field, if it does. -/
def specified (canonical : Dict) (f : Field) : Option Value := valueAt f.path (.dict canonical)

/-- The configuration of a provider. -/
abbrev Config := Field → Value

/-- A tool without the execution policy. -/
def entryGiven : Value → Value
  | .dict items => .dict (withoutPolicy items)
  | other => other

/-- The value that was given: tools without the execution policy, and turn detection in the
keys that a provider knows, where type `none` turns it off. -/
def given : Field → Value → Value
  | .tools, .list entries => .list (entries.map entryGiven)
  | .turnDetection, .dict items =>
    if (Dict.get items "type").isText "none" then .none else .dict (allowedItems items)
  | _, v => v

/-- What a provider does with an update: a key that is there replaces its value. -/
def merged (p : Adapter) (config : Config) (update : Value) : Config :=
  fun f => (valueAt (p.path f) update).getD (config f)

/-- The configuration after the updates for these canonical objects, in their order. -/
def applied (p : Adapter) : Config → List Dict → Option Config
  | config, [] => some config
  | config, canonical :: rest =>
    (p.sessionUpdate canonical).bind fun update => applied p (merged p config update) rest

/-- The value that was given last. -/
def lastGiven (f : Field) : List Dict → Option Value
  | [] => none
  | canonical :: rest => (lastGiven f rest).or ((specified canonical f).map (given f))

/-! ### Values without nulls -/

mutual

/-- No object in the value has a null. -/
def nullFree : Value → Bool
  | .dict items => nullFreeItems items
  | .list values => nullFreeAll values
  | _ => true

/-- The items of an object. -/
def nullFreeItems : List (String × Value) → Bool
  | [] => true
  | item :: rest => nullFreeItem item && nullFreeItems rest

/-- An item of an object. -/
def nullFreeItem : String × Value → Bool
  | (_, .none) => false
  | (_, item) => nullFree item

/-- The values of a list. -/
def nullFreeAll : List Value → Bool
  | [] => true
  | value :: rest => nullFree value && nullFreeAll rest

end

mutual

/-- **A value without nulls is not stripped.** -/
theorem withoutNone_of_nullFree : ∀ {v : Value}, nullFree v = true → withoutNone v = v
  | .dict items, h => by
    rw [nullFree] at h
    rw [withoutNone, withoutNoneItems_of_nullFree h]
  | .list values, h => by
    rw [nullFree] at h
    rw [withoutNone, withoutNoneAll_of_nullFree h]
  | .none, _ => by rw [withoutNone]
  | .bool _, _ => by rw [withoutNone]
  | .int _, _ => by rw [withoutNone]
  | .float _, _ => by rw [withoutNone]
  | .str _, _ => by rw [withoutNone]

theorem withoutNoneItems_of_nullFree : ∀ {items : List (String × Value)},
    nullFreeItems items = true → withoutNoneItems items = items
  | [], _ => by rw [withoutNoneItems]
  | item :: rest, h => by
    rw [nullFreeItems, Bool.and_eq_true] at h
    rw [withoutNoneItems, withoutNoneItem_of_nullFree h.1, withoutNoneItems_of_nullFree h.2]
    rfl

theorem withoutNoneItem_of_nullFree : ∀ {item : String × Value},
    nullFreeItem item = true → withoutNoneItem item = [item]
  | (key, value), h => by
    cases value with
    | none => simp [nullFreeItem] at h
    | bool b => rw [withoutNoneItem, withoutNone]; simp
    | int n => rw [withoutNoneItem, withoutNone]; simp
    | float q => rw [withoutNoneItem, withoutNone]; simp
    | str s => rw [withoutNoneItem, withoutNone]; simp
    | list values =>
      have hvalue : nullFree (.list values) = true := by simpa [nullFreeItem] using h
      rw [withoutNoneItem, withoutNone_of_nullFree hvalue]
      simp
    | dict items =>
      have hvalue : nullFree (.dict items) = true := by simpa [nullFreeItem] using h
      rw [withoutNoneItem, withoutNone_of_nullFree hvalue]
      simp

theorem withoutNoneAll_of_nullFree : ∀ {values : List Value},
    nullFreeAll values = true → withoutNoneAll values = values
  | [], _ => by rw [withoutNoneAll]
  | value :: rest, h => by
    rw [nullFreeAll, Bool.and_eq_true] at h
    rw [withoutNoneAll, withoutNone_of_nullFree h.1, withoutNoneAll_of_nullFree h.2]

end

/-! ### What an update says -/

/-- What is left of a value under a key. -/
def strip : Value → Option Value
  | .none => none
  | v => some (withoutNone v)

theorem strip_of_nullFree {v : Value} (hv : v ≠ .none) (h : nullFree v = true) : strip v = some v := by
  cases v with
  | none => exact absurd rfl hv
  | bool b => rw [strip, withoutNone_of_nullFree h]; simp
  | int n => rw [strip, withoutNone_of_nullFree h]; simp
  | float q => rw [strip, withoutNone_of_nullFree h]; simp
  | str s => rw [strip, withoutNone_of_nullFree h]; simp
  | list values => rw [strip, withoutNone_of_nullFree h]; simp
  | dict items => rw [strip, withoutNone_of_nullFree h]; simp

theorem withoutNoneItem_eq (key : String) (v : Value) :
    withoutNoneItem (key, v) = ((strip v).map ((key, ·))).toList := by
  cases v <;> rw [withoutNoneItem] <;> simp [strip]

theorem withoutNoneItems_append (items more : List (String × Value)) :
    withoutNoneItems (items ++ more) = withoutNoneItems items ++ withoutNoneItems more := by
  induction items with
  | nil => rw [withoutNoneItems, List.nil_append, List.nil_append]
  | cons item rest ih =>
    rw [List.cons_append, withoutNoneItems, ih, withoutNoneItems, List.append_assoc]

/-- A key after the nulls are stripped, item by item. -/
theorem lookup_withoutNoneItems_cons (key other : String) (v : Value) (rest : List (String × Value)) :
    (withoutNoneItems ((other, v) :: rest)).lookup key =
      if key = other then (strip v).or ((withoutNoneItems rest).lookup key)
      else (withoutNoneItems rest).lookup key := by
  rw [withoutNoneItems, withoutNoneItem_eq, List.lookup_append]
  by_cases hkey : key = other
  · rw [if_pos hkey]
    cases strip v <;> simp [hkey]
  · have hbeq : (key == other) = false := beq_false_of_ne hkey
    rw [if_neg hkey]
    cases strip v <;> simp [List.lookup_cons, hbeq]

@[simp] theorem lookup_withoutNoneItems_nil (key : String) :
    (withoutNoneItems []).lookup key = none := by
  rw [withoutNoneItems]
  rfl

theorem lookup_present (d : Dict) (key other : String) :
    (withoutNoneItems (present d other)).lookup key =
      if key = other then (d.lookup other).bind strip else none := by
  unfold present
  cases d.lookup other with
  | none => simp
  | some v => simp [lookup_withoutNoneItems_cons]

/-- The value at a path of three keys. -/
theorem valueAt_three (d : Dict) (first second third : String) :
    valueAt [first, second, third] (.dict d) = (dictAt (dictAt d first) second).lookup third := by
  unfold dictAt
  cases hfirst : d.lookup first with
  | none => simp [valueAt, hfirst]
  | some v =>
    cases v with
    | dict items =>
      cases hsecond : items.lookup second with
      | none => simp [valueAt, hfirst, hsecond]
      | some w =>
        cases w with
        | dict more => cases hthird : more.lookup third <;> simp [valueAt, hfirst, hsecond, hthird]
        | _ => simp [valueAt, hfirst, hsecond]
    | _ => simp [valueAt, hfirst]

/-- The values that an adapter sends as they are given. -/
def Carried (p : Adapter) : Field → Value → Prop
  | .instructions, v | .voice, v => v ≠ .none ∧ nullFree v = true
  | .transcription, v =>
    v ≠ .none ∧ nullFree v = true ∧ (p = .openAi → ∃ item items, v = .dict (item :: items))
  | .tools, v =>
    ∃ entries, v = .list entries ∧
      ∀ entry ∈ entries, ∃ items, entry = .dict items ∧ nullFreeItems (withoutPolicy items) = true
  | .turnDetection, v =>
    ∃ items, v = .dict items ∧ disabled items = false ∧ nullFreeItems (allowedItems items) = true

/-- What a canonical object specifies is sent as it is given. -/
def Meets (p : Adapter) (canonical : Dict) : Prop :=
  ∀ f v, specified canonical f = some v → Carried p f v

/-- Tools that are carried. -/
theorem providerTools_of_carried {p : Adapter} {v : Value} (h : Carried p .tools v) :
    ∃ entries, providerTools v = some entries ∧ given .tools v = .list entries ∧
      nullFreeAll entries = true := by
  obtain ⟨entries, rfl, hall⟩ := h
  refine ⟨entries.map entryGiven, ?_, rfl, ?_⟩
  · have htruth : (Value.list entries).or (.list []) = .list entries := by
      cases entries <;> simp [Value.or, Value.truthy]
    rw [providerTools, htruth]
    refine congrArg some ?_
    induction entries with
    | nil => rfl
    | cons entry rest ih =>
      obtain ⟨items, rfl, -⟩ := hall entry List.mem_cons_self
      rw [List.filterMap_cons, List.map_cons,
        ih (fun other hother => hall other (List.mem_cons_of_mem _ hother)) ?_]
      · rfl
      · cases rest <;> simp [Value.or, Value.truthy]
  · induction entries with
    | nil => rw [List.map_nil, nullFreeAll]
    | cons entry rest ih =>
      obtain ⟨items, rfl, hfree⟩ := hall entry List.mem_cons_self
      rw [List.map_cons, nullFreeAll, Bool.and_eq_true]
      refine ⟨?_, ih fun other hother => hall other (List.mem_cons_of_mem _ hother)⟩
      rw [entryGiven, nullFree]
      exact hfree

/-- Turn detection that is carried. -/
theorem strip_turnDetection {p : Adapter} {v : Value} (h : Carried p .turnDetection v) :
    strip (providerTurnDetection v) = some (given .turnDetection v) := by
  obtain ⟨items, rfl, hon, hfree⟩ := h
  have hsent : providerTurnDetection (.dict items) = .dict (allowedItems items) := by
    rw [providerTurnDetection, if_neg (by rw [hon]; exact Bool.false_ne_true)]
  have hgiven : given .turnDetection (.dict items) = .dict (allowedItems items) := by
    rw [given]
    refine if_neg fun hnone => ?_
    rw [Value.isText_iff] at hnone
    rw [disabled, hnone] at hon
    simp at hon
  rw [hsent, hgiven]
  exact strip_of_nullFree (by simp) (by rw [nullFree]; exact hfree)

/-! ### One update -/

variable {p : Adapter} {canonical : Dict}

theorem Meets.tools (h : Meets p canonical) (session : Dict) :
    ∃ items, withTools canonical session = some (session ++ items) ∧
      (withoutNoneItems items).lookup "tools" = (canonical.lookup "tools").map (given .tools) ∧
      ∀ key ≠ "tools", (withoutNoneItems items).lookup key = none := by
  unfold withTools
  cases htools : canonical.lookup "tools" with
  | none => exact ⟨[], by simp, by simp, fun key _ => by simp⟩
  | some v =>
    obtain ⟨entries, hentries, hgiven, hfree⟩ :=
      providerTools_of_carried (h .tools v (by simp [specified, Field.path, valueAt, htools]))
    have hstrip : strip (.list entries) = some (.list entries) :=
      strip_of_nullFree (by simp) (by rw [nullFree]; exact hfree)
    refine ⟨[("tools", .list entries)], ?_, ?_, fun key hkey => ?_⟩
    · simp [hentries]
    · rw [lookup_withoutNoneItems_cons, if_pos rfl, hstrip, Option.some_or, Option.map_some, hgiven]
    · rw [lookup_withoutNoneItems_cons, if_neg hkey, lookup_withoutNoneItems_nil]

theorem Meets.instructions (h : Meets p canonical) :
    (canonical.lookup "instructions").bind strip = specified canonical .instructions := by
  have hpath : specified canonical .instructions = canonical.lookup "instructions" := by
    simp [specified, Field.path, valueAt]
  rw [hpath]
  cases hlookup : canonical.lookup "instructions" with
  | none => rfl
  | some v =>
    obtain ⟨hv, hfree⟩ := h .instructions v (hpath.trans hlookup)
    exact strip_of_nullFree hv hfree

theorem Meets.voice (h : Meets p canonical) :
    strip ((audioParts canonical).2.get "voice") = specified canonical .voice := by
  have hpath : specified canonical .voice = (audioParts canonical).2.lookup "voice" :=
    valueAt_three canonical "audio" "output" "voice"
  rw [hpath, Dict.get, Dict.getD]
  cases hlookup : (audioParts canonical).2.lookup "voice" with
  | none => rfl
  | some v =>
    obtain ⟨hv, hfree⟩ := h .voice v (hpath.trans hlookup)
    exact strip_of_nullFree hv hfree

theorem Meets.turnDetection (h : Meets p canonical) :
    strip (providerTurnDetection ((audioParts canonical).1.get "turn_detection")) =
      (specified canonical .turnDetection).map (given .turnDetection) := by
  have hpath : specified canonical .turnDetection =
      (audioParts canonical).1.lookup "turn_detection" :=
    valueAt_three canonical "audio" "input" "turn_detection"
  rw [hpath, Dict.get, Dict.getD]
  cases hlookup : (audioParts canonical).1.lookup "turn_detection" with
  | none => rfl
  | some v => exact strip_turnDetection (h .turnDetection v (hpath.trans hlookup))

theorem Meets.openAiTranscription (h : Meets .openAi canonical) :
    (withoutNoneItems (openAiTranscription (audioParts canonical).1)).lookup "transcription" =
      specified canonical .transcription := by
  have hpath : specified canonical .transcription =
      (audioParts canonical).1.lookup "transcription" :=
    valueAt_three canonical "audio" "input" "transcription"
  rw [hpath, Provider.openAiTranscription, Dict.get, Dict.getD]
  cases hlookup : (audioParts canonical).1.lookup "transcription" with
  | none => simp
  | some v =>
    obtain ⟨hv, hfree, hitems⟩ := h .transcription v (hpath.trans hlookup)
    obtain ⟨item, items, rfl⟩ := hitems rfl
    have hstrip := strip_of_nullFree hv hfree
    simp [lookup_withoutNoneItems_cons, hstrip]

theorem Meets.qwenTranscription (h : Meets .qwen canonical) :
    strip ((audioParts canonical).1.get "transcription") = specified canonical .transcription := by
  have hpath : specified canonical .transcription =
      (audioParts canonical).1.lookup "transcription" :=
    valueAt_three canonical "audio" "input" "transcription"
  rw [hpath, Dict.get, Dict.getD]
  cases hlookup : (audioParts canonical).1.lookup "transcription" with
  | none => rfl
  | some v =>
    obtain ⟨hv, hfree, -⟩ := h .transcription v (hpath.trans hlookup)
    exact strip_of_nullFree hv hfree

/-- Without an `audio` nothing is specified in it. -/
theorem specified_of_noAudio (h : ¬(canonical.lookup "audio").isSome) {f : Field}
    {path : List String} (hpath : f.path = "audio" :: path) : specified canonical f = none := by
  rw [specified, hpath, valueAt, Option.not_isSome_iff_eq_none.mp h, Option.bind_none]

/-- What OpenAI is told of the fields at the top. -/
theorem lookup_openAiHead (key : String) (hkey : key ≠ "type") :
    (withoutNoneItems (openAiHead canonical)).lookup key =
      if key ∈ ["model", "output_modalities", "instructions"] then (canonical.lookup key).bind strip
      else none := by
  have hdefault : (withoutNoneItems (if (canonical.lookup "type").isSome then []
      else [("type", .str "realtime")])).lookup key = none := by
    split
    · exact lookup_withoutNoneItems_nil key
    · rw [lookup_withoutNoneItems_cons, if_neg hkey, lookup_withoutNoneItems_nil]
  simp only [openAiHead, List.flatMap_cons, List.flatMap_nil, withoutNoneItems_append,
    List.lookup_append, lookup_present, hdefault, lookup_withoutNoneItems_nil, if_neg hkey]
  by_cases hmodel : key = "model"
  · simp [hmodel]
  by_cases hmodalities : key = "output_modalities"
  · simp [hmodalities]
  by_cases hinstructions : key = "instructions"
  · simp [hinstructions]
  simp [hmodel, hmodalities, hinstructions]

theorem lookup_openAiAudio (key : String) :
    (withoutNoneItems (openAiAudio canonical)).lookup key =
      if key = "audio" ∧ (canonical.lookup "audio").isSome then
        some (.dict [("input", .dict (withoutNoneItems (openAiInput (audioParts canonical).1))),
          ("output", .dict (withoutNoneItems (openAiOutput (audioParts canonical).2)))])
      else none := by
  unfold openAiAudio
  by_cases haudio : (canonical.lookup "audio").isSome
  · rw [if_pos haudio, lookup_withoutNoneItems_cons]
    by_cases hkey : key = "audio"
    · rw [if_pos hkey, if_pos ⟨hkey, haudio⟩]
      simp [strip, withoutNone, withoutNoneItems, withoutNoneItem]
    · rw [if_neg hkey, if_neg fun h => hkey h.1, lookup_withoutNoneItems_nil]
  · rw [if_neg haudio, if_neg fun h => haudio h.2, lookup_withoutNoneItems_nil]

theorem lookup_qwenModalities (key : String) (hkey : key ≠ "modalities") :
    (withoutNoneItems (qwenModalities canonical)).lookup key = none := by
  unfold qwenModalities
  split
  · rw [lookup_withoutNoneItems_cons, if_neg hkey, lookup_withoutNoneItems_nil]
  · exact lookup_withoutNoneItems_nil key

/-- What an adapter says of each field. -/
structure Sends (p : Adapter) (canonical : Dict) (update : Value) : Prop where
  sent : p.sessionUpdate canonical = some update
  fields : ∀ f, valueAt (p.path f) update = (specified canonical f).map (given f)

/-- The values that are sent unchanged are what was given. -/
theorem map_given_id {f : Field} (htools : f ≠ .tools) (hturn : f ≠ .turnDetection) (v : Option Value) :
    v.map (given f) = v := by
  cases f with
  | tools => exact absurd rfl htools
  | turnDetection => exact absurd rfl hturn
  | _ => cases v <;> simp [given]

/-- The input and the output of OpenAI. -/
theorem valueAt_input (input output : Value) (path : List String) :
    valueAt ("input" :: path) (.dict [("input", input), ("output", output)]) = valueAt path input := by
  rw [valueAt, List.lookup_cons_self, Option.bind_some]

theorem valueAt_output (input output : Value) (path : List String) :
    valueAt ("output" :: path) (.dict [("input", input), ("output", output)]) =
      valueAt path output := by
  rw [valueAt, List.lookup_cons, beq_false_of_ne (by decide), List.lookup_cons_self,
    Option.bind_some]

theorem valueAt_key (key : String) (items : List (String × Value)) :
    valueAt [key] (.dict items) = items.lookup key := by
  rw [valueAt]
  cases items.lookup key <;> rfl

theorem lookup_openAiTranscription (audioIn : Dict) (key : String) (hkey : key ≠ "transcription") :
    (withoutNoneItems (openAiTranscription audioIn)).lookup key = none := by
  unfold openAiTranscription
  split
  · rw [lookup_withoutNoneItems_cons, if_neg hkey, lookup_withoutNoneItems_nil]
  · exact lookup_withoutNoneItems_nil key

/-- What OpenAI is told under `audio`. -/
theorem Meets.openAiAudio (h : Meets .openAi canonical) (f : Field) (path : List String)
    (hpath : f.path = "audio" :: path) :
    ((withoutNoneItems (openAiAudio canonical)).lookup "audio").bind (valueAt path) =
      (specified canonical f).map (given f) := by
  rw [lookup_openAiAudio]
  by_cases haudio : (canonical.lookup "audio").isSome
  · rw [if_pos ⟨rfl, haudio⟩, Option.bind_some]
    cases f with
    | instructions => exact absurd hpath (by simp [Field.path])
    | tools => exact absurd hpath (by simp [Field.path])
    | voice =>
      cases hpath
      rw [valueAt_output, valueAt_key, map_given_id (by simp) (by simp), ← h.voice]
      simp [openAiOutput, lookup_withoutNoneItems_cons]
    | transcription =>
      cases hpath
      rw [valueAt_input, valueAt_key, map_given_id (by simp) (by simp), ← h.openAiTranscription]
      simp [openAiInput, lookup_withoutNoneItems_cons]
    | turnDetection =>
      cases hpath
      rw [valueAt_input, valueAt_key, ← h.turnDetection]
      simp [openAiInput, lookup_withoutNoneItems_cons, lookup_openAiTranscription]
  · rw [if_neg fun hboth => haudio hboth.2, specified_of_noAudio haudio hpath]
    rfl

theorem Meets.openAiSends (h : Meets .openAi canonical) : ∃ update, Sends .openAi canonical update := by
  obtain ⟨items, hsession, htools, hother⟩ :=
    h.tools (openAiHead canonical ++ Provider.openAiAudio canonical)
  refine ⟨withoutNone (.dict (openAiHead canonical ++ Provider.openAiAudio canonical ++ items)), ?_, ?_⟩
  · rw [Adapter.sessionUpdate, openAiSession, hsession, Option.map_some]
  intro f
  -- an update is looked up in the fields at the top, the audio and the tools
  have hlookup (key : String) (hkey : key ≠ "type") (path : List String) : valueAt (key :: path)
      (withoutNone (.dict (openAiHead canonical ++ Provider.openAiAudio canonical ++ items))) =
      (((if key ∈ ["model", "output_modalities", "instructions"] then
          (canonical.lookup key).bind strip else none).or
        ((withoutNoneItems (Provider.openAiAudio canonical)).lookup key)).or
          ((withoutNoneItems items).lookup key)).bind (valueAt path) := by
    rw [withoutNone, withoutNoneItems_append, withoutNoneItems_append, valueAt, List.lookup_append,
      List.lookup_append, lookup_openAiHead key hkey]
  have haudio (path : List String) (hpath : f.path = "audio" :: path) : valueAt f.path
      (withoutNone (.dict (openAiHead canonical ++ Provider.openAiAudio canonical ++ items))) =
      (specified canonical f).map (given f) := by
    rw [hpath, hlookup _ (by decide), hother _ (by decide), Option.or_none, ← h.openAiAudio f path hpath]
    rfl
  rw [Adapter.path]
  cases f with
  | instructions =>
    rw [map_given_id (by simp) (by simp), ← h.instructions, Field.path, hlookup _ (by decide),
      lookup_openAiAudio, hother _ (by decide)]
    simp [valueAt]
  | tools =>
    rw [Field.path, hlookup _ (by decide), lookup_openAiAudio, htools]
    simp [valueAt, specified, Field.path]
  | voice => exact haudio _ rfl
  | transcription => exact haudio _ rfl
  | turnDetection => exact haudio _ rfl

/-- What Qwen is told of its audio. -/
theorem Meets.qwenAudio (h : Meets .qwen canonical) (f : Field) (path : List String)
    (hpath : f.path = "audio" :: path) :
    ∃ key, Adapter.qwen.path f = [key] ∧ key ≠ "modalities" ∧ key ≠ "instructions" ∧ key ≠ "tools" ∧
      (withoutNoneItems (qwenAudio canonical)).lookup key = (specified canonical f).map (given f) := by
  unfold Provider.qwenAudio
  by_cases haudio : (canonical.lookup "audio").isSome
  · rw [if_pos haudio]
    cases f with
    | instructions => exact absurd hpath (by simp [Field.path])
    | tools => exact absurd hpath (by simp [Field.path])
    | voice =>
      refine ⟨"voice", rfl, by decide, by decide, by decide, ?_⟩
      rw [map_given_id (by simp) (by simp), ← h.voice]
      simp [lookup_withoutNoneItems_cons]
    | transcription =>
      refine ⟨"input_audio_transcription", rfl, by decide, by decide, by decide, ?_⟩
      rw [map_given_id (by simp) (by simp), ← h.qwenTranscription]
      simp [lookup_withoutNoneItems_cons]
    | turnDetection =>
      refine ⟨"turn_detection", rfl, by decide, by decide, by decide, ?_⟩
      rw [← h.turnDetection]
      simp [lookup_withoutNoneItems_cons]
  · rw [if_neg haudio, specified_of_noAudio haudio hpath]
    cases f with
    | instructions => exact absurd hpath (by simp [Field.path])
    | tools => exact absurd hpath (by simp [Field.path])
    | voice => exact ⟨"voice", rfl, by decide, by decide, by decide, by simp⟩
    | transcription =>
      exact ⟨"input_audio_transcription", rfl, by decide, by decide, by decide, by simp⟩
    | turnDetection => exact ⟨"turn_detection", rfl, by decide, by decide, by decide, by simp⟩

theorem lookup_qwenAudio (key : String) (hvoice : key ≠ "voice") (hin : key ≠ "input_audio_format")
    (hout : key ≠ "output_audio_format") (hturn : key ≠ "turn_detection")
    (htranscription : key ≠ "input_audio_transcription") :
    (withoutNoneItems (qwenAudio canonical)).lookup key = none := by
  unfold qwenAudio
  split
  · simp only [lookup_withoutNoneItems_cons, if_neg hvoice, if_neg hin, if_neg hout, if_neg hturn,
      if_neg htranscription, lookup_withoutNoneItems_nil]
  · exact lookup_withoutNoneItems_nil key

theorem Meets.qwenSends (h : Meets .qwen canonical) : ∃ update, Sends .qwen canonical update := by
  obtain ⟨items, hsession, htools, hother⟩ := h.tools
    (qwenModalities canonical ++ present canonical "instructions" ++ Provider.qwenAudio canonical)
  refine ⟨withoutNone (.dict (qwenModalities canonical ++ present canonical "instructions" ++
    Provider.qwenAudio canonical ++ items)), ?_, ?_⟩
  · rw [Adapter.sessionUpdate, qwenSession, hsession, Option.map_some]
  intro f
  have hlookup (key : String) (hkey : key ≠ "modalities") : valueAt [key]
      (withoutNone (.dict (qwenModalities canonical ++ present canonical "instructions" ++
        Provider.qwenAudio canonical ++ items))) =
      ((if key = "instructions" then (canonical.lookup "instructions").bind strip else none).or
        ((withoutNoneItems (Provider.qwenAudio canonical)).lookup key)).or
          ((withoutNoneItems items).lookup key) := by
    rw [withoutNone, withoutNoneItems_append, withoutNoneItems_append, withoutNoneItems_append,
      valueAt_key, List.lookup_append, List.lookup_append, List.lookup_append,
      lookup_qwenModalities key hkey, lookup_present, Option.none_or]
  have haudio (path : List String) (hpath : f.path = "audio" :: path) : valueAt (Adapter.qwen.path f)
      (withoutNone (.dict (qwenModalities canonical ++ present canonical "instructions" ++
        Provider.qwenAudio canonical ++ items))) = (specified canonical f).map (given f) := by
    obtain ⟨key, hkey, hmodalities, hinstructions, htool, hvalue⟩ := h.qwenAudio f path hpath
    rw [hkey, hlookup key hmodalities, if_neg hinstructions, Option.none_or, hvalue, hother key htool,
      Option.or_none]
  cases f with
  | instructions =>
    rw [map_given_id (by simp) (by simp), ← h.instructions, Adapter.path, hlookup _ (by decide),
      if_pos rfl, lookup_qwenAudio _ (by decide) (by decide) (by decide) (by decide) (by decide),
      hother _ (by decide), Option.or_none, Option.or_none]
  | tools =>
    rw [Adapter.path, hlookup _ (by decide), if_neg (by decide),
      lookup_qwenAudio _ (by decide) (by decide) (by decide) (by decide) (by decide), htools,
      specified, Field.path, valueAt_key]
    rfl
  | voice => exact haudio _ rfl
  | transcription => exact haudio _ rfl
  | turnDetection => exact haudio _ rfl

/-- **One update.** What is specified is sent as it is given, and nothing else is. -/
theorem sent_eq (h : Meets p canonical) : ∃ update, Sends p canonical update :=
  match p with
  | .openAi => Meets.openAiSends h
  | .qwen => Meets.qwenSends h

/-! ### Every sequence of canonical objects -/

/-- A field after an update. -/
theorem Sends.merged {update : Value} (h : Sends p canonical update) (config : Config) (f : Field) :
    merged p config update f = ((specified canonical f).map (given f)).getD (config f) := by
  rw [Provider.merged, h.fields f]

/-- **Session updates reach the provider faithfully.** After canonical objects that specify
only values which an adapter carries, every field has the value that was given last, or the
one of the fresh session. -/
theorem updates_faithful (p : Adapter) (config : Config) (sessions : List Dict)
    (h : ∀ canonical ∈ sessions, Meets p canonical) :
    applied p config sessions = some fun f => (lastGiven f sessions).getD (config f) := by
  induction sessions generalizing config with
  | nil => rfl
  | cons canonical rest ih =>
    obtain ⟨update, hsends⟩ := sent_eq (h canonical List.mem_cons_self)
    rw [applied, hsends.sent, Option.bind_some,
      ih _ fun other hother => h other (List.mem_cons_of_mem _ hother)]
    refine congrArg some (funext fun f => ?_)
    -- a later object decides before this one does
    rw [lastGiven, hsends.merged]
    cases lastGiven f rest with
    | none => rw [Option.none_or, Option.getD_none]
    | some v => rw [Option.some_or, Option.getD_some, Option.getD_some]

/-- A fresh session. -/
def fresh : Config
  | .turnDetection => .dict [("type", .str "server_vad")]
  | _ => .none

/-- A voice and server turn detection; then another voice, and a tool with a policy. -/
def carriedSessions : List Dict :=
  [[("type", .str "realtime"),
    ("audio", .dict
      [("input", .dict [("turn_detection",
        .dict [("type", .str "semantic_vad"), ("eagerness", .str "low"), ("seeed", .int 1)])]),
        ("output", .dict [("voice", .str "alloy")])])],
    [("audio", .dict [("output", .dict [("voice", .str "verse")])]),
      ("tools", .list [.dict [("name", .str "wave"), ("x_v2v", .none)]])]]

theorem carriedSessions_meet (p : Adapter) : ∀ canonical ∈ carriedSessions, Meets p canonical := by
  intro canonical hmem f v hv
  simp only [carriedSessions, List.mem_cons, List.not_mem_nil, or_false] at hmem
  rcases hmem with rfl | rfl <;> cases f <;> simp [specified, Field.path, valueAt, List.lookup_cons] at hv
  case inl.voice => subst hv; exact ⟨by simp, rfl⟩
  case inl.turnDetection => subst hv; exact ⟨_, rfl, rfl, rfl⟩
  case inr.voice => subst hv; exact ⟨by simp, rfl⟩
  case inr.tools =>
    subst hv
    refine ⟨_, rfl, fun entry hentry => ?_⟩
    rw [List.mem_singleton] at hentry
    exact ⟨_, hentry, rfl⟩

/-- The second object changes the voice and the tools, and leaves turn detection as it was. -/
theorem updates_faithful_carriedSessions :
    (applied .openAi fresh carriedSessions).map
        (fun config => (config .voice, config .turnDetection, config .tools)) =
      some (.str "verse", .dict [("type", .str "semantic_vad"), ("eagerness", .str "low")],
        .list [.dict [("name", .str "wave")]]) := by
  rw [updates_faithful .openAi fresh carriedSessions (carriedSessions_meet .openAi)]
  rfl

/-- Turn detection is turned off. -/
def quietSession : Dict :=
  [("audio", .dict [("input", .dict [("turn_detection", .dict [("type", .str "none")])])])]

/-- The null of disabled turn detection is stripped from the update, and the server keeps
detecting turns. -/
theorem quietSession_keeps_detection :
    lastGiven .turnDetection [quietSession] = some .none ∧
      (applied .openAi fresh [quietSession]).map (fun config => config .turnDetection) =
        some (.dict [("type", .str "server_vad")]) ∧
      (applied .qwen fresh [quietSession]).map (fun config => config .turnDetection) =
        some (.dict [("type", .str "server_vad")]) :=
  ⟨rfl, rfl, rfl⟩

end OpenVoiceStream.V2v.Provider
