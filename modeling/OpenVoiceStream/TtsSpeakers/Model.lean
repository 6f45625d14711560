import OpenVoiceStream.Base.Machine
import OpenVoiceStream.Base.Overlay
import OpenVoiceStream.TtsSpeakers.Presets
import Mathlib.Data.List.AList

/-!
# The speaker registry

The speakers of a model come from three layers: the built-in table, the file
`speakers.json` with what was registered at run time, and the overrides of an
environment variable that is read at start.  The composed tables are kept in a cache.

A lookup reads the cache under the canonical spelling of the model and fills it.
`registerSpeaker` and `unregisterSpeaker` read and write the file under the spelling
they are called with; the first one then throws the cached table away, the second one
takes the speaker out of it in place.

The file is modelled as what `json.load` makes of it, with the ids of a table as
numbers: the code writes an id as `str` prints it.  A writer holds the lock of the
file for the whole call, so calls are atomic here.

## Main definitions

* `Env` — what does not change while the process runs.
* `parseSpeakerEntry`, `rebuild` — a table from its three layers.
* `Registry` — the file and the cache.
* `loadSpeakerMap`, `speakerSpecForId`, `registerSpeaker`, `unregisterSpeaker` — the
  operations.
* `machine` — a process that works on the registry.
-/

namespace OpenVoiceStream.TtsSpeakers

/-! ### The environment of the process -/

/-- A speaker table. -/
abbrev Table := ℤ → Option SpeakerSpec

/-- What does not change while the process runs. -/
structure Env where
  /-- `_ENV_OVERRIDES`. -/
  overrides : Table
  /-- `OVS_TTS_ALLOW_UNMAPPED_SPEAKER_ID` is not switched off. -/
  allowUnmapped : Bool
  /-- `str(v)` of a value that is not a text. -/
  repr : Value → String
  /-- `base64.b64decode(text, validate=True)`, or `none` where it raises.  Which
  paddings it accepts differs between the versions of the library. -/
  b64decode : String → Option (List UInt8)
  b64decode_empty : b64decode "" = some []

/-- `str(v)`. -/
def Env.str (env : Env) : Value → String
  | .str s => s
  | v => env.repr v

/-- `text.lower()`, as far as a comparison with a lowercase ASCII word can tell. -/
def lower (text : String) : String := String.ofList (text.toList.map Char.toLower)

/-- The exceptions of the registry, with what their texts name. -/
inductive Err
  /-- The file cannot be updated safely. -/
  | unsafeUpdate
  /-- An embedding entry without an embedding. -/
  | missingEmbedding (sid : ℤ)
  | unsupportedType (sid : ℤ)
  | unknownSpeaker (sid : ℤ) (modelId : String)
  | payloadTooLarge (chars : ℕ)
  | invalidBase64
  /-- The bytes are no sequence of `float32`. -/
  | notFloats (bytes : ℕ)
  | emptyPayload
  | overwritePreset (sid : ℤ) (modelId : String)
  | unregisterPreset (sid : ℤ) (modelId : String)
  /-- Writing the file failed. -/
  | notSaved
  deriving DecidableEq

/-! ### The file -/

/-- The table of one model in the file. -/
abbrev Entries := AList fun _ : ℤ => Value

/-- `speakers.json`. -/
abbrev File := AList fun _ : String => Entries

/-- `data.get(model_id, {})`. -/
def entriesOf (file : File) (modelId : String) : Entries := (file.lookup modelId).getD ∅

/-- `file_data.setdefault(model_id, {})[str(speaker_id)] = entry`. -/
def putEntry (file : File) (modelId : String) (sid : ℤ) (entry : Value) : File :=
  file.insert modelId ((entriesOf file modelId).insert sid entry)

/-- `del data[model_id][str(speaker_id)]`, and the table with it if nothing is left. -/
def delEntry (file : File) (modelId : String) (sid : ℤ) : File :=
  let rest := (entriesOf file modelId).erase sid
  if rest.entries = [] then file.erase modelId else file.insert modelId rest

section Env

variable (env : Env)

/-- Reads one entry of a table. -/
def parseSpeakerEntry (sid : ℤ) : Value → Except Err SpeakerSpec
  | .dict items =>
    let value : Dict := items
    let typ := lower (strip (env.str (value.getD "type" (.str "preset"))))
    let label := env.str (value.getD "label" (value.getD "name" (.str "")))
    if typ = "embedding" then
      let payload := env.str ((((value.get "speaker_embedding_b64").or (value.get "payload")).or
        (value.get "embedding_b64")).or (.str ""))
      if payload = "" then .error (.missingEmbedding sid)
      else .ok { id := sid, type := .embedding, label := label, payload := payload,
                 metadata := value.get "meta" }
    else if typ = "intrinsic" then .ok (intrinsic sid label)
    else if typ ≠ "preset" then .error (.unsupportedType sid)
    else .ok (preset sid label (env.str (value.getD "speaker" (value.getD "name" (.str "")))))
  | value => .ok (preset sid (env.str value) (env.str value))

/-- The loop of `_load_file_speakers` over the entries of the model. -/
def loadFileSpeakers : List (Σ _ : ℤ, Value) → Table → Except Err Table
  | [], mapping => .ok mapping
  | ⟨sid, entry⟩ :: rest, mapping =>
    match parseSpeakerEntry env sid entry with
    | .error err => .error err
    | .ok spec => loadFileSpeakers rest (Function.update mapping sid (some spec))

/-- The table of a model from its layers: built-in speakers, then the file, then the
overrides. -/
def rebuild (file : File) (modelId : String) : Except Err Table :=
  match loadFileSpeakers env (entriesOf file modelId).entries (builtin modelId) with
  | .error err => .error err
  | .ok mapping => .ok (overlay mapping env.overrides)

/-- Every entry of the table can be read. -/
def Readable (entries : Entries) : Prop :=
  ∀ e ∈ entries.entries, (parseSpeakerEntry env e.1 e.2).toBool

instance (entries : Entries) : Decidable (Readable env entries) := List.decidableBAll _ _

/-- Reads the file before a change, and refuses one with an entry it cannot read. -/
def readSpeakerFileForUpdate (file : File) : Except Err File :=
  if ∀ m ∈ file.entries, Readable env m.2 then .ok file else .error .unsafeUpdate

end Env

/-! ### The operations -/

/-- The file and the cached tables. -/
structure Registry where
  file : File
  /-- `_cache`. -/
  cache : String → Option Table

namespace Registry

variable (env : Env) (r : Registry)

/-- The effective table of a model. -/
def loadSpeakerMap (modelId : String) : Except Err Table × Registry :=
  let mid := canonicalModelId modelId
  match r.cache mid with
  | some mapping => (.ok mapping, r)
  | none =>
    match rebuild env r.file mid with
    | .error err => (.error err, r)
    | .ok mapping => (.ok mapping, { r with cache := Function.update r.cache mid (some mapping) })

/-- `reload_speakers()`. -/
def reloadSpeakers : Registry := { r with cache := fun _ => none }

/-- Looks a single speaker up by id. -/
def speakerSpecForId (speakerId : Option ℤ) (modelId : String) :
    Except Err (Option SpeakerSpec) × Registry :=
  match speakerId with
  | none => (.ok none, r)
  | some speakerId =>
    let mid := canonicalModelId modelId
    let sid := selectorAliasId speakerId mid
    match r.loadSpeakerMap env mid with
    | (.error err, r) => (.error err, r)
    | (.ok mapping, r) =>
      match mapping sid with
      | some spec => (.ok (some spec), r)
      | none =>
        if env.allowUnmapped then (.ok (some (preset sid (toString sid) (toString sid))), r)
        else (.error (.unknownSpeaker sid mid), r)

end Registry

/-- The arguments of a registration, with the time it is made at and whether the file
can be written. -/
structure Registration where
  modelId : String
  payload : String
  label : String
  metadata : Dict
  speakerId : Option ℤ
  created : String
  saved : Bool

/-- Checks a base64 speaker embedding. -/
def validateEmbeddingPayload (env : Env) (payload : String) : Except Err Unit :=
  let maxBytes := 4 * 1024
  if maxBytes * 2 < payload.length then .error (.payloadTooLarge payload.length)
  else
    match env.b64decode payload with
    | none => .error .invalidBase64
    | some emb =>
      if emb.length % 4 ≠ 0 then .error (.notFloats emb.length)
      else if emb.length = 0 then .error .emptyPayload
      else .ok ()

/-- The ids a registration finds taken, under the spelling it is called with. -/
def existingIds (file : File) (modelId : String) : List ℤ :=
  (presets modelId).map SpeakerSpec.id ++ (entriesOf file modelId).keys

/-- `max(max(existing_ids, default=0) + 1, 10000)`. -/
def nextId (existing : List ℤ) : ℤ := max (existing.max?.getD 0 + 1) 10000

namespace Registration

/-- The id a registration takes if it succeeds. -/
def sid (call : Registration) (file : File) : ℤ :=
  call.speakerId.getD (nextId (existingIds file call.modelId))

/-- The speaker a registration makes. -/
def spec (call : Registration) (sid : ℤ) : SpeakerSpec :=
  { id := sid
    type := .embedding
    label := if call.label = "" then "voice-" ++ toString sid else call.label
    payload := call.payload
    metadata := .dict ((call.metadata.setdefault "model_id" (.str call.modelId)).setdefault
      "created" (.str call.created)) }

/-- What is written for it. -/
def entry (call : Registration) (sid : ℤ) : Value :=
  .dict [("type", .str "embedding"),
         ("label", .str (call.spec sid).label),
         ("speaker_embedding_b64", .str (call.spec sid).payload),
         ("meta", (call.spec sid).metadata)]

end Registration

namespace Registry

variable (env : Env) (r : Registry)

/-- The id a registration takes: a fresh one, or the one it asks for unless that id is
taken by a preset. -/
def chooseId (fileData : File) (modelId : String) (speakerId : Option ℤ) :
    Except Err ℤ × Registry :=
  let existing := existingIds fileData modelId
  match speakerId with
  | none => (.ok (nextId existing), r)
  | some sid =>
    if sid ∈ existing then
      match r.speakerSpecForId env (some sid) modelId with
      | (.error err, r) => (.error err, r)
      | (.ok (some spec), r) =>
        if spec.type = .preset then (.error (.overwritePreset sid modelId), r) else (.ok sid, r)
      | (.ok none, r) => (.ok sid, r)
    else (.ok sid, r)

/-- Registers an embedding and saves it to the file. -/
def registerSpeaker (call : Registration) : Except Err SpeakerSpec × Registry :=
  match validateEmbeddingPayload env call.payload with
  | .error err => (.error err, r)
  | .ok () =>
    match readSpeakerFileForUpdate env r.file with
    | .error err => (.error err, r)
    | .ok fileData =>
      match r.chooseId env fileData call.modelId call.speakerId with
      | (.error err, r) => (.error err, r)
      | (.ok sid, r) =>
        if call.saved then
          (.ok (call.spec sid),
            { file := putEntry fileData call.modelId sid (call.entry sid)
              cache := Function.update r.cache call.modelId none })
        else (.error .notSaved, r)

/-- Removes a registered speaker from the file, and from the cached table in place.
`false` says that there was none. -/
def unregisterSpeaker (modelId : String) (sid : ℤ) (saved : Bool) : Except Err Bool × Registry :=
  match readSpeakerFileForUpdate env r.file with
  | .error err => (.error err, r)
  | .ok data =>
    match (entriesOf data modelId).lookup sid with
    | some value =>
      match parseSpeakerEntry env sid value with
      | .error err => (.error err, r)
      | .ok entry =>
        if entry.type ≠ .embedding then (.error (.unregisterPreset sid modelId), r)
        else if saved then
          (.ok true,
            { file := delEntry data modelId sid
              cache := Function.update r.cache modelId
                ((r.cache modelId).map fun mapping => drop mapping sid) })
        else (.error .notSaved, r)
    | none =>
      if (builtin modelId sid).isSome then (.error (.unregisterPreset sid modelId), r)
      else (.ok false, r)

end Registry

/-! ### A process on the registry -/

/-- A call of the process. -/
inductive Call
  | register (call : Registration)
  | unregister (modelId : String) (sid : ℤ) (saved : Bool)
  | loadSpeakerMap (modelId : String)
  | speakerSpecForId (speakerId : Option ℤ) (modelId : String)
  | reload

/-- A registration that was tried, with the registry it found and its outcome. -/
structure Attempt where
  call : Registration
  before : Registry
  outcome : Except Err SpeakerSpec

/-- The registry, and the registration tried by the last call if it was one. -/
structure System where
  registry : Registry
  last : Option Attempt

namespace System

/-- The system after a call. -/
def perform (env : Env) (s : System) : Call → System
  | .register call =>
    let (outcome, registry) := s.registry.registerSpeaker env call
    { registry := registry
      last := some { call := call, before := s.registry, outcome := outcome } }
  | .unregister modelId sid saved =>
    { registry := (s.registry.unregisterSpeaker env modelId sid saved).2, last := none }
  | .loadSpeakerMap modelId =>
    { registry := (s.registry.loadSpeakerMap env modelId).2, last := none }
  | .speakerSpecForId speakerId modelId =>
    { registry := (s.registry.speakerSpecForId env speakerId modelId).2, last := none }
  | .reload => { registry := s.registry.reloadSpeakers, last := none }

/-- The process at its start, with the file it finds. -/
def start (file : File) : System :=
  { registry := { file := file, cache := fun _ => none }, last := none }

end System

/-- A process that works on the registry: every call can be made at any time. -/
def machine (env : Env) (file : File) : Machine System Call :=
  { init := System.start file, step := fun s call => some (s.perform env call) }

end OpenVoiceStream.TtsSpeakers
