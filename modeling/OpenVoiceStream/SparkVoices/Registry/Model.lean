import OpenVoiceStream.Base.Assoc
import OpenVoiceStream.TtsSpeakers.Presets
import Mathlib.Data.List.Sort
import Mathlib.Data.Char
import Mathlib.Data.List.Infix
import Mathlib.Data.List.Lex

/-!
# The registry of clone voices

A clone voice is a pair of files in one directory, `<safe>.json` and `<safe>.npz`, where
`<safe>` is the id of the voice without blanks at its ends and with `_` for `:` and `/`.
The directory also holds transaction directories and their journals, whose names begin
with a prefix of their own. Every call holds the profile lock and recovers first, so calls
come one after the other here; what a crash inside a call can leave is the matter of the
transactions (`Txn`), and no operation on files fails here.

A file is modelled as what `json.load` or `np.load` makes of it. The names of the
directory are relative to it.

## Main definitions

* `Arr`, `Content`, `Node`, `Dir` — arrays, files, what stands under a name, the directory.
* `safeId`, `normaliseCompatibleModels`, `profileMetadata` — the readings of ids and metadata.
* `recover` — `_recover_transactions_unlocked`.
* `registerFromProfileFiles`, `registerEmbeddingVoice`, `deleteVoice`, `listVoices`,
  `loadEmbeddingVoice` — the calls.
-/

namespace OpenVoiceStream.SparkVoices.Registry

open TtsSpeakers (strip canonicalModelId)

/-- A name in the directory. -/
abbrev Text := List Char

/-- `secrets.token_hex(16)`. -/
structure Token where
  digits : Text
  hex : digits.all (· ∈ "0123456789abcdef".toList) = true

/-- The token as a text. -/
def Token.str (token : Token) : String := String.ofList token.digits

/-- An array: how many elements it has, its one element or itself as a text, and its
elements as `float32` bytes, where they are numbers. -/
structure Arr where
  size : ℕ
  text : String
  float32 : Option (List UInt8)

/-- The arrays of an `.npz` file. -/
abbrev Arrays := Dictionary String Arr

/-- What a file holds. -/
inductive Content
  | json (data : Dict)
  | npz (arrays : Arrays)
  | other

/-- What stands under a name. -/
inductive Node
  | file (content : Content)
  | dir

/-- The directory. -/
abbrev Dir := Dictionary Text Node

/-- The exceptions, with what their texts name. -/
inductive Err
  | notText
  | emptyId
  | nulId
  | noSafeId (id : String)
  | compatibleNotList
  | emptyModel
  | badJson
  | notObject
  | missingId
  | otherModel (model : String)
  | otherType (type : Value)
  | badNpz
  | missingGlobalIds
  | globalIdsSize (n : ℕ)
  | badEmbedding (bytes : ℕ)
  /-- `cannot register …: incomplete voice profile for safe id … already exists`. -/
  | incomplete (safe : Text)
  /-- `safe-id collision: … and … map to …`. -/
  | collision (existing : Value) (safe : Text)
  | outsideSafeId
  | halfWritten
  | badMetadata
  | legacyMetadata
  /-- A `TypeError` for a type that has no hash. -/
  | unhashable
  /-- A `TypeError` of `np.savez` for an array named like its own argument. -/
  | savezArgument
  | directoryExists

/-- What the calls ask of Python's `str`, of numpy and of the rest of
`_recover_transaction`, past its check that the transaction directory is there. -/
structure Env where
  /-- `os.path.abspath(voices_dir())`. -/
  root : String
  /-- `str(v)` of a value that is not a text. -/
  repr : Value → String
  /-- `np.asarray(token)`. -/
  asarray : String → Arr
  /-- `np.frombuffer(data, dtype=np.float32)` of so many whole numbers. -/
  frombuffer : List UInt8 → Arr
  /-- What recovery does about a journal whose directory is there. -/
  resume : Dict → Text → Dir → Dir
  text_asarray : ∀ token, (asarray token).text = token
  float32_frombuffer : ∀ bytes, (frombuffer bytes).float32 = some bytes

/-- `str(v)`. -/
def Env.str (env : Env) : Value → String
  | .str s => s
  | v => env.repr v

/-! ### Names -/

/-- `_TXN_PREFIX`. -/
def txnPrefix : Text := ".sparktts-txn-".toList

def jsonSuffix : Text := ".json".toList

def npzSuffix : Text := ".npz".toList

/-- `<safe>.json`. -/
def jsonName (safe : Text) : Text := safe ++ jsonSuffix

/-- `<safe>.npz`. -/
def npzName (safe : Text) : Text := safe ++ npzSuffix

/-- The first path of `_transaction_paths`. -/
def txDir (token : Token) : Text := txnPrefix ++ token.digits

/-- The second path of `_transaction_paths`. -/
def journalName (token : Token) : Text := jsonName (txDir token)

/-- `voice_id.replace(":", "_").replace("/", "_")`. -/
def replaceSeparators (id : Text) : Text := id.map fun c => if c = ':' ∨ c = '/' then '_' else c

/-- `_safe_id`. -/
def safeId : Value → Except Err Text
  | .str voiceId =>
    let id := (strip voiceId).toList
    if id = [] then .error .emptyId
    else if Char.ofNat 0 ∈ id then .error .nulId
    else
      let safe := replaceSeparators id
      if safe = [] ∨ safe = ".".toList ∨ safe = "..".toList ∨ "/".toList <+: safe then
        .error (.noSafeId (strip voiceId))
      else .ok safe
  | _ => .error .notText

/-! ### Metadata -/

/-- `SPARK_MODEL_ID`. -/
def sparkModelId : String := "sparktts-0p5b"

/-- `QWEN_BASE_MODEL_ID`. -/
def qwenBaseModelId : String := "qwen3-tts-0.6b-base"

/-- `SPARK_PROFILE_TYPE`. -/
def sparkProfileType : String := "voice_profile"

/-- `EMBEDDING_PROFILE_TYPE`. -/
def embeddingProfileType : String := "speaker_embedding"

section Env

variable (env : Env)

/-- Nothing, or a text of blanks. -/
def isBlank : Value → Bool
  | .none => true
  | .str s => strip s = ""
  | _ => false

/-- Nothing, or the type of a profile of this kind: `in (None, SPARK_PROFILE_TYPE)`. -/
def isBlankType : Value → Bool
  | .none => true
  | .str s => s = sparkProfileType
  | _ => false

/-- `v == w` of a value and a text. -/
def sameText : Value → Value → Bool
  | .str s, .str t => s = t
  | _, _ => false

/-- `_canonical_model_id`. -/
def canonicalModel (modelId : Value) (default : Option String) : Option String :=
  if isBlank modelId then default
  else
    let value := canonicalModelId (strip (env.str modelId))
    if value = "" then default else some value

/-- The loop of `_normalise_compatible_models`. -/
def normaliseFrom : List Value → List String → Except Err (List String)
  | [], out => .ok out
  | value :: rest, out =>
    match canonicalModel env value none with
    | none => .error .emptyModel
    | some canonical => normaliseFrom rest (if canonical ∈ out then out else out ++ [canonical])

/-- `_normalise_compatible_models`. -/
def normaliseCompatibleModels (modelId : String) (compatibleModels : Value) :
    Except Err (List String) :=
  match compatibleModels with
  | .none => normaliseFrom env [.str modelId] []
  | .list values => normaliseFrom env (.str modelId :: values) []
  | _ => .error .compatibleNotList

/-! ### Reading the directory -/

/-- `os.path.lexists`. -/
def present (d : Dir) (name : Text) : Bool := (d.get name).isSome

/-- `os.path.isfile`. -/
def isFile (d : Dir) (name : Text) : Bool :=
  match d.get name with
  | some (.file _) => true
  | _ => false

/-- `_load_json`. -/
def loadJson (d : Dir) (name : Text) : Option Dict :=
  match d.get name with
  | some (.file (.json data)) => some data
  | _ => none

/-- `np.load`, or nothing where it raises. -/
def npLoad (d : Dir) (name : Text) : Option Arrays :=
  match d.get name with
  | some (.file (.npz arrays)) => some arrays
  | _ => none

/-- `_json_pair_token`. -/
def jsonPairToken (data : Dict) : Option String :=
  match data.get "__pair_token" with
  | .none => none
  | token => some (env.str token)

/-- `_npz_pair_token`. -/
def npzPairToken (arrays : Arrays) : Option String := (arrays.get "__pair_token").map Arr.text

/-- `_pair_token_matches`. -/
def pairTokenMatches (d : Dir) (data : Dict) (npath : Text) : Bool :=
  match npLoad d npath with
  | none => false
  | some arrays =>
    match jsonPairToken env data, npzPairToken arrays with
    | none, none => true
    | some token, token' => some token == token'
    | none, some _ => false

/-- The `global_ids` are there, and they are 32. -/
def hasGlobalIds (arrays : Arrays) : Bool :=
  ((arrays.get "global_ids").map Arr.size) == some 32

/-- `_profile_payload_matches`. -/
def profilePayloadMatches (d : Dir) (profileType : String) (npath : Text) : Bool :=
  match npLoad d npath with
  | none => false
  | some arrays =>
    if profileType = sparkProfileType then hasGlobalIds arrays
    else if profileType = embeddingProfileType then
      (arrays.get "speaker_embedding").isSome || (arrays.get "d_vector").isSome
    else false

/-- What `_profile_metadata` returns: the model, the type, the compatible models, and
whether the profile is from before there was metadata. -/
structure Metadata where
  modelId : String
  profileType : String
  compatibleModels : List String
  legacy : Bool
  deriving DecidableEq

/-- `_profile_metadata`. -/
def profileMetadata (d : Dir) (data : Dict) (npath : Text) : Except Err (Option Metadata) :=
  let modelPresent := (data.lookup "model_id").isSome
  let typePresent := (data.lookup "profile_type").isSome
  let compatiblePresent := (data.lookup "compatible_models").isSome
  if modelPresent ∧ typePresent ∧ compatiblePresent then
    match canonicalModel env (data.get "model_id") none with
    | none => .ok none
    | some model =>
      match data.get "profile_type" with
      | .list _ => .error .unhashable
      | .dict _ => .error .unhashable
      | .str ptype =>
        if ptype ≠ sparkProfileType ∧ ptype ≠ embeddingProfileType then .ok none
        else if !profilePayloadMatches d ptype npath then .ok none
        else
          match normaliseCompatibleModels env model (data.get "compatible_models") with
          | .error _ => .ok none
          | .ok models => if model ∈ models then .ok (some ⟨model, ptype, models, false⟩) else .ok none
      | _ => .ok none
  else if modelPresent ∨ typePresent ∨ compatiblePresent then .ok none
  else
    match npLoad d npath with
    | none => .ok none
    | some arrays =>
      if hasGlobalIds arrays then .ok (some ⟨sparkModelId, sparkProfileType, [sparkModelId], true⟩)
      else .ok none

/-! ### Recovery -/

/-- The value equals `1`. -/
def isOne : Value → Bool
  | .int n => n == 1
  | .float q => q == 1
  | .bool b => b
  | _ => false

/-- The transaction directory a journal names. -/
def txName (data : Dict) : Text :=
  let token := env.str ((data.get "token").or (.str ""))
  (env.str ((data.get "tx_dir").or (.str (String.ofList txnPrefix ++ token)))).toList

/-- `_recover_transaction`. -/
def recoverTransaction (d : Dir) (journal : Text) : Dir :=
  match loadJson d journal with
  | none => d
  | some data =>
    if !isOne (data.get "schema_version") then d
    else if env.str ((data.get "token").or (.str "")) = "" ∨ ¬ txnPrefix <+: journal then d
    else
      let txname := txName env data
      -- `Path(tx_name).name != tx_name`, for a name that begins with the prefix
      if '/' ∈ txname ∨ ¬ txnPrefix <+: txname then d
      else
        match d.get txname with
        | some .dir => env.resume data journal d
        | _ => d

/-- `sorted(root.glob(".sparktts-txn-*.json"))`. -/
def journals (d : Dir) : List Text :=
  (d.items.map Prod.fst).filter (fun name => txnPrefix <+: name ∧ jsonSuffix <:+ name)
    |>.insertionSort (· ≤ ·)

/-- One turn of the loop over the transaction directories without a journal. -/
def removeOrphan (d : Dir) (name : Text) : Dir :=
  match d.get name with
  | some .dir =>
    if ¬ txnPrefix <+: name ∨ jsonSuffix <:+ name then d
    else if present d (jsonName name) then d
    else d.erase name
  | _ => d

/-- `_recover_transactions_unlocked`. -/
def recover (d : Dir) : Dir :=
  let d := (journals d).foldl (recoverTransaction env) d
  (d.items.map Prod.fst).foldl removeOrphan d

/-! ### Writing and removing a pair -/

/-- `_assert_safe_id_available`. -/
def assertSafeIdAvailable (d : Dir) (voiceId : Value) (safe : Text) : Except Err Unit :=
  let jpath := jsonName safe
  let npath := npzName safe
  if !present d jpath && !present d npath then .ok ()
  else if present d jpath ≠ present d npath then .error (.incomplete safe)
  else
    let existing := ((loadJson d jpath).map fun data => data.get "voice_id").getD .none
    if !sameText existing voiceId then .error (.collision existing safe)
    else
      match loadJson d jpath with
      | none => .error .outsideSafeId
      | some data =>
        if data = [] ∨ !(data.getD "npz_file" (.str (String.ofList npath))).isText (String.ofList npath)
        then .error .outsideSafeId
        else if !pairTokenMatches env d data npath then .error .halfWritten
        else
          match profileMetadata env d data npath with
          | .error e => .error e
          | .ok none => .error .badMetadata
          | .ok (some metadata) => if metadata.legacy then .error .legacyMetadata else .ok ()

/-- The journal of a transaction. -/
def journalData (operation : String) (token : Token) (jpath npath : Text) (oldPresent : Bool) :
    Dict :=
  [("schema_version", .int 1), ("operation", .str operation), ("token", .str token.str),
   ("tx_dir", .str (String.ofList (txDir token))),
   ("json_path", .str (env.root ++ "/" ++ String.ofList jpath)),
   ("npz_path", .str (env.root ++ "/" ++ String.ofList npath)), ("old_present", .bool oldPresent)]

/-- `_cleanup_transaction`. -/
def cleanupTransaction (d : Dir) (token : Token) : Dir :=
  (d.erase (txDir token)).erase (journalName token)

/-- The arrays as they are saved. -/
def stampArrays (arrays : Arrays) (token : Token) : Arrays :=
  (arrays.erase "__pair_token").put "__pair_token" (env.asarray token.str)

/-- The JSON object as it is saved. -/
def stampData (data : Dict) (token : Token) : Dict :=
  Assoc.put data "__pair_token" (.str token.str)

/-- `_atomic_write_pair`. -/
def atomicWritePair (d : Dir) (safe : Text) (data : Dict) (arrays : Arrays) (token : Token) :
    Dir × Except Err Unit :=
  if present d (txDir token) then (d, .error .directoryExists)
  else
    let oldPresent := isFile d (jsonName safe) && isFile d (npzName safe)
    let d := d.put (txDir token) .dir
    -- `np.savez(f, **npz_arrays)`: the directory is made by then, the journal is not
    if ((stampArrays env arrays token).get "file").isSome then (d, .error .savezArgument)
    else
      let journal := journalData env "write" token (jsonName safe) (npzName safe) oldPresent
      let d := d.put (journalName token) (.file (.json journal))
      let d := d.put (npzName safe) (.file (.npz (stampArrays env arrays token)))
      let d := d.put (jsonName safe) (.file (.json (stampData data token)))
      (cleanupTransaction d token, .ok ())

/-- `_atomic_delete_pair`. -/
def atomicDeletePair (d : Dir) (safe : Text) (token : Token) : Dir × Except Err Unit :=
  if present d (txDir token) then (d, .error .directoryExists)
  else
    let d := d.put (txDir token) .dir
    let journal := journalData env "delete" token (jsonName safe) (npzName safe) true
    let d := d.put (journalName token) (.file (.json journal))
    let d := (d.erase (jsonName safe)).erase (npzName safe)
    (cleanupTransaction d token, .ok ())

/-- What both registers do under the lock. -/
def publish (d : Dir) (voiceId : Value) (safe : Text) (data : Dict) (arrays : Arrays)
    (token : Token) : Dir × Except Err Unit :=
  let d := recover env d
  match assertSafeIdAvailable env d voiceId safe with
  | .error e => (d, .error e)
  | .ok () => atomicWritePair env d safe data arrays token

/-! ### The calls -/

/-- The arguments of `register_from_profile_files`: what `json.loads` and `np.load` make of
the two files, where they do not raise. -/
structure ProfileUpload where
  json : Option Value
  npz : Option Arrays
  voiceId : Option String
  modelId : Option String
  compatibleModels : Option (List String)

/-- `list[str] | None` as a value. -/
def ofModels : Option (List String) → Value
  | some models => .list (models.map Value.str)
  | none => .none

/-- The id and the JSON object of an upload, with its metadata made canonical. -/
def ProfileUpload.profile (u : ProfileUpload) : Except Err (Value × Dict) :=
  match u.json with
  | none => .error .badJson
  | some (.dict items) =>
    let data : Dict := items
    let vid := (Value.ofId u.voiceId).or (data.get "voice_id")
    if !vid.truthy then .error .missingId
    else
      let requested :=
        (canonicalModel env ((Value.ofId u.modelId).or (data.get "model_id")) none).getD sparkModelId
      if requested ≠ sparkModelId then .error (.otherModel requested)
      else if !isBlankType (data.get "profile_type") then .error (.otherType (data.get "profile_type"))
      else
        let incoming := if u.compatibleModels.isSome then ofModels u.compatibleModels
          else data.get "compatible_models"
        match normaliseCompatibleModels env requested incoming with
        | .error e => .error e
        | .ok models =>
          let data := Assoc.put data "voice_id" vid
          let data := Assoc.put data "model_id" (.str requested)
          let data := Assoc.put data "profile_type" (.str sparkProfileType)
          .ok (vid, Assoc.put data "compatible_models" (ofModels (some models)))
  | some _ => .error .notObject

/-- The arrays of an upload. -/
def ProfileUpload.arrays (u : ProfileUpload) : Except Err Arrays :=
  match u.npz with
  | none => .error .badNpz
  | some arrays =>
    match arrays.get "global_ids" with
    | none => .error .missingGlobalIds
    | some g =>
      if g.size ≠ 32 then .error (.globalIdsSize g.size) else .ok (arrays.erase "__pair_token")

/-- `register_from_profile_files`. -/
def registerFromProfileFiles (d : Dir) (u : ProfileUpload) (token : Token) :
    Dir × Except Err Unit :=
  match u.profile env with
  | .error e => (d, .error e)
  | .ok (vid, data) =>
    match u.arrays with
    | .error e => (d, .error e)
    | .ok arrays =>
      match safeId vid with
      | .error e => (d, .error e)
      | .ok safe =>
        let data := Assoc.put data "npz_file" (.str (String.ofList (npzName safe)))
        publish env d vid safe data arrays token

/-- The arguments of `register_embedding_voice`. -/
structure EmbeddingUpload where
  voiceId : String
  embedding : List UInt8
  sampleRate : ℤ
  refText : Option String
  sourceMeta : Option Dict
  modelId : Option String
  compatibleModels : Option (List String)

/-- The JSON object of an embedding voice. -/
def EmbeddingUpload.data (u : EmbeddingUpload) (safe : Text) (model : String)
    (models : List String) : Dict :=
  [("voice_id", .str u.voiceId), ("npz_file", .str (String.ofList (npzName safe))),
   ("profile_type", .str embeddingProfileType), ("model_id", .str model),
   ("compatible_models", ofModels (some models)),
   ("embedding_dim", .int (u.embedding.length / 4 : ℕ)), ("embedding_dtype", .str "float32"),
   ("sample_rate", .int u.sampleRate), ("ref_text", Value.ofId u.refText),
   ("source_meta", (u.sourceMeta.map Value.dict).getD .none)]

/-- `register_embedding_voice`. -/
def registerEmbeddingVoice (d : Dir) (u : EmbeddingUpload) (token : Token) :
    Dir × Except Err Unit :=
  if u.voiceId = "" then (d, .error .emptyId)
  -- `np.frombuffer` raises for a length that is no multiple of four
  else if u.embedding = [] ∨ u.embedding.length % 4 ≠ 0 then
    (d, .error (.badEmbedding u.embedding.length))
  else
    match safeId (.str u.voiceId) with
    | .error e => (d, .error e)
    | .ok safe =>
      let model := (canonicalModel env (Value.ofId u.modelId) none).getD qwenBaseModelId
      match normaliseCompatibleModels env model (ofModels u.compatibleModels) with
      | .error e => (d, .error e)
      | .ok models =>
        publish env d (.str u.voiceId) safe (u.data safe model models)
          (Dictionary.ofPairs [("speaker_embedding", env.frombuffer u.embedding)]) token

/-- `delete_voice`. -/
def deleteVoice (d : Dir) (voiceId : String) (token : Token) : Dir × Except Err Bool :=
  match safeId (.str voiceId) with
  | .error e => (d, .error e)
  | .ok safe =>
    let d := recover env d
    let jpath := jsonName safe
    let npath := npzName safe
    if !present d jpath && !present d npath then (d, .ok false)
    else if present d jpath ≠ present d npath then (d, .error (.incomplete safe))
    else
      let existing := ((loadJson d jpath).map fun data => data.get "voice_id").getD .none
      if !existing.isText voiceId then (d, .error (.collision existing safe))
      else
        match atomicDeletePair env d safe token with
        | (d, .ok ()) => (d, .ok true)
        | (d, .error e) => (d, .error e)

/-- The filters of `list_voices`. -/
structure Filters where
  modelId : Option String
  profileType : Option String
  compatibleModel : Option String

/-- One entry of `list_voices`. -/
structure Entry where
  voiceId : Value
  type : String
  profileType : String
  modelId : String
  compatibleModels : List String
  legacyMetadata : Bool
  sampleRate : Value
  hasRefSemantic : Bool
  refSemanticLen : Value
  refText : Value
  sourceMeta : Value

/-- The entry of a profile. -/
def entryOf (data : Dict) (safe : Text) (metadata : Metadata) : Entry where
  voiceId := (data.get "voice_id").or (.str (String.ofList safe))
  type := metadata.profileType
  profileType := metadata.profileType
  modelId := metadata.modelId
  compatibleModels := metadata.compatibleModels
  legacyMetadata := metadata.legacy
  sampleRate := data.getD "sample_rate" (.int 16000)
  hasRefSemantic := (data.get "ref_semantic_len").truthy
  refSemanticLen := data.getD "ref_semantic_len" (.int 0)
  refText := data.get "ref_text"
  sourceMeta := data.get "source_meta"

/-- Whether an entry passes the filters. -/
def Filters.keep (f : Filters) (metadata : Metadata) : Bool :=
  ((canonicalModel env (Value.ofId f.modelId) none).elim true (· == metadata.modelId)) &&
    (f.profileType.elim true fun type => type == "" || type == metadata.profileType) &&
    ((canonicalModel env (Value.ofId f.compatibleModel) none).elim true
      (· ∈ metadata.compatibleModels))

/-- One turn of the loop of `_list_from_disk`. -/
def listEntry (d : Dir) (f : Filters) (name : Text) : Except Err (Option Entry) :=
  if ".".toList <+: name ∨ ¬ jsonSuffix <:+ name then .ok none
  else
    match loadJson d name with
    | none => .ok none
    | some data =>
      let safe := name.take (name.length - jsonSuffix.length)
      match (data.get "npz_file").or (.str (String.ofList (npzName safe))) with
      | .str npzFile =>
        if '/' ∈ npzFile.toList then .ok none
        else if !pairTokenMatches env d data npzFile.toList then .ok none
        else
          match profileMetadata env d data npzFile.toList with
          | .error e => .error e
          | .ok none => .ok none
          | .ok (some metadata) =>
            if f.keep env metadata then .ok (some (entryOf data safe metadata)) else .ok none
      | _ => .ok none

/-- The loop of `_list_from_disk`. -/
def listFrom (d : Dir) (f : Filters) : List Text → Except Err (List Entry)
  | [] => .ok []
  | name :: rest =>
    match listEntry env d f name with
    | .error e => .error e
    | .ok entry =>
      match listFrom d f rest with
      | .error e => .error e
      | .ok out => .ok (entry.toList ++ out)

/-- `list_voices`. -/
def listVoices (d : Dir) (f : Filters) : Dir × Except Err (List Entry) :=
  let d := recover env d
  (d, listFrom env d f ((d.items.map Prod.fst).insertionSort (· ≤ ·)))

/-- `load_embedding_voice`. -/
def loadEmbeddingVoice (d : Dir) (voiceId : String) (modelId : Option String) :
    Dir × Except Err (Option (List UInt8)) :=
  if voiceId = "" then (d, .ok none)
  else
    let d := recover env d
    match safeId (.str voiceId) with
    | .error _ => (d, .ok none)
    | .ok safe =>
      let npath := npzName safe
      match loadJson d (jsonName safe) with
      | none => (d, .ok none)
      | some data =>
        if !(data.get "voice_id").isText voiceId then (d, .ok none)
        else
          match profileMetadata env d data npath with
          | .error e => (d, .error e)
          | .ok none => (d, .ok none)
          | .ok (some metadata) =>
            let requested := canonicalModel env (Value.ofId modelId) none
            if metadata.profileType ≠ embeddingProfileType then (d, .ok none)
            else if requested.any fun model => model ∉ metadata.compatibleModels then (d, .ok none)
            else if requested.any (· ≠ metadata.modelId) then (d, .ok none)
            else if !((data.get "npz_file").or (.str (String.ofList npath))).isText
                (String.ofList npath) then (d, .ok none)
            else if !pairTokenMatches env d data npath then (d, .ok none)
            else
              match npLoad d npath with
              | none => (d, .ok none)
              | some arrays =>
                match (arrays.get "speaker_embedding").or (arrays.get "d_vector") with
                | none => (d, .ok none)
                | some emb => (d, .ok emb.float32)

end Env

end OpenVoiceStream.SparkVoices.Registry
