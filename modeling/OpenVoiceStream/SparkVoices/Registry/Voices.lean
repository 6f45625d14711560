import OpenVoiceStream.SparkVoices.Registry.Model

/-!
# What the registry is for

The registry keeps one voice under each id. A register puts its voice in the place of the
one that was there, a delete takes it out. Two ids with one safe id cannot both be
registered, since their files would be the same: the call that comes second is refused.

A voice is what its register said, with the ids of the models in their canonical spelling.

## Main definitions

* `Voice`, `Voices` — a voice, and the voices by their ids.
* `ProfileUpload.voice`, `EmbeddingUpload.voice` — the voice an upload is about.
* `Voices.step`, `Voices.outcome` — what a call does to the voices, and what it returns.
* `Voices.after` — the voices after some calls.
-/

namespace OpenVoiceStream.SparkVoices.Registry

/-- A registered voice. Only a voice of the embedding type is asked for its bytes. -/
structure Voice where
  modelId : String
  profileType : String
  compatibleModels : List String
  sampleRate : Value
  refSemanticLen : Value
  refText : Value
  sourceMeta : Value
  embedding : Option (List UInt8)

namespace Voice

variable (v : Voice)

/-- Its metadata, none of which is inferred. -/
def metadata : Metadata := ⟨v.modelId, v.profileType, v.compatibleModels, false⟩

/-- Its entry in a listing. -/
def entry (id : String) : Entry where
  voiceId := .str id
  type := v.profileType
  profileType := v.profileType
  modelId := v.modelId
  compatibleModels := v.compatibleModels
  legacyMetadata := false
  sampleRate := v.sampleRate
  hasRefSemantic := v.refSemanticLen.truthy
  refSemanticLen := v.refSemanticLen
  refText := v.refText
  sourceMeta := v.sourceMeta

end Voice

/-- The registered voices. -/
abbrev Voices := Dictionary String Voice

/-- The safe id of an id that has one. -/
def safeText (id : String) : Option Text := (safeId (.str id)).toOption

/-- A listing passes the voice over: its file names begin with a dot. -/
def Hidden (id : String) : Prop := (safeText id).any (".".toList <+: ·) = true

instance (id : String) : Decidable (Hidden id) := inferInstanceAs (Decidable (_ = true))

inductive Call
  | profile (u : ProfileUpload)
  | embedding (u : EmbeddingUpload)
  | delete (id : String)
  | list (f : Filters)
  | load (id : String) (modelId : Option String)

section Env

variable (env : Env)

/-- A load for this model finds the bytes of the voice; for none, that of any model does. -/
def Voice.serves (v : Voice) (modelId : Option String) : Bool :=
  v.profileType == embeddingProfileType &&
    (canonicalModel env (Value.ofId modelId) none).all (· == v.modelId)

/-- The id and the voice of an upload of files, if nothing is wrong with them. -/
def ProfileUpload.voice (u : ProfileUpload) : Option (String × Voice) :=
  match u.profile env, u.arrays with
  | .ok (.str id, data), .ok arrays =>
    if (arrays.get "file").isSome ∨ (safeText id).isNone then none
    else
      match normaliseCompatibleModels env sparkModelId (data.get "compatible_models") with
      | .error _ => none
      | .ok models =>
        some (id, {
          modelId := sparkModelId
          profileType := sparkProfileType
          compatibleModels := models
          sampleRate := data.getD "sample_rate" (.int 16000)
          refSemanticLen := data.getD "ref_semantic_len" (.int 0)
          refText := data.get "ref_text"
          sourceMeta := data.get "source_meta"
          embedding := none })
  | _, _ => none

/-- The id and the voice of an embedding, if nothing is wrong with it. -/
def EmbeddingUpload.voice (u : EmbeddingUpload) : Option (String × Voice) :=
  if u.embedding = [] ∨ u.embedding.length % 4 ≠ 0 ∨ (safeText u.voiceId).isNone then none
  else
    let model := (canonicalModel env (Value.ofId u.modelId) none).getD qwenBaseModelId
    match normaliseCompatibleModels env model (ofModels u.compatibleModels) with
    | .error _ => none
    | .ok models =>
      some (u.voiceId, {
        modelId := model
        profileType := embeddingProfileType
        compatibleModels := models
        sampleRate := .int u.sampleRate
        refSemanticLen := .int 0
        refText := Value.ofId u.refText
        sourceMeta := (u.sourceMeta.map Value.dict).getD .none
        embedding := some u.embedding })

/-- The id and the voice a call registers. -/
def Call.voice : Call → Option (String × Voice)
  | .profile u => u.voice env
  | .embedding u => u.voice env
  | _ => none

end Env

namespace Voices

variable (m : Voices)

/-- A voice with another id has the same safe id. -/
def taken (id : String) : Bool :=
  m.items.any fun item => item.1 ≠ id ∧ safeText item.1 = safeText id

/-- An upload that is in order, and no other voice has its safe id; or a voice that is there
to be deleted. -/
def accepts (env : Env) (m : Voices) : Call → Bool
  | .delete id => (m.get id).isSome
  | call => (call.voice env).any fun item => !m.taken item.1

/-- A voice is registered under an id that is not taken. -/
def register (m : Voices) : Option (String × Voice) → Voices
  | some (id, v) => if m.taken id then m else m.put id v
  | none => m

variable {m} in
theorem register_of_free {id : String} {v : Voice} (h : m.taken id = false) :
    m.register (some (id, v)) = m.put id v :=
  if_neg (by rw [h]; exact Bool.false_ne_true)

variable {m} in
theorem register_of_taken {id : String} {v : Voice} (h : m.taken id = true) :
    m.register (some (id, v)) = m :=
  if_pos h

/-- The voices after a call. -/
def step (env : Env) (m : Voices) : Call → Voices
  | .delete id => m.erase id
  | call => m.register (call.voice env)

/-- The voices after some calls, of which each draws a token. -/
def after (env : Env) (calls : List (Call × Token)) : Voices :=
  calls.foldl (fun m call => m.step env call.1) Dictionary.empty

end Voices

/-- The directory after a call. -/
def step (env : Env) (d : Dir) : Call → Token → Dir
  | .profile u, token => (registerFromProfileFiles env d u token).1
  | .embedding u, token => (registerEmbeddingVoice env d u token).1
  | .delete id, token => (deleteVoice env d id token).1
  | .list f, _ => (listVoices env d f).1
  | .load id modelId, _ => (loadEmbeddingVoice env d id modelId).1

/-- The call registers its voice, or removes one. -/
def changes (env : Env) (d : Dir) : Call → Token → Bool
  | .profile u, token => (registerFromProfileFiles env d u token).2.isOk
  | .embedding u, token => (registerEmbeddingVoice env d u token).2.isOk
  | .delete id, token => (deleteVoice env d id token).2.toOption.getD false
  | _, _ => false

/-- The directory after some calls, from an empty one. -/
def after (env : Env) (calls : List (Call × Token)) : Dir :=
  calls.foldl (fun d call => step env d call.1 call.2) Dictionary.empty

end OpenVoiceStream.SparkVoices.Registry
