import OpenVoiceStream.SparkVoices.Registry.Voices

/-!
# What is written is read back

A pair that a register writes passes every check that a listing, a load and the next
register make of it, and is read as the voice it was written for.

## Main definitions

* `Written` — what the readers look at in a pair.

## Main results

* `jsonName_inj`, `npzName_inj`, `jsonName_ne_npzName` — no two names of files coincide.
* `normaliseCompatibleModels_self` — normalised models are normalised.
* `written_profile`, `written_embedding` — the pairs that are written.
-/

namespace OpenVoiceStream.SparkVoices.Registry

open TtsSpeakers (strip canonicalModelId canonicalModelId_idem strip_strip)

/-! ### Names -/

variable {safe safe' : Text} {token : Token}

theorem jsonName_inj : jsonName safe = jsonName safe' ↔ safe = safe' :=
  List.append_left_inj jsonSuffix

theorem npzName_inj : npzName safe = npzName safe' ↔ safe = safe' :=
  List.append_left_inj npzSuffix

/-- The two suffixes end differently. -/
theorem jsonName_ne_npzName : jsonName safe ≠ npzName safe' := by
  intro h
  have hlast := congrArg List.getLast? h
  have hjson : jsonSuffix.getLast? = some 'n' := rfl
  have hnpz : npzSuffix.getLast? = some 'z' := rfl
  rw [jsonName, npzName, List.getLast?_append, List.getLast?_append, hjson, hnpz] at hlast
  exact absurd (Option.some.inj hlast) (by decide)

/-- A transaction directory ends in a hexadecimal digit or in the prefix. -/
theorem txDir_ne {suffix : Text} {c : Char} (hlast : suffix.getLast? = some c)
    (hc : c ∉ "0123456789abcdef-".toList) : txDir token ≠ safe ++ suffix := by
  intro h
  have hend := congrArg List.getLast? h
  rw [txDir, List.getLast?_append, List.getLast?_append, hlast] at hend
  rcases hdigits : token.digits.getLast? with _ | digit
  · rw [hdigits] at hend
    obtain rfl : '-' = c := Option.some.inj hend
    exact hc (by decide)
  · rw [hdigits] at hend
    obtain rfl : digit = c := Option.some.inj hend
    have hmem := List.all_eq_true.mp token.hex digit (List.mem_of_getLast? hdigits)
    have hhex : digit ∈ "0123456789abcdef".toList := by simpa using hmem
    refine hc ?_
    have hsub : "0123456789abcdef".toList ++ "-".toList = "0123456789abcdef-".toList := by decide
    rw [← hsub]
    exact List.mem_append_left _ hhex

theorem txDir_ne_jsonName : txDir token ≠ jsonName safe := txDir_ne (c := 'n') rfl (by decide)

theorem txDir_ne_npzName : txDir token ≠ npzName safe := txDir_ne (c := 'z') rfl (by decide)

/-! ### Objects -/

namespace Dict

variable (data : Dict) (key : String) {other : String} (value default : Value)

@[simp] theorem getD_put_self : Dict.getD (Assoc.put data key value) key default = value := by
  rw [Dict.getD, Assoc.lookup_put_self, Option.getD_some]

@[simp] theorem get_put_self : Dict.get (Assoc.put data key value) key = value :=
  getD_put_self data key value .none

variable {data key value default}

theorem getD_put_of_ne (h : other ≠ key) :
    Dict.getD (Assoc.put data key value) other default = data.getD other default := by
  rw [Dict.getD, Assoc.lookup_put_of_ne h, Dict.getD]

theorem get_put_of_ne (h : other ≠ key) :
    Dict.get (Assoc.put data key value) other = data.get other :=
  getD_put_of_ne h

end Dict

/-! ### Models -/

variable {env : Env} {model : String} {models out : List String}

/-- A canonical spelling of a model: the code reads it as it is. -/
def Canonical (model : String) : Prop := model ≠ "" ∧ canonicalModelId model = model

theorem Canonical.strip_ne (h : Canonical model) : strip model ≠ "" := by
  intro hblank
  have hempty : canonicalModelId model = canonicalModelId "" := by
    unfold canonicalModelId
    rw [hblank]
    rfl
  rw [h.2] at hempty
  exact h.1 (hempty.trans (by decide +kernel))

/-- A canonical spelling is read as it is. -/
theorem canonicalModel_str (h : Canonical model) (default : Option String) :
    canonicalModel env (.str model) default = some model := by
  have hblank : isBlank (.str model) = false := by simpa [isBlank] using h.strip_ne
  have hid : canonicalModelId (strip model) = model := by
    unfold canonicalModelId
    rw [strip_strip]
    exact h.2
  unfold canonicalModel
  rw [if_neg (by rw [hblank]; exact Bool.false_ne_true)]
  dsimp only [Env.str]
  rw [hid, if_neg h.1]

/-- What is read as a model is in its canonical spelling. -/
theorem canonical_of_canonicalModel {value : Value}
    (h : canonicalModel env value none = some model) : Canonical model := by
  rw [canonicalModel] at h
  by_cases hblank : isBlank value = true
  · rw [if_pos hblank] at h
    exact absurd h.symm (Option.some_ne_none model)
  · rw [if_neg hblank] at h
    by_cases hempty : canonicalModelId (strip (env.str value)) = ""
    · rw [if_pos hempty] at h
      exact absurd h.symm (Option.some_ne_none model)
    · rw [if_neg hempty] at h
      rw [← Option.some_inj.mp h]
      exact ⟨hempty, canonicalModelId_idem _⟩

/-- The models that have been collected are canonical, and none is there twice. -/
def Collected (out : List String) : Prop := out.Nodup ∧ ∀ model ∈ out, Canonical model

theorem Collected.add (h : Collected out) (hmodel : Canonical model) :
    Collected (if model ∈ out then out else out ++ [model]) := by
  split
  · exact h
  · next hnew =>
    refine ⟨h.1.append (List.nodup_singleton model) ?_, ?_⟩
    · intro other hother hin
      exact hnew (List.mem_singleton.mp hin ▸ hother)
    · intro other hother
      rcases List.mem_append.mp hother with hin | hin
      · exact h.2 other hin
      · exact List.mem_singleton.mp hin ▸ hmodel

/-- The loop keeps what it has collected in its place, and adds to it. -/
theorem normaliseFrom_spec {values : List Value} (hout : Collected out)
    (h : normaliseFrom env values out = .ok models) : Collected models ∧ out <+: models := by
  induction values generalizing out with
  | nil =>
    cases h
    exact ⟨hout, List.prefix_rfl⟩
  | cons value rest ih =>
    rw [normaliseFrom] at h
    split at h
    · cases h
    · next model hmodel =>
      obtain ⟨hmodels, hpre⟩ := ih (hout.add (canonical_of_canonicalModel hmodel)) h
      refine ⟨hmodels, List.IsPrefix.trans ?_ hpre⟩
      split
      · exact List.prefix_rfl
      · exact List.prefix_append out [model]

/-- The loop copies canonical models it has not met. -/
theorem normaliseFrom_self (h : Collected (out ++ models)) :
    normaliseFrom env (models.map Value.str) out = .ok (out ++ models) := by
  induction models generalizing out with
  | nil => rw [List.map_nil, normaliseFrom, List.append_nil]
  | cons model rest ih =>
    have hmodel : Canonical model :=
      h.2 model (List.mem_append_right _ List.mem_cons_self)
    have hnew : model ∉ out := fun hin =>
      List.disjoint_of_nodup_append h.1 hin List.mem_cons_self
    rw [List.map_cons, normaliseFrom, canonicalModel_str hmodel]
    dsimp only
    rw [if_neg hnew]
    have happ : out ++ model :: rest = (out ++ [model]) ++ rest := by simp
    rw [happ] at h ⊢
    exact ih h

/-- **Normalised models are normalised**, and the model itself is one of them. -/
theorem normaliseCompatibleModels_self (hmodel : Canonical model) {value : Value}
    (h : normaliseCompatibleModels env model value = .ok models) :
    normaliseCompatibleModels env model (ofModels (some models)) = .ok models ∧ model ∈ models := by
  have hfirst : ∀ values, normaliseFrom env (.str model :: values) [] =
      normaliseFrom env values [model] := by
    intro values
    rw [normaliseFrom, canonicalModel_str hmodel]
    rfl
  have hsingle : Collected [model] :=
    ⟨List.nodup_singleton model, fun other hother => List.mem_singleton.mp hother ▸ hmodel⟩
  have hspec : Collected models ∧ [model] <+: models := by
    unfold normaliseCompatibleModels at h
    split at h
    · rw [hfirst] at h
      exact normaliseFrom_spec hsingle h
    · rw [hfirst] at h
      exact normaliseFrom_spec hsingle h
    · cases h
  obtain ⟨hmodels, rest, rfl⟩ := hspec
  refine ⟨?_, List.mem_append_left _ List.mem_cons_self⟩
  have hlist : ofModels (some ([model] ++ rest)) = .list (([model] ++ rest).map Value.str) := rfl
  rw [hlist, normaliseCompatibleModels, List.singleton_append, List.map_cons, hfirst, normaliseFrom,
    canonicalModel_str hmodel]
  dsimp only
  rw [if_pos List.mem_cons_self]
  exact normaliseFrom_self hmodels

/-! ### Pairs -/

/-- What the readers look at in the pair of a voice. -/
structure Written (env : Env) (id : String) (v : Voice) (safe : Text) (data : Dict)
    (arrays : Arrays) : Prop where
  /-- The id. -/
  voiceId : data.get "voice_id" = .str id
  npzFile : data.lookup "npz_file" = some (.str (String.ofList (npzName safe)))
  /-- The two generations agree. -/
  tokens : ∃ token : Token, data.get "__pair_token" = .str token.str ∧
    npzPairToken arrays = some token.str
  metadata : ∀ d : Dir, npLoad d (npzName safe) = some arrays →
    profileMetadata env d data (npzName safe) = .ok (some v.metadata)
  entry : entryOf data safe v.metadata = v.entry id
  /-- The bytes, where the voice is one of bytes. -/
  embedding : v.profileType = embeddingProfileType →
    ∃ emb, arrays.get "speaker_embedding" = some emb ∧ emb.float32 = v.embedding
  member : v.modelId ∈ v.compatibleModels

variable {id : String} {v : Voice} {data : Dict} {arrays : Arrays} {d : Dir}

namespace Written

variable (h : Written env id v safe data arrays)

include h

theorem npzFile_getD (default : Value) :
    data.getD "npz_file" default = .str (String.ofList (npzName safe)) := by
  rw [Dict.getD, h.npzFile, Option.getD_some]

/-- The name of the other file, as the readers look it up. -/
theorem npzFile_or (default : Value) :
    (data.get "npz_file").or default = .str (String.ofList (npzName safe)) := by
  rw [Dict.get, h.npzFile_getD]
  have hne : String.ofList (npzName safe) ≠ "" := by
    intro hempty
    have hnil : npzName safe = [] := by
      rw [← String.toList_ofList (l := npzName safe), hempty]
      rfl
    exact absurd (List.append_eq_nil_iff.mp hnil).2 (by decide)
  rw [Value.or, if_pos]
  exact decide_eq_true hne

theorem pairTokenMatches (hload : npLoad d (npzName safe) = some arrays) :
    pairTokenMatches env d data (npzName safe) = true := by
  obtain ⟨token, hjson, hnpz⟩ := h.tokens
  have htoken : jsonPairToken env data = some token.str := by
    rw [jsonPairToken, hjson]
    rfl
  rw [Registry.pairTokenMatches, hload]
  dsimp only
  rw [htoken, hnpz]
  exact beq_self_eq_true _

end Written

/-- A stamped object, apart from its token. -/
theorem lookup_stampData {key : String} (h : key ≠ "__pair_token") :
    List.lookup key (stampData data token) = data.lookup key :=
  Assoc.lookup_put_of_ne h

theorem getD_stampData {key : String} (h : key ≠ "__pair_token") (default : Value) :
    Dict.getD (stampData data token) key default = data.getD key default :=
  Dict.getD_put_of_ne h

theorem get_stampData {key : String} (h : key ≠ "__pair_token") :
    (stampData data token).get key = data.get key :=
  Dict.get_put_of_ne h

/-- The arrays of a stamped pair. -/
theorem npzPairToken_stampArrays (arrays : Arrays) (token : Token) :
    npzPairToken (stampArrays env arrays token) = some token.str := by
  rw [npzPairToken, stampArrays, Dictionary.get_put_self, Option.map_some, env.text_asarray]

theorem get_stampArrays {key : String} (h : key ≠ "__pair_token") :
    (stampArrays env arrays token).get key = arrays.get key := by
  rw [stampArrays, Dictionary.get_put_of_ne h, Dictionary.get_erase_of_ne h]

/-- A profile with all its metadata, whose payload is one of its type, is read as what it
says. -/
theorem profileMetadata_eq {ptype : String}
    (hmodel : data.lookup "model_id" = some (.str model)) (hcanonical : Canonical model)
    (htype : data.lookup "profile_type" = some (.str ptype))
    (hptype : ptype = sparkProfileType ∨ ptype = embeddingProfileType)
    (hmodels : data.lookup "compatible_models" = some (ofModels (some models)))
    (hnormal : normaliseCompatibleModels env model (ofModels (some models)) = .ok models)
    (hmem : model ∈ models) {npath : Text}
    (hpayload : profilePayloadMatches d ptype npath = true) :
    profileMetadata env d data npath = .ok (some ⟨model, ptype, models, false⟩) := by
  have hm : data.get "model_id" = .str model := by rw [Dict.get, Dict.getD, hmodel, Option.getD_some]
  have ht : data.get "profile_type" = .str ptype := by
    rw [Dict.get, Dict.getD, htype, Option.getD_some]
  have hc : data.get "compatible_models" = ofModels (some models) := by
    rw [Dict.get, Dict.getD, hmodels, Option.getD_some]
  have hknown : ¬ (ptype ≠ sparkProfileType ∧ ptype ≠ embeddingProfileType) := by
    rintro ⟨hspark, hembedding⟩
    exact hptype.elim hspark hembedding
  unfold profileMetadata
  dsimp only
  rw [hmodel, htype, hmodels, if_pos ⟨rfl, rfl, rfl⟩, hm, canonicalModel_str hcanonical]
  dsimp only
  rw [ht]
  dsimp only
  rw [if_neg hknown, hpayload, hc, hnormal]
  dsimp only
  rw [if_pos hmem]
  rfl

theorem entryOf_eq (hid : data.get "voice_id" = .str id) (hne : id ≠ "")
    (hrate : data.getD "sample_rate" (.int 16000) = v.sampleRate)
    (hlen : data.getD "ref_semantic_len" (.int 0) = v.refSemanticLen)
    (hlen' : (data.get "ref_semantic_len").truthy = v.refSemanticLen.truthy)
    (htext : data.get "ref_text" = v.refText) (hmeta : data.get "source_meta" = v.sourceMeta) :
    entryOf data safe v.metadata = v.entry id := by
  have hvoice : (data.get "voice_id").or (.str (String.ofList safe)) = .str id := by
    rw [hid, Value.or, if_pos]
    exact decide_eq_true hne
  unfold entryOf Voice.entry
  rw [hvoice, hrate, hlen, hlen', htext, hmeta]
  rfl

/-- Nothing and a zero are alike as truth values. -/
theorem truthy_getD_zero (data : Dict) (key : String) :
    (data.get key).truthy = (data.getD key (.int 0)).truthy := by
  unfold Dict.get Dict.getD
  cases data.lookup key <;> rfl

/-- A profile that is accepted is the uploaded object with four keys written. -/
theorem profile_cases {u : ProfileUpload} {vid : Value} (h : u.profile env = .ok (vid, data)) :
    ∃ items incoming models, u.json = some (.dict items) ∧ vid.truthy = true ∧
      normaliseCompatibleModels env sparkModelId incoming = .ok models ∧
      data = Assoc.put (Assoc.put (Assoc.put (Assoc.put items "voice_id" vid)
        "model_id" (.str sparkModelId)) "profile_type" (.str sparkProfileType))
        "compatible_models" (ofModels (some models)) := by
  unfold ProfileUpload.profile at h
  split at h
  · cases h
  · next items hjson =>
    dsimp only at h
    split at h
    · cases h
    · next hvid =>
      split at h
      · cases h
      · next hmodel =>
        rw [not_not] at hmodel
        split at h
        · cases h
        · rw [hmodel] at h
          split at h
          · cases h
          · next models hmodels =>
            rw [Except.ok.injEq, Prod.mk.injEq] at h
            obtain ⟨rfl, rfl⟩ := h
            exact ⟨items, _, models, hjson, by simpa using hvid, hmodels, rfl⟩
  · cases h

/-- What a profile that is accepted says about itself. -/
theorem profile_spec {u : ProfileUpload} {vid : Value} (h : u.profile env = .ok (vid, data)) :
    vid.truthy = true ∧ data.get "voice_id" = vid ∧
      data.lookup "model_id" = some (.str sparkModelId) ∧
      data.lookup "profile_type" = some (.str sparkProfileType) ∧
      ∃ models, data.lookup "compatible_models" = some (ofModels (some models)) ∧
        normaliseCompatibleModels env sparkModelId (ofModels (some models)) = .ok models ∧
        sparkModelId ∈ models := by
  obtain ⟨items, incoming, models, -, hvid, hmodels, rfl⟩ := profile_cases h
  have hcanonical : Canonical sparkModelId := ⟨by decide, by decide +kernel⟩
  obtain ⟨hself, hmem⟩ := normaliseCompatibleModels_self hcanonical hmodels
  refine ⟨hvid, ?_, ?_, ?_, models, ?_, hself, hmem⟩
  · rw [Dict.get_put_of_ne (by decide), Dict.get_put_of_ne (by decide),
      Dict.get_put_of_ne (by decide), Dict.get_put_self]
  · rw [Assoc.lookup_put_of_ne (by decide), Assoc.lookup_put_of_ne (by decide),
      Assoc.lookup_put_self]
  · rw [Assoc.lookup_put_of_ne (by decide), Assoc.lookup_put_self]
  · exact Assoc.lookup_put_self _ _ _

theorem arrays_spec {u : ProfileUpload} (h : u.arrays = .ok arrays) : hasGlobalIds arrays = true := by
  unfold ProfileUpload.arrays at h
  split at h
  · cases h
  · split at h
    · cases h
    · next g hg =>
      split at h
      · cases h
      · next hsize =>
        rw [not_not] at hsize
        cases h
        rw [hasGlobalIds, Dictionary.get_erase_of_ne (by decide), hg, Option.map_some, hsize]
        rfl

/-- **The pair of an uploaded profile** is read as its voice. -/
theorem written_profile {u : ProfileUpload} (hprofile : u.profile env = .ok (.str id, data))
    (harrays : u.arrays = .ok arrays) (hvoice : u.voice env = some (id, v)) (token : Token) :
    Written env id v safe
      (stampData (Assoc.put data "npz_file" (.str (String.ofList (npzName safe)))) token)
      (stampArrays env arrays token) := by
  obtain ⟨htruthy, hid, hmodel, htype, models, hmodels, hself, hmem⟩ := profile_spec hprofile
  have hne : id ≠ "" := by simpa [Value.truthy] using htruthy
  have hv : v = {
      modelId := sparkModelId
      profileType := sparkProfileType
      compatibleModels := models
      sampleRate := data.getD "sample_rate" (.int 16000)
      refSemanticLen := data.getD "ref_semantic_len" (.int 0)
      refText := data.get "ref_text"
      sourceMeta := data.get "source_meta"
      embedding := none } := by
    have hget : data.get "compatible_models" = ofModels (some models) := by
      rw [Dict.get, Dict.getD, hmodels, Option.getD_some]
    unfold ProfileUpload.voice at hvoice
    rw [hprofile, harrays] at hvoice
    dsimp only at hvoice
    split at hvoice
    · exact absurd hvoice.symm (Option.some_ne_none _)
    · rw [hget, hself] at hvoice
      exact (Prod.mk.inj (Option.some_inj.mp hvoice)).2.symm
  have hget : ∀ {key}, key ≠ "__pair_token" → key ≠ "npz_file" →
      Dict.get (stampData (Assoc.put data "npz_file"
        (.str (String.ofList (npzName safe)))) token) key = data.get key :=
    fun htoken hnpz => (get_stampData htoken).trans (Dict.get_put_of_ne hnpz)
  subst hv
  constructor
  · rw [hget (by decide) (by decide), hid]
  · rw [stampData, Assoc.lookup_put_of_ne (by decide), Assoc.lookup_put_self]
  · exact ⟨token, Dict.get_put_self _ _ _, npzPairToken_stampArrays arrays token⟩
  · intro d hload
    have hpayload : profilePayloadMatches d sparkProfileType (npzName safe) = true := by
      rw [profilePayloadMatches, hload]
      dsimp only
      rw [if_pos rfl, hasGlobalIds, get_stampArrays (by decide)]
      exact arrays_spec harrays
    refine profileMetadata_eq ?_ ⟨by decide, by decide +kernel⟩ ?_ (.inl rfl) ?_
      hself hmem hpayload
    · rw [lookup_stampData (by decide), Assoc.lookup_put_of_ne (by decide), hmodel]
    · rw [lookup_stampData (by decide), Assoc.lookup_put_of_ne (by decide), htype]
    · rw [lookup_stampData (by decide), Assoc.lookup_put_of_ne (by decide), hmodels]
  · refine entryOf_eq ?_ hne ?_ ?_ ?_ ?_ ?_
    · rw [hget (by decide) (by decide), hid]
    · rw [getD_stampData (by decide), Dict.getD_put_of_ne (by decide)]
    · rw [getD_stampData (by decide), Dict.getD_put_of_ne (by decide)]
    · rw [hget (by decide) (by decide), truthy_getD_zero]
    · exact hget (by decide) (by decide)
    · exact hget (by decide) (by decide)
  · have hother : sparkProfileType ≠ embeddingProfileType := by decide
    exact fun h => absurd h hother
  · exact hmem

/-- The models of an embedding voice. -/
theorem voice_spec {u : EmbeddingUpload} (h : u.voice env = some (id, v)) :
    ∃ model models, (canonicalModel env (Value.ofId u.modelId) none).getD qwenBaseModelId = model ∧
      normaliseCompatibleModels env model (ofModels u.compatibleModels) = .ok models ∧
      Canonical model ∧ id = u.voiceId ∧ v = {
        modelId := model
        profileType := embeddingProfileType
        compatibleModels := models
        sampleRate := .int u.sampleRate
        refSemanticLen := .int 0
        refText := Value.ofId u.refText
        sourceMeta := (u.sourceMeta.map Value.dict).getD .none
        embedding := some u.embedding } := by
  have hcanonical : Canonical
      ((canonicalModel env (Value.ofId u.modelId) none).getD qwenBaseModelId) := by
    rcases hc : canonicalModel env (Value.ofId u.modelId) none with _ | model
    · rw [Option.getD_none]
      exact ⟨by decide, by decide +kernel⟩
    · rw [Option.getD_some]
      exact canonical_of_canonicalModel hc
  unfold EmbeddingUpload.voice at h
  split at h
  · exact absurd h.symm (Option.some_ne_none _)
  · dsimp only at h
    split at h
    · exact absurd h.symm (Option.some_ne_none _)
    · next models hmodels =>
      have heq := Prod.mk.inj (Option.some_inj.mp h)
      exact ⟨_, models, rfl, hmodels, hcanonical, heq.1.symm, heq.2.symm⟩

/-- **The pair of an embedding** is read as its voice. -/
theorem written_embedding {u : EmbeddingUpload} {model : String} {models : List String}
    (hne : u.voiceId ≠ "") (hcanonical : Canonical model)
    (hmodels : normaliseCompatibleModels env model (ofModels u.compatibleModels) = .ok models)
    (token : Token) :
    Written env u.voiceId {
        modelId := model
        profileType := embeddingProfileType
        compatibleModels := models
        sampleRate := .int u.sampleRate
        refSemanticLen := .int 0
        refText := Value.ofId u.refText
        sourceMeta := (u.sourceMeta.map Value.dict).getD .none
        embedding := some u.embedding } safe
      (stampData (u.data safe model models) token)
      (stampArrays env (Dictionary.ofPairs [("speaker_embedding", env.frombuffer u.embedding)])
        token) := by
  obtain ⟨hself, hmem⟩ := normaliseCompatibleModels_self hcanonical hmodels
  have hemb : (Dictionary.ofPairs [("speaker_embedding", env.frombuffer u.embedding)]).get
      "speaker_embedding" = some (env.frombuffer u.embedding) := by
    have hnodup : ([("speaker_embedding", env.frombuffer u.embedding)].map Prod.fst).Nodup :=
      List.nodup_singleton _
    rw [Dictionary.get_eq_some_iff, Dictionary.ofPairs_items hnodup]
    exact List.mem_cons_self
  constructor
  · exact get_stampData (by decide)
  · exact lookup_stampData (by decide)
  · exact ⟨token, Dict.get_put_self _ _ _, npzPairToken_stampArrays _ token⟩
  · intro d hload
    have hpayload : profilePayloadMatches d embeddingProfileType (npzName safe) = true := by
      rw [profilePayloadMatches, hload]
      dsimp only
      rw [if_neg (by decide), if_pos rfl, get_stampArrays (by decide), hemb]
      rfl
    exact profileMetadata_eq (lookup_stampData (by decide)) hcanonical
      (lookup_stampData (by decide)) (.inr rfl) (lookup_stampData (by decide)) hself hmem hpayload
  · refine entryOf_eq (get_stampData (by decide)) hne (getD_stampData (by decide) _)
      (getD_stampData (by decide) _) ?_ (get_stampData (by decide)) (get_stampData (by decide))
    rw [get_stampData (by decide)]
    rfl
  · intro _
    refine ⟨env.frombuffer u.embedding, ?_, env.float32_frombuffer _⟩
    rw [get_stampArrays (by decide), hemb]
  · exact hmem

end OpenVoiceStream.SparkVoices.Registry
