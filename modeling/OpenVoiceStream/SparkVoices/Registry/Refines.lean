import OpenVoiceStream.SparkVoices.Registry.Holds

/-!
# The registry keeps its voices

Whatever calls are made, the directory holds the voices that were registered and not
deleted: a listing shows each of them once with what its register said, unless its file
names begin with a dot; a load finds the bytes of each of them, hidden or not; and a
register is refused where its upload is wrong or another id has its safe id, and in no
other case.

The tokens of the transactions are drawn at random. That no caller knows one beforehand is
the one assumption: no upload names the transaction directory of a token of the run.

## Main definitions

* `Call.Untold`, `Fresh` — a call, and the calls of a run, that name no token of the run.

## Main results

* `holds_after` — the directory holds the voices after every run.
* `listVoices_after`, `loadEmbeddingVoice_after`, `changes_after` — what the calls return.
-/

namespace OpenVoiceStream.SparkVoices.Registry

variable {env : Env} {tokens : List Token} {token : Token} {d : Dir} {m : Voices}
  {id : String} {v : Voice} {safe : Text} {data : Dict} {arrays : Arrays}

/-- The call names no transaction directory of these tokens, neither by its id nor in the
JSON object it uploads. -/
def Call.Untold (env : Env) (tokens : List Token) (call : Call) : Prop :=
  (∀ id v, call.voice env = some (id, v) → ∀ token ∈ tokens, safeText id ≠ some (txDir token)) ∧
    ∀ u data, call = .profile u → u.json = some (.dict data) →
      ∀ token ∈ tokens, txName env data ≠ txDir token

/-- No call names a token of the run. -/
def Fresh (env : Env) (calls : List (Call × Token)) : Prop :=
  ∀ call ∈ calls, call.1.Untold env (calls.map Prod.snd)

theorem safeId_of_safeText (h : safeText id = some safe) : safeId (.str id) = .ok safe := by
  unfold safeText at h
  rcases hsafe : safeId (.str id) with e | safe'
  · rw [hsafe] at h
    cases h
  · rw [hsafe] at h
    rw [Option.some_inj.mp h]

theorem safeText_of_safeId (h : safeId (.str id) = .ok safe) : safeText id = some safe := by
  unfold safeText
  rw [h]
  rfl

theorem safeText_of_error {e : Err} (h : safeId (.str id) = .error e) : safeText id = none := by
  unfold safeText
  rw [h]
  rfl

/-- A safe id is not empty, and is a name of one component. -/
theorem safeId_spec (h : safeText id = some safe) : safe ≠ [] ∧ '/' ∉ safe := by
  have hid := safeId_of_safeText h
  unfold safeId at hid
  dsimp only at hid
  split at hid
  · cases hid
  · split at hid
    · cases hid
    · split at hid
      · cases hid
      · next hcond =>
        rw [Except.ok.injEq] at hid
        subst hid
        rw [not_or] at hcond
        refine ⟨hcond.1, fun hmem => ?_⟩
        obtain ⟨c, -, hc⟩ := List.mem_map.mp hmem
        split at hc
        · exact absurd hc (by decide)
        · next hother => exact hother (.inr hc)

theorem safeText_empty : safeText "" = none := by decide +kernel

/-! ### Publishing a pair -/

namespace Holds

variable (h : Holds env tokens d m)

include h

/-- A pair whose safe id is taken is not written. -/
theorem publish_taken (hsafe : safeText id = some safe) (htaken : m.taken id = true)
    (data : Dict) (arrays : Arrays) (token : Token) :
    ∃ e, publish env d (.str id) safe data arrays token = (Registry.recover env d, .error e) := by
  unfold publish
  dsimp only
  rw [h.recover.1.assert_taken hsafe htaken]
  exact ⟨_, rfl⟩

/-- A pair that cannot be saved leaves its transaction directory. -/
theorem publish_file (hsafe : safeText id = some safe) (htaken : m.taken id = false)
    (hfile : (arrays.get "file").isSome = true) :
    publish env d (.str id) safe data arrays token =
      ((Registry.recover env d).put (txDir token) .dir, .error .savezArgument) := by
  obtain ⟨hholds, hclean⟩ := h.recover
  have hstamp : ((stampArrays env arrays token).get "file").isSome = true := by
    rw [get_stampArrays (by decide), hfile]
  unfold publish
  dsimp only
  rw [hholds.assert_free hsafe htaken]
  dsimp only
  unfold atomicWritePair
  rw [hholds.present_txDir hclean]
  dsimp only
  rw [if_neg Bool.false_ne_true, hstamp, if_pos rfl]

/-- Any other pair is the pair of its voice from then on. -/
theorem publish_ok (hsafe : safeText id = some safe) (hfile : arrays.get "file" = none)
    (htoken : token ∈ tokens) (hfree : ∀ token ∈ tokens, safe ≠ txDir token)
    (hquiet : Quiet env tokens (stampData data token))
    (hwritten : Written env id v safe (stampData data token) (stampArrays env arrays token)) :
    Holds env tokens (publish env d (.str id) safe data arrays token).1 (m.register (some (id, v))) ∧
      (publish env d (.str id) safe data arrays token).2.isOk = !m.taken id := by
  rcases htaken : m.taken id with _ | _
  · obtain ⟨hholds, hclean⟩ := h.recover
    obtain ⟨d', heq, hget⟩ :=
      hholds.atomicWritePair_ok data hclean htoken (hfree token htoken) hfile
    have hpublish : publish env d (.str id) safe data arrays token = (d', .ok ()) := by
      unfold publish
      dsimp only
      rw [hholds.assert_free hsafe htaken]
      exact heq
    rw [hpublish, Voices.register_of_free htaken]
    exact ⟨hholds.put_pair hsafe htaken hfree hquiet hwritten hget, rfl⟩
  · obtain ⟨e, heq⟩ := h.publish_taken hsafe htaken data arrays token
    rw [heq, Voices.register_of_taken htaken]
    exact ⟨h.recover.1, rfl⟩

end Holds

/-! ### What recovery reads in a stamped object -/

theorem txName_congr {data' : Dict} (htoken : data'.get "token" = data.get "token")
    (hdir : data'.get "tx_dir" = data.get "tx_dir") : txName env data' = txName env data := by
  unfold txName
  rw [htoken, hdir]

/-- The object of an upload names the transaction directory that was uploaded. -/
theorem txName_profile {u : ProfileUpload} {vid : Value} (h : u.profile env = .ok (vid, data)) :
    ∃ items, u.json = some (.dict items) ∧ txName env data = txName env items := by
  obtain ⟨items, incoming, models, hjson, -, -, rfl⟩ := profile_cases h
  refine ⟨items, hjson, txName_congr ?_ ?_⟩ <;>
    rw [Dict.get_put_of_ne (by decide), Dict.get_put_of_ne (by decide),
      Dict.get_put_of_ne (by decide), Dict.get_put_of_ne (by decide)]

/-! ### The calls -/

theorem profile_voice_some {u : ProfileUpload} (h : u.voice env = some (id, v)) :
    ∃ data arrays safe, u.profile env = .ok (.str id, data) ∧ u.arrays = .ok arrays ∧
      arrays.get "file" = none ∧ safeText id = some safe := by
  have hvoice := h
  unfold ProfileUpload.voice at h
  split at h
  · next id' data arrays hprofile harrays =>
    split at h
    · exact absurd h.symm (Option.some_ne_none _)
    · next hcond =>
      rw [not_or] at hcond
      split at h
      · exact absurd h.symm (Option.some_ne_none _)
      · obtain rfl := (Prod.mk.inj (Option.some_inj.mp h)).1
        obtain ⟨safe, hsafe⟩ := Option.ne_none_iff_exists'.mp fun hnone =>
          hcond.2 (Option.isNone_iff_eq_none.mpr hnone)
        exact ⟨data, arrays, safe, hprofile, harrays, by simpa using hcond.1, hsafe⟩
  · exact absurd h.symm (Option.some_ne_none _)

theorem profile_voice_none {u : ProfileUpload} (h : u.voice env = none)
    (hprofile : u.profile env = .ok (.str id, data)) (harrays : u.arrays = .ok arrays)
    (hsafe : safeText id = some safe) : (arrays.get "file").isSome = true := by
  obtain ⟨-, -, -, -, models, hmodels, hself, -⟩ := profile_spec hprofile
  have hget : data.get "compatible_models" = ofModels (some models) := by
    rw [Dict.get, Dict.getD, hmodels, Option.getD_some]
  unfold ProfileUpload.voice at h
  rw [hprofile, harrays] at h
  dsimp only at h
  split at h
  · next hcond =>
    rw [hsafe] at hcond
    simpa using hcond
  · rw [hget, hself] at h
    exact absurd h (Option.some_ne_none _)

namespace Holds

variable (h : Holds env tokens d m)

include h

/-- **An upload of files.** -/
theorem registerFromProfileFiles {u : ProfileUpload} (htoken : token ∈ tokens)
    (huntold : (Call.profile u).Untold env tokens) :
    Holds env tokens (Registry.registerFromProfileFiles env d u token).1 (m.step env (.profile u)) ∧
      (Registry.registerFromProfileFiles env d u token).2.isOk = m.accepts env (.profile u) := by
  have hstep : m.step env (.profile u) = m.register (u.voice env) := rfl
  have haccepts : m.accepts env (.profile u) = (u.voice env).any fun item => !m.taken item.1 := rfl
  rw [hstep, haccepts]
  unfold Registry.registerFromProfileFiles
  rcases hvoice : u.voice env with _ | ⟨id, v⟩
  · -- something is wrong with the upload
    dsimp only [Option.any_none]
    rcases hprofile : u.profile env with e | ⟨vid, data⟩
    · exact ⟨h, rfl⟩
    rcases harrays : u.arrays with e | arrays
    · exact ⟨h, rfl⟩
    dsimp only
    rcases hsafe : safeId vid with e | safe
    · exact ⟨h, rfl⟩
    obtain ⟨id, rfl⟩ : ∃ id, vid = .str id := by
      cases vid with
      | str id => exact ⟨id, rfl⟩
      | _ => cases hsafe
    have hsafe' := safeText_of_safeId hsafe
    have hfile := profile_voice_none hvoice hprofile harrays hsafe'
    dsimp only
    rcases htaken : m.taken id with _ | _
    · rw [h.publish_file hsafe' htaken hfile]
      exact ⟨h.recover.1.put_txDir htoken, rfl⟩
    · obtain ⟨e, heq⟩ := h.publish_taken hsafe' htaken (Assoc.put data "npz_file"
        (.str (String.ofList (npzName safe)))) arrays token
      rw [heq]
      exact ⟨h.recover.1, rfl⟩
  · obtain ⟨data, arrays, safe, hprofile, harrays, hfile, hsafe⟩ := profile_voice_some hvoice
    rw [hprofile, harrays]
    dsimp only
    rw [safeId_of_safeText hsafe]
    dsimp only
    obtain ⟨items, hjson, hname⟩ := txName_profile hprofile
    have hfree : ∀ token ∈ tokens, safe ≠ txDir token := by
      rintro token htoken rfl
      exact huntold.1 id v hvoice token htoken hsafe
    have hquiet : Quiet env tokens (stampData (Assoc.put data "npz_file"
        (.str (String.ofList (npzName safe)))) token) := by
      right
      intro token htoken
      rw [txName_congr (get_stampData (by decide)) (get_stampData (by decide)),
        txName_congr (Dict.get_put_of_ne (by decide)) (Dict.get_put_of_ne (by decide)), hname]
      exact huntold.2 u items rfl hjson token htoken
    exact h.publish_ok hsafe hfile htoken hfree hquiet
      (written_profile hprofile harrays hvoice token)

/-- **An embedding.** -/
theorem registerEmbeddingVoice {u : EmbeddingUpload} (htoken : token ∈ tokens)
    (huntold : (Call.embedding u).Untold env tokens) :
    Holds env tokens (Registry.registerEmbeddingVoice env d u token).1
        (m.step env (.embedding u)) ∧
      (Registry.registerEmbeddingVoice env d u token).2.isOk = m.accepts env (.embedding u) := by
  have hstep : m.step env (.embedding u) = m.register (u.voice env) := rfl
  have haccepts : m.accepts env (.embedding u) = (u.voice env).any fun item => !m.taken item.1 := rfl
  rw [hstep, haccepts]
  unfold Registry.registerEmbeddingVoice
  by_cases hempty : u.voiceId = ""
  · have hnone : u.voice env = none := by
      unfold EmbeddingUpload.voice
      rw [if_pos (.inr (.inr (by rw [hempty, safeText_empty]; rfl)))]
    rw [if_pos hempty, hnone]
    exact ⟨h, rfl⟩
  rw [if_neg hempty]
  by_cases hbytes : u.embedding = [] ∨ u.embedding.length % 4 ≠ 0
  · have hnone : u.voice env = none := by
      unfold EmbeddingUpload.voice
      rw [if_pos (by rcases hbytes with hb | hb; exacts [.inl hb, .inr (.inl hb)])]
    rw [if_pos hbytes, hnone]
    exact ⟨h, rfl⟩
  rw [if_neg hbytes]
  rcases hsafe : safeId (.str u.voiceId) with e | safe
  · have hnone : u.voice env = none := by
      unfold EmbeddingUpload.voice
      rw [if_pos (.inr (.inr (by rw [safeText_of_error hsafe]; rfl)))]
    rw [hnone]
    exact ⟨h, rfl⟩
  have hsafe' := safeText_of_safeId hsafe
  have hcond : ¬ (u.embedding = [] ∨ u.embedding.length % 4 ≠ 0 ∨ (safeText u.voiceId).isNone) := by
    rw [not_or] at hbytes
    rintro (hb | hb | hb)
    · exact hbytes.1 hb
    · exact hbytes.2 hb
    · rw [hsafe'] at hb
      cases hb
  dsimp only
  rcases hmodels : normaliseCompatibleModels env
      ((canonicalModel env (Value.ofId u.modelId) none).getD qwenBaseModelId)
      (ofModels u.compatibleModels) with e | models
  · have hnone : u.voice env = none := by
      unfold EmbeddingUpload.voice
      rw [if_neg hcond]
      dsimp only
      rw [hmodels]
    rw [hnone]
    exact ⟨h, rfl⟩
  rcases hvoice : u.voice env with _ | ⟨id, v⟩
  · unfold EmbeddingUpload.voice at hvoice
    rw [if_neg hcond] at hvoice
    dsimp only at hvoice
    rw [hmodels] at hvoice
    exact absurd hvoice (Option.some_ne_none _)
  obtain ⟨model, models', hmodel, hmodels', hcanonical, rfl, rfl⟩ := voice_spec hvoice
  rw [hmodel] at hmodels ⊢
  obtain rfl : models' = models := Except.ok.inj (hmodels'.symm.trans hmodels)
  dsimp only
  have hfree : ∀ token ∈ tokens, safe ≠ txDir token := by
    rintro token htoken rfl
    exact huntold.1 _ _ hvoice token htoken hsafe'
  -- there is no token in the object of an embedding
  have hquiet : Quiet env tokens (stampData (u.data safe model models') token) := by
    left
    rw [get_stampData (by decide)]
    rfl
  have hfile : (Dictionary.ofPairs [("speaker_embedding", env.frombuffer u.embedding)]).get
      "file" = none :=
    Dictionary.get_ofPairs_eq_none (by simp)
  exact h.publish_ok hsafe' hfile htoken hfree hquiet
    (written_embedding hempty hcanonical hmodels' token)

omit h in
theorem erase_of_none (hid : m.get id = none) : m.erase id = m := by
  refine Dictionary.ext ?_
  exact Assoc.erase_of_notMem (Dictionary.get_eq_none_iff.mp hid)

/-- No voice is registered without a safe id. -/
theorem get_eq_none (hsafe : safeText id = none) : m.get id = none := by
  rcases hv : m.get id with _ | v
  · rfl
  · obtain ⟨safe, _, _, hs, -⟩ := h.pair id v hv
    rw [hsafe] at hs
    cases hs

/-- **A delete** takes the voice of its id out, returns whether there was one, and is refused
where another id has the safe id. -/
theorem deleteVoice (htoken : token ∈ tokens) (id : String) :
    Holds env tokens (Registry.deleteVoice env d id token).1 (m.step env (.delete id)) ∧
      ((Registry.deleteVoice env d id token).2 = .ok true ↔ (m.get id).isSome = true) := by
  have hstep : m.step env (.delete id) = m.erase id := rfl
  rw [hstep]
  unfold Registry.deleteVoice
  rcases hsafe : safeId (.str id) with e | safe
  · have hnone := h.get_eq_none (safeText_of_error hsafe)
    rw [erase_of_none hnone, hnone]
    exact ⟨h, by simp⟩
  have hsafe' := safeText_of_safeId hsafe
  obtain ⟨hholds, hclean⟩ := h.recover
  dsimp only
  rcases hv : m.get id with _ | v
  · rw [erase_of_none hv]
    rcases htaken : m.taken id with _ | _
    · obtain ⟨hjson, hnpz⟩ := hholds.json_none hsafe' hv htaken
      rw [present_eq_false.mpr hjson, present_eq_false.mpr hnpz]
      exact ⟨hholds, by simp⟩
    · -- another voice has the safe id
      obtain ⟨id', v, hv', hne, hs⟩ := taken_iff.mp htaken
      obtain ⟨safe', data, arrays, hs', hjson, hnpz, hwritten⟩ := hholds.pair id' v hv'
      obtain rfl : safe' = safe := by
        rw [hs, hsafe', Option.some_inj] at hs'
        exact hs'.symm
      have hother : (Value.str id').isText id = false := by simpa [Value.isText] using hne
      rw [present_of_get hjson, present_of_get hnpz, loadJson_of_get hjson, Option.map_some,
        Option.getD_some, hwritten.voiceId, hother]
      exact ⟨hholds, by simp⟩
  · obtain ⟨safe', data, arrays, hs', hjson, hnpz, hwritten⟩ := hholds.pair id v hv
    obtain rfl : safe' = safe := Option.some_inj.mp (hs'.symm.trans hsafe')
    have hsame : (Value.str id).isText id = true := by simp [Value.isText]
    obtain ⟨d', heq, hget⟩ := hholds.atomicDeletePair_ok safe' hclean htoken
    rw [present_of_get hjson, present_of_get hnpz, loadJson_of_get hjson, Option.map_some,
      Option.getD_some, hwritten.voiceId, hsame, heq]
    exact ⟨hholds.erase_pair hv hsafe' hget, by simp⟩

omit h in
theorem loadEmbeddingVoice_fst (id : String) (modelId : Option String) :
    (Registry.loadEmbeddingVoice env d id modelId).1 =
      if id = "" then d else Registry.recover env d := by
  unfold Registry.loadEmbeddingVoice
  by_cases hid : id = ""
  · rw [if_pos hid, if_pos hid]
  · rw [if_neg hid, if_neg hid]
    dsimp only
    repeat' split
    all_goals rfl

/-- **A call** does to the directory what it does to the voices. -/
theorem step (call : Call) (htoken : token ∈ tokens) (huntold : call.Untold env tokens) :
    Holds env tokens (Registry.step env d call token) (m.step env call) := by
  cases call with
  | profile u => exact (h.registerFromProfileFiles htoken huntold).1
  | embedding u => exact (h.registerEmbeddingVoice htoken huntold).1
  | delete id => exact (h.deleteVoice htoken id).1
  | list f => exact h.recover.1
  | load id modelId =>
    have hload : Registry.step env d (.load id modelId) token =
        if id = "" then d else Registry.recover env d := loadEmbeddingVoice_fst id modelId
    rw [hload]
    split
    · exact h
    · exact h.recover.1

/-! ### Reading -/

/-- **A load** finds the bytes of the voice, if it is one of bytes and of this model. -/
theorem loadEmbeddingVoice (id : String) (modelId : Option String) :
    (Registry.loadEmbeddingVoice env d id modelId).2 = .ok ((m.get id).bind fun v =>
      if v.serves env modelId then v.embedding else none) := by
  obtain ⟨hholds, -⟩ := h.recover
  unfold Registry.loadEmbeddingVoice
  by_cases hid : id = ""
  · have hnone := h.get_eq_none (hid ▸ safeText_empty : safeText id = none)
    rw [if_pos hid, hnone, Option.bind_none]
  rw [if_neg hid]
  dsimp only
  rcases hv : m.get id with _ | v
  · -- whatever has the safe id is another voice
    rw [Option.bind_none]
    rcases hs : safeId (.str id) with e | safe
    · rfl
    dsimp only
    rcases hget : loadJson (Registry.recover env d) (jsonName safe) with _ | data
    · rfl
    have hother : (data.get "voice_id").isText id = false := by
      have hfile : ∃ node, (Registry.recover env d).get (jsonName safe) = some node := by
        unfold loadJson at hget
        split at hget
        · next heq => exact ⟨_, heq⟩
        · cases hget
      obtain ⟨node, hnode⟩ := hfile
      obtain ⟨id', v, hv', hs'⟩ := hholds.voice_of_json hnode
      obtain ⟨safe', data', arrays, hs'', hjson, -, hwritten⟩ := hholds.pair id' v hv'
      obtain rfl : safe' = safe := Option.some_inj.mp (hs''.symm.trans hs')
      rw [loadJson_of_get hjson, Option.some_inj] at hget
      rw [← hget, hwritten.voiceId]
      have hne : id' ≠ id := by
        rintro rfl
        rw [hv] at hv'
        cases hv'
      simpa [Value.isText] using hne
    dsimp only
    rw [hother]
    rfl
  · obtain ⟨safe, data, arrays, hs, hjson, hnpz, hwritten⟩ := hholds.pair id v hv
    have hsame : (data.get "voice_id").isText id = true := by
      rw [hwritten.voiceId, Value.isText_iff]
    have hfile : ((data.get "npz_file").or (.str (String.ofList (npzName safe)))).isText
        (String.ofList (npzName safe)) = true := by
      rw [hwritten.npzFile_or, Value.isText_iff]
    rw [safeId_of_safeText hs, Option.bind_some]
    dsimp only
    rw [loadJson_of_get hjson]
    dsimp only
    rw [hsame, hwritten.metadata _ (npLoad_of_get hnpz)]
    have hfalse : ¬ (!true) = true := by decide
    dsimp only [Voice.metadata]
    rw [if_neg hfalse]
    by_cases htype : v.profileType = embeddingProfileType
    · obtain ⟨emb, hemb, hbytes⟩ := hwritten.embedding htype
      rw [if_neg (not_not.mpr htype)]
      rcases hmodel : canonicalModel env (Value.ofId modelId) none with _ | model
      · have hserves : v.serves env modelId = true := by simp [Voice.serves, htype, hmodel]
        rw [Option.any_none, Option.any_none, if_neg Bool.false_ne_true,
          if_neg Bool.false_ne_true, hfile, hwritten.pairTokenMatches (npLoad_of_get hnpz),
          npLoad_of_get hnpz, hserves, if_neg hfalse, if_neg hfalse]
        dsimp only
        rw [hemb, Option.some_or]
        dsimp only
        rw [hbytes]
        rfl
      · by_cases hsame' : model = v.modelId
        · subst hsame'
          have hserves : v.serves env modelId = true := by simp [Voice.serves, htype, hmodel]
          rw [Option.any_some, Option.any_some, hserves, hfile,
            hwritten.pairTokenMatches (npLoad_of_get hnpz), npLoad_of_get hnpz]
          have hmember := hwritten.member
          simp [hmember, hemb, hbytes]
        · have hserves : v.serves env modelId = false := by simp [Voice.serves, htype, hmodel, hsame']
          rw [Option.any_some, Option.any_some, hserves]
          simp [hsame']
    · have hserves : v.serves env modelId = false := by simp [Voice.serves, htype]
      rw [if_pos htype, hserves]
      rfl

variable (f : Filters)

/-- What a listing makes of the file of a voice. -/
theorem listEntry_jsonName (hv : m.get id = some v) (hsafe : safeText id = some safe) :
    listEntry env d f (jsonName safe) = .ok
      (if Hidden id ∨ f.keep env v.metadata = false then none else some (v.entry id)) := by
  obtain ⟨safe', data, arrays, hs, hjson, hnpz, hwritten⟩ := h.pair id v hv
  obtain rfl : safe' = safe := Option.some_inj.mp (hs.symm.trans hsafe)
  have hdot : ".".toList <+: jsonName safe' ↔ Hidden id := by
    obtain ⟨c, rest, rfl⟩ := List.exists_cons_of_ne_nil (safeId_spec hsafe).1
    have hsplit : jsonName (c :: rest) = c :: (rest ++ jsonSuffix) := rfl
    have hlist : ".".toList = ['.'] := rfl
    rw [Hidden, hsafe, Option.any_some, decide_eq_true_eq, hsplit, hlist, List.cons_prefix_cons,
      List.cons_prefix_cons]
    simp
  have hsuffix : jsonSuffix <:+ jsonName safe' := List.suffix_append _ _
  have hlen : (jsonName safe').take ((jsonName safe').length - jsonSuffix.length) = safe' := by
    rw [jsonName, List.length_append, Nat.add_sub_cancel]
    exact List.take_left' rfl
  have hslash : '/' ∉ npzName safe' := by
    intro hmem
    rcases List.mem_append.mp hmem with hmem | hmem
    · exact (safeId_spec hsafe).2 hmem
    · exact absurd hmem (by decide)
  have hfalse : ¬ (!true) = true := by decide
  unfold listEntry
  by_cases hhidden : Hidden id
  · rw [if_pos (.inl (hdot.mpr hhidden)), if_pos (.inl hhidden)]
  · rw [if_neg (by rintro (hno | hno); exacts [hhidden (hdot.mp hno), hno hsuffix]),
      loadJson_of_get hjson]
    dsimp only
    rw [hlen, hwritten.npzFile_or]
    dsimp only
    rw [String.toList_ofList, if_neg hslash, hwritten.pairTokenMatches (npLoad_of_get hnpz),
      if_neg hfalse, hwritten.metadata d (npLoad_of_get hnpz)]
    dsimp only
    rw [hwritten.entry]
    rcases hkeep : f.keep env v.metadata with _ | _
    · rw [if_neg Bool.false_ne_true, if_pos (.inr rfl)]
    · rw [if_pos rfl, if_neg (by rintro (hno | hno); exacts [hhidden hno, by cases hno])]

/-- A name of no file of a voice is passed over. -/
theorem listEntry_other (hclean : Clean d) {name : Text}
    (hname : ¬ ∃ id v safe, m.get id = some v ∧ safeText id = some safe ∧ name = jsonName safe) :
    listEntry env d f name = .ok none := by
  unfold listEntry
  split
  · rfl
  · next hcond =>
    rw [not_or, not_not] at hcond
    rcases hget : loadJson d name with _ | data
    · rfl
    · exfalso
      have hnode : d.get name = some (.file (.json data)) := by
        unfold loadJson at hget
        split at hget
        · next heq => rw [heq, Option.some_inj.mp hget]
        · cases hget
      rcases h.only _ _ hnode with ⟨id, v, safe, hv, hs, hname' | hname'⟩ | ⟨hdir, -⟩
      · exact hname ⟨id, v, safe, hv, hs, hname'⟩
      · obtain ⟨rest, hrest⟩ := hcond.2
        exact jsonName_ne_npzName (hrest.trans hname')
      · exact hclean name (hdir ▸ hnode)

end Holds

/-- What the loop of a listing collects, where no entry raises. -/
theorem listFrom_eq {f : Filters} {names : List Text} {entry : Text → Option Entry}
    (h : ∀ name ∈ names, listEntry env d f name = .ok (entry name)) :
    listFrom env d f names = .ok (names.filterMap entry) := by
  induction names with
  | nil => rfl
  | cons name rest ih =>
    rw [listFrom, h name List.mem_cons_self, ih fun name hname => h name (List.mem_cons_of_mem _ hname)]
    dsimp only
    rw [List.filterMap_cons]
    rcases entry name with _ | e <;> rfl

/-- **A listing** shows each voice that is not hidden and passes the filters, once. -/
theorem Holds.listVoices (h : Holds env tokens d m) (f : Filters) :
    ∃ out, (Registry.listVoices env d f).2 = .ok out ∧
      (∀ e, e ∈ out ↔ ∃ id v, m.get id = some v ∧ ¬ Hidden id ∧ f.keep env v.metadata = true ∧
        e = v.entry id) ∧
      (out.map Entry.voiceId).Nodup := by
  obtain ⟨hholds, hclean⟩ := h.recover
  have hentry : ∀ name, ∃ entry, listEntry env (Registry.recover env d) f name = .ok entry ∧
      ∀ e, entry = some e ↔ ∃ id v safe, m.get id = some v ∧ safeText id = some safe ∧
        name = jsonName safe ∧ ¬ Hidden id ∧ f.keep env v.metadata = true ∧ e = v.entry id := by
    intro name
    by_cases hname : ∃ id v safe, m.get id = some v ∧ safeText id = some safe ∧ name = jsonName safe
    · obtain ⟨id, v, safe, hv, hsafe, rfl⟩ := hname
      refine ⟨_, hholds.listEntry_jsonName f hv hsafe, fun e => ?_⟩
      constructor
      · intro he
        split at he
        · cases he
        · next hcond =>
          rw [not_or] at hcond
          exact ⟨id, v, safe, hv, hsafe, rfl, hcond.1, by simpa using hcond.2,
            (Option.some_inj.mp he).symm⟩
      · rintro ⟨id', v', safe', hv', hsafe', hname, hshown, hkeep, rfl⟩
        obtain rfl := jsonName_inj.mp hname
        obtain rfl := h.id_unique hv' hv (hsafe'.trans hsafe.symm)
        obtain rfl : v' = v := Option.some_inj.mp (hv'.symm.trans hv)
        rw [if_neg (by rintro (hno | hno); exacts [hshown hno, by rw [hkeep] at hno; cases hno])]
    · refine ⟨none, hholds.listEntry_other f hclean hname, fun e => ?_⟩
      constructor
      · exact nofun
      · rintro ⟨id, v, safe, hv, hsafe, hname', -⟩
        exact absurd ⟨id, v, safe, hv, hsafe, hname'⟩ hname
  choose entry hlist hspec using hentry
  have hnames : ∀ name, name ∈ ((Registry.recover env d).items.map Prod.fst).insertionSort (· ≤ ·) ↔
      name ∈ (Registry.recover env d).items.map Prod.fst :=
    fun name => (List.perm_insertionSort _ _).mem_iff
  refine ⟨_, listFrom_eq fun name _ => hlist name, fun e => ?_, ?_⟩
  · rw [List.mem_filterMap]
    constructor
    · rintro ⟨name, -, he⟩
      obtain ⟨id, v, safe, hv, -, -, hshown, hkeep, rfl⟩ := (hspec name e).mp he
      exact ⟨id, v, hv, hshown, hkeep, rfl⟩
    · rintro ⟨id, v, hv, hshown, hkeep, rfl⟩
      obtain ⟨safe, data, arrays, hs, hjson, -⟩ := hholds.pair id v hv
      refine ⟨jsonName safe, ?_, (hspec _ _).mpr ⟨id, v, safe, hv, hs, rfl, hshown, hkeep, rfl⟩⟩
      rw [hnames]
      exact List.mem_map.mpr ⟨_, Dictionary.get_eq_some_iff.mp hjson, rfl⟩
  · rw [List.map_filterMap]
    refine List.Nodup.filterMap ?_ ((List.perm_insertionSort _ _).nodup_iff.mpr
      (Registry.recover env d).nodup)
    -- an entry names its voice, and a voice has one file
    intro name name' id hid hid'
    obtain ⟨e, he, hvoice⟩ := Option.map_eq_some_iff.mp hid
    obtain ⟨e', he', hvoice'⟩ := Option.map_eq_some_iff.mp hid'
    obtain ⟨id₁, v, safe, hv, hs, rfl, -, -, rfl⟩ := (hspec name e).mp he
    obtain ⟨id₂, v', safe', hv', hs', rfl, -, -, rfl⟩ := (hspec name' e').mp he'
    have hsame : Value.str id₁ = Value.str id₂ := hvoice.trans hvoice'.symm
    obtain rfl := Value.str.inj hsame
    rw [hs, Option.some_inj] at hs'
    rw [hs']

/-! ### Whole runs -/

theorem holds_empty : Holds env tokens Dictionary.empty Dictionary.empty where
  pair := fun _ _ hv => nomatch hv
  only := fun _ _ hnode => nomatch hnode
  quiet := fun _ _ hdata => nomatch hdata
  free := fun _ _ hv => nomatch hv

/-- The directory holds the voices after calls that name none of these tokens. -/
theorem holds_of_untold {calls : List (Call × Token)}
    (h : ∀ call ∈ calls, call.2 ∈ tokens ∧ call.1.Untold env tokens) :
    Holds env tokens (after env calls) (Voices.after env calls) := by
  suffices hrun : ∀ (rest : List (Call × Token)) (d : Dir) (m : Voices), rest ⊆ calls →
      Holds env tokens d m →
      Holds env tokens (rest.foldl (fun d call => step env d call.1 call.2) d)
        (rest.foldl (fun m call => m.step env call.1) m) from
    hrun calls _ _ (List.Subset.refl _) holds_empty
  intro rest
  induction rest with
  | nil => exact fun _ _ _ h => h
  | cons call rest ih =>
    intro d m hsub hd
    obtain ⟨hcall, hrest⟩ := List.cons_subset.mp hsub
    exact ih _ _ hrest (hd.step call.1 (h call hcall).1 (h call hcall).2)

/-- **After any calls** the directory holds the voices. -/
theorem holds_after {calls : List (Call × Token)} (hfresh : Fresh env calls) :
    Holds env (calls.map Prod.snd) (after env calls) (Voices.after env calls) :=
  holds_of_untold fun call hcall => ⟨List.mem_map_of_mem hcall, hfresh call hcall⟩

/-- A call that is not accepted changes nothing. -/
theorem step_of_not_accepts {call : Call} (h : m.accepts env call = false) :
    m.step env call = m := by
  have hregister : (call.voice env).any (fun item => !m.taken item.1) = false →
      m.register (call.voice env) = m := by
    intro hany
    rcases hvoice : call.voice env with _ | ⟨id, v⟩
    · rfl
    · rw [hvoice, Option.any_some] at hany
      exact if_pos (by simpa using hany)
  cases call with
  | profile u => exact hregister h
  | embedding u => exact hregister h
  | delete id =>
    refine Holds.erase_of_none ?_
    simpa [Voices.accepts] using h
  | list f => rfl
  | load id modelId => rfl

/-! ### A run with two ids of one safe id -/

/-- An environment in which nothing prints and nothing is recovered. -/
def bareEnv : Env where
  root := "/voices"
  repr := fun _ => ""
  asarray := fun token => ⟨1, token, none⟩
  frombuffer := fun bytes => ⟨bytes.length / 4, "", some bytes⟩
  resume := fun _ _ d => d
  text_asarray := fun _ => rfl
  float32_frombuffer := fun _ => rfl

/-- An embedding of one number. -/
def oneNumber (id : String) : EmbeddingUpload :=
  ⟨id, [0, 0, 128, 63], 24000, none, none, none, none⟩

/-- The first of two ids that share a safe id, then the second. -/
def slashRun : List (Call × Token) :=
  [(.embedding (oneNumber "clone:a/b"), ⟨"0a".toList, rfl⟩),
   (.embedding (oneNumber "clone:a:b"), ⟨"0b".toList, rfl⟩)]

/-- An embedding whose safe id does not begin like a transaction directory names none. -/
theorem untold_embedding {u : EmbeddingUpload} (hsafe : safeText u.voiceId = some safe)
    (hpre : ¬ txnPrefix <+: safe) : (Call.embedding u).Untold env tokens := by
  refine ⟨fun id v hvoice token _ hname => ?_, nofun⟩
  obtain ⟨-, -, -, -, -, rfl, -⟩ := voice_spec hvoice
  obtain rfl := Option.some_inj.mp (hsafe.symm.trans hname)
  exact hpre (List.prefix_append _ _)

theorem untold_slashRun {call : Call × Token} (hcall : call ∈ slashRun) :
    call.1.Untold bareEnv tokens := by
  rcases List.mem_cons.mp hcall with rfl | hcall
  · exact untold_embedding (show safeText "clone:a/b" = some "clone_a_b".toList by decide +kernel)
      (by decide)
  · obtain rfl := List.mem_singleton.mp hcall
    exact untold_embedding (show safeText "clone:a:b" = some "clone_a_b".toList by decide +kernel)
      (by decide)

theorem fresh_slashRun : Fresh bareEnv slashRun := fun _ hcall => untold_slashRun hcall

end OpenVoiceStream.SparkVoices.Registry
