import OpenVoiceStream.TtsSpeakers.Model

/-!
# What the operations do to the layers

The composed table of a model is an overlay of three tables, and each operation
changes the layer of the file in one place.  The lemmas here say how, and what an
operation can do to the registry as a whole, so that no later proof opens an
operation again.

## Main definitions

* `fileLayer`, `layers` — the layer of the file and the composed table.

## Main results

* `rebuild_eq_ok_iff` — `rebuild` gives the composed table of a readable file.
* `parseSpeakerEntry_entry` — what a registration writes is read back as its speaker.
* `Registry.loadSpeakerMap_cases`, `Registry.registerSpeaker_cases`,
  `Registry.unregisterSpeaker_cases` — all that an operation can do.
-/

namespace OpenVoiceStream.TtsSpeakers

variable {env : Env}

/-! ### The layer of the file -/

/-- The speakers a list of entries stands for. -/
def speakersOf (env : Env) (l : List (Σ _ : ℤ, Value)) : Table :=
  fun sid => (l.dlookup sid).bind fun value => (parseSpeakerEntry env sid value).toOption

/-- The layer of the file in the table of one model. -/
def fileLayer (env : Env) (file : File) (modelId : String) : Table :=
  speakersOf env (entriesOf file modelId).entries

/-- The composed table of a model. -/
def layers (env : Env) (file : File) (modelId : String) : Table :=
  overlay (overlay (builtin modelId) (fileLayer env file modelId)) env.overrides

/-- An entry in front of the list sets one speaker. -/
private theorem speakersOf_cons {sid : ℤ} {value : Value} {l : List (Σ _ : ℤ, Value)} :
    speakersOf env (⟨sid, value⟩ :: l) =
      Function.update (speakersOf env l) sid (parseSpeakerEntry env sid value).toOption := by
  funext j
  rcases eq_or_ne j sid with rfl | hne
  · rw [Function.update_self, speakersOf, List.dlookup_cons_eq, Option.bind_some]
  · have hcons : (⟨sid, value⟩ :: l).dlookup j = l.dlookup j :=
      List.dlookup_cons_ne (β := fun _ => Value) l ⟨sid, value⟩ hne
    rw [Function.update_of_ne hne, speakersOf, hcons, speakersOf]

variable (env) in
/-- A loop over entries that can all be read is one overlay. -/
theorem loadFileSpeakers_eq {l : List (Σ _ : ℤ, Value)} (hnodup : l.NodupKeys)
    (hread : ∀ e ∈ l, (parseSpeakerEntry env e.1 e.2).toBool) (mapping : Table) :
    loadFileSpeakers env l mapping = .ok (overlay mapping (speakersOf env l)) := by
  induction l generalizing mapping with
  | nil => rfl
  | cons e rest ih =>
    obtain ⟨sid, value⟩ := e
    obtain ⟨hnotin, hrest⟩ := List.nodupKeys_cons.mp hnodup
    have hhead := hread ⟨sid, value⟩ List.mem_cons_self
    cases hparse : parseSpeakerEntry env sid value with
    | error err => rw [hparse] at hhead; cases hhead
    | ok spec =>
      rw [loadFileSpeakers, hparse]
      dsimp only
      rw [ih hrest (fun e he => hread e (List.mem_cons_of_mem _ he)), speakersOf_cons, hparse]
      -- the rest of the list does not mention `sid`, so it does not matter who is set first
      congr 1
      funext j
      rcases eq_or_ne j sid with rfl | hne
      · have hnone : speakersOf env rest j = none := by
          rw [speakersOf, List.dlookup_eq_none.mpr hnotin, Option.bind_none]
        rw [overlay_of_none hnone, Function.update_self]
        exact (overlay_of_some (Function.update_self ..)).symm
      · rw [overlay, overlay, Function.update_of_ne hne, Function.update_of_ne hne]

/-- A loop that ends has read every entry. -/
theorem readable_of_loadFileSpeakers {l : List (Σ _ : ℤ, Value)} {mapping t : Table}
    (h : loadFileSpeakers env l mapping = .ok t) :
    ∀ e ∈ l, (parseSpeakerEntry env e.1 e.2).toBool := by
  induction l generalizing mapping with
  | nil => exact fun e he => absurd he List.not_mem_nil
  | cons e rest ih =>
    obtain ⟨sid, value⟩ := e
    rw [loadFileSpeakers] at h
    cases hparse : parseSpeakerEntry env sid value with
    | error err => rw [hparse] at h; cases h
    | ok spec =>
      rw [hparse] at h
      intro e he
      rcases List.mem_cons.mp he with rfl | he
      · rw [hparse]; rfl
      · exact ih h e he

/-- **The composed table.**  Rebuilding the table of a model succeeds when its entries
can be read, and gives the overlay of the three layers. -/
theorem rebuild_eq_ok_iff {file : File} {modelId : String} {t : Table} :
    rebuild env file modelId = .ok t ↔
      Readable env (entriesOf file modelId) ∧ layers env file modelId = t := by
  have hloop := loadFileSpeakers_eq env (entriesOf file modelId).nodupKeys
  constructor
  · intro h
    rw [rebuild] at h
    cases hload : loadFileSpeakers env (entriesOf file modelId).entries (builtin modelId) with
    | error err => rw [hload] at h; cases h
    | ok mapping =>
      have hread := readable_of_loadFileSpeakers hload
      rw [hload] at h
      rw [hloop hread] at hload
      cases hload
      cases h
      exact ⟨hread, rfl⟩
  · rintro ⟨hread, rfl⟩
    rw [rebuild, hloop hread]
    rfl

/-! ### Changing one entry -/

/-- What is written under a model is read there, and only there. -/
theorem entriesOf_putEntry (file : File) (modelId : String) (sid : ℤ) (value : Value)
    (other : String) :
    entriesOf (putEntry file modelId sid value) other =
      if other = modelId then (entriesOf file modelId).insert sid value
      else entriesOf file other := by
  rw [entriesOf, putEntry]
  split
  · next h => rw [h, AList.lookup_insert, Option.getD_some]
  · next h => rw [AList.lookup_insert_ne h, entriesOf]

/-- What is deleted under a model is deleted there, and only there. -/
theorem entriesOf_delEntry (file : File) (modelId : String) (sid : ℤ) (other : String) :
    entriesOf (delEntry file modelId sid) other =
      if other = modelId then (entriesOf file modelId).erase sid
      else entriesOf file other := by
  unfold delEntry
  by_cases hempty : ((entriesOf file modelId).erase sid).entries = []
  · -- the table of the model goes with its last entry
    rw [if_pos hempty, entriesOf]
    split
    · next h =>
      rw [h, AList.lookup_erase, Option.getD_none]
      exact (AList.ext hempty).symm
    · next h => rw [AList.lookup_erase_ne h, entriesOf]
  · rw [if_neg hempty, entriesOf]
    split
    · next h => rw [h, AList.lookup_insert, Option.getD_some]
    · next h => rw [AList.lookup_insert_ne h, entriesOf]

/-- The layer of the file, read through the entries of the model. -/
theorem fileLayer_eq (file : File) (modelId : String) (sid : ℤ) :
    fileLayer env file modelId sid =
      ((entriesOf file modelId).lookup sid).bind fun value =>
        (parseSpeakerEntry env sid value).toOption := rfl

/-- An entry that is written sets its speaker in the layer of the file. -/
theorem fileLayer_putEntry {file : File} {modelId : String} {sid : ℤ} {value : Value} :
    fileLayer env (putEntry file modelId sid value) modelId =
      Function.update (fileLayer env file modelId) sid
        (parseSpeakerEntry env sid value).toOption := by
  funext j
  rw [fileLayer_eq, entriesOf_putEntry, if_pos rfl]
  rcases eq_or_ne j sid with rfl | hne
  · rw [AList.lookup_insert, Function.update_self, Option.bind_some]
  · rw [AList.lookup_insert_ne hne, Function.update_of_ne hne, fileLayer_eq]

/-- An entry that is deleted drops its speaker from the layer of the file. -/
theorem fileLayer_delEntry {file : File} {modelId : String} {sid : ℤ} :
    fileLayer env (delEntry file modelId sid) modelId =
      drop (fileLayer env file modelId) sid := by
  funext j
  rw [fileLayer_eq, entriesOf_delEntry, if_pos rfl]
  rcases eq_or_ne j sid with rfl | hne
  · rw [AList.lookup_erase, drop_self, Option.bind_none]
  · rw [AList.lookup_erase_ne hne, drop_of_ne hne, fileLayer_eq]

/-- Entries can be read when each of them can. -/
theorem readable_iff {entries : Entries} :
    Readable env entries ↔
      ∀ sid value, value ∈ entries.lookup sid → (parseSpeakerEntry env sid value).toBool := by
  constructor
  · intro h sid value hmem
    exact h ⟨sid, value⟩ (AList.mem_lookup_iff.mp hmem)
  · intro h e he
    exact h e.1 e.2 (AList.mem_lookup_iff.mpr he)

/-- Entries stay readable when one that can be read is written. -/
theorem Readable.insert {entries : Entries} (h : Readable env entries) {sid : ℤ} {value : Value}
    (hvalue : (parseSpeakerEntry env sid value).toBool) :
    Readable env (entries.insert sid value) := by
  rw [readable_iff] at h ⊢
  intro j v hv
  rcases eq_or_ne j sid with rfl | hne
  · rw [AList.lookup_insert, Option.mem_some_iff] at hv
    exact hv ▸ hvalue
  · rw [AList.lookup_insert_ne hne] at hv
    exact h j v hv

/-- Entries stay readable when one is deleted. -/
theorem Readable.erase {entries : Entries} (h : Readable env entries) (sid : ℤ) :
    Readable env (entries.erase sid) := by
  rw [readable_iff] at h ⊢
  intro j v hv
  rcases eq_or_ne j sid with rfl | hne
  · rw [AList.lookup_erase] at hv
    cases hv
  · rw [AList.lookup_erase_ne hne] at hv
    exact h j v hv

/-- A file that is read for a change has readable entries under every model. -/
theorem readable_of_readSpeakerFileForUpdate {file data : File}
    (h : readSpeakerFileForUpdate env file = .ok data) :
    data = file ∧ ∀ modelId, Readable env (entriesOf file modelId) := by
  unfold readSpeakerFileForUpdate at h
  split at h
  · next hall =>
    cases h
    refine ⟨rfl, fun modelId => ?_⟩
    rw [entriesOf]
    rcases hl : file.lookup modelId with _ | entries
    · rw [Option.getD_none]
      exact fun e he => absurd he List.not_mem_nil
    · exact hall ⟨modelId, entries⟩ (AList.mem_lookup_iff.mp hl)
  · cases h

/-- The empty file has nothing under any model. -/
@[simp] theorem entriesOf_empty (modelId : String) : entriesOf ∅ modelId = ∅ := by
  rw [entriesOf, AList.lookup_empty, Option.getD_none]

/-! ### What a registration writes -/

/-- A payload that passes the check is not empty. -/
theorem ne_of_validateEmbeddingPayload {payload : String}
    (h : validateEmbeddingPayload env payload = .ok ()) : payload ≠ "" := by
  rintro rfl
  simp [validateEmbeddingPayload, env.b64decode_empty] at h

variable (env) in
/-- **Round trip.**  What a registration writes is read back as the speaker it made. -/
theorem parseSpeakerEntry_entry {call : Registration} (h : call.payload ≠ "") (sid : ℤ) :
    parseSpeakerEntry env sid (call.entry sid) = .ok (call.spec sid) := by
  have htyp : lower (strip "embedding") = "embedding" := by decide +kernel
  simp [Registration.entry, parseSpeakerEntry, Dict.get, Dict.getD, Env.str, Value.or,
    Value.truthy, List.lookup_cons, htyp, Registration.spec, h]

/-! ### What an operation can do -/

namespace Registry

variable {r : Registry}

/-- A table that is not in the cache is rebuilt and kept. -/
theorem loadSpeakerMap_of_none {modelId : String} (h : r.cache (canonicalModelId modelId) = none) :
    (r.loadSpeakerMap env modelId).1 = rebuild env r.file (canonicalModelId modelId) := by
  unfold loadSpeakerMap
  dsimp only
  rw [h]
  cases rebuild env r.file (canonicalModelId modelId) <;> rfl

/-- A table in the cache is used as it is. -/
theorem loadSpeakerMap_of_some {modelId : String} {t : Table}
    (h : r.cache (canonicalModelId modelId) = some t) :
    r.loadSpeakerMap env modelId = (.ok t, r) := by
  unfold loadSpeakerMap
  dsimp only
  rw [h]

variable (env) in
/-- Loading a table keeps the file, and at most puts a rebuilt table into the cache. -/
theorem loadSpeakerMap_cases (r : Registry) (modelId : String) :
    (r.loadSpeakerMap env modelId).2 = r ∨
      ∃ t, rebuild env r.file (canonicalModelId modelId) = .ok t ∧
        (r.loadSpeakerMap env modelId).2 =
          { r with cache := Function.update r.cache (canonicalModelId modelId) (some t) } := by
  unfold loadSpeakerMap
  dsimp only
  rcases r.cache (canonicalModelId modelId) with _ | t
  · cases hbuild : rebuild env r.file (canonicalModelId modelId) with
    | error err => exact .inl rfl
    | ok t => exact .inr ⟨t, rfl, rfl⟩
  · exact .inl rfl

/-- A table that is loaded while an id is chosen keeps the file. -/
theorem file_of_loads {r' : Registry} {modelId : String}
    (h : r' = r ∨ r' = (r.loadSpeakerMap env modelId).2) : r'.file = r.file := by
  rcases h with rfl | rfl
  · rfl
  · rcases loadSpeakerMap_cases env r modelId with heq | ⟨t, -, heq⟩
    · rw [heq]
    · rw [heq]

variable (env) in
/-- A lookup does to the registry what loading the table does. -/
theorem speakerSpecForId_snd (r : Registry) (speakerId : Option ℤ) (modelId : String) :
    (r.speakerSpecForId env speakerId modelId).2 = r ∨
      (r.speakerSpecForId env speakerId modelId).2 =
        (r.loadSpeakerMap env (canonicalModelId modelId)).2 := by
  unfold speakerSpecForId
  rcases speakerId with _ | sid
  · exact .inl rfl
  · refine .inr ?_
    dsimp only
    rcases r.loadSpeakerMap env (canonicalModelId modelId) with ⟨err | mapping, r'⟩
    · rfl
    · dsimp only
      rcases mapping (selectorAliasId sid (canonicalModelId modelId)) with _ | spec
      · dsimp only
        split <;> rfl
      · rfl

/-- What a lookup answers for an id the table holds. -/
theorem speakerSpecForId_of_some {modelId : String} {sid : ℤ} {t : Table} {spec : SpeakerSpec}
    (hload : (r.loadSpeakerMap env (canonicalModelId modelId)).1 = .ok t)
    (hspec : t (selectorAliasId sid (canonicalModelId modelId)) = some spec) :
    (r.speakerSpecForId env (some sid) modelId).1 = .ok (some spec) := by
  unfold speakerSpecForId
  dsimp only
  rcases hr : r.loadSpeakerMap env (canonicalModelId modelId) with ⟨out, r'⟩
  rw [hr] at hload
  cases hload
  dsimp only
  rw [hspec]

variable (env) in
/-- Choosing an id does to the registry what a lookup does. -/
theorem chooseId_snd (r : Registry) (fileData : File) (modelId : String)
    (speakerId : Option ℤ) :
    (r.chooseId env fileData modelId speakerId).2 = r ∨
      (r.chooseId env fileData modelId speakerId).2 =
        (r.loadSpeakerMap env (canonicalModelId modelId)).2 := by
  unfold chooseId
  rcases speakerId with _ | sid
  · exact .inl rfl
  · dsimp only
    split
    · have hsnd := speakerSpecForId_snd env r (some sid) modelId
      rcases hspec : r.speakerSpecForId env (some sid) modelId with ⟨err | spec, r'⟩
      · rw [hspec] at hsnd
        exact hsnd
      · rw [hspec] at hsnd
        rcases spec with _ | spec
        · exact hsnd
        · dsimp only
          split <;> exact hsnd
    · exact .inl rfl

/-- The id that is chosen is the one asked for, or the next free one. -/
theorem chooseId_eq {r' : Registry} {fileData : File} {modelId : String} {speakerId : Option ℤ}
    {sid : ℤ} (h : r.chooseId env fileData modelId speakerId = (.ok sid, r')) :
    sid = speakerId.getD (nextId (existingIds fileData modelId)) := by
  unfold chooseId at h
  cases speakerId with
  | none =>
    cases h
    rfl
  | some asked =>
    dsimp only at h
    by_cases hmem : asked ∈ existingIds fileData modelId
    · rw [if_pos hmem] at h
      rcases hspec : r.speakerSpecForId env (some asked) modelId with ⟨err | spec, r''⟩
      · rw [hspec] at h
        cases h
      · rw [hspec] at h
        rcases spec with _ | spec
        · cases h
          rfl
        · by_cases htype : spec.type = .preset
          · simp only [if_pos htype] at h
            cases h
          · simp only [if_neg htype] at h
            cases h
            rfl
    · rw [if_neg hmem] at h
      cases h
      rfl

variable (env) in
/-- **What a registration can do.**  It fails and leaves the file alone, or it takes an
id, writes the speaker to the file and throws the cached table away. -/
theorem registerSpeaker_cases (r : Registry) (call : Registration) :
    ((∃ err, (r.registerSpeaker env call).1 = .error err) ∧
      ((r.registerSpeaker env call).2 = r ∨
        (r.registerSpeaker env call).2 =
          (r.loadSpeakerMap env (canonicalModelId call.modelId)).2)) ∨
    ∃ r', validateEmbeddingPayload env call.payload = .ok () ∧ call.saved = true ∧
      (∀ modelId, Readable env (entriesOf r.file modelId)) ∧
      r.chooseId env r.file call.modelId call.speakerId = (.ok (call.sid r.file), r') ∧
      (r' = r ∨ r' = (r.loadSpeakerMap env (canonicalModelId call.modelId)).2) ∧
      r.registerSpeaker env call =
        (.ok (call.spec (call.sid r.file)),
          { file := putEntry r.file call.modelId (call.sid r.file) (call.entry (call.sid r.file))
            cache := Function.update r'.cache call.modelId none }) := by
  have hsnd := chooseId_snd env r r.file call.modelId call.speakerId
  unfold registerSpeaker
  cases hvalid : validateEmbeddingPayload env call.payload with
  | error err => exact .inl ⟨⟨err, rfl⟩, .inl rfl⟩
  | ok =>
    dsimp only
    cases hread : readSpeakerFileForUpdate env r.file with
    | error err => exact .inl ⟨⟨err, rfl⟩, .inl rfl⟩
    | ok data =>
      obtain ⟨rfl, hreadable⟩ := readable_of_readSpeakerFileForUpdate hread
      dsimp only
      rcases hid : r.chooseId env r.file call.modelId call.speakerId with ⟨err | sid, r'⟩
      · rw [hid] at hsnd
        exact .inl ⟨⟨err, rfl⟩, hsnd⟩
      · obtain rfl : sid = call.sid r.file := chooseId_eq hid
        rw [hid] at hsnd
        dsimp only
        by_cases hsaved : call.saved = true
        · rw [if_pos hsaved]
          exact .inr ⟨r', rfl, hsaved, hreadable, rfl, hsnd, rfl⟩
        · rw [if_neg hsaved]
          exact .inl ⟨⟨.notSaved, rfl⟩, hsnd⟩

variable (env) in
/-- **What a removal can do.**  It leaves the registry alone, or it deletes a registered
speaker from the file and drops it from the cached table. -/
theorem unregisterSpeaker_cases (r : Registry) (modelId : String) (sid : ℤ) (saved : Bool) :
    (r.unregisterSpeaker env modelId sid saved).2 = r ∨
      (∀ modelId, Readable env (entriesOf r.file modelId)) ∧ saved = true ∧
      (∃ spec, fileLayer env r.file modelId sid = some spec ∧ spec.type = .embedding) ∧
      (r.unregisterSpeaker env modelId sid saved).2 =
        { file := delEntry r.file modelId sid
          cache := Function.update r.cache modelId
            ((r.cache modelId).map fun mapping => drop mapping sid) } := by
  unfold unregisterSpeaker
  cases hread : readSpeakerFileForUpdate env r.file with
  | error err => exact .inl rfl
  | ok data =>
    obtain ⟨rfl, hreadable⟩ := readable_of_readSpeakerFileForUpdate hread
    dsimp only
    rcases hl : (entriesOf r.file modelId).lookup sid with _ | value
    · dsimp only
      split <;> exact .inl rfl
    · dsimp only
      cases hparse : parseSpeakerEntry env sid value with
      | error err => exact .inl rfl
      | ok entry =>
        have hlayer : fileLayer env r.file modelId sid = some entry := by
          rw [fileLayer_eq, hl, Option.bind_some, hparse]
          rfl
        dsimp only
        split
        · exact .inl rfl
        · next htype =>
          split
          · next hsaved => exact .inr ⟨hreadable, hsaved, ⟨entry, hlayer, not_not.mp htype⟩, rfl⟩
          · exact .inl rfl

end Registry

end OpenVoiceStream.TtsSpeakers
