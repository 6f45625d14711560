import OpenVoiceStream.EngineResolver.Model

/-!
# What a resolution leaves

The files a resolution changes are the sidecar of its engine and, where a bundle has been
unpacked, the members of the bundle and the sidecars of the engines of the directory.

## Main definitions

* `Accepted` — how a local engine is accepted.

## Main results

* `accepted_of_resolveLocal` — the local engine has been accepted in one of three ways.
* `get_unpackBundle`, `get_unpackBundle_metaPath` — the files after a bundle.
-/

namespace OpenVoiceStream.EngineResolver

variable {β : Type} {lib : Library β}

/-! ### Writing a sidecar -/

variable {fs : Files β} {engine path : Path} {host : HostSignature} {source : String}
  {onnx : Value} {now : ℤ} {bundleSha256 bundleSize : Value}

theorem get_writeMeta_of_ne (h : path ≠ metaPath engine) :
    (writeMeta lib fs engine host source onnx now bundleSha256 bundleSize).get path =
      fs.get path := by
  rw [writeMeta]
  split
  · rfl
  · exact Dictionary.get_put_of_ne h

theorem get_writeMeta_self {bytes : β} (h : fs.get engine = some bytes) :
    (writeMeta lib fs engine host source onnx now bundleSha256 bundleSize).get (metaPath engine) =
      some (lib.dumps (metaOf lib bytes host source onnx now bundleSha256 bundleSize)) := by
  rw [writeMeta, h]
  exact Dictionary.get_put_self _

/-- A sidecar that has been written vouches for the hash and the host in it. -/
theorem vouches_metaOf (bytes other : β) (host' : HostSignature) :
    vouches lib host' other
        (lib.dumps (metaOf lib bytes host source onnx now bundleSha256 bundleSize)) = true ↔
      host = host' ∧ lib.sha256 bytes = lib.sha256 other := by
  obtain ⟨d, hread, hhost, hsha, -, -⟩ :=
    read_metaOf lib bytes host source onnx now bundleSha256 bundleSize
  -- it has a platform, so it is no sidecar from before
  have hlegacy : legacyMatches lib d host' other = false := by
    rw [legacyMatches, hhost]
    rfl
  rw [vouches, hread]
  simp only [hlegacy, Bool.or_false, hhost, hsha, Bool.and_eq_true, hostMatches_toDict,
    Value.isText, decide_eq_true_eq]

/-! ### A local engine -/

/-- How a local engine is accepted: its sidecar matches, it has none, or its sidecar is from
before there was a platform. The last two write one. -/
inductive Accepted (lib : Library β) (spec : EngineSpec) (host : HostSignature) (now : ℤ)
    (fs : Files β) (engine : β) : Files β → Prop
  | fresh (sidecar : β) (d : Dict) (hmeta : fs.get (metaPath spec.enginePath) = some sidecar)
      (hread : lib.read sidecar = .json (.dict d))
      (hhost : hostMatches (d.get "host") host = true)
      (hsha : (d.get "engine_sha256").isText (lib.sha256 engine) = true)
      (hlock : spec.requirePublishedIntegrity = true → releaseLocked lib spec host fs = true) :
      Accepted lib spec host now fs engine fs
  | unmarked (hmeta : fs.get (metaPath spec.enginePath) = none) (hsize : lib.size engine ≠ 0)
      (hstrict : spec.requirePublishedIntegrity = false) :
      Accepted lib spec host now fs engine (writeMeta lib fs spec.enginePath host
        "existing_install_migration" .none now .none .none)
  | legacy (sidecar : β) (d : Dict) (hmeta : fs.get (metaPath spec.enginePath) = some sidecar)
      (hread : lib.read sidecar = .json (.dict d))
      (hlegacy : legacyMatches lib d host engine = true)
      (hstrict : spec.requirePublishedIntegrity = false) :
      Accepted lib spec host now fs engine (writeMeta lib fs spec.enginePath host
        "existing_install_migration" (d.get "onnx_sha256") now .none .none)

/-- What `_read_meta` returns comes from a sidecar. -/
theorem readMeta_eq_some {v : Value} (h : readMeta lib fs engine = some (some v)) :
    ∃ sidecar, fs.get (metaPath engine) = some sidecar ∧ lib.read sidecar = .json v := by
  rw [readMeta] at h
  split at h
  · cases h
  · next sidecar hmeta =>
    refine ⟨sidecar, hmeta, ?_⟩
    split at h <;> cases h
    assumption

/-- `_meta_matches` returns true. -/
theorem metaMatches_eq_true (h : metaMatches lib fs engine host = some true) :
    ∃ bytes sidecar d, fs.get engine = some bytes ∧ fs.get (metaPath engine) = some sidecar ∧
      lib.read sidecar = .json (.dict d) ∧ hostMatches (Dict.get d "host") host = true ∧
      (Dict.get d "engine_sha256").isText (lib.sha256 bytes) = true := by
  rw [metaMatches] at h
  split at h
  · cases h
  · next bytes hbytes =>
    split at h
    · cases h
    · cases h
    · next v hv =>
      obtain ⟨sidecar, hmeta, hread⟩ := readMeta_eq_some hv
      split at h
      · split at h
        · next d _ =>
          rw [Option.some.injEq, Bool.and_eq_true] at h
          exact ⟨bytes, sidecar, d, hbytes, hmeta, hread, h⟩
        · cases h
      · cases h

variable {spec : EngineSpec}

/-- The local engine has been accepted in one of three ways. -/
theorem accepted_of_resolveLocal {force : Bool} {after : Files β}
    (h : resolveLocal lib spec host force now fs = some (some after)) :
    force = false ∧ extraFilesExist fs spec = true ∧
      ∃ bytes, fs.get spec.enginePath = some bytes ∧
        Accepted lib spec host now fs bytes after := by
  rw [resolveLocal] at h
  split at h
  · cases h
  · next fresh hfresh =>
    dsimp only at h
    split at h
    · next hcache =>
      cases h
      simp only [Bool.and_eq_true, Bool.not_eq_true', Bool.or_eq_true] at hcache
      obtain ⟨⟨hforce, rfl, hlock⟩, hextra⟩ := hcache
      obtain ⟨bytes, sidecar, d, hbytes, hmeta, hread, hhost, hsha⟩ :=
        metaMatches_eq_true hfresh
      refine ⟨hforce, hextra, bytes, hbytes, .fresh sidecar d hmeta hread hhost hsha ?_⟩
      intro hstrict
      rcases hlock with hnot | hlock
      · rw [hstrict] at hnot
        cases hnot
      · exact hlock
    · split at h
      · next hmigrate =>
        simp only [Bool.and_eq_true, Bool.not_eq_true'] at hmigrate
        obtain ⟨⟨hforce, hstrict⟩, hextra⟩ := hmigrate
        refine ⟨hforce, hextra, ?_⟩
        rw [migrateExistingEngine] at h
        split at h
        · cases h
        · next bytes hbytes =>
          refine ⟨bytes, hbytes, ?_⟩
          split at h
          · cases h
          · next hsize =>
            split at h
            · cases h
            · split at h
              · cases h
              · next hnone =>
                cases h
                exact .unmarked (by simpa using hnone) hsize hstrict
            · next d hd =>
              obtain ⟨sidecar, hmeta, hread⟩ := readMeta_eq_some hd
              split at h
              · next hlegacy =>
                cases h
                exact .legacy sidecar d hmeta hread hlegacy hstrict
              · cases h
            · cases h
      · cases h

/-- A fresh sidecar and one from before there was a platform vouch for the engine. -/
theorem Accepted.vouches {bytes sidecar : β} {after : Files β}
    (h : Accepted lib spec host now fs bytes after)
    (hmeta : fs.get (metaPath spec.enginePath) = some sidecar) :
    vouches lib host bytes sidecar = true := by
  cases h with
  | fresh sidecar' d hmeta' hread hhost hsha hlock =>
    cases hmeta.symm.trans hmeta'
    rw [EngineResolver.vouches, hread]
    simp only [hhost, hsha, Bool.and_self, Bool.true_or]
  | unmarked hmeta' hsize hstrict => cases hmeta.symm.trans hmeta'
  | legacy sidecar' d hmeta' hread hlegacy hstrict =>
    cases hmeta.symm.trans hmeta'
    rw [EngineResolver.vouches, hread]
    simp only [hlegacy, Bool.or_true]

/-- The engine stays as it is, and its sidecar stays or is written for it. -/
theorem Accepted.files {bytes : β} {after : Files β}
    (h : Accepted lib spec host now fs bytes after) :
    after = fs ∨ ∃ onnx, after = writeMeta lib fs spec.enginePath host
      "existing_install_migration" onnx now .none .none := by
  cases h with
  | fresh => exact .inl rfl
  | unmarked => exact .inr ⟨_, rfl⟩
  | legacy _ d => exact .inr ⟨_, rfl⟩

/-! ### A bundle -/

section Sidecars

variable {engines : List Path}

/-- The sidecars of these engines, written one after the other. -/
theorem get_foldl_writeMeta_of_ne (h : ∀ engine ∈ engines, path ≠ metaPath engine)
    (fs : Files β) :
    (engines.foldl (fun fs engine =>
      writeMeta lib fs engine host source onnx now bundleSha256 bundleSize) fs).get path =
        fs.get path := by
  induction engines generalizing fs with
  | nil => rfl
  | cons engine rest ih =>
    rw [List.foldl_cons, ih fun other hother => h other (List.mem_cons_of_mem _ hother)]
    exact get_writeMeta_of_ne (h engine List.mem_cons_self)

theorem get_foldl_writeMeta_metaPath {bytes : β}
    (hnames : ∀ engine ∈ engines, isEngineFile engine.name = true) (hmem : engine ∈ engines)
    (fs : Files β) (hbytes : fs.get engine = some bytes) :
    (engines.foldl (fun fs engine =>
      writeMeta lib fs engine host source onnx now bundleSha256 bundleSize) fs).get
        (metaPath engine) =
      some (lib.dumps (metaOf lib bytes host source onnx now bundleSha256 bundleSize)) := by
  induction engines generalizing fs with
  | nil => cases hmem
  | cons other rest ih =>
    rw [List.foldl_cons]
    have hne : engine ≠ metaPath other := by
      intro heq
      have hname := hnames engine hmem
      rw [heq, isEngineFile_metaPath] at hname
      cases hname
    by_cases hrest : engine ∈ rest
    · refine ih (fun engine hengine => hnames engine (List.mem_cons_of_mem _ hengine)) hrest _ ?_
      rw [get_writeMeta_of_ne hne, hbytes]
    · have hother : engine = other := (List.mem_cons.mp hmem).resolve_right hrest
      subst hother
      have hlater : ∀ later ∈ rest, metaPath engine ≠ metaPath later := by
        intro later hlater heq
        rw [metaPath_injective heq] at hrest
        exact hrest hlater
      rw [get_foldl_writeMeta_of_ne hlater]
      exact get_writeMeta_self hbytes

end Sidecars

variable {info : Dict} {members : Files β}

/-- The engines of the directory are files of it. -/
theorem mem_iterExtractedEngineFiles {dir : List String} :
    path ∈ iterExtractedEngineFiles fs dir ↔
      (∃ bytes, fs.get path = some bytes) ∧ path.dir = dir ∧
        isEngineFile path.name = true := by
  rw [iterExtractedEngineFiles, List.mem_filter, decide_eq_true_eq]
  refine and_congr_left fun _ => ?_
  constructor
  · intro hmem
    obtain ⟨item, hitem, rfl⟩ := List.mem_map.mp hmem
    exact ⟨item.2, Dictionary.get_eq_some_iff.mpr hitem⟩
  · rintro ⟨bytes, hbytes⟩
    exact List.mem_map.mpr ⟨_, Dictionary.get_eq_some_iff.mp hbytes, rfl⟩

/-- When the bundle serves: the engine and its extra files are there. -/
theorem unpackBundle_eq_true_iff :
    (unpackBundle lib spec host now info members fs).2 = true ↔
      ((extract spec.enginePath.dir members fs).get spec.enginePath).isSome = true ∧
        extraFilesExist (extract spec.enginePath.dir members fs) spec = true := by
  rw [unpackBundle]
  dsimp only
  split
  · next hnone =>
    rw [Option.isNone_iff_eq_none.mp hnone]
    simp
  · next hsome =>
    rw [Bool.not_eq_true, Option.isNone_eq_false_iff] at hsome
    split <;> simp_all

/-- Only sidecars of engines are written once the archive has been unpacked. -/
theorem get_unpackBundle (h : ∀ engine : Path, isEngineFile engine.name = true →
    path ≠ metaPath engine) :
    (unpackBundle lib spec host now info members fs).1.get path =
      (extract spec.enginePath.dir members fs).get path := by
  rw [unpackBundle]
  dsimp only
  split
  · rfl
  · split
    · rfl
    · refine get_foldl_writeMeta_of_ne ?_ _
      intro engine hengine
      exact h engine (mem_iterExtractedEngineFiles.mp hengine).2.2

variable (lib spec host now info members fs) in
/-- A sidecar is that of the archive, the one that was there, or one that has been written for an
engine of the directory. -/
theorem get_unpackBundle_metaPath (engine : Path) :
    (unpackBundle lib spec host now info members fs).1.get (metaPath engine) =
        (extract spec.enginePath.dir members fs).get (metaPath engine) ∨
      ∃ bytes onnx, (unpackBundle lib spec host now info members fs).2 = true ∧
        engine.dir = spec.enginePath.dir ∧ isEngineFile engine.name = true ∧
        (extract spec.enginePath.dir members fs).get engine = some bytes ∧
        (unpackBundle lib spec host now info members fs).1.get (metaPath engine) =
          some (lib.dumps (metaOf lib bytes host "hf_bundle" onnx now (Dict.get info "sha256")
            (Dict.get info "size"))) := by
  by_cases htrue : (unpackBundle lib spec host now info members fs).2 = true
  · obtain ⟨hsome, hextra⟩ := unpackBundle_eq_true_iff.mp htrue
    by_cases hmem : engine ∈ iterExtractedEngineFiles
        (extract spec.enginePath.dir members fs) spec.enginePath.dir
    · obtain ⟨⟨bytes, hbytes⟩, hdir, hname⟩ := mem_iterExtractedEngineFiles.mp hmem
      refine .inr ⟨bytes, onnxSha lib (extract spec.enginePath.dir members fs) spec, htrue, hdir,
        hname, hbytes, ?_⟩
      rw [unpackBundle]
      dsimp only
      rw [if_neg (by rw [← Option.not_isSome, hsome]; decide), if_neg (by rw [hextra]; decide)]
      refine get_foldl_writeMeta_metaPath ?_ hmem _ hbytes
      intro other hother
      exact (mem_iterExtractedEngineFiles.mp hother).2.2
    · left
      rw [unpackBundle]
      dsimp only
      rw [if_neg (by rw [← Option.not_isSome, hsome]; decide), if_neg (by rw [hextra]; decide)]
      refine get_foldl_writeMeta_of_ne ?_ _
      intro other hother heq
      exact hmem (metaPath_injective heq ▸ hother)
  · left
    rw [unpackBundle] at htrue ⊢
    dsimp only at htrue ⊢
    split
    · rfl
    · split
      · rfl
      · next h₁ h₂ =>
        rw [if_neg h₁, if_neg h₂] at htrue
        exact absurd rfl htrue

end OpenVoiceStream.EngineResolver
