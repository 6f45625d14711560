import OpenVoiceStream.Base.Assoc
import OpenVoiceStream.Base.Value

/-!
# The engine resolver

`_resolve_one` sees to it that a TensorRT engine of a profile is there for the host. It takes
a local engine whose sidecar vouches for its bytes and for the host, adopts an engine from
before there were sidecars, or unpacks the bundle the hub has for the host into the engine's
directory.

A call runs under the resolver's lock. What lies between it and the disk or the network (a
file that cannot be written, a directory in a file's place, symbolic links) is not modelled:
a sidecar can be unreadable, the hub can be out of reach, and a bundle can be broken.

## Main definitions

* `Path`, `Files`, `Library` — files, and the library functions on their bytes.
* `HostSignature`, `EngineSpec` — a host and an engine of the profile.
* `metaMatches`, `migrateExistingEngine` — what is made of a local engine.
* `fetchBundle`, `extract`, `tryHfResolve` — the bundle of the hub.
* `resolveOne` — one resolution.

## Main results

* `hostMatches_toDict` — a host's dictionary is that of no other host.
* `get_extract` — where a file comes from once an archive has been unpacked.
-/

namespace OpenVoiceStream.EngineResolver

/-! ### Files -/

/-- A file by its directory and its name. -/
structure Path where
  dir : List String
  name : String
  deriving DecidableEq

/-- The files there are. -/
abbrev Files (β : Type) := Dictionary Path β

/-- `_meta_path`. -/
def metaPath (engine : Path) : Path := { engine with name := engine.name ++ ".meta.json" }

theorem metaPath_ne (engine : Path) : metaPath engine ≠ engine := by
  intro h
  have hlength := congrArg (fun path => path.name.length) h
  rw [metaPath, String.length_append] at hlength
  exact absurd hlength (by simp)

theorem metaPath_injective : Function.Injective metaPath := by
  rintro ⟨dir, name⟩ ⟨dir', name'⟩ h
  rw [metaPath, metaPath, Path.mk.injEq] at h
  obtain ⟨rfl, hname⟩ := h
  have htexts := congrArg String.toList hname
  rw [String.toList_append, String.toList_append] at htexts
  have heq : name = name' := String.toList_injective (List.append_cancel_right htexts)
  rw [heq]

/-- A text with this ending. -/
def endsWith (text ending : String) : Bool := ending.toList.isSuffixOf text.toList

/-- A name `_iter_extracted_engine_files` takes: the suffix of the path is `.engine` or
`.plan`, and a leading dot begins no suffix. -/
def isEngineFile (name : String) : Bool :=
  !"._".toList.isPrefixOf name.toList &&
    (endsWith name ".engine" && name ≠ ".engine" || endsWith name ".plan" && name ≠ ".plan")

/-- No sidecar is taken for an engine. -/
theorem isEngineFile_metaPath (engine : Path) : isEngineFile (metaPath engine).name = false := by
  have hlast : (metaPath engine).name.toList =
      engine.name.toList ++ ".meta".toList ++ ".json".toList := by
    rw [metaPath, String.toList_append, List.append_assoc]
    rfl
  have hno : ∀ ending : List Char, 5 ≤ ending.length →
      ending.drop (ending.length - 5) ≠ ".json".toList →
      ¬ ending <:+ (metaPath engine).name.toList := by
    intro ending hfive hne hsuffix
    have hjson : ".json".toList <:+ (metaPath engine).name.toList :=
      hlast ▸ List.suffix_append _ _
    have hin := List.suffix_of_suffix_length_le hjson hsuffix hfive
    exact hne (List.suffix_iff_eq_drop.mp hin).symm
  have hengine : endsWith (metaPath engine).name ".engine" = false := by
    rw [endsWith, Bool.eq_false_iff, ne_eq, List.isSuffixOf_iff_suffix]
    exact hno _ (by decide) (by decide)
  have hplan : endsWith (metaPath engine).name ".plan" = false := by
    rw [endsWith, Bool.eq_false_iff, ne_eq, List.isSuffixOf_iff_suffix]
    exact hno _ (by decide) (by decide)
  simp [isEngineFile, hengine, hplan]

/-! ### Hosts and engines -/

/-- `HostSignature`. -/
structure HostSignature where
  sm : String
  trtVersion : String
  jpVersion : String
  cudaVersion : String
  /-- `tegra`, `sbsa` or `x86`. -/
  platform : String
  deriving DecidableEq

namespace HostSignature

/-- `host.key`. -/
def key (host : HostSignature) : String :=
  let middle := if host.platform = "tegra" then "-jp" ++ host.jpVersion else "-" ++ host.platform
  "sm" ++ host.sm ++ "-trt" ++ host.trtVersion ++ middle ++ "-cuda" ++ host.cudaVersion

/-- The fields a sidecar had before there was a platform. -/
def legacyTexts (host : HostSignature) : List (String × String) :=
  [("sm", host.sm), ("trt_version", host.trtVersion), ("jp_version", host.jpVersion),
    ("cuda_version", host.cudaVersion)]

/-- The items of `host.to_dict()`. -/
def texts (host : HostSignature) : List (String × String) :=
  host.legacyTexts ++ [("platform", host.platform)]

theorem nodup_texts (host : HostSignature) : (host.texts.map Prod.fst).Nodup :=
  show List.Nodup ["sm", "trt_version", "jp_version", "cuda_version", "platform"] by decide

/-- `host.to_dict()`. -/
def toDict (host : HostSignature) : Value :=
  .dict (host.texts.map fun item => (item.1, .str item.2))

end HostSignature

/-- The object has these texts. -/
def hasTexts (d : Dict) (texts : List (String × String)) : Bool :=
  texts.all fun item => (d.get item.1).isText item.2

/-- `value == host.to_dict()`; the keys of an object are distinct. -/
def hostMatches (value : Value) (host : HostSignature) : Bool :=
  match value with
  | .dict items => items.length == host.texts.length && hasTexts items host.texts
  | _ => false

/-- A host's dictionary is that of no other host. -/
theorem hostMatches_toDict (host other : HostSignature) :
    hostMatches host.toDict other = true ↔ host = other := by
  obtain ⟨sm, trt, jp, cuda, platform⟩ := host
  obtain ⟨sm', trt', jp', cuda', platform'⟩ := other
  simp [hostMatches, HostSignature.toDict, HostSignature.texts, HostSignature.legacyTexts,
    hasTexts, Dict.get, Dict.getD, Value.isText, List.lookup_cons]

/-- `EngineSpec`: what a resolution reads of it. The two lists are those of
`_onnx_path_candidates` and of `_extra_file_paths`, with the paths resolved. -/
structure EngineSpec where
  modelId : String
  enginePath : Path
  onnxPathCandidates : List Path
  extraFilePaths : List Path
  requirePublishedIntegrity : Bool

/-! ### The bytes of files -/

/-- What `_read_meta` makes of the bytes of a sidecar: `read_text` raises, they are no JSON, or
they are a JSON value. -/
inductive Parsed
  | undecodable
  | invalid
  | json (v : Value)

/-- How a JSON value comes back that has been written and read: a text as it was and from
nothing else, an object of texts as it was. -/
structure ReadBack (written read : Value) : Prop where
  text (s : String) : read = .str s ↔ written = .str s
  texts (items : List (String × String)) (nodup : (items.map Prod.fst).Nodup)
      (object : written = .dict (items.map fun item => (item.1, .str item.2))) : read = written

/-- What `tarfile` makes of a bundle: it cannot be read, a member would leave the directory, or
these are its files, by their paths in it. -/
inductive Unpacked (β : Type)
  | broken
  | escaping
  | members (files : Files β)

/-- The library functions on the bytes of files. -/
structure Library (β : Type) where
  sha256 : β → String
  size : β → ℕ
  /-- `json.loads` of the text. -/
  read : β → Parsed
  /-- `json.dumps`, as the bytes of the text. -/
  dumps : Dict → β
  read_dumps (d : Dict) (nodup : (d.map Prod.fst).Nodup) : ∃ d' : Dict,
    read (dumps d) = .json (.dict d') ∧ ∀ key, ReadBack (d.get key) (d'.get key)
  unpack : β → Unpacked β

/-- A value in a sidecar of a run: a text, an object of texts, or something else. -/
inductive Field
  | text (s : String)
  | texts (items : List (String × String))
  | other
  deriving DecidableEq

/-- Bytes for runs: those of an engine, of the one bundle there is, or of a sidecar. -/
inductive Content
  | engine (tag : String)
  | bundle
  | sidecar (items : List (String × Field))
  deriving DecidableEq

/-- The items of an object of texts. -/
def textItems : List (String × Value) → Option (List (String × String))
  | [] => some []
  | (key, .str s) :: rest => (textItems rest).map ((key, s) :: ·)
  | _ => none

theorem textItems_map (items : List (String × String)) :
    textItems (items.map fun item => (item.1, .str item.2)) = some items := by
  induction items with
  | nil => rfl
  | cons item rest ih => rw [List.map_cons, textItems, ih, Option.map_some]

namespace Field

/-- What a sidecar keeps of a value. -/
def ofValue (v : Value) : Field :=
  match v with
  | .str s => .text s
  | .dict items => ((textItems items).map .texts).getD .other
  | _ => .other

/-- The value that is read. -/
def value (field : Field) : Value :=
  match field with
  | .text s => .str s
  | .texts items => .dict (items.map fun item => (item.1, .str item.2))
  | .other => .bool true

/-- Only a text is kept as one. -/
theorem value_ofValue_eq_str (v : Value) (s : String) :
    (ofValue v).value = .str s ↔ v = .str s := by
  cases v with
  | str t => rfl
  | dict items =>
    cases h : textItems items <;> simp [ofValue, value, h]
  | _ => simp [ofValue, value]

theorem readBack (v : Value) : ReadBack v (ofValue v).value where
  text := value_ofValue_eq_str v
  texts items _ object := by
    subst object
    rw [ofValue, textItems_map]
    rfl

end Field

theorem lookup_map_value {γ δ : Type} (f : γ → δ) (items : List (String × γ)) (key : String) :
    (items.map fun item => (item.1, f item.2)).lookup key = (items.lookup key).map f := by
  induction items with
  | nil => rfl
  | cons item rest ih =>
    rw [List.map_cons, List.lookup_cons, List.lookup_cons]
    split
    · rfl
    · exact ih

/-- The library of these bytes, with these members in the bundle. -/
def sampleLibrary (sha : List (String × Field) → String) (members : Files Content) :
    Library Content where
  sha256
    | .engine tag => "e" ++ tag
    | .bundle => "b"
    | .sidecar items => "s" ++ sha items
  size _ := 1
  read
    | .sidecar items => .json (.dict (items.map fun item => (item.1, item.2.value)))
    | _ => .invalid
  dumps d := .sidecar (d.map fun item => (item.1, .ofValue item.2))
  read_dumps d _ := by
    refine ⟨_, rfl, fun key => ?_⟩
    rw [Dict.get, Dict.get, Dict.getD, Dict.getD, lookup_map_value Field.value,
      lookup_map_value Field.ofValue, Option.map_map]
    cases d.lookup key with
    | none => exact ⟨fun _ => Iff.rfl, fun _ _ _ => rfl⟩
    | some v => exact Field.readBack v
  unpack
    | .bundle => .members members
    | _ => .broken

variable {β : Type} (lib : Library β)

/-! ### The local engine -/

/-- `_read_meta`; there is no value where it raises. -/
def readMeta (fs : Files β) (engine : Path) : Option (Option Value) :=
  match fs.get (metaPath engine) with
  | none => some none
  | some bytes =>
    match lib.read bytes with
    | .undecodable => none
    | .invalid => some none
    | .json .none => some none
    | .json v => some (some v)

/-- An item that is left out where there is no value. -/
def optionalItem (key : String) (v : Value) : Dict :=
  match v with
  | .none => []
  | v => [(key, v)]

/-- The object `_write_meta` writes for an engine of these bytes. -/
def metaOf (engine : β) (host : HostSignature) (source : String) (onnxSha : Value) (now : ℤ)
    (bundleSha256 bundleSize : Value) : Dict :=
  [("host", host.toDict), ("engine_sha256", .str (lib.sha256 engine)), ("onnx_sha256", onnxSha),
    ("source", .str source), ("written_at", .int now)] ++
    optionalItem "bundle_sha256" bundleSha256 ++ optionalItem "bundle_size" bundleSize

/-- `_write_meta`, for an engine that is there. -/
def writeMeta (fs : Files β) (engine : Path) (host : HostSignature) (source : String)
    (onnxSha : Value) (now : ℤ) (bundleSha256 bundleSize : Value) : Files β :=
  match fs.get engine with
  | none => fs
  | some bytes =>
    fs.put (metaPath engine)
      (lib.dumps (metaOf lib bytes host source onnxSha now bundleSha256 bundleSize))

/-- `_meta_matches`; there is no value where it raises. -/
def metaMatches (fs : Files β) (engine : Path) (host : HostSignature) : Option Bool :=
  match fs.get engine with
  | none => some false
  | some bytes =>
    match readMeta lib fs engine with
    | none => none
    | some none => some false
    | some (some v) =>
      if v.truthy then
        match v with
        | .dict d =>
          some (hostMatches (Dict.get d "host") host &&
            (Dict.get d "engine_sha256").isText (lib.sha256 bytes))
        -- `get` of a value that is no object raises
        | _ => none
      else some false

/-- The sidecar of an installation from before there was a platform, for this engine. -/
def legacyMatches (d : Dict) (host : HostSignature) (engine : β) : Bool :=
  match Dict.get d "host" with
  | .dict cachedHost =>
    (cachedHost.lookup "platform").isNone && host.platform = "tegra" &&
      hasTexts cachedHost host.legacyTexts &&
      (!(Dict.get d "engine_sha256").truthy ||
        (Dict.get d "engine_sha256").isText (lib.sha256 engine))
  | _ => false

/-- `_migrate_existing_engine`: the files after it where it returns true. It raises where there
is no value. -/
def migrateExistingEngine (fs : Files β) (engine : Path) (host : HostSignature) (now : ℤ) :
    Option (Option (Files β)) :=
  let adopt (onnxSha : Value) : Files β :=
    writeMeta lib fs engine host "existing_install_migration" onnxSha now .none .none
  match fs.get engine with
  | none => some none
  | some bytes =>
    if lib.size bytes = 0 then some none
    else
      match readMeta lib fs engine with
      | none => none
      | some none =>
        if (fs.get (metaPath engine)).isSome then some none else some (some (adopt .none))
      | some (some (.dict d)) =>
        if legacyMatches lib d host bytes then some (some (adopt (Dict.get d "onnx_sha256")))
        else some none
      -- `get` of a value that is no object raises
      | some (some _) => none

/-- `_extra_files_exist`. -/
def extraFilesExist (fs : Files β) (spec : EngineSpec) : Bool :=
  spec.extraFilePaths.all fun path => (fs.get path).isSome

/-! ### The bundle -/

/-- An entry of `matcha_artifacts.json`. -/
structure TrtBundle where
  hostKey : String
  sha256 : String
  size : ℕ

/-- `matcha_artifacts.json["trt_bundle"]`. -/
def trtBundle : TrtBundle :=
  { hostKey := "sm87-trt10.3-jp6.2-cuda12.6"
    sha256 := "c3aa70b8a484db59acc8ef7b635b7ed2bfdd5d9425f9212bac03e983152968e9"
    size := 121013510 }

/-- `_release_integrity_lock`. -/
def releaseIntegrityLock (spec : EngineSpec) (host : HostSignature) : Option TrtBundle :=
  if spec.modelId ≠ "matcha-icefall-zh-en" then none
  else if trtBundle.hostKey ≠ host.key then none
  else if trtBundle.sha256.length ≠ 64 then none
  else if trtBundle.size = 0 then none
  else some trtBundle

/-- `v == n` for an integer. -/
def isInt (v : Value) (n : ℤ) : Bool :=
  match v with
  | .int m => m = n
  | .bool b => n = if b then 1 else 0
  | .float q => q = n
  | _ => false

/-- `isinstance(v, int) and v > 0`. -/
def isPositiveInt (v : Value) : Bool :=
  match v with
  | .int n => 0 < n
  | .bool b => b
  | _ => false

/-- `isinstance(v, str) and len(v) == 64`. -/
def isHash (v : Value) : Bool :=
  match v with
  | .str s => s.length = 64
  | _ => false

/-- What the hub answers a call: `fetch_manifest` fails with an `ArtifactError`, raises
something else or returns an object, and what it serves under a path. -/
structure Hub (β : Type) where
  manifest : Option (Option Dict)
  archive : String → Option β

/-- How the download of a bundle ends: an exception, a failure that is logged, or an archive
with its members, which has passed the checks of this entry of the manifest. -/
inductive Download (β : Type)
  | raised
  | failed
  | done (info : Dict) (archive : β) (members : Files β)

/-- The checks of an entry for a spec that requires published integrity. -/
def publishedIntegrity (spec : EngineSpec) (host : HostSignature) (info : Dict) : Bool :=
  !spec.requirePublishedIntegrity ||
    (isHash (info.get "sha256") && isPositiveInt (info.get "size") &&
      match releaseIntegrityLock spec host with
      | none => false
      | some lock => (info.get "sha256").isText lock.sha256 && isInt (info.get "size") lock.size)

/-- The checks of `download_file`. -/
def downloadMatches (spec : EngineSpec) (info : Dict) (archive : β) : Bool :=
  (!spec.requirePublishedIntegrity || isInt (info.get "size") (lib.size archive)) &&
    (!(info.get "sha256").truthy || (info.get "sha256").isText (lib.sha256 archive))

/-- `_try_hf_resolve` until the archive has been read. -/
def fetchBundle (spec : EngineSpec) (host : HostSignature) (hub : Hub β) : Download β :=
  let manifestKey := "engines/" ++ host.key ++ ".tar.gz"
  match hub.manifest with
  | none => .failed
  | some none => .raised
  | some (some manifest) =>
    match manifest.get "files" with
    | .dict files =>
      let info := Dict.get files manifestKey
      if !info.truthy then .failed
      else
        match info with
        | .dict info =>
          if !publishedIntegrity spec host info then .failed
          else
            match hub.archive ("models/" ++ spec.modelId ++ "/" ++ manifestKey) with
            | none => .failed
            | some archive =>
              if !downloadMatches lib spec info archive then .failed
              else
                match lib.unpack archive with
                | .broken => .raised
                | .escaping => .failed
                | .members members => .done info archive members
        -- `get` of a value that is no object raises
        | _ => .raised
    | _ => .failed

/-- The item of an archive's top level that holds this member. -/
def Path.top (member : Path) : String := member.dir.headD member.name

/-- Where a member of an archive is put. -/
def placed (dir : List String) (member : Path) : Path := { member with dir := dir ++ member.dir }

theorem placed_injective (dir : List String) : Function.Injective (placed dir) := by
  rintro ⟨sub, name⟩ ⟨sub', name'⟩ h
  rw [placed, placed, Path.mk.injEq] at h
  obtain ⟨hsub, rfl⟩ := h
  have heq : sub = sub' := List.append_cancel_left hsub
  rw [heq]

/-- The file is in what is moved away for an item of the archive's top level. -/
def isReplaced (dir : List String) (members : Files β) (path : Path) : Bool :=
  dir.isPrefixOf path.dir &&
    (members.items.map fun item => item.1.top).contains
      (Path.top { path with dir := path.dir.drop dir.length })

theorem isReplaced_placed {dir : List String} {members : Files β} {item : Path × β}
    (h : item ∈ members.items) : isReplaced dir members (placed dir item.1) = true := by
  have hdrop : (placed dir item.1).dir.drop dir.length = item.1.dir := List.drop_left
  have hpre : dir.isPrefixOf (placed dir item.1).dir = true :=
    List.isPrefixOf_iff_prefix.mpr (List.prefix_append _ _)
  rw [isReplaced, hpre, hdrop, Bool.true_and, List.contains_iff_mem]
  exact List.mem_map_of_mem h

/-- `download_and_extract_tarball`: every item of the top level replaces what has its name. -/
def extract (dir : List String) (members : Files β) (fs : Files β) : Files β where
  items := fs.items.filter (fun item => !isReplaced dir members item.1) ++
    members.items.map fun item => (placed dir item.1, item.2)
  nodup := by
    have hplaced : (members.items.map fun item => (placed dir item.1, item.2)).map Prod.fst =
        (members.items.map Prod.fst).map (placed dir) := by
      rw [List.map_map, List.map_map]
      rfl
    rw [List.map_append, hplaced]
    refine List.Nodup.append (fs.nodup.sublist (List.filter_sublist.map Prod.fst))
      (members.nodup.map (placed_injective dir)) ?_
    intro path hkept hput
    obtain ⟨item, hitem, rfl⟩ := List.mem_map.mp hkept
    obtain ⟨member, hmember, heq⟩ := List.mem_map.mp hput
    obtain ⟨entry, hentry, rfl⟩ := List.mem_map.mp hmember
    have hnot := (List.mem_filter.mp hitem).2
    rw [← heq, isReplaced_placed hentry] at hnot
    cases hnot

/-- Where a file comes from once an archive has been unpacked: it is one of its members, or was
there before and is none. -/
theorem get_extract {dir : List String} {members fs : Files β} {path : Path} {bytes : β} :
    (extract dir members fs).get path = some bytes ↔
      (∃ member, path = placed dir member ∧ members.get member = some bytes) ∨
        (fs.get path = some bytes ∧ isReplaced dir members path = false) := by
  rw [Dictionary.get_eq_some_iff, extract, List.mem_append, or_comm]
  refine or_congr ?_ ?_
  · rw [List.mem_map]
    constructor
    · rintro ⟨item, hitem, heq⟩
      rw [Prod.mk.injEq] at heq
      exact ⟨item.1, heq.1.symm, Dictionary.get_eq_some_iff.mpr (heq.2 ▸ hitem)⟩
    · rintro ⟨member, rfl, hmember⟩
      exact ⟨_, Dictionary.get_eq_some_iff.mp hmember, rfl⟩
  · rw [List.mem_filter, ← Dictionary.get_eq_some_iff, Bool.not_eq_true']

/-- `_iter_extracted_engine_files`. -/
def iterExtractedEngineFiles (fs : Files β) (dir : List String) : List Path :=
  (fs.items.map Prod.fst).filter fun path => path.dir = dir ∧ isEngineFile path.name

/-- The hash of the first ONNX input that exists. -/
def onnxSha (fs : Files β) (spec : EngineSpec) : Value :=
  .ofId (spec.onnxPathCandidates.findSome? fun path => (fs.get path).map lib.sha256)

/-- What `_try_hf_resolve` leaves of the files once the archive has been read, and whether it
returns true. -/
def unpackBundle (spec : EngineSpec) (host : HostSignature) (now : ℤ) (info : Dict)
    (members fs : Files β) : Files β × Bool :=
  let fs := extract spec.enginePath.dir members fs
  if (fs.get spec.enginePath).isNone then (fs, false)
  else if !extraFilesExist fs spec then (fs, false)
  else
    let onnx := onnxSha lib fs spec
    let write (fs : Files β) (engine : Path) : Files β :=
      writeMeta lib fs engine host "hf_bundle" onnx now (info.get "sha256") (info.get "size")
    ((iterExtractedEngineFiles fs spec.enginePath.dir).foldl write fs, true)

/-- `_try_hf_resolve`; an exception leaves the files as they are. -/
def tryHfResolve (spec : EngineSpec) (host : HostSignature) (hub : Hub β) (now : ℤ)
    (fs : Files β) : Files β × Bool :=
  match fetchBundle lib spec host hub with
  | .raised => (fs, false)
  | .failed => (fs, false)
  | .done info _ members => unpackBundle lib spec host now info members fs

/-! ### One resolution -/

/-- The sidecar names the bundle the release is locked to. -/
def releaseLocked (spec : EngineSpec) (host : HostSignature) (fs : Files β) : Bool :=
  match readMeta lib fs spec.enginePath, releaseIntegrityLock spec host with
  | some (some (.dict d)), some lock =>
    (Dict.get d "source").isText "hf_bundle" && (Dict.get d "bundle_sha256").isText lock.sha256 &&
      isInt (Dict.get d "bundle_size") lock.size
  | _, _ => false

/-- `_resolve_one` as far as the local engine goes: the files where it returns, and nothing in
their place where it goes on to the hub. It raises where there is no value. -/
def resolveLocal (spec : EngineSpec) (host : HostSignature) (forceRebuild : Bool) (now : ℤ)
    (fs : Files β) : Option (Option (Files β)) :=
  match metaMatches lib fs spec.enginePath host with
  | none => none
  | some fresh =>
    let cacheValid := fresh && (!spec.requirePublishedIntegrity || releaseLocked lib spec host fs)
    if !forceRebuild && cacheValid && extraFilesExist fs spec then some (some fs)
    else if !forceRebuild && !spec.requirePublishedIntegrity && extraFilesExist fs spec then
      migrateExistingEngine lib fs spec.enginePath host now
    else some none

/-- `_resolve_one`: the files after it, and whether it returns. -/
def resolveOne (spec : EngineSpec) (host : HostSignature) (forceRebuild : Bool) (hub : Hub β)
    (now : ℤ) (fs : Files β) : Files β × Bool :=
  match resolveLocal lib spec host forceRebuild now fs with
  | none => (fs, false)
  | some (some fs) => (fs, true)
  | some none => tryHfResolve lib spec host hub now (fs.erase (metaPath spec.enginePath))

/-! ### What a sidecar says -/

/-- The sidecar vouches for an engine of these bytes on this host: it matches, or it did before
there was a platform. -/
def vouches (host : HostSignature) (engine : β) (sidecar : β) : Bool :=
  match lib.read sidecar with
  | .json (.dict d) =>
    hostMatches (Dict.get d "host") host &&
        (Dict.get d "engine_sha256").isText (lib.sha256 engine) ||
      legacyMatches lib d host engine
  | _ => false

variable {lib}

theorem keys_optionalItem (key : String) (v : Value) :
    ((optionalItem key v).map Prod.fst).Sublist [key] := by
  cases v <;> first | exact List.nil_sublist _ | exact List.Sublist.refl _

theorem get_optionalItem {key : String} {d : Dict} (h : d.get key = .none) (v : Value) :
    Dict.get (optionalItem key v ++ d) key = v := by
  cases v <;> first | exact h | simp [optionalItem, Dict.get, Dict.getD]

variable (lib) in
theorem nodup_metaOf (engine : β) (host : HostSignature) (source : String) (onnxSha : Value)
    (now : ℤ) (bundleSha256 bundleSize : Value) :
    ((metaOf lib engine host source onnxSha now bundleSha256 bundleSize).map Prod.fst).Nodup := by
  have hkeys : List.Nodup ["host", "engine_sha256", "onnx_sha256", "source", "written_at",
      "bundle_sha256", "bundle_size"] := by decide
  refine hkeys.sublist ?_
  rw [metaOf, List.append_assoc, List.map_append, List.map_append]
  exact List.Sublist.append (List.Sublist.refl _)
    ((keys_optionalItem "bundle_sha256" bundleSha256).append
      (keys_optionalItem "bundle_size" bundleSize))

variable (lib) in
/-- A sidecar that has been written, as it is read. -/
theorem read_metaOf (engine : β) (host : HostSignature) (source : String) (onnxSha : Value)
    (now : ℤ) (bundleSha256 bundleSize : Value) : ∃ d : Dict,
      lib.read (lib.dumps (metaOf lib engine host source onnxSha now bundleSha256 bundleSize)) =
        .json (.dict d) ∧
      d.get "host" = host.toDict ∧ d.get "engine_sha256" = .str (lib.sha256 engine) ∧
      d.get "source" = .str source ∧
      ∀ s, d.get "bundle_sha256" = .str s ↔ bundleSha256 = .str s := by
  obtain ⟨d, hread, hback⟩ := lib.read_dumps _ (nodup_metaOf lib engine host source
    onnxSha now bundleSha256 bundleSize)
  refine ⟨d, hread, (hback "host").texts host.texts host.nodup_texts rfl,
    ((hback _).text _).mpr rfl, ((hback _).text _).mpr rfl,
    fun s => ((hback "bundle_sha256").text s).trans ?_⟩
  have hget : (metaOf lib engine host source onnxSha now bundleSha256 bundleSize).get
      "bundle_sha256" = bundleSha256 := by
    have hsize : (optionalItem "bundle_size" bundleSize).get "bundle_sha256" = .none := by
      cases bundleSize <;> rfl
    exact get_optionalItem hsize bundleSha256
  rw [hget]

end OpenVoiceStream.EngineResolver
