import OpenVoiceStream.EngineResolver.Effect

/-!
# Where an engine comes from

A sidecar with source `hf_bundle` says that its engine was in a bundle, and the release lock
rests on it. It is written for every engine of the directory once a bundle has been unpacked,
so it is true where these are engines of the bundle.

## Main definitions

* `Member` — bytes that were in the archive of a hash.
* `TrueSidecar`, `Truthful` — a sidecar, and the sidecars of a file system, that say so of
  nothing else.
* `Request` — a call for an engine of any spec.
* `Honest` — a call that writes no sidecar for an engine that is not of its bundle.
* `Traced` — what a run keeps.

## Main results

* `Truthful.step` — an honest call keeps the sidecars true.
* `traced_of_honest` — runs of honest calls.
-/

namespace OpenVoiceStream.EngineResolver

variable {β : Type} (lib : Library β)

/-- The bytes are a member of the archive with this hash. -/
def Member (hash : String) (bytes : β) : Prop :=
  ∃ archive members member, lib.sha256 archive = hash ∧ lib.unpack archive = .members members ∧
    members.get member = some bytes

/-- The sidecar says that an engine with this hash came from the bundle with that one. -/
def Says (sidecar : β) (bundle engine : String) : Prop :=
  ∃ d : Dict, lib.read sidecar = .json (.dict d) ∧ d.get "source" = .str "hf_bundle" ∧
    d.get "bundle_sha256" = .str bundle ∧ d.get "engine_sha256" = .str engine

/-- There was such an engine in the bundle. -/
def TrueSidecar (sidecar : β) : Prop :=
  ∀ bundle engine, Says lib sidecar bundle engine →
    ∃ bytes, lib.sha256 bytes = engine ∧ Member lib bundle bytes

/-- Every sidecar is true. -/
def Truthful (fs : Files β) : Prop :=
  ∀ engine sidecar, fs.get (metaPath engine) = some sidecar → TrueSidecar lib sidecar

/-- A call of `_resolve_one`. -/
structure Request (β : Type) where
  spec : EngineSpec
  host : HostSignature
  forceRebuild : Bool
  hub : Hub β
  now : ℤ

/-- The files after a call, and whether it returned. -/
def Request.run (request : Request β) (fs : Files β) : Files β × Bool :=
  resolveOne lib request.spec request.host request.forceRebuild request.hub request.now fs

/-- The call goes on to the hub and unpacks this archive. -/
def Request.Unpacks (request : Request β) (fs : Files β) (info : Dict) (archive : β)
    (members : Files β) : Prop :=
  resolveLocal lib request.spec request.host request.forceRebuild request.now fs = some none ∧
    fetchBundle lib request.spec request.host request.hub = .done info archive members

/-- The files once the archive has been unpacked. -/
def Request.unpacked (request : Request β) (members fs : Files β) : Files β :=
  extract request.spec.enginePath.dir members (fs.erase (metaPath request.spec.enginePath))

/-- An archive that is unpacked brings no untrue sidecar, and where it serves, the engine is of
it, and so is every engine of the directory where the hash is recorded. -/
structure Honest (request : Request β) (fs : Files β) (info : Dict) (members : Files β) :
    Prop where
  names (engine : Path) (hname : isEngineFile engine.name = true) :
    request.spec.enginePath ≠ metaPath engine
  sidecars (member engine : Path) (bytes : β) (hmember : members.get member = some bytes)
    (hplaced : placed request.spec.enginePath.dir member = metaPath engine) :
    TrueSidecar lib bytes
  engine (bytes : β)
    (hbytes : (request.unpacked members fs).get request.spec.enginePath = some bytes)
    (hextra : extraFilesExist (request.unpacked members fs) request.spec = true) :
    ∃ member, members.get member = some bytes
  engines (hash : String) (hhash : info.get "sha256" = .str hash)
    (hserves : ((request.unpacked members fs).get request.spec.enginePath).isSome = true)
    (hextra : extraFilesExist (request.unpacked members fs) request.spec = true)
    (engine : Path) (hdir : engine.dir = request.spec.enginePath.dir)
    (hname : isEngineFile engine.name = true) (bytes : β)
    (hbytes : (request.unpacked members fs).get engine = some bytes) :
    hash ≠ "" ∧ ∃ member, members.get member = some bytes

/-- Every archive that is unpacked in the run is one. -/
def AllHonest (fs : Files β) : List (Request β) → Prop
  | [] => True
  | request :: rest =>
    (∀ info archive members, request.Unpacks lib fs info archive members →
      Honest lib request fs info members) ∧
    AllHonest (request.run lib fs).1 rest

/-- A sidecar that names a bundle for an engine that still has the recorded hash is right. -/
def Told (fs : Files β) : Prop :=
  ∀ engine sidecar bytes bundle, fs.get (metaPath engine) = some sidecar →
    fs.get engine = some bytes → Says lib sidecar bundle (lib.sha256 bytes) →
    Member lib bundle bytes

/-- A call for a spec that requires published integrity returns with an engine of the bundle the
release is locked to. -/
def Locked (request : Request β) (fs : Files β) : Prop :=
  request.spec.requirePublishedIntegrity = true → (request.run lib fs).2 = true →
    ∃ lock bytes, releaseIntegrityLock request.spec request.host = some lock ∧
      (request.run lib fs).1.get request.spec.enginePath = some bytes ∧
      Member lib lock.sha256 bytes

/-- A call that returns with a bundle leaves an engine of it. -/
def Brought (request : Request β) (fs : Files β) : Prop :=
  ∀ info archive members, request.Unpacks lib fs info archive members →
    (request.run lib fs).2 = true →
    ∃ member bytes, (request.run lib fs).1.get request.spec.enginePath = some bytes ∧
      members.get member = some bytes

/-- What holds of every state and of every call of a run. -/
def Traced (fs : Files β) : List (Request β) → Prop
  | [] => Told lib fs
  | request :: rest =>
    Told lib fs ∧ Locked lib request fs ∧ Brought lib request fs ∧
      Traced (request.run lib fs).1 rest

variable {lib} {request : Request β} {fs : Files β}

/-! ### The download -/

/-- An archive that has been unpacked has passed the checks. -/
theorem fetchBundle_done {spec : EngineSpec} {host : HostSignature} {hub : Hub β} {info : Dict}
    {archive : β} {members : Files β}
    (h : fetchBundle lib spec host hub = .done info archive members) :
    publishedIntegrity spec host info = true ∧ downloadMatches lib spec info archive = true ∧
      lib.unpack archive = .members members := by
  rw [fetchBundle] at h
  dsimp only at h
  split at h
  · cases h
  · cases h
  · split at h
    · split at h
      · cases h
      · split at h
        · split at h
          · cases h
          · next hpublished =>
            split at h
            · cases h
            · split at h
              · cases h
              · next hmatches =>
                split at h
                · cases h
                · cases h
                · next members' hunpack =>
                  cases h
                  rw [Bool.not_eq_true', Bool.not_eq_false] at hpublished hmatches
                  exact ⟨hpublished, hmatches, hunpack⟩
        · cases h
    · cases h

/-- A hash that is recorded is that of the archive. -/
theorem sha256_of_downloadMatches {spec : EngineSpec} {info : Dict} {archive : β} {hash : String}
    (h : downloadMatches lib spec info archive = true) (hhash : info.get "sha256" = .str hash)
    (hne : hash ≠ "") : lib.sha256 archive = hash := by
  rw [downloadMatches, hhash] at h
  simp only [Value.truthy, Value.isText, Bool.and_eq_true, Bool.or_eq_true, Bool.not_eq_true',
    decide_eq_false_iff_not, not_not, decide_eq_true_eq] at h
  exact (h.2.resolve_left hne).symm

/-- A strict entry has the hash of the release lock. -/
theorem publishedIntegrity_strict {spec : EngineSpec} {host : HostSignature} {info : Dict}
    (h : publishedIntegrity spec host info = true)
    (hstrict : spec.requirePublishedIntegrity = true) :
    ∃ lock, releaseIntegrityLock spec host = some lock ∧
      info.get "sha256" = .str lock.sha256 ∧ lock.sha256 ≠ "" := by
  rw [publishedIntegrity, hstrict] at h
  simp only [Bool.not_true, Bool.false_or, Bool.and_eq_true] at h
  obtain ⟨⟨hhash, -⟩, hlock⟩ := h
  split at hlock
  · cases hlock
  · next lock hsome =>
    rw [Bool.and_eq_true] at hlock
    refine ⟨lock, hsome, ?_⟩
    cases hsha : info.get "sha256" <;> rw [hsha] at hlock hhash <;>
      simp [Value.isText, isHash] at hlock hhash
    refine ⟨congrArg Value.str hlock.1, ?_⟩
    rintro hempty
    rw [← hlock.1] at hempty
    rw [hempty] at hhash
    cases hhash

/-! ### One call -/

/-- A sidecar of an adopted engine names no bundle. -/
theorem trueSidecar_migration (bytes : β) (host : HostSignature) (onnx : Value) (now : ℤ) :
    TrueSidecar lib (lib.dumps
      (metaOf lib bytes host "existing_install_migration" onnx now .none .none)) := by
  rintro bundle engine ⟨d, hread, hsource, -, -⟩
  obtain ⟨d', hread', -, -, hsource', -⟩ := read_metaOf lib bytes host
    "existing_install_migration" onnx now .none .none
  cases hread.symm.trans hread'
  rw [hsource', Value.str.injEq] at hsource
  exact absurd hsource (by decide)

/-- An honest call keeps the sidecars true. -/
theorem Truthful.step (h : Truthful lib fs)
    (hhonest : ∀ info archive members, request.Unpacks lib fs info archive members →
      Honest lib request fs info members) :
    Truthful lib (request.run lib fs).1 := by
  rw [Request.run, resolveOne]
  split
  · exact h
  · next after hlocal =>
    obtain ⟨-, -, bytes, hbytes, haccepted⟩ := accepted_of_resolveLocal hlocal
    rcases haccepted.files with rfl | ⟨onnx, rfl⟩
    · exact h
    · intro engine sidecar hsidecar
      by_cases heq : engine = request.spec.enginePath
      · subst heq
        rw [get_writeMeta_self hbytes, Option.some.injEq] at hsidecar
        exact hsidecar ▸ trueSidecar_migration _ _ _ _
      · rw [get_writeMeta_of_ne fun h => heq (metaPath_injective h)] at hsidecar
        exact h engine sidecar hsidecar
  · next hlocal =>
    have herased : Truthful lib (fs.erase (metaPath request.spec.enginePath)) := by
      intro engine sidecar hsidecar
      by_cases heq : metaPath engine = metaPath request.spec.enginePath
      · rw [heq, Dictionary.get_erase_self] at hsidecar
        cases hsidecar
      · rw [Dictionary.get_erase_of_ne heq] at hsidecar
        exact h engine sidecar hsidecar
    rw [tryHfResolve]
    split
    · exact herased
    · exact herased
    · next info archive members hfetch =>
      have hon := hhonest info archive members ⟨hlocal, hfetch⟩
      obtain ⟨-, hmatches, hunpack⟩ := fetchBundle_done hfetch
      intro engine sidecar hsidecar
      rcases get_unpackBundle_metaPath lib (fs.erase (metaPath request.spec.enginePath)) request.host
        request.now request.spec info members engine with
        hkept | ⟨bytes, onnx, htrue, hdir, hname, hextracted, hwritten⟩
      · rw [hkept] at hsidecar
        rcases get_extract.mp hsidecar with ⟨member, heq, hmember⟩ | ⟨hbefore, -⟩
        · exact hon.sidecars member engine sidecar hmember heq.symm
        · exact herased engine sidecar hbefore
      · cases hwritten.symm.trans hsidecar
        obtain ⟨hserves, hextra⟩ := unpackBundle_eq_true_iff.mp htrue
        rintro bundle hash ⟨d, hread, -, hbundle, hengine⟩
        obtain ⟨d', hread', -, hengine', -, hbundle'⟩ := read_metaOf lib bytes
          request.host "hf_bundle" onnx request.now (info.get "sha256") (info.get "size")
        cases hread.symm.trans hread'
        rw [hengine'] at hengine
        cases hengine
        have hsha := (hbundle' bundle).mp hbundle
        obtain ⟨hne, member, hmember⟩ :=
          hon.engines bundle hsha hserves hextra engine hdir hname bytes hextracted
        exact ⟨bytes, rfl, archive, members, member, sha256_of_downloadMatches hmatches hsha hne,
          hunpack, hmember⟩

/-- With no two files of one hash, true sidecars are right about the engines that match. -/
theorem Truthful.told (hsha : Function.Injective lib.sha256) (h : Truthful lib fs) :
    Told lib fs := by
  intro engine sidecar bytes bundle hsidecar _ hsays
  obtain ⟨other, hother, hmember⟩ := h engine sidecar hsidecar bundle _ hsays
  exact hsha hother ▸ hmember

/-- The bytes a bundle leaves at the path of the engine. -/
theorem engine_of_unpackBundle {info : Dict} {members : Files β} {now : ℤ} {host : HostSignature}
    (hhonest : Honest lib request fs info members)
    (htrue : (unpackBundle lib request.spec host now info members
      (fs.erase (metaPath request.spec.enginePath))).2 = true) :
    ∃ member bytes, (unpackBundle lib request.spec host now info members
        (fs.erase (metaPath request.spec.enginePath))).1.get request.spec.enginePath = some bytes ∧
      members.get member = some bytes := by
  obtain ⟨hserves, hextra⟩ := unpackBundle_eq_true_iff.mp htrue
  obtain ⟨bytes, hbytes⟩ := Option.isSome_iff_exists.mp hserves
  obtain ⟨member, hmember⟩ := hhonest.engine bytes hbytes hextra
  refine ⟨member, bytes, ?_, hmember⟩
  rw [get_unpackBundle hhonest.names, hbytes]

/-- What a call that unpacks an archive comes to. -/
theorem run_of_unpacks {info : Dict} {archive : β} {members : Files β}
    (h : request.Unpacks lib fs info archive members) :
    request.run lib fs = unpackBundle lib request.spec request.host request.now info members
      (fs.erase (metaPath request.spec.enginePath)) := by
  rw [Request.run, resolveOne, h.1]
  dsimp only
  rw [tryHfResolve, h.2]

theorem brought_of_honest (hhonest : ∀ info archive members,
    request.Unpacks lib fs info archive members → Honest lib request fs info members) :
    Brought lib request fs := by
  intro info archive members hunpacks htrue
  have hrun := run_of_unpacks hunpacks
  rw [hrun] at htrue ⊢
  exact engine_of_unpackBundle (hhonest info archive members hunpacks) htrue

/-- The sidecar of a strict engine that is accepted names the locked bundle. -/
theorem Accepted.member {spec : EngineSpec} {host : HostSignature} {now : ℤ} {bytes : β}
    {after : Files β} (hsha : Function.Injective lib.sha256) (htruthful : Truthful lib fs)
    (hstrict : spec.requirePublishedIntegrity = true)
    (haccepted : Accepted lib spec host now fs bytes after) :
    after = fs ∧ ∃ lock, releaseIntegrityLock spec host = some lock ∧
      Member lib lock.sha256 bytes := by
  cases haccepted with
  | unmarked _ _ hnot => exact absurd (hstrict.symm.trans hnot) (by decide)
  | legacy _ _ _ _ _ hnot => exact absurd (hstrict.symm.trans hnot) (by decide)
  | fresh sidecar d hmeta hread _ hengine hlock =>
    have hlocked := hlock hstrict
    rw [releaseLocked] at hlocked
    split at hlocked
    · next d' lock hd hsome =>
      obtain ⟨sidecar', hmeta', hread'⟩ := readMeta_eq_some hd
      cases hmeta.symm.trans hmeta'
      cases hread.symm.trans hread'
      simp only [Bool.and_eq_true] at hlocked
      obtain ⟨⟨hsource, hbundle⟩, -⟩ := hlocked
      have hsays : Says lib sidecar lock.sha256 (lib.sha256 bytes) :=
        ⟨d, hread, Value.isText_iff.mp hsource, Value.isText_iff.mp hbundle,
          Value.isText_iff.mp hengine⟩
      obtain ⟨other, hother, hmember⟩ := htruthful _ _ hmeta _ _ hsays
      exact ⟨rfl, lock, hsome, hsha hother ▸ hmember⟩
    · cases hlocked

theorem locked_of_honest (hsha : Function.Injective lib.sha256) (htruthful : Truthful lib fs)
    (hhonest : ∀ info archive members, request.Unpacks lib fs info archive members →
      Honest lib request fs info members) :
    Locked lib request fs := by
  intro hstrict htrue
  cases hlocal : resolveLocal lib request.spec request.host request.forceRebuild request.now fs with
  | none =>
    rw [Request.run, resolveOne, hlocal] at htrue
    cases htrue
  | some accepted =>
    cases accepted with
    | some after =>
      have hrun : request.run lib fs = (after, true) := by rw [Request.run, resolveOne, hlocal]
      obtain ⟨-, -, bytes, hbytes, haccepted⟩ := accepted_of_resolveLocal hlocal
      obtain ⟨rfl, lock, hlock, hmember⟩ := haccepted.member hsha htruthful hstrict
      rw [hrun]
      exact ⟨lock, bytes, hlock, hbytes, hmember⟩
    | none =>
      cases hfetch : fetchBundle lib request.spec request.host request.hub with
      | raised =>
        rw [Request.run, resolveOne, hlocal] at htrue
        dsimp only at htrue
        rw [tryHfResolve, hfetch] at htrue
        cases htrue
      | failed =>
        rw [Request.run, resolveOne, hlocal] at htrue
        dsimp only at htrue
        rw [tryHfResolve, hfetch] at htrue
        cases htrue
      | done info archive members =>
        have hunpacks : request.Unpacks lib fs info archive members := ⟨hlocal, hfetch⟩
        obtain ⟨hpublished, hmatches, hunpack⟩ := fetchBundle_done hfetch
        obtain ⟨lock, hlock, hhash, hne⟩ := publishedIntegrity_strict hpublished hstrict
        obtain ⟨member, bytes, hbytes, hmember⟩ :=
          brought_of_honest hhonest info archive members hunpacks htrue
        exact ⟨lock, bytes, hlock, hbytes, archive, members, member,
          sha256_of_downloadMatches hmatches hhash hne, hunpack, hmember⟩

/-! ### Every run -/

/-- **The provenance of a bundle is true** in every run that begins with true sidecars and unpacks
honest archives. -/
theorem traced_of_honest (lib : Library β) (hsha : Function.Injective lib.sha256) (start : Files β)
    (hstart : Truthful lib start) (requests : List (Request β))
    (hhonest : AllHonest lib start requests) : Traced lib start requests := by
  induction requests generalizing start with
  | nil => exact hstart.told hsha
  | cons request rest ih =>
    obtain ⟨hnow, hlater⟩ := hhonest
    exact ⟨hstart.told hsha, locked_of_honest hsha hstart hnow, brought_of_honest hnow,
      ih _ (hstart.step hnow) hlater⟩

/-! ### A directory with an engine of its own -/

/-- No text of the code begins another one. -/
def PrefixFree {γ : Type} (code : γ → List Char) : Prop :=
  ∀ a b x y, code a ++ x = code b ++ y → a = b ∧ x = y

/-- A list, item by item. -/
def listCode {γ : Type} (code : γ → List Char) : List γ → List Char
  | [] => ['.']
  | a :: rest => ',' :: (code a ++ listCode code rest)

theorem PrefixFree.listCode {γ : Type} {code : γ → List Char} (h : PrefixFree code) :
    PrefixFree (listCode code) := by
  intro xs
  induction xs with
  | nil =>
    intro ys x y heq
    cases ys with
    | nil => exact ⟨rfl, List.cons.inj heq |>.2⟩
    | cons b rest => exact absurd (List.cons.inj heq).1 (by decide)
  | cons a rest ih =>
    intro ys x y heq
    cases ys with
    | nil => exact absurd (List.cons.inj heq).1 (by decide)
    | cons b rest' =>
      rw [EngineResolver.listCode, EngineResolver.listCode, List.cons_append, List.cons_append,
        List.cons.injEq, List.append_assoc, List.append_assoc] at heq
      obtain ⟨rfl, hrest⟩ := h a b _ _ heq.2
      obtain ⟨rfl, hxy⟩ := ih rest' x y hrest
      exact ⟨rfl, hxy⟩

theorem PrefixFree.append {γ δ : Type} {code : γ → List Char} {code' : δ → List Char}
    (h : PrefixFree code) (h' : PrefixFree code') :
    PrefixFree fun pair : γ × δ => code pair.1 ++ code' pair.2 := by
  rintro ⟨a, b⟩ ⟨a', b'⟩ x y heq
  simp only [List.append_assoc] at heq
  obtain ⟨rfl, hrest⟩ := h a a' _ _ heq
  obtain ⟨rfl, hxy⟩ := h' b b' _ _ hrest
  exact ⟨rfl, hxy⟩

/-- A text. -/
def textCode (text : String) : List Char := listCode (fun c => [c]) text.toList

theorem prefixFree_textCode : PrefixFree textCode := by
  have hchar : PrefixFree fun c : Char => [c] := fun a b x y h => List.cons.inj h
  intro a b x y heq
  obtain ⟨htext, hxy⟩ := hchar.listCode a.toList b.toList x y heq
  exact ⟨String.toList_injective htext, hxy⟩

/-- A value of a sidecar. -/
def Field.code : Field → List Char
  | .text s => 't' :: textCode s
  | .texts items => 'o' :: listCode (fun item => textCode item.1 ++ textCode item.2) items
  | .other => ['u']

theorem prefixFree_fieldCode : PrefixFree Field.code := by
  intro a b x y heq
  cases a <;> cases b <;> simp only [Field.code, List.cons_append] at heq <;>
    obtain ⟨htag, hrest⟩ := List.cons.inj heq
  case text.text s t =>
    obtain ⟨rfl, hxy⟩ := prefixFree_textCode s t x y hrest
    exact ⟨rfl, hxy⟩
  case texts.texts s t =>
    obtain ⟨rfl, hxy⟩ := (prefixFree_textCode.append prefixFree_textCode).listCode s t x y hrest
    exact ⟨rfl, hxy⟩
  case other.other => exact ⟨rfl, hrest⟩
  all_goals exact absurd htag (by decide)

/-- A hash of sidecars that tells them apart. -/
def sidecarHash (items : List (String × Field)) : String :=
  .ofList (listCode (fun item => textCode item.1 ++ item.2.code) items)

theorem sidecarHash_injective : Function.Injective sidecarHash := by
  intro a b h
  have hcode := String.ofList_injective h
  refine ((prefixFree_textCode.append prefixFree_fieldCode).listCode a b [] [] ?_).1
  rw [List.append_nil, List.append_nil]
  exact hcode

/-- The library of a bundle with one engine. -/
def yBundle : Library Content :=
  sampleLibrary sidecarHash ⟨[(⟨[], "y.engine"⟩, .engine "y")], by decide⟩

theorem sha256_yBundle_injective : Function.Injective yBundle.sha256 := by
  intro a b h
  have htexts := congrArg String.toList h
  cases a <;> cases b <;> simp only [yBundle, sampleLibrary, String.toList_append] at htexts
  case engine.engine s t => exact congrArg _ (String.toList_injective (List.append_cancel_left htexts))
  case bundle.bundle => rfl
  case sidecar.sidecar s t =>
    have hhash := String.toList_injective (List.append_cancel_left htexts)
    exact congrArg _ (sidecarHash_injective hhash)
  all_goals exact absurd (List.cons.inj htexts).1 (by decide)

/-- The spec of the engine of the bundle. -/
def ySpec : EngineSpec :=
  { modelId := "m", enginePath := ⟨["engines"], "y.engine"⟩, onnxPathCandidates := []
    extraFilePaths := [], requirePublishedIntegrity := false }

/-- A device for which the hub has the bundle. -/
def jetson : HostSignature :=
  { sm := "87", trtVersion := "10.3", jpVersion := "6.2", cudaVersion := "12.6"
    platform := "tegra" }

/-- A call with the hub in reach. -/
def online : Request Content :=
  { spec := ySpec, host := jetson, forceRebuild := false
    hub := {
      manifest := some (some [("files", .dict [("engines/" ++ jetson.key ++ ".tar.gz",
        .dict [("sha256", .str "b")])])])
      archive := fun _ => some .bundle }
    now := 1 }

/-- A directory with an engine that has been put there by hand. -/
def handPlaced : Files Content := ⟨[(⟨["engines"], "x.engine"⟩, .engine "x")], by decide⟩

/-- The bundle holds one engine. -/
theorem member_yBundle {hash : String} {bytes : Content} (h : Member yBundle hash bytes) :
    bytes = .engine "y" := by
  obtain ⟨archive, members, member, -, hunpack, hmember⟩ := h
  cases archive <;> cases hunpack
  have hmem := Dictionary.get_eq_some_iff.mp hmember
  exact (Prod.mk.inj (List.mem_singleton.mp hmem)).2

/-- The engine that was there is said to come from the bundle. -/
theorem hand_placed_engine : ¬ ∀ lib : Library Content, Function.Injective lib.sha256 →
    ∀ start requests, Traced lib start requests := by
  intro hall
  obtain ⟨-, -, -, htold⟩ := hall yBundle sha256_yBundle_injective handPlaced [online]
  have hsays : Says yBundle (yBundle.dumps (metaOf yBundle (.engine "x") jetson "hf_bundle" .none 1
      (.str "b") .none)) "b" (yBundle.sha256 (.engine "x")) := by
    obtain ⟨d, hread, -, hengine, hsource, hbundle⟩ := read_metaOf yBundle (.engine "x")
      jetson "hf_bundle" .none 1 (.str "b") .none
    exact ⟨d, hread, hsource, (hbundle _).mpr rfl, hengine⟩
  have hmember := htold ⟨["engines"], "x.engine"⟩ _ (.engine "x") "b" (by decide +kernel)
    (by decide +kernel) hsays
  exact absurd (member_yBundle hmember) (by decide)

/-- In an empty directory the bundle is told true. -/
theorem empty_directory_traced : Traced yBundle Dictionary.empty [online] := by
  have hnames (engine : Path) (name : String) (hname : isEngineFile name = true) :
      (⟨["engines"], name⟩ : Path) ≠ metaPath engine := by
    intro heq
    have hfalse := isEngineFile_metaPath engine
    rw [← heq, hname] at hfalse
    cases hfalse
  refine traced_of_honest yBundle sha256_yBundle_injective .empty ?_ _ ⟨?_, trivial⟩
  · intro engine sidecar h
    cases h
  · rintro info archive members ⟨-, hfetch⟩
    have hdone : fetchBundle yBundle online.spec online.host online.hub =
        .done [("sha256", .str "b")] .bundle ⟨[(⟨[], "y.engine"⟩, .engine "y")], by decide⟩ := by
      rfl
    cases hdone.symm.trans hfetch
    -- every file of the directory is the engine of the bundle
    have honly : ∀ path bytes, (online.unpacked ⟨[(⟨[], "y.engine"⟩, .engine "y")], by decide⟩
        Dictionary.empty).get path = some bytes → bytes = .engine "y" := by
      intro path bytes hbytes
      have hmem := Dictionary.get_eq_some_iff.mp hbytes
      exact (Prod.mk.inj (List.mem_singleton.mp hmem)).2
    constructor
    case names => exact fun engine _ => hnames engine _ (by decide)
    case sidecars =>
      intro member engine bytes hmember hplaced
      have hmem := Dictionary.get_eq_some_iff.mp hmember
      obtain ⟨rfl, -⟩ := Prod.mk.inj (List.mem_singleton.mp hmem)
      exact absurd hplaced (hnames engine _ (by decide))
    case engine =>
      intro bytes hbytes _
      rw [honly _ _ hbytes]
      exact ⟨⟨[], "y.engine"⟩, by decide⟩
    case engines =>
      intro hash hhash _ _ engine _ _ bytes hbytes
      rw [honly _ _ hbytes]
      cases hhash
      exact ⟨by decide, ⟨[], "y.engine"⟩, by decide⟩

end OpenVoiceStream.EngineResolver
