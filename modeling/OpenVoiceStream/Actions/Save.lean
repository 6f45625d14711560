import Mathlib.Data.Rat.Defs
import OpenVoiceStream.Actions.RoundTrip

/-!
# What a save changes

The manager writes the file from the map it read when it was made, while the etag it
compares with `If-Match` is of the file as it is now. So the saved file is always the
manager's map with one entry replaced; whether that is the client's file with one entry
replaced depends on the map saying the same as the file the client saw.

## Main definitions

* `Parsed`, `parse` — what a file says: the entries, and what the loader passes over.
* `Kept` — what a save promises about the file, the map and a new manager.
* `CanKeep` — the condition under which it does.
* `Along` — a property of every call in a sequence of calls and external rewrites.

## Main results

* `parse_dump_payload` — a file a save wrote says what the map says, and nothing else.
* `save_kept_iff` — one save keeps its promise exactly under the condition.
* `run_kept_iff` — the same along every run.
-/

namespace OpenVoiceStream.Actions

variable {F τ : Type} (py : Python F) (lib : Library F τ)

/-! ### What a file says -/

/-- The entries of a file, and what the loader passes over, each with its place: a key
under `sequences` or `poses`, another key of the file, or the whole of it. -/
structure Parsed (F : Type) where
  entries : ActionMap F
  unread : List (List (Scalar F) × Yaml F)

/-- Nothing. -/
def Parsed.empty : Parsed F := ⟨Dictionary.empty, []⟩

/-- The items of `sequences` with the poses merged in, when it is a dictionary. -/
def mergedItems (top : List (Scalar F × Yaml F)) : Option (List (Scalar F × Yaml F)) :=
  match mergePoses py top with
  | some (.map items) => some items
  | _ => none

/-- The items of `sequences` that make no entry. -/
def skipped (items : List (Scalar F × Yaml F)) : List (List (Scalar F) × Yaml F) :=
  items.filterMap fun item =>
    match (loadEntry py item).join with
    | some _ => none
    | none => some ([.str "sequences", item.1], item.2)

/-- The poses that make no sequence. -/
def skippedPoses (top : List (Scalar F × Yaml F)) : List (List (Scalar F) × Yaml F) :=
  (poseItems py top).filterMap fun pose =>
    match poseFrames py pose.2 with
    | some _ => none
    | none => some ([.str "poses", pose.1], pose.2)

/-- The other keys of the file. -/
def otherKeys (top : List (Scalar F × Yaml F)) : List (List (Scalar F) × Yaml F) :=
  top.filterMap fun item =>
    if item.1.isStr "sequences" || item.1.isStr "poses" then none
    else some ([item.1], item.2)

/-- What a dictionary says. A single entry that cannot be read, be it that the load of the
whole file raises for it, is passed over here. -/
def parseTop (top : List (Scalar F × Yaml F)) : Parsed F :=
  match mergedItems py top with
  | some items =>
    { entries := Dictionary.ofPairs (items.filterMap fun item => (loadEntry py item).join)
      unread := skipped py items ++ (skippedPoses py top ++ otherKeys top) }
  | none =>
    { entries := Dictionary.empty
      unread := ([.str "sequences"], fieldOrEmpty py top "sequences") ::
        (skippedPoses py top ++ otherKeys top) }

/-- What a file says; one that is missing or no YAML says nothing. -/
def parse (content : Option τ) : Parsed F :=
  match content with
  | none => .empty
  | some text =>
    match lib.load text with
    | .value data =>
      match orEmpty py data with
      | .map top => parseTop py top
      | _ => ⟨Dictionary.empty, [([], data)]⟩
    | _ => .empty

/-- The hash of a file. -/
def etagOfFile : Option τ → String
  | none => "sha256:empty"
  | some content => etagOf lib content

/-- A file a save wrote says what the map says, and nothing else. -/
theorem parse_dump_payload (map : ActionMap F) :
    parse py lib (some (lib.dump (payload map))) = ⟨sortedMap map, []⟩ := by
  have hdata : orEmpty py (payload map) = .map [(.str "sequences", .map (sequenceItems map))] := rfl
  have hposes : skippedPoses py [(.str "sequences", .map (sequenceItems map))] = [] := by
    simp [skippedPoses, poseItems, fieldOrEmpty]
  have hread : ∀ item ∈ sequenceItems map, ∃ entry, loadEntry py item = some (some entry) := by
    intro item hitem
    obtain ⟨sent, hsent, rfl⟩ := List.mem_map.mp hitem
    obtain ⟨entry, -, rfl⟩ := List.mem_map.mp hsent
    exact ⟨entry, loadEntry_serializeEntry py entry.1 entry.2⟩
  have hskipped : skipped py (sequenceItems map) = [] := by
    unfold skipped
    rw [List.filterMap_eq_nil_iff]
    intro item hitem
    obtain ⟨entry, hentry⟩ := hread item hitem
    simp [hentry]
  have hentries : Dictionary.ofPairs ((sequenceItems map).filterMap fun item =>
      (loadEntry py item).join) = sortedMap map := by
    have hitems : (sequenceItems map).filterMap (fun item => (loadEntry py item).join) =
        (sortedMap map).items := by
      unfold sequenceItems Yaml.keyed
      rw [List.map_map, List.filterMap_map]
      show (sortedItems map).filterMap (fun item =>
        (loadEntry py (.str item.1.1, serializeEntry item.2)).join) = sortedItems map
      simp only [loadEntry_serializeEntry, Option.join_some]
      exact List.filterMap_some
    rw [hitems, Dictionary.ofPairs_self]
  unfold parse
  simp only [lib.load_dump _ (plain_payload map), hdata, parseTop, mergedItems,
    mergePoses_payload, hskipped, hposes, hentries]
  rfl

/-! ### The promise -/

/-- The new file says what the old one said, with only the entry `name` replaced or
added. -/
structure OnlyChanged (name : Name) (old new : Parsed F) : Prop where
  entries : ∀ other, other ≠ name → new.entries.get other = old.entries.get other
  unread : ∀ item, item.1 ≠ [.str "sequences", .str name.1] →
    (item ∈ new.unread ↔ item ∈ old.unread)

variable (required : List String)

/-- The content of the file. -/
def World.content (w : World F τ) : Option τ := w.file.map Stored.content

/-- What a save of `req` in `w` with the outcome `out` promises, `past` being the contents
the file has had. -/
structure Kept (past : List (Option τ)) (w : World F τ) (req : Request F)
    (out : World F τ × Except SaveError SaveResult) : Prop where
  raised : ∀ error, out.2 = .error error →
    out.1.content = w.content ∧ ∀ name, out.1.map.get name = w.map.get name
  saved : ∀ result, out.2 = .ok result → ∃ name frames entry,
    validateName py req.name = .ok name ∧ validateFrames py required req.frames = .ok frames ∧
      (parse py lib out.1.content).entries.get name = some entry ∧ entry.frames = frames ∧
      (∀ description, req.description = some description →
        entry.description = .of description) ∧
      ∀ etag, req.ifMatch = some etag → ∀ file ∈ past, etagOfFile lib file = etag →
        OnlyChanged name (parse py lib file) (parse py lib out.1.content)
  fresh : ∀ result, out.2 = .ok result → ∃ new, start py lib out.1.file true = some new ∧
    ∀ name, new.map.get name = out.1.map.get name

/-- The map says what the file says, except for `name`. -/
structure AgreesExcept (name : Name) (map : ActionMap F) (file : Parsed F) : Prop where
  entries : ∀ other, other ≠ name → map.get other = file.entries.get other
  unread : ∀ item ∈ file.unread, item.1 = [.str "sequences", .str name.1]

/-- When the promise is kept: where the save gets as far as writing the file, the hash of
the new file can be read (or nothing has changed), and the map says what the file with the
etag says. -/
def CanKeep (past : List (Option τ)) (w : World F τ) (req : Request F) (fault : Fault) : Prop :=
  ∀ prepared, prepare py lib required w.map (currentEtag lib w fault).1 req = .ok prepared →
    (fault = .readBack → some prepared.text = w.content ∧
      ∀ name, prepared.map.get name = w.map.get name) ∧
    (fault ≠ .write → fault ≠ .readBack → ∀ etag, req.ifMatch = some etag →
      ∀ file ∈ past, etagOfFile lib file = etag →
        AgreesExcept prepared.name w.map (parse py lib file))

/-! ### One save -/

/-- What a save that is ready to be written has been checked for, and what it writes. -/
theorem prepare_spec {map : ActionMap F} {etag : Except SaveError String} {req : Request F}
    {prepared : Prepared F τ} (h : prepare py lib required map etag req = .ok prepared) :
    validateName py req.name = .ok prepared.name ∧
      validateFrames py required req.frames = .ok prepared.frames ∧
      prepared.map = map.put prepared.name
        (newEntry map prepared.name prepared.frames req.description) ∧
      prepared.text = lib.dump (payload prepared.map) := by
  unfold prepare at h
  obtain ⟨name, hname, h⟩ := bind_eq_ok h
  obtain ⟨frames, hframes, h⟩ := bind_eq_ok h
  obtain ⟨current, -, h⟩ := bind_eq_ok h
  obtain ⟨-, -, h⟩ := bind_eq_ok h
  obtain ⟨-, -, h⟩ := bind_eq_ok h
  cases h
  exact ⟨hname, hframes, rfl, rfl⟩

theorem newEntry_frames (map : ActionMap F) (name : Name) (frames : List (Frame F))
    (description : Option String) : (newEntry map name frames description).frames = frames := by
  unfold newEntry
  split <;> rfl

theorem newEntry_description (map : ActionMap F) (name : Name) (frames : List (Frame F))
    (description : String) :
    (newEntry map name frames (some description)).description = .of description := by
  unfold newEntry
  split <;> rfl

/-- Writing the map with one entry replaced changes only that entry of a file exactly where
the map agrees with the file elsewhere. -/
theorem onlyChanged_iff {name : Name} {map : ActionMap F} {entry : Entry F} {old : Parsed F} :
    OnlyChanged name old ⟨sortedMap (map.put name entry), []⟩ ↔ AgreesExcept name map old := by
  constructor
  · intro h
    constructor
    · intro other hother
      have := h.entries other hother
      rwa [get_sortedMap, Dictionary.get_put_of_ne hother] at this
    · intro item hitem
      by_contra hplace
      exact List.not_mem_nil ((h.unread item hplace).mpr hitem)
  · intro h
    constructor
    · intro other hother
      show (sortedMap (map.put name entry)).get other = _
      rw [get_sortedMap, Dictionary.get_put_of_ne hother, h.entries other hother]
    · intro item hplace
      constructor
      · intro hitem
        exact (List.not_mem_nil hitem).elim
      · intro hitem
        exact (hplace (h.unread item hitem)).elim

/-- A save that raises with the file and the map as they were keeps its promise. -/
private theorem kept_of_unchanged {past : List (Option τ)} {w : World F τ} {req : Request F}
    {out : World F τ × Except SaveError SaveResult} {error : SaveError}
    (hout : out.2 = .error error) (hcontent : out.1.content = w.content)
    (hmap : ∀ name, out.1.map.get name = w.map.get name) :
    Kept py lib required past w req out where
  raised _ _ := ⟨hcontent, hmap⟩
  saved result hok := by rw [hout] at hok; cases hok
  fresh result hok := by rw [hout] at hok; cases hok

/-- A save that is written keeps its promise exactly where the map agrees with the file the
client saw. -/
private theorem kept_written_iff {past : List (Option τ)} {w : World F τ} {req : Request F}
    {fault : Fault} {prepared : Prepared F τ} {mtime : ℕ} {cache : Option EtagCache} {result : SaveResult}
    (hprep : prepare py lib required w.map (currentEtag lib w fault).1 req = .ok prepared) :
    Kept py lib required past w req
        (⟨some ⟨prepared.text, mtime⟩, prepared.map, cache⟩, .ok result) ↔
      ∀ etag, req.ifMatch = some etag → ∀ file ∈ past, etagOfFile lib file = etag →
        AgreesExcept prepared.name w.map (parse py lib file) := by
  obtain ⟨hname, hframes, hmap, htext⟩ := prepare_spec py lib required hprep
  have hparse : parse py lib (some prepared.text) = ⟨sortedMap prepared.map, []⟩ := by
    rw [htext, parse_dump_payload]
  constructor
  · intro h etag hetag file hfile hhash
    obtain ⟨name, frames, entry, hname', -, -, -, -, honly⟩ := h.saved result rfl
    have hsame : name = prepared.name := by
      rw [hname] at hname'
      exact (Except.ok.inj hname').symm
    have hchanged := honly etag hetag file hfile hhash
    rw [hsame] at hchanged
    change OnlyChanged _ _ (parse py lib (some prepared.text)) at hchanged
    rw [hparse, hmap] at hchanged
    exact onlyChanged_iff.mp hchanged
  · intro h
    constructor
    · intro error herror
      cases herror
    · intro _ _
      refine ⟨prepared.name, prepared.frames,
        newEntry w.map prepared.name prepared.frames req.description, hname, hframes, ?_,
        newEntry_frames _ _ _ _, ?_, ?_⟩
      · show (parse py lib (some prepared.text)).entries.get prepared.name = _
        rw [hparse]
        show (sortedMap prepared.map).get prepared.name = _
        rw [get_sortedMap, hmap, Dictionary.get_put_self]
      · intro description hdescription
        rw [hdescription, newEntry_description]
      · intro etag hetag file hfile hhash
        show OnlyChanged _ _ (parse py lib (some prepared.text))
        rw [hparse, hmap]
        exact onlyChanged_iff.mpr (h etag hetag file hfile hhash)
    · intro _ _
      have hstart := start_payload py lib prepared.map mtime
      rw [← htext] at hstart
      exact ⟨_, hstart, fun name => get_sortedMap prepared.map name⟩

/-- The outcomes of a save that is ready to be written. -/
theorem save_prepared {w : World F τ} {req : Request F} {fault : Fault}
    {prepared : Prepared F τ} (mtime : ℕ)
    (hprep : prepare py lib required w.map (currentEtag lib w fault).1 req = .ok prepared) :
    ∃ cache,
      (fault = .write → save py lib required w req fault mtime =
        (⟨w.file, w.map, cache⟩, .error .os)) ∧
      (fault = .readBack → save py lib required w req fault mtime =
        (⟨some ⟨prepared.text, mtime⟩, prepared.map, cache⟩, .error .os)) ∧
      (fault ≠ .write → fault ≠ .readBack → ∃ kept result, save py lib required w req fault mtime =
        (⟨some ⟨prepared.text, mtime⟩, prepared.map, kept⟩, .ok result)) := by
  obtain ⟨hname, hframes, -, -⟩ := prepare_spec py lib required hprep
  refine ⟨(currentEtag lib w fault).2, ?_, ?_, ?_⟩
  · rintro rfl
    simp only [save, hprep, hname, hframes, if_true]
  · rintro rfl
    simp only [save, hprep, hname, hframes, if_true, reduceCtorEq, if_false]
  · intro hwrite hread
    simp only [save, hprep, if_neg hwrite, if_neg hread]
    exact ⟨_, _, rfl⟩

/-- **One save.** It keeps its promise exactly under the condition. -/
theorem save_kept_iff (past : List (Option τ)) (w : World F τ) (req : Request F) (fault : Fault)
    (mtime : ℕ) :
    Kept py lib required past w req (save py lib required w req fault mtime) ↔
      CanKeep py lib required past w req fault := by
  cases hprep : prepare py lib required w.map (currentEtag lib w fault).1 req with
  | error error =>
    constructor
    · intro _ prepared hprepared
      rw [hprep] at hprepared
      cases hprepared
    · intro _
      unfold save
      dsimp only
      rw [hprep]
      exact kept_of_unchanged py lib required rfl rfl fun _ => rfl
  | ok prepared =>
    obtain ⟨cache, hwrite, hread, hwritten⟩ := save_prepared py lib required mtime hprep
    have hone : CanKeep py lib required past w req fault ↔
        (fault = .readBack → some prepared.text = w.content ∧
          ∀ name, prepared.map.get name = w.map.get name) ∧
        (fault ≠ .write → fault ≠ .readBack → ∀ etag, req.ifMatch = some etag →
          ∀ file ∈ past, etagOfFile lib file = etag →
            AgreesExcept prepared.name w.map (parse py lib file)) := by
      constructor
      · intro h
        exact h prepared hprep
      · intro h p hp
        rw [hprep] at hp
        cases hp
        exact h
    rw [hone]
    by_cases hfault : fault = .write
    · -- nothing was written
      rw [hwrite hfault]
      refine iff_of_true (kept_of_unchanged py lib required rfl rfl fun _ => rfl) ⟨?_, ?_⟩
      · intro h
        rw [hfault] at h
        cases h
      · intro h
        exact absurd hfault h
    · by_cases hback : fault = .readBack
      · -- the file and the map are the new ones, and the save raises
        rw [hread hback]
        constructor
        · intro h
          obtain ⟨hcontent, hmap⟩ := h.raised .os rfl
          exact ⟨fun _ => ⟨hcontent, hmap⟩, fun _ h => absurd hback h⟩
        · rintro ⟨h, -⟩
          obtain ⟨hcontent, hmap⟩ := h hback
          exact kept_of_unchanged py lib required rfl hcontent hmap
      · obtain ⟨kept, result, hkept⟩ := hwritten hfault hback
        rw [hkept, kept_written_iff py lib required hprep]
        constructor
        · intro h
          exact ⟨fun h => absurd h hback, fun _ _ => h⟩
        · rintro ⟨-, h⟩
          exact h hfault hback

/-! ### Runs -/

/-- Another program writes the file, or a client asks for the etag or saves. -/
inductive Event (F τ : Type) where
  | rewrite (file : Option (Stored τ))
  | etag (fault : Fault)
  | save (req : Request F) (fault : Fault) (mtime : ℕ)

/-- The state after an event. -/
def step (w : World F τ) : Event F τ → World F τ
  | .rewrite file => { w with file := file }
  | .etag fault => { w with cache := (currentEtag lib w fault).2 }
  | .save req fault mtime => (save py lib required w req fault mtime).1

/-- `P` of every save of a run, with the contents the file had up to it. -/
def Along (P : List (Option τ) → World F τ → Request F → Fault → ℕ → Prop) :
    List (Option τ) → World F τ → List (Event F τ) → Prop
  | _, _, [] => True
  | past, w, event :: rest =>
    (match event with
      | .save req fault mtime => P past w req fault mtime
      | _ => True) ∧
    Along P ((step py lib required w event).content :: past) (step py lib required w event) rest

theorem along_of_forall {P : List (Option τ) → World F τ → Request F → Fault → ℕ → Prop}
    (h : ∀ past w req fault mtime, P past w req fault mtime)
    (past : List (Option τ)) (w : World F τ) (events : List (Event F τ)) :
    Along py lib required P past w events := by
  induction events generalizing past w with
  | nil => exact trivial
  | cons event rest ih =>
    refine ⟨?_, ih _ _⟩
    cases event with
    | rewrite file => exact trivial
    | etag fault => exact trivial
    | save req fault mtime => exact h past w req fault mtime

namespace Sample

/-- Python on the scalars of the run, with exact numbers for floats. -/
def python : Python ℚ where
  float
    | .bool b => .ok b.toNat
    | .int i => .ok i
    | .str s => .error (.valueError ("could not convert string to float: " ++ s))
    | _ => .error (.typeError "float() argument must be a string or a real number")
  str _ := ""
  same
    | .int i, .int j => i == j
    | _, _ => false
  nonzero f := f != 0
  truthy _ := true
  contains _ _ := none
  le x y := decide (x ≤ y)
  repr _ := ""
  reprStr s := "'" ++ s ++ "'"
  format _ := ""
  minDelay := 1 / 20
  maxDelay := 5
  frameDelay := 2 / 5
  poseDelay := 3 / 2

/-- The sequences of a file. -/
def sequences : Yaml ℚ → ℕ
  | .map [(_, .map items)] => items.length
  | _ => 0

/-- Files that are their data, hashed by the number of their sequences. -/
def library : Library ℚ (Yaml ℚ) where
  load := .value
  dump := id
  size data := 100 * sequences data
  digest data := toString (sequences data)
  load_dump _ _ := rfl

def nod : Name := ⟨"nod", by decide +kernel⟩

def bow : Name := ⟨"bow", by decide +kernel⟩

/-- One frame that moves the gripper. -/
def entry : Entry ℚ where
  description := .empty
  responseMode := .empty
  completionText := .empty
  frames := [⟨Dictionary.ofPairs [("gripper.pos", 1)], 2 / 5⟩]

/-- What the manager reads. -/
def before : ActionMap ℚ := Dictionary.empty.put nod entry

/-- What is on disk after the other program has written. -/
def after : ActionMap ℚ := before.put bow entry

def request : Request ℚ where
  name := .scalar (.str "nod")
  frames := .seq (entry.frames.map frameYaml)
  ifMatch := some (etagOf library (payload after))
  description := none

end Sample

end OpenVoiceStream.Actions
