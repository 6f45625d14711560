import Mathlib.Data.List.Sort
import OpenVoiceStream.Actions.Value
import OpenVoiceStream.TtsSpeakers.Presets

/-!
# The actions file and its manager

`ActionsManager` reads `actions.yaml` once, when it is made, and from then on writes the
whole file from its own map on every `save`. The etag a client sends with `If-Match` is
the hash of the file as it is on disk, kept for as long as the file's size and mtime stay.
Other programs may rewrite the file between the calls.

## Main definitions

* `Name`, `Stripped`, `Frame`, `Entry` — an entry of the map, well formed by its type.
* `loadTop`, `start` — `_load_from_disk`.
* `serializeEntry`, `payload` — what a save writes.
* `validateName`, `validateFrames`, `currentEtag`, `prepare`, `save` — `save`, in the
  order of the source.
-/

namespace OpenVoiceStream.Actions

open TtsSpeakers (strip strip_strip)

/-! ### Names, texts and entries -/

/-- `[a-z]`. -/
def lower (c : Char) : Bool := 'a' ≤ c && c ≤ 'z'

/-- `[a-z0-9_]`. -/
def wordChar (c : Char) : Bool := lower c || ('0' ≤ c && c ≤ '9') || c == '_'

/-- `[a-z0-9_]*$`, where `$` also stands before a newline at the end. -/
def nameTail : List Char → Bool
  | [] => true
  | ['\n'] => true
  | c :: rest => wordChar c && nameTail rest

/-- `NAME_RE.match(name)`. -/
def nameRe (name : String) : Bool :=
  match name.toList with
  | [] => false
  | c :: rest => lower c && nameTail rest

/-- The name of an action. -/
abbrev Name := { name : String // nameRe name = true }

/-- A text without blanks at its ends. -/
@[ext]
structure Stripped where
  text : String
  stripped : strip text = text

/-- `text.strip()`. -/
def Stripped.of (text : String) : Stripped := ⟨strip text, strip_strip text⟩

/-- The text `""`. -/
def Stripped.empty : Stripped := .of ""

/-- A frame as the manager keeps it. -/
@[ext]
structure Frame (F : Type) where
  joints : Dictionary String F
  delay : F

/-- An entry of the map; an empty `responseMode` or `completionText` is none. -/
@[ext]
structure Entry (F : Type) where
  description : Stripped
  responseMode : Stripped
  completionText : Stripped
  frames : List (Frame F)

/-- `_action_map`. -/
abbrev ActionMap (F : Type) := Dictionary Name (Entry F)

variable {F τ : Type} (py : Python F) (lib : Library F τ)

/-! ### Loading

A load that raises is `none`. -/

/-- `float(frame.get("delay", 0.4))`. -/
def loadDelay (frame : List (Scalar F × Yaml F)) : Option F :=
  match Yaml.field frame "delay" with
  | none => some py.frameDelay
  | some delay => (delay.toFloat py).toOption

/-- `{str(k): float(v) for k, v in …}`. -/
def loadJoints (items : List (Scalar F × Yaml F)) : Option (Dictionary String F) :=
  (items.mapM fun item : Scalar F × Yaml F =>
    (item.2.toFloat py).toOption.map fun value => (item.1.text py, value)).map
    Dictionary.ofPairs

/-- One frame of `_coerce_frames`; a flat one holds its joints beside its delay. -/
def coerceFrame (frame : List (Scalar F × Yaml F)) : Option (Frame F) := do
  let joints ← match Yaml.field frame "joints" with
    | some (.map joints) => loadJoints py joints
    | _ => loadJoints py (frame.filter fun item => !item.1.isStr "delay")
  let delay ← loadDelay py frame
  return ⟨joints, delay⟩

/-- The frames of a list that are mappings. -/
def mappings (items : List (Yaml F)) : List (List (Scalar F × Yaml F)) :=
  items.filterMap fun
    | .map frame => some frame
    | _ => none

/-- The list of frames of an entry, in either of its shapes. -/
def frameList : Yaml F → Option (List (Yaml F))
  | .seq items => some items
  | .map items =>
    match Yaml.field items "frames" with
    | some (.seq frames) => some frames
    | _ => none
  | .scalar _ => none

/-- `_coerce_frames`. -/
def coerceFrames (sdata : Yaml F) : Option (Option (List (Frame F))) :=
  match frameList sdata with
  | none => some none
  | some items => ((mappings items).mapM (coerceFrame py)).map some

/-- A text of an entry, stripped; what is no text counts as empty. -/
def entryText (name : String) : Yaml F → Stripped
  | .map items =>
    match Yaml.field items name with
    | some (.scalar (.str s)) => .of s
    | _ => .empty
  | _ => .empty

/-- One item of `sequences`: the entry it makes, or `some none` where it is skipped. -/
def loadEntry (item : Scalar F × Yaml F) : Option (Option (Name × Entry F)) :=
  (coerceFrames py item.2).map fun frames =>
    match frames, item.1 with
    | some frames, .str sname =>
      if h : nameRe sname = true then
        some (⟨sname, h⟩,
          { description := entryText "description" item.2
            responseMode := entryText "response_mode" item.2
            completionText := entryText "completion_text" item.2
            frames := frames })
      else none
    | _, _ => none

/-- `x or {}`. -/
def orEmpty (data : Yaml F) : Yaml F := if data.truthy py then data else .map []

/-- `data.get(name) or {}`. -/
def fieldOrEmpty (top : List (Scalar F × Yaml F)) (name : String) : Yaml F :=
  ((Yaml.field top name).map (orEmpty py)).getD (.map [])

/-- A pose as the single frame it becomes. -/
def poseFrames : Yaml F → Option (Yaml F)
  | .map pose =>
    match Yaml.field pose "joints" with
    | some (.map joints) =>
      some (.seq [.map [(.str "joints", .map joints),
        (.str "delay", .scalar (.float py.poseDelay))]])
    | _ => none
  | _ => none

/-- One legacy pose, added to the sequences unless its name is there. -/
def addPose (sequences : Yaml F) (pose : Scalar F × Yaml F) : Option (Yaml F) := do
  if ← sequences.contains py pose.1 then
    return sequences
  match poseFrames py pose.2 with
  | some frames => sequences.setItem pose.1 frames
  | none => return sequences

/-- The items of `poses`, when it is a dictionary. -/
def poseItems (top : List (Scalar F × Yaml F)) : List (Scalar F × Yaml F) :=
  match fieldOrEmpty py top "poses" with
  | .map items => items
  | _ => []

/-- `sequences` with the legacy poses collapsed into it. -/
def mergePoses (top : List (Scalar F × Yaml F)) : Option (Yaml F) :=
  (poseItems py top).foldlM (addPose py) (fieldOrEmpty py top "sequences")

/-- The map of a file whose data is a dictionary. -/
def loadTop (top : List (Scalar F × Yaml F)) : Option (ActionMap F) := do
  match ← mergePoses py top with
  | .map items =>
    let entries ← items.mapM (loadEntry py)
    return Dictionary.ofPairs (entries.filterMap id)
  | _ => return Dictionary.empty

/-! ### The file, the manager and its construction -/

/-- A file with its mtime. -/
structure Stored (τ : Type) where
  content : τ
  mtime : ℕ

/-- `_EtagCache`. -/
structure EtagCache where
  etag : String
  size : ℕ
  mtime : ℕ

/-- The file on disk, and the manager's map and etag cache. -/
structure World (F τ : Type) where
  file : Option (Stored τ)
  map : ActionMap F
  cache : Option EtagCache

/-- The etag of a file that is there. -/
def etagOf (content : τ) : String := "sha256:" ++ lib.digest content

/-- What `_refresh_etag_locked` keeps. -/
def cacheOf (file : Stored τ) : EtagCache :=
  ⟨etagOf lib file.content, lib.size file.content, file.mtime⟩

/-- `ActionsManager(yaml_path)`. A file that cannot be opened or is no YAML is passed over
with a warning. -/
def start (file : Option (Stored τ)) (readable : Bool) : Option (World F τ) :=
  match file with
  | none => some ⟨none, Dictionary.empty, none⟩
  | some stored =>
    if readable = false then some ⟨some stored, Dictionary.empty, none⟩
    else
      match lib.load stored.content with
      | .yamlError => some ⟨some stored, Dictionary.empty, none⟩
      | .raises => none
      | .value data =>
        match orEmpty py data with
        | .map top => (loadTop py top).map fun map => ⟨some stored, map, some (cacheOf lib stored)⟩
        | _ => some ⟨some stored, Dictionary.empty, none⟩

/-! ### Writing -/

/-- A frame of the map as data. -/
def frameYaml (frame : Frame F) : Yaml F :=
  .map (Yaml.keyed
    [("joints", .map (Yaml.keyed (frame.joints.items.map fun j => (j.1, .scalar (.float j.2))))),
      ("delay", .scalar (.float frame.delay))])

/-- An optional text of an entry as items. -/
def textItems (key : String) (text : Stripped) : List (String × Yaml F) :=
  if text.text = "" then [] else [(key, .scalar (.str text.text))]

/-- The items of an entry that has some text. -/
def entryItems (entry : Entry F) : List (String × Yaml F) :=
  textItems "description" entry.description ++
    (textItems "response_mode" entry.responseMode ++
      (textItems "completion_text" entry.completionText ++
        [("frames", .seq (entry.frames.map frameYaml))]))

/-- `_serialize_entry`; without any text it is the bare list of frames. -/
def serializeEntry (entry : Entry F) : Yaml F :=
  if entry.description.text = "" ∧ entry.responseMode.text = "" ∧ entry.completionText.text = ""
  then .seq (entry.frames.map frameYaml)
  else .map (Yaml.keyed (entryItems entry))

/-- The items of the map by name. -/
def sortedItems (map : ActionMap F) : List (Name × Entry F) :=
  map.items.insertionSort fun a b => a.1.1 ≤ b.1.1

/-- The data of the whole file. -/
def payload (map : ActionMap F) : Yaml F :=
  .map (Yaml.keyed [("sequences",
    .map (Yaml.keyed ((sortedItems map).map fun item => (item.1.1, serializeEntry item.2))))])

/-! ### Saving -/

/-- `ActionsError`. -/
structure ActionsError where
  code : String
  message : String
  httpStatus : ℕ

/-- What a save raises: an `ActionsError`, an `OverflowError` of `float`, or an
`OSError`. -/
inductive SaveError where
  | actions (error : ActionsError)
  | overflow
  | os

/-- An `ActionsError` with the default status. -/
def badRequest (code message : String) : SaveError := .actions ⟨code, message, 400⟩

/-- `MAX_FRAMES`. -/
def maxFrames : ℕ := 50

/-- `MAX_YAML_BYTES`. -/
def maxYamlBytes : ℕ := 100 * 1024

/-- `REQUIRED_JOINTS`. -/
def requiredJoints : List String :=
  ["shoulder_pan.pos", "shoulder_lift.pos", "elbow_flex.pos", "wrist_flex.pos",
    "wrist_roll.pos", "gripper.pos"]

/-- `_validate_name`. -/
def validateName (name : Yaml F) : Except SaveError Name :=
  match name with
  | .scalar (.str s) =>
    if h : nameRe s = true then .ok ⟨s, h⟩
    else .error (badRequest "bad_name"
      ("name must match '^[a-z][a-z0-9_]*$', got " ++ py.repr name))
  | name => .error (badRequest "bad_name"
      ("name must match '^[a-z][a-z0-9_]*$', got " ++ py.repr name))

/-- A number of a frame; a `TypeError` or a `ValueError` names the frame, an
`OverflowError` passes. -/
def validateNumber (what : String) (value : Yaml F) : Except SaveError F :=
  match value.toFloat py with
  | .ok number => .ok number
  | .error (.typeError text) => .error (badRequest "bad_frame" s!"{what} not numeric: {text}")
  | .error (.valueError text) => .error (badRequest "bad_frame" s!"{what} not numeric: {text}")
  | .error .overflowError => .error .overflow

/-- The joints of a frame: every required one is looked for before any is read. -/
def validateJoints (required : List String) (idx : ℕ) (joints : List (Scalar F × Yaml F)) :
    Except SaveError (Dictionary String F) :=
  match required.find? fun req => (Yaml.field joints req).isNone with
  | some req => .error (badRequest "missing_joint" (s!"frame[{idx}] missing joint " ++ py.reprStr req))
  | none => do
    let values ← required.mapM fun req => do
      let value ← validateNumber py s!"frame[{idx}] joint"
        ((Yaml.field joints req).getD (.scalar .none))
      return (req, value)
    return Dictionary.ofPairs values

/-- One frame of `_validate_frames`. -/
def validateFrame (required : List String) (item : Yaml F × ℕ) : Except SaveError (Frame F) :=
  let idx := item.2
  match item.1 with
  | .map frame =>
    match Yaml.field frame "joints" with
    | some (.map joints) => do
      let values ← validateJoints py required idx joints
      let delay ← match Yaml.field frame "delay" with
        | none => .ok py.frameDelay
        | some delay => validateNumber py s!"frame[{idx}].delay" delay
      if py.le py.minDelay delay && py.le delay py.maxDelay then
        return ⟨values, delay⟩
      else
        .error (badRequest "bad_delay" (s!"frame[{idx}].delay " ++ py.format delay ++
          " outside [" ++ py.format py.minDelay ++ ", " ++ py.format py.maxDelay ++ "]"))
    | _ => .error (badRequest "bad_frame" s!"frame[{idx}].joints missing/invalid")
  | _ => .error (badRequest "bad_frame" s!"frame[{idx}] is not an object")

/-- `_validate_frames`. -/
def validateFrames (required : List String) (frames : Yaml F) :
    Except SaveError (List (Frame F)) :=
  let required := if required.isEmpty then requiredJoints else required
  match frames with
  | .seq (frame :: rest) =>
    let count := (frame :: rest).length
    if maxFrames < count then
      .error (badRequest "too_many_frames" s!"frames must be <= {maxFrames}, got {count}")
    else (frame :: rest).zipIdx.mapM (validateFrame py required)
  | _ => .error (badRequest "empty_frames" "frames must be a non-empty list")

/-- The step of a save that fails with an `OSError`, if one does: the `stat` or the read
for the current etag, the write, or the read for the new etag. -/
inductive Fault where
  | none
  | stat
  | read
  | write
  | readBack
  deriving DecidableEq

/-- `_compute_etag_locked`, with the cache it leaves. -/
def currentEtag (w : World F τ) (fault : Fault) :
    Except SaveError String × Option EtagCache :=
  if fault = .stat then (.error .os, w.cache)
  else
    match w.file with
    | none => (.ok "sha256:empty", none)
    | some stored =>
      let refreshed : Except SaveError String × Option EtagCache :=
        if fault = .read then (.error .os, w.cache)
        else (.ok (etagOf lib stored.content), some (cacheOf lib stored))
      match w.cache with
      | some cache =>
        if cache.size = lib.size stored.content ∧ cache.mtime = stored.mtime then
          (.ok cache.etag, some cache)
        else refreshed
      | none => refreshed

/-- A call of `save`. -/
structure Request (F : Type) where
  name : Yaml F
  frames : Yaml F
  ifMatch : Option String
  description : Option String

/-- The new entry: a description that is not given and the two other texts are those of
the entry it replaces. -/
def newEntry (map : ActionMap F) (name : Name) (frames : List (Frame F))
    (description : Option String) : Entry F :=
  match map.get name with
  | none =>
    { description := (description.map Stripped.of).getD .empty
      responseMode := .empty
      completionText := .empty
      frames := frames }
  | some prior =>
    { description := (description.map Stripped.of).getD prior.description
      responseMode := prior.responseMode
      completionText := prior.completionText
      frames := frames }

/-- A save that is ready to be written. -/
structure Prepared (F τ : Type) where
  name : Name
  frames : List (Frame F)
  map : ActionMap F
  text : τ

/-- The `If-Match` check. -/
def checkIfMatch (ifMatch : Option String) (current : String) : Except SaveError Unit :=
  match ifMatch with
  | some wanted =>
    if wanted = current then .ok ()
    else .error (.actions ⟨"etag_mismatch", "If-Match " ++ py.reprStr wanted ++
      " does not match current etag " ++ py.reprStr current, 412⟩)
  | none => .ok ()

/-- The check on the bytes to write. -/
def checkSize (serialized : τ) : Except SaveError Unit :=
  if maxYamlBytes < lib.size serialized then
    .error (.actions
      ⟨"yaml_too_large", s!"Serialized actions.yaml exceeds {maxYamlBytes} bytes", 413⟩)
  else .ok ()

/-- `save` up to the write, the current etag being known. -/
def prepare (required : List String) (map : ActionMap F) (etag : Except SaveError String)
    (req : Request F) : Except SaveError (Prepared F τ) := do
  let name ← validateName py req.name
  let normalized ← validateFrames py required req.frames
  let current ← etag
  checkIfMatch py req.ifMatch current
  let newMap := map.put name (newEntry map name normalized req.description)
  let serialized := lib.dump (payload newMap)
  checkSize lib serialized
  return ⟨name, normalized, newMap, serialized⟩

/-- What a save returns. -/
structure SaveResult where
  name : String
  framesCount : ℕ
  etag : String
  replaced : Bool

/-- `save`; a file it writes gets the mtime `mtime`. The two validations come before the
etag is looked at, so where they fail the cache stays as well. -/
def save (required : List String) (w : World F τ) (req : Request F) (fault : Fault)
    (mtime : ℕ) : World F τ × Except SaveError SaveResult :=
  let looked := currentEtag lib w fault
  let cache := match validateName py req.name, validateFrames py required req.frames with
    | .ok _, .ok _ => looked.2
    | _, _ => w.cache
  match prepare py lib required w.map looked.1 req with
  | .error error => ({ w with cache := cache }, .error error)
  | .ok prepared =>
    if fault = .write then ({ w with cache := cache }, .error .os)
    else
      let stored : Stored τ := ⟨prepared.text, mtime⟩
      if fault = .readBack then (⟨some stored, prepared.map, cache⟩, .error .os)
      else (⟨some stored, prepared.map, some (cacheOf lib stored)⟩,
        .ok { name := prepared.name.1
              framesCount := prepared.frames.length
              etag := etagOf lib prepared.text
              replaced := (w.map.get prepared.name).isSome })

end OpenVoiceStream.Actions
