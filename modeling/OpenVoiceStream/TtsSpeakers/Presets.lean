import OpenVoiceStream.Base.Value
import Mathlib.Data.List.Basic
import Mathlib.Data.List.DropRight

/-!
# The built-in speakers

Every model owns a speaker table.  Its lowest layer is written in the source: the
preset voices of the model, and the intrinsic ones a backend fixes by itself.  A
model is known under several spellings, which `canonicalModelId` brings together,
and an id may stand for another one on lookup, which `selectorAliasId` resolves.

## Main definitions

* `SpeakerType`, `SpeakerSpec` — the speaker record.
* `canonicalModelId` — the spelling a table is kept under.
* `presets` — the built-in tables.
* `selectorAliasId` — the id a lookup reads.

## Main results

* `canonicalModelId_idem` — a canonical spelling is its own canonical spelling.
* `canonicalModelId_of_builtin` — only canonical spellings have a built-in table.
* `builtin_lt` — every built-in id lies below the automatically assigned ones.
* `selectorAliasId_of_builtin` — no built-in id is remapped on lookup.
-/

namespace OpenVoiceStream.TtsSpeakers

/-- The kind of a speaker.  An intrinsic one describes a voice the backend fixes
and translates to no arguments. -/
inductive SpeakerType
  | preset
  | embedding
  | intrinsic
  deriving DecidableEq

/-- The canonical speaker record.  No metadata is `Value.none`. -/
structure SpeakerSpec where
  id : ℤ
  type : SpeakerType
  label : String
  payload : String
  metadata : Value

/-! ### The spellings of a model -/

/-- `c.isspace()`. -/
def isSpace (c : Char) : Bool :=
  let n := c.toNat
  (9 ≤ n && n ≤ 13) || (28 ≤ n && n ≤ 32) || n == 0x85 || n == 0xA0 || n == 0x1680 ||
    (0x2000 ≤ n && n ≤ 0x200A) || n == 0x2028 || n == 0x2029 || n == 0x202F || n == 0x205F ||
    n == 0x3000

/-- `text.strip()`. -/
def strip (text : String) : String :=
  String.ofList ((text.toList.dropWhile isSpace).rdropWhile isSpace)

/-- `_MODEL_ALIASES`. -/
def modelAliases : List (String × String) :=
  [("qwen3-tts-base", "qwen3-tts-0.6b-base"),
   ("qwen3-tts-0.6b", "qwen3-tts-0.6b-base")]

/-- Brings the known public aliases of a model together, without changing unknown
names. -/
def canonicalModelId (modelId : String) : String :=
  let mid := strip modelId
  (modelAliases.lookup mid).getD mid

/-- Dropping at the end leaves a list that begins with no blank as it begins. -/
private theorem dropWhile_rdropWhile {α : Type*} (p : α → Bool) (l : List α) :
    ((l.dropWhile p).rdropWhile p).dropWhile p = (l.dropWhile p).rdropWhile p := by
  have hhead : ∀ hl : 0 < (l.dropWhile p).length, ¬ p (l.dropWhile p)[0] :=
    List.dropWhile_eq_self_iff.mp (List.dropWhile_idempotent p l)
  generalize l.dropWhile p = rest at hhead ⊢
  have hprefix := List.rdropWhile_prefix p rest
  rw [List.dropWhile_eq_self_iff]
  intro hl
  obtain ⟨tail, htail⟩ := hprefix
  have hrest : 0 < rest.length := by
    rw [← htail, List.length_append]
    omega
  have hsame : (rest.rdropWhile p)[0] = rest[0] := by
    conv_rhs => rw [getElem_congr_coll htail.symm]
    rw [List.getElem_append_left hl]
  rw [hsame]
  exact hhead hrest

/-- Stripping twice is stripping once. -/
theorem strip_strip (text : String) : strip (strip text) = strip text := by
  unfold strip
  rw [String.toList_ofList, dropWhile_rdropWhile, List.rdropWhile_idempotent]

/-- A canonical spelling is its own canonical spelling. -/
theorem canonicalModelId_idem (modelId : String) :
    canonicalModelId (canonicalModelId modelId) = canonicalModelId modelId := by
  have htargets : ∀ p ∈ modelAliases, canonicalModelId p.2 = p.2 := by decide +kernel
  have hget : canonicalModelId modelId =
      (modelAliases.lookup (strip modelId)).getD (strip modelId) := rfl
  rcases hl : modelAliases.lookup (strip modelId) with _ | target
  · have hstrip : canonicalModelId modelId = strip modelId := by rw [hget, hl, Option.getD_none]
    rw [hstrip]
    unfold canonicalModelId
    dsimp only
    rw [strip_strip, hl, Option.getD_none]
  · have halias : canonicalModelId modelId = target := by rw [hget, hl, Option.getD_some]
    rw [halias]
    obtain ⟨before, after, heq, -⟩ := List.lookup_eq_some_iff.mp hl
    exact htargets (strip modelId, target) (heq ▸ List.mem_append_right _ List.mem_cons_self)

/-! ### The built-in tables -/

/-- A preset voice. -/
def preset (id : ℤ) (label payload : String) : SpeakerSpec :=
  { id := id, type := .preset, label := label, payload := payload, metadata := .none }

/-- A voice the backend fixes by itself. -/
def intrinsic (id : ℤ) (label : String) : SpeakerSpec :=
  { id := id, type := .intrinsic, label := label, payload := "", metadata := .none }

/-- `_QWEN3_PRESETS`. -/
def qwen3Presets : List SpeakerSpec :=
  [preset 0 "Default" "", preset 2301 "Female 1" "2301", preset 2302 "Female 2" "2302"]

/-- `_QWEN3_BASE_PRESETS`. -/
def qwen3BasePresets : List SpeakerSpec := [intrinsic 0 "Default reference voice"]

/-- `_KOKORO_CONVONLY_PRESETS`. -/
def kokoroConvonlyPresets : List SpeakerSpec := [intrinsic 0 "Bundle language default"]

/-- `_QWEN3_CUSTOMVOICE_PRESETS`. -/
def qwen3CustomvoicePresets : List SpeakerSpec :=
  [(3065, "vivian"), (3061, "ryan"), (2861, "aiden"), (3066, "serena"), (2878, "dylan"),
   (2875, "eric"), (3010, "uncle_fu"), (2873, "ono_anna"), (2864, "sohee")].map
    fun (sid, label) => preset sid label (toString sid)

/-- `_KOKORO_LABELS`. -/
def kokoroLabels : List String :=
  ["af_heart", "af_bella", "af_nicole", "af_aoede", "af_kore", "af_sarah", "af_nova", "af_sky",
   "af_alloy", "af_jessica", "af_river", "af_miley", "af_seraph", "af_eve", "am_adam", "am_echo",
   "am_eric", "am_fenrir", "am_liam", "am_michael", "am_onyx", "am_puck", "am_santa", "bf_alice",
   "bf_emma", "bf_isabella", "bf_lily", "bm_daniel", "bm_fable", "bm_george", "bm_lewis",
   "ef_dora", "em_alex", "ff_siwis", "hf_alpha", "hf_beta", "hm_omega", "hm_psi", "if_irina",
   "im_nikolai", "jf_alpha", "jf_nezumi", "jf_gorudo", "jm_fLEMING", "pf_dora", "pm_alex",
   "pm_santa", "zf_xiaobei", "zf_xiaoni", "zf_xiaoxiao", "zf_xiaoyi", "zm_yunyang", "zm_yunxi"]

/-- `_kokoro_presets()`. -/
def kokoroPresets : List SpeakerSpec :=
  kokoroLabels.zipIdx.map fun (label, i) => preset i label (toString i)

/-- `_SINGLE_SPEAKER`. -/
def singleSpeaker : List SpeakerSpec := [preset 0 "Default" "0"]

/-- `_SPARKTTS_PRESETS`. -/
def sparkttsPresets : List SpeakerSpec :=
  [preset 0 "Female · moderate pitch · moderate speed" "female_moderate_moderate"]

/-- `_PRESETS`. -/
def presetTables : List (String × List SpeakerSpec) :=
  [("qwen3-tts", qwen3Presets),
   ("qwen3-tts-0.6b-base", qwen3BasePresets),
   ("kokoro-convonly-v1_0-rk3576", kokoroConvonlyPresets),
   ("kokoro-convonly-v1_0-rk3588", kokoroConvonlyPresets),
   ("qwen3-tts-customvoice", qwen3CustomvoicePresets),
   ("kokoro-multi-lang-v1_0", kokoroPresets),
   ("matcha-icefall-zh-en", singleSpeaker),
   ("matcha-icefall-zh-en.rknn", singleSpeaker),
   ("sherpa", singleSpeaker),
   ("sparktts-0p5b", sparkttsPresets)]

/-- `_PRESETS.get(model_id, {})`, without its keys: each is the id of its speaker. -/
def presets (modelId : String) : List SpeakerSpec := (presetTables.lookup modelId).getD []

/-- The built-in speaker of a model under an id. -/
def builtin (modelId : String) (sid : ℤ) : Option SpeakerSpec :=
  (presets modelId).find? fun spec => spec.id == sid

/-! ### The ids a lookup reads -/

/-- `_SELECTOR_ALIASES`. -/
def selectorAliases : List (String × List (String × ℤ)) :=
  [("qwen3-tts-customvoice", [("0", 3065), ("default", 3065)]),
   ("qwen3-tts-0.6b-base",
    [("default", 0), ("reference", 0), ("default reference voice", 0)]),
   ("sparktts-0p5b", [("default", 0), ("female_moderate_moderate", 0)])]

/-- The id that `speakerId` stands for on lookup. -/
def selectorAliasId (speakerId : ℤ) (modelId : String) : ℤ :=
  let aliases := (selectorAliases.lookup (canonicalModelId modelId)).getD []
  (aliases.lookup (toString speakerId)).getD speakerId

/-! ### What the tables hold -/

/-- A nonempty answer of a dictionary of lists is one of its values. -/
private theorem mem_of_mem_getD {β : Type*} {tables : List (String × List β)} {k : String} {x : β}
    (h : x ∈ (tables.lookup k).getD []) : (k, (tables.lookup k).getD []) ∈ tables := by
  rcases hl : tables.lookup k with _ | values
  · rw [hl] at h
    exact absurd h List.not_mem_nil
  · obtain ⟨before, after, rfl, -⟩ := List.lookup_eq_some_iff.mp hl
    exact List.mem_append_right _ List.mem_cons_self

/-- A table with a speaker in it is one of those written in the source. -/
private theorem mem_presetTables {modelId : String} {spec : SpeakerSpec}
    (h : spec ∈ presets modelId) : (modelId, presets modelId) ∈ presetTables :=
  mem_of_mem_getD h

/-- A built-in speaker is in the table, under its own id. -/
theorem mem_of_builtin {modelId : String} {sid : ℤ} {spec : SpeakerSpec}
    (h : builtin modelId sid = some spec) : spec ∈ presets modelId ∧ spec.id = sid :=
  ⟨List.mem_of_find?_eq_some h, by simpa using List.find?_some h⟩

/-- Every table is kept under a canonical spelling. -/
private theorem canonicalModelId_presetTables :
    ∀ p ∈ presetTables, canonicalModelId p.1 = p.1 := by
  decide +kernel

/-- The ids of every table lie below the automatically assigned ones. -/
private theorem lt_presetTables : ∀ p ∈ presetTables, ∀ spec ∈ p.2, spec.id < 10000 := by
  decide +kernel

/-- The ids of every table are read as they are. -/
private theorem selectorAliasId_presetTables :
    ∀ p ∈ presetTables, ∀ spec ∈ p.2, selectorAliasId spec.id p.1 = spec.id := by
  decide +kernel

/-- Only canonical spellings have a built-in table. -/
theorem canonicalModelId_of_builtin {modelId : String} {sid : ℤ} {spec : SpeakerSpec}
    (h : builtin modelId sid = some spec) : canonicalModelId modelId = modelId := by
  have hmem := (mem_of_builtin h).1
  exact canonicalModelId_presetTables (modelId, presets modelId) (mem_presetTables hmem)

/-- Every built-in id lies below the automatically assigned ones. -/
theorem builtin_lt {modelId : String} {sid : ℤ} {spec : SpeakerSpec}
    (h : builtin modelId sid = some spec) : sid < 10000 := by
  obtain ⟨hmem, rfl⟩ := mem_of_builtin h
  exact lt_presetTables (modelId, presets modelId) (mem_presetTables hmem) spec hmem

/-- No built-in id stands for another one. -/
theorem selectorAliasId_of_builtin {modelId : String} {sid : ℤ} {spec : SpeakerSpec}
    (h : builtin modelId sid = some spec) : selectorAliasId sid modelId = sid := by
  obtain ⟨hmem, rfl⟩ := mem_of_builtin h
  exact selectorAliasId_presetTables (modelId, presets modelId) (mem_presetTables hmem) spec hmem

end OpenVoiceStream.TtsSpeakers
