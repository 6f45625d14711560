import Mathlib.Data.Finset.Lattice.Basic
import Mathlib.Data.Finset.Filter
import Mathlib.Data.Finset.Insert
import Mathlib.Data.Finset.Dedup
import Mathlib.Logic.Function.Basic
import OpenVoiceStream.Base.Template

/-!
# The profile loader

`apply_profile` reconciles the environment of the process with a profile.  Variables that the
operator had set when the module was imported stay the operator's: a profile does not
overwrite them unless it lists them as its own, and then they are handed back by the next
profile that does not list them.  What a profile has written is remembered, and cleared by the
next one.

A kind-scoped call touches the variables of its kind only.

## Main definitions

* `Import` — what the module finds when it is imported.
* `Profile`, `merged` — a profile, and the environment it asks for.
* `State` — the environment and the state of the module.
* `State.applyProfile` — `apply_profile`.

## Main results

* `write_environ_of_mem`, `write_environ_of_not_mem`, `mem_write_ownedOverrides` — the loop that
  writes.
* `prepare_environ_of_relinquished`, `prepare_environ_of_stale`, `prepare_environ_of_kept` — what
  comes before the loop.
* `reconcile_environ_of_written`, `reconcile_environ_of_kept`, `mem_reconcile_appliedKeys` — what
  a call that succeeds leaves.
-/

namespace OpenVoiceStream
namespace ProfileLoader

/-- The names of environment variables. -/
abbrev Key := Text

/-- The environment of the process. -/
abbrev Env := Key → Option Text

/-- Which backend a reload is about. -/
inductive Kind
  | asr
  | tts
  deriving DecidableEq, Repr

/-! ### Keys -/

/-- `_OPERATOR_KEY_PREFIXES`. -/
def operatorKeyPrefixes : List Key :=
  ["OVS_".toList, "LANGUAGE_MODE".toList, "MODEL_DIR".toList, "ASR_".toList, "TTS_".toList,
    "EDGE_LLM_".toList, "QWEN3_".toList, "KOKORO_".toList, "MATCHA_".toList, "RK_".toList,
    "RKLLM_".toList, "SHERPA_".toList, "STREAMING_".toList, "VOCOS_".toList, "HF_".toList,
    "CUDA_".toList, "TRT_".toList, "NVIDIA_".toList, "WHISPER_".toList]

/-- `_PROCESS_VARS`. -/
def processVars : List Key :=
  ["PATH".toList, "LD_LIBRARY_PATH".toList, "LD_PRELOAD".toList, "PYTHONPATH".toList,
    "PYTHONHOME".toList, "HOME".toList, "HOSTNAME".toList, "PWD".toList, "SHLVL".toList,
    "TERM".toList, "TZ".toList, "USER".toList, "SHELL".toList, "LANG".toList]

/-- `CRITICAL_KEYS`. -/
def criticalKeys : List Key :=
  ["LANGUAGE_MODE".toList, "ASR_BACKEND".toList, "TTS_BACKEND".toList]

/-- `marker in text`. -/
def contains (text marker : Text) : Bool := text.tails.any fun rest => marker.isPrefixOf rest

/-- `_ASR_KEY_MARKERS`. -/
def asrKeyMarkers : List Text := ["ASR".toList, "PARAFORMER".toList, "SENSEVOICE".toList]

/-- `_TTS_KEY_MARKERS`. -/
def ttsKeyMarkers : List Text :=
  ["TTS".toList, "MATCHA".toList, "KOKORO".toList, "VOCOS".toList, "SPARK".toList, "MOSS".toList,
    "SPEAKER_ENCODER".toList]

/-- `_key_kind`. -/
def keyKind (key : Key) : Option Kind :=
  let ku := key.map Char.toUpper
  match asrKeyMarkers.any (contains ku), ttsKeyMarkers.any (contains ku) with
  | true, false => some .asr
  | false, true => some .tts
  | _, _ => none

/-- `_in_scope`. -/
def InScope (kind : Option Kind) (k : Key) : Prop := kind = none ∨ keyKind k = kind

instance (kind : Option Kind) (k : Key) : Decidable (InScope kind k) := by
  unfold InScope; infer_instance

/-- What the module finds when it is imported: the keys that the shipped profiles and leaves
declare, and the environment. -/
structure Import where
  declared : Finset Key
  environ : Env

variable {imp : Import}

/-- `is_operator_key`. -/
def Import.IsOperatorKey (imp : Import) (declared : Finset Key) (name : Key) : Prop :=
  name ∉ processVars ∧
    (operatorKeyPrefixes.any (·.isPrefixOf name) = true ∨ name ∈ imp.declared ∨ name ∈ declared)

instance (imp : Import) (declared : Finset Key) (name : Key) :
    Decidable (imp.IsOperatorKey declared name) := by
  unfold Import.IsOperatorKey; infer_instance

/-- `_ENV_AT_IMPORT`. -/
def Import.envAtImport (imp : Import) (k : Key) : Option Text :=
  (imp.environ k).filter fun v => v ≠ [] ∧ k ∉ processVars

/-- `_OPERATOR_KEYS`: the operator keys that are not empty. -/
def Import.OperatorKey (imp : Import) (k : Key) : Prop :=
  imp.IsOperatorKey ∅ k ∧ (imp.envAtImport k).isSome

instance (imp : Import) (k : Key) : Decidable (imp.OperatorKey k) := by
  unfold Import.OperatorKey; infer_instance

/-! ### Profiles -/

/-- An entry of the `env` block: the value as a text, and whether it is one. -/
structure EnvEntry where
  key : Key
  value : Text
  isStr : Bool
  deriving DecidableEq, Repr

/-- An entry of `required_engines`. -/
structure Engine where
  modelId : Text
  envVar : Key
  required : Bool
  deriving DecidableEq, Repr

/-- A profile.  The keys of a JSON object are distinct. -/
structure Profile where
  /-- `name`, or else the stem of the path. -/
  name : Text
  env : List EnvEntry
  env_nodup : (env.map EnvEntry.key).Nodup
  ttsModelId : Option Text
  asrModelId : Option Text
  requiredEngines : List Engine
  profileOwnedEnv : Finset Key

/-- The lookup of `_expand_with_profile_env`: the texts of the profile, then the environment. -/
def Profile.lookup (p : Profile) (environ : Env) (name : Text) : Option Text :=
  ((p.env.find? fun e => e.isStr && e.key = name).map EnvEntry.value).or (environ name)

/-- `new_env`. -/
def Profile.newEnv (p : Profile) (environ : Env) : List (Key × Text) :=
  p.env.map fun e => (e.key, Template.safeSubstitute (p.lookup environ) e.value)

/-- `_derive_tts_model_id`. -/
def Profile.deriveTtsModelId (p : Profile) : Option Text :=
  (p.ttsModelId.filter (· ≠ [])).or <|
    (p.requiredEngines.find? fun engine =>
      let mid := engine.modelId.map Char.toLower
      !contains mid "asr".toList &&
        ["kokoro".toList, "matcha".toList, "qwen3".toList, "piper".toList].any
          (contains mid)).map Engine.modelId

/-- `_derive_asr_model_id`. -/
def Profile.deriveAsrModelId (p : Profile) : Option Text :=
  let value := ((p.asrModelId.filter (· ≠ [])).or <|
    (p.requiredEngines.find? fun engine =>
      contains (engine.modelId.map Char.toLower) "asr".toList).map Engine.modelId).getD []
  let folded := value.map Char.toLower
  let result :=
    if folded = "qwen3-asr-0.6b".toList ∨ folded = "qwen/qwen3-asr-0.6b".toList then
      "qwen3-asr".toList
    else value
  if result = [] then none else some result

/-- `derived`. -/
def Profile.derived (p : Profile) : List (Key × Text) :=
  ("OVS_PROFILE_NAME".toList, p.name) ::
    ((p.deriveTtsModelId.toList.map fun id => ("OVS_TTS_MODEL_ID".toList, id)) ++
      (p.deriveAsrModelId.toList.map fun id => ("OVS_ASR_MODEL_ID".toList, id)))

/-- `d[k] = v`: the key keeps its place. -/
def put (d : List (Key × Text)) (e : Key × Text) : List (Key × Text) :=
  if e.1 ∈ d.map Prod.fst then d.map fun f => if f.1 = e.1 then e else f else d ++ [e]

/-- `merged`: the environment that a call asks for. -/
def merged (environ : Env) (p : Profile) (overrides : List (Key × Text)) (kind : Option Kind) :
    List (Key × Text) :=
  ((p.derived ++ overrides).foldl put (p.newEnv environ)).filter fun e => InScope kind e.1

/-! ### The state -/

/-- The environment and the state of the module.  `_OPERATOR_SNAPSHOT` is no field, since it
holds the import value of every key in `_OPERATOR_KEYS` and `_EXTRA_OPERATOR_KEYS`. -/
structure State (imp : Import) where
  environ : Env
  appliedKeys : Finset Key
  ownedOverrides : Finset Key
  extraOperatorKeys : Finset Key
  currentProfile : Option Profile
  /-- A key is discovered only if it was set at import. -/
  extra_set : ∀ k ∈ extraOperatorKeys, (imp.envAtImport k).isSome
  /-- A key is overridden only if its operator value is known. -/
  overrides_known : ∀ k ∈ ownedOverrides, imp.OperatorKey k ∨ k ∈ extraOperatorKeys

/-- The module right after its import. -/
def State.start (imp : Import) : State imp :=
  { environ := imp.environ, appliedKeys := ∅, ownedOverrides := ∅, extraOperatorKeys := ∅,
    currentProfile := none, extra_set := by simp, overrides_known := by simp }

/-- A key of `_OPERATOR_SNAPSHOT`. -/
def State.Known (s : State imp) (k : Key) : Prop := imp.OperatorKey k ∨ k ∈ s.extraOperatorKeys

instance (s : State imp) (k : Key) : Decidable (s.Known k) := by
  unfold State.Known; infer_instance

/-- Why a call raises. -/
inductive Error
  | unreadable
  | mismatch (k : Key)
  deriving DecidableEq, Repr

/-! ### The steps -/

/-- `extra_operator`: the keys that the profile declares and the operator had set. -/
def State.extraOperator (s : State imp) (p : Profile) : Finset Key :=
  (p.env.map EnvEntry.key).toFinset.filter fun k =>
    (imp.envAtImport k).isSome ∧ ¬ imp.OperatorKey k ∧ k ∉ s.extraOperatorKeys ∧
      imp.IsOperatorKey (p.env.map EnvEntry.key).toFinset k

/-- These keys become operator keys. -/
def State.discover (s : State imp) (p : Profile) : State imp :=
  { s with
    extraOperatorKeys := s.extraOperatorKeys ∪ s.extraOperator p
    extra_set := by
      intro k hk
      rcases Finset.mem_union.mp hk with hk | hk
      · exact s.extra_set k hk
      · exact (Finset.mem_filter.mp hk).2.1
    overrides_known := by
      intro k hk
      rcases s.overrides_known k hk with h | h
      · exact .inl h
      · exact .inr (Finset.mem_union_left _ h) }

/-- `relinquished`: overridden keys that the new profile does not list. -/
def State.Relinquished (s : State imp) (owned : Finset Key) (kind : Option Kind) (k : Key) : Prop :=
  k ∈ s.ownedOverrides ∧ k ∉ owned ∧ InScope kind k

instance (s : State imp) (owned : Finset Key) (kind : Option Kind) (k : Key) :
    Decidable (s.Relinquished owned kind k) := by
  unfold State.Relinquished; infer_instance

/-- Step 0: these keys are handed back. -/
def State.relinquish (s : State imp) (owned : Finset Key) (kind : Option Kind) : State imp :=
  { s with
    environ := fun k => if s.Relinquished owned kind k then imp.envAtImport k else s.environ k
    ownedOverrides := s.ownedOverrides.filter fun k => ¬ s.Relinquished owned kind k
    overrides_known := fun k hk => s.overrides_known k (Finset.mem_filter.mp hk).1 }

/-- `k in eff_operator`. -/
def State.Effective (s : State imp) (owned : Finset Key) (k : Key) : Prop := s.Known k ∧ k ∉ owned

instance (s : State imp) (owned : Finset Key) (k : Key) : Decidable (s.Effective owned k) := by
  unfold State.Effective; infer_instance

/-- A key that the stale-clear pops. -/
def State.Stale (s : State imp) (owned newKeys : Finset Key) (kind : Option Kind) (k : Key) : Prop :=
  k ∈ s.appliedKeys ∧ k ∉ newKeys ∧ ¬ s.Effective owned k ∧ InScope kind k

instance (s : State imp) (owned newKeys : Finset Key) (kind : Option Kind) (k : Key) :
    Decidable (s.Stale owned newKeys kind k) := by
  unfold State.Stale; infer_instance

/-- Step 1: the stale keys are cleared. -/
def State.clearStale (s : State imp) (owned newKeys : Finset Key) (kind : Option Kind) : State imp :=
  { s with environ := fun k => if s.Stale owned newKeys kind k then none else s.environ k }

/-- One variable is written. -/
def State.set (s : State imp) (owned : Finset Key) (k : Key) (v : Text) : State imp :=
  { s with
    environ := Function.update s.environ k (some v)
    ownedOverrides :=
      if s.Known k ∧ k ∈ owned then insert k s.ownedOverrides else s.ownedOverrides
    overrides_known := by
      intro j hj
      split at hj
      case isTrue h =>
        rcases Finset.mem_insert.mp hj with rfl | hj
        · exact h.1
        · exact s.overrides_known j hj
      case isFalse => exact s.overrides_known j hj }

/-- Step 2: the loop that writes, up to a mismatch. -/
def State.write (owned : Finset Key) : List (Key × Text) → State imp → State imp × Option Key
  | [], s => (s, none)
  | (k, v) :: rest, s =>
    if s.Effective owned k then
      if s.environ k ≠ some v ∧ k ∈ criticalKeys then (s, some k) else State.write owned rest s
    else State.write owned rest (s.set owned k v)

/-- Step 3: the bookkeeping. -/
def State.record (s : State imp) (p : Profile) (newKeys : Finset Key) (kind : Option Kind) :
    State imp :=
  { s with
    appliedKeys :=
      (s.appliedKeys.filter fun k => ¬ InScope kind k) ∪
        newKeys.filter fun k => ¬ s.Effective p.profileOwnedEnv k
    currentProfile := some p }

/-- `new_keys`. -/
def newKeys (environ : Env) (p : Profile) (overrides : List (Key × Text)) (kind : Option Kind) :
    Finset Key :=
  ((merged environ p overrides kind).map Prod.fst).toFinset

/-- The state when the loop begins to write. -/
def State.prepare (s : State imp) (p : Profile) (overrides : List (Key × Text))
    (kind : Option Kind) : State imp :=
  ((s.discover p).relinquish p.profileOwnedEnv kind).clearStale p.profileOwnedEnv
    (newKeys s.environ p overrides kind) kind

/-- `apply_profile` without the engines. -/
def State.reconcile (s : State imp) (p : Profile) (overrides : List (Key × Text))
    (kind : Option Kind) : State imp × Option Error :=
  match State.write p.profileOwnedEnv (merged s.environ p overrides kind)
      (s.prepare p overrides kind) with
  | (s', some k) => (s', some (.mismatch k))
  | (s', none) => (s'.record p (newKeys s.environ p overrides kind) kind, none)

/-! ### Engines -/

/-- The entry is resolved in a call of this kind. -/
def Engine.Resolved (kind : Option Kind) (e : Engine) : Prop :=
  kind = none ∨ keyKind e.envVar = none ∨ keyKind e.envVar = kind

instance (kind : Option Kind) (e : Engine) : Decidable (e.Resolved kind) := by
  unfold Engine.Resolved; infer_instance

/-- What `build_report` exports, when entry `i` is resolved to `outcome i`. -/
def Profile.exports (p : Profile) (kind : Option Kind) (outcome : ℕ → Option Text) :
    List (Key × Text) :=
  p.requiredEngines.zipIdx.filterMap fun (e, i) =>
    if e.Resolved kind then (outcome i).map fun path => (e.envVar, path) else none

/-- A required engine is not resolved, so that `resolve_all` raises. -/
def Profile.ResolveFails (p : Profile) (kind : Option Kind) (outcome : ℕ → Option Text) : Prop :=
  ∃ entry ∈ p.requiredEngines.zipIdx,
    entry.1.Resolved kind ∧ entry.1.required = true ∧ outcome entry.2 = none

instance (p : Profile) (kind : Option Kind) (outcome : ℕ → Option Text) :
    Decidable (p.ResolveFails kind outcome) := by
  unfold Profile.ResolveFails; infer_instance

/-- The engines are exported, and tracked if all of them have been resolved. -/
def State.inject (s : State imp) (p : Profile) (kind : Option Kind) (outcome : ℕ → Option Text) :
    State imp :=
  let exported := p.exports kind outcome
  { s with
    environ := exported.foldl (fun environ e => Function.update environ e.1 (some e.2)) s.environ
    appliedKeys :=
      if p.ResolveFails kind outcome then s.appliedKeys
      else s.appliedKeys ∪ (exported.map Prod.fst).toFinset.filter fun k => ¬ s.Known k }

/-- The arguments of a call: what the reference resolves to, if it can be read, and how the
engines are resolved, if they are. -/
structure Call where
  loaded : Option Profile
  overrides : List (Key × Text)
  kind : Option Kind
  resolve : Option (ℕ → Option Text)

/-- `apply_profile`. -/
def State.applyProfile (s : State imp) (c : Call) : State imp × Option Error :=
  match c.loaded with
  | none => (s, some .unreadable)
  | some p =>
    match s.reconcile p c.overrides c.kind, c.resolve with
    | (s', some error), _ => (s', some error)
    | (s', none), none => (s', none)
    | (s', none), some outcome => (s'.inject p c.kind outcome, none)

/-! ### What a call asks for -/

theorem map_fst_put (d : List (Key × Text)) (e : Key × Text) :
    (put d e).map Prod.fst =
      if e.1 ∈ d.map Prod.fst then d.map Prod.fst else d.map Prod.fst ++ [e.1] := by
  unfold put
  split
  · rw [List.map_map]
    apply List.map_congr_left
    intro f _
    dsimp only [Function.comp]
    split
    · next heq => exact heq.symm
    · rfl
  · simp

theorem nodup_put {d : List (Key × Text)} (h : (d.map Prod.fst).Nodup) (e : Key × Text) :
    ((put d e).map Prod.fst).Nodup := by
  rw [map_fst_put]
  split
  · exact h
  · next hnew =>
    refine List.nodup_append.mpr ⟨h, List.nodup_singleton _, ?_⟩
    intro a ha b hb heq
    rw [List.mem_singleton.mp hb] at heq
    exact hnew (heq ▸ ha)

theorem nodup_foldl_put (es : List (Key × Text)) :
    ∀ {d : List (Key × Text)}, (d.map Prod.fst).Nodup → ((es.foldl put d).map Prod.fst).Nodup := by
  induction es with
  | nil => intro d h; exact h
  | cons e es ih =>
    intro d h
    exact ih (nodup_put h e)

theorem mem_foldl_put (es : List (Key × Text)) (k : Key) :
    ∀ {d : List (Key × Text)}, k ∈ (es.foldl put d).map Prod.fst ↔
      k ∈ d.map Prod.fst ∨ k ∈ es.map Prod.fst := by
  induction es with
  | nil => intro d; simp
  | cons e es ih =>
    intro d
    rw [List.foldl_cons, ih, map_fst_put, List.map_cons, List.mem_cons]
    split
    · next hmem =>
      constructor
      · rintro (h | h)
        · exact .inl h
        · exact .inr (.inr h)
      · rintro (h | rfl | h)
        · exact .inl h
        · exact .inl hmem
        · exact .inr h
    · simp only [List.mem_append, List.mem_singleton]
      tauto

theorem map_fst_newEnv (p : Profile) (environ : Env) :
    (p.newEnv environ).map Prod.fst = p.env.map EnvEntry.key := by
  simp [Profile.newEnv]

section Merged

variable {environ : Env} {p : Profile} {overrides : List (Key × Text)} {kind : Option Kind}

/-- The keys are distinct. -/
theorem nodup_merged (environ : Env) (p : Profile) (overrides : List (Key × Text))
    (kind : Option Kind) : ((merged environ p overrides kind).map Prod.fst).Nodup := by
  have hnodup := nodup_foldl_put (p.derived ++ overrides) (d := p.newEnv environ)
    (by rw [map_fst_newEnv]; exact p.env_nodup)
  exact hnodup.sublist ((List.filter_sublist).map Prod.fst)

/-- The keys that a call asks for are declared, derived or given, and in its scope. -/
theorem mem_newKeys {k : Key} :
    k ∈ newKeys environ p overrides kind ↔
      (k ∈ p.env.map EnvEntry.key ∨ k ∈ p.derived.map Prod.fst ∨ k ∈ overrides.map Prod.fst) ∧
        InScope kind k := by
  have hfold := mem_foldl_put (p.derived ++ overrides) k (d := p.newEnv environ)
  rw [map_fst_newEnv, List.map_append, List.mem_append] at hfold
  rw [newKeys, List.mem_toFinset, merged, List.mem_map]
  constructor
  · rintro ⟨e, he, rfl⟩
    obtain ⟨hmem, hscope⟩ := List.mem_filter.mp he
    exact ⟨hfold.mp (List.mem_map_of_mem hmem), of_decide_eq_true hscope⟩
  · rintro ⟨hkey, hscope⟩
    obtain ⟨e, he, rfl⟩ := List.mem_map.mp (hfold.mpr hkey)
    exact ⟨e, List.mem_filter.mpr ⟨he, decide_eq_true hscope⟩, rfl⟩

/-- They do not depend on the environment. -/
theorem newKeys_eq (environ environ' : Env) :
    newKeys environ p overrides kind = newKeys environ' p overrides kind := by
  ext k
  rw [mem_newKeys, mem_newKeys]

end Merged

/-! ### The loop that writes -/

section Write

variable {s s' : State imp} {owned : Finset Key} {kvs : List (Key × Text)}

@[simp] theorem set_known (owned : Finset Key) (k : Key) (v : Text) (j : Key) :
    (s.set owned k v).Known j = s.Known j := rfl

@[simp] theorem set_effective (owned owned' : Finset Key) (k : Key) (v : Text) (j : Key) :
    (s.set owned k v).Effective owned' j = s.Effective owned' j := rfl

theorem write_nil (owned : Finset Key) (s : State imp) : State.write owned [] s = (s, none) := rfl

theorem write_cons (owned : Finset Key) (k : Key) (v : Text) (kvs : List (Key × Text))
    (s : State imp) :
    State.write owned ((k, v) :: kvs) s =
      if s.Effective owned k then
        if s.environ k ≠ some v ∧ k ∈ criticalKeys then (s, some k) else State.write owned kvs s
      else State.write owned kvs (s.set owned k v) := rfl

/-- What the loop leaves alone. -/
theorem write_same (owned : Finset Key) (kvs : List (Key × Text)) (s : State imp) :
    (State.write owned kvs s).1.appliedKeys = s.appliedKeys ∧
      (State.write owned kvs s).1.extraOperatorKeys = s.extraOperatorKeys ∧
      (State.write owned kvs s).1.currentProfile = s.currentProfile := by
  induction kvs generalizing s with
  | nil => exact ⟨rfl, rfl, rfl⟩
  | cons e kvs ih =>
    obtain ⟨k, v⟩ := e
    rw [write_cons]
    split
    · split
      · exact ⟨rfl, rfl, rfl⟩
      · exact ih s
    · exact ih (s.set owned k v)

/-- A key that is not among the entries keeps its value. -/
theorem write_environ_of_not_mem {k : Key} (hk : k ∉ kvs.map Prod.fst) :
    (State.write owned kvs s).1.environ k = s.environ k := by
  induction kvs generalizing s with
  | nil => rfl
  | cons e kvs ih =>
    obtain ⟨j, v⟩ := e
    rw [List.map_cons, List.mem_cons, not_or] at hk
    rw [write_cons]
    split
    · split
      · rfl
      · exact ih hk.2
    · rw [ih hk.2]
      exact Function.update_of_ne hk.1 _ _

/-- A key that is the operator's keeps its value. -/
theorem write_environ_of_effective {k : Key} (hk : s.Effective owned k) :
    (State.write owned kvs s).1.environ k = s.environ k := by
  induction kvs generalizing s with
  | nil => rfl
  | cons e kvs ih =>
    obtain ⟨j, v⟩ := e
    rw [write_cons]
    split
    · split
      · rfl
      · exact ih hk
    · next hj =>
      rw [ih (by rwa [set_effective])]
      have hne : k ≠ j := fun h => hj (h ▸ hk)
      exact Function.update_of_ne hne _ _

/-- Any other entry is written. -/
theorem write_environ_of_mem {k : Key} {v : Text} (hnodup : (kvs.map Prod.fst).Nodup)
    (hok : (State.write owned kvs s).2 = none) (hk : (k, v) ∈ kvs) (heff : ¬ s.Effective owned k) :
    (State.write owned kvs s).1.environ k = some v := by
  induction kvs generalizing s with
  | nil => cases hk
  | cons e kvs ih =>
    obtain ⟨j, w⟩ := e
    rw [List.map_cons, List.nodup_cons] at hnodup
    rw [write_cons] at hok ⊢
    rcases List.mem_cons.mp hk with heq | hmem
    · obtain ⟨rfl, rfl⟩ := Prod.mk.injEq .. ▸ heq
      rw [if_neg heff, write_environ_of_not_mem hnodup.1]
      exact Function.update_self _ _ _
    · split
      case isTrue hj =>
        rw [if_pos hj] at hok
        split
        case isTrue hmiss =>
          rw [if_pos hmiss] at hok
          cases hok
        case isFalse hmiss =>
          rw [if_neg hmiss] at hok
          exact ih hnodup.2 hok hmem heff
      case isFalse hj =>
        rw [if_neg hj] at hok
        exact ih hnodup.2 hok hmem (by rwa [set_effective])

/-- An operator key that is overridden is one that was, or one that is written. -/
theorem mem_write_ownedOverrides {k : Key} (hok : (State.write owned kvs s).2 = none) :
    k ∈ (State.write owned kvs s).1.ownedOverrides ↔
      k ∈ s.ownedOverrides ∨ (k ∈ kvs.map Prod.fst ∧ s.Known k ∧ k ∈ owned) := by
  induction kvs generalizing s with
  | nil => simp [write_nil]
  | cons e kvs ih =>
    obtain ⟨j, w⟩ := e
    rw [write_cons] at hok ⊢
    rw [List.map_cons, List.mem_cons]
    split
    case isTrue hj =>
      rw [if_pos hj] at hok
      have hne : k = j → ¬ (s.Known k ∧ k ∈ owned) := fun h hk => hj.2 (h ▸ hk.2)
      split
      case isTrue hmiss =>
        rw [if_pos hmiss] at hok
        cases hok
      case isFalse hmiss =>
        rw [if_neg hmiss] at hok
        rw [ih hok]
        tauto
    case isFalse hj =>
      rw [if_neg hj] at hok
      rw [ih hok, set_known]
      have hset : k ∈ (s.set owned j w).ownedOverrides ↔
          k ∈ s.ownedOverrides ∨ (k = j ∧ s.Known j ∧ j ∈ owned) := by
        simp only [State.set]
        split
        · next hcond => rw [Finset.mem_insert]; tauto
        · next hcond => tauto
      rw [hset]
      constructor
      · rintro ((h | ⟨rfl, h⟩) | h)
        · exact .inl h
        · exact .inr ⟨.inl rfl, h⟩
        · exact .inr ⟨.inr h.1, h.2⟩
      · rintro (h | ⟨rfl | h, hknown⟩)
        · exact .inl (.inl h)
        · exact .inl (.inr ⟨rfl, hknown⟩)
        · exact .inr ⟨h, hknown⟩

end Write

/-! ### A call that succeeds -/

section Reconcile

variable {s : State imp} {p : Profile} {overrides : List (Key × Text)} {kind : Option Kind}

/-- A key that is the operator's in a call for this profile. -/
def State.OperatorOwned (s : State imp) (p : Profile) (k : Key) : Prop :=
  (s.discover p).Effective p.profileOwnedEnv k

instance (s : State imp) (p : Profile) (k : Key) : Decidable (s.OperatorOwned p k) := by
  unfold State.OperatorOwned; infer_instance

/-- What is known to be the operator's stays so. -/
theorem known_discover {k : Key} (h : s.Known k) : (s.discover p).Known k := by
  rcases h with h | h
  · exact .inl h
  · exact .inr (Finset.mem_union_left _ h)

theorem mem_prepare_ownedOverrides (overrides : List (Key × Text)) {k : Key} :
    k ∈ (s.prepare p overrides kind).ownedOverrides ↔
      k ∈ s.ownedOverrides ∧ (k ∈ p.profileOwnedEnv ∨ ¬ InScope kind k) := by
  have hfilter : k ∈ (s.prepare p overrides kind).ownedOverrides ↔
      k ∈ s.ownedOverrides ∧ ¬ (k ∈ s.ownedOverrides ∧ k ∉ p.profileOwnedEnv ∧ InScope kind k) :=
    Finset.mem_filter
  rw [hfilter]
  tauto

/-- A key that is handed back gets its operator value. -/
theorem prepare_environ_of_relinquished {k : Key} (hk : k ∈ s.ownedOverrides)
    (howned : k ∉ p.profileOwnedEnv) (hscope : InScope kind k) :
    (s.prepare p overrides kind).environ k = imp.envAtImport k := by
  have hknown : (s.discover p).Known k := (s.discover p).overrides_known k hk
  have hstale : ¬ ((s.discover p).relinquish p.profileOwnedEnv kind).Stale p.profileOwnedEnv
      (newKeys s.environ p overrides kind) kind k := fun h => h.2.2.1 ⟨hknown, howned⟩
  have hback : (s.discover p).Relinquished p.profileOwnedEnv kind k := ⟨hk, howned, hscope⟩
  exact (if_neg hstale).trans (if_pos hback)

/-- A stale key is cleared. -/
theorem prepare_environ_of_stale {k : Key} (hk : k ∈ s.appliedKeys)
    (hnew : k ∉ newKeys s.environ p overrides kind) (heff : ¬ s.OperatorOwned p k)
    (hscope : InScope kind k) : (s.prepare p overrides kind).environ k = none := by
  have hstale : ((s.discover p).relinquish p.profileOwnedEnv kind).Stale p.profileOwnedEnv
      (newKeys s.environ p overrides kind) kind k := ⟨hk, hnew, heff, hscope⟩
  exact if_pos hstale

/-- Any other key keeps its value. -/
theorem prepare_environ_of_kept {k : Key}
    (hback : ¬ (k ∈ s.ownedOverrides ∧ k ∉ p.profileOwnedEnv ∧ InScope kind k))
    (hstale : ¬ (k ∈ s.appliedKeys ∧ k ∉ newKeys s.environ p overrides kind ∧
      ¬ s.OperatorOwned p k ∧ InScope kind k)) :
    (s.prepare p overrides kind).environ k = s.environ k := by
  have hstale' : ¬ ((s.discover p).relinquish p.profileOwnedEnv kind).Stale p.profileOwnedEnv
      (newKeys s.environ p overrides kind) kind k := hstale
  have hback' : ¬ (s.discover p).Relinquished p.profileOwnedEnv kind k := hback
  exact (if_neg hstale').trans (if_neg hback')

/-- A call that succeeds is one whose loop meets no mismatch. -/
theorem reconcile_ok (h : (s.reconcile p overrides kind).2 = none) :
    (State.write p.profileOwnedEnv (merged s.environ p overrides kind)
        (s.prepare p overrides kind)).2 = none ∧
      (s.reconcile p overrides kind).1 =
        (State.write p.profileOwnedEnv (merged s.environ p overrides kind)
          (s.prepare p overrides kind)).1.record p (newKeys s.environ p overrides kind) kind := by
  unfold State.reconcile at h ⊢
  split at h
  · cases h
  · next s' hwrite =>
    rw [hwrite]
    exact ⟨rfl, rfl⟩

theorem reconcile_currentProfile (h : (s.reconcile p overrides kind).2 = none) :
    (s.reconcile p overrides kind).1.currentProfile = some p := by
  rw [(reconcile_ok h).2]
  rfl

/-- What a call asks for is written, unless it is the operator's. -/
theorem reconcile_environ_of_written (h : (s.reconcile p overrides kind).2 = none) {k : Key}
    {v : Text} (hk : (k, v) ∈ merged s.environ p overrides kind) (heff : ¬ s.OperatorOwned p k) :
    (s.reconcile p overrides kind).1.environ k = some v := by
  obtain ⟨hwrite, heq⟩ := reconcile_ok h
  rw [heq]
  exact write_environ_of_mem (nodup_merged _ _ _ _) hwrite hk heff

/-- Nothing else is written. -/
theorem reconcile_environ_of_kept (h : (s.reconcile p overrides kind).2 = none) {k : Key}
    (hk : k ∉ newKeys s.environ p overrides kind ∨ s.OperatorOwned p k) :
    (s.reconcile p overrides kind).1.environ k = (s.prepare p overrides kind).environ k := by
  obtain ⟨_, heq⟩ := reconcile_ok h
  rw [heq]
  rcases hk with hk | hk
  · rw [newKeys, List.mem_toFinset] at hk
    exact write_environ_of_not_mem hk
  · exact write_environ_of_effective hk

/-- The keys that are overridden after a call. -/
theorem mem_reconcile_ownedOverrides (h : (s.reconcile p overrides kind).2 = none) {k : Key} :
    k ∈ (s.reconcile p overrides kind).1.ownedOverrides ↔
      (k ∈ s.ownedOverrides ∧ (k ∈ p.profileOwnedEnv ∨ ¬ InScope kind k)) ∨
        (k ∈ newKeys s.environ p overrides kind ∧ (s.discover p).Known k ∧
          k ∈ p.profileOwnedEnv) := by
  obtain ⟨hwrite, heq⟩ := reconcile_ok h
  rw [heq, newKeys, List.mem_toFinset, ← mem_prepare_ownedOverrides overrides]
  exact mem_write_ownedOverrides hwrite

/-- The keys that are tracked after a call. -/
theorem mem_reconcile_appliedKeys (h : (s.reconcile p overrides kind).2 = none) {k : Key} :
    k ∈ (s.reconcile p overrides kind).1.appliedKeys ↔
      (k ∈ s.appliedKeys ∧ ¬ InScope kind k) ∨
        (k ∈ newKeys s.environ p overrides kind ∧ ¬ s.OperatorOwned p k) := by
  obtain ⟨_, heq⟩ := reconcile_ok h
  obtain ⟨happlied, hextra, _⟩ := write_same p.profileOwnedEnv (merged s.environ p overrides kind)
    (s.prepare p overrides kind)
  have heff : ((State.write p.profileOwnedEnv (merged s.environ p overrides kind)
      (s.prepare p overrides kind)).1.Effective p.profileOwnedEnv k) ↔ s.OperatorOwned p k := by
    unfold State.OperatorOwned State.Effective State.Known
    rw [hextra]
    rfl
  rw [heq, State.record]
  simp only [Finset.mem_union, Finset.mem_filter, happlied]
  rw [heff]
  rfl

end Reconcile

/-! ### Profiles for examples -/

/-- A profile with one variable and one engine at most. -/
def exampleProfile (name : Text) (env : Option (Key × Text)) (owned : Finset Key)
    (engine : Option Key) : Profile :=
  { name := name
    env := env.toList.map fun e => { key := e.1, value := e.2, isStr := true }
    env_nodup := by cases env <;> simp
    ttsModelId := some ['t'], asrModelId := some ['a']
    requiredEngines := engine.toList.map fun k => { modelId := ['m'], envVar := k, required := true }
    profileOwnedEnv := owned }

/-- An operator who has set one variable. -/
def exampleImport (k : Key) (v : Text) : Import :=
  { declared := ∅, environ := fun j => if j = k then some v else none }

end ProfileLoader
end OpenVoiceStream
