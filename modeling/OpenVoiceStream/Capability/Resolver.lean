import Mathlib.Data.Option.Basic
import OpenVoiceStream.Base.Value

/-!
# The capability resolver

`resolve` turns what the backends of a profile declare about concurrency, and
the operator's overrides, into the numbers the server sizes itself by: how many
sessions it admits, how many of them may be in the ASR runtime at once, and how
many more may wait for it.

What a backend class declares is not decided here: the registries, the lazy import
and the declared capability are the parameter `Backends`.

## Main definitions

* `ConcurrencyCapability` — what a backend declares.
* `Backends` — the registries and what their classes declare.
* `resolve` — the resolver.

## Main results

* `resolve_asrQueueDepth` — the queue is as deep as there are admitted sessions
  beyond the running ones, unless the operator has set it.
-/

namespace OpenVoiceStream
namespace Capability

/-- The fields of `ConcurrencyCapability` that the resolver reads. -/
structure ConcurrencyCapability where
  supportsParallel : Bool
  /-- `None` is no fixed cap. -/
  maxConcurrent : Option ℤ
  deriving DecidableEq, Repr

/-- `ConcurrencyCapability.default()`. -/
def ConcurrencyCapability.default : ConcurrencyCapability := { supportsParallel := false, maxConcurrent := some 1 }

/-- The capability of a modality that a profile does not have. -/
def inactiveCap : ConcurrencyCapability := { supportsParallel := true, maxConcurrent := none }

/-- Which registry a backend is in. -/
inductive Modality
  | asr
  | tts
  deriving DecidableEq, Repr

/-- The registries, and what the classes in them declare for a profile. -/
structure Backends where
  /-- The names in `_ASR_REGISTRY` and `_TTS_REGISTRY`. -/
  registered : Modality → String → Bool
  /-- The lazy import finds the class. -/
  importable : Modality → String → Bool
  /-- `concurrency_capability_for_spec`, `none` where it answers `None` or raises. -/
  forSpec : Modality → String → Dict → Option ConcurrencyCapability
  /-- `cls.concurrency_capability(profile)`, `none` where it raises. -/
  ofClass : Modality → String → Dict → Option ConcurrencyCapability

/-- A mapping from names of environment variables to their values. -/
abbrev Env := String → Option String

/-- What `resolve` raises. -/
inductive Failure
  /-- `{label} must be an integer`. -/
  | notInteger (label : String)
  /-- `{label} must be > 0`, or `>= 0`. -/
  | outOfRange (label : String)
  /-- `unhashable type`, for a backend name that is a list or an object. -/
  | unhashable
  deriving DecidableEq, Repr

/-- `_UNKNOWN_DEFAULT`. -/
def unknownDefault : ℤ := 1

/-- `_TARGET_DEFAULTS.get(target, _UNKNOWN_DEFAULT)`. -/
def targetDefault (target : String) : ℤ :=
  if target = "orin-nx" then 2
  else if target = "orin-nano" then 1
  else if target = "rk" then 1
  else if target = "desktop" then 4
  else unknownDefault

variable (py : Builtins) (backends : Backends)

/-- The `env` block of a profile, if it is an object. -/
def envBlock (profile : Dict) : Dict :=
  match (profile.get "env").or (.dict []) with
  | .dict block => block
  | _ => []

/-- `_infer_target`: by the profile's name, then by the environment. -/
def inferTarget (environ : Env) (profile : Dict) : String :=
  let name := py.lower (py.str ((profile.get "name").or (.str "")))
  let inEnv (key : String) : String :=
    let declared := py.str (((envBlock profile).get key).or (.str ""))
    py.lower (if declared = "" then (environ key).getD "" else declared)
  if textContains name "orin-nx" || textContains name "orin_nx" then "orin-nx"
  else if textContains name "orin-nano" || textContains name "orin_nano" then "orin-nano"
  else if textContains name "rk" || textContains name "rockchip"
      || textContains name "recomputer" then "rk"
  else if textContains name "desktop" || textContains name "ci" then "desktop"
  else if inEnv "RK_PLATFORM" ≠ "" then "rk"
  else if inEnv "LANGUAGE_MODE" = "rk" then "rk"
  else "unknown"

/-- `spec in registry`. -/
def inRegistry (kind : Modality) : Value → Except Failure Bool
  | .str spec => .ok (backends.registered kind spec)
  | .list _ => .error .unhashable
  | .dict _ => .error .unhashable
  | _ => .ok false

/-- `_resolve_backend_class`: the name of a class that can be imported. -/
def resolveBackendClass (kind : Modality) (spec : Value) : Except Failure (Option String) :=
  if !spec.truthy then .ok none
  else (inRegistry backends kind spec).map fun found =>
    match spec with
    | .str name => if found && backends.importable kind name then some name else none
    | _ => none

/-- `_capability_for`. -/
def capabilityFor (kind : Modality) (cls : Option String) (profile : Dict) : ConcurrencyCapability :=
  match cls with
  | none => .default
  | some name =>
    match backends.forSpec kind name profile with
    | some cap => cap
    | none => (backends.ofClass kind name profile).getD .default

/-- `min` of a list that may be empty. -/
def minimum : List ℤ → Option ℤ
  | [] => none
  | n :: rest => some (rest.foldl min n)

/-- The number as a log line prints it. -/
def capText : Option ℤ → String
  | none => "inf"
  | some n => toString n

/-- `_aggregate_ceiling`. -/
def aggregateCeiling (asrCap ttsCap : ConcurrencyCapability) (extra : List (String × ConcurrencyCapability)) :
    Option ℤ × String :=
  let items := ("asr", asrCap.maxConcurrent) :: ("tts", ttsCap.maxConcurrent) ::
    extra.map fun (label, cap) => (label, cap.maxConcurrent)
  (minimum (items.filterMap (·.2)),
    ",".intercalate (items.map fun (name, n) => name ++ "=" ++ capText n))

/-- `_parallel_ok`. -/
def parallelOk (cap : ConcurrencyCapability) : Bool :=
  cap.supportsParallel && cap.maxConcurrent.all fun n => decide (1 < n)

/-- The parse that `_parse_positive_int` and `_parse_non_negative_int` share; the
bound is what tells them apart. -/
def parseInt (least : ℤ) (label : String) : Value → Except Failure (Option ℤ)
  | .none => .ok none
  | .int n => if n < least then .error (.outOfRange label) else .ok (some n)
  | v =>
    let s := py.strip (py.str v)
    if s = "" then .ok none
    else
      match py.int s with
      | none => .error (.notInteger label)
      | some n => if n < least then .error (.outOfRange label) else .ok (some n)

/-- `_parse_positive_int`. -/
def parsePositiveInt (label : String) (v : Value) : Except Failure (Option ℤ) :=
  parseInt py 1 label v

/-- `_parse_non_negative_int`. -/
def parseNonNegativeInt (label : String) (v : Value) : Except Failure (Option ℤ) :=
  parseInt py 0 label v

/-! ### Diarization -/

/-- `truthy` of an environment value. -/
def envTruthy (value : String) : Bool :=
  ["1", "true", "yes", "on"].contains (py.lower (py.strip value))

/-- `_max_concurrent`: anything but a positive number is no cap. -/
def diarMaxConcurrent (env : Env) : Option ℤ :=
  ((env "OVS_DIARIZE_MAX_CONCURRENT").bind fun raw => py.int (py.strip raw)).filter
    fun n => decide (0 < n)

/-- `diarization_concurrency_capability`. -/
def diarizationCapability (profile : Dict) (env : Env) : Option ConcurrencyCapability :=
  if envTruthy py ((env "OVS_DIARIZE").getD "") || (profile.get "diarize").truthy then
    let chosen := (env "OVS_SPEAKER_EMB_BACKEND").getD "auto"
    let strictTrt : Bool :=
      py.lower (py.strip (if chosen = "" then "auto" else chosen)) = "jetson_trt"
    some
      { supportsParallel := !strictTrt
        maxConcurrent := if strictTrt then some 1 else diarMaxConcurrent py env }
  else none

/-! ### Executor -/

/-- The environment value that sizes the executor, and the variable it is from. -/
def executorEnv (ttsBackendName : String) (env : Env) : Option (String × String) :=
  let name := py.lower ttsBackendName
  let own := ([("kokoro", "OVS_TTS_STREAM_MAX_WORKERS_KOKORO"),
      ("matcha", "OVS_TTS_STREAM_MAX_WORKERS_MATCHA"),
      ("qwen3", "OVS_TTS_STREAM_MAX_WORKERS_QWEN3"),
      ("moss", "OVS_TTS_STREAM_MAX_WORKERS_MOSS")] : List (String × String)).find?
    fun (suffix, key) => textContains name suffix && decide ((env key).getD "" ≠ "")
  let key := (own.map (·.2)).getD "OVS_TTS_STREAM_MAX_WORKERS"
  let value := (env key).getD ""
  if value = "" then none else some (value, key)

/-- `_resolve_executor_max_workers`: the workers, and the warning. -/
def resolveExecutorMaxWorkers (ttsCap : ConcurrencyCapability) (ttsBackendName : String) (env : Env) :
    ℤ × Option String :=
  match executorEnv py ttsBackendName env, ttsCap.maxConcurrent with
  | some (text, key), some cap =>
    let n := (py.int text).getD 2
    if cap < n then
      (max 1 cap, some ("TTS executor: " ++ key ++ "=" ++ toString n
        ++ " exceeds backend ceiling " ++ toString cap ++ "; clamping"))
    else (max 1 n, none)
  | some (text, _), none => (max 1 ((py.int text).getD 2), none)
  | none, some cap => (max 1 cap, none)
  | none, none => (2, none)

/-! ### The resolver -/

/-- `ResolvedCapability`. -/
structure Resolved where
  sessionCeiling : Option ℤ
  executorMaxWorkers : ℤ
  coordinatorMode : String
  ceilingSource : String
  asrCap : ConcurrencyCapability
  ttsCap : ConcurrencyCapability
  clampWarnings : List String
  diarCap : Option ConcurrencyCapability
  asrInferConcurrency : ℤ
  asrQueueDepth : Option ℤ
  deriving DecidableEq, Repr

/-- The execution policy: the argument, or the profile's own. -/
def effectivePolicy (profile : Dict) (policy : Option Dict) : Option Dict :=
  match policy, profile.get "execution_policy" with
  | some policy, _ => some policy
  | none, .dict policy => some policy
  | none, _ => none

/-- `cross_modal_overlap`. -/
def crossModalOverlap (policy : Option Dict) : Bool :=
  policy.any fun p => (p.get "mode").isText "concurrent" &&
    match p.get "cross_modal_overlap" with
    | .bool b => b
    | _ => false

/-- The ceiling of a profile whose modalities overlap: their sum, if both are
finite, and the cap of diarization. -/
def crossModalCeiling (asrCap ttsCap : ConcurrencyCapability) (diarCap : Option ConcurrencyCapability) :
    Option ℤ × String :=
  let ceiling : Option ℤ :=
    match asrCap.maxConcurrent, ttsCap.maxConcurrent with
    | some asr, some tts => some (asr + tts)
    | _, _ => none
  let source := "cross_modal:asr=" ++ capText asrCap.maxConcurrent
    ++ "+tts=" ++ capText ttsCap.maxConcurrent
  match diarCap.bind (·.maxConcurrent) with
  | some diar => (some (ceiling.elim diar (min · diar)), source ++ ",diar=" ++ toString diar)
  | none => (ceiling, source)

/-- An override of the session ceiling, clamped to the ceiling of the backends. -/
def clampSessions (label source : String) (ceiling : Option ℤ) (wanted : ℤ) :
    Option ℤ × List String :=
  match ceiling with
  | some c =>
    if c < wanted then
      (some c, [label ++ "=" ++ toString wanted ++ " exceeds backend ceiling (" ++ source
        ++ ") → clamping to " ++ toString c])
    else (some wanted, [])
  | none => (some wanted, [])

/-- The session ceiling: the environment's override, or the profile's, or the
ceiling of the backends, or the target's default. -/
def resolveSessions (environ : Env) (profile : Dict) (ceiling : Option ℤ) (source : String)
    (envSession profileSession : Option ℤ) : Option ℤ × List String :=
  match envSession, profileSession with
  | some wanted, _ =>
    clampSessions "OVS_MAX_CONCURRENT_SESSIONS" source ceiling wanted
  | none, some wanted =>
    clampSessions "profile.max_concurrent_sessions" source ceiling wanted
  | none, none => (some (ceiling.getD (targetDefault (inferTarget py environ profile))), [])

/-- The coordinator's mode. -/
def resolveMode (policy : Option Dict) (asrCap ttsCap : ConcurrencyCapability)
    (declared overlapping : Bool) : String :=
  let requested := policy.elim "concurrent" fun p => py.str (p.getD "mode" (.str "concurrent"))
  if requested = "concurrent" && declared &&
      !((parallelOk asrCap && parallelOk ttsCap) || overlapping) then "serialized"
  else requested

/-- How many sessions may be in the ASR runtime at once, as the backend declares it:
`max_concurrent or session_ceiling or 1` for a parallel one. -/
def declaredInfer (asrCap : ConcurrencyCapability) (sessionCeiling : Option ℤ) : ℤ :=
  if asrCap.supportsParallel then
    let orElse (n : Option ℤ) (m : ℤ) : ℤ := if n.getD 0 = 0 then m else n.getD 0
    orElse asrCap.maxConcurrent (orElse sessionCeiling unknownDefault)
  else 1

/-- The same, narrowed by the operator. -/
def resolveInfer (asrCap : ConcurrencyCapability) (sessionCeiling envInfer : Option ℤ) :
    ℤ × List String :=
  let declared := declaredInfer asrCap sessionCeiling
  match envInfer with
  | none => (declared, [])
  | some wanted =>
    if declared < wanted then
      (declared, ["OVS_ASR_INFER_CONCURRENCY=" ++ toString wanted
        ++ " exceeds what the ASR backend declares (supports_parallel="
        ++ (if asrCap.supportsParallel then "True" else "False") ++ ", max_concurrent="
        ++ (asrCap.maxConcurrent.elim "None" toString) ++ ") → clamping to "
        ++ toString declared])
    else (wanted, [])

/-- The queue before the inference: the admitted sessions beyond the running ones,
or what the operator has set. -/
def resolveDepth (sessionCeiling : Option ℤ) (infer : ℤ) (envDepth : Option ℤ) : Option ℤ :=
  match envDepth with
  | some depth => some depth
  | none => sessionCeiling.map fun ceiling => max 0 (ceiling - infer)

/-- `resolve`.  `environ` is the process environment, `env` the mapping that
overrides it for all but the target. -/
def resolve (environ : Env) (profile : Dict) (policy : Option Dict) (env : Option Env)
    (ttsBackendName : String) : Except Failure Resolved := do
  let envMap := env.getD environ
  let policy := effectivePolicy profile policy
  let asrSpec := profile.get "asr_backend"
  let ttsSpec := profile.get "tts_backend"
  let asrCls ← resolveBackendClass backends .asr asrSpec
  let ttsCls ← resolveBackendClass backends .tts ttsSpec
  let hasAsr := asrSpec.truthy
  let hasTts := ttsSpec.truthy
  let asrCap := if hasAsr then capabilityFor backends .asr asrCls profile else inactiveCap
  let ttsCap := if hasTts then capabilityFor backends .tts ttsCls profile else inactiveCap
  let diarCap := diarizationCapability py profile envMap
  let overlapping := crossModalOverlap policy && hasAsr && hasTts
  let (ceiling, source) :=
    if overlapping then crossModalCeiling asrCap ttsCap diarCap
    else if hasAsr || hasTts then
      aggregateCeiling asrCap ttsCap (diarCap.toList.map fun cap => ("diar", cap))
    else
      let target := inferTarget py environ profile
      (some (targetDefault target), "target_default=" ++ target)
  let envSession ← parsePositiveInt py "OVS_MAX_CONCURRENT_SESSIONS"
    (.ofId (envMap "OVS_MAX_CONCURRENT_SESSIONS"))
  let profileSession ← parsePositiveInt py "profile.max_concurrent_sessions"
    (profile.get "max_concurrent_sessions")
  let (sessionCeiling, sessionWarnings) :=
    resolveSessions py environ profile ceiling source envSession profileSession
  let ttsDeclared ← inRegistry backends .tts ttsSpec
  let (executorMaxWorkers, executorWarning) := resolveExecutorMaxWorkers py
    (if ttsDeclared then ttsCap else { supportsParallel := false, maxConcurrent := none })
    ttsBackendName envMap
  let envInfer ← parsePositiveInt py "OVS_ASR_INFER_CONCURRENCY"
    (.ofId (envMap "OVS_ASR_INFER_CONCURRENCY"))
  let (asrInferConcurrency, inferWarnings) := resolveInfer asrCap sessionCeiling envInfer
  let envDepth ← parseNonNegativeInt py "OVS_ASR_INFER_QUEUE_DEPTH"
    (.ofId (envMap "OVS_ASR_INFER_QUEUE_DEPTH"))
  return {
    sessionCeiling := sessionCeiling
    executorMaxWorkers := executorMaxWorkers
    coordinatorMode := resolveMode py policy asrCap ttsCap (hasAsr || hasTts) overlapping
    ceilingSource := source
    asrCap := asrCap
    ttsCap := ttsCap
    clampWarnings := sessionWarnings ++ executorWarning.toList ++ inferWarnings
    diarCap := diarCap
    asrInferConcurrency := asrInferConcurrency
    asrQueueDepth := resolveDepth sessionCeiling asrInferConcurrency envDepth }

/-! ### The queue's depth -/

/-- A computation that succeeds does so step by step. -/
theorem bind_eq_ok {α β : Type} {x : Except Failure α} {f : α → Except Failure β} {r : β}
    (h : x >>= f = .ok r) : ∃ a, x = .ok a ∧ f a = .ok r := by
  cases x with
  | error e => cases h
  | ok a => exact ⟨a, rfl, h⟩

/-- **The depth of the queue.**  Unless the operator has set it, it is the number of
admitted sessions beyond the running ones. -/
theorem resolve_asrQueueDepth {environ : Env} {profile : Dict} {policy : Option Dict}
    {env : Option Env} {ttsBackendName : String} {r : Resolved}
    (hdepth : (env.getD environ) "OVS_ASR_INFER_QUEUE_DEPTH" = none)
    (h : resolve py backends environ profile policy env ttsBackendName = .ok r) :
    r.asrQueueDepth = r.sessionCeiling.map fun ceiling => max 0 (ceiling - r.asrInferConcurrency) := by
  obtain ⟨asrCls, -, h⟩ := bind_eq_ok h
  obtain ⟨ttsCls, -, h⟩ := bind_eq_ok h
  obtain ⟨envSession, -, h⟩ := bind_eq_ok h
  obtain ⟨profileSession, -, h⟩ := bind_eq_ok h
  obtain ⟨ttsDeclared, -, h⟩ := bind_eq_ok h
  obtain ⟨envInfer, -, h⟩ := bind_eq_ok h
  obtain ⟨envDepth, hparse, h⟩ := bind_eq_ok h
  have hnone : envDepth = none := by
    rw [hdepth] at hparse
    exact (Except.ok.inj hparse).symm
  subst hnone
  obtain rfl := Except.ok.inj h
  rfl

end Capability
end OpenVoiceStream
