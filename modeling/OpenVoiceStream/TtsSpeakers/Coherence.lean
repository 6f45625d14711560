import OpenVoiceStream.TtsSpeakers.Layers

/-!
# The cached tables and the layers they were made from

The table that is loaded for a model should be the one its layers make, after every
call, and a speaker that was just registered should be found under the spelling it was
registered with.

Two things can go wrong.  A registration writes under the spelling it is called with,
while a lookup reads under the canonical one and follows the selector aliases.  And a
removal takes the id out of the composed table, where it may have hidden a built-in
speaker, or may be declared by an override as well: those are lost from the cache until
the process restarts.

## Main definitions

* `Cached` — every cached table is the one its layers make.
* `Keeps` — a call that does neither of the two.
* `Coherent` — the loaded tables and the speaker just registered are as they should be.

## Main results

* `Cached.perform` — a call that `Keeps` preserves `Cached`.
* `coherent_of_guarded` — a run of such calls is coherent after every call.
-/

namespace OpenVoiceStream.TtsSpeakers

variable {env : Env} {file : File}

/-! ### The invariant -/

/-- Every cached table is the one its layers make. -/
def Cached (env : Env) (r : Registry) : Prop :=
  ∀ modelId t, r.cache modelId = some t → rebuild env r.file modelId = .ok t

/-- With such a cache, the loaded table is the rebuilt one. -/
theorem Cached.loadSpeakerMap_eq {r : Registry} (h : Cached env r) (modelId : String) :
    (r.loadSpeakerMap env modelId).1 = rebuild env r.file (canonicalModelId modelId) := by
  rcases hc : r.cache (canonicalModelId modelId) with _ | t
  · exact Registry.loadSpeakerMap_of_none hc
  · rw [Registry.loadSpeakerMap_of_some hc, h _ _ hc]

/-- Loading a table keeps the invariant. -/
theorem Cached.loadSpeakerMap {r : Registry} (h : Cached env r) (modelId : String) :
    Cached env (r.loadSpeakerMap env modelId).2 := by
  rcases Registry.loadSpeakerMap_cases env r modelId with heq | ⟨t, hbuild, heq⟩
  · rw [heq]
    exact h
  · rw [heq]
    intro m t' hc
    dsimp only at hc ⊢
    rcases eq_or_ne m (canonicalModelId modelId) with rfl | hne
    · rw [Function.update_self] at hc
      exact Option.some_inj.mp hc ▸ hbuild
    · rw [Function.update_of_ne hne] at hc
      exact h m t' hc

/-- Rebuilding reads nothing but the entries of the model. -/
theorem rebuild_congr {file file' : File} {modelId : String}
    (h : entriesOf file' modelId = entriesOf file modelId) :
    rebuild env file' modelId = rebuild env file modelId := by
  unfold rebuild
  rw [h]

/-- A registration keeps the invariant: only one table of the file changes, and that one
is not in the cache any more. -/
theorem Cached.registerSpeaker {r : Registry} (h : Cached env r) (call : Registration) :
    Cached env (r.registerSpeaker env call).2 := by
  rcases Registry.registerSpeaker_cases env r call with
    ⟨-, heq | heq⟩ | ⟨r', -, -, -, -, hr', heq⟩
  · rw [heq]
    exact h
  · rw [heq]
    exact h.loadSpeakerMap _
  · have hcached : Cached env r' := by
      rcases hr' with rfl | rfl
      · exact h
      · exact h.loadSpeakerMap _
    rw [heq]
    intro m t hc
    dsimp only at hc ⊢
    have hne : m ≠ call.modelId := by
      rintro rfl
      rw [Function.update_self] at hc
      cases hc
    rw [Function.update_of_ne hne] at hc
    have hentries := entriesOf_putEntry r.file call.modelId (call.sid r.file)
      (call.entry (call.sid r.file)) m
    rw [if_neg hne] at hentries
    rw [rebuild_congr hentries, ← Registry.file_of_loads hr']
    exact hcached m t hc

/-- A speaker of the file that a removal would delete. -/
def Registered (env : Env) (file : File) (modelId : String) (sid : ℤ) : Prop :=
  (fileLayer env file modelId sid).map SpeakerSpec.type = some .embedding

instance (modelId : String) (sid : ℤ) : Decidable (Registered env file modelId sid) :=
  inferInstanceAs (Decidable (_ = _))

/-- A removal keeps the invariant if the id it drops from a cached table is held by no
other layer. -/
theorem Cached.unregisterSpeaker {r : Registry} (h : Cached env r) {modelId : String} {sid : ℤ}
    {saved : Bool}
    (hlone : saved = true → Registered env r.file modelId sid → (r.cache modelId).isSome →
      builtin modelId sid = none ∧ env.overrides sid = none) :
    Cached env (r.unregisterSpeaker env modelId sid saved).2 := by
  rcases Registry.unregisterSpeaker_cases env r modelId sid saved with
    heq | ⟨-, hsaved, ⟨spec, hspec, htype⟩, heq⟩
  · rw [heq]
    exact h
  · have hreg : Registered env r.file modelId sid := by
      rw [Registered, hspec, Option.map_some, htype]
    rw [heq]
    intro m t hc
    dsimp only at hc ⊢
    have hentries := entriesOf_delEntry r.file modelId sid m
    rcases eq_or_ne m modelId with rfl | hne
    · -- the cached table loses the id: so does the overlay, since no other layer holds it
      rw [Function.update_self, Option.map_eq_some_iff] at hc
      obtain ⟨old, hold, rfl⟩ := hc
      obtain ⟨hbuiltin, hover⟩ := hlone hsaved hreg (hold ▸ rfl)
      obtain ⟨hread, rfl⟩ := rebuild_eq_ok_iff.mp (h m old hold)
      rw [if_pos rfl] at hentries
      refine rebuild_eq_ok_iff.mpr ⟨?_, ?_⟩
      · rw [hentries]
        exact hread.erase sid
      · rw [layers, layers, fileLayer_delEntry, ← drop_overlay.mpr hbuiltin,
          ← drop_overlay_lower.mpr hover]
    · rw [Function.update_of_ne hne] at hc
      rw [if_neg hne] at hentries
      rw [rebuild_congr hentries]
      exact h m t hc

/-! ### The guard and the property -/

/-- A registration is made under a canonical spelling and with an id that is no selector
alias, or with an id an override declares anyway.  A removal does not take an id out of a
cached table that another layer holds too. -/
def Keeps (env : Env) (s : System) : Call → Prop
  | .register call =>
    (validateEmbeddingPayload env call.payload).toBool → call.saved = true →
      (env.overrides (call.sid s.registry.file)).isSome ∨
        canonicalModelId call.modelId = call.modelId ∧
          selectorAliasId (call.sid s.registry.file) call.modelId = call.sid s.registry.file
  | .unregister modelId sid saved =>
    saved = true → Registered env s.registry.file modelId sid →
      (s.registry.cache modelId).isSome →
        builtin modelId sid = none ∧ env.overrides sid = none
  | _ => True

instance (s : System) : ∀ call, Decidable (Keeps env s call)
  | .register _ => inferInstanceAs (Decidable (_ → _ → _))
  | .unregister _ _ _ => inferInstanceAs (Decidable (_ → _ → _ → _))
  | .loadSpeakerMap _ => isTrue trivial
  | .speakerSpecForId _ _ => isTrue trivial
  | .reload => isTrue trivial

/-- The loaded tables are the rebuilt ones, and a speaker just registered is found under
the spelling it was registered with, unless an override declares its id. -/
structure Coherent (env : Env) (s : System) : Prop where
  tables : ∀ modelId, (s.registry.loadSpeakerMap env modelId).1 =
    rebuild env s.registry.file (canonicalModelId modelId)
  registered : ∀ a ∈ s.last, ∀ spec, a.outcome = .ok spec → env.overrides spec.id = none →
    (s.registry.speakerSpecForId env (some spec.id) a.call.modelId).1 = .ok (some spec)

/-- **A registered speaker is found.**  Under a canonical spelling and an id that is no
selector alias, the lookup after a registration gives what was registered. -/
theorem speakerSpecForId_registerSpeaker {r r' : Registry} {call : Registration}
    {spec : SpeakerSpec} (h : r.registerSpeaker env call = (.ok spec, r'))
    (hcached : Cached env r') (hover : env.overrides spec.id = none)
    (hspelling : canonicalModelId call.modelId = call.modelId)
    (halias : selectorAliasId spec.id call.modelId = spec.id) :
    (r'.speakerSpecForId env (some spec.id) call.modelId).1 = .ok (some spec) := by
  rcases Registry.registerSpeaker_cases env r call with
    ⟨⟨err, herr⟩, -⟩ | ⟨r'', hvalid, -, hread, -, -, heq⟩
  · rw [h] at herr
    cases herr
  · rw [heq] at h
    cases h
    set sid := call.sid r.file with hsid
    have hload := hcached.loadSpeakerMap_eq call.modelId
    have hentry := parseSpeakerEntry_entry env
      (ne_of_validateEmbeddingPayload hvalid) sid
    -- the table of the model is rebuilt from the file that was just written
    have hbuild : rebuild env (putEntry r.file call.modelId sid (call.entry sid)) call.modelId =
        .ok (layers env (putEntry r.file call.modelId sid (call.entry sid)) call.modelId) := by
      refine rebuild_eq_ok_iff.mpr ⟨?_, rfl⟩
      rw [entriesOf_putEntry, if_pos rfl]
      exact (hread call.modelId).insert (by rw [hentry]; rfl)
    rw [hspelling] at hload
    refine Registry.speakerSpecForId_of_some (t := layers env
      (putEntry r.file call.modelId sid (call.entry sid)) call.modelId) ?_ ?_
    · rw [hspelling, hload]
      exact hbuild
    · rw [hspelling, halias, layers, overlay_of_none hover]
      refine overlay_of_some ?_
      rw [fileLayer_putEntry, hentry]
      exact Function.update_self ..

/-- A call that `Keeps` preserves the invariant. -/
theorem Cached.perform {s : System} (h : Cached env s.registry) {call : Call}
    (hok : Keeps env s call) : Cached env (s.perform env call).registry := by
  cases call with
  | register call => exact h.registerSpeaker call
  | unregister modelId sid saved => exact h.unregisterSpeaker hok
  | loadSpeakerMap modelId => exact h.loadSpeakerMap modelId
  | speakerSpecForId speakerId modelId =>
    have hsnd := Registry.speakerSpecForId_snd env s.registry speakerId modelId
    show Cached env (s.registry.speakerSpecForId env speakerId modelId).2
    rcases hsnd with heq | heq
    · rw [heq]
      exact h
    · rw [heq]
      exact h.loadSpeakerMap _
  | reload =>
    intro modelId t hc
    cases hc

/-- With the invariant, a call that `Keeps` ends coherent. -/
theorem Coherent.perform {s : System} (h : Cached env s.registry) {call : Call}
    (hok : Keeps env s call) : Coherent env (s.perform env call) := by
  have hcached := h.perform hok
  refine ⟨fun modelId => hcached.loadSpeakerMap_eq modelId, ?_⟩
  intro a ha spec hout hover
  cases call with
  | register call =>
    obtain rfl := Option.mem_some_iff.mp ha
    rcases hreg : s.registry.registerSpeaker env call with ⟨out, r'⟩
    have hfst : out = .ok spec := by
      rw [← hout]
      exact (congrArg Prod.fst hreg).symm
    subst hfst
    have hafter : (s.perform env (.register call)).registry = r' := congrArg Prod.snd hreg
    rw [hafter] at hcached ⊢
    rcases Registry.registerSpeaker_cases env s.registry call with
      ⟨⟨err, herr⟩, -⟩ | ⟨r'', hvalid, hsaved, -, -, -, heq⟩
    · rw [hreg] at herr
      cases herr
    -- the guard speaks of the id the registration was to take, which is that of `spec`
    have hsid : call.sid s.registry.file = spec.id := by
      rw [hreg] at heq
      cases heq
      rfl
    rcases hok (by rw [hvalid]; rfl) hsaved with hdeclared | ⟨hspelling, halias⟩
    · rw [hsid, hover] at hdeclared
      cases hdeclared
    · rw [hsid] at halias
      exact speakerSpecForId_registerSpeaker hreg hcached hover hspelling halias
  | unregister modelId sid saved => cases ha
  | loadSpeakerMap modelId => cases ha
  | speakerSpecForId speakerId modelId => cases ha
  | reload => cases ha

/-- **Registry coherence.**  In a run whose calls all keep it, the table loaded for any
model is the one its layers make after every call, and every speaker is found as it was
registered. -/
theorem coherent_of_guarded (env : Env) (file : File) {calls : List Call} {s : System}
    (hok : (machine env file).Guarded (Keeps env) (System.start file) calls)
    (hrun : (machine env file).run calls = some s) : Coherent env s := by
  have hstart : Cached env (System.start file).registry := by
    intro modelId t hc
    cases hc
  have hinv := (machine env file).invariant_of_guarded (Keeps env)
    (P := fun s => Cached env s.registry ∧ Coherent env s)
    ⟨hstart, fun modelId => hstart.loadSpeakerMap_eq modelId, fun a ha => by cases ha⟩
    (fun s call s' hs hcall hstep => by
      cases hstep
      exact ⟨hs.1.perform hcall, .perform hs.1 hcall⟩)
    hok hrun
  exact hinv.2

/-! ### Runs -/

/-- An environment without overrides, that decodes the embedding used below. -/
def plainEnv : Env :=
  { overrides := fun _ => none
    allowUnmapped := true
    repr := fun _ => ""
    b64decode := fun text =>
      if text = "AACAPw==" then some [0, 0, 128, 63] else if text = "" then some [] else none
    b64decode_empty := by decide }

/-- The registration of one `float32` under a spelling of a model. -/
def registration (modelId : String) (speakerId : Option ℤ) : Call :=
  .register { modelId := modelId, payload := "AACAPw==", label := "", metadata := []
              speakerId := speakerId, created := "2026-01-01T00:00:00", saved := true }

/-- Two registrations of a Qwen3 model, one of them taken back after the table was
loaded. -/
def servedRun : List Call :=
  [registration "qwen3-tts-0.6b-base" none, .loadSpeakerMap "qwen3-tts-base",
   registration "qwen3-tts-0.6b-base" (some 7), .speakerSpecForId (some 7) "qwen3-tts-0.6b",
   .unregister "qwen3-tts-0.6b-base" 10000 true, registration "qwen3-tts-0.6b-base" (some 10000)]

theorem coherent_of_guarded_servedRun :
    ∃ s, (machine plainEnv ∅).run servedRun = some s ∧ Coherent plainEnv s ∧ s.last.isSome := by
  have hok : (machine plainEnv ∅).Guarded (Keeps plainEnv) (System.start ∅) servedRun := by
    decide +kernel
  exact ⟨_, rfl, coherent_of_guarded plainEnv ∅ hok rfl, by decide +kernel⟩

/-- A speaker registered under an alias of its model is not found there. -/
def aliasRun : List Call := [registration "qwen3-tts-base" none]

/-- A speaker hides a built-in one and is taken back: the cached table loses the id. -/
def unhiddenRun : List Call :=
  [registration "qwen3-tts-0.6b-base" (some 0), .loadSpeakerMap "qwen3-tts-0.6b-base",
   .unregister "qwen3-tts-0.6b-base" 0 true]

theorem aliasRun_unhiddenRun_not_coherent :
    (∃ s, (machine plainEnv ∅).run aliasRun = some s ∧ ¬ Coherent plainEnv s) ∧
      ∃ s, (machine plainEnv ∅).run unhiddenRun = some s ∧ ¬ Coherent plainEnv s := by
  constructor
  · refine ⟨_, rfl, fun h => ?_⟩
    have hfound := h.registered _ rfl _ rfl rfl
    have htype := congrArg (fun out => out.toOption.map fun spec? => spec?.map SpeakerSpec.type)
      hfound
    exact absurd htype (by decide +kernel)
  · refine ⟨_, rfl, fun h => ?_⟩
    have htables := h.tables "qwen3-tts-0.6b-base"
    have hholds := congrArg (fun out => out.toOption.map fun t : Table => (t 0).isSome) htables
    exact absurd hholds (by decide +kernel)

end OpenVoiceStream.TtsSpeakers
