import OpenVoiceStream.TtsSpeakers.Coherence

/-!
# The built-in speakers stay

A registration must not displace a speaker that is written in the source, whatever the
spelling of the model, and an id that is assigned automatically should be a new one.

The guard of the code looks at the ids it finds under the spelling it is called with, and
at the type of the speaker that a lookup shows for the id.  So it protects a preset under
a canonical spelling; an intrinsic speaker it takes for an embedding that may be
overwritten, and under another spelling it does not see the built-in ids at all.

## Main definitions

* `Shelters` — a call that the guard of the code handles, or that needs none.
* `Intact` — no built-in id is in the file, and every cached table shows the built-in
  speakers.
* `Protected` — built-in ids show their speakers, attempts on them fail and leave the file
  alone, and automatic ids are new.

## Main results

* `chooseId_refuses` — the guard of the code at work.
* `Intact.perform` — a call that `Shelters` preserves `Intact`.
* `protected_of_guarded` — in a run of such calls the built-in speakers are protected.
-/

namespace OpenVoiceStream.TtsSpeakers

variable {env : Env}

/-! ### Automatic ids -/

/-- The next id lies above every id that was found. -/
theorem lt_nextId {existing : List ℤ} {sid : ℤ} (h : sid ∈ existing) : sid < nextId existing := by
  have hle : sid ≤ existing.max?.getD 0 := by
    cases hmax : existing.max? with
    | none =>
      rw [List.max?_eq_none_iff] at hmax
      rw [hmax] at h
      cases h
    | some top => exact (List.max?_eq_some_iff.mp hmax).2 sid h
  unfold nextId
  omega

/-- The next id lies above every built-in one, so it is none of them. -/
theorem builtin_nextId (existing : List ℤ) (modelId : String) :
    builtin modelId (nextId existing) = none := by
  rw [Option.eq_none_iff_forall_not_mem]
  intro spec hspec
  have hlt := builtin_lt hspec
  unfold nextId at hlt
  omega

/-- The next id is not among the entries it was computed from. -/
theorem nextId_notMem_entriesOf (file : File) (modelId : String) :
    nextId (existingIds file modelId) ∉ entriesOf file modelId := by
  intro hmem
  have htaken : nextId (existingIds file modelId) ∈ existingIds file modelId :=
    List.mem_append_right _ hmem
  exact absurd (lt_nextId htaken) (Int.lt_irrefl _)

/-! ### The invariant -/

/-- No built-in id is in the file, and every cached table shows the built-in speakers,
except where an override does, and nothing that is in no layer. -/
structure Intact (env : Env) (r : Registry) : Prop where
  readable : ∀ modelId, Readable env (entriesOf r.file modelId)
  free : ∀ modelId sid spec, builtin modelId sid = some spec → sid ∉ entriesOf r.file modelId
  shows : ∀ modelId t, r.cache modelId = some t → ∀ sid spec, builtin modelId sid = some spec →
    t sid = some ((env.overrides sid).getD spec)
  held : ∀ modelId t, r.cache modelId = some t → ∀ sid, layers env r.file modelId sid = none →
    t sid = none

namespace Intact

variable {r : Registry}

/-- The layers show the built-in speakers. -/
theorem layers_eq (h : Intact env r) {modelId : String} {sid : ℤ} {spec : SpeakerSpec}
    (hspec : builtin modelId sid = some spec) :
    layers env r.file modelId sid = some ((env.overrides sid).getD spec) := by
  have hfile : fileLayer env r.file modelId sid = none := by
    rw [fileLayer_eq, AList.lookup_eq_none.mpr (h.free modelId sid spec hspec), Option.bind_none]
  unfold layers
  rcases hover : env.overrides sid with _ | row
  · rw [overlay_of_none hover, overlay_of_none hfile, hspec, Option.getD_none]
  · rw [overlay_of_some hover, Option.getD_some]

/-- A table is always loaded, shows the built-in speakers and nothing that is in no
layer. -/
theorem exists_load (h : Intact env r) (modelId : String) :
    ∃ t, (r.loadSpeakerMap env modelId).1 = .ok t ∧
      (∀ sid spec, builtin (canonicalModelId modelId) sid = some spec →
        t sid = some ((env.overrides sid).getD spec)) ∧
      ∀ sid, layers env r.file (canonicalModelId modelId) sid = none → t sid = none := by
  rcases hc : r.cache (canonicalModelId modelId) with _ | t
  · refine ⟨layers env r.file (canonicalModelId modelId), ?_, fun _ _ => h.layers_eq,
      fun _ hnone => hnone⟩
    rw [Registry.loadSpeakerMap_of_none hc]
    exact rebuild_eq_ok_iff.mpr ⟨h.readable _, rfl⟩
  · exact ⟨t, congrArg Prod.fst (Registry.loadSpeakerMap_of_some hc), h.shows _ t hc,
      h.held _ t hc⟩

/-- **A built-in id shows its speaker**, under every spelling of the model. -/
theorem speakerSpecForId_eq (h : Intact env r) {modelId : String} {sid : ℤ} {spec : SpeakerSpec}
    (hspec : builtin (canonicalModelId modelId) sid = some spec) :
    (r.speakerSpecForId env (some sid) modelId).1 =
      .ok (some ((env.overrides sid).getD spec)) := by
  have hcanonical := canonicalModelId_of_builtin hspec
  obtain ⟨t, hload, hshows, -⟩ := h.exists_load (canonicalModelId modelId)
  refine Registry.speakerSpecForId_of_some hload ?_
  rw [selectorAliasId_of_builtin hspec]
  exact hshows sid spec (by rw [hcanonical]; exact hspec)

/-- Loading a table keeps the invariant. -/
theorem loadSpeakerMap (h : Intact env r) (modelId : String) :
    Intact env (r.loadSpeakerMap env modelId).2 := by
  rcases Registry.loadSpeakerMap_cases env r modelId with heq | ⟨t, hbuild, heq⟩
  · rw [heq]
    exact h
  · obtain ⟨-, rfl⟩ := rebuild_eq_ok_iff.mp hbuild
    rw [heq]
    refine ⟨h.readable, h.free, ?_, ?_⟩
    · intro m t' hc
      dsimp only at hc
      rcases eq_or_ne m (canonicalModelId modelId) with rfl | hne
      · rw [Function.update_self, Option.some_inj] at hc
        exact hc ▸ fun _ _ => h.layers_eq
      · rw [Function.update_of_ne hne] at hc
        exact h.shows m t' hc
    · intro m t' hc
      dsimp only at hc
      rcases eq_or_ne m (canonicalModelId modelId) with rfl | hne
      · rw [Function.update_self, Option.some_inj] at hc
        exact hc ▸ fun _ hnone => hnone
      · rw [Function.update_of_ne hne] at hc
        exact h.held m t' hc

end Intact

/-- **The guard of the code.**  A registration for a built-in id that is found taken, and
shown as a preset, gets no id. -/
theorem chooseId_refuses {r : Registry} (h : Intact env r) {modelId : String} {sid : ℤ}
    {spec : SpeakerSpec} (hspec : builtin (canonicalModelId modelId) sid = some spec)
    (htaken : sid ∈ existingIds r.file modelId)
    (htype : ((env.overrides sid).getD spec).type = .preset) :
    (r.chooseId env r.file modelId (some sid)).1 = .error (.overwritePreset sid modelId) := by
  have hlookup := h.speakerSpecForId_eq hspec
  rcases hout : r.speakerSpecForId env (some sid) modelId with ⟨out, r'⟩
  rw [hout] at hlookup
  dsimp only at hlookup
  subst hlookup
  unfold Registry.chooseId
  dsimp only
  rw [if_pos htaken, hout]
  dsimp only
  rw [if_pos htype]

/-! ### The calls that need no other guard -/

/-- A built-in id is asked for only where it is found taken and is shown as a preset.  A
fresh id is one that no override declares and that is not in the file under another
spelling of the model. -/
def ShelteredId (env : Env) (file : File) (call : Registration) : Option ℤ → Prop
  | some sid =>
    ∀ spec ∈ builtin (canonicalModelId call.modelId) sid,
      sid ∈ existingIds file call.modelId ∧ ((env.overrides sid).getD spec).type = .preset
  | none =>
    env.overrides (call.sid file) = none ∧
      ∀ m ∈ file.entries, canonicalModelId m.1 = canonicalModelId call.modelId →
        m.1 ≠ call.modelId → call.sid file ∉ m.2

instance (file : File) (call : Registration) :
    ∀ speakerId, Decidable (ShelteredId env file call speakerId)
  | some _ => inferInstanceAs (Decidable (∀ _ ∈ _, _))
  | none => inferInstanceAs (Decidable (_ ∧ _))

/-- A registration that can succeed takes a sheltered id. -/
def Shelters (env : Env) (s : System) : Call → Prop
  | .register call =>
    (validateEmbeddingPayload env call.payload).toBool → call.saved = true →
      ShelteredId env s.registry.file call call.speakerId
  | _ => True

instance (s : System) : ∀ call, Decidable (Shelters env s call)
  | .register _ => inferInstanceAs (Decidable (_ → _ → _))
  | .unregister _ _ _ => isTrue trivial
  | .loadSpeakerMap _ => isTrue trivial
  | .speakerSpecForId _ _ => isTrue trivial
  | .reload => isTrue trivial

/-- Built-in ids that no override declares show their speakers.  An attempt to register
over one fails and leaves the file alone.  An automatic id is new: no built-in one, not in
the file under any spelling of the model, and not in its table. -/
structure Protected (env : Env) (s : System) : Prop where
  shows : ∀ modelId sid spec, builtin (canonicalModelId modelId) sid = some spec →
    env.overrides sid = none →
    (s.registry.speakerSpecForId env (some sid) modelId).1 = .ok (some spec)
  refused : ∀ a ∈ s.last, ∀ sid, a.call.speakerId = some sid →
    (builtin (canonicalModelId a.call.modelId) sid).isSome →
    (∃ err, a.outcome = .error err) ∧ s.registry.file = a.before.file
  fresh : ∀ a ∈ s.last, ∀ spec, a.call.speakerId = none → a.outcome = .ok spec →
    builtin (canonicalModelId a.call.modelId) spec.id = none ∧
      (∀ modelId, canonicalModelId modelId = canonicalModelId a.call.modelId →
        spec.id ∉ entriesOf a.before.file modelId) ∧
      ∀ t, (a.before.loadSpeakerMap env a.call.modelId).1 = .ok t → t spec.id = none

/-- With the guard, a registration that succeeds took no built-in id. -/
theorem builtin_of_registerSpeaker {s : System} (h : Intact env s.registry)
    {call : Registration} {r' : Registry} (hok : Shelters env s (.register call))
    (hvalid : validateEmbeddingPayload env call.payload = .ok ()) (hsaved : call.saved = true)
    (hid : s.registry.chooseId env s.registry.file call.modelId call.speakerId =
      (.ok (call.sid s.registry.file), r')) :
    builtin (canonicalModelId call.modelId) (call.sid s.registry.file) = none := by
  have hguard := hok (by rw [hvalid]; rfl) hsaved
  cases hask : call.speakerId with
  | none =>
    rw [Registration.sid, hask, Option.getD_none]
    exact builtin_nextId _ _
  | some sid =>
    rw [hask] at hguard
    have hsid : call.sid s.registry.file = sid := by rw [Registration.sid, hask, Option.getD_some]
    rw [hsid, Option.eq_none_iff_forall_not_mem]
    intro spec hspec
    obtain ⟨htaken, htype⟩ := hguard spec hspec
    have hrefused := chooseId_refuses h hspec htaken htype
    rw [hask] at hid
    rw [hid] at hrefused
    cases hrefused

/-- A registration that is sheltered keeps the invariant. -/
theorem Intact.registerSpeaker {s : System} (h : Intact env s.registry) {call : Registration}
    (hok : Shelters env s (.register call)) :
    Intact env (s.registry.registerSpeaker env call).2 := by
  rcases Registry.registerSpeaker_cases env s.registry call with
    ⟨-, heq | heq⟩ | ⟨r', hvalid, hsaved, -, hid, hr', heq⟩
  · rw [heq]
    exact h
  · rw [heq]
    exact h.loadSpeakerMap _
  · have hnone := builtin_of_registerSpeaker h hok hvalid hsaved hid
    have hr : Intact env r' := by
      rcases hr' with rfl | rfl
      · exact h
      · exact h.loadSpeakerMap _
    have hfile : r'.file = s.registry.file := Registry.file_of_loads hr'
    have hentry := parseSpeakerEntry_entry env (ne_of_validateEmbeddingPayload hvalid)
      (call.sid s.registry.file)
    have hput := entriesOf_putEntry s.registry.file call.modelId (call.sid s.registry.file)
      (call.entry (call.sid s.registry.file))
    rw [heq]
    refine ⟨fun m => ?_, fun m sid spec hspec => ?_, fun m t hc => ?_, fun m t hc => ?_⟩
    · rw [hput]
      split
      · exact (h.readable _).insert (by rw [hentry]; rfl)
      · exact h.readable m
    · -- only the id that was taken is new in the file, and it is not built in
      rw [hput]
      split
      · next hm =>
        subst hm
        rw [AList.mem_insert]
        rintro (rfl | hmem)
        · rw [canonicalModelId_of_builtin hspec, hspec] at hnone
          cases hnone
        · exact h.free _ sid spec hspec hmem
      · exact h.free m sid spec hspec
    · dsimp only at hc
      rcases eq_or_ne m call.modelId with rfl | hne
      · rw [Function.update_self] at hc
        cases hc
      · rw [Function.update_of_ne hne] at hc
        exact hr.shows m t hc
    · dsimp only at hc ⊢
      rcases eq_or_ne m call.modelId with rfl | hne
      · rw [Function.update_self] at hc
        cases hc
      · rw [Function.update_of_ne hne] at hc
        have hheld := hr.held m t hc
        rw [hfile] at hheld
        rw [layers, fileLayer, hput, if_neg hne]
        exact hheld

/-- A removal keeps the invariant: what it takes out of a table was in the file. -/
theorem Intact.unregisterSpeaker {r : Registry} (h : Intact env r) (modelId : String) (sid : ℤ)
    (saved : Bool) : Intact env (r.unregisterSpeaker env modelId sid saved).2 := by
  rcases Registry.unregisterSpeaker_cases env r modelId sid saved with
    heq | ⟨-, -, ⟨spec, hspec, -⟩, heq⟩
  · rw [heq]
    exact h
  · have hmem : sid ∈ entriesOf r.file modelId := by
      by_contra hnot
      rw [fileLayer_eq, AList.lookup_eq_none.mpr hnot] at hspec
      cases hspec
    have hdel := entriesOf_delEntry r.file modelId sid
    rw [heq]
    refine ⟨fun m => ?_, fun m j b hb => ?_, fun m t hc => ?_, fun m t hc => ?_⟩
    · rw [hdel]
      split
      · exact (h.readable _).erase sid
      · exact h.readable m
    · rw [hdel]
      split
      · next hm =>
        subst hm
        rw [AList.mem_erase]
        exact fun hj => h.free _ j b hb hj.2
      · exact h.free m j b hb
    · dsimp only at hc
      rcases eq_or_ne m modelId with rfl | hne
      · rw [Function.update_self, Option.map_eq_some_iff] at hc
        obtain ⟨old, hold, rfl⟩ := hc
        intro j b hb
        -- the id that is dropped is in the file, so it is not built in
        have hj : j ≠ sid := by
          rintro rfl
          exact h.free _ j b hb hmem
        rw [drop_of_ne hj]
        exact h.shows m old hold j b hb
      · rw [Function.update_of_ne hne] at hc
        exact h.shows m t hc
    · dsimp only at hc ⊢
      rcases eq_or_ne m modelId with rfl | hne
      · rw [Function.update_self, Option.map_eq_some_iff] at hc
        obtain ⟨old, hold, rfl⟩ := hc
        intro j hnone
        rcases eq_or_ne j sid with rfl | hj
        · exact drop_self ..
        · rw [drop_of_ne hj]
          refine h.held m old hold j ?_
          rw [layers, overlay_eq_none, overlay_eq_none, fileLayer_delEntry, drop_of_ne hj] at hnone
          rw [layers, overlay_eq_none, overlay_eq_none]
          exact hnone
      · rw [Function.update_of_ne hne] at hc
        rw [layers, fileLayer, hdel, if_neg hne]
        exact h.held m t hc

/-- A call that `Shelters` preserves the invariant. -/
theorem Intact.perform {s : System} (h : Intact env s.registry) {call : Call}
    (hok : Shelters env s call) : Intact env (s.perform env call).registry := by
  cases call with
  | register call => exact h.registerSpeaker hok
  | unregister modelId sid saved => exact h.unregisterSpeaker modelId sid saved
  | loadSpeakerMap modelId => exact h.loadSpeakerMap modelId
  | speakerSpecForId speakerId modelId =>
    have hsnd := Registry.speakerSpecForId_snd env s.registry speakerId modelId
    show Intact env (s.registry.speakerSpecForId env speakerId modelId).2
    rcases hsnd with heq | heq
    · rw [heq]
      exact h
    · rw [heq]
      exact h.loadSpeakerMap _
  | reload =>
    refine ⟨h.readable, h.free, ?_, ?_⟩
    · intro modelId t hc
      cases hc
    · intro modelId t hc
      cases hc

/-! ### The protection -/

/-- What is read under a spelling is in the file under that spelling. -/
theorem exists_of_mem_entriesOf {file : File} {modelId : String} {sid : ℤ}
    (h : sid ∈ entriesOf file modelId) :
    ∃ m ∈ file.entries, m.1 = modelId ∧ sid ∈ m.2 := by
  unfold entriesOf at h
  rcases hl : file.lookup modelId with _ | entries
  · rw [hl, Option.getD_none] at h
    exact absurd h (AList.notMem_empty sid)
  · rw [hl, Option.getD_some] at h
    exact ⟨⟨modelId, entries⟩, AList.mem_lookup_iff.mp hl, rfl, h⟩

/-- An attempt on a built-in id fails and leaves the file alone. -/
theorem refused_of_shelters {s : System} (h : Intact env s.registry) {call : Registration}
    (hok : Shelters env s (.register call)) {sid : ℤ} (hask : call.speakerId = some sid)
    (hbuiltin : (builtin (canonicalModelId call.modelId) sid).isSome) :
    (∃ err, (s.registry.registerSpeaker env call).1 = .error err) ∧
      (s.registry.registerSpeaker env call).2.file = s.registry.file := by
  rcases Registry.registerSpeaker_cases env s.registry call with
    ⟨herr, hloads⟩ | ⟨r', hvalid, hsaved, -, hid, -, -⟩
  · exact ⟨herr, Registry.file_of_loads hloads⟩
  · have hnone := builtin_of_registerSpeaker h hok hvalid hsaved hid
    rw [Registration.sid, hask, Option.getD_some] at hnone
    rw [hnone] at hbuiltin
    cases hbuiltin

/-- An automatic id is new. -/
theorem fresh_of_shelters {s : System} (h : Intact env s.registry) {call : Registration}
    (hok : Shelters env s (.register call)) (hask : call.speakerId = none) {spec : SpeakerSpec}
    (hout : (s.registry.registerSpeaker env call).1 = .ok spec) :
    builtin (canonicalModelId call.modelId) spec.id = none ∧
      (∀ modelId, canonicalModelId modelId = canonicalModelId call.modelId →
        spec.id ∉ entriesOf s.registry.file modelId) ∧
      ∀ t, (s.registry.loadSpeakerMap env call.modelId).1 = .ok t → t spec.id = none := by
  rcases Registry.registerSpeaker_cases env s.registry call with
    ⟨⟨err, herr⟩, -⟩ | ⟨r', hvalid, hsaved, -, hid, -, heq⟩
  · rw [hout] at herr
    cases herr
  have hspec : spec.id = call.sid s.registry.file := by
    rw [heq] at hout
    cases hout
    rfl
  have hsid : call.sid s.registry.file = nextId (existingIds s.registry.file call.modelId) := by
    rw [Registration.sid, hask, Option.getD_none]
  have hguard := hok (by rw [hvalid]; rfl) hsaved
  rw [hask] at hguard
  obtain ⟨hover, hothers⟩ := hguard
  have hnone := builtin_of_registerSpeaker h hok hvalid hsaved hid
  have hnew : ∀ modelId, canonicalModelId modelId = canonicalModelId call.modelId →
      call.sid s.registry.file ∉ entriesOf s.registry.file modelId := by
    intro modelId hsame hmem
    rcases eq_or_ne modelId call.modelId with rfl | hne
    · rw [hsid] at hmem
      exact nextId_notMem_entriesOf _ _ hmem
    · obtain ⟨m, hm, rfl, hin⟩ := exists_of_mem_entriesOf hmem
      exact hothers m hm hsame hne hin
  rw [hspec]
  refine ⟨hnone, hnew, fun t ht => ?_⟩
  obtain ⟨t', hload, -, hheld⟩ := h.exists_load call.modelId
  rw [hload] at ht
  cases ht
  -- the table holds what a layer holds, and none of the three layers holds the id
  refine hheld _ ?_
  have hcanonical := hnew _ (canonicalModelId_idem call.modelId)
  rw [layers, overlay_eq_none, overlay_eq_none, fileLayer_eq,
    AList.lookup_eq_none.mpr hcanonical]
  exact ⟨hover, rfl, hnone⟩

/-- With the invariant, the built-in speakers are protected after a call that
`Shelters`. -/
theorem Protected.perform {s : System} (h : Intact env s.registry) {call : Call}
    (hok : Shelters env s call) : Protected env (s.perform env call) := by
  have hafter := h.perform hok
  refine ⟨?_, ?_, ?_⟩
  · intro modelId sid spec hspec hover
    rw [hafter.speakerSpecForId_eq hspec, hover, Option.getD_none]
  · intro a ha sid hask hbuiltin
    cases call with
    | register call =>
      obtain rfl := Option.mem_some_iff.mp ha
      exact refused_of_shelters h hok hask hbuiltin
    | unregister modelId sid saved => cases ha
    | loadSpeakerMap modelId => cases ha
    | speakerSpecForId speakerId modelId => cases ha
    | reload => cases ha
  · intro a ha spec hask hout
    cases call with
    | register call =>
      obtain rfl := Option.mem_some_iff.mp ha
      exact fresh_of_shelters h hok hask hout
    | unregister modelId sid saved => cases ha
    | loadSpeakerMap modelId => cases ha
    | speakerSpecForId speakerId modelId => cases ha
    | reload => cases ha

/-- Without a file nothing is displaced. -/
theorem intact_start (env : Env) : Intact env (System.start ∅).registry := by
  refine ⟨fun m => ?_, fun m sid spec _ => ?_, fun m t hc => ?_, fun m t hc => ?_⟩
  · show Readable env (entriesOf ∅ m)
    rw [entriesOf_empty]
    exact fun e he => absurd he List.not_mem_nil
  · show sid ∉ entriesOf ∅ m
    rw [entriesOf_empty]
    exact AList.notMem_empty sid
  · cases hc
  · cases hc

/-- At the start the built-in speakers are protected. -/
theorem protected_start (env : Env) : Protected env (System.start ∅) := by
  refine ⟨?_, ?_, ?_⟩
  · intro modelId sid spec hspec hover
    rw [(intact_start env).speakerSpecForId_eq hspec, hover, Option.getD_none]
  · intro a ha
    cases ha
  · intro a ha
    cases ha

/-- **Built-in speakers cannot be displaced.**  In a run whose calls are all sheltered,
started without a file, the built-in speakers are protected after every call. -/
theorem protected_of_guarded (env : Env) {calls : List Call} {s : System}
    (hok : (machine env ∅).Guarded (Shelters env) (System.start ∅) calls)
    (hrun : (machine env ∅).run calls = some s) : Protected env s := by
  have hinv := (machine env ∅).invariant_of_guarded (Shelters env)
    (P := fun s => Intact env s.registry ∧ Protected env s)
    ⟨intact_start env, protected_start env⟩
    (fun s call s' hs hcall hstep => by
      cases hstep
      exact ⟨hs.1.perform hcall, .perform hs.1 hcall⟩)
    hok hrun
  exact hinv.2

/-! ### Runs -/

/-- Two automatic ids, an attempt on a preset, and a removal. -/
def shelteredRun : List Call :=
  [registration "qwen3-tts" none, .loadSpeakerMap "qwen3-tts", registration "qwen3-tts" none,
   .unregister "qwen3-tts" 10000 true, registration "qwen3-tts" (some 2301)]

theorem protected_of_guarded_shelteredRun :
    ∃ s, (machine plainEnv ∅).run shelteredRun = some s ∧ Protected plainEnv s ∧
      s.last.isSome := by
  have hok : (machine plainEnv ∅).Guarded (Shelters plainEnv) (System.start ∅) shelteredRun := by
    decide +kernel
  exact ⟨_, rfl, protected_of_guarded plainEnv hok rfl, by decide +kernel⟩

/-- The intrinsic speaker of a model is taken for an embedding and overwritten. -/
def intrinsicRun : List Call := [registration "qwen3-tts-0.6b-base" (some 0)]

/-- Under another spelling the preset is not seen, and the attempt succeeds. -/
def spelledRun : List Call := [registration " qwen3-tts" (some 2301)]

/-- Two spellings of one model are given the same automatic id. -/
def sharedIdRun : List Call :=
  [registration "qwen3-tts-0.6b-base" none, registration "qwen3-tts-base" none]

theorem intrinsicRun_spelledRun_sharedIdRun_not_protected :
    (∃ s, (machine plainEnv ∅).run intrinsicRun = some s ∧ ¬ Protected plainEnv s) ∧
      (∃ s, (machine plainEnv ∅).run spelledRun = some s ∧ ¬ Protected plainEnv s) ∧
      ∃ s, (machine plainEnv ∅).run sharedIdRun = some s ∧ ¬ Protected plainEnv s := by
  refine ⟨⟨_, rfl, fun h => ?_⟩, ⟨_, rfl, fun h => ?_⟩, ⟨_, rfl, fun h => ?_⟩⟩
  · have hshown := h.shows "qwen3-tts-0.6b-base" 0 _ rfl rfl
    have htype := congrArg (fun out => out.toOption.map fun spec? => spec?.map SpeakerSpec.type)
      hshown
    exact absurd htype (by decide +kernel)
  · obtain ⟨⟨err, herr⟩, -⟩ := h.refused _ rfl 2301 rfl (by decide +kernel)
    cases herr
  · obtain ⟨-, hnew, -⟩ := h.fresh _ rfl _ rfl rfl
    have htaken := hnew "qwen3-tts-0.6b-base" (by decide +kernel)
    exact absurd htaken (by decide +kernel)

end OpenVoiceStream.TtsSpeakers
