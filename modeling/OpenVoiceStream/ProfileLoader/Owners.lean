import OpenVoiceStream.ProfileLoader.Model

/-!
# Operator keys

A key that the operator had set at import holds the operator's value, unless the last profile
with the key in its scope lists it as its own.  What the module knows of such a key is whether
it is overridden: a key that is not overridden has not been touched.

## Main definitions

* `Kept` — the invariant, for one key.
* `lastInScope` — the last profile with a key in its scope.

## Main results

* `Kept.reconcile` — the invariant along one call.
* `operator_value_survives` — along every sequence of calls.
-/

namespace OpenVoiceStream
namespace ProfileLoader

variable {imp : Import}

/-! ### Keys that were set at import -/

theorem envAtImport_eq {k : Key} (h : (imp.envAtImport k).isSome) :
    imp.envAtImport k = imp.environ k := by
  unfold Import.envAtImport at h ⊢
  cases hk : imp.environ k with
  | none => rfl
  | some v =>
    rw [hk] at h
    obtain ⟨w, hw⟩ := Option.isSome_iff_exists.mp h
    have hcond := (Option.filter_eq_some_iff.mp hw).2
    have hsame := (Option.filter_eq_some_iff.mp hw).1
    rw [hw, hsame]

theorem State.Known.set_at_import {s : State imp} {k : Key} (h : s.Known k) :
    (imp.envAtImport k).isSome := by
  rcases h with h | h
  · exact h.2
  · exact s.extra_set k h

theorem not_mem_processVars {k : Key} (h : (imp.envAtImport k).isSome) : k ∉ processVars := by
  obtain ⟨v, hv⟩ := Option.isSome_iff_exists.mp h
  have hcond := (Option.filter_eq_some_iff.mp hv).2
  exact (of_decide_eq_true hcond).2

/-- The keys that are derived belong to a family of the operator. -/
theorem operatorKey_of_derived {p : Profile} {k : Key} (h : k ∈ p.derived.map Prod.fst)
    (hset : (imp.envAtImport k).isSome) : imp.OperatorKey k := by
  refine ⟨⟨not_mem_processVars hset, .inl ?_⟩, hset⟩
  have hk : k = "OVS_PROFILE_NAME".toList ∨ k = "OVS_TTS_MODEL_ID".toList ∨
      k = "OVS_ASR_MODEL_ID".toList := by
    simp only [Profile.derived, List.map_cons, List.map_append, List.map_map, List.mem_cons,
      List.mem_append, List.mem_map, Function.comp] at h
    rcases h with h | ⟨_, _, h⟩ | ⟨_, _, h⟩
    · exact .inl h
    · exact .inr (.inl h.symm)
    · exact .inr (.inr h.symm)
  rcases hk with rfl | rfl | rfl <;> decide

/-- A key that was set at import is an operator key as soon as a profile declares it. -/
theorem known_of_declared {s : State imp} {p : Profile} {k : Key}
    (h : k ∈ p.env.map EnvEntry.key) (hset : (imp.envAtImport k).isSome) :
    (s.discover p).Known k := by
  by_cases hop : imp.OperatorKey k
  · exact .inl hop
  · right
    by_cases hextra : k ∈ s.extraOperatorKeys
    · exact Finset.mem_union_left _ hextra
    · refine Finset.mem_union_right _ (Finset.mem_filter.mpr ⟨List.mem_toFinset.mpr h, hset, hop,
        hextra, not_mem_processVars hset, .inr (.inr (List.mem_toFinset.mpr h))⟩)

theorem known_of_mem_newKeys {s : State imp} {p : Profile} {kind : Option Kind} {k : Key}
    (h : k ∈ newKeys s.environ p [] kind) (hset : (imp.envAtImport k).isSome) :
    (s.discover p).Known k := by
  rcases (mem_newKeys.mp h).1 with h | h | h
  · exact known_of_declared h hset
  · exact .inl (operatorKey_of_derived h hset)
  · cases h

/-! ### The invariant -/

/-- A key that is not overridden has its import value and is not tracked; one that is overridden
is listed by the last profile with the key in its scope. -/
structure Kept (s : State imp) (k : Key) (last : Option Profile) : Prop where
  kept : k ∉ s.ownedOverrides → s.environ k = imp.envAtImport k ∧ k ∉ s.appliedKeys
  lent : k ∈ s.ownedOverrides → ∃ p ∈ last, k ∈ p.profileOwnedEnv

/-- An operator key that is not overridden after a call: it is handed back, or it has its import
value still. -/
theorem reconcile_of_not_overridden {s : State imp} {k : Key} {p : Profile}
    {overrides : List (Key × Text)} {kind : Option Kind}
    (hok : (s.reconcile p overrides kind).2 = none)
    (hknown : k ∈ newKeys s.environ p overrides kind → (s.discover p).Known k)
    (hvalue : k ∉ s.ownedOverrides → s.environ k = imp.envAtImport k)
    (htracked : k ∉ s.ownedOverrides → k ∈ s.appliedKeys →
      k ∈ newKeys s.environ p overrides kind)
    (hfree : k ∉ (s.reconcile p overrides kind).1.ownedOverrides) :
    (s.reconcile p overrides kind).1.environ k = imp.envAtImport k ∧
      k ∉ (s.reconcile p overrides kind).1.appliedKeys := by
  have hoverrides := mem_reconcile_ownedOverrides hok (k := k)
  have happlied := mem_reconcile_appliedKeys hok (k := k)
  have hstays : k ∈ s.ownedOverrides → ¬ (k ∈ p.profileOwnedEnv ∨ ¬ InScope kind k) :=
    fun h hor => hfree (hoverrides.mpr (.inl ⟨h, hor⟩))
  have hwritten : k ∈ newKeys s.environ p overrides kind → k ∉ p.profileOwnedEnv :=
    fun hnew howned => hfree (hoverrides.mpr (.inr ⟨hnew, hknown hnew, howned⟩))
  by_cases hlent : k ∈ s.ownedOverrides
  · -- the key is handed back
    obtain ⟨hnot, hscope⟩ := not_or.mp (hstays hlent)
    have hscope := not_not.mp hscope
    have howner : s.OperatorOwned p k := ⟨(s.discover p).overrides_known k hlent, hnot⟩
    constructor
    · rw [reconcile_environ_of_kept hok (.inr howner)]
      exact prepare_environ_of_relinquished hlent hnot hscope
    · intro h
      rcases happlied.mp h with ⟨_, hout⟩ | ⟨_, hfree⟩
      · exact hout hscope
      · exact hfree howner
  · have howner : k ∈ newKeys s.environ p overrides kind → s.OperatorOwned p k :=
      fun hnew => ⟨hknown hnew, hwritten hnew⟩
    constructor
    · have hkeep : k ∉ newKeys s.environ p overrides kind ∨ s.OperatorOwned p k := by
        by_cases hnew : k ∈ newKeys s.environ p overrides kind
        · exact .inr (howner hnew)
        · exact .inl hnew
      rw [reconcile_environ_of_kept hok hkeep, prepare_environ_of_kept (fun h => hlent h.1)
        (fun h => h.2.1 (htracked hlent h.1))]
      exact hvalue hlent
    · intro h
      rcases happlied.mp h with ⟨hbefore, hout⟩ | ⟨hnew, hfree⟩
      · exact hout (mem_newKeys.mp (htracked hlent hbefore)).2
      · exact hfree (howner hnew)

/-- **What a call does to a key.** -/
theorem Kept.reconcile {s : State imp} {k : Key} {last : Option Profile} (hs : Kept s k last)
    {p : Profile} {overrides : List (Key × Text)} {kind : Option Kind}
    (hok : (s.reconcile p overrides kind).2 = none)
    (hknown : k ∈ newKeys s.environ p overrides kind → (s.discover p).Known k) :
    Kept (s.reconcile p overrides kind).1 k (if InScope kind k then some p else last) := by
  constructor
  · intro hfree
    exact reconcile_of_not_overridden hok hknown (fun h => (hs.kept h).1)
      (fun h htracked => absurd htracked (hs.kept h).2) hfree
  · intro hlent
    rcases (mem_reconcile_ownedOverrides hok).mp hlent with
      ⟨hbefore, howned | hout⟩ | ⟨hnew, _, howned⟩
    · split
      · exact ⟨p, rfl, howned⟩
      · exact hs.lent hbefore
    · rw [if_neg hout]
      exact hs.lent hbefore
    · rw [if_pos (mem_newKeys.mp hnew).2]
      exact ⟨p, rfl, howned⟩

/-! ### Sequences of calls -/

/-- One call after the other, as long as none raises. -/
def State.applyAll (s : State imp) : List Call → Option (State imp)
  | [] => some s
  | c :: calls =>
    match s.applyProfile c with
    | (s', none) => s'.applyAll calls
    | (_, some _) => none

/-- A call without overrides that resolves no engines. -/
def Call.plain (p : Profile) (kind : Option Kind) : Call :=
  { loaded := some p, overrides := [], kind := kind, resolve := none }

/-- The last profile with the key in its scope. -/
def lastInScope (k : Key) : Option Profile → List (Profile × Option Kind) → Option Profile
  | last, [] => last
  | last, (p, kind) :: calls => lastInScope k (if InScope kind k then some p else last) calls

theorem applyAll_cons {s t : State imp} {p : Profile} {kind : Option Kind} {calls : List Call}
    (h : s.applyAll (.plain p kind :: calls) = some t) :
    (s.reconcile p [] kind).2 = none ∧ (s.reconcile p [] kind).1.applyAll calls = some t := by
  simp only [State.applyAll, State.applyProfile, Call.plain] at h
  cases hrec : s.reconcile p [] kind with
  | mk s' error =>
    rw [hrec] at h
    cases error with
    | none => exact ⟨rfl, h⟩
    | some error => cases h

theorem kept_applyAll {k : Key} (hset : (imp.envAtImport k).isSome)
    (calls : List (Profile × Option Kind)) {s t : State imp} {last : Option Profile}
    (hs : Kept s k last) (hrun : s.applyAll (calls.map fun c => .plain c.1 c.2) = some t) :
    Kept t k (lastInScope k last calls) := by
  induction calls generalizing s last with
  | nil =>
    obtain rfl := Option.some.inj hrun
    exact hs
  | cons c calls ih =>
    obtain ⟨p, kind⟩ := c
    obtain ⟨hok, hrest⟩ := applyAll_cons hrun
    exact ih (hs.reconcile hok fun hnew => known_of_mem_newKeys hnew hset) hrest

theorem kept_start (k : Key) (hset : (imp.envAtImport k).isSome) :
    Kept (State.start imp) k none where
  kept := fun _ => ⟨(envAtImport_eq hset).symm, Finset.notMem_empty k⟩
  lent := fun h => absurd h (Finset.notMem_empty k)

/-- **Operator ownership survives every switch.**  After every sequence of calls that succeed,
full or kind-scoped, an operator key has its import value unless the last profile with the key
in its scope lists it as its own. -/
theorem operator_value_survives (imp : Import) (calls : List (Profile × Option Kind))
    {s : State imp}
    (hrun : (State.start imp).applyAll (calls.map fun c => .plain c.1 c.2) = some s) {k : Key}
    (hknown : s.Known k) {p : Profile} (hlast : lastInScope k none calls = some p)
    (hnot : k ∉ p.profileOwnedEnv) : s.environ k = imp.environ k := by
  have hset := hknown.set_at_import
  have hs := kept_applyAll hset calls (kept_start k hset) hrun
  rw [hlast] at hs
  have hfree : k ∉ s.ownedOverrides := by
    intro hlent
    obtain ⟨q, hq, howned⟩ := hs.lent hlent
    obtain rfl := Option.some.inj hq
    exact hnot howned
  rw [(hs.kept hfree).1]
  exact envAtImport_eq hset

/-- A profile takes a variable over, and the next one does not list it. -/
def handBackCalls : List (Profile × Option Kind) :=
  [(exampleProfile ['p'] (some ("TTS_X".toList, ['1'])) {"TTS_X".toList} none, none),
    (exampleProfile ['q'] none ∅ none, some .tts)]

/-- The state after both. -/
def handedBack : State (exampleImport "TTS_X".toList ['0']) :=
  ((State.start _).applyAll (handBackCalls.map fun c => .plain c.1 c.2)).getD (State.start _)

theorem operator_value_survives_handBack :
    handedBack.environ "TTS_X".toList = (exampleImport "TTS_X".toList ['0']).environ "TTS_X".toList :=
  operator_value_survives (exampleImport "TTS_X".toList ['0']) handBackCalls
    (show (State.start _).applyAll (handBackCalls.map fun c => .plain c.1 c.2) = some handedBack
      from rfl)
    (k := "TTS_X".toList) (.inl (by decide)) (p := exampleProfile ['q'] none ∅ none) (by rfl)
    (by decide)

end ProfileLoader
end OpenVoiceStream
