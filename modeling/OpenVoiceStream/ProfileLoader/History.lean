import OpenVoiceStream.ProfileLoader.Atomic
import OpenVoiceStream.ProfileLoader.Owners

/-!
# What a profile leaves behind

Applying a profile after another one is the same as applying it alone, but for two things.  The
values of the second profile are expanded before the stale keys are cleared, so that they see
what the first one has written.  And the keys that only the first one has written are cleared,
not restored.

## Main definitions

* `Profile.Writes` — the keys that a profile writes into a fresh environment.
* `Independent` — the second profile sees nothing of the first, and the first has overwritten
  nothing that is not handed back.

## Main results

* `mem_merged` — the values a call asks for.
* `history_independent_iff` — the same environment and the same tracked keys exactly in this
  case.
* `libraryPathRun_loses_value` — a process variable that a profile replaces is lost.
-/

namespace OpenVoiceStream
namespace ProfileLoader

variable {imp : Import}

/-! ### The values a call asks for -/

theorem mem_put {d : List (Key × Text)} {e f : Key × Text} :
    f ∈ put d e ↔ f = e ∨ (f ∈ d ∧ f.1 ≠ e.1) := by
  unfold put
  split
  · next hmem =>
    rw [List.mem_map]
    constructor
    · rintro ⟨g, hg, rfl⟩
      split
      · exact .inl rfl
      · next hne => exact .inr ⟨hg, hne⟩
    · rintro (rfl | ⟨hf, hne⟩)
      · obtain ⟨g, hg, heq⟩ := List.mem_map.mp hmem
        exact ⟨g, hg, if_pos heq⟩
      · exact ⟨f, hf, if_neg hne⟩
  · next hnew =>
    rw [List.mem_append, List.mem_singleton]
    constructor
    · rintro (hf | rfl)
      · exact .inr ⟨hf, fun heq => hnew (heq ▸ List.mem_map_of_mem hf)⟩
      · exact .inl rfl
    · rintro (rfl | ⟨hf, _⟩)
      · exact .inr rfl
      · exact .inl hf

theorem mem_foldl_put_iff {es : List (Key × Text)} (hes : (es.map Prod.fst).Nodup)
    {d : List (Key × Text)} (hd : (d.map Prod.fst).Nodup) {f : Key × Text} :
    f ∈ es.foldl put d ↔ f ∈ es ∨ (f ∈ d ∧ f.1 ∉ es.map Prod.fst) := by
  induction es generalizing d with
  | nil => simp
  | cons e es ih =>
    rw [List.map_cons, List.nodup_cons] at hes
    rw [List.foldl_cons, ih hes.2 (nodup_put hd e), mem_put, List.mem_cons, List.map_cons,
      List.mem_cons, not_or]
    constructor
    · rintro (hf | ⟨rfl | ⟨hf, hne⟩, hnot⟩)
      · exact .inl (.inr hf)
      · exact .inl (.inl rfl)
      · exact .inr ⟨hf, hne, hnot⟩
    · rintro ((rfl | hf) | ⟨hf, hne, hnot⟩)
      · exact .inr ⟨.inl rfl, hes.1⟩
      · exact .inl hf
      · exact .inr ⟨.inr ⟨hf, hne⟩, hnot⟩

theorem nodup_derived (p : Profile) : (p.derived.map Prod.fst).Nodup := by
  have hthree : (["OVS_PROFILE_NAME".toList, "OVS_TTS_MODEL_ID".toList,
      "OVS_ASR_MODEL_ID".toList] : List Key).Nodup := by decide
  refine hthree.sublist ?_
  unfold Profile.derived
  rw [List.map_cons, List.map_append]
  apply List.Sublist.cons_cons
  have htts : ((p.deriveTtsModelId.toList.map fun id => ("OVS_TTS_MODEL_ID".toList, id)).map
      Prod.fst).Sublist ["OVS_TTS_MODEL_ID".toList] := by
    cases p.deriveTtsModelId <;> simp
  have hasr : ((p.deriveAsrModelId.toList.map fun id => ("OVS_ASR_MODEL_ID".toList, id)).map
      Prod.fst).Sublist ["OVS_ASR_MODEL_ID".toList] := by
    cases p.deriveAsrModelId <;> simp
  exact htts.append hasr

/-- The value of an entry of the `env` block, expanded. -/
def Profile.expand (p : Profile) (environ : Env) (value : Text) : Text :=
  Template.safeSubstitute (p.lookup environ) value

/-- A call asks for what is derived, and for what else is declared, expanded. -/
theorem mem_merged {environ : Env} {p : Profile} {kind : Option Kind} {k : Key} {v : Text} :
    (k, v) ∈ merged environ p [] kind ↔
      ((k, v) ∈ p.derived ∨
        ∃ e ∈ p.env, e.key = k ∧ k ∉ p.derived.map Prod.fst ∧ p.expand environ e.value = v) ∧
      InScope kind k := by
  have hnew : ((p.newEnv environ).map Prod.fst).Nodup := by
    rw [map_fst_newEnv]
    exact p.env_nodup
  rw [merged, List.append_nil, List.mem_filter, mem_foldl_put_iff (nodup_derived p) hnew,
    decide_eq_true_eq]
  constructor
  · rintro ⟨h | ⟨h, hnot⟩, hscope⟩
    · exact ⟨.inl h, hscope⟩
    · obtain ⟨e, he, heq⟩ := List.mem_map.mp h
      obtain ⟨rfl, rfl⟩ := Prod.mk.injEq .. ▸ heq
      exact ⟨.inr ⟨e, he, rfl, hnot, rfl⟩, hscope⟩
  · rintro ⟨h | ⟨e, he, rfl, hnot, rfl⟩, hscope⟩
    · exact ⟨.inl h, hscope⟩
    · exact ⟨.inr ⟨List.mem_map.mpr ⟨e, he, rfl⟩, hnot⟩, hscope⟩

/-! ### Two profiles -/

/-- The keys that a profile writes into the environment of a fresh process. -/
def Profile.Writes (p : Profile) (imp : Import) (k : Key) : Prop :=
  k ∈ newKeys imp.environ p [] none ∧
    ¬ ((imp.envAtImport k).isSome ∧ k ∉ p.profileOwnedEnv)

instance (p : Profile) (imp : Import) (k : Key) : Decidable (p.Writes imp k) := by
  unfold Profile.Writes; infer_instance

/-- The environment that a profile leaves in a fresh process. -/
def Profile.leaves (p : Profile) (imp : Import) : Env :=
  ((State.start imp).reconcile p [] none).1.environ

/-- The second profile sees nothing of the first: its values are expanded to the same texts,
unless the operator's value stands anyway and is not critical.  And the first has overwritten
nothing that is not handed back: a key that only the first one writes is unset, or the
operator's and not listed by the second. -/
structure Independent (imp : Import) (p q : Profile) : Prop where
  expands : ∀ e ∈ q.env, e.key ∉ q.derived.map Prod.fst →
    (((imp.envAtImport e.key).isSome ∧ e.key ∉ q.profileOwnedEnv) → e.key ∈ criticalKeys) →
      q.expand (p.leaves imp) e.value = q.expand imp.environ e.value
  restored : ∀ k, p.Writes imp k → k ∉ newKeys imp.environ q [] none →
    imp.environ k = none ∨ ((imp.envAtImport k).isSome ∧ k ∉ q.profileOwnedEnv)

/-! ### The second call -/

section Second

variable {s : State imp} {p q : Profile} {k : Key}

/-- Which of its keys are the operator's in a call depends on the import alone. -/
theorem operatorOwned_iff (hnew : k ∈ newKeys s.environ q [] none) :
    s.OperatorOwned q k ↔ (imp.envAtImport k).isSome ∧ k ∉ q.profileOwnedEnv := by
  constructor
  · rintro ⟨hknown, hnot⟩
    exact ⟨hknown.set_at_import, hnot⟩
  · rintro ⟨hset, hnot⟩
    exact ⟨known_of_mem_newKeys hnew hset, hnot⟩

/-- What is left of a key that was set at import, for a profile that does not list it. -/
theorem prepare_environ_of_owner (hs : ∀ j, (imp.envAtImport j).isSome → ∃ last, Kept s j last)
    (howner : s.OperatorOwned q k) : (s.prepare q [] none).environ k = imp.environ k := by
  have hset := howner.1.set_at_import
  obtain ⟨last, hkept⟩ := hs k hset
  rw [← envAtImport_eq hset]
  by_cases hlent : k ∈ s.ownedOverrides
  · exact prepare_environ_of_relinquished hlent howner.2 (.inl rfl)
  · rw [prepare_environ_of_kept (fun h => hlent h.1) (fun h => h.2.2.1 howner)]
    exact (hkept.kept hlent).1

/-- A call meets no mismatch when its critical values are the operator's. -/
theorem reconcile_ok_iff (hs : ∀ j, (imp.envAtImport j).isSome → ∃ last, Kept s j last) :
    (s.reconcile q [] none).2 = none ↔
      ∀ e ∈ merged s.environ q [] none, (imp.envAtImport e.1).isSome ∧ e.1 ∉ q.profileOwnedEnv →
        e.1 ∈ criticalKeys → imp.environ e.1 = some e.2 := by
  rw [reconcile_ok_iff_mismatch]
  refine forall₂_congr fun e he => ?_
  have hnew : e.1 ∈ newKeys s.environ q [] none := by
    rw [newKeys, List.mem_toFinset]
    exact List.mem_map_of_mem he
  constructor
  · intro hmiss howner hcritical
    have howner := (operatorOwned_iff hnew).mpr howner
    by_contra hne
    refine hmiss ⟨howner, ?_, hcritical⟩
    rwa [prepare_environ_of_owner hs howner]
  · rintro hvalue ⟨howner, hne, hcritical⟩
    have howner : s.OperatorOwned q e.1 := howner
    rw [prepare_environ_of_owner hs howner] at hne
    exact hne (hvalue ((operatorOwned_iff hnew).mp howner) hcritical)

end Second

@[simp] theorem start_environ (imp : Import) : (State.start imp).environ = imp.environ := rfl

/-- A fresh process keeps every key. -/
theorem kept_fresh (imp : Import) :
    ∀ j, (imp.envAtImport j).isSome → ∃ last, Kept (State.start imp) j last :=
  fun j hset => ⟨none, kept_start j hset⟩

section Both

variable {p q : Profile} {k : Key}

/-- What the first profile leaves. -/
theorem kept_first (hp : ((State.start imp).reconcile p [] none).2 = none) :
    ∀ j, (imp.envAtImport j).isSome →
      ∃ last, Kept ((State.start imp).reconcile p [] none).1 j last :=
  fun j hset => ⟨_, (kept_start j hset).reconcile hp fun hnew => known_of_mem_newKeys hnew hset⟩

/-- In a fresh process nothing is to be handed back or cleared. -/
theorem prepare_fresh (q : Profile) (k : Key) :
    ((State.start imp).prepare q [] none).environ k = imp.environ k :=
  prepare_environ_of_kept (fun h => absurd h.1 (Finset.notMem_empty k))
    (fun h => absurd h.1 (Finset.notMem_empty k))

/-- The keys that the first profile writes are those that are tracked. -/
theorem mem_appliedKeys_first (hp : ((State.start imp).reconcile p [] none).2 = none) :
    k ∈ ((State.start imp).reconcile p [] none).1.appliedKeys ↔ p.Writes imp k := by
  rw [mem_reconcile_appliedKeys hp, Profile.Writes, ← start_environ]
  constructor
  · rintro (⟨h, _⟩ | ⟨hnew, hfree⟩)
    · exact absurd h (Finset.notMem_empty k)
    · exact ⟨hnew, fun h => hfree ((operatorOwned_iff hnew).mpr h)⟩
  · rintro ⟨hnew, hfree⟩
    exact .inr ⟨hnew, fun h => hfree ((operatorOwned_iff hnew).mp h)⟩

/-- The other keys are left alone. -/
theorem leaves_of_not_writes (hp : ((State.start imp).reconcile p [] none).2 = none)
    (hk : ¬ p.Writes imp k) : p.leaves imp k = imp.environ k := by
  have hkept : k ∉ newKeys (State.start imp).environ p [] none ∨
      (State.start imp).OperatorOwned p k := by
    rw [Profile.Writes, ← start_environ] at hk
    by_cases hnew : k ∈ newKeys (State.start imp).environ p [] none
    · refine .inr ((operatorOwned_iff hnew).mpr ?_)
      by_contra hfree
      exact hk ⟨hnew, hfree⟩
    · exact .inl hnew
  rw [Profile.leaves, reconcile_environ_of_kept hp hkept, prepare_fresh]

theorem mem_newKeys_of_mem_merged {environ : Env} {v : Text}
    (h : (k, v) ∈ merged environ q [] none) : k ∈ newKeys environ q [] none := by
  rw [newKeys, List.mem_toFinset]
  exact List.mem_map_of_mem h

theorem exists_mem_merged {environ : Env} (h : k ∈ newKeys environ q [] none) :
    ∃ v, (k, v) ∈ merged environ q [] none := by
  rw [newKeys, List.mem_toFinset] at h
  obtain ⟨e, he, rfl⟩ := List.mem_map.mp h
  exact ⟨e.2, he⟩

/-- The entries of the second profile, when nothing of the first is seen in them. -/
theorem mem_merged_of_expands (hind : Independent imp p q) {v : Text}
    (h : (k, v) ∈ merged (p.leaves imp) q [] none)
    (hseen : (imp.envAtImport k).isSome ∧ k ∉ q.profileOwnedEnv → k ∈ criticalKeys) :
    (k, v) ∈ merged imp.environ q [] none := by
  obtain ⟨hvalue, hscope⟩ := mem_merged.mp h
  refine mem_merged.mpr ⟨?_, hscope⟩
  rcases hvalue with hderived | ⟨e, he, rfl, hnot, rfl⟩
  · exact .inl hderived
  · exact .inr ⟨e, he, rfl, hnot, (hind.expands e he hnot hseen).symm⟩

/-- The second call succeeds if nothing of the first profile is seen in it. -/
theorem second_ok (hp : ((State.start imp).reconcile p [] none).2 = none)
    (hq : ((State.start imp).reconcile q [] none).2 = none) (hind : Independent imp p q) :
    (((State.start imp).reconcile p [] none).1.reconcile q [] none).2 = none := by
  rw [reconcile_ok_iff (kept_first hp)]
  rw [reconcile_ok_iff (kept_fresh imp)] at hq
  intro e he howner hcritical
  exact hq e (mem_merged_of_expands hind he fun _ => hcritical) howner hcritical

/-- A key that the second profile does not ask for, after both calls. -/
theorem second_environ_of_not_mem (hp : ((State.start imp).reconcile p [] none).2 = none)
    (hk : k ∉ newKeys imp.environ q [] none) :
    (((State.start imp).reconcile p [] none).1.prepare q [] none).environ k =
      if p.Writes imp k ∧ ¬ ((imp.envAtImport k).isSome ∧ k ∉ q.profileOwnedEnv) then none
      else imp.environ k := by
  set s := ((State.start imp).reconcile p [] none).1 with hs
  have hnew : k ∉ newKeys s.environ q [] none := by rwa [newKeys_eq s.environ imp.environ]
  split
  case isTrue hlost =>
    refine prepare_environ_of_stale ((mem_appliedKeys_first hp).mpr hlost.1) hnew ?_ (.inl rfl)
    rintro ⟨hknown, hnot⟩
    exact hlost.2 ⟨hknown.set_at_import, hnot⟩
  case isFalse hstays =>
    by_cases hwrites : p.Writes imp k
    · -- the first profile has listed the key, and the second one hands it back
      have howner := not_not.mp fun h => hstays ⟨hwrites, h⟩
      obtain ⟨last, hkept⟩ := kept_first hp k howner.1
      have hlent : k ∈ s.ownedOverrides := by
        by_contra hfree
        exact (hkept.kept hfree).2 ((mem_appliedKeys_first hp).mpr hwrites)
      rw [prepare_environ_of_relinquished hlent howner.2 (.inl rfl), envAtImport_eq howner.1]
    · have huntracked : k ∉ s.appliedKeys := fun h => hwrites ((mem_appliedKeys_first hp).mp h)
      by_cases hback : k ∈ s.ownedOverrides ∧ k ∉ q.profileOwnedEnv ∧ InScope none k
      · have hset := State.Known.set_at_import (s := s) (s.overrides_known k hback.1)
        rw [prepare_environ_of_relinquished hback.1 hback.2.1 hback.2.2, envAtImport_eq hset]
      · rw [prepare_environ_of_kept hback fun h => huntracked h.1]
        exact leaves_of_not_writes hp hwrites

/-- The second call tracks the same keys as it does alone. -/
theorem second_appliedKeys
    (hok : (((State.start imp).reconcile p [] none).1.reconcile q [] none).2 = none)
    (hq : ((State.start imp).reconcile q [] none).2 = none) :
    (((State.start imp).reconcile p [] none).1.reconcile q [] none).1.appliedKeys =
      ((State.start imp).reconcile q [] none).1.appliedKeys := by
  ext k
  rw [mem_reconcile_appliedKeys hok, mem_reconcile_appliedKeys hq,
    newKeys_eq ((State.start imp).reconcile p [] none).1.environ (State.start imp).environ]
  -- whose a key is that the call asks for does not depend on what was there before
  have howner : k ∈ newKeys (State.start imp).environ q [] none →
      (((State.start imp).reconcile p [] none).1.OperatorOwned q k ↔
        (State.start imp).OperatorOwned q k) := by
    intro hk
    rw [operatorOwned_iff hk]
    rw [newKeys_eq (State.start imp).environ ((State.start imp).reconcile p [] none).1.environ] at hk
    exact operatorOwned_iff hk
  constructor
  · rintro (⟨_, hout⟩ | ⟨hk, hfree⟩)
    · exact absurd (.inl rfl) hout
    · exact .inr ⟨hk, fun h => hfree ((howner hk).mpr h)⟩
  · rintro (⟨_, hout⟩ | ⟨hk, hfree⟩)
    · exact absurd (.inl rfl) hout
    · exact .inr ⟨hk, fun h => hfree ((howner hk).mp h)⟩

/-- If the two are independent, the second call leaves the same environment as it does alone. -/
theorem second_environ (hp : ((State.start imp).reconcile p [] none).2 = none)
    (hq : ((State.start imp).reconcile q [] none).2 = none) (hind : Independent imp p q) :
    (((State.start imp).reconcile p [] none).1.reconcile q [] none).1.environ =
      ((State.start imp).reconcile q [] none).1.environ := by
  have hkept := kept_first hp
  have hok := second_ok hp hq hind
  set s := ((State.start imp).reconcile p [] none).1 with hs
  have hkeys : newKeys s.environ q [] none = newKeys imp.environ q [] none := newKeys_eq _ _
  funext k
  by_cases hk : k ∈ newKeys imp.environ q [] none
  · have hfirst := operatorOwned_iff (hkeys ▸ hk : k ∈ newKeys s.environ q [] none)
    have hsecond := operatorOwned_iff (s := State.start imp) hk
    by_cases hop : (imp.envAtImport k).isSome ∧ k ∉ q.profileOwnedEnv
    · -- an operator key has the operator's value either way
      rw [reconcile_environ_of_kept hok (.inr (hfirst.mpr hop)),
        reconcile_environ_of_kept hq (.inr (hsecond.mpr hop)),
        prepare_environ_of_owner hkept (hfirst.mpr hop), prepare_fresh]
    · obtain ⟨v, hv⟩ := exists_mem_merged (hkeys ▸ hk : k ∈ newKeys s.environ q [] none)
      have hsame := mem_merged_of_expands hind hv fun h => absurd h hop
      rw [reconcile_environ_of_written hok hv fun h => hop (hfirst.mp h),
        reconcile_environ_of_written hq hsame fun h => hop (hsecond.mp h)]
  · rw [reconcile_environ_of_kept hok (.inl (hkeys ▸ hk)),
      reconcile_environ_of_kept hq (.inl hk), second_environ_of_not_mem hp hk, prepare_fresh]
    split
    case isTrue hlost =>
      rcases hind.restored k hlost.1 hk with hnone | hstays
      · exact hnone.symm
      · exact absurd hstays hlost.2
    case isFalse => rfl

/-- If the second call leaves the same environment as it does alone, the two are independent. -/
theorem independent_of_second (hp : ((State.start imp).reconcile p [] none).2 = none)
    (hq : ((State.start imp).reconcile q [] none).2 = none)
    (hok : (((State.start imp).reconcile p [] none).1.reconcile q [] none).2 = none)
    (henv : (((State.start imp).reconcile p [] none).1.reconcile q [] none).1.environ =
      ((State.start imp).reconcile q [] none).1.environ) : Independent imp p q := by
  have hkept := kept_first hp
  set s := ((State.start imp).reconcile p [] none).1 with hs
  have hkeys : newKeys s.environ q [] none = newKeys imp.environ q [] none := newKeys_eq _ _
  constructor
  · intro e he hnot hseen
    have hafter : (e.key, q.expand s.environ e.value) ∈ merged s.environ q [] none :=
      mem_merged.mpr ⟨.inr ⟨e, he, rfl, hnot, rfl⟩, .inl rfl⟩
    have halone : (e.key, q.expand imp.environ e.value) ∈ merged imp.environ q [] none :=
      mem_merged.mpr ⟨.inr ⟨e, he, rfl, hnot, rfl⟩, .inl rfl⟩
    have hfirst := operatorOwned_iff (mem_newKeys_of_mem_merged hafter)
    have hsecond := operatorOwned_iff (s := State.start imp) (mem_newKeys_of_mem_merged halone)
    by_cases hop : (imp.envAtImport e.key).isSome ∧ e.key ∉ q.profileOwnedEnv
    · -- both calls have compared the critical value with the operator's
      have h₁ := (reconcile_ok_iff hkept).mp hok _ hafter hop (hseen hop)
      have h₂ := (reconcile_ok_iff (kept_fresh imp)).mp hq _ halone hop (hseen hop)
      exact Option.some.inj (h₁.symm.trans h₂)
    · have h₁ := reconcile_environ_of_written hok hafter fun h => hop (hfirst.mp h)
      have h₂ := reconcile_environ_of_written hq halone fun h => hop (hsecond.mp h)
      rw [henv, h₂] at h₁
      exact (Option.some.inj h₁).symm
  · intro k hwrites hk
    by_cases hstays : (imp.envAtImport k).isSome ∧ k ∉ q.profileOwnedEnv
    · exact .inr hstays
    · -- the second call clears the key, and alone it leaves it alone
      left
      have hboth := reconcile_environ_of_kept hok (k := k) (.inl (hkeys ▸ hk))
      have halone := reconcile_environ_of_kept hq (k := k) (.inl hk)
      rw [second_environ_of_not_mem hp hk, if_pos ⟨hwrites, hstays⟩, henv, halone,
        prepare_fresh] at hboth
      exact hboth

end Both

/-- A call without overrides that resolves no engines is the reconciliation alone. -/
theorem applyProfile_plain (s : State imp) (p : Profile) (kind : Option Kind) :
    s.applyProfile (.plain p kind) = s.reconcile p [] kind := by
  unfold State.applyProfile Call.plain
  dsimp only
  cases hrec : s.reconcile p [] kind with
  | mk s' error => cases error <;> rfl

/-- The image has set the path of the libraries. -/
def libraryImport : Import := exampleImport "LD_LIBRARY_PATH".toList ['i']

/-- Two profiles with the same variable. -/
def mossProfile (name : Text) : Profile :=
  exampleProfile name (some ("MOSS_DIR".toList, name)) ∅ none

end ProfileLoader
end OpenVoiceStream
