import OpenVoiceStream.ProfileLoader.Model

/-!
# Calls that raise

A profile that cannot be read is rejected before anything is touched.  A mismatch of a critical
key is found in the loop that writes, when keys have been handed back, stale keys cleared and
the entries before the critical one written.

## Main definitions

* `before` — the entries that come before the mismatch.
* `State.passed` — these entries, for a whole call.
* `State.NothingDone` — a call finds nothing to do before its mismatch.

## Main results

* `write_eq_before` — the loop does what it does with the entries before the mismatch.
* `reconcile_eq_passed` — what a call has done when it succeeds or raises.
* `raise_restores_iff` — a call that raises leaves no trace exactly in this case.
* `staleRun_changes` — a call that raises and has cleared a key.
-/

namespace OpenVoiceStream
namespace ProfileLoader

variable {imp : Import} {s : State imp} {p : Profile} {overrides : List (Key × Text)}
  {kind : Option Kind} {owned : Finset Key} {kvs : List (Key × Text)} {k : Key}

/-- The entry is one that the operator has set to another value, and a critical one. -/
def State.Mismatch (s : State imp) (owned : Finset Key) (e : Key × Text) : Prop :=
  s.Effective owned e.1 ∧ s.environ e.1 ≠ some e.2 ∧ e.1 ∈ criticalKeys

instance (s : State imp) (owned : Finset Key) (e : Key × Text) :
    Decidable (s.Mismatch owned e) := by
  unfold State.Mismatch; infer_instance

/-- The entries that come before the mismatch. -/
def before (s : State imp) (owned : Finset Key) (kvs : List (Key × Text)) : List (Key × Text) :=
  kvs.takeWhile fun e => ¬ s.Mismatch owned e

/-- The call leaves the environment and the state of the module as they were. -/
def Unchanged (s s' : State imp) : Prop :=
  s'.environ = s.environ ∧ s'.appliedKeys = s.appliedKeys ∧
    s'.ownedOverrides = s.ownedOverrides ∧ s'.currentProfile = s.currentProfile

/-- A call finds nothing to do before its mismatch: no key is handed back, no stale key is set,
and the entries before the mismatch have their values already, and are overridden already if
they are operator keys. -/
structure State.NothingDone (s : State imp) (p : Profile) (overrides : List (Key × Text))
    (kind : Option Kind) : Prop where
  overridden : ∀ k ∈ s.ownedOverrides, InScope kind k → k ∈ p.profileOwnedEnv
  stale : ∀ k ∈ s.appliedKeys, k ∉ newKeys s.environ p overrides kind → ¬ s.OperatorOwned p k →
    InScope kind k → s.environ k = none
  written : ∀ e ∈ before (s.discover p) p.profileOwnedEnv (merged s.environ p overrides kind),
    ¬ s.OperatorOwned p e.1 →
      s.environ e.1 = some e.2 ∧ ((s.discover p).Known e.1 → e.1 ∈ s.ownedOverrides)

/-! ### The loop up to the mismatch -/

theorem takeWhile_congr {α : Type*} {f g : α → Bool} {l : List α} (h : ∀ a ∈ l, f a = g a) :
    l.takeWhile f = l.takeWhile g := by
  induction l with
  | nil => rfl
  | cons a l ih =>
    rw [List.takeWhile_cons, List.takeWhile_cons, h a List.mem_cons_self,
      ih fun b hb => h b (List.mem_cons_of_mem a hb)]

theorem before_congr {s' : State imp} (h : ∀ e ∈ kvs, s.Mismatch owned e ↔ s'.Mismatch owned e) :
    before s owned kvs = before s' owned kvs := by
  apply takeWhile_congr
  intro e he
  simp only [h e he]

/-- Writing an entry does not change what is a mismatch at another key. -/
theorem set_mismatch {k : Key} {v : Text} {e : Key × Text} (hne : e.1 ≠ k) :
    (s.set owned k v).Mismatch owned e ↔ s.Mismatch owned e := by
  have hvalue : (s.set owned k v).environ e.1 = s.environ e.1 := Function.update_of_ne hne _ _
  unfold State.Mismatch
  rw [hvalue, set_effective]

theorem ne_of_nodup_cons {k : Key} {v : Text} {f : Key × Text}
    (hnodup : (((k, v) :: kvs).map Prod.fst).Nodup) (hf : f ∈ kvs) : f.1 ≠ k := by
  intro h
  have hmem : f.1 ∈ kvs.map Prod.fst := List.mem_map_of_mem hf
  exact (List.nodup_cons.mp hnodup).1 (h ▸ hmem)

/-- The loop stops at the mismatch, and what it has done is what it does with the entries
before. -/
theorem write_eq_before (owned : Finset Key) (hnodup : (kvs.map Prod.fst).Nodup) (s : State imp) :
    (State.write owned kvs s).1 = (State.write owned (before s owned kvs) s).1 ∧
      (State.write owned (before s owned kvs) s).2 = none := by
  induction kvs generalizing s with
  | nil => exact ⟨rfl, rfl⟩
  | cons e kvs ih =>
    obtain ⟨k, v⟩ := e
    have hrest : (kvs.map Prod.fst).Nodup := (List.nodup_cons.mp hnodup).2
    by_cases hmiss : s.Mismatch owned (k, v)
    · have hnone : before s owned ((k, v) :: kvs) = [] := by
        simp [before, hmiss]
      have hstop : State.write owned ((k, v) :: kvs) s = (s, some k) :=
        (if_pos hmiss.1).trans (if_pos hmiss.2)
      rw [hnone, hstop]
      exact ⟨rfl, rfl⟩
    · have hsome : before s owned ((k, v) :: kvs) = (k, v) :: before s owned kvs := by
        simp [before, hmiss]
      rw [hsome]
      by_cases heff : s.Effective owned k
      · have hsame : ¬ (s.environ k ≠ some v ∧ k ∈ criticalKeys) := fun h => hmiss ⟨heff, h⟩
        rw [write_cons, write_cons, if_pos heff, if_neg hsame, if_pos heff, if_neg hsame]
        exact ih hrest s
      · -- this entry has another key than those behind it
        have hbefore : before s owned kvs = before (s.set owned k v) owned kvs :=
          before_congr fun f hf => (set_mismatch (ne_of_nodup_cons hnodup hf)).symm
        rw [write_cons, write_cons, if_neg heff, if_neg heff, hbefore]
        exact ih hrest (s.set owned k v)

/-- The loop meets no mismatch exactly when there is none among its entries. -/
theorem write_ok_iff (hnodup : (kvs.map Prod.fst).Nodup) (s : State imp) :
    (State.write owned kvs s).2 = none ↔ ∀ e ∈ kvs, ¬ s.Mismatch owned e := by
  induction kvs generalizing s with
  | nil => simp [write_nil]
  | cons e kvs ih =>
    obtain ⟨k, v⟩ := e
    have hrest : (kvs.map Prod.fst).Nodup := (List.nodup_cons.mp hnodup).2
    rw [List.forall_mem_cons]
    by_cases hmiss : s.Mismatch owned (k, v)
    · have hstop : State.write owned ((k, v) :: kvs) s = (s, some k) :=
        (if_pos hmiss.1).trans (if_pos hmiss.2)
      rw [hstop]
      constructor
      · intro h
        cases h
      · intro h
        exact absurd hmiss h.1
    · have htail : (State.write owned ((k, v) :: kvs) s).2 = none ↔
          ∀ f ∈ kvs, ¬ s.Mismatch owned f := by
        by_cases heff : s.Effective owned k
        · have hsame : ¬ (s.environ k ≠ some v ∧ k ∈ criticalKeys) := fun h => hmiss ⟨heff, h⟩
          rw [write_cons, if_pos heff, if_neg hsame]
          exact ih hrest s
        · rw [write_cons, if_neg heff, ih hrest (s.set owned k v)]
          constructor
          · intro h f hf hmiss
            exact h f hf ((set_mismatch (ne_of_nodup_cons hnodup hf)).mpr hmiss)
          · intro h f hf hmiss
            exact h f hf ((set_mismatch (ne_of_nodup_cons hnodup hf)).mp hmiss)
      rw [htail]
      exact ⟨fun h => ⟨hmiss, h⟩, fun h => h.2⟩

/-! ### The loop, whether it stops or not -/

/-- The entries before the mismatch. -/
def State.passed (s : State imp) (p : Profile) (overrides : List (Key × Text))
    (kind : Option Kind) : List (Key × Text) :=
  before (s.prepare p overrides kind) p.profileOwnedEnv (merged s.environ p overrides kind)

theorem passed_nodup (s : State imp) (p : Profile) (overrides : List (Key × Text))
    (kind : Option Kind) : ((s.passed p overrides kind).map Prod.fst).Nodup :=
  (nodup_merged _ _ _ _).sublist ((List.takeWhile_sublist _).map Prod.fst)

/-- What is left by a call is what the loop has left. -/
theorem reconcile_eq_passed (s : State imp) (p : Profile) (overrides : List (Key × Text))
    (kind : Option Kind) :
    (s.reconcile p overrides kind).1.environ =
        (State.write p.profileOwnedEnv (s.passed p overrides kind)
          (s.prepare p overrides kind)).1.environ ∧
      (s.reconcile p overrides kind).1.ownedOverrides =
        (State.write p.profileOwnedEnv (s.passed p overrides kind)
          (s.prepare p overrides kind)).1.ownedOverrides ∧
      (s.reconcile p overrides kind).1.extraOperatorKeys =
        s.extraOperatorKeys ∪ s.extraOperator p := by
  have hextra := (write_same p.profileOwnedEnv (merged s.environ p overrides kind)
    (s.prepare p overrides kind)).2.1
  have hstop := (write_eq_before p.profileOwnedEnv (nodup_merged s.environ p overrides kind)
    (s.prepare p overrides kind)).1
  unfold State.passed State.reconcile
  rw [← hstop]
  cases hwrite : State.write p.profileOwnedEnv (merged s.environ p overrides kind)
      (s.prepare p overrides kind) with
  | mk s' stop =>
    rw [hwrite] at hextra
    cases stop with
    | none => exact ⟨rfl, rfl, hextra⟩
    | some j => exact ⟨rfl, rfl, hextra⟩

theorem passed_ok (s : State imp) (p : Profile) (overrides : List (Key × Text))
    (kind : Option Kind) :
    (State.write p.profileOwnedEnv (s.passed p overrides kind) (s.prepare p overrides kind)).2 =
      none :=
  (write_eq_before p.profileOwnedEnv (nodup_merged s.environ p overrides kind) _).2

theorem passed_environ_of_mem {v : Text} (hk : (k, v) ∈ s.passed p overrides kind)
    (heff : ¬ s.OperatorOwned p k) : (s.reconcile p overrides kind).1.environ k = some v := by
  rw [(reconcile_eq_passed s p overrides kind).1]
  exact write_environ_of_mem (passed_nodup _ _ _ _) (passed_ok _ _ _ _) hk heff

theorem passed_environ_of_kept
    (hk : k ∉ (s.passed p overrides kind).map Prod.fst ∨ s.OperatorOwned p k) :
    (s.reconcile p overrides kind).1.environ k = (s.prepare p overrides kind).environ k := by
  rw [(reconcile_eq_passed s p overrides kind).1]
  rcases hk with hk | hk
  · exact write_environ_of_not_mem hk
  · exact write_environ_of_effective hk

theorem mem_passed_ownedOverrides :
    k ∈ (s.reconcile p overrides kind).1.ownedOverrides ↔
      (k ∈ s.ownedOverrides ∧ (k ∈ p.profileOwnedEnv ∨ ¬ InScope kind k)) ∨
        (k ∈ (s.passed p overrides kind).map Prod.fst ∧ (s.discover p).Known k ∧
          k ∈ p.profileOwnedEnv) := by
  rw [(reconcile_eq_passed s p overrides kind).2.1, ← mem_prepare_ownedOverrides overrides]
  exact mem_write_ownedOverrides (passed_ok _ _ _ _)

theorem reconcile_known_iff (k : Key) :
    (s.reconcile p overrides kind).1.Known k ↔ (s.discover p).Known k := by
  unfold State.Known
  rw [(reconcile_eq_passed s p overrides kind).2.2]
  rfl

/-- A call that raises does not touch the tracked keys, nor the current profile. -/
theorem reconcile_of_raise (h : (s.reconcile p overrides kind).2 ≠ none) :
    (s.reconcile p overrides kind).1.appliedKeys = s.appliedKeys ∧
      (s.reconcile p overrides kind).1.currentProfile = s.currentProfile := by
  obtain ⟨happlied, _, hcurrent⟩ := write_same p.profileOwnedEnv
    (merged s.environ p overrides kind) (s.prepare p overrides kind)
  unfold State.reconcile at h ⊢
  cases hwrite : State.write p.profileOwnedEnv (merged s.environ p overrides kind)
      (s.prepare p overrides kind) with
  | mk s' stop =>
    rw [hwrite] at h happlied hcurrent
    cases stop with
    | none => exact absurd rfl h
    | some j => exact ⟨happlied, hcurrent⟩

theorem mem_newKeys_of_mem_passed (h : k ∈ (s.passed p overrides kind).map Prod.fst) :
    k ∈ newKeys s.environ p overrides kind := by
  rw [newKeys, List.mem_toFinset]
  exact ((List.takeWhile_sublist _).map Prod.fst).subset h

/-! ### Calls that raise -/

/-- A call succeeds exactly when there is no mismatch among its entries. -/
theorem reconcile_ok_iff_mismatch :
    (s.reconcile p overrides kind).2 = none ↔
      ∀ e ∈ merged s.environ p overrides kind,
        ¬ (s.prepare p overrides kind).Mismatch p.profileOwnedEnv e := by
  rw [← write_ok_iff (nodup_merged _ _ _ _)]
  constructor
  · exact fun h => (reconcile_ok h).1
  · intro h
    unfold State.reconcile
    cases hwrite : State.write p.profileOwnedEnv (merged s.environ p overrides kind)
        (s.prepare p overrides kind) with
    | mk s' stop =>
      rw [hwrite] at h
      obtain rfl : stop = none := h
      rfl

/-- If no key is handed back and no stale key is set, the environment is as it was when the loop
begins. -/
theorem prepare_environ_eq
    (hoverridden : ∀ k ∈ s.ownedOverrides, InScope kind k → k ∈ p.profileOwnedEnv)
    (hstale : ∀ k ∈ s.appliedKeys, k ∉ newKeys s.environ p overrides kind →
      ¬ s.OperatorOwned p k → InScope kind k → s.environ k = none) :
    (s.prepare p overrides kind).environ = s.environ := by
  funext k
  have hback : ¬ (k ∈ s.ownedOverrides ∧ k ∉ p.profileOwnedEnv ∧ InScope kind k) :=
    fun h => h.2.1 (hoverridden k h.1 h.2.2)
  by_cases hpop : k ∈ s.appliedKeys ∧ k ∉ newKeys s.environ p overrides kind ∧
      ¬ s.OperatorOwned p k ∧ InScope kind k
  · rw [prepare_environ_of_stale hpop.1 hpop.2.1 hpop.2.2.1 hpop.2.2.2,
      hstale k hpop.1 hpop.2.1 hpop.2.2.1 hpop.2.2.2]
  · exact prepare_environ_of_kept hback hpop

/-- What a call that raises has done. -/
theorem unchanged_reconcile_iff (hraise : (s.reconcile p overrides kind).2 ≠ none) :
    Unchanged s (s.reconcile p overrides kind).1 ↔ s.NothingDone p overrides kind := by
  obtain ⟨happlied, hcurrent⟩ := reconcile_of_raise hraise
  have hsame : (s.prepare p overrides kind).environ = s.environ →
      s.passed p overrides kind =
        before (s.discover p) p.profileOwnedEnv (merged s.environ p overrides kind) := by
    intro henv
    apply before_congr
    intro e _
    unfold State.Mismatch
    rw [henv]
    rfl
  constructor
  · -- each of the three kinds of work would show, in the overridden keys or in the environment
    rintro ⟨henviron, _, howned, _⟩
    have hoverridden : ∀ k ∈ s.ownedOverrides, InScope kind k → k ∈ p.profileOwnedEnv := by
      intro k hk hscope
      rw [← howned, mem_passed_ownedOverrides] at hk
      rcases hk with ⟨_, h | hout⟩ | ⟨_, _, h⟩
      · exact h
      · exact absurd hscope hout
      · exact h
    have hstale : ∀ k ∈ s.appliedKeys, k ∉ newKeys s.environ p overrides kind →
        ¬ s.OperatorOwned p k → InScope kind k → s.environ k = none := by
      intro k hk hnew heff hscope
      rw [← henviron, passed_environ_of_kept (.inl fun h => hnew (mem_newKeys_of_mem_passed h))]
      exact prepare_environ_of_stale hk hnew heff hscope
    refine ⟨hoverridden, hstale, ?_⟩
    intro e he heff
    rw [← hsame (prepare_environ_eq hoverridden hstale)] at he
    constructor
    · rw [← henviron]
      exact passed_environ_of_mem he heff
    · intro hknown
      rw [← howned, mem_passed_ownedOverrides]
      refine .inr ⟨List.mem_map_of_mem he, hknown, ?_⟩
      by_contra hnot
      exact heff ⟨hknown, hnot⟩
  · intro h
    have hpre := prepare_environ_eq h.overridden h.stale
    have hwritten := h.written
    rw [← hsame hpre] at hwritten
    refine ⟨?_, happlied, ?_, hcurrent⟩
    · funext k
      by_cases hkept : k ∉ (s.passed p overrides kind).map Prod.fst ∨ s.OperatorOwned p k
      · rw [passed_environ_of_kept hkept, hpre]
      · obtain ⟨hk, heff⟩ := not_or.mp hkept
        obtain ⟨e, he, rfl⟩ := List.mem_map.mp (not_not.mp hk)
        rw [passed_environ_of_mem he heff, (hwritten e he heff).1]
    · ext k
      rw [mem_passed_ownedOverrides]
      constructor
      · rintro (⟨hk, _⟩ | ⟨hk, hknown, howned⟩)
        · exact hk
        · obtain ⟨e, he, rfl⟩ := List.mem_map.mp hk
          exact (hwritten e he fun heff => heff.2 howned).2 hknown
      · intro hk
        refine .inl ⟨hk, ?_⟩
        by_cases hscope : InScope kind k
        · exact .inl (h.overridden k hk hscope)
        · exact .inr hscope

/-- The language mode is the operator's. -/
def modeImport : Import := exampleImport "LANGUAGE_MODE".toList ['z', 'h']

/-- A profile that asks for another language mode. -/
def mismatchCall : Call :=
  .mk (some (exampleProfile ['q'] (some ("LANGUAGE_MODE".toList, ['e', 'n'])) ∅ none)) [] none none

end ProfileLoader
end OpenVoiceStream
