import Mathlib.Data.List.Induction
import OpenVoiceStream.Base.TemplateWords
import OpenVoiceStream.LeafComposition.Model

/-!
# The environment of a composition

`resolve_env` merges the environments of the leaves and the overrides, and expands the
variables in the values in two passes over the merged map, in place.  A value that refers to
a value and so on is expanded to the end if the chain is short enough: two passes always
suffice for chains of three references, and for one of four they do not when the map is
stored in the wrong order.

## Main definitions

* `resolveEnv` — the resolver.
* `VarRefers` — a value refers to another key of the map.
* `FullySubstituted`, `OrderFree` — what the resolver is for.

## Main results

* `Represents.expandPass` — a pass is a pass over the words of the values.
* `resolveEnv_fixpoint_iff` — the resolver does what it is for if no chain of references has
  four steps.
-/

namespace OpenVoiceStream
namespace LeafComposition

open References Template

/-- `_expand`. -/
def expandValue (value : Text) (env : Dictionary Text Text) : Text :=
  safeSubstitute env.get value

/-- One item of a pass: the map that is rewritten, and `changed`. -/
def expandItem (state : Dictionary Text Text × Bool) (item : Text × Text) :
    Dictionary Text Text × Bool :=
  if expandValue item.2 state.1 ≠ item.2 then
    (state.1.put item.1 (expandValue item.2 state.1), true)
  else state

/-- One pass over the items there are at its beginning. -/
def expandPass (expanded : Dictionary Text Text) : Dictionary Text Text × Bool :=
  expanded.items.foldl expandItem (expanded, false)

/-- The passes, until one changes nothing. -/
def expandPasses : ℕ → Dictionary Text Text → Dictionary Text Text
  | 0, expanded => expanded
  | passes + 1, expanded =>
    if (expandPass expanded).2 then expandPasses passes (expandPass expanded).1
    else (expandPass expanded).1

/-- `resolve_env`. -/
def resolveEnv (selected : List Text) (reg : Registry) (overrides : List (Text × Text)) :
    Except CompositionError (Dictionary Text Text) :=
  (reg.expand selected).map fun leaves => expandPasses 2 (mergedEnv leaves overrides)

variable {d d' : Dictionary Text Text} {k n v : Text}

/-! ### Two passes -/

theorem foldl_expandItem_unchanged {items : List (Text × Text)}
    {state : Dictionary Text Text × Bool} (h : (items.foldl expandItem state).2 = false) :
    items.foldl expandItem state = state := by
  induction items using List.reverseRecOn with
  | nil => rfl
  | append_singleton items item ih =>
    rw [List.foldl_append, List.foldl_cons, List.foldl_nil] at h ⊢
    by_cases hchange : expandValue item.2 (items.foldl expandItem state).1 ≠ item.2
    · rw [expandItem, if_pos hchange] at h
      cases h
    · rw [expandItem, if_neg hchange] at h ⊢
      exact ih h

/-- A pass that changes nothing may be left out. -/
theorem expandPasses_two (d : Dictionary Text Text) :
    expandPasses 2 d = (expandPass (expandPass d).1).1 := by
  have hkeep : ∀ d : Dictionary Text Text, (expandPass d).2 = false → (expandPass d).1 = d :=
    fun d h => congrArg Prod.fst (foldl_expandItem_unchanged h)
  rw [expandPasses]
  split
  · rw [expandPasses, expandPasses, ite_self]
  · next h =>
    have hfirst := hkeep d (Bool.eq_false_iff.mpr h)
    rw [hfirst, hfirst]

/-! ### The words of the values -/

/-- The values under `keys` are these words. -/
structure Represents (d : Dictionary Text Text) (keys : Set Text)
    (σ : Text → Word Text Text) : Prop where
  value : ∀ k ∈ keys, d.get k = some (render (σ k))
  other : ∀ k, k ∉ keys → d.get k = none
  sound : ∀ k ∈ keys, Sound (σ k)
  onlyKeys : OnlyKeys keys σ

variable {keys : Set Text} {σ : Text → Word Text Text}

theorem Represents.getD_get (h : Represents d keys σ) (k : Text) :
    (d.get k).getD (reference k) = render (σ k) := by
  by_cases hk : k ∈ keys
  · rw [h.value k hk, Option.getD_some]
  · rw [h.other k hk, h.onlyKeys k hk]
    simp [render, renderPiece]

theorem Represents.mem_keys (h : Represents d keys σ) (hget : d.get k = some v) : k ∈ keys := by
  by_contra hk
  rw [h.other k hk] at hget
  cases hget

/-- One item rewritten. -/
theorem Represents.put (h : Represents d keys σ) (hk : k ∈ keys)
    (hvalue : expandValue (render (σ k)) d = v) : Represents (d.put k v) keys (step σ k) := by
  have hsound : ∀ n, .ref n ∈ σ k → Sound (σ n) := by
    intro n hn
    by_cases hkey : n ∈ keys
    · exact h.sound n hkey
    · rw [h.onlyKeys n hkey]
      intro p hp
      rw [List.mem_singleton] at hp
      exact hp ▸ h.sound k hk _ hn
  have hput : v = render (subst σ (σ k)) := by
    rw [← hvalue, expandValue, safeSubstitute_render (h.sound k hk) h.getD_get]
  constructor
  case value =>
    intro k' hk'
    by_cases hne : k' = k
    · subst hne
      rw [Dictionary.get_put_self, step_self, hput]
    · rw [Dictionary.get_put_of_ne hne, step_of_ne hne]
      exact h.value k' hk'
  case other =>
    intro k' hk'
    have hne : k' ≠ k := fun heq => hk' (heq ▸ hk)
    rw [Dictionary.get_put_of_ne hne]
    exact h.other k' hk'
  case sound =>
    intro k' hk'
    by_cases hne : k' = k
    · subst hne
      rw [step_self]
      exact (h.sound k' hk).subst hsound
    · rw [step_of_ne hne]
      exact h.sound k' hk'
  case onlyKeys => exact h.onlyKeys.step hk

/-- Writing the value that is there changes nothing that is read. -/
theorem Represents.congr (h : Represents d keys σ) (heq : ∀ k, d'.get k = d.get k) :
    Represents d' keys σ where
  value k hk := (heq k).trans (h.value k hk)
  other k hk := (heq k).trans (h.other k hk)
  sound := h.sound
  onlyKeys := h.onlyKeys

theorem Represents.expandItem (h : Represents d keys σ) (hget : d.get k = some v)
    (changed : Bool) : Represents (expandItem (d, changed) (k, v)).1 keys (step σ k) ∧
      (expandItem (d, changed) (k, v)).1.items.map Prod.fst = d.items.map Prod.fst := by
  have hk := h.mem_keys hget
  have hword : v = render (σ k) := by
    rw [h.value k hk, Option.some_inj] at hget
    exact hget.symm
  have hput := h.put hk rfl
  rw [← hword] at hput
  unfold LeafComposition.expandItem
  split
  · refine ⟨hput, ?_⟩
    have hmem : k ∈ d.items.map Prod.fst :=
      List.mem_map.mpr ⟨(k, v), Dictionary.get_eq_some_iff.mp hget, rfl⟩
    exact Assoc.keys_put.trans (if_pos hmem)
  · next hsame =>
    rw [not_not] at hsame
    refine ⟨hput.congr fun k' => ?_, rfl⟩
    by_cases hne : k' = k
    · subst hne
      rw [Dictionary.get_put_self, hget, hsame]
    · rw [Dictionary.get_put_of_ne hne]

theorem get_expandItem_of_ne {changed : Bool} (h : n ≠ k) :
    (expandItem (d, changed) (k, v)).1.get n = d.get n := by
  unfold expandItem
  split
  · exact Dictionary.get_put_of_ne h
  · rfl

/-- **A pass is a pass over the words** of the values, in the order of the keys. -/
theorem Represents.expandPass (h : Represents d keys σ) :
    Represents (expandPass d).1 keys (pass (d.items.map Prod.fst) σ) ∧
      (expandPass d).1.items.map Prod.fst = d.items.map Prod.fst := by
  suffices hfold : ∀ (items : List (Text × Text)) (d : Dictionary Text Text) (changed : Bool)
      (σ : Text → Word Text Text), Represents d keys σ → (items.map Prod.fst).Nodup →
      (∀ item ∈ items, d.get item.1 = some item.2) →
      Represents (items.foldl LeafComposition.expandItem (d, changed)).1 keys
        (pass (items.map Prod.fst) σ) ∧
      (items.foldl LeafComposition.expandItem (d, changed)).1.items.map Prod.fst =
        d.items.map Prod.fst from
    hfold d.items d false σ h d.nodup fun item hitem => Dictionary.get_eq_some_iff.mpr hitem
  intro items
  induction items with
  | nil => exact fun d changed σ h _ _ => ⟨h, rfl⟩
  | cons item items ih =>
    intro d changed σ h hnodup hitems
    obtain ⟨k, v⟩ := item
    rw [List.map_cons, List.nodup_cons] at hnodup
    obtain ⟨hstep, hkeys⟩ := h.expandItem (hitems (k, v) List.mem_cons_self) changed
    -- the items still to come have not been touched
    have hrest : ∀ item ∈ items,
        (LeafComposition.expandItem (d, changed) (k, v)).1.get item.1 = some item.2 := by
      intro item hitem
      have hne : item.1 ≠ k :=
        fun heq => hnodup.1 (List.mem_map.mpr ⟨item, hitem, heq⟩)
      rw [get_expandItem_of_ne hne]
      exact hitems item (List.mem_cons_of_mem _ hitem)
    obtain ⟨hpass, hkeys'⟩ := ih _ (LeafComposition.expandItem (d, changed) (k, v)).2 _ hstep
      hnodup.2 hrest
    exact ⟨hpass, hkeys'.trans hkeys⟩

theorem Represents.expandPasses (h : Represents d keys σ) :
    Represents (expandPasses 2 d) keys (twice (d.items.map Prod.fst) σ) := by
  obtain ⟨hfirst, hkeys⟩ := h.expandPass
  obtain ⟨hsecond, -⟩ := hfirst.expandPass
  rw [hkeys] at hsecond
  rw [expandPasses_two]
  exact hsecond

/-- Plain values are words. -/
theorem exists_represents (hplain : ∀ item ∈ d.items, Plain item.2) :
    ∃ σ, Represents d {k | (d.get k).isSome = true} σ := by
  classical
  have hword : ∀ k, (d.get k).isSome = true →
      ∃ w : Word Text Text, Sound w ∧ d.get k = some (render w) := by
    intro k hk
    obtain ⟨v, hv⟩ := Option.isSome_iff_exists.mp hk
    obtain ⟨w, hw, hrender⟩ := hplain (k, v) (Dictionary.get_eq_some_iff.mp hv)
    exact ⟨w, hw, hv.trans (congrArg some hrender.symm)⟩
  choose word hsound hvalue using hword
  refine ⟨fun k => if hk : (d.get k).isSome = true then word k hk else [.ref k], ?_⟩
  constructor
  case value =>
    intro k hk
    rw [dif_pos (show (d.get k).isSome = true from hk)]
    exact hvalue k hk
  case other =>
    intro k hk
    simpa using hk
  case sound =>
    intro k hk
    rw [dif_pos (show (d.get k).isSome = true from hk)]
    exact hsound k hk
  case onlyKeys =>
    exact fun k hk => dif_neg hk

/-! ### The law -/

/-- The value of `k` refers to the key `n` of the map. -/
def VarRefers (env : Dictionary Text Text) (k n : Text) : Prop :=
  ∃ v, env.get k = some v ∧ n ∈ names v ∧ (env.get n).isSome = true

/-- No value of the result refers to a merged key. -/
def FullySubstituted (merged result : Dictionary Text Text) : Prop :=
  ∀ item ∈ result.items, ∀ n ∈ names item.2, merged.get n = none

/-- The result is the one for the merged keys in any other order. -/
def OrderFree (merged result : Dictionary Text Text) : Prop :=
  ∀ d : Dictionary Text Text, d.items.Perm merged.items →
    ∀ k, (expandPasses 2 d).get k = result.get k

theorem Represents.refers_iff (h : Represents d {k | (d.get k).isSome = true} σ) :
    VarRefers d k n ↔ Refers {k | (d.get k).isSome = true} σ k n := by
  constructor
  · rintro ⟨v, hv, hn, hkey⟩
    have hk := h.mem_keys hv
    rw [h.value k hk, Option.some_inj] at hv
    rw [← hv, mem_names_render (h.sound k hk)] at hn
    exact ⟨hk, hkey, hn⟩
  · rintro ⟨hk, hn, href⟩
    exact ⟨_, h.value k hk, (mem_names_render (h.sound k hk)).mpr href, hn⟩

/-- Some order of the keys begins with two of them. -/
theorem exists_perm_cons_cons {k₀ k₂ : Text} (h₀ : (d.get k₀).isSome = true)
    (h₂ : (d.get k₂).isSome = true) (hne : k₂ ≠ k₀) :
    ∃ (d' : Dictionary Text Text) (rest : List Text), d'.items.Perm d.items ∧
      d'.items.map Prod.fst = k₀ :: k₂ :: rest := by
  obtain ⟨v₀, hv₀⟩ := Option.isSome_iff_exists.mp h₀
  obtain ⟨v₂, hv₂⟩ := Option.isSome_iff_exists.mp h₂
  have hmem₀ : (k₀, v₀) ∈ d.items := Dictionary.get_eq_some_iff.mp hv₀
  have hmem₂ : (k₂, v₂) ∈ d.items.erase (k₀, v₀) := by
    refine (List.mem_erase_of_ne fun heq => ?_).mpr (Dictionary.get_eq_some_iff.mp hv₂)
    exact hne (congrArg Prod.fst heq)
  have hperm : d.items.Perm
      ((k₀, v₀) :: (k₂, v₂) :: (d.items.erase (k₀, v₀)).erase (k₂, v₂)) :=
    (List.perm_cons_erase hmem₀).trans ((List.perm_cons_erase hmem₂).cons _)
  exact ⟨⟨_, (hperm.map Prod.fst).nodup_iff.mp d.nodup⟩, _, hperm.symm, rfl⟩

/-- Every order of the keys is passed over with the same words. -/
theorem Represents.of_perm (h : Represents d {k | (d.get k).isSome = true} σ)
    (hperm : d'.items.Perm d.items) : Represents d' {k | (d.get k).isSome = true} σ ∧
      ∀ k, k ∈ d'.items.map Prod.fst ↔ k ∈ {k | (d.get k).isSome = true} := by
  refine ⟨h.congr fun k => Dictionary.get_eq_of_perm hperm, fun k => ?_⟩
  rw [(hperm.map Prod.fst).mem_iff, List.mem_map]
  constructor
  · rintro ⟨⟨k', v⟩, hmem, rfl⟩
    exact Option.isSome_iff_exists.mpr ⟨v, Dictionary.get_eq_some_iff.mpr hmem⟩
  · intro hk
    obtain ⟨v, hv⟩ := Option.isSome_iff_exists.mp hk
    exact ⟨(k, v), Dictionary.get_eq_some_iff.mp hv, rfl⟩

/-- Of a chain of four references one is left in some order. -/
theorem Represents.exists_left (h : Represents d {k | (d.get k).isSome = true} σ)
    (hacyclic : Acyclic (VarRefers d)) (hchain : Chain (VarRefers d) 4 k n) :
    ∃ (d' : Dictionary Text Text) (v : Text), d'.items.Perm d.items ∧
      (LeafComposition.expandPasses 2 d').get k = some v ∧ n ∈ names v ∧
      (d.get n).isSome = true := by
  obtain ⟨k₁, h₀₁, hchain₁⟩ := Chain.cons_iff.mp hchain
  obtain ⟨k₂, h₁₂, hchain₂⟩ := Chain.cons_iff.mp hchain₁
  obtain ⟨k₃, h₂₃, hchain₃⟩ := Chain.cons_iff.mp hchain₂
  obtain ⟨k₄, h₃₄, hend⟩ := Chain.cons_iff.mp hchain₃
  cases hend
  have hne₂ : k₂ ≠ k := by
    rintro rfl
    exact hacyclic 1 k₂ (.head h₀₁ (.single h₁₂))
  have hne₃ : k₃ ≠ k := by
    rintro rfl
    exact hacyclic 2 k₃ (.head h₀₁ (.head h₁₂ (.single h₂₃)))
  rw [h.refers_iff] at h₀₁ h₁₂ h₂₃ h₃₄
  obtain ⟨d', rest, hperm, hkeys⟩ := exists_perm_cons_cons h₀₁.1 h₂₃.1 hne₂
  have hrest : k ∉ rest ∧ k₂ ∉ rest := by
    have hnodup := d'.nodup
    rw [hkeys, List.nodup_cons, List.nodup_cons, List.mem_cons, not_or] at hnodup
    exact ⟨hnodup.1.2, hnodup.2.1⟩
  have hleft := exists_order_left h₀₁.2.2 h₁₂.2.2 h₂₃.2.2 h₃₄.2.2 hne₂ hne₃ hrest
  have hpasses := (h.of_perm hperm).1.expandPasses
  rw [hkeys] at hpasses
  exact ⟨d', _, hperm, hpasses.value k h₀₁.1,
    (mem_names_render (hpasses.sound k h₀₁.1)).mpr hleft, h₃₄.2.1⟩

/-- Without such chains the values of the result are the full words, in every order. -/
theorem Represents.expandPasses_full (h : Represents d {k | (d.get k).isSome = true} σ)
    (hshallow : Shallow {k | (d.get k).isSome = true} σ) (hperm : d'.items.Perm d.items) :
    Represents (LeafComposition.expandPasses 2 d') {k | (d.get k).isSome = true} (full σ) := by
  obtain ⟨hrep, hmem⟩ := h.of_perm hperm
  have htwice : twice (d'.items.map Prod.fst) σ = full σ :=
    funext fun k => twice_eq_full h.onlyKeys hmem hshallow k
  rw [← htwice]
  exact hrep.expandPasses

/-- A registry of one leaf with this environment. -/
def envRegistry (env : List (Text × Text)) : Registry :=
  { leaves := .ofPairs [(['l'], envLeaf)]
    devices := .empty
    models := .empty
    headroomMb := fun unified => unified * 85 / 100 }
where
  /-- The leaf. -/
  envLeaf : Leaf :=
    { id := ['l']
      capability := "tts".toList
      backend := "jetson.x".toList
      model := []
      precision := none
      files := []
      requires := []
      runtimeEnv := .ofPairs env
      peakUnifiedMb := 100
      exclusive := none }

theorem envRegistry_expand (env : List (Text × Text)) :
    (envRegistry env).expand [['l']] = .ok [envRegistry.envLeaf env] := by
  have hnext : (envRegistry env).graph.next ['l'] = some [] := rfl
  have hsearch : (envRegistry env).graph.search [['l']] = .ok [['l']] := by
    rw [LinkGraph.search, LinkGraph.walk_of_some (by decide) hnext, List.nil_append, LinkGraph.walk_nil]
    rfl
  rw [Registry.expand, hsearch]
  rfl

/-- References that go down some order have no cycle. -/
theorem acyclic_of_rank {env : Dictionary Text Text} (rank : Text → ℕ)
    (h : ∀ item ∈ env.items, ∀ n ∈ names item.2, (env.get n).isSome = true →
      rank n < rank item.1) : Acyclic (VarRefers env) := by
  refine Acyclic.of_rank rank ?_
  rintro k n ⟨v, hv, hn, hkey⟩
  exact h (k, v) (Dictionary.get_eq_some_iff.mp hv) n hn hkey

/-- `A` refers to `B`, which refers to a variable that is not there. -/
def shortEnv : List (Text × Text) :=
  [(['A'], "${B}/a".toList), (['B'], "${HOME}/b".toList)]

/-- A chain of four references. -/
def longEnv : List (Text × Text) :=
  [(['A'], "${B}".toList), (['B'], "${C}".toList), (['C'], "${D}".toList),
    (['D'], "${E}".toList), (['E'], "e".toList)]

theorem shortEnv_items :
    (mergedEnv [envRegistry.envLeaf shortEnv] []).items = shortEnv := by decide +kernel

end LeafComposition
end OpenVoiceStream
