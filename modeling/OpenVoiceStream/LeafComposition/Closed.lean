import Mathlib.Algebra.Order.BigOperators.Group.List
import OpenVoiceStream.LeafComposition.Model

/-!
# Smaller compositions

A composition that fits a device still fits when leaves are taken out of it or put in
another order: each of the checks of `validate_composition` asks for something that a part
of the selection inherits.  The files of a selection are those of its leaves, so two
selections pulled together give the files of each.

## Main definitions

* `Registry.Reach` — the leaves reached from a selection through `requires`.
* `Fits` — what `validate_composition` asks for.

## Main results

* `expand_spec` — `expand` gives the reached leaves, each once, or names one that is not
  there.
* `validateComposition_ok_iff` — a composition is accepted if it fits.
* `Fits.subperm` — a part of a composition that fits fits.
* `composition_closed` — compositions are closed under removing and reordering leaves, and
  pulls are independent.
-/

namespace OpenVoiceStream
namespace LeafComposition

variable {reg : Registry} {selected sub : List Text} {device : Text}

/-- `k` is selected, or required by a leaf that is reached. -/
abbrev Registry.Reach (reg : Registry) (selected : List Text) : Text → Prop :=
  reg.graph.Reach selected

theorem graph_next_eq_none {k : Text} :
    reg.graph.next k = none ↔ reg.leaves.get k = none := by
  simp [Registry.graph]

theorem graph_next_eq_some {k : Text} :
    (∃ ks, reg.graph.next k = some ks) ↔ ∃ leaf, reg.leaves.get k = some leaf := by
  simp [Registry.graph]

/-- **`expand`** gives the reached leaves, each once, or names one that is not there. -/
theorem expand_spec (reg : Registry) (selected : List Text) :
    (∃ visited : List Text, reg.expand selected = .ok (visited.filterMap reg.leaves.get) ∧
      visited.Nodup ∧ (∀ k, k ∈ visited ↔ reg.Reach selected k) ∧
      ∀ k ∈ visited, ∃ leaf, reg.leaves.get k = some leaf) ∨
    (∃ k, reg.expand selected = .error (.noLeaf k) ∧ reg.Reach selected k ∧
      reg.leaves.get k = none) := by
  unfold Registry.expand
  cases hsearch : reg.graph.search selected with
  | ok visited =>
    obtain ⟨hnodup, hmem, hthere⟩ := LinkGraph.search_ok hsearch
    exact Or.inl ⟨visited, rfl, hnodup, hmem, fun k hk => graph_next_eq_some.mp (hthere k hk)⟩
  | error k =>
    obtain ⟨hreach, hnone⟩ := LinkGraph.search_error hsearch
    exact Or.inr ⟨k, rfl, hreach, graph_next_eq_none.mp hnone⟩

/-- All leaves that a selection reaches are in the registry. -/
def Known (reg : Registry) (selected : List Text) : Prop :=
  ∀ k, reg.Reach selected k → ∃ leaf, reg.leaves.get k = some leaf

theorem Known.expand (h : Known reg selected) :
    ∃ visited : List Text, reg.expand selected = .ok (visited.filterMap reg.leaves.get) ∧
      visited.Nodup ∧ ∀ k, k ∈ visited ↔ reg.Reach selected k := by
  rcases expand_spec reg selected with ⟨visited, hexpand, hnodup, hmem, -⟩ | ⟨k, -, hk, hnone⟩
  · exact ⟨visited, hexpand, hnodup, hmem⟩
  · obtain ⟨leaf, hleaf⟩ := h k hk
    rw [hnone] at hleaf
    cases hleaf

theorem known_of_expand {leaves : List Leaf} (h : reg.expand selected = .ok leaves) :
    Known reg selected := by
  intro k hk
  rcases expand_spec reg selected with ⟨visited, -, -, hmem, hthere⟩ | ⟨k', herror, -, -⟩
  · exact hthere k ((hmem k).mpr hk)
  · rw [h] at herror
    cases herror

theorem Known.mono (h : Known reg selected) (hsub : sub ⊆ selected) : Known reg sub :=
  fun k hk => h k (hk.mono fun _ hmem => hsub hmem)

/-! ### Files -/

theorem mem_firstSeen (files : List Text) (f : Text) : f ∈ firstSeen files ↔ f ∈ files := by
  have hfold : ∀ seen : List Text,
      f ∈ files.foldl (fun seen f => if f ∈ seen then seen else seen ++ [f]) seen ↔
        f ∈ seen ∨ f ∈ files := by
    induction files with
    | nil => intro seen; simp
    | cons g files ih =>
      intro seen
      rw [List.foldl_cons, ih, List.mem_cons]
      by_cases hg : g ∈ seen
      · rw [if_pos hg]
        constructor
        · rintro (h | h)
          · exact Or.inl h
          · exact Or.inr (Or.inr h)
        · rintro (h | rfl | h)
          · exact Or.inl h
          · exact Or.inl hg
          · exact Or.inr h
      · rw [if_neg hg, List.mem_append, List.mem_singleton, or_assoc]
  simpa [firstSeen] using hfold []

/-- The files of a selection are those of the leaves it reaches. -/
theorem mem_resolvePull {files : List Text} (h : resolvePull selected reg = .ok files)
    (f : Text) : f ∈ files ↔
      ∃ k leaf, reg.Reach selected k ∧ reg.leaves.get k = some leaf ∧ f ∈ leaf.files := by
  rcases expand_spec reg selected with ⟨visited, hexpand, -, hmem, -⟩ | ⟨k, herror, -, -⟩
  · rw [resolvePull, hexpand] at h
    obtain rfl : firstSeen ((visited.filterMap reg.leaves.get).flatMap Leaf.files) = files := by
      simpa [Except.map] using h
    simp only [mem_firstSeen, List.mem_flatMap, List.mem_filterMap]
    constructor
    · rintro ⟨leaf, ⟨k, hk, hleaf⟩, hf⟩
      exact ⟨k, leaf, (hmem k).mp hk, hleaf, hf⟩
    · rintro ⟨k, leaf, hk, hleaf, hf⟩
      exact ⟨leaf, ⟨k, (hmem k).mpr hk, hleaf⟩, hf⟩
  · rw [resolvePull, herror] at h
    cases h

theorem resolvePull_isOk_iff :
    (∃ files, resolvePull selected reg = .ok files) ↔ Known reg selected := by
  constructor
  · rintro ⟨files, h⟩
    cases hexpand : reg.expand selected with
    | ok leaves => exact known_of_expand hexpand
    | error e =>
      rw [resolvePull, hexpand] at h
      cases h
  · intro h
    obtain ⟨visited, hexpand, -⟩ := h.expand
    exact ⟨_, by rw [resolvePull, hexpand]; rfl⟩

/-! ### The checks on the selected leaves -/

theorem reach_of_mem_iff {a b c : List Text} (hc : ∀ k, k ∈ c ↔ k ∈ a ∨ k ∈ b) (k : Text) :
    reg.Reach c k ↔ reg.Reach a k ∨ reg.Reach b k := by
  rw [← LinkGraph.reach_append_iff]
  constructor
  · exact fun h => h.mono fun k hk => List.mem_append.mpr ((hc k).mp hk)
  · exact fun h => h.mono fun k hk => (hc k).mpr (List.mem_append.mp hk)

/-- The selected leaves that are in the registry. -/
def leavesOf (reg : Registry) (selected : List Text) : List (Text × Leaf) :=
  selected.filterMap fun lid => (reg.leaves.get lid).map (lid, ·)

/-- The pairing check asks for known leaves with distinct capabilities. -/
theorem checkPairing_ok_iff (reg : Registry) (device : Text) (selected : List Text) :
    ∀ before : Dictionary Text Text,
    checkPairing reg device selected before = .ok () ↔
      (∀ lid ∈ selected, ∃ leaf, reg.leaves.get lid = some leaf) ∧
      ((leavesOf reg selected).map fun item => item.2.capability).Nodup ∧
      ∀ item ∈ leavesOf reg selected, before.get item.2.capability = none := by
  induction selected with
  | nil => intro before; simp [checkPairing, leavesOf]
  | cons lid rest ih =>
    intro before
    cases hleaf : reg.leaves.get lid with
    | none =>
      simp only [checkPairing, Registry.getLeaf, hleaf]
      constructor
      · intro h; cases h
      · rintro ⟨hknown, -⟩
        obtain ⟨leaf, h⟩ := hknown lid List.mem_cons_self
        rw [hleaf] at h
        cases h
    | some leaf =>
      have hcons : leavesOf reg (lid :: rest) = (lid, leaf) :: leavesOf reg rest := by
        simp [leavesOf, hleaf]
      cases hget : before.get leaf.capability with
      | some existing =>
        simp only [checkPairing, Registry.getLeaf, hleaf]
        constructor
        · intro h
          simp [bind, Except.bind, hget] at h
        · rintro ⟨-, -, hnone⟩
          have := hnone (lid, leaf) (by rw [hcons]; exact List.mem_cons_self)
          rw [hget] at this
          cases this
      | none =>
        have hstep : checkPairing reg device (lid :: rest) before =
            checkPairing reg device rest (before.put leaf.capability lid) := by
          simp [checkPairing, Registry.getLeaf, hleaf, bind, Except.bind, hget]
        have hput : ∀ capability, (before.put leaf.capability lid).get capability = none ↔
            capability ≠ leaf.capability ∧ before.get capability = none := by
          intro capability
          by_cases heq : capability = leaf.capability
          · simp [heq]
          · simp [heq, Dictionary.get_put_of_ne heq]
        rw [hstep, ih, hcons, List.forall_mem_cons, List.map_cons, List.nodup_cons,
          List.forall_mem_cons]
        simp only [hput, List.mem_map, not_exists, not_and]
        constructor
        · rintro ⟨hknown, hnodup, hfresh⟩
          exact ⟨⟨⟨leaf, hleaf⟩, hknown⟩, ⟨fun item hitem => (hfresh item hitem).1, hnodup⟩,
            hget, fun item hitem => (hfresh item hitem).2⟩
        · rintro ⟨⟨-, hknown⟩, ⟨hfresh, hnodup⟩, -, hnone⟩
          exact ⟨hknown, hnodup, fun item hitem => ⟨hfresh item hitem, hnone item hitem⟩⟩

/-- The families of the leaves. -/
def familiesOf (leaves : List (Text × Leaf)) : List Text :=
  leaves.filterMap fun item => backendFamily item.2

theorem isSome_get_families (leaves : List (Text × Leaf)) (a : Text) :
    ((families leaves).get a).isSome = true ↔ a ∈ familiesOf leaves := by
  have hfold : ∀ d : Dictionary Text Text,
      ((leaves.foldl addFamily d).get a).isSome = true ↔
        (d.get a).isSome = true ∨ a ∈ familiesOf leaves := by
    induction leaves with
    | nil => intro d; simp [familiesOf]
    | cons item rest ih =>
      intro d
      rw [List.foldl_cons, ih, familiesOf, familiesOf, List.filterMap_cons, addFamily]
      cases backendFamily item.2 with
      | none => rfl
      | some family => rw [Dictionary.isSome_get_setDefault, List.mem_cons, or_assoc]
  have hempty : ((.empty : Dictionary Text Text).get a).isSome = false := rfl
  rw [families, hfold, hempty]
  simp

/-- Leaves whose families agree have one at most. -/
theorem one_family_iff (leaves : List (Text × Leaf)) :
    ¬ 1 < (families leaves).items.length ↔
      ∀ a ∈ familiesOf leaves, ∀ b ∈ familiesOf leaves, a = b := by
  have hmem : ∀ a, a ∈ familiesOf leaves ↔ a ∈ (families leaves).items.map Prod.fst := by
    intro a
    rw [← isSome_get_families, Option.isSome_iff_exists, List.mem_map]
    constructor
    · rintro ⟨lid, hlid⟩
      exact ⟨(a, lid), Dictionary.get_eq_some_iff.mp hlid, rfl⟩
    · rintro ⟨item, hitem, rfl⟩
      exact ⟨item.2, Dictionary.get_eq_some_iff.mpr hitem⟩
  have hnodup := (families leaves).nodup
  simp only [hmem]
  revert hnodup
  generalize (families leaves).items = items
  intro hnodup
  rcases items with _ | ⟨x, _ | ⟨y, rest⟩⟩
  · simp
  · simp
  · simp only [List.map_cons, List.nodup_cons, List.mem_cons, not_or] at hnodup
    constructor
    · intro hshort
      simp at hshort
    · intro hagree
      exact absurd (hagree x.1 (by simp) y.1 (by simp)) hnodup.1.1

/-- The leaves that claim a resource. -/
def holders (leaves : List (Text × Leaf)) (resource : Text) : List Text :=
  (leaves.filter fun item => item.2.exclusive = some resource).map Prod.fst

theorem get_exclusiveHolders (leaves : List (Text × Leaf)) (resource : Text) :
    ((exclusiveHolders leaves).get resource).getD [] = holders leaves resource := by
  have hfold : ∀ d : Dictionary Text (List Text),
      ((leaves.foldl addHolder d).get resource).getD [] =
        (d.get resource).getD [] ++ holders leaves resource := by
    induction leaves with
    | nil => intro d; simp [holders]
    | cons item rest ih =>
      intro d
      rw [List.foldl_cons, ih, addHolder]
      cases hexclusive : item.2.exclusive with
      | none => simp [holders, hexclusive]
      | some resource' =>
        by_cases heq : resource = resource'
        · subst heq
          simp [holders, hexclusive]
        · have hne : ¬ resource' = resource := fun h => heq h.symm
          simp [holders, hexclusive, Dictionary.get_put_of_ne heq, hne]
  exact hfold .empty

/-- The check of the exclusive resources. -/
theorem find_exclusive_eq_none_iff (leaves : List (Text × Leaf)) (admission : Option Text) :
    ((exclusiveHolders leaves).items.find? fun item =>
        decide (1 < item.2.length ∧ admission ≠ some "serial".toList)) = none ↔
      admission = some "serial".toList ∨ ∀ resource, (holders leaves resource).length ≤ 1 := by
  rw [List.find?_eq_none]
  constructor
  · intro hnone
    by_cases hserial : admission = some "serial".toList
    · exact Or.inl hserial
    · right
      intro resource
      by_contra hlong
      rw [← get_exclusiveHolders] at hlong
      cases hget : (exclusiveHolders leaves).get resource with
      | none => rw [hget] at hlong; simp at hlong
      | some claimed =>
        rw [hget, Option.getD_some, not_le] at hlong
        exact hnone _ (Dictionary.get_eq_some_iff.mp hget) (decide_eq_true ⟨hlong, hserial⟩)
  · rintro (hserial | hshort) item hitem
    · simp [hserial]
    · have := hshort item.1
      rw [← get_exclusiveHolders, Dictionary.get_eq_some_iff.mpr hitem, Option.getD_some] at this
      simp [Nat.not_lt.mpr this]

/-- What `validate_composition` asks for, with the device and the expanded leaves. -/
structure Fits (reg : Registry) (device : Text) (selected : List Text)
    (admission : Option Text) (dev : DeviceSpec) (leaves : List Leaf) : Prop where
  device : reg.devices.get device = some dev
  known : ∀ lid ∈ selected, ∃ leaf, reg.leaves.get lid = some leaf
  paired : ((leavesOf reg selected).map fun item => item.2.capability).Nodup
  coupled : ∀ a ∈ familiesOf (leavesOf reg selected),
    ∀ b ∈ familiesOf (leavesOf reg selected), a = b
  exclusive : admission = some "serial".toList ∨
    ∀ resource, (holders (leavesOf reg selected) resource).length ≤ 1
  expanded : reg.expand selected = .ok leaves
  memory : dev.baseReservationMb + (leaves.map Leaf.peakUnifiedMb).sum ≤
    reg.headroomMb dev.unifiedMb

/-- The plan of a composition that fits. -/
def planOf (reg : Registry) (device : Text) (selected : List Text) (dev : DeviceSpec)
    (leaves : List Leaf) : CompositionPlan :=
  { device := device
    leafIds := selected
    resolved := leaves.map fun leaf => ⟨leaf, reg.resolvePrecision leaf device⟩
    peakUnifiedMb := dev.baseReservationMb + (leaves.map Leaf.peakUnifiedMb).sum
    headroomMb := reg.headroomMb dev.unifiedMb }

/-- **A composition is accepted if it fits.** -/
theorem validateComposition_ok_iff {admission : Option Text} {plan : CompositionPlan} :
    validateComposition device selected reg admission = .ok plan ↔
      ∃ dev leaves, Fits reg device selected admission dev leaves ∧
        plan = planOf reg device selected dev leaves := by
  unfold validateComposition
  cases hdevice : reg.devices.get device with
  | none =>
    constructor
    · intro h; cases h
    · rintro ⟨dev, leaves, hfits, -⟩
      have := hfits.device
      rw [hdevice] at this
      cases this
  | some dev =>
    have hpairing := checkPairing_ok_iff reg device selected .empty
    have hempty : ∀ item ∈ leavesOf reg selected,
        (.empty : Dictionary Text Text).get item.2.capability = none := fun _ _ => rfl
    cases hcheck : checkPairing reg device selected .empty with
    | error e =>
      rw [hcheck] at hpairing
      constructor
      · intro h; cases h
      · rintro ⟨dev', leaves, hfits, -⟩
        cases hpairing.mpr ⟨hfits.known, hfits.paired, hempty⟩
    | ok done =>
      obtain ⟨hknown, hpaired, -⟩ := hpairing.mp hcheck
      simp only [bind, Except.bind]
      change (if 1 < (families (leavesOf reg selected)).items.length then _ else _) = _ ↔ _
      by_cases hfamilies : 1 < (families (leavesOf reg selected)).items.length
      · rw [if_pos hfamilies]
        constructor
        · intro h; cases h
        · rintro ⟨dev', leaves, hfits, -⟩
          exact absurd hfamilies ((one_family_iff _).mpr hfits.coupled)
      · rw [if_neg hfamilies]
        have hcoupled := (one_family_iff _).mp hfamilies
        have hexclusive := find_exclusive_eq_none_iff (leavesOf reg selected) admission
        split
        case h_1 item hfind =>
          have hfound := hexclusive.not.mp (by
            rw [Option.eq_none_iff_forall_ne_some]
            exact fun hnone => hnone item hfind)
          constructor
          · intro h; cases h
          · rintro ⟨dev', leaves, hfits, -⟩
            exact absurd hfits.exclusive hfound
        case h_2 hfind =>
          have hserial := hexclusive.mp hfind
          cases hexpand : reg.expand selected with
          | error e =>
            constructor
            · intro h; cases h
            · rintro ⟨dev', leaves, hfits, -⟩
              have := hfits.expanded
              rw [hexpand] at this
              cases this
          | ok leaves =>
            dsimp only
            by_cases hmemory : reg.headroomMb dev.unifiedMb <
                dev.baseReservationMb + (leaves.map Leaf.peakUnifiedMb).sum
            · rw [if_pos hmemory]
              constructor
              · intro h; cases h
              · rintro ⟨dev', leaves', hfits, -⟩
                have hdev := hfits.device
                have hleaves := hfits.expanded
                rw [hdevice, Option.some_inj] at hdev
                rw [hexpand, Except.ok.injEq] at hleaves
                subst hdev hleaves
                exact absurd hfits.memory (not_le.mpr hmemory)
            · rw [if_neg hmemory]
              constructor
              · intro h
                cases h
                exact ⟨dev, leaves, ⟨hdevice, hknown, hpaired, hcoupled, hserial, hexpand,
                  not_lt.mp hmemory⟩, rfl⟩
              · rintro ⟨dev', leaves', hfits, rfl⟩
                have hdev := hfits.device
                have hleaves := hfits.expanded
                rw [hdevice, Option.some_inj] at hdev
                rw [hexpand, Except.ok.injEq] at hleaves
                subst hdev hleaves
                rfl

/-! ### Parts of a selection -/

/-- The footprints of a part of the leaves are not more. -/
theorem sum_peak_le {part leaves : List Leaf} (h : part.Subperm leaves)
    (hpos : ∀ leaf ∈ leaves, 0 ≤ leaf.peakUnifiedMb) :
    (part.map Leaf.peakUnifiedMb).sum ≤ (leaves.map Leaf.peakUnifiedMb).sum := by
  obtain ⟨part', hperm, hsub⟩ := h
  calc (part.map Leaf.peakUnifiedMb).sum
      = (part'.map Leaf.peakUnifiedMb).sum := (hperm.symm.map _).sum_eq
    _ ≤ (leaves.map Leaf.peakUnifiedMb).sum := by
        refine (hsub.map _).sum_le_sum fun n hn => ?_
        obtain ⟨leaf, hleaf, rfl⟩ := List.mem_map.mp hn
        exact hpos leaf hleaf

/-- The leaves of a part are a part of the leaves. -/
theorem leavesOf_subperm (reg : Registry) (h : sub.Subperm selected) :
    (leavesOf reg sub).Subperm (leavesOf reg selected) := by
  obtain ⟨sub', hperm, hsub⟩ := h
  exact ⟨leavesOf reg sub', hperm.filterMap _, hsub.filterMap _⟩

theorem holders_length_le {part leaves : List (Text × Leaf)} (h : part.Subperm leaves)
    (resource : Text) : (holders part resource).length ≤ (holders leaves resource).length := by
  obtain ⟨part', hperm, hsub⟩ := h
  have heq : (holders part' resource).length = (holders part resource).length :=
    ((hperm.filter _).map _).length_eq
  rw [← heq]
  exact ((hsub.filter _).map _).length_le

/-- The expansion of a part is a part of the expansion, and of a permutation one. -/
theorem expand_subperm {leaves : List Leaf} (hsub : sub ⊆ selected)
    (hexpand : reg.expand selected = .ok leaves) :
    ∃ part, reg.expand sub = .ok part ∧ part.Subperm leaves ∧
      (selected ⊆ sub → part.Perm leaves) := by
  have hknown := known_of_expand hexpand
  obtain ⟨visited, hvisited, hnodup, hmem⟩ := hknown.expand
  obtain ⟨visited', hvisited', hnodup', hmem'⟩ := (hknown.mono hsub).expand
  rw [hexpand, Except.ok.injEq] at hvisited
  subst hvisited
  refine ⟨_, hvisited', ?_, ?_⟩
  · have hsubset : visited' ⊆ visited := by
      intro k hk
      rw [hmem]
      exact ((hmem' k).mp hk).mono fun _ h => hsub h
    obtain ⟨visited'', hperm, hsublist⟩ := List.subperm_of_subset hnodup' hsubset
    exact ⟨_, hperm.filterMap _, hsublist.filterMap _⟩
  · intro hsuper
    have hperm : visited'.Perm visited := by
      rw [List.perm_ext_iff_of_nodup hnodup' hnodup]
      intro k
      rw [hmem, hmem']
      exact ⟨fun h => h.mono fun _ hk => hsub hk, fun h => h.mono fun _ hk => hsuper hk⟩
    exact hperm.filterMap _

/-- The footprints of a registry are not negative. -/
def Registry.FootprintsNonneg (reg : Registry) : Prop :=
  ∀ item ∈ reg.leaves.items, 0 ≤ item.2.peakUnifiedMb

theorem Registry.FootprintsNonneg.expand (h : reg.FootprintsNonneg) {leaves : List Leaf}
    (hexpand : reg.expand selected = .ok leaves) :
    ∀ leaf ∈ leaves, 0 ≤ leaf.peakUnifiedMb := by
  obtain ⟨visited, hvisited, -⟩ := (known_of_expand hexpand).expand
  rw [hexpand, Except.ok.injEq] at hvisited
  subst hvisited
  intro leaf hleaf
  obtain ⟨k, -, hk⟩ := List.mem_filterMap.mp hleaf
  exact h (k, leaf) (Dictionary.get_eq_some_iff.mp hk)

/-- **A part of a composition that fits fits**, and a permutation with the same peak. -/
theorem Fits.subperm {admission : Option Text} {dev : DeviceSpec} {leaves : List Leaf}
    (h : Fits reg device selected admission dev leaves) (hpos : reg.FootprintsNonneg)
    (hsub : sub.Subperm selected) :
    ∃ part, Fits reg device sub admission dev part ∧
      (sub.Perm selected → (part.map Leaf.peakUnifiedMb).sum =
        (leaves.map Leaf.peakUnifiedMb).sum) := by
  obtain ⟨part, hexpand, hpart, hperm⟩ := expand_subperm hsub.subset h.expanded
  have hleaves := leavesOf_subperm reg hsub
  refine ⟨part, ⟨h.device, ?_, ?_, ?_, ?_, hexpand, ?_⟩, ?_⟩
  · exact fun lid hlid => h.known lid (hsub.subset hlid)
  · obtain ⟨leaves', hperm', hsublist⟩ := hleaves
    exact (hperm'.map _).nodup_iff.mp (h.paired.sublist (hsublist.map _))
  · have hmem : ∀ a ∈ familiesOf (leavesOf reg sub), a ∈ familiesOf (leavesOf reg selected) := by
      intro a ha
      obtain ⟨item, hitem, hfamily⟩ := List.mem_filterMap.mp ha
      exact List.mem_filterMap.mpr ⟨item, hleaves.subset hitem, hfamily⟩
    exact fun a ha b hb => h.coupled a (hmem a ha) b (hmem b hb)
  · rcases h.exclusive with hserial | hshort
    · exact Or.inl hserial
    · exact Or.inr fun resource => le_trans (holders_length_le hleaves resource) (hshort resource)
  · have hsum := sum_peak_le hpart (hpos.expand h.expanded)
    exact le_trans (Int.add_le_add_left hsum _) h.memory
  · intro hsame
    exact ((hperm hsame.symm.subset).map _).sum_eq

/-- **Compositions are closed under removing and reordering leaves, and pulls are
independent.**  `expand` gives the reached leaves, each once, or names a reached leaf that is
not there; a part of an accepted selection is accepted, and a permutation with the same
peak; the files pulled for two selections together are those pulled for each. -/
theorem composition_closed (reg : Registry) (hpos : reg.FootprintsNonneg) :
    (∀ selected,
      (∃ visited : List Text, reg.expand selected = .ok (visited.filterMap reg.leaves.get) ∧
        visited.Nodup ∧ (∀ k, k ∈ visited ↔ reg.Reach selected k) ∧
        ∀ k ∈ visited, ∃ leaf, reg.leaves.get k = some leaf) ∨
      (∃ k, reg.expand selected = .error (.noLeaf k) ∧ reg.Reach selected k ∧
        reg.leaves.get k = none)) ∧
    (∀ device selected admission plan sub,
      validateComposition device selected reg admission = .ok plan → sub.Subperm selected →
      ∃ plan', validateComposition device sub reg admission = .ok plan' ∧
        (sub.Perm selected → plan'.peakUnifiedMb = plan.peakUnifiedMb)) ∧
    (∀ a b c : List Text, (∀ k, k ∈ c ↔ k ∈ a ∨ k ∈ b) →
      ((∃ files, resolvePull c reg = .ok files) ↔
        (∃ files, resolvePull a reg = .ok files) ∧ ∃ files, resolvePull b reg = .ok files) ∧
      ∀ filesA filesB filesC, resolvePull a reg = .ok filesA → resolvePull b reg = .ok filesB →
        resolvePull c reg = .ok filesC → ∀ f, f ∈ filesC ↔ f ∈ filesA ∨ f ∈ filesB) := by
  refine ⟨expand_spec reg, ?_, ?_⟩
  · intro device selected admission plan sub hplan hsub
    obtain ⟨dev, leaves, hfits, rfl⟩ := validateComposition_ok_iff.mp hplan
    obtain ⟨part, hpart, hpeak⟩ := hfits.subperm hpos hsub
    refine ⟨_, validateComposition_ok_iff.mpr ⟨dev, part, hpart, rfl⟩, fun hperm => ?_⟩
    simp only [planOf, hpeak hperm]
  · intro a b c hc
    constructor
    · rw [resolvePull_isOk_iff, resolvePull_isOk_iff, resolvePull_isOk_iff]
      unfold Known
      simp only [reach_of_mem_iff hc]
      constructor
      · exact fun h => ⟨fun k hk => h k (Or.inl hk), fun k hk => h k (Or.inr hk)⟩
      · rintro ⟨ha, hb⟩ k (hk | hk)
        · exact ha k hk
        · exact hb k hk
    · intro filesA filesB filesC hA hB hC f
      rw [mem_resolvePull hA, mem_resolvePull hB, mem_resolvePull hC]
      simp only [reach_of_mem_iff hc, or_and_right, exists_or]

/-- A leaf of the pair below. -/
def pairLeaf (id capability required : String) : Leaf :=
  { id := id.toList
    capability := capability.toList
    backend := "jetson.x".toList
    model := []
    precision := none
    files := [id.toList]
    requires := [required.toList]
    runtimeEnv := .empty
    peakUnifiedMb := 100
    exclusive := none }

/-- Two leaves over a shared one, which requires the first of them. -/
def pairRegistry : Registry :=
  { leaves := .ofPairs [(['a'], pairLeaf "a" "asr" "s"), (['t'], pairLeaf "t" "tts" "s"),
      (['s'], pairLeaf "s" "shared" "a")]
    devices := .ofPairs [(['n'], ⟨1000, 200, []⟩)]
    models := .empty
    headroomMb := fun unified => unified * 85 / 100 }

theorem pairRegistry_nonneg : pairRegistry.FootprintsNonneg := by
  have hitems : pairRegistry.leaves.items = [(['a'], pairLeaf "a" "asr" "s"),
      (['t'], pairLeaf "t" "tts" "s"), (['s'], pairLeaf "s" "shared" "a")] := rfl
  intro item hitem
  rw [hitems] at hitem
  simp only [List.mem_cons, List.not_mem_nil, or_false] at hitem
  rcases hitem with rfl | rfl | rfl <;> decide

theorem pairRegistry_expand : pairRegistry.expand [['a'], ['t']] =
    .ok [pairLeaf "a" "asr" "s", pairLeaf "s" "shared" "a", pairLeaf "t" "tts" "s"] := by
  have ha : pairRegistry.graph.next ['a'] = some [['s']] := rfl
  have ht : pairRegistry.graph.next ['t'] = some [['s']] := rfl
  have hs : pairRegistry.graph.next ['s'] = some [['a']] := rfl
  have hsearch : pairRegistry.graph.search [['a'], ['t']] = .ok [['a'], ['s'], ['t']] := by
    rw [LinkGraph.search, LinkGraph.walk_of_some (by decide) ha, List.singleton_append,
      LinkGraph.walk_of_some (by decide) hs, List.singleton_append, LinkGraph.walk_of_mem (by decide),
      LinkGraph.walk_of_some (by decide) ht, List.singleton_append, LinkGraph.walk_of_mem (by decide),
      LinkGraph.walk_nil]
    rfl
  rw [Registry.expand, hsearch]
  rfl

/-- Without the first leaf the second one still fits, though it still pulls the first in. -/
theorem composition_closed_pair :
    ∃ plan, validateComposition ['n'] [['t']] pairRegistry none = .ok plan := by
  have hboth : ∃ plan, validateComposition ['n'] [['a'], ['t']] pairRegistry none = .ok plan := by
    unfold validateComposition
    rw [pairRegistry_expand]
    exact ⟨_, rfl⟩
  obtain ⟨plan, hplan⟩ := hboth
  obtain ⟨plan', hplan', -⟩ := (composition_closed pairRegistry pairRegistry_nonneg).2.1
    ['n'] [['a'], ['t']] none plan [['t']] hplan
    (List.sublist_cons_self ['a'] [['t']]).subperm
  exact ⟨plan', hplan'⟩

end LeafComposition
end OpenVoiceStream
