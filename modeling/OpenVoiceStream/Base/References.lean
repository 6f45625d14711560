import Mathlib.Data.List.Basic
import Mathlib.Data.Set.Insert
import Mathlib.Logic.Function.Basic

/-!
# References that are replaced in place

Words stand under names and are made of pieces, some of which refer to names.  A pass goes
over the names in some order and puts, in the word of each, the words of the names it refers
to, as they are by then.  How much is left to replace depends on the order, but not without
limit: what is left after a pass is at least twice as far away as what was left before it.

## Main definitions

* `References.Word`, `References.subst` — words, and putting words for the names in one.
* `References.step`, `References.pass` — one name, and all names in some order.
* `References.Chain` — a reference to a reference and so on.
* `References.full` — the words with all references replaced.

## Main results

* `References.twice_eq_full` — two passes in any order replace all references when no chain
  is longer than three.
* `References.exists_order_left` — in some order they do not when one is.
-/

/-- A piece of a word: it stands for itself, or for the word of a name. -/
inductive Piece (κ τ : Type*)
  | lit (t : τ)
  | ref (n : κ)
  deriving DecidableEq, Repr

namespace References

variable {κ τ : Type*}

/-- The words. -/
abbrev Word (κ τ : Type*) := List (Piece κ τ)

/-- What is put for one piece. -/
def substPiece (σ : κ → Word κ τ) : Piece κ τ → Word κ τ
  | .lit t => [.lit t]
  | .ref n => σ n

/-- The word with the words of the names it refers to. -/
def subst (σ : κ → Word κ τ) (w : Word κ τ) : Word κ τ := w.flatMap (substPiece σ)

section Subst

variable {σ ρ : κ → Word κ τ} {w : Word κ τ} {n : κ}

@[simp] theorem subst_singleton_ref (σ : κ → Word κ τ) (n : κ) : subst σ [.ref n] = σ n := by
  simp [subst, substPiece]

theorem subst_cons (σ : κ → Word κ τ) (p : Piece κ τ) (w : Word κ τ) :
    subst σ (p :: w) = substPiece σ p ++ subst σ w := List.flatMap_cons

theorem subst_append (σ : κ → Word κ τ) (w w' : Word κ τ) :
    subst σ (w ++ w') = subst σ w ++ subst σ w' := List.flatMap_append

/-- Putting words into words that were put. -/
theorem subst_subst (ρ σ : κ → Word κ τ) (w : Word κ τ) :
    subst ρ (subst σ w) = subst (fun n => subst ρ (σ n)) w := by
  induction w with
  | nil => rfl
  | cons p w ih =>
    rw [subst_cons, subst_append, ih, subst_cons]
    cases p with
    | lit t => rfl
    | ref n => rfl

theorem ref_mem_subst : Piece.ref n ∈ subst σ w ↔ ∃ n', .ref n' ∈ w ∧ .ref n ∈ σ n' := by
  unfold subst
  rw [List.mem_flatMap]
  constructor
  · rintro ⟨p, hp, hn⟩
    cases p with
    | lit t => simp [substPiece] at hn
    | ref n' => exact ⟨n', hp, hn⟩
  · rintro ⟨n', hp, hn⟩
    exact ⟨.ref n', hp, hn⟩

/-- A word whose names stand for themselves stays as it is. -/
theorem subst_eq_self (h : ∀ n, .ref n ∈ w → σ n = [.ref n]) : subst σ w = w := by
  induction w with
  | nil => rfl
  | cons p w ih =>
    rw [subst_cons, ih fun n hn => h n (List.mem_cons_of_mem p hn)]
    cases p with
    | lit t => rfl
    | ref n => rw [substPiece, h n List.mem_cons_self, List.singleton_append]

end Subst

/-! ### Chains of references -/

/-- `n` is reached from `k` by `m` steps of `r`. -/
inductive Chain (r : κ → κ → Prop) : ℕ → κ → κ → Prop
  | refl (k : κ) : Chain r 0 k k
  | head {m : ℕ} {k k' n : κ} : r k k' → Chain r m k' n → Chain r (m + 1) k n

/-- No chain comes back to where it began. -/
def Acyclic (r : κ → κ → Prop) : Prop := ∀ m k, ¬ Chain r (m + 1) k k

namespace Chain

variable {r : κ → κ → Prop} {m m' : ℕ} {k n n' : κ}

theorem single (h : r k n) : Chain r 1 k n := .head h (.refl n)

theorem trans (h : Chain r m k n) (h' : Chain r m' n n') : Chain r (m + m') k n' := by
  induction h with
  | refl k => rwa [Nat.zero_add]
  | head hr _ ih =>
    rw [Nat.add_right_comm]
    exact .head hr (ih h')

theorem cons_iff : Chain r (m + 1) k n ↔ ∃ k', r k k' ∧ Chain r m k' n := by
  constructor
  · intro h
    cases h with
    | head hr hrest => exact ⟨_, hr, hrest⟩
  · rintro ⟨k', hr, hrest⟩
    exact .head hr hrest

theorem snoc_iff : Chain r (m + 1) k n ↔ ∃ n', Chain r m k n' ∧ r n' n := by
  constructor
  · intro h
    induction m generalizing k with
    | zero =>
      obtain ⟨k', hr, hrest⟩ := cons_iff.mp h
      cases hrest
      exact ⟨k, .refl k, hr⟩
    | succ m ih =>
      obtain ⟨k', hr, hrest⟩ := cons_iff.mp h
      obtain ⟨n', hchain, hlast⟩ := ih hrest
      exact ⟨n', .head hr hchain, hlast⟩
  · rintro ⟨n', hchain, hlast⟩
    exact hchain.trans (single hlast)

/-- What begins a longer chain begins a shorter one. -/
theorem exists_of_le (h : Chain r m k n) (hle : m' ≤ m) : ∃ n', Chain r m' k n' := by
  obtain ⟨d, rfl⟩ := Nat.exists_eq_add_of_le hle
  induction d generalizing n with
  | zero => exact ⟨n, h⟩
  | succ d ih =>
    obtain ⟨n', hchain, -⟩ := snoc_iff.mp h
    exact ih hchain (Nat.le_add_right m' d)

end Chain

/-- Along a chain a measure that every reference takes down goes down by its length. -/
theorem Chain.rank_le {r : κ → κ → Prop} {m : ℕ} {k n : κ} (hchain : Chain r m k n)
    (rank : κ → ℕ) (h : ∀ k n, r k n → rank n < rank k) : rank n + m ≤ rank k := by
  induction hchain with
  | refl k => exact le_rfl
  | head hr _ ih =>
    have hlt := h _ _ hr
    omega

/-- References that go down some measure have no cycle. -/
theorem Acyclic.of_rank {r : κ → κ → Prop} (rank : κ → ℕ)
    (h : ∀ k n, r k n → rank n < rank k) : Acyclic r := by
  intro m k hchain
  have hle := hchain.rank_le rank h
  omega

/-! ### Passes -/

/-- Under the name `k` of `keys` the word of `σ` refers to another of them. -/
def Refers (keys : Set κ) (σ : κ → Word κ τ) (k n : κ) : Prop :=
  k ∈ keys ∧ n ∈ keys ∧ .ref n ∈ σ k

/-- Other names stand for themselves. -/
def OnlyKeys (keys : Set κ) (σ : κ → Word κ τ) : Prop := ∀ n, n ∉ keys → σ n = [.ref n]

section Pass

variable [DecidableEq κ]

/-- The words are put into the word of `k`. -/
def step (σ : κ → Word κ τ) (k : κ) : κ → Word κ τ := Function.update σ k (subst σ (σ k))

/-- One pass over the names, in the order given. -/
def pass (order : List κ) (σ : κ → Word κ τ) : κ → Word κ τ := order.foldl step σ

variable {keys : Set κ} {σ e : κ → Word κ τ} {order : List κ} {k n : κ} {m : ℕ}

@[simp] theorem step_self (σ : κ → Word κ τ) (k : κ) : step σ k k = subst σ (σ k) :=
  Function.update_self ..

theorem step_of_ne (h : n ≠ k) : step σ k n = σ n := Function.update_of_ne h ..

theorem pass_cons (k : κ) (order : List κ) (σ : κ → Word κ τ) :
    pass (k :: order) σ = pass order (step σ k) := rfl

/-- The word of a name that does not come is not touched. -/
theorem pass_of_notMem (h : k ∉ order) : pass order σ k = σ k := by
  induction order generalizing σ with
  | nil => rfl
  | cons k' order ih =>
    rw [List.mem_cons, not_or] at h
    rw [pass_cons, ih h.2, step_of_ne h.1]

theorem OnlyKeys.step (h : OnlyKeys keys σ) (hk : k ∈ keys) : OnlyKeys keys (step σ k) := by
  intro n hn
  have hne : n ≠ k := fun heq => hn (heq ▸ hk)
  rw [step_of_ne hne]
  exact h n hn

/-- What is left in the word of `k` is at least `m` steps away. -/
def FarAt (keys : Set κ) (r : κ → κ → Prop) (m : ℕ) (e : κ → Word κ τ) (k : κ) : Prop :=
  ∀ n ∈ keys, .ref n ∈ e k → ∃ j, m ≤ j ∧ Chain r j k n

variable {r : κ → κ → Prop}

omit [DecidableEq κ] in
theorem FarAt.mono {m' : ℕ} (h : FarAt keys r m e k) (hle : m' ≤ m) : FarAt keys r m' e k := by
  intro n hn href
  obtain ⟨j, hj, hchain⟩ := h n hn href
  exact ⟨j, hle.trans hj, hchain⟩

/-- A replaced reference leaves those of its word, twice as far away. -/
theorem FarAt.step (hkeys : OnlyKeys keys e) (hfar : ∀ k ∈ keys, FarAt keys r m e k)
    (hk : k ∈ keys) : FarAt keys r (m + m) (step e k) k := by
  intro n hn href
  rw [step_self, ref_mem_subst] at href
  obtain ⟨n', hn', href'⟩ := href
  by_cases hkey : n' ∈ keys
  · obtain ⟨j, hj, hchain⟩ := hfar k hk n' hkey hn'
    obtain ⟨j', hj', hchain'⟩ := hfar n' hkey n hn href'
    exact ⟨j + j', Nat.add_le_add hj hj', hchain.trans hchain'⟩
  · rw [hkeys n' hkey, List.mem_singleton, Piece.ref.injEq] at href'
    exact absurd (href' ▸ hn) hkey

/-- **A pass doubles the distance** of what is left. -/
theorem FarAt.pass (hkeys : OnlyKeys keys e) (horder : ∀ k ∈ order, k ∈ keys)
    (hfar : ∀ k ∈ keys, FarAt keys r m e k) :
    OnlyKeys keys (pass order e) ∧
      (∀ k ∈ order, FarAt keys r (m + m) (pass order e) k) := by
  suffices h : ∀ done : Set κ, (∀ k ∈ done, FarAt keys r (m + m) e k) →
      OnlyKeys keys (References.pass order e) ∧
        ∀ k, k ∈ done ∨ k ∈ order → FarAt keys r (m + m) (References.pass order e) k by
    obtain ⟨hkeys', hfar'⟩ := h ∅ (by simp)
    exact ⟨hkeys', fun k hk => hfar' k (Or.inr hk)⟩
  induction order generalizing e with
  | nil =>
    intro done hdone
    refine ⟨hkeys, fun k hk => hdone k (hk.resolve_right List.not_mem_nil)⟩
  | cons k₀ order ih =>
    intro done hdone
    have hk₀ := horder k₀ List.mem_cons_self
    have hself := FarAt.step hkeys hfar hk₀
    -- a name that is not the one of the step keeps its word
    have hother : ∀ {j k}, FarAt keys r j e k → k ≠ k₀ →
        FarAt keys r j (References.step e k₀) k := by
      intro j k h hne n hn href
      rw [step_of_ne hne] at href
      exact h n hn href
    have hfar' : ∀ k ∈ keys, FarAt keys r m (References.step e k₀) k := by
      intro k hk
      by_cases hne : k = k₀
      · subst hne
        exact hself.mono (Nat.le_add_left m m)
      · exact hother (hfar k hk) hne
    have hdone' : ∀ k ∈ insert k₀ done, FarAt keys r (m + m) (References.step e k₀) k := by
      intro k hk
      by_cases hne : k = k₀
      · subst hne
        exact hself
      · exact hother (hdone k (hk.resolve_left hne)) hne
    obtain ⟨hkeys', hall⟩ := ih (hkeys.step hk₀)
      (fun k hk => horder k (List.mem_cons_of_mem k₀ hk)) hfar' (insert k₀ done) hdone'
    refine ⟨hkeys', fun k hk => hall k ?_⟩
    rcases hk with hk | hk
    · exact Or.inl (Set.mem_insert_of_mem k₀ hk)
    · rcases List.mem_cons.mp hk with rfl | hrest
      · exact Or.inl (Set.mem_insert k done)
      · exact Or.inr hrest

end Pass

/-! ### The full words -/

/-- The words after the references have been replaced `m` times by the words there were. -/
def rounds (σ : κ → Word κ τ) : ℕ → κ → Word κ τ
  | 0, k => σ k
  | m + 1, k => subst σ (rounds σ m k)

/-- The words with all references replaced, when no chain is longer than three. -/
def full (σ : κ → Word κ τ) : κ → Word κ τ := rounds σ 3

variable {keys : Set κ} {σ e : κ → Word κ τ} {order : List κ} {k n : κ} {m : ℕ}

/-- The first references can as well be replaced last. -/
theorem rounds_succ (σ : κ → Word κ τ) (m : ℕ) (k : κ) :
    rounds σ (m + 1) k = subst (rounds σ m) (σ k) := by
  induction m with
  | zero => rfl
  | succ m ih =>
    calc rounds σ (m + 2) k
        = subst σ (rounds σ (m + 1) k) := rfl
      _ = subst σ (subst (rounds σ m) (σ k)) := by rw [ih]
      _ = subst (rounds σ (m + 1)) (σ k) := subst_subst ..

theorem rounds_of_notMem (hkeys : OnlyKeys keys σ) (hn : n ∉ keys) (m : ℕ) :
    rounds σ m n = [.ref n] := by
  induction m with
  | zero => exact hkeys n hn
  | succ m ih => rw [rounds, ih, subst_singleton_ref, hkeys n hn]

theorem chain_of_mem_rounds (hkeys : OnlyKeys keys σ) (hk : k ∈ keys) (hn : n ∈ keys)
    (h : .ref n ∈ rounds σ m k) : Chain (Refers keys σ) (m + 1) k n := by
  induction m generalizing n with
  | zero => exact .single ⟨hk, hn, h⟩
  | succ m ih =>
    rw [rounds, ref_mem_subst] at h
    obtain ⟨n', hn', href⟩ := h
    by_cases hkey : n' ∈ keys
    · exact (ih hkey hn').trans (.single ⟨hkey, hn, href⟩)
    · rw [hkeys n' hkey, List.mem_singleton, Piece.ref.injEq] at href
      exact absurd (href ▸ hn) hkey

/-- No chain has four steps. -/
def Shallow (keys : Set κ) (σ : κ → Word κ τ) : Prop :=
  ∀ k n, ¬ Chain (Refers keys σ) 4 k n

/-- The full words have no references left. -/
theorem Shallow.notMem_full (h : Shallow keys σ) (hkeys : OnlyKeys keys σ) (hk : k ∈ keys)
    (hn : n ∈ keys) : .ref n ∉ full σ k :=
  fun hmem => h k n (chain_of_mem_rounds hkeys hk hn hmem)

/-- The full words are the full words put into the words. -/
theorem Shallow.full_eq (h : Shallow keys σ) (hkeys : OnlyKeys keys σ) (k : κ) :
    full σ k = subst (full σ) (σ k) := by
  by_cases hk : k ∈ keys
  · calc full σ k
        = subst σ (full σ k) := by
          refine (subst_eq_self fun n hn => hkeys n fun hkey => ?_).symm
          exact h.notMem_full hkeys hk hkey hn
      _ = rounds σ 4 k := rfl
      _ = subst (full σ) (σ k) := rounds_succ σ 3 k
  · rw [hkeys k hk, subst_singleton_ref]

section TwoPasses

variable [DecidableEq κ]

/-- A step keeps the full words of all words. -/
theorem full_step {φ : κ → Word κ τ} (h : ∀ k, φ k = subst φ (e k)) (k₀ k : κ) :
    φ k = subst φ (step e k₀ k) := by
  by_cases hne : k = k₀
  · subst hne
    have hput : subst φ (subst e (e k)) = subst φ (e k) := by
      rw [subst_subst]
      congr 1
      exact funext fun n => (h n).symm
    rw [step_self, hput]
    exact h k
  · rw [step_of_ne hne]
    exact h k

theorem full_pass {φ : κ → Word κ τ} (h : ∀ k, φ k = subst φ (e k)) (k : κ) :
    φ k = subst φ (pass order e k) := by
  induction order generalizing e with
  | nil => exact h k
  | cons k₀ order ih => exact ih (full_step h k₀)

/-- Two passes in the same order. -/
def twice (order : List κ) (σ : κ → Word κ τ) : κ → Word κ τ := pass order (pass order σ)

/-- **Two passes replace all references** when no chain is longer than three. -/
theorem twice_eq_full (hkeys : OnlyKeys keys σ) (horder : ∀ k, k ∈ order ↔ k ∈ keys)
    (h : Shallow keys σ) (k : κ) : twice order σ k = full σ k := by
  have hle : ∀ k ∈ order, k ∈ keys := fun k hk => (horder k).mp hk
  have hfar : ∀ k ∈ keys, FarAt keys (Refers keys σ) 1 σ k :=
    fun k hk n hn href => ⟨1, le_rfl, .single ⟨hk, hn, href⟩⟩
  obtain ⟨hkeys₁, hfar₁⟩ := FarAt.pass hkeys hle hfar
  obtain ⟨hkeys₂, hfar₂⟩ := FarAt.pass hkeys₁ hle fun k hk => hfar₁ k ((horder k).mpr hk)
  have hleft : ∀ n, .ref n ∈ twice order σ k → full σ n = [.ref n] := by
    intro n href
    refine rounds_of_notMem hkeys (fun hn => ?_) 3
    by_cases hk : k ∈ keys
    · obtain ⟨j, hj, hchain⟩ := hfar₂ k ((horder k).mpr hk) n hn href
      obtain ⟨n', hchain'⟩ := hchain.exists_of_le hj
      exact h k n' hchain'
    · rw [twice, hkeys₂ k hk, List.mem_singleton, Piece.ref.injEq] at href
      exact hk (href ▸ hn)
  calc twice order σ k
      = subst (full σ) (twice order σ k) := (subst_eq_self hleft).symm
    _ = full σ k := (full_pass (full_pass (h.full_eq hkeys)) k).symm

/-- **Of a chain of four something is left** if its first and its third name come first. -/
theorem exists_order_left {k₀ k₁ k₂ k₃ k₄ : κ} {rest : List κ} (h₀ : .ref k₁ ∈ σ k₀)
    (h₁ : .ref k₂ ∈ σ k₁) (h₂ : .ref k₃ ∈ σ k₂) (h₃ : .ref k₄ ∈ σ k₃) (hne₂ : k₂ ≠ k₀)
    (hne₃ : k₃ ≠ k₀) (hrest : k₀ ∉ rest ∧ k₂ ∉ rest) :
    .ref k₄ ∈ twice (k₀ :: k₂ :: rest) σ k₀ := by
  have hout : k₀ ∉ k₂ :: rest := by
    rw [List.mem_cons, not_or]
    exact ⟨hne₂.symm, hrest.1⟩
  -- after the first pass the word of `k₀` refers to `k₂`, and that of `k₂` to `k₄`
  have hfirst : .ref k₂ ∈ pass (k₀ :: k₂ :: rest) σ k₀ := by
    rw [pass_cons, pass_of_notMem hout, step_self, ref_mem_subst]
    exact ⟨k₁, h₀, h₁⟩
  have hsecond : .ref k₄ ∈ pass (k₀ :: k₂ :: rest) σ k₂ := by
    rw [pass_cons, pass_cons, pass_of_notMem hrest.2, step_self, ref_mem_subst,
      step_of_ne hne₂]
    refine ⟨k₃, h₂, ?_⟩
    rwa [step_of_ne hne₃]
  rw [twice, pass_cons, pass_of_notMem hout, step_self, ref_mem_subst]
  exact ⟨k₂, hfirst, hsecond⟩

end TwoPasses

end References
