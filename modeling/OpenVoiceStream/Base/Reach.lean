import Mathlib.Data.List.Basic
import Mathlib.Data.List.Nodup

/-!
# Depth-first search

The nodes that can be reached from some others, each once, in the order in which a
depth-first search first comes to them.  A node that an edge names need not be there; the
search fails at the first of those.

## Main definitions

* `LinkGraph` — a finite graph with dangling edges.
* `LinkGraph.Reach` — a node is reached from some others.
* `LinkGraph.walk`, `LinkGraph.search` — the search.

## Main results

* `LinkGraph.search_ok` — what a search that succeeds has found.
* `LinkGraph.search_error` — what a search that fails has found.
-/

/-- A finite graph: the nodes and the edges of each. -/
structure LinkGraph (κ : Type*) where
  nodes : List κ
  next : κ → Option (List κ)
  mem_nodes : ∀ k ks, next k = some ks → k ∈ nodes

namespace LinkGraph

variable {κ : Type*} [DecidableEq κ] (g : LinkGraph κ)

/-- `k` is reached from the nodes `start`. -/
inductive Reach (start : List κ) : κ → Prop
  | start {k : κ} : k ∈ start → Reach start k
  | step {k k' : κ} {ks : List κ} : Reach start k → g.next k = some ks → k' ∈ ks →
      Reach start k'

/-- How many nodes have not been seen. -/
def unseen (seen : List κ) : ℕ := (g.nodes.filter (· ∉ seen)).length

omit [DecidableEq κ] in
theorem filter_length_lt {p q : κ → Bool} {l : List κ} (himp : ∀ k, q k = true → p k = true)
    {k : κ} (hk : k ∈ l) (hp : p k = true) (hq : q k = false) :
    (l.filter q).length < (l.filter p).length := by
  induction l with
  | nil => cases hk
  | cons k' l ih =>
    have hle : (l.filter q).length ≤ (l.filter p).length :=
      (List.monotone_filter_right l himp).length_le
    rcases List.mem_cons.mp hk with rfl | hrest
    · rw [List.filter_cons_of_pos hp, List.filter_cons_of_neg (by simp [hq]), List.length_cons]
      exact Nat.lt_succ_of_le hle
    · have hlt := ih hrest
      cases hq' : q k' with
      | true =>
        rw [List.filter_cons_of_pos hq', List.filter_cons_of_pos (himp k' hq')]
        exact Nat.succ_lt_succ hlt
      | false =>
        rw [List.filter_cons_of_neg (by simp [hq'])]
        exact Nat.lt_of_lt_of_le hlt
          (List.Sublist.filter p (List.sublist_cons_self k' l)).length_le

theorem unseen_lt {k : κ} {ks seen : List κ} (hnext : g.next k = some ks) (hk : k ∉ seen) :
    g.unseen (k :: seen) < g.unseen seen := by
  refine filter_length_lt ?_ (g.mem_nodes k ks hnext) (by simpa using hk) (by simp)
  intro k' hk'
  simp only [List.mem_cons, not_or, decide_eq_true_eq] at hk' ⊢
  exact hk'.2

/-- The search from the nodes still to be visited: the ones it comes to for the first time,
or the first that is not there.  The edges of a node are followed before the rest. -/
def walk : List κ → List κ → Except κ (List κ)
  | [], _ => .ok []
  | k :: pending, seen =>
    if _hk : k ∈ seen then walk pending seen
    else
      match _hnext : g.next k with
      | none => .error k
      | some ks => (walk (ks ++ pending) (k :: seen)).map (k :: ·)
termination_by pending seen => (g.unseen seen, pending.length)
decreasing_by
  · exact Prod.Lex.right _ (Nat.lt_succ_self _)
  · exact Prod.Lex.left _ _ (g.unseen_lt _hnext _hk)

/-- The search from some nodes. -/
def search (start : List κ) : Except κ (List κ) := g.walk start []

variable {g} {start pending seen ids : List κ} {k : κ}

@[simp] theorem walk_nil (seen : List κ) : g.walk [] seen = .ok [] := by
  rw [walk]

theorem walk_of_mem (h : k ∈ seen) : g.walk (k :: pending) seen = g.walk pending seen := by
  rw [walk, dif_pos h]

theorem walk_of_none (h : k ∉ seen) (hnext : g.next k = none) :
    g.walk (k :: pending) seen = .error k := by
  rw [walk, dif_neg h]
  split
  · rfl
  · rename_i ks hks
    rw [hnext] at hks
    cases hks

theorem walk_of_some (h : k ∉ seen) {ks : List κ} (hnext : g.next k = some ks) :
    g.walk (k :: pending) seen = (g.walk (ks ++ pending) (k :: seen)).map (k :: ·) := by
  rw [walk, dif_neg h]
  split
  · rename_i hks
    rw [hnext] at hks
    cases hks
  · rename_i ks' hks
    rw [hnext, Option.some_inj] at hks
    rw [hks]

omit [DecidableEq κ] in
theorem Reach.mono {start' : List κ} (h : g.Reach start k) (hsub : ∀ k ∈ start, k ∈ start') :
    g.Reach start' k := by
  induction h with
  | start hk => exact .start (hsub _ hk)
  | step _ hnext hk' ih => exact .step ih hnext hk'

omit [DecidableEq κ] in
/-- What is reached from a node's edges is reached from the node. -/
theorem Reach.of_next {ks : List κ} (hnext : g.next k = some ks) {k' : κ}
    (h : g.Reach (ks ++ pending) k') : g.Reach (k :: pending) k' := by
  induction h with
  | start hk =>
    rcases List.mem_append.mp hk with hks | hpending
    · exact .step (.start List.mem_cons_self) hnext hks
    · exact .start (List.mem_cons_of_mem k hpending)
  | step _ hnext' hk' ih => exact .step ih hnext' hk'

omit [DecidableEq κ] in
/-- What is reached from two selections is reached from one of them. -/
theorem reach_append_iff {start' : List κ} :
    g.Reach (start ++ start') k ↔ g.Reach start k ∨ g.Reach start' k := by
  constructor
  · intro h
    induction h with
    | start hk => exact (List.mem_append.mp hk).imp .start .start
    | step _ hnext hk' ih => exact ih.imp (.step · hnext hk') (.step · hnext hk')
  · rintro (h | h)
    · exact h.mono fun _ hk => List.mem_append_left _ hk
    · exact h.mono fun _ hk => List.mem_append_right _ hk

/-- What a search that succeeds says about the nodes it found. -/
structure Found (g : LinkGraph κ) (pending seen ids : List κ) : Prop where
  nodup : ids.Nodup
  fresh : ∀ k ∈ ids, k ∉ seen
  reached : ∀ k ∈ ids, g.Reach pending k
  there : ∀ k ∈ ids, ∃ ks, g.next k = some ks
  complete : ∀ k ∈ pending, k ∈ seen ∨ k ∈ ids
  closed : ∀ k ∈ ids, ∀ ks, g.next k = some ks → ∀ k' ∈ ks, k' ∈ seen ∨ k' ∈ ids

omit [DecidableEq κ] in
/-- One new node before the nodes found after it. -/
theorem Found.cons {ks : List κ} (hnew : k ∉ seen) (hnext : g.next k = some ks)
    (h : g.Found (ks ++ pending) (k :: seen) ids) : g.Found (k :: pending) seen (k :: ids) := by
  have hcases : ∀ k', k' ∈ k :: seen ∨ k' ∈ ids → k' ∈ seen ∨ k' ∈ k :: ids := by
    intro k' hk'
    rw [List.mem_cons] at hk' ⊢
    tauto
  constructor
  case nodup =>
    rw [List.nodup_cons]
    exact ⟨fun hk => h.fresh k hk List.mem_cons_self, h.nodup⟩
  case fresh =>
    intro k' hk'
    rcases List.mem_cons.mp hk' with rfl | hrest
    · exact hnew
    · exact fun hseen => h.fresh k' hrest (List.mem_cons_of_mem k hseen)
  case reached =>
    intro k' hk'
    rcases List.mem_cons.mp hk' with rfl | hrest
    · exact .start List.mem_cons_self
    · exact (h.reached k' hrest).of_next hnext
  case there =>
    intro k' hk'
    rcases List.mem_cons.mp hk' with rfl | hrest
    · exact ⟨ks, hnext⟩
    · exact h.there k' hrest
  case complete =>
    intro k' hk'
    rcases List.mem_cons.mp hk' with rfl | hrest
    · exact Or.inr List.mem_cons_self
    · exact hcases k' (h.complete k' (List.mem_append_right _ hrest))
  case closed =>
    intro k' hk' ks' hks' k'' hk''
    rcases List.mem_cons.mp hk' with rfl | hrest
    · rw [hnext, Option.some_inj] at hks'
      subst hks'
      exact hcases k'' (h.complete k'' (List.mem_append_left _ hk''))
    · exact hcases k'' (h.closed k' hrest ks' hks' k'' hk'')

/-- **What the search finds**: new nodes if it succeeds, a node that is not there if it
fails. -/
theorem walk_spec (g : LinkGraph κ) (pending seen : List κ) :
    (∀ ids, g.walk pending seen = .ok ids → g.Found pending seen ids) ∧
    (∀ k, g.walk pending seen = .error k → g.Reach pending k ∧ g.next k = none) := by
  induction pending, seen using walk.induct g with
  | case1 seen =>
    constructor
    · intro ids h
      rw [walk_nil, Except.ok.injEq] at h
      subst h
      constructor <;> simp
    · intro k h
      rw [walk_nil] at h
      cases h
  | case2 k pending seen hk ih =>
    rw [walk_of_mem hk]
    constructor
    · intro ids h
      have hfound := ih.1 ids h
      refine ⟨hfound.nodup, hfound.fresh, ?_, hfound.there, ?_, hfound.closed⟩
      · exact fun k' hk' => (hfound.reached k' hk').mono fun _ => List.mem_cons_of_mem k
      · intro k' hk'
        rcases List.mem_cons.mp hk' with rfl | hrest
        · exact Or.inl hk
        · exact hfound.complete k' hrest
    · intro k' h
      obtain ⟨hreach, hnone⟩ := ih.2 k' h
      exact ⟨hreach.mono fun _ => List.mem_cons_of_mem k, hnone⟩
  | case3 k pending seen hk hnext =>
    rw [walk_of_none hk hnext]
    constructor
    · intro ids h; cases h
    · intro k' h
      cases h
      exact ⟨.start List.mem_cons_self, hnext⟩
  | case4 k pending seen hk ks hnext ih =>
    rw [walk_of_some hk hnext]
    cases hwalk : g.walk (ks ++ pending) (k :: seen) with
    | ok ids =>
      constructor
      · intro ids' h
        cases h
        exact (ih.1 ids hwalk).cons hk hnext
      · intro k' h; cases h
    | error k' =>
      constructor
      · intro ids' h; cases h
      · intro k'' h
        cases h
        obtain ⟨hreach, hnone⟩ := ih.2 k' hwalk
        exact ⟨hreach.of_next hnext, hnone⟩

/-- **A search that succeeds** has found the reachable nodes, each once. -/
theorem search_ok (h : g.search start = .ok ids) :
    ids.Nodup ∧ (∀ k, k ∈ ids ↔ g.Reach start k) ∧ ∀ k ∈ ids, ∃ ks, g.next k = some ks := by
  have hfound := (walk_spec g start []).1 ids h
  have hseen : ∀ k, k ∈ ([] : List κ) ∨ k ∈ ids → k ∈ ids := by simp
  refine ⟨hfound.nodup, fun k => ⟨hfound.reached k, fun hreach => ?_⟩, hfound.there⟩
  induction hreach with
  | start hk => exact hseen _ (hfound.complete _ hk)
  | step _ hnext hk' ih => exact hseen _ (hfound.closed _ ih _ hnext _ hk')

/-- **A search that fails** has reached a node that is not there. -/
theorem search_error (h : g.search start = .error k) :
    g.Reach start k ∧ g.next k = none :=
  (walk_spec g start []).2 k h

end LinkGraph
