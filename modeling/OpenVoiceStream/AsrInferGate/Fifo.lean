import OpenVoiceStream.AsrInferGate

/-!
# The order of the gate

Each acquire that has to wait is given a number when it joins the deque, and the
numbers are written down in the order in which the permits are handed out.  The
numbers in the deque grow from its head to its end, so a grant, which goes to the
first live waiter, has a smaller number than any waiter left, and a larger one
than any grant before it.

## Main definitions

* `Queued` — the gate with the numbers.
* `newlyGranted` — the waiters a step hands a permit to.

## Main results

* `grants_in_order` — waiters are granted in the order they were enqueued, and
  nobody enters ahead of a live one.
-/

namespace OpenVoiceStream
namespace AsrInferGate

variable {ι : Type} [DecidableEq ι]

/-- The gate with the history of its queue. -/
structure Queued (ι : Type) where
  gate : Gate ι
  /-- The number of the acquire that a task waits with. -/
  no : ι → ℕ
  /-- How many acquires have been enqueued. -/
  next : ℕ
  /-- The numbers of the acquires that were handed a permit, in that order. -/
  granted : List ℕ

/-- The waiters of `g` that hold a permit in `g'` and had none. -/
def newlyGranted (g g' : Gate ι) : List ι :=
  g.waiters.filter fun j => (g'.task j).granted = 1

/-- A step of the gate, with the numbers it gives and the grants it makes. -/
def Queued.step (cfg : Cfg) (q : Queued ι) (a : Act ι) : Option (Queued ι) :=
  (AsrInferGate.step cfg q.gate a).map fun g =>
    let q' := { q with gate := g, granted := q.granted ++ (newlyGranted q.gate g).map q.no }
    match a with
    | .enter i =>
      if (g.task i).live then { q' with no := Function.update q.no i q.next, next := q.next + 1 }
      else q'
    | _ => q'

/-- The gate with its history, as a machine. -/
def queuedMachine (cfg : Cfg) : Machine (Queued ι) (Act ι) where
  init := { gate := Gate.start, no := fun _ => 0, next := 0, granted := [] }
  step := Queued.step cfg

/-! ### What a step does to the deque -/

/-- The deque loses some tasks, and at most the first live one is handed a permit. -/
inductive Pops (g g' : Gate ι) : Prop
  /-- Nobody is handed a permit. -/
  | keep (hsub : g'.waiters.Sublist g.waiters)
      (hgrant : ∀ j ∈ g.waiters, (g'.task j).granted = 0)
      (hlive : ∀ j, (g'.task j).live → (g.task j).live)
  /-- The first live waiter is. -/
  | grant (pre : List ι) (i : ι) (hwaiters : g.waiters = pre ++ i :: g'.waiters)
      (hi : (g.task i).live) (hgranted : (g'.task i).granted = 1)
      (hother : ∀ j ∈ g.waiters, j ≠ i → (g'.task j).granted = 0)
      (hlive : ∀ j, (g'.task j).live → (g.task j).live)

section Deque

variable {g g' : Gate ι} {i : ι} {t : Task}

/-- A task that is not in the deque moves before the step, and does not wait then. -/
theorem Pops.of_move (h : Pops (g.move i t) g') (hi : i ∉ g.waiters) (ht : t.live = false) :
    Pops g g' := by
  have htask : ∀ j ∈ g.waiters, (g.move i t).task j = g.task j := by
    intro j hj
    have hji : j ≠ i := fun hji => hi (hji ▸ hj)
    exact Function.update_of_ne hji _ _
  have hlive : ∀ j, ((g.move i t).task j).live → (g.task j).live := by
    intro j hj
    by_cases hji : j = i
    · subst hji
      simp [Gate.move, ht] at hj
    · simpa [Gate.move, Function.update_of_ne hji] using hj
  cases h with
  | keep hsub hgrant hl => exact .keep hsub hgrant fun j hj => hlive j (hl j hj)
  | grant pre k hwaiters hk hgranted hother hl =>
    exact .grant pre k hwaiters (hlive k hk) hgranted hother
      fun j hj => hlive j (hl j hj)

/-- `_wake_next` hands the permit to the first live waiter. -/
theorem wakeNext_pops (hqueued : ∀ j ∈ g.waiters, (g.task j).granted = 0) :
    Pops g g.wakeNext := by
  obtain ⟨pre, hpre, -, hlive, -⟩ := popLive_spec g.task g.waiters
  rw [Gate.wakeNext]
  rcases hpop : popLive g.task g.waiters with ⟨ws, r⟩
  rw [hpop] at hpre hlive
  cases r with
  | none =>
    refine .keep ?_ hqueued fun j hj => hj
    rw [hpre]
    exact List.sublist_append_right pre _
  | some i =>
    obtain ⟨mc, hi⟩ := Task.live_iff.mp (hlive i rfl)
    simp only [hi]
    refine .grant pre i hpre (hlive i rfl) ?_ ?_ ?_
    · simp [Gate.move, Task.granted]
    · intro j hj hji
      simpa [Gate.move, Function.update_of_ne hji] using hqueued j hj
    · intro j hj
      have hji : j ≠ i := by
        rintro rfl
        simp [Gate.move, Task.live, Fut.isDone] at hj
      simpa [Gate.move, Function.update_of_ne hji] using hj

/-- A task moves that is not live then, and holds no permit if it is in the deque. -/
theorem Pops.move (hqueued : ∀ j ∈ g.waiters, (g.task j).granted = 0)
    (hsub : g'.waiters.Sublist g.waiters) (htask : g'.task = Function.update g.task i t)
    (hgranted : i ∈ g.waiters → t.granted = 0) (hlive : t.live = false) : Pops g g' := by
  refine .keep hsub ?_ ?_
  · intro j hj
    rw [htask]
    by_cases hji : j = i
    · subst hji
      simpa using hgranted hj
    · simpa [Function.update_of_ne hji] using hqueued j hj
  · intro j hj
    rw [htask] at hj
    by_cases hji : j = i
    · subst hji
      simp [hlive] at hj
    · simpa [Function.update_of_ne hji] using hj

end Deque

section Order

variable [Fintype ι] {cfg : Cfg} {g g' : Gate ι} {q q' : Queued ι} {i : ι} {a : Act ι}

omit [DecidableEq ι] in
/-- What is in the deque holds no permit. -/
theorem Inv.granted_eq_zero {c k : ℕ} (hg : Inv c k g) : ∀ j ∈ g.waiters, (g.task j).granted = 0 := by
  intro j hj
  obtain ⟨fut, mc, htask, hfut⟩ := hg.queued j hj
  rw [htask]
  cases fut with
  | done => exact absurd rfl hfut
  | pending => rfl
  | cancelled => rfl

/-- The task joins the deque. -/
structure Joins (g g' : Gate ι) (i : ι) : Prop where
  fresh : i ∉ g.waiters
  waiters : g'.waiters = g.waiters ++ [i]
  task : g'.task = Function.update g.task i (.waiting .pending false)

/-- **A step of the deque.**  An `acquire` that finds no permit joins it; any other
step pops. -/
theorem step_joins_or_pops (hg : Inv cfg.concurrency 0 g) (h : AsrInferGate.step cfg g a = some g') :
    (∃ i, a = .enter i ∧ Joins g g' i) ∨
      (∀ i, a = .enter i → (g'.task i).live = false) ∧ Pops g g' := by
  have hzero := hg.granted_eq_zero
  cases a with
  | enter i =>
    simp only [AsrInferGate.step] at h
    split at h
    case isFalse => cases h
    rename_i hi
    cases h
    have hmem : i ∉ g.waiters := not_mem_of_not_waiting hg (by simp [hi])
    rw [Gate.enter]
    split
    · refine .inr ⟨?_, ?_⟩
      · rintro j hj
        obtain rfl := Act.enter.inj hj
        simp [Gate.move, Task.live]
      · exact .move hzero (List.Sublist.refl _) rfl (fun hmem' => absurd hmem' hmem) rfl
    split
    · refine .inr ⟨?_, .keep (List.Sublist.refl _) hzero fun j hj => hj⟩
      rintro j hj
      obtain rfl := Act.enter.inj hj
      simp [hi, Task.live]
    · exact .inl ⟨i, rfl, hmem, rfl, rfl⟩
  | resume i =>
    refine .inr ⟨(fun j hj => by cases hj), ?_⟩
    simp only [AsrInferGate.step] at h
    split at h
    case h_1 => cases h
    case h_2 hi =>
      cases h
      have hmem := not_mem_of_granted hg hi
      refine Pops.of_move (t := .outside) (wakeNext_pops ?_) hmem rfl
      intro j hj
      have hji : j ≠ i := fun hji => hmem (hji ▸ hj)
      simpa [Gate.move, Function.update_of_ne hji] using hzero j hj
    case h_3 hi =>
      cases h
      exact .move hzero (List.Sublist.refl _) rfl
        (fun hmem => absurd hmem (not_mem_of_granted hg hi)) rfl
    case h_4 =>
      cases h
      exact .move hzero List.erase_sublist rfl (fun _ => rfl) rfl
    case h_5 => cases h
    case h_6 => cases h
  | cancel i =>
    refine .inr ⟨(fun j hj => by cases hj), ?_⟩
    simp only [AsrInferGate.step] at h
    split at h
    case h_1 fut mc hi =>
      cases h
      refine .move hzero (List.Sublist.refl _) rfl ?_ ?_
      · intro hmem
        have := hzero i hmem
        rw [hi] at this
        cases fut with
        | done => cases this
        | pending => rfl
        | cancelled => rfl
      · cases fut <;> rfl
    case h_2 => cases h
    case h_3 => cases h
  | exit i =>
    refine .inr ⟨(fun j hj => by cases hj), ?_⟩
    simp only [AsrInferGate.step] at h
    split at h
    case isFalse => cases h
    rename_i hi
    cases h
    have hmem : i ∉ g.waiters := not_mem_of_not_waiting hg (by simp [hi])
    refine Pops.of_move (t := .outside) (wakeNext_pops ?_) hmem rfl
    intro j hj
    have hji : j ≠ i := fun hji => hmem (hji ▸ hj)
    simpa [Gate.move, Function.update_of_ne hji] using hzero j hj

/-! ### The numbers -/

/-- The numbers grow along the deque, and a live waiter's is larger than those that
were granted. -/
structure Ordered (cfg : Cfg) (q : Queued ι) : Prop where
  gate : Inv cfg.concurrency 0 q.gate
  waiters : (q.gate.waiters.map q.no).Pairwise (· < ·)
  next : ∀ j ∈ q.gate.waiters, q.no j < q.next
  granted : q.granted.Pairwise (· < ·)
  grantedNext : ∀ n ∈ q.granted, n < q.next
  behind : ∀ n ∈ q.granted, ∀ j, (q.gate.task j).live → n < q.no j

omit [DecidableEq ι] in
theorem ordered_init (cfg : Cfg) : Ordered cfg
    ({ gate := Gate.start, no := fun _ => 0, next := 0, granted := [] } : Queued ι) where
  gate := inv_start _
  waiters := List.Pairwise.nil
  next := by simp [Gate.start]
  granted := List.Pairwise.nil
  grantedNext := by simp
  behind := by simp

omit [Fintype ι] [DecidableEq ι] in
/-- If nobody in the deque holds a permit afterwards, nobody was handed one. -/
theorem newlyGranted_eq_nil (h : ∀ j ∈ g.waiters, (g'.task j).granted = 0) :
    newlyGranted g g' = [] := by
  rw [newlyGranted, List.filter_eq_nil_iff]
  intro j hj
  simp [h j hj]

/-- The task that joins is given the next number. -/
theorem Ordered.joins (hq : Ordered cfg q) (hgate : Inv cfg.concurrency 0 g')
    (hj : Joins q.gate g' i) :
    Ordered cfg
      { gate := g', no := Function.update q.no i q.next, next := q.next + 1, granted := q.granted }
    where
  gate := hgate
  waiters := by
    have hold : q.gate.waiters.map (Function.update q.no i q.next) = q.gate.waiters.map q.no := by
      apply List.map_congr_left
      intro j hmem
      have hji : j ≠ i := fun hji => hj.fresh (hji ▸ hmem)
      exact Function.update_of_ne hji _ _
    rw [hj.waiters, List.map_append, hold, List.pairwise_append]
    refine ⟨hq.waiters, List.pairwise_singleton _ _, ?_⟩
    intro m hm n hn
    obtain ⟨k, hk, rfl⟩ := List.mem_map.mp hm
    simp only [List.map_cons, List.map_nil, Function.update_self, List.mem_singleton] at hn
    rw [hn]
    exact hq.next k hk
  next := by
    intro j hmem
    rw [hj.waiters, List.mem_append, List.mem_singleton] at hmem
    by_cases hji : j = i
    · subst hji
      simp
    · have := hq.next j (hmem.resolve_right hji)
      simp only [Function.update_of_ne hji]
      omega
  granted := hq.granted
  grantedNext := fun n hn => Nat.lt_succ_of_lt (hq.grantedNext n hn)
  behind := by
    intro n hn j hlive
    by_cases hji : j = i
    · subst hji
      simpa using hq.grantedNext n hn
    · simp only [hj.task, Function.update_of_ne hji] at hlive ⊢
      exact hq.behind n hn j hlive

omit [DecidableEq ι] in
/-- A grant goes to the smallest number that waits. -/
theorem Ordered.pops (hq : Ordered cfg q) (hgate : Inv cfg.concurrency 0 g')
    (hp : Pops q.gate g') :
    Ordered cfg
      { q with gate := g', granted := q.granted ++ (newlyGranted q.gate g').map q.no } := by
  cases hp with
  | keep hsub hgrant hlive =>
    rw [newlyGranted_eq_nil hgrant]
    refine ⟨hgate, hq.waiters.sublist (hsub.map _), fun j hj => hq.next j (hsub.subset hj), ?_,
      ?_, ?_⟩
    · simpa using hq.granted
    · simpa using hq.grantedNext
    · intro n hn j hj
      exact hq.behind n (by simpa using hn) j (hlive j hj)
  | grant pre i hwaiters hi hgranted hother hlive =>
    have hone : newlyGranted q.gate g' = [i] := by
      have hnodup := hq.gate.nodup
      rw [hwaiters, List.nodup_middle, List.nodup_cons, List.mem_append, not_or] at hnodup
      rw [newlyGranted, hwaiters, List.filter_append, List.filter_cons_of_pos (by simpa using hgranted)]
      have hpre : pre.filter (fun j => (g'.task j).granted = 1) = [] := by
        apply List.filter_eq_nil_iff.mpr
        intro j hj
        have hji : j ≠ i := fun hji => hnodup.1.1 (hji ▸ hj)
        simp [hother j (by rw [hwaiters]; exact List.mem_append_left _ hj) hji]
      have hws : g'.waiters.filter (fun j => (g'.task j).granted = 1) = [] := by
        apply List.filter_eq_nil_iff.mpr
        intro j hj
        simp [hgate.granted_eq_zero j hj]
      rw [hpre, hws, List.nil_append]
    have hsub : g'.waiters.Sublist q.gate.waiters := by
      rw [hwaiters]
      exact (List.sublist_cons_self i _).trans (List.sublist_append_right pre _)
    have hmem : i ∈ q.gate.waiters := by rw [hwaiters]; simp
    have hbefore : ∀ j ∈ g'.waiters, q.no i < q.no j := by
      intro j hj
      have hsorted := hq.waiters
      rw [hwaiters, List.map_append, List.map_cons] at hsorted
      have htail := (List.pairwise_append.mp hsorted).2.1
      exact (List.pairwise_cons.mp htail).1 _ (List.mem_map_of_mem hj)
    rw [hone]
    refine ⟨hgate, hq.waiters.sublist (hsub.map _), fun j hj => hq.next j (hsub.subset hj), ?_,
      ?_, ?_⟩
    · rw [List.map_singleton, List.pairwise_append]
      refine ⟨hq.granted, List.pairwise_singleton _ _, ?_⟩
      intro n hn m hm
      rw [List.mem_singleton.mp hm]
      exact hq.behind n hn i hi
    · intro n hn
      rcases List.mem_append.mp hn with hn | hn
      · exact hq.grantedNext n hn
      · rw [List.map_singleton, List.mem_singleton] at hn
        rw [hn]
        exact hq.next i hmem
    · intro n hn j hj
      rcases List.mem_append.mp hn with hn | hn
      · exact hq.behind n hn j (hlive j hj)
      · rw [List.map_singleton, List.mem_singleton] at hn
        rw [hn]
        apply hbefore
        exact hgate.pending j hj

/-- **The step lemma.** -/
theorem Ordered.step (hq : Ordered cfg q) (h : q.step cfg a = some q') : Ordered cfg q' := by
  rw [Queued.step, Option.map_eq_some_iff] at h
  obtain ⟨g, hg, hq'⟩ := h
  have hgate := step_inv hq.gate hg
  subst hq'
  rcases step_joins_or_pops hq.gate hg with ⟨i, rfl, hjoins⟩ | ⟨henter, hpops⟩
  · have hlive : (g.task i).live := by simp [hjoins.task, Task.live, Fut.isDone]
    have hnone : newlyGranted q.gate g = [] := by
      apply newlyGranted_eq_nil
      intro j hj
      have hji : j ≠ i := fun hji => hjoins.fresh (hji ▸ hj)
      rw [hjoins.task, Function.update_of_ne hji]
      exact hq.gate.granted_eq_zero j hj
    simp only [hlive, if_true, hnone, List.map_nil, List.append_nil]
    exact hq.joins hgate hjoins
  · have := hq.pops hgate hpops
    cases a with
    | enter i =>
      simp only [henter i rfl, Bool.false_eq_true, if_false]
      exact this
    | resume i => exact this
    | cancel i => exact this
    | exit i => exact this

/-- Who finds a permit finds nobody waiting. -/
theorem nobody_waits_of_enter (hg : Inv cfg.concurrency 0 g)
    (h : AsrInferGate.step cfg g (.enter i) = some g') (hin : g'.task i = .inside) :
    ∀ j, (g.task j).live = false := by
  simp only [AsrInferGate.step] at h
  split at h
  case isFalse => cases h
  rename_i hi
  cases h
  rw [Gate.enter] at hin
  split at hin
  · rename_i hfree
    intro j
    by_contra hj
    have := hg.full j (by simpa using hj)
    omega
  split at hin
  · rw [hi] at hin
    cases hin
  · simp [Gate.move] at hin

/-- **Grants are in order.**  In every run the permits go to the waiters in the
order in which these were enqueued, a live waiter comes after all that were
granted, and an acquire that enters at once does so while nobody waits. -/
theorem grants_in_order {as : List (Act ι)} (hrun : (queuedMachine cfg).run as = some q) :
    q.granted.Pairwise (· < ·) ∧
      (∀ n ∈ q.granted, ∀ j, (q.gate.task j).live → n < q.no j) ∧
      ∀ i q', q.step cfg (.enter i) = some q' → q'.gate.task i = .inside →
        ∀ j, (q.gate.task j).live = false := by
  have hq : Ordered cfg q := (queuedMachine cfg).invariant_of_step (ordered_init cfg)
    (fun _ _ _ hs h => hs.step h) hrun
  refine ⟨hq.granted, hq.behind, fun i q' hstep hin => ?_⟩
  rw [Queued.step, Option.map_eq_some_iff] at hstep
  obtain ⟨g, hg, rfl⟩ := hstep
  apply nobody_waits_of_enter hq.gate hg
  simp only at hin
  split at hin <;> exact hin

end Order

end AsrInferGate
end OpenVoiceStream
