import OpenVoiceStream.Base.Machine
import OpenVoiceStream.Base.Agents
import OpenVoiceStream.Base.Future

/-!
# The ASR inference gate

`AsrInferenceGate` lets at most `concurrency` tasks into a critical section and
queues the others in the order they came.  A permit that comes free is handed to
the oldest live waiter through its future: from `set_result` until the waiter
resumes, the permit belongs to a task that is not running yet and may be
cancelled before it runs.

A task has at most one future here, so the deque is kept by the tasks the futures
belong to.

## Main definitions

* `wakeNext` — `_wake_next`.
* `step`, `machine` — the tasks at the gate, switching at awaits.
* `Inv` — the invariant, with the number of permits on their way from one task to
  another.

## Main results

* `Inv.wakeNext` — a permit in hand is passed on or returned.
* `step_inv`, `run_inv` — the invariant along every run.
* `gate_safe` — permits are neither lost nor duplicated, whatever is cancelled.
-/

namespace OpenVoiceStream
namespace AsrInferGate

/-- The constructor arguments that `__init__` accepts. -/
structure Cfg where
  concurrency : ℕ
  /-- `None` is an unbounded queue. -/
  maxWaiting : Option ℕ
  /-- `__init__` raises `ValueError` for anything less. -/
  concurrency_pos : 1 ≤ concurrency

/-- Where a task stands. -/
inductive Task
  /-- Not in `acquire`, not in the body. -/
  | outside
  /-- At `await fut`; the flag is the task's pending cancellation. -/
  | waiting (fut : Fut) (mustCancel : Bool)
  /-- In the body of the context manager. -/
  | inside
  deriving DecidableEq, Repr

/-- The task waits on a future nobody has finished. -/
def Task.live : Task → Bool
  | .waiting fut _ => !fut.isDone
  | .outside | .inside => false

/-- The task is in the body. -/
def Task.inBody : Task → ℕ
  | .inside => 1
  | .outside | .waiting _ _ => 0

/-- The task has been handed a permit and has not resumed. -/
def Task.granted : Task → ℕ
  | .waiting .done _ => 1
  | .outside | .inside | .waiting _ _ => 0

/-- The permits in the hands of a task. -/
def Task.permits (t : Task) : ℕ := t.inBody + t.granted

variable {ι : Type} [DecidableEq ι]

/-- The gate and the tasks at it. -/
structure Gate (ι : Type) where
  running : ℤ
  waiters : List ι
  task : ι → Task
  totalAcquired : ℕ
  totalRejected : ℕ
  maxObservedQueue : ℕ

/-- A new gate. -/
def Gate.start : Gate ι :=
  { running := 0, waiters := [], task := fun _ => .outside, totalAcquired := 0,
    totalRejected := 0, maxObservedQueue := 0 }

/-- Task `i` moves to `t`. -/
def Gate.move (g : Gate ι) (i : ι) (t : Task) : Gate ι :=
  { g with task := Function.update g.task i t }

/-- The pops of `_wake_next`: the waiters left, and the one whose future is live. -/
def popLive (task : ι → Task) : List ι → List ι × Option ι
  | [] => ([], none)
  | i :: rest => if (task i).live then (rest, some i) else popLive task rest

/-- `_wake_next`: the permit goes to the oldest live waiter, or back. -/
def Gate.wakeNext (g : Gate ι) : Gate ι :=
  match popLive g.task g.waiters with
  | (waiters, some i) =>
    match g.task i with
    | .waiting _ mustCancel => { g with waiters := waiters }.move i (.waiting .done mustCancel)
    | .outside | .inside => { g with waiters := waiters }
  | (waiters, none) => { g with waiters := waiters, running := g.running - 1 }

/-- `acquire` up to its first switch point. -/
def Gate.enter (cfg : Cfg) (g : Gate ι) (i : ι) : Gate ι :=
  if g.running < cfg.concurrency then
    { g with running := g.running + 1, totalAcquired := g.totalAcquired + 1 }.move i .inside
  else if ∃ m ∈ cfg.maxWaiting, m ≤ g.waiters.length then
    -- `InferenceQueueFull`
    { g with totalRejected := g.totalRejected + 1 }
  else
    { g with
      waiters := g.waiters ++ [i]
      maxObservedQueue := max g.maxObservedQueue (g.waiters.length + 1) }.move i
        (.waiting .pending false)

/-- The tasks' actions. -/
inductive Act (ι : Type)
  /-- The task calls `acquire`. -/
  | enter (i : ι)
  /-- The task awaiting its future runs again. -/
  | resume (i : ι)
  /-- `task.cancel()` while the task awaits its future. -/
  | cancel (i : ι)
  /-- The body ends: it returns, raises, or is cancelled at one of its awaits. -/
  | exit (i : ι)
  deriving DecidableEq, Repr

/-- One step of the tasks at the gate. -/
def step (cfg : Cfg) (g : Gate ι) : Act ι → Option (Gate ι)
  | .enter i => if g.task i = .outside then some (g.enter cfg i) else none
  | .resume i =>
    match g.task i with
    | .waiting .pending _ => none
    | .waiting .done true =>
      -- granted, then cancelled: the permit is passed on
      some (g.move i .outside).wakeNext
    | .waiting .done false =>
      some ({ g with totalAcquired := g.totalAcquired + 1 }.move i .inside)
    | .waiting .cancelled _ =>
      some ({ g with waiters := g.waiters.erase i }.move i .outside)
    | .outside | .inside => none
  | .cancel i =>
    match g.task i with
    | .waiting fut mustCancel =>
      some (g.move i (.waiting fut.cancel (mustCancel || fut.isDone)))
    | .outside | .inside => none
  | .exit i => if g.task i = .inside then some (g.move i .outside).wakeNext else none

/-- The gate as a machine. -/
def machine (cfg : Cfg) : Machine (Gate ι) (Act ι) :=
  { init := Gate.start, step := step cfg }

/-! ### The invariant -/

omit [DecidableEq ι] in
/-- What the pops of `_wake_next` leave: a suffix of the deque, after futures that
are done and the live one, if there is one. -/
theorem popLive_spec (task : ι → Task) (ws : List ι) :
    ∃ pre, ws = pre ++ ((popLive task ws).2.toList ++ (popLive task ws).1) ∧
      (∀ j ∈ pre, (task j).live = false) ∧ (∀ i ∈ (popLive task ws).2, (task i).live) ∧
      ((popLive task ws).2 = none → (popLive task ws).1 = []) := by
  induction ws with
  | nil => exact ⟨[], rfl, by simp, by simp [popLive], fun _ => rfl⟩
  | cons i rest ih =>
    by_cases hi : (task i).live
    · exact ⟨[], by simp [popLive, hi], by simp, by simp [popLive, hi], by simp [popLive, hi]⟩
    · obtain ⟨pre, hpre, hdone, hlive, hnil⟩ := ih
      refine ⟨i :: pre, ?_, ?_, ?_, ?_⟩
      · simpa [popLive, hi] using hpre
      · simpa [hi] using hdone
      · simpa [popLive, hi] using hlive
      · simpa [popLive, hi] using hnil

theorem Task.live_iff {t : Task} : t.live = true ↔ ∃ mc, t = .waiting .pending mc := by
  cases t <;> simp [live]

section Invariant

variable [Fintype ι] {c : ℕ} {g : Gate ι} {i : ι} {t : Task}

/-- The invariant of a gate of `c` permits, `k` of which a running task is about to
pass on. -/
structure Inv (c k : ℕ) (g : Gate ι) : Prop where
  running : g.running = Agents.total Task.permits g.task + k
  le : g.running ≤ c
  nodup : g.waiters.Nodup
  /-- What is in the deque waits, and has not been granted. -/
  queued : ∀ i ∈ g.waiters, ∃ fut mc, g.task i = .waiting fut mc ∧ fut ≠ .done
  /-- Who waits is in the deque. -/
  pending : ∀ i, (g.task i).live → i ∈ g.waiters
  /-- Nobody waits next to a free permit. -/
  full : ∀ i, (g.task i).live → g.running = c

omit [DecidableEq ι] in
theorem inv_start (c : ℕ) : Inv c 0 (Gate.start : Gate ι) where
  running := by
    have : Agents.total Task.permits (Gate.start : Gate ι).task = 0 :=
      Agents.total_eq_zero fun _ => rfl
    rw [this]
    rfl
  le := Int.natCast_nonneg c
  nodup := List.nodup_nil
  queued := by simp [Gate.start]
  pending := by simp [Gate.start, Task.live]
  full := by simp [Gate.start, Task.live]

/-- A task outside the deque moves, and nobody starts to wait. -/
theorem Inv.move {k k' : ℕ} (hg : Inv c k g) (hi : i ∉ g.waiters) (ht : t.live = false)
    (hk : (g.task i).permits + k = t.permits + k') : Inv c k' (g.move i t) where
  running := by
    have := Agents.total_update_add Task.permits g.task i t
    have := hg.running
    simp only [Gate.move]
    omega
  le := hg.le
  nodup := hg.nodup
  queued := by
    intro j hj
    have hij : j ≠ i := fun h => hi (h ▸ hj)
    simpa [Gate.move, Function.update_of_ne hij] using hg.queued j hj
  pending := by
    intro j hj
    by_cases hij : j = i
    · subst hij
      simp [Gate.move, ht] at hj
    · exact hg.pending j (by simpa [Gate.move, Function.update_of_ne hij] using hj)
  full := by
    intro j hj
    by_cases hij : j = i
    · subst hij
      simp [Gate.move, ht] at hj
    · exact hg.full j (by simpa [Gate.move, Function.update_of_ne hij] using hj)

omit [DecidableEq ι] in
/-- A granted task is no longer in the deque. -/
theorem not_mem_of_granted (hg : Inv c 0 g) {mc : Bool} (hi : g.task i = .waiting .done mc) :
    i ∉ g.waiters := by
  intro hmem
  obtain ⟨fut, mc', htask, hfut⟩ := hg.queued i hmem
  rw [hi] at htask
  injection htask with h _
  exact hfut h.symm

omit [DecidableEq ι] in
/-- Only waiting tasks are in the deque. -/
theorem not_mem_of_not_waiting {k : ℕ} (hg : Inv c k g)
    (hi : ∀ fut mc, g.task i ≠ .waiting fut mc) :
    i ∉ g.waiters := by
  intro hmem
  obtain ⟨fut, mc, htask, _⟩ := hg.queued i hmem
  exact hi fut mc htask

/-- **A permit in hand is passed on or returned.** -/
theorem Inv.wakeNext (hg : Inv c 1 g) : Inv c 0 g.wakeNext := by
  obtain ⟨pre, hpre, hdone, hlive, hnil⟩ := popLive_spec g.task g.waiters
  unfold Gate.wakeNext
  rcases hpop : popLive g.task g.waiters with ⟨ws, r⟩
  rw [hpop] at hpre hlive hnil
  -- what the pops drop is not live, so it is not missed
  have hkeep : ∀ j, (g.task j).live → j ∈ r.toList ++ ws := by
    intro j hj
    have hmem := hg.pending j hj
    rw [hpre, List.mem_append] at hmem
    refine hmem.resolve_left fun hpre => ?_
    rw [hdone j hpre] at hj
    cases hj
  have hsub : (r.toList ++ ws).Sublist g.waiters := hpre ▸ List.sublist_append_right pre _
  cases r with
  | some i =>
    obtain ⟨mc, hi⟩ := Task.live_iff.mp (hlive i rfl)
    have hws : (i :: ws).Nodup := hg.nodup.sublist hsub
    have hiws : i ∉ ws := (List.nodup_cons.mp hws).1
    simp only [hi]
    -- the gate in between has a live task outside its deque
    refine ⟨?_, hg.le, (List.nodup_cons.mp hws).2, ?_, ?_, ?_⟩
    · have := Agents.total_update_succ (w := Task.permits) (f := g.task) (i := i)
        (a := .waiting .done mc) (by rw [hi]; rfl)
      have := hg.running
      simp only [Gate.move]
      omega
    · intro j hj
      have hij : j ≠ i := fun h => hiws (h ▸ hj)
      simp only [Gate.move, Function.update_of_ne hij]
      exact hg.queued j (hsub.subset (List.mem_append_right _ hj))
    · intro j hj
      have hij : j ≠ i := by
        rintro rfl
        simp [Gate.move, Task.live, Fut.isDone] at hj
      simp only [Gate.move, Function.update_of_ne hij] at hj
      have := hkeep j hj
      simpa [Gate.move, hij] using this
    · intro j _
      exact hg.full i (hlive i rfl)
  | none =>
    have hws : ws = [] := hnil rfl
    subst hws
    have hnone : ∀ j, (g.task j).live = false := by
      intro j
      by_contra hj
      simpa using hkeep j (by simpa using hj)
    refine ⟨?_, ?_, List.nodup_nil, by simp, fun j hj => ?_, fun j hj => ?_⟩
    · have := hg.running
      simp only
      omega
    · have := hg.le
      simp only
      omega
    · rw [hnone j] at hj; cases hj
    · rw [hnone j] at hj; cases hj

/-- **The step lemma.** -/
theorem step_inv {cfg : Cfg} {g' : Gate ι} {a : Act ι} (hg : Inv cfg.concurrency 0 g)
    (h : step cfg g a = some g') : Inv cfg.concurrency 0 g' := by
  cases a with
  | enter i =>
    simp only [step] at h
    split at h
    case isFalse => cases h
    rename_i hi
    cases h
    have hmem : i ∉ g.waiters := not_mem_of_not_waiting hg (by simp [hi])
    unfold Gate.enter
    split
    · -- a permit is free
      rename_i hfree
      have hlive : ∀ j, (g.task j).live = false := by
        intro j
        by_contra hj
        have := hg.full j (by simpa using hj)
        omega
      have hrun : Inv cfg.concurrency 1
          { g with running := g.running + 1, totalAcquired := g.totalAcquired + 1 } := by
        refine ⟨?_, ?_, hg.nodup, hg.queued, hg.pending, ?_⟩
        · have := hg.running
          simp only
          omega
        · simp only
          omega
        · intro j hj
          rw [hlive j] at hj
          cases hj
      exact hrun.move hmem rfl (by simp [hi, Task.permits, Task.inBody, Task.granted])
    split
    · -- the queue is full
      exact ⟨hg.running, hg.le, hg.nodup, hg.queued, hg.pending, hg.full⟩
    · -- the task joins the queue
      rename_i hfree _
      have hfull : g.running = cfg.concurrency := le_antisymm hg.le (not_lt.mp hfree)
      refine ⟨?_, hg.le, ?_, ?_, ?_, fun _ _ => hfull⟩
      · have := Agents.total_update_eq (w := Task.permits) (f := g.task) (i := i)
          (a := .waiting .pending false) (by rw [hi]; rfl)
        simp only [Gate.move, this]
        exact hg.running
      · exact hg.nodup.append (List.nodup_singleton i) (by simpa using hmem)
      · intro j hj
        by_cases hij : j = i
        · subst hij
          exact ⟨.pending, false, by simp [Gate.move], by simp⟩
        · simp only [Gate.move, Function.update_of_ne hij]
          exact hg.queued j (by simpa [Gate.move, hij] using hj)
      · intro j hj
        by_cases hij : j = i
        · simp [Gate.move, hij]
        · have := hg.pending j (by simpa [Gate.move, Function.update_of_ne hij] using hj)
          simp [Gate.move, this]
  | resume i =>
    simp only [step] at h
    split at h
    case h_1 => cases h
    case h_2 hi =>
      cases h
      have hmem := not_mem_of_granted hg hi
      exact (hg.move hmem rfl (by simp [hi, Task.permits, Task.inBody, Task.granted])).wakeNext
    case h_3 hi =>
      cases h
      have hmem := not_mem_of_granted hg hi
      exact Inv.move ⟨hg.running, hg.le, hg.nodup, hg.queued, hg.pending, hg.full⟩ hmem rfl
        (by simp [hi, Task.permits, Task.inBody, Task.granted])
    case h_4 hi =>
      -- the except branch of a cancelled waiter takes its future out of the deque
      cases h
      have hout : Inv cfg.concurrency 0 { g with waiters := g.waiters.erase i } := by
        refine ⟨hg.running, hg.le, hg.nodup.erase i, ?_, ?_, hg.full⟩
        · exact fun j hj => hg.queued j (List.mem_of_mem_erase hj)
        · intro j hj
          have hij : j ≠ i := by
            rintro rfl
            simp [hi, Task.live, Fut.isDone] at hj
          exact (List.mem_erase_of_ne hij).mpr (hg.pending j hj)
      exact hout.move (hg.nodup.not_mem_erase) rfl
        (by simp [hi, Task.permits, Task.inBody, Task.granted])
    case h_5 => cases h
    case h_6 => cases h
  | cancel i =>
    simp only [step] at h
    split at h
    case h_1 fut mc hi =>
      cases h
      have hperm : (Task.waiting fut.cancel (mc || fut.isDone)).permits = (g.task i).permits := by
        rw [hi]
        cases fut <;> rfl
      have hlive : (Task.waiting fut.cancel (mc || fut.isDone)).live = false := by
        cases fut <;> rfl
      refine ⟨?_, hg.le, hg.nodup, ?_, ?_, ?_⟩
      · have := Agents.total_update_eq hperm
        simp only [Gate.move, this]
        exact hg.running
      · intro j hj
        by_cases hij : j = i
        · subst hij
          obtain ⟨fut', mc', htask, hfut⟩ := hg.queued j hj
          rw [hi] at htask
          injection htask with hfut' _
          exact ⟨fut.cancel, mc || fut.isDone, by simp [Gate.move], by simpa [hfut'] using hfut⟩
        · simpa [Gate.move, Function.update_of_ne hij] using hg.queued j hj
      all_goals
        intro j hj
        have hij : j ≠ i := by
          rintro rfl
          simp [Gate.move, hlive] at hj
        simp only [Gate.move, Function.update_of_ne hij] at hj
      · exact hg.pending j hj
      · exact hg.full j hj
    case h_2 => cases h
    case h_3 => cases h
  | exit i =>
    simp only [step] at h
    split at h
    case isFalse => cases h
    rename_i hi
    cases h
    have hmem : i ∉ g.waiters := not_mem_of_not_waiting hg (by simp [hi])
    exact (hg.move hmem rfl (by simp [hi, Task.permits, Task.inBody, Task.granted])).wakeNext

/-- **The run lemma.** -/
theorem run_inv {cfg : Cfg} {as : List (Act ι)} (hrun : (machine cfg).run as = some g) :
    Inv cfg.concurrency 0 g :=
  (machine cfg).invariant_of_step (inv_start _) (fun _ _ _ hs h => step_inv hs h) hrun

omit [DecidableEq ι] in
/-- The permits in the hands of tasks are those of the bodies and those under way. -/
theorem total_permits (f : ι → Task) :
    Agents.total Task.permits f = Agents.total Task.inBody f + Agents.total Task.granted f :=
  Finset.sum_add_distrib

/-- **Permits are neither lost nor duplicated.**  In every run `_running` counts the
tasks in the body and those granted a permit they have not resumed with, it stays
within the bound, nobody waits next to a free permit, and a gate nobody is at is as
good as new. -/
theorem gate_safe (cfg : Cfg) (as : List (Act ι)) (g : Gate ι)
    (hrun : (machine cfg).run as = some g) :
    g.running = Agents.total Task.inBody g.task + Agents.total Task.granted g.task ∧
      g.running ≤ cfg.concurrency ∧
      (∀ i ∈ g.waiters, (g.task i).live → g.running = cfg.concurrency) ∧
      ((∀ i, g.task i = .outside) → g.running = 0 ∧ g.waiters = []) := by
  have hg := run_inv hrun
  have hrunning := hg.running
  rw [total_permits] at hrunning
  refine ⟨by omega, hg.le, fun i _ => hg.full i, fun hout => ⟨?_, ?_⟩⟩
  · have hzero : Agents.total Task.permits g.task = 0 :=
      Agents.total_eq_zero fun i => by rw [hout i]; rfl
    have := hg.running
    omega
  · refine List.eq_nil_iff_forall_not_mem.mpr fun i hi => ?_
    exact not_mem_of_not_waiting hg (by simp [hout i]) hi

end Invariant

/-- The first task is in the body; of the two that wait, the older is granted the
permit, cancelled before it runs, and passes it on. -/
def passedOnRun : List (Act (Fin 3)) :=
  [.enter 0, .enter 1, .enter 2, .exit 0, .cancel 1, .resume 1, .resume 2]

theorem gate_safe_passedOnRun :
    ∃ g, (machine ⟨1, none, le_rfl⟩).run passedOnRun = some g ∧ g.task 2 = .inside ∧
      g.running ≤ 1 :=
  ⟨_, rfl, by decide, (gate_safe ⟨1, none, le_rfl⟩ passedOnRun _ rfl).2.1⟩

end AsrInferGate
end OpenVoiceStream
