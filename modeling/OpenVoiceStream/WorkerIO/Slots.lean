import OpenVoiceStream.WorkerIO.Model

/-!
# Where the permits of a worker multiplexer are

Every permit that is not in the semaphore is accounted to one request: it is on
the executor thread that took it, in the finished future nobody has resumed on,
in the hands of the coroutine or of the calling thread, or lost.  It is lost when
the future was cancelled before the thread's result reached it: `f.result()` then
raises in `_release_if_late_acquire`, and nobody else releases.

## Main definitions

* `held` — the permits accounted to a request.
* `orphaned` — the request was cancelled under a running acquire.
* `leaks` — the two moves that orphan a request.

## Main results

* `agentStep_accounts` — one move keeps permits plus accounted permits, and
  orphans a request exactly when it leaks.
* `run_balanced` — the balance of every reachable state.
* `sem_add_holders_le` — the requests that hold a permit and the free permits are never more
  than there are slots.
* `quiescent_sem_eq_iff` — **once all is quiet the semaphore is whole exactly when
  no move of the run leaked.**
-/

namespace OpenVoiceStream
namespace WorkerIO

/-! ### The accounts of one request -/

/-- The program counters between the acquire of a permit and its release. -/
def Pc.holds : Pc → Bool
  | .holding | .checked | .registered | .getting _ | .yielded _ | .leaving _ | .popped _ => true
  | .entered | .unnamed | .named | .inserted | .reading | .handed _ | .unwinding | .unwound => true
  | .idle | .acquiring _ | .notifying | .blocked | .ended => false

/-- The task is at `await _fut`. -/
def Pc.awaitsSlot : Pc → Bool
  | .acquiring _ => true
  | _ => false

/-- A finished future whose permit nobody has taken over yet: the task has still
to resume, or the done-callback has still to run. -/
def Req.inFuture (r : Req) : Bool :=
  decide (r.fut = .done) && (r.pc.awaitsSlot || decide (r.late = .scheduled))

/-- The future was cancelled before the thread's permit reached it. -/
def Req.lost (r : Req) : Bool := decide (r.fut = .cancelled) && decide (r.job = .returned)

/-- The permits accounted to a request. -/
def held (r : Req) : ℕ :=
  r.pc.holds.toNat + (decide (r.job = .acquired)).toNat + r.inFuture.toNat + r.lost.toNat

/-- The request was cancelled, and its executor thread takes a permit all the same. -/
def orphaned (r : Req) : ℕ :=
  if r.fut = .cancelled ∧ (r.job = .blocked ∨ r.job = .acquired ∨ r.job = .returned) then 1 else 0

/-- The moves that orphan a request: the task is cancelled while a thread is in
`acquire` or has its permit but has not reported it, or a thread enters `acquire`
for a request that is cancelled already. -/
def leaks (r : Req) : Move.Kind → Bool
  | .cancelTask =>
    r.pc.awaitsSlot && decide (r.fut = .pending) &&
      (decide (r.job = .blocked) || decide (r.job = .acquired))
  | .jobStart => decide (r.fut = .cancelled)
  | _ => false

/-- What every reachable request satisfies. -/
structure Req.Wf (r : Req) : Prop where
  /-- Nothing has been submitted for an idle request. -/
  idle : r.pc = .idle → r.job = .none ∧ r.fut = .pending
  /-- Without a job the future is never resolved. -/
  noJob : r.job = .none → r.fut = .pending ∧ r.pc.awaitsSlot = false
  /-- Only a returned job resolves the future. -/
  resolved : r.fut = .done → r.job = .returned
  /-- A returned job has resolved it, unless the future was cancelled. -/
  returned : r.job = .returned → r.fut ≠ .pending
  /-- A job of a live future has its task waiting. -/
  awaited : r.job ≠ .none → r.fut = .pending → r.pc.awaitsSlot = true
  /-- The done-callback exists once the task has ended. -/
  late : r.late ≠ .none → r.pc = .ended

theorem Req.fresh_wf : Req.fresh.Wf := by constructor <;> simp [Req.fresh, Pc.awaitsSlot]

/-- The accounts after a move: the request is well formed, no permit appears or
disappears, and the request is orphaned if it was or if the move leaks. -/
structure Move.Accounts (r : Req) (sem : ℕ) (kind : Move.Kind) (m : Move) : Prop where
  wf : m.req.Wf
  balance : m.sem + held m.req = sem + held r
  orphan : orphaned m.req = orphaned r + (leaks r kind).toNat

/-! ### Moves away from the await

Off the await only the program counter matters: the future, if there is one, has
handed its permit over, and no callback is left. -/

theorem Req.Wf.late_eq_none {r : Req} (hr : r.Wf) (hend : r.pc ≠ .ended) : r.late = .none := by
  by_contra hlate
  exact hend (hr.late hlate)

/-- The permits accounted to a request that has left its await and leaves no
callback behind. -/
theorem held_of_not_await {r : Req} (hawait : r.pc.awaitsSlot = false) (hlate : r.late = .none) :
    held r = r.pc.holds.toNat + (decide (r.job = .acquired)).toNat + r.lost.toNat := by
  simp [held, Req.inFuture, hawait, hlate]

/-- **A move that touches neither the await nor the future** keeps the accounts if
the semaphore pays for what the program counter takes. -/
theorem accounts_of_pc {r : Req} {sem : ℕ} {kind : Move.Kind} {m : Move} (hr : r.Wf)
    (hkind : leaks r kind = false) (hend : r.pc ≠ .ended) (hawait : r.pc.awaitsSlot = false)
    (hreq : m.req = { r with pc := m.req.pc, queue := m.req.queue }) (hidle : m.req.pc ≠ .idle)
    (hawait' : m.req.pc.awaitsSlot = false)
    (hsem : m.sem + m.req.pc.holds.toNat = sem + r.pc.holds.toNat) : m.Accounts r sem kind := by
  have hlate : r.late = .none := hr.late_eq_none hend
  have hfut : m.req.fut = r.fut := by rw [hreq]
  have hjob : m.req.job = r.job := by rw [hreq]
  have hlate' : m.req.late = .none := by rw [hreq]; exact hlate
  refine ⟨⟨fun h => absurd h hidle, fun h => ?_, ?_, ?_, fun h h' => ?_, fun h => ?_⟩, ?_, ?_⟩
  · exact ⟨hfut.trans (hr.noJob (hjob.symm.trans h)).1, hawait'⟩
  · rw [hfut, hjob]; exact hr.resolved
  · rw [hfut, hjob]; exact hr.returned
  · rw [hjob] at h
    rw [hfut] at h'
    exact absurd (hr.awaited h h') (by simp [hawait])
  · exact absurd hlate' h
  · have hlost : m.req.lost = r.lost := by simp [Req.lost, hfut, hjob]
    rw [held_of_not_await hawait hlate, held_of_not_await hawait' hlate', hjob, hlost]
    omega
  · rw [hkind, orphaned, orphaned, hfut, hjob]; rfl

/-! ### The straight-line code -/

theorem advanceSend_accounts {closed : Bool} {sem : ℕ} {r : Req} {fail : Bool} {m : Move}
    (hr : r.Wf) (h : advanceSend closed sem r fail = some m) :
    m.Accounts r sem (.advance fail) := by
  unfold advanceSend at h
  split at h
  case h_1 hpc =>
    split at h <;> cases h <;> refine accounts_of_pc hr rfl ?_ ?_ rfl ?_ ?_ ?_ <;>
      simp [hpc, Pc.holds, Pc.awaitsSlot]
  case h_2 hpc =>
    cases h
    refine accounts_of_pc hr rfl ?_ ?_ rfl ?_ ?_ ?_ <;> simp [hpc, Pc.holds, Pc.awaitsSlot]
  case h_3 hpc =>
    split at h <;> cases h <;> refine accounts_of_pc hr rfl ?_ ?_ rfl ?_ ?_ ?_ <;>
      simp [hpc, Pc.holds, Pc.awaitsSlot]
  case h_4 hpc =>
    cases h
    refine accounts_of_pc hr rfl ?_ ?_ rfl ?_ ?_ ?_ <;> simp [hpc, Pc.holds, Pc.awaitsSlot]
  case h_5 natural hpc =>
    cases h
    refine accounts_of_pc hr rfl ?_ ?_ rfl ?_ ?_ ?_ <;> cases natural <;>
      simp [hpc, Pc.holds, Pc.awaitsSlot]
  case h_6 hpc =>
    cases h
    refine accounts_of_pc hr rfl ?_ ?_ rfl ?_ ?_ ?_ <;> simp [hpc, Pc.holds, Pc.awaitsSlot]
  case h_7 => cases h

theorem advanceRequest_accounts {closed : Bool} {sem : ℕ} {r : Req} {fail : Bool} {m : Move}
    (hr : r.Wf) (h : advanceRequest closed sem r fail = some m) :
    m.Accounts r sem (.advanceSync fail) := by
  unfold advanceRequest at h
  split at h
  case h_1 hpc =>
    cases h
    refine accounts_of_pc hr rfl ?_ ?_ rfl ?_ ?_ ?_ <;> cases closed <;>
      simp [hpc, Pc.holds, Pc.awaitsSlot]
  case h_2 hpc =>
    cases h
    refine accounts_of_pc hr rfl ?_ ?_ rfl ?_ ?_ ?_ <;> cases fail <;>
      simp [hpc, Pc.holds, Pc.awaitsSlot]
  case h_3 hpc =>
    cases h
    refine accounts_of_pc hr rfl ?_ ?_ rfl ?_ ?_ ?_ <;> simp [hpc, Pc.holds, Pc.awaitsSlot]
  case h_4 hpc =>
    split at h <;> cases h <;> refine accounts_of_pc hr rfl ?_ ?_ rfl ?_ ?_ ?_ <;>
      simp [hpc, Pc.holds, Pc.awaitsSlot]
  case h_5 hpc =>
    cases h
    refine accounts_of_pc hr rfl ?_ ?_ rfl ?_ ?_ ?_ <;> simp [hpc, Pc.holds, Pc.awaitsSlot]
  case h_6 hpc =>
    cases h
    refine accounts_of_pc hr rfl ?_ ?_ rfl ?_ ?_ ?_ <;> simp [hpc, Pc.holds, Pc.awaitsSlot]
  case h_7 => cases h

/-! ### The await on the acquire -/

theorem sendRequest_accounts {cfg : Cfg} {sem : ℕ} {r : Req} {fail : Bool} {m : Move}
    (hr : r.Wf) (hpc : r.pc = .idle) (h : sendRequest cfg sem r fail = some m) :
    m.Accounts r sem (.send fail) := by
  obtain ⟨hjob, hfut⟩ := hr.idle hpc
  have hlate : r.late = .none := hr.late_eq_none (by simp [hpc])
  unfold sendRequest at h
  split at h
  · cases h
    refine accounts_of_pc hr rfl ?_ ?_ rfl ?_ ?_ ?_ <;> simp [hpc, Pc.holds, Pc.awaitsSlot]
  split at h
  · -- the job is queued and the task awaits its future
    cases h
    refine ⟨by constructor <;> simp [hfut, hlate, Pc.awaitsSlot], ?_, ?_⟩
    · simp [held, Req.inFuture, Req.lost, hpc, hfut, hjob, Pc.holds]
    · simp [orphaned, leaks, hfut]
  split at h <;> cases h <;> refine accounts_of_pc hr rfl ?_ ?_ rfl ?_ ?_ ?_ <;>
    simp [hpc, Pc.holds, Pc.awaitsSlot]
  omega

theorem resumeAcquire_accounts {sem : ℕ} {r : Req} {mustCancel : Bool} {m : Move} (hr : r.Wf)
    (hpc : r.pc = .acquiring mustCancel) (h : resumeAcquire sem r mustCancel = some m) :
    m.Accounts r sem .resume := by
  have hlate : r.late = .none := hr.late_eq_none (by simp [hpc])
  have hjob : r.job ≠ .none := fun hjob => by simpa [hpc, Pc.awaitsSlot] using (hr.noJob hjob).2
  unfold resumeAcquire at h
  split at h
  case h_1 => cases h
  case h_2 hfut =>
    have hret := hr.resolved hfut
    split at h <;> cases h
    all_goals
      refine ⟨by constructor <;> simp [hfut, hret, hlate], ?_, ?_⟩
      · simp [held, Req.inFuture, Req.lost, hpc, hfut, hret, hlate, Pc.holds, Pc.awaitsSlot]
      · simp [orphaned, leaks, hfut]
  case h_3 hfut =>
    cases h
    refine ⟨by constructor <;> simp [hfut, hjob], ?_, ?_⟩
    · simp [held, Req.inFuture, Req.lost, hpc, hfut, Pc.holds]
    · simp [orphaned, leaks, hfut]

theorem cancelTask_accounts {sem : ℕ} {r : Req} {m : Move} (hr : r.Wf)
    (h : cancelTask sem r = some m) : m.Accounts r sem .cancelTask := by
  unfold cancelTask at h
  split at h
  case h_1 b hpc =>
    have hlate : r.late = .none := hr.late_eq_none (by simp [hpc])
    have hjob : r.job ≠ .none := fun hjob => by simpa [hpc, Pc.awaitsSlot] using (hr.noJob hjob).2
    split at h <;> cases h
    case h_1 hfut =>
      -- the future is cancelled under the job
      have hret : r.job ≠ .returned := fun h => hr.returned h hfut
      refine ⟨by constructor <;> simp [hpc, hjob, hlate], ?_, ?_⟩
      · simp [held, Req.inFuture, Req.lost, hpc, hfut, hret, hlate]
      · cases hj : r.job <;> simp_all [orphaned, leaks, Pc.awaitsSlot]
    all_goals
      rename_i hfut
      refine ⟨by constructor <;> simp [hfut, hlate, hr.resolved, hjob, Pc.awaitsSlot], ?_, ?_⟩
      · simp [held, Req.inFuture, Req.lost, hpc, hfut, Pc.holds, Pc.awaitsSlot]
      · simp [orphaned, leaks, hfut]
  case h_2 hpc =>
    cases h
    refine accounts_of_pc hr ?_ ?_ ?_ rfl ?_ ?_ ?_ <;>
      simp [hpc, leaks, Pc.holds, Pc.awaitsSlot]
  case h_3 => cases h

theorem lateCallback_accounts {sem : ℕ} {r : Req} {m : Move} (hr : r.Wf)
    (h : lateCallback sem r = some m) : m.Accounts r sem .lateCallback := by
  unfold lateCallback at h
  split at h
  case isTrue hlate =>
    have hpc : r.pc = .ended := hr.late (by simp [hlate])
    split at h <;> cases h
    all_goals
      rename_i hfut
      refine ⟨⟨by simp [hpc], hr.noJob, hr.resolved, hr.returned, hr.awaited, by simp [hpc]⟩,
        ?_, ?_⟩
      · simp [held, Req.inFuture, Req.lost, hpc, hfut, hlate, Pc.holds, Pc.awaitsSlot]
        try omega
      · simp [orphaned, leaks, hfut]
  case isFalse => cases h

/-! ### The executor job -/

theorem jobStart_accounts {sem : ℕ} {r : Req} (hr : r.Wf) (hjob : r.job = .queued) :
    Move.Accounts r sem .jobStart { req := { r with job := .blocked }, sem := sem } := by
  have hfut : r.fut ≠ .done := fun h => by simpa [hjob] using hr.resolved h
  have haw := hr.awaited
  refine ⟨⟨?_, by simp, fun h => absurd h hfut, by simp, ?_, hr.late⟩, ?_, ?_⟩
  · intro hpc
    simpa [hjob] using (hr.idle hpc).1
  · exact fun _ h => haw (by simp [hjob]) h
  · simp [held, Req.inFuture, Req.lost, hjob, hfut]
  · by_cases hc : r.fut = .cancelled <;> simp [orphaned, leaks, hjob, hc]

theorem jobAcquire_accounts {sem : ℕ} {r : Req} (hr : r.Wf) (hjob : r.job = .blocked)
    (hsem : 0 < sem) :
    Move.Accounts r sem .jobAcquire { req := { r with job := .acquired }, sem := sem - 1 } := by
  have hfut : r.fut ≠ .done := fun h => by simpa [hjob] using hr.resolved h
  have haw := hr.awaited
  refine ⟨⟨?_, by simp, fun h => absurd h hfut, by simp, ?_, hr.late⟩, ?_, ?_⟩
  · intro hpc
    simpa [hjob] using (hr.idle hpc).1
  · exact fun _ h => haw (by simp [hjob]) h
  · simp [held, Req.inFuture, Req.lost, hjob, hfut]
    omega
  · simp [orphaned, leaks, hjob]

/-- Where the permit of a returning job goes: into the live future, or nowhere. -/
theorem jobReturn_accounts {sem : ℕ} {r : Req} (hr : r.Wf) (hjob : r.job = .acquired) :
    Move.Accounts r sem .jobReturn
      { req := { r with job := .returned, fut := r.fut.setResult }, sem := sem } := by
  have hfut : r.fut ≠ .done := fun h => by simpa [hjob] using hr.resolved h
  have hidle : r.pc ≠ .idle := fun hpc => by simpa [hjob] using (hr.idle hpc).1
  by_cases hc : r.fut = .cancelled
  · refine ⟨⟨fun h => absurd h hidle, by simp, by simp, by simp [hc], by simp [hc], hr.late⟩,
      ?_, ?_⟩
    · simp [held, Req.inFuture, Req.lost, hjob, hc]
    · simp [orphaned, leaks, hjob, hc]
  · have hpend : r.fut = .pending := by cases hf : r.fut <;> simp_all
    have haw : r.pc.awaitsSlot = true := hr.awaited (by simp [hjob]) hpend
    refine ⟨⟨fun h => absurd h hidle, by simp, by simp, by simp [hpend], by simp [hpend], hr.late⟩,
      ?_, ?_⟩
    · simp [held, Req.inFuture, Req.lost, hjob, hpend, haw]
    · simp [orphaned, leaks, hpend]

theorem jobCancel_accounts {sem : ℕ} {r : Req} (hr : r.Wf) (hfut : r.fut = .cancelled)
    (hjob : r.job = .queued) :
    Move.Accounts r sem .jobCancel { req := { r with job := .cancelled }, sem := sem } := by
  have hidle : r.pc ≠ .idle := fun hpc => by simpa [hjob] using (hr.idle hpc).1
  refine ⟨⟨fun h => absurd h hidle, by simp, by simp [hfut], by simp, by simp [hfut], hr.late⟩,
    ?_, ?_⟩
  · simp [held, Req.inFuture, Req.lost, hjob, hfut]
  · simp [orphaned, leaks, hjob]

/-- **One move keeps the accounts.** -/
theorem agentStep_accounts {cfg : Cfg} {closed : Bool} {sem : ℕ} {r : Req} {kind : Move.Kind}
    {m : Move} (hr : r.Wf) (h : agentStep cfg closed sem r kind = some m) :
    m.Accounts r sem kind := by
  cases kind <;> simp only [agentStep] at h
  case send fail =>
    split at h
    · exact sendRequest_accounts hr ‹_› h
    · cases h
  case jobStart =>
    split at h <;> cases h
    exact jobStart_accounts hr ‹_›
  case jobAcquire =>
    split at h <;> cases h
    rename_i hcond
    exact jobAcquire_accounts hr hcond.1 hcond.2
  case jobReturn =>
    split at h <;> cases h
    exact jobReturn_accounts hr ‹_›
  case jobCancel =>
    split at h <;> cases h
    rename_i hcond
    exact jobCancel_accounts hr hcond.1 hcond.2
  case resume =>
    split at h
    · exact resumeAcquire_accounts hr ‹_› h
    · cases h
  case lateCallback => exact lateCallback_accounts hr h
  case cancelTask => exact cancelTask_accounts hr h
  case advance fail => exact advanceSend_accounts hr h
  case advanceSync fail => exact advanceRequest_accounts hr h
  case next =>
    split at h <;> cases h
    rename_i event hpc
    refine accounts_of_pc hr rfl ?_ ?_ rfl ?_ ?_ ?_ <;> cases event.terminal <;>
      simp [hpc, Pc.holds, Pc.awaitsSlot]
  case nextSync =>
    split at h <;> cases h
    rename_i event hpc
    refine accounts_of_pc hr rfl ?_ ?_ rfl ?_ ?_ ?_ <;> cases event.terminal <;>
      simp [hpc, Pc.holds, Pc.awaitsSlot]
  case request =>
    split at h
    · rename_i hpc
      split at h
      · cases h
        refine accounts_of_pc hr rfl ?_ ?_ rfl ?_ ?_ ?_ <;> simp [hpc, Pc.holds, Pc.awaitsSlot]
      split at h <;> cases h <;> refine accounts_of_pc hr rfl ?_ ?_ rfl ?_ ?_ ?_ <;>
        simp [hpc, Pc.holds, Pc.awaitsSlot]
      omega
    · cases h
  case take =>
    split at h <;> cases h
    rename_i hcond
    refine accounts_of_pc hr rfl ?_ ?_ rfl ?_ ?_ ?_ <;> simp [hcond.1, Pc.holds, Pc.awaitsSlot]
    omega
  case getEvent =>
    split at h
    · split at h <;> cases h <;> refine accounts_of_pc hr rfl ?_ ?_ rfl ?_ ?_ ?_ <;>
        simp_all [Pc.holds, Pc.awaitsSlot]
    · cases h
  case readEvent =>
    split at h
    · split at h <;> cases h <;> refine accounts_of_pc hr rfl ?_ ?_ rfl ?_ ?_ ?_ <;>
        simp_all [Pc.holds, Pc.awaitsSlot]
    · cases h
  all_goals
    -- `q.get` raises, or the consumer closes at the `yield`
    split at h <;> cases h
    refine accounts_of_pc hr rfl ?_ ?_ rfl ?_ ?_ ?_ <;> simp_all [Pc.holds, Pc.awaitsSlot]

/-! ### The whole multiplexer -/

variable {ι ρ : Type} [DecidableEq ι] [DecidableEq ρ] {cfg : Cfg} {rid : ι → ρ}

omit [DecidableEq ρ] in
/-- A put fills one queue. -/
theorem put_req (s : State ι ρ) (i : ι) (event : Event) (j : ι) :
    ∃ queue, (s.put i event).req j = { s.req j with queue := queue } := by
  by_cases hij : j = i
  · subst hij
    exact ⟨_, Function.update_self ..⟩
  · exact ⟨(s.req j).queue, Function.update_of_ne hij ..⟩

omit [DecidableEq ρ] in
/-- Waking every request fills queues. -/
theorem wakeAll_req (s : State ι ρ) (j : ι) :
    ∃ queue, (s.wakeAll rid).req j = { s.req j with queue := queue } := by
  unfold State.wakeAll
  dsimp only
  split
  · exact ⟨_, rfl⟩
  · exact ⟨(s.req j).queue, rfl⟩

variable [Fintype ι]

/-- The balance of a state: every request is well formed, and the permits in the
semaphore and those accounted to the requests are `max_slots` together. -/
structure Balanced (cfg : Cfg) (s : State ι ρ) : Prop where
  wf : ∀ i, (s.req i).Wf
  sum : s.sem + Agents.total held s.req = cfg.maxSlots

omit [DecidableEq ι] [DecidableEq ρ] in
theorem balanced_start : Balanced cfg (State.start cfg : State ι ρ) where
  wf := fun _ => Req.fresh_wf
  sum := by
    have : Agents.total held (State.start cfg : State ι ρ).req = 0 :=
      Agents.total_eq_zero fun _ => rfl
    rw [this]
    rfl

omit [DecidableEq ι] [DecidableEq ρ] in
/-- Filling queues moves no permit. -/
theorem Balanced.of_queues {s s' : State ι ρ} (hs : Balanced cfg s) (hsem : s'.sem = s.sem)
    (hreq : ∀ i, ∃ queue, s'.req i = { s.req i with queue := queue }) : Balanced cfg s' where
  wf := by
    intro i
    obtain ⟨queue, hq⟩ := hreq i
    obtain ⟨h1, h2, h3, h4, h5, h6⟩ := hs.wf i
    exact hq ▸ ⟨h1, h2, h3, h4, h5, h6⟩
  sum := by
    have : Agents.total held s'.req = Agents.total held s.req :=
      Finset.sum_congr rfl fun i _ => by
        obtain ⟨queue, hq⟩ := hreq i
        rw [hq]; rfl
    rw [hsem, this, hs.sum]

/-- The requests cancelled under a running acquire. -/
def State.orphans (s : State ι ρ) : ℕ := Agents.total orphaned s.req

/-- The action is not a leaking move. -/
def NoLeak (s : State ι ρ) : Act ι ρ → Prop
  | .move i kind => leaks (s.req i) kind = false
  | _ => True

instance (s : State ι ρ) (a : Act ι ρ) : Decidable (NoLeak s a) := by
  cases a <;> unfold NoLeak <;> infer_instance

/-- **The step lemma**: a step keeps the balance, and raises the number of orphaned
requests by one exactly when it is a leaking move. -/
theorem step_balanced {s s' : State ι ρ} {a : Act ι ρ} (hs : Balanced cfg s)
    (h : step cfg rid s a = some s') :
    Balanced cfg s' ∧ s'.orphans = s.orphans + if NoLeak s a then 0 else 1 := by
  have hqueues : ∀ t : State ι ρ, t.sem = s.sem →
      (∀ i, ∃ queue, t.req i = { s.req i with queue := queue }) →
      Balanced cfg t ∧ t.orphans = s.orphans := fun t hsem hreq =>
    ⟨hs.of_queues hsem hreq, Finset.sum_congr rfl fun i _ => by
      obtain ⟨queue, hq⟩ := hreq i
      rw [hq]; rfl⟩
  cases a with
  | move i kind =>
    obtain ⟨m, hm, rfl⟩ := Option.map_eq_some_iff.mp h
    have hacc := agentStep_accounts (hs.wf i) hm
    have htotal := Agents.total_update_add held s.req i m.req
    have horph := Agents.total_update_add orphaned s.req i m.req
    have hbal := hacc.balance
    have hsum := hs.sum
    refine ⟨⟨fun j => ?_, ?_⟩, ?_⟩
    · by_cases hij : j = i
      · subst hij
        simpa [State.apply] using hacc.wf
      · simpa [State.apply, Function.update_of_ne hij] using hs.wf j
    · simp only [State.apply]
      omega
    · have horphan := hacc.orphan
      simp only [State.apply, State.orphans]
      by_cases hleak : NoLeak s (.move i kind)
      · have hno : leaks (s.req i) kind = false := hleak
        rw [hno, Bool.toNat_false] at horphan
        rw [if_pos hleak]
        omega
      · have hyes : leaks (s.req i) kind = true := by simpa [NoLeak] using hleak
        rw [hyes, Bool.toNat_true] at horphan
        rw [if_neg hleak]
        omega
  | close => cases h; exact ⟨⟨hs.wf, hs.sum⟩, rfl⟩
  | closeDrain =>
    simp only [step] at h
    split at h <;> cases h
    exact hqueues _ rfl (wakeAll_req s)
  | line id event =>
    simp only [step] at h
    split at h <;> cases h
    · exact ⟨hs, rfl⟩
    · exact hqueues _ rfl (put_req s _ event)
  | eof => cases h; exact hqueues _ rfl (wakeAll_req s)

/-- **The run lemma**: permits are conserved along every run. -/
theorem run_balanced {as : List (Act ι ρ)} {s : State ι ρ}
    (hrun : (machine cfg rid).run as = some s) : Balanced cfg s :=
  (machine cfg rid).invariant_of_step balanced_start (fun _ _ _ hs h => (step_balanced hs h).1) hrun

/-- **At no time of a run** are there more free permits and requests between their acquire and
their release than slots: none is released twice, and none is held by two. -/
theorem sem_add_holders_le {as : List (Act ι ρ)} {s : State ι ρ}
    (hrun : (machine cfg rid).run as = some s) :
    s.sem + Agents.total (fun r => r.pc.holds.toNat) s.req ≤ cfg.maxSlots := by
  have hsum := (run_balanced hrun).sum
  have hholds : Agents.total (fun r => r.pc.holds.toNat) s.req ≤ Agents.total held s.req := by
    refine Agents.total_le_total fun i => ?_
    unfold held
    omega
  omega

/-! ### Quiet states -/

/-- All requests have ended, no executor thread is in `acquire` or on its way out of
it, and no done-callback is waiting for its turn on the event loop. -/
def Quiescent (s : State ι ρ) : Prop :=
  ∀ i, ((s.req i).pc = .idle ∨ (s.req i).pc = .ended) ∧
    ((s.req i).job ≠ .queued ∧ (s.req i).job ≠ .blocked ∧ (s.req i).job ≠ .acquired) ∧
    (s.req i).late ≠ .scheduled

instance (s : State ι ρ) : Decidable (Quiescent s) := by
  unfold Quiescent; infer_instance

omit [DecidableEq ι] [DecidableEq ρ] [Fintype ι] in
/-- In a quiet state only the orphaned requests keep a permit. -/
theorem held_eq_orphaned {s : State ι ρ} (hq : Quiescent s) (i : ι) :
    held (s.req i) = orphaned (s.req i) := by
  obtain ⟨hpc, ⟨_, hblocked, hacquired⟩, hlate⟩ := hq i
  have hholds : (s.req i).pc.holds = false := by rcases hpc with h | h <;> rw [h] <;> rfl
  have hawait : (s.req i).pc.awaitsSlot = false := by rcases hpc with h | h <;> rw [h] <;> rfl
  by_cases hc : (s.req i).fut = .cancelled <;> by_cases hj : (s.req i).job = .returned <;>
    simp [held, orphaned, Req.inFuture, Req.lost, hholds, hawait, hblocked, hacquired, hlate, hc, hj]

/-- **Once all is quiet the semaphore is whole exactly when no move leaked.** -/
theorem quiescent_sem_eq_iff (cfg : Cfg) (rid : ι → ρ) (as : List (Act ι ρ)) (s : State ι ρ)
    (hrun : (machine cfg rid).run as = some s) (hq : Quiescent s) :
    s.sem = cfg.maxSlots ↔ (machine cfg rid).Guarded NoLeak (State.start cfg) as := by
  have hsum := (run_balanced hrun).sum
  have horph : Agents.total held s.req = s.orphans := Agents.total_congr (held_eq_orphaned hq)
  have hstart : (State.start cfg : State ι ρ).orphans = 0 := Agents.total_eq_zero fun _ => rfl
  have hcount := ((machine cfg rid).guarded_iff_of_measure NoLeak State.orphans
    (fun _ _ _ hs h => (step_balanced hs h).1) (fun _ _ _ hs h => (step_balanced hs h).2)
    balanced_start hrun).2
  rw [hcount, hstart]
  omega

/-- One request runs from its acquire to the worker's `done` event. -/
def plainRun (i : Fin 2) : List (Act (Fin 2) (Fin 2)) :=
  [.move i (.send false), .move i .jobStart, .move i .jobAcquire, .move i .jobReturn,
    .move i .resume, .move i (.advance false), .move i (.advance false), .move i (.advance false),
    .line i .done, .move i .getEvent, .move i .next, .move i (.advance false),
    .move i (.advance false)]

/-- While the worker answers the first request, its permit is the only one. -/
theorem sem_add_holders_le_plainRun :
    ∃ s, (machine ⟨1, true⟩ id).run ((plainRun 0).take 8) = some s ∧
      s.sem + Agents.total (fun r => r.pc.holds.toNat) s.req ≤ 1 :=
  ⟨_, rfl, sem_add_holders_le (show (machine ⟨1, true⟩ id).run ((plainRun 0).take 8) = some _ from rfl)⟩

/-- A guarded run of one request gives its permit back. -/
theorem quiescent_sem_eq_iff_plainRun :
    ∃ s, (machine ⟨1, true⟩ id).run (plainRun 0) = some s ∧ s.sem = 1 :=
  ⟨_, rfl, (quiescent_sem_eq_iff ⟨1, true⟩ id (plainRun 0) _ rfl (by decide)).mpr (by decide)⟩

/-- The second request is cancelled while its executor thread waits for the only
permit, which the first one then gives back. -/
def cancelledWaiterRun : List (Act (Fin 2) (Fin 2)) :=
  (plainRun 0).take 8 ++
    ([.move 1 (.send false), .move 1 .jobStart, .move 1 .cancelTask] : List (Act (Fin 2) (Fin 2))) ++
    (plainRun 0).drop 8 ++
    ([.move 1 .resume, .move 1 .lateCallback, .move 1 .jobAcquire, .move 1 .jobReturn] : List (Act (Fin 2) (Fin 2)))

/-- **The permit of a waiter cancelled during its acquire is lost**: all requests
have ended, nobody is in `acquire`, and the semaphore of one slot is empty. -/
theorem cancelledWaiterRun_loses_permit :
    ∃ s, (machine ⟨1, true⟩ id).run cancelledWaiterRun = some s ∧ Quiescent s ∧ s.sem = 0 :=
  ⟨_, rfl, by decide, by decide⟩

end WorkerIO
end OpenVoiceStream
