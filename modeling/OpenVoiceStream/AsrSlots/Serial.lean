import OpenVoiceStream.AsrSlots.Drain

/-!
# Sentence-level slots keep inference serial

The gate counts the handlers in their slots, not the threads.  What ties the two is that
a handler has a thread inside the backend only while it has a permit, and one thread at
most.  The invariant says that the gate and the coordinator have every handler where it
stands, so that handlers that have ended have left both.

## Main definitions

* `Sys.Inv` — the invariant.

## Main results

* `step_inv` — every step keeps the invariant, if it cancels no handler for a second time.
* `serial_of_run` — the threads inside the backend are no more than the gate admits, and
  handlers that have ended hold nothing.
-/

namespace OpenVoiceStream
namespace AsrSlots

open AsrInferGate (Gate Task)

section System

variable {ι : Type} [DecidableEq ι] [Fintype ι] {cfg : Cfg} {s s' : Sys ι} {i : ι} {h : Handler}

/-- The gate and the coordinator have every handler where it stands, and each handler
waits for its threads. -/
structure Sys.Inv (cfg : Cfg) (s : Sys ι) : Prop where
  gate : AsrInferGate.Inv cfg.gate.concurrency 0 s.gate
  coord : s.coord.Inv
  unlocked : s.coord.mode = .concurrent → s.coord.lock = none
  place : ∀ i, place (s.gate.task i) = (s.handler i).pc.place
  inside : ∀ i, s.coord.inside i = (s.handler i).pc.inSlot
  ok : ∀ i, (s.handler i).Ok

theorem inv_init (cfg : Cfg) : (machine cfg : Machine (Sys ι) _).init.Inv cfg where
  gate := AsrInferGate.inv_start _
  coord := Coordinator.inv_start _
  unlocked _ := rfl
  place _ := rfl
  inside _ := rfl
  ok _ := Handler.ok_fresh

/-- One handler moves, and the gate and the coordinator with it. -/
theorem Sys.Inv.move (hs : s.Inv cfg) {g : Gate ι} {c : Coordinator ι}
    (hgate : AsrInferGate.Inv cfg.gate.concurrency 0 g) (hcoord : c.Inv)
    (hunlocked : c.mode = .concurrent → c.lock = none)
    (hframe : ∀ j, j ≠ i → AsrSlots.place (g.task j) = AsrSlots.place (s.gate.task j))
    (hplace : AsrSlots.place (g.task i) = h.pc.place)
    (hother : ∀ j, j ≠ i → c.inside j = s.coord.inside j) (hin : c.inside i = h.pc.inSlot)
    (hok : h.Ok) :
    Sys.Inv cfg { gate := g, coord := c, handler := Function.update s.handler i h } := by
  refine ⟨hgate, hcoord, hunlocked, fun j => ?_, fun j => ?_, fun j => ?_⟩
  all_goals
    by_cases hj : j = i
    on_goal 1 =>
      subst hj
      simp only [Function.update_self]
      assumption
    simp only [Function.update_of_ne hj]
  · exact (hframe j hj).trans (hs.place j)
  · exact (hother j hj).trans (hs.inside j)
  · exact hs.ok j

/-- A handler with nothing under way moves at the gate. -/
theorem Sys.Inv.afterGate (hs : s.Inv cfg) {a : AsrInferGate.Act ι} {g : Gate ι} {out : Pc}
    (hg : AsrInferGate.step cfg.gate s.gate a = some g) (ha : actor a = i)
    (hout : out = .idle ∨ out = .ended) (hin : (s.handler i).pc.inSlot = false)
    (hjobs : h.slotFrom ≤ h.jobs.length ∧ ∀ job ∈ h.jobs, job.done = true) :
    (s.afterGate i g h out).Inv cfg := by
  have hframe : ∀ j, j ≠ i → AsrSlots.place (g.task j) = AsrSlots.place (s.gate.task j) :=
    fun j hj => place_of_ne hg (ha ▸ hj)
  have hgate := AsrInferGate.step_inv hs.gate hg
  have hinside : s.coord.inside i = false := (hs.inside i).trans hin
  rw [Sys.afterGate, Sys.put]
  rcases htask : g.task i with _ | ⟨fut, mc⟩ | _
  · rcases hout with rfl | rfl
    · exact hs.move hgate hs.coord hs.unlocked hframe (by rw [htask]; rfl) (fun _ _ => rfl)
        hinside hjobs
    · exact hs.move hgate hs.coord hs.unlocked hframe (by rw [htask]; rfl) (fun _ _ => rfl)
        hinside hjobs
  · exact hs.move hgate hs.coord hs.unlocked hframe (by rw [htask]; rfl) (fun _ _ => rfl)
      hinside hjobs
  · exact hs.move hgate hs.coord hs.unlocked hframe (by rw [htask]; rfl) (fun _ _ => rfl)
      hinside hjobs

/-- A handler moves, and what its move does to the gate and to the coordinator. -/
theorem Sys.Inv.apply (hs : s.Inv cfg) {op : SlotOp} (hbetween : op.Between (s.handler i).pc h.pc)
    (hok : h.Ok) (happly : (s.put i h).apply cfg i op = some s') : s'.Inv cfg := by
  cases op with
  | keep =>
    obtain ⟨hplace, hin⟩ := hbetween
    cases happly
    exact hs.move hs.gate hs.coord hs.unlocked (fun _ _ => rfl) ((hs.place i).trans hplace.symm)
      (fun _ _ => rfl) ((hs.inside i).trans hin.symm) hok
  | enter =>
    obtain ⟨hfrom, -, hplace, hin⟩ := hbetween
    obtain ⟨hfree, heq⟩ := Option.ite_none_right_eq_some.mp happly
    cases heq
    refine hs.move hs.gate (hs.coord.enter hfree) ?_ (fun _ _ => rfl)
      ((hs.place i).trans (hfrom.trans hplace.symm)) (fun j hj => ?_) ?_ hok
    · intro hmode
      rw [Coordinator.enter_mode] at hmode
      rw [Coordinator.enter, if_pos hmode]
      exact hs.unlocked hmode
    · rw [Coordinator.enter_inside, Function.update_of_ne hj]
      rfl
    · rw [Coordinator.enter_inside, Function.update_self, hin]
  | leave =>
    obtain ⟨-, hheld, hplace, hin⟩ := hbetween
    obtain ⟨g, hg, heq⟩ := Option.map_eq_some_iff.mp happly
    cases heq
    refine hs.move (AsrInferGate.step_inv hs.gate hg)
      (hs.coord.leave ((hs.inside i).trans hheld)) ?_ (fun j hj => place_of_ne hg hj)
      ((place_of_exit hg).trans hplace.symm) (fun j hj => ?_) ?_ hok
    · intro hmode
      rw [Coordinator.leave_mode] at hmode
      rw [Coordinator.leave, if_pos hmode]
      exact hs.unlocked hmode
    · rw [Coordinator.leave_inside, Function.update_of_ne hj]
      rfl
    · rw [Coordinator.leave_inside, Function.update_self, hin]
  | leaveGate =>
    obtain ⟨-, hheld, hplace, hin⟩ := hbetween
    obtain ⟨g, hg, heq⟩ := Option.map_eq_some_iff.mp happly
    cases heq
    exact hs.move (AsrInferGate.step_inv hs.gate hg) hs.coord hs.unlocked
      (fun j hj => place_of_ne hg hj) ((place_of_exit hg).trans hplace.symm) (fun _ _ => rfl)
      ((hs.inside i).trans (hheld.trans hin.symm)) hok

/-- **The step lemma.** -/
theorem step_inv {a : Act ι} (hs : s.Inv cfg) (honce : Once s a) (hstep : step cfg s a = some s') :
    s'.Inv cfg := by
  cases a with
  | acquire i =>
    obtain ⟨hpc, hstep⟩ := Option.ite_none_right_eq_some.mp hstep
    obtain ⟨g, hg, rfl⟩ := Option.map_eq_some_iff.mp hstep
    have hjobs := hs.ok i
    rw [Handler.Ok, hpc] at hjobs
    exact hs.afterGate hg rfl (Or.inl rfl) (by rw [hpc]; rfl) hjobs
  | permit i =>
    obtain ⟨hpc, hstep⟩ := Option.ite_none_right_eq_some.mp hstep
    obtain ⟨g, hg, rfl⟩ := Option.map_eq_some_iff.mp hstep
    have hjobs := hs.ok i
    rw [Handler.Ok, hpc] at hjobs
    exact hs.afterGate hg rfl (Or.inr rfl) (by rw [hpc]; rfl) hjobs
  | cancelAtGate i =>
    obtain ⟨hpc, hstep⟩ := Option.ite_none_right_eq_some.mp hstep
    obtain ⟨g, hg, rfl⟩ := Option.map_eq_some_iff.mp hstep
    have hjobs := hs.ok i
    rw [Handler.Ok, hpc] at hjobs
    exact hs.afterGate hg rfl (Or.inr rfl) (by rw [hpc]; rfl) hjobs
  | move i m =>
    obtain ⟨-, hstep⟩ := Option.ite_none_right_eq_some.mp hstep
    obtain ⟨⟨h, op⟩, hmove, happly⟩ := Option.bind_eq_some_iff.mp hstep
    have hfirst : m = .cancel → (s.handler i).cancels = 0 := by
      rintro rfl
      exact honce
    exact hs.apply (handlerStep_place hmove) (handlerStep_ok (hs.ok i) hfirst hmove) happly

/-! ### The threads and the permits -/

omit [DecidableEq ι] in
/-- Who has a thread in the backend has a permit. -/
theorem Sys.Inv.threads_le_permits (hs : s.Inv cfg) (i : ι) :
    (s.handler i).threads ≤ (s.gate.task i).permits := by
  have hle := (hs.ok i).threads_le
  split at hle
  · rename_i hin
    have hplace : AsrSlots.place (s.gate.task i) = .inside := by
      rw [hs.place i]
      cases hpc : (s.handler i).pc <;> rw [hpc] at hin <;> first | rfl | cases hin
    cases htask : s.gate.task i with
    | inside => exact hle
    | outside => rw [htask] at hplace; cases hplace
    | waiting fut mc => rw [htask] at hplace; cases hplace
  · exact hle.trans (Nat.zero_le _)

omit [DecidableEq ι] in
/-- The threads inside the backend are no more than the gate admits. -/
theorem Sys.Inv.threads_le (hs : s.Inv cfg) : s.threads ≤ cfg.gate.concurrency := by
  have hpermits : s.threads ≤ Agents.total Task.permits s.gate.task :=
    Agents.total_le_total hs.threads_le_permits
  have hrunning := hs.gate.running
  have hle := hs.gate.le
  omega

omit [DecidableEq ι] in
/-- Handlers that have ended hold no permit and no lock. -/
theorem Sys.Inv.released (hs : s.Inv cfg) (hended : ∀ i, (s.handler i).pc = .ended) :
    s.gate.running = 0 ∧ s.gate.waiters = [] ∧ s.coord.lock = none ∧
      ∀ i, s.coord.inside i = false := by
  have houtside : ∀ i, s.gate.task i = .outside := by
    intro i
    have hplace := hs.place i
    rw [hended i] at hplace
    cases htask : s.gate.task i with
    | outside => rfl
    | inside => rw [htask] at hplace; cases hplace
    | waiting fut mc => rw [htask] at hplace; cases hplace
  have hinside : ∀ i, s.coord.inside i = false := by
    intro i
    rw [hs.inside i, hended i]
    rfl
  refine ⟨?_, ?_, ?_, hinside⟩
  · have hzero : Agents.total Task.permits s.gate.task = 0 :=
      Agents.total_eq_zero fun i => by rw [houtside i]; rfl
    have hrunning := hs.gate.running
    omega
  · refine List.eq_nil_iff_forall_not_mem.mpr fun i hi => ?_
    exact AsrInferGate.not_mem_of_not_waiting hs.gate (by simp [houtside i]) hi
  · by_cases hmode : s.coord.mode = .concurrent
    · exact hs.unlocked hmode
    · refine Option.eq_none_iff_forall_ne_some.mpr fun i hi => ?_
      have := (hs.coord hmode i).mpr hi
      rw [hinside i] at this
      cases this

/-- **Inference stays serial.**  In every run in which no handler is cancelled twice, the
threads inside the backend are no more than the gate admits; and once every handler has
ended, no permit and no lock is held. -/
theorem serial_of_run (cfg : Cfg) (acts : List (Act ι)) (s : Sys ι)
    (honce : (machine cfg).Guarded Once (machine cfg).init acts)
    (hrun : (machine cfg).run acts = some s) :
    s.threads ≤ cfg.gate.concurrency ∧
      ((∀ i, (s.handler i).pc = .ended) →
        s.gate.running = 0 ∧ s.gate.waiters = [] ∧ s.coord.lock = none ∧
          ∀ i, s.coord.inside i = false) := by
  have hs : s.Inv cfg :=
    (machine cfg).invariant_of_guarded Once (inv_init cfg)
      (fun _ _ _ hinv hfirst hstep => step_inv hinv hfirst hstep) honce hrun
  exact ⟨hs.threads_le, hs.released⟩

end System

/-- The first of two handlers is cancelled while a thread is inside the backend for it.
It waits for the thread before the second one gets the permit. -/
def drainedRun : List (Act (Fin 2)) :=
  [.acquire 0, .move 0 (.lock false), .move 0 (.submit false), .move 0 (.start 0), .acquire 1,
    .move 0 .cancel, .move 0 (.wake false), .move 0 (.finish 0), .move 0 .drained, .permit 1,
    .move 1 (.lock false), .move 1 (.submit false), .move 1 (.start 0), .move 1 (.finish 0),
    .move 1 .deliver, .move 1 (.wake false), .move 1 (.leave true)]

/-- One permit, four threads and the lock of the coordinator. -/
def serialCfg : Cfg := { gate := ⟨1, none, le_rfl⟩, mode := .serialized, workers := 4 }

theorem serial_of_run_drainedRun :
    ∃ s, (machine serialCfg).run drainedRun = some s ∧ (∀ i, (s.handler i).pc = .ended) ∧
      s.threads ≤ 1 ∧ s.gate.running = 0 ∧ s.coord.lock = none := by
  refine ⟨_, rfl, by decide, ?_⟩
  have h := serial_of_run serialCfg drainedRun _ (by decide) rfl
  exact ⟨h.1, (h.2 (by decide)).1, (h.2 (by decide)).2.2.1⟩

/-- A second cancellation lets the slot go with a thread in the backend. -/
def twiceRun : List (Act (Fin 2)) :=
  [.acquire 0, .move 0 (.lock false), .move 0 (.submit false), .move 0 (.start 0), .acquire 1,
    .move 0 .cancel, .move 0 (.wake false), .move 0 .cancel, .move 0 .drained, .permit 1,
    .move 1 (.lock false), .move 1 (.submit false), .move 1 (.start 0)]

example : ((machine serialCfg).run twiceRun).map Sys.threads = some 2 := by decide

end AsrSlots
end OpenVoiceStream
