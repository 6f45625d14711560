import Mathlib.Logic.Function.Basic

/-!
# The backend coordinator

`BackendCoordinator.acquire` is a context around a backend call.  In the mode
`concurrent` it does nothing; in the two others its body runs under one
`asyncio.Lock` for both kinds of backends.  An `asyncio.Lock` is entered without an
await when it is free, and a task that is cancelled while it waits leaves without
the lock; whichever waiting task runs first when the lock is free takes it.

## Main definitions

* `Slot`, `Mode`, `Coordinator` — the two kinds, the modes, and who is in a context.
* `Coordinator.enter`, `Coordinator.leave` — the two ends of `acquire`.

## Main results

* `Coordinator.Inv.eq_of_inside` — outside the mode `concurrent` only one task is in a
  context.
-/

namespace OpenVoiceStream

/-- `Slot`. -/
inductive Slot
  | asr
  | tts
  deriving DecidableEq, Repr

/-- `self._mode`. -/
inductive Mode
  | concurrent
  | serialized
  | exclusive
  deriving DecidableEq, Repr

/-- The coordinator and the tasks in its contexts. -/
structure Coordinator (ι : Type) where
  mode : Mode
  /-- The task that holds `self._lock`. -/
  lock : Option ι
  /-- `self._active_slot`. -/
  activeSlot : Option Slot
  inside : ι → Bool

namespace Coordinator

variable {ι : Type} [DecidableEq ι] {c : Coordinator ι} {i j : ι} {slot : Slot}

/-- A new coordinator. -/
def start (mode : Mode) : Coordinator ι :=
  { mode := mode, lock := none, activeSlot := none, inside := fun _ => false }

/-- `acquire` needs no lock, or finds it free. -/
def free (c : Coordinator ι) : Bool := decide (c.mode = .concurrent) || c.lock.isNone

/-- `acquire` up to its `yield`, once the lock is free. -/
def enter (c : Coordinator ι) (i : ι) (slot : Slot) : Coordinator ι :=
  if c.mode = .concurrent then { c with inside := Function.update c.inside i true }
  else
    { c with
      lock := some i
      activeSlot := some slot
      inside := Function.update c.inside i true }

/-- `acquire` from its `yield` on. -/
def leave (c : Coordinator ι) (i : ι) : Coordinator ι :=
  if c.mode = .concurrent then { c with inside := Function.update c.inside i false }
  else { c with lock := none, inside := Function.update c.inside i false }

@[simp] theorem enter_mode : (c.enter i slot).mode = c.mode := by
  rw [enter]
  split <;> rfl

@[simp] theorem leave_mode : (c.leave i).mode = c.mode := by
  rw [leave]
  split <;> rfl

@[simp] theorem enter_inside : (c.enter i slot).inside = Function.update c.inside i true := by
  rw [enter]
  split <;> rfl

@[simp] theorem leave_inside : (c.leave i).inside = Function.update c.inside i false := by
  rw [leave]
  split <;> rfl

/-- The lock is with the one task that is in a context. -/
def Inv (c : Coordinator ι) : Prop :=
  c.mode ≠ .concurrent → ∀ i, c.inside i = true ↔ c.lock = some i

omit [DecidableEq ι] in
theorem inv_start (mode : Mode) : (start mode : Coordinator ι).Inv := by
  intro _ i
  simp [start]

theorem Inv.enter (h : c.Inv) (hfree : c.free = true) : (c.enter i slot).Inv := by
  intro hmode j
  rw [enter_mode] at hmode
  have hlock : c.lock = none := by simpa [free, hmode] using hfree
  have hout : c.inside j = false := by
    have := (h hmode j).not
    simpa [hlock] using this
  by_cases hj : j = i
  · subst hj
    simp [Coordinator.enter, hmode]
  · have hij : i ≠ j := fun h => hj h.symm
    simp [Coordinator.enter, hmode, hj, hij, hout]

theorem Inv.leave (h : c.Inv) (hi : c.inside i = true) : (c.leave i).Inv := by
  intro hmode j
  rw [leave_mode] at hmode
  have hlock := (h hmode i).mp hi
  by_cases hj : j = i
  · subst hj
    simp [Coordinator.leave, hmode]
  · have hout : c.inside j = false := by
      have := (h hmode j).not
      rw [hlock, Option.some_inj] at this
      simpa [show ¬ i = j from fun h => hj h.symm] using this
    simp [Coordinator.leave, hmode, hj, hout]

omit [DecidableEq ι] in
/-- **The lock excludes.** -/
theorem Inv.eq_of_inside (h : c.Inv) (hmode : c.mode ≠ .concurrent) (hi : c.inside i = true)
    (hj : c.inside j = true) : i = j := by
  have hlocki := (h hmode i).mp hi
  have hlockj := (h hmode j).mp hj
  rw [hlocki] at hlockj
  exact Option.some.inj hlockj

end Coordinator

end OpenVoiceStream
