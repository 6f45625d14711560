import Mathlib.Data.Option.Basic
import Mathlib.Logic.Function.Basic

/-!
# Layered tables

A table is a partial function from keys to values.  `overlay lower upper` is the
table that reads the upper layer first and falls back on the lower one, as a
configuration that is read from several places does.

Taking a key out of the composed table is not the same as taking it out of the
layer that holds it: the composed table loses what the other layers say about the
key.  `drop_overlay` says when the two agree.

## Main definitions

* `overlay lower upper` — the composed table.
* `drop t k` — the table `t` without the key `k`.

## Main results

* `drop_overlay` — dropping a key from an overlay is dropping it from the upper
  layer exactly when the lower layer does not hold it.
* `drop_overlay_lower` — the same for the lower layer.
-/

namespace OpenVoiceStream

variable {κ β : Type*}

/-- The table that reads `upper` first and falls back on `lower`. -/
def overlay (lower upper : κ → Option β) : κ → Option β := fun k => (upper k).or (lower k)

/-- A key of the upper layer is read there. -/
theorem overlay_of_some {lower upper : κ → Option β} {k : κ} {v : β} (h : upper k = some v) :
    overlay lower upper k = some v := by
  rw [overlay, h, Option.some_or]

/-- A key the upper layer does not hold is read in the lower one. -/
theorem overlay_of_none {lower upper : κ → Option β} {k : κ} (h : upper k = none) :
    overlay lower upper k = lower k := by
  rw [overlay, h, Option.none_or]

/-- A key is missing from an overlay when both layers miss it. -/
theorem overlay_eq_none {lower upper : κ → Option β} {k : κ} :
    overlay lower upper k = none ↔ upper k = none ∧ lower k = none :=
  Option.or_eq_none_iff

/-- The table without one key. -/
def drop [DecidableEq κ] (t : κ → Option β) (k : κ) : κ → Option β := Function.update t k none

@[simp] theorem drop_self [DecidableEq κ] (t : κ → Option β) (k : κ) : drop t k k = none :=
  Function.update_self ..

/-- The other keys stay. -/
theorem drop_of_ne [DecidableEq κ] {t : κ → Option β} {j k : κ} (h : j ≠ k) :
    drop t k j = t j :=
  Function.update_of_ne h ..

/-- Dropping a key the table does not hold changes nothing. -/
theorem drop_eq_self [DecidableEq κ] {t : κ → Option β} {k : κ} (h : t k = none) :
    drop t k = t :=
  Function.update_eq_self_iff.mpr h.symm

/-- Dropping a key drops it in both layers. -/
theorem drop_overlay_both [DecidableEq κ] (lower upper : κ → Option β) (k : κ) :
    drop (overlay lower upper) k = overlay (drop lower k) (drop upper k) := by
  funext j
  rcases eq_or_ne j k with rfl | hne
  · rw [drop_self, eq_comm, overlay_eq_none]
    exact ⟨drop_self .., drop_self ..⟩
  · rw [drop_of_ne hne, overlay, overlay, drop_of_ne hne, drop_of_ne hne]

/-- **Dropping a key from an overlay.**  It is dropping the key from the upper layer
exactly when the lower layer has nothing to show for it. -/
theorem drop_overlay [DecidableEq κ] {lower upper : κ → Option β} {k : κ} :
    drop (overlay lower upper) k = overlay lower (drop upper k) ↔ lower k = none := by
  constructor
  · intro h
    have hk := congrFun h k
    rw [drop_self, eq_comm, overlay_eq_none] at hk
    exact hk.2
  · intro h
    rw [drop_overlay_both, drop_eq_self h]

/-- Dropping a key from an overlay is dropping it from the lower layer exactly when
the upper layer does not hold it. -/
theorem drop_overlay_lower [DecidableEq κ] {lower upper : κ → Option β} {k : κ} :
    drop (overlay lower upper) k = overlay (drop lower k) upper ↔ upper k = none := by
  constructor
  · intro h
    have hk := congrFun h k
    rw [drop_self, eq_comm, overlay_eq_none] at hk
    exact hk.1
  · intro h
    rw [drop_overlay_both, drop_eq_self h]

end OpenVoiceStream
