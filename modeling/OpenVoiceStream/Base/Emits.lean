import Mathlib.Data.List.Basic

/-!
# Generators that ask until there is nothing more

A generator of the form "ask for the next item; hand it out, or stop if there is none" is a
function `next : σ → Option α × σ` and a loop. `Emits next` is the loop as a relation, with no
bound on its rounds, and `emitWithin next n` is what it does in `n` rounds at most.

* `Emits.unique` — the loop has one outcome.
* `emits_emitWithin` — where every item makes a measure of the state smaller, the loop has an
  outcome, and a computation with more rounds than the measure finds it.
-/

namespace OpenVoiceStream

/-- The loop hands out these items, stops, and leaves this state. -/
inductive Emits {σ α : Type} (next : σ → Option α × σ) : σ → List α → σ → Prop
  | stop {s s' : σ} : next s = (none, s') → Emits next s [] s'
  | item {s mid s' : σ} {a : α} {as : List α} :
      next s = (some a, mid) → Emits next mid as s' → Emits next s (a :: as) s'

/-- The loop, for so many rounds at most. -/
def emitWithin {σ α : Type} (next : σ → Option α × σ) : ℕ → σ → List α × σ
  | 0, s => ([], s)
  | n + 1, s =>
    match next s with
    | (none, s) => ([], s)
    | (some a, s) => (a :: (emitWithin next n s).1, (emitWithin next n s).2)

section Emits

variable {σ α : Type} {next : σ → Option α × σ}

theorem Emits.unique {s s₁ s₂ : σ} {as bs : List α} (h₁ : Emits next s as s₁)
    (h₂ : Emits next s bs s₂) : as = bs ∧ s₁ = s₂ := by
  induction h₁ generalizing bs with
  | stop hstop =>
    cases h₂ with
    | stop hstop' =>
      rw [hstop] at hstop'
      exact ⟨rfl, (Prod.mk.inj hstop').2⟩
    | item hitem' _ =>
      rw [hstop] at hitem'
      cases hitem'
  | item hitem _ ih =>
    cases h₂ with
    | stop hstop' =>
      rw [hitem] at hstop'
      cases hstop'
    | item hitem' hrest' =>
      rw [hitem] at hitem'
      obtain ⟨ha, rfl⟩ := Prod.mk.inj hitem'
      obtain ⟨rfl, hs⟩ := ih hrest'
      exact ⟨by rw [Option.some.inj ha], hs⟩

/-- **The loop ends where every item makes a measure of the state smaller.** -/
theorem emits_emitWithin {μ : σ → ℕ}
    (hless : ∀ {s s' : σ} {a : α}, next s = (some a, s') → μ s' < μ s) {n : ℕ} {s : σ}
    (hn : μ s < n) : Emits next s (emitWithin next n s).1 (emitWithin next n s).2 := by
  induction n generalizing s with
  | zero => omega
  | succ n ih =>
    unfold emitWithin
    split
    · next hnext => exact .stop hnext
    · next hnext =>
      have hlt := hless hnext
      exact .item hnext (ih (by omega))

/-- The last request of the loop is answered by nothing. -/
theorem Emits.stopped {s s' : σ} {as : List α} (h : Emits next s as s') :
    ∃ last, next last = (none, s') := by
  induction h with
  | stop hstop => exact ⟨_, hstop⟩
  | item _ _ ih => exact ih

end Emits

end OpenVoiceStream
