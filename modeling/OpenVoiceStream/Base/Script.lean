import Mathlib.Data.Nat.Notation
import Mathlib.Logic.Basic

/-!
# Scripts and what they meet

A script asks questions of its surroundings, one after the other, and may raise on the way. What
is asked next depends on the answers. With the answers given for every moment it has one run: what
it comes to and the list of questions with their answers.

## Main definitions

* `Script A ε α` — a script over questions `q` with answers in `A q`, errors `ε`, and results `α`.
* `Script.run` — its run after what has happened before.
* `Script.Meets P x Q E` — a script that starts where `P` holds of what has happened ends where
  `Q` does, or raises where `E` does, whatever the answers.

## Main results

* `Meets.bind`, `Meets.tryCatch`, `Meets.ask`, `Meets.mono` — the rules.
* `honest_run` — the answers of a run are the ones given.
-/

/-- A script: it is done, it raises, or it asks and goes on by the answer. -/
inductive Script {Q : Type} (A : Q → Type) (ε α : Type) : Type
  | done (a : α)
  | raise (e : ε)
  | query (q : Q) (next : A q → Script A ε α)

namespace Script

variable {Q : Type} {A : Q → Type} {ε α β : Type}

/-- A script and the one that goes on with its result. -/
def bind : Script A ε α → (α → Script A ε β) → Script A ε β
  | .done a, f => f a
  | .raise e, _ => .raise e
  | .query q next, f => .query q fun a => (next a).bind f

/-- A script and the one that handles what it raises. -/
def tryCatch : Script A ε α → (ε → Script A ε α) → Script A ε α
  | .done a, _ => .done a
  | .raise e, handle => handle e
  | .query q next, handle => .query q fun a => (next a).tryCatch handle

instance : Monad (Script A ε) where
  pure := .done
  bind := bind

/-- One question. -/
def ask (q : Q) : Script A ε (A q) := .query q .done

/-- A question with its answer. -/
abbrev Event (A : Q → Type) := (q : Q) × A q

/-- The run of a script after what has happened: what it comes to, and all that has happened. -/
def run (answers : ℕ → (q : Q) → A q) :
    Script A ε α → List (Event A) → Except ε α × List (Event A)
  | .done a, past => (.ok a, past)
  | .raise e, past => (.error e, past)
  | .query q next, past =>
    (next (answers past.length q)).run answers (past ++ [⟨q, answers past.length q⟩])

/-- A run of two scripts is a run of the first, and of the second unless it has raised. -/
theorem run_bind (answers : ℕ → (q : Q) → A q) (x : Script A ε α) (f : α → Script A ε β)
    (past : List (Event A)) :
    run answers (x >>= f) past =
      match run answers x past with
      | (.ok a, past') => run answers (f a) past'
      | (.error e, past') => (.error e, past') := by
  induction x generalizing past with
  | done a => rfl
  | raise e => rfl
  | query q next ih => exact ih _ _

theorem run_tryCatch (answers : ℕ → (q : Q) → A q) (x : Script A ε α) (handle : ε → Script A ε α)
    (past : List (Event A)) :
    run answers (x.tryCatch handle) past =
      match run answers x past with
      | (.ok a, past') => (.ok a, past')
      | (.error e, past') => run answers (handle e) past' := by
  induction x generalizing past with
  | done a => rfl
  | raise e => rfl
  | query q next ih => exact ih _ _

/-- The answers are the ones given for their moments. -/
def Honest (answers : ℕ → (q : Q) → A q) (past : List (Event A)) : Prop :=
  ∀ i (event : Event A), past[i]? = some event → event.2 = answers i event.1

theorem honest_nil (answers : ℕ → (q : Q) → A q) : Honest answers [] := nofun

theorem honest_append {answers : ℕ → (q : Q) → A q} {past : List (Event A)}
    (h : Honest answers past) (q : Q) :
    Honest answers (past ++ [⟨q, answers past.length q⟩]) := by
  intro i event hi
  rw [List.getElem?_append] at hi
  split at hi
  · exact h i event hi
  · next hge =>
    obtain ⟨hlt, heq⟩ := List.getElem?_eq_some_iff.mp hi
    rw [List.length_singleton] at hlt
    obtain rfl : i = past.length := by omega
    rw [List.getElem_singleton] at heq
    rw [← heq]

/-- Every run is honest. -/
theorem honest_run {answers : ℕ → (q : Q) → A q} (x : Script A ε α) {past : List (Event A)}
    (h : Honest answers past) : Honest answers (x.run answers past).2 := by
  induction x generalizing past with
  | done a => exact h
  | raise e => exact h
  | query q next ih => exact ih _ (honest_append h q)

/-! ### Triples -/

/-- Started where `P` holds of what has happened, the script ends where `Q` holds or raises where
`E` holds. -/
def Meets (P : List (Event A) → Prop) (x : Script A ε α) (Q : α → List (Event A) → Prop)
    (E : ε → List (Event A) → Prop) : Prop :=
  ∀ answers past, P past →
    match x.run answers past with
    | (.ok a, past') => Q a past'
    | (.error e, past') => E e past'

variable {P P' : List (Event A) → Prop} {M M' : α → List (Event A) → Prop}
  {R : β → List (Event A) → Prop} {E E' : ε → List (Event A) → Prop} {x : Script A ε α}

theorem Meets.pure {a : α} (h : ∀ past, P past → M a past) :
    Meets P (Pure.pure a : Script A ε α) M E :=
  fun _ past hp => h past hp

theorem Meets.raise {e : ε} (h : ∀ past, P past → E e past) :
    Meets P (.raise e : Script A ε α) M E :=
  fun _ past hp => h past hp

theorem Meets.ask {q : Q} {M : A q → List (Event A) → Prop}
    (h : ∀ past a, P past → M a (past ++ [⟨q, a⟩])) :
    Meets P (Script.ask q : Script A ε (A q)) M E :=
  fun _ past hp => h past _ hp

/-- **Sequence.** -/
theorem Meets.bind {f : α → Script A ε β} (hx : Meets P x M E)
    (hf : ∀ a, Meets (M a) (f a) R E) : Meets P (x >>= f) R E := by
  intro answers past hp
  rw [run_bind]
  have hfirst := hx answers past hp
  split at hfirst
  · next a past' hrun => exact hf a answers past' hfirst
  · exact hfirst

/-- **Handling what is raised.** -/
theorem Meets.tryCatch {handle : ε → Script A ε α} (hx : Meets P x M E)
    (hhandle : ∀ e, Meets (E e) (handle e) M E') : Meets P (x.tryCatch handle) M E' := by
  intro answers past hp
  rw [run_tryCatch]
  have hfirst := hx answers past hp
  split at hfirst
  · exact hfirst
  · next e past' hrun => exact hhandle e answers past' hfirst

/-- **Consequence.** -/
theorem Meets.mono (h : Meets P x M E) (hP : ∀ past, P' past → P past)
    (hQ : ∀ a past, M a past → M' a past) (hE : ∀ e past, E e past → E' e past) :
    Meets P' x M' E' := by
  intro answers past hp
  have hrun := h answers past (hP past hp)
  split at hrun
  · exact hQ _ _ hrun
  · exact hE _ _ hrun

end Script
