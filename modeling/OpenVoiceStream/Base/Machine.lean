import Mathlib.Algebra.GroupWithZero.Nat
import Mathlib.Logic.Basic
import Mathlib.Data.Option.Basic
import Mathlib.Data.List.Basic

/-!
# Machines and their guarded runs

A concurrent program is read here as a machine: a start state and a partial step
function, where the action of a step names the party that moves together with
everything the environment chooses for it.  All nondeterminism is in the
actions, so a run is a list of actions and can be evaluated.

## Main definitions

* `Machine` — a start state and a partial step function.
* `Machine.runFrom`, `Machine.run` — the state a list of actions leads to.
* `Machine.Guarded ok s as` — every step of the run of `as` from `s` satisfies
  `ok` in the state it is taken from.
* `Machine.count own s as` — how many steps of the run are a task's own.
* `Machine.track note g s as` — a history variable: what `note` makes of the steps of a run.

## Main results

* `Machine.invariant_of_step` — a property of the start state that every step
  preserves holds at the end of every run.
* `Machine.invariant_of_guarded` — the same for the runs all of whose steps
  satisfy a guard.
* `Machine.guarded_iff_of_measure` — a measure that grows by one at exactly the
  unguarded steps tells the guarded runs from the others.
* `Machine.count_add_rank_le` — what a task takes to its end, by a rank that its own steps
  lower.
* `Machine.invariant_of_track` — a property of the state and of a history variable.
-/

/-- A machine with states `σ` and actions `α`: `step s a = none` says that the
action `a` is not enabled in the state `s`. -/
structure Machine (σ α : Type*) where
  /-- The start state. -/
  init : σ
  /-- The state an action leads to, if it is enabled. -/
  step : σ → α → Option σ

namespace Machine

/-- The parties of an example are often two. -/
instance twoParties : NeZero (2 : ℕ) := ⟨Nat.succ_ne_zero 1⟩

variable {σ α : Type*} (M : Machine σ α)

/-- The state the actions `as` lead to from `s`, or `none` if one of them is not
enabled when its turn comes. -/
def runFrom : σ → List α → Option σ
  | s, [] => some s
  | s, a :: as => (M.step s a).bind fun s' => runFrom s' as

/-- The state the actions `as` lead to from the start. -/
def run (as : List α) : Option σ := M.runFrom M.init as

@[simp] theorem runFrom_nil (s : σ) : M.runFrom s [] = some s := rfl

theorem runFrom_cons (s : σ) (a : α) (as : List α) :
    M.runFrom s (a :: as) = (M.step s a).bind fun s' => M.runFrom s' as := rfl

/-- A nonempty run is its first step and the run of the other actions. -/
theorem runFrom_cons_eq_some {s t : σ} {a : α} {as : List α} :
    M.runFrom s (a :: as) = some t ↔ ∃ s', M.step s a = some s' ∧ M.runFrom s' as = some t := by
  rw [runFrom_cons, Option.bind_eq_some_iff]

/-- Every step of the run of `as` from `s` satisfies the guard `ok` in the state
it is taken from. -/
def Guarded (ok : σ → α → Prop) : σ → List α → Prop
  | _, [] => True
  | s, a :: as => ok s a ∧ ∀ s' ∈ M.step s a, Guarded ok s' as

@[simp] theorem guarded_nil (ok : σ → α → Prop) (s : σ) : M.Guarded ok s [] := trivial

theorem guarded_cons {ok : σ → α → Prop} {s : σ} {a : α} {as : List α} :
    M.Guarded ok s (a :: as) ↔ ok s a ∧ ∀ s' ∈ M.step s a, M.Guarded ok s' as := Iff.rfl

/-- A guarded run from its first step. -/
theorem guarded_cons_of_step {ok : σ → α → Prop} {s s' : σ} {a : α} {as : List α}
    (hstep : M.step s a = some s') (hok : ok s a) (h : M.Guarded ok s' as) :
    M.Guarded ok s (a :: as) := by
  refine ⟨hok, fun t ht => ?_⟩
  cases hstep.symm.trans ht
  exact h

/-- A guarded run can be cut in two. -/
theorem guarded_append {ok : σ → α → Prop} {s : σ} {as bs : List α} :
    M.Guarded ok s (as ++ bs) ↔
      M.Guarded ok s as ∧ ∀ t ∈ M.runFrom s as, M.Guarded ok t bs := by
  induction as generalizing s with
  | nil => simp
  | cons a as ih =>
    rw [List.cons_append, guarded_cons, guarded_cons, runFrom_cons, and_assoc]
    refine and_congr_right fun _ => ?_
    constructor
    · intro h
      refine ⟨fun s' hs' => (ih.mp (h s' hs')).1, fun t ht => ?_⟩
      obtain ⟨s', hs', ht⟩ := Option.bind_eq_some_iff.mp ht
      exact (ih.mp (h s' hs')).2 t ht
    · rintro ⟨h, hrest⟩ s' hs'
      exact ih.mpr ⟨h s' hs', fun t ht => hrest t (Option.bind_eq_some_iff.mpr ⟨s', hs', ht⟩)⟩

/-- The guard can be checked along the run whenever it can be checked in a state. -/
instance decidableGuarded (ok : σ → α → Prop) [∀ s a, Decidable (ok s a)] :
    ∀ (s : σ) (as : List α), Decidable (M.Guarded ok s as)
  | _, [] => isTrue trivial
  | s, a :: as =>
    have : Decidable (∀ s' ∈ M.step s a, M.Guarded ok s' as) :=
      match M.step s a with
      | none => isTrue fun _ h => nomatch h
      | some s' =>
        have := decidableGuarded ok s' as
        decidable_of_iff (M.Guarded ok s' as)
          ⟨fun h _ hs => Option.some_inj.mp hs ▸ h, fun h => h s' rfl⟩
    inferInstanceAs (Decidable (_ ∧ _))

/-- **The induction rule for guarded runs.**  A property preserved by every step
that satisfies the guard is carried from the start of a guarded run to its end. -/
theorem invariant_of_guarded_from {ok : σ → α → Prop} {P : σ → Prop}
    (hstep : ∀ s a s', P s → ok s a → M.step s a = some s' → P s') :
    ∀ {as : List α} {s t : σ}, P s → M.Guarded ok s as → M.runFrom s as = some t → P t := by
  intro as
  induction as with
  | nil =>
    intro s t hs _ hrun
    rw [runFrom_nil, Option.some_inj] at hrun
    exact hrun ▸ hs
  | cons a as ih =>
    intro s t hs hok hrun
    obtain ⟨s', hs', hrun'⟩ := M.runFrom_cons_eq_some.mp hrun
    exact ih (hstep s a s' hs hok.1 hs') (hok.2 s' hs') hrun'

/-- A property of the start state that every guarded step preserves holds at the
end of every guarded run. -/
theorem invariant_of_guarded (ok : σ → α → Prop) {P : σ → Prop} (hinit : P M.init)
    (hstep : ∀ s a s', P s → ok s a → M.step s a = some s' → P s') {as : List α} {t : σ}
    (hok : M.Guarded ok M.init as) (hrun : M.run as = some t) : P t :=
  M.invariant_of_guarded_from hstep hinit hok hrun

/-- **The induction rule for runs.** -/
theorem invariant_of_step_from {P : σ → Prop}
    (hstep : ∀ s a s', P s → M.step s a = some s' → P s') {as : List α} {s t : σ} (hs : P s)
    (hrun : M.runFrom s as = some t) : P t := by
  have htrue : ∀ {as : List α} {s : σ}, M.Guarded (fun _ _ => True) s as := by
    intro as
    induction as with
    | nil => intro s; trivial
    | cons a as ih => intro s; exact ⟨trivial, fun _ _ => ih⟩
  exact M.invariant_of_guarded_from (fun s a s' hs _ h => hstep s a s' hs h) hs htrue hrun

/-- The same for the runs from the start. -/
theorem invariant_of_step {P : σ → Prop} (hinit : P M.init)
    (hstep : ∀ s a s', P s → M.step s a = some s' → P s') {as : List α} {t : σ}
    (hrun : M.run as = some t) : P t :=
  M.invariant_of_step_from hstep hinit hrun

/-- **Counting the unguarded steps.**  If a measure never falls, and grows at
exactly the steps that miss the guard, then a run is guarded exactly when it
leaves the measure where it was. -/
theorem guarded_iff_of_measure (ok : σ → α → Prop) [∀ s a, Decidable (ok s a)] {P : σ → Prop}
    (μ : σ → ℕ) (hP : ∀ s a s', P s → M.step s a = some s' → P s')
    (hμ : ∀ s a s', P s → M.step s a = some s' → μ s' = μ s + if ok s a then 0 else 1) :
    ∀ {as : List α} {s t : σ}, P s → M.runFrom s as = some t →
      μ s ≤ μ t ∧ (M.Guarded ok s as ↔ μ t = μ s) := by
  intro as
  induction as with
  | nil =>
    intro s t _ hrun
    rw [runFrom_nil, Option.some_inj] at hrun
    simp [hrun]
  | cons a as ih =>
    intro s t hs hrun
    obtain ⟨s', hs', hrun'⟩ := M.runFrom_cons_eq_some.mp hrun
    obtain ⟨hle, hiff⟩ := ih (hP s a s' hs hs') hrun'
    have hone := hμ s a s' hs hs'
    refine ⟨by omega, ?_⟩
    rw [guarded_cons]
    constructor
    · rintro ⟨hok, hrest⟩
      rw [if_pos hok] at hone
      rw [hiff.mp (hrest s' hs'), hone, Nat.add_zero]
    · intro hmu
      have hok : ok s a := by
        by_contra hnot
        rw [if_neg hnot] at hone
        omega
      rw [if_pos hok] at hone
      refine ⟨hok, fun s'' hs'' => ?_⟩
      have : s'' = s' := Option.some_inj.mp (hs''.symm.trans hs')
      rw [this, hiff]
      omega

/-- How many steps of the run of `as` from `s` are ones of `own`. -/
def count (own : σ → α → Bool) : σ → List α → ℕ
  | _, [] => 0
  | s, a :: as =>
    (if own s a then 1 else 0) +
      match M.step s a with
      | none => 0
      | some s' => count own s' as

/-- **A rank.**  If the own steps of a task lower its rank, and no other step raises it, then
it takes no more steps than its rank says. -/
theorem count_add_rank_le (own : σ → α → Bool) {P : σ → Prop} (rank : σ → ℕ)
    (hP : ∀ s a s', P s → M.step s a = some s' → P s')
    (hrank : ∀ s a s', P s → M.step s a = some s' → rank s' + (if own s a then 1 else 0) ≤ rank s) :
    ∀ {as : List α} {s t : σ}, P s → M.runFrom s as = some t →
      M.count own s as + rank t ≤ rank s := by
  intro as
  induction as with
  | nil =>
    intro s t _ hrun
    rw [runFrom_nil, Option.some_inj] at hrun
    exact Nat.le_of_eq (by rw [count, hrun, Nat.zero_add])
  | cons a as ih =>
    intro s t hs hrun
    obtain ⟨s', hs', hrun'⟩ := M.runFrom_cons_eq_some.mp hrun
    have hrest := ih (hP s a s' hs hs') hrun'
    have hone := hrank s a s' hs hs'
    rw [count, hs']
    dsimp only
    omega

variable {γ : Type*}

/-- What `note` makes of the steps of the run of `as` from `s`, beginning with `g`. -/
def track (note : γ → σ → α → γ) : γ → σ → List α → γ
  | g, _, [] => g
  | g, s, a :: as =>
    match M.step s a with
    | none => g
    | some s' => track note (note g s a) s' as

theorem track_cons {note : γ → σ → α → γ} {g : γ} {s s' : σ} {a : α} {as : List α}
    (hstep : M.step s a = some s') :
    M.track note g s (a :: as) = M.track note (note g s a) s' as := by
  rw [track, hstep]

/-- **A history variable.**  A property of the variable and the state that every guarded step
preserves, when the step is noted, holds at the end of every guarded run. -/
theorem invariant_of_track {ok : σ → α → Prop} {note : γ → σ → α → γ} {P : γ → σ → Prop}
    (hstep : ∀ g s a s', P g s → ok s a → M.step s a = some s' → P (note g s a) s') :
    ∀ {as : List α} {g : γ} {s t : σ}, P g s → M.Guarded ok s as → M.runFrom s as = some t →
      P (M.track note g s as) t := by
  intro as
  induction as with
  | nil =>
    intro g s t h _ hrun
    rw [runFrom_nil, Option.some_inj] at hrun
    exact hrun ▸ h
  | cons a as ih =>
    intro g s t h hok hrun
    obtain ⟨s', hs', hrun'⟩ := M.runFrom_cons_eq_some.mp hrun
    rw [M.track_cons hs']
    exact ih (hstep g s a s' h hok.1 hs') (hok.2 s' hs') hrun'

end Machine
