import Mathlib.Data.List.Basic
import Mathlib.Logic.Function.Basic

/-!
# Directories, files and a loss of power

A file system whose directory entries become durable when their directory is synced: until
then a change of an entry (a name made, renamed or removed) is pending, and a loss of power
may keep any of the pending changes and drop the others. The data of a file belongs to the
file and not to its name; a file here is written and synced before anything else relies on
it, so its data is a matter of the file alone.

What the name `n` can show after a loss is `fs.May n`. Each operation changes this set for
the names it is about and leaves the others alone.

## Main definitions

* `FileSystem` — durable entries, pending changes, data of the files.
* `FileSystem.live`, `FileSystem.Survives` — the entries a program sees, and those that may
  be there after a loss of power.
* `FileSystem.create`, `fill`, `unlink`, `move`, `sync` — the operations.
* `FileSystem.May`, `FileSystem.Only` — what a name can show after a loss of power, and that
  it is all of one kind.

## Main results

* `FileSystem.may_of_survives` — what survives is what may be shown.
* `FileSystem.fill_create` — a file that is made and filled might as well be made full.
* `FileSystem.may_create`, `may_unlink`, `may_move`, `may_sync` — how the operations change
  what may be shown.
* `FileSystem.only_sync` — what a program sees in a synced directory is there for good.
-/

universe u v

/-- The entries after some changes, oldest first. -/
def replay {N : Type u} [DecidableEq N] (e : N → Option ℕ) (changes : List (N × Option ℕ)) :
    N → Option ℕ :=
  changes.foldl (fun e c => Function.update e c.1 c.2) e

section Replay

variable {N : Type u} [DecidableEq N] {e : N → Option ℕ} {changes : List (N × Option ℕ)} {n : N}

@[simp] theorem replay_cons (c : N × Option ℕ) :
    replay e (c :: changes) = replay (Function.update e c.1 c.2) changes := rfl

theorem replay_append (more : List (N × Option ℕ)) :
    replay e (changes ++ more) = replay (replay e changes) more :=
  List.foldl_append

/-- An entry is as it was or as one of the changes made it. -/
theorem replay_cases (e : N → Option ℕ) (changes : List (N × Option ℕ)) (n : N) :
    replay e changes n = e n ∨ (n, replay e changes n) ∈ changes := by
  induction changes generalizing e with
  | nil => exact .inl rfl
  | cons c rest ih =>
    rw [replay_cons]
    rcases ih (Function.update e c.1 c.2) with h | h
    · by_cases hn : n = c.1
      · subst hn
        right
        rw [h, Function.update_self]
        exact List.mem_cons_self
      · rw [h, Function.update_of_ne hn]
        exact .inl rfl
    · exact .inr (List.mem_cons_of_mem c h)

/-- Only the entry itself matters. -/
theorem replay_congr {e' : N → Option ℕ} (h : e n = e' n) :
    replay e changes n = replay e' changes n := by
  induction changes generalizing e e' with
  | nil => exact h
  | cons c rest ih =>
    rw [replay_cons, replay_cons]
    apply ih
    by_cases hn : n = c.1
    · rw [hn, Function.update_self, Function.update_self]
    · rw [Function.update_of_ne hn, Function.update_of_ne hn, h]

/-- Changes of other entries can be left out. -/
theorem replay_filter {p : N → Bool} (hn : p n = true) :
    replay e (changes.filter fun c => p c.1) n = replay e changes n := by
  induction changes generalizing e with
  | nil => rfl
  | cons c rest ih =>
    by_cases hc : p c.1 = true
    · rw [List.filter_cons_of_pos (p := fun c : N × Option ℕ => p c.1) hc]
      exact ih
    · rw [List.filter_cons_of_neg (p := fun c : N × Option ℕ => p c.1) hc, ih]
      refine replay_congr ?_
      have hne : n ≠ c.1 := by
        rintro rfl
        exact hc hn
      exact (Function.update_of_ne hne _ _).symm

/-- The entries of some names are brought up to date, and their changes dropped. -/
theorem replay_sync (p : N → Bool) :
    replay (fun n => if p n then replay e changes n else e n) (changes.filter fun c => !p c.1) n =
      replay e changes n := by
  by_cases hn : p n = true
  · rcases replay_cases (fun n => if p n then replay e changes n else e n)
      (changes.filter fun c => !p c.1) n with h | h
    · rw [h, if_pos hn]
    · have := List.of_mem_filter h
      rw [hn] at this
      cases this
  · have hn' : (!p n) = true := by simpa using hn
    rw [replay_filter (p := fun n => !p n) hn']
    refine replay_congr ?_
    rw [if_neg hn]

end Replay

/-- A file system. Files are numbered, `next` is the number of the next one, and no two
names stand for one file. -/
@[ext]
structure FileSystem (N : Type u) (α : Type v) [DecidableEq N] where
  durable : N → Option ℕ
  pending : List (N × Option ℕ)
  data : ℕ → α
  next : ℕ
  bound : ∀ n i, (durable n = some i ∨ (n, some i) ∈ pending) → i < next
  single : ∀ n m i, replay durable pending n = some i → replay durable pending m = some i → n = m

namespace FileSystem

variable {N : Type u} {α : Type v} [DecidableEq N] (fs : FileSystem N α)

/-- The entries a program sees. -/
def live : N → Option ℕ := replay fs.durable fs.pending

/-- The entries may be these after a loss of power. -/
def Survives (e : N → Option ℕ) : Prop :=
  ∃ kept : List (N × Option ℕ), kept.Sublist fs.pending ∧ e = replay fs.durable kept

/-- The data under the names. -/
def view (e : N → Option ℕ) (n : N) : Option α := (e n).map fs.data

/-- What the name can show after a loss of power. -/
def May (n : N) (o : Option α) : Prop :=
  ∃ i, (i = fs.durable n ∨ (n, i) ∈ fs.pending) ∧ o = i.map fs.data

theorem lt_next_of_live {n : N} {i : ℕ} (h : fs.live n = some i) : i < fs.next := by
  rcases replay_cases fs.durable fs.pending n with hn | hn
  · exact fs.bound n i (.inl (hn.symm.trans h))
  · rw [show replay fs.durable fs.pending n = some i from h] at hn
    exact fs.bound n i (.inr hn)

theorem may_of_survives {e : N → Option ℕ} (h : fs.Survives e) (n : N) : fs.May n (fs.view e n) := by
  obtain ⟨kept, hkept, rfl⟩ := h
  rcases replay_cases fs.durable kept n with hn | hn
  · exact ⟨_, .inl hn, rfl⟩
  · exact ⟨_, .inr (hkept.subset hn), rfl⟩

/-- Nothing need be lost. -/
theorem survives_live : fs.Survives fs.live := ⟨fs.pending, List.Sublist.refl _, rfl⟩

theorem may_live (n : N) : fs.May n (fs.view fs.live n) := fs.may_of_survives fs.survives_live n

/-! ### Operations -/

/-- Nothing at all; the data of the files there are not does not matter. -/
def empty (x : α) : FileSystem N α where
  durable := fun _ => none
  pending := []
  data := fun _ => x
  next := 0
  bound := fun n i h => by
    rcases h with h | h
    · cases h
    · cases h
  single := fun n m i h => by cases h

/-- A change of one entry. -/
def change (n : N) (i : Option ℕ) : List (N × Option ℕ) := fs.pending ++ [(n, i)]

theorem replay_change (n : N) (i : Option ℕ) :
    replay fs.durable (fs.change n i) = Function.update fs.live n i := by
  rw [change, replay_append]
  rfl

/-- A new file under the name. -/
def create (n : N) (x : α) : FileSystem N α where
  durable := fs.durable
  pending := fs.change n (some fs.next)
  data := Function.update fs.data fs.next x
  next := fs.next + 1
  bound m i h := by
    rcases h with h | h
    · exact Nat.lt_succ_of_lt (fs.bound m i (.inl h))
    · rcases List.mem_append.mp h with h | h
      · exact Nat.lt_succ_of_lt (fs.bound m i (.inr h))
      · rw [List.mem_singleton, Prod.mk.injEq, Option.some.injEq] at h
        omega
  single a b i ha hb := by
    rw [replay_change] at ha hb
    by_cases hna : a = n <;> by_cases hnb : b = n
    · rw [hna, hnb]
    · rw [hna, Function.update_self, Option.some.injEq] at ha
      rw [Function.update_of_ne hnb] at hb
      have := fs.lt_next_of_live hb
      omega
    · rw [hnb, Function.update_self, Option.some.injEq] at hb
      rw [Function.update_of_ne hna] at ha
      have := fs.lt_next_of_live ha
      omega
    · rw [Function.update_of_ne hna] at ha
      rw [Function.update_of_ne hnb] at hb
      exact fs.single a b i ha hb

/-- The file under the name is written and synced. -/
def fill (n : N) (x : α) : FileSystem N α where
  durable := fs.durable
  pending := fs.pending
  data := match fs.live n with
    | some i => Function.update fs.data i x
    | none => fs.data
  next := fs.next
  bound := fs.bound
  single := fs.single

/-- The name is removed. -/
def unlink (n : N) : FileSystem N α where
  durable := fs.durable
  pending := fs.change n none
  data := fs.data
  next := fs.next
  bound m i h := by
    rcases h with h | h
    · exact fs.bound m i (.inl h)
    · rcases List.mem_append.mp h with h | h
      · exact fs.bound m i (.inr h)
      · rw [List.mem_singleton, Prod.mk.injEq] at h
        cases h.2
  single a b i ha hb := by
    rw [replay_change] at ha hb
    by_cases hna : a = n
    · rw [hna, Function.update_self] at ha
      cases ha
    · by_cases hnb : b = n
      · rw [hnb, Function.update_self] at hb
        cases hb
      · rw [Function.update_of_ne hna] at ha
        rw [Function.update_of_ne hnb] at hb
        exact fs.single a b i ha hb

/-- The file under `src` is put under `dst`, in place of what stood there: a change of the
entry `dst`, and one of the entry `src`, which is in another directory perhaps. -/
def move (src dst : N) : FileSystem N α where
  durable := fs.durable
  pending := fs.change dst (fs.live src) ++ [(src, none)]
  data := fs.data
  next := fs.next
  bound m i h := by
    rcases h with h | h
    · exact fs.bound m i (.inl h)
    · rcases List.mem_append.mp h with h | h
      · rcases List.mem_append.mp h with h | h
        · exact fs.bound m i (.inr h)
        · rw [List.mem_singleton, Prod.mk.injEq] at h
          exact fs.lt_next_of_live h.2.symm
      · rw [List.mem_singleton, Prod.mk.injEq] at h
        cases h.2
  single a b i ha hb := by
    rw [replay_append, replay_change] at ha hb
    change Function.update (Function.update fs.live dst (fs.live src)) src none a = some i at ha
    change Function.update (Function.update fs.live dst (fs.live src)) src none b = some i at hb
    have hof : ∀ c, Function.update (Function.update fs.live dst (fs.live src)) src none c = some i →
        c ≠ src ∧ (c = dst ∧ fs.live src = some i ∨ c ≠ dst ∧ fs.live c = some i) := by
      intro c hc
      by_cases hsrc : c = src
      · rw [hsrc, Function.update_self] at hc
        cases hc
      · rw [Function.update_of_ne hsrc] at hc
        by_cases hdst : c = dst
        · rw [hdst, Function.update_self] at hc
          exact ⟨hsrc, .inl ⟨hdst, hc⟩⟩
        · rw [Function.update_of_ne hdst] at hc
          exact ⟨hsrc, .inr ⟨hdst, hc⟩⟩
    obtain ⟨hna, ⟨rfl, hia⟩ | ⟨-, hia⟩⟩ := hof a ha
    · obtain ⟨hnb, ⟨rfl, hib⟩ | ⟨-, hib⟩⟩ := hof b hb
      · rfl
      · exact absurd (fs.single _ _ i hib hia) hnb
    · obtain ⟨hnb, ⟨rfl, hib⟩ | ⟨-, hib⟩⟩ := hof b hb
      · exact absurd (fs.single _ _ i hia hib) hna
      · exact fs.single a b i hia hib

/-- The directory with these names is synced. -/
def sync (p : N → Bool) : FileSystem N α where
  durable n := if p n then fs.live n else fs.durable n
  pending := fs.pending.filter fun c => !p c.1
  data := fs.data
  next := fs.next
  bound n i h := by
    rcases h with h | h
    · split at h
      · exact fs.lt_next_of_live h
      · exact fs.bound n i (.inl h)
    · exact fs.bound n i (.inr (List.mem_of_mem_filter h))
  single a b i ha hb := by
    have hlive : ∀ n, replay (fun n => if p n then fs.live n else fs.durable n)
        (fs.pending.filter fun c => !p c.1) n = fs.live n := fun _ => replay_sync p
    rw [hlive] at ha hb
    exact fs.single a b i ha hb

/-! ### What a program sees -/

/-- What stands under the names. -/
def contents (n : N) : Option α := fs.view fs.live n

theorem live_create (n : N) (x : α) :
    (fs.create n x).live = Function.update fs.live n (some fs.next) :=
  fs.replay_change n _

theorem contents_create (n : N) (x : α) :
    (fs.create n x).contents = Function.update fs.contents n (some x) := by
  funext m
  rw [contents, view, live_create]
  by_cases hm : m = n
  · subst hm
    rw [Function.update_self, Function.update_self]
    exact congrArg some (Function.update_self _ _ _)
  · rw [Function.update_of_ne hm, Function.update_of_ne hm, contents, view]
    cases hi : fs.live m with
    | none => rfl
    | some i =>
      have hne : i ≠ fs.next := Nat.ne_of_lt (fs.lt_next_of_live hi)
      exact congrArg some (Function.update_of_ne hne _ _)

/-- A file that is made and filled might as well be made full. -/
theorem fill_create (n : N) (x y : α) : (fs.create n x).fill n y = fs.create n y := by
  have hlive : (fs.create n x).live n = some fs.next := by
    rw [live_create, Function.update_self]
  have hdata : ((fs.create n x).fill n y).data = (fs.create n y).data := by
    show (match (fs.create n x).live n with
      | some i => Function.update (fs.create n x).data i y
      | none => (fs.create n x).data) = Function.update fs.data fs.next y
    rw [hlive]
    exact Function.update_idem _ _ _
  exact FileSystem.ext rfl rfl hdata rfl

theorem contents_unlink (n : N) :
    (fs.unlink n).contents = Function.update fs.contents n none := by
  funext m
  rw [contents, view, show (fs.unlink n).live = Function.update fs.live n none from
    fs.replay_change n none]
  by_cases hm : m = n
  · subst hm
    rw [Function.update_self, Function.update_self]
    rfl
  · rw [Function.update_of_ne hm, Function.update_of_ne hm]
    rfl

theorem contents_move (src dst : N) : (fs.move src dst).contents =
    Function.update (Function.update fs.contents dst (fs.contents src)) src none := by
  have hlive : (fs.move src dst).live =
      Function.update (Function.update fs.live dst (fs.live src)) src none := by
    rw [live, show (fs.move src dst).pending = fs.change dst (fs.live src) ++ [(src, none)] from rfl,
      replay_append]
    exact congrArg (fun e => Function.update e src none) (fs.replay_change dst (fs.live src))
  funext m
  rw [contents, view, hlive]
  by_cases hsrc : m = src
  · subst hsrc
    rw [Function.update_self, Function.update_self]
    rfl
  · rw [Function.update_of_ne hsrc, Function.update_of_ne hsrc]
    by_cases hdst : m = dst
    · subst hdst
      rw [Function.update_self, Function.update_self]
      rfl
    · rw [Function.update_of_ne hdst, Function.update_of_ne hdst]
      rfl

theorem contents_sync (p : N → Bool) : (fs.sync p).contents = fs.contents := by
  funext m
  have hlive : (fs.sync p).live m = fs.live m := replay_sync p
  rw [contents, view, hlive]
  rfl

/-! ### What may be there after a loss of power -/

variable {fs} {n m : N} {x : α} {o : Option α}

theorem may_create : (fs.create n x).May m o ↔ fs.May m o ∨ m = n ∧ o = some x := by
  have hdata : ∀ i, (i = fs.durable m ∨ (m, i) ∈ fs.pending) →
      i.map (Function.update fs.data fs.next x) = i.map fs.data := by
    intro i hi
    cases i with
    | none => rfl
    | some i =>
      have hlt : i < fs.next := by
        apply fs.bound m i
        rcases hi with h | h
        · exact .inl h.symm
        · exact .inr h
      exact congrArg some (Function.update_of_ne (Nat.ne_of_lt hlt) _ _)
  constructor
  · rintro ⟨i, hi | hi, rfl⟩
    · exact .inl ⟨i, .inl hi, hdata i (.inl hi)⟩
    · rcases List.mem_append.mp hi with hi | hi
      · exact .inl ⟨i, .inr hi, hdata i (.inr hi)⟩
      · rw [List.mem_singleton, Prod.mk.injEq] at hi
        obtain ⟨rfl, rfl⟩ := hi
        exact .inr ⟨rfl, congrArg some (Function.update_self _ _ _)⟩
  · rintro (⟨i, hi, rfl⟩ | ⟨rfl, rfl⟩)
    · refine ⟨i, ?_, (hdata i hi).symm⟩
      rcases hi with hi | hi
      · exact .inl hi
      · exact .inr (List.mem_append_left _ hi)
    · refine ⟨some fs.next, .inr (List.mem_append_right _ List.mem_cons_self), ?_⟩
      show some x = some (Function.update fs.data fs.next x fs.next)
      rw [Function.update_self]

theorem may_unlink : (fs.unlink n).May m o ↔ fs.May m o ∨ m = n ∧ o = none := by
  constructor
  · rintro ⟨i, hi | hi, rfl⟩
    · exact .inl ⟨i, .inl hi, rfl⟩
    · rcases List.mem_append.mp hi with hi | hi
      · exact .inl ⟨i, .inr hi, rfl⟩
      · rw [List.mem_singleton, Prod.mk.injEq] at hi
        obtain ⟨rfl, rfl⟩ := hi
        exact .inr ⟨rfl, rfl⟩
  · rintro (⟨i, hi | hi, rfl⟩ | ⟨rfl, rfl⟩)
    · exact ⟨i, .inl hi, rfl⟩
    · exact ⟨i, .inr (List.mem_append_left _ hi), rfl⟩
    · exact ⟨none, .inr (List.mem_append_right _ List.mem_cons_self), rfl⟩

theorem may_move {src dst : N} : (fs.move src dst).May m o ↔
    fs.May m o ∨ m = dst ∧ o = fs.contents src ∨ m = src ∧ o = none := by
  constructor
  · rintro ⟨i, hi | hi, rfl⟩
    · exact .inl ⟨i, .inl hi, rfl⟩
    · rcases List.mem_append.mp hi with hi | hi
      · rcases List.mem_append.mp hi with hi | hi
        · exact .inl ⟨i, .inr hi, rfl⟩
        · rw [List.mem_singleton, Prod.mk.injEq] at hi
          obtain ⟨rfl, rfl⟩ := hi
          exact .inr (.inl ⟨rfl, rfl⟩)
      · rw [List.mem_singleton, Prod.mk.injEq] at hi
        obtain ⟨rfl, rfl⟩ := hi
        exact .inr (.inr ⟨rfl, rfl⟩)
  · rintro (⟨i, hi | hi, rfl⟩ | ⟨rfl, rfl⟩ | ⟨rfl, rfl⟩)
    · exact ⟨i, .inl hi, rfl⟩
    · exact ⟨i, .inr (List.mem_append_left _ (List.mem_append_left _ hi)), rfl⟩
    · exact ⟨fs.live src, .inr (List.mem_append_left _ (List.mem_append_right _
        List.mem_cons_self)), rfl⟩
    · exact ⟨none, .inr (List.mem_append_right _ List.mem_cons_self), rfl⟩

/-- A synced directory shows what the program sees. -/
theorem may_sync_of_pos {p : N → Bool} (hm : p m = true) :
    (fs.sync p).May m o ↔ o = fs.contents m := by
  constructor
  · rintro ⟨i, hi | hi, rfl⟩
    · rw [show (fs.sync p).durable m = fs.live m from if_pos hm] at hi
      rw [hi]
      rfl
    · have := List.of_mem_filter hi
      rw [hm] at this
      cases this
  · rintro rfl
    exact ⟨fs.live m, .inl (if_pos hm).symm, rfl⟩

/-- The others are as they were. -/
theorem may_sync_of_neg {p : N → Bool} (hm : p m = false) :
    (fs.sync p).May m o ↔ fs.May m o := by
  have hdurable : (fs.sync p).durable m = fs.durable m := if_neg (by rw [hm]; exact Bool.noConfusion)
  constructor
  · rintro ⟨i, hi | hi, rfl⟩
    · exact ⟨i, .inl (hi.trans hdurable), rfl⟩
    · exact ⟨i, .inr (List.mem_of_mem_filter hi), rfl⟩
  · rintro ⟨i, hi | hi, rfl⟩
    · exact ⟨i, .inl (hi.trans hdurable.symm), rfl⟩
    · refine ⟨i, .inr (List.mem_filter.mpr ⟨hi, ?_⟩), rfl⟩
      rw [hm]
      rfl

/-! ### Whatever is lost -/

/-- Whatever is lost, what the name shows satisfies `P`. -/
def Only (fs : FileSystem N α) (n : N) (P : Option α → Prop) : Prop := ∀ o, fs.May n o → P o

section Only

variable {P Q : Option α → Prop}

theorem Only.contents (h : fs.Only m P) : P (fs.contents m) := h _ (fs.may_live m)

theorem Only.mono (h : fs.Only m P) (hPQ : ∀ o, P o → Q o) : fs.Only m Q :=
  fun o ho => hPQ o (h o ho)

theorem Only.create (h : fs.Only m P) (hx : m = n → P (some x)) : (fs.create n x).Only m P := by
  intro o ho
  rcases may_create.mp ho with ho | ⟨hm, rfl⟩
  · exact h o ho
  · exact hx hm

theorem Only.unlink (h : fs.Only m P) (hnone : m = n → P none) : (fs.unlink n).Only m P := by
  intro o ho
  rcases may_unlink.mp ho with ho | ⟨hm, rfl⟩
  · exact h o ho
  · exact hnone hm

theorem Only.move {src dst : N} (h : fs.Only m P) (hdst : m = dst → P (fs.contents src))
    (hsrc : m = src → P none) : (fs.move src dst).Only m P := by
  intro o ho
  rcases may_move.mp ho with ho | ⟨hm, rfl⟩ | ⟨hm, rfl⟩
  · exact h o ho
  · exact hdst hm
  · exact hsrc hm

theorem Only.sync (h : fs.Only m P) (p : N → Bool) : (fs.sync p).Only m P := by
  intro o ho
  cases hm : p m with
  | true =>
    rw [(may_sync_of_pos hm).mp ho]
    exact h.contents
  | false => exact h o ((may_sync_of_neg hm).mp ho)

/-- What a program sees in a synced directory is there for good. -/
theorem only_sync {p : N → Bool} (hm : p m = true) (h : P (fs.contents m)) :
    (fs.sync p).Only m P := by
  intro o ho
  rw [(may_sync_of_pos hm).mp ho]
  exact h

/-- With nothing pending there is nothing to lose. -/
theorem only_of_pending_nil (hpending : fs.pending = []) (h : P (fs.contents m)) :
    fs.Only m P := by
  rintro o ⟨i, hi | hi, rfl⟩
  · have hlive : fs.live m = i := by
      rw [live, hpending, hi]
      rfl
    rw [FileSystem.contents, view, hlive] at h
    exact h
  · rw [hpending] at hi
    cases hi

end Only

end FileSystem
