import Mathlib.Data.List.Basic
import Mathlib.Data.Nat.Notation
import Mathlib.Order.Basic

/-!
# Reading a stream in frames

A framer reads its input in frames of a fixed width and gives one output for each.  The
input arrives in blocks that need not end where a frame does, so what is left of a
block is kept and read with the next one.

## Main definitions

* `Framer` — a frame width and what is done with one frame.
* `Framer.read` — the frames of a buffer: the state after them, the outputs and what is
  left.
* `Framer.feed` — the outputs of the blocks of a stream, block by block.
* `Framer.pipe` — a framer followed by a machine that reads its outputs.

## Main results

* `Framer.read_append` — what is left of a buffer is read with what follows it.
* `Framer.feed_flatten` — the outputs depend on the stream only, not on how it is cut
  into blocks.
* `Framer.read_pipe` — the outputs of a pipe are those of the machine.
-/

variable {α σ τ ο ο' : Type*}

/-- A framer: the state after a frame and the output for it. -/
structure Framer (α σ ο : Type*) where
  width : ℕ
  width_pos : 0 < width
  step : σ → List α → σ × ο

/-- What is done with a buffer: the state after its frames, one output for each of them and
what is left. -/
structure Framer.Reading (α σ ο : Type*) where
  state : σ
  outputs : List ο
  left : List α

namespace Framer

variable (F : Framer α σ ο)

/-- The loop over the frames of a buffer, for at most `fuel` of them. -/
def readWith : ℕ → σ → List α → Reading α σ ο
  | 0, s, buf => ⟨s, [], buf⟩
  | fuel + 1, s, buf =>
    if F.width ≤ buf.length then
      let r := F.step s (buf.take F.width)
      let t := readWith fuel r.1 (buf.drop F.width)
      ⟨t.state, r.2 :: t.outputs, t.left⟩
    else ⟨s, [], buf⟩

theorem readWith_frame (fuel : ℕ) (s : σ) {buf : List α} (h : F.width ≤ buf.length) :
    F.readWith (fuel + 1) s buf =
      ⟨(F.readWith fuel (F.step s (buf.take F.width)).1 (buf.drop F.width)).state,
        (F.step s (buf.take F.width)).2 ::
          (F.readWith fuel (F.step s (buf.take F.width)).1 (buf.drop F.width)).outputs,
        (F.readWith fuel (F.step s (buf.take F.width)).1 (buf.drop F.width)).left⟩ :=
  if_pos h

theorem readWith_short (fuel : ℕ) (s : σ) {buf : List α} (h : ¬F.width ≤ buf.length) :
    F.readWith fuel s buf = ⟨s, [], buf⟩ := by
  cases fuel with
  | zero => rfl
  | succ fuel => exact if_neg h

/-- The frames of a buffer. -/
def read (s : σ) (buf : List α) : Reading α σ ο :=
  F.readWith buf.length s buf

theorem readWith_eq_read (fuel : ℕ) (s : σ) (buf : List α) (h : buf.length ≤ fuel) :
    F.readWith fuel s buf = F.read s buf := by
  have hpos := F.width_pos
  -- two amounts of fuel that are both enough
  have hboth : ∀ fuel fuel' s (buf : List α), buf.length ≤ fuel → buf.length ≤ fuel' →
      F.readWith fuel s buf = F.readWith fuel' s buf := by
    intro fuel
    induction fuel with
    | zero =>
      intro fuel' s buf h _
      have hnil : ¬ F.width ≤ buf.length := by omega
      rw [F.readWith_short 0 s hnil, F.readWith_short fuel' s hnil]
    | succ fuel ih =>
      intro fuel' s buf h h'
      by_cases hw : F.width ≤ buf.length
      · obtain ⟨fuel', rfl⟩ : ∃ m, fuel' = m + 1 := ⟨fuel' - 1, by omega⟩
        have hdrop : (buf.drop F.width).length + 1 ≤ buf.length := by
          rw [List.length_drop]
          omega
        rw [F.readWith_frame fuel s hw, F.readWith_frame fuel' s hw, ih fuel' _ (buf.drop F.width) (by omega) (by omega)]
      · rw [F.readWith_short (fuel + 1) s hw, F.readWith_short fuel' s hw]
  exact hboth fuel buf.length s buf h (Nat.le_refl _)

/-- The induction over the frames of a buffer. -/
theorem buffer_induction {P : List α → Prop} (short : ∀ buf, buf.length < F.width → P buf)
    (frame : ∀ buf, F.width ≤ buf.length → P (buf.drop F.width) → P buf) (buf : List α) :
    P buf := by
  have hpos := F.width_pos
  have hlength : ∀ n, ∀ buf : List α, buf.length ≤ n → P buf := by
    intro n
    induction n with
    | zero => exact fun buf h => short buf (by omega)
    | succ n ih =>
      intro buf h
      by_cases hw : F.width ≤ buf.length
      · exact frame buf hw (ih _ (by rw [List.length_drop]; omega))
      · exact short buf (by omega)
  exact hlength buf.length buf (Nat.le_refl _)

theorem read_short (s : σ) {buf : List α} (h : buf.length < F.width) :
    F.read s buf = ⟨s, [], buf⟩ :=
  F.readWith_short buf.length s (Nat.not_le.mpr h)

theorem read_frame (s : σ) {buf : List α} (h : F.width ≤ buf.length) :
    F.read s buf =
      ⟨(F.read (F.step s (buf.take F.width)).1 (buf.drop F.width)).state,
        (F.step s (buf.take F.width)).2 ::
          (F.read (F.step s (buf.take F.width)).1 (buf.drop F.width)).outputs,
        (F.read (F.step s (buf.take F.width)).1 (buf.drop F.width)).left⟩ := by
  have hpos := F.width_pos
  rw [← F.readWith_eq_read (buf.length + 1) s buf (Nat.le_succ _)]
  rw [F.readWith_frame buf.length s h, F.readWith_eq_read buf.length _ (buf.drop F.width) (by rw [List.length_drop]; omega)]

/-- The outputs account for the buffer up to what is left. -/
theorem length_read (buf : List α) : ∀ s,
    (F.read s buf).outputs.length * F.width + (F.read s buf).left.length = buf.length := by
  induction buf using F.buffer_induction with
  | short buf h =>
    intro s
    simp [F.read_short s h]
  | frame buf h ih =>
    intro s
    have hrest := ih (F.step s (buf.take F.width)).1
    rw [List.length_drop] at hrest
    rw [F.read_frame s h]
    simp only [List.length_cons, Nat.succ_mul]
    omega

/-- What is left is shorter than a frame. -/
theorem left_lt (buf : List α) : ∀ s, (F.read s buf).left.length < F.width := by
  induction buf using F.buffer_induction with
  | short buf h =>
    intro s
    rwa [F.read_short s h]
  | frame buf h ih =>
    intro s
    rw [F.read_frame s h]
    exact ih _

/-- **What is left of a buffer is read with what follows it.** -/
theorem read_append (more buf : List α) : ∀ s,
    F.read s (buf ++ more) =
      ⟨(F.read (F.read s buf).state ((F.read s buf).left ++ more)).state,
        (F.read s buf).outputs ++
          (F.read (F.read s buf).state ((F.read s buf).left ++ more)).outputs,
        (F.read (F.read s buf).state ((F.read s buf).left ++ more)).left⟩ := by
  induction buf using F.buffer_induction with
  | short buf h =>
    intro s
    rw [F.read_short s h]
    rfl
  | frame buf h ih =>
    intro s
    have hlong : F.width ≤ (buf ++ more).length := by
      rw [List.length_append]
      omega
    have htake : (buf ++ more).take F.width = buf.take F.width :=
      List.take_append_of_le_length h
    have hdrop : (buf ++ more).drop F.width = buf.drop F.width ++ more :=
      List.drop_append_of_le_length h
    rw [F.read_frame s hlong, htake, hdrop, F.read_frame s h, ih]
    rfl

/-! ### A stream in blocks -/

/-- The outputs of the blocks of a stream, from the state `s` with `left` still unread. -/
def feed : σ → List α → List (List α) → List (List ο)
  | _, _, [] => []
  | s, left, block :: blocks =>
    let r := F.read s (left ++ block)
    r.outputs :: feed r.state r.left blocks

/-- **The outputs depend on the stream only**, not on how it is cut into blocks. -/
theorem feed_flatten (blocks : List (List α)) :
    ∀ (s : σ) (left : List α), left.length < F.width →
      (F.feed s left blocks).flatten = (F.read s (left ++ blocks.flatten)).outputs := by
  induction blocks with
  | nil =>
    intro s left hleft
    simp [feed, F.read_short s hleft]
  | cons block blocks ih =>
    intro s left _
    have hrest := ih (F.read s (left ++ block)).state _ (F.left_lt (left ++ block) s)
    rw [List.flatten_cons, ← List.append_assoc, F.read_append _ (left ++ block)]
    simp only [feed, List.flatten_cons, hrest]

/-! ### A machine over the outputs -/

/-- The outputs of a machine over a list, and its state after it. -/
def outputsOf (g : τ → ο → τ × ο') : τ → List ο → τ × List ο'
  | t, [] => (t, [])
  | t, o :: os =>
    let r := g t o
    let rest := outputsOf g r.1 os
    (rest.1, r.2 :: rest.2)

theorem outputsOf_concat (g : τ → ο → τ × ο') (o : ο) (os : List ο) :
    ∀ t, outputsOf g t (os ++ [o]) =
      ((g (outputsOf g t os).1 o).1, (outputsOf g t os).2 ++ [(g (outputsOf g t os).1 o).2]) := by
  induction os with
  | nil => intro t; rfl
  | cons o' os ih => intro t; simp [outputsOf, ih]

/-- The outputs over the beginning of a list are the beginning of the outputs. -/
theorem outputsOf_take (g : τ → ο → τ × ο') (os : List ο) :
    ∀ t n, (outputsOf g t (os.take n)).2 = (outputsOf g t os).2.take n := by
  induction os with
  | nil => intro t n; simp [outputsOf]
  | cons o os ih =>
    intro t n
    cases n with
    | zero => rfl
    | succ n => simp [outputsOf, ih]

/-- The framer whose outputs a machine reads. -/
def pipe (g : τ → ο → τ × ο') : Framer α (σ × τ) ο' where
  width := F.width
  width_pos := F.width_pos
  step s frame :=
    let r := F.step s.1 frame
    let t := g s.2 r.2
    ((r.1, t.1), t.2)

/-- **The outputs of a pipe** are those of the machine over the outputs of the framer. -/
theorem read_pipe (g : τ → ο → τ × ο') (buf : List α) :
    ∀ s t, (F.pipe g).read (s, t) buf =
      ⟨((F.read s buf).state, (outputsOf g t (F.read s buf).outputs).1),
        (outputsOf g t (F.read s buf).outputs).2, (F.read s buf).left⟩ := by
  induction buf using F.buffer_induction with
  | short buf h =>
    intro s t
    rw [F.read_short s h, (F.pipe g).read_short (s, t) h]
    rfl
  | frame buf h ih =>
    intro s t
    rw [F.read_frame s h, (F.pipe g).read_frame (s, t) h]
    have hrest := ih (F.step s (buf.take F.width)).1
      (g t (F.step s (buf.take F.width)).2).1
    simp only [pipe, outputsOf] at hrest ⊢
    rw [hrest]

/-! ### Where the outputs are -/

/-- The outputs that are there, each with the place at which its frame ends: `i` is where the
first frame begins. -/
def placed {β : Type*} (width : ℕ) (place : ℕ → β) : ℕ → List (Option ο) → List (ο × β)
  | _, [] => []
  | i, o :: os => (o.map (·, place (i + width))).toList ++ placed width place (i + width) os

theorem placed_append {β : Type*} (width : ℕ) (place : ℕ → β) (os os' : List (Option ο)) :
    ∀ i, placed width place i (os ++ os') =
      placed width place i os ++ placed width place (i + os.length * width) os' := by
  induction os with
  | nil => intro i; simp [placed]
  | cons o os ih =>
    intro i
    have hnext : i + width + os.length * width = i + (os.length + 1) * width := by
      rw [Nat.succ_mul]
      omega
    simp only [placed, List.cons_append, ih, List.append_assoc, hnext, List.length_cons]

/-- Two ways of naming the places of the same frames. -/
theorem placed_congr {β γ : Type*} (width : ℕ) (place : ℕ → β) (place' : ℕ → γ) (f : β → γ)
    (os : List (Option ο)) :
    ∀ i j, (∀ k < os.length,
        f (place (i + (k + 1) * width)) = place' (j + (k + 1) * width)) →
      (placed width place i os).map (fun p => (p.1, f p.2)) = placed width place' j os := by
  induction os with
  | nil => intro i j _; rfl
  | cons o os ih =>
    intro i j h
    have hhead := h 0 (Nat.succ_pos _)
    simp only [Nat.zero_add, Nat.one_mul] at hhead
    have htail := ih (i + width) (j + width) (by
      intro k hk
      have := h (k + 1) (Nat.succ_lt_succ hk)
      rw [Nat.succ_mul (k + 1)] at this
      rw [Nat.add_right_comm i, Nat.add_right_comm j, Nat.add_assoc i, Nat.add_assoc j]
      exact this)
    cases o <;> simp [placed, htail, hhead]

theorem mem_placed {β : Type*} (width : ℕ) (place : ℕ → β) (os : List (Option ο)) (o : ο)
    (p : β) : ∀ i, (o, p) ∈ placed width place i os ↔
      ∃ k, os[k]? = some (some o) ∧ p = place (i + (k + 1) * width) := by
  induction os with
  | nil => intro i; simp [placed]
  | cons o' os ih =>
    intro i
    have hstep : ∀ k, i + width + (k + 1) * width = i + (k + 1 + 1) * width := by
      intro k
      rw [Nat.succ_mul (k + 1)]
      omega
    have htail : (o, p) ∈ placed width place (i + width) os ↔
        ∃ k, os[k]? = some (some o) ∧ p = place (i + (k + 1 + 1) * width) := by
      simp only [ih, hstep]
    simp only [placed, List.mem_append, htail]
    constructor
    · rintro (hhead | ⟨k, hk, hp⟩)
      · cases o' with
        | none => simp at hhead
        | some o' =>
          simp only [Option.map_some, Option.toList_some, List.mem_singleton,
            Prod.mk.injEq] at hhead
          exact ⟨0, by simp [hhead.1], by simpa using hhead.2⟩
      · exact ⟨k + 1, by simpa using hk, hp⟩
    · rintro ⟨k, hk, hp⟩
      cases k with
      | zero =>
        simp only [List.getElem?_cons_zero, Option.some.injEq] at hk
        left
        simpa [hk] using hp
      | succ k => exact Or.inr ⟨k, by simpa using hk, hp⟩

end Framer
