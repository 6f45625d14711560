import Mathlib.Data.List.Basic
import Mathlib.Data.List.Infix

/-!
# The first occurrence of a word, in a text that grows

A text is cut at the first occurrence of a word. Where the text comes in parts, the end of what is
there may be the beginning of the word; the longest such end is held back.

## Main definitions

* `cutAt pat text` — what is before the first occurrence, and what is behind it.
* `heldBack pat text` — the length of the longest end that begins the word, but is not all of it.
* `FirstCut pat text a b` — `a` and `b` are what is before and behind the first occurrence.

## Main results

* `cutAt_eq_some_iff`, `cutAt_eq_none_iff` — what `cutAt` finds.
* `cutAt_append` — an occurrence stays where it is, whatever follows.
* `cutAt_clear`, `heldBack_clear` — what is not held back is never needed again.
-/

namespace OpenVoiceStream

section Cut

variable {α : Type} [DecidableEq α]

/-- What is before the first occurrence of a word, and what is behind it. -/
def cutAt (pat : List α) : List α → Option (List α × List α)
  | [] => if pat = [] then some ([], []) else none
  | c :: rest =>
    if pat <+: c :: rest then some ([], (c :: rest).drop pat.length)
    else (cutAt pat rest).map fun cut => (c :: cut.1, cut.2)

/-- The largest number up to this one so that the text ends with so much of the word. -/
def heldUpTo (pat text : List α) : ℕ → ℕ
  | 0 => 0
  | k + 1 => if pat.take (k + 1) <:+ text then k + 1 else heldUpTo pat text k

/-- The length of the longest end of a text that is a beginning of the word, but not all of it. -/
def heldBack (pat text : List α) : ℕ := heldUpTo pat text (min (pat.length - 1) text.length)

variable {pat text : List α}

theorem cutAt_eq_some {a b : List α} (h : cutAt pat text = some (a, b)) :
    text = a ++ (pat ++ b) := by
  induction text generalizing a with
  | nil =>
    rw [cutAt] at h
    split at h
    · next hnil =>
      obtain ⟨rfl, rfl⟩ := Prod.mk.inj (Option.some.inj h)
      rw [hnil]
      rfl
    · cases h
  | cons c rest ih =>
    rw [cutAt] at h
    split at h
    · next hprefix =>
      obtain ⟨rfl, rfl⟩ := Prod.mk.inj (Option.some.inj h)
      obtain ⟨behind, hbehind⟩ := hprefix
      rw [← hbehind, List.drop_left, List.nil_append]
    · obtain ⟨⟨a', b'⟩, hcut, heq⟩ := Option.map_eq_some_iff.mp h
      obtain ⟨rfl, rfl⟩ := Prod.mk.inj heq
      rw [ih hcut]
      rfl

/-- An occurrence stays where it is. -/
theorem cutAt_append {a b : List α} (h : cutAt pat text = some (a, b)) (more : List α) :
    cutAt pat (text ++ more) = some (a, b ++ more) := by
  induction text generalizing a with
  | nil =>
    rw [cutAt] at h
    split at h
    · next hnil =>
      obtain ⟨rfl, rfl⟩ := Prod.mk.inj (Option.some.inj h)
      subst hnil
      cases more with
      | nil => rfl
      | cons c rest => rw [List.nil_append, cutAt, if_pos List.nil_prefix]; rfl
    · cases h
  | cons c rest ih =>
    rw [cutAt] at h
    rw [List.cons_append, cutAt]
    split at h
    · next hprefix =>
      obtain ⟨rfl, rfl⟩ := Prod.mk.inj (Option.some.inj h)
      have hmore : pat <+: c :: (rest ++ more) :=
        hprefix.trans (List.prefix_append (c :: rest) more)
      rw [if_pos hmore, ← List.cons_append, List.drop_append_of_le_length hprefix.length_le]
    · next hnot =>
      obtain ⟨⟨a', b'⟩, hcut, heq⟩ := Option.map_eq_some_iff.mp h
      obtain ⟨rfl, rfl⟩ := Prod.mk.inj heq
      -- the word fits into the rest, so that it does not begin here and go on behind
      have hmore : ¬pat <+: c :: (rest ++ more) := by
        intro hmore
        refine hnot (List.prefix_of_prefix_length_le hmore
          (List.prefix_append (c :: rest) more) ?_)
        rw [cutAt_eq_some hcut]
        simp only [List.length_cons, List.length_append]
        omega
      rw [if_neg hmore, ih hcut]
      rfl

/-- Where there is no occurrence, no end of the text begins with the word. -/
theorem not_prefix_of_cutAt (h : cutAt pat text = none) {s : List α} (hs : s <:+ text) :
    ¬pat <+: s := by
  induction text with
  | nil =>
    rw [cutAt] at h
    split at h
    · cases h
    · next hne =>
      obtain rfl := List.suffix_nil.mp hs
      exact fun hprefix => hne (List.prefix_nil.mp hprefix)
  | cons c rest ih =>
    rw [cutAt] at h
    split at h
    · cases h
    · next hnot =>
      rcases List.suffix_cons_iff.mp hs with rfl | hs
      · exact hnot
      · exact ih (Option.map_eq_none_iff.mp h) hs

omit [DecidableEq α] in
/-- What is before and behind the first occurrence of a word. -/
structure FirstCut (pat text a b : List α) : Prop where
  eq : text = a ++ (pat ++ b)
  first : ∀ a' b', text = a' ++ (pat ++ b') → a.length ≤ a'.length

omit [DecidableEq α] in
/-- There is one first occurrence. -/
theorem FirstCut.unique {a b a' b' : List α} (h : FirstCut pat text a b)
    (h' : FirstCut pat text a' b') : a = a' ∧ b = b' := by
  have hlength : a.length = a'.length :=
    Nat.le_antisymm (h.first a' b' h'.eq) (h'.first a b h.eq)
  obtain ⟨ha, hrest⟩ := List.append_inj (h.eq.symm.trans h'.eq) hlength
  exact ⟨ha, List.append_cancel_left hrest⟩

theorem firstCut_of_cutAt {a b : List α} (h : cutAt pat text = some (a, b)) :
    FirstCut pat text a b := by
  refine ⟨cutAt_eq_some h, ?_⟩
  induction text generalizing a with
  | nil =>
    intro a' b' heq
    have hlength := congrArg List.length ((cutAt_eq_some h).symm.trans heq)
    simp only [List.length_append] at hlength
    have hnil := congrArg List.length (cutAt_eq_some h)
    simp only [List.length_append, List.length_nil] at hnil
    omega
  | cons c rest ih =>
    intro a' b' heq
    rw [cutAt] at h
    split at h
    · obtain ⟨rfl, -⟩ := Prod.mk.inj (Option.some.inj h)
      exact Nat.zero_le _
    · next hnot =>
      obtain ⟨⟨front, behind⟩, hcut, hpair⟩ := Option.map_eq_some_iff.mp h
      obtain ⟨rfl, rfl⟩ := Prod.mk.inj hpair
      cases a' with
      | nil => exact absurd ⟨b', heq.symm⟩ hnot
      | cons c' front' =>
        rw [List.cons_append, List.cons.injEq] at heq
        exact Nat.succ_le_succ (ih hcut front' b' heq.2)

theorem cutAt_eq_none_iff : cutAt pat text = none ↔ ¬pat <:+: text := by
  constructor
  · intro h hinfix
    obtain ⟨s, hprefix, hsuffix⟩ := List.infix_iff_prefix_suffix.mp hinfix
    exact not_prefix_of_cutAt h hsuffix hprefix
  · intro h
    cases hcut : cutAt pat text with
    | none => rfl
    | some cut =>
      have heq := cutAt_eq_some hcut
      exact absurd ⟨cut.1, cut.2, by rw [heq, List.append_assoc]⟩ h

/-- `cutAt` finds the first occurrence. -/
theorem cutAt_eq_some_iff {a b : List α} : cutAt pat text = some (a, b) ↔ FirstCut pat text a b := by
  refine ⟨firstCut_of_cutAt, fun h => ?_⟩
  cases hcut : cutAt pat text with
  | none =>
    refine absurd ?_ (cutAt_eq_none_iff.mp hcut)
    exact ⟨a, b, by rw [h.eq, List.append_assoc]⟩
  | some cut =>
    obtain ⟨ha, hb⟩ := (firstCut_of_cutAt hcut).unique h
    rw [← ha, ← hb]

/-! ### Holding back -/

theorem heldUpTo_spec (pat text : List α) (n : ℕ) :
    heldUpTo pat text n ≤ n ∧ pat.take (heldUpTo pat text n) <:+ text := by
  induction n with
  | zero =>
    rw [heldUpTo, List.take_zero]
    exact ⟨Nat.le_refl 0, List.nil_suffix⟩
  | succ n ih =>
    rw [heldUpTo]
    split
    · next hsuffix => exact ⟨Nat.le_refl _, hsuffix⟩
    · exact ⟨ih.1.trans (Nat.le_succ n), ih.2⟩

/-- What is held back is an end of the text, and begins the word. -/
theorem heldBack_spec (pat text : List α) :
    heldBack pat text ≤ min (pat.length - 1) text.length ∧
      pat.take (heldBack pat text) <:+ text :=
  heldUpTo_spec pat text _

theorem le_heldUpTo {k n : ℕ} (hk : k ≤ n) (hsuffix : pat.take k <:+ text) :
    k ≤ heldUpTo pat text n := by
  induction n with
  | zero => exact hk
  | succ n ih =>
    rw [heldUpTo]
    split
    · exact hk
    · next hnot =>
      have hne : k ≠ n + 1 := by
        rintro rfl
        exact hnot hsuffix
      exact ih (by omega)

/-- No longer end of the text begins the word. -/
theorem le_heldBack {k : ℕ} (hk : k ≤ pat.length - 1) (hle : k ≤ text.length)
    (hsuffix : pat.take k <:+ text) : k ≤ heldBack pat text :=
  le_heldUpTo (by omega) hsuffix

/-- An end of the text that is longer than what is held back has nothing to do with the word. -/
theorem clear_of_heldBack (h : cutAt pat text = none) {s : List α} (hs : s <:+ text)
    (hlong : heldBack pat text < s.length) : ¬s <+: pat ∧ ¬pat <+: s := by
  have hnot := not_prefix_of_cutAt h hs
  refine ⟨fun hbegins => ?_, hnot⟩
  have hne : s.length ≠ pat.length := by
    intro heq
    rw [hbegins.eq_of_length heq] at hnot
    exact hnot List.prefix_rfl
  have htake : pat.take s.length = s := (List.prefix_iff_eq_take.mp hbegins).symm
  have hshort := hbegins.length_le
  have hle := le_heldBack (by omega) hs.length_le (htake.symm ▸ hs)
  omega

/-- A front of which no end begins the word, whatever follows it. -/
def Clear (pat front held : List α) : Prop :=
  ∀ s, s <:+ front ++ held → held.length < s.length → ¬s <+: pat ∧ ¬pat <+: s

omit [DecidableEq α] in
theorem Clear.tail {c : α} {front held : List α} (h : Clear pat (c :: front) held) :
    Clear pat front held :=
  fun s hs => h s (hs.trans (List.suffix_cons c _))

/-- No occurrence begins in a clear front. -/
theorem cutAt_clear {front held : List α} (h : Clear pat front held) (more : List α) :
    cutAt pat (front ++ (held ++ more)) =
      (cutAt pat (held ++ more)).map fun cut => (front ++ cut.1, cut.2) := by
  induction front with
  | nil =>
    show cutAt pat (held ++ more) = (cutAt pat (held ++ more)).map id
    rw [Option.map_id_fun, id]
  | cons c front ih =>
    have hnot : ¬pat <+: c :: (front ++ (held ++ more)) := by
      intro hprefix
      obtain ⟨hshort, hlong⟩ := h (c :: front ++ held) List.suffix_rfl
        (by rw [List.length_append, List.length_cons]; omega)
      have hwhole : c :: front ++ held <+: c :: (front ++ (held ++ more)) :=
        ⟨more, by simp⟩
      rcases List.prefix_or_prefix_of_prefix hprefix hwhole with hpat | hpat
      · exact hlong hpat
      · exact hshort hpat
    rw [List.cons_append, cutAt, if_neg hnot, ih h.tail, Option.map_map]
    rfl

/-- What is held back of a text is held back of its end. -/
theorem heldBack_clear {front held : List α} (h : Clear pat front held) (more : List α) :
    heldBack pat (front ++ (held ++ more)) = heldBack pat (held ++ more) := by
  obtain ⟨hle, hsuffix⟩ := heldBack_spec pat (front ++ (held ++ more))
  obtain ⟨hle', hsuffix'⟩ := heldBack_spec pat (held ++ more)
  refine Nat.le_antisymm ?_ ?_
  · -- it does not reach into the front
    have hshort : heldBack pat (front ++ (held ++ more)) ≤ (held ++ more).length := by
      by_contra hlong
      obtain ⟨before, hbefore⟩ := hsuffix
      have hlength : (pat.take (heldBack pat (front ++ (held ++ more)))).length =
          heldBack pat (front ++ (held ++ more)) := by
        rw [List.length_take]
        omega
      rw [← List.append_assoc front held more] at hbefore hlength hlong
      rw [List.length_append] at hlong
      rcases List.append_eq_append_iff.mp hbefore with ⟨s, hs, htake⟩ | ⟨s, _, hmore⟩
      · have hlengths := congrArg List.length htake
        rw [List.length_append, hlength] at hlengths
        obtain ⟨hbegins, -⟩ := h s ⟨before, hs.symm⟩ (by omega)
        refine hbegins ((List.prefix_append s more).trans ?_)
        rw [← htake]
        exact List.take_prefix _ _
      · have hlengths := congrArg List.length hmore
        rw [List.length_append, hlength] at hlengths
        omega
    refine le_heldBack (by omega) hshort ?_
    refine List.suffix_of_suffix_length_le hsuffix (List.suffix_append _ _) ?_
    rw [List.length_take]
    omega
  · refine le_heldBack (by omega) ?_ (hsuffix'.trans (List.suffix_append _ _))
    rw [List.length_append]
    omega

end Cut

end OpenVoiceStream
