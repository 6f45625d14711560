import OpenVoiceStream.Base.References
import OpenVoiceStream.Base.Template

/-!
# Templates as words

A template whose dollar signs are those of braced variables is a word: text that stands for
itself, and references.  On such templates the substitution of values is the substitution of
words, so what is substituted can be substituted again.

## Main definitions

* `Template.names` — the variables that the substitution looks up.
* `Template.Inert` — text that stands for itself.
* `Template.Sound`, `Template.render` — words, and the templates they are.
* `Template.Plain` — the templates that are words.

## Main results

* `Template.safeSubstitute_render` — the substitution on words.
* `Template.mem_names_render` — the variables of a word.
-/

namespace Template

open References

/-! ### What the scanner does -/

/-- The mode after one character. -/
def next (c : Char) (mode : Scan) : Scan := (scanChar (fun _ => none) c mode).2

/-- The mode after a text. -/
def endMode : Scan → Text → Scan
  | mode, [] => mode
  | mode, c :: rest => endMode (next c mode) rest

/-- What is emitted before the template ends. -/
def emitted (lookup : Text → Option Text) : Scan → Text → Text
  | _, [] => []
  | mode, c :: rest => (scanChar lookup c mode).1 ++ emitted lookup (next c mode) rest

/-- The variables that end with one character. -/
def namesChar (c : Char) : Scan → List Text
  | .named name => if isIdChar c then [] else [name]
  | .braced name => if c = '}' ∧ name ≠ [] then [name] else []
  | _ => []

/-- The variables that end in a text. -/
def completed : Scan → Text → List Text
  | _, [] => []
  | mode, c :: rest => namesChar c mode ++ completed (next c mode) rest

/-- The variables that end with the template. -/
def namesEnd : Scan → List Text
  | .named name => [name]
  | _ => []

/-- The variables that are looked up in a template. -/
def names (value : Text) : List Text :=
  completed .plain value ++ namesEnd (endMode .plain value)

variable {lookup lookup' : Text → Option Text} {mode : Scan} {c : Char} {s t n : Text}

theorem scanChar_snd (lookup : Text → Option Text) (c : Char) (mode : Scan) :
    (scanChar lookup c mode).2 = next c mode := by
  unfold next
  cases mode with
  | plain => rw [scanChar, scanChar]
  | dollar => rw [scanChar, scanChar]
  | named name => simp only [scanChar]; split_ifs <;> rfl
  | braced name => simp only [scanChar]; split_ifs <;> rfl

theorem scan_eq (lookup : Text → Option Text) (mode : Scan) (t : Text) :
    scan lookup mode t = emitted lookup mode t ++ finish lookup (endMode mode t) := by
  induction t generalizing mode with
  | nil => rfl
  | cons c t ih => rw [scan, scanChar_snd, ih, emitted, endMode, List.append_assoc]

theorem endMode_append (mode : Scan) (s t : Text) :
    endMode mode (s ++ t) = endMode (endMode mode s) t := by
  induction s generalizing mode with
  | nil => rfl
  | cons c s ih => rw [List.cons_append, endMode, endMode, ih]

theorem emitted_append (lookup : Text → Option Text) (mode : Scan) (s t : Text) :
    emitted lookup mode (s ++ t) =
      emitted lookup mode s ++ emitted lookup (endMode mode s) t := by
  induction s generalizing mode with
  | nil => rfl
  | cons c s ih => rw [List.cons_append, emitted, emitted, endMode, ih, List.append_assoc]

theorem completed_append (mode : Scan) (s t : Text) :
    completed mode (s ++ t) = completed mode s ++ completed (endMode mode s) t := by
  induction s generalizing mode with
  | nil => rfl
  | cons c s ih => rw [List.cons_append, completed, completed, endMode, ih, List.append_assoc]

theorem scanChar_congr (h : ∀ n ∈ namesChar c mode, lookup n = lookup' n) :
    (scanChar lookup c mode).1 = (scanChar lookup' c mode).1 := by
  cases mode with
  | plain => rfl
  | dollar => rfl
  | named name =>
    by_cases hc : isIdChar c = true
    · simp [scanChar, hc]
    · have hname := h name (by simp [namesChar, hc])
      simp [scanChar, hc, emit, hname]
  | braced name =>
    by_cases hc : c = '}' ∧ name ≠ []
    · have hname := h name (by simp [namesChar, hc])
      rw [scanChar, scanChar, if_pos hc, if_pos hc, emit, emit, hname]
    · rw [scanChar, scanChar, if_neg hc, if_neg hc]

theorem emitted_congr (h : ∀ n ∈ completed mode t, lookup n = lookup' n) :
    emitted lookup mode t = emitted lookup' mode t := by
  induction t generalizing mode with
  | nil => rfl
  | cons c t ih =>
    rw [completed] at h
    rw [emitted, emitted, scanChar_congr fun n hn => h n (List.mem_append_left _ hn),
      ih fun n hn => h n (List.mem_append_right _ hn)]

/-! ### Words -/

/-- Text that stands for itself, whatever comes after it. -/
def Inert (t : Text) : Prop :=
  endMode .plain t = .plain ∧ emitted (fun _ => none) .plain t = t ∧ completed .plain t = []

instance (t : Text) : Decidable (Inert t) := inferInstanceAs (Decidable (_ ∧ _ ∧ _))

/-- The name of a variable. -/
def IsName : Text → Prop
  | [] => False
  | c :: rest => isIdStart c = true ∧ ∀ c' ∈ rest, isIdChar c' = true

instance : DecidablePred IsName
  | [] => inferInstanceAs (Decidable False)
  | _ :: rest => @instDecidableAnd _ _ inferInstance (List.decidableBAll _ rest)

/-- `${name}`. -/
def reference (name : Text) : Text := '$' :: '{' :: (name ++ ['}'])

theorem Inert.emitted_eq (h : Inert t) (lookup : Text → Option Text) :
    emitted lookup .plain t = t := by
  obtain ⟨-, hemitted, hnames⟩ := h
  calc emitted lookup .plain t
      = emitted (fun _ => none) .plain t := emitted_congr (by simp [hnames])
    _ = t := hemitted

theorem isIdStart_ne {d : Char} (hd : isIdStart d = false) (h : isIdStart c = true) : c ≠ d :=
  fun heq => Bool.false_ne_true (hd.symm.trans (heq ▸ h))

theorem isIdChar_ne {d : Char} (hd : isIdChar d = false) (h : isIdChar c = true) : c ≠ d :=
  fun heq => Bool.false_ne_true (hd.symm.trans (heq ▸ h))

/-- The rest of a braced name, to its brace. -/
theorem braced_spec (lookup : Text → Option Text) (name : Text) (hname : name ≠ [])
    (ht : ∀ c ∈ t, isIdChar c = true) :
    endMode (.braced name) (t ++ ['}']) = .plain ∧
    emitted lookup (.braced name) (t ++ ['}']) =
      emit lookup (name ++ t) (reference (name ++ t)) ∧
    completed (.braced name) (t ++ ['}']) = [name ++ t] := by
  induction t generalizing name with
  | nil => simp [endMode, emitted, completed, next, scanChar, namesChar, hname, reference]
  | cons c t ih =>
    have hc : isIdChar c = true := ht c List.mem_cons_self
    have hne : c ≠ '}' := isIdChar_ne (by decide) hc
    have hread : scanChar lookup c (.braced name) = ([], .braced (name ++ [c])) := by
      simp [scanChar, hne, hname, hc]
    have hnext : next c (.braced name) = .braced (name ++ [c]) := by
      rw [← scanChar_snd lookup, hread]
    have hnames : namesChar c (.braced name) = [] := by simp [namesChar, hne]
    obtain ⟨hmode, hemitted, hcompleted⟩ := ih (name ++ [c]) (by simp)
      fun c' hc' => ht c' (List.mem_cons_of_mem c hc')
    rw [List.append_assoc, List.singleton_append] at hemitted hcompleted
    rw [List.cons_append]
    refine ⟨?_, ?_, ?_⟩
    · rw [endMode, hnext, hmode]
    · rw [emitted, hread, hnext, hemitted, List.nil_append]
    · rw [completed, hnames, hnext, hcompleted, List.nil_append]

/-- A reference is read as a whole. -/
theorem reference_spec (lookup : Text → Option Text) (hn : IsName n) :
    endMode .plain (reference n) = .plain ∧
    emitted lookup .plain (reference n) = emit lookup n (reference n) ∧
    completed .plain (reference n) = [n] := by
  cases n with
  | nil => exact hn.elim
  | cons c t =>
    obtain ⟨hc, ht⟩ := hn
    have hclose : c ≠ '}' := isIdStart_ne (by decide) hc
    obtain ⟨hmode, hemitted, hcompleted⟩ :=
      braced_spec lookup [c] (List.cons_ne_nil c []) ht
    have hread : scanChar lookup c (.braced []) = ([], .braced [c]) := by
      simp [scanChar, hclose, hc]
    have hnext : next c (.braced []) = .braced [c] := by rw [← scanChar_snd lookup, hread]
    have hdollar : next '$' .plain = .dollar := rfl
    have hbrace : next '{' .dollar = .braced [] := rfl
    have hnames : namesChar c (.braced []) = [] := by simp [namesChar]
    rw [List.singleton_append] at hemitted hcompleted
    refine ⟨?_, ?_, ?_⟩
    · rw [reference, endMode, endMode, List.cons_append, endMode, hdollar, hbrace, hnext, hmode]
    · conv_lhs => rw [reference, emitted, emitted, List.cons_append, emitted, hdollar, hbrace,
        hread, hnext, hemitted]
      rfl
    · rw [reference, completed, completed, List.cons_append, completed, hdollar, hbrace, hnames,
        hnext, hcompleted]
      rfl

/-- What one piece is in a template. -/
def renderPiece : Piece Text Text → Text
  | .lit t => t
  | .ref n => reference n

/-- The template that is a word. -/
def render (w : Word Text Text) : Text := w.flatMap renderPiece

/-- A piece that is what it stands for in a template. -/
def SoundPiece : Piece Text Text → Prop
  | .lit t => Inert t
  | .ref n => IsName n

/-- A word of such pieces. -/
def Sound (w : Word Text Text) : Prop := ∀ p ∈ w, SoundPiece p

instance : DecidablePred SoundPiece
  | .lit t => inferInstanceAs (Decidable (Inert t))
  | .ref n => inferInstanceAs (Decidable (IsName n))

instance (w : Word Text Text) : Decidable (Sound w) :=
  inferInstanceAs (Decidable (∀ p ∈ w, SoundPiece p))

/-- The templates that are words: the dollar signs in them are inert or begin braced
variables. -/
def Plain (value : Text) : Prop := ∃ w : Word Text Text, Sound w ∧ render w = value

variable {σ : Text → Word Text Text} {w : Word Text Text}

theorem render_cons (p : Piece Text Text) (w : Word Text Text) :
    render (p :: w) = renderPiece p ++ render w := List.flatMap_cons

theorem render_append (w w' : Word Text Text) : render (w ++ w') = render w ++ render w' :=
  List.flatMap_append

theorem Sound.subst (hw : Sound w) (hσ : ∀ n, .ref n ∈ w → Sound (σ n)) : Sound (subst σ w) := by
  intro p hp
  obtain ⟨q, hq, hpq⟩ := List.mem_flatMap.mp hp
  cases q with
  | lit t =>
    rw [substPiece, List.mem_singleton] at hpq
    exact hpq ▸ hw _ hq
  | ref n => exact hσ n hq p hpq

/-- A word is read piece by piece. -/
theorem render_spec (lookup : Text → Option Text) (hw : Sound w)
    (hσ : ∀ n, (lookup n).getD (reference n) = render (σ n)) :
    endMode .plain (render w) = .plain ∧
    emitted lookup .plain (render w) = render (subst σ w) ∧
    ∀ n, n ∈ completed .plain (render w) ↔ .ref n ∈ w := by
  induction w with
  | nil => exact ⟨rfl, rfl, by simp [render, completed]⟩
  | cons p w ih =>
    obtain ⟨hmode, hemitted, hnames⟩ := ih fun q hq => hw q (List.mem_cons_of_mem p hq)
    have hpiece : endMode .plain (renderPiece p) = .plain ∧
        emitted lookup .plain (renderPiece p) = render (substPiece σ p) ∧
        ∀ n, n ∈ completed .plain (renderPiece p) ↔ .ref n = p := by
      have hsound := hw p List.mem_cons_self
      cases p with
      | lit t =>
        have hinert : Inert t := hsound
        refine ⟨hinert.1, ?_, ?_⟩
        · simpa [substPiece, render, renderPiece] using hinert.emitted_eq lookup
        · simp [renderPiece, hinert.2.2]
      | ref n =>
        obtain ⟨hmode, hemitted, hcompleted⟩ := reference_spec lookup (n := n) hsound
        refine ⟨hmode, ?_, ?_⟩
        · rw [renderPiece, hemitted]
          exact hσ n
        · simp [renderPiece, hcompleted]
    rw [render_cons, endMode_append, emitted_append, completed_append, hpiece.1, hpiece.2.1,
      hemitted, subst_cons, render_append]
    refine ⟨hmode, rfl, fun n => ?_⟩
    rw [List.mem_append, hpiece.2.2, hnames, List.mem_cons]

/-- **The substitution on words.** -/
theorem safeSubstitute_render (hw : Sound w)
    (hσ : ∀ n, (lookup n).getD (reference n) = render (σ n)) :
    safeSubstitute lookup (render w) = render (subst σ w) := by
  obtain ⟨hmode, hemitted, -⟩ := render_spec lookup hw hσ
  rw [safeSubstitute, scan_eq, hmode, hemitted, finish, List.append_nil]

/-- **The variables of a word** are those it refers to. -/
theorem mem_names_render (hw : Sound w) : n ∈ names (render w) ↔ .ref n ∈ w := by
  obtain ⟨hmode, -, hnames⟩ := render_spec (σ := fun n => [.ref n]) (fun _ => none) hw
    fun n => by simp [render, renderPiece]
  have hend : namesEnd (endMode .plain (render w)) = [] := by
    rw [hmode]
    rfl
  rw [names, hend, List.append_nil]
  exact hnames n

end Template
