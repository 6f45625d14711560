import OpenVoiceStream.Wyoming.Clause

/-!
# What becomes of a text

A buffer hands out a text in parts. `Spoken Skip text parts` says how the parts lie in the text:
it falls into pieces, one after the other, and a piece is handed out without the white space
around it, or is left out if it may be left out. `Takes` is the same for a buffer that still
holds the end of the text.

* `Spoken.solid_eq` — if only blanks are left out, the parts are the text, white space apart.
* `TextBuffer.takes_addAll` — what each `add` does to the buffer, it does over all chunks.
-/

namespace OpenVoiceStream
namespace V2v
namespace Tts

open Wyoming (solid solid_append solid_strip solid_lstrip strip_eq_nil_iff)

section Spoken

variable (u : CharTables)

/-- The text falls into pieces that are handed out, or left out. -/
inductive Spoken (Skip : Text → Prop) : Text → List Text → Prop
  | nil : Spoken Skip [] []
  | part (piece : Text) {text : Text} {parts : List Text} :
      Spoken Skip text parts → Spoken Skip (piece ++ text) (strip u piece :: parts)
  | skip {piece text : Text} {parts : List Text} :
      Skip piece → Spoken Skip text parts → Spoken Skip (piece ++ text) parts

/-- The buffer hands out these parts from its front, and keeps the rest. -/
def Takes (Skip : Text → Prop) (buf : Text) (parts : List Text) (rest : Text) : Prop :=
  ∃ front, buf = front ++ rest ∧ Spoken u Skip front parts

/-- Nothing but white space. -/
def Blank (text : Text) : Prop := solid u text = []

instance (text : Text) : Decidable (Blank u text) := inferInstanceAs (Decidable (_ = _))

variable {u} {Skip : Text → Prop}

theorem Spoken.append {xs ys : Text} {ps qs : List Text} (h : Spoken u Skip xs ps)
    (h' : Spoken u Skip ys qs) : Spoken u Skip (xs ++ ys) (ps ++ qs) := by
  induction h with
  | nil => exact h'
  | part piece _ ih =>
    rw [List.append_assoc]
    exact .part piece ih
  | skip hskip _ ih =>
    rw [List.append_assoc]
    exact .skip hskip ih

theorem Spoken.mono {Skip' : Text → Prop} {text : Text} {parts : List Text}
    (h : Spoken u Skip text parts) (hskip : ∀ piece, Skip piece → Skip' piece) :
    Spoken u Skip' text parts := by
  induction h with
  | nil => exact .nil
  | part piece _ ih => exact .part piece ih
  | skip hpiece _ ih => exact .skip (hskip _ hpiece) ih

theorem Spoken.single (piece : Text) : Spoken u Skip piece [strip u piece] := by
  have h : Spoken u Skip (piece ++ []) [strip u piece] := .part piece .nil
  rwa [List.append_nil] at h

theorem Spoken.skipped {piece : Text} (hskip : Skip piece) : Spoken u Skip piece [] := by
  have h := Spoken.skip (u := u) hskip .nil
  rwa [List.append_nil] at h

/-- If only blanks are left out, the parts are the text. -/
theorem Spoken.solid_eq {text : Text} {parts : List Text} (h : Spoken u (Blank u) text parts) :
    solid u parts.flatten = solid u text := by
  induction h with
  | nil => rfl
  | part piece _ ih => rw [List.flatten_cons, solid_append, solid_strip, ih, solid_append]
  | skip hblank _ ih => rw [ih, solid_append, hblank, List.nil_append]

/-- White space in front of a text may be left out. -/
theorem takes_lstrip (buf : Text) : Takes u (Blank u) buf [] (lstrip u buf) := by
  refine ⟨buf.takeWhile u.isSpace, List.takeWhile_append_dropWhile.symm, .skipped ?_⟩
  have hspace := List.all_takeWhile (l := buf) (p := u.isSpace)
  simp only [Blank, solid, List.filter_eq_nil_iff]
  intro c hc
  simp [List.all_eq_true.mp hspace c hc]

theorem Takes.refl (buf : Text) : Takes u Skip buf [] buf := ⟨[], rfl, .nil⟩

theorem Takes.trans {buf mid rest : Text} {ps qs : List Text} (h : Takes u Skip buf ps mid)
    (h' : Takes u Skip mid qs rest) : Takes u Skip buf (ps ++ qs) rest := by
  obtain ⟨front, rfl, hfront⟩ := h
  obtain ⟨front', rfl, hfront'⟩ := h'
  exact ⟨front ++ front', (List.append_assoc ..).symm, hfront.append hfront'⟩

/-- What comes in later stays behind what is there. -/
theorem Takes.more {buf rest : Text} {parts : List Text} (h : Takes u Skip buf parts rest)
    (more : Text) : Takes u Skip (buf ++ more) parts (rest ++ more) := by
  obtain ⟨front, rfl, hfront⟩ := h
  exact ⟨front, List.append_assoc .., hfront⟩

end Spoken

/-! ### Many chunks -/

/-- The parts some chunks lead to, and the buffer after them. -/
def TextBuffer.addAll {β : Type} (b : TextBuffer β) (s : β) : List Text → List Text × β
  | [] => ([], s)
  | chunk :: rest =>
    ((b.add s chunk).1 ++ (addAll b (b.add s chunk).2 rest).1,
      (addAll b (b.add s chunk).2 rest).2)

/-- The parts of a reply: its chunks are added, and the buffer is flushed. -/
def TextBuffer.speak {β : Type} (b : TextBuffer β) (s : β) (chunks : List Text) : List Text × β :=
  ((b.addAll s chunks).1 ++ (b.flush (b.addAll s chunks).2).1, (b.flush (b.addAll s chunks).2).2)

/-- **What each chunk does to the buffer, all of them do.** -/
theorem TextBuffer.takes_addAll {u : CharTables} {Skip : Text → Prop} {b : TextBuffer Text}
    (hadd : ∀ buf chunk, Takes u Skip (buf ++ chunk) (b.add buf chunk).1 (b.add buf chunk).2)
    (buf : Text) (chunks : List Text) :
    Takes u Skip (buf ++ chunks.flatten) (b.addAll buf chunks).1 (b.addAll buf chunks).2 := by
  induction chunks generalizing buf with
  | nil =>
    rw [List.flatten_nil, List.append_nil]
    exact .refl buf
  | cons chunk rest ih =>
    rw [List.flatten_cons, ← List.append_assoc]
    exact ((hadd buf chunk).more _).trans (ih _)

/-- What holds of every buffer that `add` leaves holds of the one after the last chunk. -/
theorem TextBuffer.addAll_induction {β : Type} {b : TextBuffer β} {P : β → Prop} {s : β}
    (hs : P s) (hadd : ∀ s chunk, P s → P (b.add s chunk).2) (chunks : List Text) :
    P (b.addAll s chunks).2 := by
  induction chunks generalizing s with
  | nil => exact hs
  | cons chunk rest ih => exact ih (hadd s chunk hs)

end Tts
end V2v
end OpenVoiceStream
