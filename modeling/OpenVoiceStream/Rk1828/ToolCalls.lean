import OpenVoiceStream.Base.Cut
import OpenVoiceStream.Base.Template

/-!
# Tool calls in a text

The model writes a tool call as text between two tags. `ToolCallSplitter` takes the text in pieces,
hands out what is outside of the tags, and collects what is between them. An end of the text that
may be the beginning of a tag is held back.

## Main definitions

* `Splitter`, `Splitter.feed`, `Splitter.flush` — the splitter.
* `Splitter.feedAll` — what it hands out for some pieces.

## Main results

* `drain_append` — what comes later does not change what has been handed out.
* `feedAll_eq_feed` — the pieces of a text lead to the same content, and to the same calls, as the
  text at once.
-/

namespace OpenVoiceStream
namespace Rk1828

/-- `TOOL_OPEN`. -/
def toolOpen : Text := "<tool_call>".toList

/-- `TOOL_CLOSE`. -/
def toolClose : Text := "</tool_call>".toList

/-- `ToolCallSplitter`. -/
structure Splitter where
  buf : Text
  inCall : Bool
  bodies : List Text
  truncated : Bool

namespace Splitter

/-- `__init__`. -/
def init : Splitter := { buf := [], inCall := false, bodies := [], truncated := false }

/-- The loop of `feed`, for so many rounds at most: what is handed out, and the splitter then. -/
def drain : ℕ → Splitter → Text × Splitter
  | 0, s => ([], s)
  | n + 1, s =>
    if s.inCall then
      match cutAt toolClose s.buf with
      | none => ([], s)
      | some (body, rest) =>
        drain n { s with buf := rest, inCall := false, bodies := s.bodies ++ [body] }
    else
      match cutAt toolOpen s.buf with
      | some (text, rest) =>
        (text ++ (drain n { s with buf := rest, inCall := true }).1,
          (drain n { s with buf := rest, inCall := true }).2)
      | none =>
        let shown := s.buf.length - heldBack toolOpen s.buf
        (s.buf.take shown, { s with buf := s.buf.drop shown })

theorem drain_succ (n : ℕ) (s : Splitter) :
    drain (n + 1) s =
      if s.inCall then
        match cutAt toolClose s.buf with
        | none => ([], s)
        | some (body, rest) =>
          drain n { s with buf := rest, inCall := false, bodies := s.bodies ++ [body] }
      else
        match cutAt toolOpen s.buf with
        | some (text, rest) =>
          (text ++ (drain n { s with buf := rest, inCall := true }).1,
            (drain n { s with buf := rest, inCall := true }).2)
        | none =>
          (s.buf.take (s.buf.length - heldBack toolOpen s.buf),
            { s with buf := s.buf.drop (s.buf.length - heldBack toolOpen s.buf) }) := rfl

/-- The loop of `feed`. -/
def drained (s : Splitter) : Text × Splitter := drain (s.buf.length + 1) s

/-- `feed`. -/
def feed (s : Splitter) (piece : Text) : Text × Splitter := drained { s with buf := s.buf ++ piece }

/-- `flush`. -/
def flush (s : Splitter) : Text × Splitter :=
  if s.inCall then ([], { s with buf := [], truncated := true }) else (s.buf, { s with buf := [] })

/-- What is handed out for some pieces, one after the other. -/
def feedAll (s : Splitter) : List Text → List Text × Splitter
  | [] => ([], s)
  | piece :: rest =>
    ((s.feed piece).1 :: (feedAll (s.feed piece).2 rest).1, (feedAll (s.feed piece).2 rest).2)

/-! ### The loop -/

theorem cutAt_length {pat text a b : Text} (hpat : pat ≠ []) (h : cutAt pat text = some (a, b)) :
    b.length < text.length := by
  have hpos := List.length_pos_of_ne_nil hpat
  rw [cutAt_eq_some h, List.length_append, List.length_append]
  omega

theorem toolOpen_ne_nil : toolOpen ≠ [] := by decide

theorem toolClose_ne_nil : toolClose ≠ [] := by decide

/-- The loop ends by itself. -/
theorem drain_eq {n m : ℕ} {s : Splitter} (hn : s.buf.length < n) (hm : s.buf.length < m) :
    drain n s = drain m s := by
  induction n generalizing m s with
  | zero => omega
  | succ n ih =>
    cases m with
    | zero => omega
    | succ m =>
      rw [drain_succ, drain_succ]
      split
      · split
        · rfl
        · next hcut =>
          have hlt := cutAt_length toolClose_ne_nil hcut
          exact ih (by dsimp only; omega) (by dsimp only; omega)
      · split
        · next rest hcut =>
          have hlt := cutAt_length toolOpen_ne_nil hcut
          have hrest : drain n { s with buf := rest, inCall := true } =
              drain m { s with buf := rest, inCall := true } :=
            ih (by dsimp only; omega) (by dsimp only; omega)
          rw [hrest]
        · rfl

theorem drained_inCall_none {s : Splitter} (hcall : s.inCall = true)
    (hcut : cutAt toolClose s.buf = none) : drained s = ([], s) := by
  rw [drained, drain_succ, if_pos hcall, hcut]

theorem drained_inCall_some {s : Splitter} (hcall : s.inCall = true) {body rest : Text}
    (hcut : cutAt toolClose s.buf = some (body, rest)) :
    drained s = drained { s with buf := rest, inCall := false, bodies := s.bodies ++ [body] } := by
  have hlt := cutAt_length toolClose_ne_nil hcut
  rw [drained, drain_succ, if_pos hcall, hcut]
  exact drain_eq hlt (Nat.lt_succ_self _)

theorem drained_some {s : Splitter} (hcall : s.inCall = false) {text rest : Text}
    (hcut : cutAt toolOpen s.buf = some (text, rest)) :
    drained s =
      (text ++ (drained { s with buf := rest, inCall := true }).1,
        (drained { s with buf := rest, inCall := true }).2) := by
  have hlt := cutAt_length toolOpen_ne_nil hcut
  have hrest : drain s.buf.length { s with buf := rest, inCall := true } =
      drained { s with buf := rest, inCall := true } := drain_eq hlt (Nat.lt_succ_self _)
  rw [drained, drain_succ, if_neg (by rw [hcall]; exact Bool.false_ne_true), hcut]
  dsimp only
  rw [hrest]

theorem drained_none {s : Splitter} (hcall : s.inCall = false)
    (hcut : cutAt toolOpen s.buf = none) :
    drained s =
      (s.buf.take (s.buf.length - heldBack toolOpen s.buf),
        { s with buf := s.buf.drop (s.buf.length - heldBack toolOpen s.buf) }) := by
  rw [drained, drain_succ, if_neg (by rw [hcall]; exact Bool.false_ne_true), hcut]

/-! ### Pieces -/

/-- Without an occurrence the text is a front that is clear, and what is held back. -/
theorem clear_shown {text : Text} (hcut : cutAt toolOpen text = none) :
    Clear toolOpen (text.take (text.length - heldBack toolOpen text))
      (text.drop (text.length - heldBack toolOpen text)) := by
  intro s hs hlong
  rw [List.take_append_drop] at hs
  have hle := (heldBack_spec toolOpen text).1
  rw [List.length_drop] at hlong
  exact clear_of_heldBack hcut hs (by omega)

/-- **What comes later does not change what has been handed out.** -/
theorem drain_append (s : Splitter) (more : Text) :
    drained { s with buf := s.buf ++ more } =
      ((drained s).1 ++ (drained { (drained s).2 with buf := (drained s).2.buf ++ more }).1,
        (drained { (drained s).2 with buf := (drained s).2.buf ++ more }).2) := by
  induction hlength : s.buf.length using Nat.strong_induction_on generalizing s with
  | _ n ih =>
    by_cases hcall : s.inCall = true
    · cases hcut : cutAt toolClose s.buf with
      | none =>
        rw [drained_inCall_none hcall hcut]
        exact Prod.ext (List.nil_append _).symm rfl
      | some cut =>
        obtain ⟨body, rest⟩ := cut
        have hlt := cutAt_length toolClose_ne_nil hcut
        rw [drained_inCall_some hcall hcut,
          drained_inCall_some (s := { s with buf := s.buf ++ more }) hcall
            (cutAt_append hcut more)]
        exact ih _ (hlength ▸ hlt)
          { s with buf := rest, inCall := false, bodies := s.bodies ++ [body] } rfl
    · rw [Bool.not_eq_true] at hcall
      cases hcut : cutAt toolOpen s.buf with
      | some cut =>
        obtain ⟨text, rest⟩ := cut
        have hlt := cutAt_length toolOpen_ne_nil hcut
        have hrest := ih _ (hlength ▸ hlt) { s with buf := rest, inCall := true } rfl
        rw [drained_some hcall hcut,
          drained_some (s := { s with buf := s.buf ++ more }) hcall (cutAt_append hcut more)]
        dsimp only at hrest ⊢
        rw [hrest, List.append_assoc]
      | none =>
        have hclear := clear_shown hcut
        have hparts := List.take_append_drop (s.buf.length - heldBack toolOpen s.buf) s.buf
        rw [drained_none hcall hcut]
        generalize s.buf.take (s.buf.length - heldBack toolOpen s.buf) = front at *
        generalize s.buf.drop (s.buf.length - heldBack toolOpen s.buf) = held at *
        rw [← hparts, List.append_assoc]
        dsimp only
        have hmore := cutAt_clear hclear more
        cases hcut' : cutAt toolOpen (held ++ more) with
        | some cut =>
          obtain ⟨text, rest⟩ := cut
          rw [hcut', Option.map_some] at hmore
          rw [drained_some (s := { s with buf := front ++ (held ++ more) }) hcall hmore,
            drained_some (s := { s with buf := held ++ more }) hcall hcut', List.append_assoc]
        | none =>
          rw [hcut', Option.map_none] at hmore
          rw [drained_none (s := { s with buf := front ++ (held ++ more) }) hcall hmore,
            drained_none (s := { s with buf := held ++ more }) hcall hcut']
          dsimp only
          have hle := (heldBack_spec toolOpen (held ++ more)).1
          have hshown : (front ++ (held ++ more)).length - heldBack toolOpen (held ++ more) =
              front.length + ((held ++ more).length - heldBack toolOpen (held ++ more)) := by
            rw [List.length_append]
            omega
          rw [heldBack_clear hclear, hshown, List.take_length_add_append,
            List.drop_length_add_append]

theorem feed_append (s : Splitter) (x y : Text) :
    s.feed (x ++ y) = ((s.feed x).1 ++ ((s.feed x).2.feed y).1, ((s.feed x).2.feed y).2) := by
  have h := drain_append { s with buf := s.buf ++ x } y
  rw [feed, ← List.append_assoc]
  exact h

theorem feed_feedAll (s : Splitter) (x : Text) (pieces : List Text) :
    s.feed (x ++ pieces.flatten) =
      ((s.feed x).1 ++ ((s.feed x).2.feedAll pieces).1.flatten,
        ((s.feed x).2.feedAll pieces).2) := by
  induction pieces generalizing x with
  | nil => simp [feedAll]
  | cons piece rest ih =>
    rw [List.flatten_cons, ← List.append_assoc, ih, feed_append]
    simp [feedAll]

/-- **The pieces of a text are split as the text at once.** -/
theorem feedAll_eq_feed (pieces : List Text) :
    ((init.feedAll pieces).1.flatten, (init.feedAll pieces).2) = init.feed pieces.flatten := by
  have hnil : init.feed [] = ([], init) := rfl
  have h := feed_feedAll init [] pieces
  rw [hnil, List.nil_append] at h
  exact h.symm

end Splitter

end Rk1828
end OpenVoiceStream
