import OpenVoiceStream.Rk1828.ToolCalls

/-!
# The spans of a text

A text is read from the left: a span begins at the first opening tag, and ends at the first
closing tag behind it.  The content is what is outside of the spans.  A span that is never
closed goes to the end of the text.

## Main definitions

* `Spans` — the content of a text, the bodies of its spans, and whether the last one is open.
* `Outcome`, `outcome` — what is made of a text that comes in pieces.

## Main results

* `Spans.unique` — a text is read in one way.
* `spans_finish` — the splitter reads the text so.
* `tool_calls_split` — whatever the pieces are.
-/

namespace OpenVoiceStream
namespace Rk1828

/-- The content of a text, the bodies of its spans, and whether the last one is never closed. -/
inductive Spans : Text → Text → List Text → Bool → Prop
  /-- There is no opening tag. -/
  | plain {text : Text} (hopen : ¬toolOpen <:+: text) : Spans text text [] false
  /-- The span that begins first is never closed. -/
  | unclosed {text before rest : Text} (hopen : FirstCut toolOpen text before rest)
      (hclose : ¬toolClose <:+: rest) : Spans text before [] true
  /-- The span that begins first ends at the first closing tag. -/
  | closed {text before rest body behind content : Text} {bodies : List Text} {truncated : Bool}
      (hopen : FirstCut toolOpen text before rest) (hclose : FirstCut toolClose rest body behind)
      (hrest : Spans behind content bodies truncated) :
      Spans text (before ++ content) (body :: bodies) truncated

namespace Spans

variable {text content content' : Text} {bodies bodies' : List Text} {truncated truncated' : Bool}

theorem infix_of_firstCut {pat a b : Text} (h : FirstCut pat text a b) : pat <:+: text :=
  ⟨a, b, by rw [h.eq, List.append_assoc]⟩

/-- **A text is read in one way.** -/
theorem unique (h : Spans text content bodies truncated)
    (h' : Spans text content' bodies' truncated') :
    content = content' ∧ bodies = bodies' ∧ truncated = truncated' := by
  induction h generalizing content' bodies' truncated' with
  | plain hopen =>
    cases h' with
    | plain => exact ⟨rfl, rfl, rfl⟩
    | unclosed hopen' => exact absurd (infix_of_firstCut hopen') hopen
    | closed hopen' => exact absurd (infix_of_firstCut hopen') hopen
  | unclosed hopen hclose =>
    cases h' with
    | plain hopen' => exact absurd (infix_of_firstCut hopen) hopen'
    | unclosed hopen' => exact ⟨(hopen.unique hopen').1, rfl, rfl⟩
    | closed hopen' hclose' =>
      obtain ⟨-, rfl⟩ := hopen.unique hopen'
      exact absurd (infix_of_firstCut hclose') hclose
  | closed hopen hclose _ ih =>
    cases h' with
    | plain hopen' => exact absurd (infix_of_firstCut hopen) hopen'
    | unclosed hopen' hclose' =>
      obtain ⟨-, rfl⟩ := hopen.unique hopen'
      exact absurd (infix_of_firstCut hclose) hclose'
    | closed hopen' hclose' hrest' =>
      obtain ⟨rfl, rfl⟩ := hopen.unique hopen'
      obtain ⟨rfl, rfl⟩ := hclose.unique hclose'
      obtain ⟨rfl, rfl, rfl⟩ := ih hrest'
      exact ⟨rfl, rfl, rfl⟩

end Spans

namespace Splitter

/-- The loop of `feed`, and `flush`. -/
def finish (s : Splitter) : Text × Splitter :=
  (s.drained.1 ++ s.drained.2.flush.1, s.drained.2.flush.2)

/-- The loop reads what is in the buffer. -/
theorem spans_finish (s : Splitter) (hcall : s.inCall = false) (htruncated : s.truncated = false) :
    ∃ bodies, s.finish.2.bodies = s.bodies ++ bodies ∧
      Spans s.buf s.finish.1 bodies s.finish.2.truncated := by
  induction hlength : s.buf.length using Nat.strong_induction_on generalizing s with
  | _ n ih =>
    cases hcut : cutAt toolOpen s.buf with
    | none =>
      have hparts := List.take_append_drop (s.buf.length - heldBack toolOpen s.buf) s.buf
      refine ⟨[], ?_, ?_⟩
      · rw [finish, drained_none hcall hcut]
        simp [flush, hcall]
      · rw [finish, drained_none hcall hcut]
        simp only [flush, hcall, Bool.false_eq_true, if_false, hparts, htruncated]
        exact .plain (cutAt_eq_none_iff.mp hcut)
    | some cut =>
      obtain ⟨before, rest⟩ := cut
      have hopen := cutAt_eq_some_iff.mp hcut
      have hshort := cutAt_length toolOpen_ne_nil hcut
      cases hclose : cutAt toolClose rest with
      | none =>
        refine ⟨[], ?_, ?_⟩
        · rw [finish, drained_some hcall hcut, drained_inCall_none rfl hclose]
          simp [flush]
        · rw [finish, drained_some hcall hcut, drained_inCall_none rfl hclose]
          simp only [flush, if_true, List.append_nil]
          exact .unclosed hopen (cutAt_eq_none_iff.mp hclose)
      | some cut =>
        obtain ⟨body, behind⟩ := cut
        have hshort' := cutAt_length toolClose_ne_nil hclose
        obtain ⟨bodies, hbodies, hspans⟩ := ih behind.length (by omega)
          { s with buf := behind, inCall := false, bodies := s.bodies ++ [body] } rfl htruncated rfl
        have hfinish : s.finish =
            (before ++ (finish { s with
              buf := behind, inCall := false, bodies := s.bodies ++ [body] }).1,
              (finish { s with buf := behind, inCall := false, bodies := s.bodies ++ [body] }).2) := by
          rw [finish, drained_some hcall hcut, drained_inCall_some rfl hclose]
          dsimp only
          rw [List.append_assoc]
          rfl
        refine ⟨body :: bodies, ?_, ?_⟩
        · rw [hfinish]
          exact hbodies.trans (by rw [List.append_assoc]; rfl)
        · rw [hfinish]
          exact .closed hopen (cutAt_eq_some_iff.mp hclose) hspans

/-- Outside of a call only the beginning of an opening tag is held back. -/
def HoldsTag (s : Splitter) : Prop :=
  s.inCall = false → s.buf <+: toolOpen ∧ s.buf ≠ toolOpen

theorem holdsTag_init : init.HoldsTag := fun _ => ⟨List.nil_prefix, toolOpen_ne_nil.symm⟩

theorem holdsTag_drained (s : Splitter) : s.drained.2.HoldsTag := by
  induction hlength : s.buf.length using Nat.strong_induction_on generalizing s with
  | _ n ih =>
    by_cases hcall : s.inCall = true
    · cases hcut : cutAt toolClose s.buf with
      | none =>
        rw [drained_inCall_none hcall hcut]
        exact fun h => absurd (hcall.symm.trans h) (by decide)
      | some cut =>
        rw [drained_inCall_some hcall hcut]
        exact ih _ (hlength ▸ cutAt_length toolClose_ne_nil hcut) _ rfl
    · rw [Bool.not_eq_true] at hcall
      cases hcut : cutAt toolOpen s.buf with
      | some cut =>
        rw [drained_some hcall hcut]
        exact ih _ (hlength ▸ cutAt_length toolOpen_ne_nil hcut) _ rfl
      | none =>
        rw [drained_none hcall hcut]
        intro _
        -- what is held back ends the buffer, and begins the tag
        obtain ⟨hle, hsuffix⟩ := heldBack_spec toolOpen s.buf
        have htag : 0 < toolOpen.length := List.length_pos_of_ne_nil toolOpen_ne_nil
        have hheld : (toolOpen.take (heldBack toolOpen s.buf)).length =
            heldBack toolOpen s.buf := by
          rw [List.length_take]
          omega
        have hdrop : s.buf.drop (s.buf.length - heldBack toolOpen s.buf) =
            toolOpen.take (heldBack toolOpen s.buf) := by
          rw [List.suffix_iff_eq_drop.mp hsuffix, hheld]
        dsimp only
        rw [hdrop]
        refine ⟨List.take_prefix _ _, fun heq => ?_⟩
        rw [heq] at hheld
        omega

theorem holdsTag_feedAll {s : Splitter} (h : s.HoldsTag) (pieces : List Text) :
    (s.feedAll pieces).2.HoldsTag := by
  induction pieces generalizing s with
  | nil => exact h
  | cons piece rest ih => exact ih (holdsTag_drained _)

end Splitter

/-- What is made of a text: the content, the bodies of the calls, and whether one was dropped. -/
structure Outcome where
  content : Text
  bodies : List Text
  truncated : Bool
  deriving DecidableEq

/-- The pieces are fed one after the other, and the rest is flushed. -/
def outcome (pieces : List Text) : Outcome where
  content := (Splitter.init.feedAll pieces).1.flatten ++ (Splitter.init.feedAll pieces).2.flush.1
  bodies := (Splitter.init.feedAll pieces).2.flush.2.bodies
  truncated := (Splitter.init.feedAll pieces).2.flush.2.truncated

/-- The text at once. -/
theorem outcome_eq (pieces : List Text) :
    outcome pieces =
      { content := (Splitter.finish { Splitter.init with buf := pieces.flatten }).1
        bodies := (Splitter.finish { Splitter.init with buf := pieces.flatten }).2.bodies
        truncated := (Splitter.finish { Splitter.init with buf := pieces.flatten }).2.truncated } := by
  have hfeed : Splitter.init.feed pieces.flatten =
      Splitter.drained { Splitter.init with buf := pieces.flatten } := rfl
  obtain ⟨hout, hstate⟩ := Prod.mk.inj ((Splitter.feedAll_eq_feed pieces).trans hfeed)
  rw [outcome, hout, hstate]
  rfl

/-- **The pieces do not matter**: however a text is cut, the content, the bodies of the calls and
the flag are those of the text at once, and they are what is outside of its spans, what is
inside of them, and whether the last one is never closed.  Outside of a call only the beginning
of an opening tag is held back. -/
theorem tool_calls_split (pieces : List Text) :
    outcome pieces = outcome [pieces.flatten] ∧
      Spans pieces.flatten (outcome pieces).content (outcome pieces).bodies
        (outcome pieces).truncated ∧
      ∀ fed, fed <+: pieces → (Splitter.init.feedAll fed).2.HoldsTag := by
  refine ⟨?_, ?_, fun fed _ => Splitter.holdsTag_feedAll Splitter.holdsTag_init fed⟩
  · rw [outcome_eq, outcome_eq, List.flatten_singleton]
  · rw [outcome_eq]
    obtain ⟨bodies, hbodies, hspans⟩ :=
      Splitter.spans_finish { Splitter.init with buf := pieces.flatten } rfl rfl
    have hsame : bodies =
        (Splitter.finish { Splitter.init with buf := pieces.flatten }).2.bodies := hbodies.symm
    exact hsame ▸ hspans

/-- Tags that abut, one that is cut, and one inside of a call. -/
example : outcome ["a<tool".toList, "_call>{<tool_call>}</tool_call><tool_".toList,
      "call>b</tool_call".toList, "><tool_cal".toList] =
    { content := "a<tool_cal".toList, bodies := ["{<tool_call>}".toList, ['b']]
      truncated := false } := by
  decide +kernel

end Rk1828
end OpenVoiceStream
