import Mathlib.Data.List.Infix
import Mathlib.Data.List.Chain

/-!
# The commitment of simultaneous interpretation

`SegmentCommitter` turns the partial hypotheses of a recogniser into segments that can be
translated and spoken at once.  What is committed is locked: spoken audio cannot be taken
back.

A commit cuts the new segment off by its length alone.  So what is sent is an append-only
text exactly as long as no hypothesis that commits disagrees with what was committed
before.

## Main definitions

* `Committer`, `State` — the settings of a committer and what it remembers.
* `commitTarget`, `pushPartial`, `finalize` — the committer.
* `utterance` — the events of one utterance.
* `AppendOnly` — what has been sent is never retracted, skipped or sent twice.
* `KeepsCommitted` — no hypothesis that commits disagrees with what was committed.

## Main results

* `appendOnly_iff_keepsCommitted` — an utterance is append-only exactly in this case.
* `revisedRun_skips` — a recogniser that revises its words.
-/

namespace OpenVoiceStream
namespace Translate

/-- The texts. -/
abbrev Text := List Char

/-- How the events are consumed. -/
inductive Strategy
  | retranslation
  | monotonic
  deriving DecidableEq, Repr

/-- What an event is for. -/
inductive Kind
  | commit
  | tail
  deriving DecidableEq, Repr

/-- `SegmentEvent`. -/
structure SegmentEvent where
  seq : ℕ
  sourceText : Text
  committedSource : Text
  tailSource : Text
  isFinal : Bool
  strategy : Strategy
  revision : ℕ
  kind : Kind
  deriving DecidableEq, Repr

/-- The settings of a `SegmentCommitter`.  The constructor rejects an `agreement_n` below
one. -/
structure Committer where
  agreementN : ℕ
  agreementN_pos : 1 ≤ agreementN
  strategy : Strategy
  clausePunct : List Char
  minCommitChars : ℤ

/-- The default settings. -/
def Committer.default : Committer :=
  { agreementN := 2, agreementN_pos := by decide, strategy := .retranslation,
    clausePunct := ['。', '！', '？', '；', '，', ',', '.', '?', ';'], minCommitChars := 1 }

/-- What a `SegmentCommitter` remembers. -/
structure State where
  partials : List Text
  committedSource : Text
  tailSource : Text
  seq : ℕ
  revision : ℕ
  deriving DecidableEq, Repr

/-- Between two utterances only the counters are kept. -/
def State.idle (seq revision : ℕ) : State :=
  { partials := [], committedSource := [], tailSource := [], seq := seq, revision := revision }

/-- `reset`. -/
def State.reset (_ : State) : State := .idle 0 0

/-! ### The committer -/

/-- The common prefix of two texts. -/
def agree : Text → Text → Text
  | a :: s, b :: t => if a = b then a :: agree s t else []
  | _, _ => []

/-- The loop of `_common_prefix`. -/
def narrow : Text → List Text → Text
  | head, [] => head
  | head, s :: rest => if agree head s = [] then [] else narrow (agree head s) rest

/-- `_common_prefix`. -/
def commonPrefix : List Text → Text
  | [] => []
  | head :: rest => narrow head rest

/-- `partials[-n:]`. -/
def lastN (n : ℕ) (partials : List Text) : List Text := partials.drop (partials.length - n)

/-- The loop of `_last_clause_end`, below an index. -/
def clauseEndBelow (punct : List Char) (text : Text) : ℕ → ℕ
  | 0 => 0
  | i + 1 =>
    if (text[i]?).any (fun ch => decide (ch ∈ punct)) then i + 1 else clauseEndBelow punct text i

/-- `_last_clause_end`. -/
def lastClauseEnd (c : Committer) (text : Text) : ℕ :=
  clauseEndBelow c.clausePunct text text.length

/-- `_commit_target`, with the partials that are remembered. -/
def commitTarget (c : Committer) (partials : List Text) (text : Text) : Text :=
  let agreement :=
    if c.agreementN ≤ partials.length then commonPrefix (lastN c.agreementN partials) else []
  let clause := text.take (lastClauseEnd c text)
  if clause.length ≤ agreement.length then agreement else clause

/-- The partials remembered after one more. -/
def State.remember (c : Committer) (s : State) (text : Text) : List Text :=
  let partials := s.partials ++ [text]
  if c.agreementN < partials.length then lastN c.agreementN partials else partials

/-- The commit target of a partial. -/
def State.target (c : Committer) (s : State) (text : Text) : Text :=
  commitTarget c (s.remember c text) text

/-- A partial commits: its target reaches far enough behind what is committed. -/
def State.Commits (c : Committer) (s : State) (text : Text) : Prop :=
  s.committedSource.length < (s.target c text).length ∧
    c.minCommitChars ≤ ((s.target c text).length : ℤ) - s.committedSource.length

instance (c : Committer) (s : State) (text : Text) : Decidable (s.Commits c text) := by
  unfold State.Commits; infer_instance

/-- `push_partial`. -/
def pushPartial (c : Committer) (s : State) (text : Text) : List SegmentEvent × State :=
  let target := s.target c text
  let s' := { s with partials := s.remember c text }
  if s.Commits c text then
    let tail := text.drop target.length
    ([{ seq := s.seq + 1, sourceText := target.drop s.committedSource.length,
        committedSource := target, tailSource := tail, isFinal := false,
        strategy := c.strategy, revision := s.revision, kind := .commit }],
      { s' with committedSource := target, tailSource := tail, seq := s.seq + 1 })
  else
    let tail := text.drop s.committedSource.length
    if c.strategy = .retranslation ∧ tail ≠ s.tailSource then
      ([{ seq := s.seq, sourceText := tail, committedSource := s.committedSource,
          tailSource := tail, isFinal := false, strategy := c.strategy,
          revision := s.revision + 1, kind := .tail }],
        { s' with tailSource := tail, revision := s.revision + 1 })
    else ([], s')

/-- `finalize`. -/
def finalize (c : Committer) (s : State) (text : Text) : List SegmentEvent × State :=
  if s.committedSource.length < text.length then
    ([{ seq := s.seq + 1, sourceText := text.drop s.committedSource.length,
        committedSource := text, tailSource := [], isFinal := true,
        strategy := c.strategy, revision := s.revision, kind := .commit }],
      .idle (s.seq + 1) s.revision)
  else ([], .idle s.seq s.revision)

/-- The events of an utterance: its partials one after the other, and its final. -/
def utterance (c : Committer) (s : State) : List Text → Text → List SegmentEvent
  | [], final => (finalize c s final).1
  | text :: texts, final =>
    (pushPartial c s text).1 ++ utterance c (pushPartial c s text).2 texts final

/-! ### What is sent -/

/-- The commit events. -/
def commits (events : List SegmentEvent) : List SegmentEvent :=
  events.filter fun e => e.kind = .commit

/-- What has been sent is never retracted, skipped or sent twice: every committed text
extends the one before, and at every commit event the segments sent so far are the
committed text. -/
def AppendOnly (events : List SegmentEvent) : Prop :=
  ((commits events).map (·.committedSource)).IsChain (· <+: ·) ∧
    ∀ sofar, sofar <+: commits events → ∀ last ∈ sofar.getLast?,
      (sofar.map (·.sourceText)).flatten = last.committedSource

/-- No hypothesis that commits disagrees with what was committed before. -/
def KeepsCommitted (c : Committer) (s : State) : List Text → Text → Prop
  | [], final => s.committedSource.length < final.length → s.committedSource <+: final
  | text :: texts, final =>
    (s.Commits c text → s.committedSource <+: text) ∧
      KeepsCommitted c (pushPartial c s text).2 texts final

/-! ### The target of a partial -/

theorem agree_prefix_left (s t : Text) : agree s t <+: s := by
  fun_induction agree s t with
  | case1 a s t ih => exact List.cons_prefix_cons.mpr ⟨rfl, ih⟩
  | case2 | case3 => exact List.nil_prefix

theorem agree_prefix_right (s t : Text) : agree s t <+: t := by
  fun_induction agree s t with
  | case1 a s t ih => exact List.cons_prefix_cons.mpr ⟨rfl, ih⟩
  | case2 | case3 => exact List.nil_prefix

theorem narrow_le (head : Text) (rest : List Text) :
    narrow head rest <+: head ∧ ∀ s ∈ rest, narrow head rest <+: s := by
  induction rest generalizing head with
  | nil => exact ⟨List.prefix_refl head, by simp⟩
  | cons s rest ih =>
    unfold narrow
    split
    · exact ⟨List.nil_prefix, fun _ _ => List.nil_prefix⟩
    obtain ⟨hhead, hrest⟩ := ih (agree head s)
    refine ⟨hhead.trans (agree_prefix_left head s), fun t ht => ?_⟩
    rcases List.mem_cons.mp ht with rfl | ht
    · exact hhead.trans (agree_prefix_right head t)
    · exact hrest t ht

/-- The common prefix is a prefix of each text. -/
theorem commonPrefix_le {texts : List Text} {s : Text} (h : s ∈ texts) :
    commonPrefix texts <+: s := by
  cases texts with
  | nil => cases h
  | cons head rest =>
    obtain ⟨hhead, hrest⟩ := narrow_le head rest
    rcases List.mem_cons.mp h with rfl | h
    · exact hhead
    · exact hrest s h

/-- The last partials contain the latest one. -/
theorem mem_lastN {n : ℕ} (hn : 1 ≤ n) (partials : List Text) (text : Text) :
    text ∈ lastN n (partials ++ [text]) := by
  unfold lastN
  rw [List.drop_append_of_le_length (by simp only [List.length_append, List.length_singleton]; omega)]
  exact List.mem_append_right _ (List.mem_singleton_self text)

/-- The remembered partials end with the latest one. -/
theorem State.remember_eq (c : Committer) (s : State) (text : Text) :
    ∃ partials, s.remember c text = partials ++ [text] := by
  have hpos := c.agreementN_pos
  simp only [State.remember]
  split
  · refine ⟨s.partials.drop ((s.partials ++ [text]).length - c.agreementN), ?_⟩
    unfold lastN
    rw [List.drop_append_of_le_length
      (by simp only [List.length_append, List.length_singleton]; omega)]
  · exact ⟨s.partials, rfl⟩

/-- What a partial may commit is a prefix of it. -/
theorem State.target_le (c : Committer) (s : State) (text : Text) : s.target c text <+: text := by
  obtain ⟨partials, hpartials⟩ := s.remember_eq c text
  unfold State.target commitTarget
  rw [hpartials]
  generalize hagree : (if c.agreementN ≤ (partials ++ [text]).length then
    commonPrefix (lastN c.agreementN (partials ++ [text])) else []) = agreement
  have hagreement : agreement <+: text := by
    rw [← hagree]
    split
    · exact commonPrefix_le (mem_lastN c.agreementN_pos partials text)
    · exact List.nil_prefix
  dsimp only
  split
  · exact hagreement
  · exact List.take_prefix _ _

/-- The segment that is cut off continues what was committed exactly when the partial
begins with it. -/
theorem State.append_drop_target_iff {c : Committer} {s : State} {text : Text} (h : s.Commits c text) :
    s.committedSource ++ (s.target c text).drop s.committedSource.length = s.target c text ↔
      s.committedSource <+: text := by
  have htarget := s.target_le c text
  constructor
  · intro heq
    have hext : s.committedSource <+: s.target c text := ⟨_, heq⟩
    exact hext.trans htarget
  · intro hext
    exact List.prefix_iff_eq_append.mp
      (List.prefix_of_prefix_length_le hext htarget (Nat.le_of_lt h.1))

/-! ### Append-only texts -/

/-- Each event continues the text committed before it. -/
def Continues : Text → List SegmentEvent → Prop
  | _, [] => True
  | base, e :: events => base ++ e.sourceText = e.committedSource ∧ Continues e.committedSource events

@[simp] theorem continues_nil (base : Text) : Continues base [] = True := rfl

@[simp] theorem continues_cons (base : Text) (e : SegmentEvent) (events : List SegmentEvent) :
    Continues base (e :: events) =
      (base ++ e.sourceText = e.committedSource ∧ Continues e.committedSource events) := rfl

instance : ∀ (base : Text) (events : List SegmentEvent), Decidable (Continues base events)
  | _, [] => isTrue trivial
  | base, e :: events =>
    have := instDecidableContinues e.committedSource events
    inferInstanceAs (Decidable (base ++ e.sourceText = e.committedSource ∧
      Continues e.committedSource events))

/-- What the committed text is after some events. -/
def committedAfter (base : Text) (events : List SegmentEvent) : Text :=
  (events.getLast?.map (·.committedSource)).getD base

theorem committedAfter_cons (base : Text) (e : SegmentEvent) (events : List SegmentEvent) :
    committedAfter base (e :: events) = committedAfter e.committedSource events := by
  cases events <;> simp [committedAfter, List.getLast?_cons]

theorem continues_iff {base : Text} {events : List SegmentEvent} :
    Continues base events ↔ ∀ sofar, sofar <+: events →
      base ++ (sofar.map (·.sourceText)).flatten = committedAfter base sofar := by
  induction events generalizing base with
  | nil => simp [committedAfter]
  | cons e events ih =>
    rw [continues_cons, ih]
    constructor
    · rintro ⟨hfirst, hrest⟩ sofar hsofar
      cases sofar with
      | nil => simp [committedAfter]
      | cons d sofar =>
        obtain ⟨rfl, htail⟩ := List.cons_prefix_cons.mp hsofar
        rw [committedAfter_cons, ← hrest sofar htail, ← hfirst, List.map_cons, List.flatten_cons,
          List.append_assoc]
    · intro h
      have hfirst : base ++ e.sourceText = e.committedSource := by
        have := h [e] (List.cons_prefix_cons.mpr ⟨rfl, List.nil_prefix⟩)
        simpa [committedAfter] using this
      refine ⟨hfirst, fun sofar hsofar => ?_⟩
      have := h (e :: sofar) (List.cons_prefix_cons.mpr ⟨rfl, hsofar⟩)
      rw [committedAfter_cons, List.map_cons, List.flatten_cons, ← List.append_assoc, hfirst] at this
      exact this

/-- The committed texts of such events extend one another. -/
theorem Continues.isChain {base : Text} {events : List SegmentEvent} (h : Continues base events) :
    (events.map (·.committedSource)).IsChain (· <+: ·) := by
  induction events generalizing base with
  | nil => exact List.isChain_nil
  | cons e events ih =>
    obtain ⟨_, hrest⟩ := h
    cases events with
    | nil => exact List.isChain_singleton _
    | cons d events =>
      exact List.isChain_cons_cons.mpr ⟨⟨d.sourceText, hrest.1⟩, ih hrest⟩

theorem appendOnly_iff {events : List SegmentEvent} :
    AppendOnly events ↔ Continues [] (commits events) := by
  constructor
  · rintro ⟨_, h⟩
    refine continues_iff.mpr fun sofar hsofar => ?_
    cases hlast : sofar.getLast? with
    | none => simp [List.getLast?_eq_none_iff.mp hlast, committedAfter]
    | some last =>
      simp only [List.nil_append, committedAfter, hlast]
      exact h sofar hsofar last hlast
  · intro h
    refine ⟨h.isChain, fun sofar hsofar last hlast => ?_⟩
    have := continues_iff.mp h sofar hsofar
    rw [List.nil_append, committedAfter, Option.mem_def.mp hlast] at this
    exact this

/-! ### One utterance -/

theorem commits_append (xs ys : List SegmentEvent) : commits (xs ++ ys) = commits xs ++ commits ys :=
  List.filter_append _ _

/-- What a partial that commits does. -/
theorem pushPartial_of_commits {c : Committer} {s : State} {text : Text} (h : s.Commits c text) :
    ∃ e : SegmentEvent, e.sourceText = (s.target c text).drop s.committedSource.length ∧
      e.committedSource = s.target c text ∧ commits (pushPartial c s text).1 = [e] ∧
      (pushPartial c s text).2.committedSource = s.target c text := by
  unfold pushPartial
  rw [if_pos h]
  exact ⟨_, rfl, rfl, rfl, rfl⟩

/-- What any other partial does. -/
theorem pushPartial_of_not_commits {c : Committer} {s : State} {text : Text} (h : ¬ s.Commits c text) :
    commits (pushPartial c s text).1 = [] ∧
      (pushPartial c s text).2.committedSource = s.committedSource := by
  unfold pushPartial
  rw [if_neg h]
  dsimp only
  split <;> exact ⟨rfl, rfl⟩

theorem continues_finalize (c : Committer) (s : State) (final : Text) :
    Continues s.committedSource (commits (finalize c s final).1) ↔
      (s.committedSource.length < final.length → s.committedSource <+: final) := by
  unfold finalize
  split
  case isTrue hlt =>
    have hcut : s.committedSource ++ final.drop s.committedSource.length = final ↔
        s.committedSource <+: final := List.prefix_iff_eq_append.symm
    simpa [commits, hlt] using hcut
  case isFalse hle => simp [commits, hle]

theorem continues_utterance (c : Committer) (s : State) (texts : List Text) (final : Text) :
    Continues s.committedSource (commits (utterance c s texts final)) ↔
      KeepsCommitted c s texts final := by
  induction texts generalizing s with
  | nil => exact continues_finalize c s final
  | cons text texts ih =>
    rw [utterance, KeepsCommitted, commits_append, ← ih]
    by_cases h : s.Commits c text
    · obtain ⟨e, hsource, hcommitted, hevents, hafter⟩ := pushPartial_of_commits h
      rw [hevents, List.singleton_append, hafter, continues_cons, hsource, hcommitted,
        State.append_drop_target_iff h]
      simp only [h, forall_const]
    · obtain ⟨hevents, hafter⟩ := pushPartial_of_not_commits h
      rw [hevents, List.nil_append, hafter]
      simp only [h, false_implies, true_and]

/-- **Commitment is append-only exactly as long as no hypothesis that commits disagrees with
what was committed.**  For all settings, whatever was said before, and every sequence of
partials ended by a final. -/
theorem appendOnly_iff_keepsCommitted (c : Committer) (seq revision : ℕ) (texts : List Text)
    (final : Text) :
    AppendOnly (utterance c (.idle seq revision) texts final) ↔
      KeepsCommitted c (.idle seq revision) texts final := by
  rw [appendOnly_iff]
  exact continues_utterance c (.idle seq revision) texts final

/-- Two partials: the second revises a letter that has been committed. -/
def revisedRun : List SegmentEvent :=
  utterance .default (.idle 0 0) [['a', 'b', ','], ['a', 'c', ',', 'd', ',']] ['a', 'c', ',', 'd', ',']

/-- **A revision skips words**: after `ab,` only `d,` is sent, and the committed text is
`ac,d,`. -/
theorem revisedRun_skips :
    (commits revisedRun).map (fun e => (e.sourceText, e.committedSource)) =
        [(['a', 'b', ','], ['a', 'b', ',']), (['d', ','], ['a', 'c', ',', 'd', ','])] ∧
      ¬ AppendOnly revisedRun := by
  refine ⟨by decide, fun h => ?_⟩
  have hcontinues := appendOnly_iff.mp h
  revert hcontinues
  decide

end Translate
end OpenVoiceStream
