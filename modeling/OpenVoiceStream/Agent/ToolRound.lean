import OpenVoiceStream.Agent.Session

/-!
# Rounds with tools

`stream_with_tools` lets `run_turn` talk to the model and run tools.  What that appends goes
to the history and to the caller's prompt in lock-step.  When the round fails, both are cut
back: the history to its length at entry, the prompt to the same index plus the length of
what stands before the history in it.

The prompt of a trimmed session is shorter than the history, so there the index lies behind
messages of the round.  And a wipe in the middle of a round takes away more than the round
appended.

`run_turn` is not part of the repository.  It is taken to touch the history only through the
message sink and `on_iteration_limit`, in any order and any number of times.

## Main definitions

* `Op`, `Ending` — what `run_turn` does, and how it ends.
* `streamWithTools` — the round.
* `sinceWipe` — what was appended since the history was wiped.

## Main results

* `failed_round_restores_iff` — when a failed round leaves no trace.
* `trimmedRun_leaves_orphan` — in a trimmed session a tool call stays behind.
-/

namespace OpenVoiceStream
namespace Agent

variable {β : Type}

/-- A call that `run_turn` makes. -/
inductive Op (β : Type)
  | addAssistantToolCalls (content : Option String) (calls : List β)
  | addAssistantText (content : String)
  | addToolResult (id content : String)
  /-- `on_iteration_limit`. -/
  | iterationLimit

/-- How `run_turn` ends. -/
inductive Ending
  | returned
  | raised
  | cancelled
  deriving DecidableEq, Repr

/-- The history and the caller's prompt. -/
structure Round (β : Type) where
  session : Session β
  messages : List (Msg β)

/-- Both are cut back. -/
def Round.rollBack (r : Round β) (anchor offset : ℕ) : Round β :=
  { session := r.session.rollbackTo anchor, messages := r.messages.take (anchor + offset) }

/-- A message goes to both. -/
def Round.append (r : Round β) (m : Msg β) : Round β :=
  { session := r.session.append m, messages := r.messages ++ [m] }

/-- The effect of a call. -/
def Op.run (anchor offset : ℕ) (r : Round β) : Op β → Round β
  | .addAssistantToolCalls content calls => r.append (assistantToolCalls content calls)
  | .addAssistantText content =>
    { session := r.session.addAssistant content,
      messages := r.messages ++ [assistantText content] }
  | .addToolResult id content => r.append (toolResult id content)
  | .iterationLimit => r.rollBack anchor offset

/-- `stream_with_tools`. -/
def streamWithTools (s : Session β) (messages : List (Msg β)) (ops : List (Op β))
    (ending : Ending) : Round β :=
  let anchor := s.history.length
  let offset := messages.length - anchor
  let r := ops.foldl (Op.run anchor offset) ⟨s, messages⟩
  match ending with
  | .returned => r
  | .raised | .cancelled => r.rollBack anchor offset

/-- The round ends in an exception, a cancellation or the iteration cap. -/
def Failed (ops : List (Op β)) (ending : Ending) : Prop :=
  ending ≠ .returned ∨ ∃ before, ops = before ++ [.iterationLimit]

/-! ### What a round appends -/

/-- The call appends a message. -/
def Op.appends : Op β → Bool
  | .iterationLimit => false
  | _ => true

/-- The call completes an echo loop, so that the history is wiped. -/
def Op.wipes (history : List (Msg β)) : Op β → Bool
  | .addAssistantText content => echoes (history ++ [assistantText content])
  | _ => false

/-- What a call makes of the history. -/
def Op.history (anchor : ℕ) (history : List (Msg β)) : Op β → List (Msg β)
  | .addAssistantToolCalls content calls => history ++ [assistantToolCalls content calls]
  | .addAssistantText content =>
    if echoes (history ++ [assistantText content]) then [] else history ++ [assistantText content]
  | .addToolResult id content => history ++ [toolResult id content]
  | .iterationLimit => history.take anchor

/-- What was appended since the history was last wiped, if it was. -/
def sinceWipe (anchor : ℕ) : List (Msg β) → Bool → List (Op β) → Option (List (Msg β))
  | history, wiped, [] => if wiped then some history else none
  | history, wiped, op :: ops =>
    sinceWipe anchor (op.history anchor history) (wiped || op.wipes history) ops

section Round

variable {anchor offset : ℕ} {r : Round β} {h history : List (Msg β)}

theorem addAssistant_history (s : Session β) (content : String) :
    (s.addAssistant content).history =
      if echoes (s.history ++ [assistantText content]) then []
      else s.history ++ [assistantText content] := by
  unfold Session.addAssistant
  dsimp only
  rw [Session.append_history]
  split <;> rfl

/-! The history. -/

theorem run_history (op : Op β) :
    (op.run anchor offset r).session.history = op.history anchor r.session.history := by
  cases op with
  | addAssistantText content => exact addAssistant_history r.session content
  | addAssistantToolCalls | addToolResult => rfl
  | iterationLimit => exact Session.rollbackTo_history _ _

/-- As long as nothing is wiped, what was in the history stays at its beginning. -/
theorem prefix_history {op : Op β} (hanchor : h.length ≤ anchor) (hext : h <+: history)
    (hwipes : op.wipes history = false) : h <+: op.history anchor history := by
  cases op with
  | addAssistantText content =>
    have hecho : echoes (history ++ [assistantText content]) = false := hwipes
    simp only [Op.history, hecho]
    exact hext.trans (List.prefix_append _ _)
  | addAssistantToolCalls | addToolResult => exact hext.trans (List.prefix_append _ _)
  | iterationLimit => exact List.prefix_take_iff.mpr ⟨hext, hanchor⟩

/-- After the calls of a round the history begins as before, or it was wiped and holds what
was appended since. -/
theorem foldl_history (hanchor : h.length ≤ anchor) (offset : ℕ) (wiped : Bool) (ops : List (Op β))
    (r : Round β) (hext : wiped = false → h <+: r.session.history) :
    match sinceWipe anchor r.session.history wiped ops with
    | none => h <+: (ops.foldl (Op.run anchor offset) r).session.history
    | some appended => (ops.foldl (Op.run anchor offset) r).session.history = appended := by
  induction ops generalizing r wiped with
  | nil =>
    cases wiped with
    | false => exact hext rfl
    | true => rfl
  | cons op ops ih =>
    have hnext := ih (wiped || op.wipes r.session.history) (op.run anchor offset r)
      fun hw => by
        obtain ⟨hwiped, hwipes⟩ := Bool.or_eq_false_iff.mp hw
        rw [run_history]
        exact prefix_history hanchor (hext hwiped) hwipes
    rw [run_history] at hnext
    exact hnext

/-- The history is restored unless it was wiped and what was appended since begins
differently. -/
theorem take_history_iff (offset : ℕ) (ops : List (Op β)) (r : Round β) :
    (ops.foldl (Op.run r.session.history.length offset) r).session.history.take
        r.session.history.length = r.session.history ↔
      ∀ appended ∈ sinceWipe r.session.history.length r.session.history false ops,
        r.session.history <+: appended := by
  have hfold := foldl_history (h := r.session.history) le_rfl offset false ops r fun _ =>
    List.prefix_refl _
  rw [eq_comm, ← List.prefix_iff_eq_take]
  cases hsince : sinceWipe r.session.history.length r.session.history false ops with
  | none =>
    rw [hsince] at hfold
    simpa using hfold
  | some appended =>
    rw [hsince] at hfold
    have hfold : _ = appended := hfold
    simp [hfold]

/-! The prompt. -/

theorem run_messages (anchor offset : ℕ) (r : Round β) (op : Op β) :
    ∃ m : Option (Msg β), m.isSome = op.appends ∧
      (op.run anchor offset r).messages =
        match m with
        | some m => r.messages ++ [m]
        | none => r.messages.take (anchor + offset) := by
  cases op with
  | addAssistantToolCalls content calls => exact ⟨some (assistantToolCalls content calls), rfl, rfl⟩
  | addAssistantText content => exact ⟨some (assistantText content), rfl, rfl⟩
  | addToolResult id content => exact ⟨some (toolResult id content), rfl, rfl⟩
  | iterationLimit => exact ⟨none, rfl, rfl⟩

/-- After the calls of a round the prompt begins as before; and if it has room below the
index where it is cut, the first message appended stays. -/
theorem foldl_messages {messages : List (Msg β)} (hle : messages.length ≤ anchor + offset)
    (ops : List (Op β)) (r : Round β) (hext : messages <+: r.messages) :
    messages <+: (ops.foldl (Op.run anchor offset) r).messages ∧
      (messages.length < anchor + offset →
        messages.length < r.messages.length ∨ ops.any Op.appends →
        messages.length < (ops.foldl (Op.run anchor offset) r).messages.length) := by
  induction ops generalizing r with
  | nil => exact ⟨hext, fun _ h => by simpa using h⟩
  | cons op ops ih =>
    obtain ⟨m, hm, hrun⟩ := run_messages anchor offset r op
    have hlen := hext.length_le
    cases m with
    | some m =>
      have hnext : messages <+: (op.run anchor offset r).messages := by
        rw [hrun]
        exact hext.trans (List.prefix_append _ _)
      obtain ⟨hfold, hroom⟩ := ih (op.run anchor offset r) hnext
      refine ⟨hfold, fun hlt _ => hroom hlt (.inl ?_)⟩
      rw [hrun]
      simp only [List.length_append, List.length_singleton]
      omega
    | none =>
      have hnext : messages <+: (op.run anchor offset r).messages := by
        rw [hrun]
        exact List.prefix_take_iff.mpr ⟨hext, hle⟩
      have hquiet : op.appends = false := by simpa using hm.symm
      obtain ⟨hfold, hroom⟩ := ih (op.run anchor offset r) hnext
      refine ⟨hfold, fun hlt hsome => hroom hlt ?_⟩
      rcases hsome with hlonger | hany
      · refine .inl ?_
        rw [hrun]
        simp only [List.length_take]
        omega
      · exact .inr (by simpa [hquiet] using hany)

/-- Without a message appended the prompt stays. -/
theorem foldl_messages_of_quiet {messages : List (Msg β)} (hle : messages.length ≤ anchor + offset)
    (ops : List (Op β)) (hquiet : ops.any Op.appends = false) (r : Round β)
    (hr : r.messages = messages) :
    (ops.foldl (Op.run anchor offset) r).messages = messages := by
  induction ops generalizing r with
  | nil => exact hr
  | cons op ops ih =>
    simp only [List.any_cons, Bool.or_eq_false_iff] at hquiet
    refine ih hquiet.2 _ ?_
    obtain ⟨m, hm, hrun⟩ := run_messages anchor offset r op
    rw [hquiet.1] at hm
    obtain rfl : m = none := by simpa using hm
    rw [hrun, hr]
    exact List.take_of_length_le hle

/-- The prompt is restored when it is as long as the history, or nothing was appended. -/
theorem take_messages_iff (ops : List (Op β)) (r : Round β) (anchor : ℕ) :
    (ops.foldl (Op.run anchor (r.messages.length - anchor)) r).messages.take
        (anchor + (r.messages.length - anchor)) = r.messages ↔
      ops.any Op.appends = false ∨ anchor ≤ r.messages.length := by
  have hle : r.messages.length ≤ anchor + (r.messages.length - anchor) := by omega
  obtain ⟨hfold, hroom⟩ := foldl_messages hle ops r (List.prefix_refl _)
  constructor
  · intro heq
    by_contra hnot
    simp only [not_or, Bool.not_eq_false, not_le] at hnot
    have hlonger := hroom (by omega) (.inr hnot.1)
    have hlength := congrArg List.length heq
    simp only [List.length_take] at hlength
    omega
  · rintro (hquiet | hlong)
    · rw [foldl_messages_of_quiet hle ops hquiet r rfl]
      exact List.take_of_length_le hle
    · have hcut : anchor + (r.messages.length - anchor) = r.messages.length := by omega
      rw [hcut]
      exact (List.prefix_iff_eq_take.mp hfold).symm

/-- However a failed round ends, both lists are cut back after its last call. -/
theorem streamWithTools_of_failed (s : Session β) (messages : List (Msg β)) {ops : List (Op β)}
    {ending : Ending} (hfail : Failed ops ending) :
    (streamWithTools s messages ops ending).session.history =
        ((ops.foldl (Op.run s.history.length (messages.length - s.history.length))
          ⟨s, messages⟩).session.history).take s.history.length ∧
      (streamWithTools s messages ops ending).messages =
        ((ops.foldl (Op.run s.history.length (messages.length - s.history.length))
          ⟨s, messages⟩).messages).take
            (s.history.length + (messages.length - s.history.length)) := by
  cases ending with
  | raised | cancelled => exact ⟨Session.rollbackTo_history _ _, rfl⟩
  | returned =>
    rcases hfail with hreturned | ⟨before, rfl⟩
    · exact absurd rfl hreturned
    · -- the last call has cut both back already
      simp only [streamWithTools, List.foldl_append, List.foldl_cons, List.foldl_nil, Op.run,
        Round.rollBack, Session.rollbackTo_history, List.take_take, min_self, and_self]

end Round

/-- **When a failed round leaves no trace.**  For every session, every prompt made of it, and
everything `run_turn` may append before the round ends in an exception, a cancellation or the
iteration cap: the history and the prompt are as they were exactly when nothing was appended or
the prompt is at least as long as the history, and the history was not wiped, or what was
appended since begins with it. -/
theorem failed_round_restores_iff (k : Counter β) (s : Session β) (prompt : String)
    (ops : List (Op β)) (ending : Ending) (hfail : Failed ops ending) :
    ((streamWithTools (s.messages k prompt).2 (s.messages k prompt).1 ops ending).session.history
        = s.history ∧
      (streamWithTools (s.messages k prompt).2 (s.messages k prompt).1 ops ending).messages
        = (s.messages k prompt).1) ↔
      (∀ appended ∈ sinceWipe s.history.length s.history false ops, s.history <+: appended) ∧
        (ops.any Op.appends = false ∨ s.history.length ≤ (s.messages k prompt).1.length) := by
  obtain ⟨hhistory, hmessages⟩ :=
    streamWithTools_of_failed (s.messages k prompt).2 (s.messages k prompt).1 hfail
  have hsame := s.messages_history k prompt
  rw [hhistory, hmessages]
  have hh := take_history_iff ((s.messages k prompt).1.length - s.history.length) ops
    ⟨(s.messages k prompt).2, (s.messages k prompt).1⟩
  have hm := take_messages_iff ops ⟨(s.messages k prompt).2, (s.messages k prompt).1⟩
    s.history.length
  simp only [hsame] at hh hm ⊢
  rw [hh, hm]

/-- A token counter for short texts. -/
def exampleCounter : Counter ℕ := { count := fun text => text.length, dumps := fun _ => "" }

/-- A user has said something after one exchange. -/
def exampleSession (maxInputTokens : Option ℤ) : Session ℕ :=
  { history := [{ role := .user, content := some "a" }, assistantText "b",
      { role := .user, content := some "c" }]
    maxInputTokens := maxInputTokens }

theorem failed_round_restores_untrimmed :
    ((streamWithTools (exampleSession none) (systemMsg "p" :: (exampleSession none).history)
        [.addAssistantToolCalls none [0], .addToolResult "0" "ok"] .raised).session.history
        = (exampleSession none).history ∧
      (streamWithTools (exampleSession none) (systemMsg "p" :: (exampleSession none).history)
        [.addAssistantToolCalls none [0], .addToolResult "0" "ok"] .raised).messages
        = systemMsg "p" :: (exampleSession none).history) :=
  (failed_round_restores_iff exampleCounter (exampleSession none) "p"
    [.addAssistantToolCalls none [0], .addToolResult "0" "ok"] .raised (.inl (by decide))).mpr
    ⟨by decide, by decide⟩

/-- **A trimmed session keeps an orphan**: the first exchange does not fit the budget, the round
issues a tool call and is cancelled, and the call stays in the prompt. -/
theorem trimmedRun_leaves_orphan :
    ((exampleSession (some 8)).messages exampleCounter "p").1 =
        [systemMsg "p", { role := .user, content := some "c" }] ∧
      (streamWithTools (exampleSession (some 8))
        ((exampleSession (some 8)).messages exampleCounter "p").1
        [.addAssistantToolCalls none [0]] .cancelled).messages =
        [systemMsg "p", { role := .user, content := some "c" }, assistantToolCalls none [0]] := by
  decide

end Agent
end OpenVoiceStream
