import Mathlib.Algebra.Order.Ring.Int
import Mathlib.Data.List.Basic
import Mathlib.Data.List.Infix

/-!
# The history of a conversation

A `Session` keeps the messages of a conversation.  Before a prompt is shipped, the oldest
whole turns may be dropped so that the rest fits a token budget; and when the assistant has
given the same short reply three times in a row, the history is wiped.

## Main definitions

* `Msg`, `Session` — the messages and the session.
* `addAssistant`, `rollbackTo` — how the history changes.
* `trimToBudget`, `messages` — the prompt.

## Main results

* `messages_eq_cons` — a prompt is the system message and an end of the history.
-/

namespace OpenVoiceStream
namespace Agent

/-- The role of a message. -/
inductive Role
  | system
  | user
  | assistant
  | tool
  deriving DecidableEq, Repr

/-- A message; `β` are the tool calls. -/
structure Msg (β : Type) where
  role : Role
  content : Option String := none
  toolCalls : Option (List β) := none
  toolCallId : Option String := none
  deriving DecidableEq, Repr

/-- How tokens are counted: a text counter, and the text tool calls are written as. -/
structure Counter (β : Type) where
  count : String → ℤ
  dumps : List β → String

/-- A session. -/
structure Session (β : Type) where
  history : List (Msg β)
  maxInputTokens : Option ℤ := none
  prefixCacheWarmed : Bool := false
  graphWarmed : Bool := false
  prefixCacheDisabled : Bool := false
  deriving DecidableEq, Repr

variable {β γ : Type}

/-- Tool calls that are there and not empty. -/
def Msg.calls (m : Msg β) : List β := m.toolCalls.getD []

/-! ### Changing the history -/

/-- `ECHO_WINDOW`. -/
def echoWindow : ℕ := 3

/-- `ECHO_MAX_LEN`. -/
def echoMaxLen : ℕ := 40

/-- The texts the assistant has said. -/
def assistantTexts (history : List (Msg β)) : List String :=
  history.filterMap fun m => if m.role = .assistant then m.content else none

/-- The test of `_maybe_recover_from_echo`: the last replies are the same short text. -/
def echoes (history : List (Msg β)) : Bool :=
  let texts := assistantTexts history
  let lastN := texts.drop (texts.length - echoWindow)
  match lastN with
  | [] => false
  | first :: rest =>
    decide (echoWindow ≤ history.length) && decide (echoWindow ≤ texts.length) &&
      decide (first.length ≤ echoMaxLen) && rest.all (· == first)

/-- The history is wiped, and with it what the server has cached. -/
def Session.wipe (s : Session β) : Session β :=
  { s with history := [], prefixCacheWarmed := false, graphWarmed := false,
           prefixCacheDisabled := false }

/-- A message is appended. -/
def Session.append (s : Session β) (m : Msg β) : Session β := { s with history := s.history ++ [m] }

/-- An assistant text as a message. -/
def assistantText (content : String) : Msg β := { role := .assistant, content := some content }

/-- An assistant message with tool calls. -/
def assistantToolCalls (content : Option String) (calls : List β) : Msg β :=
  { role := .assistant, content := content, toolCalls := some calls }

/-- The result of a tool call. -/
def toolResult (id content : String) : Msg β :=
  { role := .tool, content := some content, toolCallId := some id }

/-- `add_assistant`. -/
def Session.addAssistant (s : Session β) (content : String) : Session β :=
  let s := s.append (assistantText content)
  if echoes s.history then s.wipe else s

/-- `rollback_to`. -/
def Session.rollbackTo (s : Session β) (anchor : ℕ) : Session β :=
  if s.history.length ≤ anchor then s else { s with history := s.history.take anchor }

@[simp] theorem Session.append_history (s : Session β) (m : Msg β) :
    (s.append m).history = s.history ++ [m] := rfl

theorem Session.rollbackTo_history (s : Session β) (anchor : ℕ) :
    (s.rollbackTo anchor).history = s.history.take anchor := by
  unfold rollbackTo
  split
  · rename_i hle
    rw [List.take_of_length_le hle]
  · rfl

/-! ### The prompt -/

/-- `_msg_tokens`. -/
def msgTokens (k : Counter β) (m : Msg β) : ℤ :=
  (match m.content with
    | some content => if content = "" then 0 else k.count content
    | none => 0) +
  (if m.calls = [] then 0 else k.count (k.dumps m.calls)) + 4

/-- The tokens of some messages. -/
def tokens (k : Counter β) (ms : List (Msg β)) : ℤ := (ms.map (msgTokens k)).sum

/-- What stands before the first user message, and the turns. -/
def splitTurns : List (Msg β) → List (Msg β) × List (List (Msg β))
  | [] => ([], [])
  | m :: rest =>
    let (lead, turns) := splitTurns rest
    if m.role = .user then ([], (m :: lead) :: turns) else (m :: lead, turns)

/-- A turn ends in a normal assistant text. -/
def isComplete (turn : List (Msg β)) : Bool :=
  match turn.getLast? with
  | some m => decide (m.role = .assistant) && m.content.isSome && m.calls.isEmpty
  | none => false

/-- The loops that drop the oldest entries while the total is over the budget. -/
def dropOldest (size : γ → ℤ) (budget : ℤ) (minKeep : ℕ) : List γ → ℤ → List γ
  | [], _ => []
  | x :: kept, total =>
    if budget < total ∧ minKeep < (x :: kept).length then
      dropOldest size budget minKeep kept (total - size x)
    else x :: kept

/-- `_trim_to_budget`, and whether it cleared `prefix_cache_warmed`. -/
def trimToBudget (k : Counter β) (maxTokens : ℤ) (system : Msg β) (rest : List (Msg β)) :
    List (Msg β) × Bool :=
  let budget := (maxTokens * 3).tdiv 4
  let turns := (splitTurns rest).2
  match turns.getLast? with
  | none =>
    -- no user message at all
    if tokens k rest ≤ budget then (system :: rest, false)
    else (system :: dropOldest (msgTokens k) budget 0 rest (tokens k rest), true)
  | some last =>
    -- a turn under way is pinned
    let trailing := if isComplete last then [] else last
    let completed := if isComplete last then turns else turns.dropLast
    let total := tokens k trailing + (completed.map (tokens k)).sum
    if total ≤ budget then (system :: rest, false)
    else
      let kept := dropOldest (tokens k) budget (if isComplete last then 1 else 0) completed total
      (system :: (kept.flatten ++ trailing), decide (kept.length < completed.length))

/-- The system message. -/
def systemMsg (prompt : String) : Msg β := { role := .system, content := some prompt }

/-- `messages`. -/
def Session.messages (k : Counter β) (s : Session β) (prompt : String) :
    List (Msg β) × Session β :=
  match s.maxInputTokens with
  | none => (systemMsg prompt :: s.history, s)
  | some maxTokens =>
    let (ms, trimmed) :=
      if s.history = [] then ([systemMsg prompt], false)
      else trimToBudget k maxTokens (systemMsg prompt) s.history
    (ms, { s with prefixCacheWarmed := s.prefixCacheWarmed && !trimmed })

/-! ### What trimming leaves -/

theorem dropOldest_suffix (size : γ → ℤ) (budget : ℤ) (minKeep : ℕ) (xs : List γ) (total : ℤ) :
    dropOldest size budget minKeep xs total <:+ xs := by
  induction xs generalizing total with
  | nil => exact List.suffix_refl []
  | cons x xs ih =>
    unfold dropOldest
    split
    · exact (ih _).trans (List.suffix_cons x xs)
    · exact List.suffix_refl _

/-- The turns make up the rest of the history. -/
theorem splitTurns_flatten (ms : List (Msg β)) :
    (splitTurns ms).1 ++ (splitTurns ms).2.flatten = ms := by
  induction ms with
  | nil => rfl
  | cons m ms ih =>
    simp only [splitTurns]
    split
    · rw [List.nil_append, List.flatten_cons, List.cons_append, ih]
    · rw [List.cons_append, ih]

theorem flatten_suffix {xs ys : List (List γ)} (h : xs <:+ ys) : xs.flatten <:+ ys.flatten := by
  obtain ⟨dropped, rfl⟩ := h
  rw [List.flatten_append]
  exact List.suffix_append _ _

/-- The turns are an end of the history. -/
theorem turns_suffix (ms : List (Msg β)) : (splitTurns ms).2.flatten <:+ ms :=
  ⟨(splitTurns ms).1, splitTurns_flatten ms⟩

/-- The turns that are kept and the turn that is pinned are an end of the history. -/
theorem kept_append_suffix {ms last : List (Msg β)} {kept : List (List (Msg β))}
    (hlast : (splitTurns ms).2.getLast? = some last) (hkept : kept <:+ (splitTurns ms).2.dropLast) :
    kept.flatten ++ last <:+ ms := by
  obtain ⟨dropped, hdropped⟩ := hkept
  have hturns : (splitTurns ms).2.dropLast ++ [last] = (splitTurns ms).2 :=
    List.dropLast_append_getLast? last hlast
  have hall : kept ++ [last] <:+ (splitTurns ms).2 := by
    refine ⟨dropped, ?_⟩
    rw [← List.append_assoc, hdropped, hturns]
  have hflat := (flatten_suffix hall).trans (turns_suffix ms)
  rw [List.flatten_append, List.flatten_singleton] at hflat
  exact hflat

theorem trimToBudget_eq_cons (k : Counter β) (maxTokens : ℤ) (system : Msg β) (rest : List (Msg β)) :
    ∃ kept, kept <:+ rest ∧ (trimToBudget k maxTokens system rest).1 = system :: kept := by
  unfold trimToBudget
  dsimp only
  split
  · split
    · exact ⟨rest, List.suffix_refl rest, rfl⟩
    · exact ⟨_, dropOldest_suffix _ _ _ rest _, rfl⟩
  · rename_i last hlast
    by_cases hcomplete : isComplete last = true
    · simp only [hcomplete, if_true, List.append_nil]
      split
      · exact ⟨rest, List.suffix_refl rest, rfl⟩
      · exact ⟨_, (flatten_suffix (dropOldest_suffix _ _ _ _ _)).trans (turns_suffix rest), rfl⟩
    · simp only [hcomplete, Bool.false_eq_true, if_false]
      split
      · exact ⟨rest, List.suffix_refl rest, rfl⟩
      · exact ⟨_, kept_append_suffix hlast (dropOldest_suffix _ _ _ _ _), rfl⟩

/-- **A prompt is the system message and an end of the history.** -/
theorem Session.messages_eq_cons (k : Counter β) (s : Session β) (prompt : String) :
    ∃ kept, kept <:+ s.history ∧ (s.messages k prompt).1 = systemMsg prompt :: kept := by
  unfold messages
  split
  · exact ⟨s.history, List.suffix_refl _, rfl⟩
  · dsimp only
    split
    · exact ⟨[], List.nil_suffix, rfl⟩
    · exact trimToBudget_eq_cons k _ _ s.history

/-- Making the prompt leaves the history alone. -/
theorem Session.messages_history (k : Counter β) (s : Session β) (prompt : String) :
    (s.messages k prompt).2.history = s.history := by
  unfold messages
  split <;> rfl

end Agent
end OpenVoiceStream
