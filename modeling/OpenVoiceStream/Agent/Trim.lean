import OpenVoiceStream.Agent.Session
import Mathlib.Algebra.Order.Group.Int

/-!
# What a trimmed prompt is

A prompt should be the system message followed by whole turns at the end of the history,
the latest turn among them, within the budget as far as turns can be dropped; and when
it is anything but the whole history, the server's cached prefix is of no use any more.

The trimming groups the history into turns and skips what stands before the first user
message.  Those messages are counted nowhere.  So they stay in the prompt, above any
budget, whenever the turns alone are within it; and they go without the cached prefix
being given up when there is but one turn to keep.

## Main definitions

* `IsTurn` — a user message and the messages up to the next one.
* `Trimmed` — what a prompt should be.
* `Trims` — the condition under which it is that.

## Main results

* `splitTurns_isTurn`, `splitTurns_lead` — the grouping finds the turns.
* `dropOldest_spec`, `suffix_dropOldest` — the dropping loops.
* `trimToBudget_turns` — the trimming of a history with a user message.
* `trimmed_iff` — a prompt is what it should be exactly when `Trims` holds.
-/

namespace OpenVoiceStream
namespace Agent

variable {β γ : Type} (k : Counter β)

/-! ### The purpose -/

/-- A user message and non-user messages after it. -/
def IsTurn (t : List (Msg β)) : Prop :=
  ∃ m rest, t = m :: rest ∧ m.role = .user ∧ ∀ x ∈ rest, x.role ≠ .user

/-- `int(max_input_tokens * 0.75)`. -/
def budgetOf (maxTokens : ℤ) : ℤ := (maxTokens * 3).tdiv 4

/-- A prompt is the system message and an end of the history, made of whole turns if
there are any, within the budget unless a single turn is left, and the cached prefix is
given up when something was dropped. -/
structure Trimmed (s : Session β) (prompt : String) : Prop where
  system : (s.messages k prompt).1.head? = some (systemMsg prompt)
  suffix : (s.messages k prompt).1.tail <:+ s.history
  whole : (∃ m ∈ s.history, m.role = .user) → ∃ turns, turns ≠ [] ∧ (∀ t ∈ turns, IsTurn t) ∧
    (s.messages k prompt).1.tail = turns.flatten
  budget : ∀ maxTokens, s.maxInputTokens = some maxTokens →
    tokens k (s.messages k prompt).1.tail ≤ budgetOf maxTokens ∨
      IsTurn (s.messages k prompt).1.tail
  cold : (s.messages k prompt).1 ≠ systemMsg prompt :: s.history →
    (s.messages k prompt).2.prefixCacheWarmed = false

/-- With a user message in the history: nothing stands before the first one, or the turns
exceed the budget, and either there is a turn to drop or no prefix is cached.  Without
one: some end of the history is within the budget. -/
def Trims (s : Session β) : Prop :=
  let (lead, turns) := splitTurns s.history
  if turns = [] then
    ∀ maxTokens ∈ s.maxInputTokens, ∃ kept, kept <:+ s.history ∧ tokens k kept ≤ budgetOf maxTokens
  else
    lead = [] ∨ ∃ maxTokens ∈ s.maxInputTokens, budgetOf maxTokens < tokens k turns.flatten ∧
      (2 ≤ turns.length ∨ s.prefixCacheWarmed = false)

/-! ### The turns of a history -/

/-- What stands before the first turn has no user message. -/
theorem splitTurns_lead (ms : List (Msg β)) : ∀ m ∈ (splitTurns ms).1, m.role ≠ .user := by
  induction ms with
  | nil => exact fun m hm => absurd hm List.not_mem_nil
  | cons m ms ih =>
    intro x hx
    simp only [splitTurns] at hx
    by_cases huser : m.role = .user
    · rw [if_pos huser] at hx
      exact absurd hx List.not_mem_nil
    · rw [if_neg huser] at hx
      rcases List.mem_cons.mp hx with rfl | hx
      · exact huser
      · exact ih x hx

/-- Every group is a turn. -/
theorem splitTurns_isTurn (ms : List (Msg β)) : ∀ t ∈ (splitTurns ms).2, IsTurn t := by
  induction ms with
  | nil => exact fun t ht => absurd ht List.not_mem_nil
  | cons m ms ih =>
    intro t ht
    simp only [splitTurns] at ht
    by_cases huser : m.role = .user
    · rw [if_pos huser] at ht
      rcases List.mem_cons.mp ht with rfl | ht
      · exact ⟨m, (splitTurns ms).1, rfl, huser, splitTurns_lead ms⟩
      · exact ih t ht
    · rw [if_neg huser] at ht
      exact ih t ht

/-- There are turns exactly if there is a user message. -/
theorem splitTurns_ne_nil_iff (ms : List (Msg β)) :
    (splitTurns ms).2 ≠ [] ↔ ∃ m ∈ ms, m.role = .user := by
  have hflat := splitTurns_flatten ms
  constructor
  · intro hne
    obtain ⟨t, ht⟩ := List.exists_mem_of_ne_nil _ hne
    obtain ⟨m, rest, rfl, huser, -⟩ := splitTurns_isTurn ms t ht
    refine ⟨m, ?_, huser⟩
    rw [← hflat]
    exact List.mem_append_right _ (List.mem_flatten.mpr ⟨_, ht, List.mem_cons_self⟩)
  · rintro ⟨m, hm, huser⟩ hnil
    rw [← hflat, hnil, List.flatten_nil, List.append_nil] at hm
    exact splitTurns_lead ms m hm huser

/-- A list that begins with a turn is no list that begins with what stands before. -/
theorem lead_eq_nil_of_turns {lead rest : List (Msg β)} {turns : List (List (Msg β))}
    (hlead : ∀ m ∈ lead, m.role ≠ .user) (hne : turns ≠ []) (hturns : ∀ t ∈ turns, IsTurn t)
    (h : lead ++ rest = turns.flatten) : lead = [] := by
  cases lead with
  | nil => rfl
  | cons x lead =>
    obtain ⟨t, turns, rfl⟩ := List.exists_cons_of_ne_nil hne
    obtain ⟨m, tail, rfl, huser, -⟩ := hturns _ List.mem_cons_self
    rw [List.flatten_cons, List.cons_append, List.cons_append, List.cons.injEq] at h
    exact absurd (h.1 ▸ huser) (hlead x List.mem_cons_self)

/-! ### Counting and dropping -/

/-- The tokens of groups of messages. -/
theorem tokens_flatten (ts : List (List (Msg β))) :
    tokens k ts.flatten = (ts.map (tokens k)).sum := by
  induction ts with
  | nil => rfl
  | cons t ts ih =>
    rw [List.flatten_cons, List.map_cons, List.sum_cons, ← ih, tokens, List.map_append,
      List.sum_append]
    rfl

/-- **The dropping loop** keeps at least `minKeep` entries, and stops within the budget or
when no more may be dropped. -/
theorem dropOldest_spec (size : γ → ℤ) (budget extra : ℤ) (minKeep : ℕ) (xs : List γ)
    (h : minKeep ≤ xs.length) {kept : List γ}
    (hkept : dropOldest size budget minKeep xs (extra + (xs.map size).sum) = kept) :
    minKeep ≤ kept.length ∧
      (extra + (kept.map size).sum ≤ budget ∨ kept.length = minKeep) := by
  induction xs with
  | nil =>
    subst hkept
    exact ⟨h, .inr (Nat.le_zero.mp h).symm⟩
  | cons x xs ih =>
    have hsum : extra + ((x :: xs).map size).sum - size x = extra + (xs.map size).sum := by
      rw [List.map_cons, List.sum_cons]
      omega
    unfold dropOldest at hkept
    by_cases hover : budget < extra + ((x :: xs).map size).sum ∧ minKeep < (x :: xs).length
    · rw [if_pos hover, hsum] at hkept
      exact ih (Nat.le_of_lt_succ hover.2) hkept
    · rw [if_neg hover] at hkept
      subst hkept
      refine ⟨h, ?_⟩
      by_cases hle : extra + ((x :: xs).map size).sum ≤ budget
      · exact .inl hle
      · have hnot : ¬ minKeep < (x :: xs).length := fun hlt => hover ⟨not_le.mp hle, hlt⟩
        exact .inr (le_antisymm (not_lt.mp hnot) h)

/-- The loop never drops into an end of the list that is within the budget. -/
theorem suffix_dropOldest (size : γ → ℤ) (budget : ℤ) (minKeep : ℕ) {xs ys : List γ}
    (hys : ys <:+ xs) (hle : (ys.map size).sum ≤ budget) :
    ys <:+ dropOldest size budget minKeep xs (xs.map size).sum := by
  induction xs with
  | nil => exact hys
  | cons x xs ih =>
    unfold dropOldest
    by_cases hover : budget < ((x :: xs).map size).sum ∧ minKeep < (x :: xs).length
    · have hsum : ((x :: xs).map size).sum - size x = (xs.map size).sum := by
        rw [List.map_cons, List.sum_cons]
        omega
      rw [if_pos hover, hsum]
      rcases List.suffix_cons_iff.mp hys with rfl | hys
      · -- the whole list is over the budget, so it is not the end we keep
        omega
      · exact ih hys
    · rw [if_neg hover]
      exact hys

/-- Dropping messages ends within the budget if some end of the list is within it. -/
theorem tokens_dropOldest_le {budget : ℤ} {rest ys : List (Msg β)} (hys : ys <:+ rest)
    (hle : tokens k ys ≤ budget) :
    tokens k (dropOldest (msgTokens k) budget 0 rest (tokens k rest)) ≤ budget := by
  have hkept : dropOldest (msgTokens k) budget 0 rest (0 + (rest.map (msgTokens k)).sum) =
      dropOldest (msgTokens k) budget 0 rest (tokens k rest) := by
    rw [zero_add]
    rfl
  have hspec := dropOldest_spec (msgTokens k) budget 0 0 rest (Nat.zero_le _) hkept
  rcases hspec.2 with hbudget | hzero
  · rw [zero_add] at hbudget
    exact hbudget
  · -- nothing is left, so the end within the budget was empty
    have hnil := List.length_eq_zero_iff.mp hzero
    have hin : ys <:+ dropOldest (msgTokens k) budget 0 rest (tokens k rest) :=
      suffix_dropOldest (msgTokens k) budget 0 hys hle
    rw [hnil, List.suffix_nil] at hin
    rw [hnil, ← hin]
    exact hle

/-! ### Trimming -/

/-- **Trimming a history without a user message.** -/
theorem trimToBudget_no_turns (maxTokens : ℤ) (system : Msg β) {rest : List (Msg β)}
    (hturns : (splitTurns rest).2 = []) :
    trimToBudget k maxTokens system rest =
      if tokens k rest ≤ budgetOf maxTokens then (system :: rest, false)
      else (system :: dropOldest (msgTokens k) (budgetOf maxTokens) 0 rest (tokens k rest), true) := by
  unfold trimToBudget
  rw [hturns]
  rfl

/-- **Trimming a history with a user message.**  If the turns are within the budget
nothing is dropped.  Otherwise the prompt is made of the last turns, within the budget
unless there is only one of them, and the cached prefix is given up if a turn was
dropped. -/
theorem trimToBudget_turns (maxTokens : ℤ) (system : Msg β) {rest : List (Msg β)}
    (hturns : (splitTurns rest).2 ≠ []) :
    (tokens k (splitTurns rest).2.flatten ≤ budgetOf maxTokens →
      trimToBudget k maxTokens system rest = (system :: rest, false)) ∧
    (budgetOf maxTokens < tokens k (splitTurns rest).2.flatten →
      ∃ kept, kept <:+ (splitTurns rest).2 ∧ kept ≠ [] ∧
        (tokens k kept.flatten ≤ budgetOf maxTokens ∨ kept.length = 1) ∧
        trimToBudget k maxTokens system rest =
          (system :: kept.flatten, decide (kept.length < (splitTurns rest).2.length))) := by
  generalize hsplit : (splitTurns rest).2 = turns at hturns ⊢
  obtain ⟨init, last, rfl⟩ : ∃ init last, turns = init ++ [last] :=
    ⟨turns.dropLast, turns.getLast hturns, (List.dropLast_append_getLast hturns).symm⟩
  have hlast : (init ++ [last]).getLast? = some last := List.getLast?_concat
  have hinit : (init ++ [last]).dropLast = init := List.dropLast_concat
  unfold trimToBudget
  rw [hsplit]
  dsimp only
  rw [hlast]
  dsimp only
  rw [hinit, tokens_flatten, show (maxTokens * 3).tdiv 4 = budgetOf maxTokens from rfl]
  have hnone : tokens k ([] : List (Msg β)) = 0 := rfl
  cases hcomplete : isComplete last with
  | true =>
    -- a completed turn is counted with the others, and one of them must stay
    simp only [if_true, hnone, zero_add, List.append_nil]
    refine ⟨fun hle => if_pos hle, fun hlt => ?_⟩
    have hspec := dropOldest_spec (tokens k) (budgetOf maxTokens) 0 1 (init ++ [last])
      (by simp) rfl
    simp only [zero_add] at hspec
    refine ⟨dropOldest (tokens k) (budgetOf maxTokens) 1 (init ++ [last])
      (((init ++ [last]).map (tokens k)).sum), dropOldest_suffix _ _ _ _ _, ?_, ?_,
      if_neg (not_le.mpr hlt)⟩
    · intro hnil
      rw [hnil] at hspec
      exact absurd hspec.1 (by simp)
    · rw [tokens_flatten]
      exact hspec.2
  | false =>
    -- a turn under way is set aside before the others are dropped
    have htotal : tokens k last + (init.map (tokens k)).sum =
        ((init ++ [last]).map (tokens k)).sum := by
      rw [List.map_append, List.sum_append, List.map_singleton, List.sum_singleton, add_comm]
    simp only [Bool.false_eq_true, if_false]
    rw [htotal]
    refine ⟨fun hle => if_pos hle, fun hlt => ?_⟩
    have hnot := not_le.mpr hlt
    rw [← htotal] at hnot ⊢
    have hspec := dropOldest_spec (tokens k) (budgetOf maxTokens) (tokens k last) 0 init
      (Nat.zero_le _) rfl
    have hsuffix := dropOldest_suffix (tokens k) (budgetOf maxTokens) 0 init
      (tokens k last + (init.map (tokens k)).sum)
    generalize hkept : dropOldest (tokens k) (budgetOf maxTokens) 0 init
      (tokens k last + (init.map (tokens k)).sum) = kept at hspec hsuffix
    rw [if_neg hnot]
    refine ⟨kept ++ [last], ?_, by simp, ?_, ?_⟩
    · obtain ⟨dropped, rfl⟩ := hsuffix
      exact ⟨dropped, (List.append_assoc ..).symm⟩
    · rw [tokens_flatten, List.map_append, List.sum_append, List.map_singleton,
        List.sum_singleton, add_comm, List.length_append, List.length_singleton]
      exact hspec.2.imp id fun hzero => by rw [hzero]
    · rw [List.flatten_append, List.flatten_singleton]
      simp

/-! ### The prompt -/

/-- The prompt of a session without a budget. -/
theorem messages_of_none {s : Session β} (h : s.maxInputTokens = none) (prompt : String) :
    s.messages k prompt = (systemMsg prompt :: s.history, s) := by
  unfold Session.messages
  rw [h]

/-- The prompt of a session with a budget. -/
theorem messages_of_some {s : Session β} {maxTokens : ℤ} (h : s.maxInputTokens = some maxTokens)
    (prompt : String) {kept : List (Msg β)} {cleared : Bool} (hne : s.history ≠ [])
    (htrim : trimToBudget k maxTokens (systemMsg prompt) s.history =
      (systemMsg prompt :: kept, cleared)) :
    s.messages k prompt = (systemMsg prompt :: kept,
      { s with prefixCacheWarmed := s.prefixCacheWarmed && !cleared }) := by
  unfold Session.messages
  rw [h]
  dsimp only
  rw [if_neg hne, htrim]

/-- What a prompt is, when the prompt is known. -/
theorem trimmed_of_eq {s s' : Session β} {prompt : String} {kept : List (Msg β)}
    (h : s.messages k prompt = (systemMsg prompt :: kept, s')) :
    Trimmed k s prompt ↔
      kept <:+ s.history ∧
      ((∃ m ∈ s.history, m.role = .user) → ∃ turns, turns ≠ [] ∧ (∀ t ∈ turns, IsTurn t) ∧
        kept = turns.flatten) ∧
      (∀ maxTokens, s.maxInputTokens = some maxTokens →
        tokens k kept ≤ budgetOf maxTokens ∨ IsTurn kept) ∧
      (kept ≠ s.history → s'.prefixCacheWarmed = false) := by
  have hcons : systemMsg prompt :: kept ≠ systemMsg prompt :: s.history ↔ kept ≠ s.history := by
    rw [ne_eq, List.cons.injEq, not_and, ne_eq]
    exact ⟨fun hne => hne rfl, fun hne _ => hne⟩
  constructor
  · rintro ⟨-, hsuffix, hwhole, hbudget, hcold⟩
    rw [h] at hsuffix hwhole hbudget hcold
    exact ⟨hsuffix, hwhole, hbudget, fun hne => hcold (hcons.mpr hne)⟩
  · rintro ⟨hsuffix, hwhole, hbudget, hcold⟩
    refine ⟨?_, ?_, ?_, ?_, ?_⟩
    · rw [h]; rfl
    · rw [h]; exact hsuffix
    · rw [h]; exact hwhole
    · rw [h]; exact hbudget
    · rw [h]; exact fun hne => hcold (hcons.mp hne)

/-- The messages of turns within a history without a user message are none. -/
theorem trimmed_iff_of_no_turns {s : Session β} (prompt : String)
    (hturns : (splitTurns s.history).2 = []) :
    Trimmed k s prompt ↔ ∀ maxTokens ∈ s.maxInputTokens,
      ∃ kept, kept <:+ s.history ∧ tokens k kept ≤ budgetOf maxTokens := by
  have hnouser : ¬ ∃ m ∈ s.history, m.role = .user := fun huser =>
    (splitTurns_ne_nil_iff s.history).mpr huser hturns
  have hnoturn : ∀ kept, kept <:+ s.history → ¬ IsTurn kept := by
    rintro kept hsuffix ⟨m, rest, rfl, huser, -⟩
    exact hnouser ⟨m, hsuffix.subset List.mem_cons_self, huser⟩
  cases hmax : s.maxInputTokens with
  | none =>
    refine iff_of_true ?_ (fun maxTokens h => by cases h)
    rw [trimmed_of_eq k (messages_of_none k hmax prompt)]
    refine ⟨List.suffix_refl _, fun huser => absurd huser hnouser, fun maxTokens h => ?_,
      fun hne => absurd rfl hne⟩
    rw [hmax] at h
    cases h
  | some maxTokens =>
    -- the prompt is the longest end of the history within the budget, or empty
    obtain ⟨kept, cleared, hmessages, hsuffix, hlongest, hwarm⟩ :
        ∃ kept cleared, s.messages k prompt = (systemMsg prompt :: kept,
          { s with prefixCacheWarmed := s.prefixCacheWarmed && !cleared }) ∧
        kept <:+ s.history ∧
        ((∃ ys, ys <:+ s.history ∧ tokens k ys ≤ budgetOf maxTokens) →
          tokens k kept ≤ budgetOf maxTokens) ∧
        (kept ≠ s.history → cleared = true) := by
      rcases eq_or_ne s.history [] with hnil | hne
      · refine ⟨[], false, ?_, List.nil_suffix, ?_, fun hkept => absurd hnil.symm hkept⟩
        · unfold Session.messages
          rw [hmax]
          dsimp only
          rw [if_pos hnil]
        · rintro ⟨ys, hys, hle⟩
          rw [hnil, List.suffix_nil] at hys
          exact hys ▸ hle
      · have htrim := trimToBudget_no_turns k maxTokens (systemMsg prompt) hturns
        by_cases hle : tokens k s.history ≤ budgetOf maxTokens
        · rw [if_pos hle] at htrim
          exact ⟨s.history, false, messages_of_some k hmax prompt hne htrim,
            List.suffix_refl _, fun _ => hle, fun hkept => absurd rfl hkept⟩
        · rw [if_neg hle] at htrim
          refine ⟨_, true, messages_of_some k hmax prompt hne htrim,
            dropOldest_suffix _ _ _ _ _, ?_, fun _ => rfl⟩
          rintro ⟨ys, hys, hyle⟩
          exact tokens_dropOldest_le k hys hyle
    rw [trimmed_of_eq k hmessages]
    constructor
    · rintro ⟨-, -, hbudget, -⟩ other hother
      obtain rfl := Option.mem_some_iff.mp hother
      exact ⟨kept, hsuffix, (hbudget _ hmax).resolve_right (hnoturn kept hsuffix)⟩
    · intro hfits
      refine ⟨hsuffix, fun huser => absurd huser hnouser, fun other hother => ?_, fun hne => ?_⟩
      · rw [hmax, Option.some_inj] at hother
        subst hother
        exact .inl (hlongest (hfits _ rfl))
      · rw [hwarm hne]
        simp

/-- A prompt with the whole history is right if the turns are all there is. -/
theorem trimmed_whole_iff {s s' : Session β} {prompt : String}
    (hturns : (splitTurns s.history).2 ≠ [])
    (h : s.messages k prompt = (systemMsg prompt :: s.history, s'))
    (hle : ∀ maxTokens ∈ s.maxInputTokens,
      tokens k (splitTurns s.history).2.flatten ≤ budgetOf maxTokens) :
    Trimmed k s prompt ↔ (splitTurns s.history).1 = [] := by
  have hflat := splitTurns_flatten s.history
  have huser := (splitTurns_ne_nil_iff s.history).mp hturns
  rw [trimmed_of_eq k h]
  constructor
  · rintro ⟨-, hwhole, -, -⟩
    obtain ⟨turns, hne, hall, heq⟩ := hwhole huser
    exact lead_eq_nil_of_turns (splitTurns_lead s.history) hne hall (hflat.trans heq)
  · intro hlead
    rw [hlead, List.nil_append] at hflat
    refine ⟨List.suffix_refl _, fun _ => ⟨_, hturns, splitTurns_isTurn s.history, hflat.symm⟩,
      fun maxTokens hmax => .inl ?_, fun hne => absurd rfl hne⟩
    rw [← hflat]
    exact hle maxTokens hmax

/-- **With a user message.** -/
theorem trimmed_iff_of_turns {s : Session β} (prompt : String)
    (hturns : (splitTurns s.history).2 ≠ []) :
    Trimmed k s prompt ↔ (splitTurns s.history).1 = [] ∨ ∃ maxTokens ∈ s.maxInputTokens,
      budgetOf maxTokens < tokens k (splitTurns s.history).2.flatten ∧
        (2 ≤ (splitTurns s.history).2.length ∨ s.prefixCacheWarmed = false) := by
  have hflat := splitTurns_flatten s.history
  have hne : s.history ≠ [] := by
    intro hnil
    rw [hnil] at hturns
    exact hturns rfl
  cases hmax : s.maxInputTokens with
  | none =>
    rw [trimmed_whole_iff k hturns (messages_of_none k hmax prompt)
      (fun maxTokens h => by rw [hmax] at h; cases h)]
    exact ⟨.inl, fun h => h.resolve_right (by rintro ⟨_, h, -⟩; cases h)⟩
  | some maxTokens =>
    have htrim := trimToBudget_turns k maxTokens (systemMsg prompt) hturns
    by_cases hle : tokens k (splitTurns s.history).2.flatten ≤ budgetOf maxTokens
    · -- the turns are within the budget, and the prompt is the whole history
      rw [trimmed_whole_iff k hturns (messages_of_some k hmax prompt hne (htrim.1 hle))
        (fun other h => by rw [hmax] at h; cases h; exact hle)]
      refine ⟨.inl, fun h => h.resolve_right ?_⟩
      rintro ⟨other, hother, hover, -⟩
      cases hother
      exact absurd hle (not_le.mpr hover)
    · obtain ⟨kept, hkept, hkeptne, hbudget, hout⟩ := htrim.2 (not_le.mp hle)
      have hall : ∀ t ∈ kept, IsTurn t := fun t ht =>
        splitTurns_isTurn s.history t (hkept.subset ht)
      have hsuffix : kept.flatten <:+ s.history :=
        (flatten_suffix hkept).trans (turns_suffix s.history)
      -- nothing is dropped exactly if there is a single turn
      have hdropped : kept.length < (splitTurns s.history).2.length ↔
          2 ≤ (splitTurns s.history).2.length := by
        have hpos : 0 < kept.length := List.length_pos_of_ne_nil hkeptne
        constructor
        · intro hlt
          omega
        · intro htwo
          refine lt_of_le_of_ne hkept.length_le fun hlen => ?_
          have hsame : kept = (splitTurns s.history).2 := hkept.eq_of_length hlen
          rcases hbudget with hwithin | hone
          · rw [hsame] at hwithin
            exact hle hwithin
          · omega
      rw [trimmed_of_eq k (messages_of_some k hmax prompt hne hout)]
      constructor
      · rintro ⟨-, -, -, hcold⟩
        by_cases hlead : (splitTurns s.history).1 = []
        · exact .inl hlead
        refine .inr ⟨maxTokens, rfl, not_le.mp hle, ?_⟩
        have hdiffers : kept.flatten ≠ s.history := fun heq =>
          hlead (lead_eq_nil_of_turns (splitTurns_lead s.history) hkeptne hall
            (hflat.trans heq.symm))
        have hwarm := hcold hdiffers
        rw [Bool.and_eq_false_iff] at hwarm
        rcases hwarm with hcold | hcleared
        · exact .inr hcold
        · rw [Bool.not_eq_false', decide_eq_true_eq] at hcleared
          exact .inl (hdropped.mp hcleared)
      · intro hwhen
        refine ⟨hsuffix, fun _ => ⟨kept, hkeptne, hall, rfl⟩, fun other hother => ?_,
          fun hdiffers => ?_⟩
        · rw [hmax, Option.some_inj] at hother
          subst hother
          refine hbudget.imp id fun hone => ?_
          obtain ⟨t, rfl⟩ := List.length_eq_one_iff.mp hone
          rw [List.flatten_singleton]
          exact hall t List.mem_cons_self
        · rw [Bool.and_eq_false_iff, Bool.not_eq_false', decide_eq_true_eq]
          by_cases hlt : kept.length < (splitTurns s.history).2.length
          · exact .inr hlt
          rcases hwhen with hlead | ⟨-, -, -, htwo | hcold⟩
          · -- with nothing before the turns and none dropped, the whole history is kept
            have hsame : kept = (splitTurns s.history).2 :=
              hkept.eq_of_length (le_antisymm hkept.length_le (not_lt.mp hlt))
            rw [hlead, List.nil_append, ← hsame] at hflat
            exact absurd hflat hdiffers
          · exact absurd (hdropped.mpr htwo) hlt
          · exact .inl hcold

/-- **What a prompt is.**  It is the system message and whole turns at the end of the
history, within the budget, with the cached prefix given up if anything was dropped,
exactly when `Trims` holds. -/
theorem trimmed_iff (s : Session β) (prompt : String) : Trimmed k s prompt ↔ Trims k s := by
  unfold Trims
  dsimp only
  by_cases hturns : (splitTurns s.history).2 = []
  · rw [if_pos hturns]
    exact trimmed_iff_of_no_turns k prompt hturns
  · rw [if_neg hturns]
    exact trimmed_iff_of_turns k prompt hturns

/-! ### Prompts that are not right -/

/-- Four tokens a message and one for each character. -/
def charCounter : Counter Unit := { count := fun text => text.length, dumps := fun _ => "[]" }

/-- A session that begins with a long message of the assistant. -/
def orphanSession (maxInputTokens : ℤ) : Session Unit :=
  { history := [assistantText "a reply whose question was rolled back",
                { role := .user, content := some "hi" }, assistantText "hello"]
    maxInputTokens := some maxInputTokens
    prefixCacheWarmed := true }

/-- The reply stays in the prompt above the budget, or goes without the cached prefix. -/
theorem orphanSession_not_trimmed :
    ¬ Trimmed charCounter (orphanSession 20) "" ∧ ¬ Trimmed charCounter (orphanSession 10) "" := by
  constructor
  · intro h
    rcases h.budget 20 rfl with hle | ⟨m, rest, heq, huser, -⟩
    · exact absurd hle (by decide +kernel)
    · cases heq
      cases huser
  · intro h
    have hwarm := h.cold (by decide +kernel)
    exact absurd hwarm (by decide +kernel)

end Agent
end OpenVoiceStream
