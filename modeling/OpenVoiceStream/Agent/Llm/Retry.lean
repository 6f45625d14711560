import OpenVoiceStream.Agent.Session
import OpenVoiceStream.Base.Assoc
import OpenVoiceStream.Base.Template
import OpenVoiceStream.Base.Value

/-!
# Retries of the language model

`EdgeLLMBackend.stream_events` streams what the model answers.  Underneath, a request that
fails before anything was said is made again, a few times; above that, a pass that failed
because the server rejected `prefix_cache` is made once more without it, if nothing has been
handed out, and the session remembers not to ask for it again.

What the server does at each request is arbitrary: some events, and then an end or an
exception.  An exception that is neither of the API nor of the stream stands also for a
cancellation, and for a caller that stops listening.

## Main definitions

* `LLMEvent`, `Exn`, `Attempt` — what one request gives.
* `baseStreamEvents` — the retries of `OpenAICompatBackend`.
* `streamEvents` — the call, with its fallback.
* `Op`, `run`, `Keeps` — a session and what happens to it.

## Main results

* `baseStreamEvents_spec`, `streamEvents_spec` — a call hands out the payload of its last
  attempt.
* `omits_of_disabled`, `run_disabled` — the latch.
* `retry_transparent` — the calls of a session.
-/

namespace OpenVoiceStream
namespace Agent
namespace Llm

/-! ### One request -/

/-- `LLMEvent`. -/
inductive LLMEvent
  | text (text : Text)
  | toolCallDelta (index : ℤ) (id name arguments : Option Text)
  | finish (reason : Text)
  deriving DecidableEq, Repr

/-- What a request can raise; `api` is an `APIError` that is none of the two before it. -/
inductive Exn
  | apiConnection (message : Text)
  | apiTimeout (message : Text)
  | api (statusCode : Option ℤ) (message : Text)
  | llmStream (message : Text)
  | other (message : Text)
  deriving DecidableEq, Repr

/-- `str(exc)`. -/
def Exn.message : Exn → Text
  | apiConnection message => message
  | apiTimeout message => message
  | api _ message => message
  | llmStream message => message
  | other message => message

/-- The exceptions that the call handles: `APIError` and `LLMStreamError`. -/
def Exn.isHandled : Exn → Bool
  | other _ => false
  | _ => true

/-- What the server does at one request: events, and how it ends. -/
structure Attempt where
  events : List LLMEvent
  ending : Option Exn
  deriving DecidableEq, Repr

/-- `_is_retryable`. -/
def isRetryable : Exn → Bool
  | .apiConnection _ => true
  | .apiTimeout _ => true
  | .api (some status) _ => decide (500 ≤ status ∧ status < 600)
  | _ => false

/-- A text that is there and not empty. -/
def present (text : Option Text) : Bool := text.any fun t => !t.isEmpty

/-- `_has_event_payload`. -/
def hasEventPayload : LLMEvent → Bool
  | .text text => !text.isEmpty
  | .toolCallDelta _ id name arguments => present id || present name || present arguments
  | .finish _ => false

/-- The events that carry something. -/
def payload (events : List LLMEvent) : List LLMEvent := events.filter hasEventPayload

/-! ### The retries -/

/-- A pass of the retries: what was handed out, how often was asked, and how it ended. -/
structure Pass where
  events : List LLMEvent
  attempts : ℕ
  error : Option Exn

/-- `OpenAICompatBackend.stream_events`, from the request `attempt` on, when it may be made
again `further` times. -/
def baseStreamEvents (behaviour : ℕ → Attempt) : ℕ → ℕ → Pass
  | 0, attempt => ⟨(behaviour attempt).events, 1, (behaviour attempt).ending⟩
  | further + 1, attempt =>
    match (behaviour attempt).ending with
    | none => ⟨(behaviour attempt).events, 1, none⟩
    | some exn =>
      -- once something was said the same must not be said again
      if !(behaviour attempt).events.any hasEventPayload && isRetryable exn then
        let rest := baseStreamEvents behaviour further (attempt + 1)
        ⟨(behaviour attempt).events ++ rest.events, rest.attempts + 1, rest.error⟩
      else ⟨(behaviour attempt).events, 1, some exn⟩

/-! ### The call -/

variable {β : Type}

/-- The `extra_body` of a request. -/
abbrev ExtraBody := Dictionary Text Value

/-- `prefix_cache`. -/
def prefixCache : Text := "prefix_cache".toList

/-- The request does not ask for the prefix cache. -/
def Omits (body : ExtraBody) : Prop := body.get prefixCache = none

instance (body : ExtraBody) : Decidable (Omits body) := decidable_of_iff _ Option.isNone_iff_eq_none

/-- `_PREFIX_CACHE_MARKERS`. -/
def prefixCacheMarkers : List Text :=
  ["prefix_cache".toList, "prefix cache".toList, "kv cache".toList, "kv_cache".toList,
    "kv mismatch".toList, "prefix_messages".toList]

/-- `_is_prefix_cache_failure`; `lower` is `str.lower`. -/
def isPrefixCacheFailure (lower : Text → Text) (exn : Exn) : Bool :=
  prefixCacheMarkers.any fun marker => decide (marker <:+: lower exn.message)

/-- `used_prefix_cache`. -/
def usedPrefixCache : Option (Session β) → Bool
  | some s => s.prefixCacheWarmed && !s.prefixCacheDisabled
  | none => false

/-- The flags of every request. -/
def baseFlags : List (Text × Value) :=
  [("save_system_prompt_kv_cache".toList, .bool true),
    ("return_cache_metrics".toList, .bool true), ("enable_thinking".toList, .bool false)]

/-- `_build_extra_body`. -/
def buildExtraBody (session : Option (Session β)) : ExtraBody :=
  if usedPrefixCache session then .ofPairs ((prefixCache, .bool true) :: baseFlags)
  else .ofPairs baseFlags

/-- The `extra_body` of a pass: the flags, and over them what the caller gave. -/
def extraBody (session : Option (Session β)) (callerExtra : ExtraBody) : ExtraBody :=
  .ofPairs ((buildExtraBody session).items ++ callerExtra.items)

/-- `_disable_prefix_cache`, with the reasons it emits on the event bus. -/
def disablePrefixCache (session : Option (Session β)) (exn : Exn) :
    Option (Session β) × List Text :=
  match session with
  | none => (none, [])
  | some s => (some { s with prefixCacheDisabled := true },
      if s.prefixCacheDisabled then [] else [exn.message])

/-- `session.prefix_cache_warmed = True`. -/
def warmed (session : Option (Session β)) : Option (Session β) :=
  session.map fun s => { s with prefixCacheWarmed := true }

/-- A call: what it handed out, the requests it made, how it ended, the session after it and
what the event bus was told. -/
structure Call (β : Type) where
  events : List LLMEvent
  requests : List ExtraBody
  error : Option Exn
  session : Option (Session β)
  notices : List Text

/-- A call that is over with its first pass. -/
def Pass.call (pass : Pass) (session after : Option (Session β)) (callerExtra : ExtraBody)
    (notices : List Text) : Call β :=
  { events := pass.events
    requests := List.replicate pass.attempts (extraBody session callerExtra)
    error := pass.error
    session := after
    notices := notices }

/-- `EdgeLLMBackend.stream_events`; `behaviour` is what the server does at each request. -/
def streamEvents (lower : Text → Text) (retryOnTransient : ℕ) (session : Option (Session β))
    (callerExtra : ExtraBody) (behaviour : ℕ → Attempt) : Call β :=
  let pass := baseStreamEvents behaviour retryOnTransient 0
  match pass.error with
  | none => pass.call session (warmed session) callerExtra []
  | some exn =>
    if exn.isHandled && usedPrefixCache session && isPrefixCacheFailure lower exn then
      let (disabled, notices) := disablePrefixCache session exn
      if pass.events ≠ [] then pass.call session disabled callerExtra notices
      else
        -- the fallback is one request, not retried by the layer below
        let fallback := baseStreamEvents behaviour 0 pass.attempts
        { events := fallback.events
          requests := List.replicate pass.attempts (extraBody session callerExtra) ++
            List.replicate fallback.attempts (extraBody disabled callerExtra)
          error := fallback.error
          session := if fallback.error = none then warmed disabled else disabled
          notices := notices }
    else pass.call session session callerExtra []

/-! ### What a call hands out -/

variable {lower : Text → Text} {behaviour : ℕ → Attempt} {session : Option (Session β)}
  {callerExtra : ExtraBody}

theorem payload_append (xs ys : List LLMEvent) : payload (xs ++ ys) = payload xs ++ payload ys :=
  List.filter_append ..

theorem payload_eq_nil {events : List LLMEvent} (h : events.any hasEventPayload = false) :
    payload events = [] := by
  rw [payload, List.filter_eq_nil_iff]
  intro ev hev hpayload
  rw [List.any_eq_false] at h
  exact h ev hev hpayload

/-- What a pass of the retries is, by its last attempt. -/
structure Pass.Of (pass : Pass) (behaviour : ℕ → Attempt) (attempt last : ℕ) : Prop where
  attempts : attempt + pass.attempts = last + 1
  payload : payload pass.events = Llm.payload (behaviour last).events
  error : pass.error = (behaviour last).ending

/-- **The retries** hand out the payload of the last attempt, and end as it did. -/
theorem baseStreamEvents_spec (behaviour : ℕ → Attempt) (further attempt : ℕ) :
    ∃ last, (baseStreamEvents behaviour further attempt).Of behaviour attempt last ∧
      attempt ≤ last ∧ last ≤ attempt + further := by
  induction further generalizing attempt with
  | zero => exact ⟨attempt, ⟨rfl, rfl, rfl⟩, le_rfl, le_rfl⟩
  | succ further ih =>
    rw [baseStreamEvents]
    split
    · next hend => exact ⟨attempt, ⟨rfl, rfl, hend.symm⟩, le_rfl, by omega⟩
    · next exn hend =>
      split
      · next hretry =>
        rw [Bool.and_eq_true, Bool.not_eq_true'] at hretry
        obtain ⟨last, hof, hle, hle'⟩ := ih (attempt + 1)
        refine ⟨last, ⟨?_, ?_, hof.error⟩, by omega, by omega⟩
        · have hattempts := hof.attempts
          dsimp only
          omega
        · dsimp only
          rw [payload_append, payload_eq_nil hretry.1, List.nil_append, hof.payload]
      · exact ⟨attempt, ⟨rfl, rfl, hend.symm⟩, le_rfl, by omega⟩

/-- What a call is, by its last attempt. -/
structure Call.Of (call : Call β) (behaviour : ℕ → Attempt) (session : Option (Session β))
    (last : ℕ) : Prop where
  attempts : call.requests.length = last + 1
  payload : payload call.events = Llm.payload (behaviour last).events
  error : call.error = (behaviour last).ending
  warmed : ∀ s', call.session = some s' → s'.prefixCacheWarmed = true →
    (∃ s, session = some s ∧ s.prefixCacheWarmed = true) ∨ (behaviour last).ending = none

theorem Pass.Of.call {pass : Pass} {last : ℕ} (h : pass.Of behaviour 0 last)
    {after : Option (Session β)} (notices : List Text)
    (hwarmed : ∀ s', after = some s' → s'.prefixCacheWarmed = true →
      (∃ s, session = some s ∧ s.prefixCacheWarmed = true) ∨ pass.error = none) :
    (pass.call session after callerExtra notices).Of behaviour session last where
  attempts := by
    rw [Pass.call, List.length_replicate, ← h.attempts, Nat.zero_add]
  payload := h.payload
  error := h.error
  warmed := h.error ▸ hwarmed

/-- The latch does not touch the other flag. -/
theorem warmed_of_disablePrefixCache {exn : Exn} {s' : Session β}
    (h : (disablePrefixCache session exn).1 = some s') (hw : s'.prefixCacheWarmed = true) :
    ∃ s, session = some s ∧ s.prefixCacheWarmed = true := by
  cases session with
  | none => cases h
  | some s =>
    cases h
    exact ⟨s, rfl, hw⟩

/-- **A call** hands out the payload of its last attempt and ends as it did, and the session
counts as warmed after it only if it was before or the attempt drained. -/
theorem streamEvents_spec (lower : Text → Text) (retryOnTransient : ℕ)
    (session : Option (Session β)) (callerExtra : ExtraBody) (behaviour : ℕ → Attempt) :
    ∃ last ≤ retryOnTransient + 1,
      (streamEvents lower retryOnTransient session callerExtra behaviour).Of behaviour session
        last := by
  obtain ⟨last, hof, -, hle⟩ := baseStreamEvents_spec behaviour retryOnTransient 0
  have hsame : ∀ s', session = some s' → s'.prefixCacheWarmed = true →
      (∃ s, session = some s ∧ s.prefixCacheWarmed = true) ∨
        (baseStreamEvents behaviour retryOnTransient 0).error = none :=
    fun s' hs hw => Or.inl ⟨s', hs, hw⟩
  rw [streamEvents]
  dsimp only
  split
  · next hnone => exact ⟨last, by omega, hof.call [] fun _ _ _ => Or.inr hnone⟩
  · next exn hexn =>
    split
    · split
      · refine ⟨last, by omega, hof.call _ fun s' hs hw => Or.inl ?_⟩
        exact warmed_of_disablePrefixCache hs hw
      · -- the fallback is the last attempt
        have hattempts : (baseStreamEvents behaviour retryOnTransient 0).attempts = last + 1 := by
          have h := hof.attempts
          omega
        rw [hattempts, baseStreamEvents]
        refine ⟨last + 1, by omega, ⟨?_, rfl, rfl, ?_⟩⟩
        · rw [List.length_append, List.length_replicate, List.length_replicate]
        · intro s' hs hw
          dsimp only at hs
          split at hs
          · next hdrained => exact Or.inr hdrained
          · exact Or.inl (warmed_of_disablePrefixCache hs hw)
    · exact ⟨last, by omega, hof.call [] hsame⟩

/-! ### The latch -/

theorem usedPrefixCache_eq_false {s : Session β} (h : s.prefixCacheDisabled = true) :
    usedPrefixCache (some s) = false := by
  simp [usedPrefixCache, h]

/-- A request asks for the prefix cache only if the flags or the caller do. -/
theorem omits_extraBody (hused : usedPrefixCache session = false) (hextra : Omits callerExtra) :
    Omits (extraBody session callerExtra) := by
  have hflags : (baseFlags.map Prod.fst).Nodup := by decide
  refine Dictionary.get_ofPairs_eq_none ?_
  rw [buildExtraBody, if_neg (by simp [hused]), Dictionary.ofPairs_items hflags,
    List.map_append, List.mem_append, not_or]
  exact ⟨by decide, Dictionary.get_eq_none_iff.mp hextra⟩

/-- **A call of a session that is latched** never asks for the prefix cache. -/
theorem omits_of_disabled {s : Session β} {retryOnTransient : ℕ}
    (h : s.prefixCacheDisabled = true) (hextra : Omits callerExtra) :
    ∀ body ∈ (streamEvents lower retryOnTransient (some s) callerExtra behaviour).requests,
      Omits body := by
  have hused := usedPrefixCache_eq_false h
  have hpass : ∀ (pass : Pass) (after : Option (Session β)),
      ∀ body ∈ (pass.call (some s) after callerExtra []).requests, Omits body := by
    intro pass after body hbody
    rw [Pass.call, List.mem_replicate] at hbody
    exact hbody.2 ▸ omits_extraBody hused hextra
  rw [streamEvents]
  dsimp only
  split
  · exact hpass _ _
  · rw [hused, Bool.and_false, Bool.false_and, if_neg Bool.false_ne_true]
    exact hpass _ _

/-- The pass of the retries fails because the server rejected the prefix cache. -/
def Rejected (lower : Text → Text) (retryOnTransient : ℕ) (behaviour : ℕ → Attempt) : Prop :=
  ∃ exn, (baseStreamEvents behaviour retryOnTransient 0).error = some exn ∧
    exn.isHandled = true ∧ isPrefixCacheFailure lower exn = true

/-- **A rejection latches the session**, and the fallback does not ask again. -/
theorem rejected_latches {s : Session β} {retryOnTransient : ℕ} (callerExtra : ExtraBody)
    (hused : usedPrefixCache (some s) = true) (h : Rejected lower retryOnTransient behaviour) :
    (∃ s', (streamEvents lower retryOnTransient (some s) callerExtra behaviour).session =
      some s' ∧ s'.prefixCacheDisabled = true) ∧
    (Omits callerExtra →
      ∀ body ∈ (streamEvents lower retryOnTransient (some s) callerExtra behaviour).requests.drop
        (baseStreamEvents behaviour retryOnTransient 0).attempts, Omits body) := by
  obtain ⟨exn, hexn, hhandled, hfailure⟩ := h
  rw [streamEvents]
  dsimp only
  rw [hexn]
  dsimp only
  rw [hhandled, hused, hfailure, Bool.and_self, Bool.and_self, if_pos rfl]
  dsimp only [disablePrefixCache]
  split
  · refine ⟨⟨_, rfl, rfl⟩, fun _ body hbody => ?_⟩
    rw [Pass.call, List.drop_replicate, Nat.sub_self] at hbody
    cases hbody
  · constructor
    · dsimp only
      split
      · exact ⟨_, rfl, rfl⟩
      · exact ⟨_, rfl, rfl⟩
    · intro hextra body hbody
      rw [List.drop_left' List.length_replicate, List.mem_replicate] at hbody
      exact hbody.2 ▸ omits_extraBody (usedPrefixCache_eq_false rfl) hextra

/-! ### Sessions -/

/-- What happens to a session: a call, a message, an assistant text, a rollback, a prompt, the
warmup, a reset. -/
inductive Op (β : Type)
  | call (callerExtra : ExtraBody) (behaviour : ℕ → Attempt)
  | append (message : Msg β)
  | addAssistant (content : String)
  | rollbackTo (anchor : ℕ)
  | messages (counter : Counter β) (prompt : String)
  | warmup (cacheWarmed graphWarmed : Bool)
  | reset

/-- What an operation does to the session. -/
def step (lower : Text → Text) (retryOnTransient : ℕ) (s : Session β) : Op β → Session β
  | .call callerExtra behaviour =>
    ((streamEvents lower retryOnTransient (some s) callerExtra behaviour).session).getD s
  | .append message => s.append message
  | .addAssistant content => s.addAssistant content
  | .rollbackTo anchor => s.rollbackTo anchor
  | .messages counter prompt => (s.messages counter prompt).2
  | .warmup cacheWarmed graphWarmed =>
    { s with prefixCacheWarmed := cacheWarmed || s.prefixCacheWarmed
             graphWarmed := graphWarmed || s.graphWarmed }
  | .reset => s.wipe

/-- A session after some operations. -/
def run (lower : Text → Text) (retryOnTransient : ℕ) (s : Session β) (ops : List (Op β)) :
    Session β :=
  ops.foldl (step lower retryOnTransient) s

/-- The operation wipes the session: a reset, or the recovery from an echo. -/
def Wipes (s : Session β) : Op β → Prop
  | .addAssistant content => echoes (s.append (assistantText content)).history = true
  | .reset => True
  | _ => False

/-- None of the operations wipes the session. -/
def Keeps (lower : Text → Text) (retryOnTransient : ℕ) : Session β → List (Op β) → Prop
  | _, [] => True
  | s, op :: ops => ¬ Wipes s op ∧
      Keeps lower retryOnTransient (step lower retryOnTransient s op) ops

variable {s : Session β} {retryOnTransient : ℕ}

/-- A call of a latched session leaves it latched. -/
theorem call_disabled (h : s.prefixCacheDisabled = true) :
    (((streamEvents lower retryOnTransient (some s) callerExtra behaviour).session).getD
      s).prefixCacheDisabled = true := by
  rw [streamEvents]
  dsimp only
  split
  · exact h
  · rw [usedPrefixCache_eq_false h, Bool.and_false, Bool.false_and, if_neg Bool.false_ne_true]
    exact h

/-- What does not wipe the session leaves it latched. -/
theorem step_disabled {op : Op β} (h : s.prefixCacheDisabled = true) (hop : ¬ Wipes s op) :
    (step lower retryOnTransient s op).prefixCacheDisabled = true := by
  cases op with
  | call callerExtra behaviour => exact call_disabled h
  | append message => exact h
  | addAssistant content =>
    have hno : ¬ echoes (s.append (assistantText content)).history = true := hop
    rw [step, Session.addAssistant, if_neg hno]
    exact h
  | rollbackTo anchor =>
    rw [step, Session.rollbackTo]
    split
    · exact h
    · exact h
  | messages counter prompt =>
    rw [step, Session.messages]
    split
    · exact h
    · exact h
  | warmup cacheWarmed graphWarmed => exact h
  | reset => exact absurd trivial hop

/-- **The latch holds** as long as nothing wipes the session. -/
theorem run_disabled {ops : List (Op β)} (h : s.prefixCacheDisabled = true)
    (hkeeps : Keeps lower retryOnTransient s ops) :
    (run lower retryOnTransient s ops).prefixCacheDisabled = true := by
  induction ops generalizing s with
  | nil => exact h
  | cons op ops ih => exact ih (step_disabled h hkeeps.1) hkeeps.2

/-- **Retries are transparent.**  A call hands out the payload of its last attempt, after at
most two requests more than the retries, ends as that attempt did, and leaves the session
warmed only if it was before or the attempt drained.  When a pass that asked for the prefix
cache ends with its rejection, no later request of the session does, until it is wiped. -/
theorem retry_transparent (lower : Text → Text) (retryOnTransient : ℕ) :
    (∀ (session : Option (Session β)) (callerExtra : ExtraBody) (behaviour : ℕ → Attempt),
      ∃ last ≤ retryOnTransient + 1,
        (streamEvents lower retryOnTransient session callerExtra behaviour).Of behaviour session
          last) ∧
    ∀ (s : Session β) (callerExtra : ExtraBody) (behaviour : ℕ → Attempt),
      usedPrefixCache (some s) = true → Rejected lower retryOnTransient behaviour →
      (Omits callerExtra →
        ∀ body ∈ (streamEvents lower retryOnTransient (some s) callerExtra
          behaviour).requests.drop (baseStreamEvents behaviour retryOnTransient 0).attempts,
          Omits body) ∧
      ∀ (ops : List (Op β)) (callerExtra' : ExtraBody) (behaviour' : ℕ → Attempt),
        Keeps lower retryOnTransient
          (step lower retryOnTransient s (.call callerExtra behaviour)) ops →
        Omits callerExtra' →
        ∀ body ∈ (streamEvents lower retryOnTransient
          (some (run lower retryOnTransient
            (step lower retryOnTransient s (.call callerExtra behaviour)) ops))
          callerExtra' behaviour').requests, Omits body := by
  refine ⟨streamEvents_spec lower retryOnTransient, ?_⟩
  intro s callerExtra behaviour hused hrejected
  obtain ⟨⟨s', hs', hlatched⟩, hfallback⟩ :=
    rejected_latches callerExtra hused hrejected
  refine ⟨hfallback, fun ops callerExtra' behaviour' hkeeps hextra => ?_⟩
  refine omits_of_disabled (run_disabled ?_ hkeeps) hextra
  rw [step, hs']
  exact hlatched

/-! ### A rejection that is retried -/

/-- `str.lower` on ASCII. -/
def asciiLower (text : Text) : Text := text.map Char.toLower

/-- A session whose prefix is cached. -/
def warmSession : Session Unit := { history := [], prefixCacheWarmed := true }

/-- The server is overloaded, and says it of the prefix cache; then it answers. -/
def overloaded (requests attempt : ℕ) : Attempt :=
  if attempt < requests then
    ⟨[], some (.api (some 503) "prefix_cache: server overloaded".toList)⟩
  else ⟨[.text "ok".toList], none⟩

/-- Two rejections, the first of them retried; after the second one the session is latched. -/
theorem retry_transparent_overloaded :
    let s := step asciiLower 1 warmSession (.call .empty (overloaded 2))
    s.prefixCacheWarmed = true ∧
      ∀ body ∈ (streamEvents asciiLower 1 (some (run asciiLower 1 s [.rollbackTo 0])) .empty
        (overloaded 0)).requests, Omits body := by
  intro s
  refine ⟨by decide +kernel, ?_⟩
  exact ((retry_transparent asciiLower 1).2 warmSession .empty (overloaded 2) (by decide)
    ⟨.api (some 503) "prefix_cache: server overloaded".toList, by decide +kernel,
      by decide +kernel, by decide +kernel⟩).2 [.rollbackTo 0] .empty (overloaded 0)
    ⟨id, trivial⟩ rfl

/-- A rejection that is retried is followed by a request that asks for the prefix cache. -/
theorem prefix_cache_sent_again :
    ¬ ∀ (behaviour : ℕ → Attempt) (i j : ℕ) (exn : Exn) (body : ExtraBody), i < j →
      (behaviour i).ending = some exn → isPrefixCacheFailure asciiLower exn = true →
      (streamEvents asciiLower 1 (some warmSession) .empty behaviour).requests[j]? = some body →
      Omits body := by
  intro h
  have homits := h (overloaded 1) 0 1 (.api (some 503) "prefix_cache: server overloaded".toList)
    (extraBody (some warmSession) .empty) (by decide) (by decide) (by decide +kernel) rfl
  exact absurd homits (by decide +kernel)

end Llm
end Agent
end OpenVoiceStream
