import Mathlib.Data.List.Induction
import Mathlib.Data.List.TakeWhile
import OpenVoiceStream.Rk1828.Line

/-!
# The tools of a request

The worker has one session, and registers the tools of a request with it. It does so only for a
line that names tools, and only if they are not those it registered last. So a request without
tools is run with whatever is registered, and so is a request whose tools are refused.

## Main definitions

* `Session`, `serve`, `serveAll` — the loop of `run_server`.
* `Call`, `answers` — requests, one after the other, and the runs they lead to.
* `OwnTools` — each run has the tools of its request.
* `Fresh` — when that is so: nothing is registered before a request without tools, and what a
  request names is accepted, or is there already.

## Main results

* `session_after` — the session after some requests.
* `ownTools_iff_fresh` — the runs have their own tools exactly if the requests are fresh.
-/

namespace OpenVoiceStream
namespace Rk1828

/-! ### The loop of the worker -/

/-- The part of a text that C sees. -/
def cString (text : Text) : Text := text.takeWhile (· ≠ '\x00')

/-- The tools that are registered with the session, and `g_last_tools`. -/
structure Session where
  registered : Option Text
  lastTools : Text
  deriving DecidableEq, Repr

/-- What `rknn3_session_run` is called with, and the tools that are registered then. -/
structure Run where
  tools : Option Text
  prompt : Text
  maxNew : ℤ
  keepHistory : Bool
  deriving DecidableEq, Repr

/-- `line.pop_back()`, as long as there is the end of a line. -/
def popEnds (line : Text) : Text :=
  (line.reverse.dropWhile fun c => c ∈ ['\r', '\n']).reverse

/-- `rknn3_session_set_function_tools`, where it is called: `accepted` says whether it returns
zero. -/
def Session.register (s : Session) (tools : Text) (accepted : Bool) : Session :=
  if tools ≠ [] ∧ tools ≠ s.lastTools ∧ accepted then
    { registered := some (cString tools), lastTools := tools }
  else s

/-- One line of `run_server`: the session after it, and the run, if there is one. -/
def serve (s : Session) (line : Text) (accepted : Bool) : Session × Option Run :=
  let line := popEnds line
  if line = [] then (s, none)
  else
    let parsed := parseLine line
    let s := s.register parsed.tools accepted
    let prompt := (parsed.turns.getLast?.map ServerTurn.text).getD []
    if prompt = [] then (s, none)
    else
      (s, some
        { tools := s.registered
          prompt := cString prompt
          maxNew := parsed.maxNew
          keepHistory := parsed.keep = 1 })

/-- The lines, one after the other. -/
def serveAll (s : Session) : List (Text × Bool) → List (Option Run)
  | [] => []
  | (line, accepted) :: rest => (serve s line accepted).2 :: serveAll (serve s line accepted).1 rest

/-- Before the first line. -/
def Session.init : Session := { registered := none, lastTools := [] }

/-! ### Requests -/

/-- A request, and whether its tools are accepted, should they be registered. -/
structure Call where
  request : ChatRequest
  accepted : Bool

/-- The runs of some requests: their lines are the input of the worker. -/
def answers (calls : List Call) : List (Option Run) :=
  serveAll .init
    ((getlines (calls.map fun c => requestLine c.request ++ ['\n']).flatten).zip
      (calls.map Call.accepted))

/-- The tools of a request. -/
def ChatRequest.ownTools (r : ChatRequest) : Option Text :=
  if r.hasTools then some (toolsJson (r.tools.getD [])) else none

/-- The run that a request asks for. It says nothing about other requests. -/
def ChatRequest.ownRun (r : ChatRequest) : Run :=
  { tools := r.ownTools
    prompt := cString r.prompt
    maxNew := r.workerMaxNew
    keepHistory := false }

/-- **Each request is run with its own tools**, its own prompt and its own number of tokens. -/
def OwnTools (calls : List Call) : Prop :=
  ∀ (i : ℕ) (call : Call) (run : Run), calls[i]? = some call →
    (answers calls)[i]? = some (some run) → run = call.request.ownRun

/-- The tools of the last request whose tools were accepted. -/
def lastAccepted (calls : List Call) : Option Text :=
  calls.foldl (fun last c =>
    if c.request.hasTools && c.accepted then c.request.ownTools else last) none

/-- A request that comes after these calls: its tools are accepted, or registered already. If it
has none, there are none registered. -/
def FreshAfter (before : List Call) (call : Call) : Prop :=
  if call.request.hasTools then
    call.accepted = true ∨ lastAccepted before = call.request.ownTools
  else lastAccepted before = none

/-- Every request that is run is fresh. One with an empty prompt is not run. -/
def Fresh (calls : List Call) : Prop :=
  ∀ (i : ℕ) (call : Call), calls[i]? = some call → call.request.prompt ≠ [] →
    FreshAfter (calls.take i) call

/-! ### One line -/

theorem mem_intersperse {α : Type} {sep x : α} {xs : List α} (h : x ∈ xs.intersperse sep) :
    x = sep ∨ x ∈ xs := by
  induction xs with
  | nil => cases h
  | cons y ys ih =>
    cases ys with
    | nil => exact .inr h
    | cons z zs =>
      rw [List.intersperse_cons_cons, List.mem_cons, List.mem_cons] at h
      rcases h with rfl | rfl | h
      · exact .inr List.mem_cons_self
      · exact .inl rfl
      · exact (ih h).imp_right (List.mem_cons_of_mem _)

theorem cString_toolsJson (tools : List Tool) : cString (toolsJson tools) = toolsJson tools := by
  refine List.takeWhile_eq_self_iff.mpr fun c hc => ?_
  rw [decide_eq_true_eq]
  rintro rfl
  rw [toolsJson, List.mem_cons, List.mem_append, List.intercalate, List.mem_flatten] at hc
  rcases hc with hc | ⟨text, htext, hmem⟩ | hc
  · exact absurd hc (by decide)
  · rcases mem_intersperse htext with rfl | htext
    · exact absurd hmem (by decide)
    · -- no tool has a control character
      obtain ⟨tool, -, rfl⟩ := List.mem_map.mp htext
      exact absurd (tool.printable _ hmem) (by decide)
  · exact absurd hc (by decide)

theorem popEnds_requestLine (r : ChatRequest) : popEnds (requestLine r) = requestLine r := by
  rw [popEnds]
  cases hline : (requestLine r).reverse with
  | nil => exact (List.reverse_eq_nil_iff.mp hline).symm
  | cons c rest =>
    have hmem : c ∈ requestLine r := List.mem_reverse.mp (hline ▸ List.mem_cons_self)
    have hend : ¬decide (c ∈ ['\r', '\n']) = true := by
      rw [decide_eq_true_eq, List.mem_cons, List.mem_singleton]
      exact fun hend => not_mem_requestLine r hend.symm hmem
    rw [List.dropWhile_cons_of_neg (p := fun c => decide (c ∈ ['\r', '\n'])) hend, ← hline,
      List.reverse_reverse]

theorem requestLine_ne_nil (r : ChatRequest) : requestLine r ≠ [] := by
  unfold requestLine
  split <;> simp

/-- The line of a request runs its prompt, with what is registered. -/
theorem serve_requestLine (s : Session) (r : ChatRequest) (accepted : Bool) :
    serve s (requestLine r) accepted =
      (s.register r.toolsText accepted,
        if r.prompt = [] then none
        else some { r.ownRun with tools := (s.register r.toolsText accepted).registered }) := by
  unfold serve
  dsimp only
  rw [popEnds_requestLine, if_neg (requestLine_ne_nil r), parseLine_requestLine]
  have hprompt : ([({ role := [], text := r.prompt } : ServerTurn)].getLast?.map
      ServerTurn.text).getD [] = r.prompt := rfl
  dsimp only
  rw [hprompt]
  by_cases hempty : r.prompt = []
  · rw [if_pos hempty, if_pos hempty]
  · rw [if_neg hempty, if_neg hempty]
    rfl

/-! ### Many requests -/

/-- The session after some requests. -/
def sessionAfter (s : Session) (calls : List Call) : Session :=
  calls.foldl (fun s c => s.register c.request.toolsText c.accepted) s

theorem lastAccepted_append (before : List Call) (call : Call) :
    lastAccepted (before ++ [call]) =
      if call.request.hasTools && call.accepted then call.request.ownTools
      else lastAccepted before := by
  unfold lastAccepted
  rw [List.foldl_append]
  rfl

/-- **What is registered after some requests** are the tools that were accepted last. -/
theorem session_after (calls : List Call) :
    sessionAfter .init calls =
      { registered := lastAccepted calls, lastTools := (lastAccepted calls).getD [] } := by
  induction calls using List.reverseRecOn with
  | nil => rfl
  | append_singleton before call ih =>
    rw [lastAccepted_append, sessionAfter, List.foldl_append]
    change (sessionAfter .init before).register call.request.toolsText call.accepted = _
    rw [ih]
    cases htools : call.request.hasTools with
    | false =>
      have hnone : call.request.toolsText = [] := by
        rw [ChatRequest.toolsText, if_neg (by rw [htools]; exact Bool.false_ne_true)]
      rw [Session.register, if_neg fun h => h.1 hnone]
      rfl
    | true =>
      have htext : call.request.toolsText = toolsJson (call.request.tools.getD []) := by
        rw [ChatRequest.toolsText, if_pos htools]
      have hown : call.request.ownTools = some call.request.toolsText := by
        rw [ChatRequest.ownTools, if_pos htools, htext]
      cases haccepted : call.accepted with
      | false =>
        rw [Session.register, if_neg fun h => Bool.false_ne_true h.2.2]
        rfl
      | true =>
        rw [Bool.and_self, if_pos rfl, hown, Option.getD_some]
        by_cases hsame : call.request.toolsText = (lastAccepted before).getD []
        · -- the same tools as last time: nothing is registered
          rw [Session.register, if_neg fun h => h.2.1 hsame, ← hsame]
          congr 1
          cases hlast : lastAccepted before with
          | none =>
            rw [hlast] at hsame
            exact absurd hsame (toolsText_ne_nil htools)
          | some last =>
            rw [hlast, Option.getD_some] at hsame
            rw [hsame]
        · rw [Session.register, if_pos ⟨toolsText_ne_nil htools, hsame, rfl⟩, htext,
            cString_toolsJson]

theorem serveAll_getElem? (s : Session) (calls : List Call) (i : ℕ) :
    (serveAll s (calls.map fun c => (requestLine c.request, c.accepted)))[i]? =
      calls[i]?.map fun c =>
        (serve (sessionAfter s (calls.take i)) (requestLine c.request) c.accepted).2 := by
  induction calls generalizing s i with
  | nil => rfl
  | cons call rest ih =>
    cases i with
    | zero => rfl
    | succ i =>
      rw [List.map_cons, serveAll, List.getElem?_cons_succ, ih, List.getElem?_cons_succ,
        serve_requestLine]
      rfl

/-- The run of a request: its own, but for the tools. -/
theorem answers_getElem? (calls : List Call) (i : ℕ) :
    (answers calls)[i]? = calls[i]?.map fun c =>
      if c.request.prompt = [] then none
      else some { c.request.ownRun with tools := lastAccepted (calls.take i ++ [c]) } := by
  have hlines : calls.map (fun c => requestLine c.request ++ ['\n']) =
      (calls.map Call.request).map fun r => requestLine r ++ ['\n'] := by
    rw [List.map_map]
    rfl
  have hinput : (calls.map (requestLine ∘ Call.request)).zip (calls.map Call.accepted) =
      calls.map fun c => (requestLine c.request, c.accepted) := List.zip_map' ..
  rw [answers, hlines, getlines_requestLines, List.map_map, hinput, serveAll_getElem?]
  refine congrArg (Option.map · calls[i]?) (funext fun c => ?_)
  have hsession := session_after (calls.take i ++ [c])
  rw [sessionAfter, List.foldl_append] at hsession
  change (sessionAfter .init (calls.take i)).register c.request.toolsText c.accepted = _
    at hsession
  rw [serve_requestLine, hsession]

/-- **The requests are run with their own tools exactly if they are fresh.** -/
theorem ownTools_iff_fresh (calls : List Call) : OwnTools calls ↔ Fresh calls := by
  have hstep : ∀ (before : List Call) (call : Call),
      lastAccepted (before ++ [call]) = call.request.ownTools ↔ FreshAfter before call := by
    intro before call
    rw [lastAccepted_append, FreshAfter]
    cases htools : call.request.hasTools with
    | false =>
      have hnone : call.request.ownTools = none := by
        rw [ChatRequest.ownTools, if_neg (by rw [htools]; exact Bool.false_ne_true)]
      rw [hnone]
      rfl
    | true =>
      cases call.accepted with
      | false => simp
      | true => simp
  constructor
  · intro h i call hcall hprompt
    rw [← hstep]
    have hrun : (answers calls)[i]? =
        some (some { call.request.ownRun with tools := lastAccepted (calls.take i ++ [call]) }) := by
      rw [answers_getElem?, hcall, Option.map_some, if_neg hprompt]
    exact congrArg Run.tools (h i call _ hcall hrun)
  · intro h i call run hcall hrun
    rw [answers_getElem?, hcall, Option.map_some, Option.some.injEq] at hrun
    split at hrun
    · cases hrun
    · next hprompt =>
      obtain rfl := Option.some.inj hrun
      rw [(hstep _ _).mpr (h i call hcall hprompt)]
      rfl

/-- A tool that turns on a light. -/
def lightTool : Tool where
  json := "\x7b\"name\": \"light\"\x7d".toList
  printable := by simp

/-- A request with a tool, and then one without. -/
def lightThenChat : List Call :=
  [{ request := { prompt := "hi".toList, maxTokens := none, tools := some [lightTool] }
     accepted := true },
    { request := { prompt := "ho".toList, maxTokens := none, tools := none }
      accepted := true }]

/-- **Tools are left over**: the request without tools is run with the tool of the one before. -/
theorem tools_left_over :
    (answers lightThenChat)[1]? =
        some (some { tools := some (toolsJson [lightTool]), prompt := "ho".toList, maxNew := 512
                     keepHistory := false }) ∧
      ¬OwnTools lightThenChat := by
  have hrun : (answers lightThenChat)[1]? =
      some (some { tools := some (toolsJson [lightTool]), prompt := "ho".toList, maxNew := 512
                   keepHistory := false }) := by
    decide +kernel
  refine ⟨hrun, fun h => ?_⟩
  have hown := h 1 _ _ rfl hrun
  exact absurd (congrArg Run.tools hown) (by decide)

end Rk1828
end OpenVoiceStream
