import OpenVoiceStream.Base.Machine
import Mathlib.Logic.Function.Basic
import Mathlib.Data.List.Nodup
import Mathlib.Data.Fintype.Basic

/-!
# Switching modes

A switch calls the exit of the mode that it found, sets the new one, calls its enter and
tells the plugins.  Each of these is awaited, and another switch can begin in the meantime.
What the code does between two awaits is one step here; what the hook does, and how long it
takes, is chosen by the environment.

The fields `hooks`, `payloads` and `pending` are ones that the code does not have: the hooks
called, the payloads broadcast, and the calls whose enter has not returned.

## Main definitions

* `Manager` — the modes, the current one and the calls of `switch` in progress.
* `machine` — `register`, `switch` and `start`, in any interleaving.
* `Balanced` — enter and exit are balanced, and the payloads form a chain.
* `Clean` — a step that does not overlap with another switch.

## Main results

* `Inv.step` — what a clean step preserves.
* `modes_balanced` — every run of clean steps.
-/

namespace OpenVoiceStream.Agent.ModeManager

/-! ### The manager -/

/-- `AppMode`. -/
structure AppMode where
  name : String
  displayName : String
  icon : String
  deriving DecidableEq, Repr

/-- The hooks of a mode that a switch calls. -/
inductive Hook
  | enter
  | exit
  deriving DecidableEq, Repr

/-- A hook that was called. -/
structure HookCall where
  hook : Hook
  mode : String
  deriving DecidableEq, Repr

/-- The payload of `on_mode_change`. -/
structure Payload where
  name : String
  displayName : String
  icon : String
  prev : Option String
  deriving DecidableEq, Repr

/-- What a call of `switch` awaits. -/
inductive Await
  | exit
  | enter
  | broadcast
  deriving DecidableEq, Repr

/-- A call of `switch` in progress. -/
structure Switch where
  /-- Whether `start` has called it. -/
  starts : Bool
  prev : Option AppMode
  next : AppMode
  awaits : Await
  deriving DecidableEq, Repr

/-- `ModeManager`. -/
structure Manager (ι : Type*) where
  modes : List AppMode
  current : Option AppMode
  started : Bool
  calls : ι → Option Switch
  hooks : List HookCall
  payloads : List Payload
  /-- The calls whose enter was called and has not returned, the first one first. -/
  pending : List ι

/-- `switch` and `start`. -/
inductive Request
  | switch (name : String)
  | start (defaultName : String)
  deriving DecidableEq, Repr

/-- How an await ends.  Only an `Exception` is caught. -/
inductive Outcome
  | returned
  | raised
  | cancelled
  deriving DecidableEq, Repr

variable {ι : Type*}

/-- `self._modes.get(name)`. -/
def Manager.get (s : Manager ι) (name : String) : Option AppMode :=
  s.modes.find? fun mode => decide (mode.name = name)

/-- The name of the current mode. -/
def Manager.currentName (s : Manager ι) : Option String := s.current.map (·.name)

/-- `register`. -/
def Manager.register (s : Manager ι) (mode : AppMode) : Manager ι :=
  if mode.name = "" ∨ mode.name = "unnamed" ∨ (s.get mode.name).isSome then s
  else { s with modes := s.modes ++ [mode] }

/-- The mode that is asked for; the call raises where there is none. -/
def Manager.target (s : Manager ι) : Request → Option AppMode
  | .switch name => s.get name
  -- the first mode registered takes the place of a default that is not
  | .start defaultName => (s.get defaultName).or s.modes.head?

/-- Whether the call is `start`. -/
def Request.starts : Request → Bool
  | .switch _ => false
  | .start _ => true

/-- `on_mode_change` of a call. -/
def Switch.payload (c : Switch) : Payload :=
  { name := c.next.name, displayName := c.next.displayName, icon := c.next.icon,
    prev := c.prev.map (·.name) }

section Steps

variable [DecidableEq ι]

/-- The exit of the mode before is called. -/
def Manager.exitPrev (s : Manager ι) (i : ι) (starts : Bool) (prev next : AppMode) : Manager ι :=
  { s with
    hooks := s.hooks ++ [⟨.exit, prev.name⟩]
    calls := Function.update s.calls i (some ⟨starts, some prev, next, .exit⟩) }

/-- The new mode is set, and its enter is called. -/
def Manager.enterNext (s : Manager ι) (i : ι) (c : Switch) : Manager ι :=
  { s with
    current := some c.next
    hooks := s.hooks ++ [⟨.enter, c.next.name⟩]
    pending := s.pending ++ [i]
    calls := Function.update s.calls i (some { c with awaits := .enter }) }

/-- The plugins are told. -/
def Manager.announce (s : Manager ι) (i : ι) (c : Switch) : Manager ι :=
  { s with
    payloads := s.payloads ++ [c.payload]
    pending := s.pending.erase i
    calls := Function.update s.calls i (some { c with awaits := .broadcast }) }

/-- The call is over. -/
def Manager.leave (s : Manager ι) (i : ι) (starts : Bool) : Manager ι :=
  { s with
    started := s.started || starts
    pending := s.pending.erase i
    calls := Function.update s.calls i none }

/-- A call of `switch` or `start` up to its first await; the context may fail to be made. -/
def Manager.begin (s : Manager ι) (i : ι) (r : Request) (ctxFails : Bool) : Manager ι :=
  match s.target r with
  | none => s
  | some next =>
    if s.currentName = some next.name then { s with started := s.started || r.starts }
    else if ctxFails then s
    else
      match s.current with
      | some prev => s.exitPrev i r.starts prev next
      | none => s.enterNext i ⟨r.starts, none, next, .enter⟩

/-- A call goes on after its await: an exception of the hook is logged. -/
def Manager.advance (s : Manager ι) (i : ι) (c : Switch) : Manager ι :=
  match c.awaits with
  | .exit => s.enterNext i c
  | .enter => s.announce i c
  | .broadcast => s.leave i c.starts

/-- The await of a call ends. -/
def Manager.resume (s : Manager ι) (i : ι) (c : Switch) (o : Outcome) : Manager ι :=
  if o = .cancelled then s.leave i false else s.advance i c

end Steps

/-- What happens next. -/
inductive Act (ι : Type*)
  | register (mode : AppMode)
  | begin (i : ι) (r : Request) (ctxFails : Bool)
  | resume (i : ι) (o : Outcome)

/-- The manager, with the calls named by `ι`. -/
def machine (ι : Type*) [DecidableEq ι] : Machine (Manager ι) (Act ι) where
  init :=
    { modes := [], current := none, started := false, calls := fun _ => none, hooks := [],
      payloads := [], pending := [] }
  step s
    | .register mode => some (s.register mode)
    | .begin i r ctxFails => if (s.calls i).isNone then some (s.begin i r ctxFails) else none
    | .resume i o => (s.calls i).map fun c => s.resume i c o

/-! ### Balance -/

/-- The hooks of a mode that were called. -/
def calledOn (name : String) (hooks : List HookCall) : List Hook :=
  (hooks.filter fun call => decide (call.mode = name)).map (·.hook)

/-- The hook that is due after another one. -/
def Hook.other : Hook → Hook
  | .enter => .exit
  | .exit => .enter

/-- The hooks alternate, beginning with this one. -/
def Alternates : Hook → List Hook → Prop
  | _, [] => True
  | due, hook :: rest => hook = due ∧ Alternates due.other rest

/-- The mode was entered and not exited since. -/
def Entered (name : String) (hooks : List HookCall) : Prop :=
  (calledOn name hooks).getLast? = some .enter

/-- Each payload names the mode of the one before. -/
def Chained : Option String → List Payload → Prop
  | _, [] => True
  | prev, p :: rest => p.prev = prev ∧ Chained (some p.name) rest

/-- **Mode enter and exit are balanced.** -/
structure Balanced (s : Manager ι) : Prop where
  alternate : ∀ name, Alternates .enter (calledOn name s.hooks)
  alone : ∀ name, Entered name s.hooks → s.currentName = some name
  quiescent : (∀ i, s.calls i = none) → ∀ name, Entered name s.hooks ↔ s.currentName = some name
  chained : Chained none s.payloads

/-- The call awaits an exit. -/
def Manager.exits (s : Manager ι) (i : ι) : Prop := (s.calls i).map (·.awaits) = some .exit

/-- The request changes the mode. -/
def Manager.switches (s : Manager ι) (r : Request) : Prop :=
  (s.target r).isSome ∧ s.currentName ≠ (s.target r).map (·.name)

/-- A switch does not begin while another one awaits an exit; neither an exit nor an enter is
cancelled; and the enters of overlapping switches return in the order in which they began. -/
def Clean (s : Manager ι) : Act ι → Prop
  | .register _ => True
  | .begin _ r ctxFails => s.switches r → ctxFails = false → ∀ j, ¬s.exits j
  | .resume i .cancelled => (s.calls i).map (·.awaits) = some .broadcast
  | .resume i _ => (s.calls i).map (·.awaits) = some .enter → s.pending.head? = some i

instance (s : Manager ι) (i : ι) : Decidable (s.exits i) := inferInstanceAs (Decidable (_ = _))

instance (s : Manager ι) (r : Request) : Decidable (s.switches r) :=
  inferInstanceAs (Decidable (_ ∧ _))

instance [Fintype ι] [DecidableEq ι] (s : Manager ι) : ∀ a, Decidable (Clean s a)
  | .register _ => isTrue trivial
  | .begin _ r ctxFails =>
    inferInstanceAs (Decidable (s.switches r → ctxFails = false → ∀ j, ¬s.exits j))
  | .resume _ .cancelled => inferInstanceAs (Decidable (_ = _))
  | .resume _ .returned => inferInstanceAs (Decidable (_ → _))
  | .resume _ .raised => inferInstanceAs (Decidable (_ → _))

/-! ### Hooks that alternate -/

theorem calledOn_append_self (name : String) (hook : Hook) (hooks : List HookCall) :
    calledOn name (hooks ++ [⟨hook, name⟩]) = calledOn name hooks ++ [hook] := by
  simp [calledOn]

theorem calledOn_append_of_ne {name mode : String} (h : mode ≠ name) (hook : Hook)
    (hooks : List HookCall) : calledOn name (hooks ++ [⟨hook, mode⟩]) = calledOn name hooks := by
  simp [calledOn, h]

/-- One more hook, where it is due. -/
theorem Alternates.concat {due hook : Hook} {l : List Hook} (h : Alternates due l)
    (hdue : hook = (l.getLast?.map Hook.other).getD due) : Alternates due (l ++ [hook]) := by
  induction l generalizing due with
  | nil => exact ⟨hdue, trivial⟩
  | cons first rest ih =>
    obtain ⟨rfl, hrest⟩ := h
    refine ⟨rfl, ih hrest ?_⟩
    rw [hdue, List.getLast?_cons]
    cases rest.getLast? <;> rfl

theorem entered_append_self (name : String) (hook : Hook) (hooks : List HookCall) :
    Entered name (hooks ++ [⟨hook, name⟩]) ↔ hook = .enter := by
  rw [Entered, calledOn_append_self, List.getLast?_concat, Option.some_inj]

theorem entered_append_of_ne {name mode : String} (h : mode ≠ name) (hook : Hook)
    (hooks : List HookCall) : Entered name (hooks ++ [⟨hook, mode⟩]) ↔ Entered name hooks := by
  rw [Entered, calledOn_append_of_ne h, Entered]

/-- An exit is due where the mode is entered, and an enter where it is not. -/
theorem alternates_append {hooks : List HookCall} {mode : String} {hook : Hook}
    (h : ∀ name, Alternates .enter (calledOn name hooks)) (hdue : hook = .exit ↔ Entered mode hooks)
    (name : String) : Alternates .enter (calledOn name (hooks ++ [⟨hook, mode⟩])) := by
  by_cases hname : mode = name
  · subst hname
    rw [calledOn_append_self]
    refine (h mode).concat ?_
    rw [Entered] at hdue
    cases hlast : (calledOn mode hooks).getLast? with
    | none => cases hook <;> simp_all
    | some last => cases last <;> cases hook <;> simp_all [Hook.other]
  · rw [calledOn_append_of_ne hname]
    exact h name

theorem Chained.concat {prev : Option String} {l : List Payload} {p : Payload} (h : Chained prev l)
    (hprev : p.prev = (l.getLast?.map fun p => some p.name).getD prev) :
    Chained prev (l ++ [p]) := by
  induction l generalizing prev with
  | nil => exact ⟨hprev, trivial⟩
  | cons first rest ih =>
    refine ⟨h.1, ih h.2 ?_⟩
    rw [hprev, List.getLast?_cons]
    cases rest.getLast? <;> rfl

/-! ### The invariant -/

/-- The calls that await their enter lead from one name to another. -/
def Leads (calls : ι → Option Switch) : Option String → List ι → Option String → Prop
  | name, [], last => name = last
  | name, i :: rest, last =>
    ∃ c, calls i = some c ∧ c.awaits = .enter ∧ c.prev.map (·.name) = name ∧
      Leads calls (some c.next.name) rest last

/-- The name that was broadcast last. -/
def lastName (payloads : List Payload) : Option String := payloads.getLast?.map (·.name)

/-- The hooks agree with the current mode, the calls that await an enter lead from the last
payload to it, and at most one call awaits an exit, of that mode. -/
structure Inv (s : Manager ι) : Prop where
  alternate : ∀ name, Alternates .enter (calledOn name s.hooks)
  entered : ∀ name, Entered name s.hooks ↔ s.currentName = some name ∧ ∀ j, ¬s.exits j
  exiting : ∀ i c, s.calls i = some c → c.awaits = .exit →
    c.prev = s.current ∧ ∀ j, s.exits j → j = i
  nodup : s.pending.Nodup
  mem_pending : ∀ i, i ∈ s.pending ↔ (s.calls i).map (·.awaits) = some .enter
  leads : Leads s.calls (lastName s.payloads) s.pending s.currentName
  chained : Chained none s.payloads

theorem inv_init [DecidableEq ι] : Inv (machine ι).init where
  alternate name := trivial
  entered name := by simp [machine, Entered, calledOn, Manager.currentName]
  exiting i c hc := by simp [machine] at hc
  nodup := List.nodup_nil
  mem_pending i := by simp [machine]
  leads := rfl
  chained := trivial

/-- Balance from the invariant. -/
theorem Inv.balanced {s : Manager ι} (hinv : Inv s) : Balanced s where
  alternate := hinv.alternate
  alone name h := ((hinv.entered name).mp h).1
  quiescent hquiet name := by
    rw [hinv.entered name]
    exact and_iff_left fun j hj => by simp [Manager.exits, hquiet j] at hj
  chained := hinv.chained

theorem leads_congr {calls calls' : ι → Option Switch} {name last : Option String} {is : List ι}
    (hsame : ∀ i ∈ is, calls' i = calls i) (h : Leads calls name is last) :
    Leads calls' name is last := by
  induction is generalizing name with
  | nil => exact h
  | cons i rest ih =>
    obtain ⟨c, hc, henter, hprev, hrest⟩ := h
    exact ⟨c, (hsame i List.mem_cons_self).trans hc, henter, hprev,
      ih (fun j hj => hsame j (List.mem_cons_of_mem i hj)) hrest⟩

/-- One more call at the end. -/
theorem leads_concat {calls : ι → Option Switch} {name last : Option String} {is : List ι} {i : ι}
    {c : Switch} (h : Leads calls name is last) (hc : calls i = some c) (henter : c.awaits = .enter)
    (hprev : c.prev.map (·.name) = last) : Leads calls name (is ++ [i]) (some c.next.name) := by
  induction is generalizing name with
  | nil => exact ⟨c, hc, henter, hprev.trans h.symm, rfl⟩
  | cons j rest ih =>
    obtain ⟨d, hd, hawaits, hname, hrest⟩ := h
    exact ⟨d, hd, hawaits, hname, ih hrest⟩

section Preserved

variable [DecidableEq ι] {s : Manager ι} {i : ι}

/-- The exit of the current mode is called, and no other exit is awaited. -/
theorem Inv.exitPrev (hinv : Inv s) (hidle : s.calls i = none) (starts : Bool) {prev next : AppMode}
    (hprev : s.current = some prev) (hnone : ∀ j, ¬s.exits j) : Inv (s.exitPrev i starts prev next) := by
  have hname : s.currentName = some prev.name := by rw [Manager.currentName, hprev, Option.map_some]
  have hnotin : i ∉ s.pending := by
    rw [hinv.mem_pending, hidle]
    simp
  have hcalls : ∀ j ≠ i, (s.exitPrev i starts prev next).calls j = s.calls j := fun j hj =>
    Function.update_of_ne hj _ _
  have hself : (s.exitPrev i starts prev next).calls i = some ⟨starts, some prev, next, .exit⟩ :=
    Function.update_self ..
  have hexits : ∀ j, (s.exitPrev i starts prev next).exits j ↔ j = i := by
    intro j
    by_cases hj : j = i
    · subst hj
      simp [Manager.exits, hself]
    · simp only [Manager.exits, hcalls j hj, iff_false_right hj]
      exact hnone j
  constructor
  case alternate =>
    exact alternates_append hinv.alternate
      ⟨fun _ => (hinv.entered prev.name).mpr ⟨hname, hnone⟩, fun _ => rfl⟩
  case entered =>
    intro name
    have hno : ¬∀ j, ¬(s.exitPrev i starts prev next).exits j := fun h => h i ((hexits i).mpr rfl)
    refine iff_of_false (fun h => ?_) fun h => hno h.2
    by_cases hprevname : prev.name = name
    · subst hprevname
      exact absurd ((entered_append_self _ _ _).mp h) (by simp)
    · have hbefore := (entered_append_of_ne hprevname _ _).mp h
      rw [hinv.entered, hname, Option.some_inj] at hbefore
      exact hprevname hbefore.1
  case exiting =>
    intro j c hc hawaits
    have hj : j = i := (hexits j).mp (by rw [Manager.exits, hc, Option.map_some, hawaits])
    subst hj
    obtain rfl := Option.some_inj.mp (hself.symm.trans hc)
    exact ⟨hprev.symm, fun k hk => (hexits k).mp hk⟩
  case nodup => exact hinv.nodup
  case mem_pending =>
    intro j
    by_cases hj : j = i
    · subst hj
      rw [hself]
      exact iff_of_false hnotin (by simp)
    · rw [hcalls j hj]
      exact hinv.mem_pending j
  case leads =>
    exact leads_congr (fun j hj => hcalls j fun h => hnotin (h ▸ hj)) hinv.leads
  case chained => exact hinv.chained

/-- The next mode is set and its enter is called: no mode is entered then. -/
theorem Inv.enterNext (hinv : Inv s) {c : Switch} (hnotin : i ∉ s.pending)
    (hothers : ∀ j, s.exits j → j = i) (hnone : ∀ name, ¬Entered name s.hooks)
    (hprev : c.prev = s.current) : Inv (s.enterNext i c) := by
  have hcalls : ∀ j ≠ i, (s.enterNext i c).calls j = s.calls j := fun j hj =>
    Function.update_of_ne hj _ _
  have hself : (s.enterNext i c).calls i = some { c with awaits := .enter } :=
    Function.update_self ..
  have hexits : ∀ j, ¬(s.enterNext i c).exits j := by
    intro j h
    by_cases hj : j = i
    · subst hj
      rw [Manager.exits, hself] at h
      simp at h
    · rw [Manager.exits, hcalls j hj] at h
      exact hj (hothers j h)
  constructor
  case alternate =>
    exact alternates_append hinv.alternate
      ⟨fun h => by simp at h, fun h => absurd h (hnone _)⟩
  case entered =>
    intro name
    refine Iff.trans ?_ (and_iff_left hexits).symm
    by_cases hname : c.next.name = name
    · subst hname
      exact iff_of_true ((entered_append_self _ _ _).mpr rfl) rfl
    · refine iff_of_false (fun h => hnone name ((entered_append_of_ne hname _ _).mp h)) fun h => ?_
      exact hname (Option.some_inj.mp h)
  case exiting =>
    intro j d hd hawaits
    exact absurd (by rw [Manager.exits, hd, Option.map_some, hawaits]) (hexits j)
  case nodup =>
    exact List.nodup_append.mpr ⟨hinv.nodup, List.nodup_singleton i, fun j hj k hk => by
      rw [List.mem_singleton] at hk
      exact fun hjk => hnotin (hk ▸ hjk ▸ hj)⟩
  case mem_pending =>
    intro j
    change j ∈ s.pending ++ [i] ↔ _
    rw [List.mem_append, List.mem_singleton]
    by_cases hj : j = i
    · subst hj
      rw [hself]
      exact iff_of_true (Or.inr rfl) rfl
    · rw [hcalls j hj, or_iff_left hj]
      exact hinv.mem_pending j
  case leads =>
    refine leads_concat (c := { c with awaits := .enter })
      (leads_congr (fun j hj => hcalls j fun h => hnotin (h ▸ hj)) hinv.leads) hself rfl ?_
    rw [hprev]
    rfl
  case chained => exact hinv.chained

/-- The enter that was called first returns, and its switch is told. -/
theorem Inv.announce (hinv : Inv s) {c : Switch} (hc : s.calls i = some c)
    (henter : c.awaits = .enter) (hhead : s.pending.head? = some i) : Inv (s.announce i c) := by
  obtain ⟨rest, hpending⟩ : ∃ rest, s.pending = i :: rest := List.head?_eq_some_iff.mp hhead
  have hnodup := hinv.nodup
  rw [hpending, List.nodup_cons] at hnodup
  have herase : (s.announce i c).pending = rest := by
    change s.pending.erase i = rest
    rw [hpending, List.erase_cons_head]
  have hcalls : ∀ j ≠ i, (s.announce i c).calls j = s.calls j := fun j hj =>
    Function.update_of_ne hj _ _
  have hself : (s.announce i c).calls i = some { c with awaits := .broadcast } :=
    Function.update_self ..
  have hexits : ∀ j, (s.announce i c).exits j ↔ s.exits j := by
    intro j
    by_cases hj : j = i
    · subst hj
      rw [Manager.exits, Manager.exits, hself, hc]
      simp [henter]
    · rw [Manager.exits, Manager.exits, hcalls j hj]
  have hleads := hinv.leads
  rw [hpending] at hleads
  obtain ⟨d, hd, -, hname, hrest⟩ := hleads
  obtain rfl := Option.some_inj.mp (hc.symm.trans hd)
  constructor
  case alternate => exact hinv.alternate
  case entered =>
    intro name
    simp only [hexits]
    exact hinv.entered name
  case exiting =>
    intro j d hd hawaits
    have hj : j ≠ i := by
      rintro rfl
      obtain rfl := Option.some_inj.mp (hself.symm.trans hd)
      cases hawaits
    rw [hcalls j hj] at hd
    simp only [hexits]
    exact hinv.exiting j d hd hawaits
  case nodup => exact herase ▸ hnodup.2
  case mem_pending =>
    intro j
    rw [herase]
    by_cases hj : j = i
    · subst hj
      rw [hself]
      exact iff_of_false hnodup.1 (by simp)
    · rw [hcalls j hj, ← hinv.mem_pending j, hpending, List.mem_cons, or_iff_right hj]
  case leads =>
    rw [herase]
    refine leads_congr (fun j hj => hcalls j fun h => hnodup.1 (h ▸ hj)) ?_
    have hlast : lastName (s.announce i c).payloads = some c.next.name := by
      change lastName (s.payloads ++ [c.payload]) = _
      rw [lastName, List.getLast?_concat]
      rfl
    rw [hlast]
    exact hrest
  case chained =>
    refine hinv.chained.concat (hname.trans ?_)
    rw [lastName]
    cases s.payloads.getLast? <;> rfl

/-- A broadcast ends. -/
theorem Inv.leave (hinv : Inv s) {c : Switch} (hc : s.calls i = some c)
    (hbroadcast : c.awaits = .broadcast) (starts : Bool) : Inv (s.leave i starts) := by
  have hnotin : i ∉ s.pending := by
    rw [hinv.mem_pending, hc, Option.map_some, hbroadcast]
    simp
  have hcalls : ∀ j ≠ i, (s.leave i starts).calls j = s.calls j := fun j hj =>
    Function.update_of_ne hj _ _
  have hself : (s.leave i starts).calls i = none := Function.update_self ..
  have hexits : ∀ j, (s.leave i starts).exits j ↔ s.exits j := by
    intro j
    by_cases hj : j = i
    · subst hj
      rw [Manager.exits, Manager.exits, hself, hc]
      simp [hbroadcast]
    · rw [Manager.exits, Manager.exits, hcalls j hj]
  have herase : (s.leave i starts).pending = s.pending := List.erase_of_not_mem hnotin
  constructor
  case alternate => exact hinv.alternate
  case entered =>
    intro name
    simp only [hexits]
    exact hinv.entered name
  case exiting =>
    intro j d hd hawaits
    have hj : j ≠ i := by
      rintro rfl
      cases hself.symm.trans hd
    rw [hcalls j hj] at hd
    simp only [hexits]
    exact hinv.exiting j d hd hawaits
  case nodup => exact herase ▸ hinv.nodup
  case mem_pending =>
    intro j
    rw [herase]
    by_cases hj : j = i
    · subst hj
      rw [hself]
      exact iff_of_false hnotin (by simp)
    · rw [hcalls j hj]
      exact hinv.mem_pending j
  case leads =>
    rw [herase]
    exact leads_congr (fun j hj => hcalls j fun h => hnotin (h ▸ hj)) hinv.leads
  case chained => exact hinv.chained

omit [DecidableEq ι] in
/-- The modes and `_started` do not matter. -/
theorem Inv.congr {t : Manager ι} (hinv : Inv s) (hcurrent : t.current = s.current)
    (hcalls : t.calls = s.calls) (hhooks : t.hooks = s.hooks) (hpayloads : t.payloads = s.payloads)
    (hpending : t.pending = s.pending) : Inv t := by
  obtain ⟨modes, current, started, calls, hooks, payloads, pending⟩ := t
  dsimp only at hcurrent hcalls hhooks hpayloads hpending
  subst hcurrent hcalls hhooks hpayloads hpending
  exact ⟨hinv.alternate, hinv.entered, hinv.exiting, hinv.nodup, hinv.mem_pending, hinv.leads,
    hinv.chained⟩

omit [DecidableEq ι] in
theorem Inv.register (hinv : Inv s) (mode : AppMode) : Inv (s.register mode) := by
  unfold Manager.register
  split
  · exact hinv
  · exact hinv.congr rfl rfl rfl rfl rfl

/-- A call begins; if it switches, no exit is awaited. -/
theorem Inv.begin (hinv : Inv s) (hidle : s.calls i = none) {r : Request} {ctxFails : Bool}
    (hclean : s.switches r → ctxFails = false → ∀ j, ¬s.exits j) : Inv (s.begin i r ctxFails) := by
  unfold Manager.begin
  split
  case h_1 => exact hinv
  case h_2 next htarget =>
    split
    case isTrue => exact hinv.congr rfl rfl rfl rfl rfl
    case isFalse hname =>
      split
      case isTrue => exact hinv
      case isFalse hctx =>
        have hnone := hclean (by simpa [Manager.switches, htarget] using hname) (by simpa using hctx)
        split
        case h_1 prev hprev => exact hinv.exitPrev hidle r.starts hprev hnone
        case h_2 hprev =>
          refine hinv.enterNext ?_ (fun j hj => absurd hj (hnone j)) (fun name h => ?_) hprev.symm
          · rw [hinv.mem_pending, hidle]
            simp
          · have hcurrent := ((hinv.entered name).mp h).1
            rw [Manager.currentName, hprev] at hcurrent
            cases hcurrent

/-- An exit has returned, and the mode that was current is exited. -/
theorem Inv.exited (hinv : Inv s) {c : Switch} (hc : s.calls i = some c) (hexit : c.awaits = .exit) :
    Inv (s.enterNext i c) := by
  obtain ⟨hprev, hothers⟩ := hinv.exiting i c hc hexit
  have hexits : s.exits i := by rw [Manager.exits, hc, Option.map_some, hexit]
  refine hinv.enterNext ?_ hothers (fun name h => ((hinv.entered name).mp h).2 i hexits) hprev
  rw [hinv.mem_pending, hc, Option.map_some, hexit]
  simp

/-- A call goes on; if its enter has returned, it was the first of those that were awaited. -/
theorem Inv.advance (hinv : Inv s) {c : Switch} (hc : s.calls i = some c)
    (hhead : c.awaits = .enter → s.pending.head? = some i) : Inv (s.advance i c) := by
  unfold Manager.advance
  split
  case h_1 hexit => exact hinv.exited hc hexit
  case h_2 henter => exact hinv.announce hc henter (hhead henter)
  case h_3 hbroadcast => exact hinv.leave hc hbroadcast c.starts

/-- **A clean step.** -/
theorem Inv.step {t : Manager ι} {a : Act ι} (hinv : Inv s) (hclean : Clean s a)
    (hstep : (machine ι).step s a = some t) : Inv t := by
  cases a with
  | register mode =>
    obtain rfl := Option.some_inj.mp hstep
    exact hinv.register mode
  | begin i r ctxFails =>
    have hidle : s.calls i = none := by
      by_contra hbusy
      simp [machine, hbusy] at hstep
    simp only [machine, hidle, Option.isNone_none, if_true, Option.some_inj] at hstep
    subst hstep
    exact hinv.begin hidle hclean
  | resume i o =>
    obtain ⟨c, hc, rfl⟩ := Option.map_eq_some_iff.mp hstep
    unfold Manager.resume
    cases o with
    | cancelled =>
      rw [Clean, hc, Option.map_some, Option.some_inj] at hclean
      exact hinv.leave hc hclean false
    | returned => exact hinv.advance hc fun henter => hclean (by rw [hc, Option.map_some, henter])
    | raised => exact hinv.advance hc fun henter => hclean (by rw [hc, Option.map_some, henter])

/-- **Mode enter and exit are balanced** in every run whose switches do not overlap. -/
theorem modes_balanced {as : List (Act ι)} {s : Manager ι}
    (hclean : (machine ι).Guarded Clean (machine ι).init as) (hrun : (machine ι).run as = some s) :
    Balanced s :=
  ((machine ι).invariant_of_guarded Clean inv_init
    (fun _ _ _ hinv hclean hstep => hinv.step hclean hstep) hclean hrun).balanced

end Preserved

/-! ### Runs -/

def chat : AppMode := ⟨"chat", "Chat", "c"⟩
def interpreter : AppMode := ⟨"interpreter", "Interpreter", "i"⟩
def monologue : AppMode := ⟨"monologue", "Monologue", "m"⟩

/-- The agent starts in chat. -/
def startRun : List (Act (Fin 2)) :=
  [.register chat, .register interpreter, .register monologue, .begin 0 (.start "chat") false,
    .resume 0 .returned]

/-- A switch begins while the plugins are told of the start; its exit raises, and it is
cancelled while the plugins are told. -/
def cleanRun : List (Act (Fin 2)) :=
  startRun ++ ([.begin 1 (.switch "interpreter") false, .resume 0 .returned, .resume 1 .raised,
    .resume 1 .returned, .resume 1 .cancelled] : List (Act (Fin 2)))

theorem cleanRun_ran : ((machine (Fin 2)).run cleanRun).isSome := rfl

theorem modes_balanced_cleanRun : Balanced (((machine (Fin 2)).run cleanRun).get cleanRun_ran) :=
  modes_balanced (by decide +kernel) (Option.some_get cleanRun_ran).symm

/-- A switch begins while another one awaits the exit of chat. -/
def overlapRun : List (Act (Fin 2)) :=
  startRun ++ ([.resume 0 .returned, .begin 0 (.switch "interpreter") false,
    .begin 1 (.switch "monologue") false, .resume 0 .returned, .resume 1 .returned,
    .resume 0 .returned, .resume 1 .returned, .resume 0 .returned, .resume 1 .returned] :
      List (Act (Fin 2)))

theorem overlapRun_ran : ((machine (Fin 2)).run overlapRun).isSome := rfl

/-- The manager at the end of it. -/
def overlapped : Manager (Fin 2) := ((machine (Fin 2)).run overlapRun).get overlapRun_ran

/-- Chat is exited twice, the interpreter stays entered, and both payloads name chat. -/
theorem overlapRun_exits_twice :
    (machine (Fin 2)).run overlapRun = some overlapped ∧ (∀ i, overlapped.calls i = none) ∧
      calledOn "chat" overlapped.hooks = [.enter, .exit, .exit] ∧
      calledOn "interpreter" overlapped.hooks = [.enter] ∧
      overlapped.currentName = some "monologue" ∧
      overlapped.payloads.map (fun p => (p.name, p.prev)) =
        [("chat", none), ("interpreter", some "chat"), ("monologue", some "chat")] :=
  ⟨(Option.some_get overlapRun_ran).symm, by decide +kernel, by decide +kernel, by decide +kernel,
    by decide +kernel, by decide +kernel⟩

end OpenVoiceStream.Agent.ModeManager
