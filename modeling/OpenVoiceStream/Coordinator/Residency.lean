import OpenVoiceStream.Base.Machine
import OpenVoiceStream.Coordinator

/-!
# Exclusive residency

In the mode `exclusive` the coordinator keeps at most one of the two backends loaded.
Under its lock `acquire` first evicts the other backend, if that was the active one or
says it is ready, and then loads its own if that is not ready.  Either call may raise,
and the active slot is remembered only after both.

## Main definitions

* `unloadOther`, `preloadTarget` — the two calls of `acquire`, with their guards.
* `State.step` — one step of any task: a request, a context that is entered, left or
  given up.
* `State.raises` — a call of `acquire` raises.

## Main results

* `Inv.step` — every step keeps the two backends apart.
* `exclusive_residency` — in every run one body runs at a time, with its own backend
  ready and the other not; an `acquire` that raises runs no body and frees the lock.
-/

namespace OpenVoiceStream

/-- The opposite modality. -/
def Slot.other : Slot → Slot
  | .asr => .tts
  | .tts => .asr

theorem Slot.other_ne (slot : Slot) : slot.other ≠ slot := by
  cases slot <;> decide

namespace Residency

/-- Which of the methods a backend has. -/
structure BackendApi where
  unload : Bool
  preload : Bool
  isReady : Bool
  deriving DecidableEq, Repr

/-- How a call of `unload` or `preload` ends; one that raises leaves the backend ready or
not. -/
inductive CallResult
  | returns
  | raises (ready : Bool)
  deriving DecidableEq, Repr

/-- The eviction of `acquire`: whether the backend is ready after it, and whether it
raised.  `active` says that the backend's slot is the active one. -/
def unloadOther (backend : Option BackendApi) (active ready : Bool) (result : CallResult) :
    Bool × Bool :=
  match backend with
  | none => (ready, false)
  | some api =>
    if api.unload && (active || !api.isReady || ready) then
      match result with
      | .returns => (false, false)
      | .raises readyAfter => (readyAfter, true)
    else (ready, false)

/-- The loading of `acquire`: whether the backend is ready after it, and whether it
raised. -/
def preloadTarget (backend : Option BackendApi) (ready : Bool) (result : CallResult) :
    Bool × Bool :=
  match backend with
  | none => (ready, false)
  | some api =>
    if api.preload && api.isReady && !ready then
      match result with
      | .returns => (true, false)
      | .raises readyAfter => (readyAfter, true)
    else (ready, false)

/-- Where a task is with its `acquire`. -/
inductive Phase
  | away
  | waiting (slot : Slot)
  | inside (slot : Slot)
  deriving DecidableEq, Repr

/-- The coordinator, the backends and the tasks. -/
structure State (ι : Type) where
  coordinator : Coordinator ι
  backends : Slot → Option BackendApi
  ready : Slot → Bool
  phase : ι → Phase

/-- What may happen next: a task asks for a slot, enters its context with these ends of the
two calls, leaves it (the body returns, raises or is cancelled), or is cancelled while it
waits. -/
inductive Action (ι : Type)
  | request (i : ι) (slot : Slot)
  | enter (i : ι) (unload preload : CallResult)
  | leave (i : ι)
  | cancel (i : ι)

namespace State

variable {ι : Type} [DecidableEq ι] (s : State ι)

/-- What the eviction for `slot` does. -/
def evicted (slot : Slot) (result : CallResult) : Bool × Bool :=
  unloadOther (s.backends slot.other) (decide (s.coordinator.activeSlot = some slot.other))
    (s.ready slot.other) result

/-- What the loading for `slot` does after the eviction. -/
def loaded (slot : Slot) (result : CallResult) : Bool × Bool :=
  preloadTarget (s.backends slot) (s.ready slot) result

/-- The calls of `acquire` raise. -/
def raises (slot : Slot) (unload preload : CallResult) : Bool :=
  (s.evicted slot unload).2 || (s.loaded slot preload).2

/-- The readiness after the calls of `acquire`. -/
def readyAfter (slot : Slot) (unload preload : CallResult) : Slot → Bool :=
  let evicted := Function.update s.ready slot.other (s.evicted slot unload).1
  if (s.evicted slot unload).2 then evicted
  else Function.update evicted slot (s.loaded slot preload).1

/-- One step. -/
def step : Action ι → Option (State ι)
  | .request i slot =>
    if s.phase i = .away then
      some { s with phase := Function.update s.phase i (.waiting slot) }
    else none
  | .enter i unload preload =>
    match s.phase i with
    | .waiting slot =>
      if s.coordinator.free then
        if s.coordinator.mode = .exclusive then
          if s.raises slot unload preload then
            some { s with
              ready := s.readyAfter slot unload preload
              phase := Function.update s.phase i .away }
          else
            some { s with
              coordinator := s.coordinator.enter i slot
              ready := s.readyAfter slot unload preload
              phase := Function.update s.phase i (.inside slot) }
        else
          some { s with
            coordinator := s.coordinator.enter i slot
            phase := Function.update s.phase i (.inside slot) }
      else none
    | _ => none
  | .leave i =>
    match s.phase i with
    | .inside _ =>
      some { s with
        coordinator := s.coordinator.leave i
        phase := Function.update s.phase i .away }
    | _ => none
  | .cancel i =>
    match s.phase i with
    | .waiting _ => some { s with phase := Function.update s.phase i .away }
    | _ => none

end State

/-- A coordinator over two backends that may both have been loaded at start-up. -/
def machine (ι : Type) [DecidableEq ι] (mode : Mode) (backends : Slot → Option BackendApi)
    (ready : Slot → Bool) : Machine (State ι) (Action ι) where
  init :=
    { coordinator := Coordinator.start mode, backends := backends, ready := ready,
      phase := fun _ => .away }
  step := State.step

/-- Two registered backends with `is_ready`, `unload` and `preload`. -/
def working : Slot → Option BackendApi :=
  fun _ => some { unload := true, preload := true, isReady := true }

/-! ### The two calls over working backends -/

variable {ι : Type} [DecidableEq ι] {s t : State ι}

omit [DecidableEq ι] in
/-- An eviction that does not raise leaves the other backend not ready. -/
theorem evicted_of_not_raises (hworking : s.backends = working) {slot : Slot}
    {result : CallResult} (h : (s.evicted slot result).2 = false) :
    (s.evicted slot result).1 = false := by
  unfold State.evicted unloadOther at h ⊢
  rw [hworking] at h ⊢
  simp only [working, Bool.true_and, Bool.not_true, Bool.or_false] at h ⊢
  by_cases hcall : (decide (s.coordinator.activeSlot = some slot.other) ||
      s.ready slot.other) = true
  · rw [if_pos hcall] at h ⊢
    cases result with
    | returns => rfl
    | raises readyAfter => cases h
  · rw [if_neg hcall]
    simp only [Bool.or_eq_true, not_or, Bool.not_eq_true] at hcall
    exact hcall.2

omit [DecidableEq ι] in
/-- A loading that does not raise leaves the backend ready. -/
theorem loaded_of_not_raises (hworking : s.backends = working) {slot : Slot}
    {result : CallResult} (h : (s.loaded slot result).2 = false) :
    (s.loaded slot result).1 = true := by
  unfold State.loaded preloadTarget at h ⊢
  rw [hworking] at h ⊢
  simp only [working, Bool.true_and] at h ⊢
  cases hready : s.ready slot with
  | true => rfl
  | false =>
    rw [hready] at h
    cases result with
    | returns => rfl
    | raises readyAfter => cases h

omit [DecidableEq ι] in
/-- The readiness after the two calls. -/
theorem readyAfter_of_not_raises (hworking : s.backends = working) {slot : Slot}
    {unload preload : CallResult} (h : s.raises slot unload preload = false) :
    s.readyAfter slot unload preload slot = true ∧
      s.readyAfter slot unload preload slot.other = false := by
  rw [State.raises, Bool.or_eq_false_iff] at h
  obtain ⟨hevicted, hloaded⟩ := h
  unfold State.readyAfter
  simp only [hevicted, Bool.false_eq_true, if_false]
  constructor
  · rw [Function.update_self]
    exact loaded_of_not_raises hworking hloaded
  · rw [Function.update_of_ne (Slot.other_ne slot), Function.update_self]
    exact evicted_of_not_raises hworking hevicted

/-! ### Every run -/

/-- What holds in every state of an exclusive coordinator over working backends. -/
structure Inv (s : State ι) : Prop where
  working : s.backends = working
  exclusive : s.coordinator.mode = .exclusive
  lock : s.coordinator.Inv
  inside : ∀ i, s.coordinator.inside i = true ↔ ∃ slot, s.phase i = .inside slot
  resident : ∀ i slot, s.phase i = .inside slot →
    s.ready slot = true ∧ s.ready slot.other = false

omit [DecidableEq ι] in
/-- With the lock free no body runs. -/
theorem Inv.nobody (h : Inv s) (hfree : s.coordinator.free = true) (i : ι) (slot : Slot) :
    s.phase i ≠ .inside slot := by
  intro hi
  have hmode : s.coordinator.mode ≠ .concurrent := by
    rw [h.exclusive]
    decide
  have hlock : s.coordinator.lock = none := by
    simpa [Coordinator.free, h.exclusive] using hfree
  have := (h.lock hmode i).mp ((h.inside i).mpr ⟨slot, hi⟩)
  rw [hlock] at this
  cases this

/-- A task that is in no body before or after changes nothing else. -/
theorem Inv.outside (h : Inv s) {i : ι} (hbefore : ∀ slot, s.phase i ≠ .inside slot)
    {phase : Phase} (hafter : ∀ slot, phase ≠ .inside slot) :
    Inv { s with phase := Function.update s.phase i phase } := by
  refine ⟨h.working, h.exclusive, h.lock, ?_, ?_⟩
  · intro j
    by_cases hj : j = i
    · subst hj
      simp only [Function.update_self]
      rw [h.inside]
      exact ⟨fun ⟨slot, hslot⟩ => absurd hslot (hbefore slot),
        fun ⟨slot, hslot⟩ => absurd hslot (hafter slot)⟩
    · simp only [Function.update_of_ne hj]
      exact h.inside j
  · intro j slot hslot
    by_cases hj : j = i
    · subst hj
      simp only [Function.update_self] at hslot
      exact absurd hslot (hafter slot)
    · simp only [Function.update_of_ne hj] at hslot
      exact h.resident j slot hslot

/-- **Every step keeps the two backends apart.** -/
theorem Inv.step (h : Inv s) {a : Action ι} (hstep : s.step a = some t) : Inv t := by
  cases a with
  | request i slot =>
    simp only [State.step] at hstep
    by_cases haway : s.phase i = .away
    · rw [if_pos haway, Option.some_inj] at hstep
      subst hstep
      exact h.outside (by rw [haway]; intro slot hslot; cases hslot)
        (by intro slot hslot; cases hslot)
    · rw [if_neg haway] at hstep
      cases hstep
  | enter i unload preload =>
    simp only [State.step] at hstep
    cases hphase : s.phase i with
    | away => rw [hphase] at hstep; cases hstep
    | inside slot => rw [hphase] at hstep; cases hstep
    | waiting slot =>
      rw [hphase] at hstep
      by_cases hfree : s.coordinator.free = true
      · have hnobody := h.nobody hfree
        simp only [hfree, h.exclusive, if_true] at hstep
        cases hraises : s.raises slot unload preload with
        | true =>
          -- the lock is released and nobody is inside
          rw [hraises, if_pos rfl, Option.some_inj] at hstep
          subst hstep
          have hout : Inv { s with phase := Function.update s.phase i .away } :=
            h.outside (hnobody i) (by intro slot hslot; cases hslot)
          refine ⟨hout.working, hout.exclusive, hout.lock, hout.inside, ?_⟩
          intro j slot' hj
          by_cases hji : j = i
          · subst hji
            simp only [Function.update_self] at hj
            cases hj
          · simp only [Function.update_of_ne hji] at hj
            exact absurd hj (hnobody j slot')
        | false =>
          rw [hraises, if_neg (by decide), Option.some_inj] at hstep
          subst hstep
          refine ⟨h.working, by rw [Coordinator.enter_mode, h.exclusive],
            h.lock.enter hfree, ?_, ?_⟩
          · intro j
            rw [Coordinator.enter_inside]
            by_cases hji : j = i
            · subst hji
              simp
            · simp only [Function.update_of_ne hji]
              exact h.inside j
          · intro j slot' hj
            by_cases hji : j = i
            · subst hji
              simp only [Function.update_self, Phase.inside.injEq] at hj
              subst hj
              exact readyAfter_of_not_raises h.working hraises
            · simp only [Function.update_of_ne hji] at hj
              exact absurd hj (hnobody j slot')
      · simp only [hfree] at hstep
        cases hstep
  | leave i =>
    simp only [State.step] at hstep
    cases hphase : s.phase i with
    | away => rw [hphase] at hstep; cases hstep
    | waiting slot => rw [hphase] at hstep; cases hstep
    | inside slot =>
      rw [hphase, Option.some_inj] at hstep
      subst hstep
      refine ⟨h.working, by rw [Coordinator.leave_mode, h.exclusive],
        h.lock.leave ((h.inside i).mpr ⟨slot, hphase⟩), ?_, ?_⟩
      · intro j
        rw [Coordinator.leave_inside]
        by_cases hji : j = i
        · subst hji
          simp
        · simp only [Function.update_of_ne hji]
          exact h.inside j
      · intro j slot' hj
        by_cases hji : j = i
        · subst hji
          simp only [Function.update_self] at hj
          cases hj
        · simp only [Function.update_of_ne hji] at hj
          exact h.resident j slot' hj
  | cancel i =>
    simp only [State.step] at hstep
    cases hphase : s.phase i with
    | away => rw [hphase] at hstep; cases hstep
    | inside slot => rw [hphase] at hstep; cases hstep
    | waiting slot =>
      rw [hphase, Option.some_inj] at hstep
      subst hstep
      exact h.outside (by rw [hphase]; intro slot hslot; cases hslot)
        (by intro slot hslot; cases hslot)

theorem inv_init (ready : Slot → Bool) : Inv (machine ι .exclusive working ready).init := by
  refine ⟨rfl, rfl, Coordinator.inv_start .exclusive, ?_, ?_⟩
  · intro i
    constructor
    · intro h; cases h
    · rintro ⟨slot, hslot⟩; cases hslot
  · intro i slot hslot; cases hslot

/-- **Exclusive residency.**  In every run of an exclusive coordinator over two working
backends, ready or not at the start, at most one body runs at a time, and when the body for
a slot runs its backend is ready and the other one is not.  An `acquire` whose call raises
runs no body and leaves the lock free. -/
theorem exclusive_residency (ready : Slot → Bool) {as : List (Action ι)}
    (hrun : (machine ι .exclusive working ready).run as = some t) :
    (∀ i j slot slot', t.phase i = .inside slot → t.phase j = .inside slot' → i = j) ∧
    (∀ i slot, t.phase i = .inside slot →
      t.ready slot = true ∧ t.ready slot.other = false) ∧
    (∀ i slot unload preload t', t.phase i = .waiting slot →
      t.step (.enter i unload preload) = some t' → t.raises slot unload preload = true →
      t'.phase i = .away ∧ t'.coordinator.lock = none ∧
        ∀ j slot', t'.phase j ≠ .inside slot') := by
  have h : Inv t := Machine.invariant_of_step _ (inv_init ready)
    (fun s a s' hs hstep => hs.step hstep) hrun
  refine ⟨?_, h.resident, ?_⟩
  · intro i j slot slot' hi hj
    exact h.lock.eq_of_inside (by rw [h.exclusive]; decide)
      ((h.inside i).mpr ⟨slot, hi⟩) ((h.inside j).mpr ⟨slot', hj⟩)
  · intro i slot unload preload t' hphase hstep hraises
    have hnext := h.step hstep
    simp only [State.step, hphase] at hstep
    by_cases hfree : t.coordinator.free = true
    · simp only [hfree, h.exclusive, hraises, if_true, Option.some_inj] at hstep
      subst hstep
      refine ⟨Function.update_self .., ?_, fun j slot' => hnext.nobody hfree j slot'⟩
      simpa [Coordinator.free, h.exclusive] using hfree
    · simp only [hfree] at hstep
      cases hstep

/-- A first task speaks, a second one listens. -/
def speakThenListen : List (Action Bool) :=
  [.request true .tts, .enter true .returns .returns, .request false .asr, .leave true,
    .enter false .returns .returns]

/-- Both backends are loaded at start-up; only one of them is when the second task runs. -/
theorem exclusive_residency_both :
    ∃ t, (machine Bool .exclusive working fun _ => true).run speakThenListen = some t ∧
      t.phase false = .inside .asr ∧ t.ready .asr = true ∧ t.ready .tts = false := by
  obtain ⟨t, hrun⟩ :
      ∃ t, (machine Bool .exclusive working fun _ => true).run speakThenListen = some t :=
    ⟨_, rfl⟩
  have hphase : t.phase false = .inside .asr := by
    rw [← Option.some.inj hrun]
    rfl
  exact ⟨t, hrun, hphase, (exclusive_residency (fun _ => true) hrun).2.1 false .asr hphase⟩

end Residency
end OpenVoiceStream
