import OpenVoiceStream.Base.Machine

/-!
# Availability of the language model

Probes and the requests of users feed one state machine.  A probe that times out says
nothing, but enough of them in a row lead to `UNKNOWN`, from every state but `DOWN`.

One success does not end an outage: `DOWN` leads to `RECOVERING`, and only a second success
to `HEALTHY`.  `UNKNOWN` does not know where it came from.  When it came from `RECOVERING`,
a failure leads on to `DEGRADED`, from which one success is enough.

## Main definitions

* `Availability.advance`, `Availability.maybeEnterUnknown` — the source's.
* `Act`, `Availability.next` — what the plugin is told, and what it does.
* `Watch` — the plugin with the results it was given; `watch` — as a machine.
* `Watch.forgets` — an outage is forgotten.

## Main results

* `next_cases` — what a step can do.
* `Watch.Inv.step`, `Watch.Known.step` — the step lemmas.
* `verdict_confirmed` — every run.
-/

namespace OpenVoiceStream
namespace LlmAvailability

/-- `AvailabilityState`. -/
inductive AvailabilityState
  | healthy | degraded | down | recovering | unknown
  deriving DecidableEq, Repr

/-- What is fixed for a plugin. -/
structure Cfg where
  failuresToDown : ℕ
  unknownsToUnknownState : ℕ

/-- The state of the plugin. -/
structure Availability where
  state : AvailabilityState
  consecutiveFailures : ℕ
  consecutiveUnknowns : ℕ
  /-- The states and failures of `on_llm_availability_change`, the latest first. -/
  changes : List (AvailabilityState × ℕ)

namespace Availability

/-- A new plugin. -/
def new : Availability :=
  { state := .healthy, consecutiveFailures := 0, consecutiveUnknowns := 0, changes := [] }

/-- `_emit_change`. -/
def emitChange (p : Availability) (prev : AvailabilityState) : Availability :=
  if prev = p.state then p
  else { p with changes := (p.state, p.consecutiveFailures) :: p.changes }

/-- `_advance`. -/
def advance (cfg : Cfg) (p : Availability) (ok : Bool) : Availability :=
  if ok then
    match p.state with
    | .healthy => { p with consecutiveFailures := 0 }.emitChange .healthy
    | .degraded => { p with state := .healthy, consecutiveFailures := 0 }.emitChange .degraded
    -- one success is not enough
    | .down => { p with state := .recovering }.emitChange .down
    | .recovering => { p with state := .healthy, consecutiveFailures := 0 }.emitChange .recovering
    | .unknown => { p with state := .healthy, consecutiveFailures := 0 }.emitChange .unknown
  else
    let p := { p with consecutiveFailures := p.consecutiveFailures + 1 }
    match p.state with
    | .healthy => { p with state := .degraded }.emitChange .healthy
    | .degraded =>
      if cfg.failuresToDown ≤ p.consecutiveFailures then
        { p with state := .down }.emitChange .degraded
      else p.emitChange .degraded
    | .recovering => { p with state := .down }.emitChange .recovering
    | .unknown => { p with state := .degraded }.emitChange .unknown
    | .down => p.emitChange .down

/-- `_maybe_enter_unknown`. -/
def maybeEnterUnknown (cfg : Cfg) (p : Availability) : Availability :=
  if p.consecutiveUnknowns < cfg.unknownsToUnknownState then p
  else if p.state = .unknown ∨ p.state = .down then p
  else { p with state := .unknown }.emitChange p.state

/-- The result of a probe: a success, a failure, or `none` where it says nothing. -/
def probed (cfg : Cfg) (p : Availability) : Option Bool → Availability
  | none => { p with consecutiveUnknowns := p.consecutiveUnknowns + 1 }.maybeEnterUnknown cfg
  | some ok => { p with consecutiveUnknowns := 0 }.advance cfg ok

/-- `report_request_failure`. -/
def reportRequestFailure (cfg : Cfg) (p : Availability) : Availability := p.advance cfg false

/-- `report_request_success`. -/
def reportRequestSuccess (cfg : Cfg) (p : Availability) : Availability := p.advance cfg true

end Availability

/-- What the plugin is told. -/
inductive Act
  /-- A turn of the loop of `run` whose probe is skipped. -/
  | skipped
  /-- A turn of that loop. -/
  | cycle (result : Option Bool)
  | forceProbe (result : Option Bool)
  | requestFailed
  | requestSucceeded

/-- The result in what the plugin is told, if it is one. -/
def Act.result : Act → Option Bool
  | .skipped => none
  | .cycle result => result
  | .forceProbe result => result
  | .requestFailed => some false
  | .requestSucceeded => some true

/-- What the plugin does. -/
def Availability.next (cfg : Cfg) (p : Availability) : Act → Availability
  | .skipped => p
  | .cycle result => p.probed cfg result
  | .forceProbe result => p.probed cfg result
  | .requestFailed => p.reportRequestFailure cfg
  | .requestSucceeded => p.reportRequestSuccess cfg

/-! ### What has happened -/

/-- The plugin and the results it was given. -/
structure Watch where
  plugin : Availability
  /-- The successes and failures, the latest first. -/
  results : List Bool
  /-- It has been `DOWN` since it was last `HEALTHY`. -/
  outage : Bool

namespace Watch

/-- Nothing has happened yet. -/
def start : Watch := { plugin := .new, results := [], outage := false }

/-- The failures since the last success. -/
def failures (w : Watch) : ℕ := (w.results.takeWhile fun ok => !ok).length

/-- What has happened once the plugin has this state, by this result. -/
def saw (w : Watch) (p : Availability) (result : Option Bool) : Watch :=
  { plugin := p
    results := result.toList ++ w.results
    outage := decide (p.state = .down) || w.outage && decide (p.state ≠ .healthy) }

/-- One step. -/
def next (cfg : Cfg) (w : Watch) (a : Act) : Watch := w.saw (w.plugin.next cfg a) a.result

/-- An outage is forgotten: a failure comes while it is not known how the model is. -/
def forgets (w : Watch) (a : Act) : Bool :=
  w.outage && decide (w.plugin.state = .unknown) && decide (a.result = some false)

end Watch

/-- The plugin and the results it is given, as a machine. -/
def watch (cfg : Cfg) : Machine Watch Act :=
  { init := .start, step := fun w a => some (w.next cfg a) }

/-! ### Steps -/

variable {cfg : Cfg} {p : Availability} {w w' : Watch} {a : Act}

@[simp] theorem emitChange_state (p : Availability) (prev : AvailabilityState) :
    (p.emitChange prev).state = p.state := by
  unfold Availability.emitChange
  split <;> rfl

@[simp] theorem emitChange_consecutiveFailures (p : Availability) (prev : AvailabilityState) :
    (p.emitChange prev).consecutiveFailures = p.consecutiveFailures := by
  unfold Availability.emitChange
  split <;> rfl

/-- What a step can do, by its result. -/
def Moves (cfg : Cfg) (p q : Availability) : Option Bool → Prop
  | some true =>
    p.state = .down ∧ q.state = .recovering ∨
      p.state ≠ .down ∧ q.state = .healthy ∧ q.consecutiveFailures = 0
  | some false =>
    q.consecutiveFailures = p.consecutiveFailures + 1 ∧
      ((p.state = .healthy ∨ p.state = .unknown ∨ p.state = .degraded) ∧ q.state = .degraded ∨
        (p.state = .down ∨ p.state = .recovering ∨ p.state = .degraded ∧
          cfg.failuresToDown ≤ p.consecutiveFailures + 1) ∧ q.state = .down)
  | none =>
    q.consecutiveFailures = p.consecutiveFailures ∧
      (q.state = p.state ∨ p.state ≠ .down ∧ q.state = .unknown)

/-- A success. -/
theorem advance_true (cfg : Cfg) (p : Availability) :
    Moves cfg p (p.advance cfg true) (some true) := by
  unfold Availability.advance
  rw [if_pos rfl]
  split <;> rename_i hstate <;> simp [Moves, hstate]

/-- A failure. -/
theorem advance_false (cfg : Cfg) (p : Availability) :
    Moves cfg p (p.advance cfg false) (some false) := by
  unfold Availability.advance
  rw [if_neg Bool.false_ne_true]
  dsimp only
  split <;> rename_i hstate
  case h_2 =>
    split
    · rename_i hmany
      exact ⟨by simp, .inr ⟨.inr (.inr ⟨hstate, hmany⟩), by simp⟩⟩
    · exact ⟨by simp, .inl ⟨.inr (.inr hstate), by simp [hstate]⟩⟩
  all_goals simp [Moves, hstate]

/-- A probe that says nothing. -/
theorem maybeEnterUnknown_moves (cfg : Cfg) (p : Availability) :
    Moves cfg p (p.maybeEnterUnknown cfg) none := by
  unfold Availability.maybeEnterUnknown
  split
  · exact ⟨rfl, .inl rfl⟩
  split
  · exact ⟨rfl, .inl rfl⟩
  · rename_i hother
    exact ⟨by simp, .inr ⟨fun hdown => hother (.inr hdown), by simp⟩⟩

/-- **What a step does.** -/
theorem next_moves (cfg : Cfg) (p : Availability) (a : Act) :
    Moves cfg p (p.next cfg a) a.result := by
  have hprobed (result : Option Bool) : Moves cfg p (p.probed cfg result) result :=
    match result with
    | none => maybeEnterUnknown_moves cfg _
    | some true => advance_true cfg { p with consecutiveUnknowns := 0 }
    | some false => advance_false cfg { p with consecutiveUnknowns := 0 }
  cases a with
  | skipped => exact ⟨rfl, .inl rfl⟩
  | cycle result => exact hprobed result
  | forceProbe result => exact hprobed result
  | requestFailed => exact advance_false cfg p
  | requestSucceeded => exact advance_true cfg p

/-! ### Runs -/

namespace Watch

/-- What holds after every run. -/
structure Inv (w : Watch) : Prop where
  latest : w.plugin.state = .healthy → w.results.head? ≠ some false
  counted : w.outage = false → w.plugin.consecutiveFailures = w.failures
  open_of : w.plugin.state = .down ∨ w.plugin.state = .recovering → w.outage = true
  closed_of : w.plugin.state = .healthy → w.outage = false

/-- What is known of an outage while none was forgotten: it has not ended yet, or the last
result was its first success. -/
def Known (w : Watch) : Prop :=
  w.outage = true → w.plugin.state = .down ∨
    (w.plugin.state = .recovering ∨ w.plugin.state = .unknown) ∧ w.results.head? = some true

/-- `DOWN` is entered for a reason. -/
def Founded (cfg : Cfg) (w w' : Watch) : Prop :=
  w.plugin.state ≠ .down → w'.plugin.state = .down →
    cfg.failuresToDown ≤ w'.failures ∨ w.outage = true

/-- After an outage `HEALTHY` is entered with two successes. -/
def Recovered (w w' : Watch) : Prop :=
  w.outage = true → w'.plugin.state = .healthy → ∃ earlier, w'.results = true :: true :: earlier

theorem Inv.start : Inv .start := by
  refine ⟨fun _ => ?_, fun _ => rfl, fun h => ?_, fun _ => rfl⟩
  · simp [Watch.start]
  · rcases h with h | h <;> cases h

variable {q : Availability}

@[simp] theorem failures_saw_false (w : Watch) (q : Availability) :
    (w.saw q (some false)).failures = w.failures + 1 := rfl

theorem outage_saw {result : Option Bool} : (w.saw q result).outage = true ↔
    q.state = .down ∨ w.outage = true ∧ q.state ≠ .healthy := by
  simp [saw]

/-- A success. -/
theorem Inv.succeeded (h : w.Inv) (hmoves : Moves cfg w.plugin q (some true)) :
    (w.saw q (some true)).Inv := by
  rcases hmoves with ⟨hdown, hnow⟩ | ⟨hup, hnow, hzero⟩
  · have hopen := h.open_of (.inl hdown)
    have hstill : (w.saw q (some true)).outage = true := outage_saw.mpr (.inr ⟨hopen, by simp [hnow]⟩)
    exact ⟨fun _ => by simp [saw], fun hclosed => by simp [hstill] at hclosed, fun _ => hstill,
      fun hhealthy => by simp [saw, hnow] at hhealthy⟩
  · exact ⟨fun _ => by simp [saw], fun _ => hzero, fun hstate => by simp [saw, hnow] at hstate,
      fun _ => by simp [saw, hnow]⟩

/-- A failure. -/
theorem Inv.failed (h : w.Inv) (hmoves : Moves cfg w.plugin q (some false)) :
    (w.saw q (some false)).Inv := by
  obtain ⟨hcount, ⟨hwas, hnow⟩ | ⟨hwas, hnow⟩⟩ := hmoves
  · refine ⟨fun hhealthy => by simp [saw, hnow] at hhealthy, fun hclosed => ?_,
      fun hstate => by simp [saw, hnow] at hstate, fun hhealthy => by simp [saw, hnow] at hhealthy⟩
    have hbefore : w.outage = false := by simpa [saw, hnow] using hclosed
    show q.consecutiveFailures = w.failures + 1
    rw [hcount, h.counted hbefore]
  · have hopen : (w.saw q (some false)).outage = true := outage_saw.mpr (.inl hnow)
    exact ⟨fun hhealthy => by simp [saw, hnow] at hhealthy, fun hclosed => by simp [hopen] at hclosed,
      fun _ => hopen, fun hhealthy => by simp [saw, hnow] at hhealthy⟩

/-- A probe that says nothing. -/
theorem Inv.silent (h : w.Inv) (hmoves : Moves cfg w.plugin q none) : (w.saw q none).Inv := by
  obtain ⟨hcount, hnow | ⟨hup, hnow⟩⟩ := hmoves
  · have hsame : (w.saw q none).outage = w.outage := by
      rw [Bool.eq_iff_iff, outage_saw, hnow]
      constructor
      · rintro (hdown | ⟨houtage, -⟩)
        · exact h.open_of (.inl hdown)
        · exact houtage
      · intro houtage
        exact .inr ⟨houtage, fun hhealthy => by simp [h.closed_of hhealthy] at houtage⟩
    refine ⟨fun hhealthy => h.latest (hnow ▸ hhealthy), fun hclosed => ?_, fun hstate => ?_,
      fun hhealthy => hsame.trans (h.closed_of (hnow ▸ hhealthy))⟩
    · exact hcount.trans (h.counted (hsame ▸ hclosed))
    · exact hsame.trans (h.open_of (hnow ▸ hstate))
  · refine ⟨fun hhealthy => by simp [saw, hnow] at hhealthy, fun hclosed => ?_,
      fun hstate => by simp [saw, hnow] at hstate, fun hhealthy => by simp [saw, hnow] at hhealthy⟩
    have hbefore : w.outage = false := by simpa [saw, hnow] using hclosed
    exact hcount.trans (h.counted hbefore)

/-- **The step lemma** for the verdict. -/
theorem Inv.step (h : w.Inv) (a : Act) : (w.next cfg a).Inv := by
  have hmoves := next_moves cfg w.plugin a
  unfold next
  match a.result, hmoves with
  | some true, hmoves => exact h.succeeded hmoves
  | some false, hmoves => exact h.failed hmoves
  | none, hmoves => exact h.silent hmoves

/-- `DOWN` is entered for a reason. -/
theorem Inv.founded (h : w.Inv) (a : Act) : Founded cfg w (w.next cfg a) := by
  have hmoves := next_moves cfg w.plugin a
  intro hup hdown
  unfold next at hdown ⊢
  match a.result, hmoves with
  | some true, hmoves =>
    rcases hmoves with ⟨-, hnow⟩ | ⟨-, hnow, -⟩ <;> simp [saw, hnow] at hdown
  | none, hmoves =>
    rcases hmoves with ⟨-, hnow | ⟨-, hnow⟩⟩
    · exact absurd (hnow.symm.trans hdown) hup
    · simp [saw, hnow] at hdown
  | some false, hmoves =>
    obtain ⟨hcount, ⟨-, hnow⟩ | ⟨hwas, -⟩⟩ := hmoves
    · simp [saw, hnow] at hdown
    rcases hwas with hwas | hwas | ⟨-, hmany⟩
    · exact absurd hwas hup
    · exact .inr (h.open_of (.inr hwas))
    · cases houtage : w.outage with
      | true => exact .inr rfl
      | false =>
        refine .inl ?_
        rw [failures_saw_false, ← h.counted houtage]
        exact hmany

/-- **The step lemma** for outages. -/
theorem Known.step (hinv : w.Inv) (h : w.Known) (hkeeps : w.forgets a = false) :
    (w.next cfg a).Known := by
  have hmoves := next_moves cfg w.plugin a
  unfold forgets at hkeeps
  unfold next
  match a.result, hmoves, hkeeps with
  | some true, hmoves, _ =>
    intro houtage
    rcases hmoves with ⟨-, hnow⟩ | ⟨-, hnow, -⟩
    · exact .inr ⟨.inl hnow, rfl⟩
    · simp [saw, hnow] at houtage
  | some false, hmoves, hkeeps =>
    intro houtage
    obtain ⟨-, ⟨hwas, hnow⟩ | ⟨-, hnow⟩⟩ := hmoves
    · -- no outage is open where `DEGRADED` is entered
      have hopen : w.outage = true := by simpa [saw, hnow] using houtage
      rcases h hopen with hdown | ⟨hrecovering | hunknown, -⟩
      · simp [hdown] at hwas
      · simp [hrecovering] at hwas
      · simp [hopen, hunknown] at hkeeps
    · exact .inl hnow
  | none, hmoves, _ =>
    intro houtage
    obtain ⟨-, hnow | ⟨hup, hnow⟩⟩ := hmoves
    · have hopen : w.outage = true := by
        rcases outage_saw.mp houtage with hdown | hopen
        · exact hinv.open_of (.inl (hnow ▸ hdown))
        · exact hopen.1
      have hwas := h hopen
      rwa [← hnow] at hwas
    · have hopen : w.outage = true := by simpa [saw, hnow] using houtage
      rcases h hopen with hdown | ⟨-, hlast⟩
      · exact absurd hdown hup
      · exact .inr ⟨.inr hnow, hlast⟩

/-- An outage that was not forgotten ends with two successes. -/
theorem Known.recovered (h : w.Known) (a : Act) : Recovered w (w.next cfg a) := by
  have hmoves := next_moves cfg w.plugin a
  intro hopen hhealthy
  unfold next at hhealthy ⊢
  match a.result, hmoves with
  | some true, hmoves =>
    rcases hmoves with ⟨-, hnow⟩ | ⟨hup, -⟩
    · simp [saw, hnow] at hhealthy
    rcases h hopen with hdown | ⟨-, hlast⟩
    · exact absurd hdown hup
    · obtain ⟨earlier, hearlier⟩ := List.head?_eq_some_iff.mp hlast
      exact ⟨earlier, by simp [saw, hearlier]⟩
  | some false, hmoves =>
    obtain ⟨-, ⟨-, hnow⟩ | ⟨-, hnow⟩⟩ := hmoves <;> simp [saw, hnow] at hhealthy
  | none, hmoves =>
    obtain ⟨-, hnow | ⟨-, hnow⟩⟩ := hmoves
    · rcases h hopen with hdown | ⟨hrecovering | hunknown, -⟩
      · simp [saw, hnow, hdown] at hhealthy
      · simp [saw, hnow, hrecovering] at hhealthy
      · simp [saw, hnow, hunknown] at hhealthy
    · simp [saw, hnow] at hhealthy

end Watch

/-- **The verdict is confirmed in both directions.**  After every run: the state is `HEALTHY`
only if the latest result was a success, or there was none; it becomes `DOWN` only with
enough failures since the last success, or while an outage has not ended; and where no
outage was forgotten on the way, it becomes `HEALTHY` after an outage only with two
successes and no failure between them. -/
theorem verdict_confirmed (cfg : Cfg) (as : List Act) (a : Act) (w w' : Watch)
    (hrun : (watch cfg).run as = some w) (hstep : (watch cfg).step w a = some w') :
    (w'.plugin.state = .healthy → w'.results.head? ≠ some false) ∧
      Watch.Founded cfg w w' ∧
      ((watch cfg).Guarded (fun w a => w.forgets a = false) .start as →
        Watch.Recovered w w') := by
  have hinv : w.Inv := (watch cfg).invariant_of_step Watch.Inv.start
    (fun w a w' h hnext => by cases hnext; exact h.step a) hrun
  cases hstep
  refine ⟨(hinv.step a).latest, hinv.founded a, fun hkeeps => ?_⟩
  have hstart : Watch.start.Inv ∧ Watch.start.Known :=
    ⟨Watch.Inv.start, fun houtage => by cases houtage⟩
  have hknown : w.Inv ∧ w.Known := (watch cfg).invariant_of_guarded
    (P := fun w => w.Inv ∧ w.Known) (fun w a => w.forgets a = false) hstart
    (fun w a w' h hok hnext => by cases hnext; exact ⟨h.1.step a, Watch.Known.step h.1 h.2 hok⟩)
    hkeeps hrun
  exact Watch.Known.recovered hknown.2 a

/-- Two failures make an outage, and one probe without a result is enough not to know. -/
def quickCfg : Cfg := { failuresToDown := 2, unknownsToUnknownState := 1 }

/-- An outage that ends after a success, a probe that says nothing and a success. -/
def endedRun : List Act :=
  [.cycle (some false), .requestFailed, .cycle (some true), .cycle none]

theorem verdict_confirmed_endedRun :
    ∃ w w', (watch quickCfg).run endedRun = some w ∧
      (watch quickCfg).step w (.forceProbe (some true)) = some w' ∧
      w'.plugin.state = .healthy ∧ Watch.Recovered w w' :=
  ⟨_, _, rfl, rfl, rfl,
    (verdict_confirmed quickCfg endedRun (.forceProbe (some true)) _ _ rfl rfl).2.2
      (by decide +kernel)⟩

/-- An outage that is forgotten: a failure comes before the second success. -/
def forgottenRun : List Act := endedRun ++ [.requestFailed]

/-- **An outage ends with one success** after a failure. -/
theorem forgottenRun_recovers_early :
    ∃ w w', (watch quickCfg).run forgottenRun = some w ∧
      (watch quickCfg).step w .requestSucceeded = some w' ∧
      w.outage = true ∧ w'.plugin.state = .healthy ∧
      w'.results = [true, false, true, false, false] :=
  ⟨_, _, rfl, rfl, rfl, rfl, rfl⟩

end LlmAvailability
end OpenVoiceStream
