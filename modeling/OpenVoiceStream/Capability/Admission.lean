import OpenVoiceStream.AsrInferGate.Fifo
import OpenVoiceStream.Capability.Resolver

/-!
# Admission and the inference gate

The limiter admits up to the session ceiling; each session may have one acquire
of the gate outstanding, and is not released before that acquire has unwound.  A
session that is refused by the gate would be the one beyond those with a permit
and those in the deque, cancelled ones that have not unwound included; with the
depth the resolver gives, these already fill the ceiling.

## Main definitions

* `gateCfg` — the constructor of the gate, from the resolver's numbers.
* `Sessions`, `sessionsMachine` — admitted sessions at the gate.

## Main results

* `never_full` — within the ceiling the queue is never full.
* `admission_fits_gate` — the resolver's numbers fit together.
-/

namespace OpenVoiceStream
namespace Capability

open AsrInferGate (Gate Task Act Inv)

/-- `AsrInferenceGate.__init__`: `none` where it raises `ValueError`. -/
def gateCfg (concurrency : ℤ) (maxWaiting : Option ℤ) : Option AsrInferGate.Cfg :=
  if h : concurrency < 1 then none
  else if maxWaiting.any (· < 0) then none
  else some ⟨concurrency.toNat, maxWaiting.map Int.toNat, by omega⟩

variable {ι : Type} [DecidableEq ι]

/-- The gate and the sessions that are admitted. -/
structure Sessions (ι : Type) where
  gate : Gate ι
  admitted : Finset ι

/-- What happens at the limiter and at the gate. -/
inductive SessionAct (ι : Type)
  /-- The limiter admits the session. -/
  | accept (i : ι)
  /-- The session gives its slot back. -/
  | release (i : ι)
  /-- A step of the session at the gate. -/
  | gate (a : Act ι)

/-- Admission below the ceiling, release after the acquire has unwound, and acquires
of admitted sessions. -/
def Sessions.step (ceiling : ℤ) (cfg : AsrInferGate.Cfg) (s : Sessions ι) :
    SessionAct ι → Option (Sessions ι)
  | .accept i =>
    if i ∉ s.admitted ∧ (s.admitted.card : ℤ) < ceiling then
      some { s with admitted := insert i s.admitted }
    else none
  | .release i =>
    if s.gate.task i = .outside then some { s with admitted := s.admitted.erase i } else none
  | .gate (.enter i) =>
    if i ∈ s.admitted then
      (AsrInferGate.step cfg s.gate (.enter i)).map fun g => { s with gate := g }
    else none
  | .gate a => (AsrInferGate.step cfg s.gate a).map fun g => { s with gate := g }

/-- The sessions and the gate as a machine. -/
def sessionsMachine (ceiling : ℤ) (cfg : AsrInferGate.Cfg) :
    Machine (Sessions ι) (SessionAct ι) where
  init := { gate := Gate.start, admitted := ∅ }
  step := Sessions.step ceiling cfg

section Bound

variable [Fintype ι] {ceiling : ℤ} {cfg : AsrInferGate.Cfg} {s s' : Sessions ι} {g g' : Gate ι}
  {i : ι} {a : Act ι}

/-- Nobody has been refused, and who is at the gate is admitted. -/
structure Fits (ceiling : ℤ) (cfg : AsrInferGate.Cfg) (s : Sessions ι) : Prop where
  gate : Inv cfg.concurrency 0 s.gate
  admitted : ∀ i, s.gate.task i ≠ .outside → i ∈ s.admitted
  card : s.admitted.card = 0 ∨ (s.admitted.card : ℤ) ≤ ceiling
  accepted : s.gate.totalRejected = 0

/-- **The count.**  Permits and places in the deque belong to different sessions at the
gate. -/
theorem permits_add_waiters_le (hg : Inv cfg.concurrency 0 g) {admitted : Finset ι}
    (hin : ∀ i, g.task i ≠ .outside → i ∈ admitted) (hi : i ∈ admitted)
    (hout : g.task i = .outside) :
    Agents.total Task.permits g.task + g.waiters.length + 1 ≤ admitted.card := by
  have hlength : ∑ j, (if j ∈ g.waiters.toFinset then 1 else 0) = g.waiters.length := by
    rw [← Finset.card_filter, Finset.filter_mem_eq_inter, Finset.univ_inter,
      List.toFinset_card_of_nodup hg.nodup]
  have hself : ∑ j, (if j = i then 1 else 0) = 1 := by simp
  have hadmitted : ∑ j, (if j ∈ admitted then 1 else 0) = admitted.card := by
    rw [← Finset.card_filter, Finset.filter_mem_eq_inter, Finset.univ_inter]
  rw [← hlength, ← hadmitted, Agents.total, ← Finset.sum_add_distrib]
  calc ∑ j, ((g.task j).permits + if j ∈ g.waiters.toFinset then 1 else 0) + 1
      = ∑ j, (((g.task j).permits + if j ∈ g.waiters.toFinset then 1 else 0)
          + if j = i then 1 else 0) := by
          conv_rhs => rw [Finset.sum_add_distrib, hself]
    _ ≤ ∑ j, if j ∈ admitted then 1 else 0 := by
        apply Finset.sum_le_sum
        intro j _
        by_cases hji : j = i
        · subst hji
          have hmem : j ∉ g.waiters := AsrInferGate.not_mem_of_not_waiting hg (by simp [hout])
          simp [hout, Task.permits, Task.inBody, Task.granted, hmem, hi]
        · cases htask : g.task j with
          | outside =>
            have hmem : j ∉ g.waiters := AsrInferGate.not_mem_of_not_waiting hg (by simp [htask])
            simp [Task.permits, Task.inBody, Task.granted, hmem, hji]
          | inside =>
            have hmem : j ∉ g.waiters := AsrInferGate.not_mem_of_not_waiting hg (by simp [htask])
            have := hin j (by simp [htask])
            simp [Task.permits, Task.inBody, Task.granted, hmem, hji, this]
          | waiting fut mc =>
            have hadm := hin j (by simp [htask])
            cases fut with
            | done =>
              have hmem := AsrInferGate.not_mem_of_granted hg htask
              simp [Task.permits, Task.inBody, Task.granted, hmem, hji, hadm]
            | pending =>
              simp only [Task.permits, Task.inBody, Task.granted, hji, hadm, if_true, if_false]
              split <;> omega
            | cancelled =>
              simp only [Task.permits, Task.inBody, Task.granted, hji, hadm, if_true, if_false]
              split <;> omega

/-- **The queue is never full.**  With a place for every admitted session beyond the
running ones, an acquire of an admitted session is not refused. -/
theorem never_full (hg : Inv cfg.concurrency 0 g)
    (hin : ∀ i, g.task i ≠ .outside → i ∈ s.admitted) (hi : i ∈ s.admitted)
    (hout : g.task i = .outside) (hcard : (s.admitted.card : ℤ) ≤ ceiling)
    (hdepth : ∀ m ∈ cfg.maxWaiting, (ceiling - cfg.concurrency).toNat ≤ m) :
    (g.enter cfg i).totalRejected = g.totalRejected := by
  rw [Gate.enter]
  split
  · rfl
  split
  · rename_i hbusy hfull
    obtain ⟨m, hm, hlen⟩ := hfull
    have hcount := permits_add_waiters_le hg hin hi hout
    have hrunning := hg.running
    have hle := hg.le
    have := hdepth m hm
    omega
  · rfl

omit [Fintype ι] in
/-- At most `enter` refuses. -/
theorem step_totalRejected (h : AsrInferGate.step cfg g a = some g')
    (ha : ∀ i, a ≠ .enter i) : g'.totalRejected = g.totalRejected := by
  have hwake : ∀ g : Gate ι, g.wakeNext.totalRejected = g.totalRejected := by
    intro g
    rw [Gate.wakeNext]
    split
    · split <;> rfl
    · rfl
  cases a with
  | enter i => exact absurd rfl (ha i)
  | resume i =>
    simp only [AsrInferGate.step] at h
    split at h <;> cases h
    · exact hwake _
    · rfl
    · rfl
  | cancel i =>
    simp only [AsrInferGate.step] at h
    split at h <;> cases h
    rfl
  | exit i =>
    simp only [AsrInferGate.step] at h
    split at h <;> cases h
    exact hwake _

omit [Fintype ι] in
/-- Only who enters starts to be at the gate. -/
theorem step_task (h : AsrInferGate.step cfg g a = some g') (ha : ∀ i, a ≠ .enter i) (j : ι)
    (hj : g'.task j ≠ .outside) : g.task j ≠ .outside := by
  have hmove : ∀ (g : Gate ι) (t : Task) (i : ι), (g.move i t).task j ≠ .outside →
      g.task i ≠ .outside → g.task j ≠ .outside := by
    intro g t i hj hi
    by_cases hji : j = i
    · rw [hji]
      exact hi
    · simpa [Gate.move, Function.update_of_ne hji] using hj
  have hwake : ∀ g : Gate ι, g.wakeNext.task j ≠ .outside → g.task j ≠ .outside := by
    intro g hj
    rw [Gate.wakeNext] at hj
    split at hj
    · split at hj
      · rename_i htask
        exact hmove _ _ _ hj (by simp [htask])
      all_goals exact hj
    · exact hj
  cases a with
  | enter i => exact absurd rfl (ha i)
  | resume i =>
    simp only [AsrInferGate.step] at h
    split at h
    case h_1 => cases h
    case h_2 hi => cases h; exact hmove _ _ _ (hwake _ hj) (by simp [hi])
    case h_3 hi => cases h; exact hmove _ _ _ hj (by simp [hi])
    case h_4 hi => cases h; exact hmove _ _ _ hj (by simp [hi])
    case h_5 => cases h
    case h_6 => cases h
  | cancel i =>
    simp only [AsrInferGate.step] at h
    split at h
    case h_1 hi => cases h; exact hmove _ _ _ hj (by simp [hi])
    case h_2 => cases h
    case h_3 => cases h
  | exit i =>
    simp only [AsrInferGate.step] at h
    split at h
    case isFalse => cases h
    rename_i hi
    cases h
    exact hmove _ _ _ (hwake _ hj) (by simp [hi])

omit [DecidableEq ι] in
theorem fits_init (ceiling : ℤ) (cfg : AsrInferGate.Cfg) :
    Fits ceiling cfg ({ gate := Gate.start, admitted := ∅ } : Sessions ι) where
  gate := AsrInferGate.inv_start _
  admitted := by
    intro i hi
    exact absurd rfl hi
  card := .inl rfl
  accepted := rfl

/-- **The step lemma.** -/
theorem Fits.step (hdepth : ∀ m ∈ cfg.maxWaiting, (ceiling - cfg.concurrency).toNat ≤ m)
    (hs : Fits ceiling cfg s) {a : SessionAct ι} (h : s.step ceiling cfg a = some s') :
    Fits ceiling cfg s' := by
  cases a with
  | accept i =>
    simp only [Sessions.step] at h
    split at h
    case isFalse => cases h
    rename_i hfree
    cases h
    refine ⟨hs.gate, fun j hj => Finset.mem_insert_of_mem (hs.admitted j hj), .inr ?_, hs.accepted⟩
    rw [Finset.card_insert_of_notMem hfree.1]
    have := hfree.2
    push_cast
    omega
  | release i =>
    simp only [Sessions.step] at h
    split at h
    case isFalse => cases h
    rename_i hout
    cases h
    refine ⟨hs.gate, ?_, ?_, hs.accepted⟩
    · intro j hj
      have hji : j ≠ i := by
        rintro rfl
        exact hj hout
      exact Finset.mem_erase_of_ne_of_mem hji (hs.admitted j hj)
    · have hle := Finset.card_erase_le (s := s.admitted) (a := i)
      have := hs.card
      simp only
      omega
  | gate a =>
    by_cases ha : ∃ i, a = .enter i
    · obtain ⟨i, rfl⟩ := ha
      simp only [Sessions.step] at h
      split at h
      case isFalse => cases h
      rename_i hi
      obtain ⟨g, hg, rfl⟩ := Option.map_eq_some_iff.mp h
      have hout : s.gate.task i = .outside := by
        simp only [AsrInferGate.step] at hg
        split at hg
        · assumption
        · cases hg
      have henter : g = s.gate.enter cfg i := by
        simpa [AsrInferGate.step, hout] using hg.symm
      have hcard : (s.admitted.card : ℤ) ≤ ceiling := by
        have hpos : 0 < s.admitted.card := Finset.card_pos.mpr ⟨i, hi⟩
        have := hs.card
        omega
      refine ⟨AsrInferGate.step_inv hs.gate hg, ?_, hs.card, ?_⟩
      · intro j hj
        by_cases hji : j = i
        · rw [hji]
          exact hi
        · apply hs.admitted j
          simp only [henter, Gate.enter] at hj
          split at hj
          · simpa [Gate.move, Function.update_of_ne hji] using hj
          split at hj
          · exact hj
          · simpa [Gate.move, Function.update_of_ne hji] using hj
      · simp only [henter]
        rw [never_full hs.gate hs.admitted hi hout hcard hdepth]
        exact hs.accepted
    · have hne : ∀ i, a ≠ .enter i := fun i hi => ha ⟨i, hi⟩
      have hmap : s.step ceiling cfg (.gate a) =
          (AsrInferGate.step cfg s.gate a).map fun g => { s with gate := g } := by
        cases a with
        | enter i => exact absurd rfl (hne i)
        | _ => rfl
      obtain ⟨g, hg, rfl⟩ := Option.map_eq_some_iff.mp (hmap.symm.trans h)
      refine ⟨AsrInferGate.step_inv hs.gate hg, ?_, hs.card, ?_⟩
      · exact fun j hj => hs.admitted j (step_task hg hne j hj)
      · exact (step_totalRejected hg hne).trans hs.accepted

end Bound

/-- The resolver's numbers give the gate a place for every admitted session beyond
the running ones. -/
theorem gateCfg_depth {concurrency ceiling : ℤ} {cfg : AsrInferGate.Cfg}
    (h : gateCfg concurrency (some (max 0 (ceiling - concurrency))) = some cfg) :
    ∀ m ∈ cfg.maxWaiting, (ceiling - cfg.concurrency).toNat ≤ m := by
  rw [gateCfg] at h
  split at h
  · cases h
  split at h
  · cases h
  rename_i hpos _
  obtain rfl := Option.some.inj h
  intro m hm
  obtain rfl := Option.some.inj hm
  simp only
  omega

/-- **The sizing and the gate fit together.**  With the gate built from what the
resolver answers, the queue depth left to it, no admitted session is ever refused;
and at any gate the waiters are granted in the order they were enqueued, and nobody
enters ahead of a live one. -/
theorem admission_fits_gate :
    (∀ (py : Builtins) (backends : Backends) (environ : Env) (profile : Dict)
        (policy : Option Dict) (env : Option Env) (ttsBackendName : String) (r : Resolved)
        (ceiling : ℤ) (cfg : AsrInferGate.Cfg),
      (env.getD environ) "OVS_ASR_INFER_QUEUE_DEPTH" = none →
      resolve py backends environ profile policy env ttsBackendName = .ok r →
      r.sessionCeiling = some ceiling →
      gateCfg r.asrInferConcurrency r.asrQueueDepth = some cfg →
      ∀ (ι : Type) [Fintype ι] [DecidableEq ι] (as : List (SessionAct ι)) (s : Sessions ι),
        (sessionsMachine ceiling cfg).run as = some s → s.gate.totalRejected = 0) ∧
    ∀ (cfg : AsrInferGate.Cfg) (ι : Type) [Fintype ι] [DecidableEq ι] (as : List (Act ι))
        (q : AsrInferGate.Queued ι), (AsrInferGate.queuedMachine cfg).run as = some q →
      q.granted.Pairwise (· < ·) ∧
        (∀ n ∈ q.granted, ∀ j, (q.gate.task j).live → n < q.no j) ∧
        ∀ i q', q.step cfg (.enter i) = some q' → q'.gate.task i = .inside →
          ∀ j, (q.gate.task j).live = false := by
  refine ⟨?_, fun cfg ι _ _ as q hrun => AsrInferGate.grants_in_order hrun⟩
  intro py backends environ profile policy env ttsBackendName r ceiling cfg hunset hresolve hceiling
    hcfg ι _ _ as s hrun
  rw [resolve_asrQueueDepth py backends hunset hresolve, hceiling] at hcfg
  have hdepth := gateCfg_depth hcfg
  have hfits : Fits ceiling cfg s := (sessionsMachine ceiling cfg).invariant_of_step
    (fits_init ceiling cfg) (fun _ _ _ hs h => hs.step hdepth h) hrun
  exact hfits.accepted

/-- A registry whose ASR backend serves three sessions one at a time. -/
def sharedRuntime : Backends where
  registered _ _ := true
  importable _ _ := true
  forSpec _ _ _ := some { supportsParallel := false, maxConcurrent := some 3 }
  ofClass _ _ _ := none

/-- Three sessions end an utterance at once, the second hangs up while it waits, and a
fourth comes in its place. -/
def burst : List (SessionAct (Fin 4)) :=
  [.accept 0, .accept 1, .accept 2, .gate (.enter 0), .gate (.enter 1), .gate (.enter 2),
    .gate (.cancel 1), .gate (.resume 1), .release 1, .accept 3, .gate (.enter 3)]

theorem admission_fits_gate_burst :
    ∃ s, (sessionsMachine 3 ⟨1, some 2, le_rfl⟩).run burst = some s ∧ s.gate.totalRejected = 0 :=
  ⟨_, rfl, admission_fits_gate.1 .plain sharedRuntime (fun _ => none)
    [("asr_backend", .str "sensevoice")] none none "" _ 3 ⟨1, some 2, le_rfl⟩ rfl rfl rfl rfl
    (Fin 4) burst _ rfl⟩

end Capability
end OpenVoiceStream
