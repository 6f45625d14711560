import OpenVoiceStream.Execution.Leases

/-!
# Offline decodes

`execute_asr` awaits the executor future itself, inside its two contexts.  When its
task is cancelled there the future is cancelled with it, the contexts are left, and
a thread that is inside the decode runs on: a second body may begin beside it, and a
reload may unload the backend under it.  In every run in which no decode is left in
this way all bodies are covered.

## Main definitions

* `Sheltered` — what the leases are for.

## Main results

* `sheltered_of_guarded` — it holds while no running decode is cancelled.
-/

namespace OpenVoiceStream
namespace Execution

variable {ι β ρ : Type} [Fintype ι] [DecidableEq ι] {cfg : Cfg ι β ρ} {good : ι → Prop}
  {s s' : Sys ι β ρ} {i : ι} {a : Act ι β ρ}

/-- No native call runs without its leases. -/
structure Sheltered (cfg : Cfg ι β ρ) (s : Sys ι β ρ) : Prop where
  /-- While a thread is inside the call the request is inside both contexts, -/
  held : ∀ i, (s.req i).job = .running →
    s.coord.inside i = true ∧ (cfg.managed i = true → ∃ backend, s.ctx cfg i = .held backend)
  /-- so no other body of either kind runs, or is about to, -/
  alone : cfg.mode ≠ .concurrent → ∀ i j, (s.req i).job = .running →
    (s.coord.inside j = true ∨ (s.req j).job = .running) → i = j
  /-- and no reload unloads the backend. -/
  kept : ∀ i, (s.req i).job = .running → cfg.managed i = true → ∀ a s', step cfg s a = some s' →
    ∀ backend, .unloadOld backend ∉
      (s'.manager (cfg.program i).slot).log.drop (s.manager (cfg.program i).slot).log.length

omit [Fintype ι] in
/-- A step leaves a manager alone or is one of its steps. -/
theorem step_manager (h : step cfg s a = some s') (slot : Slot) :
    s'.manager slot = s.manager slot ∨
      ∃ b, Backend.step (cfg.backend slot) (s.manager slot) b = some (s'.manager slot) := by
  have hmanage : ∀ {t : Sys ι β ρ} {k b}, t.manager = s.manager → t.manage cfg k b = some s' →
      s'.manager slot = s.manager slot ∨
        ∃ b, Backend.step (cfg.backend slot) (s.manager slot) b = some (s'.manager slot) := by
    intro t k b ht h
    obtain ⟨m, hm, rfl⟩ := manage_eq_some h
    rw [ht] at hm
    by_cases hk : slot = k
    · subst hk
      exact .inr ⟨b, by simpa using hm⟩
    · exact .inl (by simp [hk, ht])
  cases a with
  | manager k b =>
    simp only [step] at h
    split at h
    · exact hmanage rfl h
    · cases h
  | move i kind =>
    simp only [step] at h
    split at h
    · cases h
    · next m hm =>
      cases hop : m.op with
      | keep =>
        rw [hop] at h
        obtain rfl := Option.some.inj h
        exact .inl rfl
      | enter =>
        rw [hop] at h
        exact hmanage (t := { s with req := Function.update s.req i m.req }) rfl h
      | leave =>
        rw [hop] at h
        exact hmanage (t := { s with req := Function.update s.req i m.req }) rfl h
      | take =>
        rw [hop] at h
        obtain rfl := Option.some.inj h
        exact .inl rfl
      | give =>
        rw [hop] at h
        obtain rfl := Option.some.inj h
        exact .inl rfl

/-- A running call is in the middle of its request. -/
theorem View.Inv.rank_of_running {program : Program} {managed : Bool} {v : View}
    (hv : v.Inv program managed) (hjob : v.job = .running) : v.rank = 4 := by
  have hlow : ¬ v.rank ≤ 3 := by
    intro hrank
    have := hv.early hrank
    rw [hjob] at this
    cases this
  have hhigh : ¬ 5 ≤ v.rank := by
    intro hrank
    rcases hv.settled hrank with hnone | hdone | ⟨-, -, hgone⟩
    · rw [hjob] at hnone
      cases hnone
    · have := hv.returned hdone
      rw [hjob] at this
      cases this
    · rw [hjob] at hgone
      cases hgone
  omega

omit [DecidableEq ι] in
theorem Sys.Inv.held (hs : s.Inv cfg good) (hi : good i) (hjob : (s.req i).job = .running) :
    s.coord.inside i = true ∧ (cfg.managed i = true → ∃ backend, s.ctx cfg i = .held backend) := by
  have hrank := (hs.reqs i hi).rank_of_running hjob
  constructor
  · rw [hs.inside i, hrank]
    rfl
  · intro hmanaged
    exact (hs.linked i).held hmanaged (by omega) (by omega)

/-- The invariant shelters. -/
theorem Sys.Inv.sheltered (hs : s.Inv cfg fun _ => True) : Sheltered cfg s where
  held := fun i => hs.held trivial
  alone := by
    intro hmode i j hi hj
    have hini := (hs.held trivial hi).1
    have hinj : s.coord.inside j = true := by
      rcases hj with hj | hj
      · exact hj
      · exact (hs.held trivial hj).1
    exact hs.coord.eq_of_inside (by rwa [hs.mode]) hini hinj
  kept := by
    intro i hi hmanaged a s' hstep backend hunload
    obtain ⟨held, hheld⟩ := (hs.held trivial hi).2 hmanaged
    rcases step_manager hstep (cfg.program i).slot with hsame | ⟨b, hb⟩
    · rw [hsame, List.drop_length] at hunload
      cases hunload
    · have hm := hs.managers (cfg.program i).slot
      cases Backend.step_unloads hm hb with
      | quiet events hlog hnone =>
        rw [hlog, List.drop_left] at hunload
        exact hnone backend hunload
      | drained hzero hctx =>
        -- the context of the call is open
        have htotal : Agents.total Backend.Ctx.isOpen (s.manager (cfg.program i).slot).ctx = 0 := by
          have := hm.count
          omega
        have hopen := Agents.eq_zero_of_total htotal i
        have hctx : (s.manager (cfg.program i).slot).ctx i = .held held := hheld
        rw [hctx] at hopen
        cases hopen

/-- **An offline decode holds its leases** in every run in which no cancellation is delivered to
it while its thread is inside the decode. -/
theorem sheltered_of_guarded {as : List (Act ι β ρ)}
    (hguarded : (machine cfg).Guarded Ok (.start cfg) as)
    (hrun : (machine cfg).run as = some s) : Sheltered cfg s := by
  apply Sys.Inv.sheltered
  apply (machine cfg).invariant_of_guarded Ok sys_inv_start _ hguarded hrun
  intro s a s' hs hok h
  refine hs.step ?_ h
  rintro i kind rfl -
  exact hok

instance (s : Sys ι β ρ) (a : Act ι β ρ) : Decidable (Ok s a) := by
  cases a with
  | manager slot b => exact isTrue trivial
  | move i kind =>
    cases kind with
    | throw => exact inferInstanceAs (Decidable ((s.req i).pc = .decoding → (s.req i).job ≠ .running))
    | _ => exact isTrue trivial

/-- One ASR manager and two offline decodes. -/
def decodesCfg : Cfg (Fin 2) ℕ ℕ :=
  { mode := .serialized, backend := fun _ => Backend.exampleCfg, program := fun _ => .decode,
    managed := fun _ => true }

/-- A decode up to where its thread runs. -/
def decoding (i : Fin 2) : List (Act (Fin 2) ℕ ℕ) :=
  [.begin, .advance true, .advance true, .advance true, .jobStarts].map (.move i)

/-- The first decode runs, and the second one is cancelled while it waits for it. -/
def servedRun : List (Act (Fin 2) ℕ ℕ) :=
  .manager .asr (.start (Backend.goodBuild 1)) :: decoding 0 ++
    [.move 1 .begin, .move 1 (.advance true), .move 1 .cancel, .move 1 .throw]

theorem sheltered_of_guarded_servedRun :
    ∃ s, (machine decodesCfg).run servedRun = some s ∧ (s.req 0).job = .running ∧
      Sheltered decodesCfg s := by
  have hguarded : (machine decodesCfg).Guarded Ok (.start decodesCfg) servedRun := by decide
  exact ⟨_, rfl, rfl, sheltered_of_guarded hguarded rfl⟩

/-- The client of the first decode disconnects in its middle, and a second decode is made. -/
def abandonedRun : List (Act (Fin 2) ℕ ℕ) :=
  .manager .asr (.start (Backend.goodBuild 1)) :: decoding 0 ++
    [.cancel, .throw, .advance true, .advance true, .advance true].map (.move 0) ++ decoding 1

/-- **Two decodes run at once under a serialized coordinator**, the first without its leases. -/
theorem abandonedRun_not_sheltered :
    ∃ s, (machine decodesCfg).run abandonedRun = some s ∧ (s.req 0).job = .running ∧
      (s.req 1).job = .running ∧ ¬ Sheltered decodesCfg s := by
  refine ⟨_, rfl, rfl, rfl, fun h => ?_⟩
  have hone := h.alone (by decide) 0 1 rfl (.inr rfl)
  cases hone

end Execution
end OpenVoiceStream
