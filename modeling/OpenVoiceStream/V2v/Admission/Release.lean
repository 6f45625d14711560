import OpenVoiceStream.V2v.Admission.Effect

/-!
# What an ended session leaves behind

A handler that ends through `_v2v_release_early` leaves nothing behind.  There are two ways around
it: the adapter and `session_created` come before the guard, and the cleanup at the end, which
gives back the slot, the gauge and the handles of the managers, does not know the holders.

## Main definitions

* `State.Balanced`, `Inv` — the slots are counted, and every handler owes what its stage says.
* `State.GivesBack` — nobody who has ended leaves anything behind.

## Main results

* `inv_step`, `leaks_step` — what a step keeps, and what it adds to the leaks.
* `gives_back_iff` — nothing is left behind exactly when no step goes around
  `_v2v_release_early`.
* `normalRun_leaks` — two runs that leave something behind.
-/

namespace OpenVoiceStream
namespace V2v
namespace Admission

variable {ι : Type} [DecidableEq ι] {cfg : Cfg} {s s' : State ι} {i j : ι} {pc : Pc ι}

/-! ### The stages are kept -/

theorem Flags.same_all {s₀ : State ι} (hflags : Flags s s₀) (j : ι) : Same s s₀ j := by
  cases hflags with
  | same => exact .of_conn rfl Iff.rfl Iff.rfl Iff.rfl
  | lock b => exact .of_conn rfl Iff.rfl Iff.rfl Iff.rfl
  | evict h => exact same_evict h

/-- The other handlers are left alone. -/
theorem effect_same {pc' : Pc ι} (heffect : Effect s i pc pc' s') (hne : j ≠ i) :
    Same s s' j := by
  cases heffect with
  | moves _ hflags _ => exact (hflags.same_all j).trans (same_modify hne _)
  | enters a hflags _ => exact (hflags.same_all j).trans (same_enter hne a)
  | blocks _ _ _ => exact (same_releaseBlock hne).trans (same_modify hne _)
  | givesBack _ hblock _ _ =>
    rcases hblock with rfl | rfl
    · exact (same_releaseEarly hne).trans (same_modify hne _)
    · exact ((same_releaseBlock hne).trans (same_releaseEarly hne)).trans (same_modify hne _)

theorem effect_pc {pc' : Pc ι} (heffect : Effect s i pc pc' s') : (s'.conn i).pc = pc' := by
  cases heffect with
  | moves _ _ _ => exact congrArg Conn.pc (conn_modify_self _)
  | enters a _ _ => exact congrArg Conn.pc (conn_enter a)
  | blocks _ _ _ => exact congrArg Conn.pc (conn_modify_self _)
  | givesBack _ _ _ _ => exact congrArg Conn.pc (conn_modify_self _)

/-- A handler that moves has what it had. -/
theorem holds_move {stage : Stage} (hholds : stage.Holds s i) : stage.Holds (s.move i pc) i := by
  have hconn : (s.move i pc).conn i = { s.conn i with pc := pc } := conn_modify_self _
  have hback : s.GivenBack i → (s.move i pc).GivenBack i := by
    intro h
    constructor
    case token => rw [hconn]; exact h.token
    case gauge => rw [hconn]; exact h.gauge
    case asrHandle => exact h.asrHandle
    case ttsHandle => exact h.ttsHandle
    case holder => exact h.holder
  have howes : s.Owes i → (s.move i pc).Owes i := by
    intro h
    constructor
    case released => rw [hconn]; exact h.released
    case gauge => rw [hconn]; exact h.gauge
    case asrHandle => rw [hconn]; exact h.asrHandle
    case ttsHandle => rw [hconn]; exact h.ttsHandle
    case holder => exact h.holder
  cases stage with
  | outside =>
    refine ⟨hback hholds.1, ?_⟩
    rw [hconn]
    exact hholds.2
  | inside =>
    refine ⟨howes hholds.1, ?_⟩
    rw [hconn]
    exact hholds.2
  | leaving =>
    refine ⟨howes hholds.1, ?_⟩
    rw [hconn]
    exact hholds.2
  | gone => exact hback hholds

omit [DecidableEq ι] in
theorem owes_of_holds {stage : Stage} (hstage : stage = .inside ∨ stage = .leaving)
    (hholds : stage.Holds s i) : s.Owes i := by
  rcases hstage with rfl | rfl
  · exact hholds.1
  · exact hholds.1

/-- The handler that moves owes what its new stage says. -/
theorem effect_holds {pc' : Pc ι} (heffect : Effect s i pc pc' s') (hholds : pc.stage.Holds s i) :
    pc'.stage.Holds s' i := by
  cases heffect with
  | moves _ hflags hstage =>
    rw [hstage]
    exact holds_move ((hflags.same_all i).holds hholds)
  | enters a hflags hstage =>
    rw [hstage] at hholds
    rw [firstAwait_stage]
    exact holds_enter a ((hflags.same_all i).holds hholds)
  | blocks _ hstage hleaving =>
    rw [hleaving]
    exact holds_move (holds_releaseBlock (owes_of_holds hstage hholds))
  | @givesBack s₀ _ hblock hstage hgone =>
    have howes : s₀.Owes i := by
      rcases hblock with rfl | rfl
      · exact owes_of_holds hstage hholds
      · exact (holds_releaseBlock (owes_of_holds hstage hholds)).1
    have hback : Stage.gone.Holds (s₀.releaseEarly i) i := givenBack_releaseEarly howes
    rw [hgone]
    exact holds_move hback

/-! ### The slots are counted -/

section Counting

variable [Fintype ι]

/-- A handler that holds a token. -/
def Conn.slot (c : Conn ι) : ℕ := if c.token = .held then 1 else 0

/-- The limiter has counted every token. -/
def State.Balanced (s : State ι) : Prop := s.active = s.foreign + Agents.total Conn.slot s.conn

theorem balanced_modify {f : Conn ι → Conn ι} (hf : ∀ c, (f c).token = c.token)
    (hbalanced : s.Balanced) : (s.modify i f).Balanced := by
  unfold State.Balanced State.modify
  have hslot : (f (s.conn i)).slot = (s.conn i).slot := by
    unfold Conn.slot
    rw [hf]
  rw [Agents.total_update_eq hslot]
  exact hbalanced

theorem Flags.balanced {s₀ : State ι} (hflags : Flags s s₀) (hbalanced : s.Balanced) :
    s₀.Balanced := by
  cases hflags with
  | same => exact hbalanced
  | lock b => exact hbalanced
  | evict h => exact balanced_modify (fun _ => rfl) hbalanced

/-- A token is counted out when it is released, and once only. -/
theorem balanced_releaseToken (hbalanced : s.Balanced) : (s.releaseToken i).Balanced := by
  have hupdate := Agents.total_update_add Conn.slot s.conn i
    { s.conn i with token := (s.conn i).token.release }
  have hreleased : Conn.slot { s.conn i with token := (s.conn i).token.release } = 0 :=
    if_neg (Token.release_ne_held _)
  unfold State.Balanced at hbalanced ⊢
  unfold State.releaseToken State.modify
  dsimp only
  rw [hreleased, Conn.slot] at hupdate
  dsimp only at hupdate
  split
  · next hheld =>
    rw [if_pos hheld] at hupdate
    omega
  · next hfree =>
    rw [if_neg hfree] at hupdate
    omega

theorem balanced_releaseBlock (hbalanced : s.Balanced) : (s.releaseBlock i).Balanced := by
  unfold State.releaseBlock State.decGauge
  have hunregister : (s.unregister i).Balanced := hbalanced
  exact balanced_modify (fun _ => rfl) (balanced_modify (fun _ => rfl)
    (balanced_releaseToken hunregister))

theorem balanced_releaseEarly (hbalanced : s.Balanced) : (s.releaseEarly i).Balanced := by
  unfold State.releaseEarly
  split
  · exact hbalanced
  · have hmarked : (s.modify i fun c => { c with released := true }).Balanced :=
      balanced_modify (fun _ => rfl) hbalanced
    exact balanced_modify (fun _ => rfl) (balanced_releaseToken hmarked)

theorem balanced_enter (a : Arrival) (htoken : (s.conn i).token = .none)
    (hbalanced : s.Balanced) : (s.enter i a).Balanced := by
  have hfree : (s.conn i).slot = 0 := by
    unfold Conn.slot
    rw [htoken]
    rfl
  unfold State.Balanced at hbalanced ⊢
  unfold State.enter State.modify
  dsimp only
  rw [Agents.total_update_succ (by rw [hfree]; rfl), hbalanced, Nat.add_assoc]

theorem balanced_effect {pc' : Pc ι} (heffect : Effect s i pc pc' s')
    (hholds : pc.stage.Holds s i) (hbalanced : s.Balanced) : s'.Balanced := by
  cases heffect with
  | moves _ hflags _ => exact balanced_modify (fun _ => rfl) (hflags.balanced hbalanced)
  | enters a hflags hstage =>
    rw [hstage] at hholds
    have htoken := ((hflags.same_all i).holds hholds).2.1
    exact balanced_enter a htoken (hflags.balanced hbalanced)
  | blocks _ _ _ => exact balanced_modify (fun _ => rfl) (balanced_releaseBlock hbalanced)
  | @givesBack s₀ _ hblock _ _ =>
    have hblocked : s₀.Balanced := by
      rcases hblock with rfl | rfl
      · exact hbalanced
      · exact balanced_releaseBlock hbalanced
    exact balanced_modify (fun _ => rfl) (balanced_releaseEarly hblocked)

omit [DecidableEq ι] in
/-- Another endpoint takes its token, and gives it back. -/
theorem balanced_foreign (hforeign : Foreign s s') (hbalanced : s.Balanced) : s'.Balanced := by
  unfold State.Balanced at hbalanced ⊢
  cases hforeign with
  | acquire =>
    dsimp only
    omega
  | release hsome =>
    dsimp only
    omega

/-! ### Every run -/

/-- Every handler owes what its stage says, and the slots are counted. -/
structure Inv (s : State ι) : Prop where
  phase : ∀ i, s.Phase i
  balanced : s.Balanced

omit [DecidableEq ι] in
theorem inv_start : Inv (State.start : State ι) where
  phase i := by
    refine ⟨?_, rfl, rfl⟩
    constructor
    case token => exact fun h => by cases h
    case gauge => rfl
    case asrHandle => exact Finset.notMem_empty i
    case ttsHandle => exact Finset.notMem_empty i
    case holder => exact Finset.notMem_empty i
  balanced := by
    have hnobody : Agents.total Conn.slot (State.start : State ι).conn = 0 :=
      Agents.total_eq_zero fun _ => rfl
    unfold State.Balanced
    rw [hnobody]
    rfl

theorem inv_effect {pc' : Pc ι} (hinv : Inv s) (hpc : (s.conn i).pc = pc)
    (heffect : Effect s i pc pc' s') : Inv s' := by
  have hholds : pc.stage.Holds s i := hpc ▸ hinv.phase i
  constructor
  case phase =>
    intro j
    by_cases heq : j = i
    · subst heq
      unfold State.Phase
      rw [effect_pc heffect]
      exact effect_holds heffect hholds
    · exact (effect_same heffect heq).phase (hinv.phase j)
  case balanced => exact balanced_effect heffect hholds hinv.balanced

theorem inv_step {a : Act ι} (hinv : Inv s) (hstep : step cfg s a = some s') : Inv s' := by
  rcases step_effect hstep with ⟨i, pc, pc', hpc, _, heffect, _⟩ | ⟨hforeign, _⟩
  · exact inv_effect hinv hpc heffect
  · refine ⟨fun j => ?_, balanced_foreign hforeign hinv.balanced⟩
    have hsame : Same s s' j := by
      cases hforeign with
      | acquire => exact .of_conn rfl Iff.rfl Iff.rfl Iff.rfl
      | release _ => exact .of_conn rfl Iff.rfl Iff.rfl Iff.rfl
    exact hsame.phase (hinv.phase j)

/-! ### The leaks are counted -/

/-- How many handlers have ended without giving everything back. -/
def State.leaks (s : State ι) : ℕ :=
  Agents.total (fun pc : Pc ι => if pc.leaks then 1 else 0) fun j => (s.conn j).pc

/-- A leak comes with a step around `_v2v_release_early`, and stays. -/
theorem leaks_step {a : Act ι} (hstep : step cfg s a = some s') :
    s'.leaks = s.leaks + if Covers cfg s a then 0 else 1 := by
  rcases step_effect hstep with ⟨i, pc, pc', hpc, hpresent, heffect, hcovers⟩ | ⟨hforeign, hcovers⟩
  · have hpcs : (fun j => (s'.conn j).pc) = Function.update (fun j => (s.conn j).pc) i pc' := by
      funext j
      by_cases heq : j = i
      · subst heq
        rw [Function.update_self]
        exact effect_pc heffect
      · rw [Function.update_of_ne heq]
        exact (effect_same heffect heq).pc
    unfold State.leaks
    rw [hpcs]
    have hbefore : (if (s.conn i).pc.leaks then 1 else 0) = 0 := by
      rw [hpc, hpresent]
      rfl
    by_cases hcover : Covers cfg s a
    · rw [if_pos hcover]
      exact Agents.total_update_eq (by rw [hbefore, hcovers.mpr hcover]; rfl)
    · have hleak : pc'.leaks = true := by
        by_contra h
        exact hcover (hcovers.mp (Bool.eq_false_iff.mpr h))
      rw [if_neg hcover]
      exact Agents.total_update_succ (by rw [hbefore, hleak]; rfl)
  · rw [if_pos hcovers]
    cases hforeign with
    | acquire => rfl
    | release _ => rfl

omit [DecidableEq ι] in
theorem leaks_eq_zero_iff : s.leaks = 0 ↔ ∀ i, (s.conn i).pc.leaks = false := by
  constructor
  · intro hzero i
    have hweight := Agents.eq_zero_of_total hzero i
    by_contra h
    rw [Bool.not_eq_false] at h
    rw [if_pos h] at hweight
    cases hweight
  · intro hnone
    refine Agents.total_eq_zero fun i => ?_
    rw [hnone i]
    rfl

/-! ### Nothing is left behind -/

/-- A running handler that has its slot. -/
def Pc.seated : Pc ι → Bool
  | .greeting | .setup | .relaying | .serving | .joining _ => true
  | _ => false

/-- An admitted handler that has not ended. -/
def Pc.running : Pc ι → Bool
  | .closing _ => true
  | pc => pc.seated

/-- Who has ended leaves nothing behind: the limiter counts the running handlers, up to where the
cleanup releases the slot, and only a running handler can be evicted. -/
structure State.GivesBack (s : State ι) : Prop where
  given : ∀ i how, (s.conn i).pc = .ended how → s.GivenBack i
  active : s.active = s.foreign + (Finset.univ.filter fun i => (s.conn i).pc.seated = true).card
  holders : ∀ i ∈ s.holders, (s.conn i).pc.running = true

omit [DecidableEq ι] [Fintype ι] in
theorem token_held_iff (hphase : s.Phase i) :
    (s.conn i).token = .held ↔ (s.conn i).pc.stage = .inside := by
  unfold State.Phase at hphase
  cases hstage : (s.conn i).pc.stage with
  | outside =>
    rw [hstage] at hphase
    exact iff_of_false hphase.1.token fun h => by cases h
  | inside =>
    rw [hstage] at hphase
    exact iff_of_true hphase.2 rfl
  | leaving =>
    rw [hstage] at hphase
    exact iff_of_false hphase.2.1 fun h => by cases h
  | gone =>
    rw [hstage] at hphase
    exact iff_of_false hphase.token fun h => by cases h

omit [DecidableEq ι] [Fintype ι] in
theorem holder_iff (hphase : s.Phase i) :
    i ∈ s.holders ↔ (s.conn i).pc.stage = .inside ∨ (s.conn i).pc.stage = .leaving := by
  unfold State.Phase at hphase
  cases hstage : (s.conn i).pc.stage with
  | outside =>
    rw [hstage] at hphase
    exact iff_of_false hphase.1.holder fun h => by rcases h with h | h <;> cases h
  | inside =>
    rw [hstage] at hphase
    exact iff_of_true hphase.1.holder (.inl rfl)
  | leaving =>
    rw [hstage] at hphase
    exact iff_of_true hphase.1.holder (.inr rfl)
  | gone =>
    rw [hstage] at hphase
    exact iff_of_false hphase.holder fun h => by rcases h with h | h <;> cases h

omit [DecidableEq ι] [Fintype ι] in
theorem seated_iff (hleaks : pc.leaks = false) : pc.seated = true ↔ pc.stage = .inside := by
  cases pc with
  | ended how =>
    cases how with
    | unguarded => cases hleaks
    | _ => exact iff_of_false (fun h => by cases h) fun h => by cases h
  | greeting | setup | relaying | serving | joining => exact iff_of_true rfl rfl
  | _ => exact iff_of_false (fun h => by cases h) fun h => by cases h

omit [DecidableEq ι] [Fintype ι] in
theorem running_of_stage (hleaks : pc.leaks = false)
    (hstage : pc.stage = .inside ∨ pc.stage = .leaving) : pc.running = true := by
  cases pc with
  | ended how =>
    cases how with
    | unguarded => cases hleaks
    | returned => cases hleaks
    | _ => rcases hstage with h | h <;> cases h
  | greeting | setup | relaying | serving | joining | closing => rfl
  | _ => rcases hstage with h | h <;> cases h

omit [DecidableEq ι] [Fintype ι] in
/-- A handler that has ended keeps something exactly when it leaks. -/
theorem givenBack_iff (hphase : s.Phase i) {how : Exit} (hended : (s.conn i).pc = .ended how) :
    s.GivenBack i ↔ (s.conn i).pc.leaks = false := by
  have hholder := holder_iff hphase
  unfold State.Phase at hphase
  rw [hended] at hphase hholder ⊢
  cases how with
  | rejected => exact iff_of_true hphase.1 rfl
  | early => exact iff_of_true hphase rfl
  | raised => exact iff_of_true hphase rfl
  | unguarded =>
    exact iff_of_false (fun h => h.holder (hholder.mpr (.inl rfl))) fun h => by cases h
  | returned =>
    exact iff_of_false (fun h => h.holder (hholder.mpr (.inr rfl))) fun h => by cases h

omit [DecidableEq ι] in
/-- In a state that is in order, nothing is left behind exactly when no handler leaks. -/
theorem givesBack_iff_leaks (hinv : Inv s) : s.GivesBack ↔ s.leaks = 0 := by
  rw [leaks_eq_zero_iff]
  constructor
  · intro hback i
    by_contra hleak
    rw [Bool.not_eq_false] at hleak
    -- a leak is an end
    have hended : ∃ how, (s.conn i).pc = .ended how := by
      cases hpc : (s.conn i).pc with
      | ended how => exact ⟨how, rfl⟩
      | _ => rw [hpc] at hleak; cases hleak
    obtain ⟨how, hpc⟩ := hended
    have hnone := (givenBack_iff (hinv.phase i) hpc).mp (hback.given i how hpc)
    rw [hnone] at hleak
    cases hleak
  · intro hnone
    constructor
    case given => exact fun i how hpc => (givenBack_iff (hinv.phase i) hpc).mpr (hnone i)
    case holders =>
      intro i hi
      exact running_of_stage (hnone i) ((holder_iff (hinv.phase i)).mp hi)
    case active =>
      have hslot : ∀ i, (s.conn i).slot = if (s.conn i).pc.seated = true then 1 else 0 := by
        intro i
        unfold Conn.slot
        exact if_congr ((token_held_iff (hinv.phase i)).trans (seated_iff (hnone i)).symm) rfl rfl
      rw [Finset.card_filter]
      exact hinv.balanced.trans (congrArg _ (Finset.sum_congr rfl fun i _ => hslot i))

/-- **Who gives everything back.**  In every run, the handlers that have ended leave nothing
behind exactly when no step goes around `_v2v_release_early`. -/
theorem gives_back_iff {as : List (Act ι)} (hrun : (machine ι cfg).run as = some s) :
    (machine ι cfg).Guarded (Covers cfg) (machine ι cfg).init as ↔ s.GivesBack := by
  have hinv : Inv s :=
    (machine ι cfg).invariant_of_step inv_start (fun _ _ _ h hstep => inv_step h hstep) hrun
  have hmeasure := (machine ι cfg).guarded_iff_of_measure (P := fun _ => True) (Covers cfg)
    State.leaks (fun _ _ _ _ _ => trivial) (fun _ _ _ _ hstep => leaks_step hstep) trivial hrun
  have hstart : (machine ι cfg).init.leaks = 0 := leaks_eq_zero_iff.mpr fun _ => rfl
  rw [hmeasure.2, hstart, givesBack_iff_leaks hinv]

end Counting

/-! ### Runs that leak, and one that does not -/

/-- A client that is served to its normal end. -/
def normalRun : List (Act (Fin 1)) :=
  [.connect 0 ⟨true, true, true, none⟩, .serve 0, .serveEnds 0 false, .joined 0, .closed 0]

/-- A client of the second version that has gone when `session_created` is sent. -/
def greetingRun : List (Act (Fin 1)) := [.connect 0 ⟨true, true, true, some true⟩, .fails 0]

/-- A normal end leaves the handle among the holders, and a failure before the guard leaves
everything behind. -/
theorem normalRun_leaks :
    (∃ t, (machine (Fin 1) ⟨1, true⟩).run normalRun = some t ∧
      (t.conn 0).pc = .ended .returned ∧ 0 ∈ t.holders ∧ ¬ t.GivesBack) ∧
    ∃ t, (machine (Fin 1) ⟨1, true⟩).run greetingRun = some t ∧
      (t.conn 0).pc = .ended .unguarded ∧ (t.conn 0).token = .held ∧ t.active = 1 ∧
      (t.conn 0).decs < (t.conn 0).incs ∧ 0 ∈ t.asrHandles ∧ 0 ∈ t.ttsHandles ∧
      0 ∈ t.holders ∧ ¬ t.GivesBack := by
  constructor
  · refine ⟨_, rfl, rfl, by decide, fun h => ?_⟩
    exact (h.given 0 .returned rfl).holder (by decide)
  · refine ⟨_, rfl, rfl, rfl, rfl, by decide, by decide, by decide, by decide, fun h => ?_⟩
    exact (h.given 0 .unguarded rfl).token rfl

/-- A newcomer evicts the client that holds the slot, whose cleanup is cancelled. -/
def evictionRun : List (Act (Fin 2)) :=
  [.connect 0 ⟨true, true, true, some true⟩, .greeted 0, .serve 0,
    .connect 1 ⟨true, true, true, none⟩, .evictLocked 1 ⟨true, true, true, none⟩ [0],
    .evictNext 1, .serveEnds 0 true, .joined 0, .evictPoll 1 ⟨true, true, true, none⟩,
    .closed 0, .refuse 1]

theorem gives_back_evictionRun :
    ∃ t, (machine (Fin 2) ⟨1, true⟩).run evictionRun = some t ∧
      (t.conn 0).pc = .ended .raised ∧ (t.conn 1).pc = .ended .early ∧ t.GivesBack := by
  have hrun : (machine (Fin 2) ⟨1, true⟩).run evictionRun = some _ := rfl
  exact ⟨_, hrun, rfl, rfl, (gives_back_iff hrun).mp (by decide)⟩

end Admission
end V2v
end OpenVoiceStream
