import OpenVoiceStream.V2v.Admission.Model

/-!
# What a step of a handler does

What a handler has to give back depends on where it stands: nothing before it gets its token,
everything up to its cleanup, and after the cleanup its place among the holders only.

## Main definitions

* `Stage`, `Pc.stage`, `State.Phase` — what a handler owes where it stands.
* `State.GivenBack` — one connection leaves nothing behind.
* `Effect`, `Foreign` — what a step does.
* `Covers` — a step does not go around `_v2v_release_early`.

## Main results

* `givenBack_releaseEarly`, `holds_releaseBlock` — what the two ways of giving back do.
* `step_effect` — a step is one of few effects, and leaks exactly when it is not covered.
-/

namespace OpenVoiceStream
namespace V2v
namespace Admission

variable {ι : Type} {cfg : Cfg} {s s' : State ι} {i j : ι} {pc : Pc ι}

/-! ### The stages -/

/-- What a handler owes. -/
inductive Stage
  /-- Nothing yet. -/
  | outside
  /-- Everything. -/
  | inside
  /-- The place among the holders only. -/
  | leaving
  /-- Nothing any more. -/
  | gone
  deriving DecidableEq

def Pc.stage : Pc ι → Stage
  | .idle | .evictWaiting | .evicting _ | .polling _ | .ended .rejected => .outside
  | .greeting | .setup | .relaying | .serving | .joining _ | .ended .unguarded => .inside
  | .closing _ | .ended .returned => .leaving
  | .ended .early | .ended .raised => .gone

/-- A connection that has nothing. -/
structure State.GivenBack (s : State ι) (i : ι) : Prop where
  token : (s.conn i).token ≠ .held
  gauge : (s.conn i).decs = (s.conn i).incs
  asrHandle : i ∉ s.asrHandles
  ttsHandle : i ∉ s.ttsHandles
  holder : i ∉ s.holders

/-- A connection with the books in order: what it has `_v2v_release_early` gives back. -/
structure State.Owes (s : State ι) (i : ι) : Prop where
  released : (s.conn i).released = false
  gauge : (s.conn i).incs = (s.conn i).decs + if (s.conn i).metricTaken then 1 else 0
  asrHandle : i ∈ s.asrHandles → (s.conn i).asrMgr = true
  ttsHandle : i ∈ s.ttsHandles → (s.conn i).ttsMgr = true
  holder : i ∈ s.holders

/-- What a handler at this stage owes. -/
def Stage.Holds (s : State ι) (i : ι) : Stage → Prop
  | .outside => s.GivenBack i ∧ (s.conn i).token = .none ∧ (s.conn i).released = false
  | .inside => s.Owes i ∧ (s.conn i).token = .held
  | .leaving =>
    s.Owes i ∧ (s.conn i).token ≠ .held ∧ (s.conn i).metricTaken = false ∧
      i ∉ s.asrHandles ∧ i ∉ s.ttsHandles
  | .gone => s.GivenBack i

/-- A handler owes what its stage says. -/
def State.Phase (s : State ι) (i : ι) : Prop := (s.conn i).pc.stage.Holds s i

/-! ### Frames -/

/-- Nothing changes for this connection, but that its task may be cancelled. -/
structure Same (s s' : State ι) (j : ι) : Prop where
  pc : (s'.conn j).pc = (s.conn j).pc
  token : (s'.conn j).token = (s.conn j).token
  metricTaken : (s'.conn j).metricTaken = (s.conn j).metricTaken
  released : (s'.conn j).released = (s.conn j).released
  asrMgr : (s'.conn j).asrMgr = (s.conn j).asrMgr
  ttsMgr : (s'.conn j).ttsMgr = (s.conn j).ttsMgr
  incs : (s'.conn j).incs = (s.conn j).incs
  decs : (s'.conn j).decs = (s.conn j).decs
  asrHandles : j ∈ s'.asrHandles ↔ j ∈ s.asrHandles
  ttsHandles : j ∈ s'.ttsHandles ↔ j ∈ s.ttsHandles
  holders : j ∈ s'.holders ↔ j ∈ s.holders

theorem Same.of_conn (hconn : s'.conn j = s.conn j) (hasr : j ∈ s'.asrHandles ↔ j ∈ s.asrHandles)
    (htts : j ∈ s'.ttsHandles ↔ j ∈ s.ttsHandles) (hholders : j ∈ s'.holders ↔ j ∈ s.holders) :
    Same s s' j := by
  constructor
  case asrHandles => exact hasr
  case ttsHandles => exact htts
  case holders => exact hholders
  all_goals rw [hconn]

theorem Same.trans {t : State ι} (h : Same s s' j) (h' : Same s' t j) : Same s t j where
  pc := h'.pc.trans h.pc
  token := h'.token.trans h.token
  metricTaken := h'.metricTaken.trans h.metricTaken
  released := h'.released.trans h.released
  asrMgr := h'.asrMgr.trans h.asrMgr
  ttsMgr := h'.ttsMgr.trans h.ttsMgr
  incs := h'.incs.trans h.incs
  decs := h'.decs.trans h.decs
  asrHandles := h'.asrHandles.trans h.asrHandles
  ttsHandles := h'.ttsHandles.trans h.ttsHandles
  holders := h'.holders.trans h.holders

theorem Same.givenBack (h : Same s s' j) (hback : s.GivenBack j) : s'.GivenBack j where
  token := by rw [h.token]; exact hback.token
  gauge := by rw [h.decs, h.incs]; exact hback.gauge
  asrHandle := by rw [h.asrHandles]; exact hback.asrHandle
  ttsHandle := by rw [h.ttsHandles]; exact hback.ttsHandle
  holder := by rw [h.holders]; exact hback.holder

theorem Same.owes (h : Same s s' j) (howes : s.Owes j) : s'.Owes j where
  released := by rw [h.released]; exact howes.released
  gauge := by rw [h.incs, h.decs, h.metricTaken]; exact howes.gauge
  asrHandle := by rw [h.asrHandles, h.asrMgr]; exact howes.asrHandle
  ttsHandle := by rw [h.ttsHandles, h.ttsMgr]; exact howes.ttsHandle
  holder := by rw [h.holders]; exact howes.holder

theorem Same.holds (h : Same s s' j) {stage : Stage} (hholds : stage.Holds s j) :
    stage.Holds s' j := by
  cases stage with
  | outside =>
    obtain ⟨hback, htoken, hreleased⟩ := hholds
    exact ⟨h.givenBack hback, h.token.trans htoken, h.released.trans hreleased⟩
  | inside => exact ⟨h.owes hholds.1, h.token.trans hholds.2⟩
  | leaving =>
    obtain ⟨howes, htoken, hmetric, hasr, htts⟩ := hholds
    refine ⟨h.owes howes, ?_, h.metricTaken.trans hmetric, ?_, ?_⟩
    · rw [h.token]
      exact htoken
    · rw [h.asrHandles]
      exact hasr
    · rw [h.ttsHandles]
      exact htts
  | gone => exact h.givenBack hholds

theorem Same.phase (h : Same s s' j) (hphase : s.Phase j) : s'.Phase j := by
  unfold State.Phase at hphase ⊢
  rw [h.pc]
  exact h.holds hphase

variable [DecidableEq ι]

@[simp] theorem conn_modify_self (f : Conn ι → Conn ι) : (s.modify i f).conn i = f (s.conn i) :=
  Function.update_self _ _ _

theorem conn_modify_of_ne (hne : j ≠ i) (f : Conn ι → Conn ι) :
    (s.modify i f).conn j = s.conn j :=
  Function.update_of_ne hne _ _

theorem same_modify (hne : j ≠ i) (f : Conn ι → Conn ι) : Same s (s.modify i f) j :=
  .of_conn (conn_modify_of_ne hne f) Iff.rfl Iff.rfl Iff.rfl

theorem same_unregister (hne : j ≠ i) : Same s (s.unregister i) j := by
  have herase : ∀ {r : Finset ι} {known : Bool}, j ∈ (if known then r.erase i else r) ↔ j ∈ r := by
    intro r known
    cases known with
    | false => exact Iff.rfl
    | true => exact (Finset.mem_erase.trans (and_iff_right hne))
  exact .of_conn rfl herase herase Iff.rfl

theorem same_releaseToken (hne : j ≠ i) : Same s (s.releaseToken i) j :=
  .of_conn (Function.update_of_ne hne _ _) Iff.rfl Iff.rfl Iff.rfl

theorem same_decGauge (hne : j ≠ i) : Same s (s.decGauge i) j := same_modify hne _

theorem same_releaseEarly (hne : j ≠ i) : Same s (s.releaseEarly i) j := by
  unfold State.releaseEarly
  split
  · exact .of_conn rfl Iff.rfl Iff.rfl Iff.rfl
  · have hfirst : Same s { s.modify i fun c => { c with released := true } with
        holders := s.holders.erase i } j :=
      .of_conn (Function.update_of_ne hne _ _) Iff.rfl Iff.rfl
        (Finset.mem_erase.trans (and_iff_right hne))
    exact ((hfirst.trans (same_unregister hne)).trans (same_releaseToken hne)).trans
      (same_decGauge hne)

theorem same_releaseBlock (hne : j ≠ i) : Same s (s.releaseBlock i) j :=
  (((same_unregister hne).trans (same_releaseToken hne)).trans (same_decGauge hne)).trans
    (same_modify hne _)

theorem same_enter (hne : j ≠ i) (a : Arrival) : Same s (s.enter i a) j := by
  have hinsert : ∀ {r : Finset ι} {known : Bool},
      j ∈ (if known then insert i r else r) ↔ j ∈ r := by
    intro r known
    cases known with
    | false => exact Iff.rfl
    | true => exact Finset.mem_insert.trans (or_iff_right hne)
  exact .of_conn (Function.update_of_ne hne _ _) hinsert hinsert
    (Finset.mem_insert.trans (or_iff_right hne))

/-- The eviction only cancels. -/
theorem same_evict (h : ι) : Same s (s.evict h) j := by
  by_cases heq : j = h
  · subst heq
    constructor
    case asrHandles => exact Iff.rfl
    case ttsHandles => exact Iff.rfl
    case holders => exact Iff.rfl
    all_goals
      unfold State.evict
      rw [conn_modify_self]
  · exact same_modify heq _

/-! ### Giving back -/

theorem Token.release_ne_held (token : Token) : token.release ≠ .held := by
  cases token <;> decide

theorem mem_unregister {r : Finset ι} {known : Bool} (hknown : i ∈ r → known = true) :
    i ∉ if known then r.erase i else r := by
  cases known with
  | false => exact fun h => Bool.false_ne_true (hknown h)
  | true => exact Finset.notMem_erase i r

theorem conn_releaseBlock :
    (s.releaseBlock i).conn i = { s.conn i with
      token := (s.conn i).token.release
      decs := if (s.conn i).metricTaken then (s.conn i).decs + 1 else (s.conn i).decs
      metricTaken := false } := by
  unfold State.releaseBlock State.decGauge State.releaseToken State.unregister
  rw [conn_modify_self, conn_modify_self, conn_modify_self]

theorem conn_releaseEarly (hreleased : (s.conn i).released = false) :
    (s.releaseEarly i).conn i = { s.conn i with
      released := true
      token := (s.conn i).token.release
      decs := if (s.conn i).metricTaken then (s.conn i).decs + 1 else (s.conn i).decs } := by
  unfold State.releaseEarly
  rw [if_neg (Bool.eq_false_iff.mp hreleased)]
  unfold State.decGauge State.releaseToken State.unregister
  dsimp only
  rw [conn_modify_self, conn_modify_self, conn_modify_self]

/-- `_v2v_release_early` gives everything back. -/
theorem givenBack_releaseEarly (howes : s.Owes i) : (s.releaseEarly i).GivenBack i := by
  have hconn := conn_releaseEarly howes.released
  have hopen : ¬ (s.conn i).released = true := Bool.eq_false_iff.mp howes.released
  refine { token := ?_, gauge := ?_, asrHandle := ?_, ttsHandle := ?_, holder := ?_ }
  · rw [hconn]
    exact Token.release_ne_held _
  · rw [hconn]
    dsimp only
    -- the gauge goes down exactly if it has gone up
    rw [howes.gauge]
    cases (s.conn i).metricTaken <;> rfl
  · unfold State.releaseEarly
    rw [if_neg hopen]
    refine mem_unregister fun hi => ?_
    rw [conn_modify_self]
    exact howes.asrHandle hi
  · unfold State.releaseEarly
    rw [if_neg hopen]
    refine mem_unregister fun hi => ?_
    rw [conn_modify_self]
    exact howes.ttsHandle hi
  · unfold State.releaseEarly
    rw [if_neg hopen]
    exact Finset.notMem_erase i _

theorem releaseEarly_released : ((s.releaseEarly i).conn i).released = true := by
  cases hreleased : (s.conn i).released with
  | false => rw [conn_releaseEarly hreleased]
  | true =>
    unfold State.releaseEarly
    rw [if_pos hreleased]
    exact hreleased

/-- A second time it does nothing. -/
theorem releaseEarly_releaseEarly : (s.releaseEarly i).releaseEarly i = s.releaseEarly i := by
  rw [State.releaseEarly, if_pos releaseEarly_released]

/-- The cleanup at the end leaves the place among the holders. -/
theorem holds_releaseBlock (howes : s.Owes i) : Stage.leaving.Holds (s.releaseBlock i) i := by
  have hconn := conn_releaseBlock (s := s) (i := i)
  have hgauge := howes.gauge
  have hasr : i ∉ (s.releaseBlock i).asrHandles := mem_unregister howes.asrHandle
  have htts : i ∉ (s.releaseBlock i).ttsHandles := mem_unregister howes.ttsHandle
  have howes' : (s.releaseBlock i).Owes i := by
    refine { released := ?_, gauge := ?_, asrHandle := ?_, ttsHandle := ?_, holder := ?_ }
    · rw [hconn]
      exact howes.released
    · rw [hconn]
      dsimp only
      rw [hgauge, if_neg Bool.false_ne_true]
      split <;> omega
    · exact fun h => absurd h hasr
    · exact fun h => absurd h htts
    · exact howes.holder
  refine ⟨howes', ?_, ?_, hasr, htts⟩
  · rw [hconn]
    exact Token.release_ne_held _
  · rw [hconn]

theorem conn_enter (a : Arrival) :
    (s.enter i a).conn i = { s.conn i with
      token := .held
      metricTaken := a.metric
      incs := if a.metric then (s.conn i).incs + 1 else (s.conn i).incs
      asrMgr := a.asrMgr
      ttsMgr := a.ttsMgr
      pc := a.firstAwait } :=
  Function.update_self _ _ _

/-- A handler that gets its token. -/
theorem holds_enter (a : Arrival) (hholds : Stage.outside.Holds s i) :
    Stage.inside.Holds (s.enter i a) i := by
  obtain ⟨hback, htoken, hreleased⟩ := hholds
  have hconn := conn_enter (s := s) (i := i) a
  have hinsert : ∀ {r : Finset ι} {known : Bool}, i ∉ r →
      i ∈ (if known then insert i r else r) → known = true := by
    intro r known hr hi
    cases known with
    | false => exact absurd hi hr
    | true => rfl
  have howes : (s.enter i a).Owes i := by
    refine { released := ?_, gauge := ?_, asrHandle := ?_, ttsHandle := ?_, holder := ?_ }
    · rw [hconn]
      exact hreleased
    · have hgauge := hback.gauge
      rw [hconn]
      dsimp only
      split <;> omega
    · rw [hconn]
      exact hinsert hback.asrHandle
    · rw [hconn]
      exact hinsert hback.ttsHandle
    · exact Finset.mem_insert_self i _
  refine ⟨howes, ?_⟩
  rw [hconn]

omit [DecidableEq ι] in
theorem firstAwait_stage (a : Arrival) : (a.firstAwait : Pc ι).stage = .inside := by
  unfold Arrival.firstAwait
  split <;> rfl

/-! ### What a step does -/

/-- Only the lock of the eviction changes, or a task is cancelled. -/
inductive Flags (s : State ι) : State ι → Prop
  | same : Flags s s
  | lock (b : Bool) : Flags s { s with evictLocked := b }
  | evict (h : ι) : Flags s (s.evict h)

/-- A handler goes from `pc` to `pc'`. -/
inductive Effect (s : State ι) (i : ι) (pc : Pc ι) : Pc ι → State ι → Prop
  | moves {s₀ : State ι} (pc' : Pc ι) (hflags : Flags s s₀) (hstage : pc'.stage = pc.stage) :
      Effect s i pc pc' (s₀.move i pc')
  | enters {s₀ : State ι} (a : Arrival) (hflags : Flags s s₀) (hstage : pc.stage = .outside) :
      Effect s i pc a.firstAwait (s₀.enter i a)
  | blocks (pc' : Pc ι) (hstage : pc.stage = .inside ∨ pc.stage = .leaving)
      (hleaving : pc'.stage = .leaving) : Effect s i pc pc' ((s.releaseBlock i).move i pc')
  | givesBack {s₀ : State ι} (pc' : Pc ι) (hblock : s₀ = s ∨ s₀ = s.releaseBlock i)
      (hstage : pc.stage = .inside ∨ pc.stage = .leaving) (hgone : pc'.stage = .gone) :
      Effect s i pc pc' ((s₀.releaseEarly i).move i pc')

/-- Another endpoint takes a token, or gives one back. -/
inductive Foreign (s : State ι) : State ι → Prop
  | acquire : Foreign s { s with active := s.active + 1, foreign := s.foreign + 1 }
  | release (hsome : s.foreign ≠ 0) :
      Foreign s { s with active := s.active - 1, foreign := s.foreign - 1 }

/-- A handler that has ended without giving everything back. -/
def Pc.leaks : Pc ι → Bool
  | .ended .unguarded | .ended .returned => true
  | _ => false

/-- A step does not go around `_v2v_release_early`: the adapter can be made, nothing fails before
the guard, and the cleanup does not come to its normal end. -/
def Covers (cfg : Cfg) (s : State ι) : Act ι → Prop
  | .connect _ a | .evictLocked _ a _ | .evictPoll _ a =>
    s.active < cfg.limit → a.adapter ≠ some false
  | .fails i => (s.conn i).pc ≠ .greeting
  | .closed i => (s.conn i).pc ≠ .closing false
  | _ => True

instance decidableCovers (cfg : Cfg) (s : State ι) : ∀ a, Decidable (Covers cfg s a)
  | .connect _ a | .evictLocked _ a _ | .evictPoll _ a =>
    inferInstanceAs (Decidable (s.active < cfg.limit → a.adapter ≠ some false))
  | .fails i => inferInstanceAs (Decidable ((s.conn i).pc ≠ .greeting))
  | .closed i => inferInstanceAs (Decidable ((s.conn i).pc ≠ .closing false))
  | .evictNext _ | .greeted _ | .refuse _ | .relay _ | .relayEnds _ _ | .serve _ | .serveEnds _ _
  | .joined _ | .foreignAcquire | .foreignRelease => isTrue trivial

omit [DecidableEq ι] in
theorem firstAwait_leaks (a : Arrival) :
    (a.firstAwait : Pc ι).leaks = false ↔ a.adapter ≠ some false := by
  unfold Arrival.firstAwait
  split
  · next h => exact iff_of_true rfl (by rw [h]; exact fun h' => by cases h')
  · next h => exact iff_of_true rfl (by rw [h]; decide)
  · next h => exact iff_of_false (fun h' => Bool.noConfusion h') (not_not_intro h)

omit [DecidableEq ι] in
/-- A handler that gets its token covers its step unless its adapter cannot be made. -/
theorem enters_covers {a : Arrival} (hfree : s.active < cfg.limit) :
    (a.firstAwait : Pc ι).leaks = false ↔ (s.active < cfg.limit → a.adapter ≠ some false) :=
  (firstAwait_leaks a).trans ⟨fun h _ => h, fun h => h hfree⟩

omit [DecidableEq ι] in
theorem covers_fails (hpc : (s.conn i).pc = pc) (hne : pc ≠ .greeting) :
    Covers cfg s (.fails i) := by
  change (s.conn i).pc ≠ .greeting
  rw [hpc]
  exact hne

omit [DecidableEq ι] in
theorem covers_closed (hpc : (s.conn i).pc = .closing true) : Covers cfg s (.closed i) := by
  change (s.conn i).pc ≠ .closing false
  rw [hpc]
  exact fun h => by cases h

/-- **What a step does.**  A handler that is not at its end goes to another place, which is a leak
exactly when the step goes around `_v2v_release_early`; or another endpoint moves. -/
theorem step_effect {a : Act ι} (hstep : step cfg s a = some s') :
    (∃ i pc pc', (s.conn i).pc = pc ∧ pc.leaks = false ∧ Effect s i pc pc' s' ∧
      (pc'.leaks = false ↔ Covers cfg s a)) ∨
    (Foreign s s' ∧ Covers cfg s a) := by
  cases a with
  | connect i a =>
    simp only [step] at hstep
    split at hstep
    · next hpc =>
      split at hstep
      · next hfree =>
        cases hstep
        exact .inl ⟨i, _, _, hpc, rfl, .enters a .same rfl, enters_covers hfree⟩
      · next hfull =>
        have hcovers : Covers cfg s (.connect i a) := fun h => absurd h hfull
        split at hstep
        · cases hstep
          exact .inl ⟨i, _, _, hpc, rfl, .moves _ .same rfl, iff_of_true rfl hcovers⟩
        · cases hstep
          exact .inl ⟨i, _, _, hpc, rfl, .moves _ .same rfl, iff_of_true rfl hcovers⟩
    · cases hstep
  | evictLocked i a order =>
    simp only [step] at hstep
    split at hstep
    · next hpc =>
      split at hstep
      · cases hstep
      · split at hstep
        · next hfree =>
          cases hstep
          exact .inl ⟨i, _, _, hpc, rfl, .enters a .same rfl, enters_covers hfree⟩
        · next hfull =>
          have hcovers : Covers cfg s (.evictLocked i a order) := fun h => absurd h hfull
          split at hstep
          · cases hstep
            exact .inl ⟨i, _, _, hpc, rfl, .moves _ .same rfl, iff_of_true rfl hcovers⟩
          · cases hstep
            exact .inl ⟨i, _, _, hpc, rfl, .moves _ (.lock true) rfl, iff_of_true rfl hcovers⟩
    · cases hstep
  | evictNext i =>
    simp only [step] at hstep
    split at hstep
    · next hpc =>
      cases hstep
      exact .inl ⟨i, _, _, hpc, rfl, .moves _ (.evict _) rfl, iff_of_true rfl trivial⟩
    · next hpc =>
      cases hstep
      exact .inl ⟨i, _, _, hpc, rfl, .moves _ (.evict _) rfl, iff_of_true rfl trivial⟩
    · cases hstep
  | evictPoll i a =>
    simp only [step] at hstep
    split at hstep
    · next hpc =>
      split at hstep
      · next hfree =>
        cases hstep
        exact .inl ⟨i, _, _, hpc, rfl, .enters a (.lock false) rfl, enters_covers hfree⟩
      · next hfull =>
        have hcovers : Covers cfg s (.evictPoll i a) := fun h => absurd h hfull
        split at hstep
        · cases hstep
          exact .inl ⟨i, _, _, hpc, rfl, .moves _ (.lock false) rfl, iff_of_true rfl hcovers⟩
        · cases hstep
          exact .inl ⟨i, _, _, hpc, rfl, .moves _ .same rfl, iff_of_true rfl hcovers⟩
    · cases hstep
  | greeted i =>
    simp only [step] at hstep
    split at hstep
    · next hpc =>
      cases hstep
      exact .inl ⟨i, _, _, hpc, rfl, .moves _ .same rfl, iff_of_true rfl trivial⟩
    · cases hstep
  | refuse i =>
    simp only [step] at hstep
    split at hstep
    · next hpc =>
      cases hstep
      exact .inl ⟨i, _, _, hpc, rfl, .givesBack _ (.inl rfl) (.inl rfl) rfl,
        iff_of_true rfl trivial⟩
    · cases hstep
  | relay i =>
    simp only [step] at hstep
    split at hstep
    · next hpc =>
      cases hstep
      exact .inl ⟨i, _, _, hpc, rfl, .moves _ .same rfl, iff_of_true rfl trivial⟩
    · cases hstep
  | relayEnds i raising =>
    simp only [step] at hstep
    split at hstep
    · next hpc =>
      split at hstep
      · -- the `finally` of the relay has given everything back, and the guard finds it done
        cases hstep
        unfold State.guard
        rw [releaseEarly_releaseEarly]
        exact .inl ⟨i, _, _, hpc, rfl, .givesBack _ (.inl rfl) (.inl rfl) rfl,
          iff_of_true rfl trivial⟩
      · cases hstep
        exact .inl ⟨i, _, _, hpc, rfl, .givesBack _ (.inl rfl) (.inl rfl) rfl,
          iff_of_true rfl trivial⟩
    · cases hstep
  | serve i =>
    simp only [step] at hstep
    split at hstep
    · next hpc =>
      cases hstep
      exact .inl ⟨i, _, _, hpc, rfl, .moves _ .same rfl, iff_of_true rfl trivial⟩
    · cases hstep
  | serveEnds i raising =>
    simp only [step] at hstep
    split at hstep
    · next hpc =>
      cases hstep
      exact .inl ⟨i, _, _, hpc, rfl, .moves _ .same rfl, iff_of_true rfl trivial⟩
    · cases hstep
  | joined i =>
    simp only [step] at hstep
    split at hstep
    · next hpc =>
      cases hstep
      exact .inl ⟨i, _, _, hpc, rfl, .blocks _ (.inl rfl) rfl, iff_of_true rfl trivial⟩
    · cases hstep
  | closed i =>
    simp only [step] at hstep
    split at hstep
    · next hpc =>
      -- an exception is to be raised, so the handler ends in the guard
      cases hstep
      exact .inl ⟨i, _, _, hpc, rfl, .givesBack _ (.inr rfl) (.inr rfl) rfl,
        iff_of_true rfl (covers_closed hpc)⟩
    · next hpc =>
      -- the normal end, where the guard is not reached
      cases hstep
      exact .inl ⟨i, _, _, hpc, rfl, .blocks _ (.inr rfl) rfl,
        iff_of_false (fun h => by cases h) (not_not_intro hpc)⟩
    · cases hstep
  | fails i =>
    simp only [step, State.fail] at hstep
    split at hstep
    · next hpc =>
      cases hstep
      exact .inl ⟨i, _, _, hpc, rfl, .moves _ .same rfl,
        iff_of_true rfl (covers_fails hpc (fun h => by cases h))⟩
    · next hpc =>
      cases hstep
      exact .inl ⟨i, _, _, hpc, rfl, .moves _ (.lock false) rfl,
        iff_of_true rfl (covers_fails hpc (fun h => by cases h))⟩
    · next hpc =>
      cases hstep
      exact .inl ⟨i, _, _, hpc, rfl, .moves _ (.lock false) rfl,
        iff_of_true rfl (covers_fails hpc (fun h => by cases h))⟩
    · next hpc =>
      -- `session_created` is sent before the guard
      cases hstep
      exact .inl ⟨i, _, _, hpc, rfl, .moves _ .same rfl,
        iff_of_false (fun h => by cases h) (not_not_intro hpc)⟩
    · next hpc =>
      cases hstep
      exact .inl ⟨i, _, _, hpc, rfl, .givesBack _ (.inl rfl) (.inl rfl) rfl,
        iff_of_true rfl (covers_fails hpc (fun h => by cases h))⟩
    · next hpc =>
      cases hstep
      exact .inl ⟨i, _, _, hpc, rfl, .givesBack _ (.inl rfl) (.inl rfl) rfl,
        iff_of_true rfl (covers_fails hpc (fun h => by cases h))⟩
    · next hpc =>
      cases hstep
      exact .inl ⟨i, _, _, hpc, rfl, .givesBack _ (.inl rfl) (.inr rfl) rfl,
        iff_of_true rfl (covers_fails hpc (fun h => by cases h))⟩
    all_goals cases hstep
  | foreignAcquire =>
    simp only [step] at hstep
    split at hstep
    · cases hstep
      exact .inr ⟨.acquire, trivial⟩
    · cases hstep
  | foreignRelease =>
    simp only [step] at hstep
    split at hstep
    · cases hstep
    · next hsome =>
      cases hstep
      exact .inr ⟨.release hsome, trivial⟩

end Admission
end V2v
end OpenVoiceStream
