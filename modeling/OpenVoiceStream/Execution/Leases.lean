import OpenVoiceStream.Backend.InUse
import OpenVoiceStream.Execution.Views

/-!
# Who holds the leases

The state of a request says whether it is in the context of the coordinator and in
the one of its manager, in every state a run can reach.  So a native call of the
finite path or of a drain is covered by both contexts until the executor future is
done: the owner task and the `finally` of `drain` wait for it whatever is cancelled,
and once it is done nobody can hold the request up.

## Main definitions

* `Sys.Inv` — the invariant of the system.
* `Req.remaining` — what a request and its parties have still to do.
* `HoldsLeases` — the law of one request.

## Main results

* `Sys.Inv.step` — the step lemma.
* `native_holds_leases` — the law for the finite path and for drains, in every run.
-/

namespace OpenVoiceStream
namespace Execution

/-! ### Leases and ranks -/

/-- The request is in the context of the coordinator. -/
def slotted (rank : ℕ) : Bool := decide (3 ≤ rank) && decide (rank ≤ 5)

/-- The manager's context of a request whose rank is given. -/
structure Linked {β : Type} (managed : Bool) (rank : ℕ) (ctx : Backend.Ctx β) : Prop where
  held : managed = true → 2 ≤ rank → rank ≤ 6 → ∃ backend, ctx = .held backend
  asked : managed = true → rank = 1 → ctx = .outside ∨ ∃ backend, ctx = .held backend
  outside : managed = false ∨ rank = 0 ∨ 7 ≤ rank → ctx = .outside

/-- What a move does to the leases. -/
inductive Leased {β : Type} (managed : Bool) (ctx : Backend.Ctx β) (free : Bool) (v v' : View) :
    LeaseOp → Prop
  | keep (hslotted : slotted v'.rank = slotted v.rank) (hlinked : Linked managed v'.rank ctx) :
      Leased managed ctx free v v' .keep
  | enter (hmanaged : managed = true) (h : v.rank = 0) (h' : v'.rank = 1) :
      Leased managed ctx free v v' .enter
  | take (hfree : free = true) (h : v.rank = 2) (h' : v'.rank = 3) : Leased managed ctx free v v' .take
  | give (h : v.rank = 5) (h' : v'.rank = 6) : Leased managed ctx free v v' .give
  | leave (hmanaged : managed = true) (h : v.rank = 6) (h' : v'.rank = 7) :
      Leased managed ctx free v v' .leave

section Links

variable {β : Type} {throws : Bool} {program : Program} {managed free : Bool} {ctx : Backend.Ctx β}
  {v v' : View} {op : LeaseOp}

/-- A request without a manager is in no context of one. -/
theorem Linked.unmanaged {rank : ℕ} (hmanaged : managed = false) (hctx : ctx = .outside) :
    Linked managed rank ctx where
  held := fun h => by rw [hmanaged] at h; cases h
  asked := fun h => by rw [hmanaged] at h; cases h
  outside := fun _ => hctx

/-- Between two steps in the manager's context. -/
theorem Linked.stay {rank rank' : ℕ} (h : Linked managed rank ctx) (hrank : 2 ≤ rank)
    (hrank' : rank ≤ 6) (hrank₁ : 2 ≤ rank') (hrank₂ : rank' ≤ 6) : Linked managed rank' ctx where
  held := fun hmanaged _ _ => h.held hmanaged hrank hrank'
  asked := fun _ _ => by omega
  outside := by
    rintro (hmanaged | hzero | hseven)
    · exact h.outside (.inl hmanaged)
    · omega
    · omega

/-- Once it is over. -/
theorem Linked.over {rank : ℕ} (hrank : 7 ≤ rank) (hctx : ctx = .outside) :
    Linked managed rank ctx where
  held := fun _ _ _ => by omega
  asked := fun _ _ => by omega
  outside := fun _ => hctx

theorem Shift.leased (h : Shift throws program managed ctx free v v' op)
    (hlinked : Linked managed v.rank ctx) : Leased managed ctx free v v' op := by
  cases h with
  | stay => exact .keep rfl hlinked
  | ask h =>
    cases managed with
    | true => exact .enter rfl h rfl
    | false => exact .keep (by simp [slotted, h]) (.unmanaged rfl (hlinked.outside (.inl rfl)))
  | quit h => exact .keep (by simp [slotted, h]) (.over (by simp) (hlinked.outside (.inr (.inl h))))
  | refuse h hmanaged hctx => exact .keep (by simp [slotted, h]) (.over (by simp) hctx)
  | entered n h hn hmanaged hctx =>
    obtain ⟨backend, hheld⟩ := (hlinked.asked hmanaged h).resolve_left hctx
    refine .keep (by rcases hn with rfl | rfl <;> simp [slotted, h]) ⟨?_, ?_, ?_⟩
    · intro _ _ _
      exact ⟨backend, hheld⟩
    · intro _ h
      simp only at h
      omega
    · rintro (hno | hzero | hseven)
      · rw [hmanaged] at hno
        cases hno
      · simp only at hzero
        omega
      · simp only at hseven
        omega
  | unmanaged n h hn hmanaged =>
    exact .keep (by rcases hn with rfl | rfl <;> simp [slotted, h])
      (.unmanaged hmanaged (hlinked.outside (.inl hmanaged)))
  | skip h => exact .keep (by simp [slotted, h]) (hlinked.stay (by omega) (by omega) (by simp) (by simp))
  | take h hfree => exact .take hfree h rfl
  | own watched h _ =>
    exact .keep (by simp [slotted, h]) (hlinked.stay (by omega) (by omega) (by simp) (by simp))
  | stop h => exact .keep (by simp [slotted, h]) (hlinked.stay (by omega) (by omega) (by simp) (by simp))
  | submit place h _ _ =>
    exact .keep (by simp [slotted, h]) (hlinked.stay (by omega) (by omega) (by simp) (by simp))
  | ownSubmit => exact .keep rfl hlinked
  | ownStep => exact .keep rfl hlinked
  | owned hrank _ _ =>
    exact .keep (by simp [slotted, hrank])
      (hlinked.stay (by omega) (by omega) (by simp) (by simp))
  | finish h _ _ =>
    exact .keep (by simp [slotted, h]) (hlinked.stay (by omega) (by omega) (by simp) (by simp))
  | abandon _ hrank _ =>
    exact .keep (by simp [slotted, hrank])
      (hlinked.stay (by omega) (by omega) (by simp) (by simp))
  | give h => exact .give h rfl
  | leave h hmanaged => exact .leave hmanaged h rfl
  | skipLeave h hmanaged =>
    exact .keep (by simp [slotted, h]) (.over (by simp) (hlinked.outside (.inl hmanaged)))
  | exit h hctx => exact .keep (by simp [slotted, h]) (.over (by simp) hctx)
  | jobStarts => exact .keep rfl hlinked
  | jobEnds => exact .keep rfl hlinked
  | jobDone => exact .keep rfl hlinked

end Links

/-! ### The system -/

section System

variable {ι β ρ : Type} [Fintype ι] [DecidableEq ι] {cfg : Cfg ι β ρ} {good : ι → Prop}
  {s s' : Sys ι β ρ} {i j : ι} {a : Act ι β ρ}

/-- The invariant of the system, with the one of a request for those that are `good`. -/
structure Sys.Inv (cfg : Cfg ι β ρ) (good : ι → Prop) (s : Sys ι β ρ) : Prop where
  managers : ∀ slot, Backend.Inv (s.manager slot)
  coord : s.coord.Inv
  mode : s.coord.mode = cfg.mode
  inside : ∀ i, s.coord.inside i = slotted (s.req i).view.rank
  linked : ∀ i, Linked (cfg.managed i) (s.req i).view.rank (s.ctx cfg i)
  reqs : ∀ i, good i → (s.req i).view.Inv (cfg.program i) (cfg.managed i)

/-- No decode is left while it runs. -/
def Ok (s : Sys ι β ρ) : Act ι β ρ → Prop
  | .move i .throw => (s.req i).pc = .decoding → (s.req i).job ≠ .running
  | _ => True

omit [DecidableEq ι] in
theorem sys_inv_start : (Sys.start cfg).Inv cfg good where
  managers := fun _ => Backend.inv_start
  coord := Coordinator.inv_start _
  mode := rfl
  inside := fun _ => rfl
  linked := fun _ => {
    held := fun _ (h : 2 ≤ 0) _ => absurd h (by omega)
    asked := fun _ (h : 0 = 1) => absurd h (by omega)
    outside := fun _ => rfl }
  reqs := fun i _ => fresh_inv _ _

omit [Fintype ι] in
/-- The manager of a kind takes a step. -/
theorem manage_eq_some {slot : Slot} {b : Backend.Act ι β ρ} (h : s.manage cfg slot b = some s') :
    ∃ m, Backend.step (cfg.backend slot) (s.manager slot) b = some m ∧
      s' = { s with manager := Function.update s.manager slot m } := by
  obtain ⟨m, hm, rfl⟩ := Option.map_eq_some_iff.mp h
  exact ⟨m, hm, rfl⟩

/-- The managers after a step of one of them. -/
theorem Sys.Inv.managers_update (hs : s.Inv cfg good) {slot : Slot} {b : Backend.Act ι β ρ}
    {m : Backend.State ι β ρ} (hm : Backend.step (cfg.backend slot) (s.manager slot) b = some m)
    (k : Slot) : Backend.Inv (Function.update s.manager slot m k) := by
  by_cases hk : k = slot
  · subst hk
    rw [Function.update_self]
    exact Backend.step_inv (hs.managers k) hm
  · rw [Function.update_of_ne hk]
    exact hs.managers k

/-- A step of a manager that moves no context. -/
theorem Sys.Inv.manage (hs : s.Inv cfg good) {slot : Slot} {b : Backend.Act ι β ρ}
    (hb : foreign b = true) (h : s.manage cfg slot b = some s') : s'.Inv cfg good := by
  obtain ⟨m, hm, rfl⟩ := manage_eq_some h
  have hctx : m.ctx = (s.manager slot).ctx := by
    apply Backend.step_ctx (hs.managers slot) hm
    · rintro i rfl
      cases hb
    · rintro i rfl
      cases hb
  constructor
  · exact hs.managers_update hm
  · exact hs.coord
  · exact hs.mode
  · exact hs.inside
  · intro i
    have hsame : ({ s with manager := Function.update s.manager slot m } : Sys ι β ρ).ctx cfg i =
        s.ctx cfg i := by
      by_cases hk : (cfg.program i).slot = slot
      · simp only [Sys.ctx, hk, Function.update_self, hctx]
      · simp only [Sys.ctx, Function.update_of_ne hk]
    rw [hsame]
    exact hs.linked i
  · exact hs.reqs

/-- A step around one request leaves the others alone. -/
theorem Sys.Inv.update (hs : s.Inv cfg good) {r : Req}
    (hreq : s'.req = Function.update s.req i r)
    (hmanagers : ∀ slot, Backend.Inv (s'.manager slot)) (hcoord : s'.coord.Inv)
    (hmode : s'.coord.mode = s.coord.mode) (hinside : s'.coord.inside i = slotted r.view.rank)
    (hinside' : ∀ j, j ≠ i → s'.coord.inside j = s.coord.inside j)
    (hlinked : Linked (cfg.managed i) r.view.rank (s'.ctx cfg i))
    (hlinked' : ∀ j, j ≠ i → s'.ctx cfg j = s.ctx cfg j)
    (hgood : good i → r.view.Inv (cfg.program i) (cfg.managed i)) : s'.Inv cfg good where
  managers := hmanagers
  coord := hcoord
  mode := hmode.trans hs.mode
  inside := by
    intro j
    by_cases hj : j = i
    · subst hj
      rw [hinside, hreq, Function.update_self]
    · rw [hinside' j hj, hreq, Function.update_of_ne hj]
      exact hs.inside j
  linked := by
    intro j
    by_cases hj : j = i
    · subst hj
      rw [hreq, Function.update_self]
      exact hlinked
    · rw [hlinked' j hj, hreq, Function.update_of_ne hj]
      exact hs.linked j
  reqs := by
    intro j hj'
    by_cases hj : j = i
    · subst hj
      rw [hreq, Function.update_self]
      exact hgood hj'
    · rw [hreq, Function.update_of_ne hj]
      exact hs.reqs j hj'

omit [Fintype ι] in
/-- What the manager does to the context of the request that moves, and to the others'. -/
theorem ctx_of_update (req : ι → Req) {slot : Slot} {m : Backend.State ι β ρ} {c : Backend.Ctx β}
    (hm : m.ctx = Function.update (s.manager slot).ctx i c)
    (hslot : slot = (cfg.program i).slot) :
    ({ s with req := req, manager := Function.update s.manager slot m } : Sys ι β ρ).ctx cfg i = c ∧
      ∀ j, j ≠ i →
        ({ s with req := req, manager := Function.update s.manager slot m } : Sys ι β ρ).ctx cfg j =
          s.ctx cfg j := by
  subst hslot
  constructor
  · simp only [Sys.ctx, Function.update_self, hm]
  · intro j hj
    by_cases hk : (cfg.program j).slot = (cfg.program i).slot
    · simp only [Sys.ctx, hk, Function.update_self, hm, Function.update_of_ne hj]
    · simp only [Sys.ctx, Function.update_of_ne hk]

/-- **A move.** -/
theorem Sys.Inv.move (hs : s.Inv cfg good) {kind : Kind} {m : Move}
    (hok : good i → Ok s (.move i kind))
    (hm : agentStep cfg.mode (cfg.program i) (cfg.managed i) (s.ctx cfg i) s.coord.free (s.req i)
      kind = some m)
    (h : ({ s with req := Function.update s.req i m.req } : Sys ι β ρ).lease cfg i m.op = some s') :
    s'.Inv cfg good := by
  have hshift := agentStep_shift hm
  have hgood : good i → m.req.view.Inv (cfg.program i) (cfg.managed i) := by
    intro hi
    apply (hs.reqs i hi).shift hshift
    intro hthrow hplace
    obtain rfl := of_decide_eq_true hthrow
    apply hok hi
    cases hpc : (s.req i).pc with
    | decoding => rfl
    | _ =>
      rw [Req.view, hpc] at hplace
      cases hplace
  have hleased := hshift.leased (hs.linked i)
  have hinside := hs.inside i
  cases hop : m.op with
  | keep =>
    rw [hop] at h hleased
    obtain rfl := Option.some.inj h
    cases hleased with
    | keep hslotted hlinked =>
      exact hs.update rfl hs.managers hs.coord rfl (hinside.trans hslotted.symm) (fun _ _ => rfl)
        hlinked (fun _ _ => rfl) hgood
  | enter =>
    rw [hop] at h hleased
    obtain ⟨b, hb, rfl⟩ := manage_eq_some h
    cases hleased with
    | enter hmanaged hrank hrank' =>
      cases (hs.managers _).effect hb with
      | enters _ hout =>
        obtain ⟨c, hctx, hc⟩ := Backend.enter_ctx (s.manager (cfg.program i).slot) i
        obtain ⟨hself, hothers⟩ := ctx_of_update (Function.update s.req i m.req) hctx rfl
        refine hs.update rfl (hs.managers_update hb) hs.coord rfl ?_ (fun _ _ => rfl) ?_ hothers hgood
        · rw [hrank']
          exact hinside.trans (by simp [slotted, hrank])
        · rw [hself, hrank']
          exact ⟨fun _ _ _ => by omega, fun _ _ => hc, by simp [hmanaged]⟩
  | leave =>
    rw [hop] at h hleased
    obtain ⟨b, hb, rfl⟩ := manage_eq_some h
    cases hleased with
    | leave hmanaged hrank hrank' =>
      cases (hs.managers _).effect hb with
      | leaves _ backend hheld =>
        have hctx := Backend.leave_ctx (s.manager (cfg.program i).slot) i
        obtain ⟨hself, hothers⟩ := ctx_of_update (Function.update s.req i m.req) hctx rfl
        refine hs.update rfl (hs.managers_update hb) hs.coord rfl ?_ (fun _ _ => rfl) ?_ hothers hgood
        · rw [hrank']
          exact hinside.trans (by simp [slotted, hrank])
        · rw [hself, hrank']
          exact .over (by omega) rfl
  | take =>
    rw [hop] at h hleased
    obtain rfl := Option.some.inj h
    cases hleased with
    | take hfree hrank hrank' =>
      refine hs.update rfl hs.managers (hs.coord.enter hfree) Coordinator.enter_mode ?_ ?_ ?_
        (fun _ _ => rfl) hgood
      · rw [hrank', Coordinator.enter_inside, Function.update_self]
        rfl
      · intro j hj
        rw [Coordinator.enter_inside, Function.update_of_ne hj]
      · rw [hrank']
        exact (hs.linked i).stay (by omega) (by omega) (by omega) (by omega)
  | give =>
    rw [hop] at h hleased
    obtain rfl := Option.some.inj h
    cases hleased with
    | give hrank hrank' =>
      have hin : s.coord.inside i = true := hinside.trans (by simp [slotted, hrank])
      refine hs.update rfl hs.managers (hs.coord.leave hin) Coordinator.leave_mode ?_ ?_ ?_
        (fun _ _ => rfl) hgood
      · rw [hrank', Coordinator.leave_inside, Function.update_self]
        rfl
      · intro j hj
        rw [Coordinator.leave_inside, Function.update_of_ne hj]
      · rw [hrank']
        exact (hs.linked i).stay (by omega) (by omega) (by omega) (by omega)

/-- **The step lemma.** -/
theorem Sys.Inv.step (hs : s.Inv cfg good)
    (hok : ∀ i kind, a = .move i kind → good i → Ok s (.move i kind))
    (h : step cfg s a = some s') : s'.Inv cfg good := by
  cases a with
  | move i kind =>
    simp only [Execution.step] at h
    split at h
    · cases h
    · next m hm => exact hs.move (hok i kind rfl) hm h
  | manager slot b =>
    simp only [Execution.step] at h
    split at h
    · next hb => exact hs.manage hb h
    · cases h

end System

/-! ### What is still to do -/

/-- What the request's task has still to do. -/
def Pc.remaining : Pc → ℕ
  | .ended => 0
  | .exiting => 1
  | .leavingManager => 2
  | .leavingSlot => 3
  | .joining | .polling | .absorbing | .decoding => 4
  | .sendingDone => 5
  | .sendingLast _ => 6
  | .receiving => 7
  | .sendingChunk => 8
  | .sendingStarted => 9
  | .sendingRate => 10
  | .admitted => 11
  | .waiting => 12
  | .entering => 13
  | .idle => 14

/-- What the owner has still to do. -/
def Owner.remaining : Owner → ℕ
  | .none | .done => 0
  | .joiningFuture => 1
  | .joiningWatcher => 2
  | .future | .disconnected => 3
  | .both => 4
  | .created => 6

/-- What the watcher has still to do. -/
def Watcher.remaining : Watcher → ℕ
  | .running => 1
  | .none | .ended _ => 0

/-- What the request and its parties have still to do. -/
def Req.remaining (r : Req) : ℕ :=
  r.pc.remaining + r.owner.remaining + r.watcher.remaining + 2 * r.queue.length

section Remaining

variable {β : Type} {mode : Mode} {program : Program} {managed free ok : Bool} {ctx : Backend.Ctx β}
  {r r' : Req} {m : Move} {kind : Kind}

/-- A move of the task alone. -/
theorem remaining_le (hpc : r'.pc.remaining ≤ r.pc.remaining) (howner : r'.owner = r.owner)
    (hwatcher : r'.watcher = r.watcher) (hqueue : r'.queue.length ≤ r.queue.length) :
    r'.remaining ≤ r.remaining := by
  simp only [Req.remaining, howner, hwatcher]
  omega

theorem finish_remaining (hpc : 5 ≤ r.pc.remaining) : r.finish.remaining ≤ r.remaining := by
  refine remaining_le ?_ rfl rfl le_rfl
  dsimp only [Req.finish]
  split
  · exact le_trans (by simp [Pc.remaining]) hpc
  · exact hpc

theorem advance_remaining (h : advance mode program managed ctx free r ok = some m)
    (hrank : 4 ≤ r.pc.rank) : m.req.remaining ≤ r.remaining := by
  rcases r with ⟨pc, cancelling, stop, job, fut, owner, watcher, queue, detached, marks⟩
  cases pc with
  | entering | waiting | admitted => simp [Pc.rank] at hrank
  | leavingSlot =>
    cases h
    exact remaining_le (by simp [Pc.remaining]) rfl rfl le_rfl
  | leavingManager =>
    cases managed <;> cases h <;> exact remaining_le (by simp [Pc.remaining]) rfl rfl le_rfl
  | exiting =>
    cases ctx <;> cases h
    exact remaining_le (by simp [Pc.remaining]) rfl rfl le_rfl
  | _ => cases h

theorem resume_remaining (h : resume r ok = some r') (hrank : 4 ≤ r.pc.rank) :
    r'.remaining ≤ r.remaining := by
  rcases r with ⟨pc, cancelling, stop, job, fut, owner, watcher, queue, detached, marks⟩
  cases pc with
  | sendingRate | sendingStarted => simp [Pc.rank] at hrank
  | receiving =>
    cases queue with
    | nil => cases h
    | cons item queue =>
      simp only [resume] at h
      split at h
      · cases h
        refine (finish_remaining (by simp [Pc.remaining])).trans ?_
        exact remaining_le le_rfl rfl rfl (by simp)
      · -- an item less, which counts for two
        split at h <;> cases h <;> simp only [Req.remaining, Pc.remaining, List.length_cons] <;> omega
  | sendingLast guarded =>
    cases h
    split
    · exact finish_remaining (by simp [Pc.remaining])
    · exact remaining_le (by simp [Pc.remaining]) rfl rfl le_rfl
  | polling | absorbing =>
    cases h
    refine remaining_le ?_ rfl rfl le_rfl
    dsimp only
    split <;> simp [Pc.remaining]
  | sendingChunk =>
    cases h
    cases ok <;> exact remaining_le (by simp [Pc.remaining]) rfl rfl le_rfl
  | sendingDone =>
    cases h
    exact remaining_le (by simp [Pc.remaining]) rfl rfl le_rfl
  | joining | decoding =>
    simp only [resume] at h
    split at h <;> cases h
    exact remaining_le (by simp [Pc.remaining]) rfl rfl le_rfl
  | _ => cases h

theorem throw_remaining (h : throw r = some r') (hrank : 4 ≤ r.pc.rank) :
    r'.remaining ≤ r.remaining := by
  rcases r with ⟨pc, cancelling, stop, job, fut, owner, watcher, queue, detached, marks⟩
  cases pc with
  | idle | waiting | sendingRate | sendingStarted => simp [Pc.rank] at hrank
  | polling | absorbing | joining =>
    cases h
    refine remaining_le ?_ rfl rfl le_rfl
    dsimp only
    split <;> simp [Pc.remaining]
  | receiving | sendingChunk | sendingLast | sendingDone | decoding =>
    cases h
    exact remaining_le (by simp [Pc.remaining]) rfl rfl le_rfl
  | _ => cases h

theorem ownerStep_remaining {watched : Bool} (h : ownerStep watched r ok = some r')
    (hcreated : r.owner ≠ .created) : r'.remaining ≤ r.remaining := by
  rcases r with ⟨pc, cancelling, stop, job, fut, owner, watcher, queue, detached, marks⟩
  cases owner with
  | created => exact absurd rfl hcreated
  | both =>
    simp only [ownerStep] at h
    split at h
    · cases h
      simp only [Req.remaining, Owner.remaining]
      omega
    · split at h <;> cases h <;> simp only [Req.remaining, Owner.remaining] <;> omega
  | future | disconnected | joiningWatcher | joiningFuture =>
    simp only [ownerStep] at h
    split at h <;> cases h
    simp only [Req.remaining, Owner.remaining]
    omega
  | none | done => cases h

theorem threadStep_remaining (h : threadStep program r kind = some r') (hjob : r.job ≠ .running) :
    r'.remaining ≤ r.remaining := by
  cases kind with
  | jobStarts | jobDone =>
    simp only [threadStep] at h
    split at h <;> cases h
    exact le_rfl
  | produce item =>
    simp only [threadStep] at h
    split at h <;> cases h
    rename_i hrun
    exact absurd hrun.2.1 hjob
  | jobEnds =>
    simp only [threadStep] at h
    split at h <;> cases h
    rename_i hrun
    exact absurd hrun hjob
  | _ => cases h

/-- **Nobody can put it off.**  Once the call has ended no move gives the request more to do. -/
theorem agentStep_remaining (h : agentStep mode program managed ctx free r kind = some m)
    (hrank : 4 ≤ r.pc.rank) (hjob : r.job ≠ .running) (hcreated : r.owner ≠ .created) :
    m.req.remaining ≤ r.remaining := by
  have hthread : ∀ kind, (threadStep program r kind).map (fun r => ({ req := r } : Move)) = some m →
      m.req.remaining ≤ r.remaining := by
    intro kind h
    obtain ⟨r', hr, rfl⟩ := Option.map_eq_some_iff.mp h
    exact threadStep_remaining hr hjob
  cases kind with
  | begin =>
    simp only [agentStep, taskStep] at h
    split at h <;> cases h
    rename_i hpc
    rw [hpc] at hrank
    simp [Pc.rank] at hrank
  | advance ok => exact advance_remaining h hrank
  | resume ok =>
    simp only [agentStep, taskStep] at h
    split at h
    case isFalse => cases h
    obtain ⟨r', hr, rfl⟩ := Option.map_eq_some_iff.mp h
    exact resume_remaining hr hrank
  | throw =>
    simp only [agentStep, taskStep] at h
    split at h
    case isFalse => cases h
    obtain ⟨r', hr, rfl⟩ := Option.map_eq_some_iff.mp h
    exact throw_remaining (r := { r with cancelling := false }) hr hrank
  | timeout =>
    simp only [agentStep, taskStep] at h
    split at h <;> cases h
    rename_i hpc
    split
    · exact finish_remaining (by simp [hpc, Pc.remaining])
    · exact remaining_le (by simp [hpc, Pc.remaining]) rfl rfl le_rfl
  | cancel =>
    cases h
    exact le_rfl
  | stop =>
    cases h
    exact le_rfl
  | detach =>
    simp only [agentStep, taskStep] at h
    split at h <;> cases h
    exact le_rfl
  | own ok =>
    cases program with
    | finite watched =>
      obtain ⟨r', hr, rfl⟩ := Option.map_eq_some_iff.mp h
      exact ownerStep_remaining hr hcreated
    | drain => cases h
    | decode => cases h
  | watcherEnds how =>
    simp only [agentStep] at h
    split at h <;> cases h
    rename_i hrun
    simp only [Req.remaining, hrun, Watcher.remaining]
    omega
  | jobStarts => exact hthread _ h
  | produce item => exact hthread _ h
  | jobEnds => exact hthread _ h
  | jobDone => exact hthread _ h

/-- The task can run again, with a cancellation or without. -/
theorem exists_again (ok : Bool) {r₁ r₂ : Req} (hresume : resume r ok = some r₁)
    (hthrow : throw { r with cancelling := false } = some r₂) (h₁ : r₁.remaining < r.remaining)
    (h₂ : r₂.remaining < r.remaining) :
    ∃ kind m, agentStep mode program managed ctx free r kind = some m ∧ m.op = .keep ∧
      m.req.remaining < r.remaining := by
  cases hcancelling : r.cancelling with
  | true =>
    refine ⟨.throw, { req := r₂ }, ?_, rfl, h₂⟩
    simp only [agentStep, taskStep, hcancelling, if_true, hthrow, Option.map_some]
  | false =>
    refine ⟨.resume ok, { req := r₁ }, ?_, rfl, h₁⟩
    simp only [agentStep, taskStep, hcancelling, true_or, if_true, hresume, Option.map_some]

/-- The owner or the watcher can go on, the future being done. -/
theorem exists_owned {watched : Bool} (hdone : r.fut.isDone = true) (hnone : r.owner ≠ .none)
    (hcreated : r.owner ≠ .created) (howner : r.owner ≠ .done) :
    ∃ kind m, agentStep mode (.finite watched) managed ctx free r kind = some m ∧ m.op = .keep ∧
      m.req.remaining < r.remaining := by
  have hgo : ∀ r', ownerStep watched r true = some r' → r'.remaining < r.remaining →
      ∃ kind m, agentStep mode (.finite watched) managed ctx free r kind = some m ∧ m.op = .keep ∧
        m.req.remaining < r.remaining := by
    intro r' hr hless
    refine ⟨.own true, { req := r' }, ?_, rfl, hless⟩
    simp only [agentStep, hr, Option.map_some]
  rcases r with ⟨pc, cancelling, stop, job, fut, owner, watcher, queue, detached, marks⟩
  cases owner with
  | none => exact absurd rfl hnone
  | created => exact absurd rfl hcreated
  | done => exact absurd rfl howner
  | both =>
    apply hgo
    · exact if_pos hdone
    · simp [Req.remaining, Owner.remaining]
  | future =>
    apply hgo
    · exact if_pos hdone
    · simp [Req.remaining, Owner.remaining]
  | disconnected =>
    apply hgo
    · exact if_pos hdone
    · simp [Req.remaining, Owner.remaining]
  | joiningFuture =>
    apply hgo
    · exact if_pos hdone
    · simp [Req.remaining, Owner.remaining]
  | joiningWatcher =>
    cases watcher with
    | running =>
      exact ⟨.watcherEnds .other, _, rfl, rfl, by simp [Req.remaining, Watcher.remaining]⟩
    | none =>
      apply hgo
      · rfl
      · simp [Req.remaining, Owner.remaining]
    | ended how =>
      apply hgo
      · rfl
      · simp [Req.remaining, Owner.remaining]

/-- **Somebody can bring it nearer.**  Once the future is done there is a move that leaves the
request with less to do; only at the two ends does it need the leases. -/
theorem exists_nearer (mode : Mode) (ctx : Backend.Ctx β) (free : Bool)
    (hv : r.view.Inv program managed) (hfut : r.fut = .done)
    (hbefore : r.pc.rank ≤ 4) :
    ∃ kind m, agentStep mode program managed ctx free r kind = some m ∧ m.op = .keep ∧
      m.req.remaining < r.remaining := by
  have hjob := hv.returned hfut
  have hlate : ¬ r.pc.rank ≤ 3 := by
    intro hrank
    have hnone : r.job = .none := hv.early hrank
    have hreturned : r.job = .returned := hjob
    rw [hreturned] at hnone
    cases hnone
  have hdone : r.fut.isDone = true := by rw [hfut]; rfl
  have hpolling : r.pc.place = .polling → r.owner ≠ .done →
      ∃ kind m, agentStep mode program managed ctx free r kind = some m ∧ m.op = .keep ∧
        m.req.remaining < r.remaining := by
    intro hplace howner
    obtain ⟨hnone, watched, rfl⟩ := hv.polling hplace
    apply exists_owned hdone hnone _ howner
    intro hcreated
    have hnone : r.job = .none := hv.created hcreated
    have hreturned : r.job = .returned := hjob
    rw [hreturned] at hnone
    cases hnone
  rcases r with ⟨pc, cancelling, stop, job, fut, owner, watcher, queue, detached, marks⟩
  cases pc with
  | idle | entering | waiting | admitted | sendingRate | sendingStarted => simp [Pc.rank] at hlate
  | leavingSlot | leavingManager | exiting | ended => simp [Pc.rank] at hbefore
  | polling =>
    by_cases howner : owner = .done
    · apply exists_again true rfl rfl <;>
        simp [Req.remaining, Pc.remaining, howner]
    · exact hpolling rfl howner
  | absorbing =>
    by_cases howner : owner = .done
    · apply exists_again true rfl rfl <;>
        simp [Req.remaining, Pc.remaining, howner]
    · exact hpolling rfl howner
  | receiving =>
    refine ⟨.timeout, _, rfl, rfl, ?_⟩
    cases stop <;> simp [Req.finish, Req.remaining, Pc.remaining]
  | sendingChunk =>
    apply exists_again false rfl rfl <;> simp [Req.remaining, Pc.remaining]
  | sendingLast guarded =>
    apply exists_again true rfl rfl
    · cases stop <;> simp [Req.finish, Req.remaining, Pc.remaining]
    · simp [Req.remaining, Pc.remaining]
  | sendingDone =>
    apply exists_again true rfl rfl <;> simp [Req.remaining, Pc.remaining]
  | joining =>
    obtain rfl : fut = .done := hfut
    obtain rfl : job = .returned := hjob
    apply exists_again true rfl rfl <;> simp [Req.remaining, Pc.remaining, Fut.isDone]
  | decoding =>
    obtain rfl : fut = .done := hfut
    apply exists_again true rfl rfl <;> simp [Req.remaining, Pc.remaining]

end Remaining

/-! ### The law -/

section Law

variable {ι β ρ : Type} [Fintype ι] [DecidableEq ι] {cfg : Cfg ι β ρ} {good : ι → Prop}
  {s s' : Sys ι β ρ} {i : ι}

/-- The law of one request. -/
structure HoldsLeases (cfg : Cfg ι β ρ) (s : Sys ι β ρ) (i : ι) : Prop where
  /-- Both contexts are open from the submission of the call until its future is done. -/
  holding : (s.req i).job ≠ .none → (s.req i).fut ≠ .done →
    s.coord.inside i = true ∧ (cfg.managed i = true → ∃ backend, s.ctx cfg i = .held backend)
  /-- Nothing happens twice, or out of order. -/
  ordered : (s.req i).marks.Pairwise fun a b => a.rank < b.rank
  /-- Neither context is left before the future is done. -/
  after : .freed ∈ (s.req i).marks ∨ .left ∈ (s.req i).marks →
    .submitted ∈ (s.req i).marks → .completed ∈ (s.req i).marks
  /-- Who has ended has left what it had entered. -/
  ended : (s.req i).pc = .ended → s.coord.inside i = false ∧ s.ctx cfg i = .outside ∧
    (.admitted ∈ (s.req i).marks → .freed ∈ (s.req i).marks) ∧
    (.managed ∈ (s.req i).marks → .left ∈ (s.req i).marks)
  /-- Once the future is done somebody can bring the end nearer, -/
  nearer : (s.req i).fut = .done → (s.req i).pc ≠ .ended →
    ∃ kind s', step cfg s (.move i kind) = some s' ∧
      (s'.req i).remaining < (s.req i).remaining
  /-- and nobody can put it off. -/
  noFurther : (s.req i).fut = .done → ∀ a s', step cfg s a = some s' →
    (s'.req i).remaining ≤ (s.req i).remaining

omit [Fintype ι] in
theorem lease_req {op : LeaseOp} (h : s.lease cfg i op = some s') : s'.req = s.req := by
  cases op with
  | keep =>
    obtain rfl := Option.some.inj h
    rfl
  | enter =>
    obtain ⟨m, -, rfl⟩ := manage_eq_some h
    rfl
  | leave =>
    obtain ⟨m, -, rfl⟩ := manage_eq_some h
    rfl
  | take =>
    obtain rfl := Option.some.inj h
    rfl
  | give =>
    obtain rfl := Option.some.inj h
    rfl

/-- A request whose call has ended is past its submission, and its owner is not new. -/
theorem View.Inv.of_done {program : Program} {managed : Bool} {v : View}
    (hv : v.Inv program managed) (hfut : v.fut = .done) :
    4 ≤ v.rank ∧ v.job = .returned ∧ v.owner ≠ .created := by
  have hjob := hv.returned hfut
  refine ⟨?_, hjob, ?_⟩
  · by_contra hrank
    have := hv.early (by omega)
    rw [hjob] at this
    cases this
  · intro hcreated
    have := hv.created hcreated
    rw [hjob] at this
    cases this

theorem Sys.Inv.noFurther (hs : s.Inv cfg good) (hi : good i) (hfut : (s.req i).fut = .done)
    {a : Act ι β ρ} (h : Execution.step cfg s a = some s') :
    (s'.req i).remaining ≤ (s.req i).remaining := by
  obtain ⟨hrank, hjob, hcreated⟩ := (hs.reqs i hi).of_done hfut
  have hrun : (s.req i).job ≠ .running := by
    intro hrun
    have hreturned : (s.req i).job = .returned := hjob
    rw [hrun] at hreturned
    cases hreturned
  cases a with
  | move j kind =>
    simp only [Execution.step] at h
    split at h
    · cases h
    · next m hm =>
      rw [lease_req h]
      by_cases hji : i = j
      · subst hji
        simpa using agentStep_remaining hm hrank hrun hcreated
      · simp [Function.update_of_ne hji]
  | manager slot b =>
    simp only [Execution.step] at h
    split at h
    · obtain ⟨m, -, rfl⟩ := manage_eq_some h
      exact le_rfl
    · cases h

theorem Sys.Inv.nearer (hs : s.Inv cfg good) (hi : good i) (hfut : (s.req i).fut = .done)
    (hended : (s.req i).pc ≠ .ended) :
    ∃ kind s', Execution.step cfg s (.move i kind) = some s' ∧
      (s'.req i).remaining < (s.req i).remaining := by
  have hv := hs.reqs i hi
  have hlinked := hs.linked i
  have hcarry : ∀ {kind m}, agentStep cfg.mode (cfg.program i) (cfg.managed i) (s.ctx cfg i)
      s.coord.free (s.req i) kind = some m →
      (∃ s₁, ({ s with req := Function.update s.req i m.req } : Sys ι β ρ).lease cfg i m.op = some s₁) →
      m.req.remaining < (s.req i).remaining →
      ∃ kind s', Execution.step cfg s (.move i kind) = some s' ∧
        (s'.req i).remaining < (s.req i).remaining := by
    rintro kind m hm ⟨s₁, hlease⟩ hless
    refine ⟨kind, s₁, ?_, ?_⟩
    · simp only [Execution.step, hm, hlease]
    · rw [lease_req hlease]
      simpa using hless
  by_cases hbefore : (s.req i).pc.rank ≤ 4
  · obtain ⟨kind, m, hm, hop, hless⟩ := exists_nearer cfg.mode (s.ctx cfg i) s.coord.free hv hfut hbefore
    exact hcarry hm (by rw [hop]; exact ⟨_, rfl⟩) hless
  · cases hpc : (s.req i).pc with
    | leavingSlot =>
      obtain ⟨m, hm, hop, hless⟩ : ∃ m, agentStep cfg.mode (cfg.program i) (cfg.managed i)
          (s.ctx cfg i) s.coord.free (s.req i) (.advance true) = some m ∧ m.op = .give ∧
          m.req.remaining < (s.req i).remaining := by
        simp only [agentStep, taskStep, advance, hpc]
        exact ⟨_, rfl, rfl, by simp [Req.remaining, hpc, Pc.remaining]⟩
      exact hcarry hm (by rw [hop]; exact ⟨_, rfl⟩) hless
    | leavingManager =>
      cases hmanaged : cfg.managed i with
      | true =>
        obtain ⟨backend, hheld⟩ := hlinked.held hmanaged (by simp [Req.view, hpc, Pc.rank])
          (by simp [Req.view, hpc, Pc.rank])
        have hctx : (s.manager (cfg.program i).slot).ctx i = .held backend := hheld
        obtain ⟨m, hm, hop, hless⟩ : ∃ m, agentStep cfg.mode (cfg.program i) (cfg.managed i)
            (s.ctx cfg i) s.coord.free (s.req i) (.advance true) = some m ∧ m.op = .leave ∧
            m.req.remaining < (s.req i).remaining := by
          simp only [agentStep, taskStep, advance, hpc, hmanaged, if_true]
          exact ⟨_, rfl, rfl, by simp [Req.remaining, hpc, Pc.remaining]⟩
        refine hcarry hm ?_ hless
        rw [hop]
        simp only [Sys.lease, Sys.manage, Backend.step, hctx]
        exact ⟨_, rfl⟩
      | false =>
        obtain ⟨m, hm, hop, hless⟩ : ∃ m, agentStep cfg.mode (cfg.program i) (cfg.managed i)
            (s.ctx cfg i) s.coord.free (s.req i) (.advance true) = some m ∧ m.op = .keep ∧
            m.req.remaining < (s.req i).remaining := by
          simp only [agentStep, taskStep, advance, hpc, hmanaged]
          exact ⟨_, rfl, rfl, by simp [Req.remaining, hpc, Pc.remaining]⟩
        exact hcarry hm (by rw [hop]; exact ⟨_, rfl⟩) hless
    | exiting =>
      have hout : s.ctx cfg i = .outside :=
        hlinked.outside (.inr (.inr (by simp [Req.view, hpc, Pc.rank])))
      obtain ⟨m, hm, hop, hless⟩ : ∃ m, agentStep cfg.mode (cfg.program i) (cfg.managed i)
          (s.ctx cfg i) s.coord.free (s.req i) (.advance true) = some m ∧ m.op = .keep ∧
          m.req.remaining < (s.req i).remaining := by
        simp only [agentStep, taskStep, advance, hpc, hout]
        exact ⟨_, rfl, rfl, by simp [Req.remaining, hpc, Pc.remaining]⟩
      exact hcarry hm (by rw [hop]; exact ⟨_, rfl⟩) hless
    | ended => exact absurd hpc hended
    | _ => simp [hpc, Pc.rank] at hbefore

/-- The invariant is the law. -/
theorem Sys.Inv.holdsLeases (hs : s.Inv cfg good) (hi : good i) (hprogram : cfg.program i ≠ .decode) :
    HoldsLeases cfg s i where
  holding := by
    intro hjob hfut
    have hv := hs.reqs i hi
    have hlow : ¬ (s.req i).view.rank ≤ 3 := fun hrank => hjob (hv.early hrank)
    have hhigh : ¬ 5 ≤ (s.req i).view.rank := by
      intro hrank
      rcases hv.settled hrank with hnone | hdone | ⟨hdecode, -⟩
      · exact hjob hnone
      · exact hfut hdone
      · exact hprogram hdecode
    constructor
    · rw [hs.inside i, slotted, decide_eq_true (by omega), decide_eq_true (by omega)]
      rfl
    · intro hmanaged
      exact (hs.linked i).held hmanaged (by omega) (by omega)
  ordered := (hs.reqs i hi).ordered
  after := by
    intro hleft hsubmitted
    have hv := hs.reqs i hi
    have hlevel : 5 ≤ (s.req i).view.level := by
      rcases hleft with hfreed | hleft
      · exact hv.below _ hfreed
      · exact (hv.below _ hleft).le
    have hrank : 5 ≤ (s.req i).view.rank := by
      simp only [View.level] at hlevel
      split_ifs at hlevel <;> omega
    rcases hv.settled hrank with hnone | hdone | ⟨hdecode, -⟩
    · exact absurd hnone (hv.submitted.mp hsubmitted)
    · exact hv.completed.mpr hdone
    · exact absurd hdecode hprogram
  ended := by
    intro hpc
    have hv := hs.reqs i hi
    have hrank : (s.req i).view.rank = 8 := by rw [Req.view, hpc]; rfl
    refine ⟨?_, ?_, hv.freed (by omega), hv.left (by omega)⟩
    · rw [hs.inside i, hrank]
      rfl
    · exact (hs.linked i).outside (.inr (.inr (by omega)))
  nearer := hs.nearer hi
  noFurther := fun hfut _ _ h => hs.noFurther hi hfut h

/-- **Native synthesis holds its leases**, in every run and for every request that is no decode,
whatever is cancelled. -/
theorem native_holds_leases {as : List (Act ι β ρ)} (hrun : (machine cfg).run as = some s)
    (hprogram : cfg.program i ≠ .decode) : HoldsLeases cfg s i := by
  have hs : s.Inv cfg fun i => cfg.program i ≠ .decode := by
    apply (machine cfg).invariant_of_step sys_inv_start _ hrun
    intro s a s' hs h
    refine hs.step ?_ h
    rintro i kind rfl hi
    cases kind with
    | throw =>
      intro hpc
      -- only a decode waits for its future itself
      have hplace : (s.req i).view.place = .decoding := by rw [Req.view, hpc]; rfl
      exact absurd ((hs.reqs i hi).decoding hplace) hi
    | _ => trivial
  exact hs.holdsLeases hprogram hprogram

/-- One TTS manager, one finite request and one drain. -/
def exampleCfg : Cfg (Fin 2) ℕ ℕ :=
  { mode := .serialized, backend := fun _ => Backend.exampleCfg,
    program := fun i => if i = 0 then .finite true else .drain, managed := fun _ => true }

/-- The finite request is cancelled twice while the call runs. -/
def cancelledCall : List (Act (Fin 2) ℕ ℕ) :=
  .manager .tts (.start (Backend.goodBuild 1)) ::
    [.begin, .advance true, .advance true, .advance true, .own true, .jobStarts, .cancel, .throw,
      .cancel, .throw, .jobEnds, .jobDone, .own true, .watcherEnds .other, .own true, .own true,
      .resume true, .advance true, .advance true, .advance true].map (.move 0)

theorem native_holds_leases_cancelledCall :
    ∃ s, (machine exampleCfg).run cancelledCall = some s ∧ (s.req 0).pc = .ended ∧
      HoldsLeases exampleCfg s 0 :=
  ⟨_, rfl, rfl, native_holds_leases
    (show (machine exampleCfg).run cancelledCall = some _ from rfl) (by decide)⟩

end Law

end Execution
end OpenVoiceStream
