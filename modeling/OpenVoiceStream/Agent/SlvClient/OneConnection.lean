import OpenVoiceStream.Agent.SlvClient.Connection

/-!
# One connection at a time

The server gives the client one session. The client opens a WebSocket only after it has let
go of the one before, and, unless a call is cancelled at the wrong await, only after that one
is closed. Which WebSocket may be there is a matter of the await the lock holder is at, so the
invariant goes by the stage.

## Main definitions

* `Proceeds`, `Steps` — how an await of the lock holder ends, and a step, as rules.
* `Kept` — which WebSocket may count, by the stage.

## Main results

* `one_open` — never two WebSockets that the client has not begun to close.
* `one_unclosed` — without cancellation, never two that are not closed.
-/

namespace OpenVoiceStream.SlvClient.Connection

/-- How an await of the lock holder ends, as rules. -/
inductive Proceeds (s : State) : Stage → Outcome → State → Prop
  | opened (i : ℕ) (k : After) :
    Proceeds s (.connecting i k) .opened { s with
      sock := Function.update s.sock s.next (some .open)
      next := s.next + 1
      ws := some s.next
      holder := some (.handshake i k) }
  | refused (i : ℕ) (k : After) : Proceeds s (.connecting i k) .refused s.release
  | shaken (i : ℕ) (k : After) (w : ℕ) (hws : s.ws = some w) :
    Proceeds s (.handshake i k) .shaken { s with
      shaken := s.shaken ++ [w]
      reader := some w
      running := Function.update s.running w true
      holder := some (.grace i k s.readerDone) }
  | closedByServer (i : ℕ) (k : After) :
    Proceeds s (.handshake i k) .closedByServer { s with holder := some (.closeRefused i k) }
  | rejected (i : ℕ) (k : After) (w : ℕ) (hws : s.ws = some w) :
    Proceeds s (.handshake i k) .rejected { s.beginClose w with holder := some .closeRejected }
  | odd (i : ℕ) (k : After) : Proceeds s (.handshake i k) .odd s.release
  | closeRefused (i : ℕ) (k : After) (hws : ∀ w, s.ws = some w → s.sock w = some .closed) :
    Proceeds s (.closeRefused i k) .next ({ s with ws := none }.retry i k)
  | closeRejected (hws : ∀ w, s.ws = some w → s.sock w = some .closed) :
    Proceeds s .closeRejected .next { s with ws := none }.release
  | backoff (i : ℕ) (k : After) : Proceeds s (.backoff i k) .next (s.openAttempt (i + 1) k)
  | healthy (i : ℕ) (k : After) (woken : Bool) (w : ℕ) (hws : s.ws = some w) :
    Proceeds s (.grace i k woken) .healthy
      ({ s with gen := s.gen + 1, healthy := s.healthy ++ [w] }.finish k)
  | dies (i : ℕ) (k : After) (r : ℕ) :
    Proceeds s (.grace i k true) .next { s.letGo with holder := some (.stopDead r s.ws i k) }
  | died (i : ℕ) (k : After) : Proceeds s (.grace i k true) .next (s.letGo.closeDead s.ws i k)
  | stopDead (r : ℕ) (ws : Option ℕ) (i : ℕ) (k : After) :
    Proceeds s (.stopDead r ws i k) .next (s.closeDead ws i k)
  | closeDead (w i : ℕ) (k : After) (hclosed : s.sock w = some .closed) :
    Proceeds s (.closeDead w i k) .next (s.retry i k)
  | sent (x : Send) (w : ℕ) (hws : s.ws = some w) (hopen : s.sock w = some .open) :
    Proceeds s (.sending x) .sent { s with sent := ⟨x, w, s.gen⟩ :: s.sent }.release
  | sendClosed (x : Send) (w : ℕ) (hws : s.ws = some w) (hclosed : s.sock w ≠ some .open) :
    Proceeds s (.sending x) .sendClosed { s with ws := none }.release
  | stopOld (r : ℕ) (ws : Option ℕ) : Proceeds s (.stopOld r ws) .next (s.closeOld ws)
  | closeOld (w : ℕ) (hclosed : s.sock w = some .closed) :
    Proceeds s (.closeOld w) .next { s with holder := some .pause }
  | pause : Proceeds s .pause .next (s.openAttempt 0 .done)
  | waitsOld (r : ℕ) (ws : Option ℕ) : Proceeds s (.stopOld r ws) .cancel s
  | waitsDead (r : ℕ) (ws : Option ℕ) (i : ℕ) (k : After) :
    Proceeds s (.stopDead r ws i k) .cancel s
  | cancel (stage : Stage) (hold : ∀ r ws, stage ≠ .stopOld r ws)
      (hdead : ∀ r ws i k, stage ≠ .stopDead r ws i k) : Proceeds s stage .cancel s.release

/-- The rules are all there is. -/
theorem proceeds {s t : State} {stage : Stage} {o : Outcome} (h : s.proceed stage o = some t) :
    Proceeds s stage o t := by
  unfold State.proceed at h
  split at h
  case h_1 i k => exact Option.some_inj.mp h ▸ .opened i k
  case h_2 i k => exact Option.some_inj.mp h ▸ .refused i k
  case h_3 i k =>
    obtain ⟨w, hws, rfl⟩ := Option.map_eq_some_iff.mp h
    exact .shaken i k w hws
  case h_4 i k =>
    split at h
    · split at h
      · cases h
      · exact Option.some_inj.mp h ▸ .closedByServer i k
    · cases h
  case h_5 i k =>
    obtain ⟨w, hws, rfl⟩ := Option.map_eq_some_iff.mp h
    exact .rejected i k w hws
  case h_6 i k => exact Option.some_inj.mp h ▸ .odd i k
  case h_7 i k =>
    split at h
    · next hall =>
      refine Option.some_inj.mp h ▸ .closeRefused i k ?_
      intro w hws
      rw [hws, Option.all_some] at hall
      exact of_decide_eq_true hall
    · cases h
  case h_8 =>
    split at h
    · next hall =>
      refine Option.some_inj.mp h ▸ .closeRejected ?_
      intro w hws
      rw [hws, Option.all_some] at hall
      exact of_decide_eq_true hall
    · cases h
  case h_9 i k => exact Option.some_inj.mp h ▸ .backoff i k
  case h_10 i k woken =>
    obtain ⟨w, hws, rfl⟩ := Option.map_eq_some_iff.mp h
    exact .healthy i k woken w hws
  case h_11 i k =>
    split at h
    · exact Option.some_inj.mp h ▸ .dies i k _
    · exact Option.some_inj.mp h ▸ .died i k
  case h_12 r old i k =>
    split at h
    · cases h
    · exact Option.some_inj.mp h ▸ .stopDead r old i k
  case h_13 w i k =>
    split at h
    · next hclosed => exact Option.some_inj.mp h ▸ .closeDead w i k hclosed
    · cases h
  case h_14 x =>
    split at h
    · next w hws =>
      split at h
      · next hopen => exact Option.some_inj.mp h ▸ .sent x w hws hopen
      · cases h
    · cases h
  case h_15 x =>
    split at h
    · next w hws =>
      split at h
      · cases h
      · next hnot => exact Option.some_inj.mp h ▸ .sendClosed x w hws hnot
    · cases h
  case h_16 r old =>
    split at h
    · cases h
    · exact Option.some_inj.mp h ▸ .stopOld r old
  case h_17 w =>
    split at h
    · next hclosed => exact Option.some_inj.mp h ▸ .closeOld w hclosed
    · cases h
  case h_18 => exact Option.some_inj.mp h ▸ .pause
  case h_19 r old => exact Option.some_inj.mp h ▸ .waitsOld r old
  case h_20 r old i k => exact Option.some_inj.mp h ▸ .waitsDead r old i k
  case h_21 hold hdead => exact Option.some_inj.mp h ▸ .cancel stage hold hdead
  case h_22 => cases h

/-- A step, as rules: a call takes the lock, a WebSocket is closed, a reader ends, its end is
passed over, or an await of the lock holder ends. -/
inductive Steps (s : State) : Action → State → Prop
  | call (c : Call) (hfree : s.holder = none) : Steps s (.call c) (s.enter c)
  | closed (a : Action) (w : ℕ) (k : Sock) (hw : s.sock w = some k) :
    Steps s a { s with sock := Function.update s.sock w (some .closed) }
  | readerEnd (w : ℕ) :
    Steps s (.readerEnd w) { s with
      running := Function.update s.running w false
      readerDone := true
      holder := State.wake s.holder }
  | clear : Steps s .clear { s with readerDone := false }
  | holder (o : Outcome) (stage : Stage) (t : State) (hstage : s.holder = some stage)
    (ht : Proceeds s stage o t) : Steps s (.holder o) t

theorem steps {s t : State} {a : Action} (h : s.step a = some t) : Steps s a t := by
  cases a with
  | call c =>
    simp only [State.step] at h
    split at h
    · next hfree => exact Option.some_inj.mp h ▸ .call c hfree
    · cases h
  | serverClose w =>
    obtain ⟨hw, h⟩ := Option.ite_none_right_eq_some.mp h
    exact Option.some_inj.mp h ▸ .closed _ w _ hw
  | closed w =>
    obtain ⟨hw, h⟩ := Option.ite_none_right_eq_some.mp h
    exact Option.some_inj.mp h ▸ .closed _ w _ hw
  | readerEnd w =>
    obtain ⟨-, h⟩ := Option.ite_none_right_eq_some.mp h
    exact Option.some_inj.mp h ▸ .readerEnd w
  | clear =>
    obtain ⟨-, h⟩ := Option.ite_none_right_eq_some.mp h
    exact Option.some_inj.mp h ▸ .clear
  | holder o =>
    simp only [State.step] at h
    split at h
    · next stage hstage => exact .holder o stage t hstage (proceeds h)
    · cases h

/-- A WebSocket counts while it is open; when `closing`, it counts until it is closed. -/
def Counts (closing : Bool) : Option Sock → Prop
  | some .open => True
  | some .closing => closing = true
  | _ => False

/-- At most the WebSocket `o` counts. -/
def Only (c : Bool) (sock : ℕ → Option Sock) (o : Option ℕ) : Prop :=
  ∀ w, Counts c (sock w) → o = some w

/-- No WebSocket is being closed. -/
def Calm (c : Bool) (sock : ℕ → Option Sock) : Prop := c = true → ∀ w, sock w ≠ some .closing

/-- Which WebSocket may count, by the await the lock holder is at. -/
def Kept (c : Bool) (sock : ℕ → Option Sock) (ws : Option ℕ) : Option Stage → Prop
  | none => Only c sock ws ∧ Calm c sock
  | some (.handshake _ _) => Only c sock ws ∧ Calm c sock
  | some (.grace _ _ _) => Only c sock ws ∧ Calm c sock
  | some (.sending _) => Only c sock ws ∧ Calm c sock
  | some (.connecting _ _) => ws = none ∧ Only c sock none
  | some (.backoff _ _) => ws = none ∧ Only c sock none
  | some .pause => ws = none ∧ Only c sock none
  | some (.stopDead _ old _ _) => ws = none ∧ Only c sock old
  | some (.stopOld _ old) => ws = none ∧ Only c sock old
  | some (.closeRefused _ _) => Only c sock ws
  | some .closeRejected => Only c sock ws
  | some (.closeDead w _ _) => ws = none ∧ Only c sock (if c then some w else none)
  | some (.closeOld w) => ws = none ∧ Only c sock (if c then some w else none)

/-- The invariant. -/
structure Inv (c : Bool) (s : State) : Prop where
  fresh : ∀ w, s.next ≤ w → s.sock w = none
  kept : Kept c s.sock s.ws s.holder

/-! ### What happens to a WebSocket -/

section Sockets

variable {c : Bool} {sock : ℕ → Option Sock} {o : Option ℕ}

/-- A closed WebSocket does not count. -/
theorem Only.closed (h : Only c sock o) (w : ℕ) :
    Only c (Function.update sock w (some .closed)) o := by
  intro v hv
  by_cases hvw : v = w
  · subst hvw
    rw [Function.update_self] at hv
    exact hv.elim
  · rw [Function.update_of_ne hvw] at hv
    exact h v hv

theorem Calm.closed (h : Calm c sock) (w : ℕ) :
    Calm c (Function.update sock w (some .closed)) := by
  intro hc v hv
  by_cases hvw : v = w
  · subst hvw
    rw [Function.update_self] at hv
    cases hv
  · rw [Function.update_of_ne hvw] at hv
    exact h hc v hv

/-- With none that counts, a new WebSocket is the only one. -/
theorem Only.opened (h : Only c sock none) (w : ℕ) :
    Only c (Function.update sock w (some .open)) (some w) := by
  intro v hv
  by_cases hvw : v = w
  · rw [hvw]
  · rw [Function.update_of_ne hvw] at hv
    cases h v hv

/-- With none that counts, none is being closed. -/
theorem Only.calm (h : Only c sock none) : Calm c sock := by
  intro hc w hw
  have hcounts : Counts c (sock w) := by rw [hw]; exact hc
  cases h w hcounts

theorem Calm.opened (h : Calm c sock) (w : ℕ) : Calm c (Function.update sock w (some .open)) := by
  intro hc v hv
  by_cases hvw : v = w
  · subst hvw
    rw [Function.update_self] at hv
    cases hv
  · rw [Function.update_of_ne hvw] at hv
    exact h hc v hv

/-- What is neither open nor being closed does not count. -/
theorem not_counts {k : Option Sock} (hopen : k ≠ some .open)
    (hclosing : c = true → k ≠ some .closing) : ¬ Counts c k := by
  intro h
  cases k with
  | none => exact h
  | some k =>
    cases k with
    | «open» => exact hopen rfl
    | closing => exact hclosing h rfl
    | closed => exact h

/-- If the one that may count does not, none does. -/
theorem Only.empty (h : Only c sock o) (hnot : ∀ w, o = some w → ¬ Counts c (sock w)) :
    Only c sock none :=
  fun w hw => absurd hw (hnot w (h w hw))

/-- The same for a WebSocket that is closed. -/
theorem Only.none_of_closed (h : Only c sock o) (hclosed : ∀ w, o = some w → sock w = some .closed) :
    Only c sock none := by
  refine h.empty ?_
  intro w how
  rw [hclosed w how]
  exact id

end Sockets

/-! ### Closing -/

section Closing

variable {c : Bool} {s : State} {o : Option ℕ}

theorem beginClose_sock (s : State) (w : ℕ) :
    (s.beginClose w).sock =
      if s.sock w = some .open then Function.update s.sock w (some .closing) else s.sock := by
  unfold State.beginClose
  split <;> rfl

@[simp] theorem beginClose_ws (s : State) (w : ℕ) : (s.beginClose w).ws = s.ws := by
  unfold State.beginClose
  split <;> rfl

@[simp] theorem beginClose_next (s : State) (w : ℕ) : (s.beginClose w).next = s.next := by
  unfold State.beginClose
  split <;> rfl

/-- To begin to close one makes no other count. -/
theorem Only.beginClose (h : Only c s.sock o) (w : ℕ) : Only c (s.beginClose w).sock o := by
  intro v hv
  rw [beginClose_sock] at hv
  split at hv
  · next hopen =>
    by_cases hvw : v = w
    · subst hvw
      exact h v (by rw [hopen]; trivial)
    · rw [Function.update_of_ne hvw] at hv
      exact h v hv
  · exact h v hv

/-- The one that is being closed counts only for as long as closing ones do. -/
theorem Only.closing {w : ℕ} (h : Only c s.sock (some w)) :
    Only c (s.beginClose w).sock (if c then some w else none) := by
  cases c with
  | true => exact h.beginClose w
  | false =>
    refine (h.beginClose w).empty ?_
    rintro v ⟨⟩
    refine not_counts ?_ (fun hc => nomatch hc)
    rw [beginClose_sock]
    split
    · rw [Function.update_self]
      exact fun h => nomatch h
    · next hnot => exact hnot

/-- The one that was being closed is closed. -/
theorem Only.none_of_ite {sock : ℕ → Option Sock} {w : ℕ}
    (h : Only c sock (if c then some w else none)) (hclosed : sock w = some .closed) :
    Only c sock none := by
  refine h.none_of_closed ?_
  intro v hv
  split at hv
  · rw [← Option.some_inj.mp hv, hclosed]
  · cases hv

/-- A new WebSocket has no number yet. -/
theorem fresh_beginClose (h : ∀ w, s.next ≤ w → s.sock w = none) (w : ℕ) :
    ∀ v, (s.beginClose w).next ≤ v → (s.beginClose w).sock v = none := by
  intro v hv
  rw [beginClose_next] at hv
  rw [beginClose_sock]
  split
  · next hopen =>
    have hne : v ≠ w := by
      rintro rfl
      rw [h v hv] at hopen
      cases hopen
    rw [Function.update_of_ne hne]
    exact h v hv
  · exact h v hv

theorem fresh_update (h : ∀ w, s.next ≤ w → s.sock w = none) {w : ℕ} (hw : s.sock w ≠ none)
    (k : Sock) : ∀ v, s.next ≤ v → Function.update s.sock w (some k) v = none := by
  intro v hv
  have hne : v ≠ w := by
    rintro rfl
    exact hw (h v hv)
  rw [Function.update_of_ne hne]
  exact h v hv

end Closing

/-! ### The invariant of a call -/

section Calls

variable {c : Bool} {s t : State} {old : Option ℕ}

theorem Inv.openAttempt (hfresh : ∀ w, s.next ≤ w → s.sock w = none) (hws : s.ws = none)
    (honly : Only c s.sock none) (i : ℕ) (k : After) : Inv c (s.openAttempt i k) :=
  ⟨hfresh, hws, honly⟩

theorem Inv.retry (hfresh : ∀ w, s.next ≤ w → s.sock w = none) (hws : s.ws = none)
    (honly : Only c s.sock none) (i : ℕ) (k : After) : Inv c (s.retry i k) := by
  unfold State.retry
  split
  · refine ⟨hfresh, ?_, honly.calm⟩
    change Only c s.sock s.ws
    rw [hws]
    exact honly
  · exact ⟨hfresh, hws, honly⟩

theorem Inv.closeDead (hfresh : ∀ w, s.next ≤ w → s.sock w = none) (hws : s.ws = none)
    (honly : Only c s.sock old) (i : ℕ) (k : After) : Inv c (s.closeDead old i k) := by
  cases old with
  | none => exact Inv.retry hfresh hws honly i k
  | some w => exact ⟨fresh_beginClose hfresh w, (beginClose_ws s w).trans hws, honly.closing⟩

theorem Inv.closeOld (hfresh : ∀ w, s.next ≤ w → s.sock w = none) (hws : s.ws = none)
    (honly : Only c s.sock old) : Inv c (s.closeOld old) := by
  cases old with
  | none => exact ⟨hfresh, hws, honly⟩
  | some w => exact ⟨fresh_beginClose hfresh w, (beginClose_ws s w).trans hws, honly.closing⟩

theorem Inv.finish (hfresh : ∀ w, s.next ≤ w → s.sock w = none) (honly : Only c s.sock s.ws)
    (hcalm : Calm c s.sock) (k : After) : Inv c (s.finish k) := by
  cases k with
  | send x => exact ⟨hfresh, honly, hcalm⟩
  | done => exact ⟨hfresh, honly, hcalm⟩

/-- A call takes the lock. -/
theorem Inv.enter (h : Inv c s) (hfree : s.holder = none) (call : Call) :
    Inv c (s.enter call) := by
  obtain ⟨honly, hcalm⟩ : Only c s.sock s.ws ∧ Calm c s.sock := by
    have hkept := h.kept
    rw [hfree] at hkept
    exact hkept
  have hdead : ∀ i k, ¬ s.ws.isSome → Inv c (s.openAttempt i k) := by
    intro i k hws
    rw [Bool.not_eq_true, Option.isSome_eq_false_iff, Option.isNone_iff_eq_none] at hws
    refine Inv.openAttempt h.fresh hws ?_ i k
    rw [← hws]
    exact honly
  cases call with
  | connect =>
    simp only [State.enter]
    split
    · exact h
    · next hws => exact hdead 0 .done hws
  | send x =>
    simp only [State.enter]
    split
    · exact h
    · split
      · exact ⟨h.fresh, honly, hcalm⟩
      · next hws =>
        split
        · exact hdead 0 (.send x) hws
        · exact h
  | reconnect =>
    simp only [State.enter]
    split
    · exact ⟨h.fresh, rfl, honly⟩
    · exact Inv.closeOld (s := s.letGo) h.fresh rfl honly

/-- An await of the lock holder ends; while closing counts, it is not cancelled. -/
theorem Inv.proceed (h : Inv c s) {stage : Stage} (hstage : s.holder = some stage) {o : Outcome}
    (hok : c = true → o ≠ .cancel) (ht : Proceeds s stage o t) : Inv c t := by
  have hfresh := h.fresh
  have hkept := h.kept
  rw [hstage] at hkept
  cases ht with
  | opened i k =>
    refine ⟨?_, hkept.2.opened _, hkept.2.calm.opened _⟩
    intro w hw
    have hne : w ≠ s.next := Nat.ne_of_gt hw
    exact (Function.update_of_ne hne _ _).trans (hfresh w (Nat.le_of_succ_le hw))
  | refused i k =>
    obtain ⟨hws, honly⟩ := hkept
    exact ⟨hfresh, hws ▸ honly, honly.calm⟩
  | shaken i k w hws => exact ⟨hfresh, hkept⟩
  | closedByServer i k => exact ⟨hfresh, hkept.1⟩
  | rejected i k w hws =>
    refine ⟨fresh_beginClose hfresh w, ?_⟩
    change Only c (s.beginClose w).sock (s.beginClose w).ws
    rw [beginClose_ws]
    exact hkept.1.beginClose w
  | odd i k => exact ⟨hfresh, hkept⟩
  | closeRefused i k hclosed =>
    exact Inv.retry (s := { s with ws := none }) hfresh rfl (hkept.none_of_closed hclosed) i k
  | closeRejected hclosed =>
    have honly := hkept.none_of_closed hclosed
    exact ⟨hfresh, honly, honly.calm⟩
  | backoff i k => exact Inv.openAttempt hfresh hkept.1 hkept.2 _ _
  | healthy i k woken w hws =>
    exact Inv.finish (s := { s with gen := s.gen + 1, healthy := s.healthy ++ [w] }) hfresh hkept.1
      hkept.2 k
  | dies i k r => exact ⟨hfresh, rfl, hkept.1⟩
  | died i k => exact Inv.closeDead (s := s.letGo) hfresh rfl hkept.1 i k
  | stopDead r old i k => exact Inv.closeDead hfresh hkept.1 hkept.2 i k
  | closeDead w i k hclosed => exact Inv.retry hfresh hkept.1 (hkept.2.none_of_ite hclosed) i k
  | sent x w hws hopen => exact ⟨hfresh, hkept⟩
  | sendClosed x w hws hclosed =>
    have honly : Only c s.sock none := by
      refine hkept.1.empty ?_
      intro v hv
      obtain rfl : w = v := Option.some_inj.mp (hws.symm.trans hv)
      exact not_counts hclosed fun hc => hkept.2 hc w
    exact ⟨hfresh, honly, honly.calm⟩
  | stopOld r old => exact Inv.closeOld hfresh hkept.1 hkept.2
  | closeOld w hclosed => exact ⟨hfresh, hkept.1, hkept.2.none_of_ite hclosed⟩
  | pause => exact Inv.openAttempt hfresh hkept.1 hkept.2 _ _
  | waitsOld r old => exact h
  | waitsDead r old i k => exact h
  | cancel _ hold hdead =>
    obtain rfl : c = false := Bool.eq_false_iff.mpr fun hc => hok hc rfl
    refine ⟨hfresh, ?_, fun hc => nomatch hc⟩
    -- the WebSocket that is being closed does not count, so what the client has is all there is
    change Only false s.sock s.ws
    cases stage with
    | connecting i k => exact hkept.1 ▸ hkept.2
    | handshake i k => exact hkept.1
    | closeRefused i k => exact hkept
    | closeRejected => exact hkept
    | backoff i k => exact hkept.1 ▸ hkept.2
    | grace i k woken => exact hkept.1
    | stopDead r old i k => exact absurd rfl (hdead r old i k)
    | closeDead w i k => exact hkept.1 ▸ hkept.2
    | sending x => exact hkept.1
    | stopOld r old => exact absurd rfl (hold r old)
    | closeOld w => exact hkept.1 ▸ hkept.2
    | pause => exact hkept.1 ▸ hkept.2

end Calls

/-! ### The invariant of a step -/

section Steps

variable {c : Bool} {s t : State}

/-- The server may close a WebSocket at any await. -/
theorem Kept.closed {sock : ℕ → Option Sock} {ws : Option ℕ} {stage : Option Stage}
    (h : Kept c sock ws stage) (w : ℕ) : Kept c (Function.update sock w (some .closed)) ws stage := by
  cases stage with
  | none => exact ⟨h.1.closed w, h.2.closed w⟩
  | some stage =>
    cases stage with
    | handshake i k => exact ⟨h.1.closed w, h.2.closed w⟩
    | grace i k woken => exact ⟨h.1.closed w, h.2.closed w⟩
    | sending x => exact ⟨h.1.closed w, h.2.closed w⟩
    | closeRefused i k => exact Only.closed h w
    | closeRejected => exact Only.closed h w
    | connecting i k => exact ⟨h.1, h.2.closed w⟩
    | backoff i k => exact ⟨h.1, h.2.closed w⟩
    | stopDead r old i k => exact ⟨h.1, h.2.closed w⟩
    | closeDead v i k => exact ⟨h.1, h.2.closed w⟩
    | stopOld r old => exact ⟨h.1, h.2.closed w⟩
    | closeOld v => exact ⟨h.1, h.2.closed w⟩
    | pause => exact ⟨h.1, h.2.closed w⟩

theorem Kept.wake {sock : ℕ → Option Sock} {ws : Option ℕ} {stage : Option Stage}
    (h : Kept c sock ws stage) : Kept c sock ws (State.wake stage) := by
  unfold State.wake
  split
  · exact h
  · exact h

/-- A step keeps the invariant; while closing counts, no await is cancelled. -/
theorem Inv.step (h : Inv c s) {a : Action} (hok : c = true → a ≠ .holder .cancel)
    (ht : s.step a = some t) : Inv c t := by
  cases steps ht with
  | call call hfree => exact h.enter hfree call
  | closed _ w k hw =>
    refine ⟨fresh_update h.fresh ?_ _, h.kept.closed w⟩
    rw [hw]
    exact Option.some_ne_none k
  | readerEnd w => exact ⟨h.fresh, h.kept.wake⟩
  | clear => exact ⟨h.fresh, h.kept⟩
  | holder o stage t hstage ht =>
    refine h.proceed hstage ?_ ht
    rintro hc rfl
    exact hok hc rfl

theorem inv_start (c : Bool) : Inv c start :=
  ⟨fun _ _ => rfl, fun _ h => h.elim, fun _ _ h => nomatch h⟩

/-- At any await, the WebSockets that count are one. -/
theorem Inv.one (h : Inv c s) : ∃ o, Only c s.sock o := by
  have hkept := h.kept
  cases hstage : s.holder with
  | none => rw [hstage] at hkept; exact ⟨_, hkept.1⟩
  | some stage =>
    rw [hstage] at hkept
    cases stage with
    | handshake i k => exact ⟨_, hkept.1⟩
    | grace i k woken => exact ⟨_, hkept.1⟩
    | sending x => exact ⟨_, hkept.1⟩
    | closeRefused i k => exact ⟨_, hkept⟩
    | closeRejected => exact ⟨_, hkept⟩
    | connecting i k => exact ⟨_, hkept.2⟩
    | backoff i k => exact ⟨_, hkept.2⟩
    | stopDead r old i k => exact ⟨_, hkept.2⟩
    | closeDead v i k => exact ⟨_, hkept.2⟩
    | stopOld r old => exact ⟨_, hkept.2⟩
    | closeOld v => exact ⟨_, hkept.2⟩
    | pause => exact ⟨_, hkept.2⟩

end Steps

/-- **Never two WebSockets that the client has not begun to close**, however calls, the server,
the readers and cancellations interleave. -/
theorem one_open (as : List Action) {t : State} (hrun : machine.run as = some t) {v w : ℕ}
    (hv : t.sock v = some .open) (hw : t.sock w = some .open) : v = w := by
  have hinv : Inv false t :=
    machine.invariant_of_step (inv_start false)
      (fun s a s' h hs => h.step (fun hc => nomatch hc) hs) hrun
  obtain ⟨o, ho⟩ := hinv.one
  have hov : o = some v := ho v (by rw [hv]; trivial)
  have how : o = some w := ho w (by rw [hw]; trivial)
  exact Option.some_inj.mp (hov.symm.trans how)

theorem one_open_reconnectRun : ∃ t, machine.run reconnectRun = some t ∧
    t.sock 0 = some .closed ∧ t.sock 1 = some .open ∧ ∀ w, t.sock w = some .open → w = 1 :=
  ⟨_, rfl, rfl, rfl, fun _ hw => one_open reconnectRun rfl hw rfl⟩

/-- No call is cancelled. -/
def Uncancelled (_ : State) (a : Action) : Prop := a ≠ .holder .cancel

instance (s : State) (a : Action) : Decidable (Uncancelled s a) :=
  inferInstanceAs (Decidable (a ≠ _))

/-- **Without cancellation, a WebSocket is opened only when every other one is closed.** -/
theorem one_unclosed (as : List Action) {t : State} (hrun : machine.run as = some t)
    (hok : machine.Guarded Uncancelled start as) {v w : ℕ} {j k : Sock} (hv : t.sock v = some j)
    (hw : t.sock w = some k) (hj : j ≠ .closed) (hk : k ≠ .closed) : v = w := by
  have hinv : Inv true t :=
    machine.invariant_of_guarded Uncancelled (inv_start true)
      (fun s a s' h ha hs => h.step (fun _ => ha) hs) hok hrun
  obtain ⟨o, ho⟩ := hinv.one
  have hcounts : ∀ {x : ℕ} {l : Sock}, t.sock x = some l → l ≠ .closed → o = some x := by
    intro x l hx hl
    refine ho x ?_
    rw [hx]
    cases l with
    | «open» => trivial
    | closing => rfl
    | closed => exact absurd rfl hl
  exact Option.some_inj.mp ((hcounts hv hj).symm.trans (hcounts hw hk))

theorem one_unclosed_reconnectRun : ∃ t, machine.run reconnectRun = some t ∧
    t.sock 1 = some .open ∧ ∀ w k, t.sock w = some k → k ≠ .closed → w = 1 :=
  ⟨_, rfl, rfl, fun _ _ hw hk =>
    one_unclosed reconnectRun rfl (by decide) hw rfl hk (by decide)⟩

end OpenVoiceStream.SlvClient.Connection
