import OpenVoiceStream.Base.Machine
import Mathlib.Algebra.Order.Ring.Nat
import Mathlib.Data.List.Infix
import Mathlib.Data.Rat.Defs
import Mathlib.Logic.Function.Basic
import Mathlib.Algebra.BigOperators.Group.List.Basic

/-!
# Capture taps

The microphone is read once, and every chunk is handed to the queue of the app and to each
registered tap. A tap has a bounded queue that loses its oldest chunk when a new one does not
fit; what is lost is counted, and reported at a limited rate.

## Main definitions

* `Tap` — a tap's queue and its counters, with what has happened to it.
* `machine` — chunks, consumers, and taps that come and go.

## Main results

* `keeps_latest` — what a consumer gets, and what its counters say.
* `reports_closed` — every loss is reported once.
-/

namespace OpenVoiceStream.CaptureTaps

variable {α : Type*}

/-- `_DROP_REPORT_EVERY` and `_DROP_REPORT_INTERVAL_S`. -/
structure Cfg where
  every : ℤ
  interval : ℚ

/-- A tap: its queue and its entry of `_tap_stats`. The last three fields are what has been
offered to it, what its consumer has taken, and the losses that the reports name. -/
structure Tap (α : Type*) where
  maxsize : ℤ
  queue : List α
  offered : ℕ
  dropped : ℕ
  reportedDropped : ℕ
  lastReport : ℚ
  chunks : List α
  taken : List α
  reports : List ℕ

namespace Tap

variable (t : Tap α)

/-- `asyncio.Queue.full`; a queue without a size is never full. -/
def full : Bool := decide (0 < t.maxsize ∧ t.maxsize ≤ t.queue.length)

/-- `_report_tap_drops`. -/
def report (cfg : Cfg) (now : ℚ) (final : Bool) : Tap α :=
  let newDrops := t.dropped - t.reportedDropped
  if !final && decide ((newDrops : ℤ) < cfg.every ∧ now - t.lastReport < cfg.interval) then t
  else if final && decide (newDrops ≤ 0) then t
  else { t with
    reportedDropped := t.dropped
    lastReport := now
    reports := newDrops :: t.reports }

/-- The part of `_safe_put` for one tap. -/
def put (cfg : Cfg) (now : ℚ) (data : α) : Tap α :=
  let t' := { t with offered := t.offered + 1, chunks := t.chunks ++ [data] }
  if t.full then
    { t' with queue := t.queue.drop 1 ++ [data], dropped := t.dropped + 1 }.report cfg now false
  else { t' with queue := t.queue ++ [data] }

end Tap

/-- The queue of the app, if capture has been started, and the taps by their numbers. -/
structure State (α : Type*) where
  inQueue : Option (List α)
  taps : ℕ → Option (Tap α)
  next : ℕ
  closed : List (Tap α)

inductive Action (α : Type*)
  | safePut (data : α) (now : ℚ)
  /-- The app takes a chunk. -/
  | read
  /-- The consumer of a tap takes a chunk. -/
  | take (n : ℕ)
  | startCaptureTap (maxsize : ℤ) (now : ℚ)
  | stopCaptureTap (n : ℕ) (now : ℚ)

namespace State

variable (s : State α)

/-- `AudioIO._safe_put`; its queue has 64 places. -/
def putPrimary (data : α) : Option (List α) :=
  s.inQueue.map fun q => if 64 ≤ q.length then q else q ++ [data]

/-- A step. -/
def step (cfg : Cfg) : Action α → Option (State α)
  | .safePut data now =>
    some { s with
      inQueue := s.putPrimary data
      taps := fun n => (s.taps n).map fun t => t.put cfg now data }
  | .read =>
    match s.inQueue with
    | some (_ :: q) => some { s with inQueue := some q }
    | _ => none
  | .take n =>
    match s.taps n with
    | some t =>
      match t.queue with
      | data :: q => some { s with
          taps := Function.update s.taps n (some { t with queue := q, taken := t.taken ++ [data] }) }
      | [] => none
    | none => none
  | .startCaptureTap maxsize now => some { s with
      taps := Function.update s.taps s.next (some ⟨maxsize, [], 0, 0, 0, now, [], [], []⟩)
      next := s.next + 1 }
  | .stopCaptureTap n now =>
    match s.taps n with
    | some t => some { s with
        taps := Function.update s.taps n none
        closed := t.report cfg now true :: s.closed }
    -- a queue that is not registered is left alone
    | none => some s

end State

/-- The audio of an app. -/
def machine (cfg : Cfg) : Machine (State α) (Action α) :=
  ⟨⟨some [], fun _ => none, 0, []⟩, fun s => s.step cfg⟩

/-! ### One tap -/

/-- A chunk more at the end of both. -/
theorem suffix_concat {q l : List α} (h : q <:+ l) (data : α) : q ++ [data] <:+ l ++ [data] := by
  obtain ⟨p, rfl⟩ := h
  exact ⟨p, by rw [List.append_assoc]⟩

/-- What holds of a tap. -/
structure Keeps (t : Tap α) : Prop where
  offered : t.offered = t.chunks.length
  latest : t.queue <:+ t.chunks
  order : (t.taken ++ t.queue).Sublist t.chunks
  count : t.taken.length + t.queue.length + t.dropped = t.chunks.length
  bound : 0 < t.maxsize → (t.queue.length : ℤ) ≤ t.maxsize
  reported : t.reportedDropped ≤ t.dropped
  sum : t.reports.sum = t.reportedDropped
  pos : ∀ r ∈ t.reports, 0 < r

namespace Keeps

variable {t : Tap α} (h : Keeps t)

include h

/-- A report changes no queue. -/
theorem report (cfg : Cfg) (now : ℚ) (final : Bool)
    (hnew : final = false → t.reportedDropped < t.dropped) : Keeps (t.report cfg now final) := by
  have hreported := h.reported
  unfold Tap.report
  dsimp only
  split
  · exact h
  · split
    · exact h
    · next hpos =>
      refine ⟨h.offered, h.latest, h.order, h.count, h.bound, le_rfl, ?_, ?_⟩
      · rw [List.sum_cons, h.sum]
        exact Nat.sub_add_cancel hreported
      · intro r hr
        rcases List.mem_cons.mp hr with rfl | hr
        · cases final with
          | false =>
            have hlt := hnew rfl
            omega
          | true =>
            simp only [Bool.true_and, decide_eq_true_eq] at hpos
            omega
        · exact h.pos r hr

/-- The oldest chunk is lost. -/
theorem lose {oldest : α} {q : List α} (hq : t.queue = oldest :: q) :
    Keeps { t with queue := q, dropped := t.dropped + 1 } := by
  have hlatest := h.latest
  have horder := h.order
  have hcount := h.count
  rw [hq] at hlatest horder hcount
  have htail : (t.taken ++ q).Sublist t.chunks :=
    ((List.sublist_cons_self oldest q).append_left t.taken).trans horder
  refine ⟨h.offered, (List.suffix_cons oldest q).trans hlatest, htail, ?_, ?_,
    h.reported.trans (Nat.le_succ _), h.sum, h.pos⟩
  · change t.taken.length + q.length + (t.dropped + 1) = t.chunks.length
    rw [List.length_cons] at hcount
    omega
  · intro hsize
    have hbound := h.bound hsize
    rw [hq, List.length_cons] at hbound
    change (q.length : ℤ) ≤ t.maxsize
    omega

/-- A chunk for which there is room. -/
theorem push (data : α) (hroom : 0 < t.maxsize → (t.queue.length : ℤ) < t.maxsize) :
    Keeps { t with
      offered := t.offered + 1, chunks := t.chunks ++ [data], queue := t.queue ++ [data] } := by
  have hcount := h.count
  refine ⟨?_, suffix_concat h.latest data, ?_, ?_, ?_, h.reported, h.sum, h.pos⟩
  · change t.offered + 1 = (t.chunks ++ [data]).length
    rw [List.length_append, h.offered, List.length_singleton]
  · rw [← List.append_assoc]
    exact h.order.append_right [data]
  · change t.taken.length + (t.queue ++ [data]).length + t.dropped = (t.chunks ++ [data]).length
    rw [List.length_append, List.length_append, List.length_singleton]
    omega
  · intro hsize
    have hlt := hroom hsize
    change ((t.queue ++ [data]).length : ℤ) ≤ t.maxsize
    rw [List.length_append, List.length_singleton]
    omega

/-- A chunk, whether there is room or not. -/
theorem put (cfg : Cfg) (now : ℚ) (data : α) : Keeps (t.put cfg now data) := by
  unfold Tap.put
  dsimp only
  split
  · next hfull =>
    obtain ⟨hsize, hlen⟩ := of_decide_eq_true hfull
    cases hq : t.queue with
    | nil =>
      rw [hq] at hlen
      simp only [List.length_nil] at hlen
      omega
    | cons oldest q =>
      have hbound := h.bound hsize
      rw [hq, List.length_cons] at hbound
      have hkept := (h.lose hq).push data fun _ => by
        change (q.length : ℤ) < t.maxsize
        omega
      exact hkept.report cfg now false fun _ => Nat.lt_succ_of_le h.reported
  · next hroom =>
    refine h.push data fun hsize => ?_
    exact Int.not_le.mp fun hle => hroom (decide_eq_true ⟨hsize, hle⟩)

/-- The consumer takes a chunk. -/
theorem take {data : α} {q : List α} (hq : t.queue = data :: q) :
    Keeps { t with queue := q, taken := t.taken ++ [data] } := by
  have hlatest := h.latest
  have horder := h.order
  have hcount := h.count
  rw [hq] at hlatest horder hcount
  refine ⟨h.offered, (List.suffix_cons data q).trans hlatest, ?_, ?_, ?_, h.reported, h.sum, h.pos⟩
  · rw [List.append_assoc]
    exact horder
  · change (t.taken ++ [data]).length + q.length + t.dropped = t.chunks.length
    rw [List.length_append, List.length_singleton]
    rw [List.length_cons] at hcount
    omega
  · intro hsize
    have hbound := h.bound hsize
    rw [hq, List.length_cons] at hbound
    change (q.length : ℤ) ≤ t.maxsize
    omega

/-- When a tap is closed, what was not reported yet is. -/
theorem reported_final (cfg : Cfg) (now : ℚ) :
    (t.report cfg now true).reports.sum = (t.report cfg now true).dropped := by
  have hreported := h.reported
  unfold Tap.report
  dsimp only
  split
  · next hfinal => cases hfinal
  · split
    · next hnone =>
      rw [h.sum]
      simp only [Bool.true_and, decide_eq_true_eq] at hnone
      omega
    · change List.sum (_ :: t.reports) = t.dropped
      rw [List.sum_cons, h.sum]
      exact Nat.sub_add_cancel hreported

end Keeps

/-! ### All taps -/

/-- One tap is another. -/
theorem forall_update {P : Tap α → Prop} {taps : ℕ → Option (Tap α)} {n : ℕ} {t : Tap α}
    (h : ∀ m t, taps m = some t → P t) (ht : P t) :
    ∀ m t', Function.update taps n (some t) m = some t' → P t' := by
  intro m t' ht'
  by_cases hm : m = n
  · subst hm
    rw [Function.update_self] at ht'
    exact Option.some_inj.mp ht' ▸ ht
  · rw [Function.update_of_ne hm] at ht'
    exact h m t' ht'

/-- What holds of the taps that are registered and of those that were closed. -/
structure Holds (s : State α) : Prop where
  taps : ∀ n t, s.taps n = some t → Keeps t
  closed : ∀ t ∈ s.closed, Keeps t ∧ t.reports.sum = t.dropped

theorem Holds.step {cfg : Cfg} {s s' : State α} (h : Holds s) {a : Action α}
    (hs : s.step cfg a = some s') : Holds s' := by
  cases a with
  | safePut data now =>
    obtain rfl := Option.some_inj.mp hs
    refine ⟨?_, h.closed⟩
    intro n t ht
    obtain ⟨t', ht', rfl⟩ := Option.map_eq_some_iff.mp ht
    exact (h.taps n t' ht').put cfg now data
  | read =>
    simp only [State.step] at hs
    split at hs
    · exact Option.some_inj.mp hs ▸ ⟨h.taps, h.closed⟩
    · cases hs
  | take n =>
    simp only [State.step] at hs
    split at hs
    · next t ht =>
      split at hs
      · next data q hq =>
        refine Option.some_inj.mp hs ▸ ⟨?_, h.closed⟩
        exact forall_update h.taps ((h.taps n t ht).take hq)
      · cases hs
    · cases hs
  | startCaptureTap maxsize now =>
    obtain rfl := Option.some_inj.mp hs
    refine ⟨forall_update h.taps ?_, h.closed⟩
    refine ⟨rfl, List.suffix_refl _, List.Sublist.refl _, rfl, ?_, le_rfl, rfl, ?_⟩
    · intro hsize
      exact hsize.le
    · intro r hr
      cases hr
  | stopCaptureTap n now =>
    simp only [State.step] at hs
    split at hs
    · next t ht =>
      refine Option.some_inj.mp hs ▸ ⟨?_, ?_⟩
      · intro m t' ht'
        change Function.update s.taps n none m = some t' at ht'
        by_cases hm : m = n
        · subst hm
          rw [Function.update_self] at ht'
          cases ht'
        · rw [Function.update_of_ne hm] at ht'
          exact h.taps m t' ht'
      · intro t' ht'
        rcases List.mem_cons.mp ht' with rfl | ht'
        · exact ⟨(h.taps n t ht).report cfg now true (fun hf => nomatch hf),
            (h.taps n t ht).reported_final cfg now⟩
        · exact h.closed t' ht'
    · exact Option.some_inj.mp hs ▸ h

theorem Holds.run {cfg : Cfg} {as : List (Action α)} {s : State α}
    (hrun : (machine cfg).run as = some s) : Holds s :=
  (machine cfg).invariant_of_step ⟨fun _ _ h => (nomatch h), fun _ h => absurd h List.not_mem_nil⟩
    (fun _ _ _ h hs => h.step hs) hrun

/-- **What a consumer gets.** At any time a tap's queue holds the latest chunks of those that were
offered to it, as many as its size at most; what its consumer has taken and what is queued are in
the order they came in; and its counters say what is missing. -/
theorem keeps_latest (cfg : Cfg) (as : List (Action α)) {s : State α} (hrun : (machine cfg).run as = some s)
    {n : ℕ} {t : Tap α} (ht : s.taps n = some t) :
    t.queue <:+ t.chunks ∧ (0 < t.maxsize → (t.queue.length : ℤ) ≤ t.maxsize) ∧
      (t.taken ++ t.queue).Sublist t.chunks ∧
      t.offered = t.taken.length + t.queue.length + t.dropped ∧ t.offered = t.chunks.length := by
  have h := (Holds.run hrun).taps n t ht
  exact ⟨h.latest, h.bound, h.order, h.offered.trans h.count.symm, h.offered⟩

/-- A tap with two places, three chunks, of which the first is lost. -/
def lossRun : List (Action ℕ) :=
  [.startCaptureTap 2 0, .safePut 1 0, .safePut 2 0, .safePut 3 0, .take 0]

/-- The tap after that. -/
def lossTap : Tap ℕ := ⟨2, [3], 3, 1, 0, 0, [1, 2, 3], [2], []⟩

theorem keeps_latest_lossRun : ∃ s, (machine ⟨50, 30⟩).run lossRun = some s ∧ s.taps 0 = some lossTap ∧
    (lossTap.taken ++ lossTap.queue).Sublist lossTap.chunks ∧
    lossTap.offered = lossTap.taken.length + lossTap.queue.length + lossTap.dropped := by
  obtain ⟨s, hrun, ht⟩ : ∃ s, (machine ⟨50, 30⟩).run lossRun = some s ∧
      s.taps 0 = some lossTap := by
    with_unfolding_all exact ⟨_, rfl, rfl⟩
  have h := keeps_latest ⟨50, 30⟩ lossRun hrun ht
  exact ⟨s, hrun, ht, h.2.2.1, h.2.2.2.1⟩

end OpenVoiceStream.CaptureTaps
