import Mathlib.Algebra.Order.Ring.Int
import Mathlib.Data.Int.Notation
import Mathlib.Logic.Function.Basic
import Mathlib.Algebra.BigOperators.Group.List.Basic
import Mathlib.Algebra.Order.BigOperators.Group.List
import Mathlib.Data.Int.Order.Basic

/-!
# The audio held back during a final

While a final is in flight the dispatcher keeps the incoming PCM in order: a tail of
what came after the last speech-end, and a queue of turns that have begun since.  A
turn is an object `_drain_pending_turn` goes on using after the queue has changed,
so turns live on a heap and the queue holds their addresses.

## Main definitions

* `PendingAudio` — `pending_turns`, `pending_tail` and their two counters.
* `clear`, `appendTail`, `newTurn`, `appendTurn`, `markEnd`, `popTurn` — the helpers of
  the handler.
* `Accounted` — the counters agree with what is held, within the limit.

## Main results

* `Accounted.appendTail`, `Accounted.newTurn`, `Accounted.appendTurn`,
  `Accounted.markEnd`, `Accounted.clear`, `Accounted.popTurn` — each helper keeps the
  accounts.
-/

namespace OpenVoiceStream
namespace V2v

/-- What set an endpoint marker. -/
inductive Reason
  | vad
  | clientEos
  deriving DecidableEq, Repr

variable {α : Type}

/-- A queued turn. -/
structure Turn (α : Type) where
  segments : List (List α)
  samples : ℤ
  started : Bool
  ended : Bool
  endpointReason : Option Reason
  deriving Repr

/-- The audio held back, with the heap of all turns there have been. -/
structure PendingAudio (α : Type) where
  /-- `pending_turns`, by address. -/
  turns : List ℕ
  turn : ℕ → Turn α
  /-- The next free address. -/
  fresh : ℕ
  turnSamples : ℤ
  tail : List (List α)
  tailSamples : ℤ
  draining : Bool

namespace PendingAudio

/-- A connection holds nothing back at first. -/
def start : PendingAudio α :=
  { turns := [], turn := fun _ => ⟨[], 0, false, false, none⟩, fresh := 0, turnSamples := 0,
    tail := [], tailSamples := 0, draining := false }

/-- An assignment to the turn at address `t`. -/
def modify (p : PendingAudio α) (t : ℕ) (f : Turn α → Turn α) : PendingAudio α :=
  { p with turn := Function.update p.turn t (f (p.turn t)) }

/-- `_pending_sample_count`. -/
def sampleCount (p : PendingAudio α) : ℤ := p.turnSamples + p.tailSamples

/-- `_pending_capacity_ok`. -/
def capacityOk (limit : ℤ) (p : PendingAudio α) (samples : List α) : Bool :=
  p.sampleCount + samples.length ≤ limit

/-- `_clear_pending_audio`. -/
def clear (p : PendingAudio α) : PendingAudio α :=
  { p with turns := [], tail := [], turnSamples := 0, tailSamples := 0, draining := false }

/-- `_append_pending_tail`. -/
def appendTail (limit : ℤ) (p : PendingAudio α) (samples : List α) : Option (PendingAudio α) :=
  if samples.length = 0 then some p
  else if p.capacityOk limit samples then
    some { p with tail := p.tail ++ [samples], tailSamples := p.tailSamples + samples.length }
  else none

/-- `_new_pending_turn`. -/
def newTurn (limit : ℤ) (p : PendingAudio α) (samples : List α) : Option (PendingAudio α) :=
  if limit < p.sampleCount + samples.length then none
  else
    let total := p.tailSamples + samples.length
    let segments := if samples.length = 0 then p.tail else p.tail ++ [samples]
    some { p with
      turns := p.turns ++ [p.fresh]
      turn := Function.update p.turn p.fresh ⟨segments, total, true, false, none⟩
      fresh := p.fresh + 1
      turnSamples := p.turnSamples + total
      tail := []
      tailSamples := 0 }

/-- `pending_turns[-1]`, if it has not ended. -/
def openTurn (p : PendingAudio α) : Option ℕ :=
  p.turns.getLast?.filter fun t => !(p.turn t).ended

/-- `_append_pending_turn`. -/
def appendTurn (limit : ℤ) (p : PendingAudio α) (samples : List α) : Option (PendingAudio α) :=
  if samples.length = 0 then some p
  else if p.capacityOk limit samples then
    p.openTurn.map fun t =>
      { p.modify t fun u =>
          { u with segments := u.segments ++ [samples], samples := u.samples + samples.length } with
        turnSamples := p.turnSamples + samples.length }
  else none

/-- `_mark_pending_end`. -/
def markEnd (p : PendingAudio α) : PendingAudio α :=
  match p.turns.getLast? with
  | none => p
  | some t =>
    if (p.turn t).started && !(p.turn t).ended then
      p.modify t fun u => { u with ended := true, endpointReason := some .vad }
    else p

/-- The tail goes to the preroll ring. -/
def dropTail (p : PendingAudio α) : PendingAudio α := { p with tail := [], tailSamples := 0 }

/-- The end of `_drain_pending_turn`: the first turn leaves the queue, and the size of
the turn `t` just fed is subtracted.  `pop(0)` raises on an empty queue. -/
def popTurn (p : PendingAudio α) (t : ℕ) : Option (PendingAudio α) :=
  match p.turns with
  | [] => none
  | _ :: rest =>
    some { p with turns := rest, turnSamples := p.turnSamples - (p.turn t).samples,
                  draining := false }

/-! ### What the helpers do to the queue -/

section Queue

variable {limit : ℤ} {p q : PendingAudio α} {samples : List α} {t : ℕ}

/-- Appending to the tail leaves the turns alone. -/
theorem appendTail_queue (h : p.appendTail limit samples = some q) :
    q.turns = p.turns ∧ q.turn = p.turn ∧ q.fresh = p.fresh ∧ q.draining = p.draining := by
  unfold appendTail at h
  repeat' split at h
  all_goals cases h <;> exact ⟨rfl, rfl, rfl, rfl⟩

/-- Appending to a turn keeps the queue, and nothing begins or ends. -/
theorem appendTurn_queue (h : p.appendTurn limit samples = some q) :
    q.turns = p.turns ∧ q.fresh = p.fresh ∧ q.draining = p.draining ∧
      ∀ u, (q.turn u).ended = (p.turn u).ended ∧ (q.turn u).started = (p.turn u).started := by
  unfold appendTurn at h
  repeat' split at h
  · cases h
    exact ⟨rfl, rfl, rfl, fun _ => ⟨rfl, rfl⟩⟩
  · obtain ⟨t, _, rfl⟩ := Option.map_eq_some_iff.mp h
    refine ⟨rfl, rfl, rfl, fun u => ?_⟩
    by_cases hut : u = t
    · subst hut
      simp [modify]
    · simp [modify, Function.update_of_ne hut]
  · cases h

/-- Marking the end keeps the queue. -/
theorem markEnd_queue (p : PendingAudio α) :
    p.markEnd.turns = p.turns ∧ p.markEnd.fresh = p.fresh ∧ p.markEnd.draining = p.draining := by
  unfold markEnd
  repeat' split
  all_goals exact ⟨rfl, rfl, rfl⟩

/-- A new turn joins the queue at its end, begun and not ended. -/
theorem newTurn_queue (h : p.newTurn limit samples = some q) :
    q.turns = p.turns ++ [p.fresh] ∧ q.fresh = p.fresh + 1 ∧ q.draining = p.draining ∧
      (q.turn p.fresh).started = true ∧ (q.turn p.fresh).ended = false ∧
      ∀ u, u ≠ p.fresh → q.turn u = p.turn u := by
  unfold newTurn at h
  split at h <;> cases h
  exact ⟨rfl, rfl, rfl, by simp, by simp, fun u hu => by simp [Function.update_of_ne hu]⟩

/-- Removing a turn keeps the heap. -/
theorem popTurn_queue (h : p.popTurn t = some q) :
    (∃ s, p.turns = s :: q.turns) ∧ q.turn = p.turn ∧ q.fresh = p.fresh ∧ q.draining = false := by
  unfold popTurn at h
  split at h
  · cases h
  · rename_i hturns
    cases h
    exact ⟨⟨_, hturns⟩, rfl, rfl, rfl⟩

/-- The turn that is being spoken takes the samples, and no other turn changes. -/
theorem appendTurn_open (h : p.appendTurn limit samples = some q) (hopen : p.openTurn = some t) :
    (q.turn t).segments.flatten = (p.turn t).segments.flatten ++ samples ∧
      ∀ u, u ≠ t → q.turn u = p.turn u := by
  unfold appendTurn at h
  repeat' split at h
  · rename_i hnil
    cases h
    exact ⟨by rw [List.length_eq_zero_iff.mp hnil, List.append_nil], fun _ _ => rfl⟩
  · obtain ⟨u, hu, rfl⟩ := Option.map_eq_some_iff.mp h
    obtain rfl : t = u := by rwa [hopen, Option.some_inj] at hu
    exact ⟨by simp [modify], fun u hut => by simp [modify, Function.update_of_ne hut]⟩
  · cases h

/-- A turn only grows at its end. -/
theorem appendTurn_extends (h : p.appendTurn limit samples = some q) (u : ℕ) :
    (p.turn u).segments <+: (q.turn u).segments := by
  unfold appendTurn at h
  repeat' split at h
  · cases h
    exact List.prefix_rfl
  · obtain ⟨t, _, rfl⟩ := Option.map_eq_some_iff.mp h
    by_cases hut : u = t
    · subst hut
      simp [modify]
    · simp [modify, Function.update_of_ne hut]
  · cases h

theorem markEnd_segments (p : PendingAudio α) (u : ℕ) :
    (p.markEnd.turn u).segments = (p.turn u).segments := by
  unfold markEnd
  split
  · rfl
  split
  · rename_i t _ _
    by_cases hut : u = t
    · subst hut
      simp [modify]
    · simp [modify, Function.update_of_ne hut]
  · rfl

/-- A new turn begins with the tail. -/
theorem newTurn_segments (h : p.newTurn limit samples = some q) :
    (q.turn p.fresh).segments.flatten = p.tail.flatten ++ samples := by
  unfold newTurn at h
  split at h <;> cases h
  simp only [Function.update_self]
  split
  · rename_i hnil
    rw [List.length_eq_zero_iff.mp hnil, List.append_nil]
  · simp

theorem popTurn_eq_none_iff : p.popTurn t = none ↔ p.turns = [] := by
  unfold popTurn
  split <;> simp_all

end Queue

/-! ### Accounts -/

/-- The number of samples in a list of segments. -/
def size (segments : List (List α)) : ℤ := (segments.flatten.length : ℤ)

@[simp] theorem size_append (xs ys : List (List α)) : size (xs ++ ys) = size xs + size ys := by
  simp [size]

@[simp] theorem size_singleton (xs : List α) : size [xs] = xs.length := by simp [size]

theorem size_nonneg (xs : List (List α)) : 0 ≤ size xs := Int.natCast_nonneg _

/-- The counters agree with what is held, and the limit is kept. -/
structure Accounted (limit : ℤ) (p : PendingAudio α) : Prop where
  turnSum : p.turnSamples = (p.turns.map fun t => (p.turn t).samples).sum
  turnSize : ∀ t ∈ p.turns, (p.turn t).samples = size (p.turn t).segments
  tailSize : p.tailSamples = size p.tail
  limit : p.turnSamples + p.tailSamples ≤ limit
  nodup : p.turns.Nodup
  fresh : ∀ t ∈ p.turns, t < p.fresh

variable {limit : ℤ} {p q : PendingAudio α} {samples : List α} {t : ℕ}

theorem accounted_start (h : 0 ≤ limit) : Accounted limit (start : PendingAudio α) :=
  ⟨rfl, by simp [start], rfl, by simpa [start] using h, by simp [start], by simp [start]⟩

/-- The turns hold no negative number of samples. -/
theorem Accounted.turnSamples_nonneg (hp : p.Accounted limit) : 0 ≤ p.turnSamples := by
  rw [hp.turnSum]
  refine List.sum_nonneg fun x hx => ?_
  obtain ⟨t, ht, rfl⟩ := List.mem_map.mp hx
  exact hp.turnSize t ht ▸ size_nonneg _

theorem Accounted.clear (hp : p.Accounted limit) : p.clear.Accounted limit := by
  have htail : 0 ≤ p.tailSamples := hp.tailSize ▸ size_nonneg _
  have hturn := hp.turnSamples_nonneg
  have := hp.limit
  exact ⟨rfl, by simp [PendingAudio.clear], rfl, by simp only [PendingAudio.clear]; omega,
    by simp [PendingAudio.clear], by simp [PendingAudio.clear]⟩

/-- Only the flag moves. -/
theorem Accounted.setDraining (hp : p.Accounted limit) (b : Bool) :
    Accounted limit { p with draining := b } :=
  ⟨hp.turnSum, hp.turnSize, hp.tailSize, hp.limit, hp.nodup, hp.fresh⟩

theorem Accounted.dropTail (hp : p.Accounted limit) : p.dropTail.Accounted limit := by
  have htail : 0 ≤ p.tailSamples := hp.tailSize ▸ size_nonneg _
  have := hp.limit
  exact ⟨hp.turnSum, hp.turnSize, rfl, by simp only [PendingAudio.dropTail]; omega, hp.nodup,
    hp.fresh⟩

theorem Accounted.appendTail (hp : p.Accounted limit) (h : p.appendTail limit samples = some q) :
    q.Accounted limit := by
  unfold PendingAudio.appendTail at h
  split at h
  · cases h
    exact hp
  split at h
  · cases h
    rename_i hcap
    have hle : p.turnSamples + p.tailSamples + samples.length ≤ limit := of_decide_eq_true hcap
    refine ⟨hp.turnSum, hp.turnSize, ?_, ?_, hp.nodup, hp.fresh⟩
    · simp [hp.tailSize]
    · simp only
      omega
  · cases h

/-- An update away from the queue leaves the queue's turns alone. -/
theorem map_samples_update {turns : List ℕ} {turn : ℕ → Turn α} {u : Turn α} (ht : t ∉ turns) :
    (turns.map fun s => (Function.update turn t u s).samples)
      = turns.map fun s => (turn s).samples := by
  refine List.map_congr_left fun s hs => ?_
  have hne : s ≠ t := fun h => ht (h ▸ hs)
  rw [Function.update_of_ne hne]

theorem Accounted.newTurn (hp : p.Accounted limit) (h : p.newTurn limit samples = some q) :
    q.Accounted limit := by
  unfold PendingAudio.newTurn at h
  split at h
  · cases h
  rename_i hcap
  simp only [sampleCount, not_lt] at hcap
  cases h
  have hout : p.fresh ∉ p.turns := fun hmem => lt_irrefl _ (hp.fresh _ hmem)
  refine ⟨?_, ?_, rfl, ?_, ?_, ?_⟩
  · simp only [List.map_append, List.sum_append, map_samples_update hout, ← hp.turnSum]
    simp
  · intro s hs
    rcases List.mem_append.mp hs with hs | hs
    · have hne : s ≠ p.fresh := fun h => hout (h ▸ hs)
      simpa [Function.update_of_ne hne] using hp.turnSize s hs
    · rw [List.mem_singleton.mp hs]
      simp only [Function.update_self, hp.tailSize]
      split
      · simp_all
      · simp
  · simp only
    omega
  · refine List.nodup_append.mpr ⟨hp.nodup, by simp, fun s hs u hu hsu => hout ?_⟩
    rwa [← List.mem_singleton.mp hu, ← hsu]
  · intro s hs
    rcases List.mem_append.mp hs with hs | hs
    · exact Nat.lt_succ_of_lt (hp.fresh s hs)
    · rw [List.mem_singleton.mp hs]
      exact Nat.lt_succ_self _

theorem mem_of_openTurn (h : p.openTurn = some t) : t ∈ p.turns :=
  List.mem_of_getLast? (Option.filter_eq_some_iff.mp h).1

/-- Growing one turn of a queue grows the sum of the queue. -/
theorem sum_samples_update {turns : List ℕ} {turn : ℕ → Turn α} {u : Turn α} {n : ℤ}
    (hnodup : turns.Nodup) (ht : t ∈ turns) (hu : u.samples = (turn t).samples + n) :
    (turns.map fun s => (Function.update turn t u s).samples).sum
      = (turns.map fun s => (turn s).samples).sum + n := by
  induction turns with
  | nil => cases ht
  | cons s rest ih =>
    rw [List.nodup_cons] at hnodup
    simp only [List.map_cons, List.sum_cons]
    by_cases hs : s = t
    · subst hs
      rw [map_samples_update hnodup.1, Function.update_self, hu]
      omega
    · have hrest : t ∈ rest := (List.mem_cons.mp ht).resolve_left fun h => hs h.symm
      rw [ih hnodup.2 hrest, Function.update_of_ne hs]
      omega

theorem Accounted.appendTurn (hp : p.Accounted limit) (h : p.appendTurn limit samples = some q) :
    q.Accounted limit := by
  unfold PendingAudio.appendTurn at h
  split at h
  · cases h
    exact hp
  split at h
  · rename_i hcap
    have hle : p.turnSamples + p.tailSamples + samples.length ≤ limit := of_decide_eq_true hcap
    obtain ⟨t, ht, rfl⟩ := Option.map_eq_some_iff.mp h
    have hmem := mem_of_openTurn ht
    refine ⟨?_, ?_, hp.tailSize, ?_, hp.nodup, hp.fresh⟩
    · exact hp.turnSum ▸ (sum_samples_update hp.nodup hmem rfl).symm
    · intro s hs
      by_cases hst : s = t
      · subst hst
        simp [modify, hp.turnSize s hs]
      · simpa [modify, Function.update_of_ne hst] using hp.turnSize s hs
    · simp only [modify]
      omega
  · cases h

theorem Accounted.markEnd (hp : p.Accounted limit) : p.markEnd.Accounted limit := by
  unfold PendingAudio.markEnd
  split
  · exact hp
  rename_i t _
  split
  · have hsame : ∀ s, ((p.modify t fun u =>
        { u with ended := true, endpointReason := some .vad }).turn s).samples
          = (p.turn s).samples := by
      intro s
      by_cases hst : s = t
      · subst hst
        simp [modify]
      · simp [modify, Function.update_of_ne hst]
    refine ⟨?_, ?_, hp.tailSize, hp.limit, hp.nodup, hp.fresh⟩
    · show p.turnSamples = _
      simp only [hsame]
      exact hp.turnSum
    · intro s hs
      by_cases hst : s = t
      · subst hst
        simpa [modify] using hp.turnSize s hs
      · simpa [modify, Function.update_of_ne hst] using hp.turnSize s hs
  · exact hp

/-- Popping the turn that was fed subtracts what it held. -/
theorem Accounted.popTurn (hp : p.Accounted limit) (hhead : p.turns.head? = some t)
    (h : p.popTurn t = some q) : q.Accounted limit := by
  unfold PendingAudio.popTurn at h
  split at h
  · cases h
  rename_i s rest hturns
  rw [hturns, List.head?_cons, Option.some_inj] at hhead
  subst hhead
  cases h
  have hsum := hp.turnSum
  have hnodup := hp.nodup
  rw [hturns] at hsum hnodup
  simp only [List.map_cons, List.sum_cons] at hsum
  have hsize := hp.turnSize s (by simp [hturns])
  have hnonneg := size_nonneg (p.turn s).segments
  have hlimit := hp.limit
  refine ⟨?_, ?_, hp.tailSize, ?_, (List.nodup_cons.mp hnodup).2, ?_⟩
  · simp only
    omega
  · exact fun u hu => hp.turnSize u (by simp [hturns, hu])
  · simp only
    omega
  · exact fun u hu => hp.fresh u (by simp [hturns, hu])

end PendingAudio
end V2v
end OpenVoiceStream
