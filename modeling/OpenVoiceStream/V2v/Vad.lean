import Mathlib.Data.Nat.Notation
import Mathlib.Data.Int.Notation
import Mathlib.Order.Lattice
import Mathlib.Data.Int.Order.Basic
import Mathlib.Tactic.Set

/-!
# Voice activity events

A VAD session looks at fixed windows of the PCM stream and keeps one flag,
`_in_speech`.  It reports a transition whenever the flag flips, so the events of a
session alternate.  The dispatcher cuts each PCM block at the transitions.

## Main definitions

* `processEvents` — the transitions of one block, from the offsets at which the flag
  flips.
* `splitVadBlock` — `_split_vad_block`.
* `Alternates` — the events of the segments alternate between two states of the flag.

## Main results

* `flatten_splitVadBlock` — the segments of a block are the block: nothing is lost,
  repeated or reordered by the cut.
* `alternates_splitVadBlock` — the events of a block alternate.
-/

namespace OpenVoiceStream
namespace V2v

/-- The two transitions of a VAD session. -/
inductive VadEvent
  | speechStart
  | speechEnd
  deriving DecidableEq, Repr

/-- `process_events`: the flag flips at each of the offsets. -/
def processEvents : Bool → List ℤ → List (VadEvent × ℤ)
  | _, [] => []
  | false, offset :: rest => (.speechStart, offset) :: processEvents true rest
  | true, offset :: rest => (.speechEnd, offset) :: processEvents false rest

/-- `_in_speech` after a block with these flips. -/
def inSpeechAfter : Bool → List ℤ → Bool
  | inSpeech, [] => inSpeech
  | inSpeech, _ :: rest => inSpeechAfter (!inSpeech) rest

variable {α : Type}

/-- A piece of a PCM block with the transition at its end, if there is one. -/
structure Segment (α : Type) where
  samples : List α
  event : Option VadEvent
  deriving Repr

/-- The loop of `_split_vad_block`, from `cursor` on. -/
def splitFrom (samples : List α) (cursor : ℕ) : List (VadEvent × ℤ) → List (Segment α)
  | [] => if cursor < samples.length then [⟨samples.drop cursor, none⟩] else []
  | (event, rawOffset) :: rest =>
    let offset := min (max rawOffset cursor).toNat samples.length
    ⟨(samples.take offset).drop cursor, some event⟩ :: splitFrom samples offset rest

/-- `_split_vad_block`: one PCM block is split at ordered event offsets. -/
def splitVadBlock (samples : List α) (events : List (VadEvent × ℤ)) : List (Segment α) :=
  if events = [] then [⟨samples, none⟩] else splitFrom samples 0 events

theorem flatten_splitFrom (samples : List α) (events : List (VadEvent × ℤ)) :
    ∀ cursor ≤ samples.length,
      ((splitFrom samples cursor events).map Segment.samples).flatten = samples.drop cursor := by
  induction events with
  | nil =>
    intro cursor _
    unfold splitFrom
    split
    · simp
    · rename_i hlt
      simp [List.drop_eq_nil_of_le (not_lt.mp hlt)]
  | cons ev rest ih =>
    obtain ⟨event, rawOffset⟩ := ev
    intro cursor hcursor
    simp only [splitFrom, List.map_cons, List.flatten_cons]
    set offset := min (max rawOffset cursor).toNat samples.length
    have hle : offset ≤ samples.length := min_le_right _ _
    have hge : cursor ≤ offset := by omega
    have hrest : samples.drop offset = (samples.drop cursor).drop (offset - cursor) := by
      rw [List.drop_drop, Nat.add_sub_cancel' hge]
    rw [ih _ hle, List.drop_take, hrest, List.take_append_drop]

/-- **The segments of a block are the block.** -/
theorem flatten_splitVadBlock (samples : List α) (events : List (VadEvent × ℤ)) :
    ((splitVadBlock samples events).map Segment.samples).flatten = samples := by
  unfold splitVadBlock
  split
  · simp
  · simpa using flatten_splitFrom samples events 0 (Nat.zero_le _)

/-- The events of the segments alternate: they take the flag from the first state to the
last. -/
def Alternates : Bool → List (Segment α) → Bool → Prop
  | inSpeech, [], last => inSpeech = last
  | inSpeech, segment :: rest, last =>
    match segment.event with
    | none => Alternates inSpeech rest last
    | some .speechStart => inSpeech = false ∧ Alternates true rest last
    | some .speechEnd => inSpeech = true ∧ Alternates false rest last

theorem alternates_splitFrom (samples : List α) (flips : List ℤ) :
    ∀ inSpeech cursor, Alternates inSpeech
      (splitFrom samples cursor (processEvents inSpeech flips)) (inSpeechAfter inSpeech flips) := by
  induction flips with
  | nil =>
    intro inSpeech cursor
    cases inSpeech <;> unfold processEvents splitFrom <;> split <;> rfl
  | cons offset rest ih =>
    intro inSpeech cursor
    cases inSpeech
    · exact ⟨rfl, ih true _⟩
    · exact ⟨rfl, ih false _⟩

/-- **The events of a block alternate.** -/
theorem alternates_splitVadBlock (samples : List α) (inSpeech : Bool) (flips : List ℤ) :
    Alternates inSpeech (splitVadBlock samples (processEvents inSpeech flips))
      (inSpeechAfter inSpeech flips) := by
  unfold splitVadBlock
  split
  · rename_i hnil
    cases flips with
    | nil => rfl
    | cons offset rest => cases inSpeech <;> cases hnil
  · exact alternates_splitFrom samples flips inSpeech 0

end V2v
end OpenVoiceStream
