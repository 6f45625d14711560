import OpenVoiceStream.V2v.Realtime.Adapter

/-!
# What a V2 client sees

A client follows the event stream with three facts: which response is open,
which items it has announced so far, and whether a direct speak was asked for
since the last response was created.  A stream is lawful if each event fits what
the client knows when it arrives.

## Main definitions

* `Client`, `Client.see` — what a client knows, event by event.
* `Client.Accepts`, `Client.Follows`, `Lawful` — the lifecycle.
-/

namespace OpenVoiceStream.V2v.Realtime

/-! ### What a client reads off an event -/

namespace Event

/-- The id and the direct-speak tag of a `response.created`. -/
def created : Event → Option (String × Bool)
  | .emitted _ (.responseCreated id directSpeak) => some (id, directSpeak)
  | _ => none

/-- The id of a `response.done`. -/
def done : Event → Option String
  | .emitted _ (.responseDone id _ _) => some id
  | _ => none

/-- The output index and the item id of a `response.output_item.added`. -/
def added : Event → Option (ℕ × Option String)
  | .emitted _ (.outputItemAdded _ outputIndex item) => some (outputIndex, item.id)
  | _ => none

/-- The field `response_id`, if the event has one. -/
def responseId : Event → Option Value
  | .emitted _ (.outputItemAdded id _ _) => some (.ofId id)
  | .emitted _ (.audioTranscriptDelta id _ _ _) => some (.ofId id)
  | .emitted _ (.audioTranscriptDone id _ _ _) => some (.str id)
  | .emitted _ (.audioDone id _ _) => some (.str id)
  | .emitted _ (.functionCallArgumentsDone id _ _ _ _ _ _) => some (.ofId id)
  | .emitted _ (.sentenceStarted id _) => some (.ofId id)
  | .emitted _ (.sentenceDone id _) => some (.ofId id)
  | .emitted _ _ => none
  | .passed fields => fields.lookup "response_id"

/-- The fields `item_id` and `output_index`, if the event has both. -/
def place : Event → Option (Value × Value)
  | .emitted _ (.audioTranscriptDelta _ item index _) => some (.ofId item, .int index)
  | .emitted _ (.audioTranscriptDone _ item index _) => some (.ofId item, .int index)
  | .emitted _ (.audioDone _ item index) => some (.ofId item, .int index)
  | .emitted _ (.functionCallArgumentsDone _ item index _ _ _ _) => some (.str item, .int index)
  | .emitted _ _ => none
  | .passed fields =>
    (fields.lookup "item_id").bind fun item =>
      (fields.lookup "output_index").map fun index => (item, index)

end Event

/-- What a client sees: an event, or its own `mark_direct_speak`. -/
inductive Entry
  | event (e : Event)
  | mark

/-- What a client knows. -/
structure Client where
  /-- The response that was created and is not done yet. -/
  openResponse : Option String := none
  /-- The items added in the response created last, in the order they came. -/
  items : List (Option String) := []
  /-- A direct speak was marked since a response was last created. -/
  marked : Bool := false

namespace Client

/-- What a client knows after one more entry. -/
def see (c : Client) : Entry → Client
  | .mark => { c with marked := true }
  | .event (.emitted _ (.responseCreated id _)) =>
    { openResponse := some id, items := [], marked := false }
  | .event (.emitted _ (.responseDone _ _ _)) => { c with openResponse := none }
  | .event (.emitted _ (.outputItemAdded _ _ item)) => { c with items := c.items ++ [item.id] }
  | .event _ => c

/-- The event fits what the client knows when it arrives. -/
structure Accepts (c : Client) (e : Event) : Prop where
  /-- A response is created while none is open. -/
  opens : ∀ id tag, e.created = some (id, tag) → c.openResponse = none
  /-- It is tagged if a direct speak was marked since the one created before it. -/
  tagged : ∀ id tag, e.created = some (id, tag) → tag = c.marked
  /-- The response that is done is the open one. -/
  closes : ∀ id, e.done = some id → c.openResponse = some id
  /-- An event with a `response_id` names the open response. -/
  within : ∀ v, e.responseId = some v → ∃ id, c.openResponse = some id ∧ v = .str id
  /-- The items of a response are numbered from 0 as they are added. -/
  numbered : ∀ index item, e.added = some (index, item) → index = c.items.length
  /-- An event for an item that was added has the index it was added with. -/
  placed : ∀ item v, e.place = some (item, v) →
    ∀ (k : ℕ) id, c.items[k]? = some id → item = .ofId id → v = .int k

/-- Each of the entries fits what the client knows when it arrives. -/
def Follows : Client → List Entry → Prop
  | _, [] => True
  | c, .mark :: log => (c.see .mark).Follows log
  | c, .event e :: log => c.Accepts e ∧ (c.see (.event e)).Follows log

/-- What the client knows after the entries. -/
def after (c : Client) (log : List Entry) : Client := log.foldl see c

@[simp] theorem follows_nil (c : Client) : c.Follows [] := trivial

@[simp] theorem follows_mark (c : Client) (log : List Entry) :
    c.Follows (.mark :: log) ↔ (c.see .mark).Follows log := Iff.rfl

@[simp] theorem follows_event (c : Client) (e : Event) (log : List Entry) :
    c.Follows (.event e :: log) ↔ c.Accepts e ∧ (c.see (.event e)).Follows log := Iff.rfl

@[simp] theorem after_nil (c : Client) : c.after [] = c := rfl

@[simp] theorem after_cons (c : Client) (e : Entry) (log : List Entry) :
    c.after (e :: log) = (c.see e).after log := rfl

theorem after_append (c : Client) (log more : List Entry) :
    c.after (log ++ more) = (c.after log).after more := List.foldl_append

/-- A stream is followed exactly if its first part is, and the rest from what the
client knows then. -/
theorem follows_append {c : Client} {log more : List Entry} :
    c.Follows (log ++ more) ↔ c.Follows log ∧ (c.after log).Follows more := by
  induction log generalizing c with
  | nil => simp
  | cons e log ih =>
    cases e with
    | mark => simp [ih]
    | event e => simp [ih, and_assoc]

end Client

/-- A stream is lawful if a client that knows nothing yet can follow it. -/
def Lawful (log : List Entry) : Prop := ({} : Client).Follows log

/-! ### Which events a client accepts -/

@[simp] theorem Value.ofId_eq_str {id : Option String} {s : String} :
    Value.ofId id = .str s ↔ id = some s := by
  cases id <;> simp [Value.ofId]

theorem Value.ofId_injective {i j : Option String} (h : Value.ofId i = Value.ofId j) : i = j := by
  cases i with
  | none => cases j <;> simp_all [Value.ofId]
  | some s => exact (Value.ofId_eq_str.mp h.symm).symm

namespace Client

variable {c : Client} {i id : String} {r item : Option String} {k : ℕ}

theorem accepts_created {tag : Bool} :
    c.Accepts (.emitted i (.responseCreated id tag)) ↔
      c.openResponse = none ∧ tag = c.marked := by
  constructor
  · intro h
    exact ⟨h.opens id tag rfl, h.tagged id tag rfl⟩
  · rintro ⟨hopen, htag⟩
    constructor <;> simp [Event.created, Event.done, Event.responseId, Event.added, Event.place,
      hopen, htag]

theorem accepts_done {status : Status} {details : Option (String × String)} :
    c.Accepts (.emitted i (.responseDone id status details)) ↔ c.openResponse = some id := by
  constructor
  · intro h
    exact h.closes id rfl
  · intro hopen
    constructor <;> simp [Event.created, Event.done, Event.responseId, Event.added, Event.place,
      hopen]

/-- An item is accepted in the open response under the next index. -/
theorem accepts_added {it : Item} (hopen : c.openResponse = r) (hr : r.isSome)
    (hk : k = c.items.length) : c.Accepts (.emitted i (.outputItemAdded r k it)) := by
  obtain ⟨id, rfl⟩ := Option.isSome_iff_exists.mp hr
  constructor <;> simp [Event.created, Event.done, Event.responseId, Event.added, Event.place,
    hopen, hk, Value.ofId]

/-- An event that carries the id of the open response names the open response. -/
theorem names_open (hopen : c.openResponse = r) (hsome : r.isSome) :
    ∀ v, some (Value.ofId r) = some v → ∃ id, c.openResponse = some id ∧ v = .str id := by
  obtain ⟨id, rfl⟩ := Option.isSome_iff_exists.mp hsome
  intro v hv
  exact ⟨id, hopen, (Option.some.inj hv).symm⟩

/-- An event with neither a place nor a lifecycle of its own is accepted if it
names no response, or the open one. -/
theorem accepts_of_unplaced {e : Event} (hcreated : e.created = none) (hdone : e.done = none)
    (hadded : e.added = none) (hplace : e.place = none)
    (hr : ∀ v, e.responseId = some v → ∃ id, c.openResponse = some id ∧ v = .str id) :
    c.Accepts e where
  opens := by simp [hcreated]
  tagged := by simp [hcreated]
  closes := by simp [hdone]
  within := hr
  numbered := by simp [hadded]
  placed := by simp [hplace]

/-- An event for an item is accepted in the open response if it has the index of
that item. -/
theorem accepts_of_placed {e : Event} (hcreated : e.created = none) (hdone : e.done = none)
    (hadded : e.added = none) (hplace : e.place = some (.ofId item, .int k))
    (hr : e.responseId = some (.ofId r)) (hopen : c.openResponse = r) (hsome : r.isSome)
    (hk : ∀ m, c.items[m]? = some item → m = k) : c.Accepts e where
  opens := by simp [hcreated]
  tagged := by simp [hcreated]
  closes := by simp [hdone]
  within := by
    rw [hr]
    exact names_open hopen hsome
  numbered := by simp [hadded]
  placed := by
    intro it v hplace' m id hm hit
    obtain ⟨rfl, rfl⟩ := Prod.mk.inj (Option.some.inj (hplace.symm.trans hplace'))
    rw [Value.ofId_injective hit] at hk
    rw [hk m hm]

end Client

end OpenVoiceStream.V2v.Realtime
