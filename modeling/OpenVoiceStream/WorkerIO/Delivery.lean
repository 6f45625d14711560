import OpenVoiceStream.WorkerIO.Stages

/-!
# Delivery and exit

The reader thread looks a line's id up under `_inflight_lock` and fills the queue
after it has let go of the lock; `close()` empties `_inflight` under the lock and
wakes the queues afterwards.  Here these are steps of their own, and a history is
kept: what the reader has read for a request since it was registered, what the
request has been given, and how registered requests have ended.

The sweep at the end of the reader thread wakes the requests that are registered
at that moment, and leaves no flag behind.  A request that is registered after
it, in a `WorkerIO` that nobody has closed, writes to a worker that is gone and
then waits for an event that nobody will send.

## Main definitions

* `Io`, `Io.step`, `ioMachine` — the multiplexer with the reader thread and `close()`.
* `View` — all there is to say about the events of one request.
* `Io.Delivers` — delivery in order, nothing written after `close()`, and nobody
  left behind.
* `Io.Ok` — the steps that keep to it.

## Main results

* `delivers_of_guarded` — if all steps of a run are of that kind, every request is
  served or told.
-/

namespace OpenVoiceStream
namespace WorkerIO

/-- The reader thread. -/
inductive Reader (ι : Type)
  /-- Reading the worker's stdout. -/
  | idle
  /-- It has looked up the queue of a request and not filled it yet. -/
  | holding (i : ι) (event : Event)
  /-- Stdout has ended, or the loop has raised: the sweep is over. -/
  | ended

/-- How a registered request ends. -/
inductive Ending
  /-- `WorkerExitError`. -/
  | workerExit
  /-- After `done` or `cancelled`. -/
  | terminal
  /-- Closed or cancelled by its consumer. -/
  | byConsumer
  /-- The exception of the stdin write. -/
  | writeError
  /-- `TimeoutError`, or `queue.Empty` of the blocking form. -/
  | timeout
  deriving DecidableEq, Repr

variable {ι ρ : Type} [DecidableEq ι] [DecidableEq ρ]

/-- The multiplexer with its threads and its history. -/
structure Io (ι ρ : Type) where
  io : State ι ρ
  reader : Reader ι
  /-- A `close()` has emptied `_inflight`. -/
  drained : Bool
  /-- The sentinels that `close()` calls have still to put. -/
  owed : ι → ℕ
  /-- The request has been registered. -/
  reg : ι → Bool
  /-- What the reader has read for a request since it was registered. -/
  since : ι → List Event
  /-- What a request has been given. -/
  got : ι → List Event
  /-- The lines written while the flag was set. -/
  late : List (ι × Line)
  /-- How registered requests have ended that nobody was about to wake, after the
  reader has ended or `_inflight` was emptied. -/
  ends : List (ι × Ending)

/-- A new multiplexer. -/
def Io.start (cfg : Cfg) : Io ι ρ :=
  { io := State.start cfg, reader := .idle, drained := false, owed := fun _ => 0,
    reg := fun _ => false, since := fun _ => [], got := fun _ => [], late := [], ends := [] }

/-- `q.get` raises `queue.Empty` for an empty queue only. -/
def allowed (r : Req) : Move.Kind → Bool
  | .getFails => decide (r.pc = .getting true) || r.queue.isEmpty
  | .readFails => r.queue.isEmpty
  | _ => true

/-- What a registered request ends with, by the move that ends it. -/
def endingOf (closed : Bool) (r : Req) : Move.Kind → Ending
  | .advance _ => if closed then .workerExit else .writeError
  | .advanceSync _ => if closed then .workerExit else .writeError
  | .getEvent => .workerExit
  | .readEvent => .workerExit
  | .getFails => if r.pc = .getting true then .byConsumer else .timeout
  | .readFails => .timeout
  | .next => .terminal
  | .nextSync => .terminal
  | _ => .byConsumer

/-- The reader thread has ended. -/
def Reader.isEnded : Reader ι → Bool
  | .ended => true
  | .idle => false
  | .holding _ _ => false

/-- The reader has ended, or `close()` has emptied `_inflight`. -/
def Io.down (s : Io ι ρ) : Bool := s.reader.isEnded || s.drained

/-- The request is in `_inflight`. -/
def Io.registered (rid : ι → ρ) (s : Io ι ρ) (i : ι) : Bool :=
  decide (s.io.inflight (rid i) = some i)

/-- A registered request ends with this move. -/
def endsNow (r : Req) (m : Move) : Bool :=
  decide (m.req.pc.stage = .over) && !decide (r.pc.stage = .over) && !decide (r.pc.stage = .before)

/-- A move of a request takes effect. -/
def Io.apply (rid : ι → ρ) (s : Io ι ρ) (i : ι) (kind : Move.Kind) (m : Move) : Io ι ρ :=
  { s with
    io := s.io.apply rid i m
    reg := if m.inflight = .insert then Function.update s.reg i true else s.reg
    got :=
      match (s.io.req i).pc.stage, m.req.pc.stage with
      | .waiting, .given event => Function.update s.got i (s.got i ++ [event])
      | _, _ => s.got
    late := if s.io.closed then m.stdin.toList.map (fun l => (i, l)) ++ s.late else s.late
    ends :=
      if endsNow (s.io.req i) m && s.down && decide (s.owed i = 0) then
        (i, endingOf s.io.closed (s.io.req i) kind) :: s.ends
      else s.ends }

/-- The threads' actions. -/
inductive IoAct (ι ρ : Type)
  /-- A move of one request. -/
  | move (i : ι) (kind : Move.Kind)
  /-- `close()`, the section under `_stdin_lock`. -/
  | close
  /-- `close()`, the section under `_inflight_lock`. -/
  | closeDrain
  /-- `close()`, one of its puts. -/
  | wake (i : ι)
  /-- The reader thread reads a line and looks its id up. -/
  | read (rid : ρ) (event : Event)
  /-- The reader thread fills the queue it has looked up. -/
  | put
  /-- The reader thread ends: stdout has ended, or a line was no JSON object. -/
  | eof

/-- One step.  `truthy` is Python's truth value of an id: a line whose id is falsy is
dropped. -/
def Io.step (cfg : Cfg) (rid : ι → ρ) (truthy : ρ → Bool) (s : Io ι ρ) :
    IoAct ι ρ → Option (Io ι ρ)
  | .move i kind =>
    if allowed (s.io.req i) kind then
      (agentStep cfg s.io.closed s.io.sem (s.io.req i) kind).map (s.apply rid i kind)
    else none
  | .close => some { s with io := { s.io with closed := true } }
  | .closeDrain =>
    if s.io.closed then
      some { s with
        io := { s.io with inflight := fun _ => none }
        drained := true
        owed := fun i => if s.registered rid i then s.owed i + 1 else s.owed i }
    else none
  | .wake i =>
    if 0 < s.owed i then
      some { s with
        io := s.io.put i .workerExit
        owed := Function.update s.owed i (s.owed i - 1) }
    else none
  | .read id event =>
    match s.reader with
    | .idle => some { s with
        reader :=
          match (if truthy id then s.io.inflight id else none) with
          | some i => .holding i event
          | none => .idle
        since := fun i =>
          if s.reg i && decide (rid i = id) then s.since i ++ [event] else s.since i }
    | _ => none
  | .put =>
    match s.reader with
    | .holding i event => some { s with io := s.io.put i event, reader := .idle }
    | _ => none
  | .eof =>
    match s.reader with
    | .idle => some { s with io := s.io.wakeAll rid, reader := .ended }
    | _ => none

/-- The multiplexer with its threads as a machine. -/
def ioMachine (cfg : Cfg) (rid : ι → ρ) (truthy : ρ → Bool) : Machine (Io ι ρ) (IoAct ι ρ) where
  init := Io.start cfg
  step := Io.step cfg rid truthy

/-! ### What is to hold -/

/-- The events a consumer can be given. -/
def real (events : List Event) : List Event := events.filter (· ≠ .workerExit)

/-- The event the reader thread holds for a request. -/
def Reader.hand (i : ι) : Reader ι → List Event
  | .holding j event => if j = i then [event] else []
  | .idle => []
  | .ended => []

/-- The request waits for an event, or is about to. -/
def Stage.waits : Stage → Bool
  | .waiting => true
  | .given event => !event.terminal
  | .before | .enrolled | .over => false

/-- Requests are served in order, or told that the worker is gone. -/
structure Io.Delivers (rid : ι → ρ) (s : Io ι ρ) : Prop where
  /-- A request is given what was read for it, in that order and from the first on. -/
  inOrder : ∀ i, s.got i <+: real (s.since i)
  /-- While it is registered, what was read and not given is in its queue or on its way
  there. -/
  complete : ∀ i, s.io.inflight (rid i) = some i →
    s.got i ++ real ((s.io.req i).queue ++ s.reader.hand i) = real (s.since i)
  /-- It is given nothing after a terminal event. -/
  untilTerminal : ∀ i, ∀ event ∈ (s.got i).dropLast, event.terminal = false
  /-- No payload is written once the flag is set. -/
  quiet : ∀ l ∈ s.late, l.2 ≠ .payload
  /-- Who waits after the end has its last event in the queue, or `close()` is about to
  put it there. -/
  woken : ∀ i, s.down → (s.io.req i).pc.stage.waits →
    (∃ event ∈ (s.io.req i).queue, event = .workerExit ∨ event.terminal) ∨ 0 < s.owed i
  /-- Who ends after the end does so with `WorkerExitError`, its last event, or at the will
  of its consumer. -/
  told : ∀ e ∈ s.ends, e.2 = .workerExit ∨ e.2 = .terminal ∨ e.2 = .byConsumer

/-- The outcome of the stdin write of a payload, for the moves that attempt it. -/
def writeFails (r : Req) : Move.Kind → Option Bool
  | .advance fail => if r.pc = .registered then some fail else none
  | .advanceSync fail => if r.pc = .inserted then some fail else none
  | _ => none

/-- The steps that keep to it: after the reader has ended, with the flag not set, no
payload is attempted but by a request that the sweep has woken, and then the write does
not raise; and no event comes for a registered falsy id. -/
def Io.Ok (rid : ι → ρ) (truthy : ρ → Bool) (s : Io ι ρ) : IoAct ι ρ → Prop
  | .move i kind => ∀ fail ∈ writeFails (s.io.req i) kind,
      s.io.closed = true ∨ s.reader.isEnded = false ∨ s.registered rid i = false ∧ fail = false
  | .read id _ => truthy id = true ∨ s.io.inflight id = none
  | _ => True

/-! ### One request -/

/-- All there is to say about the events of one request. -/
structure View where
  reg : Bool
  registered : Bool
  stage : Stage
  queue : List Event
  hand : List Event
  since : List Event
  got : List Event
  owed : ℕ

/-- The view of a request. -/
def Io.view (rid : ι → ρ) (s : Io ι ρ) (i : ι) : View :=
  { reg := s.reg i, registered := s.registered rid i, stage := (s.io.req i).pc.stage,
    queue := (s.io.req i).queue, hand := s.reader.hand i, since := s.since i, got := s.got i,
    owed := s.owed i }

/-- The invariant of one request. -/
structure View.Inv (down : Bool) (v : View) : Prop where
  before : v.stage = .before → v.reg = false
  unknown : v.reg = false →
    v.registered = false ∧ v.owed = 0 ∧ v.queue = [] ∧ v.hand = [] ∧ v.since = [] ∧ v.got = []
  /-- Nothing is lost between the reader and the consumer, and nothing overtakes. -/
  flow : v.got ++ real (v.queue ++ v.hand) <+: real v.since
  complete : v.registered = true → v.got ++ real (v.queue ++ v.hand) = real v.since
  /-- Who has been taken out of `_inflight` on the way has been woken, or will be. -/
  woken : v.stage ≠ .before → v.stage ≠ .over →
    v.registered = true ∨ .workerExit ∈ v.queue ∨ 0 < v.owed
  /-- Who waits and is registered does so while there is a reader. -/
  served : v.stage ≠ .before → v.stage ≠ .enrolled → v.stage ≠ .over → v.registered = true →
    down = false
  given : ∀ event, v.stage = .given event → v.got.getLast? = some event
  untilTerminal : ∀ event ∈ v.got.dropLast, event.terminal = false
  running : v.stage = .before ∨ v.stage = .enrolled ∨ v.stage = .waiting →
    ∀ event ∈ v.got, event.terminal = false

section View

variable {v : View} {down closed : Bool} {r : Req} {m : Move}

@[simp] theorem real_nil : real [] = [] := rfl

theorem real_append (l l' : List Event) : real (l ++ l') = real l ++ real l' :=
  List.filter_append _ _

theorem real_cons_of_ne {event : Event} (h : event ≠ .workerExit) (l : List Event) :
    real (event :: l) = event :: real l :=
  List.filter_cons_of_pos (by simpa using h)

theorem real_cons_workerExit (l : List Event) : real (.workerExit :: l) = real l :=
  List.filter_cons_of_neg (by simp)

theorem real_insert_workerExit (l l' : List Event) :
    real (l ++ [.workerExit] ++ l') = real (l ++ l') := by
  rw [real_append, real_append, real_append, real_cons_workerExit, real_nil, List.append_nil]

/-- The view after a move of the request. -/
def View.move (v : View) (m : Move) : View :=
  { v with
    reg := decide (m.inflight = .insert) || v.reg
    registered :=
      match m.inflight with
      | .keep => v.registered
      | .insert => true
      | .pop => false
    stage := m.req.pc.stage
    queue := m.req.queue
    got :=
      match v.stage, m.req.pc.stage with
      | .waiting, .given event => v.got ++ [event]
      | _, _ => v.got }

/-- A request on its way out is told nothing more. -/
theorem View.Inv.leave (hv : v.Inv down) : ({ v with stage := .over } : View).Inv down where
  before := by intro h; cases h
  unknown := hv.unknown
  flow := hv.flow
  complete := hv.complete
  woken := by intro _ h; exact absurd rfl h
  served := by intro _ _ h; exact absurd rfl h
  given := by intro event h; cases h
  untilTerminal := hv.untilTerminal
  running := by rintro (h | h | h) <;> cases h

/-- The same once it is no longer registered. -/
theorem View.Inv.drop (hv : v.Inv down) :
    ({ v with stage := .over, registered := false } : View).Inv down where
  before := by intro h; cases h
  unknown := fun h => ⟨rfl, (hv.unknown h).2⟩
  flow := hv.flow
  complete := by intro h; cases h
  woken := by intro _ h; exact absurd rfl h
  served := by intro _ _ h; exact absurd rfl h
  given := by intro event h; cases h
  untilTerminal := hv.untilTerminal
  running := by rintro (h | h | h) <;> cases h

/-- A move that leaves and may unregister. -/
theorem View.Inv.move_over (hv : v.Inv down) (hto : m.req.pc.stage = .over)
    (hqueue : m.req.queue = v.queue) (hin : m.inflight ≠ .insert) : (v.move m).Inv down := by
  have hgot : (v.move m).got = v.got := by
    simp only [View.move, hto]
    cases v.stage <;> rfl
  cases hop : m.inflight with
  | insert => exact absurd hop hin
  | keep =>
    have : v.move m = { v with stage := .over } := by
      rw [View.move] at hgot ⊢
      simp only [hop, hto, hqueue] at hgot ⊢
      simp
    rw [this]
    exact hv.leave
  | pop =>
    have : v.move m = { v with stage := .over, registered := false } := by
      rw [View.move] at hgot ⊢
      simp only [hop, hto, hqueue] at hgot ⊢
      simp
    rw [this]
    exact hv.drop

/-- The request is put into `_inflight`: nothing has been read for it, and the reader
thread does not hold its queue. -/
theorem View.Inv.enrol (hv : v.Inv down) (hstage : v.stage = .before) :
    ({ v with reg := true, registered := true, stage := .enrolled, queue := [] } : View).Inv
      down := by
  obtain ⟨-, -, -, hhand, hsince, hgot⟩ := hv.unknown (hv.before hstage)
  constructor
  · intro h
    cases h
  · intro h
    cases h
  · simp [hhand, hsince, hgot]
  · intro _
    simp [hhand, hsince, hgot]
  · intro _ _
    exact .inl rfl
  · intro _ h
    exact absurd rfl h
  · intro event h
    cases h
  · exact hv.untilTerminal
  · intro _
    simp [hgot]

/-- The request waits for its next event. -/
theorem View.Inv.wait (hv : v.Inv down) (hbefore : v.stage ≠ .before) (hover : v.stage ≠ .over)
    (hserved : v.registered = true → down = false)
    (hgot : ∀ event ∈ v.got, event.terminal = false) :
    ({ v with stage := .waiting } : View).Inv down := by
  constructor
  · intro h
    cases h
  · exact hv.unknown
  · exact hv.flow
  · exact hv.complete
  · intro _ _
    exact hv.woken hbefore hover
  · intro _ _ _
    exact hserved
  · intro event h
    cases h
  · exact hv.untilTerminal
  · intro _
    exact hgot

/-- A waiting request takes an event of the worker out of its queue. -/
theorem View.Inv.receive (hv : v.Inv down) (hstage : v.stage = .waiting) {event : Event}
    (hevent : event ≠ .workerExit) {queue : List Event} (hpop : v.queue = event :: queue) :
    ({ v with stage := .given event, queue := queue, got := v.got ++ [event] } : View).Inv
      down := by
  -- the event goes from the head of what is under way to the end of what was given
  have hreal : v.got ++ [event] ++ real (queue ++ v.hand) =
      v.got ++ real (v.queue ++ v.hand) := by
    rw [hpop, List.cons_append, real_cons_of_ne hevent, List.append_assoc]
    rfl
  have hrunning := hv.running (.inr (.inr hstage))
  constructor
  · intro h
    cases h
  · intro h
    have := (hv.unknown h).2.2.1
    rw [hpop] at this
    cases this
  · exact hreal ▸ hv.flow
  · intro h
    exact hreal.trans (hv.complete h)
  · intro _ _
    have hwoken := hv.woken (by simp [hstage]) (by simp [hstage])
    rw [hpop, List.mem_cons] at hwoken
    have hne : Event.workerExit ≠ event := fun h => hevent h.symm
    simpa [hne] using hwoken
  · intro _ _ _
    exact hv.served (by simp [hstage]) (by simp [hstage]) (by simp [hstage])
  · rintro event' h
    obtain rfl := Stage.given.inj h
    simp
  · simpa using hrunning
  · rintro (h | h | h) <;> cases h

/-- A waiting request is woken by the end of the worker. -/
theorem View.Inv.wake (hv : v.Inv down) {queue : List Event}
    (hpop : v.queue = .workerExit :: queue) :
    ({ v with stage := .over, queue := queue } : View).Inv down := by
  have hreal : real (queue ++ v.hand) = real (v.queue ++ v.hand) := by
    rw [hpop, List.cons_append, real_cons_workerExit]
  constructor
  · intro h
    cases h
  · intro h
    have := (hv.unknown h).2.2.1
    rw [hpop] at this
    cases this
  · exact hreal ▸ hv.flow
  · exact hreal ▸ hv.complete
  · intro _ h
    exact absurd rfl h
  · intro _ _ h
    exact absurd rfl h
  · intro event h
    cases h
  · exact hv.untilTerminal
  · rintro (h | h | h) <;> cases h

/-- An event that is passed on with the next one still to come was not the last. -/
theorem View.Inv.got_of_given (hv : v.Inv down) {event : Event} (hstage : v.stage = .given event)
    (hevent : event.terminal = false) : ∀ event ∈ v.got, event.terminal = false := by
  intro event' hmem
  have hlast := hv.given event hstage
  rw [← List.dropLast_append_getLast? event hlast, List.mem_append, List.mem_singleton] at hmem
  rcases hmem with hmem | rfl
  · exact hv.untilTerminal event' hmem
  · exact hevent

/-- **A move of the request.**  Only the write asks for a reader. -/
theorem View.Inv.move (hshift : Shift closed r m) (hv : v.Inv down) (hstage : v.stage = r.pc.stage)
    (hqueue : v.queue = r.queue)
    (hwrite : m.stdin = some .payload → v.registered = true → down = false) :
    (v.move m).Inv down := by
  cases hshift with
  | stay hto hq hin hout =>
    have : v.move m = v := by
      rw [View.move, hin, hto, hq, ← hstage, ← hqueue]
      cases v with
      | mk _ _ stage => cases stage <;> rfl
    rw [this]
    exact hv
  | refuse hfrom hto hq hin hout => exact hv.move_over hto (hq.trans hqueue.symm) (by simp [hin])
  | refuseWrite hfrom hto hq hin hout => exact hv.move_over hto (hq.trans hqueue.symm) hin
  | giveUp hfrom hto hq hin hout => exact hv.move_over hto (hq.trans hqueue.symm) (by simp [hin])
  | finish event hfrom hto hq hin hout =>
    exact hv.move_over hto (hq.trans hqueue.symm) (by simp [hin])
  | unwind hfrom hto hq hin hout => exact hv.move_over hto (hq.trans hqueue.symm) hin
  | enrol hfrom hto hq hin hout =>
    have hmove : v.move m =
        { v with reg := true, registered := true, stage := .enrolled, queue := [] } := by
      rw [View.move, hin, hto, hq, hstage, hfrom]
      rfl
    rw [hmove]
    exact hv.enrol (hstage.trans hfrom)
  | write hfrom hto hopen hq hin hout =>
    have hmove : v.move m = { v with stage := .waiting } := by
      rw [View.move, hin, hto, hq, ← hqueue, hstage, hfrom]
      rfl
    rw [hmove]
    exact hv.wait (by simp [hstage, hfrom]) (by simp [hstage, hfrom]) (hwrite hout)
      (hv.running (.inr (.inl (hstage.trans hfrom))))
  | receive event hfrom hto hevent hq hin hout =>
    have hmove : v.move m =
        { v with stage := .given event, queue := m.req.queue, got := v.got ++ [event] } := by
      rw [View.move, hin, hto, hstage, hfrom]
      rfl
    rw [hmove]
    exact hv.receive (hstage.trans hfrom) hevent (hqueue.trans hq)
  | wake hfrom hto hq hin hout =>
    have hmove : v.move m = { v with stage := .over, queue := m.req.queue } := by
      rw [View.move, hin, hto, hstage, hfrom]
      rfl
    rw [hmove]
    exact hv.wake (hqueue.trans hq)
  | next event hfrom hto hevent hq hin hout =>
    have hmove : v.move m = { v with stage := .waiting } := by
      rw [View.move, hin, hto, hq, ← hqueue, hstage, hfrom]
      rfl
    rw [hmove]
    exact hv.wait (by simp [hstage, hfrom]) (by simp [hstage, hfrom])
      (hv.served (by simp [hstage, hfrom]) (by simp [hstage, hfrom]) (by simp [hstage, hfrom]))
      (hv.got_of_given (hstage.trans hfrom) hevent)

/-- The reader thread reads a line with the id of the request. -/
theorem View.Inv.read (hv : v.Inv down) (event : Event) (hhand : v.hand = []) (hreg : v.reg = true) :
    ({ v with
        hand := if v.registered then [event] else []
        since := v.since ++ [event] } : View).Inv down where
  before := by
    intro h
    have := hv.before h
    rw [hreg] at this
    cases this
  unknown := by
    intro h
    rw [hreg] at h
    cases h
  flow := by
    cases hregistered : v.registered with
    | true =>
      have hall := hv.complete hregistered
      rw [hhand, List.append_nil] at hall
      simp only [if_true]
      rw [real_append, real_append, ← List.append_assoc, hall]
    | false =>
      have hflow := hv.flow
      rw [hhand] at hflow
      simp only [Bool.false_eq_true, if_false]
      rw [real_append v.since]
      exact hflow.trans (List.prefix_append _ _)
  complete := by
    intro (hregistered : v.registered = true)
    have hall := hv.complete hregistered
    rw [hhand, List.append_nil] at hall
    simp only [hregistered, if_true]
    rw [real_append, real_append, ← List.append_assoc, hall]
  woken := hv.woken
  served := hv.served
  given := hv.given
  untilTerminal := hv.untilTerminal
  running := hv.running

/-- The reader thread fills the queue. -/
theorem View.Inv.put (hv : v.Inv down) (hreg : v.reg = true) :
    ({ v with queue := v.queue ++ v.hand, hand := [] } : View).Inv down where
  before := hv.before
  unknown := by
    intro h
    rw [hreg] at h
    cases h
  flow := by simpa using hv.flow
  complete := by simpa using hv.complete
  woken := by
    intro h h'
    rcases hv.woken h h' with h | h | h
    · exact .inl h
    · exact .inr (.inl (List.mem_append_left _ h))
    · exact .inr (.inr h)
  served := hv.served
  given := hv.given
  untilTerminal := hv.untilTerminal
  running := hv.running

/-- A sentinel is put into the queue of a request that is not registered. -/
theorem View.Inv.exit (hv : v.Inv down) (hreg : v.reg = true) (owed : ℕ) :
    ({ v with queue := v.queue ++ [.workerExit], owed := owed } : View).Inv down where
  before := hv.before
  unknown := by
    intro h
    rw [hreg] at h
    cases h
  flow := by
    rw [real_insert_workerExit]
    exact hv.flow
  complete := by
    rw [real_insert_workerExit]
    exact hv.complete
  woken := by
    intro _ _
    exact .inr (.inl (by simp))
  served := hv.served
  given := hv.given
  untilTerminal := hv.untilTerminal
  running := hv.running

/-- The reader ends, or `_inflight` is emptied: nobody is registered any more, and who was
has been woken or will be. -/
theorem View.Inv.unregister (hv : v.Inv down) (down' : Bool)
    (hwoken : v.registered = true → .workerExit ∈ v.queue ∨ 0 < v.owed) :
    ({ v with registered := false } : View).Inv down' where
  before := hv.before
  unknown := fun h => ⟨rfl, (hv.unknown h).2⟩
  flow := hv.flow
  complete := by intro h; cases h
  woken := by
    intro h h'
    rcases hv.woken h h' with hreg | hexit
    · exact .inr (hwoken hreg)
    · exact .inr hexit
  served := by intro _ _ _ h; cases h
  given := hv.given
  untilTerminal := hv.untilTerminal
  running := hv.running

/-- More sentinels may be owed. -/
theorem View.Inv.owe (hv : v.Inv down) (hreg : v.reg = true) (n : ℕ) :
    ({ v with owed := v.owed + n } : View).Inv down where
  before := hv.before
  unknown := by
    intro h
    rw [hreg] at h
    cases h
  flow := hv.flow
  complete := hv.complete
  woken := by
    intro h h'
    rcases hv.woken h h' with h | h | h
    · exact .inl h
    · exact .inr (.inl h)
    · exact .inr (.inr (Nat.lt_add_right n h))
  served := hv.served
  given := hv.given
  untilTerminal := hv.untilTerminal
  running := hv.running

/-- Whom a thread has to do with has been registered. -/
theorem View.Inv.reg_eq_true (hv : v.Inv down)
    (h : v.registered = true ∨ v.owed ≠ 0 ∨ v.hand ≠ []) : v.reg = true := by
  by_contra hreg
  obtain ⟨hregistered, howed, -, hhand, -⟩ := hv.unknown (by simpa using hreg)
  rcases h with h | h | h
  · rw [hregistered] at h
    cases h
  · exact h howed
  · exact h hhand

end View

/-! ### All requests -/

section Requests

variable {cfg : Cfg} {rid : ι → ρ} {truthy : ρ → Bool} {s s' : Io ι ρ} {i j : ι}
  {kind : Move.Kind} {m : Move} {a : IoAct ι ρ}

/-- The invariant of the multiplexer. -/
structure Io.Inv (rid : ι → ρ) (s : Io ι ρ) : Prop where
  views : ∀ i, (s.view rid i).Inv s.down
  /-- `_inflight` has a request under its own id. -/
  ids : ∀ x i, s.io.inflight x = some i → rid i = x
  drained : s.drained = true → s.io.closed = true
  quiet : ∀ l ∈ s.late, l.2 ≠ .payload
  told : ∀ e ∈ s.ends, e.2 = .workerExit ∨ e.2 = .terminal ∨ e.2 = .byConsumer

omit [DecidableEq ρ] in
theorem io_inv_start : (Io.start cfg : Io ι ρ).Inv rid where
  views := by
    intro i
    constructor <;> simp [Io.view, Io.start, State.start, Req.fresh, Pc.stage, Io.registered,
      Reader.hand]
  ids := by
    intro x i h
    cases h
  drained := by
    intro h
    cases h
  quiet := by
    intro l h
    cases h
  told := by
    intro e h
    cases h

/-- What a move does to `_inflight`. -/
theorem inflight_apply (rid : ι → ρ) (s : State ι ρ) (i : ι) (m : Move) (x : ρ) :
    (s.apply rid i m).inflight x =
      match m.inflight with
      | .keep => s.inflight x
      | .insert => if x = rid i then some i else s.inflight x
      | .pop => if x = rid i then none else s.inflight x := by
  rw [State.apply]
  cases m.inflight with
  | keep => rfl
  | insert => simp only [Function.update_apply]
  | pop => simp only [Function.update_apply]

theorem registered_apply_self (rid : ι → ρ) (s : Io ι ρ) (i : ι) (kind : Move.Kind) (m : Move) :
    (s.apply rid i kind m).registered rid i = ((s.view rid i).move m).registered := by
  have h := inflight_apply rid s.io i m (rid i)
  simp only [Io.registered, Io.apply, h, View.move, Io.view]
  cases m.inflight <;> simp

theorem registered_apply_of_ne (rid : ι → ρ) (s : Io ι ρ) (kind : Move.Kind) (m : Move) (hid : rid j ≠ rid i) :
    (s.apply rid i kind m).registered rid j = s.registered rid j := by
  have h := inflight_apply rid s.io i m (rid j)
  simp only [Io.registered, Io.apply, h]
  cases m.inflight <;> simp [hid]

/-- A move of a request shows in its own view. -/
theorem view_apply_self (s : Io ι ρ) (i : ι) (kind : Move.Kind) (m : Move) :
    (s.apply rid i kind m).view rid i = (s.view rid i).move m := by
  have hregistered := registered_apply_self rid s i kind m
  rw [Io.view, hregistered]
  simp only [Io.view, View.move, Io.apply, State.apply, Function.update_self]
  congr 1
  · cases m.inflight <;> simp
  · cases (s.io.req i).pc.stage <;> cases m.req.pc.stage <;> simp

/-- It does not show in another one. -/
theorem view_apply_of_ne (hrid : Function.Injective rid) (s : Io ι ρ) (kind : Move.Kind) (m : Move)
    (hji : j ≠ i) : (s.apply rid i kind m).view rid j = s.view rid j := by
  have hregistered := registered_apply_of_ne rid s kind m (fun h => hji (hrid h))
  rw [Io.view, hregistered]
  simp only [Io.view, Io.apply, State.apply, Function.update_of_ne hji]
  congr 1
  · cases m.inflight <;> simp [Function.update_of_ne hji]
  · cases (s.io.req i).pc.stage <;> cases m.req.pc.stage <;> simp [Function.update_of_ne hji]

/-- A payload is written by the move that attempts it, with the flag not set. -/
theorem writeFails_of_payload {cfg : Cfg} {closed : Bool} {sem : ℕ} {r : Req}
    (h : agentStep cfg closed sem r kind = some m) (hout : m.stdin = some .payload) :
    closed = false ∧ writeFails r kind = some false := by
  cases kind with
  | advance fail =>
    simp only [agentStep, advanceSend] at h
    cases hpc : r.pc with
    | registered =>
      simp only [hpc] at h
      split at h <;> cases h
      · cases hout
      · rename_i hno
        simp only [Bool.or_eq_true, not_or, Bool.not_eq_true] at hno
        exact ⟨hno.1, by simp [writeFails, hpc, hno.2]⟩
    | holding => simp only [hpc] at h; split at h <;> cases h <;> cases hout
    | notifying =>
      simp only [hpc] at h
      cases h
      cases closed <;> cases fail <;> cases hout
    | checked => simp only [hpc] at h; cases h; cases hout
    | leaving natural => simp only [hpc] at h; cases h; cases hout
    | popped natural => simp only [hpc] at h; cases h; cases hout
    | _ => simp only [hpc] at h; cases h
  | advanceSync fail =>
    simp only [agentStep, advanceRequest] at h
    cases hpc : r.pc with
    | inserted =>
      simp only [hpc] at h
      split at h <;> cases h
      · cases hout
      · rename_i hno
        simp only [Bool.or_eq_true, not_or, Bool.not_eq_true] at hno
        exact ⟨hno.1, by simp [writeFails, hpc, hno.2]⟩
    | entered => simp only [hpc] at h; cases h; cases hout
    | unnamed => simp only [hpc] at h; cases h; cases hout
    | named => simp only [hpc] at h; cases h; cases hout
    | unwinding => simp only [hpc] at h; cases h; cases hout
    | unwound => simp only [hpc] at h; cases h; cases hout
    | _ => simp only [hpc] at h; cases h
  | send fail =>
    simp only [agentStep, sendRequest] at h
    repeat' split at h
    all_goals cases h; try cases hout
  | resume =>
    simp only [agentStep, resumeAcquire] at h
    repeat' split at h
    all_goals cases h; try cases hout
  | cancelTask =>
    simp only [agentStep, cancelTask] at h
    repeat' split at h
    all_goals cases h; try cases hout
  | lateCallback =>
    simp only [agentStep, lateCallback] at h
    repeat' split at h
    all_goals cases h; try cases hout
  | _ =>
    simp only [agentStep] at h
    repeat' split at h
    all_goals cases h; try cases hout

/-- Who ends at the write has attempted it. -/
theorem writeFails_of_advance {cfg : Cfg} {closed fail : Bool} {sem : ℕ} {r : Req}
    (h : agentStep cfg closed sem r (.advance fail) = some m) (hends : endsNow r m = true) :
    writeFails r (.advance fail) = some fail ∧ (closed = true ∨ fail = true) := by
  simp only [endsNow, Bool.and_eq_true, decide_eq_true_eq, Bool.not_eq_true',
    decide_eq_false_iff_not] at hends
  simp only [agentStep, advanceSend] at h
  cases hpc : r.pc with
  | registered =>
    simp only [hpc] at h
    split at h <;> cases h
    · rename_i hfail
      exact ⟨by simp [writeFails, hpc], by simpa using hfail⟩
    · cases hends.1.1
  | holding => exact absurd (by rw [hpc]; rfl) hends.2
  | checked => exact absurd (by rw [hpc]; rfl) hends.2
  | leaving natural => exact absurd (by rw [hpc]; rfl) hends.1.2
  | popped natural => exact absurd (by rw [hpc]; rfl) hends.1.2
  | notifying => exact absurd (by rw [hpc]; rfl) hends.1.2
  | _ => simp only [hpc] at h; cases h

/-- The same for the blocking form. -/
theorem writeFails_of_advanceSync {cfg : Cfg} {closed fail : Bool} {sem : ℕ} {r : Req}
    (h : agentStep cfg closed sem r (.advanceSync fail) = some m) (hends : endsNow r m = true) :
    writeFails r (.advanceSync fail) = some fail ∧ (closed = true ∨ fail = true) := by
  simp only [endsNow, Bool.and_eq_true, decide_eq_true_eq, Bool.not_eq_true',
    decide_eq_false_iff_not] at hends
  simp only [agentStep, advanceRequest] at h
  cases hpc : r.pc with
  | inserted =>
    simp only [hpc] at h
    split at h <;> cases h
    · rename_i hfail
      exact ⟨by simp [writeFails, hpc], by simpa using hfail⟩
    · cases hends.1.1
  | entered => exact absurd (by rw [hpc]; rfl) hends.2
  | unnamed => exact absurd (by rw [hpc]; rfl) hends.2
  | named => exact absurd (by rw [hpc]; rfl) hends.2
  | unwinding => exact absurd (by rw [hpc]; rfl) hends.1.2
  | unwound => exact absurd (by rw [hpc]; rfl) hends.1.2
  | _ => simp only [hpc] at h; cases h

omit [DecidableEq ρ] in
/-- **Nobody waits in vain.**  After the end, who waits has been woken. -/
theorem Io.Inv.workerExit_mem (hs : s.Inv rid) (hdown : s.down = true)
    (hbefore : (s.io.req i).pc.stage ≠ .before) (henrolled : (s.io.req i).pc.stage ≠ .enrolled)
    (hover : (s.io.req i).pc.stage ≠ .over) :
    .workerExit ∈ (s.io.req i).queue ∨ 0 < s.owed i := by
  have hv := hs.views i
  refine (hv.woken hbefore hover).resolve_left fun hreg => ?_
  have := hv.served hbefore henrolled hover hreg
  rw [hdown] at this
  cases this

omit [DecidableEq ρ] in
/-- The write of a run that keeps to it does not fail after the end. -/
theorem Io.Inv.write_closed (hs : s.Inv rid) (hok : s.Ok rid truthy (.move i kind))
    (hdown : s.down = true) (hwrite : writeFails (s.io.req i) kind = some true) :
    s.io.closed = true := by
  rcases hok true hwrite with hclosed | hreader | ⟨-, hfail⟩
  · exact hclosed
  · rw [Io.down, hreader, Bool.false_or] at hdown
    exact hs.drained hdown
  · cases hfail

omit [DecidableEq ρ] in
/-- A registered request that ends after the end is told so. -/
theorem Io.Inv.ending (hs : s.Inv rid) (hok : s.Ok rid truthy (.move i kind))
    (hallowed : allowed (s.io.req i) kind = true)
    (hm : agentStep cfg s.io.closed s.io.sem (s.io.req i) kind = some m)
    (hends : endsNow (s.io.req i) m = true) (hdown : s.down = true) (howed : s.owed i = 0) :
    endingOf s.io.closed (s.io.req i) kind = .workerExit ∨
      endingOf s.io.closed (s.io.req i) kind = .terminal ∨
      endingOf s.io.closed (s.io.req i) kind = .byConsumer := by
  have hempty : (s.io.req i).pc.stage = .waiting → (s.io.req i).queue ≠ [] := by
    intro hwaits hnil
    have hexit := hs.workerExit_mem (i := i) hdown (by simp [hwaits]) (by simp [hwaits])
      (by simp [hwaits])
    rw [hnil, howed] at hexit
    simp at hexit
  have hclosed : ∀ fail, writeFails (s.io.req i) kind = some fail ∧
      (s.io.closed = true ∨ fail = true) → s.io.closed = true := by
    rintro fail ⟨hwrite, hclosed | rfl⟩
    · exact hclosed
    · exact hs.write_closed hok hdown hwrite
  cases kind with
  | advance fail =>
    exact .inl (if_pos (hclosed fail (writeFails_of_advance hm hends)))
  | advanceSync fail =>
    exact .inl (if_pos (hclosed fail (writeFails_of_advanceSync hm hends)))
  | getEvent => exact .inl rfl
  | readEvent => exact .inl rfl
  | next => exact .inr (.inl rfl)
  | nextSync => exact .inr (.inl rfl)
  | getFails =>
    simp only [agentStep] at hm
    split at hm
    case h_2 => cases hm
    rename_i cancelled hpc
    simp only [endingOf]
    split
    · exact .inr (.inr rfl)
    · rename_i hno
      simp only [allowed, hno, decide_false, Bool.false_or, List.isEmpty_iff] at hallowed
      exact absurd hallowed (hempty (by rw [hpc]; rfl))
  | readFails =>
    simp only [agentStep] at hm
    split at hm
    case isFalse => cases hm
    rename_i hpc
    simp only [allowed, List.isEmpty_iff] at hallowed
    exact absurd hallowed (hempty (by rw [hpc]; rfl))
  | _ => exact .inr (.inr rfl)

/-- **A move.** -/
theorem Io.Inv.move (hrid : Function.Injective rid) (hs : s.Inv rid)
    (hok : s.Ok rid truthy (.move i kind)) (hallowed : allowed (s.io.req i) kind = true)
    (hm : agentStep cfg s.io.closed s.io.sem (s.io.req i) kind = some m) :
    (s.apply rid i kind m).Inv rid where
  views := by
    intro j
    by_cases hji : j = i
    · subst hji
      rw [view_apply_self]
      apply (hs.views j).move (agentStep_shift hm) rfl rfl
      intro hout (hregistered : s.registered rid j = true)
      obtain ⟨hopen, hwrite⟩ := writeFails_of_payload hm hout
      have hdrained : s.drained = false := by
        by_contra hdrained
        have := hs.drained (by simpa using hdrained)
        rw [hopen] at this
        cases this
      rcases hok false hwrite with hclosed | hreader | ⟨hno, -⟩
      · rw [hopen] at hclosed
        cases hclosed
      · change (s.reader.isEnded || s.drained) = false
        rw [hreader, hdrained]
        rfl
      · rw [hregistered] at hno
        cases hno
    · rw [view_apply_of_ne hrid s kind m hji]
      exact hs.views j
  ids := by
    intro x k hk
    have hk := (inflight_apply rid s.io i m x).symm.trans hk
    cases hop : m.inflight with
    | keep =>
      rw [hop] at hk
      exact hs.ids x k hk
    | insert =>
      simp only [hop] at hk
      split at hk
      · rename_i hx
        obtain rfl := Option.some.inj hk
        exact hx.symm
      · exact hs.ids x k hk
    | pop =>
      simp only [hop] at hk
      split at hk
      · cases hk
      · exact hs.ids x k hk
  drained := hs.drained
  quiet := by
    intro l hl
    simp only [Io.apply] at hl
    split at hl
    · rename_i hclosed
      rcases List.mem_append.mp hl with hl | hl
      · obtain ⟨line, hline, rfl⟩ := List.mem_map.mp hl
        intro hpayload
        have hout : m.stdin = some .payload := by
          rw [← hpayload]
          simpa using hline
        have := (writeFails_of_payload hm hout).1
        rw [hclosed] at this
        cases this
      · exact hs.quiet l hl
    · exact hs.quiet l hl
  told := by
    intro e he
    simp only [Io.apply] at he
    split at he
    · rename_i hnow
      simp only [Bool.and_eq_true, decide_eq_true_eq] at hnow
      rcases List.mem_cons.mp he with rfl | he
      · exact hs.ending hok hallowed hm hnow.1.1 hnow.1.2 hnow.2
      · exact hs.told e he
    · exact hs.told e he

/-! ### The other threads -/

omit [DecidableEq ρ] in
/-- A step that leaves the requests' views alone. -/
theorem Io.Inv.of_views (hs : s.Inv rid) (hviews : ∀ j, (s'.view rid j).Inv s'.down)
    (hinflight : ∀ x k, s'.io.inflight x = some k → s.io.inflight x = some k)
    (hdrained : s'.drained = true → s'.io.closed = true) (hlate : s'.late = s.late)
    (hends : s'.ends = s.ends) : s'.Inv rid where
  views := hviews
  ids := fun x k hk => hs.ids x k (hinflight x k hk)
  drained := hdrained
  quiet := by rw [hlate]; exact hs.quiet
  told := by rw [hends]; exact hs.told

/-- **The step lemma.** -/
theorem Io.Inv.step (hrid : Function.Injective rid) (hs : s.Inv rid) (hok : s.Ok rid truthy a)
    (h : s.step cfg rid truthy a = some s') : s'.Inv rid := by
  cases a with
  | move i kind =>
    simp only [Io.step] at h
    split at h
    case isFalse => cases h
    rename_i hallowed
    obtain ⟨m, hm, rfl⟩ := Option.map_eq_some_iff.mp h
    exact hs.move hrid hok hallowed hm
  | close =>
    obtain rfl := Option.some.inj h
    exact hs.of_views hs.views (fun _ _ hk => hk) (fun _ => rfl) rfl rfl
  | closeDrain =>
    simp only [Io.step] at h
    split at h
    case isFalse => cases h
    rename_i hclosed
    cases h
    refine hs.of_views ?_ (fun _ _ hk => by cases hk) (fun _ => hclosed) rfl rfl
    intro j
    have hv := hs.views j
    cases hregistered : s.registered rid j with
    | true =>
      have hin : s.io.inflight (rid j) = some j := by simpa [Io.registered] using hregistered
      have hview := (hv.owe (hv.reg_eq_true (.inl hregistered)) 1).unregister
        (s.reader.isEnded || true) fun _ => .inr (Nat.succ_pos _)
      simpa [Io.view, Io.registered, Io.down, hin] using hview
    | false =>
      have hin : s.io.inflight (rid j) ≠ some j := by simpa [Io.registered] using hregistered
      have hview := hv.unregister (s.reader.isEnded || true) fun h => by
        rw [show (s.view rid j).registered = _ from hregistered] at h
        cases h
      simpa [Io.view, Io.registered, Io.down, hin] using hview
  | wake i =>
    simp only [Io.step] at h
    split at h
    case isFalse => cases h
    rename_i howed
    cases h
    refine hs.of_views ?_ (fun _ _ hk => hk) hs.drained rfl rfl
    intro j
    have hv := hs.views j
    by_cases hji : j = i
    · subst hji
      have hview : ({ s with
          io := s.io.put j .workerExit
          owed := Function.update s.owed j (s.owed j - 1) } : Io ι ρ).view rid j =
          { s.view rid j with
            queue := (s.view rid j).queue ++ [.workerExit], owed := s.owed j - 1 } := by
        simp only [Io.view, State.put, Function.update_self]
        rfl
      rw [hview]
      exact hv.exit (hv.reg_eq_true (.inr (.inl (Nat.pos_iff_ne_zero.mp howed)))) _
    · have hview : ({ s with
          io := s.io.put i .workerExit
          owed := Function.update s.owed i (s.owed i - 1) } : Io ι ρ).view rid j =
          s.view rid j := by
        simp only [Io.view, State.put, Function.update_of_ne hji]
        rfl
      rw [hview]
      exact hv
  | read id event =>
    simp only [Io.step] at h
    split at h
    case h_2 => cases h
    rename_i hreader
    cases h
    refine hs.of_views ?_ (fun _ _ hk => hk) hs.drained rfl rfl
    intro j
    have hv := hs.views j
    have hhand : (s.view rid j).hand = [] := by simp [Io.view, hreader, Reader.hand]
    have hdown : ({ s with
        reader :=
          match (if truthy id then s.io.inflight id else none) with
          | some i => .holding i event
          | none => .idle
        since := fun i =>
          if s.reg i && decide (rid i = id) then s.since i ++ [event] else s.since i } :
          Io ι ρ).down = s.down := by
      cases hfound : (if truthy id then s.io.inflight id else none) with
      | none => simp only [Io.down, hreader, Reader.isEnded]
      | some i => simp only [Io.down, hreader, Reader.isEnded]
    rw [hdown]
    -- the queue that is looked up is the one of the request under this id, if it is there
    have hlookup : (if truthy id then s.io.inflight id else none) = s.io.inflight id := by
      rcases hok with htruthy | hnone
      · rw [if_pos htruthy]
      · rw [hnone, ite_self]
    have hheld : Reader.hand j (match (if truthy id then s.io.inflight id else none) with
        | some i => .holding i event
        | none => .idle) = if s.io.inflight id = some j then [event] else [] := by
      rw [hlookup]
      cases s.io.inflight id with
      | none => rfl
      | some k => simp [Reader.hand]
    by_cases hj : s.reg j = true ∧ rid j = id
    · obtain ⟨hreg, rfl⟩ := hj
      have hview := hv.read event hhand hreg
      simpa [Io.view, Io.registered, hheld, hreg] using hview
    · have hno : s.io.inflight id ≠ some j := by
        intro hin
        obtain rfl := hs.ids id j hin
        exact hj ⟨hv.reg_eq_true (.inl (by simpa [Io.view, Io.registered] using hin)), rfl⟩
      have hsince : (s.reg j && decide (rid j = id)) = false := by simpa using hj
      rw [if_neg hno, ← hhand] at hheld
      simp only [Io.view, Io.registered, hheld, hsince, Bool.false_eq_true, if_false]
      exact hv
  | put =>
    simp only [Io.step] at h
    split at h
    case h_2 => cases h
    rename_i i event hreader
    cases h
    refine hs.of_views ?_ (fun _ _ hk => hk) hs.drained rfl rfl
    intro j
    have hv := hs.views j
    have hdown : ({ s with io := s.io.put i event, reader := .idle } : Io ι ρ).down = s.down := by
      simp only [Io.down, hreader, Reader.isEnded]
    rw [hdown]
    by_cases hji : j = i
    · subst hji
      have hhand : (s.view rid j).hand = [event] := by simp [Io.view, hreader, Reader.hand]
      have hview : ({ s with io := s.io.put j event, reader := .idle } : Io ι ρ).view rid j =
          { s.view rid j with
            queue := (s.view rid j).queue ++ (s.view rid j).hand, hand := [] } := by
        rw [hhand]
        simp only [Io.view, State.put, Function.update_self]
        rfl
      rw [hview]
      exact hv.put (hv.reg_eq_true (.inr (.inr (by simp [hhand]))))
    · have hij : i ≠ j := fun h => hji h.symm
      have hview : ({ s with io := s.io.put i event, reader := .idle } : Io ι ρ).view rid j =
          s.view rid j := by
        simp only [Io.view, State.put, Function.update_of_ne hji, hreader, Reader.hand, if_neg hij]
        rfl
      rw [hview]
      exact hv
  | eof =>
    simp only [Io.step] at h
    split at h
    case h_2 => cases h
    rename_i hreader
    cases h
    refine hs.of_views ?_ (fun _ _ hk => by cases hk) hs.drained rfl rfl
    intro j
    have hv := hs.views j
    cases hregistered : s.registered rid j with
    | true =>
      have hin : s.io.inflight (rid j) = some j := by simpa [Io.registered] using hregistered
      have hview := (hv.exit (hv.reg_eq_true (.inl hregistered)) (s.owed j)).unregister true
        fun _ => .inl (by simp)
      simpa [Io.view, State.wakeAll, Io.registered, Io.down, Reader.isEnded, Reader.hand, hreader, hin]
        using hview
    | false =>
      have hin : s.io.inflight (rid j) ≠ some j := by simpa [Io.registered] using hregistered
      have hview := hv.unregister true fun h => by
        rw [show (s.view rid j).registered = _ from hregistered] at h
        cases h
      simpa [Io.view, State.wakeAll, Io.registered, Io.down, Reader.isEnded, Reader.hand, hreader, hin]
        using hview

omit [DecidableEq ρ] in
/-- The invariant is what is to hold. -/
theorem Io.Inv.delivers (hs : s.Inv rid) : s.Delivers rid where
  inOrder := by
    intro i
    exact (List.prefix_append _ _).trans (hs.views i).flow
  complete := by
    intro i hin
    apply (hs.views i).complete
    simp [Io.view, Io.registered, hin]
  untilTerminal := fun i => (hs.views i).untilTerminal
  quiet := hs.quiet
  woken := by
    intro i hdown hwaits
    have hexit : .workerExit ∈ (s.io.req i).queue ∨ 0 < s.owed i := by
      apply hs.workerExit_mem hdown
      all_goals
        intro hstage
        rw [hstage] at hwaits
        cases hwaits
    rcases hexit with hexit | howed
    · exact .inl ⟨_, hexit, .inl rfl⟩
    · exact .inr howed
  told := hs.told

/-- **Delivery and exit.**  Requests with distinct ids are served in order, or told that
the worker is gone, in every run that keeps to it. -/
theorem delivers_of_guarded (hrid : Function.Injective rid) {as : List (IoAct ι ρ)}
    (hguarded : (ioMachine cfg rid truthy).Guarded (Io.Ok rid truthy) (Io.start cfg) as)
    (hrun : (ioMachine cfg rid truthy).run as = some s) : s.Delivers rid := by
  apply Io.Inv.delivers
  apply (ioMachine cfg rid truthy).invariant_of_guarded (Io.Ok rid truthy) io_inv_start _ hguarded hrun
  intro s a s' hs hok h
  exact hs.step hrid hok h

instance (s : Io ι ρ) (a : IoAct ι ρ) : Decidable (s.Ok rid truthy a) := by
  cases a <;> unfold Io.Ok <;> infer_instance

end Requests

/-- A request of the blocking form up to its stdin write. -/
def requested (i : Fin 2) : List (IoAct (Fin 2) (Fin 2)) :=
  [.move i .request, .move i .take, .move i (.advanceSync false), .move i (.advanceSync false),
    .move i (.advanceSync false)]

/-- The first request is given a chunk and then the sentinel of the sweep; the second one
is registered before `close()` and refused by it. -/
def sweptRun : List (IoAct (Fin 2) (Fin 2)) :=
  requested 0 ++ ([.move 0 (.advanceSync false), .read 0 (.chunk 7), .put, .move 0 .readEvent,
    .eof] : List (IoAct (Fin 2) (Fin 2))) ++ requested 1 ++
    ([.close, .closeDrain, .wake 1, .move 1 (.advanceSync false), .move 0 .nextSync,
      .move 0 .readEvent] : List (IoAct (Fin 2) (Fin 2)))

theorem delivers_of_guarded_sweptRun :
    ∃ s, (ioMachine ⟨2, true⟩ id fun _ => true).run sweptRun = some s ∧ s.Delivers id := by
  have hguarded : (ioMachine ⟨2, true⟩ id fun _ => true).Guarded (Io.Ok id fun _ => true)
      (Io.start ⟨2, true⟩) sweptRun := by decide
  exact ⟨_, rfl, delivers_of_guarded Function.injective_id hguarded rfl⟩

/-- The worker exits, and a request is made before anybody has called `close()`. -/
def unsweptRun : List (IoAct (Fin 2) (Fin 2)) :=
  ([.eof] : List (IoAct (Fin 2) (Fin 2))) ++ requested 0 ++
    ([.move 0 (.advanceSync false)] : List (IoAct (Fin 2) (Fin 2)))

/-- **A request made after the sweep waits in vain**: its queue is empty, the reader has
ended, and no `close()` owes it a sentinel. -/
theorem unsweptRun_waits_in_vain :
    ∃ s, (ioMachine ⟨2, true⟩ id fun _ => true).run unsweptRun = some s ∧ ¬ s.Delivers id := by
  refine ⟨_, rfl, fun h => ?_⟩
  rcases h.woken 0 rfl rfl with ⟨event, hevent, -⟩ | howed
  · cases hevent
  · cases howed

end WorkerIO
end OpenVoiceStream
