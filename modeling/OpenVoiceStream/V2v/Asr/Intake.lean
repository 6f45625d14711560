import OpenVoiceStream.V2v.Asr.Heard

/-!
# What the generation of a queued turn takes in

The audio of a queued turn reaches the manager on two roads: what has been queued is fed
by the drain, and what comes in after the hand-over goes straight there, if the turn is
still being spoken.  The speech-end sets a marker, and with the marker the generation
takes in nothing more.

Some things end a generation before its speech: an `asr_eos`, an endpoint the backend
reports, the turn deadline.  And a marker left over from before blocks the live audio
after the hand-over.

## Main definitions

* `accepted`, `turnGens` — what a generation has accepted, and for which queued turn it
  was opened.
* `State.inFlight` — what is on its way to the latest generation.
* `NoCut` — the guard.
* `Ledger` — the history of the generations.
* `Intake` — the invariant of the latest generation.
* `State.Admits` — the connection admits audio.
-/

namespace OpenVoiceStream
namespace V2v
namespace Asr

open PendingAudio

variable {α : Type}

/-- The samples a generation has accepted. -/
def accepted (n : ℕ) : List (Event α) → List α
  | [] => []
  | .accepted gen samples :: trace => if gen = n then accepted n trace ++ samples else accepted n trace
  | _ :: trace => accepted n trace

/-- The generations opened for queued turns, each with its turn. -/
def turnGens : List (Event α) → List (ℕ × ℕ)
  | [] => []
  | .opened gen (some turn) :: trace => (gen, turn) :: turnGens trace
  | _ :: trace => turnGens trace

/-- The queued turn that the latest generation was opened for. -/
def latestTurn : List (Event α) → Option ℕ
  | [] => none
  | .opened _ turn :: _ => turn
  | _ :: trace => latestTurn trace

/-- What the dispatcher is about to hand to `accept_audio`. -/
def Disp.inFlight (d : Disp α) : List α :=
  match d.pc, d.call with
  | .lazyTest, _ | .feedTest, _ | .feed, .issued | .feed, .raised => d.current.samples
  | _, _ => []

/-- How far the drain is. -/
inductive Drain
  | off
  /-- The generation is not there yet. -/
  | opening
  | opened (turn gen : ℕ)
  /-- So many segments have been accepted. -/
  | feeding (turn gen fed : ℕ)
  /-- `accept_audio` has failed. -/
  | broken

/-- How far the drain is. -/
def Out.drain (o : Out α) : Drain :=
  match o.pc, o.call with
  | .drainOpen, .returned gen => .opened o.turn gen
  | .drainOpen, _ => .opening
  | .drainNext, _ | .drainFeed, .issued => .feeding o.turn o.newGen o.index
  | .drainFeed, .returned _ => .feeding o.turn o.newGen (o.index + 1)
  | .drainFeed, .raised => .broken
  | _, _ => .off

/-- What is on its way to a generation: what the drain has still to feed, or what the
dispatcher has in hand while the speech goes on. -/
def State.inFlight (s : State α) (gen : ℕ) : List α :=
  if gen = s.generation then
    match s.out.drain with
    | .opened turn _ => (s.pend.turn turn).segments.flatten
    | .feeding turn _ fed => ((s.pend.turn turn).segments.drop fed).flatten
    | _ => if s.asrActive ∧ s.endpointPending = none then s.disp.inFlight else []
  else []

/-- The generation of a queued turn is active, the turn was handed over, and no
speech-end has been marked yet. -/
def midTurn (s : State α) : Bool :=
  s.asrActive && (latestTurn s.trace).isSome && s.endpointPending.isNone && s.out.held.isNone

/-- The frontend marks the speech-end. -/
def marksEnd (cfg : Cfg) (s : State α) (e : Env) : Bool :=
  !e.prefersBackendVad ||
    (e.allowsFrontendEou && decide (e.frontendEouMinAudioS ≤ s.acceptedAudioS cfg))

/-- The step cuts a turn off from its generation: a generation ends before the speech of
its turn does, or goes on behind it; a turn that is still being spoken is handed over under
a marker; held back audio is dropped; the manager fails; or the connection goes down. -/
def cutsTurn (cfg : Cfg) (s : State α) : Act α → Bool
  | .receive .asrEos => midTurn s
  | .receive (.abort keepAsr) => !keepsAsr cfg s keepAsr
  | .disp e =>
    overflows cfg s || (midTurn s && decide (s.disp.pc = .latch) &&
      decide (s.disp.current.event = some .speechEnd) && !marksEnd cfg s e)
  | .out e =>
    match s.out.pc with
    | .top => midTurn s && s.asrTurnStartedAt && e.expired
    | .decide => midTurn s && s.out.isEndpoint
    | .drainNext =>
      decide ((s.pend.turn s.out.turn).segments.length ≤ s.out.index) &&
        !(s.pend.turn s.out.turn).ended && s.endpointPending.isSome
    | _ => false
  | .dispCall ok | .outCall ok => !ok
  | .cancelOut _ | .dispFails | .teardown => true
  | _ => false

/-- The guard. -/
def NoCut (cfg : Cfg) (s : State α) (a : Act α) : Prop := cutsTurn cfg s a = false

instance (cfg : Cfg) (s : State α) (a : Act α) : Decidable (NoCut cfg s a) := by
  unfold NoCut; infer_instance

/-! ### The history -/

section Ledger

variable {opened : List (ℕ × ℕ)} {latest : Option ℕ} {taken content : ℕ → List α}
  {now : Option ℕ} {gen fresh t : ℕ} {samples : List α}

/-- A generation has taken in all its turn has heard and will hear. -/
def Settled (taken content : ℕ → List α) (now : Option ℕ) (gen t : ℕ) : Prop :=
  taken gen = content t ∧ now ≠ some t

/-- The history, when the generations up to `gen` have been opened and those in `opened` for
queued turns. -/
structure Ledger (opened : List (ℕ × ℕ)) (latest : Option ℕ) (taken content : ℕ → List α)
    (now : Option ℕ) (gen fresh : ℕ) : Prop where
  bound : ∀ x ∈ opened, x.1 ≤ gen ∧ x.2 < fresh
  latest : ∀ x ∈ opened, x.1 = gen → latest = some x.2
  settled : ∀ x ∈ opened, x.1 < gen → Settled taken content now x.1 x.2
  future : ∀ n, gen < n → taken n = []

/-- A segment comes in. -/
theorem Settled.arrive (h : Settled taken content now gen t) (segment : Segment α) :
    Settled taken (contentAfter now content segment) (nowAfter now segment) gen t :=
  ⟨by rw [contentAfter_of_ne h.2, h.1], nowAfter_ne h.2 segment⟩

theorem Ledger.arrive (h : Ledger opened latest taken content now gen fresh) (segment : Segment α) :
    Ledger opened latest taken (contentAfter now content segment) (nowAfter now segment) gen fresh :=
  ⟨h.bound, h.latest, fun x hx hlt => (h.settled x hx hlt).arrive segment, h.future⟩

/-- A new turn is queued. -/
theorem Settled.queue (h : Settled taken content now gen t) (hlt : t < fresh) (first : List α) :
    Settled taken (fun u => if fresh = u then first else content u) (some fresh) gen t := by
  have hne : fresh ≠ t := Nat.ne_of_gt hlt
  exact ⟨h.1.trans (if_neg hne).symm, by simpa using hne⟩

theorem Ledger.queue (h : Ledger opened latest taken content now gen fresh) (first : List α) :
    Ledger opened latest taken (fun u => if fresh = u then first else content u) (some fresh) gen
      (fresh + 1) :=
  ⟨fun x hx => ⟨(h.bound x hx).1, Nat.lt_succ_of_lt (h.bound x hx).2⟩, h.latest,
    fun x hx hlt => (h.settled x hx hlt).queue (h.bound x hx).2 first, h.future⟩

/-- The latest generation accepts samples. -/
theorem Ledger.accept (h : Ledger opened latest taken content now gen fresh) :
    Ledger opened latest (fun n => if gen = n then taken n ++ samples else taken n) content now gen
      fresh := by
  refine ⟨h.bound, h.latest, fun x hx hlt => ?_, fun n hn => ?_⟩
  · obtain ⟨htaken, hnow⟩ := h.settled x hx hlt
    exact ⟨(if_neg (Nat.ne_of_gt hlt)).trans htaken, hnow⟩
  · exact (if_neg (Nat.ne_of_lt hn)).trans (h.future n hn)

/-- All generations opened so far are settled. -/
theorem Ledger.all_settled (h : Ledger opened latest taken content now gen fresh)
    (hlatest : ∀ t ∈ latest, Settled taken content now gen t) :
    ∀ x ∈ opened, Settled taken content now x.1 x.2 := by
  intro x hx
  rcases (h.bound x hx).1.lt_or_eq with hlt | heq
  · exact h.settled x hx hlt
  · rw [heq]
    exact hlatest x.2 (h.latest x hx heq)

/-- The dispatcher opens a generation. -/
theorem Ledger.open (h : Ledger opened latest taken content now gen fresh)
    (hlatest : ∀ t ∈ latest, Settled taken content now gen t) :
    Ledger opened none taken content now (gen + 1) fresh := by
  have hall := h.all_settled hlatest
  refine ⟨fun x hx => ⟨(h.bound x hx).1.trans (Nat.le_succ _), (h.bound x hx).2⟩,
    fun x hx heq => ?_, fun x hx _ => hall x hx, fun n hn => h.future n (by omega)⟩
  have := (h.bound x hx).1
  omega

/-- The drain opens a generation for a queued turn. -/
theorem Ledger.openTurn (h : Ledger opened latest taken content now gen fresh)
    (hlatest : ∀ t ∈ latest, Settled taken content now gen t) (ht : t < fresh) :
    Ledger ((gen + 1, t) :: opened) (some t) taken content now (gen + 1) fresh := by
  have hall := h.all_settled hlatest
  refine ⟨fun x hx => ?_, fun x hx heq => ?_, fun x hx hlt => ?_, fun n hn => h.future n (by omega)⟩
  · rcases List.mem_cons.mp hx with rfl | hx
    · exact ⟨le_rfl, ht⟩
    · exact ⟨(h.bound x hx).1.trans (Nat.le_succ _), (h.bound x hx).2⟩
  · rcases List.mem_cons.mp hx with rfl | hx
    · rfl
    · have := (h.bound x hx).1
      omega
  · rcases List.mem_cons.mp hx with rfl | hx
    · exact absurd hlt (lt_irrefl _)
    · exact hall x hx

end Ledger

/-! ### The latest generation -/

/-- What `asr_out_task` does, when it does not drain. -/
inductive Role
  /-- It polls; nothing has fired. -/
  | polling
  | finalizing (gen : ℕ)
  | other
  | over

/-- The role at each point. -/
def Out.role (o : Out α) : Role :=
  match o.pc with
  | .sleep | .top | .getPartial | .sendPartial | .decide | .loopEnd => .polling
  | .prepWait | .prepared | .finalize _ | .finalizeCancel => .finalizing o.gen
  | .ended => .over
  | _ => .other

/-- A finalize has begun. -/
def Out.finalizes (o : Out α) : Bool :=
  match o.pc with
  | .finalize _ | .finalizeCancel | .ended => true
  | _ => false

theorem not_finalizes {o : Out α} (h : o.role = .other ∨ o.role = .polling) :
    ¬ o.finalizes = true := by
  cases hpc : o.pc <;> simp_all [Out.role, Out.finalizes]

/-- The dispatcher handles the segment with the speech-end, before the marker is set. -/
def Disp.ends (d : Disp α) : Bool :=
  match d.pc with
  | .lazyTest | .feedTest | .feed | .latch => decide (d.current.event = some .speechEnd)
  | _ => false

/-- The dispatcher may open a stream or feed it with the segment at hand. -/
def DispPc.feeds : DispPc → Bool
  | .liveStart | .openTurn | .openFailed | .replay | .lazyTest | .lazyOpen | .lazyFailed | .feedTest
  | .feed | .latch => true
  | _ => false

section Intake

variable {opened : List (ℕ × ℕ)} {latest now stream stream' markedFor markedFor' : Option ℕ} {taken content : ℕ → List α} {gen t : ℕ}
  {vad marked marked' fin fin' : Bool} {p q : PendingAudio α} {d d' : Disp α} {o o' : Out α} {role : Role}

/-- The speech of the turn goes on, or its last segment is at hand: what comes in goes
straight to the generation. -/
structure Live (taken content : ℕ → List α) (now : Option ℕ) (gen : ℕ) (stream : Option ℕ)
    (marked fin : Bool) (p : PendingAudio α) (d : Disp α) (role : Role) (t : ℕ) : Prop where
  stream : stream = some gen
  unmarked : marked = false
  free : fin = false ∧ p.turns = [] ∧ p.draining = false
  role : role = .polling ∨ role = .over
  now : if d.ends then now = none else now = some t
  opens : d.pc ≠ .lazyOpen ∧ d.pc ≠ .lazyFailed
  call : d.pc = .feed → d.call ≠ .raised
  fed : taken gen ++ d.inFlight = content t

/-- The speech of the turn has ended, and its generation takes in nothing more: it is not
active, or its marker is set. -/
structure Shut (taken content : ℕ → List α) (now : Option ℕ) (gen : ℕ) (stream : Option ℕ)
    (marked : Bool) (markedFor : Option ℕ) (d : Disp α) (role : Role) (t : ℕ) : Prop where
  settled : Settled taken content now gen t
  feed : d.pc ≠ .feed
  shut : stream = none ∨ stream = some gen ∧ marked = true ∧ markedFor = some gen ∧
    d.pc.feeds = false ∧ ∀ g, role = .finalizing g → g = gen

/-- The generation in the drain has taken in what was fed so far. -/
def Drain.Fed (latest : Option ℕ) (taken : ℕ → List α) (gen : ℕ) (stream : Option ℕ)
    (p : PendingAudio α) : Drain → Prop
  | .off | .opening => True
  | .opened t g => g = gen ∧ latest = some t ∧ taken gen = []
  | .feeding t g fed =>
    g = gen ∧ latest = some t ∧ stream = some gen ∧ fed ≤ (p.turn t).segments.length ∧
      taken gen = ((p.turn t).segments.take fed).flatten
  | .broken => False

/-- The drain does not hold the latest generation. -/
def Drain.idle : Drain → Bool
  | .off | .opening => true
  | _ => false

/-- The invariant of the latest generation. -/
structure Intake (vad : Bool) (opened : List (ℕ × ℕ)) (latest : Option ℕ) (taken content : ℕ → List α) (now : Option ℕ)
    (gen : ℕ) (stream : Option ℕ) (marked : Bool) (markedFor : Option ℕ) (fin : Bool)
    (p : PendingAudio α) (d : Disp α) (o : Out α) : Prop where
  ledger : Ledger opened latest taken content now gen p.fresh
  vad : latest.isSome → vad = true
  known : ∀ t ∈ latest, t < p.fresh
  called : d.pc = .openTurn ∨ d.pc = .lazyOpen → ∀ g, d.call = .returned g → latest = none
  replay : d.pc = .replay → latest = none
  finalizing : fin = true → o.finalizes = true
  segment : o.pc = .drainFeed → (p.turn o.turn).segments[o.index]? = some o.segment
  drain : o.drain.Fed latest taken gen stream p
  rest : o.drain.idle → ∀ t ∈ latest,
    Live taken content now gen stream marked fin p d o.role t ∨
      Shut taken content now gen stream marked markedFor d o.role t

/-! How the dispatcher moves. -/

/-- Away from the points where the dispatcher feeds, nothing is in its hands. -/
theorem quiet_of_not_feeds (h : d.pc.feeds = false) :
    d.ends = false ∧ d.inFlight = [] ∧ d.pc ≠ .feed ∧ d.pc ≠ .openTurn ∧ d.pc ≠ .replay ∧
      d.pc ≠ .lazyOpen ∧ d.pc ≠ .lazyFailed := by
  cases hpc : d.pc <;> simp_all [DispPc.feeds, Disp.ends, Disp.inFlight]

theorem not_feeds_next (d : Disp α) : d.next.pc.feeds = false := by
  cases hrest : d.rest <;> simp [Disp.next, hrest, DispPc.feeds]

theorem Live.follow (h : Live taken content now gen stream marked fin p d role t)
    (hends : d'.ends = d.ends) (hflight : d'.inFlight = d.inFlight)
    (hopens : d'.pc ≠ .lazyOpen ∧ d'.pc ≠ .lazyFailed) (hcall : d'.pc = .feed → d'.call ≠ .raised) :
    Live taken content now gen stream marked fin p d' role t :=
  ⟨h.stream, h.unmarked, h.free, h.role, hends ▸ h.now, hopens, hcall, hflight ▸ h.fed⟩

/-- Where the dispatcher may feed, a generation that is shut is not active. -/
theorem Shut.inactive (h : Shut taken content now gen stream marked markedFor d role t)
    (hfeeds : d.pc.feeds = true) : stream = none := by
  rcases h.shut with hnone | ⟨_, _, _, hnot, _⟩
  · exact hnone
  · rw [hfeeds] at hnot
    cases hnot

theorem Shut.of_inactive (h : Settled taken content now gen t) (hfeed : d.pc ≠ .feed)
    (hstream : stream = none) : Shut taken content now gen stream marked markedFor d role t :=
  ⟨h, hfeed, .inl hstream⟩

/-- The dispatcher moves between points where it does not feed. -/
theorem Shut.follow (h : Shut taken content now gen stream marked markedFor d role t)
    (hfeeds : d'.pc.feeds = false) :
    Shut taken content now gen stream marked markedFor d' role t :=
  ⟨h.settled, (quiet_of_not_feeds hfeeds).2.2.1,
    h.shut.imp_right fun ⟨hs, hm, hf, _, hr⟩ => ⟨hs, hm, hf, hfeeds, hr⟩⟩

/-- The dispatcher moves. -/
theorem Intake.follow
    (h : Intake vad opened latest taken content now gen stream marked markedFor fin p d o)
    (hcalled : d'.pc = .openTurn ∨ d'.pc = .lazyOpen → ∀ g, d'.call = .returned g → latest = none)
    (hreplay : d'.pc = .replay → latest = none)
    (hlive : ∀ t, Live taken content now gen stream marked fin p d o.role t →
      Live taken content now gen stream marked fin p d' o.role t)
    (hshut : ∀ t, Shut taken content now gen stream marked markedFor d o.role t →
      Shut taken content now gen stream marked markedFor d' o.role t) :
    Intake vad opened latest taken content now gen stream marked markedFor fin p d' o :=
  ⟨h.ledger, h.vad, h.known, hcalled, hreplay, h.finalizing, h.segment, h.drain,
    fun hidle t ht => (h.rest hidle t ht).imp (hlive t) (hshut t)⟩

/-- The dispatcher moves between points where it does not feed. -/
theorem Intake.stay (h : Intake vad opened latest taken content now gen stream marked markedFor fin p d o)
    (hd : d.pc.feeds = false) (hd' : d'.pc.feeds = false) :
    Intake vad opened latest taken content now gen stream marked markedFor fin p d' o := by
  obtain ⟨hends, hflight, _⟩ := quiet_of_not_feeds hd
  obtain ⟨hends', hflight', hfeed, hopen, hreplay, hlazy, hfailed⟩ := quiet_of_not_feeds hd'
  refine h.follow (fun hpc => ?_) (fun hpc => absurd hpc hreplay) (fun t hlive => ?_)
    fun t hshut => hshut.follow hd'
  · rcases hpc with hpc | hpc
    · exact absurd hpc hopen
    · exact absurd hpc hlazy
  · exact hlive.follow (hends'.trans hends.symm) (hflight'.trans hflight.symm) ⟨hlazy, hfailed⟩
      fun hpc => absurd hpc hfeed

/-- No generation was opened for a queued turn, or a later one has been opened. -/
theorem Intake.of_none (hledger : Ledger opened latest taken content now gen p.fresh)
    (hlatest : latest = none) (hoff : o.drain = .off)
    (hfin : fin = true → o.finalizes = true)
    (hseg : o.pc = .drainFeed → (p.turn o.turn).segments[o.index]? = some o.segment) :
    Intake vad opened latest taken content now gen stream marked markedFor fin p d o := by
  subst hlatest
  exact ⟨hledger, by simp, by simp, by simp, by simp, hfin, hseg, by rw [hoff]; trivial, by simp⟩

/-- The queue changes behind the drain: its turns only grow. -/
theorem Drain.Fed.of_prefix {drain : Drain} (h : drain.Fed latest taken gen stream p)
    (hq : ∀ u ∈ latest, (p.turn u).segments <+: (q.turn u).segments) :
    drain.Fed latest taken gen stream q := by
  cases drain with
  | off | opening => trivial
  | opened t g => exact h
  | broken => exact h
  | feeding t g fed =>
    obtain ⟨hg, hlatest, hstream, hle, htaken⟩ := h
    obtain ⟨added, hadded⟩ := hq t hlatest
    refine ⟨hg, hlatest, hstream, ?_, ?_⟩
    · rw [← hadded, List.length_append]
      omega
    · rw [← hadded, List.take_append_of_le_length hle, htaken]

/-- The drain feeds the turn of the latest generation. -/
theorem Intake.latest_eq (h : Intake vad opened latest taken content now gen stream marked markedFor fin p d o)
    (hpc : o.pc = .drainFeed) : latest = some o.turn := by
  have hdrain := h.drain
  cases hcall : o.call <;> simp only [Out.drain, hpc, hcall, Drain.Fed] at hdrain
  · exact hdrain.2.1
  · exact hdrain.2.1

/-- The segment in the drain stays where it is. -/
theorem Intake.segment_of_prefix
    (h : Intake vad opened latest taken content now gen stream marked markedFor fin p d o)
    (hq : ∀ u ∈ latest, (p.turn u).segments <+: (q.turn u).segments) (hpc : o.pc = .drainFeed) :
    (q.turn o.turn).segments[o.index]? = some o.segment := by
  obtain ⟨added, hadded⟩ := hq o.turn (h.latest_eq hpc)
  have hseg := h.segment hpc
  obtain ⟨hlt, _⟩ := List.getElem?_eq_some_iff.mp hseg
  rw [← hadded, List.getElem?_append_left hlt, hseg]

/-- A segment comes in and is held back. -/
theorem Intake.arriveHeld
    (h : Intake vad opened latest taken content now gen stream marked markedFor fin p d o)
    (hd' : d'.pc.feeds = false)
    (hblocked : marked = true ∨ fin = true ∨ p.draining = true ∨ p.turns ≠ [])
    (hq : ∀ u, (p.turn u).segments <+: (q.turn u).segments) (hfresh : q.fresh = p.fresh)
    (segment : Segment α) :
    Intake vad opened latest taken (contentAfter now content segment) (nowAfter now segment) gen stream
      marked markedFor fin q d' o := by
  obtain ⟨_, _, hfeed, hopen, hreplay, hlazy, _⟩ := quiet_of_not_feeds hd'
  refine ⟨hfresh ▸ h.ledger.arrive segment, h.vad, hfresh ▸ h.known, fun hpc => ?_,
    fun hpc => absurd hpc hreplay, h.finalizing, h.segment_of_prefix fun u _ => hq u, h.drain.of_prefix fun u _ => hq u, fun hidle t ht => ?_⟩
  · rcases hpc with hpc | hpc
    · exact absurd hpc hopen
    · exact absurd hpc hlazy
  · rcases h.rest hidle t ht with hlive | hshut
    · obtain ⟨hfin, hturns, hdraining⟩ := hlive.free
      rcases hblocked with hm | hf | hdr | hne
      · rw [hlive.unmarked] at hm
        cases hm
      · rw [hfin] at hf
        cases hf
      · rw [hdraining] at hdr
        cases hdr
      · exact absurd hturns hne
    · obtain ⟨hsettled, _, hshut⟩ := hshut.follow hd'
      exact .inr ⟨hsettled.arrive segment, hfeed, hshut⟩

/-- A segment comes in and is not held back: it goes on to the live generation. -/
theorem Intake.arriveLive
    (h : Intake vad opened latest taken content now gen stream marked markedFor fin p d o)
    (hpc : d.pc = .segment) (hfree : latest.isSome → marked = false)
    (hnow : now.isSome → d.current.event ≠ some .speechStart)
    (hd' : d'.pc = (if d.current.event = some .speechStart then .liveStart else .lazyTest))
    (hcurrent : d'.current = d.current) :
    Intake vad opened latest taken (contentAfter now content d.current) (nowAfter now d.current) gen stream
      marked markedFor fin p d' o := by
  have hpc' : d'.pc ≠ .feed ∧ d'.pc ≠ .openTurn ∧ d'.pc ≠ .lazyOpen ∧ d'.pc ≠ .replay ∧
      d'.pc ≠ .lazyFailed := by
    rw [hd']
    split <;> simp
  obtain ⟨hfeed, hopen, hlazy, hreplay, hfailed⟩ := hpc'
  refine ⟨h.ledger.arrive _, h.vad, h.known, fun hp => ?_, fun hp => absurd hp hreplay, h.finalizing,
    h.segment, h.drain, fun hidle t ht => ?_⟩
  · rcases hp with hp | hp
    · exact absurd hp hopen
    · exact absurd hp hlazy
  rcases h.rest hidle t ht with hlive | hshut
  · -- the segment belongs to the turn that is being spoken
    obtain ⟨hends, hflight, _⟩ := quiet_of_not_feeds (d := d) (by simp [hpc, DispPc.feeds])
    have hspeak : now = some t := by simpa [hends] using hlive.now
    have hevent := hnow (by simp [hspeak])
    rw [if_neg hevent] at hd'
    refine .inl ⟨hlive.stream, hlive.unmarked, hlive.free, hlive.role, ?_, ⟨hlazy, hfailed⟩,
      fun hp => absurd hp hfeed, ?_⟩
    · simp only [Disp.ends, hd', hcurrent, decide_eq_true_eq]
      split
      · rename_i hend
        simp [nowAfter, hend]
      · rename_i hend
        have hnone : d.current.event = none := by
          cases hev : d.current.event with
          | none => rfl
          | some ev => cases ev <;> simp_all
        rw [nowAfter, if_pos hnone, hspeak]
    · have hfed := hlive.fed
      rw [hflight, List.append_nil] at hfed
      simp only [Disp.inFlight, hd', hcurrent]
      rw [contentAfter, if_pos hspeak, hfed]
  · rcases hshut.shut with hnone | ⟨_, hmarked, _⟩
    · exact .inr (Shut.of_inactive (hshut.settled.arrive _) hfeed hnone)
    · rw [hfree (by rw [Option.mem_def.mp ht]; rfl)] at hmarked
      cases hmarked

/-- A new turn is queued. -/
theorem Intake.queue (h : Intake vad opened latest taken content now gen stream marked markedFor fin p d o)
    (hpc : d.pc = .pendingStart) (hnow : now = none) (hd' : d'.pc.feeds = false)
    (hq : ∀ u, u ≠ p.fresh → q.turn u = p.turn u) (hfresh : q.fresh = p.fresh + 1)
    (first : List α) :
    Intake vad opened latest taken (fun u => if p.fresh = u then first else content u) (some p.fresh) gen
      stream marked markedFor fin q d' o := by
  obtain ⟨_, _, hfeed, hopen, hreplay, hlazy, _⟩ := quiet_of_not_feeds hd'
  have hprefix : ∀ u ∈ latest, (p.turn u).segments <+: (q.turn u).segments := by
    intro u hu
    simp only [hq u (Nat.ne_of_lt (h.known u hu)), List.prefix_rfl]
  refine ⟨hfresh ▸ h.ledger.queue first, h.vad, fun t ht => ?_, fun hp => ?_,
    fun hp => absurd hp hreplay, h.finalizing,
    h.segment_of_prefix hprefix, h.drain.of_prefix hprefix, fun hidle t ht => ?_⟩
  · rw [hfresh]
    exact Nat.lt_succ_of_lt (h.known t ht)
  · rcases hp with hp | hp
    · exact absurd hp hopen
    · exact absurd hp hlazy
  rcases h.rest hidle t ht with hlive | hshut
  · have hspeak := hlive.now
    simp [Disp.ends, hpc, hnow] at hspeak
  · obtain ⟨hsettled, _, hshut⟩ := hshut.follow hd'
    exact .inr ⟨hsettled.queue (h.known t ht) first, hfeed, hshut⟩

/-- Where the dispatcher feeds and the generation is not live, the generation is shut and not
active; so the dispatcher may do what it likes short of feeding. -/
theorem Intake.away (h : Intake vad opened latest taken content now gen stream marked markedFor fin p d o)
    (hoff : o.drain = .off) (hfeeds : d.pc.feeds = true)
    (hnot : ∀ t ∈ latest, ¬ Live taken content now gen stream marked fin p d o.role t)
    (hfeed : d'.pc ≠ .feed) (hreplay : d'.pc = .replay → latest = none)
    (hcalled : d'.pc = .openTurn ∨ d'.pc = .lazyOpen → ∀ g, d'.call = .returned g → latest = none)
    (hstream : stream = none → stream' = none) :
    Intake vad opened latest taken content now gen stream' marked' markedFor' fin p d' o := by
  refine ⟨h.ledger, h.vad, h.known, hcalled, hreplay, h.finalizing, h.segment, by rw [hoff]; trivial,
    fun hidle t ht => ?_⟩
  rcases h.rest hidle t ht with hlive | hshut
  · exact absurd hlive (hnot t ht)
  · exact .inr (Shut.of_inactive hshut.settled hfeed (hstream (hshut.inactive hfeeds)))

/-- The dispatcher leaves its segment where the generation is not live. -/
theorem Intake.awayQuiet
    (h : Intake vad opened latest taken content now gen stream marked markedFor fin p d o)
    (hoff : o.drain = .off) (hfeeds : d.pc.feeds = true)
    (hnot : ∀ t ∈ latest, ¬ Live taken content now gen stream marked fin p d o.role t)
    (hd' : d'.pc.feeds = false) (hstream : stream = none → stream' = none) :
    Intake vad opened latest taken content now gen stream' marked' markedFor' fin p d' o := by
  obtain ⟨_, _, hfeed, hopen, hreplay, hlazy, _⟩ := quiet_of_not_feeds hd'
  refine h.away hoff hfeeds hnot hfeed (fun hp => absurd hp hreplay) (fun hp => ?_) hstream
  rcases hp with hp | hp
  · exact absurd hp hopen
  · exact absurd hp hlazy

/-- The marker of the speech-end shuts the generation: its last segment has been fed. -/
theorem Intake.mark (h : Intake vad opened latest taken content now gen stream marked markedFor fin p d o)
    (hpc : d.pc = .latch) (hevent : d.current.event = some .speechEnd) (hoff : o.drain = .off)
    (hmarked : ∀ g, stream = some g → markedFor' = some g) (hd' : d'.pc.feeds = false) :
    Intake vad opened latest taken content now gen stream true markedFor' fin p d' o := by
  obtain ⟨_, _, hfeed, hopen, hreplay, hlazy, _⟩ := quiet_of_not_feeds hd'
  refine ⟨h.ledger, h.vad, h.known, fun hp => ?_, fun hp => absurd hp hreplay, h.finalizing,
    h.segment, by rw [hoff]; trivial, fun hidle t ht => .inr ?_⟩
  · rcases hp with hp | hp
    · exact absurd hp hopen
    · exact absurd hp hlazy
  rcases h.rest hidle t ht with hlive | hshut
  · have hnow := hlive.now
    have hfed := hlive.fed
    simp only [Disp.ends, hpc, hevent, decide_true, if_true] at hnow
    simp only [Disp.inFlight, hpc, List.append_nil] at hfed
    refine ⟨⟨hfed, by simp [hnow]⟩, hfeed,
      .inr ⟨hlive.stream, rfl, hmarked gen hlive.stream, hd', fun g hg => ?_⟩⟩
    rcases hlive.role with hr | hr <;> cases hr.symm.trans hg
  · exact Shut.of_inactive hshut.settled hfeed (hshut.inactive (by simp [hpc, DispPc.feeds]))

/-- The generation is not live while the dispatcher handles a speech-start. -/
theorem not_live_of_starts (hpc : d.pc.starts = true) (hnow : now = none) (t : ℕ) :
    ¬ Live taken content now gen stream marked fin p d role t := by
  intro hlive
  have hspeak := hlive.now
  cases hp : d.pc <;> simp_all [DispPc.starts, Disp.ends]

/-! What the drain does. -/

/-- One more segment. -/
theorem flatten_take_succ {segments : List (List α)} {n : ℕ} {samples : List α}
    (h : segments[n]? = some samples) :
    (segments.take (n + 1)).flatten = (segments.take n).flatten ++ samples := by
  rw [List.take_add_one, h]
  simp

theorem Drain.Fed.skip {g fed : ℕ} (h : (Drain.feeding t g fed).Fed latest taken gen stream p)
    (hseg : (p.turn t).segments[fed]? = some []) :
    (Drain.feeding t g (fed + 1)).Fed latest taken gen stream p := by
  obtain ⟨hg, hlatest, hstream, _, htaken⟩ := h
  obtain ⟨hlt, _⟩ := List.getElem?_eq_some_iff.mp hseg
  exact ⟨hg, hlatest, hstream, hlt, by rw [flatten_take_succ hseg, List.append_nil, htaken]⟩

theorem Drain.Fed.accept {g fed : ℕ} {samples : List α}
    (h : (Drain.feeding t g fed).Fed latest taken gen stream p)
    (hseg : (p.turn t).segments[fed]? = some samples) :
    (Drain.feeding t g (fed + 1)).Fed latest
      (fun n => if gen = n then taken n ++ samples else taken n) gen stream p := by
  obtain ⟨hg, hlatest, hstream, _, htaken⟩ := h
  obtain ⟨hlt, _⟩ := List.getElem?_eq_some_iff.mp hseg
  refine ⟨hg, hlatest, hstream, hlt, ?_⟩
  rw [flatten_take_succ hseg, ← htaken]
  exact if_pos rfl

/-- The whole turn has been fed. -/
theorem Drain.Fed.all {g fed : ℕ} (h : (Drain.feeding t g fed).Fed latest taken gen stream p)
    (hseg : (p.turn t).segments[fed]? = none) : taken gen = (p.turn t).segments.flatten := by
  obtain ⟨_, _, _, hle, htaken⟩ := h
  rw [htaken, List.take_of_length_le (List.getElem?_eq_none_iff.mp hseg)]

/-- The drain goes on. -/
theorem Intake.feed (h : Intake vad opened latest taken content now gen stream marked markedFor fin p d o)
    (hrole : o.role = .other) (hidle : o'.drain.idle = false)
    (hdrain : o'.drain.Fed latest taken gen stream' p)
    (hseg : o'.pc = .drainFeed → (p.turn o'.turn).segments[o'.index]? = some o'.segment) :
    Intake vad opened latest taken content now gen stream' marked markedFor fin p d o' :=
  ⟨h.ledger, h.vad, h.known, h.called, h.replay, fun hf => absurd (h.finalizing hf) (not_finalizes (.inl hrole)), hseg, hdrain,
    fun hi => by rw [hidle] at hi; cases hi⟩

/-- The drain hands the turn over: to the dispatcher if it is still being spoken, and
otherwise the marker of its speech-end shuts the generation. -/
theorem Intake.handOver
    (h : Intake vad opened latest taken content now gen stream marked markedFor fin p d o)
    (hrole : o.role = .other) (hd : d.pc.feeds = false) (hoff : o'.drain = .off)
    (hrole' : o'.role = .polling) (hpc : o'.pc ≠ .drainFeed) {fed : ℕ}
    (hdrain : o.drain = .feeding t gen fed) (hall : taken gen = content t)
    (hfresh : q.fresh = p.fresh) (hflag : q.draining = false)
    (hend : now ≠ some t ∧ marked' = true ∧ markedFor' = some gen ∨
      now = some t ∧ marked' = false ∧ q.turns = []) :
    Intake vad opened latest taken content now gen stream marked' markedFor' fin q d o' := by
  have hfed := h.drain
  rw [hdrain] at hfed
  obtain ⟨_, hlatest, hstream, _, _⟩ := hfed
  obtain ⟨hends, hflight, hfeed, _, _, hlazy, hfailed⟩ := quiet_of_not_feeds hd
  have hfin : fin = false := by
    by_contra hf
    exact not_finalizes (.inl hrole) (h.finalizing (by simpa using hf))
  refine ⟨hfresh ▸ h.ledger, h.vad, hfresh ▸ h.known, h.called, h.replay, by simp [hfin], fun hp => absurd hp hpc,
    by rw [hoff]; trivial, fun _ u hu => ?_⟩
  obtain rfl : t = u := Option.some.inj (hlatest.symm.trans hu)
  rcases hend with ⟨hnow, hm, hf⟩ | ⟨hnow, hm, hturns⟩
  · refine .inr ⟨⟨hall, hnow⟩, hfeed, .inr ⟨hstream, hm, hf, hd, fun g hg => ?_⟩⟩
    cases hrole'.symm.trans hg
  · exact .inl ⟨hstream, hm, ⟨hfin, hturns, hflag⟩, .inl hrole', by simpa [hends] using hnow,
      ⟨hlazy, hfailed⟩, fun hp => absurd hp hfeed, by rw [hflight, List.append_nil, hall]⟩

/-! How `asr_out_task` moves. -/

theorem not_live_of_role (h : role ≠ .polling ∧ role ≠ .over) (t : ℕ) :
    ¬ Live taken content now gen stream marked fin p d role t := fun hlive =>
  hlive.role.elim h.1 h.2

/-- `asr_out_task` moves, and the generation is not live. -/
theorem Intake.leave (h : Intake vad opened latest taken content now gen stream marked markedFor fin p d o)
    (hidle : o.drain.idle) (hidle' : o'.drain.idle)
    (hnot : ∀ t ∈ latest, ¬ Live taken content now gen stream marked fin p d o.role t)
    (hshut : ∀ t, Shut taken content now gen stream marked markedFor d o.role t →
      Shut taken content now gen stream' marked' markedFor' d o'.role t)
    (hfin : fin' = true → o'.finalizes = true)
    (hfresh : q.fresh = p.fresh) :
    Intake vad opened latest taken content now gen stream' marked' markedFor' fin' q d o' := by
  refine ⟨hfresh ▸ h.ledger, h.vad, hfresh ▸ h.known, h.called, h.replay, hfin, fun hpc => ?_, ?_, fun _ t ht => ?_⟩
  · cases hcall : o'.call <;> simp [Out.drain, hpc, hcall, Drain.idle] at hidle'
  · cases hdrain : o'.drain <;> simp_all [Drain.idle, Drain.Fed]
  · rcases h.rest hidle t ht with hlive | hold
    · exact absurd hlive (hnot t ht)
    · exact .inr (hshut t hold)

/-- `asr_out_task` moves on from a point where it neither polls nor finalizes. -/
theorem Intake.other (h : Intake vad opened latest taken content now gen stream marked markedFor fin p d o)
    (hrole : o.role = .other) (hidle : o.drain.idle) (hidle' : o'.drain.idle)
    (hshut : ∀ t, Shut taken content now gen stream marked markedFor d o.role t →
      Shut taken content now gen stream' marked' markedFor' d o'.role t)
    (hfin : fin' = true → fin = true) (hfresh : q.fresh = p.fresh) :
    Intake vad opened latest taken content now gen stream' marked' markedFor' fin' q d o' :=
  h.leave hidle hidle' (fun t _ => not_live_of_role (by simp [hrole]) t) hshut
    (fun hf => absurd (h.finalizing (hfin hf)) (not_finalizes (.inl hrole))) hfresh

/-- Nothing changes for a generation that is shut, unless a finalize begins. -/
theorem Shut.goto {role' : Role} (h : Shut taken content now gen stream marked markedFor d role t)
    (hrole : stream = some gen → ∀ g, role' = .finalizing g → g = gen) :
    Shut taken content now gen stream marked markedFor d role' t :=
  ⟨h.settled, h.feed, h.shut.imp_right fun ⟨hs, hm, hf, hd, _⟩ => ⟨hs, hm, hf, hd, hrole hs⟩⟩

/-- A generation that is finalized while it is shut is the active one, if one is active. -/
theorem Shut.finalized {g : ℕ}
    (h : Shut taken content now gen stream marked markedFor d (.finalizing g) t) :
    stream = none ∨ stream = some g :=
  h.shut.imp_right fun ⟨hs, _, _, _, hr⟩ => by rw [hs, hr g rfl]

/-- The generation is not active any more. -/
theorem Shut.deactivate {role' : Role}
    (h : Shut taken content now gen stream marked markedFor d role t) :
    Shut taken content now gen none marked' markedFor' d role' t :=
  ⟨h.settled, h.feed, .inl rfl⟩

/-- `asr_out_task` goes on polling, or ends. -/
theorem Intake.poll (h : Intake vad opened latest taken content now gen stream marked markedFor fin p d o)
    (hidle : o.drain.idle) (hidle' : o'.drain.idle) (hrole : o.role = .polling)
    (hrole' : o'.role = .polling ∨ o'.role = .over) :
    Intake vad opened latest taken content now gen stream marked markedFor fin p d o' := by
  refine ⟨h.ledger, h.vad, h.known, h.called, h.replay, fun hf => ?_, fun hpc => ?_, ?_, fun _ t ht => ?_⟩
  · exact absurd (h.finalizing hf) (not_finalizes (.inr hrole))
  · cases hcall : o'.call <;> simp [Out.drain, hpc, hcall, Drain.idle] at hidle'
  · cases hdrain : o'.drain <;> simp_all [Drain.idle, Drain.Fed]
  · rcases h.rest hidle t ht with hlive | hshut
    · exact .inl ⟨hlive.stream, hlive.unmarked, hlive.free, hrole', hlive.now, hlive.opens, hlive.call,
        hlive.fed⟩
    · refine .inr (hshut.goto fun _ g hg => ?_)
      rcases hrole' with hr | hr <;> cases hr.symm.trans hg

end Intake

/-! ### The session -/

variable {cfg : Cfg} {s s' : State α} {e : Env}

/-- Audio is admitted: the session is open, and no cancel task is joined. -/
structure State.Admits (s : State α) : Prop where
  session : s.asrSessionClosed = false
  cancel : s.asrCancelTask = none
  join : s.disp.pc ≠ .joinCancel ∧ s.disp.pc ≠ .joinFailed

/-- The dispatcher goes on with what it has admitted. -/
theorem State.Admits.goto (hs : s.Admits) {d : Disp α}
    (hpc : d.pc ≠ .joinCancel ∧ d.pc ≠ .joinFailed) : State.Admits { s with disp := d } :=
  ⟨hs.session, hs.cancel, hpc⟩

theorem next_joins (d : Disp α) : d.next.pc ≠ .joinCancel ∧ d.next.pc ≠ .joinFailed := by
  cases hrest : d.rest <;> simp [Disp.next, hrest]

theorem admits_admitAudio (hs : s.Admits) : (admitAudio cfg s).Admits := by
  unfold admitAudio
  split
  · exact hs.goto (by simp)
  split
  · exact hs.goto (by simp)
  exact ⟨hs.session, hs.cancel, next_joins _⟩

theorem admits_dispSegment (hs : s.Admits) (hpc : s.disp.pc = .segment)
    (hok : overflows cfg s = false) : (dispSegment cfg s).Admits := by
  unfold dispSegment
  dsimp only
  split
  case isTrue hblocked =>
    have hblocked' : pendingBlocked cfg s = true := hblocked
    split
    · exact ⟨hs.session, hs.cancel, by simp⟩
    rename_i hstart
    split
    · rename_i hopen
      split
      · rename_i hnone
        simp [overflows, hpc, hblocked', hstart, hopen, hnone] at hok
      · split
        · exact ⟨hs.session, hs.cancel, by simp⟩
        · exact ⟨hs.session, hs.cancel, next_joins _⟩
    · rename_i hopen
      split
      · rename_i hnone
        simp [overflows, hpc, hblocked', hstart, hopen, hnone] at hok
      · split
        · exact ⟨hs.session, hs.cancel, by simp⟩
        · exact ⟨hs.session, hs.cancel, next_joins _⟩
  case isFalse =>
    split <;> exact ⟨hs.session, hs.cancel, by simp⟩

theorem dispStep_admits (hs : s.Admits) (hmulti : cfg.multiUtterance = true)
    (hok : overflows cfg s = false) (h : dispStep cfg s e = some s') : s'.Admits := by
  cases hpc : s.disp.pc <;> simp only [dispStep, hpc] at h
  case recv | ended => cases h
  case joinCancel => exact absurd hpc hs.join.1
  case joinFailed => exact absurd hpc hs.join.2
  case segment =>
    cases h
    exact admits_dispSegment hs hpc hok
  case pendingStart =>
    cases h
    unfold dispPendingStart
    split
    · rename_i hnone
      have hnone' : s.pend.newTurn cfg.pendingLimitSamples s.disp.current.samples = none := hnone
      simp [overflows, hpc, hnone'] at hok
    · exact ⟨hs.session, hs.cancel, next_joins _⟩
  case liveStart =>
    cases h
    unfold dispLiveStart
    repeat' split
    · exact ⟨hs.session, hs.cancel, next_joins _⟩
    · exact ⟨hs.session, hs.cancel, by simp⟩
    · exact ⟨hs.session, hs.cancel, by simp⟩
  case openTurn =>
    split at h <;> cases h
    · unfold dispOpened
      dsimp only
      split <;> exact ⟨hs.session, hs.cancel, by simp⟩
    · exact hs.goto (by simp)
  case lazyTest =>
    cases h
    unfold dispLazyTest
    split <;> exact hs.goto (by simp)
  case latch =>
    cases h
    unfold dispLatch
    repeat' split
    · exact ⟨by simp [hs.session, hmulti], hs.cancel, by simp⟩
    · exact hs.goto (by simp)
    · exact hs.goto (by simp)
  case ring =>
    cases h
    unfold dispRing
    split <;> exact ⟨hs.session, hs.cancel, next_joins _⟩
  case pendingEnd | rejecting | openFailed | lazyFailed =>
    cases h
    exact ⟨hs.session, hs.cancel, next_joins _⟩
  case latched =>
    cases h
    exact ⟨hs.session, hs.cancel, by simp⟩
  all_goals
    split at h <;> cases h <;> exact ⟨hs.session, hs.cancel, by simp⟩

theorem receive_admits {msg : Msg α} (hs : s.Admits) (hmulti : cfg.multiUtterance = true)
    (hok : cutsTurn cfg s (.receive msg) = false) (h : receive cfg s msg = some s') : s'.Admits := by
  unfold receive at h
  split at h <;> cases h
  split
  · exact hs.goto (by simp)
  cases msg with
  | audio samples flips =>
    show (receiveAudio cfg s samples flips).Admits
    unfold receiveAudio
    rw [if_neg (by simp [hs.cancel])]
    exact admits_admitAudio ⟨hs.session, rfl, hs.join⟩
  | asrEos => exact ⟨by simp [receiveMsg, hs.session, hmulti], hs.cancel, hs.join⟩
  | abort keepAsr =>
    have hkeep : keepsAsr cfg s keepAsr = true := by simpa [cutsTurn] using hok
    simp only [receiveMsg, hkeep, if_true]
    exact hs
  | asrPrepare => exact ⟨hs.session, hs.cancel, hs.join⟩
  | disconnect => exact ⟨hs.session, hs.cancel, by simp [receiveMsg]⟩
  | other => exact hs

/-- `asr_out_task` closes the session only behind a connection for one utterance. -/
theorem outStep_admits (hs : s.Admits) (hmulti : cfg.multiUtterance = true)
    (h : outStep cfg s e = some s') : s'.Admits := by
  have hgo : ∀ t : State α, t.asrSessionClosed = s.asrSessionClosed →
      t.asrCancelTask = s.asrCancelTask → t.disp = s.disp → t.Admits := by
    intro t hclosed hcancel hdisp
    refine ⟨hclosed ▸ hs.session, hcancel ▸ hs.cancel, ?_⟩
    rw [hdisp]
    exact hs.join
  cases hpc : s.out.pc <;> simp only [outStep, hpc] at h
  case ended => cases h
  case decide =>
    cases h
    unfold outDecide
    dsimp only
    repeat' split
    all_goals exact ⟨by simp [State.clearEndpoint, hs.session, hmulti], hs.cancel, hs.join⟩
  case top =>
    cases h
    unfold outTop
    repeat' split
    all_goals exact hgo _ rfl rfl rfl
  case getPartial =>
    cases h
    unfold outPartial
    repeat' split
    all_goals exact hgo _ rfl rfl rfl
  case fired =>
    cases h
    unfold outFired
    split <;> exact hgo _ rfl rfl rfl
  case prepared =>
    cases h
    unfold outPrepared
    repeat' split
    all_goals exact hgo _ rfl rfl rfl
  case finalize wait =>
    split at h <;> cases h
    unfold outFinalize outCancelled outNotAccepted outAccepted State.movePendingTailToPreroll
    dsimp only
    repeat' split
    all_goals exact hgo _ rfl rfl rfl
  case finalizeCancel =>
    cases h
    unfold outNotAccepted
    dsimp only
    repeat' split
    all_goals exact hgo _ rfl rfl rfl
  case finalSend =>
    cases h
    unfold outFinalSent
    dsimp only
    repeat' split
    all_goals exact hgo _ rfl rfl rfl
  case drainNext =>
    cases h
    unfold drainNext drainMark drainPop drainFailed
    dsimp only
    repeat' split
    all_goals exact hgo _ rfl rfl rfl
  case drainOpen | drainFeed =>
    split at h <;> cases h
    · exact hgo _ rfl rfl rfl
    · unfold drainFailed
      split <;> exact hgo _ rfl rfl rfl
  case deadlineCancel | deadlineSend | loopEnd =>
    split at h <;> cases h <;> exact hgo _ rfl rfl rfl
  all_goals
    cases h
    exact hgo _ rfl rfl rfl

end Asr
end V2v
end OpenVoiceStream
