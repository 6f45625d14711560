import OpenVoiceStream.Base.Machine
import OpenVoiceStream.Base.Agents

/-!
# Admission to a voice session

The handler of `/v2v/stream` takes a token of the session limiter, counts the connection in a
gauge, registers it with the two backend managers and among the holders, and gives all this back
when it ends.  When there is no token, and there is one session only, a newcomer may evict the
holders: it closes and cancels them, and tries again for a while.

The handlers switch at their awaits only, so a step here is what a handler does between two of
them.  At every await it may raise, or be cancelled.

## Main definitions

* `State`, `Act`, `step`, `machine` — the handlers, the limiter and the registers.
* `State.releaseEarly` — `_v2v_release_early`.
* `State.releaseBlock` — what the cleanup at the end gives back.
-/

namespace OpenVoiceStream
namespace V2v
namespace Admission

/-- The token of a connection. -/
inductive Token
  | none
  | held
  | released
  deriving DecidableEq, Repr

/-- How a handler ends. -/
inductive Exit
  /-- There was no token for it. -/
  | rejected
  /-- In a branch that gives everything back. -/
  | early
  /-- With an exception, behind the guard that gives everything back. -/
  | raised
  /-- With an exception, before that guard. -/
  | unguarded
  /-- It returns after its cleanup. -/
  | returned
  deriving DecidableEq, Repr

/-- Where a handler stands. -/
inductive Pc (ι : Type)
  | idle
  /-- At the lock of the eviction. -/
  | evictWaiting
  /-- At the `ws.close()` of the first of these holders. -/
  | evicting (rest : List ι)
  /-- At the `sleep` between two tries, with so many to come. -/
  | polling (left : ℕ)
  /-- At `session_created`. -/
  | greeting
  /-- At an await of the first two stages. -/
  | setup
  /-- In the relay, or in the engine path. -/
  | relaying
  /-- At the `gather` of the work tasks. -/
  | serving
  /-- In the cleanup, before the slot is released; whether an exception is to be raised. -/
  | joining (raising : Bool)
  /-- In the cleanup, after the slot has been released. -/
  | closing (raising : Bool)
  | ended (how : Exit)
  deriving DecidableEq, Repr

/-- A connection: `incs` and `decs` count what it does to the gauge. -/
structure Conn (ι : Type) where
  pc : Pc ι
  token : Token
  metricTaken : Bool
  released : Bool
  asrMgr : Bool
  ttsMgr : Bool
  incs : ℕ
  decs : ℕ
  cancelled : Bool
  deriving DecidableEq, Repr

/-- The session limit, and `OVS_V2V_EVICT_ON_FULL`. -/
structure Cfg where
  limit : ℕ
  evictOnFull : Bool

/-- What a handler finds when it has got its token: whether the gauge works, which managers there
are, and for a client of the second version whether the adapter can be made. -/
structure Arrival where
  metric : Bool
  asrMgr : Bool
  ttsMgr : Bool
  adapter : Option Bool
  deriving DecidableEq, Repr

variable {ι : Type} [DecidableEq ι]

/-- The handlers, the limiter and the registers.  `foreign` tokens are held by other endpoints. -/
structure State (ι : Type) where
  conn : ι → Conn ι
  active : ℕ
  foreign : ℕ
  asrHandles : Finset ι
  ttsHandles : Finset ι
  holders : Finset ι
  evictLocked : Bool

/-- A connection that has not come yet. -/
def Conn.fresh : Conn ι :=
  { pc := .idle, token := .none, metricTaken := false, released := false, asrMgr := false
    ttsMgr := false, incs := 0, decs := 0, cancelled := false }

/-- Nobody is there. -/
def State.start : State ι :=
  { conn := fun _ => .fresh, active := 0, foreign := 0, asrHandles := ∅, ttsHandles := ∅
    holders := ∅, evictLocked := false }

/-! ### Giving back -/

/-- The fields of one connection change. -/
def State.modify (s : State ι) (i : ι) (f : Conn ι → Conn ι) : State ι :=
  { s with conn := Function.update s.conn i (f (s.conn i)) }

/-- The handler moves. -/
def State.move (s : State ι) (i : ι) (pc : Pc ι) : State ι :=
  s.modify i fun c => { c with pc := pc }

/-- `_released = True`. -/
def Token.release : Token → Token
  | .held => .released
  | token => token

/-- `SessionToken.release`. -/
def State.releaseToken (s : State ι) (i : ι) : State ι :=
  { s.modify i fun c => { c with token := c.token.release } with
    active := if (s.conn i).token = .held then s.active - 1 else s.active }

/-- `unregister_ws` of both managers. -/
def State.unregister (s : State ι) (i : ι) : State ι :=
  { s with
    asrHandles := if (s.conn i).asrMgr then s.asrHandles.erase i else s.asrHandles
    ttsHandles := if (s.conn i).ttsMgr then s.ttsHandles.erase i else s.ttsHandles }

/-- `dec_active_ws_sessions`, if the gauge has been incremented. -/
def State.decGauge (s : State ι) (i : ι) : State ι :=
  s.modify i fun c => { c with decs := if c.metricTaken then c.decs + 1 else c.decs }

/-- `_v2v_release_early`. -/
def State.releaseEarly (s : State ι) (i : ι) : State ι :=
  if (s.conn i).released then s
  else
    let s := s.modify i fun c => { c with released := true }
    let s : State ι := { s with holders := s.holders.erase i }
    ((s.unregister i).releaseToken i).decGauge i

/-- What the cleanup at the end gives back, twice. -/
def State.releaseBlock (s : State ι) (i : ι) : State ι :=
  (((s.unregister i).releaseToken i).decGauge i).modify i fun c => { c with metricTaken := false }

/-! ### Admission -/

/-- Where a handler that has got its token goes.  A client of the second version is greeted, when
its adapter can be made. -/
def Arrival.firstAwait (a : Arrival) : Pc ι :=
  match a.adapter with
  | none => .setup
  | some true => .greeting
  | some false => .ended .unguarded

/-- A handler that has got its token, up to its first await. -/
def State.enter (s : State ι) (i : ι) (a : Arrival) : State ι :=
  { s.modify i fun c =>
      { c with
        token := .held
        metricTaken := a.metric
        incs := if a.metric then c.incs + 1 else c.incs
        asrMgr := a.asrMgr
        ttsMgr := a.ttsMgr
        pc := a.firstAwait } with
    active := s.active + 1
    asrHandles := if a.asrMgr then insert i s.asrHandles else s.asrHandles
    ttsHandles := if a.ttsMgr then insert i s.ttsHandles else s.ttsHandles
    holders := insert i s.holders }

/-- `_v2v_evict_enabled`. -/
def Cfg.evictEnabled (cfg : Cfg) : Bool := cfg.evictOnFull && cfg.limit = 1

/-- The lock of the eviction is released. -/
def State.unlock (s : State ι) : State ι := { s with evictLocked := false }

/-- A holder has been closed: its task is cancelled. -/
def State.evict (s : State ι) (h : ι) : State ι :=
  s.modify h fun c =>
    { c with cancelled := match c.pc with
        | .ended _ => c.cancelled
        | _ => true }

/-- The guard around the handler: everything is given back, and the exception goes on. -/
def State.guard (s : State ι) (i : ι) : State ι := (s.releaseEarly i).move i (.ended .raised)

/-! ### The machine -/

/-- The steps of the handlers. -/
inductive Act (ι : Type)
  | connect (i : ι) (a : Arrival)
  /-- The newcomer gets the lock, and sees the holders in this order. -/
  | evictLocked (i : ι) (a : Arrival) (order : List ι)
  | evictNext (i : ι)
  | evictPoll (i : ι) (a : Arrival)
  | greeted (i : ι)
  /-- A branch of the setup that refuses the client. -/
  | refuse (i : ι)
  | relay (i : ι)
  | relayEnds (i : ι) (raising : Bool)
  | serve (i : ι)
  | serveEnds (i : ι) (raising : Bool)
  | joined (i : ι)
  | closed (i : ι)
  /-- An exception or a cancellation comes out of the await where the handler stands. -/
  | fails (i : ι)
  /-- Another endpoint takes a token. -/
  | foreignAcquire
  | foreignRelease

/-- An exception or a cancellation comes out of an await. -/
def State.fail (s : State ι) (i : ι) : Option (State ι) :=
  match (s.conn i).pc with
  | .evictWaiting => some (s.move i (.ended .rejected))
  | .evicting _ | .polling _ => some (s.unlock.move i (.ended .rejected))
  | .greeting => some (s.move i (.ended .unguarded))
  | .setup | .joining _ | .closing _ => some (s.guard i)
  | .idle | .relaying | .serving | .ended _ => none

/-- One step. -/
def step (cfg : Cfg) (s : State ι) : Act ι → Option (State ι)
  | .connect i a =>
    match (s.conn i).pc with
    | .idle =>
      if s.active < cfg.limit then some (s.enter i a)
      else if cfg.evictEnabled then some (s.move i .evictWaiting)
      else some (s.move i (.ended .rejected))
    | _ => none
  | .evictLocked i a order =>
    match (s.conn i).pc with
    | .evictWaiting =>
      if s.evictLocked = true ∨ ¬ (order.Nodup ∧ order.toFinset = s.holders) then none
      else if s.active < cfg.limit then some (s.enter i a)
      else if order = [] then some (s.move i (.ended .rejected))
      else some ({ s with evictLocked := true }.move i (.evicting order))
    | _ => none
  | .evictNext i =>
    match (s.conn i).pc with
    | .evicting (h :: h' :: rest) => some ((s.evict h).move i (.evicting (h' :: rest)))
    | .evicting [h] => some ((s.evict h).move i (.polling 40))
    | _ => none
  | .evictPoll i a =>
    match (s.conn i).pc with
    | .polling left =>
      if s.active < cfg.limit then some (s.unlock.enter i a)
      else if left ≤ 1 then some (s.unlock.move i (.ended .rejected))
      else some (s.move i (.polling (left - 1)))
    | _ => none
  | .greeted i =>
    match (s.conn i).pc with
    | .greeting => some (s.move i .setup)
    | _ => none
  | .refuse i =>
    match (s.conn i).pc with
    | .setup => some ((s.releaseEarly i).move i (.ended .early))
    | _ => none
  | .relay i =>
    match (s.conn i).pc with
    | .setup => some (s.move i .relaying)
    | _ => none
  | .relayEnds i raising =>
    match (s.conn i).pc with
    | .relaying =>
      if raising then some ((s.releaseEarly i).guard i)
      else some ((s.releaseEarly i).move i (.ended .early))
    | _ => none
  | .serve i =>
    match (s.conn i).pc with
    | .setup => some (s.move i .serving)
    | _ => none
  | .serveEnds i raising =>
    match (s.conn i).pc with
    | .serving => some (s.move i (.joining raising))
    | _ => none
  | .joined i =>
    match (s.conn i).pc with
    | .joining raising => some ((s.releaseBlock i).move i (.closing raising))
    | _ => none
  | .closed i =>
    match (s.conn i).pc with
    | .closing true => some ((s.releaseBlock i).guard i)
    | .closing false => some ((s.releaseBlock i).move i (.ended .returned))
    | _ => none
  | .fails i => s.fail i
  | .foreignAcquire =>
    if s.active < cfg.limit then
      some { s with active := s.active + 1, foreign := s.foreign + 1 }
    else none
  | .foreignRelease =>
    if s.foreign = 0 then none
    else some { s with active := s.active - 1, foreign := s.foreign - 1 }

/-- The handlers from the start of the server on. -/
def machine (ι : Type) [DecidableEq ι] (cfg : Cfg) : Machine (State ι) (Act ι) :=
  { init := State.start, step := step cfg }

end Admission
end V2v
end OpenVoiceStream
