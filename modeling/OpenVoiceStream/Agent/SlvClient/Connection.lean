import OpenVoiceStream.Base.Machine
import Mathlib.Data.List.Nodup
import Mathlib.Logic.Function.Basic

/-!
# The WebSocket of the client

Tasks of the agent send frames and ask for reconnects; whoever works on the connection holds
the send lock, so between two of its awaits only the server, the reader tasks, the consumer of
the events and the cancellation of a call come in. A send on a dead connection opens a new one
under the lock it already holds. Opening retries a limited number of times: a WebSocket counts
as accepted when no reader has ended in the grace time after its handshake.

The first `connect` runs before any other call, and `close` after all of them; neither takes
the lock, and a run here is what happens in between.

## Main definitions

* `Sock`, `State` — WebSockets by their number, the fields of the client, and who works on it.
* `Stage` — the awaits of the call that holds the lock.
* `machine` — the steps.
-/

namespace OpenVoiceStream.SlvClient.Connection

/-- A WebSocket; it is closing once the client has called `close` on it. -/
inductive Sock
  | open
  | closing
  | closed
  deriving DecidableEq

/-- A call of `_send_json` or `send_audio`: whether it may open a connection, and the
WebSocket it is bound to. -/
structure Send where
  connectIfDead : Bool
  onlyOn : Option ℕ
  deriving DecidableEq

/-- What was sent: the call, the WebSocket it went over and the generation at that time. -/
structure Frame where
  send : Send
  ws : ℕ
  gen : ℕ
  deriving DecidableEq

/-- What a call does with the WebSocket it has opened. -/
inductive After
  | send (x : Send)
  | done
  deriving DecidableEq

/-- The awaits of the call that holds the lock. -/
inductive Stage
  /-- `await ws_connect(…)`, in the attempt of this number. -/
  | connecting (i : ℕ) (k : After)
  /-- Sending the configuration, or the V2 handshake. -/
  | handshake (i : ℕ) (k : After)
  /-- Closing a WebSocket that was closed during the handshake. -/
  | closeRefused (i : ℕ) (k : After)
  /-- Closing a WebSocket whose handshake was answered with a refusal. -/
  | closeRejected
  /-- `await asyncio.sleep(backoff)`. -/
  | backoff (i : ℕ) (k : After)
  /-- The grace time; `woken` once `_reader_done` has been set in it. -/
  | grace (i : ℕ) (k : After) (woken : Bool)
  /-- Waiting for the reader of a WebSocket that died in the grace time, then closing it. -/
  | stopDead (reader : ℕ) (ws : Option ℕ) (i : ℕ) (k : After)
  | closeDead (ws : ℕ) (i : ℕ) (k : After)
  /-- `await self._ws.send(…)`. -/
  | sending (x : Send)
  /-- Waiting for the old reader, closing the old WebSocket, and the pause after it. -/
  | stopOld (reader : ℕ) (ws : Option ℕ)
  | closeOld (ws : ℕ)
  | pause
  deriving DecidableEq

/-- The client. The last three fields are what has happened: on which WebSockets the handshake
was completed, for which the generation was counted up, and what was sent. -/
structure State where
  sock : ℕ → Option Sock
  next : ℕ
  /-- `_ws`. -/
  ws : Option ℕ
  /-- `_reader_task`, by the WebSocket it reads. -/
  reader : Option ℕ
  /-- The reader task of the WebSocket has not ended. -/
  running : ℕ → Bool
  /-- `_reader_done`. -/
  readerDone : Bool
  /-- `_session_gen`. -/
  gen : ℕ
  holder : Option Stage
  shaken : List ℕ
  healthy : List ℕ
  sent : List Frame

inductive Call
  | connect
  | send (x : Send)
  | reconnect
  deriving DecidableEq

/-- How the await of the call that holds the lock ends. -/
inductive Outcome
  | opened
  /-- `ws_connect` raises. -/
  | refused
  | shaken
  | closedByServer
  /-- `SLVReconnectError`. -/
  | rejected
  /-- Another exception: the answer is no JSON object. -/
  | odd
  /-- The grace time is over. -/
  | healthy
  | next
  | sent
  | sendClosed
  | cancel
  deriving DecidableEq

inductive Action
  | call (c : Call)
  | serverClose (w : ℕ)
  /-- The closing handshake of a WebSocket comes to its end. -/
  | closed (w : ℕ)
  | readerEnd (w : ℕ)
  /-- `events` finds the reader running and clears `_reader_done`. -/
  | clear
  | holder (o : Outcome)
  deriving DecidableEq

namespace State

variable (s : State)

/-- `_RECONNECT_BACKOFFS` is three long, and the last attempt has none. -/
def lastAttempt : ℕ := 3

/-- The lock is free again. -/
def release : State := { s with holder := none }

/-- One attempt of `_open_with_retry`, up to its first await. -/
def openAttempt (i : ℕ) (k : After) : State :=
  { s with readerDone := false, holder := some (.connecting i k) }

/-- What the call does with a WebSocket it has opened. -/
def finish (k : After) : State :=
  match k with
  | .send x => { s with holder := some (.sending x) }
  | .done => s.release

/-- `close()` of a WebSocket, up to its await. -/
def beginClose (w : ℕ) : State :=
  if s.sock w = some .open then { s with sock := Function.update s.sock w (some .closing) } else s

/-- After an attempt has failed. -/
def retry (i : ℕ) (k : After) : State :=
  if i = lastAttempt then s.release else { s with holder := some (.backoff i k) }

/-- Closing a WebSocket that died in the grace time. -/
def closeDead (ws : Option ℕ) (i : ℕ) (k : After) : State :=
  match ws with
  | some w => { s.beginClose w with holder := some (.closeDead w i k) }
  | none => s.retry i k

/-- Closing the old WebSocket. -/
def closeOld (ws : Option ℕ) : State :=
  match ws with
  | some w => { s.beginClose w with holder := some (.closeOld w) }
  | none => { s with holder := some .pause }

/-- The client lets go of its WebSocket and of its reader. -/
def letGo : State := { s with ws := none, reader := none }

/-- A call takes the lock. -/
def enter : Call → State
  | .connect => if s.ws.isSome then s else s.openAttempt 0 .done
  | .send x =>
    if x.onlyOn.isSome ∧ s.ws ≠ x.onlyOn then s
    else if s.ws.isSome then { s with holder := some (.sending x) }
    else if x.connectIfDead then s.openAttempt 0 (.send x)
    else s
  | .reconnect =>
    match s.reader.filter s.running with
    | some r => { s.letGo with holder := some (.stopOld r s.ws) }
    | none => s.letGo.closeOld s.ws

/-- The await of the call that holds the lock ends. -/
def proceed : Stage → Outcome → Option State
  | .connecting i k, .opened =>
    some { s with
      sock := Function.update s.sock s.next (some .open)
      next := s.next + 1
      ws := some s.next
      holder := some (.handshake i k) }
  | .connecting _ _, .refused => some s.release
  | .handshake i k, .shaken =>
    s.ws.map fun w =>
      { s with
        shaken := s.shaken ++ [w]
        reader := some w
        running := Function.update s.running w true
        holder := some (.grace i k s.readerDone) }
  | .handshake i k, .closedByServer =>
    match s.ws with
    | some w => if s.sock w = some .open then none else some { s with holder := some (.closeRefused i k) }
    | none => none
  | .handshake _ _, .rejected =>
    s.ws.map fun w => { s.beginClose w with holder := some .closeRejected }
  | .handshake _ _, .odd => some s.release
  | .closeRefused i k, .next =>
    if s.ws.all fun w => s.sock w = some .closed then some ({ s with ws := none }.retry i k) else none
  | .closeRejected, .next =>
    if s.ws.all fun w => s.sock w = some .closed then some { s with ws := none }.release else none
  | .backoff i k, .next => some (s.openAttempt (i + 1) k)
  -- the end of the grace time may come before the call that `_reader_done` has woken runs
  | .grace _ k _, .healthy =>
    s.ws.map fun w => { s with gen := s.gen + 1, healthy := s.healthy ++ [w] }.finish k
  | .grace i k true, .next =>
    match s.reader.filter s.running with
    | some r => some { s.letGo with holder := some (.stopDead r s.ws i k) }
    | none => some (s.letGo.closeDead s.ws i k)
  | .stopDead r ws i k, .next => if s.running r then none else some (s.closeDead ws i k)
  | .closeDead w i k, .next => if s.sock w = some .closed then some (s.retry i k) else none
  | .sending x, .sent =>
    match s.ws with
    | some w =>
      if s.sock w = some .open then some { s with sent := ⟨x, w, s.gen⟩ :: s.sent }.release else none
    | none => none
  | .sending _, .sendClosed =>
    match s.ws with
    | some w => if s.sock w = some .open then none else some { s with ws := none }.release
    | none => none
  | .stopOld r ws, .next => if s.running r then none else some (s.closeOld ws)
  | .closeOld w, .next => if s.sock w = some .closed then some { s with holder := some .pause } else none
  | .pause, .next => some (s.openAttempt 0 .done)
  -- waiting for a reader passes a cancellation over, every other await passes it on
  | .stopOld _ _, .cancel => some s
  | .stopDead _ _ _ _, .cancel => some s
  | _, .cancel => some s.release
  | _, _ => none

/-- A reader that ends wakes the grace time. -/
def wake : Option Stage → Option Stage
  | some (.grace i k _) => some (.grace i k true)
  | holder => holder

/-- A step. -/
def step : Action → Option State
  | .call c =>
    match s.holder with
    | none => some (s.enter c)
    | some _ => none
  | .serverClose w =>
    if s.sock w = some .open then some { s with sock := Function.update s.sock w (some .closed) }
    else none
  | .closed w =>
    if s.sock w = some .closing then some { s with sock := Function.update s.sock w (some .closed) }
    else none
  | .readerEnd w =>
    if s.running w then
      some { s with
        running := Function.update s.running w false
        readerDone := true
        holder := wake s.holder }
    else none
  | .clear =>
    if s.readerDone ∧ s.reader.any s.running then some { s with readerDone := false } else none
  | .holder o =>
    match s.holder with
    | some stage => s.proceed stage o
    | none => none

end State

/-- Before the first call. -/
def start : State where
  sock := fun _ => none
  next := 0
  ws := none
  reader := none
  running := fun _ => false
  readerDone := false
  gen := 0
  holder := none
  shaken := []
  healthy := []
  sent := []

/-- The client and the server. -/
def machine : Machine State Action := ⟨start, State.step⟩

/-- A client that connects and sends a frame, is told to reconnect, and sends another. -/
def reconnectRun : List Action :=
  [.call .connect, .holder .opened, .holder .shaken, .holder .healthy,
    .call (.send ⟨false, some 0⟩), .holder .sent, .call .reconnect, .readerEnd 0, .holder .next,
    .closed 0, .holder .next, .holder .next, .holder .opened, .holder .shaken, .holder .healthy,
    .call (.send ⟨true, none⟩), .holder .sent]

end OpenVoiceStream.SlvClient.Connection
