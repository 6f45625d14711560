import OpenVoiceStream.Base.Machine

/-!
# The power of the arm

`RebotArmActuator` publishes a wrapper around the SDK and takes it back; `connect`,
`disconnect` and `set_torque` are called from any thread. `_lock` is held for the sections that
read and write the published wrapper, `_connect_lock` through a whole `connect`, and the SDK is
called outside `_lock` wherever the wrapper is not published. Every call of the SDK may raise,
with or without an effect.

## Main definitions

* `Outcome`, `Wrapper` — what a call of the SDK comes to; a wrapper with its motors and its
  controller.
* `Wrapper.connect`, `Wrapper.disconnect`, `Wrapper.setTorque` — the methods of `RebotArm`.
* `Call`, `Actuator` — how far a call of the actuator is; its fields and the calls.
* `step`, `machine` — the calls, section by section.
* `Safe` — at most the published wrapper has energised motors, with a controller.
* `Careful` — the steps that keep it so.
-/

namespace OpenVoiceStream.Arm.Power

/-! ### The wrapper -/

/-- What a call of the SDK comes to; `missing`: it has no such function. -/
inductive Outcome
  | done
  | raised (took : Bool)
  | missing
  deriving DecidableEq

/-- The call has had its effect. -/
def Outcome.took : Outcome → Bool
  | .done => true
  | .raised took => took
  | .missing => false

/-- The call raises. -/
def Outcome.raises : Outcome → Bool
  | .done => false
  | .raised _ | .missing => true

/-- The call raises where it is asked first whether there is such a function. -/
def Outcome.fails : Outcome → Bool
  | .raised _ => true
  | .done | .missing => false

/-- A wrapper: its bus, whether its motors are energised and a position controller runs,
`_endpos_ctrl is not None`, `_connected`, and whether it is between the start of its `connect` and
the end of its `disconnect`. -/
structure Wrapper where
  channel : String
  energised : Bool
  controller : Bool
  endposCtrl : Bool
  connected : Bool
  isOpen : Bool
  deriving DecidableEq

/-- `_arm.enable()`. -/
def Wrapper.enable (w : Wrapper) (call : Outcome) : Wrapper :=
  { w with energised := w.energised || call.took }

/-- `_arm.disable()`. -/
def Wrapper.disable (w : Wrapper) (call : Outcome) : Wrapper :=
  { w with energised := w.energised && !call.took }

/-- `_endpos_ctrl = ArmEndPos(_arm)` and its `start()`; one that raises is let go. -/
def Wrapper.startCtrl (w : Wrapper) (call : Outcome) : Wrapper :=
  { w with endposCtrl := !call.raises, controller := w.controller || call.took }

/-- `end()` of the controller, if there is one, which is let go whatever comes of it. -/
def Wrapper.endCtrl (w : Wrapper) (call : Outcome) : Wrapper :=
  if w.endposCtrl then
    { w with endposCtrl := false, controller := w.controller && !call.took }
  else w

/-- The calls of `RebotArm.connect`. -/
structure ConnectCalls where
  connect : Outcome
  enable : Outcome
  start : Outcome
  disable : Outcome
  deriving DecidableEq

/-- `RebotArm.connect(enable=True)`, and whether it returns. -/
def Wrapper.connect (w : Wrapper) (calls : ConnectCalls) : Wrapper × Bool :=
  if calls.connect.raises then (w, false)
  else
    let w := w.enable calls.enable
    if calls.enable.raises then (w, false)
    else
      let w := w.startCtrl calls.start
      if calls.start.raises then (w.disable calls.disable, false)
      else ({ w with connected := true }, true)

/-- The calls of `RebotArm.disconnect`, and whether the SDK's own `disconnect` drops the torque. -/
structure DisconnectCalls where
  stop : Outcome
  disable : Outcome
  drops : Bool
  deriving DecidableEq

/-- `RebotArm.disconnect`. -/
def Wrapper.disconnect (w : Wrapper) (calls : DisconnectCalls) : Wrapper :=
  let w := (w.endCtrl calls.stop).disable calls.disable
  { w with energised := w.energised && !calls.drops, connected := false, isOpen := false }

/-- The calls of `set_torque`, of the wrapper and then of the actuator. -/
structure TorqueCalls where
  enable : Outcome
  stop : Outcome
  start : Outcome
  disable : Outcome
  fallback : Outcome
  deriving DecidableEq

/-- `RebotArm.set_torque`, and whether it returns. -/
def Wrapper.setTorque (w : Wrapper) (enable : Bool) (calls : TorqueCalls) : Wrapper × Bool :=
  if !w.connected then (w, false)
  else if enable then
    let w := w.enable calls.enable
    if calls.enable.raises then (w, false)
    else
      let w := (w.endCtrl calls.stop).startCtrl calls.start
      if calls.start.raises then (w.disable calls.disable, false) else (w, true)
  else
    let w := (w.endCtrl calls.stop).disable calls.disable
    (w, !calls.disable.fails)

/-- What `set_torque` of the actuator makes of the wrapper: where the wrapper's own raises, the
motors alone are enabled or disabled. -/
def Wrapper.toggle (w : Wrapper) (enable : Bool) (calls : TorqueCalls) : Wrapper :=
  match w.setTorque enable calls with
  | (w, true) => w
  | (w, false) => if enable then w.enable calls.fallback else w.disable calls.fallback

/-! ### The actuator -/

/-- How far a call is. Those of `connect` carry the generation they have read, the bus they have
found, and the wrapper they tear down or build. -/
inductive Call
  | connectCalled
  | waiting (generation : ℕ)
  | checking (generation : ℕ)
  | resolving (generation : ℕ)
  | unpublishing (generation : ℕ) (channel : String)
  | stale (generation : ℕ) (channel : String) (i : ℕ)
  | building (generation : ℕ) (channel : String)
  | connecting (generation i : ℕ)
  | publishing (generation i : ℕ)
  | handingBack (i : ℕ)
  | priming
  | disconnectCalled
  | tearingDown (i : ℕ)
  | torqueCalled (enable : Bool)
  | torqueChecked (enable : Bool)
  | returned
  deriving DecidableEq

/-- The fields `_generation`, `_robot`, `_torque_state` and `_connect_lock`, the wrappers that
have been built and the calls that have been made. `down`: the last call of `connect` or
`disconnect` is one of `disconnect`. -/
structure Actuator where
  generation : ℕ
  robot : Option ℕ
  torqueEnabled : Bool
  connectLock : Option ℕ
  wrappers : List Wrapper
  calls : List Call
  down : Bool
  deriving DecidableEq

/-- A call gets on. -/
def Actuator.at (s : Actuator) (k : ℕ) (call : Call) : Actuator :=
  { s with calls := s.calls.set k call }

/-- A call of `connect` is over. -/
def Actuator.leave (s : Actuator) (k : ℕ) : Actuator :=
  { s.at k .returned with connectLock := none }

/-- A wrapper is torn down. -/
def Actuator.tearDown (s : Actuator) (i : ℕ) (calls : DisconnectCalls) : Actuator :=
  { s with wrappers := s.wrappers.modify i (·.disconnect calls) }

/-- `set_torque` with `_lock` held. -/
def Actuator.setTorque (s : Actuator) (enable : Bool) (calls : TorqueCalls) : Actuator :=
  match s.robot with
  | some i =>
    { s with
      torqueEnabled := enable
      wrappers := s.wrappers.modify i (·.toggle enable calls) }
  -- taken back since it was looked at
  | none => { s with torqueEnabled := enable }

/-- What the environment answers: the bus, if one is found; whether a wrapper can be built; the
calls of the SDK. -/
structure Env where
  channel : Option String
  built : Bool
  connect : ConnectCalls
  disconnect : DisconnectCalls
  torque : TorqueCalls

/-- A call is made, or one gets on. -/
inductive Act
  | connect
  | disconnect
  | setTorque (enable : Bool)
  | go (k : ℕ) (env : Env)

/-- A call gets on by one section. -/
def advance (s : Actuator) (k : ℕ) (env : Env) : Call → Option Actuator
  | .connectCalled => some (s.at k (.waiting s.generation))
  | .waiting generation =>
    if s.connectLock = none then
      some { s.at k (.checking generation) with connectLock := some k }
    else none
  | .checking generation =>
    if s.generation = generation then some (s.at k (.resolving generation)) else some (s.leave k)
  | .resolving generation =>
    match env.channel with
    | some channel => some (s.at k (.unpublishing generation channel))
    | none => some (s.leave k)
  | .unpublishing generation channel =>
    let s' := { s with robot := none, torqueEnabled := false }
    match s.robot with
    | some i => some (s'.at k (.stale generation channel i))
    | none => some (s'.at k (.building generation channel))
  | .stale generation channel i =>
    some ((s.tearDown i env.disconnect).at k (.building generation channel))
  | .building generation channel =>
    if env.built then
      let w : Wrapper :=
        { channel := channel, energised := false, controller := false, endposCtrl := false
          connected := false, isOpen := true }
      some ({ s with wrappers := s.wrappers ++ [w] }.at k
        (.connecting generation s.wrappers.length))
    else some (s.leave k)
  | .connecting generation i =>
    match s.wrappers[i]? with
    | some w =>
      let (w, returns) := w.connect env.connect
      some ({ s with wrappers := s.wrappers.set i w }.at k
        (if returns then .publishing generation i else .handingBack i))
    | none => none
  | .publishing generation i =>
    if s.generation = generation then
      some ({ s with robot := some i, torqueEnabled := true }.at k .priming)
    else some (s.at k (.handingBack i))
  | .handingBack i => some ((s.tearDown i env.disconnect).leave k)
  | .priming => some (s.leave k)
  | .disconnectCalled =>
    let s' := { s with generation := s.generation + 1, robot := none, torqueEnabled := false }
    match s.robot with
    | some i => some (s'.at k (.tearingDown i))
    | none => some (s'.at k .returned)
  | .tearingDown i => some ((s.tearDown i env.disconnect).at k .returned)
  | .torqueCalled enable =>
    some (s.at k (if s.robot = none then .returned else .torqueChecked enable))
  | .torqueChecked enable => some ((s.setTorque enable env.torque).at k .returned)
  | .returned => none

/-- A step. -/
def step (s : Actuator) : Act → Option Actuator
  | .connect => some { s with calls := s.calls ++ [.connectCalled], down := false }
  | .disconnect => some { s with calls := s.calls ++ [.disconnectCalled], down := true }
  | .setTorque enable => some { s with calls := s.calls ++ [.torqueCalled enable] }
  | .go k env => (s.calls[k]?).bind (advance s k env)

/-- The actuator from its start. -/
def machine : Machine Actuator Act where
  init :=
    { generation := 0, robot := none, torqueEnabled := false, connectLock := none
      wrappers := [], calls := [], down := false }
  step := step

/-! ### What is asked of a run -/

/-- No call is executing. -/
def Quiet (s : Actuator) : Prop := ∀ call ∈ s.calls, call = .returned

instance (s : Actuator) : Decidable (Quiet s) :=
  inferInstanceAs (Decidable (∀ call ∈ s.calls, call = .returned))

/-- What the actuator promises: of two wrappers between the start of their `connect` and the end
of their `disconnect` each has a bus of its own; and while no call is executing, at most the
published wrapper has energised motors, these have a controller, the torque is on only for such a
wrapper, and after a `disconnect` that was called last no motor is energised. -/
structure Safe (s : Actuator) : Prop where
  bus : ∀ (i j : ℕ) (w v : Wrapper), s.wrappers[i]? = some w → s.wrappers[j]? = some v →
    w.isOpen = true → v.isOpen = true → w.channel = v.channel → i = j
  owned : Quiet s → ∀ (i : ℕ) (w : Wrapper), s.wrappers[i]? = some w → w.energised = true →
    s.robot = some i
  controlled : Quiet s → ∀ w ∈ s.wrappers, w.energised = true → w.controller = true
  torque : Quiet s → s.torqueEnabled = true →
    ∃ (i : ℕ) (w : Wrapper), s.robot = some i ∧ s.wrappers[i]? = some w ∧ w.energised = true
  down : Quiet s → s.down = true → ∀ w ∈ s.wrappers, w.energised = false

/-- The wrapper whose end of `disconnect` a `disconnect` of the actuator waits for. -/
def Call.tearsDown : Call → Option ℕ
  | .tearingDown i => some i
  | _ => none

/-- Tearing the wrapper down drops its torque. -/
def Wrapper.Drops (w : Wrapper) (calls : DisconnectCalls) : Prop :=
  w.energised = true → calls.disable.took = true ∨ calls.drops = true

/-- A controller runs once the old one has been let go and a new one started. -/
def Wrapper.restarts (w : Wrapper) (calls : TorqueCalls) : Bool :=
  w.controller && !(w.endposCtrl && calls.stop.took) || calls.start.took

/-- `set_torque(True)` does not raise in the wrapper; or it raises at once, the controller runs
and the motors are energised all the same; or only the start of the controller raises, one runs
all the same and the motors stay energised. -/
def Wrapper.TurnsOn (w : Wrapper) (calls : TorqueCalls) : Prop :=
  if calls.enable.raises then
    w.controller = true ∧
      (w.energised || calls.enable.took || calls.fallback.took) = true
  else calls.start.raises = true →
    w.restarts calls = true ∧ (!calls.disable.took || calls.fallback.took) = true

/-- `set_torque(False)` drops the torque in the wrapper or after it has raised, or there is none,
or the controller runs on. -/
def Wrapper.TurnsOff (w : Wrapper) (calls : TorqueCalls) : Prop :=
  w.energised = true → calls.disable.took = true ∨
    (calls.disable.fails = true ∧ calls.fallback.took = true) ∨
    (w.controller && !(w.endposCtrl && calls.stop.took)) = true

/-- The sections that keep the promise: a `connect` reads the generation before a `disconnect` that
was called later has raised it; it starts a wrapper on a bus where no `disconnect` is tearing one
down; a wrapper that is torn down loses its torque; `set_torque` finds a wrapper to turn on, and
turns it on or off. -/
def CarefulCall (s : Actuator) (env : Env) : Call → Prop
  | .connectCalled => s.down = true → .disconnectCalled ∈ s.calls
  | .building _ channel =>
    env.built = true → ∀ call ∈ s.calls, ∀ j ∈ call.tearsDown, ∀ w ∈ s.wrappers[j]?,
      w.channel ≠ channel
  | .stale _ _ i | .handingBack i | .tearingDown i => ∀ w ∈ s.wrappers[i]?, w.Drops env.disconnect
  | .torqueChecked true =>
    s.robot ≠ none ∧ ∀ i ∈ s.robot, ∀ w ∈ s.wrappers[i]?, w.TurnsOn env.torque
  | .torqueChecked false => ∀ i ∈ s.robot, ∀ w ∈ s.wrappers[i]?, w.TurnsOff env.torque
  | .waiting _ | .checking _ | .resolving _ | .unpublishing _ _ | .connecting _ _
  | .publishing _ _ | .priming | .disconnectCalled | .torqueCalled _ | .returned => True

/-- The steps that keep the promise. -/
def Careful (s : Actuator) : Act → Prop
  | .connect | .disconnect | .setTorque _ => True
  | .go k env => ∀ call ∈ s.calls[k]?, CarefulCall s env call

instance (w : Wrapper) (calls : DisconnectCalls) : Decidable (w.Drops calls) :=
  inferInstanceAs (Decidable (_ → _))

instance (w : Wrapper) (calls : TorqueCalls) : Decidable (w.TurnsOn calls) :=
  inferInstanceAs (Decidable (if calls.enable.raises then w.controller = true ∧
      (w.energised || calls.enable.took || calls.fallback.took) = true
    else calls.start.raises = true →
      w.restarts calls = true ∧ (!calls.disable.took || calls.fallback.took) = true))

instance (w : Wrapper) (calls : TorqueCalls) : Decidable (w.TurnsOff calls) :=
  inferInstanceAs (Decidable (_ → _))

instance (s : Actuator) (env : Env) (call : Call) : Decidable (CarefulCall s env call) :=
  match call with
  | .connectCalled => inferInstanceAs (Decidable (_ → _))
  | .building _ channel =>
    inferInstanceAs (Decidable (_ → ∀ call ∈ s.calls, ∀ j ∈ call.tearsDown,
      ∀ w ∈ s.wrappers[j]?, w.channel ≠ channel))
  | .stale _ _ i | .handingBack i | .tearingDown i =>
    inferInstanceAs (Decidable (∀ w ∈ s.wrappers[i]?, w.Drops env.disconnect))
  | .torqueChecked true =>
    inferInstanceAs (Decidable (_ ∧ ∀ i ∈ s.robot, ∀ w ∈ s.wrappers[i]?, w.TurnsOn env.torque))
  | .torqueChecked false =>
    inferInstanceAs (Decidable (∀ i ∈ s.robot, ∀ w ∈ s.wrappers[i]?, w.TurnsOff env.torque))
  | .waiting _ | .checking _ | .resolving _ | .unpublishing _ _ | .connecting _ _
  | .publishing _ _ | .priming | .disconnectCalled | .torqueCalled _ | .returned => isTrue trivial

instance (s : Actuator) (act : Act) : Decidable (Careful s act) :=
  match act with
  | .connect | .disconnect | .setTorque _ => isTrue trivial
  | .go k env => inferInstanceAs (Decidable (∀ call ∈ s.calls[k]?, CarefulCall s env call))

end OpenVoiceStream.Arm.Power
