import OpenVoiceStream.Arm.Power
import Mathlib.Data.List.Perm.Basic
import Mathlib.Data.List.Nodup

/-!
# Every powered wrapper has an owner

A wrapper that has been opened is published or in the hands of one call, which tears it down or
publishes it. The calls of `connect` that hold a wrapper hold `_connect_lock`, so that nothing is
published meanwhile; those of `disconnect` hold what they have unpublished.

## Main definitions

* `held` — the wrappers that are published or in the hands of a call.
* `Owned`, `Locked`, `Powered`, `Alone`, `Last` — the parts of the invariant.

## Main results

* `Inv.step` — a careful step keeps it.
* `safe_of_careful` — runs of such steps.
-/

namespace OpenVoiceStream.Arm.Power

variable {s s' : Actuator} {w : Wrapper} {k i : ℕ} {call call' : Call}

/-! ### What is done to a wrapper -/

theorem Outcome.took_of_not_raises {o : Outcome} (h : o.raises = false) : o.took = true := by
  cases o with
  | done => rfl
  | raised took => cases h
  | missing => cases h

@[simp] theorem Wrapper.endCtrl_channel (o : Outcome) : (w.endCtrl o).channel = w.channel := by
  rw [Wrapper.endCtrl]
  split <;> rfl

@[simp] theorem Wrapper.endCtrl_isOpen (o : Outcome) : (w.endCtrl o).isOpen = w.isOpen := by
  rw [Wrapper.endCtrl]
  split <;> rfl

@[simp] theorem Wrapper.endCtrl_energised (o : Outcome) :
    (w.endCtrl o).energised = w.energised := by
  rw [Wrapper.endCtrl]
  split <;> rfl

@[simp] theorem Wrapper.endCtrl_connected (o : Outcome) :
    (w.endCtrl o).connected = w.connected := by
  rw [Wrapper.endCtrl]
  split <;> rfl

theorem Wrapper.endCtrl_controller (o : Outcome) :
    (w.endCtrl o).controller = (w.controller && !(w.endposCtrl && o.took)) := by
  rw [Wrapper.endCtrl]
  split
  · next h => simp [h]
  · next h =>
    rw [Bool.not_eq_true] at h
    simp [h]

/-- The motors are energised, a controller runs and the wrapper is connected. -/
def Wrapper.Ready (w : Wrapper) : Prop :=
  w.energised = true ∧ w.controller = true ∧ w.connected = true

theorem Wrapper.connect_channel (calls : ConnectCalls) :
    (w.connect calls).1.channel = w.channel := by
  simp only [Wrapper.connect]
  split
  · rfl
  · split
    · rfl
    · split <;> rfl

theorem Wrapper.connect_isOpen (calls : ConnectCalls) :
    (w.connect calls).1.isOpen = w.isOpen := by
  simp only [Wrapper.connect]
  split
  · rfl
  · split
    · rfl
    · split <;> rfl

/-- A `connect` that returns leaves the motors energised with a controller. -/
theorem Wrapper.ready_of_connect {calls : ConnectCalls} (h : (w.connect calls).2 = true) :
    (w.connect calls).1.Ready := by
  simp only [Wrapper.connect] at h ⊢
  split at h
  · cases h
  · next hconnect =>
    rw [if_neg hconnect]
    split at h
    · cases h
    · next henable =>
      rw [if_neg henable]
      split at h
      · cases h
      · next hstart =>
        rw [if_neg hstart]
        rw [Bool.not_eq_true] at henable hstart
        refine ⟨?_, ?_, rfl⟩
        · simp [Wrapper.startCtrl, Wrapper.enable, Outcome.took_of_not_raises henable]
        · simp [Wrapper.startCtrl, Outcome.took_of_not_raises hstart]

theorem Wrapper.disconnect_isOpen (calls : DisconnectCalls) :
    (w.disconnect calls).isOpen = false := rfl

theorem Wrapper.Drops.energised {calls : DisconnectCalls} (h : w.Drops calls) :
    (w.disconnect calls).energised = false := by
  simp only [Wrapper.disconnect, Wrapper.disable, Wrapper.endCtrl_energised]
  cases hw : w.energised with
  | false => rfl
  | true =>
    obtain htook | hdrops := h hw
    · rw [htook]
      rfl
    · rw [hdrops, Bool.not_true, Bool.and_false]

theorem Wrapper.toggle_channel (enable : Bool) (calls : TorqueCalls) :
    (w.toggle enable calls).channel = w.channel := by
  simp only [Wrapper.toggle, Wrapper.setTorque, Wrapper.enable, Wrapper.disable,
    Wrapper.startCtrl]
  grind [Wrapper.endCtrl_channel]

theorem Wrapper.toggle_isOpen (enable : Bool) (calls : TorqueCalls) :
    (w.toggle enable calls).isOpen = w.isOpen := by
  simp only [Wrapper.toggle, Wrapper.setTorque, Wrapper.enable, Wrapper.disable,
    Wrapper.startCtrl]
  grind [Wrapper.endCtrl_isOpen]

theorem Wrapper.toggle_connected (enable : Bool) (calls : TorqueCalls) :
    (w.toggle enable calls).connected = w.connected := by
  simp only [Wrapper.toggle, Wrapper.setTorque, Wrapper.enable, Wrapper.disable,
    Wrapper.startCtrl]
  grind [Wrapper.endCtrl_connected]

/-- `set_torque(True)` leaves the motors energised with a controller. -/
theorem Wrapper.TurnsOn.ready {calls : TorqueCalls} (h : w.TurnsOn calls)
    (hconnected : w.connected = true) : (w.toggle true calls).Ready := by
  refine ⟨?_, ?_, (w.toggle_connected true calls).trans hconnected⟩
  · simp only [Wrapper.toggle, Wrapper.setTorque, hconnected, Wrapper.TurnsOn] at h ⊢
    grind [Wrapper.enable, Wrapper.disable, Wrapper.startCtrl, Wrapper.endCtrl_energised,
      Outcome.took_of_not_raises]
  · simp only [Wrapper.toggle, Wrapper.setTorque, hconnected, Wrapper.TurnsOn,
      Wrapper.restarts] at h ⊢
    grind [Wrapper.enable, Wrapper.disable, Wrapper.startCtrl, Wrapper.endCtrl_controller,
      Outcome.took_of_not_raises]

/-- `set_torque(False)` leaves no motor energised without a controller. -/
theorem Wrapper.TurnsOff.controller {calls : TorqueCalls} (h : w.TurnsOff calls)
    (hconnected : w.connected = true) (henergised : (w.toggle false calls).energised = true) :
    (w.toggle false calls).controller = true := by
  simp only [Wrapper.toggle, Wrapper.setTorque, hconnected, Wrapper.TurnsOff] at *
  grind [Wrapper.disable, Wrapper.endCtrl_energised, Wrapper.endCtrl_controller]

/-! ### Wrappers that stay where they are -/

/-- Every wrapper keeps its place and its bus, and none is opened or shut. -/
def Keeps (l l' : List Wrapper) : Prop :=
  l'.length = l.length ∧ ∀ (i : ℕ) (w' : Wrapper), l'[i]? = some w' →
    ∃ w, l[i]? = some w ∧ w'.channel = w.channel ∧ w'.isOpen = w.isOpen

theorem Keeps.refl (l : List Wrapper) : Keeps l l := ⟨rfl, fun _ w h => ⟨w, h, rfl, rfl⟩⟩

theorem getElem?_modify_cases {l : List Wrapper} {f : Wrapper → Wrapper} {j : ℕ} {w' : Wrapper}
    (h : (l.modify i f)[j]? = some w') :
    ∃ w, l[j]? = some w ∧ (i = j ∧ w' = f w ∨ i ≠ j ∧ w' = w) := by
  rw [List.getElem?_modify, Option.map_eq_map, Option.map_eq_some_iff] at h
  obtain ⟨w, hw, rfl⟩ := h
  refine ⟨w, hw, ?_⟩
  split
  · next hij => exact .inl ⟨hij, rfl⟩
  · next hij => exact .inr ⟨hij, rfl⟩

theorem keeps_toggle (l : List Wrapper) (i : ℕ) (enable : Bool) (calls : TorqueCalls) :
    Keeps l (l.modify i (·.toggle enable calls)) := by
  refine ⟨List.length_modify .., fun j w' hw' => ?_⟩
  obtain ⟨w, hw, ⟨-, rfl⟩ | ⟨-, rfl⟩⟩ := getElem?_modify_cases hw'
  · exact ⟨w, hw, Wrapper.toggle_channel enable calls, Wrapper.toggle_isOpen enable calls⟩
  · exact ⟨w', hw, rfl, rfl⟩

theorem getElem?_set_wrapper {l : List Wrapper} {w w' v : Wrapper} (hw : l[i]? = some w) {j : ℕ}
    (h : (l.set i w')[j]? = some v) : i = j ∧ v = w' ∨ i ≠ j ∧ l[j]? = some v := by
  by_cases hij : i = j
  · subst hij
    rw [List.getElem?_set_self (List.getElem?_eq_some_iff.mp hw).1] at h
    cases h
    exact .inl ⟨rfl, rfl⟩
  · rw [List.getElem?_set_ne hij] at h
    exact .inr ⟨hij, h⟩

theorem keeps_connect {l : List Wrapper} (hw : l[i]? = some w) (calls : ConnectCalls) :
    Keeps l (l.set i (w.connect calls).1) := by
  refine ⟨List.length_set .., fun j v hv => ?_⟩
  obtain ⟨rfl, rfl⟩ | ⟨-, hv⟩ := getElem?_set_wrapper hw hv
  · exact ⟨w, hw, Wrapper.connect_channel calls, Wrapper.connect_isOpen calls⟩
  · exact ⟨v, hv, rfl, rfl⟩

/-! ### Who has a wrapper -/

/-- The wrapper in the hands of a call. -/
def Call.wrapper : Call → Option ℕ
  | .stale _ _ i | .connecting _ i | .publishing _ i | .handingBack i | .tearingDown i => some i
  | _ => none

/-- The wrappers that are published or in the hands of a call. -/
def held (s : Actuator) : List ℕ := s.robot.toList ++ s.calls.filterMap Call.wrapper

/-- What the other calls have. -/
def others (calls : List Call) (k : ℕ) : List ℕ := (calls.eraseIdx k).filterMap Call.wrapper

theorem filterMap_perm (h : s.calls[k]? = some call) :
    (s.calls.filterMap Call.wrapper).Perm (call.wrapper.toList ++ others s.calls k) := by
  obtain ⟨hk, rfl⟩ := List.getElem?_eq_some_iff.mp h
  have hperm := (List.getElem_cons_eraseIdx_perm hk).symm.filterMap Call.wrapper
  refine hperm.trans (.of_eq ?_)
  rw [List.filterMap_cons]
  cases s.calls[k].wrapper <;> rfl

theorem filterMap_set_perm (h : s.calls[k]? = some call) :
    ((s.calls.set k call').filterMap Call.wrapper).Perm
      (call'.wrapper.toList ++ others s.calls k) := by
  obtain ⟨hk, rfl⟩ := List.getElem?_eq_some_iff.mp h
  have hperm := (List.set_perm_cons_eraseIdx hk call').filterMap Call.wrapper
  refine hperm.trans (.of_eq ?_)
  rw [List.filterMap_cons]
  cases call'.wrapper <;> rfl

/-- What is held is what is published, what the call has and what the others have. -/
theorem held_perm (h : s.calls[k]? = some call) :
    (held s).Perm (s.robot.toList ++ (call.wrapper.toList ++ others s.calls k)) :=
  (filterMap_perm h).append_left _

theorem held_set_perm (h : s.calls[k]? = some call) (hcalls : s'.calls = s.calls.set k call') :
    (held s').Perm (s'.robot.toList ++ (call'.wrapper.toList ++ others s.calls k)) := by
  rw [held, hcalls]
  exact (filterMap_set_perm h).append_left _

/-- The call holds `_connect_lock`. -/
def Call.locks : Call → Bool
  | .checking _ | .resolving _ | .unpublishing _ _ | .stale _ _ _ | .building _ _
  | .connecting _ _ | .publishing _ _ | .handingBack _ | .priming => true
  | _ => false

/-- The call has unpublished the old wrapper and not yet published its own. -/
def Call.builds : Call → Bool
  | .stale _ _ _ | .building _ _ | .connecting _ _ | .publishing _ _ | .handingBack _ => true
  | _ => false

theorem Call.locks_of_builds (h : call.builds = true) : call.locks = true := by
  cases call <;> first | rfl | cases h

/-- The call that holds `_connect_lock` is the one that is noted, and nothing is published while it
builds a wrapper. -/
structure Locked (s : Actuator) : Prop where
  locked : ∀ (k : ℕ) (call : Call), s.calls[k]? = some call → call.locks = true →
    s.connectLock = some k
  unpublished : ∀ (k : ℕ) (call : Call), s.calls[k]? = some call → call.builds = true →
    s.robot = none

theorem getElem?_set_cases {calls : List Call} {j : ℕ} {c : Call}
    (h : (calls.set k call')[j]? = some c) : j = k ∧ c = call' ∨ j ≠ k ∧ calls[j]? = some c := by
  by_cases hjk : k = j
  · subst hjk
    rw [List.getElem?_set_self'] at h
    cases hc : calls[k]? with
    | none =>
      rw [hc] at h
      cases h
    | some c' =>
      rw [hc] at h
      cases h
      exact .inl ⟨rfl, rfl⟩
  · rw [List.getElem?_set_ne hjk] at h
    exact .inr ⟨fun h => hjk h.symm, h⟩

/-- A call goes on with the lock as it has it, and publishes nothing. -/
theorem Locked.go (h : Locked s) (hk : s.calls[k]? = some call)
    (hcalls : s'.calls = s.calls.set k call') (hlock : s'.connectLock = s.connectLock)
    (hrobot : s'.robot = s.robot ∨ s'.robot = none) (hlocks : call'.locks = true → call.locks = true)
    (hbuilds : call'.builds = true → call.builds = true ∨ s'.robot = none) : Locked s' where
  locked j c hj hc := by
    rw [hlock]
    rw [hcalls] at hj
    obtain ⟨rfl, rfl⟩ | ⟨-, hj⟩ := getElem?_set_cases hj
    · exact h.locked j call hk (hlocks hc)
    · exact h.locked j c hj hc
  unpublished j c hj hc := by
    rw [hcalls] at hj
    obtain hrobot | hrobot := hrobot
    · rw [hrobot]
      obtain ⟨rfl, rfl⟩ | ⟨-, hj⟩ := getElem?_set_cases hj
      · obtain hbuilds | hnone := hbuilds hc
        · exact h.unpublished j call hk hbuilds
        · rw [← hrobot, hnone]
      · exact h.unpublished j c hj hc
    · exact hrobot

/-- The other calls do not hold the lock. -/
theorem Locked.not_locks (h : Locked s) (hk : s.calls[k]? = some call) (hlocks : call.locks = true)
    {j : ℕ} {c : Call} (hj : s.calls[j]? = some c) (hne : j ≠ k) : c.locks = false := by
  by_contra hc
  rw [Bool.not_eq_false] at hc
  have hsame := (h.locked j c hj hc).symm.trans (h.locked k call hk hlocks)
  exact hne (Option.some_inj.mp hsame)

/-- A call that holds the lock gives it up. -/
theorem Locked.leave (h : Locked s) (hk : s.calls[k]? = some call) (hlocks : call.locks = true)
    (hcalls : s'.calls = s.calls.set k .returned) (hrobot : s'.robot = s.robot) : Locked s' where
  locked j c hj hc := by
    rw [hcalls] at hj
    obtain ⟨rfl, rfl⟩ | ⟨hne, hj⟩ := getElem?_set_cases hj
    · cases hc
    · rw [h.not_locks hk hlocks hj hne] at hc
      cases hc
  unpublished j c hj hc := by
    rw [hcalls] at hj
    rw [hrobot]
    obtain ⟨rfl, rfl⟩ | ⟨-, hj⟩ := getElem?_set_cases hj
    · cases hc
    · exact h.unpublished j c hj hc

/-- A call that is made holds no lock. -/
theorem Locked.made (h : Locked s) (hcalls : s'.calls = s.calls ++ [call])
    (hlock : s'.connectLock = s.connectLock) (hrobot : s'.robot = s.robot)
    (hlocks : call.locks = false) : Locked s' where
  locked j c hj hc := by
    rw [hcalls, List.getElem?_append] at hj
    rw [hlock]
    split at hj
    · exact h.locked j c hj hc
    · obtain rfl := List.mem_singleton.mp (List.mem_of_getElem? hj)
      rw [hlocks] at hc
      cases hc
  unpublished j c hj hc := by
    rw [hcalls, List.getElem?_append] at hj
    rw [hrobot]
    split at hj
    · exact h.unpublished j c hj hc
    · obtain rfl := List.mem_singleton.mp (List.mem_of_getElem? hj)
      rw [Call.locks_of_builds hc] at hlocks
      cases hlocks

/-- A call that gets on. -/
theorem Locked.advance (h : Locked s) {env : Env} (hk : s.calls[k]? = some call)
    (hstep : advance s k env call = some s') : Locked s' := by
  cases call with
  | connectCalled =>
    cases hstep
    exact h.go hk rfl rfl (.inl rfl) id .inl
  | waiting generation =>
    rw [Power.advance] at hstep
    split at hstep
    · next hfree =>
      cases hstep
      refine ⟨fun j c hj hc => ?_, fun j c hj hc => ?_⟩
      · obtain ⟨rfl, rfl⟩ | ⟨-, hj⟩ := getElem?_set_cases hj
        · rfl
        · have := h.locked j c hj hc
          rw [hfree] at this
          cases this
      · obtain ⟨rfl, rfl⟩ | ⟨-, hj⟩ := getElem?_set_cases hj
        · cases hc
        · exact h.unpublished j c hj hc
    · cases hstep
  | checking generation =>
    rw [Power.advance] at hstep
    split at hstep <;> cases hstep
    · exact h.go hk rfl rfl (.inl rfl) id .inl
    · exact h.leave hk rfl rfl rfl
  | resolving generation =>
    rw [Power.advance] at hstep
    split at hstep <;> cases hstep
    · exact h.go hk rfl rfl (.inl rfl) id .inl
    · exact h.leave hk rfl rfl rfl
  | unpublishing generation channel =>
    rw [Power.advance] at hstep
    split at hstep <;> cases hstep <;> exact h.go hk rfl rfl (.inr rfl) id fun _ => .inr rfl
  | stale generation channel i =>
    cases hstep
    exact h.go hk rfl rfl (.inl rfl) id .inl
  | building generation channel =>
    rw [Power.advance] at hstep
    split at hstep <;> cases hstep
    · exact h.go hk rfl rfl (.inl rfl) id .inl
    · exact h.leave hk rfl rfl rfl
  | connecting generation i =>
    rw [Power.advance] at hstep
    split at hstep
    · cases hstep
      exact h.go hk rfl rfl (.inl rfl) (fun _ => rfl) fun _ => .inl rfl
    · cases hstep
  | publishing generation i =>
    rw [Power.advance] at hstep
    split at hstep <;> cases hstep
    · refine ⟨fun j c hj hc => ?_, fun j c hj hc => ?_⟩
      · obtain ⟨rfl, rfl⟩ | ⟨-, hj⟩ := getElem?_set_cases hj
        · exact h.locked j _ hk rfl
        · exact h.locked j c hj hc
      · obtain ⟨rfl, rfl⟩ | ⟨hne, hj⟩ := getElem?_set_cases hj
        · cases hc
        · have := h.not_locks hk rfl hj hne
          rw [Call.locks_of_builds hc] at this
          cases this
    · exact h.go hk rfl rfl (.inl rfl) id .inl
  | handingBack i =>
    cases hstep
    exact h.leave hk rfl rfl rfl
  | priming =>
    cases hstep
    exact h.leave hk rfl rfl rfl
  | disconnectCalled =>
    rw [Power.advance] at hstep
    split at hstep <;> cases hstep <;> exact h.go hk rfl rfl (.inr rfl) id .inl
  | tearingDown i =>
    cases hstep
    exact h.go hk rfl rfl (.inl rfl) id .inl
  | torqueCalled enable =>
    cases hstep
    refine h.go hk rfl rfl (.inl rfl) ?_ ?_
    all_goals split <;> intro hc <;> cases hc
  | torqueChecked enable =>
    cases hstep
    rw [Actuator.setTorque]
    split <;> exact h.go hk rfl rfl (.inl rfl) id .inl
  | returned => cases hstep

/-- The wrappers that are open are the ones that are held, and none twice. -/
structure Owned (s : Actuator) : Prop where
  nodup : (held s).Nodup
  lt : ∀ i ∈ held s, i < s.wrappers.length
  isOpen_iff : ∀ (i : ℕ) (w : Wrapper), s.wrappers[i]? = some w →
    (w.isOpen = true ↔ i ∈ held s)

/-- What is held only changes hands. -/
theorem Owned.of_perm (h : Owned s) (hperm : (held s').Perm (held s))
    (hkeeps : Keeps s.wrappers s'.wrappers) : Owned s' where
  nodup := hperm.nodup_iff.mpr h.nodup
  lt i hi := by
    rw [hkeeps.1]
    exact h.lt i (hperm.mem_iff.mp hi)
  isOpen_iff i w' hw' := by
    obtain ⟨w, hw, -, hopen⟩ := hkeeps.2 i w' hw'
    rw [hopen, h.isOpen_iff i w hw, hperm.mem_iff]

/-- A call keeps what it has. -/
theorem Owned.go (h : Owned s) (hk : s.calls[k]? = some call)
    (hcalls : s'.calls = s.calls.set k call')
    (hhands : s'.robot.toList ++ call'.wrapper.toList = s.robot.toList ++ call.wrapper.toList)
    (hkeeps : Keeps s.wrappers s'.wrappers) : Owned s' := by
  refine h.of_perm ((held_set_perm hk hcalls).trans (.trans (.of_eq ?_) (held_perm hk).symm)) hkeeps
  rw [← List.append_assoc, hhands, List.append_assoc]

/-- A call that tears its wrapper down gives it up. -/
theorem Owned.tearDown (h : Owned s) (hk : s.calls[k]? = some call)
    (hcalls : s'.calls = s.calls.set k call') (hrobot : s'.robot = s.robot)
    (hwrapper : call.wrapper = some i) (hnone : call'.wrapper = none) {calls : DisconnectCalls}
    (hwrappers : s'.wrappers = s.wrappers.modify i (·.disconnect calls)) : Owned s' := by
  have hold := held_perm hk
  have hnew := held_set_perm hk hcalls
  rw [hwrapper] at hold
  rw [hnone, hrobot] at hnew
  have hcons : (held s).Perm (i :: held s') :=
    hold.trans (List.perm_middle.trans (hnew.symm.cons i))
  obtain ⟨hnot, hnodup⟩ := List.nodup_cons.mp (hcons.nodup_iff.mp h.nodup)
  refine ⟨hnodup, fun j hj => ?_, fun j w' hw' => ?_⟩
  · rw [hwrappers, List.length_modify]
    exact h.lt j (hcons.mem_iff.mpr (List.mem_cons_of_mem i hj))
  · rw [hwrappers] at hw'
    obtain ⟨w, hw, ⟨rfl, rfl⟩ | ⟨hij, rfl⟩⟩ := getElem?_modify_cases hw'
    · -- the one that is torn down is shut
      rw [Wrapper.disconnect_isOpen]
      exact ⟨fun hopen => absurd hopen Bool.false_ne_true, fun hj => absurd hj hnot⟩
    · rw [h.isOpen_iff j w' hw, hcons.mem_iff, List.mem_cons]
      exact ⟨fun hj => hj.resolve_left (Ne.symm hij), .inr⟩

/-- A call that builds a wrapper has it. -/
theorem Owned.build (h : Owned s) (hk : s.calls[k]? = some call) (hnone : call.wrapper = none)
    (hcalls : s'.calls = s.calls.set k call') (hrobot : s'.robot = s.robot)
    (hwrapper : call'.wrapper = some s.wrappers.length)
    (hwrappers : s'.wrappers = s.wrappers ++ [w]) (hopen : w.isOpen = true) : Owned s' := by
  have hold := held_perm hk
  have hnew := held_set_perm hk hcalls
  rw [hnone] at hold
  rw [hwrapper, hrobot] at hnew
  have hcons : (held s').Perm (s.wrappers.length :: held s) :=
    hnew.trans (List.perm_middle.trans (hold.symm.cons _))
  refine ⟨hcons.nodup_iff.mpr (List.nodup_cons.mpr ⟨fun hmem => ?_, h.nodup⟩), fun j hj => ?_, ?_⟩
  · exact absurd (h.lt _ hmem) (by omega)
  · rw [hwrappers, List.length_append, List.length_singleton]
    obtain hj | hj := List.mem_cons.mp (hcons.mem_iff.mp hj)
    · omega
    · have := h.lt j hj
      omega
  · intro j w' hw'
    rw [hwrappers] at hw'
    rw [hcons.mem_iff, List.mem_cons]
    by_cases hj : j < s.wrappers.length
    · rw [List.getElem?_append_left hj] at hw'
      rw [h.isOpen_iff j w' hw']
      exact ⟨.inr, fun hmem => hmem.resolve_left (by omega)⟩
    · have hlt := (List.getElem?_eq_some_iff.mp hw').1
      rw [List.length_append, List.length_singleton] at hlt
      obtain rfl : j = s.wrappers.length := by omega
      rw [List.getElem?_concat_length] at hw'
      cases hw'
      exact ⟨fun _ => .inl rfl, fun _ => hopen⟩

/-- A call that is made has nothing. -/
theorem Owned.made (h : Owned s) (hcalls : s'.calls = s.calls ++ [call])
    (hnone : call.wrapper = none) (hrobot : s'.robot = s.robot)
    (hwrappers : s'.wrappers = s.wrappers) : Owned s' := by
  refine h.of_perm (.of_eq ?_) (hwrappers ▸ Keeps.refl _)
  rw [held, held, hcalls, hrobot, List.filterMap_append, List.filterMap_cons, hnone,
    List.filterMap_nil, List.append_nil]

variable {j k' : ℕ}

/-- What a call has in its hands is not published. -/
theorem Owned.ne_published (h : Owned s) (hrobot : s.robot = some i) (hk : s.calls[k]? = some call)
    (hwrapper : call.wrapper = some j) : i ≠ j := by
  have hnodup := (held_perm hk).nodup_iff.mp h.nodup
  rw [hrobot, hwrapper] at hnodup
  have hnot := (List.nodup_cons.mp hnodup).1
  rintro rfl
  exact hnot List.mem_cons_self

/-- Two calls have different wrappers. -/
theorem Owned.ne_of_calls (h : Owned s) (hk : s.calls[k]? = some call)
    (hwrapper : call.wrapper = some i) (hk' : s.calls[k']? = some call')
    (hwrapper' : call'.wrapper = some j) (hne : k ≠ k') : i ≠ j := by
  have hnodup := ((held_perm hk).nodup_iff.mp h.nodup).of_append_right
  rw [hwrapper] at hnodup
  have hnot := (List.nodup_cons.mp hnodup).1
  rintro rfl
  refine hnot (List.mem_filterMap.mpr ⟨call', ?_, hwrapper'⟩)
  exact List.mem_eraseIdx_iff_getElem?.mpr ⟨k', hne.symm, hk'⟩

/-- A call that gets on leaves every wrapper that is open with an owner. -/
theorem Owned.advance (h : Owned s) (hlocked : Locked s) {env : Env}
    (hk : s.calls[k]? = some call) (hstep : advance s k env call = some s') : Owned s' := by
  cases call with
  | connectCalled =>
    cases hstep
    exact h.go hk rfl rfl (Keeps.refl _)
  | waiting generation =>
    rw [Power.advance] at hstep
    split at hstep
    · cases hstep
      exact h.go hk rfl rfl (Keeps.refl _)
    · cases hstep
  | checking generation =>
    rw [Power.advance] at hstep
    split at hstep <;> cases hstep <;> exact h.go hk rfl rfl (Keeps.refl _)
  | resolving generation =>
    rw [Power.advance] at hstep
    split at hstep <;> cases hstep <;> exact h.go hk rfl rfl (Keeps.refl _)
  | unpublishing generation channel =>
    rw [Power.advance] at hstep
    split at hstep
    · next i hrobot =>
      cases hstep
      exact h.go hk rfl (by rw [hrobot]; rfl) (Keeps.refl _)
    · next hrobot =>
      cases hstep
      exact h.go hk rfl (by rw [hrobot]; rfl) (Keeps.refl _)
  | stale generation channel i =>
    cases hstep
    exact h.tearDown hk rfl rfl rfl rfl rfl
  | building generation channel =>
    rw [Power.advance] at hstep
    dsimp only at hstep
    split at hstep <;> cases hstep
    · exact h.build hk rfl rfl rfl rfl rfl rfl
    · exact h.go hk rfl rfl (Keeps.refl _)
  | connecting generation i =>
    rw [Power.advance] at hstep
    dsimp only at hstep
    split at hstep
    · next w hw =>
      cases hstep
      refine h.go hk rfl ?_ (keeps_connect hw env.connect)
      split <;> rfl
    · cases hstep
  | publishing generation i =>
    rw [Power.advance] at hstep
    split at hstep <;> cases hstep
    · refine h.go hk rfl ?_ (Keeps.refl _)
      rw [hlocked.unpublished k _ hk rfl]
      rfl
    · exact h.go hk rfl rfl (Keeps.refl _)
  | handingBack i =>
    cases hstep
    exact h.tearDown hk rfl rfl rfl rfl rfl
  | priming =>
    cases hstep
    exact h.go hk rfl rfl (Keeps.refl _)
  | disconnectCalled =>
    rw [Power.advance] at hstep
    split at hstep
    · next i hrobot =>
      cases hstep
      exact h.go hk rfl (by rw [hrobot]; rfl) (Keeps.refl _)
    · next hrobot =>
      cases hstep
      exact h.go hk rfl (by rw [hrobot]; rfl) (Keeps.refl _)
  | tearingDown i =>
    cases hstep
    exact h.tearDown hk rfl rfl rfl rfl rfl
  | torqueCalled enable =>
    cases hstep
    refine h.go hk rfl ?_ (Keeps.refl _)
    split <;> rfl
  | torqueChecked enable =>
    cases hstep
    rw [Actuator.setTorque]
    split
    · exact h.go hk rfl rfl (keeps_toggle ..)
    · exact h.go hk rfl rfl (Keeps.refl _)
  | returned => cases hstep

/-! ### Power -/

/-- Only an open wrapper is energised, one that is about to be published has a controller, and so
has the published one if it is energised, which it is if the torque is on. -/
structure Powered (s : Actuator) : Prop where
  isOpen : ∀ (i : ℕ) (w : Wrapper), s.wrappers[i]? = some w → w.energised = true →
    w.isOpen = true
  ready : ∀ (k generation i : ℕ) (w : Wrapper), s.calls[k]? = some (.publishing generation i) →
    s.wrappers[i]? = some w → w.Ready
  published : ∀ (i : ℕ) (w : Wrapper), s.robot = some i → s.wrappers[i]? = some w →
    w.connected = true ∧ (w.energised = true → w.controller = true) ∧
      (s.torqueEnabled = true → w.energised = true)
  torque : s.torqueEnabled = true → s.robot ≠ none

/-- Nothing is done to a wrapper, and what is published stays so or is taken back. -/
theorem Powered.go (h : Powered s) (hcalls : s'.calls = s.calls.set k call')
    (hwrappers : s'.wrappers = s.wrappers)
    (hrobot : s'.robot = s.robot ∧ s'.torqueEnabled = s.torqueEnabled ∨
      s'.robot = none ∧ s'.torqueEnabled = false)
    (hcall : ∀ generation i, call' ≠ .publishing generation i) : Powered s' where
  isOpen := hwrappers ▸ h.isOpen
  ready j generation i w hj hw := by
    rw [hcalls] at hj
    rw [hwrappers] at hw
    obtain ⟨-, heq⟩ | ⟨-, hj⟩ := getElem?_set_cases hj
    · exact absurd heq.symm (hcall generation i)
    · exact h.ready j generation i w hj hw
  published i w hi hw := by
    rw [hwrappers] at hw
    obtain ⟨hrobot, htorque⟩ | ⟨hrobot, -⟩ := hrobot
    · rw [htorque]
      exact h.published i w (hrobot.symm.trans hi) hw
    · rw [hrobot] at hi
      cases hi
  torque htrue := by
    obtain ⟨hrobot, htorque⟩ | ⟨-, htorque⟩ := hrobot
    · rw [hrobot]
      exact h.torque (htorque.symm.trans htrue)
    · rw [htorque] at htrue
      cases htrue

/-- A call that is made changes nothing. -/
theorem Powered.made (h : Powered s) (hcalls : s'.calls = s.calls ++ [call])
    (hwrappers : s'.wrappers = s.wrappers) (hrobot : s'.robot = s.robot)
    (htorque : s'.torqueEnabled = s.torqueEnabled)
    (hcall : ∀ generation i, call ≠ .publishing generation i) : Powered s' where
  isOpen := hwrappers ▸ h.isOpen
  ready j generation i w hj hw := by
    rw [hcalls, List.getElem?_append] at hj
    rw [hwrappers] at hw
    split at hj
    · exact h.ready j generation i w hj hw
    · exact absurd (List.mem_singleton.mp (List.mem_of_getElem? hj)).symm (hcall generation i)
  published := by
    rw [hrobot, hwrappers, htorque]
    exact h.published
  torque := by
    rw [hrobot, htorque]
    exact h.torque

/-- A wrapper that is torn down is in the hands of its call alone. -/
theorem Powered.tearDown (h : Powered s) (howned : Owned s) (hk : s.calls[k]? = some call)
    (hcalls : s'.calls = s.calls.set k call') (hrobot : s'.robot = s.robot)
    (htorque : s'.torqueEnabled = s.torqueEnabled) (hwrapper : call.wrapper = some i)
    {calls : DisconnectCalls} (hwrappers : s'.wrappers = s.wrappers.modify i (·.disconnect calls))
    (hdrops : ∀ w ∈ s.wrappers[i]?, w.Drops calls)
    (hcall : ∀ generation i, call' ≠ .publishing generation i) : Powered s' where
  isOpen j w' hw' henergised := by
    rw [hwrappers] at hw'
    obtain ⟨w, hw, ⟨rfl, rfl⟩ | ⟨-, rfl⟩⟩ := getElem?_modify_cases hw'
    · rw [(hdrops w hw).energised] at henergised
      cases henergised
    · exact h.isOpen j w' hw henergised
  ready j generation m w' hj hw' := by
    rw [hcalls] at hj
    rw [hwrappers] at hw'
    obtain ⟨-, heq⟩ | ⟨hne, hj⟩ := getElem?_set_cases hj
    · exact absurd heq.symm (hcall generation m)
    · obtain ⟨w, hw, ⟨him, -⟩ | ⟨-, rfl⟩⟩ := getElem?_modify_cases hw'
      · exact absurd him (howned.ne_of_calls hk hwrapper hj rfl hne.symm)
      · exact h.ready j generation m w' hj hw
  published m w' hm hw' := by
    rw [hrobot] at hm
    rw [hwrappers] at hw'
    rw [htorque]
    obtain ⟨w, hw, ⟨him, -⟩ | ⟨-, rfl⟩⟩ := getElem?_modify_cases hw'
    · exact absurd him.symm (howned.ne_published hm hk hwrapper)
    · exact h.published m w' hm hw
  torque := by
    rw [hrobot, htorque]
    exact h.torque

/-- A wrapper that has just been built has no power. -/
theorem Powered.build (h : Powered s) (howned : Owned s)
    (hcalls : s'.calls = s.calls.set k call') (hrobot : s'.robot = s.robot)
    (htorque : s'.torqueEnabled = s.torqueEnabled) (hwrappers : s'.wrappers = s.wrappers ++ [w])
    (hoff : w.energised = false) (hcall : ∀ generation i, call' ≠ .publishing generation i) :
    Powered s' := by
  have hold : ∀ i v, i ∈ held s → s'.wrappers[i]? = some v → s.wrappers[i]? = some v := by
    intro i v hi hv
    rwa [hwrappers, List.getElem?_append_left (howned.lt i hi)] at hv
  refine ⟨fun i v hv henergised => ?_, fun j generation i v hj hv => ?_, fun i v hi hv => ?_, ?_⟩
  · rw [hwrappers, List.getElem?_append] at hv
    split at hv
    · exact h.isOpen i v hv henergised
    · obtain rfl := List.mem_singleton.mp (List.mem_of_getElem? hv)
      rw [hoff] at henergised
      cases henergised
  · rw [hcalls] at hj
    obtain ⟨-, heq⟩ | ⟨-, hj⟩ := getElem?_set_cases hj
    · exact absurd heq.symm (hcall generation i)
    · refine h.ready j generation i v hj (hold i v ?_ hv)
      exact List.mem_append_right _ (List.mem_filterMap.mpr ⟨_, List.mem_of_getElem? hj, rfl⟩)
  · rw [hrobot] at hi
    rw [htorque]
    refine h.published i v hi (hold i v ?_ hv)
    rw [held, hi]
    exact List.mem_cons_self
  · rw [hrobot, htorque]
    exact h.torque

/-- `RebotArm.connect` of a wrapper that nobody else has. -/
theorem Powered.connect (h : Powered s) (howned : Owned s) (hlocked : Locked s)
    {generation : ℕ} (hk : s.calls[k]? = some (.connecting generation i))
    (hw : s.wrappers[i]? = some w) (calls : ConnectCalls)
    (hcalls : s'.calls = s.calls.set k
      (if (w.connect calls).2 then .publishing generation i else .handingBack i))
    (hrobot : s'.robot = s.robot) (htorque : s'.torqueEnabled = s.torqueEnabled)
    (hwrappers : s'.wrappers = s.wrappers.set i (w.connect calls).1) : Powered s' := by
  have hnone : s'.robot = none := hrobot.trans (hlocked.unpublished k _ hk rfl)
  refine ⟨fun j v hv henergised => ?_, fun j g m v hj hv => ?_, fun m v hm hv => ?_, ?_⟩
  · rw [hwrappers] at hv
    obtain ⟨rfl, rfl⟩ | ⟨-, hv⟩ := getElem?_set_wrapper hw hv
    · rw [Wrapper.connect_isOpen, howned.isOpen_iff i w hw]
      exact List.mem_append_right _ (List.mem_filterMap.mpr ⟨_, List.mem_of_getElem? hk, rfl⟩)
    · exact h.isOpen j v hv henergised
  · rw [hcalls] at hj
    rw [hwrappers] at hv
    obtain ⟨-, heq⟩ | ⟨hne, hj⟩ := getElem?_set_cases hj
    · split at heq
      · next hreturns =>
        cases heq
        obtain ⟨-, rfl⟩ | ⟨hne, -⟩ := getElem?_set_wrapper hw hv
        · exact Wrapper.ready_of_connect hreturns
        · exact absurd rfl hne
      · cases heq
    · obtain ⟨him, -⟩ | ⟨-, hv⟩ := getElem?_set_wrapper hw hv
      · exact absurd him (howned.ne_of_calls hk rfl hj rfl hne.symm)
      · exact h.ready j g m v hj hv
  · rw [hnone] at hm
    cases hm
  · rw [htorque]
    intro htrue
    exact absurd (hlocked.unpublished k _ hk rfl) (h.torque htrue)

/-- `set_torque` of the published wrapper. -/
theorem Powered.setTorque (h : Powered s) (howned : Owned s) {enable : Bool}
    {env : Env} (hcareful : CarefulCall s env (.torqueChecked enable)) :
    Powered ((s.setTorque enable env.torque).at k .returned) := by
  cases hrobot : s.robot with
  | none =>
    cases enable with
    | true => exact absurd hrobot hcareful.1
    | false =>
      rw [Actuator.setTorque, hrobot]
      exact h.go rfl rfl (.inr ⟨rfl, rfl⟩) nofun
  | some i =>
    have hafter : ∀ w, s.wrappers[i]? = some w →
        ((w.toggle enable env.torque).energised = true →
          (w.toggle enable env.torque).controller = true) ∧
        (enable = true → (w.toggle enable env.torque).energised = true) := by
      intro w hw
      have hconnected := (h.published i w hrobot hw).1
      cases enable with
      | true =>
        have hready := (hcareful.2 i hrobot w hw).ready hconnected
        exact ⟨fun _ => hready.2.1, fun _ => hready.1⟩
      | false => exact ⟨(hcareful i hrobot w hw).controller hconnected, nofun⟩
    rw [Actuator.setTorque, hrobot]
    refine ⟨fun j v hv henergised => ?_, fun j g m v hj hv => ?_, fun m v hm hv => ?_, ?_⟩
    · obtain ⟨w, hw, ⟨rfl, rfl⟩ | ⟨-, rfl⟩⟩ := getElem?_modify_cases hv
      · rw [Wrapper.toggle_isOpen, howned.isOpen_iff i w hw, held, hrobot]
        exact List.mem_cons_self
      · exact h.isOpen j v hw henergised
    · obtain ⟨-, heq⟩ | ⟨-, hj⟩ := getElem?_set_cases hj
      · cases heq
      · obtain ⟨w, hw, ⟨him, -⟩ | ⟨-, rfl⟩⟩ := getElem?_modify_cases hv
        · exact absurd him (howned.ne_published hrobot hj rfl)
        · exact h.ready j g m v hj hw
    · cases hm
      obtain ⟨w, hw, ⟨-, rfl⟩ | ⟨hne, -⟩⟩ := getElem?_modify_cases hv
      · rw [Wrapper.toggle_connected]
        exact ⟨(h.published i w hrobot hw).1, hafter w hw⟩
      · exact absurd rfl hne
    · intro _ hnone
      cases hnone

/-- A call that gets on with care. -/
theorem Powered.advance (h : Powered s) (howned : Owned s) (hlocked : Locked s) {env : Env}
    (hk : s.calls[k]? = some call) (hcareful : CarefulCall s env call)
    (hstep : advance s k env call = some s') : Powered s' := by
  cases call with
  | connectCalled =>
    cases hstep
    exact h.go rfl rfl (.inl ⟨rfl, rfl⟩) nofun
  | waiting generation =>
    rw [Power.advance] at hstep
    split at hstep <;> cases hstep
    exact h.go rfl rfl (.inl ⟨rfl, rfl⟩) nofun
  | checking generation =>
    rw [Power.advance] at hstep
    split at hstep <;> cases hstep <;> exact h.go rfl rfl (.inl ⟨rfl, rfl⟩) nofun
  | resolving generation =>
    rw [Power.advance] at hstep
    split at hstep <;> cases hstep <;> exact h.go rfl rfl (.inl ⟨rfl, rfl⟩) nofun
  | unpublishing generation channel =>
    rw [Power.advance] at hstep
    split at hstep <;> cases hstep <;> exact h.go rfl rfl (.inr ⟨rfl, rfl⟩) nofun
  | stale generation channel i =>
    cases hstep
    exact h.tearDown howned hk rfl rfl rfl rfl rfl hcareful nofun
  | building generation channel =>
    rw [Power.advance] at hstep
    split at hstep <;> cases hstep
    · exact h.build howned rfl rfl rfl rfl rfl nofun
    · exact h.go rfl rfl (.inl ⟨rfl, rfl⟩) nofun
  | connecting generation i =>
    rw [Power.advance] at hstep
    split at hstep
    · next w hw =>
      cases hstep
      exact h.connect howned hlocked hk hw env.connect rfl rfl rfl rfl
    · cases hstep
  | publishing generation i =>
    rw [Power.advance] at hstep
    split at hstep <;> cases hstep
    · refine ⟨h.isOpen, fun j g m w hj hw => ?_, fun m w hm hw => ?_, fun _ => nofun⟩
      · obtain ⟨-, heq⟩ | ⟨-, hj⟩ := getElem?_set_cases hj
        · cases heq
        · exact h.ready j g m w hj hw
      · cases hm
        obtain ⟨henergised, hcontroller, hconnected⟩ := h.ready k generation i w hk hw
        exact ⟨hconnected, fun _ => hcontroller, fun _ => henergised⟩
    · exact h.go rfl rfl (.inl ⟨rfl, rfl⟩) nofun
  | handingBack i =>
    cases hstep
    exact h.tearDown howned hk rfl rfl rfl rfl rfl hcareful nofun
  | priming =>
    cases hstep
    exact h.go rfl rfl (.inl ⟨rfl, rfl⟩) nofun
  | disconnectCalled =>
    rw [Power.advance] at hstep
    split at hstep <;> cases hstep <;> exact h.go rfl rfl (.inr ⟨rfl, rfl⟩) nofun
  | tearingDown i =>
    cases hstep
    exact h.tearDown howned hk rfl rfl rfl rfl rfl hcareful nofun
  | torqueCalled enable =>
    cases hstep
    refine h.go rfl rfl (.inl ⟨rfl, rfl⟩) fun g i => ?_
    split <;> nofun
  | torqueChecked enable =>
    cases hstep
    exact h.setTorque howned hcareful
  | returned => cases hstep

/-! ### Buses -/

/-- The wrappers that are open have each a bus of its own. -/
def OneBus (l : List Wrapper) : Prop :=
  ∀ (i j : ℕ) (w v : Wrapper), l[i]? = some w → l[j]? = some v →
    w.isOpen = true → v.isOpen = true → w.channel = v.channel → i = j

theorem OneBus.keeps {l l' : List Wrapper} (h : OneBus l) (hkeeps : Keeps l l') : OneBus l' := by
  intro i j w' v' hw' hv' hwopen hvopen hchannel
  obtain ⟨w, hw, hwchannel, hw'open⟩ := hkeeps.2 i w' hw'
  obtain ⟨v, hv, hvchannel, hv'open⟩ := hkeeps.2 j v' hv'
  exact h i j w v hw hv (hw'open.symm.trans hwopen) (hv'open.symm.trans hvopen)
    (hwchannel.symm.trans (hchannel.trans hvchannel))

theorem OneBus.tearDown {l : List Wrapper} (h : OneBus l) (m : ℕ) (calls : DisconnectCalls) :
    OneBus (l.modify m (·.disconnect calls)) := by
  intro i j w' v' hw' hv' hwopen hvopen hchannel
  obtain ⟨w, hw, ⟨-, rfl⟩ | ⟨-, rfl⟩⟩ := getElem?_modify_cases hw'
  · cases hwopen
  · obtain ⟨v, hv, ⟨-, rfl⟩ | ⟨-, rfl⟩⟩ := getElem?_modify_cases hv'
    · cases hvopen
    · exact h i j w' v' hw hv hwopen hvopen hchannel

/-- A wrapper joins the others where none that is open has its bus. -/
theorem OneBus.append {l : List Wrapper} (h : OneBus l)
    (hfree : ∀ (i : ℕ) (v : Wrapper), l[i]? = some v → v.isOpen = true →
      v.channel ≠ w.channel) : OneBus (l ++ [w]) := by
  intro i j v v' hv hv' hopen hopen' hchannel
  have hcases : ∀ (i : ℕ) (v : Wrapper), (l ++ [w])[i]? = some v →
      l[i]? = some v ∨ i = l.length ∧ v = w := by
    intro i v hv
    rw [List.getElem?_append] at hv
    split at hv
    · exact .inl hv
    · next hge =>
      have hlt := (List.getElem?_eq_some_iff.mp hv).1
      rw [List.length_singleton] at hlt
      exact .inr ⟨by omega, List.mem_singleton.mp (List.mem_of_getElem? hv)⟩
  obtain hold | ⟨rfl, rfl⟩ := hcases i v hv
  · obtain hold' | ⟨rfl, rfl⟩ := hcases j v' hv'
    · exact h i j v v' hold hold' hopen hopen' hchannel
    · exact absurd hchannel (hfree i v hold hopen)
  · obtain hold' | ⟨rfl, -⟩ := hcases j v' hv'
    · exact absurd hchannel.symm (hfree j v' hold' hopen')
    · rfl

/-- While a call of `connect` builds its wrapper, the wrappers that are open are in the hands of
calls of `disconnect`. -/
theorem tearingDown_of_building (howned : Owned s) (hlocked : Locked s) {generation : ℕ}
    {channel : String} (hk : s.calls[k]? = some (.building generation channel))
    (hw : s.wrappers[i]? = some w) (hopen : w.isOpen = true) : .tearingDown i ∈ s.calls := by
  have hheld := (howned.isOpen_iff i w hw).mp hopen
  rw [held, hlocked.unpublished k _ hk rfl, Option.toList_none, List.nil_append,
    List.mem_filterMap] at hheld
  obtain ⟨c, hc, hwrapper⟩ := hheld
  obtain ⟨j, hj⟩ := List.getElem?_of_mem hc
  by_cases hjk : j = k
  · subst hjk
    cases hk.symm.trans hj
    cases hwrapper
  · have hlocks := hlocked.not_locks hk rfl hj hjk
    cases c with
    | tearingDown m =>
      cases hwrapper
      exact hc
    | stale | connecting | publishing | handingBack => cases hlocks
    | _ => cases hwrapper

theorem OneBus.advance (h : OneBus s.wrappers) (howned : Owned s) (hlocked : Locked s) {env : Env}
    (hk : s.calls[k]? = some call) (hcareful : CarefulCall s env call)
    (hstep : advance s k env call = some s') : OneBus s'.wrappers := by
  cases call with
  | stale | handingBack | tearingDown =>
    cases hstep
    exact h.tearDown _ _
  | building generation channel =>
    rw [Power.advance] at hstep
    split at hstep <;> cases hstep
    · next hbuilt =>
      refine h.append fun i v hv hopen => ?_
      have hmem := tearingDown_of_building howned hlocked hk hv hopen
      exact hcareful hbuilt _ hmem i rfl v hv
    · exact h
  | connecting generation i =>
    rw [Power.advance] at hstep
    split at hstep
    · next w hw =>
      cases hstep
      exact h.keeps (keeps_connect hw env.connect)
    · cases hstep
  | torqueChecked enable =>
    cases hstep
    rw [Actuator.setTorque]
    split
    · exact h.keeps (keeps_toggle ..)
    · exact h
  | connectCalled | priming | torqueCalled =>
    cases hstep
    exact h
  | waiting | checking | resolving | unpublishing | publishing | disconnectCalled =>
    rw [Power.advance] at hstep
    split at hstep <;> cases hstep <;> exact h
  | returned => cases hstep

/-! ### After the last `disconnect` -/

/-- The generation that a call of `connect` has read. -/
def Call.generation : Call → Option ℕ
  | .waiting g | .checking g | .resolving g | .unpublishing g _ | .stale g _ _ | .building g _
  | .connecting g _ | .publishing g _ => some g
  | _ => none

/-- Where the last call is one of `disconnect`, it has still to raise the generation, or nothing is
published and every call of `connect` has read an older one. -/
structure Last (s : Actuator) : Prop where
  le : ∀ call ∈ s.calls, ∀ g ∈ call.generation, g ≤ s.generation
  down : s.down = true → .disconnectCalled ∈ s.calls ∨
    s.robot = none ∧ ∀ call ∈ s.calls, ∀ g ∈ call.generation, g < s.generation

/-- Another call gets on. -/
theorem mem_set_of_ne {c : Call} (hk : s.calls[k]? = some call) (hne : call ≠ c)
    (hc : c ∈ s.calls) : c ∈ s.calls.set k call' := by
  obtain ⟨j, hj⟩ := List.getElem?_of_mem hc
  refine List.mem_of_getElem? (i := j) ?_
  rw [List.getElem?_set_ne, hj]
  rintro rfl
  exact hne (Option.some_inj.mp (hk.symm.trans hj))

/-- A call gets on with the generation that it has read, and publishes nothing. -/
theorem Last.go (h : Last s) (hk : s.calls[k]? = some call)
    (hcalls : s'.calls = s.calls.set k call') (hgeneration : s'.generation = s.generation)
    (hdown : s'.down = s.down) (hrobot : s'.robot = s.robot ∨ s'.robot = none)
    (hne : call ≠ .disconnectCalled)
    (hread : ∀ g ∈ call'.generation, g ∈ call.generation) : Last s' where
  le c hc g hg := by
    rw [hgeneration]
    rw [hcalls] at hc
    obtain hc | rfl := List.mem_or_eq_of_mem_set hc
    · exact h.le c hc g hg
    · exact h.le call (List.mem_of_getElem? hk) g (hread g hg)
  down htrue := by
    rw [hdown] at htrue
    rw [hcalls, hgeneration]
    obtain hmem | ⟨hnone, hlt⟩ := h.down htrue
    · exact .inl (mem_set_of_ne hk hne hmem)
    · refine .inr ⟨hrobot.elim (·.trans hnone) id, fun c hc g hg => ?_⟩
      obtain hc | rfl := List.mem_or_eq_of_mem_set hc
      · exact hlt c hc g hg
      · exact hlt call (List.mem_of_getElem? hk) g (hread g hg)

/-- A `disconnect` raises the generation and takes the wrapper back. -/
theorem Last.raise (h : Last s) (hcalls : s'.calls = s.calls.set k call')
    (hgeneration : s'.generation = s.generation + 1) (hrobot : s'.robot = none)
    (hread : call'.generation = none) : Last s' := by
  have hlt : ∀ c ∈ s'.calls, ∀ g ∈ c.generation, g < s'.generation := by
    intro c hc g hg
    rw [hcalls] at hc
    rw [hgeneration]
    obtain hc | rfl := List.mem_or_eq_of_mem_set hc
    · have := h.le c hc g hg
      omega
    · rw [hread] at hg
      cases hg
  exact ⟨fun c hc g hg => Nat.le_of_lt (hlt c hc g hg), fun _ => .inr ⟨hrobot, hlt⟩⟩

theorem mem_generation_of_connect {generation : ℕ} (returns : Bool) :
    ∀ g ∈ (if returns then Call.publishing generation i else .handingBack i).generation,
      g ∈ (Call.connecting generation i).generation := by
  cases returns with
  | true => exact fun _ hg => hg
  | false => exact nofun

theorem Last.advance (h : Last s) {env : Env} (hk : s.calls[k]? = some call)
    (hcareful : CarefulCall s env call) (hstep : advance s k env call = some s') : Last s' := by
  cases call with
  | connectCalled =>
    cases hstep
    refine ⟨fun c hc g hg => ?_, fun hdown => .inl (mem_set_of_ne hk nofun (hcareful hdown))⟩
    obtain hc | rfl := List.mem_or_eq_of_mem_set hc
    · exact h.le c hc g hg
    · cases hg
      exact Nat.le_refl _
  | waiting generation =>
    rw [Power.advance] at hstep
    split at hstep <;> cases hstep
    exact h.go hk rfl rfl rfl (.inl rfl) nofun fun _ hg => hg
  | checking | resolving | building =>
    rw [Power.advance] at hstep
    split at hstep <;> cases hstep
    · exact h.go hk rfl rfl rfl (.inl rfl) nofun fun _ hg => hg
    · exact h.go hk rfl rfl rfl (.inl rfl) nofun nofun
  | unpublishing generation channel =>
    rw [Power.advance] at hstep
    split at hstep <;> cases hstep <;>
      exact h.go hk rfl rfl rfl (.inr rfl) nofun fun _ hg => hg
  | stale generation channel i =>
    cases hstep
    exact h.go hk rfl rfl rfl (.inl rfl) nofun fun _ hg => hg
  | connecting generation i =>
    rw [Power.advance] at hstep
    split at hstep
    · cases hstep
      exact h.go hk rfl rfl rfl (.inl rfl) nofun (mem_generation_of_connect _)
    · cases hstep
  | publishing generation i =>
    rw [Power.advance] at hstep
    split at hstep <;> cases hstep
    · next hsame =>
      refine ⟨fun c hc g hg => ?_, fun hdown => ?_⟩
      · obtain hc | rfl := List.mem_or_eq_of_mem_set hc
        · exact h.le c hc g hg
        · cases hg
      · -- the generation it has read is the newest, so the last `disconnect` has not raised it yet
        obtain hmem | ⟨-, hlt⟩ := h.down hdown
        · exact .inl (mem_set_of_ne hk nofun hmem)
        · have := hlt _ (List.mem_of_getElem? hk) generation rfl
          omega
    · exact h.go hk rfl rfl rfl (.inl rfl) nofun nofun
  | handingBack | priming | tearingDown =>
    cases hstep
    exact h.go hk rfl rfl rfl (.inl rfl) nofun nofun
  | disconnectCalled =>
    rw [Power.advance] at hstep
    split at hstep <;> cases hstep <;> exact h.raise rfl rfl rfl rfl
  | torqueCalled enable =>
    cases hstep
    refine h.go hk rfl rfl rfl (.inl rfl) nofun fun g hg => ?_
    split at hg <;> cases hg
  | torqueChecked enable =>
    cases hstep
    rw [Actuator.setTorque]
    split <;> exact h.go hk rfl rfl rfl (.inl rfl) nofun nofun
  | returned => cases hstep

/-! ### Runs -/

/-- The invariant. -/
structure Inv (s : Actuator) : Prop where
  owned : Owned s
  locked : Locked s
  powered : Powered s
  oneBus : OneBus s.wrappers
  last : Last s

/-- **One step** taken with care keeps the invariant. -/
theorem Inv.step (h : Inv s) {act : Act} (hcareful : Careful s act)
    (hstep : step s act = some s') : Inv s' := by
  cases act with
  | go k env =>
    obtain ⟨call, hk, hadvance⟩ := Option.bind_eq_some_iff.mp hstep
    have hcall := hcareful call hk
    exact {
      owned := h.owned.advance h.locked hk hadvance
      locked := h.locked.advance hk hadvance
      powered := h.powered.advance h.owned h.locked hk hcall hadvance
      oneBus := h.oneBus.advance h.owned h.locked hk hcall hadvance
      last := h.last.advance hk hcall hadvance }
  | connect =>
    cases hstep
    refine ⟨h.owned.made rfl rfl rfl rfl, h.locked.made rfl rfl rfl rfl,
      h.powered.made rfl rfl rfl rfl nofun, h.oneBus, fun c hc g hg => ?_, nofun⟩
    obtain hc | hc := List.mem_append.mp hc
    · exact h.last.le c hc g hg
    · cases List.mem_singleton.mp hc
      cases hg
  | disconnect =>
    cases hstep
    refine ⟨h.owned.made rfl rfl rfl rfl, h.locked.made rfl rfl rfl rfl,
      h.powered.made rfl rfl rfl rfl nofun, h.oneBus, fun c hc g hg => ?_,
      fun _ => .inl (List.mem_append_right _ (List.mem_singleton_self _))⟩
    obtain hc | hc := List.mem_append.mp hc
    · exact h.last.le c hc g hg
    · cases List.mem_singleton.mp hc
      cases hg
  | setTorque enable =>
    cases hstep
    refine ⟨h.owned.made rfl rfl rfl rfl, h.locked.made rfl rfl rfl rfl,
      h.powered.made rfl rfl rfl rfl nofun, h.oneBus, fun c hc g hg => ?_, fun hdown => ?_⟩
    · obtain hc | hc := List.mem_append.mp hc
      · exact h.last.le c hc g hg
      · cases List.mem_singleton.mp hc
        cases hg
    · obtain hmem | ⟨hnone, hlt⟩ := h.last.down hdown
      · exact .inl (List.mem_append_left _ hmem)
      · refine .inr ⟨hnone, fun c hc g hg => ?_⟩
        obtain hc | hc := List.mem_append.mp hc
        · exact hlt c hc g hg
        · cases List.mem_singleton.mp hc
          cases hg

/-- While no call is executing, what is held is published. -/
theorem robot_of_held (hquiet : Quiet s) (hheld : i ∈ held s) : s.robot = some i := by
  obtain hrobot | hcall := List.mem_append.mp hheld
  · exact Option.mem_toList.mp hrobot
  · obtain ⟨c, hc, hwrapper⟩ := List.mem_filterMap.mp hcall
    rw [hquiet c hc] at hwrapper
    cases hwrapper

/-- The invariant keeps the promise. -/
theorem Inv.safe (h : Inv s) : Safe s := by
  have hpublished : Quiet s → ∀ (i : ℕ) (w : Wrapper), s.wrappers[i]? = some w →
      w.energised = true → s.robot = some i := by
    intro hquiet i w hw henergised
    have hopen := h.powered.isOpen i w hw henergised
    exact robot_of_held hquiet ((h.owned.isOpen_iff i w hw).mp hopen)
  refine ⟨h.oneBus, hpublished, fun hquiet w hw henergised => ?_, fun _ htorque => ?_,
    fun hquiet hdown w hw => ?_⟩
  · obtain ⟨i, hi⟩ := List.getElem?_of_mem hw
    exact (h.powered.published i w (hpublished hquiet i w hi henergised) hi).2.1 henergised
  · obtain ⟨i, hi⟩ := Option.ne_none_iff_exists'.mp (h.powered.torque htorque)
    have hlt : i < s.wrappers.length := by
      refine h.owned.lt i ?_
      rw [held, hi]
      exact List.mem_cons_self
    have hw := List.getElem?_eq_getElem hlt
    exact ⟨i, _, hi, hw, (h.powered.published i _ hi hw).2.2 htorque⟩
  · by_contra henergised
    rw [Bool.not_eq_false] at henergised
    obtain ⟨i, hi⟩ := List.getElem?_of_mem hw
    have hrobot := hpublished hquiet i w hi henergised
    obtain hmem | ⟨hnone, -⟩ := h.last.down hdown
    · cases hquiet _ hmem
    · rw [hnone] at hrobot
      cases hrobot

theorem inv_init : Inv machine.init where
  owned := ⟨List.nodup_nil, nofun, nofun⟩
  locked := ⟨nofun, nofun⟩
  powered := ⟨nofun, nofun, nofun, nofun⟩
  oneBus := by
    intro i j w v hw
    cases hw
  last := ⟨nofun, nofun⟩

/-- **Energised means owned and controlled** in every state of every run whose steps are careful. -/
theorem safe_of_careful {acts : List Act} {s : Actuator} (hrun : machine.run acts = some s)
    (hcareful : machine.Guarded Careful machine.init acts) : Safe s :=
  (machine.invariant_of_guarded Careful inv_init (fun _ _ _ h hok hstep => h.step hok hstep)
    hcareful hrun).safe

/-- An SDK all of whose calls work. -/
def sdk : Env where
  channel := some "/dev/ttyACM1"
  built := true
  connect := { connect := .done, enable := .done, start := .done, disable := .done }
  disconnect := { stop := .done, disable := .done, drops := true }
  torque :=
    { enable := .done, stop := .done, start := .done, disable := .done, fallback := .done }

/-- `connect`, from its call to its end. -/
def connectRun : List Act := .connect :: List.replicate 9 (.go 0 sdk)

/-- `set_torque(True)` whose controller does not start: the wrapper drops the torque, and the
actuator turns it on again. -/
def restartFails : List Act :=
  connectRun ++ ([.setTorque true, .go 1 sdk,
    .go 1 { sdk with torque := { sdk.torque with start := .raised false } }] : List Act)

theorem motors_without_controller : ¬ ∀ acts s, machine.run acts = some s → Safe s := by
  intro hall
  have hsafe := hall restartFails _ rfl
  exact absurd (hsafe.controlled (by decide +kernel) _ (List.mem_singleton_self _) rfl) (by decide)

/-- The arm is connected, made loose, held again and disconnected. -/
def day : List Act :=
  connectRun ++ ([.setTorque false, .go 1 sdk, .go 1 sdk, .setTorque true, .go 2 sdk, .go 2 sdk,
    .disconnect, .go 3 sdk, .go 3 sdk] : List Act)

theorem day_safe : ∃ s, machine.run day = some s ∧ Safe s := by
  obtain ⟨s, hrun⟩ : ∃ s, machine.run day = some s := ⟨_, rfl⟩
  exact ⟨s, hrun, safe_of_careful hrun (by decide +kernel)⟩

end OpenVoiceStream.Arm.Power
