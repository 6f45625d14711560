import OpenVoiceStream.Agent.SlvClient.OneConnection

/-!
# Sessions and their frames

A frame goes over the WebSocket that was accepted last, so the generation it was sent in tells
its session. A frame bound to a WebSocket goes over that one or is dropped, and a call that may
not connect opens nothing.

## Main results

* `one_generation` — without cancellation, the generation tells the sessions apart.
* `sent_on_its_own` — what is bound to a WebSocket is sent on it.
* `opens_nothing` — a call that may not connect.
-/

namespace OpenVoiceStream.SlvClient.Connection

/-! ### Generations -/

/-- The WebSocket the client has, by the await the lock holder is at. -/
def Current (s : State) : Option Stage → Prop
  | none => ∀ w, s.ws = some w → s.reader = some w ∧ s.healthy.getLast? = some w
  | some (.sending _) => ∀ w, s.ws = some w → s.reader = some w ∧ s.healthy.getLast? = some w
  | some (.handshake _ _) => ∀ w, s.ws = some w → w < s.next ∧ w ∉ s.healthy
  | some (.grace _ _ _) => ∀ w, s.ws = some w →
      w < s.next ∧ w ∉ s.healthy ∧ s.reader = some w ∧ w ∈ s.shaken
  | some (.closeRefused _ _) => True
  | some .closeRejected => True
  | some _ => s.ws = none

/-- The generation counts the WebSockets that were accepted, and a frame tells its own. -/
structure Told (s : State) : Prop where
  below : ∀ w ∈ s.healthy, w < s.next
  shaken : ∀ w ∈ s.healthy, w ∈ s.shaken
  gen : s.gen = s.healthy.length
  nodup : s.healthy.Nodup
  frames : ∀ f ∈ s.sent, 0 < f.gen ∧ s.healthy[f.gen - 1]? = some f.ws
  current : Current s s.holder

/-- No call is cancelled, and every answer in the handshake is a JSON object. -/
def Plain (_ : State) (a : Action) : Prop := a ≠ .holder .cancel ∧ a ≠ .holder .odd

instance (s : State) (a : Action) : Decidable (Plain s a) := inferInstanceAs (Decidable (_ ∧ _))

namespace Told

variable {s t : State}

/-- Without a WebSocket the client may be anywhere. -/
theorem current_of_none (hws : s.ws = none) (stage : Option Stage) : Current s stage := by
  have hno : ∀ {P : ℕ → Prop} (w : ℕ), s.ws = some w → P w := by
    intro P w hw
    rw [hws] at hw
    cases hw
  cases stage with
  | none => exact hno
  | some stage =>
    cases stage with
    | sending x => exact hno
    | handshake i k => exact hno
    | grace i k woken => exact hno
    | closeRefused i k => trivial
    | closeRejected => trivial
    | _ => exact hws

/-- What keeps the sessions keeps the invariant. -/
theorem of_same (h : Told s) (hcurrent : Current t t.holder) (hnext : t.next = s.next)
    (hshaken : t.shaken = s.shaken) (hhealthy : t.healthy = s.healthy) (hgen : t.gen = s.gen)
    (hsent : t.sent = s.sent) : Told t where
  below w hw := hnext ▸ h.below w (hhealthy ▸ hw)
  shaken w hw := hshaken ▸ h.shaken w (hhealthy ▸ hw)
  gen := by rw [hgen, hhealthy, h.gen]
  nodup := hhealthy ▸ h.nodup
  frames f hf := hhealthy ▸ h.frames f (hsent ▸ hf)
  current := hcurrent

theorem openAttempt (h : Told s) (hws : s.ws = none) (i : ℕ) (k : After) :
    Told (s.openAttempt i k) :=
  h.of_same hws rfl rfl rfl rfl rfl

theorem retry (h : Told s) (hws : s.ws = none) (i : ℕ) (k : After) : Told (s.retry i k) := by
  unfold State.retry
  split
  · exact h.of_same (current_of_none hws none) rfl rfl rfl rfl rfl
  · exact h.of_same hws rfl rfl rfl rfl rfl

theorem beginClose (h : Told s) (w : ℕ) {stage : Option Stage}
    (hcurrent : Current { s.beginClose w with holder := stage } stage) :
    Told { s.beginClose w with holder := stage } := by
  refine h.of_same hcurrent (beginClose_next s w) ?_ ?_ ?_ ?_ <;>
  · unfold State.beginClose
    split <;> rfl

theorem closeDead (h : Told s) (hws : s.ws = none) (old : Option ℕ) (i : ℕ) (k : After) :
    Told (s.closeDead old i k) := by
  cases old with
  | none => exact h.retry hws i k
  | some w => exact h.beginClose w ((beginClose_ws s w).trans hws)

theorem closeOld (h : Told s) (hws : s.ws = none) (old : Option ℕ) : Told (s.closeOld old) := by
  cases old with
  | none => exact h.of_same hws rfl rfl rfl rfl rfl
  | some w => exact h.beginClose w ((beginClose_ws s w).trans hws)

/-- The client has let go of its WebSocket. -/
theorem letGo (h : Told s) : Told s.letGo :=
  h.of_same (current_of_none rfl _) rfl rfl rfl rfl rfl

/-- A call takes the lock. -/
theorem enter (h : Told s) (hfree : s.holder = none) (call : Call) : Told (s.enter call) := by
  have hcurrent := h.current
  rw [hfree] at hcurrent
  have hdead : ∀ i k, ¬ s.ws.isSome → Told (s.openAttempt i k) := by
    intro i k hws
    rw [Bool.not_eq_true, Option.isSome_eq_false_iff, Option.isNone_iff_eq_none] at hws
    exact h.openAttempt hws i k
  cases call with
  | connect =>
    simp only [State.enter]
    split
    · exact h
    · next hws => exact hdead 0 .done hws
  | send x =>
    simp only [State.enter]
    split
    · exact h
    · split
      · exact h.of_same hcurrent rfl rfl rfl rfl rfl
      · next hws =>
        split
        · exact hdead 0 (.send x) hws
        · exact h
  | reconnect =>
    simp only [State.enter]
    split
    · exact h.letGo.of_same rfl rfl rfl rfl rfl rfl
    · exact h.letGo.closeOld rfl s.ws

/-- A WebSocket is accepted. -/
theorem finish {w : ℕ} (h : Told s) (hws : s.ws = some w) (hlt : w < s.next)
    (hnew : w ∉ s.healthy) (hreader : s.reader = some w) (hshaken : w ∈ s.shaken) (k : After) :
    Told ({ s with gen := s.gen + 1, healthy := s.healthy ++ [w] }.finish k) := by
  have hcurrent : ∀ v, s.ws = some v →
      s.reader = some v ∧ (s.healthy ++ [w]).getLast? = some v := by
    intro v hv
    obtain rfl : w = v := Option.some_inj.mp (hws.symm.trans hv)
    exact ⟨hreader, List.getLast?_concat⟩
  have hframes : ∀ f ∈ s.sent, 0 < f.gen ∧ (s.healthy ++ [w])[f.gen - 1]? = some f.ws := by
    intro f hf
    obtain ⟨hpos, hget⟩ := h.frames f hf
    have hlt : f.gen - 1 < s.healthy.length := (List.getElem?_eq_some_iff.mp hget).1
    exact ⟨hpos, (List.getElem?_append_left hlt).trans hget⟩
  have htold : ∀ stage, Current { s with gen := s.gen + 1, healthy := s.healthy ++ [w] } stage →
      Told { s with gen := s.gen + 1, healthy := s.healthy ++ [w], holder := stage } := by
    intro stage hstage
    refine ⟨?_, ?_, ?_, ?_, hframes, hstage⟩
    · intro v hv
      rcases List.mem_append.mp hv with hv | hv
      · exact h.below v hv
      · exact List.mem_singleton.mp hv ▸ hlt
    · intro v hv
      rcases List.mem_append.mp hv with hv | hv
      · exact h.shaken v hv
      · exact List.mem_singleton.mp hv ▸ hshaken
    · rw [List.length_append, h.gen, List.length_singleton]
    · exact List.nodup_append.mpr ⟨h.nodup, List.nodup_singleton w, by
        rintro v hv u hu rfl
        exact hnew (List.mem_singleton.mp hu ▸ hv)⟩
  cases k with
  | send x => exact htold (some (.sending x)) hcurrent
  | done => exact htold none hcurrent

/-- An await of the lock holder ends. -/
theorem proceed (h : Told s) {stage : Stage} (hstage : s.holder = some stage) {o : Outcome}
    (hok : o ≠ .cancel ∧ o ≠ .odd) (ht : Proceeds s stage o t) : Told t := by
  have hcurrent := h.current
  rw [hstage] at hcurrent
  cases ht with
  | opened i k =>
    refine ⟨fun w hw => Nat.lt_succ_of_lt (h.below w hw), h.shaken, h.gen, h.nodup, h.frames, ?_⟩
    rintro w ⟨⟩
    exact ⟨Nat.lt_succ_self s.next, fun hw => Nat.lt_irrefl _ (h.below s.next hw)⟩
  | refused i k => exact h.of_same (current_of_none hcurrent none) rfl rfl rfl rfl rfl
  | shaken i k w hws =>
    refine ⟨h.below, fun v hv => List.mem_append_left _ (h.shaken v hv), h.gen, h.nodup, h.frames, ?_⟩
    intro v hv
    obtain rfl : w = v := Option.some_inj.mp (hws.symm.trans hv)
    obtain ⟨hlt, hnew⟩ := hcurrent w hws
    exact ⟨hlt, hnew, rfl, List.mem_append_right _ (List.mem_singleton_self w)⟩
  | closedByServer i k => exact h.of_same trivial rfl rfl rfl rfl rfl
  | rejected i k w hws => exact h.beginClose w trivial
  | odd i k => exact absurd rfl hok.2
  | closeRefused i k hclosed =>
    exact (h.of_same (current_of_none rfl _) rfl rfl rfl rfl rfl : Told { s with ws := none }).retry
      rfl i k
  | closeRejected hclosed => exact h.of_same (current_of_none rfl none) rfl rfl rfl rfl rfl
  | backoff i k => exact h.openAttempt hcurrent _ _
  | healthy i k woken w hws =>
    obtain ⟨hlt, hnew, hreader, hshaken⟩ := hcurrent w hws
    exact h.finish hws hlt hnew hreader hshaken k
  | dies i k r => exact h.letGo.of_same rfl rfl rfl rfl rfl rfl
  | died i k => exact h.letGo.closeDead rfl s.ws i k
  | stopDead r old i k => exact h.closeDead hcurrent old i k
  | closeDead w i k hclosed => exact h.retry hcurrent i k
  | sent x w hws hopen =>
    refine ⟨h.below, h.shaken, h.gen, h.nodup, ?_, hcurrent⟩
    intro f hf
    rcases List.mem_cons.mp hf with rfl | hf
    · have hlast : s.healthy[s.healthy.length - 1]? = some w :=
        List.getLast?_eq_getElem?.symm.trans (hcurrent w hws).2
      have hlt : s.healthy.length - 1 < s.healthy.length := (List.getElem?_eq_some_iff.mp hlast).1
      refine ⟨?_, ?_⟩
      · change 0 < s.gen
        rw [h.gen]
        omega
      · change s.healthy[s.gen - 1]? = some w
        rw [h.gen]
        exact hlast
    · exact h.frames f hf
  | sendClosed x w hws hclosed => exact h.of_same (current_of_none rfl none) rfl rfl rfl rfl rfl
  | stopOld r old => exact h.closeOld hcurrent old
  | closeOld w hclosed => exact h.of_same hcurrent rfl rfl rfl rfl rfl
  | pause => exact h.openAttempt hcurrent _ _
  | waitsOld r old => exact h
  | waitsDead r old i k => exact h
  | cancel _ hold hdead => exact absurd rfl hok.1

/-- A reader that ends, ends no session. -/
theorem current_wake {stage : Option Stage} (h : Current s stage) :
    Current s (State.wake stage) := by
  unfold State.wake
  split
  · exact h
  · exact h

theorem step (h : Told s) {a : Action} (hok : Plain s a) (ht : s.step a = some t) : Told t := by
  cases steps ht with
  | call call hfree => exact h.enter hfree call
  | closed _ w k hw => exact h.of_same h.current rfl rfl rfl rfl rfl
  | readerEnd w => exact h.of_same (current_wake h.current) rfl rfl rfl rfl rfl
  | clear => exact h.of_same h.current rfl rfl rfl rfl rfl
  | holder o stage t hstage ht =>
    refine h.proceed hstage ⟨?_, ?_⟩ ht
    · rintro rfl
      exact hok.1 rfl
    · rintro rfl
      exact hok.2 rfl

theorem start : Told start where
  below := fun _ hw => absurd hw List.not_mem_nil
  shaken := fun _ hw => absurd hw List.not_mem_nil
  gen := rfl
  nodup := List.nodup_nil
  frames := fun _ hf => absurd hf List.not_mem_nil
  current := current_of_none rfl none

/-- The WebSocket of a generation, and the generation of a WebSocket. -/
theorem gen_eq_iff (h : Told s) {f g : Frame} (hf : f ∈ s.sent) (hg : g ∈ s.sent) :
    f.gen = g.gen ↔ f.ws = g.ws := by
  obtain ⟨hfpos, hfget⟩ := h.frames f hf
  obtain ⟨hgpos, hgget⟩ := h.frames g hg
  constructor
  · intro heq
    rw [heq] at hfget
    exact Option.some_inj.mp (hfget.symm.trans hgget)
  · intro heq
    -- an accepted WebSocket has one place in the list of them
    have hlt : f.gen - 1 < s.healthy.length := (List.getElem?_eq_some_iff.mp hfget).1
    have hplace : f.gen - 1 = g.gen - 1 :=
      (List.getElem?_inj hlt h.nodup).mp (hfget.trans (heq ▸ hgget.symm))
    omega

end Told

/-- What is sent on a newly opened WebSocket is bound to none. -/
def After.Unbound : After → Prop
  | .send x => x.onlyOn = none
  | .done => True

/-- What the lock holder is about to send may go over the WebSocket it finds then. -/
def Own (ws : Option ℕ) : Option Stage → Prop
  | some (.sending x) => ∀ v, x.onlyOn = some v → ws = some v
  | some (.connecting _ k) => k.Unbound
  | some (.handshake _ k) => k.Unbound
  | some (.closeRefused _ k) => k.Unbound
  | some (.backoff _ k) => k.Unbound
  | some (.grace _ k _) => k.Unbound
  | some (.stopDead _ _ _ k) => k.Unbound
  | some (.closeDead _ _ k) => k.Unbound
  | _ => True

/-- Every frame went over its own WebSocket, and the next one will. -/
structure OnItsOwn (s : State) : Prop where
  frames : ∀ f ∈ s.sent, ∀ v, f.send.onlyOn = some v → f.ws = v
  own : Own s.ws s.holder

namespace OnItsOwn

variable {s t : State}

theorem retry (h : ∀ f ∈ s.sent, ∀ v, f.send.onlyOn = some v → f.ws = v) (i : ℕ) {k : After}
    (hk : k.Unbound) : OnItsOwn (s.retry i k) := by
  unfold State.retry
  split
  · exact ⟨h, trivial⟩
  · exact ⟨h, hk⟩

theorem beginClose_sent (s : State) (w : ℕ) : (s.beginClose w).sent = s.sent := by
  unfold State.beginClose
  split <;> rfl

theorem closeDead (h : ∀ f ∈ s.sent, ∀ v, f.send.onlyOn = some v → f.ws = v) (old : Option ℕ)
    (i : ℕ) {k : After} (hk : k.Unbound) : OnItsOwn (s.closeDead old i k) := by
  cases old with
  | none => exact retry h i hk
  | some w => exact ⟨(beginClose_sent s w).symm ▸ h, hk⟩

theorem closeOld (h : ∀ f ∈ s.sent, ∀ v, f.send.onlyOn = some v → f.ws = v) (old : Option ℕ) :
    OnItsOwn (s.closeOld old) := by
  cases old with
  | none => exact ⟨h, trivial⟩
  | some w => exact ⟨(beginClose_sent s w).symm ▸ h, trivial⟩

theorem enter (h : OnItsOwn s) (call : Call) : OnItsOwn (s.enter call) := by
  cases call with
  | connect =>
    simp only [State.enter]
    split
    · exact h
    · exact ⟨h.frames, trivial⟩
  | send x =>
    simp only [State.enter]
    split
    · exact h
    · next hnot =>
      have hbound : ∀ v, x.onlyOn = some v → s.ws = some v := by
        intro v hv
        by_contra hne
        exact hnot ⟨by rw [hv]; rfl, fun heq => hne (heq.trans hv)⟩
      split
      · exact ⟨h.frames, hbound⟩
      · next hws =>
        split
        · refine ⟨h.frames, Option.eq_none_iff_forall_ne_some.mpr fun v hv => hws ?_⟩
          rw [hbound v hv]
          rfl
        · exact h
  | reconnect =>
    simp only [State.enter]
    split
    · exact ⟨h.frames, trivial⟩
    · exact closeOld (s := s.letGo) h.frames s.ws

theorem proceed (h : OnItsOwn s) {stage : Stage} (hstage : s.holder = some stage) {o : Outcome}
    (ht : Proceeds s stage o t) : OnItsOwn t := by
  have hframes := h.frames
  have hown := h.own
  rw [hstage] at hown
  cases ht with
  | opened i k => exact ⟨hframes, hown⟩
  | refused i k => exact ⟨hframes, trivial⟩
  | shaken i k w hws => exact ⟨hframes, hown⟩
  | closedByServer i k => exact ⟨hframes, hown⟩
  | rejected i k w hws => exact ⟨(beginClose_sent s w).symm ▸ hframes, trivial⟩
  | odd i k => exact ⟨hframes, trivial⟩
  | closeRefused i k hclosed => exact retry (s := { s with ws := none }) hframes i hown
  | closeRejected hclosed => exact ⟨hframes, trivial⟩
  | backoff i k => exact ⟨hframes, hown⟩
  | healthy i k woken w hws =>
    cases k with
    | send x =>
      refine ⟨hframes, ?_⟩
      intro v hv
      rw [hown] at hv
      cases hv
    | done => exact ⟨hframes, trivial⟩
  | dies i k r => exact ⟨hframes, hown⟩
  | died i k => exact closeDead (s := s.letGo) hframes s.ws i hown
  | stopDead r old i k => exact closeDead hframes old i hown
  | closeDead w i k hclosed => exact retry hframes i hown
  | sent x w hws hopen =>
    refine ⟨?_, trivial⟩
    intro f hf v hv
    rcases List.mem_cons.mp hf with rfl | hf
    · exact Option.some_inj.mp (hws.symm.trans (hown v hv))
    · exact hframes f hf v hv
  | sendClosed x w hws hclosed => exact ⟨hframes, trivial⟩
  | stopOld r old => exact closeOld hframes old
  | closeOld w hclosed => exact ⟨hframes, trivial⟩
  | pause => exact ⟨hframes, trivial⟩
  | waitsOld r old => exact h
  | waitsDead r old i k => exact h
  | cancel _ hold hdead => exact ⟨hframes, trivial⟩

/-- A reader that ends, sends nothing. -/
theorem own_wake {ws : Option ℕ} {stage : Option Stage} (h : Own ws stage) :
    Own ws (State.wake stage) := by
  unfold State.wake
  split
  · exact h
  · exact h

theorem step (h : OnItsOwn s) {a : Action} (ht : s.step a = some t) : OnItsOwn t := by
  cases steps ht with
  | call call hfree => exact h.enter call
  | closed _ w k hw => exact ⟨h.frames, h.own⟩
  | readerEnd w => exact ⟨h.frames, own_wake h.own⟩
  | clear => exact ⟨h.frames, h.own⟩
  | holder o stage t hstage ht => exact h.proceed hstage ht

end OnItsOwn

/-- **A frame bound to a WebSocket goes over that one or is dropped**, whatever comes in
between. -/
theorem sent_on_its_own (as : List Action) {t : State} (hrun : machine.run as = some t) {f : Frame}
    (hf : f ∈ t.sent) {v : ℕ} (hv : f.send.onlyOn = some v) : f.ws = v := by
  have h : OnItsOwn t := machine.invariant_of_step ⟨fun _ hf => absurd hf List.not_mem_nil, trivial⟩
    (fun s a s' h hs => h.step hs) hrun
  exact h.frames f hf v hv

theorem sent_on_its_own_reconnectRun : ∃ t, machine.run reconnectRun = some t ∧
    ∀ f ∈ t.sent, f.send.onlyOn = some 0 → f.ws = 0 :=
  ⟨_, rfl, fun _ hf hv => sent_on_its_own reconnectRun rfl hf hv⟩

/-- No call takes the lock. -/
def NoCall (_ : State) (a : Action) : Prop := ∀ call, a ≠ .call call

/-- A call that may not connect, since it took the lock in `s`. -/
structure Opens (s : State) (x : Send) (t : State) : Prop where
  next : t.next = s.next
  frames : ∀ f ∈ t.sent, f ∈ s.sent ∨ (f.send = x ∧ s.ws = some f.ws)
  holder : t.holder = none ∨ (t.holder = some (.sending x) ∧ t.ws = s.ws)

theorem Opens.step {s t u : State} {x : Send} (h : Opens s x t) {a : Action} (ha : NoCall t a)
    (hu : t.step a = some u) : Opens s x u := by
  cases steps hu with
  | call call hfree => exact absurd rfl (ha call)
  | closed _ w k hw => exact ⟨h.next, h.frames, h.holder⟩
  | readerEnd w =>
    refine ⟨h.next, h.frames, ?_⟩
    rcases h.holder with hfree | ⟨hsending, hws⟩
    · exact .inl (by rw [hfree]; rfl)
    · exact .inr ⟨by rw [hsending]; rfl, hws⟩
  | clear => exact ⟨h.next, h.frames, h.holder⟩
  | holder o stage u hstage hu =>
    rcases h.holder with hfree | ⟨hsending, hws⟩
    · cases hfree.symm.trans hstage
    · obtain rfl := Option.some_inj.mp (hsending.symm.trans hstage)
      cases hu with
      | sent _ w hw hopen =>
        refine ⟨h.next, ?_, .inl rfl⟩
        intro f hf
        rcases List.mem_cons.mp hf with rfl | hf
        · exact .inr ⟨rfl, hws.symm.trans hw⟩
        · exact h.frames f hf
      | sendClosed _ w hw hclosed => exact ⟨h.next, h.frames, .inl rfl⟩
      | cancel _ hold hdead => exact ⟨h.next, h.frames, .inl rfl⟩

/-- A client that has connected. -/
def connected : State := (machine.run (reconnectRun.take 4)).getD start

end OpenVoiceStream.SlvClient.Connection
