import OpenVoiceStream.SparkVoices.Invariant

/-!
# Committed voices stay committed

As long as no transaction begins on a voice that a live journal is about, the steps of a
transaction keep the invariant, and a recovery pass leaves a complete pair: the one of the
last operation that returned, or of one that was interrupted after it.

## Main definitions

* `Undisturbed` — no transaction begins on a voice with a live journal.

## Main results

* `Inv.filePrep`, `Inv.fileArm`, `Inv.fileCommit` — the steps of a transaction.
* `Inv.step` — undisturbed steps keep the invariant.
* `settled_of_undisturbed` — after a recovery pass every voice is settled.
* `lost_voice` — a register that returned, undone by a journal that was left.
-/

namespace OpenVoiceStream.SparkVoices

variable {V β : Type} [DecidableEq V]

section Steps

variable {c c' : Config V β}

/-! ### The steps of a transaction -/

section Transaction

variable {x : Txn V β} {s : FileStep V β} {rest : List (FileStep V β)}

omit [DecidableEq V] in
/-- The journal of a transaction is about its own voice. -/
theorem not_live_of_journal {d : Disk V β} {v : V} (hv : v ≠ x.voice)
    (hjournal : ∀ op v o, d (.journal x.token) = some (.journal op v o) → v = x.voice) :
    ¬ Live d x.token v := by
  rintro ⟨op, o, hj, -⟩
  exact hv (hjournal op v o hj)

/-- Other voices do not notice. -/
theorem VoiceOk.stepped {d : Disk V β} {allowed : Option (Pair V β) → Prop} {ok : Token → Prop}
    {v : V} (h : VoiceOk d allowed ok v) (hv : v ≠ x.voice) (htouches : x.Touches s)
    (hbefore : ∀ op v o, d (.journal x.token) = some (.journal op v o) → v = x.voice)
    (hafter : ∀ op v o, s.apply d (.journal x.token) = some (.journal op v o) → v = x.voice) :
    VoiceOk (s.apply d) allowed ok v := by
  refine h.frame (t := x.token) ?_ ?_ ?_ (not_live_of_journal hv hbefore)
    (not_live_of_journal hv hafter)
  · refine FileStep.apply_of_notMem fun hmem => ?_
    rcases htouches _ hmem with h | h | h
    · cases h
    · exact hv (Name.json.inj h)
    · cases h
  · refine FileStep.apply_of_notMem fun hmem => ?_
    rcases htouches _ hmem with h | h | h
    · cases h
    · cases h
    · exact hv (Name.npz.inj h)
  · refine fun n t' hn hne => FileStep.apply_of_notMem fun hmem => ?_
    rcases htouches _ hmem with h | rfl | rfl
    · exact hne (Option.some.inj (hn.symm.trans h))
    · cases hn
    · cases hn

theorem names_stepped (h : Inv c) (htouches : x.Touches s) (hfresh : x.token ∈ c.tokens) :
    ∀ (n : Name V) t, n.token = some t → (s.apply c.disk n).isSome → t ∈ c.tokens := by
  intro n t hn hsome
  by_cases hmem : n ∈ s.touches
  · rcases htouches n hmem with h | rfl | rfl
    · rw [← Option.some.inj (h.symm.trans hn)]
      exact hfresh
    · cases hn
    · cases hn
  · rw [FileStep.apply_of_notMem hmem] at hsome
    exact h.names n t hn hsome

/-- A live journal of another token was there before the step. -/
theorem live_stepped {d : Disk V β} {v : V} {t : Token} (htouches : x.Touches s)
    (hne : t ≠ x.token) (hl : Live (s.apply d) t v) : Live d t v := by
  refine (live_congr fun n hn => FileStep.apply_of_notMem fun hmem => ?_).mp hl
  rcases htouches n hmem with h | rfl | rfl
  · exact hne (Option.some.inj (hn.symm.trans h))
  · cases hn
  · cases hn

/-- A step on files by a transaction: its own voice is as it may be, and so are the others,
since its journal is not about them. -/
theorem Inv.stepped (h : Inv c) {stage : Stage V β} (htouches : x.Touches s)
    (hfresh : x.token ∈ c.tokens) (hpending : c.holder.bind Stage.pending = stage.pending)
    (hmixed : ∀ t, MixedOk t (some stage))
    (hbefore : ∀ op v o, c.disk (.journal x.token) = some (.journal op v o) → v = x.voice)
    (hafter : ∀ op v o, s.apply c.disk (.journal x.token) = some (.journal op v o) → v = x.voice)
    (hvoice : VoiceOk (s.apply c.disk) (c.allowed x.voice) (fun _ => True) x.voice)
    (hstage : StageOk { c with disk := s.apply c.disk, holder := some stage } stage) :
    Inv { c with disk := s.apply c.disk, holder := some stage } := by
  have hallowed : ∀ v pair, c.allowed v pair →
      Config.allowed { c with disk := s.apply c.disk, holder := some stage } v pair := by
    rintro v pair (hknown | ⟨y, hy, hrest⟩)
    · exact .inl hknown
    · exact .inr ⟨y, hpending.symm.trans hy, hrest⟩
  refine ⟨fun v => ?_, names_stepped h htouches hfresh, ?_⟩
  · by_cases hv : v = x.voice
    · subst hv
      exact hvoice.mono (hallowed _) fun _ _ _ _ _ _ => hmixed _
    · exact ((h.voice v).stepped hv htouches hbefore hafter).mono (hallowed v)
        fun _ _ _ _ _ _ => hmixed _
  · rintro stage' hstage'
    cases hstage'
    exact hstage

/-- A step on files in the transaction directory. -/
theorem Inv.filePrep (h : Inv c) (hholder : c.holder = some (.prep x (s :: rest))) :
    Inv { c with disk := s.apply c.disk, holder := some (.prep x rest) } := by
  have hp : PrepOk c x (s :: rest) := h.stage _ hholder
  have htouches : x.Touches s := fun n hn => .inl (hp.own s List.mem_cons_self n hn).1
  have hkeep : ∀ n : Name V, n.token = none → s.apply c.disk n = c.disk n := by
    refine fun n hn => FileStep.apply_of_notMem fun hmem => ?_
    rw [(hp.own s List.mem_cons_self n hmem).1] at hn
    cases hn
  have hjournal : s.apply c.disk (.journal x.token) = none := by
    rw [FileStep.apply_of_notMem fun hmem => (hp.own s List.mem_cons_self _ hmem).2 rfl]
    exact hp.journal
  have hshows : Shows (s.apply c.disk) x.voice x.old := hp.shows.congr (hkeep _ rfl) (hkeep _ rfl)
  have hquiet : ∀ t, ¬ Live (s.apply c.disk) t x.voice := by
    intro t hl
    by_cases ht : t = x.token
    · obtain ⟨_, _, hj, -⟩ := hl
      rw [ht, hjournal] at hj
      cases hj
    · exact hp.quiet t (live_stepped htouches ht hl)
  refine h.stepped htouches hp.fresh (by rw [hholder]; rfl) (fun _ => trivial) ?_ ?_
    (.quiet x.old (.inl hp.known) hshows hquiet) ?_
  · rw [hp.journal]
    exact nofun
  · rw [hjournal]
    exact nofun
  · exact ⟨⟨hp.valid, hp.fresh, hp.known, hshows⟩, hquiet, hjournal,
      fun s' hs' => hp.own s' (List.mem_cons_of_mem _ hs'), hp.prepared⟩

/-- The directory is filled. -/
theorem Inv.nextPrep (h : Inv c) (hholder : c.holder = some (.prep x [])) :
    Inv { c with holder := some (.arm x x.arm) } := by
  have hp : PrepOk c x [] := h.stage _ hholder
  refine Inv.of_known (h.known_voice (by rw [hholder]; rfl)) (fun _ _ => trivial) h.names ?_
  rintro stage hstage
  cases hstage
  refine ⟨⟨hp.valid, hp.fresh, hp.known, hp.shows⟩, hp.prepared, .inl ⟨.inl rfl, hp.quiet, ?_⟩⟩
  rw [hp.journal]
  exact nofun

omit [DecidableEq V] in
/-- The steps that are left are of the journal. -/
theorem ArmOk.mem_arm (h : ArmOk c x (s :: rest)) : s ∈ x.arm := by
  rcases h.journal with ⟨hrest | hrest, -⟩ | ⟨hrest | hrest, -⟩
  · rw [← hrest]
    exact List.mem_cons_self
  · exact List.mem_of_mem_drop (hrest ▸ List.mem_cons_self)
  · exact List.mem_of_mem_drop (hrest ▸ List.mem_cons_self)
  · cases hrest

omit [DecidableEq V] in
theorem ArmOk.journal_voice (h : ArmOk c x rest) :
    ∀ op v o, c.disk (.journal x.token) = some (.journal op v o) → v = x.voice := by
  intro op v o hj
  rcases h.journal with ⟨-, -, hnot⟩ | ⟨-, harmed, -⟩
  · exact absurd hj (hnot op v o)
  · cases harmed.journal.symm.trans hj
    rfl

omit [DecidableEq V] in
theorem ArmOk.voiceOk (h : ArmOk c x rest) {allowed : Option (Pair V β) → Prop}
    {ok : Token → Prop} (hallowed : allowed x.old) : VoiceOk c.disk allowed ok x.voice := by
  rcases h.journal with ⟨-, hquiet, -⟩ | ⟨-, harmed, hone⟩
  · exact .quiet x.old hallowed h.shows hquiet
  · exact .live x rfl h.valid harmed hone (.old h.shows hallowed)

omit [DecidableEq V] in
/-- A step that changes the journal only keeps the rest. -/
theorem Prepared.congr {d d' : Disk V β} (h : Prepared d x)
    (hsame : ∀ n : Name V, n ≠ .journal x.token → d' n = d n) : Prepared d' x where
  tx := (hsame (.tx x.token) nofun).trans h.tx
  backups p hp := ⟨(hsame (.oldJson x.token) nofun).trans (h.backups p hp).1,
    (hsame (.oldNpz x.token) nofun).trans (h.backups p hp).2⟩
  news p hp := ⟨(hsame (.newJson x.token) nofun).trans (h.news p hp).1,
    (hsame (.newNpz x.token) nofun).trans (h.news p hp).2⟩

/-- The journal comes to be, torn and then whole. -/
theorem ArmOk.step (h : ArmOk c x (s :: rest)) (c' : Config V β)
    (hdisk : c'.disk = s.apply c.disk) (htokens : c'.tokens = c.tokens)
    (hknown : c'.known x.voice x.old) : ArmOk c' x rest := by
  have hsame : ∀ n : Name V, n ≠ .journal x.token → c'.disk n = c.disk n := by
    intro n hn
    rw [hdisk]
    exact FileStep.apply_of_notMem fun hmem => hn (Txn.touches_arm h.mem_arm hmem)
  have htouches : x.Touches s := by
    intro n hn
    rw [Txn.touches_arm h.mem_arm hn]
    exact .inl rfl
  have hprepared : Prepared c'.disk x := h.prepared.congr hsame
  have hbefore : BeforeOk c' x := ⟨h.valid, htokens ▸ h.fresh, hknown,
    h.shows.congr (hsame (.json _) nofun) (hsame (.npz _) nofun)⟩
  refine ⟨hbefore, hprepared, ?_⟩
  rcases h.journal with ⟨hrest | hrest, hquiet, -⟩ | ⟨hrest | hrest, harmed, hone⟩
  · -- created
    obtain ⟨rfl, rfl⟩ := List.cons.inj hrest
    have hjournal : c'.disk (.journal x.token) = some .torn := by
      rw [hdisk]
      exact Function.update_self _ _ _
    refine .inl ⟨.inr rfl, fun t hl => ?_, by rw [hjournal]; exact nofun⟩
    by_cases ht : t = x.token
    · obtain ⟨_, _, hj, -⟩ := hl
      rw [ht, hjournal] at hj
      cases hj
    · exact hquiet t (live_stepped htouches ht (hdisk ▸ hl))
  · -- filled
    obtain ⟨rfl, rfl⟩ := List.cons.inj hrest
    have hjournal : c'.disk (.journal x.token) =
        some (.journal x.operation x.voice x.old.isSome) := by
      rw [hdisk]
      exact Function.update_self _ _ _
    refine .inr ⟨.inl rfl, ⟨hjournal, hprepared.tx, hprepared.backups⟩, fun t hl => ?_⟩
    by_contra ht
    exact hquiet t (live_stepped htouches ht (hdisk ▸ hl))
  · obtain ⟨rfl, rfl⟩ := List.cons.inj hrest
    rw [hdisk]
    exact .inr ⟨.inr rfl, harmed, hone⟩
  · cases hrest

/-- A step of the writing of the journal. -/
theorem Inv.fileArm (h : Inv c) (hholder : c.holder = some (.arm x (s :: rest))) :
    Inv { c with disk := s.apply c.disk, holder := some (.arm x rest) } := by
  have ha : ArmOk c x (s :: rest) := h.stage _ hholder
  have ha' : ArmOk { c with disk := s.apply c.disk, holder := some (.arm x rest) } x rest :=
    ha.step _ rfl rfl ha.known
  refine h.stepped ?_ ha.fresh (by rw [hholder]; rfl) (fun _ => trivial) ha.journal_voice
    ha'.journal_voice (ha'.voiceOk (.inl ha.known)) ha'
  intro n hn
  rw [Txn.touches_arm ha.mem_arm hn]
  exact .inl rfl

omit [DecidableEq V] in
theorem CommitOk.mem_commit (h : CommitOk c x (s :: rest)) : s ∈ x.commit := by
  rcases h.position with ⟨hrest, -⟩ | ⟨hrest | hrest, -⟩ | ⟨hrest | hrest, -⟩
  · rw [← hrest]
    exact List.mem_cons_self
  · exact List.mem_of_mem_drop (hrest ▸ List.mem_cons_self)
  · exact List.mem_of_mem_drop (hrest ▸ List.mem_cons_self)
  · exact List.mem_of_mem_drop (hrest ▸ List.mem_cons_self)
  · cases hrest

omit [DecidableEq V] in
theorem CommitOk.touches (h : CommitOk c x (s :: rest)) : x.Touches s := by
  intro n hn
  rcases Txn.touches_commit h.mem_commit hn with rfl | rfl | rfl | rfl
  · exact .inl rfl
  · exact .inl rfl
  · exact .inr (.inl rfl)
  · exact .inr (.inr rfl)

omit [DecidableEq V] in
theorem CommitOk.journal_voice (h : CommitOk c x rest) :
    ∀ op v o, c.disk (.journal x.token) = some (.journal op v o) → v = x.voice := by
  intro op v o hj
  cases h.armed.journal.symm.trans hj
  rfl

omit [DecidableEq V] in
theorem CommitOk.voiceOk (h : CommitOk c x rest) {allowed : Option (Pair V β) → Prop}
    (hold : allowed x.old) (hnew : allowed x.result) :
    VoiceOk c.disk allowed (fun _ => True) x.voice := by
  refine .live x rfl h.valid h.armed h.one ?_
  rcases h.position with ⟨-, hshows, -⟩ | ⟨-, hmixed, -⟩ | ⟨-, hshows⟩
  · exact .old hshows hold
  · exact .mixed hmixed hold trivial
  · exact .new hshows hnew

/-- The files are changed, one after the other. -/
theorem CommitOk.step (h : CommitOk c x (s :: rest)) (c' : Config V β)
    (hdisk : c'.disk = s.apply c.disk) (htokens : c'.tokens = c.tokens)
    (hknown : c'.known x.voice x.old) : CommitOk c' x rest := by
  have harmed : Armed c'.disk x := by
    refine h.armed.congr fun n hn hjson hnpz => ?_
    rw [hdisk]
    refine FileStep.apply_of_notMem fun hmem => ?_
    rcases Txn.touches_commit h.mem_commit hmem with rfl | rfl | rfl | rfl
    · exact hjson rfl
    · exact hnpz rfl
    · cases hn
    · cases hn
  have hone : ∀ t, Live c'.disk t x.voice → t = x.token := by
    intro t hl
    by_contra ht
    exact ht (h.one t (live_stepped h.touches ht (hdisk ▸ hl)))
  refine ⟨h.valid, htokens ▸ h.fresh, harmed, hone, hknown, ?_⟩
  rw [hdisk]
  rcases h.position with ⟨hrest, hshows, hnews⟩ | ⟨hrest | hrest, hmixed, hnews⟩ |
    ⟨hrest | hrest, hshows⟩
  · -- the first of the two
    right; left
    cases hnew : x.new with
    | some bodies =>
      rw [Txn.commit, hnew] at hrest ⊢
      obtain ⟨rfl, rfl⟩ := List.cons.inj hrest
      obtain ⟨hjson, hnpz⟩ := hnews _ (by rw [Txn.result, hnew, Option.map_some])
      refine ⟨.inl rfl, ?_, fun p hp => ?_⟩
      · simp [Mixed, Txn.result, hnew, FileStep.apply, hshows.1, hnpz]
      · simp [FileStep.apply, (hnews p hp).1]
    | none =>
      rw [Txn.commit, hnew] at hrest ⊢
      obtain ⟨rfl, rfl⟩ := List.cons.inj hrest
      refine ⟨.inl rfl, ?_, fun p hp => ?_⟩
      · simp [Mixed, Txn.result, hnew, FileStep.apply, hshows.2]
      · rw [Txn.result, hnew] at hp
        cases hp
  · cases hnew : x.new <;> rw [Txn.commit, hnew] at hrest ⊢ <;>
      obtain ⟨rfl, rfl⟩ := List.cons.inj hrest <;> exact .inr (.inl ⟨.inr rfl, hmixed, hnews⟩)
  · -- the second
    right; right
    unfold Mixed at hmixed
    cases hnew : x.new with
    | some bodies =>
      rw [Txn.commit, hnew] at hrest ⊢
      obtain ⟨rfl, rfl⟩ := List.cons.inj hrest
      have hresult : x.result = some (.profile (some x.token) bodies.1,
        .profile (some x.token) bodies.2) := by rw [Txn.result, hnew, Option.map_some]
      rw [hresult] at hmixed
      refine ⟨.inl rfl, ?_⟩
      simp [Shows, hresult, FileStep.apply, hnews _ hresult, hmixed.2]
    | none =>
      rw [Txn.commit, hnew] at hrest ⊢
      obtain ⟨rfl, rfl⟩ := List.cons.inj hrest
      have hresult : x.result = none := by rw [Txn.result, hnew, Option.map_none]
      rw [hresult] at hmixed
      refine ⟨.inl rfl, ?_⟩
      simp [Shows, hresult, FileStep.apply, hmixed.1]
  · cases hnew : x.new <;> rw [Txn.commit, hnew] at hrest ⊢ <;>
      obtain ⟨rfl, rfl⟩ := List.cons.inj hrest <;> exact .inr (.inr ⟨.inr rfl, hshows⟩)
  · cases hrest

/-- A step that changes the pair. -/
theorem Inv.fileCommit (h : Inv c) (hholder : c.holder = some (.commit x (s :: rest))) :
    Inv { c with disk := s.apply c.disk, holder := some (.commit x rest) } := by
  have hc : CommitOk c x (s :: rest) := h.stage _ hholder
  have hc' : CommitOk { c with disk := s.apply c.disk, holder := some (.commit x rest) } x rest :=
    hc.step _ rfl rfl hc.known
  have hpending : c.holder.bind Stage.pending = some x := by rw [hholder]; rfl
  exact h.stepped hc.touches hc.fresh hpending (fun _ => trivial) hc.journal_voice
    hc'.journal_voice (hc'.voiceOk (.inl hc.known) (.inr ⟨x, hpending, rfl, rfl⟩)) hc'

/-- The journal is whole, and the pair may be changed. -/
theorem Inv.nextArm (h : Inv c) (hholder : c.holder = some (.arm x [])) :
    Inv { c with holder := some (.commit x x.commit) } := by
  have ha : ArmOk c x [] := h.stage _ hholder
  refine Inv.of_known (h.known_voice (by rw [hholder]; rfl)) (fun _ _ => trivial) h.names ?_
  rintro stage hstage
  cases hstage
  rcases ha.journal with ⟨hrest | hrest, -⟩ | ⟨-, harmed, hone⟩
  · cases hrest
  · cases hrest
  · exact ⟨ha.valid, ha.fresh, harmed, hone, ha.known, .inl ⟨rfl, ha.shows, ha.prepared.news⟩⟩

/-- The pair is changed. -/
theorem Inv.nextCommit (h : Inv c) (hholder : c.holder = some (.commit x [])) :
    Inv { c with holder := some (.cleanTx x.token (.finish x)) } := by
  have hc : CommitOk c x [] := h.stage _ hholder
  have hshows : Shows c.disk x.voice x.result := by
    rcases hc.position with ⟨hrest, -⟩ | ⟨hrest | hrest, -⟩ | ⟨-, hshows⟩
    · cases hnew : x.new <;> rw [Txn.commit, hnew] at hrest <;> cases hrest
    · cases hnew : x.new <;> rw [Txn.commit, hnew] at hrest <;> cases hrest
    · cases hnew : x.new <;> rw [Txn.commit, hnew] at hrest <;> cases hrest
    · exact hshows
  refine ⟨fun v => (h.voice v).mono ?_ fun _ _ _ _ _ _ => trivial, h.names, ?_⟩
  · rintro pair (hknown | ⟨y, hy, hrest⟩)
    · exact .inl hknown
    · rw [hholder] at hy
      cases hy
      exact .inr ⟨x, rfl, hrest⟩
  · rintro stage hstage
    cases hstage
    refine ⟨fun v hl => ?_, ?_⟩
    · have hv : v = x.voice := by
        obtain ⟨_, _, hj, -⟩ := hl
        exact hc.journal_voice _ _ _ hj
      subst hv
      exact ⟨x.result, .inr ⟨x, rfl, rfl, rfl⟩, hshows⟩
    · rintro y hy
      cases hy
      refine ⟨rfl, hc.valid, hshows, hc.one, fun op v o hj => ?_⟩
      cases hc.armed.journal.symm.trans hj
      exact ⟨rfl, rfl⟩

end Transaction

variable [DecidableEq β]

theorem Inv.crash (h : Inv c) {stage : Stage V β} (hholder : c.holder = some stage)
    (hstep : holderStep c stage .crash = some c') : Inv c' := by
  cases hpending : stage.pending with
  | none =>
    simp only [holderStep, hpending] at hstep
    cases hstep
    have hvoice := h.known_voice (by rw [hholder]; exact hpending)
    exact Inv.of_known hvoice (fun _ _ => trivial) h.names fun _ h => by cases h
  | some x =>
    simp only [holderStep, hpending] at hstep
    cases hstep
    have hvoice := h.interrupted (by rw [hholder]; exact hpending)
    exact Inv.of_known hvoice (fun _ _ => trivial) h.names fun _ h => by cases h

/-- A step of the commit has failed, and the journal is looked at. -/
theorem Inv.failCommit (h : Inv c) {x : Txn V β} {rest : List (FileStep V β)}
    (hholder : c.holder = some (.commit x rest)) :
    Inv ((c.interrupted x).recover x.token .abort) := by
  have hvoice := h.interrupted (x := x) (by rw [hholder]; rfl)
  exact Inv.recover (c := c.interrupted x) hvoice (fun _ _ => .inr trivial) rfl h.names

/-- No transaction begins on a voice with a live journal. -/
def Undisturbed (c : Config V β) : Action V β → Prop
  | .begin x => ∀ t ∈ c.tokens, ¬ Live c.disk t x.voice
  | _ => True

instance (c : Config V β) : ∀ action, Decidable (Undisturbed c action)
  | .begin x => inferInstanceAs (Decidable (∀ t ∈ c.tokens, ¬ Live c.disk t x.voice))
  | .enter | .recover | .roll | .remove _ | .rmdir | .rmJournal | .endPass | .rmOrphan _ _
  | .endOrphans | .file | .next | .reject | .fail | .crash => isTrue trivial

/-- A transaction begins. -/
theorem Inv.begin (h : Inv c) {x : Txn V β} (hholder : c.holder = some .ready)
    (hbegins : begins c.disk c.tokens x = true) (hok : Undisturbed c (.begin x)) :
    Inv { c with tokens := x.token :: c.tokens, holder := some (.prep x x.prep) } := by
  obtain ⟨hvalid, hshown, hfresh⟩ := valid_of_begins hbegins
  have hnone : ∀ n : Name V, n.token = some x.token → c.disk n = none := by
    intro n hn
    by_contra hsome
    exact hfresh (h.names n x.token hn (Option.isSome_iff_ne_none.mpr hsome))
  have hquiet : ∀ t, ¬ Live c.disk t x.voice := by
    rintro t hl
    refine hok t ?_ hl
    obtain ⟨_, _, hj, -⟩ := hl
    exact h.names (.journal t) t rfl (by rw [hj]; rfl)
  have hvoice := h.known_voice (by rw [hholder]; rfl)
  refine Inv.of_known hvoice (fun _ _ => trivial) ?_ ?_
  · exact fun n t hn hsome => List.mem_cons_of_mem _ (h.names n t hn hsome)
  · rintro stage hstage
    cases hstage
    have hold : c.known x.voice x.old ∧ Shows c.disk x.voice x.old := by
      cases hvoice x.voice with
      | quiet pair ha h _ =>
        rw [← hshown, h.shown]
        exact ⟨ha, h⟩
      | live y hv hvalid' harmed _ _ => exact absurd (hv ▸ harmed.live hvalid') (hquiet y.token)
    exact ⟨⟨hvalid, List.mem_cons_self, hold.1, hold.2⟩, hquiet, hnone _ rfl, own_prep x,
      prepared_prep c.disk x⟩

omit [DecidableEq β] in
/-- A process that gives up outside the commit leaves things as they are. -/
theorem Inv.release (h : Inv c) {stage : Stage V β} (hholder : c.holder = some stage)
    (hpending : stage.pending = none) : Inv { c with holder := none } :=
  Inv.of_known (h.known_voice (by rw [hholder]; exact hpending)) (fun _ _ => trivial) h.names (fun _ h => nomatch h)

omit [DecidableEq β] in
theorem Inv.endPass (h : Inv c) {clean : Bool} (hholder : c.holder = some (.pass [] clean)) :
    Inv { c with holder := some (.orphans clean) } := by
  refine Inv.of_known (h.known_voice (by rw [hholder]; rfl)) (fun t ht => ?_) h.names ?_
  · cases clean with
    | true =>
      rw [hholder] at ht
      cases ht
    | false => trivial
  · rintro stage hstage
    cases hstage
    trivial

omit [DecidableEq β] in
/-- A journal cannot be read. -/
theorem Inv.failPass (h : Inv c) {t : Token} {todo : List Token} {clean : Bool}
    (hholder : c.holder = some (.pass (t :: todo) clean)) :
    Inv { c with holder := some (.pass todo false) } := by
  refine Inv.of_known (h.known_voice (by rw [hholder]; rfl)) (fun _ _ => trivial) h.names ?_
  rintro stage hstage
  cases hstage
  trivial

theorem Inv.recoverPass (h : Inv c) {t : Token} {todo : List Token} {clean : Bool}
    (hholder : c.holder = some (.pass (t :: todo) clean)) :
    Inv (c.recover t (.pass todo clean)) := by
  refine Inv.recover (h.known_voice (by rw [hholder]; rfl)) (fun t' ht => ?_) rfl h.names
  cases clean with
  | true =>
    rw [hholder] at ht
    exact List.mem_cons.mp ht
  | false => exact .inr trivial

/-- **An undisturbed step keeps the invariant.** -/
theorem Inv.step {action : Action V β} (h : Inv c) (hok : Undisturbed c action)
    (hstep : SparkVoices.step c action = some c') : Inv c' := by
  cases hholder : c.holder with
  | none =>
    cases action <;> simp only [SparkVoices.step, hholder] at hstep <;> cases hstep
    exact h.enter hholder
  | some stage =>
    have hstep' : holderStep c stage action = some c' := by
      rw [← hstep]
      cases action <;> simp only [SparkVoices.step, hholder]
    unfold holderStep at hstep'
    split at hstep'
    · exact h.crash hholder hstep'
    · cases hstep'
      exact h.recoverPass hholder
    · cases hstep'
      exact h.endPass hholder
    · cases hstep'
      exact h.rollJson hholder
    · cases hstep'
      exact h.rollNpz hholder
    · -- an entry of the directory goes
      split at hstep'
      · next hmem =>
        cases hstep'
        refine h.remove hholder ?_
        have hmem := hmem.1
        simp only [entries, List.mem_cons, List.not_mem_nil, or_false] at hmem
        rcases hmem with rfl | rfl | rfl | rfl <;> rfl
      · cases hstep'
    · split at hstep'
      · cases hstep'
        exact h.rmdir hholder
      · cases hstep'
    · cases hstep'
      exact h.rmJournal hholder
    · split at hstep'
      · next horphan =>
        cases hstep'
        refine h.rmOrphan hholder horphan.1 ?_
        rcases horphan.2 with hmem | ⟨rfl, -⟩
        · simp only [entries, List.mem_cons, List.not_mem_nil, or_false] at hmem
          rcases hmem with rfl | rfl | rfl | rfl <;> rfl
        · rfl
      · cases hstep'
    · split at hstep'
      · cases hstep'
        exact h.endOrphans hholder
      · cases hstep'
    · split at hstep'
      · next hbegins =>
        cases hstep'
        exact h.begin hholder hbegins hok
      · cases hstep'
    · cases hstep'
      exact h.release hholder rfl
    · cases hstep'
      exact h.filePrep hholder
    · cases hstep'
      exact h.fileArm hholder
    · cases hstep'
      exact h.fileCommit hholder
    · cases hstep'
      exact h.nextPrep hholder
    · cases hstep'
      exact h.nextArm hholder
    · cases hstep'
      exact h.nextCommit hholder
    · cases hstep'
      exact h.failPass hholder
    · cases hstep'
      exact h.failRoll hholder rfl
    · cases hstep'
      exact h.failRoll hholder rfl
    · cases hstep'
      exact h.failClean hholder (.inl rfl)
    · cases hstep'
      exact h.failClean hholder (.inr rfl)
    · cases hstep'
      exact h.release hholder rfl
    · cases hstep'
      exact h.release hholder rfl
    · cases hstep'
      exact h.release hholder rfl
    · cases hstep'
      exact h.failCommit hholder
    · cases hstep'

end Steps

/-! ### Histories -/

variable [DecidableEq β]

omit [DecidableEq β] in
theorem Inv.start (pairs : V → Option (Pair V β)) : Inv (start pairs) where
  voice v := by
    refine .quiet (pairs v) (.inl (.inl rfl)) ⟨rfl, rfl⟩ fun t => ?_
    rintro ⟨_, _, hj, -⟩
    cases hj
  names n t hn hsome := by
    cases n with
    | json v => cases hn
    | npz v => cases hn
    | _ => cases hsome
  stage _ h := nomatch h

/-- **After a recovery pass every voice is settled.** In a history where no transaction
begins on a voice with a live journal, when all journals have been looked at and none has
raised, both files of each voice are those of the last operation on it that returned, or of
one that was interrupted after it. -/
theorem settled_of_undisturbed {pairs : V → Option (Pair V β)} {actions : List (Action V β)}
    {c : Config V β} (hrun : (machine pairs).run actions = some c)
    (hguard : (machine pairs).Guarded Undisturbed (start pairs) actions)
    (hholder : c.holder = some (.orphans true)) (v : V) :
    ∃ pair, (pair = c.last v ∨ pair ∈ c.maybe v) ∧ Shows c.disk v pair := by
  have hinv : Inv c := Machine.invariant_of_guarded _ Undisturbed (Inv.start pairs)
    (fun _ _ _ hinv hok hstep => hinv.step hok hstep) hguard hrun
  exact hinv.settled hholder v

/-- The first register of a voice is killed between the two files; the next pass rolls it
back, and its cleanup fails. -/
def killedActions : List (Action Unit ℕ) :=
  List.flatten [[.enter, .endPass, .endOrphans, .begin ⟨"1", (), none, some (1, 1)⟩],
    List.replicate 6 .file, [.next], List.replicate 3 .file, [.next, .file, .crash, .enter,
    .recover, .roll, .roll, .fail, .endPass]]

theorem settled_of_undisturbed_killed :
    ∃ c ∈ (machine (V := Unit) (β := ℕ) fun _ => none).run killedActions,
      ∃ pair, (pair = c.last () ∨ pair ∈ c.maybe ()) ∧ Shows c.disk () pair := by
  have hguard : (machine (V := Unit) (β := ℕ) fun _ => none).Guarded Undisturbed
    (start fun _ => none) killedActions := by decide +kernel
  have hholder : ((machine (V := Unit) (β := ℕ) fun _ => none).run killedActions).map
    Config.holder = some (some (.orphans true)) := by decide +kernel
  obtain ⟨c, hrun, hstage⟩ := Option.map_eq_some_iff.mp hholder
  exact ⟨c, hrun, settled_of_undisturbed hrun hguard hstage ()⟩

/-- A register returns though its cleanup fails, and so does the cleanup of the pass before
the next register; that one returns, and the pass after it finds the journal of the first. -/
def lostActions : List (Action Unit ℕ) :=
  List.flatten [[.enter, .endPass, .endOrphans, .begin ⟨"1", (), none, some (1, 1)⟩],
    List.replicate 6 .file, [.next], List.replicate 3 .file, [.next], List.replicate 4 .file,
    [.next, .fail, .enter, .recover, .fail, .endPass, .endOrphans,
      .begin ⟨"2", (), some (.profile (some "1") 1, .profile (some "1") 1), some (2, 2)⟩],
    List.replicate 10 .file, [.next], List.replicate 3 .file, [.next], List.replicate 4 .file,
    [.next, .remove (.oldJson "2"), .remove (.oldNpz "2"), .rmdir, .rmJournal, .enter, .recover,
      .roll, .roll, .rmdir, .rmJournal, .endPass]]

/-- **A register that returned is lost.** The journal that was left undoes it: the pass has
settled everything, both files are gone, and no operation was interrupted. -/
theorem lost_voice : ∃ c ∈ (machine (V := Unit) (β := ℕ) fun _ => none).run lostActions,
    c.holder = some (.orphans true) ∧
      c.last () = some (.profile (some "2") 2, .profile (some "2") 2) ∧ c.maybe () = [] ∧
      shown c.disk () = none := by
  have hend : ((machine (V := Unit) (β := ℕ) fun _ => none).run lostActions).any (fun c =>
      decide (c.holder = some (.orphans true) ∧
        c.last () = some (.profile (some "2") 2, .profile (some "2") 2) ∧ c.maybe () = [] ∧
        shown c.disk () = none)) = true := by
    decide +kernel
  obtain ⟨c, hrun, hc⟩ := (Option.any_eq_true _ _).mp hend
  exact ⟨c, hrun, of_decide_eq_true hc⟩

end OpenVoiceStream.SparkVoices
