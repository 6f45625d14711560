import OpenVoiceStream.SparkVoices.Position

/-!
# The invariant of a voices directory

Every voice is quiet or has one live journal about it, what stands in the directory stands
under tokens that have been drawn, and the process with the lock is where it should be in
its work. Recovery and cleanup keep this: what they remove is a journal whose voice is
settled, and what they roll back is the pair of the only live journal of its voice.

## Main definitions

* `MixedOk` — until where in a recovery pass a pair may be half replaced.
* `StageOk` — what is so at a stage of the process with the lock.
* `Inv` — the invariant.

## Main results

* `Inv.recover`, `Inv.rollJson`, `Inv.rollNpz`, `Inv.remove`, `Inv.rmdir`, `Inv.rmJournal` —
  the steps of recovery and cleanup.
* `Inv.settled` — after a clean pass every voice is settled.
-/

namespace OpenVoiceStream.SparkVoices

variable {V β : Type}

/-! ### The invariant -/

/-- A pair that is half replaced may stay so until here: its journal is still to be looked
at in this pass, or the pass is not a clean one any more. -/
def After.seen (t : Token) : After V β → Prop
  | .pass todo true => t ∈ todo
  | _ => True

/-- The same for the process with the lock. -/
def MixedOk (t : Token) : Option (Stage V β) → Prop
  | some (.pass todo true) => t ∈ todo
  | some (.rollJson t' _ _ k) => t = t' ∨ k.seen t
  | some (.rollNpz t' _ _ k) => t = t' ∨ k.seen t
  | some (.cleanTx _ k) => k.seen t
  | some (.cleanJournal _ k) => k.seen t
  | some (.orphans true) => False
  | _ => True

/-- What the callers know a voice may be. -/
def Config.known (c : Config V β) (v : V) (pair : Option (Pair V β)) : Prop :=
  pair = c.last v ∨ pair ∈ c.maybe v

/-- With the outcome of the transaction under way. -/
def Config.allowed (c : Config V β) (v : V) (pair : Option (Pair V β)) : Prop :=
  c.known v pair ∨ ∃ x, c.holder.bind Stage.pending = some x ∧ x.voice = v ∧ pair = x.result

/-- The cleanup or rollback is not the one at the end of an operation. -/
def After.isFinish : After V β → Bool
  | .finish _ => true
  | _ => false

/-- A rollback is of a live journal, the only one of its voice. -/
structure RollOk (c : Config V β) (x : Txn V β) (t : Token) (v : V) (oldPresent : Bool)
    (k : After V β) : Prop where
  token : x.token = t
  voice : x.voice = v
  oldPresent : oldPresent = x.old.isSome
  valid : x.Valid
  armed : Armed c.disk x
  one : ∀ t, Live c.disk t x.voice → t = x.token
  known : c.known x.voice x.old
  after : k.isFinish = false

/-- The end of an operation: its pair is there, and no journal but its own. -/
structure FinishOk (c : Config V β) (x : Txn V β) (t : Token) : Prop where
  token : t = x.token
  valid : x.Valid
  shows : Shows c.disk x.voice x.result
  one : ∀ t, Live c.disk t x.voice → t = x.token
  journal : ∀ op v oldPresent, c.disk (.journal x.token) = some (.journal op v oldPresent) →
    op = x.operation ∧ v = x.voice

variable [DecidableEq V]

/-- Before a transaction changes its pair: the pair is the old one. -/
structure BeforeOk (c : Config V β) (x : Txn V β) : Prop where
  valid : x.Valid
  fresh : x.token ∈ c.tokens
  known : c.known x.voice x.old
  shows : Shows c.disk x.voice x.old

/-- While the transaction directory is filled there is no live journal. -/
structure PrepOk (c : Config V β) (x : Txn V β) (rest : List (FileStep V β)) : Prop
    extends BeforeOk c x where
  quiet : ∀ t, ¬ Live c.disk t x.voice
  journal : c.disk (.journal x.token) = none
  own : ∀ s ∈ rest, ∀ n ∈ s.touches, n.token = some x.token ∧ n ≠ .journal x.token
  prepared : Prepared (applyAll c.disk rest) x

/-- The journal is not whole, or it is and is the only one of the voice. -/
structure ArmOk (c : Config V β) (x : Txn V β) (rest : List (FileStep V β)) : Prop
    extends BeforeOk c x where
  prepared : Prepared c.disk x
  journal : (rest = x.arm ∨ rest = x.arm.drop 1) ∧ (∀ t, ¬ Live c.disk t x.voice) ∧
      (∀ op v oldPresent, c.disk (.journal x.token) ≠ some (.journal op v oldPresent)) ∨
    (rest = x.arm.drop 2 ∨ rest = []) ∧ Armed c.disk x ∧
      ∀ t, Live c.disk t x.voice → t = x.token

/-- The pair is the old one, half replaced, or the new one. -/
structure CommitOk (c : Config V β) (x : Txn V β) (rest : List (FileStep V β)) : Prop where
  valid : x.Valid
  fresh : x.token ∈ c.tokens
  armed : Armed c.disk x
  one : ∀ t, Live c.disk t x.voice → t = x.token
  known : c.known x.voice x.old
  position :
    rest = x.commit ∧ Shows c.disk x.voice x.old ∧ (∀ p, x.result = some p →
      c.disk (.newJson x.token) = some p.1 ∧ c.disk (.newNpz x.token) = some p.2) ∨
    (rest = x.commit.drop 1 ∨ rest = x.commit.drop 2) ∧ Mixed c.disk x ∧
      (∀ p, x.result = some p → c.disk (.newJson x.token) = some p.1) ∨
    (rest = x.commit.drop 3 ∨ rest = []) ∧ Shows c.disk x.voice x.result

/-- What is so at a stage. -/
def StageOk (c : Config V β) : Stage V β → Prop
  | .rollJson t v oldPresent k => ∃ x, RollOk c x t v oldPresent k ∧
      (Mixed c.disk x ∨ Shows c.disk x.voice x.old)
  | .rollNpz t v oldPresent k => ∃ x, RollOk c x t v oldPresent k ∧
      c.disk (.json x.voice) = x.old.map Prod.fst ∧
      (Mixed c.disk x ∨ Shows c.disk x.voice x.old)
  | .cleanTx t k => (∀ v, Live c.disk t v → ∃ pair, c.allowed v pair ∧ Shows c.disk v pair) ∧
      ∀ x, k = .finish x → FinishOk c x t
  | .cleanJournal t k => c.disk (.tx t) = none ∧ ∀ x, k = .finish x → FinishOk c x t
  | .prep x rest => PrepOk c x rest
  | .arm x rest => ArmOk c x rest
  | .commit x rest => CommitOk c x rest
  | _ => True

/-- The invariant: every voice is as it may be, what stands in the directory stands under
tokens that have been drawn, and the process with the lock is where it should be. -/
structure Inv (c : Config V β) : Prop where
  voice : ∀ v, VoiceOk c.disk (c.allowed v) (fun t => MixedOk t c.holder) v
  names : ∀ (n : Name V) t, n.token = some t → (c.disk n).isSome → t ∈ c.tokens
  stage : ∀ stage, c.holder = some stage → StageOk c stage

/-! ### Between transactions -/

section Recovery

variable {c : Config V β} {P : Token → Prop}

omit [DecidableEq V] in
theorem allowed_of_known {v : V} {pair : Option (Pair V β)} (h : c.known v pair) :
    c.allowed v pair := .inl h

omit [DecidableEq V] in
theorem known_of_allowed (hpending : c.holder.bind Stage.pending = none) {v : V}
    {pair : Option (Pair V β)} (h : c.allowed v pair) : c.known v pair := by
  obtain h | ⟨x, hx, -⟩ := h
  · exact h
  · rw [hpending] at hx
    cases hx

/-- A state that is only a matter of its voices. -/
theorem Inv.of_known (hvoice : ∀ v, VoiceOk c.disk (c.known v) P v)
    (hok : ∀ t, P t → MixedOk t c.holder)
    (hnames : ∀ (n : Name V) t, n.token = some t → (c.disk n).isSome → t ∈ c.tokens)
    (hstage : ∀ stage, c.holder = some stage → StageOk c stage) : Inv c where
  voice v := (hvoice v).mono (fun _ => allowed_of_known) fun x _ _ _ _ => hok x.token
  names := hnames
  stage := hstage

/-- The recovery of a journal has raised. -/
theorem Inv.raised (hvoice : ∀ v, VoiceOk c.disk (c.known v) P v)
    (hnames : ∀ (n : Name V) t, n.token = some t → (c.disk n).isSome → t ∈ c.tokens)
    (k : After V β) : Inv (c.raised k) := by
  cases k with
  | pass todo clean =>
    refine Inv.of_known (c := c.raised (.pass todo clean)) hvoice (fun _ _ => trivial) hnames ?_
    rintro stage h
    cases h
    trivial
  | finish x =>
    exact Inv.of_known (c := c.raised (.finish x)) hvoice (fun _ _ => trivial) hnames (fun _ h => nomatch h)
  | abort =>
    exact Inv.of_known (c := c.raised .abort) hvoice (fun _ _ => trivial) hnames (fun _ h => nomatch h)

/-- A cleanup has come to its end. After an operation the pair must be there, and must not
be one file of each by chance. -/
theorem Inv.continue {k : After V β}
    (hvoice : ∀ v, VoiceOk c.disk
      (fun pair => c.known v pair ∨ ∃ x, k = .finish x ∧ x.voice = v ∧ pair = x.result)
      (fun t => k.seen t) v)
    (hnames : ∀ (n : Name V) t, n.token = some t → (c.disk n).isSome → t ∈ c.tokens)
    (hfinish : ∀ x, k = .finish x → Shows c.disk x.voice x.result ∧
      ∀ x' : Txn V β, x'.voice = x.voice → x'.Valid → Armed c.disk x' → ¬ Mixed c.disk x') :
    Inv (c.continue k) := by
  cases k with
  | pass todo clean =>
    refine Inv.of_known (c := c.continue (.pass todo clean))
      (P := fun t => After.seen t (.pass todo clean : After V β)) (fun v => ?_) (fun t ht => ?_)
      hnames ?_
    · refine (hvoice v).mono ?_ fun _ _ _ _ _ h => h
      rintro pair (h | ⟨x, hx, -⟩)
      · exact h
      · cases hx
    · cases clean with
      | true => exact ht
      | false => trivial
    · rintro stage h
      cases h
      trivial
  | finish x =>
    obtain ⟨hshows, hmixed⟩ := hfinish x rfl
    refine Inv.of_known (c := c.continue (.finish x)) (P := fun _ => True) (fun v => ?_)
      (fun _ _ => trivial) hnames (fun _ h => nomatch h)
    by_cases hv : v = x.voice
    · -- the operation has returned: its pair is what the callers know
      subst hv
      refine ((hvoice _).settle hshows ?_).mono ?_ fun _ _ _ _ _ h => h
      · exact fun x' hv' hvalid harmed h => absurd h (hmixed x' hv' hvalid harmed)
      · rintro pair rfl
        left
        simp only [Config.continue, Config.returned, Function.update_self]
    · refine (hvoice v).mono ?_ fun _ _ _ _ _ _ => trivial
      rintro pair (h | ⟨y, hy, hvoice', -⟩)
      · unfold Config.known at h ⊢
        simp only [Config.continue, Config.returned, Function.update_of_ne hv]
        exact h
      · cases hy
        exact absurd hvoice'.symm hv
  | abort =>
    refine Inv.of_known (c := c.continue .abort) (P := fun _ => True) (fun v => ?_)
      (fun _ _ => trivial) hnames (fun _ h => nomatch h)
    refine (hvoice v).mono ?_ fun _ _ _ _ _ _ => trivial
    rintro pair (h | ⟨x, hx, -⟩)
    · exact h
    · cases hx

/-- A journal is looked at. -/
theorem Inv.recover [DecidableEq β] {t : Token} {k : After V β}
    (hvoice : ∀ v, VoiceOk c.disk (c.known v) P v) (hok : ∀ t', P t' → t' = t ∨ k.seen t')
    (hk : k.isFinish = false)
    (hnames : ∀ (n : Name V) t, n.token = some t → (c.disk n).isSome → t ∈ c.tokens) :
    Inv (c.recover t k) := by
  -- a half replaced pair is rolled back, so nothing else leaves one of this journal
  have hseen : (∀ v o, verdict c.disk t ≠ .rollback v o) → ∀ v,
      VoiceOk c.disk (c.known v) (fun t' => k.seen t') v := by
    intro hne v
    refine (hvoice v).mono (fun _ h => h) fun x _ hvalid harmed h hx => ?_
    refine (hok _ hx).resolve_left ?_
    rintro rfl
    exact hne _ _ (verdict_mixed harmed hvalid h)
  have hcontinue : k.isFinish = false → ∀ x, k ≠ .finish x := by
    rintro hk x rfl
    cases hk
  cases hverdict : verdict c.disk t with
  | ignore =>
    rw [Config.recover, hverdict]
    refine Inv.continue (fun v => ?_) hnames fun x hx => absurd hx (hcontinue hk x)
    refine (hseen (by simp [hverdict]) v).mono ?_ fun _ _ _ _ _ h => h
    exact fun pair h => .inl h
  | clean =>
    rw [Config.recover, hverdict]
    refine Inv.of_known (hseen (by simp [hverdict])) (fun _ h => h) hnames ?_
    rintro stage h
    cases h
    refine ⟨fun v hl => ?_, fun x hx => absurd hx (hcontinue hk x)⟩
    -- the live journal is the one of its voice
    cases hvoice v with
    | quiet pair ha h hlive => exact absurd hl (hlive t)
    | live x hv hvalid harmed hone hpos =>
      subst hv
      cases hone t hl
      obtain ⟨-, pair, ha, hshows⟩ | ⟨hroll, -⟩ := verdict_armed harmed hvalid hpos
      · exact ⟨pair, .inl ha, hshows⟩
      · rw [hverdict] at hroll
        cases hroll
  | rollback v o =>
    rw [Config.recover, hverdict]
    refine Inv.of_known hvoice (fun t' h => ?_) hnames ?_
    · exact hok t' h
    · rintro stage h
      cases h
      have hl := live_of_rollback hverdict
      cases hvoice v with
      | quiet pair ha h hlive => exact absurd hl (hlive t)
      | live x hv hvalid harmed hone hpos =>
        subst hv
        cases hone t hl
        obtain ⟨hclean, -⟩ | ⟨hroll, ha, hpair⟩ := verdict_armed harmed hvalid hpos
        · rw [hverdict] at hclean
          cases hclean
        · cases hverdict.symm.trans hroll
          exact ⟨x, ⟨rfl, rfl, rfl, hvalid, harmed, hone, ha, hk⟩, hpair⟩
  | stuck =>
    rw [Config.recover, hverdict]
    exact Inv.raised hvoice hnames k

end Recovery

/-! ### The steps of recovery and cleanup -/

section Steps

variable {c c' : Config V β}

theorem Inv.known_voice (h : Inv c) (hpending : c.holder.bind Stage.pending = none) (v : V) :
    VoiceOk c.disk (c.known v) (fun t => MixedOk t c.holder) v :=
  (h.voice v).mono (fun _ => known_of_allowed hpending) fun _ _ _ _ _ h => h

omit [DecidableEq V] in
theorem pending_cleanTx {t : Token} {k : After V β} {x : Txn V β} :
    (Stage.cleanTx t k).pending = some x ↔ k = .finish x := by
  cases k <;> simp [Stage.pending]

omit [DecidableEq V] in
theorem pending_cleanJournal {t : Token} {k : After V β} {x : Txn V β} :
    (Stage.cleanJournal t k).pending = some x ↔ k = .finish x := by
  cases k <;> simp [Stage.pending]

omit [DecidableEq V] in
/-- With the new pair in place no transaction of the token sees one file of each. -/
theorem FinishOk.not_mixed {x : Txn V β} {t : Token} (h : FinishOk c x t) {x' : Txn V β}
    (hv : x'.voice = x.voice) (hvalid : x'.Valid) (harmed : Armed c.disk x') :
    ¬ Mixed c.disk x' := by
  intro hmixed
  have htoken : x'.token = x.token := h.one _ (hv ▸ harmed.live hvalid)
  have hop : x'.operation = x.operation := (h.journal _ _ _ (htoken ▸ harmed.journal)).1
  unfold Mixed at hmixed
  rw [hv] at hmixed
  cases hnew : x'.new with
  | some bodies =>
    cases hnew' : x.new with
    | some bodies' =>
      rw [Txn.result, hnew, Option.map_some] at hmixed
      have hjson := hmixed.1.symm.trans h.shows.1
      rw [Txn.result, hnew', Option.map_some, Option.map_some] at hjson
      obtain ⟨p, hp, hp'⟩ := Option.map_eq_some_iff.mp hjson
      apply (hvalid.tokens p hp).1
      rw [hp', htoken]
      rfl
    | none => simp [Txn.operation, hnew, hnew'] at hop
  | none =>
    cases hnew' : x.new with
    | some bodies' => simp [Txn.operation, hnew, hnew'] at hop
    | none =>
      rw [Txn.result, hnew, Option.map_none] at hmixed
      have hnpz := hmixed.2.symm.trans h.shows.2
      obtain ⟨p, hold⟩ := Option.isSome_iff_exists.mp (hvalid.old hnew)
      rw [Txn.result, hnew', Option.map_none, Option.map_none, hold, Option.map_some] at hnpz
      cases hnpz

theorem known_interrupted {x : Txn V β} {v : V} {pair : Option (Pair V β)} :
    (c.interrupted x).known v pair ↔ c.known v pair ∨ x.voice = v ∧ pair = x.result := by
  simp only [Config.known, Config.interrupted]
  by_cases hv : v = x.voice
  · subst hv
    rw [Function.update_self, List.mem_cons]
    simp only [true_and]
    tauto
  · rw [Function.update_of_ne hv]
    have hv' : ¬ x.voice = v := fun h => hv h.symm
    simp only [hv', false_and, or_false]

/-- An operation that is interrupted leaves its outcome as one that may be. -/
theorem Inv.interrupted (h : Inv c) {x : Txn V β}
    (hholder : c.holder.bind Stage.pending = some x) (v : V) :
    VoiceOk c.disk ((c.interrupted x).known v) (fun t => MixedOk t c.holder) v := by
  refine (h.voice v).mono ?_ fun _ _ _ _ _ h => h
  rintro pair (hknown | ⟨y, hy, hv, hpair⟩)
  · exact known_interrupted.mpr (.inl hknown)
  · rw [hholder] at hy
    cases hy
    exact known_interrupted.mpr (.inr ⟨hv, hpair⟩)

/-- Every live journal is found. -/
theorem Inv.enter (h : Inv c) (hholder : c.holder = none) :
    Inv { c with holder := some (.pass (journals c.disk c.tokens) true) } := by
  have hvoice : ∀ v, VoiceOk c.disk (c.known v) (fun t => t ∈ journals c.disk c.tokens) v := by
    intro v
    refine (h.known_voice (by rw [hholder]; rfl) v).mono (fun _ h => h) ?_
    intro x _ _ harmed _ _
    have hsome : (c.disk (.journal x.token)).isSome = true := by rw [harmed.journal]; rfl
    have hmem := h.names (.journal x.token) x.token rfl hsome
    exact (List.mem_insertionSort _).mpr (List.mem_filter.mpr ⟨hmem, hsome⟩)
  refine Inv.of_known hvoice (fun t ht => ht) h.names ?_
  rintro stage hstage
  cases hstage
  trivial

/-- A name goes. -/
theorem names_removed (h : Inv c) (n : Name V) :
    ∀ (n' : Name V) t, n'.token = some t → (Function.update c.disk n none n').isSome →
      t ∈ c.tokens := by
  intro n' t hn' hsome
  by_cases heq : n' = n
  · rw [heq, Function.update_self] at hsome
    cases hsome
  · rw [Function.update_of_ne heq] at hsome
    exact h.names n' t hn' hsome

theorem FinishOk.removed {x : Txn V β} {t : Token} (h : FinishOk c x t) {n : Name V}
    (hn : n.token = some t) (hdisk : c'.disk = Function.update c.disk n none) : FinishOk c' x t := by
  have hother : ∀ n' : Name V, n'.token = none → c'.disk n' = c.disk n' := by
    intro n' hn'
    rw [hdisk]
    apply Function.update_of_ne
    rintro rfl
    rw [hn] at hn'
    cases hn'
  have hsome : ∀ n' y, c'.disk n' = some y → c.disk n' = some y := by
    rw [hdisk]
    exact fun _ _ => of_removed
  exact ⟨h.token, h.valid, h.shows.congr (hother _ rfl) (hother _ rfl),
    fun t' hl => h.one t' (hl.of_removed hsome), fun op v o hj => h.journal op v o (hsome _ _ hj)⟩

/-- The end of a cleanup, whether its last step has been taken or has failed. -/
theorem Inv.leave {t : Token} {k : After V β}
    (hvoice : ∀ v, VoiceOk c.disk
      (fun pair => c.known v pair ∨ ∃ x, k = .finish x ∧ x.voice = v ∧ pair = x.result)
      (fun t => k.seen t) v)
    (hnames : ∀ (n : Name V) t, n.token = some t → (c.disk n).isSome → t ∈ c.tokens)
    (hfinish : ∀ x, k = .finish x → FinishOk c x t) : Inv (c.continue k) := by
  refine Inv.continue hvoice hnames fun x hx => ⟨(hfinish x hx).shows, ?_⟩
  exact fun x' hv hvalid harmed => (hfinish x hx).not_mixed hv hvalid harmed

/-- What is allowed during a cleanup. -/
theorem Inv.clean_voice (h : Inv c) {stage : Stage V β} {t : Token} {k : After V β}
    (hholder : c.holder = some stage) (hstage : stage = .cleanTx t k ∨ stage = .cleanJournal t k)
    (v : V) : VoiceOk c.disk
      (fun pair => c.known v pair ∨ ∃ x, k = .finish x ∧ x.voice = v ∧ pair = x.result)
      (fun t => k.seen t) v := by
  refine (h.voice v).mono ?_ ?_
  · rintro pair (hknown | ⟨x, hx, hrest⟩)
    · exact .inl hknown
    · refine .inr ⟨x, ?_, hrest⟩
      rw [hholder] at hx
      rcases hstage with rfl | rfl
      · exact pending_cleanTx.mp hx
      · exact pending_cleanJournal.mp hx
  · intro x _ _ _ _ hx
    rw [hholder] at hx
    rcases hstage with rfl | rfl <;> exact hx

/-- A name of the transaction goes during the cleanup. -/
theorem Inv.remove (h : Inv c) {n : Name V} {t : Token} {k : After V β}
    (hholder : c.holder = some (.cleanTx t k)) (hn : n.token = some t) :
    Inv { c with disk := Function.update c.disk n none } := by
  obtain ⟨hsettled, hfinish⟩ := h.stage _ hholder
  have hsame : ∀ n' : Name V, n'.token = none → Function.update c.disk n none n' = c.disk n' := by
    intro n' hn'
    apply Function.update_of_ne
    rintro rfl
    rw [hn] at hn'
    cases hn'
  refine ⟨fun v => (h.voice v).remove hn (hsettled v), names_removed h n, ?_⟩
  intro stage hstage
  cases hholder.symm.trans hstage
  refine ⟨fun v hl => ?_, fun x hx => (hfinish x hx).removed hn rfl⟩
  have hl' : Live c.disk t v := hl.of_removed fun _ _ => of_removed
  obtain ⟨pair, ha, hshows⟩ := hsettled v hl'
  exact ⟨pair, ha, hshows.congr (hsame _ rfl) (hsame _ rfl)⟩

/-- The empty directory goes. -/
theorem Inv.rmdir (h : Inv c) {t : Token} {k : After V β}
    (hholder : c.holder = some (.cleanTx t k)) :
    Inv { c with
      disk := Function.update c.disk (.tx t) none
      holder := some (.cleanJournal t k) } := by
  have hremove := h.remove hholder (n := .tx t) rfl
  refine ⟨fun v => (hremove.voice v).mono ?_ fun _ _ _ _ _ h => ?_, hremove.names, ?_⟩
  · rintro pair (hknown | ⟨x, hx, hrest⟩)
    · exact .inl hknown
    · refine .inr ⟨x, ?_, hrest⟩
      rw [hholder] at hx
      exact pending_cleanJournal.mpr (pending_cleanTx.mp hx)
  · rw [hholder] at h
    exact h
  · rintro stage hstage
    cases hstage
    obtain ⟨-, hfinish⟩ := h.stage _ hholder
    exact ⟨Function.update_self _ _ _, fun x hx => (hfinish x hx).removed rfl rfl⟩

/-- The journal goes. -/
theorem Inv.rmJournal (h : Inv c) {t : Token} {k : After V β}
    (hholder : c.holder = some (.cleanJournal t k)) :
    Inv ({ c with disk := Function.update c.disk (.journal t) none }.continue k) := by
  obtain ⟨htx, hfinish⟩ := h.stage _ hholder
  refine Inv.leave (t := t) (fun v => ?_) (names_removed h _) fun x hx => ?_
  · refine (h.clean_voice hholder (.inr rfl) v).remove rfl ?_
    -- without its directory it has not been live any more
    rintro ⟨_, _, _, htx', _⟩
    rw [htx] at htx'
    cases htx'
  · exact (hfinish x hx).removed rfl rfl

/-- A step of the cleanup has failed. -/
theorem Inv.failClean (h : Inv c) {stage : Stage V β} {t : Token} {k : After V β}
    (hholder : c.holder = some stage) (hstage : stage = .cleanTx t k ∨ stage = .cleanJournal t k) :
    Inv (c.continue k) := by
  refine Inv.leave (t := t) (h.clean_voice hholder hstage) h.names ?_
  rcases hstage with rfl | rfl <;> exact (h.stage _ hholder).2

/-- A directory without a journal goes. -/
theorem Inv.rmOrphan (h : Inv c) {n : Name V} {t : Token} {clean : Bool}
    (hholder : c.holder = some (.orphans clean)) (horphan : orphan c.disk t = true)
    (hn : n.token = some t) : Inv { c with disk := Function.update c.disk n none } := by
  refine ⟨fun v => (h.voice v).remove hn ?_, names_removed h n, ?_⟩
  · rintro ⟨_, _, hjournal, -⟩
    rw [orphan, hjournal, Option.isNone_some, Bool.and_false] at horphan
    cases horphan
  · intro stage hstage
    cases hholder.symm.trans hstage
    trivial

/-- After a clean pass no voice is half replaced. -/
theorem Inv.settled (h : Inv c) (hholder : c.holder = some (.orphans true)) (v : V) :
    ∃ pair, c.known v pair ∧ Shows c.disk v pair := by
  have hvoice := h.known_voice (by rw [hholder]; rfl) v
  cases hvoice with
  | quiet pair ha h _ => exact ⟨pair, ha, h⟩
  | live x hv _ _ _ hpos =>
    subst hv
    cases hpos with
    | old h ha => exact ⟨_, ha, h⟩
    | mixed _ _ hok =>
      rw [hholder] at hok
      exact hok.elim
    | new h ha => exact ⟨_, ha, h⟩

/-- The recovery is over. -/
theorem Inv.endOrphans (h : Inv c) {clean : Bool} (hholder : c.holder = some (.orphans clean)) :
    Inv (if clean then
        { c with holder := some .ready, last := shown c.disk, maybe := fun _ => [] }
      else { c with holder := some .ready }) := by
  have hvoice := h.known_voice (by rw [hholder]; rfl)
  cases clean with
  | true =>
    refine Inv.of_known (P := fun _ => True) (fun v => ?_) (fun _ _ => trivial) h.names ?_
    · obtain ⟨pair, -, hshows⟩ := h.settled hholder v
      refine ((hvoice v).settle hshows ?_).mono ?_ fun _ _ _ _ _ h => h
      · intro x _ _ _ _ hok
        rw [hholder] at hok
        exact hok
      · rintro _ rfl
        exact .inl hshows.shown.symm
    · rintro stage h
      cases h
      trivial
  | false =>
    refine Inv.of_known hvoice (fun _ _ => trivial) h.names ?_
    rintro stage h
    cases h
    trivial

section Roll

variable {x : Txn V β} {t : Token} {v : V} {oldPresent : Bool} {k : After V β}

omit [DecidableEq V] in
/-- What a rollback writes is the old pair. -/
theorem RollOk.json (h : RollOk c x t v oldPresent k) :
    (if oldPresent then c.disk (.oldJson t) else none) = x.old.map Prod.fst := by
  rw [h.oldPresent, ← h.token]
  cases hold : x.old with
  | none => rfl
  | some p => exact (h.armed.backups p hold).1

omit [DecidableEq V] in
theorem RollOk.npz (h : RollOk c x t v oldPresent k) :
    (if oldPresent then c.disk (.oldNpz t) else none) = x.old.map Prod.snd := by
  rw [h.oldPresent, ← h.token]
  cases hold : x.old with
  | none => rfl
  | some p => exact (h.armed.backups p hold).2

omit [DecidableEq V] in
/-- The rollback is about its own voice only. -/
theorem RollOk.not_live (h : RollOk c x t v oldPresent k) {v' : V} (hv : v' ≠ x.voice) :
    ¬ Live c.disk x.token v' := by
  rintro ⟨_, _, hjournal, -⟩
  cases h.armed.journal.symm.trans hjournal
  exact hv rfl

/-- The files of the voice are rolled back, one of them or both. -/
theorem Inv.rolled (h : Inv c) (hroll : RollOk c x t v oldPresent k)
    (hpending : c.holder.bind Stage.pending = none) {d : Disk V β}
    (hsame : ∀ n, n ≠ .json x.voice → n ≠ .npz x.voice → d n = c.disk n) {P : Token → Prop}
    (hpos : Position d (c.known x.voice) (P x.token) x)
    (hok : ∀ t', t' ≠ x.token → MixedOk t' c.holder → P t') (v' : V) :
    VoiceOk d (c.known v') P v' := by
  have htoken : ∀ (n : Name V) t', n.token = some t' → d n = c.disk n := by
    intro n t' hn
    apply hsame <;> · rintro rfl; cases hn
  have hlive : ∀ t' v', Live d t' v' → Live c.disk t' v' := fun t' v' =>
    (live_congr fun n hn => htoken n t' hn).mp
  by_cases hv : v' = x.voice
  · subst hv
    exact .live x rfl hroll.valid (hroll.armed.congr fun n hn _ _ => htoken n _ hn)
      (fun t' hl => hroll.one t' (hlive _ _ hl)) hpos
  · have hjson : d (.json v') = c.disk (.json v') :=
      hsame _ (fun h => hv (Name.json.inj h)) nofun
    have hnpz : d (.npz v') = c.disk (.npz v') := hsame _ nofun fun h => hv (Name.npz.inj h)
    have hframe := (h.known_voice hpending v').frame (t := x.token) hjson hnpz
      (fun n t' hn _ => htoken n t' hn) (hroll.not_live hv)
      fun hl => hroll.not_live hv (hlive _ _ hl)
    refine hframe.mono (fun _ h => h) fun x' hv' hvalid harmed _ => hok x'.token ?_
    intro heq
    exact hroll.not_live hv (heq ▸ hv' ▸ hlive _ _ (harmed.live hvalid))

theorem names_rolled (h : Inv c) {d : Disk V β}
    (hsame : ∀ n, n ≠ .json v → n ≠ .npz v → d n = c.disk n) :
    ∀ (n : Name V) t, n.token = some t → (d n).isSome → t ∈ c.tokens := by
  intro n t hn hsome
  refine h.names n t hn ?_
  rw [← hsame n (by rintro rfl; cases hn) (by rintro rfl; cases hn)]
  exact hsome

theorem Inv.rollJson (h : Inv c) (hholder : c.holder = some (.rollJson t v oldPresent k)) :
    Inv { c with
      disk := Function.update c.disk (.json v) (if oldPresent then c.disk (.oldJson t) else none)
      holder := some (.rollNpz t v oldPresent k) } := by
  obtain ⟨x, hroll, hpair⟩ := h.stage _ hholder
  rw [hroll.json]
  have hsame : ∀ n, n ≠ .json v → n ≠ .npz v →
      Function.update c.disk (.json v) (x.old.map Prod.fst) n = c.disk n :=
    fun n hn _ => Function.update_of_ne hn _ _
  have hpending : c.holder.bind Stage.pending = none := by rw [hholder]; rfl
  cases hroll.voice
  have hjson : Function.update c.disk (.json x.voice) (x.old.map Prod.fst) (.json x.voice) =
    x.old.map Prod.fst := Function.update_self _ _ _
  have hnpz : Function.update c.disk (.json x.voice) (x.old.map Prod.fst) (.npz x.voice) =
    c.disk (.npz x.voice) :=
    Function.update_of_ne (show (.npz x.voice : Name V) ≠ .json x.voice from nofun) _ _
  have hpair' : Mixed (Function.update c.disk (.json x.voice) (x.old.map Prod.fst)) x ∨
      Shows (Function.update c.disk (.json x.voice) (x.old.map Prod.fst)) x.voice x.old := by
    rcases hpair with hmixed | hshows
    · unfold Mixed at hmixed ⊢
      cases hresult : x.result with
      | some p =>
        rw [hresult] at hmixed
        exact .inl ⟨hjson, hnpz.trans hmixed.2⟩
      | none =>
        rw [hresult] at hmixed
        exact .inr ⟨hjson, hnpz.trans hmixed.2⟩
    · exact .inr ⟨hjson, hnpz.trans hshows.2⟩
  have hpos : Position (Function.update c.disk (.json x.voice) (x.old.map Prod.fst))
      (c.known x.voice) (x.token = t ∨ k.seen x.token) x := by
    rcases hpair' with hmixed | hshows
    · exact .mixed hmixed hroll.known (.inl hroll.token)
    · exact .old hshows hroll.known
  have hvoice := h.rolled hroll hpending hsame (P := fun t' => t' = t ∨ k.seen t') hpos
    (fun t' _ hok => by rw [hholder] at hok; exact hok)
  refine Inv.of_known hvoice (fun _ hok => hok) (names_rolled h hsame) ?_
  rintro stage hstage
  cases hstage
  refine ⟨x, ⟨hroll.token, rfl, hroll.oldPresent, hroll.valid, ?_, ?_, hroll.known, hroll.after⟩,
    hjson, hpair'⟩
  · refine hroll.armed.congr fun n hn _ _ => hsame n ?_ ?_ <;> · rintro rfl; cases hn
  · refine fun t' hl => hroll.one t' ((live_congr fun n hn => ?_).mp hl)
    refine hsame n ?_ ?_ <;> · rintro rfl; cases hn

theorem Inv.rollNpz (h : Inv c) (hholder : c.holder = some (.rollNpz t v oldPresent k)) :
    Inv { c with
      disk := Function.update c.disk (.npz v) (if oldPresent then c.disk (.oldNpz t) else none)
      holder := some (.cleanTx t k) } := by
  obtain ⟨x, hroll, hjson, -⟩ := h.stage _ hholder
  rw [hroll.npz]
  have hsame : ∀ n, n ≠ .json v → n ≠ .npz v →
      Function.update c.disk (.npz v) (x.old.map Prod.snd) n = c.disk n :=
    fun n _ hn => Function.update_of_ne hn _ _
  have hpending : c.holder.bind Stage.pending = none := by rw [hholder]; rfl
  cases hroll.voice
  have hshows : Shows (Function.update c.disk (.npz x.voice) (x.old.map Prod.snd)) x.voice x.old :=
    ⟨(Function.update_of_ne (show (.json x.voice : Name V) ≠ .npz x.voice from nofun) _ _).trans
      hjson, Function.update_self _ _ _⟩
  have hvoice := h.rolled hroll hpending hsame (P := fun t' => k.seen t')
    (.old hshows hroll.known) fun t' hne hok => by
      rw [hholder] at hok
      exact hok.resolve_left fun h => hne (h.trans hroll.token.symm)
  refine Inv.of_known hvoice (fun _ hok => hok) (names_rolled h hsame) ?_
  rintro stage hstage
  cases hstage
  refine ⟨fun v' hl => ?_, ?_⟩
  · have hv : v' = x.voice := by
      by_contra hne
      refine hroll.not_live hne ((live_congr fun n hn => ?_).mp (hroll.token ▸ hl))
      refine hsame n ?_ ?_ <;> · rintro rfl; cases hn
    subst hv
    exact ⟨x.old, .inl hroll.known, hshows⟩
  · rintro x' rfl
    cases hroll.after

/-- A rollback has failed half way; its journal is left for the next pass. -/
theorem Inv.failRoll (h : Inv c) {stage : Stage V β} (hholder : c.holder = some stage)
    (hpending : stage.pending = none) : Inv (c.raised k) :=
  Inv.raised (h.known_voice (by rw [hholder]; exact hpending)) h.names k

end Roll

end Steps

end OpenVoiceStream.SparkVoices
