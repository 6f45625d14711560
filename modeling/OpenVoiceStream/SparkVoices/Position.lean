import OpenVoiceStream.SparkVoices.Journal

/-!
# What a journal says about its voice

A live journal belongs to a transaction that began on a complete pair, and the two files of
its voice are the old pair, the new one, or one file of each with both copies of the old
pair still there. What recovery decides for the journal follows from which of the three it
is.

## Main definitions

* `Armed` — the journal of a transaction with what a rollback needs.
* `Position` — what the two files of its voice are.
* `VoiceOk` — a voice is quiet, or one live journal is about it.

## Main results

* `VoiceOk.frame`, `VoiceOk.remove`, `VoiceOk.settle` — how a voice fares when names of a
  transaction change, when they go, and when its pair is settled.
* `verdict_armed` — recovery removes the journal of a settled pair and rolls back the others.
-/

namespace OpenVoiceStream.SparkVoices

variable {V β : Type} [DecidableEq V]

/-! ### A transaction and its journal -/

/-- The old pair is of other generations, and a delete has one. -/
structure Txn.Valid (x : Txn V β) : Prop where
  files : ∀ p, x.old = some p → p.1.isFile = true ∧ p.2.isFile = true
  tokens : ∀ p, x.old = some p → p.1.token ≠ some x.token ∧ p.2.token ≠ some x.token
  old : x.new = none → x.old.isSome = true

/-- What the checks before a transaction have seen. -/
theorem valid_of_begins [DecidableEq β] {d : Disk V β} {tokens : List Token} {x : Txn V β}
    (h : begins d tokens x = true) :
    x.Valid ∧ shown d x.voice = x.old ∧ x.token ∉ tokens := by
  simp only [begins, Bool.and_eq_true, beq_iff_eq, decide_eq_true_eq] at h
  obtain ⟨⟨⟨⟨-, hshown⟩, hfiles⟩, hnew⟩, hfresh⟩ := h
  refine ⟨⟨fun p hp => ?_, fun p hp => ?_, fun hdelete => ?_⟩, hshown, hfresh⟩
  · rw [hp, Option.elim_some] at hfiles
    simp only [Bool.and_eq_true] at hfiles
    exact ⟨hfiles.1.1.1, hfiles.1.1.2⟩
  · rw [hp, Option.elim_some] at hfiles
    simp only [Bool.and_eq_true, bne_iff_ne] at hfiles
    exact ⟨hfiles.1.2, hfiles.2⟩
  · rw [hdelete] at hnew
    exact hnew

/-- The journal is written, its directory is there, and so are the copies of the old pair. -/
structure Armed (d : Disk V β) (x : Txn V β) : Prop where
  journal : d (.journal x.token) = some (.journal x.operation x.voice x.old.isSome)
  tx : d (.tx x.token) = some .dir
  backups : ∀ p, x.old = some p →
    d (.oldJson x.token) = some p.1 ∧ d (.oldNpz x.token) = some p.2

omit [DecidableEq V] in
theorem Armed.live {d : Disk V β} {x : Txn V β} (h : Armed d x) (hvalid : x.Valid) :
    Live d x.token x.voice := by
  refine ⟨x.operation, x.old.isSome, h.journal, h.tx, ?_⟩
  intro hold
  obtain ⟨p, hp⟩ := Option.isSome_iff_exists.mp hold
  obtain ⟨hjson, hnpz⟩ := h.backups p hp
  obtain ⟨hfirst, hsecond⟩ := hvalid.files p hp
  simp [hasBackups, isFile, hjson, hnpz, hfirst, hsecond]

omit [DecidableEq V] in
/-- It is a matter of the names of the transaction, and not of the new pair. -/
theorem Armed.congr {d d' : Disk V β} {x : Txn V β} (h : Armed d x)
    (hsame : ∀ n : Name V, n.token = some x.token → n ≠ .newJson x.token → n ≠ .newNpz x.token →
      d' n = d n) : Armed d' x where
  journal := (hsame (.journal _) rfl nofun nofun).trans h.journal
  tx := (hsame (.tx _) rfl nofun nofun).trans h.tx
  backups p hp := ⟨(hsame (.oldJson _) rfl nofun nofun).trans (h.backups p hp).1,
    (hsame (.oldNpz _) rfl nofun nofun).trans (h.backups p hp).2⟩

/-- One of the two files has been replaced or removed. -/
def Mixed (d : Disk V β) (x : Txn V β) : Prop :=
  match x.result with
  | some p => d (.json x.voice) = x.old.map Prod.fst ∧ d (.npz x.voice) = some p.2
  | none => d (.json x.voice) = none ∧ d (.npz x.voice) = x.old.map Prod.snd

/-- What the files of the voice are: the old pair or the new one, if it is `allowed`, or one
of each, if the old one is and `ok`. -/
inductive Position (d : Disk V β) (allowed : Option (Pair V β) → Prop) (ok : Prop) (x : Txn V β) :
    Prop
  | old (h : Shows d x.voice x.old) (ha : allowed x.old)
  | mixed (h : Mixed d x) (ha : allowed x.old) (hok : ok)
  | new (h : Shows d x.voice x.result) (ha : allowed x.result)

/-- A voice is quiet, or one live journal is about it. -/
inductive VoiceOk (d : Disk V β) (allowed : Option (Pair V β) → Prop) (ok : Token → Prop) (v : V) :
    Prop
  | quiet (pair : Option (Pair V β)) (ha : allowed pair) (h : Shows d v pair)
      (hlive : ∀ t, ¬ Live d t v)
  | live (x : Txn V β) (hv : x.voice = v) (hvalid : x.Valid) (harmed : Armed d x)
      (hone : ∀ t, Live d t v → t = x.token) (hpos : Position d allowed (ok x.token) x)

section Moves

variable {d d' : Disk V β} {allowed allowed' : Option (Pair V β) → Prop} {ok ok' : Token → Prop}
  {v : V}

omit [DecidableEq V] in
theorem Mixed.congr {x : Txn V β} (h : Mixed d x) (hjson : d' (.json x.voice) = d (.json x.voice))
    (hnpz : d' (.npz x.voice) = d (.npz x.voice)) : Mixed d' x := by
  unfold Mixed at h ⊢
  rwa [hjson, hnpz]

omit [DecidableEq V] in
theorem Shows.congr {pair : Option (Pair V β)} (h : Shows d v pair)
    (hjson : d' (.json v) = d (.json v)) (hnpz : d' (.npz v) = d (.npz v)) : Shows d' v pair :=
  ⟨hjson.trans h.1, hnpz.trans h.2⟩

omit [DecidableEq V] in
theorem Position.congr {x : Txn V β} {b : Prop} (h : Position d allowed b x)
    (hjson : d' (.json x.voice) = d (.json x.voice))
    (hnpz : d' (.npz x.voice) = d (.npz x.voice)) : Position d' allowed b x := by
  cases h with
  | old h ha => exact .old (h.congr hjson hnpz) ha
  | mixed h ha hb => exact .mixed (h.congr hjson hnpz) ha hb
  | new h ha => exact .new (h.congr hjson hnpz) ha

omit [DecidableEq V] in
/-- The files stay, and more may be allowed. -/
theorem VoiceOk.mono (h : VoiceOk d allowed ok v) (hallowed : ∀ pair, allowed pair → allowed' pair)
    (hok : ∀ x : Txn V β, x.voice = v → x.Valid → Armed d x → Mixed d x → ok x.token →
      ok' x.token) : VoiceOk d allowed' ok' v := by
  cases h with
  | quiet pair ha h hlive => exact .quiet pair (hallowed pair ha) h hlive
  | live x hv hvalid harmed hone hpos =>
    refine .live x hv hvalid harmed hone ?_
    cases hpos with
    | old h ha => exact .old h (hallowed _ ha)
    | mixed h ha hb => exact .mixed h (hallowed _ ha) (hok x hv hvalid harmed h hb)
    | new h ha => exact .new h (hallowed _ ha)

omit [DecidableEq V] in
/-- The files of the voice stay, and of the transactions only one changes, which is not live
on the voice before or after. -/
theorem VoiceOk.frame (h : VoiceOk d allowed ok v) {t : Token}
    (hjson : d' (.json v) = d (.json v)) (hnpz : d' (.npz v) = d (.npz v))
    (hsame : ∀ (n : Name V) t', n.token = some t' → t' ≠ t → d' n = d n)
    (hbefore : ¬ Live d t v) (hafter : ¬ Live d' t v) : VoiceOk d' allowed ok v := by
  have hlive : ∀ t', Live d' t' v → Live d t' v := by
    intro t' hl
    have hne : t' ≠ t := by
      rintro rfl
      exact hafter hl
    exact (live_congr fun n hn => hsame n t' hn hne).mp hl
  cases h with
  | quiet pair ha h hquiet =>
    exact .quiet pair ha (h.congr hjson hnpz) fun t' hl => hquiet t' (hlive t' hl)
  | live x hv hvalid harmed hone hpos =>
    subst hv
    have hne : x.token ≠ t := by
      rintro rfl
      exact hbefore (harmed.live hvalid)
    have harmed' : Armed d' x := harmed.congr fun n hn _ _ => hsame n _ hn hne
    refine .live x rfl hvalid harmed' (fun t' hl => hone t' (hlive t' hl)) ?_
    exact hpos.congr hjson hnpz

omit [DecidableEq V] in
/-- Where something stands after a removal it stood before. -/
theorem Live.of_removed {t : Token} (h : Live d' t v) (hsome : ∀ n x, d' n = some x → d n = some x) :
    Live d t v := by
  obtain ⟨op, oldPresent, hjournal, htx, hold⟩ := h
  have hfile : ∀ n, isFile d' n = true → isFile d n = true := by
    intro n hn
    unfold isFile at hn ⊢
    cases hd : d' n with
    | none => rw [hd] at hn; cases hn
    | some x => rw [hd] at hn; rw [hsome n x hd]; exact hn
  refine ⟨op, oldPresent, hsome _ _ hjournal, hsome _ _ htx, fun ho => ?_⟩
  have hboth := hold ho
  simp only [hasBackups, Bool.and_eq_true] at hboth ⊢
  exact ⟨hfile _ hboth.1, hfile _ hboth.2⟩

omit [DecidableEq V] in
/-- A journal that stays live keeps what it needs. -/
theorem Armed.of_removed {x : Txn V β} (h : Armed d x) (hlive : Live d' x.token x.voice)
    (hsome : ∀ n y, d' n = some y → d n = some y) : Armed d' x := by
  obtain ⟨op, oldPresent, hjournal, htx, hold⟩ := hlive
  have hj := (hsome _ _ hjournal).symm.trans h.journal
  cases hj
  refine ⟨hjournal, htx, fun p hp => ?_⟩
  have hboth := hold (by rw [hp, Option.isSome_some])
  have hfile : ∀ n y, d n = some y → isFile d' n = true → d' n = some y := by
    intro n y hy hn
    unfold isFile at hn
    cases hd : d' n with
    | none => rw [hd] at hn; cases hn
    | some z => rw [← hy, hsome n z hd]
  simp only [hasBackups, Bool.and_eq_true] at hboth
  exact ⟨hfile _ _ (h.backups p hp).1 hboth.1, hfile _ _ (h.backups p hp).2 hboth.2⟩

/-- What stands after a removal stood before. -/
theorem of_removed {n n' : Name V} {y : Node V β} (h : Function.update d n none n' = some y) :
    d n' = some y := by
  by_cases heq : n' = n
  · rw [heq, Function.update_self] at h
    cases h
  · rwa [Function.update_of_ne heq] at h

/-- A name of a transaction is removed. If a live journal dies of it, the voice must be
settled. -/
theorem VoiceOk.remove (h : VoiceOk d allowed ok v) {n : Name V} {t : Token}
    (hn : n.token = some t)
    (hsettled : Live d t v → ∃ pair, allowed pair ∧ Shows d v pair) :
    VoiceOk (Function.update d n none) allowed ok v := by
  have hother : ∀ n' : Name V, n'.token ≠ some t → Function.update d n none n' = d n' := by
    intro n' hn'
    apply Function.update_of_ne
    rintro rfl
    exact hn' hn
  have hjson : Function.update d n none (.json v) = d (.json v) := hother _ nofun
  have hnpz : Function.update d n none (.npz v) = d (.npz v) := hother _ nofun
  have hsome : ∀ n' y, Function.update d n none n' = some y → d n' = some y := fun _ _ => of_removed
  by_cases hbefore : Live d t v
  · by_cases hafter : Live (Function.update d n none) t v
    · -- something the journal does not need has gone
      cases h with
      | quiet pair ha h hquiet => exact absurd hbefore (hquiet t)
      | live x hv hvalid harmed hone hpos =>
        subst hv
        cases hone t hbefore
        exact .live x rfl hvalid (harmed.of_removed hafter hsome)
          (fun t' hl => hone t' (hl.of_removed hsome)) (hpos.congr hjson hnpz)
    · obtain ⟨pair, ha, hshows⟩ := hsettled hbefore
      refine .quiet pair ha (hshows.congr hjson hnpz) fun t' hl => ?_
      have hl' := hl.of_removed hsome
      have htt : t' = t := by
        cases h with
        | quiet _ _ _ hquiet => exact absurd hl' (hquiet t')
        | live x _ _ _ hone _ => rw [hone t' hl', hone t hbefore]
      exact hafter (htt ▸ hl)
  · refine h.frame hjson hnpz (fun n' t' hn' hne => hother n' ?_) hbefore
      fun hl => hbefore (hl.of_removed hsome)
    rw [hn']
    exact fun h => hne (Option.some.inj h)

omit [DecidableEq V] in
/-- The voice shows one pair, and not by chance one file of each. -/
theorem VoiceOk.settle (h : VoiceOk d allowed ok v) {pair : Option (Pair V β)}
    (hshows : Shows d v pair)
    (hmixed : ∀ x : Txn V β, x.voice = v → x.Valid → Armed d x → Mixed d x → ¬ ok x.token) :
    VoiceOk d (· = pair) (fun _ => True) v := by
  cases h with
  | quiet pair' _ h hlive =>
    exact .quiet pair rfl hshows hlive
  | live x hv hvalid harmed hone hpos =>
    subst hv
    refine .live x rfl hvalid harmed hone ?_
    cases hpos with
    | old h ha => exact .old h (h.shown.symm.trans hshows.shown)
    | mixed h ha hok => exact absurd hok (hmixed x rfl hvalid harmed h)
    | new h ha => exact .new h (h.shown.symm.trans hshows.shown)

end Moves

/-! ### The names a transaction is about -/

section Names

variable {x : Txn V β} {s : FileStep V β}

/-- The copies and the new pair are in the transaction directory. -/
structure Prepared (d : Disk V β) (x : Txn V β) : Prop where
  tx : d (.tx x.token) = some .dir
  backups : ∀ p, x.old = some p →
    d (.oldJson x.token) = some p.1 ∧ d (.oldNpz x.token) = some p.2
  news : ∀ p, x.result = some p →
    d (.newJson x.token) = some p.1 ∧ d (.newNpz x.token) = some p.2

/-- The directory is filled as the transaction needs it. -/
theorem prepared_prep (d : Disk V β) (x : Txn V β) : Prepared (applyAll d x.prep) x := by
  cases hold : x.old <;> cases hresult : x.result <;>
    refine ⟨?_, ?_, ?_⟩ <;>
    simp [Txn.prep, Txn.backups, Txn.news, hold, hresult, writeFile, FileStep.apply]

omit [DecidableEq V] in
theorem own_prep (x : Txn V β) :
    ∀ s ∈ x.prep, ∀ n ∈ s.touches, n.token = some x.token ∧ n ≠ .journal x.token := by
  cases hold : x.old <;> cases hresult : x.result <;>
    simp [Txn.prep, Txn.backups, Txn.news, hold, hresult, writeFile, FileStep.touches, Name.token]

/-- What a step of a transaction may change. -/
def Txn.Touches (x : Txn V β) (s : FileStep V β) : Prop :=
  ∀ n ∈ s.touches, n.token = some x.token ∨ n = .json x.voice ∨ n = .npz x.voice

omit [DecidableEq V] in
theorem Txn.touches_arm (hs : s ∈ x.arm) {n : Name V} (hn : n ∈ s.touches) :
    n = .journal x.token := by
  simp only [Txn.arm, List.mem_cons, List.not_mem_nil, or_false] at hs
  rcases hs with rfl | rfl | rfl
  · exact List.mem_singleton.mp hn
  · exact List.mem_singleton.mp hn
  · cases hn

omit [DecidableEq V] in
theorem Txn.touches_commit (hs : s ∈ x.commit) {n : Name V} (hn : n ∈ s.touches) :
    n = .newJson x.token ∨ n = .newNpz x.token ∨ n = .json x.voice ∨ n = .npz x.voice := by
  cases hnew : x.new with
  | some bodies =>
    simp only [Txn.commit, hnew, List.mem_cons, List.not_mem_nil, or_false] at hs
    rcases hs with rfl | rfl | rfl | rfl <;> simp [FileStep.touches] at hn <;> tauto
  | none =>
    simp only [Txn.commit, hnew, List.mem_cons, List.not_mem_nil, or_false] at hs
    rcases hs with rfl | rfl | rfl | rfl <;> simp [FileStep.touches] at hn <;> tauto

end Names

/-! ### What recovery decides -/

section Verdicts

variable [DecidableEq β] {d : Disk V β} {allowed : Option (Pair V β) → Prop} {ok : Token → Prop}
  {v : V} {t : Token} {oldPresent : Bool}

omit [DecidableEq V] [DecidableEq β] in
theorem rollbackVerdict_eq (h : rollbackVerdict d t v oldPresent = .rollback v oldPresent) :
    oldPresent = true → hasBackups d t = true := by
  intro hold
  unfold rollbackVerdict at h
  split at h
  · cases h
  · next hnot =>
    by_contra hno
    exact hnot ⟨hold, Bool.eq_false_iff.mpr hno⟩

/-- Recovery rolls a voice back for a journal that says so. -/
theorem journal_of_rollback (h : verdict d t = .rollback v oldPresent) :
    ∃ op, d (.journal t) = some (.journal op v oldPresent) ∧ d (.tx t) = some .dir ∧
      (oldPresent = true → hasBackups d t = true) := by
  have hof : ∀ {v' : V} {o' : Bool}, rollbackVerdict d t v' o' = .rollback v oldPresent →
      v' = v ∧ o' = oldPresent := by
    intro v' o' h
    unfold rollbackVerdict at h
    split at h
    · cases h
    · cases h
      exact ⟨rfl, rfl⟩
  unfold verdict at h
  split at h
  · next op v' o' hjournal =>
    split at h
    · next htx =>
      cases op with
      | write =>
        dsimp only at h
        split at h
        · cases h
        · obtain ⟨rfl, rfl⟩ := hof h
          exact ⟨_, hjournal, htx, rollbackVerdict_eq h⟩
      | delete =>
        dsimp only at h
        split at h
        · cases h
        · obtain ⟨rfl, rfl⟩ := hof h
          exact ⟨_, hjournal, htx, rollbackVerdict_eq h⟩
    · cases h
  · cases h

theorem live_of_rollback (h : verdict d t = .rollback v oldPresent) : Live d t v := by
  obtain ⟨op, hjournal⟩ := journal_of_rollback h
  exact ⟨op, oldPresent, hjournal⟩

omit [DecidableEq V] [DecidableEq β] in
theorem rollbackVerdict_of_armed {x : Txn V β} (harmed : Armed d x) (hvalid : x.Valid) :
    rollbackVerdict d x.token x.voice x.old.isSome = .rollback x.voice x.old.isSome := by
  unfold rollbackVerdict
  rw [if_neg]
  rintro ⟨hold, hno⟩
  obtain ⟨op, o, hjournal, -, hbackups⟩ := harmed.live hvalid
  cases harmed.journal.symm.trans hjournal
  rw [hbackups hold] at hno
  cases hno

omit [DecidableEq V] [DecidableEq β] in
/-- The files of a voice with both tokens of a transaction are its new pair. -/
theorem pairHasToken_eq_false {x : Txn V β} (hvalid : x.Valid)
    (hjson : d (.json x.voice) = x.old.map Prod.fst) :
    pairHasToken d x.voice x.token = false := by
  unfold pairHasToken
  rw [hjson]
  cases hold : x.old with
  | none => rfl
  | some p =>
    have htoken := (hvalid.tokens p hold).1
    simp [htoken]

/-- A pair of which one file has been changed is rolled back. -/
theorem verdict_mixed {x : Txn V β} (harmed : Armed d x) (hvalid : x.Valid) (h : Mixed d x) :
    verdict d x.token = .rollback x.voice x.old.isSome := by
  have hroll := rollbackVerdict_of_armed harmed hvalid
  unfold Mixed at h
  cases hnew : x.new with
  | some bodies =>
    have hop : x.operation = .write := by rw [Txn.operation, hnew]
    have hresult : x.result = some (.profile (some x.token) bodies.1,
      .profile (some x.token) bodies.2) := by rw [Txn.result, hnew, Option.map_some]
    rw [hresult] at h
    have htoken := pairHasToken_eq_false hvalid h.1
    have hcomplete : oldComplete d x.token x.voice x.old.isSome = false := by
      unfold oldComplete
      cases hold : x.old with
      | none => simp [h.2]
      | some p =>
        obtain ⟨hj, hn⟩ := harmed.backups p hold
        have hne : Node.profile (some x.token) bodies.2 ≠ p.2 := by
          intro heq
          apply (hvalid.tokens p hold).2
          rw [← heq]
          rfl
        simp [filesEqual, h.2, hn, hne]
    simp only [verdict, harmed.journal, harmed.tx, if_true, hop, htoken, hcomplete, Bool.or_self,
      Bool.false_eq_true, if_false, hroll]
  | none =>
    have hop : x.operation = .delete := by rw [Txn.operation, hnew]
    have hresult : x.result = none := by rw [Txn.result, hnew, Option.map_none]
    obtain ⟨p, hold⟩ := Option.isSome_iff_exists.mp (hvalid.old hnew)
    rw [hresult] at h
    have hthere : ((d (.json x.voice)).isNone && (d (.npz x.voice)).isNone) = false := by
      simp [h.2, hold]
    simp only [verdict, harmed.journal, harmed.tx, if_true, hop, hthere, Bool.false_eq_true,
      if_false, hroll]

/-- An old pair is recognised by its copies where it was to be replaced, and rolled back to
itself where it was to be removed. -/
theorem verdict_old {x : Txn V β} (harmed : Armed d x) (hvalid : x.Valid)
    (h : Shows d x.voice x.old) :
    verdict d x.token = .clean ∨ verdict d x.token = .rollback x.voice x.old.isSome := by
  cases hnew : x.new with
  | some bodies =>
    have hop : x.operation = .write := by rw [Txn.operation, hnew]
    have hcomplete : oldComplete d x.token x.voice x.old.isSome = true := by
      unfold oldComplete
      cases hold : x.old with
      | none => simp [h.1, h.2, hold]
      | some p =>
        obtain ⟨hj, hn⟩ := harmed.backups p hold
        obtain ⟨hfirst, hsecond⟩ := hvalid.files p hold
        simp [filesEqual, isFile, h.1, h.2, hold, hj, hn, hfirst, hsecond]
    left
    simp only [verdict, harmed.journal, harmed.tx, if_true, hop, hcomplete, Bool.or_true]
  | none =>
    have hop : x.operation = .delete := by rw [Txn.operation, hnew]
    obtain ⟨p, hold⟩ := Option.isSome_iff_exists.mp (hvalid.old hnew)
    have hthere : ((d (.json x.voice)).isNone && (d (.npz x.voice)).isNone) = false := by
      simp [h.1, hold]
    right
    simp only [verdict, harmed.journal, harmed.tx, if_true, hop, hthere, Bool.false_eq_true,
      if_false, rollbackVerdict_of_armed harmed hvalid]

/-- A new pair is recognised by its token, a removed one by its absence. -/
theorem verdict_new {x : Txn V β}
    (hjournal : d (.journal x.token) = some (.journal x.operation x.voice x.old.isSome))
    (htx : d (.tx x.token) = some .dir) (h : Shows d x.voice x.result) :
    verdict d x.token = .clean := by
  cases hnew : x.new with
  | some bodies =>
    have hop : x.operation = .write := by rw [Txn.operation, hnew]
    have hresult : x.result = some (.profile (some x.token) bodies.1,
      .profile (some x.token) bodies.2) := by rw [Txn.result, hnew, Option.map_some]
    have htoken : pairHasToken d x.voice x.token = true := by
      simp [pairHasToken, h.1, h.2, hresult, Node.token]
    simp only [verdict, hjournal, htx, if_true, hop, htoken, Bool.true_or]
  | none =>
    have hop : x.operation = .delete := by rw [Txn.operation, hnew]
    have hresult : x.result = none := by rw [Txn.result, hnew, Option.map_none]
    have hgone : ((d (.json x.voice)).isNone && (d (.npz x.voice)).isNone) = true := by
      simp [h.1, h.2, hresult]
    simp only [verdict, hjournal, htx, if_true, hop, hgone]

/-- What recovery does about a journal by what the files of its voice are: it removes a
journal that is settled and rolls the others back. -/
theorem verdict_armed {x : Txn V β} (harmed : Armed d x) (hvalid : x.Valid) {b : Prop}
    (hpos : Position d allowed b x) :
    (verdict d x.token = .clean ∧ ∃ pair, allowed pair ∧ Shows d x.voice pair) ∨
      (verdict d x.token = .rollback x.voice x.old.isSome ∧ allowed x.old ∧
        (Mixed d x ∨ Shows d x.voice x.old)) := by
  cases hpos with
  | old h ha =>
    rcases verdict_old harmed hvalid h with hclean | hroll
    · exact .inl ⟨hclean, x.old, ha, h⟩
    · exact .inr ⟨hroll, ha, .inr h⟩
  | mixed h ha _ => exact .inr ⟨verdict_mixed harmed hvalid h, ha, .inl h⟩
  | new h ha => exact .inl ⟨verdict_new harmed.journal harmed.tx h, x.result, ha, h⟩

end Verdicts

end OpenVoiceStream.SparkVoices
