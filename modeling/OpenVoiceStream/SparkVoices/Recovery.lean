import OpenVoiceStream.SparkVoices.Position

/-!
# What a recovery pass makes of a directory

The recovery of the journals as a function on the directory, and that it is what a process
does that takes the lock and is not interrupted.

## Main definitions

* `recoverTransaction`, `recoverTransactions` — the recovery of one journal and of all.
* `Passes` — steps of the process with the lock, none of which fails.
* `Left` — what an interrupted transaction can leave of its pair, copies and journal.

## Main results

* `exists_pass` — a process that is not interrupted makes of the directory what
  `recoverTransactions` says.
* `recovered_iff` — when the recovery of what is left gives the old pair or the new one.
-/

namespace OpenVoiceStream.SparkVoices

variable {V β : Type} [DecidableEq V] [DecidableEq β]

/-- `_cleanup_transaction`. -/
def cleanupTransaction (d : Disk V β) (t : Token) : Disk V β :=
  fun n => if n.token = some t then none else d n

omit [DecidableEq V] [DecidableEq β] in
theorem cleanupTransaction_of_none (d : Disk V β) (t : Token) {n : Name V} (hn : n.token = none) :
    cleanupTransaction d t n = d n :=
  if_neg (by rw [hn]; exact nofun)

/-- `_restore_or_remove_transaction`, before its cleanup. -/
def restoreOrRemove (d : Disk V β) (t : Token) (v : V) (oldPresent : Bool) : Disk V β :=
  Function.update (Function.update d (.json v) (if oldPresent then d (.oldJson t) else none))
    (.npz v) (if oldPresent then d (.oldNpz t) else none)

/-- `_recover_transaction`. -/
def recoverTransaction (d : Disk V β) (t : Token) : Disk V β :=
  match verdict d t with
  | .ignore => d
  | .clean => cleanupTransaction d t
  | .rollback v oldPresent => cleanupTransaction (restoreOrRemove d t v oldPresent) t
  | .stuck => d

/-- The transaction directories that have no journal are removed. -/
def removeOrphans (d : Disk V β) (tokens : List Token) : Disk V β := fun n =>
  match n.token with
  | some t => if t ∈ tokens ∧ orphan d t = true then none else d n
  | none => d n

/-- `_recover_transactions_unlocked`. -/
def recoverTransactions (d : Disk V β) (tokens : List Token) : Disk V β :=
  removeOrphans ((journals d tokens).foldl recoverTransaction d) tokens

/-! ### A pass that is not interrupted -/

/-- Steps of the process with the lock, none of which fails. -/
inductive Passes : Config V β → Config V β → Prop
  | refl (c : Config V β) : Passes c c
  | step {c c' c'' : Config V β} (action : Action V β) (hfail : action ≠ .fail)
    (hcrash : action ≠ .crash) (h : SparkVoices.step c action = some c') (rest : Passes c' c'') :
    Passes c c''

section Pass

variable {c c' c'' : Config V β} {t : Token} {k : After V β}

theorem Passes.trans (h : Passes c c') (h' : Passes c' c'') : Passes c c'' := by
  induction h with
  | refl => exact h'
  | step action hfail hcrash h _ ih => exact .step action hfail hcrash h (ih h')

theorem Passes.one (action : Action V β) (hfail : action ≠ .fail) (hcrash : action ≠ .crash)
    (h : SparkVoices.step c action = some c') : Passes c c' :=
  .step action hfail hcrash h (.refl c')

/-- Some entries of the directory are removed. -/
theorem passes_remove (names : List (Name V)) (hnames : ∀ n ∈ names, n ∈ entries t) :
    Passes { c with holder := some (.cleanTx t k) }
      { c with
        disk := fun n => if n ∈ names then none else c.disk n
        holder := some (.cleanTx t k) } := by
  induction names generalizing c with
  | nil => exact .refl _
  | cons n names ih =>
    have hrest := fun m hm => hnames m (List.mem_cons_of_mem n hm)
    by_cases hn : (c.disk n).isSome = true
    · have hstep : SparkVoices.step { c with holder := some (.cleanTx t k) } (.remove n) =
          some { c with disk := Function.update c.disk n none, holder := some (.cleanTx t k) } :=
        if_pos ⟨hnames n List.mem_cons_self, hn⟩
      refine .step (.remove n) nofun nofun hstep ?_
      have hdisk : (fun m => if m ∈ n :: names then none else c.disk m) =
          fun m => if m ∈ names then none else Function.update c.disk n none m := by
        funext m
        by_cases hm : m = n
        · rw [hm, if_pos List.mem_cons_self, Function.update_self, ite_self]
        · rw [Function.update_of_ne hm]
          simp only [List.mem_cons, hm, false_or]
      rw [hdisk]
      exact ih (c := { c with disk := Function.update c.disk n none }) hrest
    · rw [Option.not_isSome_iff_eq_none] at hn
      have hdisk : (fun m => if m ∈ n :: names then none else c.disk m) =
          fun m => if m ∈ names then none else c.disk m := by
        funext m
        by_cases hm : m = n
        · rw [hm, if_pos List.mem_cons_self, hn, ite_self]
        · simp only [List.mem_cons, hm, false_or]
      rw [hdisk]
      exact ih hrest

/-- A cleanup. -/
theorem passes_cleanup : Passes { c with holder := some (.cleanTx t k) }
    ({ c with disk := cleanupTransaction c.disk t }.continue k) := by
  refine (passes_remove (entries t) fun _ hn => hn).trans ?_
  have hempty : emptied (fun n => if n ∈ entries t then none else c.disk n) t = true := by
    simp [emptied, entries]
  refine .step .rmdir nofun nofun (if_pos hempty) (.one .rmJournal nofun nofun ?_)
  have hdisk : Function.update (Function.update (fun n => if n ∈ entries t then none else c.disk n)
      (.tx t) none) (.journal t) none = cleanupTransaction c.disk t := by
    funext n
    unfold cleanupTransaction
    cases n <;> simp [Function.update_apply, entries, Name.token, eq_comm]
  rw [← hdisk]
  cases k <;> rfl

/-- The recovery of one journal. -/
theorem passes_recover (todo : List Token) (clean : Bool) :
    ∃ clean', Passes { c with holder := some (.pass (t :: todo) clean) }
      { c with disk := recoverTransaction c.disk t, holder := some (.pass todo clean') } := by
  have hrecover : SparkVoices.step { c with holder := some (.pass (t :: todo) clean) } .recover =
      some (Config.recover { c with holder := some (.pass (t :: todo) clean) } t
        (.pass todo clean)) := rfl
  unfold Config.recover at hrecover
  unfold recoverTransaction
  cases hverdict : verdict c.disk t with
  | ignore =>
    rw [hverdict] at hrecover
    exact ⟨clean, .one .recover nofun nofun hrecover⟩
  | clean =>
    rw [hverdict] at hrecover
    exact ⟨clean, .step .recover nofun nofun hrecover (passes_cleanup (k := .pass todo clean))⟩
  | rollback v oldPresent =>
    rw [hverdict] at hrecover
    refine ⟨clean, .step .recover nofun nofun hrecover (.step .roll nofun nofun rfl
      (.step .roll nofun nofun rfl ?_))⟩
    have hsecond : (if oldPresent then Function.update c.disk (.json v)
        (if oldPresent then c.disk (.oldJson t) else none) (.oldNpz t) else none) =
        if oldPresent then c.disk (.oldNpz t) else none := by
      rw [Function.update_of_ne (show (.oldNpz t : Name V) ≠ .json v from nofun)]
    rw [hsecond]
    exact passes_cleanup (c := { c with disk := restoreOrRemove c.disk t v oldPresent })
      (k := .pass todo clean)
  | stuck =>
    rw [hverdict] at hrecover
    exact ⟨false, .one .recover nofun nofun hrecover⟩

/-- The recovery of all journals. -/
theorem passes_journals (todo : List Token) (clean : Bool) :
    ∃ clean', Passes { c with holder := some (.pass todo clean) }
      { c with disk := todo.foldl recoverTransaction c.disk, holder := some (.pass [] clean') } := by
  induction todo generalizing c clean with
  | nil => exact ⟨clean, .refl _⟩
  | cons t todo ih =>
    obtain ⟨clean', hfirst⟩ := passes_recover (c := c) (t := t) todo clean
    obtain ⟨clean'', hrest⟩ := ih (c := { c with disk := recoverTransaction c.disk t }) clean'
    exact ⟨clean'', hfirst.trans hrest⟩

/-- Entries of a directory without a journal are removed. -/
theorem passes_rmOrphan {clean : Bool} (names : List (Name V))
    (hnames : ∀ n ∈ names, n ∈ entries t) (horphan : orphan c.disk t = true) :
    Passes { c with holder := some (.orphans clean) }
      { c with
        disk := fun n => if n ∈ names then none else c.disk n
        holder := some (.orphans clean) } := by
  induction names generalizing c with
  | nil => exact .refl _
  | cons n names ih =>
    have hn := hnames n List.mem_cons_self
    have hstep : SparkVoices.step { c with holder := some (.orphans clean) } (.rmOrphan t n) =
        some { c with disk := Function.update c.disk n none, holder := some (.orphans clean) } :=
      if_pos ⟨horphan, .inl hn⟩
    have horphan' : orphan (Function.update c.disk n none) t = true := by
      rw [← horphan, orphan, orphan, Function.update_of_ne, Function.update_of_ne]
      · rintro rfl
        simp [entries] at hn
      · rintro rfl
        simp [entries] at hn
    have hdisk : (fun m => if m ∈ n :: names then none else c.disk m) =
        fun m => if m ∈ names then none else Function.update c.disk n none m := by
      funext m
      by_cases hm : m = n
      · rw [hm, if_pos List.mem_cons_self, Function.update_self, ite_self]
      · rw [Function.update_of_ne hm]
        simp only [List.mem_cons, hm, false_or]
    rw [hdisk]
    exact .step (.rmOrphan t n) nofun nofun hstep
      (ih (c := { c with disk := Function.update c.disk n none })
        (fun m hm => hnames m (List.mem_cons_of_mem n hm)) horphan')

/-- A directory without a journal is removed. -/
theorem passes_orphan {clean : Bool} (horphan : orphan c.disk t = true) :
    Passes { c with holder := some (.orphans clean) }
      { c with disk := cleanupTransaction c.disk t, holder := some (.orphans clean) } := by
  refine (passes_rmOrphan (entries t) (fun _ hn => hn) horphan).trans
    (.one (.rmOrphan t (.tx t)) nofun nofun ?_)
  have hguard : orphan (fun n => if n ∈ entries t then none else c.disk n) t = true ∧
      ((.tx t : Name V) ∈ entries t ∨ (.tx t : Name V) = .tx t ∧
        emptied (fun n => if n ∈ entries t then none else c.disk n) t = true) := by
    refine ⟨?_, .inr ⟨rfl, by simp [emptied, entries]⟩⟩
    rw [← horphan]
    simp [orphan, entries]
  have hdisk : Function.update (fun n => if n ∈ entries t then none else c.disk n) (.tx t) none =
      cleanupTransaction c.disk t := by
    have hjournal : c.disk (.journal t) = none := by
      simp only [orphan, Bool.and_eq_true, Option.isNone_iff_eq_none] at horphan
      exact horphan.2
    funext n
    unfold cleanupTransaction
    cases n with
    | journal t' =>
      by_cases ht : t' = t
      · subst ht
        simp [entries, Name.token, hjournal]
      · simp [entries, Name.token, ht]
    | _ => simp [Function.update_apply, entries, Name.token, eq_comm]
  rw [← hdisk]
  exact if_pos hguard

/-- All of them are. -/
theorem passes_orphans (clean : Bool) (tokens : List Token) :
    Passes { c with holder := some (.orphans clean) }
      { c with disk := removeOrphans c.disk tokens, holder := some (.orphans clean) } := by
  induction tokens generalizing c with
  | nil =>
    have hdisk : removeOrphans c.disk [] = c.disk := by
      funext n
      unfold removeOrphans
      split
      · simp
      · rfl
    rw [hdisk]
    exact .refl _
  | cons t tokens ih =>
    by_cases horphan : orphan c.disk t = true
    · refine (passes_orphan horphan).trans ?_
      have hdisk : removeOrphans c.disk (t :: tokens) =
          removeOrphans (cleanupTransaction c.disk t) tokens := by
        funext n
        unfold removeOrphans cleanupTransaction
        cases hn : n.token with
        | none => simp
        | some t' =>
          by_cases ht : t' = t
          · subst ht
            simp [horphan]
          · have horphan' : orphan (fun n => if n.token = some t then none else c.disk n) t' =
                orphan c.disk t' := by
              simp [orphan, Name.token, ht]
            simp only [List.mem_cons, ht, false_or, Option.some.injEq, if_false, horphan']
      rw [hdisk]
      exact ih (c := { c with disk := cleanupTransaction c.disk t })
    · have hdisk : removeOrphans c.disk (t :: tokens) = removeOrphans c.disk tokens := by
        funext n
        unfold removeOrphans
        cases hn : n.token with
        | none => rfl
        | some t' =>
          by_cases ht : t' = t
          · subst ht
            simp [horphan]
          · simp only [List.mem_cons, ht, false_or]
      rw [hdisk]
      exact ih

omit [DecidableEq V] [DecidableEq β] in
theorem orphan_removeOrphans {d : Disk V β} {tokens : List Token} (ht : t ∈ tokens) :
    orphan (removeOrphans d tokens) t = false := by
  by_cases horphan : orphan d t = true
  · have htx : removeOrphans d tokens (.tx t) = none := if_pos ⟨ht, horphan⟩
    rw [orphan, htx]
    rfl
  · have hkeep : ∀ n : Name V, n.token = some t → removeOrphans d tokens n = d n := by
      intro n hn
      unfold removeOrphans
      rw [hn]
      exact if_neg fun h => horphan h.2
    rw [orphan, hkeep _ rfl, hkeep _ rfl]
    exact Bool.eq_false_iff.mpr horphan

/-- **A pass that is not interrupted** makes of the directory what `recoverTransactions`
says. -/
theorem exists_pass (hholder : c.holder = none) : ∃ c', Passes c c' ∧ c'.holder = some .ready ∧
    c'.disk = recoverTransactions c.disk c.tokens := by
  have henter : SparkVoices.step c .enter =
      some { c with holder := some (.pass (journals c.disk c.tokens) true) } := by
    unfold SparkVoices.step
    rw [hholder]
  obtain ⟨clean, hjournals⟩ := passes_journals (c := c) (journals c.disk c.tokens) true
  have hend : SparkVoices.step
      { c with
        disk := recoverTransactions c.disk c.tokens
        holder := some (.orphans clean) } .endOrphans =
      some (if clean then
          { c with
            disk := recoverTransactions c.disk c.tokens
            holder := some .ready
            last := shown (recoverTransactions c.disk c.tokens)
            maybe := fun _ => [] }
        else { c with disk := recoverTransactions c.disk c.tokens, holder := some .ready }) := by
    refine if_pos (List.all_eq_true.mpr fun t ht => ?_)
    rw [recoverTransactions, orphan_removeOrphans ht]
    rfl
  have horphans := passes_orphans (c := { c with
    disk := (journals c.disk c.tokens).foldl recoverTransaction c.disk }) clean c.tokens
  have hpass := Passes.step .enter nofun nofun henter (hjournals.trans
    (.step .endPass nofun nofun rfl (horphans.trans (.one .endOrphans nofun nofun hend))))
  refine ⟨_, hpass, ?_, ?_⟩
  · cases clean <;> rfl
  · cases clean <;> rfl

end Pass

/-! ### What an interrupted transaction comes to -/

section Outcome

variable {d : Disk V β} {x : Txn V β} {t : Token}

/-- The journal of the transaction. -/
def Txn.record (x : Txn V β) : Node V β := .journal x.operation x.voice x.old.isSome

/-- The copies that are there are of the old pair. -/
def Backed (d : Disk V β) (x : Txn V β) : Prop :=
  ∀ p, x.old = some p → (d (.oldJson x.token) = none ∨ d (.oldJson x.token) = some p.1) ∧
    (d (.oldNpz x.token) = none ∨ d (.oldNpz x.token) = some p.2)

/-- What a loss of power in the operation can leave: the old pair and no whole journal; the
old pair with the journal; the journal and one file of each pair; the new pair. -/
inductive Left (d : Disk V β) (x : Txn V β) : Prop
  | quiet (h : Shows d x.voice x.old)
    (hjournal : ∀ op v o, d (.journal x.token) ≠ some (.journal op v o))
  | before (h : Shows d x.voice x.old) (hbacked : Backed d x)
    (hjournal : d (.journal x.token) = some x.record)
  | during (h : Mixed d x) (hbacked : Backed d x) (htx : d (.tx x.token) = some .dir)
    (hjournal : d (.journal x.token) = some x.record)
  | after (h : Shows d x.voice x.result)
    (hjournal : d (.journal x.token) = some x.record ∨ d (.journal x.token) = none)

omit [DecidableEq V] [DecidableEq β] in
/-- One file of each is not the old pair, if there was one. -/
theorem not_mixed_of_old (hvalid : x.Valid) (hold : x.old.isSome = true)
    (h : Shows d x.voice x.old) : ¬ Mixed d x := by
  intro hmixed
  obtain ⟨p, hp⟩ := Option.isSome_iff_exists.mp hold
  unfold Mixed at hmixed
  cases hnew : x.new with
  | some bodies =>
    rw [Txn.result, hnew, Option.map_some] at hmixed
    have hnpz := hmixed.2.symm.trans h.2
    rw [hp, Option.map_some, Option.some.injEq] at hnpz
    apply (hvalid.tokens p hp).2
    rw [← hnpz]
    rfl
  | none =>
    rw [Txn.result, hnew, Option.map_none] at hmixed
    have hjson := hmixed.1.symm.trans h.1
    rw [hp] at hjson
    cases hjson

omit [DecidableEq V] [DecidableEq β] in
/-- Nor is it the new one. -/
theorem not_mixed_of_result (hvalid : x.Valid) (hold : x.old.isSome = true)
    (h : Shows d x.voice x.result) : ¬ Mixed d x := by
  intro hmixed
  obtain ⟨p, hp⟩ := Option.isSome_iff_exists.mp hold
  unfold Mixed at hmixed
  cases hnew : x.new with
  | some bodies =>
    have hresult : x.result = some (.profile (some x.token) bodies.1,
      .profile (some x.token) bodies.2) := by rw [Txn.result, hnew, Option.map_some]
    rw [hresult] at hmixed h
    have hjson := hmixed.1.symm.trans h.1
    rw [hp, Option.map_some, Option.map_some, Option.some.injEq] at hjson
    apply (hvalid.tokens p hp).1
    rw [hjson]
    rfl
  | none =>
    have hresult : x.result = none := by rw [Txn.result, hnew, Option.map_none]
    rw [hresult] at hmixed h
    have hnpz := hmixed.2.symm.trans h.2
    rw [hp] at hnpz
    cases hnpz

/-- The files of a voice change in a rollback only. -/
theorem shows_recovered_of_ne {pair : Option (Pair V β)} {v : V}
    (hverdict : ∀ v o, verdict d t ≠ .rollback v o) :
    Shows (recoverTransaction d t) v pair ↔ Shows d v pair := by
  unfold recoverTransaction
  cases hv : verdict d t with
  | ignore => rfl
  | clean => rfl
  | rollback v o => exact absurd hv (hverdict v o)
  | stuck => rfl

omit [DecidableEq V] [DecidableEq β] in
/-- Copies that are both there are the old pair. -/
theorem Backed.backups (hbacked : Backed d x)
    (hbackups : x.old.isSome = true → hasBackups d x.token = true) {p : Pair V β}
    (hold : x.old = some p) :
    d (.oldJson x.token) = some p.1 ∧ d (.oldNpz x.token) = some p.2 := by
  have hboth := hbackups (by rw [hold]; rfl)
  simp only [hasBackups, isFile, Bool.and_eq_true] at hboth
  obtain ⟨hj | hj, hn | hn⟩ := hbacked p hold
  · rw [hj] at hboth
    cases hboth.1
  · rw [hj] at hboth
    cases hboth.1
  · rw [hn] at hboth
    cases hboth.2
  · exact ⟨hj, hn⟩

/-- A rollback leaves the old pair. -/
theorem shows_recovered_of_rollback (hbacked : Backed d x)
    (hverdict : verdict d x.token = .rollback x.voice x.old.isSome)
    (hbackups : x.old.isSome = true → hasBackups d x.token = true) :
    Shows (recoverTransaction d x.token) x.voice x.old := by
  have hjson : (if x.old.isSome then d (.oldJson x.token) else none) = x.old.map Prod.fst ∧
      (if x.old.isSome then d (.oldNpz x.token) else none) = x.old.map Prod.snd := by
    cases hold : x.old with
    | none => exact ⟨rfl, rfl⟩
    | some p => exact hbacked.backups hbackups hold
  have hrecovered : recoverTransaction d x.token =
      cleanupTransaction (restoreOrRemove d x.token x.voice x.old.isSome) x.token := by
    rw [recoverTransaction, hverdict]
  rw [hrecovered]
  refine ⟨?_, ?_⟩
  · rw [cleanupTransaction_of_none _ _ rfl, restoreOrRemove,
      Function.update_of_ne (show (.json x.voice : Name V) ≠ .npz x.voice from nofun),
      Function.update_self]
    exact hjson.1
  · rw [cleanupTransaction_of_none _ _ rfl, restoreOrRemove, Function.update_self]
    exact hjson.2

/-- Without a copy a half replaced pair is left as it is. -/
theorem verdict_stuck (hvalid : x.Valid) (hmixed : Mixed d x) (htx : d (.tx x.token) = some .dir)
    (hjournal : d (.journal x.token) = some x.record) (hold : x.old.isSome = true)
    (hbackups : hasBackups d x.token = false) : verdict d x.token = .stuck := by
  have hroll : rollbackVerdict d x.token x.voice x.old.isSome = .stuck := if_pos ⟨hold, hbackups⟩
  unfold Mixed at hmixed
  cases hnew : x.new with
  | some bodies =>
    have hop : x.operation = .write := by rw [Txn.operation, hnew]
    rw [Txn.result, hnew, Option.map_some] at hmixed
    have htoken := pairHasToken_eq_false hvalid hmixed.1
    have hcomplete : oldComplete d x.token x.voice x.old.isSome = false := by
      rw [oldComplete, if_pos hold]
      simp only [hasBackups, Bool.and_eq_false_iff] at hbackups
      rcases hbackups with hlost | hlost
      · simp [filesEqual, hlost]
      · simp [filesEqual, hlost]
    simp only [verdict, hjournal, Txn.record, htx, if_true, hop, htoken, hcomplete, Bool.or_self,
      Bool.false_eq_true, if_false, hroll]
  | none =>
    have hop : x.operation = .delete := by rw [Txn.operation, hnew]
    rw [Txn.result, hnew, Option.map_none] at hmixed
    have hthere : ((d (.json x.voice)).isNone && (d (.npz x.voice)).isNone) = false := by
      obtain ⟨p, hp⟩ := Option.isSome_iff_exists.mp hold
      simp [hmixed.2, hp]
    simp only [verdict, hjournal, Txn.record, htx, if_true, hop, hthere, Bool.false_eq_true,
      if_false, hroll]

/-- **What an interrupted transaction comes to.** Its journal leaves the old pair or the new
one, unless there was an old pair, one of its files has been changed, and a copy is lost. -/
theorem recovered_iff (h : Left d x) (hvalid : x.Valid) :
    (∃ pair, (pair = x.old ∨ pair = x.result) ∧
        Shows (recoverTransaction d x.token) x.voice pair) ↔
      ¬ (x.old.isSome = true ∧ Mixed d x ∧ hasBackups d x.token = false) := by
  have hclean : ∀ {pair : Option (Pair V β)}, pair = x.old ∨ pair = x.result →
      Shows (recoverTransaction d x.token) x.voice pair →
      (x.old.isSome = true → ¬ Mixed d x) →
      ((∃ pair, (pair = x.old ∨ pair = x.result) ∧
        Shows (recoverTransaction d x.token) x.voice pair) ↔
      ¬ (x.old.isSome = true ∧ Mixed d x ∧ hasBackups d x.token = false)) := by
    intro pair hpair hshows hmixed
    exact iff_of_true ⟨pair, hpair, hshows⟩ fun hbad => hmixed hbad.1 hbad.2.1
  cases h with
  | quiet h hjournal =>
    have hverdict : verdict d x.token = .ignore := by
      unfold verdict
      split
      · next op v o hj => exact absurd hj (hjournal op v o)
      · rfl
    refine hclean (.inl rfl) ?_ fun hold => not_mixed_of_old hvalid hold h
    exact (shows_recovered_of_ne (by rw [hverdict]; exact nofun)).mpr h
  | before h hbacked hjournal =>
    refine hclean (.inl rfl) ?_ fun hold => not_mixed_of_old hvalid hold h
    by_cases hroll : ∃ v o, verdict d x.token = .rollback v o
    · obtain ⟨v, o, hverdict⟩ := hroll
      obtain ⟨_, hj, -, hbackups⟩ := journal_of_rollback hverdict
      cases hjournal.symm.trans hj
      exact shows_recovered_of_rollback hbacked hverdict hbackups
    · refine (shows_recovered_of_ne fun v o hv => hroll ⟨v, o, hv⟩).mpr h
  | during h hbacked htx hjournal =>
    by_cases hbackups : x.old.isSome = true → hasBackups d x.token = true
    · have harmed : Armed d x := ⟨hjournal, htx, fun p => hbacked.backups hbackups⟩
      have hverdict := verdict_mixed harmed hvalid h
      refine iff_of_true ⟨x.old, .inl rfl,
        shows_recovered_of_rollback hbacked hverdict hbackups⟩ ?_
      rintro ⟨hold, -, hlost⟩
      rw [hbackups hold] at hlost
      cases hlost
    · rw [Classical.not_imp, Bool.not_eq_true] at hbackups
      obtain ⟨hold, hlost⟩ := hbackups
      refine iff_of_false ?_ fun hnot => hnot ⟨hold, h, hlost⟩
      have hverdict := verdict_stuck hvalid h htx hjournal hold hlost
      rintro ⟨pair, hpair, hshows⟩
      have hshows' := (shows_recovered_of_ne (by rw [hverdict]; exact nofun)).mp hshows
      rcases hpair with rfl | rfl
      · exact not_mixed_of_old hvalid hold hshows' h
      · exact not_mixed_of_result hvalid hold hshows' h
  | after h hjournal =>
    refine hclean (.inr rfl) ?_ fun hold => not_mixed_of_result hvalid hold h
    refine (shows_recovered_of_ne ?_).mpr h
    rcases hjournal with hjournal | hjournal
    · by_cases htx : d (.tx x.token) = some .dir
      · rw [verdict_new hjournal htx h]
        exact nofun
      · have hverdict : verdict d x.token = .ignore := by
          simp only [verdict, hjournal, Txn.record, if_neg htx]
        rw [hverdict]
        exact nofun
    · have hverdict : verdict d x.token = .ignore := by
        simp only [verdict, hjournal]
      rw [hverdict]
      exact nofun

/-- With one journal there is one transaction to recover. -/
theorem shows_recoverTransactions {tokens : List Token} {v : V} {pair : Option (Pair V β)}
    (hothers : ∀ t' ∈ tokens, d (.journal t') = none) :
    Shows (recoverTransactions d (t :: tokens)) v pair ↔ Shows (recoverTransaction d t) v pair := by
  have hfilter : tokens.filter (fun t => (d (.journal t)).isSome) = [] := by
    rw [List.filter_eq_nil_iff]
    intro t' ht'
    rw [hothers t' ht']
    exact Bool.false_ne_true
  have hfold : (journals d (t :: tokens)).foldl recoverTransaction d = recoverTransaction d t := by
    cases hjournal : d (.journal t) with
    | none =>
      have hverdict : verdict d t = .ignore := by simp only [verdict, hjournal]
      simp [journals, hjournal, hfilter, recoverTransaction, hverdict]
    | some node => simp [journals, hjournal, hfilter]
  unfold recoverTransactions
  rw [hfold]
  rfl

end Outcome

end OpenVoiceStream.SparkVoices
