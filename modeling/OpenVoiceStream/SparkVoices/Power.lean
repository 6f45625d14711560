import OpenVoiceStream.Base.FileSystem
import OpenVoiceStream.SparkVoices.Recovery

/-!
# Losing power in a register or a delete

The steps of an operation on a file system where entries are durable only after their
directory is synced. The operation syncs the voices directory, before it writes its journal
and after each change of the pair; it syncs every file it writes; it never syncs its own
transaction directory, so the entries of the copies of the old pair may be lost, and it
never syncs the directory the voices directory is in.

## Main definitions

* `FileStep.run` — a step on files in a file system.
* `Txn.steps` — a register or a delete from its transaction directory to its cleanup.
* `Completed` — the histories of completed operations.
* `afterLoss` — what is left when the power has come back.

## Main results

* `Tidy.contents` — without a loss of power the file system is the directory of before.
* `power_loss_iff` — when the first recovery leaves the old pair or the new one.
* `mixed_after_loss` — a pair that stays half replaced.
-/

namespace OpenVoiceStream.SparkVoices

variable {V β : Type} [DecidableEq V]

/-- The names in the voices directory itself; the others are in a transaction directory. -/
def Name.inRoot : Name V → Bool
  | .oldJson _ => false
  | .oldNpz _ => false
  | .newJson _ => false
  | .newNpz _ => false
  | _ => true

/-- A step on files. -/
def FileStep.run (fs : FileSystem (Name V) (Node V β)) :
    FileStep V β → FileSystem (Name V) (Node V β)
  | .mkdir t => fs.create (.tx t) .dir
  | .create n => fs.create n .torn
  | .fill n x => fs.fill n x
  | .move src dst => fs.move src dst
  | .unlink n => fs.unlink n
  | .syncRoot => fs.sync Name.inRoot

/-- Some steps on files. -/
def runAll (fs : FileSystem (Name V) (Node V β)) (steps : List (FileStep V β)) :
    FileSystem (Name V) (Node V β) :=
  steps.foldl FileStep.run fs

@[simp] theorem runAll_nil (fs : FileSystem (Name V) (Node V β)) : runAll fs [] = fs := rfl

@[simp] theorem runAll_cons (fs : FileSystem (Name V) (Node V β)) (s : FileStep V β)
    (steps : List (FileStep V β)) : runAll fs (s :: steps) = runAll (s.run fs) steps := rfl

theorem runAll_append (fs : FileSystem (Name V) (Node V β)) (a b : List (FileStep V β)) :
    runAll fs (a ++ b) = runAll (runAll fs a) b :=
  List.foldl_append

namespace Txn

variable (x : Txn V β)

omit [DecidableEq V]

/-- What is left in the transaction directory after the commit. -/
def left : List (Name V) :=
  match x.old with
  | some _ => [.oldJson x.token, .oldNpz x.token]
  | none => []

/-- `_cleanup_transaction`, which removes the entries of the directory in some order. -/
def cleanup (order : List (Name V)) : List (FileStep V β) :=
  order.map .unlink ++ [.unlink (.tx x.token), .unlink (.journal x.token), .syncRoot]

/-- `_atomic_write_pair` or `_atomic_delete_pair`. -/
def steps (order : List (Name V)) : List (FileStep V β) :=
  x.prep ++ (x.arm ++ (x.commit ++ x.cleanup order))

end Txn

/-! ### Files are made and filled at once -/

/-- Steps in which a file is filled right after it is made. -/
inductive Tidy : List (FileStep V β) → Prop
  | nil : Tidy []
  | write (n : Name V) (x : Node V β) {rest : List (FileStep V β)} (h : Tidy rest) :
    Tidy (.create n :: .fill n x :: rest)
  | mkdir (t : Token) {rest : List (FileStep V β)} (h : Tidy rest) : Tidy (.mkdir t :: rest)
  | move (src dst : Name V) {rest : List (FileStep V β)} (h : Tidy rest) :
    Tidy (.move src dst :: rest)
  | unlink (n : Name V) {rest : List (FileStep V β)} (h : Tidy rest) : Tidy (.unlink n :: rest)
  | syncRoot {rest : List (FileStep V β)} (h : Tidy rest) : Tidy (.syncRoot :: rest)

section Tidy

variable {a b : List (FileStep V β)} {fs : FileSystem (Name V) (Node V β)}

omit [DecidableEq V] in
theorem Tidy.append (ha : Tidy a) (hb : Tidy b) : Tidy (a ++ b) := by
  induction ha with
  | nil => exact hb
  | write n x _ ih => exact .write n x ih
  | mkdir t _ ih => exact .mkdir t ih
  | move src dst _ ih => exact .move src dst ih
  | unlink n _ ih => exact .unlink n ih
  | syncRoot _ ih => exact .syncRoot ih

/-- **Without a loss of power** the file system goes the way of the directory. -/
theorem Tidy.contents (h : Tidy a) : (runAll fs a).contents = applyAll fs.contents a := by
  induction h generalizing fs with
  | nil => rfl
  | write n x _ ih =>
    show (runAll ((fs.create n .torn).fill n x) _).contents = _
    rw [fs.fill_create, ih, fs.contents_create, applyAll_cons, applyAll_cons, FileStep.apply,
      FileStep.apply, Function.update_idem]
  | mkdir t _ ih =>
    rw [runAll_cons, ih, FileStep.run, fs.contents_create]
    rfl
  | move src dst _ ih =>
    rw [runAll_cons, ih, FileStep.run, fs.contents_move]
    rfl
  | unlink n _ ih =>
    rw [runAll_cons, ih, FileStep.run, fs.contents_unlink]
    rfl
  | syncRoot _ ih =>
    rw [runAll_cons, ih, FileStep.run, fs.contents_sync]
    rfl

/-- What a name shows whatever is lost stays so through steps that are not about it, or
remove it where that is allowed. -/
theorem Tidy.only_take {n : Name V} {P : Option (Node V β) → Prop} (h : Tidy a)
    (honly : fs.Only n P) (hn : ∀ s ∈ a, n ∈ s.touches → s = .unlink n ∧ P none) (k : ℕ) :
    (runAll fs (a.take k)).Only n P := by
  induction h generalizing fs k with
  | nil =>
    rw [List.take_nil]
    exact honly
  | write m x _ ih =>
    have hne : n ≠ m := by
      rintro rfl
      obtain ⟨heq, -⟩ := hn (.create n) List.mem_cons_self List.mem_cons_self
      cases heq
    match k with
    | 0 => exact honly
    | 1 => exact honly.create fun heq => absurd heq hne
    | k + 2 =>
      rw [List.take_succ_cons, List.take_succ_cons, runAll_cons, runAll_cons]
      show (runAll ((fs.create m .torn).fill m x) _).Only n P
      rw [fs.fill_create]
      exact ih (honly.create fun heq => absurd heq hne)
        (fun s hs => hn s (List.mem_cons_of_mem _ (List.mem_cons_of_mem _ hs))) k
  | mkdir t _ ih =>
    cases k with
    | zero => exact honly
    | succ k =>
      refine ih (honly.create fun heq => ?_) (fun s hs => hn s (List.mem_cons_of_mem _ hs)) k
      obtain ⟨h, -⟩ := hn (.mkdir t) List.mem_cons_self (List.mem_singleton.mpr heq)
      cases h
  | move src dst _ ih =>
    have hnot : n ∉ (FileStep.move src dst : FileStep V β).touches := by
      intro hmem
      obtain ⟨h, -⟩ := hn _ List.mem_cons_self hmem
      cases h
    cases k with
    | zero => exact honly
    | succ k =>
      refine ih (honly.move (fun heq => ?_) fun heq => ?_)
        (fun s hs => hn s (List.mem_cons_of_mem _ hs)) k
      · exact absurd (List.mem_cons_of_mem _ (List.mem_singleton.mpr heq)) hnot
      · exact absurd (heq ▸ List.mem_cons_self) hnot
  | unlink m _ ih =>
    cases k with
    | zero => exact honly
    | succ k =>
      refine ih (honly.unlink fun heq => ?_) (fun s hs => hn s (List.mem_cons_of_mem _ hs)) k
      exact (hn (.unlink m) List.mem_cons_self (List.mem_singleton.mpr heq)).2
  | syncRoot _ ih =>
    cases k with
    | zero => exact honly
    | succ k => exact ih (honly.sync _) (fun s hs => hn s (List.mem_cons_of_mem _ hs)) k

theorem Tidy.only {n : Name V} {P : Option (Node V β) → Prop} (h : Tidy a) (honly : fs.Only n P)
    (hn : ∀ s ∈ a, n ∈ s.touches → s = .unlink n ∧ P none) : (runAll fs a).Only n P := by
  have := h.only_take honly hn a.length
  rwa [List.take_length] at this

omit [DecidableEq V] in
theorem tidy_prep (x : Txn V β) : Tidy x.prep := by
  have hbackups : Tidy x.backups := by
    unfold Txn.backups
    split
    · exact .write _ _ (.write _ _ .nil)
    · exact .nil
  have hnews : Tidy x.news := by
    unfold Txn.news
    split
    · exact .write _ _ (.write _ _ .nil)
    · exact .nil
  exact .mkdir _ (hbackups.append (hnews.append (.syncRoot .nil)))

omit [DecidableEq V] in
theorem tidy_arm (x : Txn V β) : Tidy x.arm := .write _ _ (.syncRoot .nil)

omit [DecidableEq V] in
theorem tidy_commit (x : Txn V β) : Tidy x.commit := by
  unfold Txn.commit
  split
  · exact .move _ _ (.syncRoot (.move _ _ (.syncRoot .nil)))
  · exact .unlink _ (.syncRoot (.unlink _ (.syncRoot .nil)))

omit [DecidableEq V] in
theorem tidy_cleanup (x : Txn V β) (order : List (Name V)) : Tidy (x.cleanup order) := by
  unfold Txn.cleanup
  induction order with
  | nil => exact .unlink _ (.unlink _ (.syncRoot .nil))
  | cons n order ih => exact .unlink n ih

end Tidy

/-! ### Each part of an operation ends with a sync -/

section Parts

variable {a : List (FileStep V β)} {fs : FileSystem (Name V) (Node V β)} {x : Txn V β} {n : Name V}

/-- After a sync, what stands in the voices directory is there for good. -/
theorem only_contents (hsynced : ∃ b, a = b ++ [.syncRoot]) (hn : n.inRoot = true) :
    (runAll fs a).Only n fun o => o = (runAll fs a).contents n := by
  obtain ⟨b, rfl⟩ := hsynced
  rw [runAll_append]
  refine FileSystem.only_sync hn ?_
  exact (congrFun ((runAll fs b).contents_sync Name.inRoot) n).symm

omit [DecidableEq V] in
theorem synced_prep (x : Txn V β) : ∃ b, x.prep = b ++ [.syncRoot] :=
  ⟨.mkdir x.token :: (x.backups ++ x.news), by simp [Txn.prep]⟩

omit [DecidableEq V] in
theorem synced_arm (x : Txn V β) : ∃ b, x.arm = b ++ [.syncRoot] := ⟨_ :: _ :: [], rfl⟩

omit [DecidableEq V] in
theorem synced_commit (x : Txn V β) : ∃ b, x.commit = b ++ [.syncRoot] := by
  unfold Txn.commit
  split
  · exact ⟨_ :: _ :: _ :: [], rfl⟩
  · exact ⟨_ :: _ :: _ :: [], rfl⟩

omit [DecidableEq V] in
theorem synced_cleanup (x : Txn V β) (order : List (Name V)) :
    ∃ b, x.cleanup order = b ++ [.syncRoot] :=
  ⟨order.map .unlink ++ [.unlink (.tx x.token), .unlink (.journal x.token)], by simp [Txn.cleanup]⟩

theorem runAll_writeFile (n : Name V) (y : Node V β) : runAll fs (writeFile n y) = fs.create n y :=
  fs.fill_create n .torn y

/-- The state an operation begins in, on whatever may be lost. -/
structure Begun (fs : FileSystem (Name V) (Node V β)) (x : Txn V β) : Prop where
  valid : x.Valid
  json : fs.Only (.json x.voice) fun o => o = x.old.map Prod.fst
  npz : fs.Only (.npz x.voice) fun o => o = x.old.map Prod.snd
  journals : ∀ t, fs.Only (.journal t) fun o => o = none
  fresh : ∀ n : Name V, n.token = some x.token → fs.Only n fun o => o = none

omit [DecidableEq V] in
theorem not_touched_prep (hn : n.token ≠ some x.token ∨ n = .journal x.token) {P : Prop} :
    ∀ s ∈ x.prep, n ∈ s.touches → s = .unlink n ∧ P := by
  intro s hs hmem
  obtain ⟨htoken, hne⟩ := own_prep x s hs n hmem
  rcases hn with h | h
  · exact absurd htoken h
  · exact absurd h hne

/-- The entries of the copies may be lost, and nothing else can be there in their place. -/
theorem backed_prep (h : Begun fs x) {p : Pair V β} (hold : x.old = some p) :
    ((runAll fs x.prep).Only (.oldJson x.token) fun o => o = none ∨ o = some p.1) ∧
      (runAll fs x.prep).Only (.oldNpz x.token) fun o => o = none ∨ o = some p.2 := by
  have hprep : runAll fs x.prep = runAll (((fs.create (.tx x.token) .dir).create
      (.oldJson x.token) p.1).create (.oldNpz x.token) p.2) (x.news ++ [.syncRoot]) := by
    have hbackups : runAll (fs.create (.tx x.token) .dir) x.backups =
        ((fs.create (.tx x.token) .dir).create (.oldJson x.token) p.1).create
          (.oldNpz x.token) p.2 := by
      rw [Txn.backups, hold]
      show runAll _ (writeFile _ p.1 ++ writeFile _ p.2) = _
      rw [runAll_append, runAll_writeFile, runAll_writeFile]
    rw [Txn.prep, runAll_cons, runAll_append, ← hbackups]
    rfl
  have htidy : Tidy (x.news ++ [.syncRoot]) := by
    refine Tidy.append ?_ (.syncRoot .nil)
    unfold Txn.news
    split
    · exact .write _ _ (.write _ _ .nil)
    · exact .nil
  have hnot : ∀ m : Name V, m = .oldJson x.token ∨ m = .oldNpz x.token → ∀ P : Prop,
      ∀ s ∈ x.news ++ [.syncRoot], m ∈ s.touches → s = .unlink m ∧ P := by
    intro m hm P s hs hmem
    have hnews : m = .newJson x.token ∨ m = .newNpz x.token := by
      unfold Txn.news at hs
      cases hresult : x.result <;> rw [hresult] at hs <;> simp [writeFile] at hs
      · subst hs
        cases hmem
      · rcases hs with rfl | rfl | rfl | rfl | rfl <;> simp [FileStep.touches] at hmem <;> simp [hmem]
    rcases hm with rfl | rfl <;> rcases hnews with h | h <;> cases h
  rw [hprep]
  constructor
  · refine htidy.only ?_ (hnot _ (.inl rfl) _)
    refine FileSystem.Only.create (FileSystem.Only.create (FileSystem.Only.create ?_ ?_) ?_) ?_
    · exact (h.fresh _ rfl).mono fun _ => .inl
    · intro hname
      cases hname
    · exact fun _ => .inr rfl
    · intro hname
      cases hname
  · refine htidy.only ?_ (hnot _ (.inr rfl) _)
    refine FileSystem.Only.create (FileSystem.Only.create (FileSystem.Only.create ?_ ?_) ?_) ?_
    · exact (h.fresh _ rfl).mono fun _ => .inl
    · intro hname
      cases hname
    · intro hname
      cases hname
    · exact fun _ => .inr rfl

end Parts

/-! ### What may be left -/

section Left

variable {d : Disk V β} {fs : FileSystem (Name V) (Node V β)} {x : Txn V β} {k : ℕ}

/-- The transaction directory is filled. -/
structure Filled (fs : FileSystem (Name V) (Node V β)) (x : Txn V β) : Prop where
  json : fs.Only (.json x.voice) fun o => o = x.old.map Prod.fst
  npz : fs.Only (.npz x.voice) fun o => o = x.old.map Prod.snd
  journal : fs.Only (.journal x.token) fun o => o = none
  tx : fs.Only (.tx x.token) fun o => o = some .dir
  backed : ∀ p, x.old = some p →
    (fs.Only (.oldJson x.token) fun o => o = none ∨ o = some p.1) ∧
      fs.Only (.oldNpz x.token) fun o => o = none ∨ o = some p.2
  news : ∀ p, x.result = some p →
    fs.contents (.newJson x.token) = some p.1 ∧ fs.contents (.newNpz x.token) = some p.2

/-- The journal is written. -/
structure Journaled (fs : FileSystem (Name V) (Node V β)) (x : Txn V β) : Prop where
  json : fs.Only (.json x.voice) fun o => o = x.old.map Prod.fst
  npz : fs.Only (.npz x.voice) fun o => o = x.old.map Prod.snd
  journal : fs.Only (.journal x.token) fun o => o = some x.record
  tx : fs.Only (.tx x.token) fun o => o = some .dir
  backed : ∀ p, x.old = some p →
    (fs.Only (.oldJson x.token) fun o => o = none ∨ o = some p.1) ∧
      fs.Only (.oldNpz x.token) fun o => o = none ∨ o = some p.2
  news : ∀ p, x.result = some p →
    fs.contents (.newJson x.token) = some p.1 ∧ fs.contents (.newNpz x.token) = some p.2

/-- The pair is changed. -/
structure Changed (fs : FileSystem (Name V) (Node V β)) (x : Txn V β) : Prop where
  json : fs.Only (.json x.voice) fun o => o = x.result.map Prod.fst
  npz : fs.Only (.npz x.voice) fun o => o = x.result.map Prod.snd
  journal : fs.Only (.journal x.token) fun o => o = some x.record

theorem filled_prep (h : Begun fs x) : Filled (runAll fs x.prep) x := by
  have hprepared : Prepared (runAll fs x.prep).contents x := by
    rw [(tidy_prep x).contents]
    exact prepared_prep fs.contents x
  refine ⟨?_, ?_, ?_, ?_, fun p => backed_prep h, hprepared.news⟩
  · exact (tidy_prep x).only h.json (not_touched_prep (.inl (by rintro ⟨⟩)))
  · exact (tidy_prep x).only h.npz (not_touched_prep (.inl (by rintro ⟨⟩)))
  · exact (tidy_prep x).only (h.journals _) (not_touched_prep (.inr rfl))
  · exact (only_contents (synced_prep x) rfl).mono fun o ho => ho.trans hprepared.tx

theorem left_prep (h : Begun fs x) (hd : ∀ n, (runAll fs (x.prep.take k)).May n (d n)) :
    Left d x := by
  have hjournal : d (.journal x.token) = none :=
    (tidy_prep x).only_take (h.journals _) (not_touched_prep (.inr rfl)) k _ (hd _)
  refine .quiet ⟨?_, ?_⟩ ?_
  · exact (tidy_prep x).only_take h.json (not_touched_prep (.inl (by rintro ⟨⟩))) k _ (hd _)
  · exact (tidy_prep x).only_take h.npz (not_touched_prep (.inl (by rintro ⟨⟩))) k _ (hd _)
  · rw [hjournal]
    exact nofun

omit [DecidableEq V] in
theorem not_touched_arm {n : Name V} (hn : n ≠ .journal x.token) {P : Prop} :
    ∀ s ∈ x.arm, n ∈ s.touches → s = .unlink n ∧ P :=
  fun _ hs hmem => absurd (Txn.touches_arm hs hmem) hn

theorem backed_of_may (h : ∀ p, x.old = some p →
    (fs.Only (.oldJson x.token) fun o => o = none ∨ o = some p.1) ∧
      fs.Only (.oldNpz x.token) fun o => o = none ∨ o = some p.2)
    (hd : ∀ n, fs.May n (d n)) : Backed d x :=
  fun p hp => ⟨(h p hp).1 _ (hd _), (h p hp).2 _ (hd _)⟩

theorem journaled_arm (h : Filled fs x) : Journaled (runAll fs x.arm) x := by
  have hcontents : (runAll fs x.arm).contents = applyAll fs.contents x.arm := (tidy_arm x).contents
  have hkeep : ∀ {n : Name V} {P : Option (Node V β) → Prop}, fs.Only n P →
      n ≠ .journal x.token → (runAll fs x.arm).Only n P :=
    fun honly hn => (tidy_arm x).only honly (not_touched_arm hn)
  refine ⟨hkeep h.json nofun, hkeep h.npz nofun, ?_, hkeep h.tx nofun,
    fun p hp => ⟨hkeep (h.backed p hp).1 nofun, hkeep (h.backed p hp).2 nofun⟩, fun p hp => ?_⟩
  · refine (only_contents (synced_arm x) rfl).mono fun o ho => ho.trans ?_
    rw [hcontents]
    exact Function.update_self _ _ _
  · rw [hcontents]
    have hsame : ∀ n : Name V, n ≠ .journal x.token → applyAll fs.contents x.arm n = fs.contents n := by
      intro n hn
      show Function.update (Function.update fs.contents _ _) _ _ n = _
      rw [Function.update_of_ne hn, Function.update_of_ne hn]
    rw [hsame (.newJson _) nofun, hsame (.newNpz _) nofun]
    exact h.news p hp

/-- While the journal is written it is not there, torn or whole. -/
theorem left_arm (h : Filled fs x) (hd : ∀ n, (runAll fs (x.arm.take k)).May n (d n)) :
    Left d x := by
  have hkeep : ∀ {n : Name V} {P : Option (Node V β) → Prop}, fs.Only n P →
      n ≠ .journal x.token → (runAll fs (x.arm.take k)).Only n P :=
    fun honly hn => (tidy_arm x).only_take honly (not_touched_arm hn) k
  have hshows : Shows d x.voice x.old :=
    ⟨hkeep h.json nofun _ (hd _), hkeep h.npz nofun _ (hd _)⟩
  have hbacked : Backed d x :=
    backed_of_may (fun p hp => ⟨hkeep (h.backed p hp).1 nofun, hkeep (h.backed p hp).2 nofun⟩) hd
  have hjournal : (runAll fs (x.arm.take k)).Only (.journal x.token) fun o =>
      (o = none ∨ o = some .torn) ∨ o = some x.record := by
    have hnone := h.journal.mono (Q := fun o => (o = none ∨ o = some .torn) ∨ o = some x.record)
      fun _ ho => .inl (.inl ho)
    match k with
    | 0 => exact hnone
    | 1 => exact hnone.create fun _ => .inl (.inr rfl)
    | 2 =>
      show ((fs.create (.journal x.token) .torn).fill (.journal x.token) x.record).Only _ _
      rw [fs.fill_create]
      exact hnone.create fun _ => .inr rfl
    | k + 3 =>
      rw [show x.arm.take (k + 3) = x.arm from List.take_of_length_le (Nat.le_add_left 3 k)]
      show (((fs.create (.journal x.token) .torn).fill (.journal x.token) x.record).sync _).Only _ _
      rw [fs.fill_create]
      exact (hnone.create fun _ => .inr rfl).sync _
  rcases hjournal _ (hd _) with hnot | hwhole
  · refine .quiet hshows ?_
    rcases hnot with h | h <;> rw [h] <;> exact nofun
  · exact .before hshows hbacked hwhole

/-- In a write the payload is uncertain first and the metadata then. -/
theorem files_write (h : Journaled fs x) {bodies : β × β} (hnew : x.new = some bodies)
    {p : Pair V β} (hresult : x.result = some p) (k : ℕ) :
    ((runAll fs (x.commit.take k)).Only (.json x.voice) fun o => o = x.old.map Prod.fst) ∧
        ((runAll fs (x.commit.take k)).Only (.npz x.voice) fun o =>
          o = x.old.map Prod.snd ∨ o = some p.2) ∨
      ((runAll fs (x.commit.take k)).Only (.json x.voice) fun o =>
          o = x.old.map Prod.fst ∨ o = some p.1) ∧
        (runAll fs (x.commit.take k)).Only (.npz x.voice) fun o => o = some p.2 := by
  obtain ⟨hnewJson, hnewNpz⟩ := h.news p hresult
  -- the payload
  have hjson₁ : (fs.move (.newNpz x.token) (.npz x.voice)).Only (.json x.voice) fun o =>
      o = x.old.map Prod.fst := h.json.move nofun nofun
  have hnpz₁ : (fs.move (.newNpz x.token) (.npz x.voice)).Only (.npz x.voice) fun o =>
      o = x.old.map Prod.snd ∨ o = some p.2 :=
    (h.npz.mono fun _ => .inl).move (fun _ => .inr hnewNpz) nofun
  -- which is there for good after the sync
  have hnpz₂ : ((fs.move (.newNpz x.token) (.npz x.voice)).sync Name.inRoot).Only (.npz x.voice)
      fun o => o = some p.2 := by
    refine FileSystem.only_sync rfl ?_
    simp [fs.contents_move, hnewNpz]
  have hcontents₂ : ((fs.move (.newNpz x.token) (.npz x.voice)).sync Name.inRoot).contents
      (.newJson x.token) = some p.1 := by
    simp [FileSystem.contents_sync, fs.contents_move, hnewJson]
  -- the metadata
  have hjson₃ : (((fs.move (.newNpz x.token) (.npz x.voice)).sync Name.inRoot).move
      (.newJson x.token) (.json x.voice)).Only (.json x.voice) fun o =>
        o = x.old.map Prod.fst ∨ o = some p.1 :=
    ((hjson₁.sync Name.inRoot).mono fun _ => .inl).move (fun _ => .inr hcontents₂) nofun
  have hnpz₃ : (((fs.move (.newNpz x.token) (.npz x.voice)).sync Name.inRoot).move
      (.newJson x.token) (.json x.voice)).Only (.npz x.voice) fun o => o = some p.2 :=
    hnpz₂.move nofun nofun
  match k with
  | 0 => exact .inl ⟨h.json, h.npz.mono fun _ => .inl⟩
  | 1 =>
    rw [Txn.commit, hnew]
    exact .inl ⟨hjson₁, hnpz₁⟩
  | 2 =>
    rw [Txn.commit, hnew]
    exact .inl ⟨hjson₁.sync _, hnpz₁.sync _⟩
  | 3 =>
    rw [Txn.commit, hnew]
    exact .inr ⟨hjson₃, hnpz₃⟩
  | k + 4 =>
    rw [Txn.commit, hnew, List.take_of_length_le (Nat.le_add_left 4 k)]
    exact .inr ⟨hjson₃.sync _, hnpz₃.sync _⟩

/-- In a delete it is the other way round. -/
theorem files_delete (h : Journaled fs x) (hnew : x.new = none) (k : ℕ) :
    ((runAll fs (x.commit.take k)).Only (.json x.voice) fun o =>
          o = x.old.map Prod.fst ∨ o = none) ∧
        ((runAll fs (x.commit.take k)).Only (.npz x.voice) fun o => o = x.old.map Prod.snd) ∨
      ((runAll fs (x.commit.take k)).Only (.json x.voice) fun o => o = none) ∧
        (runAll fs (x.commit.take k)).Only (.npz x.voice) fun o =>
          o = x.old.map Prod.snd ∨ o = none := by
  have hjson₁ : (fs.unlink (.json x.voice)).Only (.json x.voice) fun o =>
      o = x.old.map Prod.fst ∨ o = none := (h.json.mono fun _ => .inl).unlink fun _ => .inr rfl
  have hnpz₁ : (fs.unlink (.json x.voice)).Only (.npz x.voice) fun o =>
      o = x.old.map Prod.snd := h.npz.unlink nofun
  have hjson₂ : ((fs.unlink (.json x.voice)).sync Name.inRoot).Only (.json x.voice) fun o =>
      o = none := by
    refine FileSystem.only_sync rfl ?_
    rw [fs.contents_unlink, Function.update_self]
  have hjson₃ : (((fs.unlink (.json x.voice)).sync Name.inRoot).unlink (.npz x.voice)).Only
      (.json x.voice) fun o => o = none := hjson₂.unlink nofun
  have hnpz₃ : (((fs.unlink (.json x.voice)).sync Name.inRoot).unlink (.npz x.voice)).Only
      (.npz x.voice) fun o => o = x.old.map Prod.snd ∨ o = none :=
    ((hnpz₁.sync Name.inRoot).mono fun _ => .inl).unlink fun _ => .inr rfl
  match k with
  | 0 => exact .inl ⟨h.json.mono fun _ => .inl, h.npz⟩
  | 1 =>
    rw [Txn.commit, hnew]
    exact .inl ⟨hjson₁, hnpz₁⟩
  | 2 =>
    rw [Txn.commit, hnew]
    exact .inl ⟨hjson₁.sync _, hnpz₁.sync _⟩
  | 3 =>
    rw [Txn.commit, hnew]
    exact .inr ⟨hjson₃, hnpz₃⟩
  | k + 4 =>
    rw [Txn.commit, hnew, List.take_of_length_le (Nat.le_add_left 4 k)]
    exact .inr ⟨hjson₃.sync _, hnpz₃.sync _⟩

/-- Of the two files only one is uncertain at a time, payload first in a write, metadata
first in a delete. -/
theorem left_commit (h : Journaled fs x) (hd : ∀ n, (runAll fs (x.commit.take k)).May n (d n)) :
    Left d x := by
  have hnot : ∀ {n : Name V} {P : Prop}, (n ≠ .newJson x.token ∧ n ≠ .newNpz x.token) →
      (n ≠ .json x.voice ∧ n ≠ .npz x.voice) → ∀ s ∈ x.commit, n ∈ s.touches → s = .unlink n ∧ P := by
    intro n P hnews hfiles s hs hmem
    rcases Txn.touches_commit hs hmem with h | h | h | h
    · exact absurd h hnews.1
    · exact absurd h hnews.2
    · exact absurd h hfiles.1
    · exact absurd h hfiles.2
  have hkeep : ∀ {n : Name V} {P : Option (Node V β) → Prop}, fs.Only n P →
      (n ≠ .newJson x.token ∧ n ≠ .newNpz x.token) → (n ≠ .json x.voice ∧ n ≠ .npz x.voice) →
      (runAll fs (x.commit.take k)).Only n P :=
    fun honly hnews hfiles => (tidy_commit x).only_take honly (hnot hnews hfiles) k
  have hjournal := hkeep h.journal ⟨nofun, nofun⟩ ⟨nofun, nofun⟩ _ (hd _)
  have htx := hkeep h.tx ⟨nofun, nofun⟩ ⟨nofun, nofun⟩ _ (hd _)
  have hbacked : Backed d x := backed_of_may (fun p hp =>
    ⟨hkeep (h.backed p hp).1 ⟨nofun, nofun⟩ ⟨nofun, nofun⟩,
      hkeep (h.backed p hp).2 ⟨nofun, nofun⟩ ⟨nofun, nofun⟩⟩) hd
  cases hnew : x.new with
  | some bodies =>
    have hresult : x.result = some (.profile (some x.token) bodies.1,
      .profile (some x.token) bodies.2) := by rw [Txn.result, hnew, Option.map_some]
    rcases files_write h hnew hresult k with ⟨hjson, hnpz⟩ | ⟨hjson, hnpz⟩
    · rcases hnpz _ (hd _) with hold | hreplaced
      · exact .before ⟨hjson _ (hd _), hold⟩ hbacked hjournal
      · refine .during ?_ hbacked htx hjournal
        rw [Mixed, hresult]
        exact ⟨hjson _ (hd _), hreplaced⟩
    · rcases hjson _ (hd _) with hold | hreplaced
      · refine .during ?_ hbacked htx hjournal
        rw [Mixed, hresult]
        exact ⟨hold, hnpz _ (hd _)⟩
      · refine .after ?_ (.inl hjournal)
        rw [hresult]
        exact ⟨hreplaced, hnpz _ (hd _)⟩
  | none =>
    have hresult : x.result = none := by rw [Txn.result, hnew, Option.map_none]
    rcases files_delete h hnew k with ⟨hjson, hnpz⟩ | ⟨hjson, hnpz⟩
    · rcases hjson _ (hd _) with hold | hgone
      · exact .before ⟨hold, hnpz _ (hd _)⟩ hbacked hjournal
      · refine .during ?_ hbacked htx hjournal
        rw [Mixed, hresult]
        exact ⟨hgone, hnpz _ (hd _)⟩
    · rcases hnpz _ (hd _) with hold | hgone
      · refine .during ?_ hbacked htx hjournal
        rw [Mixed, hresult]
        exact ⟨hjson _ (hd _), hold⟩
      · refine .after ?_ (.inl hjournal)
        rw [hresult]
        exact ⟨hjson _ (hd _), hgone⟩

/-- After the commit the new pair is there for good. -/
theorem changed_commit (h : Journaled fs x) : Changed (runAll fs x.commit) x := by
  have hcontents : (runAll fs x.commit).contents = applyAll fs.contents x.commit :=
    (tidy_commit x).contents
  have hshows : Shows (applyAll fs.contents x.commit) x.voice x.result := by
    cases hnew : x.new with
    | some bodies =>
      have hresult : x.result = some (.profile (some x.token) bodies.1,
        .profile (some x.token) bodies.2) := by rw [Txn.result, hnew, Option.map_some]
      obtain ⟨hnewJson, hnewNpz⟩ := h.news _ hresult
      simp [Shows, Txn.commit, hnew, hresult, FileStep.apply, hnewJson, hnewNpz]
    | none =>
      have hresult : x.result = none := by rw [Txn.result, hnew, Option.map_none]
      simp [Shows, Txn.commit, hnew, hresult, FileStep.apply]
  refine ⟨?_, ?_, ?_⟩
  · refine (only_contents (synced_commit x) rfl).mono fun o ho => ho.trans ?_
    rw [hcontents]
    exact hshows.1
  · refine (only_contents (synced_commit x) rfl).mono fun o ho => ho.trans ?_
    rw [hcontents]
    exact hshows.2
  · refine (tidy_commit x).only h.journal fun s hs hmem => ?_
    rcases Txn.touches_commit hs hmem with h | h | h | h <;> cases h

omit [DecidableEq V] in
/-- A cleanup removes names of its transaction. -/
theorem touches_cleanup {order : List (Name V)} (horder : ∀ n ∈ order, n ∈ entries x.token)
    {s : FileStep V β} (hs : s ∈ x.cleanup order) {n : Name V} (hn : n ∈ s.touches) :
    s = .unlink n ∧ n.token = some x.token := by
  simp only [Txn.cleanup, List.mem_append, List.mem_map, List.mem_cons, List.not_mem_nil,
    or_false] at hs
  rcases hs with ⟨m, hm, rfl⟩ | rfl | rfl | rfl
  · cases List.mem_singleton.mp hn
    refine ⟨rfl, ?_⟩
    have hentry := horder _ hm
    simp only [entries, List.mem_cons, List.not_mem_nil, or_false] at hentry
    rcases hentry with rfl | rfl | rfl | rfl <;> rfl
  · cases List.mem_singleton.mp hn
    exact ⟨rfl, rfl⟩
  · cases List.mem_singleton.mp hn
    exact ⟨rfl, rfl⟩
  · cases hn

theorem left_cleanup {order : List (Name V)} (horder : ∀ n ∈ order, n ∈ entries x.token)
    (h : Changed fs x) (hd : ∀ n, (runAll fs ((x.cleanup order).take k)).May n (d n)) :
    Left d x := by
  have hfile : ∀ {n : Name V} {P : Option (Node V β) → Prop}, fs.Only n P → n.token = none →
      (runAll fs ((x.cleanup order).take k)).Only n P := by
    intro n P honly hn
    refine (tidy_cleanup x order).only_take honly (fun s hs hmem => ?_) k
    have := (touches_cleanup horder hs hmem).2
    rw [hn] at this
    cases this
  refine .after ⟨hfile h.json rfl _ (hd _), hfile h.npz rfl _ (hd _)⟩ ?_
  have hjournal : (runAll fs ((x.cleanup order).take k)).Only (.journal x.token) fun o =>
      o = some x.record ∨ o = none :=
    (tidy_cleanup x order).only_take (h.journal.mono fun _ => .inl)
      (fun s hs hmem => ⟨(touches_cleanup horder hs hmem).1, .inr rfl⟩) k
  exact hjournal _ (hd _)

omit [DecidableEq V] in
/-- Any part of the steps is a part of the first ones, or all of them and a part of the
others. -/
theorem take_append_cases (a b : List (FileStep V β)) (k : ℕ) :
    (∃ j, (a ++ b).take k = a.take j) ∨ ∃ j, (a ++ b).take k = a ++ b.take j := by
  rcases Nat.le_total k a.length with hk | hk
  · exact .inl ⟨k, List.take_append_of_le_length hk⟩
  · refine .inr ⟨k - a.length, ?_⟩
    rw [List.take_append, List.take_of_length_le hk]

/-- **What a loss of power can leave**, wherever in the operation it comes. -/
theorem left_steps {order : List (Name V)} (horder : ∀ n ∈ order, n ∈ entries x.token)
    (h : Begun fs x) (hd : ∀ n, (runAll fs ((x.steps order).take k)).May n (d n)) : Left d x := by
  have hfilled := filled_prep h
  have hjournaled := journaled_arm hfilled
  have hchanged := changed_commit hjournaled
  unfold Txn.steps at hd
  rcases take_append_cases x.prep (x.arm ++ (x.commit ++ x.cleanup order)) k with
    ⟨j, hj⟩ | ⟨j, hj⟩
  · rw [hj] at hd
    exact left_prep h hd
  rw [hj, runAll_append] at hd
  rcases take_append_cases x.arm (x.commit ++ x.cleanup order) j with ⟨i, hi⟩ | ⟨i, hi⟩
  · rw [hi] at hd
    exact left_arm hfilled hd
  rw [hi, runAll_append] at hd
  rcases take_append_cases x.commit (x.cleanup order) i with ⟨m, hm⟩ | ⟨m, hm⟩
  · rw [hm] at hd
    exact left_commit hjournaled hd
  · rw [hm, runAll_append] at hd
    exact left_cleanup horder hchanged hd

omit [DecidableEq V] in
theorem tidy_steps (x : Txn V β) (order : List (Name V)) : Tidy (x.steps order) :=
  (tidy_prep x).append ((tidy_arm x).append ((tidy_commit x).append (tidy_cleanup x order)))

omit [DecidableEq V] in
/-- An operation is about its own transaction and its own voice. -/
theorem touches_steps {order : List (Name V)} (horder : ∀ n ∈ order, n ∈ entries x.token)
    {s : FileStep V β} (hs : s ∈ x.steps order) : x.Touches s := by
  intro n hn
  simp only [Txn.steps, List.mem_append] at hs
  rcases hs with hs | hs | hs | hs
  · exact .inl (own_prep x s hs n hn).1
  · rw [Txn.touches_arm hs hn]
    exact .inl rfl
  · rcases Txn.touches_commit hs hn with rfl | rfl | rfl | rfl
    · exact .inl rfl
    · exact .inl rfl
    · exact .inr (.inl rfl)
    · exact .inr (.inr rfl)
  · exact .inl (touches_cleanup horder hs hn).2

/-- What is not about the operation stays as it was. -/
theorem only_steps {order : List (Name V)} (horder : ∀ n ∈ order, n ∈ entries x.token) {n : Name V}
    (hn : ¬ (n.token = some x.token ∨ n = .json x.voice ∨ n = .npz x.voice))
    {P : Option (Node V β) → Prop} (honly : fs.Only n P) (k : ℕ) :
    (runAll fs ((x.steps order).take k)).Only n P :=
  (tidy_steps x order).only_take honly
    (fun _ hs hmem => absurd (touches_steps horder hs n hmem) hn) k

end Left

/-! ### Histories -/

section Histories

variable {fs : FileSystem (Name V) (Node V β)} {tokens : List Token}

/-- Between operations: every voice is a pair or nothing, there is no journal, and nothing
stands under a token that has not been drawn. -/
structure Calm (fs : FileSystem (Name V) (Node V β)) (tokens : List Token) : Prop where
  voice : ∀ v, ∃ pair : Option (Pair V β), (fs.Only (.json v) fun o => o = pair.map Prod.fst) ∧
    fs.Only (.npz v) fun o => o = pair.map Prod.snd
  journals : ∀ t, fs.Only (.journal t) fun o => o = none
  fresh : ∀ (n : Name V) t, n.token = some t → t ∉ tokens → fs.Only n fun o => o = none

/-- A directory in which everything is durable, every voice is a pair or nothing, and there
is nothing else. -/
structure Settled (fs : FileSystem (Name V) (Node V β)) : Prop where
  pending : fs.pending = []
  voice : ∀ v, ∃ pair, Shows fs.contents v pair
  private_none : ∀ n : Name V, n.token.isSome = true → fs.contents n = none

theorem Settled.calm (h : Settled fs) : Calm fs [] := by
  have honly : ∀ {n : Name V} {o : Option (Node V β)}, fs.contents n = o →
      fs.Only n fun o' => o' = o := fun ho => FileSystem.only_of_pending_nil h.pending ho
  refine ⟨fun v => ?_, fun t => honly (h.private_none _ rfl), fun n t hn _ => ?_⟩
  · obtain ⟨pair, hjson, hnpz⟩ := h.voice v
    exact ⟨pair, honly hjson, honly hnpz⟩
  · exact honly (h.private_none n (by rw [hn]; rfl))

variable [DecidableEq β]

/-- The histories of completed operations, with the tokens they have drawn. -/
inductive Completed (start : FileSystem (Name V) (Node V β)) :
    FileSystem (Name V) (Node V β) → List Token → Prop
  | start : Completed start start []
  | operation {fs : FileSystem (Name V) (Node V β)} {tokens : List Token} (h : Completed start fs tokens)
    (x : Txn V β) (order : List (Name V)) (hbegins : begins fs.contents tokens x = true)
    (horder : order.Perm x.left) : Completed start (runAll fs (x.steps order)) (x.token :: tokens)

omit [DecidableEq V] [DecidableEq β] in
theorem mem_entries_of_left {x : Txn V β} {order : List (Name V)} (horder : order.Perm x.left) :
    ∀ n ∈ order, n ∈ entries x.token := by
  intro n hn
  have hleft := horder.mem_iff.mp hn
  unfold Txn.left at hleft
  split at hleft
  · simp only [List.mem_cons, List.not_mem_nil, or_false] at hleft
    rcases hleft with rfl | rfl <;> simp [entries]
  · cases hleft

/-- An operation begins where the last one has ended. -/
theorem Calm.begun (h : Calm fs tokens) {x : Txn V β} (hbegins : begins fs.contents tokens x = true) :
    Begun fs x := by
  obtain ⟨hvalid, hshown, hfresh⟩ := valid_of_begins hbegins
  obtain ⟨pair, hjson, hnpz⟩ := h.voice x.voice
  have hpair : x.old = pair := by
    rw [← hshown]
    exact Shows.shown ⟨hjson.contents, hnpz.contents⟩
  exact ⟨hvalid, hpair ▸ hjson, hpair ▸ hnpz, h.journals, fun n hn => h.fresh n _ hn hfresh⟩

/-- A completed operation leaves its pair and no journal. -/
theorem Calm.completed (h : Calm fs tokens) {x : Txn V β} {order : List (Name V)}
    (hbegins : begins fs.contents tokens x = true) (horder : order.Perm x.left) :
    Calm (runAll fs (x.steps order)) (x.token :: tokens) := by
  have hentries := mem_entries_of_left horder
  have hkeep : ∀ {n : Name V} {P : Option (Node V β) → Prop}, fs.Only n P →
      ¬ (n.token = some x.token ∨ n = .json x.voice ∨ n = .npz x.voice) →
      (runAll fs (x.steps order)).Only n P := by
    intro n P honly hn
    have := only_steps hentries hn honly (x.steps order).length
    rwa [List.take_length] at this
  have hbegun := h.begun hbegins
  have hchanged := changed_commit (journaled_arm (filled_prep hbegun))
  have hsteps : runAll fs (x.steps order) =
      runAll (runAll (runAll (runAll fs x.prep) x.arm) x.commit) (x.cleanup order) := by
    rw [Txn.steps, runAll_append, runAll_append, runAll_append]
  have hfile : ∀ {n : Name V} {P : Option (Node V β) → Prop},
      (runAll (runAll (runAll fs x.prep) x.arm) x.commit).Only n P → n.token = none →
      (runAll fs (x.steps order)).Only n P := by
    intro n P honly hn
    rw [hsteps]
    refine (tidy_cleanup x order).only honly fun s hs hmem => ?_
    have htoken := (touches_cleanup hentries hs hmem).2
    rw [hn] at htoken
    cases htoken
  refine ⟨fun v => ?_, fun t => ?_, fun n t hn ht => ?_⟩
  · by_cases hv : v = x.voice
    · subst hv
      exact ⟨x.result, hfile hchanged.json rfl, hfile hchanged.npz rfl⟩
    · obtain ⟨pair, hjson, hnpz⟩ := h.voice v
      refine ⟨pair, hkeep hjson ?_, hkeep hnpz ?_⟩
      · rintro (h | h | h)
        · cases h
        · exact hv (Name.json.inj h)
        · cases h
      · rintro (h | h | h)
        · cases h
        · cases h
        · exact hv (Name.npz.inj h)
  · by_cases ht : t = x.token
    · subst ht
      rw [hsteps]
      refine (only_contents (synced_cleanup x order) rfl).mono fun o ho => ho.trans ?_
      rw [(tidy_cleanup x order).contents, Txn.cleanup, applyAll, List.foldl_append]
      exact Function.update_self _ _ _
    · refine hkeep (h.journals t) ?_
      rintro (h | h | h)
      · exact ht (Option.some.inj h)
      · cases h
      · cases h
  · rw [List.mem_cons, not_or] at ht
    refine hkeep (h.fresh n t hn ht.2) ?_
    rintro (h | rfl | rfl)
    · exact ht.1 (Option.some.inj (hn.symm.trans h))
    · cases hn
    · cases hn

theorem Completed.calm {start : FileSystem (Name V) (Node V β)} (hstart : Settled start)
    (h : Completed start fs tokens) : Calm fs tokens := by
  induction h with
  | start => exact hstart.calm
  | operation _ x order hbegins horder ih => exact ih.completed hbegins horder

/-- What the first recovery finds: the entries that survived, or nothing where the voices
directory itself is lost. -/
def afterLoss (fs : FileSystem (Name V) (Node V β)) (e : Name V → Option ℕ) (root : Bool) :
    Disk V β :=
  if root then fs.view e else fun _ => none

/-- **When the first recovery leaves the old pair or the new one.** Power is lost after any
part of an operation that follows any history of completed ones, with any of the pending
changes kept; the voices directory itself, which is never synced into the one above, may be
lost too. The recovery leaves one of the two pairs if and only if, with the directory, there
was no old pair, or both or none of the two files are changed, or both copies are kept; and
without the directory, if one of the two pairs is that there is none. -/
theorem power_loss_iff {start : FileSystem (Name V) (Node V β)} (hstart : Settled start)
    (h : Completed start fs tokens) {x : Txn V β} {order : List (Name V)}
    (hbegins : begins fs.contents tokens x = true) (horder : order.Perm x.left) (k : ℕ)
    {e : Name V → Option ℕ} (he : (runAll fs ((x.steps order).take k)).Survives e) (root : Bool) :
    let d := afterLoss (runAll fs ((x.steps order).take k)) e root
    (∃ pair, (pair = x.old ∨ pair = x.result) ∧
        Shows (recoverTransactions d (x.token :: tokens)) x.voice pair) ↔
      if root then ¬ (x.old.isSome = true ∧ Mixed d x ∧ hasBackups d x.token = false)
      else x.old = none ∨ x.result = none := by
  have hcalm := h.calm hstart
  have hbegun := hcalm.begun hbegins
  have hfresh := (valid_of_begins hbegins).2.2
  have hentries := mem_entries_of_left horder
  intro d
  cases root with
  | false =>
    have hshows : ∀ pair, Shows (recoverTransactions d (x.token :: tokens)) x.voice pair ↔
        pair = none := by
      intro pair
      rw [shows_recoverTransactions fun _ _ => rfl]
      cases pair with
      | none => exact iff_of_true ⟨rfl, rfl⟩ rfl
      | some p => exact iff_of_false (fun h => nomatch h.1) nofun
    simp only [hshows, Bool.false_eq_true, if_false]
    constructor
    · rintro ⟨pair, hpair | hpair, rfl⟩
      · exact .inl hpair.symm
      · exact .inr hpair.symm
    · rintro (hnone | hnone)
      · exact ⟨none, .inl hnone.symm, rfl⟩
      · exact ⟨none, .inr hnone.symm, rfl⟩
  | true =>
    have hmay : ∀ n, (runAll fs ((x.steps order).take k)).May n (d n) := fun n =>
      FileSystem.may_of_survives _ he n
    have hothers : ∀ t ∈ tokens, d (.journal t) = none := by
      intro t ht
      refine only_steps hentries ?_ (hcalm.journals t) k _ (hmay _)
      rintro (h | h | h)
      · cases Option.some.inj h
        exact hfresh ht
      · cases h
      · cases h
    simp only [shows_recoverTransactions hothers, if_true]
    exact recovered_iff (left_steps hentries hbegun hmay) hbegun.valid

end Histories

/-! ### A pair that stays half replaced -/

section Sample

/-- An empty directory, a first register of a voice, and a second one. -/
def emptyVoices : FileSystem (Name Unit) (Node Unit ℕ) := .empty .torn

def firstRegister : Txn Unit ℕ := ⟨"1", (), none, some (1, 1)⟩

def secondRegister : Txn Unit ℕ :=
  ⟨"2", (), some (.profile (some "1") 1, .profile (some "1") 1), some (2, 2)⟩

def secondOrder : List (Name Unit) := [.oldJson "2", .oldNpz "2"]

theorem settled_emptyVoices : Settled emptyVoices where
  pending := rfl
  voice _ := ⟨none, rfl, rfl⟩
  private_none _ _ := rfl

theorem completed_first :
    Completed emptyVoices (runAll emptyVoices (firstRegister.steps [])) ["1"] :=
  .operation .start firstRegister [] (by decide +kernel) (List.Perm.refl _)

/-- Power is lost after the payload of the second register has been synced, and what is
pending is lost. -/
def halfWay : FileSystem (Name Unit) (Node Unit ℕ) :=
  runAll (runAll emptyVoices (firstRegister.steps [])) ((secondRegister.steps secondOrder).take 15)

/-- Where all pending changes are kept the recovery leaves the old pair. -/
theorem power_loss_iff_kept : ∃ pair, (pair = secondRegister.old ∨ pair = secondRegister.result) ∧
    Shows (recoverTransactions (afterLoss halfWay halfWay.live true) ["2", "1"]) () pair := by
  refine (power_loss_iff settled_emptyVoices completed_first (x := secondRegister)
    (by decide +kernel) (List.Perm.refl secondOrder) 15 halfWay.survives_live true).mpr ?_
  rintro ⟨-, -, hlost⟩
  exact absurd hlost (by decide +kernel)

/-- **A pair that stays half replaced.** The entries of the copies are lost, and the recovery
leaves the old metadata and the new payload. -/
theorem mixed_after_loss : Settled emptyVoices ∧
    Completed emptyVoices (runAll emptyVoices (firstRegister.steps [])) ["1"] ∧
    begins (runAll emptyVoices (firstRegister.steps [])).contents ["1"] secondRegister = true ∧
    halfWay.Survives halfWay.durable ∧
    ¬ ∃ pair, (pair = secondRegister.old ∨ pair = secondRegister.result) ∧
      Shows (recoverTransactions (afterLoss halfWay halfWay.durable true) ["2", "1"]) () pair := by
  refine ⟨settled_emptyVoices, completed_first, by decide +kernel, ⟨[], List.nil_sublist _, rfl⟩, ?_⟩
  have hjson : recoverTransactions (afterLoss halfWay halfWay.durable true) ["2", "1"] (.json ()) =
    some (.profile (some "1") 1) := by decide +kernel
  have hnpz : recoverTransactions (afterLoss halfWay halfWay.durable true) ["2", "1"] (.npz ()) =
    some (.profile (some "2") 2) := by decide +kernel
  rintro ⟨pair, rfl | rfl, hshows⟩
  · exact absurd (hnpz.symm.trans hshows.2) (by decide)
  · exact absurd (hjson.symm.trans hshows.1) (by decide)

end Sample

end OpenVoiceStream.SparkVoices
