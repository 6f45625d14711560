import Mathlib.Data.List.Basic
import Mathlib.Logic.Function.Basic

/-!
# The voices directory

A voice is a pair of files, `<safe>.json` and `<safe>.npz`. A register or a delete is a
transaction under a fresh token: it puts copies of the old and the new pair into a private
directory, writes a journal, replaces or removes the two files one after the other, and
removes directory and journal. Recovery reads the journals that are left.

The content of a profile file is its generation token and the rest of it.

## Main definitions

* `Name`, `Node`, `Disk` — names in the directory, what stands under them, the directory.
* `FileStep`, `FileStep.apply` — one step of a program on files.
* `Txn` — a transaction, and the steps of `_atomic_write_pair` and `_atomic_delete_pair`.
* `verdict` — what `_recover_transaction` decides for a journal.
-/

namespace OpenVoiceStream.SparkVoices

/-- `secrets.token_hex(16)`. -/
abbrev Token := String

variable {V β : Type}

/-- The names that matter: the two files of a voice, a transaction directory with its
entries, and a journal. -/
inductive Name (V : Type) where
  | json (v : V)
  | npz (v : V)
  | tx (t : Token)
  | journal (t : Token)
  | oldJson (t : Token)
  | oldNpz (t : Token)
  | newJson (t : Token)
  | newNpz (t : Token)
  deriving DecidableEq

/-- The transaction a name belongs to. -/
def Name.token : Name V → Option Token
  | .json _ => none
  | .npz _ => none
  | .tx t => some t
  | .journal t => some t
  | .oldJson t => some t
  | .oldNpz t => some t
  | .newJson t => some t
  | .newNpz t => some t

/-- The entries a transaction directory can have. -/
def entries (t : Token) : List (Name V) := [.oldJson t, .oldNpz t, .newJson t, .newNpz t]

/-- `operation` of a journal. -/
inductive Operation where
  | write
  | delete
  deriving DecidableEq

/-- What stands under a name: a directory, a file whose writing has not come to its end, a
profile file with its `__pair_token`, or a journal. -/
inductive Node (V β : Type) where
  | dir
  | torn
  | profile (token : Option Token) (body : β)
  | journal (op : Operation) (voice : V) (oldPresent : Bool)
  deriving DecidableEq

/-- The generation token of a profile file. -/
def Node.token : Node V β → Option Token
  | .profile token _ => token
  | _ => none

/-- `Path.is_file()`. -/
def Node.isFile : Node V β → Bool
  | .dir => false
  | _ => true

/-- The directory. -/
abbrev Disk (V β : Type) := Name V → Option (Node V β)

/-- The two files of a voice. -/
abbrev Pair (V β : Type) := Node V β × Node V β

/-- The pair of a voice, where both files are there. -/
def shown (d : Disk V β) (v : V) : Option (Pair V β) :=
  match d (.json v), d (.npz v) with
  | some j, some n => some (j, n)
  | _, _ => none

/-- The files of the voice are those of the pair, or there are none. -/
def Shows (d : Disk V β) (v : V) (pair : Option (Pair V β)) : Prop :=
  d (.json v) = pair.map Prod.fst ∧ d (.npz v) = pair.map Prod.snd

theorem Shows.shown {d : Disk V β} {v : V} {pair : Option (Pair V β)} (h : Shows d v pair) :
    shown d v = pair := by
  unfold SparkVoices.shown
  rw [h.1, h.2]
  cases pair <;> rfl

variable [DecidableEq V]

/-! ### Steps on files -/

/-- A step on files; a file that is created is torn until it is filled. -/
inductive FileStep (V β : Type) where
  | mkdir (t : Token)
  | create (n : Name V)
  | fill (n : Name V) (x : Node V β)
  | move (src dst : Name V)
  | unlink (n : Name V)
  /-- `_fsync_parent` of a path in the voices directory. -/
  | syncRoot
  deriving DecidableEq

/-- The directory after a step. -/
def FileStep.apply (d : Disk V β) : FileStep V β → Disk V β
  | .mkdir t => Function.update d (.tx t) (some .dir)
  | .create n => Function.update d n (some .torn)
  | .fill n x => Function.update d n (some x)
  | .move src dst => Function.update (Function.update d dst (d src)) src none
  | .unlink n => Function.update d n none
  | .syncRoot => d

/-- The names a step on files changes. -/
def FileStep.touches : FileStep V β → List (Name V)
  | .mkdir t => [.tx t]
  | .create n => [n]
  | .fill n _ => [n]
  | .move src dst => [src, dst]
  | .unlink n => [n]
  | .syncRoot => []

theorem FileStep.apply_of_notMem {s : FileStep V β} {d : Disk V β} {n : Name V}
    (h : n ∉ s.touches) : s.apply d n = d n := by
  cases s with
  | mkdir t => exact Function.update_of_ne (by simpa [touches] using h) _ _
  | create n' => exact Function.update_of_ne (by simpa [touches] using h) _ _
  | fill n' x => exact Function.update_of_ne (by simpa [touches] using h) _ _
  | move src dst =>
    simp only [touches, List.mem_cons, List.not_mem_nil, or_false, not_or] at h
    rw [apply, Function.update_of_ne h.1, Function.update_of_ne h.2]
  | unlink n' => exact Function.update_of_ne (by simpa [touches] using h) _ _
  | syncRoot => rfl

/-- The directory after some steps. -/
def applyAll (d : Disk V β) (steps : List (FileStep V β)) : Disk V β :=
  steps.foldl FileStep.apply d

@[simp] theorem applyAll_nil (d : Disk V β) : applyAll d [] = d := rfl

@[simp] theorem applyAll_cons (d : Disk V β) (s : FileStep V β) (steps : List (FileStep V β)) :
    applyAll d (s :: steps) = applyAll (s.apply d) steps := rfl

/-- `_write_bytes_fsync`. -/
def writeFile (n : Name V) (x : Node V β) : List (FileStep V β) := [.create n, .fill n x]

/-- A transaction: its token, the voice, the pair it found, and the bodies of the new pair,
none for a delete. -/
structure Txn (V β : Type) where
  token : Token
  voice : V
  old : Option (Pair V β)
  new : Option (β × β)
  deriving DecidableEq

namespace Txn

variable (x : Txn V β)

/-- The pair it commits: both files carry its token. -/
def result : Option (Pair V β) :=
  x.new.map fun b => (.profile (some x.token) b.1, .profile (some x.token) b.2)

/-- Its operation. -/
def operation : Operation :=
  match x.new with
  | some _ => .write
  | none => .delete

/-- The copies of the old pair. -/
def backups : List (FileStep V β) :=
  match x.old with
  | some pair => writeFile (.oldJson x.token) pair.1 ++ writeFile (.oldNpz x.token) pair.2
  | none => []

/-- The new pair in the transaction directory. -/
def news : List (FileStep V β) :=
  match x.result with
  | some pair => writeFile (.newJson x.token) pair.1 ++ writeFile (.newNpz x.token) pair.2
  | none => []

/-- The steps up to the journal. -/
def prep : List (FileStep V β) :=
  .mkdir x.token :: (x.backups ++ (x.news ++ [.syncRoot]))

/-- The steps that write the journal. -/
def arm : List (FileStep V β) :=
  [.create (.journal x.token),
    .fill (.journal x.token) (.journal x.operation x.voice x.old.isSome), .syncRoot]

/-- The steps that replace or remove the pair, payload first where it is replaced, metadata
first where it is removed. -/
def commit : List (FileStep V β) :=
  match x.new with
  | some _ => [.move (.newNpz x.token) (.npz x.voice), .syncRoot,
      .move (.newJson x.token) (.json x.voice), .syncRoot]
  | none => [.unlink (.json x.voice), .syncRoot, .unlink (.npz x.voice), .syncRoot]

end Txn

/-! ### Recovery -/

/-- `_pair_has_token`. -/
def pairHasToken (d : Disk V β) (v : V) (t : Token) : Bool :=
  (d (.json v)).bind Node.token == some t && (d (.npz v)).bind Node.token == some t

/-- Whether a file stands under the name. -/
def isFile (d : Disk V β) (n : Name V) : Bool := (d n).elim false Node.isFile

/-- The two backups are there. -/
def hasBackups (d : Disk V β) (t : Token) : Bool :=
  isFile d (.oldJson t) && isFile d (.oldNpz t)

/-- `_files_equal`. -/
def filesEqual [DecidableEq β] (d : Disk V β) (left right : Name V) : Bool :=
  isFile d left && isFile d right && d left == d right

/-- The old pair of an interrupted write is as it was. -/
def oldComplete [DecidableEq β] (d : Disk V β) (t : Token) (v : V) (oldPresent : Bool) : Bool :=
  if oldPresent then filesEqual d (.json v) (.oldJson t) && filesEqual d (.npz v) (.oldNpz t)
  else (d (.json v)).isNone && (d (.npz v)).isNone

/-- What recovery does about a journal: it leaves it, removes it with its directory, rolls
its voice back (to the backups, or to no files), or raises for want of the backups. -/
inductive Verdict (V : Type) where
  | ignore
  | clean
  | rollback (v : V) (oldPresent : Bool)
  | stuck

/-- Rolling back needs the backups of a pair that was there. -/
def rollbackVerdict (d : Disk V β) (t : Token) (v : V) (oldPresent : Bool) : Verdict V :=
  if oldPresent = true ∧ hasBackups d t = false then .stuck else .rollback v oldPresent

/-- `_recover_transaction`, up to its first change. -/
def verdict [DecidableEq β] (d : Disk V β) (t : Token) : Verdict V :=
  match d (.journal t) with
  | some (.journal op v oldPresent) =>
    if d (.tx t) = some .dir then
      match op with
      | .write =>
        if pairHasToken d v t || oldComplete d t v oldPresent then .clean
        else rollbackVerdict d t v oldPresent
      | .delete =>
        if (d (.json v)).isNone && (d (.npz v)).isNone then .clean
        else rollbackVerdict d t v oldPresent
    else .ignore
  | _ => .ignore

/-- A journal that recovery may act on: it is whole, its directory is there, and so are the
backups it would need. -/
def Live (d : Disk V β) (t : Token) (v : V) : Prop :=
  ∃ op oldPresent, d (.journal t) = some (.journal op v oldPresent) ∧ d (.tx t) = some .dir ∧
    (oldPresent = true → hasBackups d t = true)

theorem live_iff [DecidableEq β] {d : Disk V β} {t : Token} {v : V} : Live d t v ↔
    (match d (.journal t) with
    | some (.journal _ v' oldPresent) =>
      decide (v' = v) && (decide (d (.tx t) = some .dir) && (!oldPresent || hasBackups d t))
    | _ => false) = true := by
  unfold Live
  split
  · next op v' oldPresent hjournal =>
    simp only [Bool.and_eq_true, decide_eq_true_eq, Bool.or_eq_true, Bool.not_eq_true']
    constructor
    · rintro ⟨_, _, hj, htx, hold⟩
      cases hjournal.symm.trans hj
      exact ⟨rfl, htx, by cases oldPresent <;> simp_all⟩
    · rintro ⟨rfl, htx, hold⟩
      exact ⟨op, oldPresent, hjournal, htx, by rintro rfl; simpa using hold⟩
  · next hnot =>
    constructor
    · rintro ⟨op, oldPresent, hj, -⟩
      exact absurd hj (hnot _ _ _)
    · exact nofun

instance [DecidableEq β] (d : Disk V β) (t : Token) (v : V) : Decidable (Live d t v) :=
  decidable_of_iff' _ live_iff

omit [DecidableEq V] in
/-- Whether a journal is live is a matter of the names of its transaction. -/
theorem live_congr {d d' : Disk V β} {t : Token} {v : V}
    (h : ∀ n : Name V, n.token = some t → d' n = d n) : Live d' t v ↔ Live d t v := by
  unfold Live hasBackups isFile
  rw [h (.journal t) rfl, h (.tx t) rfl, h (.oldJson t) rfl, h (.oldNpz t) rfl]

end OpenVoiceStream.SparkVoices
