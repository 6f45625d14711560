import Mathlib.Data.List.Sort
import Mathlib.Data.String.Basic
import OpenVoiceStream.Base.Machine
import OpenVoiceStream.SparkVoices.Disk

/-!
# Operations and recovery under the lock

One process at a time holds the profile lock. It first recovers every journal it finds, in
the order of their names, and removes transaction directories that have no journal; then it
may run one transaction. It may be killed between any two file steps; an `OSError` in a
cleanup is passed over, one in the recovery of a journal ends that recovery only, and one
between the first change of the pair and the last is answered by recovering the
transaction's own journal.

Beside the directory the machine keeps what the callers know: `last`, the outcome of the
last operation on a voice that returned, and `maybe`, the outcomes of those that were
interrupted while they changed it. A recovery pass without failed recoveries settles both.

## Main definitions

* `After`, `Stage`, `Config` — where the process with the lock is, and the state.
* `begins` — the checks of an operation before its transaction.
* `step`, `machine` — the steps.
-/

namespace OpenVoiceStream.SparkVoices

variable {V β : Type}

/-- What follows a cleanup or a rollback: the other journals of the pass, the return of the
operation, or the exception it was interrupted by. -/
inductive After (V β : Type) where
  | pass (todo : List Token) (clean : Bool)
  | finish (x : Txn V β)
  | abort
  deriving DecidableEq

/-- Where the process with the lock is. -/
inductive Stage (V β : Type) where
  /-- Before the next journal; `clean` as long as no recovery has raised. -/
  | pass (todo : List Token) (clean : Bool)
  /-- Rolling back: before the JSON file, and between the two. -/
  | rollJson (t : Token) (v : V) (oldPresent : Bool) (k : After V β)
  | rollNpz (t : Token) (v : V) (oldPresent : Bool) (k : After V β)
  /-- Cleaning up: the directory, then the journal. -/
  | cleanTx (t : Token) (k : After V β)
  | cleanJournal (t : Token) (k : After V β)
  /-- Past the journals. -/
  | orphans (clean : Bool)
  | ready
  /-- In a transaction, with the steps that are left of each part. -/
  | prep (x : Txn V β) (rest : List (FileStep V β))
  | arm (x : Txn V β) (rest : List (FileStep V β))
  | commit (x : Txn V β) (rest : List (FileStep V β))
  deriving DecidableEq

/-- The directory, the tokens that have been drawn, the process with the lock, and what the
callers know. -/
structure Config (V β : Type) where
  disk : Disk V β
  tokens : List Token
  holder : Option (Stage V β)
  last : V → Option (Pair V β)
  maybe : V → List (Option (Pair V β))

/-- The transaction that is changing its pair, or has and has not returned. -/
def Stage.pending : Stage V β → Option (Txn V β)
  | .commit x _ => some x
  | .cleanTx _ (.finish x) => some x
  | .cleanJournal _ (.finish x) => some x
  | _ => none

inductive Action (V β : Type) where
  | enter
  | recover
  | roll
  /-- Of a transaction directory, one entry is removed, or the empty directory. -/
  | remove (n : Name V)
  | rmdir
  | rmJournal
  | endPass
  | rmOrphan (t : Token) (n : Name V)
  | endOrphans
  | begin (x : Txn V β)
  | file
  | next
  /-- The operation raises or returns without a transaction. -/
  | reject
  /-- The next step raises. -/
  | fail
  | crash

variable [DecidableEq V] [DecidableEq β]

/-- `sorted(root.glob(".sparktts-txn-*.json"))`. -/
def journals (d : Disk V β) (tokens : List Token) : List Token :=
  (tokens.filter fun t => (d (.journal t)).isSome).insertionSort (· ≤ ·)

/-- The transaction directory has no journal. -/
def orphan (d : Disk V β) (t : Token) : Bool := (d (.tx t)).isSome && (d (.journal t)).isNone

/-- The entries of the directory are gone. -/
def emptied (d : Disk V β) (t : Token) : Bool := (entries t).all fun n => (d n).isNone

/-- An operation has come to its end, with the outcome `pair`. -/
def Config.returned (c : Config V β) (v : V) (pair : Option (Pair V β)) : Config V β :=
  { c with
    holder := none
    last := Function.update c.last v pair
    maybe := Function.update c.maybe v [] }

/-- An operation has been interrupted while it changed its pair. -/
def Config.interrupted (c : Config V β) (x : Txn V β) : Config V β :=
  { c with maybe := Function.update c.maybe x.voice (x.result :: c.maybe x.voice) }

/-- Going on after a cleanup or a rollback. -/
def Config.continue (c : Config V β) : After V β → Config V β
  | .pass todo clean => { c with holder := some (.pass todo clean) }
  | .finish x => c.returned x.voice x.result
  | .abort => { c with holder := none }

/-- Going on after the recovery of a journal has raised. -/
def Config.raised (c : Config V β) : After V β → Config V β
  | .pass todo _ => { c with holder := some (.pass todo false) }
  | _ => { c with holder := none }

/-- `_recover_transaction`. -/
def Config.recover (c : Config V β) (t : Token) (k : After V β) : Config V β :=
  match verdict c.disk t with
  | .ignore => c.continue k
  | .clean => { c with holder := some (.cleanTx t k) }
  | .rollback v oldPresent => { c with holder := some (.rollJson t v oldPresent k) }
  | .stuck => c.raised k

/-- The checks before a transaction: both files are there or neither is, and what is there
is the old pair; a pair to be replaced is of one generation, one to be deleted is there; the
token is new. -/
def begins (d : Disk V β) (tokens : List Token) (x : Txn V β) : Bool :=
  (d (.json x.voice)).isSome == (d (.npz x.voice)).isSome &&
    shown d x.voice == x.old &&
    (x.old.elim true fun p => p.1.isFile && p.2.isFile &&
      p.1.token != some x.token && p.2.token != some x.token) &&
    (match x.new with
      | some _ => x.old.elim true fun p => p.1.token == p.2.token
      | none => x.old.isSome) &&
    decide (x.token ∉ tokens)

/-- A step of the process with the lock. -/
def holderStep (c : Config V β) (stage : Stage V β) (action : Action V β) :
    Option (Config V β) :=
  match action, stage with
  | .crash, stage =>
    let c' := match stage.pending with
      | some x => c.interrupted x
      | none => c
    some { c' with holder := none }
  | .recover, .pass (t :: todo) clean => some (c.recover t (.pass todo clean))
  | .endPass, .pass [] clean => some { c with holder := some (.orphans clean) }
  | .roll, .rollJson t v oldPresent k =>
    some { c with
      disk := Function.update c.disk (.json v) (if oldPresent then c.disk (.oldJson t) else none)
      holder := some (.rollNpz t v oldPresent k) }
  | .roll, .rollNpz t v oldPresent k =>
    some { c with
      disk := Function.update c.disk (.npz v) (if oldPresent then c.disk (.oldNpz t) else none)
      holder := some (.cleanTx t k) }
  | .remove n, .cleanTx t _ =>
    if n ∈ entries t ∧ (c.disk n).isSome then
      some { c with disk := Function.update c.disk n none }
    else none
  | .rmdir, .cleanTx t k =>
    if emptied c.disk t then
      some { c with
        disk := Function.update c.disk (.tx t) none
        holder := some (.cleanJournal t k) }
    else none
  | .rmJournal, .cleanJournal t k =>
    some ({ c with disk := Function.update c.disk (.journal t) none }.continue k)
  | .rmOrphan t n, .orphans _ =>
    if orphan c.disk t = true ∧ (n ∈ entries t ∨ n = .tx t ∧ emptied c.disk t) then
      some { c with disk := Function.update c.disk n none }
    else none
  | .endOrphans, .orphans clean =>
    if c.tokens.all fun t => !orphan c.disk t then
      some (if clean then
          { c with holder := some .ready, last := shown c.disk, maybe := fun _ => [] }
        else { c with holder := some .ready })
    else none
  | .begin x, .ready =>
    if begins c.disk c.tokens x then
      some { c with tokens := x.token :: c.tokens, holder := some (.prep x x.prep) }
    else none
  | .reject, .ready => some { c with holder := none }
  | .file, .prep x (s :: rest) =>
    some { c with disk := s.apply c.disk, holder := some (.prep x rest) }
  | .file, .arm x (s :: rest) =>
    some { c with disk := s.apply c.disk, holder := some (.arm x rest) }
  | .file, .commit x (s :: rest) =>
    some { c with disk := s.apply c.disk, holder := some (.commit x rest) }
  | .next, .prep x [] => some { c with holder := some (.arm x x.arm) }
  | .next, .arm x [] => some { c with holder := some (.commit x x.commit) }
  | .next, .commit x [] => some { c with holder := some (.cleanTx x.token (.finish x)) }
  | .fail, .pass (_ :: todo) _ => some { c with holder := some (.pass todo false) }
  | .fail, .rollJson _ _ _ k => some (c.raised k)
  | .fail, .rollNpz _ _ _ k => some (c.raised k)
  | .fail, .cleanTx _ k => some (c.continue k)
  | .fail, .cleanJournal _ k => some (c.continue k)
  | .fail, .orphans _ => some { c with holder := none }
  | .fail, .prep _ _ => some { c with holder := none }
  | .fail, .arm _ _ => some { c with holder := none }
  | .fail, .commit x _ => some ((c.interrupted x).recover x.token .abort)
  | _, _ => none

/-- A step: a process takes the lock, or the one that has it goes on. -/
def step (c : Config V β) (action : Action V β) : Option (Config V β) :=
  match action, c.holder with
  | .enter, none => some { c with holder := some (.pass (journals c.disk c.tokens) true) }
  | _, none => none
  | action, some stage => holderStep c stage action

/-- A directory with these pairs and nothing else. -/
def start (pairs : V → Option (Pair V β)) : Config V β where
  disk
    | .json v => (pairs v).map Prod.fst
    | .npz v => (pairs v).map Prod.snd
    | _ => none
  tokens := []
  holder := none
  last := pairs
  maybe := fun _ => []

/-- The history of a voices directory. -/
def machine (pairs : V → Option (Pair V β)) : Machine (Config V β) (Action V β) :=
  ⟨start pairs, step⟩

end OpenVoiceStream.SparkVoices
