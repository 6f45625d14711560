import Mathlib.Data.List.Basic
import Mathlib.Logic.Function.Basic

/-!
# Directory trees with symbolic links

A path is followed component by component; a link on the way is replaced by what it names.
In a tree by itself a walk can reach a place of the tree, fail, or leave the tree, by an
absolute link or by `..` at the top.

A disk is such a tree, below its base, with everything around it.  A walk on the disk that
does not leave the tree is the walk in the tree.

## Main definitions

* `LinkTree`, `LinkTree.walk` — trees, and where a path leads in one.
* `Disk`, `Disk.walk` — a tree with what is around it.
* `Disk.descend`, `LinkTree.descend` — a path whose missing directories are made.
* `Disk.Confined` — what was changed on a disk since some time is in the tree.
* `Sim` — the tree of a disk is a given one, and all changes are in it.

## Main results

* `Sim.walk`, `Sim.descend` — a walk in the tree is one on the disk.
* `Sim.put`, `Sim.newFile`, `Sim.writeFile`, `Sim.touch` — changes in the tree.
* `LinkTree.walk_of_linkless` — a tree without links is not left.
-/

/-! ### Trees -/

/-- What stands at a place. -/
inductive Entry (ι : Type*)
  | dir
  | file (i : ι)
  | special
  | link (absolute : Bool) (parts : List String)
  deriving DecidableEq

/-- What stands below the root, at each path of names. -/
abbrev LinkTree (ι : Type*) := List String → Option (Entry ι)

/-- Where a path leads. -/
inductive Reach
  | place (path : List String)
  | fails
  | leaves

/-- The entry is a directory. -/
def Entry.isDir {ι : Type*} : Option (Entry ι) → Bool
  | some .dir => true
  | _ => false

/-- The entry without the identity of a file. -/
def Entry.shape {ι : Type*} : Entry ι → Entry Unit
  | .dir => .dir
  | .file _ => .file ()
  | .special => .special
  | .link absolute parts => .link absolute parts

namespace LinkTree

variable {ι : Type*} (t : LinkTree ι)

/-- The place that a path leads to, in so many steps. The last component need not be there. -/
def walk : ℕ → List String → List String → Reach
  | _, cur, [] => .place cur
  | 0, _, _ :: _ => .fails
  | n + 1, cur, x :: rest =>
    if x = ".." then
      if cur = [] then .leaves else walk n cur.dropLast rest
    else
      match t (cur ++ [x]) with
      | some .dir => walk n (cur ++ [x]) rest
      | some (.link true _) => .leaves
      | some (.link false parts) => walk n cur (parts ++ rest)
      | _ => if rest = [] then .place (cur ++ [x]) else .fails

@[simp] theorem walk_nil (n : ℕ) (cur : List String) : t.walk n cur [] = .place cur := by
  cases n <;> rfl

theorem walk_zero (cur : List String) (x : String) (rest : List String) :
    t.walk 0 cur (x :: rest) = .fails := rfl

theorem walk_succ (n : ℕ) (cur : List String) (x : String) (rest : List String) :
    t.walk (n + 1) cur (x :: rest) =
      if x = ".." then
        if cur = [] then .leaves else t.walk n cur.dropLast rest
      else
        match t (cur ++ [x]) with
        | some .dir => t.walk n (cur ++ [x]) rest
        | some (.link true _) => .leaves
        | some (.link false parts) => t.walk n cur (parts ++ rest)
        | _ => if rest = [] then .place (cur ++ [x]) else .fails := rfl

/-- The tree without the identity of the files. -/
def shape : LinkTree Unit := fun path => (t path).map Entry.shape

/-- The tree has no links. -/
def Linkless : Prop := ∀ path absolute parts, t path ≠ some (.link absolute parts)

end LinkTree

/-- What a procedure on a tree comes to. -/
inductive Built (σ : Type*)
  | made (s : σ)
  | refused
  | leaves

/-- A path whose missing directories are made, in a tree. -/
def LinkTree.descend (limit : ℕ) :
    LinkTree Unit → List String → List String → Built (LinkTree Unit × List String)
  | t, cur, [] => .made (t, cur)
  | t, cur, x :: rest =>
    match t (cur ++ [x]) with
    | none => descend limit (Function.update t (cur ++ [x]) (some .dir)) (cur ++ [x]) rest
    | some _ =>
      match t.walk limit cur [x] with
      | .place p => if Entry.isDir (t p) then descend limit t p rest else .refused
      | .fails => .refused
      | .leaves => .leaves

theorem LinkTree.descend_nil (limit : ℕ) (t : LinkTree Unit) (cur : List String) :
    t.descend limit cur [] = .made (t, cur) := rfl

theorem LinkTree.descend_cons (limit : ℕ) (t : LinkTree Unit) (cur : List String) (x : String)
    (rest : List String) :
    t.descend limit cur (x :: rest) =
      match t (cur ++ [x]) with
      | none => descend limit (Function.update t (cur ++ [x]) (some .dir)) (cur ++ [x]) rest
      | some _ =>
        match t.walk limit cur [x] with
        | .place p => if Entry.isDir (t p) then t.descend limit p rest else .refused
        | .fails => .refused
        | .leaves => .leaves := rfl

/-! ### Disks -/

/-- A place on a disk: below the base, or anywhere else. -/
inductive Place
  | inner (path : List String)
  | outer (path : List String)
  deriving DecidableEq

/-- The place is below the base. -/
def Place.isInner : Place → Bool
  | .inner _ => true
  | .outer _ => false

/-- A disk. Files are numbered, so that one can stand at several places. -/
structure Disk (α : Type*) where
  base : List String
  inner : LinkTree ℕ
  outer : LinkTree ℕ
  data : ℕ → α
  next : ℕ
  /-- The places that were made or changed, the last one first. -/
  touched : List Place

namespace Disk

variable {α : Type*} (d : Disk α)

/-- What stands at a place. -/
def look : Place → Option (Entry ℕ)
  | .inner path => d.inner path
  | .outer path => d.outer path

/-- The place of a name in a directory. -/
def child : Place → String → Place
  | .inner path, x => .inner (path ++ [x])
  | .outer path, x => if path ++ [x] = d.base then .inner [] else .outer (path ++ [x])

/-- The directory above. -/
def up : Place → Place
  | .inner [] => if d.base = [] then .inner [] else .outer d.base.dropLast
  | .inner path => .inner path.dropLast
  | .outer path => .outer path.dropLast

/-- The root of the file system. -/
def root : Place := if d.base = [] then .inner [] else .outer []

/-- Where a path leads on the disk, if it does not fail. -/
def walk : ℕ → Place → List String → Option Place
  | _, cur, [] => some cur
  | 0, _, _ :: _ => none
  | n + 1, cur, x :: rest =>
    if x = ".." then walk n (d.up cur) rest
    else
      match d.look (d.child cur x) with
      | some .dir => walk n (d.child cur x) rest
      | some (.link absolute parts) => walk n (if absolute then d.root else cur) (parts ++ rest)
      | _ => if rest = [] then some (d.child cur x) else none

@[simp] theorem walk_nil (n : ℕ) (cur : Place) : d.walk n cur [] = some cur := by
  cases n <;> rfl

theorem walk_zero (cur : Place) (x : String) (rest : List String) :
    d.walk 0 cur (x :: rest) = none := rfl

theorem walk_succ (n : ℕ) (cur : Place) (x : String) (rest : List String) :
    d.walk (n + 1) cur (x :: rest) =
      if x = ".." then d.walk n (d.up cur) rest
      else
        match d.look (d.child cur x) with
        | some .dir => d.walk n (d.child cur x) rest
        | some (.link absolute parts) => d.walk n (if absolute then d.root else cur) (parts ++ rest)
        | _ => if rest = [] then some (d.child cur x) else none := rfl

/-- A new entry at a place. -/
def put (p : Place) (e : Entry ℕ) : Disk α :=
  match p with
  | .inner path =>
    { d with inner := Function.update d.inner path (some e), touched := p :: d.touched }
  | .outer path =>
    { d with outer := Function.update d.outer path (some e), touched := p :: d.touched }

/-- A new file at a place. -/
def newFile (p : Place) (content : α) : Disk α :=
  { d.put p (.file d.next) with
    data := Function.update d.data d.next content
    next := d.next + 1 }

/-- A file that is there is written. -/
def writeFile (p : Place) (i : ℕ) (content : α) : Disk α :=
  { d with data := Function.update d.data i content, touched := p :: d.touched }

/-- What stands at a place is changed, but not its content. -/
def touch (p : Place) : Disk α := { d with touched := p :: d.touched }

/-- A place is opened for writing. -/
def writeAt (p : Place) (content : α) : Option (Disk α) :=
  match d.look p with
  | none => some (d.newFile p content)
  | some (.file i) => some (d.writeFile p i content)
  | _ => none

/-- A path whose missing directories are made. -/
def descend (limit : ℕ) : Disk α → Place → List String → Option (Disk α × Place)
  | d, cur, [] => some (d, cur)
  | d, cur, x :: rest =>
    match d.look (d.child cur x) with
    | none => descend limit (d.put (d.child cur x) .dir) (d.child cur x) rest
    | some _ =>
      match d.walk limit cur [x] with
      | some p => if Entry.isDir (d.look p) then descend limit d p rest else none
      | none => none

theorem descend_cons (limit : ℕ) (d : Disk α) (cur : Place) (x : String) (rest : List String) :
    d.descend limit cur (x :: rest) =
      match d.look (d.child cur x) with
      | none => (d.put (d.child cur x) .dir).descend limit (d.child cur x) rest
      | some _ =>
        match d.walk limit cur [x] with
        | some p => if Entry.isDir (d.look p) then d.descend limit p rest else none
        | none => none := rfl

/-- **All changes since** the disk was `d₀` are below the base: the places that were touched,
what stands elsewhere, and the content of the files there. -/
structure Confined (d₀ d : Disk α) : Prop where
  touched : ∀ p ∈ d.touched, p.isInner = true
  outer : d.outer = d₀.outer
  data : ∀ path i, d₀.outer path = some (.file i) → d.data i = d₀.data i

end Disk

/-! ### The tree of a disk -/

variable {α ι : Type*}

namespace LinkTree

variable {t : LinkTree ι} {u : LinkTree Unit} {n : ℕ} {cur parts : List String}

theorem isDir_shape (path : List String) : Entry.isDir (t.shape path) = Entry.isDir (t path) := by
  unfold shape
  cases t path with
  | none => rfl
  | some e => cases e <;> rfl

/-- A walk does not depend on the identity of the files. -/
theorem walk_shape (n : ℕ) (cur parts : List String) : t.shape.walk n cur parts = t.walk n cur parts := by
  induction n generalizing cur parts with
  | zero => cases parts <;> rfl
  | succ n ih =>
    cases parts with
    | nil => rfl
    | cons x rest =>
      rw [walk_succ, walk_succ]
      split
      · rw [ih]
      · have hshape : t.shape (cur ++ [x]) = (t (cur ++ [x])).map Entry.shape := rfl
        rw [hshape]
        cases t (cur ++ [x]) with
        | none => rfl
        | some e =>
          cases e with
          | dir => exact ih _ _
          | file i => rfl
          | special => rfl
          | link absolute ps =>
            cases absolute with
            | true => rfl
            | false => exact ih _ _

/-- A tree without links is not left by a path without `..`. -/
theorem walk_of_linkless (hlinkless : t.Linkless) (hparts : ".." ∉ parts) :
    t.walk n cur parts ≠ .leaves := by
  induction n generalizing cur parts with
  | zero => cases parts <;> simp [walk_zero]
  | succ n ih =>
    cases parts with
    | nil => simp
    | cons x rest =>
      rw [List.mem_cons, not_or] at hparts
      rw [walk_succ, if_neg (Ne.symm hparts.1)]
      cases hentry : t (cur ++ [x]) with
      | none => dsimp only; split <;> simp
      | some e =>
        cases e with
        | dir => exact ih hparts.2
        | file i => dsimp only; split <;> simp
        | special => dsimp only; split <;> simp
        | link absolute ps => exact absurd hentry (hlinkless _ _ _)

end LinkTree

/-- A path without `..` is made in a tree without links. -/
theorem LinkTree.descend_of_linkless {t : LinkTree Unit} {limit : ℕ} {cur parts : List String}
    (hlinkless : t.Linkless) (hparts : ".." ∉ parts) :
    t.descend limit cur parts ≠ .leaves ∧
      ∀ u p, t.descend limit cur parts = .made (u, p) → LinkTree.Linkless u := by
  induction parts generalizing t cur with
  | nil =>
    refine ⟨by simp [descend_nil], fun u p h => ?_⟩
    rw [descend_nil, Built.made.injEq, Prod.mk.injEq] at h
    exact h.1 ▸ hlinkless
  | cons x rest ih =>
    rw [List.mem_cons, not_or] at hparts
    rw [descend_cons]
    cases t (cur ++ [x]) with
    | none =>
      refine ih (fun path absolute ps => ?_) hparts.2
      by_cases hpath : path = cur ++ [x]
      · rw [hpath, Function.update_self]
        simp
      · rw [Function.update_of_ne hpath]
        exact hlinkless path absolute ps
    | some e =>
      dsimp only
      cases hwalk : t.walk limit cur [x] with
      | place p =>
        dsimp only
        split
        · exact ih hlinkless hparts.2
        · simp
      | fails => simp
      | leaves => exact absurd hwalk (walk_of_linkless hlinkless (by simpa using hparts.1))

namespace Disk

variable {d : Disk α} {n : ℕ} {cur parts path : List String}

/-- A walk that does not leave the tree of a disk is the walk in the tree. -/
theorem walk_inner (n : ℕ) (cur parts : List String) :
    (∀ p, d.inner.walk n cur parts = .place p → d.walk n (.inner cur) parts = some (.inner p)) ∧
      (d.inner.walk n cur parts = .fails → d.walk n (.inner cur) parts = none) := by
  induction n generalizing cur parts with
  | zero => cases parts <;> simp [walk_zero, LinkTree.walk_zero]
  | succ n ih =>
    cases parts with
    | nil => simp
    | cons x rest =>
      rw [walk_succ, LinkTree.walk_succ]
      split
      · cases cur with
        | nil => simp
        | cons y ys => exact ih _ _
      · have hlook : d.look (d.child (.inner cur) x) = d.inner (cur ++ [x]) := rfl
        rw [hlook]
        cases d.inner (cur ++ [x]) with
        | none => dsimp only; split <;> simp [child]
        | some e =>
          cases e with
          | dir => exact ih _ _
          | file i => dsimp only; split <;> simp [child]
          | special => dsimp only; split <;> simp [child]
          | link absolute ps =>
            cases absolute with
            | true => simp
            | false => exact ih _ _

end Disk

/-- **The tree of a disk** is this one, and the changes since the disk was `d₀` are in it: its
files have numbers of their own. -/
structure Sim (d₀ d : Disk α) (t : LinkTree Unit) : Prop where
  tree : d.inner.shape = t
  touched : ∀ p ∈ d.touched, p.isInner = true
  outer : d.outer = d₀.outer
  data : ∀ i < d₀.next, d.data i = d₀.data i
  next : d₀.next ≤ d.next
  own : ∀ path i, d.inner path = some (.file i) → d₀.next ≤ i

namespace Sim

variable {d₀ d : Disk α} {t : LinkTree Unit} {limit : ℕ} {cur parts path : List String}

/-- A disk with an empty tree. -/
theorem start {d₀ : Disk α} (htouched : d₀.touched = [])
    (hfiles : ∀ path i, d₀.inner path ≠ some (.file i)) : Sim d₀ d₀ d₀.inner.shape where
  tree := rfl
  touched p hp := by
    rw [htouched] at hp
    cases hp
  outer := rfl
  data _ _ := rfl
  next := Nat.le_refl _
  own path i h := absurd h (hfiles path i)

/-- **The changes are confined**, if the files elsewhere had numbers below the next one. -/
theorem confined (h : Sim d₀ d t) (hbound : ∀ path i, d₀.outer path = some (.file i) → i < d₀.next) :
    d₀.Confined d where
  touched := h.touched
  outer := h.outer
  data path i hi := h.data i (hbound path i hi)

theorem apply_eq (h : Sim d₀ d t) (path : List String) : t path = (d.inner path).map Entry.shape := by
  rw [← h.tree]
  rfl

theorem isDir (h : Sim d₀ d t) (path : List String) :
    Entry.isDir (d.inner path) = Entry.isDir (t path) := by
  rw [← h.tree, LinkTree.isDir_shape]

/-- **A walk in the tree** is one on the disk. -/
theorem walk (h : Sim d₀ d t) {p : List String} (hwalk : t.walk limit cur parts = .place p) :
    d.walk limit (.inner cur) parts = some (.inner p) := by
  refine (Disk.walk_inner limit cur parts).1 p ?_
  rw [← LinkTree.walk_shape, h.tree, hwalk]

theorem walk_fails (h : Sim d₀ d t) (hwalk : t.walk limit cur parts = .fails) :
    d.walk limit (.inner cur) parts = none := by
  refine (Disk.walk_inner limit cur parts).2 ?_
  rw [← LinkTree.walk_shape, h.tree, hwalk]

theorem shape_update (s : LinkTree ℕ) (path : List String) (e : Entry ℕ) :
    LinkTree.shape (Function.update s path (some e)) =
      Function.update s.shape path (some e.shape) := by
  funext p
  by_cases hp : p = path
  · subst hp
    simp [LinkTree.shape]
  · simp [LinkTree.shape, hp]

/-- A new entry in the tree; a file has a number of the tree. -/
theorem put (h : Sim d₀ d t) (path : List String) {e : Entry ℕ} (he : ∀ i, e = .file i → d₀.next ≤ i) :
    Sim d₀ (d.put (.inner path) e) (Function.update t path (some e.shape)) where
  tree := by rw [← h.tree]; exact shape_update d.inner path e
  touched p hp := by
    rcases List.mem_cons.mp hp with rfl | hp
    · rfl
    · exact h.touched p hp
  outer := h.outer
  data := h.data
  next := h.next
  own p i hi := by
    by_cases hp : p = path
    · subst hp
      rw [show (d.put (.inner p) e).inner p = some e from Function.update_self _ _ _,
        Option.some_inj] at hi
      exact he i hi
    · rw [show (d.put (.inner path) e).inner p = d.inner p from Function.update_of_ne hp _ _] at hi
      exact h.own p i hi

theorem newFile (h : Sim d₀ d t) (path : List String) (content : α) :
    Sim d₀ (d.newFile (.inner path) content) (Function.update t path (some (.file ()))) where
  tree := (h.put path (e := .file d.next) fun i hi => Entry.file.inj hi ▸ h.next).tree
  touched := (h.put path (e := .file d.next) fun i hi => Entry.file.inj hi ▸ h.next).touched
  outer := h.outer
  data i hi := by
    have hne : i ≠ d.next := by have := h.next; omega
    exact (Function.update_of_ne hne _ _).trans (h.data i hi)
  next := Nat.le_succ_of_le h.next
  own := (h.put path (e := .file d.next) fun i hi => Entry.file.inj hi ▸ h.next).own

theorem writeFile (h : Sim d₀ d t) {i : ℕ} (hfile : d.inner path = some (.file i)) (content : α) :
    Sim d₀ (d.writeFile (.inner path) i content) t where
  tree := h.tree
  touched p hp := by
    rcases List.mem_cons.mp hp with rfl | hp
    · rfl
    · exact h.touched p hp
  outer := h.outer
  data j hj := by
    have hne : j ≠ i := by have := h.own path i hfile; omega
    exact (Function.update_of_ne hne _ _).trans (h.data j hj)
  next := h.next
  own := h.own

theorem touch (h : Sim d₀ d t) (path : List String) : Sim d₀ (d.touch (.inner path)) t where
  tree := h.tree
  touched p hp := by
    rcases List.mem_cons.mp hp with rfl | hp
    · rfl
    · exact h.touched p hp
  outer := h.outer
  data := h.data
  next := h.next
  own := h.own

/-- **A path that is made in the tree** is made on the disk. -/
theorem descend (h : Sim d₀ d t) :
    (∀ u p, t.descend limit cur parts = .made (u, p) →
      ∃ d', d.descend limit (.inner cur) parts = some (d', .inner p) ∧ Sim d₀ d' u) ∧
      (t.descend limit cur parts = .refused → d.descend limit (.inner cur) parts = none) := by
  induction parts generalizing d t cur with
  | nil =>
    refine ⟨fun u p hmade => ?_, fun hrefused => ?_⟩
    · rw [LinkTree.descend_nil, Built.made.injEq, Prod.mk.injEq] at hmade
      obtain ⟨rfl, rfl⟩ := hmade
      exact ⟨d, rfl, h⟩
    · rw [LinkTree.descend_nil] at hrefused
      cases hrefused
  | cons x rest ih =>
    have hlook : d.look (d.child (.inner cur) x) = d.inner (cur ++ [x]) := rfl
    rw [LinkTree.descend_cons, Disk.descend_cons, hlook, h.apply_eq]
    cases d.inner (cur ++ [x]) with
    | none =>
      have hput := h.put (cur ++ [x]) (e := .dir) fun i hi => by cases hi
      exact ih hput
    | some e =>
      dsimp only [Option.map_some]
      cases hwalk : t.walk limit cur [x] with
      | place p =>
        rw [h.walk hwalk]
        have hdir : Entry.isDir (d.look (.inner p)) = Entry.isDir (t p) := h.isDir p
        dsimp only
        rw [hdir]
        split
        · exact ih h
        · exact ⟨fun u p hmade => (by cases hmade), fun _ => rfl⟩
      | fails =>
        rw [h.walk_fails hwalk]
        exact ⟨fun u p hmade => (by cases hmade), fun _ => rfl⟩
      | leaves =>
        exact ⟨fun u p hmade => (by cases hmade), fun hrefused => (by cases hrefused)⟩

end Sim
