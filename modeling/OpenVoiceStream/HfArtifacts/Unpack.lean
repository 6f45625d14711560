import OpenVoiceStream.Base.PathTree
import Mathlib.Data.List.Dedup
import Mathlib.Data.List.Perm.Basic

/-!
# Unpacking an engine bundle

`download_and_extract_tarball` unpacks the archive beside its destination and moves the
items at the top of what it has unpacked, one after the other.  An item that is there
already is removed first, with everything in it.

A member of the archive has the name that `Path` reads, and is a file, a directory or a
special file.  Whether a step of the operating system fails, and what a failed removal or
move leaves behind, is chosen by the environment; so is the order of the items.

## Main definitions

* `extractAll` — what the archive becomes.
* `moveItem`, `moveAll` — the items on their way to the destination.
* `downloadAndExtractTarball` — all of it.
* `Overlay`, `CleanOverlay` — the archive lies over the destination, and a failure changes
  nothing.
* `Spares` — nothing else is under the names of the items, and a failure comes early enough.

## Main results

* `extractAll_file_iff`, `extractAll_some_iff` — what is unpacked.
* `moveAll_put`, `moveAll_snd`, `moveAll_eq_self_iff` — what is moved.
* `unpack_clean` — when the archive is overlaid and a failure is clean.
-/

namespace OpenVoiceStream.HfArtifacts.Unpack

/-! ### Trees and archives -/

/-- What a symbolic link leads to. -/
inductive Leads
  | file
  | dir
  | nowhere
  deriving DecidableEq, Repr

/-- What stands at a path. -/
inductive Node (α : Type*)
  | dir
  | file (content : α)
  | special
  | link (leads : Leads)
  deriving DecidableEq, Repr

/-- What is in a directory. -/
abbrev Content (α : Type*) := PathTree String (Node α)

/-- What a member of an archive without links is. -/
inductive Kind (α : Type*)
  | file (content : α)
  | dir
  | special
  deriving DecidableEq, Repr

/-- A member, with its name as `Path` reads it. -/
structure Member (α : Type*) where
  absolute : Bool
  parts : List String
  kind : Kind α
  deriving DecidableEq, Repr

variable {α : Type*}

/-- The members that are rejected before anything is extracted. -/
def Member.rejected (m : Member α) : Bool := m.absolute || m.parts.contains ".."

/-- What a member becomes. -/
def Kind.node : Kind α → Node α
  | .file content => .file content
  | .dir => .dir
  | .special => .special

/-- A directory stands there, or one can be made. -/
def isOpen : Option (Node α) → Bool
  | none | some .dir => true
  | _ => false

/-- A member can be extracted over what stands there: a file over a file, and a directory
over a directory. -/
def Kind.fits : Kind α → Option (Node α) → Bool
  | _, none => true
  | .file _, some (.file _) => true
  | .dir, some .dir => true
  | _, _ => false

/-- The directory of a member is made if it is not there, and the member in it. -/
def extractMember (t : Content α) (m : Member α) : Option (Content α) :=
  if m.parts.inits.all (fun path => decide (path = m.parts) || isOpen (t path)) &&
      m.kind.fits (t m.parts) then
    some fun path =>
      if path = m.parts then some m.kind.node else if path <+: m.parts then some .dir else t path
  else none

/-- `tf.extractall`. -/
def extractAll : Content α → List (Member α) → Option (Content α)
  | t, [] => some t
  | t, m :: rest => (extractMember t m).bind fun t => extractAll t rest

/-- `extract_dir`, when it was made. -/
def extractDir : Content α := fun path => if path = [] then some .dir else none

/-- The items of the directory that is unpacked. -/
def topNames (members : List (Member α)) : List String :=
  (members.filterMap fun m => m.parts.head?).dedup

/-! ### Moving the items -/

/-- How the removal of what stands there and the move of an item go: what is left there if
it fails. -/
structure Outcome (α : Type*) where
  removal : Option (Content α)
  move : Option (Content α)

/-- `target.exists()`. -/
def exists' : Option (Node α) → Bool
  | none | some (.link .nowhere) => false
  | _ => true

/-- `target.is_dir()`. -/
def isDir : Option (Node α) → Bool
  | some .dir | some (.link .dir) => true
  | _ => false

/-- A directory itself, not a link to one. -/
def isRealDir : Option (Node α) → Bool
  | some .dir => true
  | _ => false

/-- `shutil.rmtree`, which does not take a link, and `target.unlink()`: what stands there
then, and whether it went through. -/
def remove (dest : Content α) (n : String) (o : Outcome α) : Content α × Bool :=
  if isDir (dest [n]) && !isRealDir (dest [n]) then (dest, false)
  else
    match o.removal with
    | some left => (dest.put left n, false)
    | none => (dest.put (fun _ => none) n, true)

/-- `shutil.move`. A link that leads nowhere gives way to a file and not to a directory. -/
def move (dest item : Content α) (n : String) (o : Outcome α) : Content α × Bool :=
  match o.move with
  | some left => (dest.put left n, false)
  | none =>
    if (dest [n]).isSome && isRealDir (item []) then (dest, false)
    else (dest.put item n, true)

/-- One item, which is removed and moved. -/
def moveItem (dest item : Content α) (n : String) (o : Outcome α) : Content α × Bool :=
  if exists' (dest [n]) then
    match remove dest n o with
    | (dest, true) => move dest item n o
    | (dest, false) => (dest, false)
  else move dest item n o

/-- The items of `extract_dir`, one after the other. -/
def moveAll : Content α → Content α → List (String × Outcome α) → Content α × Bool
  | dest, _, [] => (dest, true)
  | dest, t, (n, o) :: rest =>
    match moveItem dest (t.sub n) n o with
    | (dest, true) => moveAll dest t rest
    | (dest, false) => (dest, false)

/-- What the environment does. -/
structure Env (α : Type*) where
  /-- The members, if the directories are made, the download goes through and the archive
  can be read. -/
  archive : Option (List (Member α))
  /-- Nothing else gets in the way of the extraction. -/
  extracts : Bool
  /-- `extract_dir.iterdir()`, and how each item goes. -/
  items : List (String × Outcome α)
  listed : ∀ members ∈ archive, (items.map Prod.fst).Perm (topNames members)
  /-- The temporary directory is removed. -/
  cleans : Bool

/-- What is unpacked, if the moving begins. -/
def Env.unpacked (env : Env α) : Option (Content α) :=
  match env.archive with
  | none => none
  | some members =>
    if members.any Member.rejected then none
    else if env.extracts then extractAll extractDir members else none

/-- `download_and_extract_tarball`: the destination then, and whether it returns. -/
def downloadAndExtractTarball (dest : Content α) (env : Env α) : Content α × Bool :=
  match env.unpacked with
  | none => (dest, false)
  | some t =>
    match moveAll dest t env.items with
    | (dest, moved) => (dest, moved && env.cleans)

/-! ### What is unpacked -/

/-- The kind of the last member with this path. -/
def lastAt (path : List String) : List (Member α) → Option (Kind α)
  | [] => none
  | m :: rest => (lastAt path rest).or (if m.parts = path then some m.kind else none)

/-- The path of a member, or of a directory above one. -/
def InArchive (members : List (Member α)) (path : List String) : Prop :=
  ∃ m ∈ members, path <+: m.parts

variable {t u : Content α} {m : Member α} {members : List (Member α)} {path : List String}

theorem lastAt_eq_none_iff : lastAt path members = none ↔ ∀ m ∈ members, m.parts ≠ path := by
  induction members with
  | nil => simp [lastAt]
  | cons m rest ih => simp [lastAt, ih, and_comm]

theorem extractMember_eq_some_iff : extractMember t m = some u ↔
    (∀ path, path <+: m.parts → path ≠ m.parts → isOpen (t path) = true) ∧
      m.kind.fits (t m.parts) = true ∧
      u = fun path =>
        if path = m.parts then some m.kind.node
        else if path <+: m.parts then some .dir else t path := by
  have hinits : (m.parts.inits.all fun path => decide (path = m.parts) || isOpen (t path)) = true ↔
      ∀ path, path <+: m.parts → path ≠ m.parts → isOpen (t path) = true := by
    simp only [List.all_eq_true, List.mem_inits, Bool.or_eq_true, decide_eq_true_eq,
      or_iff_not_imp_left, ne_eq]
  unfold extractMember
  constructor
  · intro h
    split at h
    case isTrue hboth =>
      rw [Bool.and_eq_true, hinits] at hboth
      exact ⟨hboth.1, hboth.2, (Option.some_inj.mp h).symm⟩
    case isFalse => cases h
  · rintro ⟨hopen, hfits, rfl⟩
    exact if_pos (by rw [Bool.and_eq_true, hinits]; exact ⟨hopen, hfits⟩)

/-- Directories stay directories. -/
theorem isRealDir_extractAll (h : extractAll t members = some u) (hdir : t path = some .dir) :
    u path = some .dir := by
  induction members generalizing t with
  | nil =>
    obtain rfl := Option.some_inj.mp h
    exact hdir
  | cons m rest ih =>
    obtain ⟨t', hm, hrest⟩ := Option.bind_eq_some_iff.mp h
    obtain ⟨-, hfits, rfl⟩ := extractMember_eq_some_iff.mp hm
    refine ih hrest ?_
    by_cases hpath : path = m.parts
    · subst hpath
      rw [hdir] at hfits
      rw [if_pos rfl]
      cases hkind : m.kind <;> simp [hkind, Kind.fits] at hfits
      rfl
    · rw [if_neg hpath]
      split
      · rfl
      · exact hdir

/-- The directory above a member was open from the start, unless a member stands for it. -/
theorem isOpen_of_extractAll (h : extractAll t members = some u)
    (hlast : lastAt path members = none) (hin : InArchive members path) :
    isOpen (t path) = true := by
  induction members generalizing t with
  | nil =>
    obtain ⟨m, hm, -⟩ := hin
    cases hm
  | cons m rest ih =>
    obtain ⟨t', hm, hrest⟩ := Option.bind_eq_some_iff.mp h
    obtain ⟨hopen, -, rfl⟩ := extractMember_eq_some_iff.mp hm
    have hall := lastAt_eq_none_iff.mp hlast
    have hne : path ≠ m.parts := (hall m List.mem_cons_self).symm
    by_cases hprefix : path <+: m.parts
    · exact hopen path hprefix hne
    · obtain ⟨m', hm', hprefix'⟩ := hin
      have hmem : m' ∈ rest := (List.mem_cons.mp hm').resolve_left fun h => hprefix (h ▸ hprefix')
      have hsame := ih hrest
        (lastAt_eq_none_iff.mpr fun k hk => hall k (List.mem_cons_of_mem m hk)) ⟨m', hmem, hprefix'⟩
      rwa [if_neg hne, if_neg hprefix] at hsame

/-- **What is unpacked** at a path: its last member, or a directory above one. -/
theorem extractAll_apply (h : extractAll t members = some u) (path : List String) :
    (∀ kind, lastAt path members = some kind → u path = some kind.node) ∧
      (lastAt path members = none → InArchive members path → u path = some .dir) ∧
        (¬InArchive members path → u path = t path) := by
  induction members generalizing t with
  | nil =>
    obtain rfl := Option.some_inj.mp h
    refine ⟨fun kind hkind => by simp [lastAt] at hkind, ?_, fun _ => rfl⟩
    rintro - ⟨m, hm, -⟩
    cases hm
  | cons m rest ih =>
    obtain ⟨t', hm, hrest⟩ := Option.bind_eq_some_iff.mp h
    obtain ⟨hopen, hfits, rfl⟩ := extractMember_eq_some_iff.mp hm
    obtain ⟨hkind, hdir, hnone⟩ := ih hrest
    refine ⟨fun kind hlast => ?_, fun hlast hin => ?_, fun hin => ?_⟩
    · cases hrestlast : lastAt path rest with
      | some k =>
        rw [lastAt, hrestlast, Option.some_or, Option.some_inj] at hlast
        exact hlast ▸ hkind k hrestlast
      | none =>
        rw [lastAt, hrestlast, Option.none_or] at hlast
        have hpath : m.parts = path := by
          by_contra hne
          rw [if_neg hne] at hlast
          cases hlast
        subst hpath
        rw [if_pos rfl, Option.some_inj] at hlast
        subst hlast
        by_cases hin : InArchive rest m.parts
        · -- a later member is below this one, which must be a directory then
          have hisopen := isOpen_of_extractAll hrest hrestlast hin
          rw [if_pos rfl] at hisopen
          rw [hdir hrestlast hin]
          cases hk : m.kind <;> simp [hk, Kind.node, isOpen] at hisopen
          rfl
        · rw [hnone hin, if_pos rfl]
    · have hall := lastAt_eq_none_iff.mp hlast
      have hrestlast : lastAt path rest = none :=
        lastAt_eq_none_iff.mpr fun k hk => hall k (List.mem_cons_of_mem m hk)
      have hne : path ≠ m.parts := (hall m List.mem_cons_self).symm
      by_cases hinrest : InArchive rest path
      · exact hdir hrestlast hinrest
      · obtain ⟨m', hm', hprefix⟩ := hin
        have heq : m' = m := (List.mem_cons.mp hm').resolve_right fun h => hinrest ⟨m', h, hprefix⟩
        rw [heq] at hprefix
        rw [hnone hinrest, if_neg hne, if_pos hprefix]
    · have hprefix : ¬path <+: m.parts := fun h => hin ⟨m, List.mem_cons_self, h⟩
      have hne : path ≠ m.parts := fun h => hprefix (h ▸ List.prefix_refl _)
      rw [hnone fun ⟨k, hk, h⟩ => hin ⟨k, List.mem_cons_of_mem m hk, h⟩, if_neg hne, if_neg hprefix]

/-- Every file of the archive is unpacked, with its last content. -/
theorem extractAll_file (h : extractAll extractDir members = some u) {content : α}
    (hfile : lastAt path members = some (.file content)) : u path = some (.file content) :=
  (extractAll_apply h path).1 _ hfile

/-- Nothing else is unpacked. -/
theorem extractAll_isSome_iff (h : extractAll extractDir members = some u) (hpath : path ≠ []) :
    (u path).isSome ↔ InArchive members path := by
  obtain ⟨hkind, hdir, hnone⟩ := extractAll_apply h path
  constructor
  · intro hsome
    by_contra hin
    rw [hnone hin, extractDir, if_neg hpath] at hsome
    cases hsome
  · intro hin
    cases hlast : lastAt path members with
    | some kind => rw [hkind kind hlast]; rfl
    | none => rw [hdir hlast hin]; rfl

/-- A file of the archive has a name. -/
theorem ne_nil_of_file (h : extractAll extractDir members = some u) {content : α}
    (hfile : lastAt path members = some (.file content)) : path ≠ [] := by
  rintro rfl
  have hroot : u [] = some .dir := isRealDir_extractAll h rfl
  rw [extractAll_file h hfile] at hroot
  cases hroot

theorem mem_topNames_iff {n : String} : n ∈ topNames members ↔ InArchive members [n] := by
  rw [topNames, List.mem_dedup, List.mem_filterMap]
  constructor
  · rintro ⟨m, hm, hhead⟩
    obtain ⟨rest, hparts⟩ := List.head?_eq_some_iff.mp hhead
    exact ⟨m, hm, hparts ▸ ⟨rest, rfl⟩⟩
  · rintro ⟨m, hm, rest, hparts⟩
    exact ⟨m, hm, hparts ▸ rfl⟩

/-- What is in the archive is under the name of an item. -/
theorem InArchive.top {n : String} (h : InArchive members (n :: path)) : n ∈ topNames members := by
  obtain ⟨m, hm, hprefix⟩ := h
  exact mem_topNames_iff.mpr ⟨m, hm, List.IsPrefix.trans ⟨path, rfl⟩ hprefix⟩

/-! ### What is moved -/

/-- What is left under the name of an item that does not get there, where `old` stood. -/
def remnant (old item : Content α) (o : Outcome α) : Option (Content α) :=
  if exists' (old []) then
    if isDir (old []) && !isRealDir (old []) then some old else o.removal.or o.move
  else
    match o.move with
    | some left => some left
    | none => if (old []).isSome && isRealDir (item []) then some old else none

variable {dest item : Content α} {n : String} {o : Outcome α} {items : List (String × Outcome α)}

/-- **One item**: it stands in the place of the old one, or something else is left there. -/
theorem moveItem_eq (dest item : Content α) (n : String) (o : Outcome α) :
    moveItem dest item n o =
      match remnant (dest.sub n) item o with
      | some left => (dest.put left n, false)
      | none => (dest.put item n, true) := by
  have hold : (dest.sub n) [] = dest [n] := rfl
  have hgone : (dest.put (fun _ => none) n) [n] = none := PathTree.put_cons_self []
  unfold moveItem remnant remove
  rw [hold]
  cases exists' (dest [n]) with
  | true =>
    cases isDir (dest [n]) && !isRealDir (dest [n]) with
    | true => simp
    | false =>
      cases hremoval : o.removal with
      | some left => simp
      | none => cases hmove : o.move <;> simp [move, hmove, hgone]
  | false =>
    cases hmove : o.move with
    | some left => simp [move, hmove]
    | none =>
      cases hstuck : (dest [n]).isSome && isRealDir (item []) <;> simp [move, hmove, hstuck]

/-- Every item gets to its place. -/
def AllMoved (dest t : Content α) (items : List (String × Outcome α)) : Prop :=
  ∀ i ∈ items, remnant (dest.sub i.1) (t.sub i.1) i.2 = none

/-- Up to the first item that does not get there, each was there already, and what is left of
that one is what was there. -/
def Restores (dest t : Content α) : List (String × Outcome α) → Prop
  | [] => True
  | (n, o) :: rest =>
    match remnant (dest.sub n) (t.sub n) o with
    | some left => left = dest.sub n
    | none => t.sub n = dest.sub n ∧ Restores dest t rest

/-- The moves of the items after an item that gets there. -/
theorem moveAll_cons_of_none (h : remnant (dest.sub n) (t.sub n) o = none) :
    moveAll dest t ((n, o) :: items) = moveAll (dest.put (t.sub n) n) t items := by
  rw [moveAll, moveItem_eq, h]

theorem moveAll_cons_of_some {left : Content α} (h : remnant (dest.sub n) (t.sub n) o = some left) :
    moveAll dest t ((n, o) :: items) = (dest.put left n, false) := by
  rw [moveAll, moveItem_eq, h]

/-- The moves leave the other names alone. -/
theorem sub_moveAll (h : n ∉ items.map Prod.fst) : (moveAll dest t items).1.sub n = dest.sub n := by
  induction items generalizing dest with
  | nil => rfl
  | cons i rest ih =>
    obtain ⟨m, o⟩ := i
    rw [List.map_cons, List.mem_cons, not_or] at h
    cases hremnant : remnant (dest.sub m) (t.sub m) o with
    | some left =>
      rw [moveAll_cons_of_some hremnant]
      exact PathTree.sub_put_of_ne h.1
    | none =>
      rw [moveAll_cons_of_none hremnant, ih h.2]
      exact PathTree.sub_put_of_ne h.1

theorem moveAll_nil_apply : (moveAll dest t items).1 [] = dest [] := by
  induction items generalizing dest with
  | nil => rfl
  | cons i rest ih =>
    obtain ⟨m, o⟩ := i
    cases hremnant : remnant (dest.sub m) (t.sub m) o with
    | some left =>
      rw [moveAll_cons_of_some hremnant]
      rfl
    | none => rw [moveAll_cons_of_none hremnant, ih, PathTree.put_nil]

/-- An item that was put there does not matter for the others. -/
theorem allMoved_put {s : Content α} (hn : n ∉ items.map Prod.fst) :
    AllMoved (dest.put s n) t items ↔ AllMoved dest t items := by
  refine forall₂_congr fun i hi => ?_
  have hne : i.1 ≠ n := fun h => hn (h ▸ List.mem_map_of_mem hi)
  rw [PathTree.sub_put_of_ne hne]

/-- **The loop goes through** if every item gets to its place. -/
theorem moveAll_snd (hnodup : (items.map Prod.fst).Nodup) :
    (moveAll dest t items).2 = true ↔ AllMoved dest t items := by
  induction items generalizing dest with
  | nil => exact iff_of_true rfl fun i hi => by cases hi
  | cons i rest ih =>
    obtain ⟨m, o⟩ := i
    rw [List.map_cons, List.nodup_cons] at hnodup
    have hcons : AllMoved dest t ((m, o) :: rest) ↔
        remnant (dest.sub m) (t.sub m) o = none ∧ AllMoved dest t rest := List.forall_mem_cons
    rw [hcons]
    cases hremnant : remnant (dest.sub m) (t.sub m) o with
    | some left =>
      rw [moveAll_cons_of_some hremnant]
      simp
    | none =>
      rw [moveAll_cons_of_none hremnant, ih hnodup.2, allMoved_put hnodup.1]
      simp

/-- **Every item is in its place** then. -/
theorem moveAll_sub_of_mem (hnodup : (items.map Prod.fst).Nodup) (hmoved : AllMoved dest t items)
    (hn : n ∈ items.map Prod.fst) : (moveAll dest t items).1.sub n = t.sub n := by
  induction items generalizing dest with
  | nil => cases hn
  | cons i rest ih =>
    obtain ⟨m, o⟩ := i
    rw [List.map_cons, List.nodup_cons] at hnodup
    have hremnant : remnant (dest.sub m) (t.sub m) o = none := hmoved (m, o) List.mem_cons_self
    have hrest : AllMoved dest t rest := fun i hi => hmoved i (List.mem_cons_of_mem _ hi)
    rw [moveAll_cons_of_none hremnant]
    rcases List.mem_cons.mp hn with rfl | hmem
    · rw [sub_moveAll hnodup.1, PathTree.sub_put_self]
    · exact ih hnodup.2 ((allMoved_put hnodup.1).mpr hrest) hmem

/-- **The loop leaves the destination as it was** if every item was there already, up to the
first that does not get there. -/
theorem moveAll_eq_self_iff (hnodup : (items.map Prod.fst).Nodup) :
    (moveAll dest t items).1 = dest ↔ Restores dest t items := by
  induction items with
  | nil => exact iff_of_true rfl trivial
  | cons i rest ih =>
    obtain ⟨m, o⟩ := i
    rw [List.map_cons, List.nodup_cons] at hnodup
    rw [Restores]
    cases hremnant : remnant (dest.sub m) (t.sub m) o with
    | some left =>
      rw [moveAll_cons_of_some hremnant]
      exact PathTree.put_eq_self_iff
    | none =>
      rw [moveAll_cons_of_none hremnant]
      constructor
      · intro h
        -- the rest of the loop does not touch this item
        have hsame : t.sub m = dest.sub m := by
          have hsub : (dest.put (t.sub m) m).sub m = dest.sub m :=
            (sub_moveAll hnodup.1).symm.trans (congrArg (fun d => PathTree.sub d m) h)
          rw [PathTree.sub_put_self] at hsub
          exact hsub
        rw [PathTree.put_eq_self_iff.mpr hsame] at h
        exact ⟨hsame, (ih hnodup.2).mp h⟩
      · rintro ⟨hsame, hrest⟩
        rw [PathTree.put_eq_self_iff.mpr hsame]
        exact (ih hnodup.2).mpr hrest

/-! ### An overlay that fails cleanly -/

/-- A file, or anything else that is not a directory. -/
def isLeaf : Option (Node α) → Bool
  | none | some .dir => false
  | _ => true

/-- **The archive lies over the destination.** -/
def Overlay (dest : Content α) (members : List (Member α)) (after : Content α) : Prop :=
  (∀ path content, lastAt path members = some (.file content) →
      after path = some (.file content)) ∧
    ∀ path, isLeaf (dest path) = true → ¬InArchive members path → after path = dest path

/-- The archive lies over the destination if the function returns, and the destination is
what it was if it raises. -/
def CleanOverlay (dest : Content α) (env : Env α) : Prop :=
  ((downloadAndExtractTarball dest env).2 = true →
      ∀ members ∈ env.archive, Overlay dest members (downloadAndExtractTarball dest env).1) ∧
    ((downloadAndExtractTarball dest env).2 = false →
      (downloadAndExtractTarball dest env).1 = dest)

/-- Once the moving begins: either it all goes through, and the files that were under the names
of the items are in the archive; or it does not, and the destination had the same in each
place that was reached. -/
def Spares (dest : Content α) (env : Env α) : Prop :=
  ∀ t ∈ env.unpacked,
    (AllMoved dest t env.items ∧ env.cleans = true →
      ∀ members ∈ env.archive, ∀ n ∈ topNames members, ∀ path,
        isLeaf (dest (n :: path)) = true → InArchive members (n :: path)) ∧
    (¬(AllMoved dest t env.items ∧ env.cleans = true) → Restores dest t env.items)

/-- The archive behind what is unpacked. -/
theorem Env.unpacked_eq_some {env : Env α} (h : env.unpacked = some t) :
    ∃ members, env.archive = some members ∧ extractAll extractDir members = some t := by
  cases harchive : env.archive with
  | none =>
    rw [Env.unpacked, harchive] at h
    cases h
  | some members =>
    simp only [Env.unpacked, harchive] at h
    refine ⟨members, rfl, ?_⟩
    by_cases hrejected : members.any Member.rejected = true
    · rw [if_pos hrejected] at h
      cases h
    · rw [if_neg hrejected] at h
      by_cases hextracts : env.extracts = true
      · rwa [if_pos hextracts] at h
      · rw [if_neg hextracts] at h
        cases h

/-- **The overlay**, once every item is in its place. -/
theorem overlay_iff (hunpacked : extractAll extractDir members = some t)
    (hitems : (items.map Prod.fst).Perm (topNames members)) (hmoved : AllMoved dest t items) :
    Overlay dest members (moveAll dest t items).1 ↔
      ∀ n ∈ topNames members, ∀ path,
        isLeaf (dest (n :: path)) = true → InArchive members (n :: path) := by
  have hnodup : (items.map Prod.fst).Nodup := hitems.nodup_iff.mpr (List.nodup_dedup _)
  have hafter : ∀ n ∈ topNames members, ∀ path,
      (moveAll dest t items).1 (n :: path) = t (n :: path) := fun n hn path =>
    congrFun (moveAll_sub_of_mem hnodup hmoved (hitems.mem_iff.mpr hn)) path
  constructor
  · rintro ⟨-, hkept⟩ n hn path hleaf
    by_contra hin
    have hsame := hkept (n :: path) hleaf hin
    have hsome : (t (n :: path)).isSome := by
      rw [← hafter n hn path, hsame]
      cases hnode : dest (n :: path) with
      | none => rw [hnode] at hleaf; cases hleaf
      | some node => rfl
    exact hin ((extractAll_isSome_iff hunpacked (by simp)).mp hsome)
  · intro hspares
    refine ⟨fun path content hfile => ?_, fun path hleaf hin => ?_⟩
    · cases path with
      | nil => exact absurd rfl (ne_nil_of_file hunpacked hfile)
      | cons n path =>
        have hfileAt := extractAll_file hunpacked hfile
        have htop : n ∈ topNames members :=
          ((extractAll_isSome_iff hunpacked (by simp)).mp (by rw [hfileAt]; rfl)).top
        rw [hafter n htop path, hfileAt]
    · cases path with
      | nil => exact moveAll_nil_apply
      | cons n path =>
        have htop : n ∉ items.map Prod.fst := fun h =>
          hin (hspares n (hitems.mem_iff.mp h) path hleaf)
        exact congrFun (sub_moveAll htop) path

/-- **Unpacking a bundle is an overlay that fails cleanly** exactly where it spares what is
under the names of the items. -/
theorem unpack_clean (dest : Content α) (env : Env α) :
    CleanOverlay dest env ↔ Spares dest env := by
  unfold CleanOverlay Spares downloadAndExtractTarball
  cases hunpacked : env.unpacked with
  | none => simp
  | some t =>
    obtain ⟨members, harchive, hextracted⟩ := env.unpacked_eq_some hunpacked
    have hitems := env.listed members harchive
    have hnodup : (env.items.map Prod.fst).Nodup := hitems.nodup_iff.mpr (List.nodup_dedup _)
    have hdone : ((moveAll dest t env.items).2 && env.cleans) = true ↔
        AllMoved dest t env.items ∧ env.cleans = true := by
      rw [Bool.and_eq_true, moveAll_snd hnodup]
    simp only [Option.mem_def, Option.some_inj, forall_eq', harchive, ← Bool.not_eq_true, hdone,
      moveAll_eq_self_iff hnodup]
    exact and_congr_left fun _ => forall_congr' fun hboth => overlay_iff hextracted hitems hboth.1

/-! ### A bundle that is not overlaid -/

/-- A directory with an engine. -/
def sharedDir : Content ℕ := fun path =>
  if path = [] ∨ path = ["engines"] then some .dir
  else if path = ["engines", "asr.engine"] then some (.file 1)
  else none

/-- An archive with another engine for it. -/
def otherEngine : List (Member ℕ) := [⟨false, ["engines", "tts.engine"], .file 2⟩]

/-- Nothing fails. -/
def otherEngineEnv : Env ℕ where
  archive := some otherEngine
  extracts := true
  items := [("engines", ⟨none, none⟩)]
  listed members h := by
    obtain rfl := Option.some_inj.mp h
    decide
  cleans := true

/-- The directory is removed with the engine in it, and the one in the archive takes its
place. -/
theorem otherEngine_removes :
    (downloadAndExtractTarball sharedDir otherEngineEnv).2 = true ∧
      (downloadAndExtractTarball sharedDir otherEngineEnv).1 ["engines", "asr.engine"] = none ∧
      ¬CleanOverlay sharedDir otherEngineEnv := by
  have hreturns : (downloadAndExtractTarball sharedDir otherEngineEnv).2 = true := by decide +kernel
  have hgone : (downloadAndExtractTarball sharedDir otherEngineEnv).1 ["engines", "asr.engine"] =
      none := by decide +kernel
  refine ⟨hreturns, hgone, fun h => ?_⟩
  have hkept := (h.1 hreturns otherEngine rfl).2 ["engines", "asr.engine"] (by decide)
    (by unfold InArchive; decide)
  rw [hgone] at hkept
  exact absurd hkept (by decide)

end OpenVoiceStream.HfArtifacts.Unpack
