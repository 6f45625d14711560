import OpenVoiceStream.HfArtifacts.Resumable

/-!
# What a resumable download delivers

Whatever the server answers and wherever attempts are killed, only bytes of the locked
size and hash become the destination, and the partial file begins with the blocks that the
state file lists.

## Main definitions

* `Phase` — what is true of the files at each point of the attempt with the lock.
* `Memory` — the blocks it has counted are at the beginning of the partial file.
* `DiskOk` — so are the blocks of the state file.

## Main results

* `Phase.step` — every step, short writes included, keeps the first.
* `Inv.step` — steps that write whole blocks keep all three.
* `delivers_locked` — the destination and the partial file along every run.
-/

namespace OpenVoiceStream.HfArtifacts

variable {α D : Type} {S : Setup α D}

/-! ### The attempt with the lock -/

/-- Past the checks: there is a state file, memory is not behind it, and the partial file is
the one that is open. -/
def Held (d : Disk α D) (a : Attempt α D) : Prop :=
  (∃ m, d.state = some m ∧ m.committed ≤ a.committed) ∧ d.part.isSome = a.hasPart

/-- Cutting or lengthening the partial file leaves what is held. -/
theorem Held.map {d : Disk α D} {a : Attempt α D} (h : Held d a) (f : List α → List α) :
    Held { d with part := d.part.map f } a :=
  ⟨h.1, by rw [Option.isSome_map]; exact h.2⟩

/-- Every block that is listed moves the end on. -/
theorem contiguous_le {offset finish : ℕ} {blocks : List (Block D)}
    (h : contiguous offset blocks = some finish) : offset + blocks.length ≤ finish := by
  induction blocks generalizing offset with
  | nil =>
    rw [contiguous, Option.some.injEq] at h
    simp [h]
  | cons entry rest ih =>
    rw [contiguous] at h
    split at h
    · next hentry =>
      have := ih h
      rw [List.length_cons]
      omega
    · cases h

variable [DecidableEq D]

variable (S) in
/-- What is true of the files at each point. -/
def Phase (d : Disk α D) (a : Attempt α D) : Prop :=
  match a.pc with
  | .opening => True
  | .made => d.part = some [] ∧ d.state = none ∧ a.committed = 0 ∧ a.blocks = [] ∧ a.hasPart = true
  | .verified => ∃ p, d.part = some p ∧ S.good p = true
  | .replaced => d.part = none ∧ ∃ b, d.dest = some b ∧ S.good b = true
  | _ => Held d a

/-- Every step of the attempt keeps what is true at its points. -/
theorem Phase.step {d d' : Disk α D} {a a' : Attempt α D} {action : Action α}
    (hstep : HolderStep S d a action d' (some a')) (h : Phase S d a) : Phase S d' a' := by
  cases hstep with
  | openExisting _ _ _ _ m hstate hresume => exact ⟨⟨m, hstate, le_refl _⟩, rfl⟩
  | openFresh _ _ _ _ hpart hstate => exact ⟨rfl, hstate, rfl, rfl, rfl⟩
  | storeFresh =>
    obtain ⟨hpart, -, -, -, hopen⟩ := h
    exact ⟨⟨_, rfl, Nat.zero_le _⟩, by rw [hpart]; exact hopen.symm⟩
  | trim => exact Held.map h _
  | respond => exact h
  | data => exact h
  | write => exact Held.map h _
  | count =>
    obtain ⟨⟨m, hstate, hle⟩, hopen⟩ := h
    exact ⟨⟨m, hstate, Nat.le_add_right_of_le hle⟩, hopen⟩
  | store => exact ⟨⟨_, rfl, le_refl _⟩, h.2⟩
  | finishBody => exact h
  | caughtTop => exact h
  | caughtBody => exact h
  | caughtWrote => exact h
  | caughtCounted => exact h
  | handle => exact Held.map h _
  | verify _ _ _ _ p hc hpart hgood => exact ⟨p, hpart, hgood⟩
  | replace =>
    obtain ⟨p, hpart, hgood⟩ := h
    exact ⟨rfl, p, hpart, hgood⟩

/-- The destination is changed by one step only, and gets verified bytes. -/
theorem dest_of_holderStep {d d' : Disk α D} {a : Attempt α D} {a' : Option (Attempt α D)}
    {action : Action α} (hstep : HolderStep S d a action d' a') (h : Phase S d a) :
    d'.dest = d.dest ∨ ∃ b, d'.dest = some b ∧ S.good b = true := by
  cases hstep with
  | replace =>
    obtain ⟨p, hpart, hgood⟩ := h
    exact .inr ⟨p, hpart, hgood⟩
  | _ => exact .inl rfl

/-! ### The blocks -/

variable (S) in
/-- The blocks of the state file are at the beginning of the partial file. -/
def DiskOk (d : Disk α D) : Prop :=
  ∀ m, d.state = some m → ∀ p, d.part = some p → Recorded S p m.committed m.blocks

/-- The bytes of the partial file, none when there is no such file. -/
def Disk.bytes (d : Disk α D) : List α := d.part.getD []

variable (S) in
/-- The blocks counted in memory are at the beginning of the partial file, and nothing else
is in it where the loop is to add to it. -/
def Memory (d : Disk α D) (a : Attempt α D) : Prop :=
  match a.pc with
  | .checked => Recorded S d.bytes a.committed a.blocks
  | .top => Recorded S d.bytes a.committed a.blocks ∧ d.bytes.length = a.committed
  | .body finish pending => Recorded S d.bytes a.committed a.blocks ∧
      d.bytes.length = a.committed ∧ a.committed + pending.length ≤ finish ∧
        finish ≤ S.expectedSize ∧ d.part.isSome = true
  | .wrote finish pending block => ∃ p, d.part = some (p ++ block) ∧ p.length = a.committed ∧
      Recorded S p a.committed a.blocks ∧ block ≠ [] ∧
        a.committed + block.length + pending.length ≤ finish ∧ finish ≤ S.expectedSize
  | .counted finish pending => Recorded S d.bytes a.committed a.blocks ∧
      d.bytes.length = a.committed ∧ a.committed + pending.length ≤ finish ∧
        finish ≤ S.expectedSize ∧ d.part.isSome = true
  | .failed => Recorded S d.bytes a.committed a.blocks
  | _ => True

/-- A state that passes the checks without a partial file lists no block. -/
theorem resumeState_none {m : Metadata D} (h : resumeState S m none = .ok ()) :
    m.committed = 0 ∧ m.blocks = [] := by
  unfold resumeState at h
  split at h
  · cases h
  split at h
  · cases h
  split at h
  · cases h
  split at h
  · cases h
  split at h
  · cases h
  · next finish hfinish =>
    split at h
    · cases h
    · next hcommitted =>
      split at h
      · cases h
      · next hsize =>
        have hzero : m.committed = 0 := by
          by_contra hne
          exact hsize (.inr ⟨rfl, hne⟩)
        have hlen := contiguous_le hfinish
        refine ⟨hzero, List.eq_nil_of_length_eq_zero ?_⟩
        omega

omit [DecidableEq D] in
/-- Cutting off what is past the committed bytes. -/
theorem bytes_trim (d : Disk α D) (n : ℕ) :
    Disk.bytes { d with part := d.part.map fun p => p.take n } = d.bytes.take n := by
  unfold Disk.bytes
  cases d.part with
  | none => exact List.take_nil.symm
  | some p => rfl

/-- What the next block is: the first bytes of what was read, not none of them, within the
range. -/
theorem nextBlock_spec {committed finish : ℕ} {pending block rest : List α}
    (h : nextBlock committed finish pending = some (block, rest)) :
    pending = block ++ rest ∧ block ≠ [] := by
  unfold nextBlock at h
  split at h
  · next hfull =>
    cases h
    refine ⟨(List.take_append_drop _ _).symm, ?_⟩
    have hpos : 0 < (pending.take blockSize).length := by
      rw [List.length_take]
      have := blockSize_pos
      omega
    exact List.length_pos_iff.mp hpos
  · split at h
    · next hlast =>
      cases h
      exact ⟨(List.append_nil _).symm, hlast.1⟩
    · cases h

/-- A step that writes whole blocks, if it writes at all. -/
def Whole (a : Attempt α D) : Action α → Bool
  | .write n => match a.pc with
    | .body finish pending =>
      (nextBlock a.committed finish pending).elim true fun next => decide (next.1.length ≤ n)
    | _ => true
  | _ => true

/-- Steps that write whole blocks keep the counted blocks at the beginning of the file. -/
theorem Memory.step {d d' : Disk α D} {a a' : Attempt α D} {action : Action α}
    (hstep : HolderStep S d a action d' (some a')) (hwhole : Whole a action = true) (hphase : Phase S d a)
    (hdisk : DiskOk S d) (h : Memory S d a) : Memory S d' a' := by
  cases hstep with
  | openExisting _ _ _ _ m hstate hresume =>
    show Recorded S d.bytes m.committed m.blocks
    cases hpart : d.part with
    | none =>
      rw [hpart] at hresume
      obtain ⟨hcommitted, hblocks⟩ := resumeState_none hresume
      rw [hcommitted, hblocks]
      exact Recorded.nil S _
    | some p =>
      have := hdisk m hstate p hpart
      rwa [Disk.bytes, hpart]
  | openFresh => exact trivial
  | storeFresh c b _ _ =>
    obtain ⟨-, -, hc, hb, -⟩ := hphase
    dsimp only at hc hb
    subst hc hb
    exact Recorded.nil S _
  | trim c b _ _ =>
    have hrec : Recorded S d.bytes c b := h
    refine ⟨?_, ?_⟩
    · rw [bytes_trim]
      exact hrec.take (le_refl _)
    · rw [bytes_trim, List.length_take]
      exact Nat.min_eq_left hrec.le_length
  | respond c b _ _ hc hresp =>
    obtain ⟨hrec, hlen⟩ := h
    refine ⟨hrec, hlen, ?_, Nat.min_le_left _ _, hphase.2⟩
    show c + 0 ≤ min S.expectedSize (c + window)
    rw [Nat.add_zero, Nat.le_min]
    exact ⟨le_of_lt hc, Nat.le_add_right _ _⟩
  | data c b _ _ finish pending bytes hne hpending hbytes =>
    obtain ⟨hrec, hlen, hle, hsize, hsome⟩ := h
    refine ⟨hrec, hlen, ?_, hsize, hsome⟩
    show c + (pending ++ bytes).length ≤ finish
    have hle' : c + pending.length ≤ finish := hle
    rw [List.length_append]
    have := (Nat.le_min.mp hbytes).2
    omega
  | write c b _ _ finish pending n block rest hnext =>
    obtain ⟨hrec, hlen, hle, hsize, hsome⟩ := h
    obtain ⟨hpending, hblock⟩ := nextBlock_spec hnext
    obtain ⟨p, hpart⟩ := Option.isSome_iff_exists.mp hsome
    have hbytes : d.bytes = p := by rw [Disk.bytes, hpart, Option.getD_some]
    rw [hbytes] at hrec hlen
    have hn : block.length ≤ n := by simpa [Whole, hnext] using hwhole
    refine ⟨p, ?_, hlen, hrec, hblock, ?_, hsize⟩
    · show d.part.map _ = _
      rw [hpart, Option.map_some, List.take_of_length_le hn]
    · have hle' : c + pending.length ≤ finish := hle
      rw [hpending, List.length_append] at hle'
      show c + block.length + rest.length ≤ finish
      omega
  | count c b _ _ finish pending block =>
    obtain ⟨p, hpart, hlen, hrec, hblock, hle, hsize⟩ := h
    dsimp only at hpart hlen hrec hle
    have hbytes : d.bytes = p ++ block := by rw [Disk.bytes, hpart, Option.getD_some]
    refine ⟨?_, ?_, hle, hsize, ?_⟩
    · rw [hbytes]
      exact hrec.snoc hlen hblock (by omega)
    · rw [hbytes, List.length_append, hlen]
    · rw [hpart, Option.isSome_some]
  | store => exact h
  | finishBody =>
    obtain ⟨hrec, hlen, -⟩ := h
    exact ⟨hrec, hlen⟩
  | caughtTop => exact h.1
  | caughtBody => exact h.1
  | caughtWrote c b _ _ finish pending block =>
    obtain ⟨p, hpart, -, hrec, -⟩ := h
    show Recorded S d.bytes c b
    rw [Disk.bytes, hpart, Option.getD_some]
    exact hrec.append block
  | caughtCounted => exact h.1
  | handle c b _ _ hr =>
    have hrec : Recorded S d.bytes c b := h
    refine ⟨?_, ?_⟩
    · rw [bytes_trim]
      exact hrec.take (le_refl _)
    · rw [bytes_trim, List.length_take]
      exact Nat.min_eq_left hrec.le_length
  | verify => exact trivial
  | replace => exact trivial

/-- The bytes of the state file stay at the beginning of the partial file, whatever is
written; where the state file is replaced, by what is in memory then. -/
theorem DiskOk.step {d d' : Disk α D} {a : Attempt α D} {a' : Option (Attempt α D)}
    {action : Action α} (hstep : HolderStep S d a action d' a') (hphase : Phase S d a)
    (hstore : ∀ finish pending, a.pc = .counted finish pending → action = .store →
      ∀ p, d.part = some p → Recorded S p a.committed a.blocks)
    (h : DiskOk S d) : DiskOk S d' := by
  cases hstep with
  | openFresh _ _ _ _ hpart hstate =>
    intro m hm
    exact absurd (hstate.symm.trans hm) nofun
  | storeFresh =>
    intro m hm p hp
    cases hm
    exact Recorded.nil S p
  | trim c b _ _ =>
    obtain ⟨⟨m, hstate, hle⟩, -⟩ := hphase
    intro m' hm' p' hp'
    obtain ⟨p, hp, rfl⟩ := Option.map_eq_some_iff.mp hp'
    cases hstate.symm.trans hm'
    exact (h m hstate p hp).take hle
  | write c b _ _ finish pending n block rest hnext =>
    intro m hm p' hp'
    obtain ⟨p, hp, rfl⟩ := Option.map_eq_some_iff.mp hp'
    exact (h m hm p hp).append _
  | store c b _ _ finish pending =>
    intro m hm p hp
    cases hm
    exact hstore finish pending rfl rfl p hp
  | handle c b _ _ hr =>
    obtain ⟨⟨m, hstate, hle⟩, -⟩ := hphase
    intro m' hm' p' hp'
    obtain ⟨p, hp, rfl⟩ := Option.map_eq_some_iff.mp hp'
    cases hstate.symm.trans hm'
    exact (h m hstate p hp).take hle
  | replace =>
    intro m _ p hp
    cases hp
  | unlink =>
    intro m hm
    cases hm
  | _ => exact h

/-! ### Whole histories -/

variable (S) in
/-- The invariant of a history of attempts. -/
structure Inv (c : Config α D) : Prop where
  phase : ∀ a, c.attempt = some a → Phase S c.disk a
  memory : ∀ a, c.attempt = some a → Memory S c.disk a
  disk : DiskOk S c.disk

/-- A step outside the lock leaves the files, and one that takes the lock begins anew; the
others are those of the attempt with the lock. -/
theorem step_cases {c c' : Config α D} {action : Action α} (h : step S c action = some c') :
    (c'.disk = c.disk ∧
        (c'.attempt = c.attempt ∨ c.attempt = none ∧ c'.attempt = some .fresh) ∧
        (action = .early → ∃ b, c.disk.dest = some b ∧ S.good b = true) ∧ action ≠ .unlink) ∨
      ∃ a, c.attempt = some a ∧ HolderStep S c.disk a action c'.disk c'.attempt ∧
        action ≠ .early := by
  unfold step at h
  split at h
  · split at h
    · cases h
      refine .inl ⟨rfl, .inl rfl, ?_, ?_⟩
      · intro hearly
        cases hearly
      · intro hunlink
        cases hunlink
    · cases h
  · split at h
    · cases h
      refine .inl ⟨rfl, .inl rfl, ?_, ?_⟩
      · intro hearly
        cases hearly
      · intro hunlink
        cases hunlink
    · cases h
  · split at h
    · next hgood =>
      cases h
      refine .inl ⟨rfl, .inl rfl, ?_, ?_⟩
      · intro _
        cases hdest : c.disk.dest with
        | none => rw [hdest] at hgood; cases hgood
        | some b => rw [hdest] at hgood; exact ⟨b, rfl, hgood⟩
      · intro hunlink
        cases hunlink
    · cases h
  · split at h
    · next hfree =>
      cases h
      refine .inl ⟨rfl, .inr ⟨Option.isNone_iff_eq_none.mp hfree.2, rfl⟩, ?_, ?_⟩
      · intro hearly
        cases hearly
      · intro hunlink
        cases hunlink
    · cases h
  · next hearly _ =>
    split at h
    · cases h
    · next holder hattempt =>
      obtain ⟨⟨d, a'⟩, hr, rfl⟩ := Option.map_eq_some_iff.mp h
      exact .inr ⟨holder, hattempt, .of_eq hr, hearly⟩

/-- The steps outside the lock keep the invariant. -/
theorem Inv.outside {c c' : Config α D} (hdisk : c'.disk = c.disk)
    (hattempt : c'.attempt = c.attempt ∨ c.attempt = none ∧ c'.attempt = some .fresh)
    (h : Inv S c) : Inv S c' := by
  constructor
  · intro a ha
    rw [hdisk]
    rcases hattempt with hsame | ⟨-, hfresh⟩
    · exact h.phase a (hsame ▸ ha)
    · cases hfresh.symm.trans ha
      exact trivial
  · intro a ha
    rw [hdisk]
    rcases hattempt with hsame | ⟨-, hfresh⟩
    · exact h.memory a (hsame ▸ ha)
    · cases hfresh.symm.trans ha
      exact trivial
  · rw [hdisk]
    exact h.disk

omit [DecidableEq D] in
/-- Memory's blocks may be stored. -/
theorem Memory.store {d : Disk α D} {a : Attempt α D} (h : Memory S d a) {finish : ℕ}
    {pending : List α} (hpc : a.pc = .counted finish pending) {p : List α} (hp : d.part = some p) :
    Recorded S p a.committed a.blocks := by
  unfold Memory at h
  rw [hpc] at h
  have := h.1
  rwa [Disk.bytes, hp] at this

/-- The attempt with the lock writes whole blocks. -/
def WholeWrites (c : Config α D) (action : Action α) : Prop :=
  c.attempt.elim true (Whole · action) = true

instance (c : Config α D) (action : Action α) : Decidable (WholeWrites c action) :=
  inferInstanceAs (Decidable (_ = true))

/-- Steps that write whole blocks keep the invariant. -/
theorem Inv.step {c c' : Config α D} {action : Action α} (h : Inv S c)
    (hwhole : WholeWrites c action) (hstep : HfArtifacts.step S c action = some c') : Inv S c' := by
  rcases step_cases hstep with ⟨hdisk, hattempt, -⟩ | ⟨a, ha, hholder, -⟩
  · exact h.outside hdisk hattempt
  · have hwhole' : Whole a action = true := by
      rw [WholeWrites, ha] at hwhole
      exact hwhole
    constructor
    · intro a' ha'
      rw [ha'] at hholder
      exact (h.phase a ha).step hholder
    · intro a' ha'
      rw [ha'] at hholder
      exact (h.memory a ha).step hholder hwhole' (h.phase a ha) h.disk
    · exact h.disk.step hholder (h.phase a ha) fun _ _ hpc _ _ hp => (h.memory a ha).store hpc hp

theorem inv_start (dest : Option (List α)) : Inv S (start dest) where
  phase a ha := by cases ha
  memory a ha := by cases ha
  disk m hm := by cases hm

/-- What every step does to the destination, and what it is when an attempt returns. -/
theorem dest_of_step {c c' : Config α D} {action : Action α} (h : Inv S c)
    (hstep : HfArtifacts.step S c action = some c') :
    (action.returns = true → ∃ b, c'.disk.dest = some b ∧ S.good b = true) ∧
      (c'.disk.dest = c.disk.dest ∨ ∃ b, c'.disk.dest = some b ∧ S.good b = true) := by
  rcases step_cases hstep with ⟨hdisk, -, hearly, hunlink⟩ | ⟨a, ha, hholder, hearly⟩
  · rw [hdisk]
    refine ⟨fun hreturns => ?_, .inl rfl⟩
    cases action with
    | early => exact hearly rfl
    | unlink => exact absurd rfl hunlink
    | _ => cases hreturns
  · refine ⟨fun hreturns => ?_, dest_of_holderStep hholder (h.phase a ha)⟩
    cases action with
    | early => exact absurd rfl hearly
    | unlink =>
      have hphase := h.phase a ha
      generalize c'.disk = d' at hholder ⊢
      generalize c'.attempt = a' at hholder
      generalize c.disk = d at hholder hphase
      cases hholder
      exact hphase.2
    | _ => cases hreturns

theorem good_iff {bytes : List α} :
    S.good bytes = true ↔ bytes.length = S.expectedSize ∧ S.sha bytes = S.expectedSha256 := by
  simp [Setup.good]

/-- The attempt is at the top of its loop, or has just passed its checks. -/
def AtLoop (a : Attempt α D) : Prop :=
  match a.pc with
  | .checked => True
  | .top => True
  | _ => False

/-- **What a resumable download delivers.** In every history of attempts whose writes are
whole, from a directory without the partial files: an attempt that returns leaves the
locked file at the destination; no step changes the destination to anything else; and at
the top of the loop, as after the checks, the first `committed` bytes of the partial file
are the concatenation of the blocks, both as memory has them and as the state file does. -/
theorem delivers_locked (dest : Option (List α)) {actions : List (Action α)} {c : Config α D}
    (hwhole : (machine S dest).Guarded WholeWrites (start dest) actions)
    (hrun : (machine S dest).run actions = some c) :
    (∀ action c', HfArtifacts.step S c action = some c' →
      (action.returns = true → ∃ b, c'.disk.dest = some b ∧
        b.length = S.expectedSize ∧ S.sha b = S.expectedSha256) ∧
      (c'.disk.dest = c.disk.dest ∨ ∃ b, c'.disk.dest = some b ∧
        b.length = S.expectedSize ∧ S.sha b = S.expectedSha256)) ∧
      ∀ a, c.attempt = some a → AtLoop a →
        Recorded S c.disk.bytes a.committed a.blocks ∧
          ∀ m p, c.disk.state = some m → c.disk.part = some p →
            Recorded S p m.committed m.blocks := by
  have hinv : Inv S c := (machine S dest).invariant_of_guarded WholeWrites (inv_start dest)
    (fun _ _ _ h hok hs => h.step hok hs) hwhole hrun
  constructor
  · intro action c' hstep
    have hdest := dest_of_step hinv hstep
    simp only [good_iff] at hdest
    exact hdest
  · intro a ha hloop
    refine ⟨?_, fun m p hm hp => hinv.disk m hm p hp⟩
    have hmemory := hinv.memory a ha
    unfold AtLoop at hloop
    unfold Memory at hmemory
    split at hloop
    · next hpc =>
      rw [hpc] at hmemory
      exact hmemory
    · next hpc =>
      rw [hpc] at hmemory
      exact hmemory.1
    · exact hloop.elim

/-- A file of two bytes, hashed by itself. -/
def sampleSetup : Setup ℕ (List ℕ) where
  sha := id
  jsonSize m := 400 + 125 * m.blocks.length
  identity := "repo|rev|model.bin"
  expectedSize := 2
  expectedSha256 := [1, 2]
  size_pos := Nat.two_pos
  maxRetries := 2
  hostsRestricted := true

/-- A right answer for the whole of it. -/
def sampleResponse : Response := ⟨"cdn-lfs.huggingface.co", 206, some (0, 1, 2), 2⟩

/-- A history: one attempt is killed after its block is written, the next resumes. -/
def sampleActions : List (Action ℕ) :=
  [.arrive, .enter, .openFresh, .storeFresh, .trim, .respond sampleResponse, .data [1, 2],
    .write 2, .stop, .arrive, .enter, .openExisting, .trim, .respond sampleResponse, .data [1],
    .data [2], .write 2, .count, .store, .finishBody, .verify, .replace]

/-- After the history the attempt returns with the file in place. -/
theorem delivers_locked_sample :
    ∃ c, (machine sampleSetup none).run sampleActions = some c ∧
      ∀ c', HfArtifacts.step sampleSetup c .unlink = some c' →
        ∃ b, c'.disk.dest = some b ∧ b.length = 2 ∧ sampleSetup.sha b = [1, 2] := by
  refine ⟨_, rfl, fun c' hstep => ?_⟩
  have hwhole : (machine sampleSetup none).Guarded WholeWrites (start none) sampleActions := by
    decide
  have hdelivers := delivers_locked (S := sampleSetup) none hwhole rfl
  exact (hdelivers.1 .unlink c' hstep).1 rfl

end OpenVoiceStream.HfArtifacts
