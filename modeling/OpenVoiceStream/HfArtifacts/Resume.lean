import OpenVoiceStream.HfArtifacts.Integrity

/-!
# When a download can be resumed

The checks at a resume fail closed, so an attempt may leave files behind that no later
attempt accepts. Two things do that: an attempt that ends between making the partial file
and writing the first state file, and a state file that lists a block which is not, whole
and as the locked file has it, in the partial file. In every history without them the next
attempt against a good server returns.

## Main definitions

* `Fair` — neither of the two happens.
* `Right`, `Completes`, `Returns` — an attempt against a good server, that it ends with the
  locked file in place, and that the next attempt does.
* `Sound` — the files a history of fair steps leaves.
* `Ready`, `rank` — what such an attempt keeps, and what goes down with each of its steps.

## Main results

* `Sound.step` — fair steps keep `Sound`.
* `completes_of_ready` — an attempt against a good server comes to its end.
* `returns_of_fair` — after every fair history the next attempt returns.
* `killed_before_state` — a history after which no attempt returns.
-/

namespace OpenVoiceStream.HfArtifacts

variable {α D : Type} [DecidableEq D] (S : Setup α D) (locked : List α)

/-! ### Attempts against a good server -/

/-- A step of an attempt that is neither killed nor meets an exception, whose writes are
whole and whose bodies are the bytes of the locked file. -/
def Right (a : Attempt α D) : Action α → Prop
  | .data bytes => match a.pc with
    | .body _ pending => bytes <+: locked.drop (a.committed + pending.length)
    | _ => False
  | .write n => Whole a (.write n) = true
  | .openExisting => True
  | .openFresh => True
  | .storeFresh => True
  | .trim => True
  | .respond _ => True
  | .count => True
  | .store => True
  | .finishBody => True
  | .verify => True
  | .replace => True
  | .unlink => True
  | _ => False

/-- However it goes on, as long as its steps are right, the attempt with the lock comes to
the step by which it returns, with the locked file in place. -/
inductive Completes : Config α D → Prop
  | intro (c : Config α D) (a : Attempt α D) (hattempt : c.attempt = some a)
      (progress : ∃ action c', Right locked a action ∧ step S c action = some c')
      (next : ∀ action c', Right locked a action → step S c action = some c' →
        action.returns = false → Completes c')
      (finish : ∀ action c', Right locked a action → step S c action = some c' →
        action.returns = true → ∃ b, c'.disk.dest = some b ∧ S.good b = true) : Completes c

/-- The next attempt returns: at once, or when it has got the lock. -/
def Returns (c : Config α D) : Prop :=
  (∃ c', step S c .early = some c') ∨
    ∃ waiting holding, step S c .arrive = some waiting ∧ step S waiting .enter = some holding ∧
      Completes S locked holding

/-! ### Fair histories -/

/-- An attempt does not end between making the partial file and writing the first state
file; and where it writes a state file, that can be read again, and the blocks it lists are
in the partial file, as they are in the locked file. -/
def FairStep (d : Disk α D) (a : Attempt α D) (action : Action α) : Prop :=
  match a.pc, action with
  | .made, .stop => False
  | .made, .storeFresh => S.jsonSize (S.metadata 0 []) ≤ jsonLimit
  | .counted _ _, .store => S.jsonSize (S.metadata a.committed a.blocks) ≤ jsonLimit ∧
      Recorded S d.bytes a.committed a.blocks ∧ d.bytes.take a.committed <+: locked
  | _, _ => True

/-- The attempt with the lock, if there is one, takes such steps. -/
def Fair (c : Config α D) (action : Action α) : Prop :=
  ∀ a, c.attempt = some a → FairStep S locked c.disk a action

/-- What a fair history leaves: a state file that can be read and whose blocks are in the
partial file, as they are in the locked file; a partial file only with a state file, unless
the latter is about to be written; a state file only with a partial file, unless the
destination is in place; no other destination. -/
structure Sound (d : Disk α D) (holder : Option (Attempt α D)) : Prop where
  state : ∀ m, d.state = some m → m = S.metadata m.committed m.blocks ∧ S.jsonSize m ≤ jsonLimit
  recorded : ∀ m p, d.state = some m → d.part = some p →
    Recorded S p m.committed m.blocks ∧ p.take m.committed <+: locked
  part : d.part.isSome = true → d.state.isSome = true ∨ ∃ a, holder = some a ∧ a.pc = .made
  dest : d.state.isSome = true → d.part.isSome = true ∨ d.dest.isSome = true
  good : ∀ b, d.dest = some b → S.good b = true
  phase : ∀ a, holder = some a → Phase S d a

variable {S locked}

theorem sound_start : Sound S locked (start none : Config α D).disk none where
  state m hm := by cases hm
  recorded m p hm := by cases hm
  part h := by cases h
  dest h := by cases h
  good b hb := by cases hb
  phase a ha := by cases ha

omit [DecidableEq D] in
/-- What is recorded stays so when bytes are cut off after it, -/
private theorem recorded_take {p : List α} {n k : ℕ} {blocks : List (Block D)}
    (h : Recorded S p n blocks ∧ p.take n <+: locked) (hk : n ≤ k) :
    Recorded S (p.take k) n blocks ∧ (p.take k).take n <+: locked := by
  refine ⟨h.1.take hk, ?_⟩
  rw [List.take_take, Nat.min_eq_left hk]
  exact h.2

omit [DecidableEq D] in
/-- or added. -/
private theorem recorded_append {p : List α} {n : ℕ} {blocks : List (Block D)} (tail : List α)
    (h : Recorded S p n blocks ∧ p.take n <+: locked) :
    Recorded S (p ++ tail) n blocks ∧ (p ++ tail).take n <+: locked := by
  refine ⟨h.1.append tail, ?_⟩
  rw [List.take_append_of_le_length h.1.le_length]
  exact h.2

/-- Past the checks there is a state file; so the partial file may be changed after the
committed bytes. -/
private theorem Sound.map {d : Disk α D} {a a' : Attempt α D} (h : Sound S locked d (some a))
    (hheld : Held d a) (f : List α → List α)
    (hf : ∀ m p, d.state = some m → d.part = some p →
      Recorded S (f p) m.committed m.blocks ∧ (f p).take m.committed <+: locked)
    (hphase : Phase S { d with part := d.part.map f } a') :
    Sound S locked { d with part := d.part.map f } (some a') where
  state := h.state
  recorded m p hm hp := by
    obtain ⟨q, hq, rfl⟩ := Option.map_eq_some_iff.mp hp
    exact hf m q hm hq
  part _ := by
    obtain ⟨⟨m, hstate, -⟩, -⟩ := hheld
    exact .inl (by rw [hstate, Option.isSome_some])
  dest hs := by
    rw [Option.isSome_map]
    exact h.dest hs
  good := h.good
  phase a'' ha'' := by
    cases ha''
    exact hphase

/-- A step that leaves the files alone. -/
private theorem Sound.same {d : Disk α D} {a a' : Attempt α D} (h : Sound S locked d (some a))
    (hmade : a.pc ≠ .made) (hphase : Phase S d a') : Sound S locked d (some a') where
  state := h.state
  recorded := h.recorded
  part hp := by
    rcases h.part hp with hs | ⟨b, hb, hpc⟩
    · exact .inl hs
    · cases hb
      exact absurd hpc hmade
  dest := h.dest
  good := h.good
  phase b hb := by
    cases hb
    exact hphase

/-- A fair step of the attempt with the lock keeps what is sound. -/
theorem Sound.holder {d d' : Disk α D} {a : Attempt α D} {a' : Option (Attempt α D)}
    {action : Action α} (h : Sound S locked d (some a)) (hfair : FairStep S locked d a action)
    (hstep : HolderStep S d a action d' a') : Sound S locked d' a' := by
  have hphase := h.phase a rfl
  have hnext : ∀ b, a' = some b → Phase S d' b := by
    intro b hb
    rw [hb] at hstep
    exact hphase.step hstep
  cases hstep with
  | stop =>
    refine ⟨h.state, h.recorded, ?_, h.dest, h.good, by intro b hb; cases hb⟩
    intro hp
    rcases h.part hp with hs | ⟨b, hb, hpc⟩
    · exact .inl hs
    · -- an attempt that has just made the partial file does not stop
      cases hb
      simp only [FairStep, hpc] at hfair
  | openExisting => exact h.same (by intro hmade; cases hmade) (hnext _ rfl)
  | openFresh _ _ _ _ hpart hstate =>
    refine ⟨h.state, ?_, fun _ => .inr ⟨_, rfl, rfl⟩, fun _ => .inl rfl, h.good, hnext⟩
    intro m p hm
    cases hstate.symm.trans hm
  | storeFresh c b _ _ =>
    refine ⟨?_, ?_, fun _ => .inl rfl, ?_, h.good, hnext⟩
    · intro m hm
      cases hm
      exact ⟨rfl, hfair⟩
    · intro m p hm _
      cases hm
      exact ⟨Recorded.nil S p, List.nil_prefix⟩
    · intro _
      have hpart : d.part = some [] := hphase.1
      exact .inl (by rw [hpart, Option.isSome_some])
  | trim c b _ _ =>
    obtain ⟨m, hstate, hle⟩ := hphase.1
    refine h.map hphase _ ?_ (hnext _ rfl)
    intro m' p hm' hp
    cases hstate.symm.trans hm'
    exact recorded_take (h.recorded m p hstate hp) hle
  | respond => exact h.same (by intro hmade; cases hmade) (hnext _ rfl)
  | data => exact h.same (by intro hmade; cases hmade) (hnext _ rfl)
  | write c b _ _ finish pending n block rest hblock =>
    refine h.map hphase _ ?_ (hnext _ rfl)
    intro m p hm hp
    exact recorded_append _ (h.recorded m p hm hp)
  | count => exact h.same (by intro hmade; cases hmade) (hnext _ rfl)
  | store c b _ _ finish pending =>
    obtain ⟨hjson, hrec, hprefix⟩ := hfair
    refine ⟨?_, ?_, fun _ => .inl rfl, ?_, h.good, hnext⟩
    · intro m hm
      cases hm
      exact ⟨rfl, hjson⟩
    · intro m p hm hp
      cases hm
      have hbytes : d.bytes = p := by rw [Disk.bytes, hp, Option.getD_some]
      rw [hbytes] at hrec hprefix
      exact ⟨hrec, hprefix⟩
    · intro _
      have hheld : Held d ⟨.counted finish pending, c, b, _, _⟩ := hphase
      obtain ⟨⟨m, hstate, -⟩, -⟩ := hheld
      exact h.dest (by rw [hstate, Option.isSome_some])
  | finishBody => exact h.same (by intro hmade; cases hmade) (hnext _ rfl)
  | caughtTop => exact h.same (by intro hmade; cases hmade) (hnext _ rfl)
  | caughtBody => exact h.same (by intro hmade; cases hmade) (hnext _ rfl)
  | caughtWrote => exact h.same (by intro hmade; cases hmade) (hnext _ rfl)
  | caughtCounted => exact h.same (by intro hmade; cases hmade) (hnext _ rfl)
  | handle c b _ _ hr =>
    obtain ⟨m, hstate, hle⟩ := hphase.1
    refine h.map hphase _ ?_ (hnext _ rfl)
    intro m' p hm' hp
    cases hstate.symm.trans hm'
    exact recorded_take (h.recorded m p hstate hp) hle
  | verify => exact h.same (by intro hmade; cases hmade) (hnext _ rfl)
  | replace =>
    obtain ⟨p, hpart, hgood⟩ := hphase
    refine ⟨h.state, ?_, ?_, ?_, ?_, hnext⟩
    · intro m p _ hp
      cases hp
    · intro hp
      cases hp
    · intro _
      exact .inr (by rw [hpart, Option.isSome_some])
    · intro b hb
      cases hpart.symm.trans hb
      exact hgood
  | unlink =>
    refine ⟨?_, ?_, ?_, ?_, h.good, ?_⟩
    · intro m hm
      cases hm
    · intro m p hm
      cases hm
    · intro hp
      have hnone : d.part = none := hphase.1
      rw [hnone] at hp
      cases hp
    · intro hs
      cases hs
    · intro b hb
      cases hb

/-- The next attempt may take the lock. -/
theorem Sound.enter {d : Disk α D} (h : Sound S locked d none) :
    Sound S locked d (some .fresh) where
  state := h.state
  recorded := h.recorded
  part hp := by
    rcases h.part hp with hs | ⟨a, ha, -⟩
    · exact .inl hs
    · cases ha
  dest := h.dest
  good := h.good
  phase a ha := by
    cases ha
    exact trivial

/-- Fair steps keep what is sound. -/
theorem Sound.step {c c' : Config α D} {action : Action α} (h : Sound S locked c.disk c.attempt)
    (hfair : Fair S locked c action) (hstep : HfArtifacts.step S c action = some c') :
    Sound S locked c'.disk c'.attempt := by
  rcases step_cases hstep with ⟨hdisk, hattempt, -⟩ | ⟨a, ha, hholder, -⟩
  · rw [hdisk]
    rcases hattempt with hsame | ⟨hnone, hfresh⟩
    · rwa [hsame]
    · rw [hnone] at h
      rw [hfresh]
      exact h.enter
  · rw [ha] at h
    exact h.holder (hfair a ha) hholder

/-! ### The next attempt -/

variable (S locked) in
/-- What an attempt against a good server keeps: the files as a resume accepts them until
they are opened, then the bytes it has, with those still to be written, as the beginning of
the locked file. -/
def Ready (d : Disk α D) (a : Attempt α D) : Prop :=
  match a.pc with
  | .opening => Sound S locked d none ∧ d.dest = none ∧ a.committed = 0
  | .made => True
  | .checked => d.part.isSome = true ∧ d.bytes.take a.committed <+: locked
  | .top => d.part.isSome = true ∧ d.bytes <+: locked
  | .body _ pending => d.bytes ++ pending <+: locked
  | .wrote _ pending _ => d.bytes ++ pending <+: locked
  | .counted _ pending => d.bytes ++ pending <+: locked
  | .failed => False
  | .verified => True
  | .replaced => True

/-- A sound state file passes the checks of a resume. -/
theorem resumeState_ok {m : Metadata D} {p : List α}
    (hm : m = S.metadata m.committed m.blocks) (hjson : S.jsonSize m ≤ jsonLimit)
    (h : Recorded S p m.committed m.blocks) : resumeState S m (some p) = .ok () := by
  have hle := h.le_length
  obtain ⟨chunks, hne, hblocks, hcommitted, htake, hsize⟩ := h
  have hcontiguous : contiguous 0 m.blocks = some m.committed := by
    rw [hblocks, contiguous_entries S.sha 0 hne, hcommitted, Nat.zero_add]
  have hhashes : hashesMatch S p 0 m.blocks = true := by
    rw [hblocks]
    apply hashesMatch_entries
    rw [List.drop_zero, ← htake]
    exact List.take_prefix _ _
  have hidentity : m.identity = S.identity := by rw [hm]; rfl
  have hexpected : m.expectedSize = S.expectedSize := by rw [hm]; rfl
  have hsha : m.expectedSha256 = S.expectedSha256 := by rw [hm]; rfl
  have hschema : m.schema = "strict-resume-v2" := by rw [hm]; rfl
  have hstatus : m.status = "active" := by rw [hm]; rfl
  have hblock : m.blockSize = blockSize := by rw [hm]; rfl
  unfold resumeState
  rw [if_neg (by omega), if_neg (by simp [hidentity, hexpected, hsha]), if_neg (by simp [hschema]),
    if_neg (by simp [hschema, hstatus, hblock]), hcontiguous]
  dsimp only
  rw [if_neg (by simp), if_neg (by simp; omega), if_neg (by omega), if_neg (by simp [hhashes])]

omit [DecidableEq D] in
/-- What follows a beginning of the locked file makes it a longer one. -/
private theorem prefix_append {read more : List α} (h : read <+: locked)
    (hmore : more <+: locked.drop read.length) : read ++ more <+: locked := by
  obtain ⟨rest, rfl⟩ := h
  rw [List.drop_left] at hmore
  exact (List.prefix_append_right_inj read).mpr hmore

/-- Right steps keep what the attempt has a beginning of the locked file. -/
theorem Ready.step {d d' : Disk α D} {a a' : Attempt α D} {action : Action α}
    (hstep : HolderStep S d a action d' (some a')) (hright : Right locked a action)
    (hphase : Phase S d a) (hmemory : Memory S d a) (h : Ready S locked d a) :
    Ready S locked d' a' := by
  cases hstep with
  | openExisting c b _ _ m hstate hresume =>
    obtain ⟨hsound, hdest, -⟩ := h
    have hpart : d.part.isSome = true := by
      rcases hsound.dest (by rw [hstate, Option.isSome_some]) with hpart | hsome
      · exact hpart
      · rw [hdest] at hsome
        cases hsome
    obtain ⟨p, hp⟩ := Option.isSome_iff_exists.mp hpart
    refine ⟨hpart, ?_⟩
    rw [Disk.bytes, hp]
    exact (hsound.recorded m p hstate hp).2
  | openFresh => exact trivial
  | storeFresh c b _ _ =>
    have hpart : d.part = some [] := hphase.1
    refine ⟨by rw [hpart, Option.isSome_some], ?_⟩
    show (d.part.getD []).take c <+: locked
    rw [hpart, Option.getD_some, List.take_nil]
    exact List.nil_prefix
  | trim c b _ _ =>
    refine ⟨?_, ?_⟩
    · show (d.part.map _).isSome = true
      rw [Option.isSome_map]
      exact h.1
    · rw [bytes_trim]
      exact h.2
  | respond =>
    show d.bytes ++ [] <+: locked
    rw [List.append_nil]
    exact h.2
  | data c b _ _ finish pending bytes =>
    have hread : d.bytes ++ pending <+: locked := h
    have hlen : d.bytes.length = c := hmemory.2.1
    show d.bytes ++ (pending ++ bytes) <+: locked
    rw [← List.append_assoc]
    apply prefix_append hread
    rw [List.length_append, hlen]
    exact hright
  | write c b _ _ finish pending n block rest hnext =>
    obtain ⟨hpending, -⟩ := nextBlock_spec hnext
    obtain ⟨p, hpart⟩ := Option.isSome_iff_exists.mp hmemory.2.2.2.2
    have hn : block.length ≤ n := by simpa [Right, Whole, hnext] using hright
    have hread : d.bytes ++ pending <+: locked := h
    rw [Disk.bytes, hpart, Option.getD_some, hpending, ← List.append_assoc] at hread
    show (d.part.map fun p => p ++ block.take n).getD [] ++ rest <+: locked
    rw [hpart, Option.map_some, Option.getD_some, List.take_of_length_le hn]
    exact hread
  | count => exact h
  | store => exact h
  | finishBody c b _ _ =>
    refine ⟨hmemory.2.2.2.2, ?_⟩
    have hread : d.bytes ++ [] <+: locked := h
    rwa [List.append_nil] at hread
  | caughtTop => exact hright.elim
  | caughtBody => exact hright.elim
  | caughtWrote => exact hright.elim
  | caughtCounted => exact hright.elim
  | handle => exact hright.elim
  | verify => exact trivial
  | replace => exact trivial

/-- An attempt against a good server always has a right step. -/
theorem Ready.progress {d : Disk α D} {a : Attempt α D} (hgood : S.good locked = true)
    (hphase : Phase S d a) (hmemory : Memory S d a) (h : Ready S locked d a) :
    ∃ action r, Right locked a action ∧ holderStep S d a action = some r := by
  obtain ⟨pc, c, b, hp, retries⟩ := a
  have hsize : locked.length = S.expectedSize := (good_iff.mp hgood).1
  cases pc with
  | opening =>
    obtain ⟨hsound, hdest, -⟩ := h
    cases hstate : d.state with
    | none =>
      have hpart : d.part = none := by
        by_contra hsome
        rcases hsound.part (Option.isSome_iff_ne_none.mpr hsome) with hs | ⟨_, ha, -⟩
        · rw [hstate] at hs
          cases hs
        · cases ha
      exact ⟨.openFresh, ({ d with part := some [] }, some ⟨.made, 0, [], true, 0⟩), trivial,
        if_pos ⟨by rw [hpart]; rfl, by rw [hstate]; rfl⟩⟩
    | some m =>
      have hpart : d.part.isSome = true := by
        rcases hsound.dest (by rw [hstate, Option.isSome_some]) with hpart | hsome
        · exact hpart
        · rw [hdest] at hsome
          cases hsome
      obtain ⟨p, hp⟩ := Option.isSome_iff_exists.mp hpart
      obtain ⟨hm, hjson⟩ := hsound.state m hstate
      have hok := resumeState_ok hm hjson (hsound.recorded m p hstate hp).1
      refine ⟨.openExisting, (d, some ⟨.checked, m.committed, m.blocks, d.part.isSome, 0⟩),
        trivial, ?_⟩
      simp only [holderStep, hstate, hp, hok]
  | made => exact ⟨.storeFresh, _, trivial, rfl⟩
  | checked => exact ⟨.trim, _, trivial, rfl⟩
  | top =>
    obtain ⟨hpart, hread⟩ := h
    by_cases hc : c < S.expectedSize
    · -- the server answers the range that is asked for
      have hopen : hp = true := hphase.2.symm.trans hpart
      let finish := min S.expectedSize (c + window)
      refine ⟨.respond ⟨"", 206, some (c, finish - 1, S.expectedSize), (finish - c : ℕ)⟩, _,
        trivial, if_pos ⟨hc, hopen, ?_⟩⟩
      simp [checkResponse, finish, Except.isOk, Except.toBool]
    · obtain ⟨hrec, hlen⟩ := hmemory
      obtain ⟨p, hp'⟩ := Option.isSome_iff_exists.mp hpart
      have hbytes : d.bytes = p := by rw [Disk.bytes, hp', Option.getD_some]
      have hlocked : p = locked := by
        rw [hbytes] at hread hlen
        apply hread.eq_of_length
        have := hrec.le_size
        dsimp only at this hlen
        omega
      refine ⟨.verify, _, trivial, if_pos ⟨Nat.le_of_not_lt hc, ?_⟩⟩
      rw [hp', hlocked]
      exact hgood
  | body finish pending =>
    obtain ⟨-, hlen, hle, hfinish, -⟩ := hmemory
    dsimp only at hlen hle
    cases hnext : nextBlock c finish pending with
    | some next =>
      obtain ⟨block, rest⟩ := next
      refine ⟨.write block.length, ({ d with part := d.part.map fun p => p ++ block.take block.length },
        some ⟨.wrote finish rest block, c, b, hp, retries⟩), ?_, ?_⟩
      · simp [Right, Whole, hnext]
      · simp only [holderStep, hnext]
    | none =>
      have hfull : ¬ (blockSize ≤ pending.length ∧ c < finish) := by
        intro hfull
        rw [nextBlock, if_pos hfull] at hnext
        cases hnext
      have hlast : ¬ (pending ≠ [] ∧ c + pending.length = finish) := by
        intro hlast
        rw [nextBlock, if_neg hfull, if_pos hlast] at hnext
        cases hnext
      by_cases hdone : c + pending.length = finish
      · have hpending : pending = [] := by
          by_contra hne
          exact hlast ⟨hne, hdone⟩
        subst hpending
        exact ⟨.finishBody, _, trivial, if_pos ⟨rfl, hdone⟩⟩
      · -- one more byte can be read
        have hblock : pending.length < blockSize := by
          by_contra hge
          exact hfull ⟨Nat.le_of_not_lt hge, by omega⟩
        have hmore : 0 < (locked.drop (c + pending.length)).length := by
          rw [List.length_drop]
          omega
        refine ⟨.data ((locked.drop (c + pending.length)).take 1), _, List.take_prefix _ _,
          if_pos ⟨?_, hblock, ?_⟩⟩
        · apply List.ne_nil_of_length_pos
          rw [List.length_take]
          omega
        · rw [List.length_take, Nat.le_min]
          have := blockSize_pos
          dsimp only
          omega
  | wrote finish pending block => exact ⟨.count, _, trivial, rfl⟩
  | counted finish pending => exact ⟨.store, _, trivial, rfl⟩
  | failed => exact h.elim
  | verified => exact ⟨.replace, _, trivial, rfl⟩
  | replaced => exact ⟨.unlink, _, trivial, rfl⟩

/-! ### It comes to its end -/

/-- The place of a point in one round of the loop; a body that has been read to its end is
before the top. -/
def phaseRank (committed : ℕ) : Pc α → ℕ
  | .opening => 11
  | .made => 10
  | .checked => 9
  | .counted _ _ => 8
  | .body finish _ => if committed = finish then 7 else 5
  | .top => 6
  | .wrote _ _ _ => 4
  | .verified => 3
  | .replaced => 2
  | .failed => 1

/-- The bytes of the range that are still to be read. -/
def unread (committed : ℕ) : Pc α → ℕ
  | .body finish pending => finish - committed - pending.length
  | _ => 0

variable (S) in
/-- What goes down with every right step: the bytes that are not counted, the place in the
round, the bytes that are not read. -/
def rank (a : Attempt α D) : ℕ × ℕ × ℕ :=
  (S.expectedSize - a.committed, phaseRank a.committed a.pc, unread a.committed a.pc)

/-- Comparing ranks. -/
abbrev RankLt : ℕ × ℕ × ℕ → ℕ × ℕ × ℕ → Prop := Prod.Lex (· < ·) (Prod.Lex (· < ·) (· < ·))

theorem rankLt_of_phase {n n' p p' u u' : ℕ} (hn : n' ≤ n) (hp : p' < p) :
    RankLt (n', p', u') (n, p, u) := by
  rcases Nat.lt_or_ge n' n with hlt | hge
  · exact .left _ _ hlt
  · cases le_antisymm hn hge
    exact .right _ (.left _ _ hp)

/-- Every right step goes down. -/
theorem rank_lt {d d' : Disk α D} {a a' : Attempt α D} {action : Action α}
    (hstep : HolderStep S d a action d' (some a')) (hright : Right locked a action)
    (hmemory : Memory S d a) (h : Ready S locked d a) : RankLt (rank S a') (rank S a) := by
  cases hstep with
  | openExisting c b _ _ m =>
    have hc : c = 0 := h.2.2
    subst hc
    exact rankLt_of_phase (Nat.sub_le _ _) (show 9 < 11 by decide)
  | openFresh c =>
    exact rankLt_of_phase (le_of_eq (by rw [show c = 0 from h.2.2])) (show 10 < 11 by decide)
  | storeFresh => exact rankLt_of_phase (le_refl _) (show 9 < 10 by decide)
  | trim => exact rankLt_of_phase (le_refl _) (show 6 < 9 by decide)
  | respond c b _ resp hc =>
    refine rankLt_of_phase (le_refl _) ?_
    have hne : c ≠ min S.expectedSize (c + window) := by
      have : 0 < window := by decide
      omega
    show (if c = min S.expectedSize (c + window) then 7 else 5) < 6
    rw [if_neg hne]
    decide
  | data c b _ _ finish pending bytes hne hpending hlen =>
    refine .right _ (.right _ ?_)
    have hpos : 0 < bytes.length := List.length_pos_iff.mpr hne
    have hle := (Nat.le_min.mp hlen).2
    show finish - c - (pending ++ bytes).length < finish - c - pending.length
    rw [List.length_append]
    omega
  | write c b _ _ finish pending n block rest hnext =>
    refine rankLt_of_phase (le_refl _) ?_
    show 4 < if c = finish then 7 else 5
    split <;> decide
  | count c b _ _ finish pending block =>
    obtain ⟨p, -, -, -, hblock, hle, hsize⟩ := hmemory
    have hpos : 0 < block.length := List.length_pos_iff.mpr hblock
    refine .left _ _ ?_
    dsimp only at hle ⊢
    omega
  | store c b _ _ finish pending =>
    refine rankLt_of_phase (le_refl _) ?_
    show (if c = finish then 7 else 5) < 8
    split <;> decide
  | finishBody c =>
    refine rankLt_of_phase (le_refl _) ?_
    show 6 < if c = c then 7 else 5
    rw [if_pos rfl]
    decide
  | caughtTop => exact hright.elim
  | caughtBody => exact hright.elim
  | caughtWrote => exact hright.elim
  | caughtCounted => exact hright.elim
  | handle => exact hright.elim
  | verify => exact rankLt_of_phase (le_refl _) (show 3 < 6 by decide)
  | replace => exact rankLt_of_phase (le_refl _) (show 2 < 3 by decide)

variable (S locked) in
/-- Everything an attempt against a good server keeps. -/
structure Going (c : Config α D) (a : Attempt α D) : Prop where
  attempt : c.attempt = some a
  phase : Phase S c.disk a
  memory : Memory S c.disk a
  disk : DiskOk S c.disk
  ready : Ready S locked c.disk a

/-- Right steps are steps of the attempt with the lock, with whole writes. -/
theorem Right.step_eq {c : Config α D} {a : Attempt α D} {action : Action α}
    (hattempt : c.attempt = some a) (hright : Right locked a action) :
    HfArtifacts.step S c action =
      (holderStep S c.disk a action).map fun r => ⟨r.1, c.waiting, r.2⟩ := by
  cases action with
  | arrive => exact hright.elim
  | leave => exact hright.elim
  | early => exact hright.elim
  | enter => exact hright.elim
  | _ => simp only [HfArtifacts.step, hattempt]

omit [DecidableEq D] in
theorem Right.whole {a : Attempt α D} {action : Action α} (h : Right locked a action) :
    Whole a action = true := by
  cases action with
  | write n => exact h
  | _ => rfl

/-- The step by which an attempt ends is its return. -/
theorem Right.ends {d d' : Disk α D} {a : Attempt α D} {action : Action α}
    (hright : Right locked a action) (hstep : HolderStep S d a action d' none) :
    action.returns = true := by
  cases hstep with
  | stop => exact hright.elim
  | unlink => rfl

/-- It returns with the locked file in place. -/
theorem Right.returned {d d' : Disk α D} {a : Attempt α D} {a' : Option (Attempt α D)}
    {action : Action α} (hright : Right locked a action)
    (hstep : HolderStep S d a action d' a') (hphase : Phase S d a)
    (hreturns : action.returns = true) : ∃ b, d'.dest = some b ∧ S.good b = true := by
  cases hstep with
  | unlink => exact hphase.2
  | _ => cases hreturns

/-- Right steps keep all of it. -/
theorem Going.step {c c' : Config α D} {a a' : Attempt α D} {action : Action α}
    (h : Going S locked c a) (hright : Right locked a action)
    (hstep : HolderStep S c.disk a action c'.disk (some a')) (hnext : c'.attempt = some a') :
    Going S locked c' a' where
  attempt := hnext
  phase := h.phase.step hstep
  memory := h.memory.step hstep hright.whole h.phase h.disk
  disk := h.disk.step hstep h.phase fun _ _ hpc _ _ hp => h.memory.store hpc hp
  ready := h.ready.step hstep hright h.phase h.memory

/-- **An attempt against a good server comes to its end.** -/
theorem completes_of_going (hgood : S.good locked = true) {c : Config α D} {a : Attempt α D}
    (h : Going S locked c a) : Completes S locked c := by
  have hwf : WellFounded RankLt := WellFoundedRelation.wf
  generalize hr : rank S a = r
  induction r using hwf.induction generalizing c a with
  | _ r ih =>
    refine .intro c a h.attempt ?_ ?_ ?_
    · obtain ⟨action, r, hright, hstep⟩ := h.ready.progress hgood h.phase h.memory
      refine ⟨action, ⟨r.1, c.waiting, r.2⟩, hright, ?_⟩
      rw [Right.step_eq h.attempt hright, hstep, Option.map_some]
    · intro action c' hright hstep hreturns
      rw [Right.step_eq h.attempt hright] at hstep
      obtain ⟨⟨d', a''⟩, hholder, rfl⟩ := Option.map_eq_some_iff.mp hstep
      have hholder := HolderStep.of_eq hholder
      cases a'' with
      | none =>
        rw [hright.ends hholder] at hreturns
        cases hreturns
      | some a' =>
        exact ih (rank S a') (hr ▸ rank_lt hholder hright h.memory h.ready)
          (h.step hright hholder rfl) rfl
    · intro action c' hright hstep hreturns
      rw [Right.step_eq h.attempt hright] at hstep
      obtain ⟨⟨d', a''⟩, hholder, rfl⟩ := Option.map_eq_some_iff.mp hstep
      exact hright.returned (.of_eq hholder) h.phase hreturns

/-! ### Whole histories -/

/-- After a fair history the next attempt returns. -/
theorem Sound.returns (hgood : S.good locked = true) {c : Config α D}
    (h : Sound S locked c.disk c.attempt) (hfree : c.attempt = none) : Returns S locked c := by
  rw [hfree] at h
  cases hdest : c.disk.dest with
  | some b =>
    refine .inl ⟨c, if_pos ?_⟩
    rw [hdest]
    exact h.good b hdest
  | none =>
    refine .inr ⟨{ c with waiting := c.waiting + 1 },
      { c with waiting := c.waiting + 1 - 1, attempt := some .fresh }, ?_, ?_, ?_⟩
    · exact if_pos (by rw [hdest]; rfl)
    · exact if_pos ⟨Nat.succ_pos _, by rw [hfree]; rfl⟩
    · refine completes_of_going hgood (a := .fresh) ?_
      exact ⟨rfl, trivial, trivial, fun m hm p hp => (h.recorded m p hm hp).1, h, hdest, rfl⟩

/-- **A download can be resumed.** After every fair history of attempts, the next one
against a good server returns. -/
theorem returns_of_fair (hgood : S.good locked = true) {actions : List (Action α)}
    {c : Config α D} (hfair : (machine S none).Guarded (Fair S locked) (start none) actions)
    (hrun : (machine S none).run actions = some c) (hfree : c.attempt = none) :
    Returns S locked c := by
  have hsound : Sound S locked c.disk c.attempt :=
    (machine S none).invariant_of_guarded (Fair S locked)
      (P := fun c => Sound S locked c.disk c.attempt) sound_start
      (fun _ _ _ h hok hs => h.step hok hs) hfair hrun
  exact hsound.returns hgood hfree

/-- An attempt that is killed after its block is written, before it is counted. -/
def killedActions : List (Action ℕ) :=
  [.arrive, .enter, .openFresh, .storeFresh, .trim, .respond sampleResponse, .data [1, 2],
    .write 2, .stop]

/-- The files it leaves. -/
def killedConfig : Config ℕ (List ℕ) :=
  ⟨⟨none, some [1, 2], some (sampleSetup.metadata 0 [])⟩, 0, none⟩

/-- The next attempt after it returns. -/
theorem returns_of_fair_killed :
    (machine sampleSetup none).run killedActions = some killedConfig ∧
      Returns sampleSetup [1, 2] killedConfig := by
  have hrun : (machine sampleSetup none).run killedActions = some killedConfig := rfl
  refine ⟨hrun, returns_of_fair (by decide) ?_ hrun rfl⟩
  have hidle : ∀ {c : Config ℕ (List ℕ)} {action}, c.attempt = none →
      Fair sampleSetup [1, 2] c action := by
    intro c action hnone a ha
    cases hnone.symm.trans ha
  refine Machine.guarded_cons_of_step _ rfl (hidle rfl) ?_
  refine Machine.guarded_cons_of_step _ rfl (hidle rfl) ?_
  refine Machine.guarded_cons_of_step _ rfl (by rintro _ ⟨⟩; exact trivial) ?_
  refine Machine.guarded_cons_of_step _ rfl (by rintro _ ⟨⟩; exact (by decide : 400 ≤ jsonLimit)) ?_
  refine Machine.guarded_cons_of_step _ rfl (by rintro _ ⟨⟩; exact trivial) ?_
  refine Machine.guarded_cons_of_step _ rfl (by rintro _ ⟨⟩; exact trivial) ?_
  refine Machine.guarded_cons_of_step _ rfl (by rintro _ ⟨⟩; exact trivial) ?_
  refine Machine.guarded_cons_of_step _ rfl (by rintro _ ⟨⟩; exact trivial) ?_
  exact Machine.guarded_cons_of_step _ rfl (by rintro _ ⟨⟩; exact trivial) trivial

/-- **Where it cannot.** An attempt is killed between making the partial file and writing
the state file, and no attempt after it returns. -/
theorem killed_before_state : ∃ c, (machine sampleSetup none).run [.arrive, .enter, .openFresh,
      .stop] = some c ∧ c.attempt = none ∧ ¬ Returns sampleSetup [1, 2] c := by
  refine ⟨_, rfl, rfl, ?_⟩
  rintro (⟨c', hearly⟩ | ⟨waiting, holding, harrive, henter, hcompletes⟩)
  · cases hearly
  · cases harrive
    cases henter
    rcases hcompletes with ⟨_, a, hattempt, ⟨action, c', hright, hstep⟩, -, -⟩
    cases hattempt
    cases action with
    | openExisting => cases hstep
    | openFresh => cases hstep
    | _ => first | exact hright.elim | cases hstep

end OpenVoiceStream.HfArtifacts
