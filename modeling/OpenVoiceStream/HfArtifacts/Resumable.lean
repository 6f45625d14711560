import Mathlib.Data.List.Basic
import Mathlib.Data.List.Infix
import OpenVoiceStream.Base.Machine

/-!
# The resumable download

`_download_file_resumable` keeps a partial file beside its destination, and a state file
with the size and the hash of every block that is in it. Attempts take turns under a lock
file; between two file steps an attempt may be killed, and almost anywhere an exception
may end it or send it back to the top of its loop.

The actions of the machine are the file steps, the answers of the server and the failures.
One locked file is downloaded, so `identity`, size and hash are those of the `Setup`.

## Main definitions

* `Metadata`, `resumeState` — the state file and the checks on it at a resume.
* `checkResponse` — the checks on an answer to a range request.
* `Pc`, `Attempt`, `Disk`, `Config` — where the attempt that holds the lock is, and the
  files.
* `holderStep`, `step`, `machine` — the steps.
* `Recorded` — the blocks of a state are the first bytes of a partial file.
-/

namespace OpenVoiceStream.HfArtifacts

/-! ### The state file -/

/-- An entry of `metadata["blocks"]`. -/
structure Block (D : Type) where
  offset : ℕ
  size : ℕ
  sha256 : D
  deriving DecidableEq

/-- The JSON of the state file. -/
structure Metadata (D : Type) where
  schema : String
  status : String
  identity : String
  expectedSize : ℕ
  expectedSha256 : D
  blockSize : ℕ
  committed : ℕ
  blocks : List (Block D)

/-- The locked file and what the function is called with: the hash, the length of the JSON
of a state, the identity, the size and the hash of the file, and the retries. -/
structure Setup (α D : Type) where
  sha : List α → D
  jsonSize : Metadata D → ℕ
  identity : String
  expectedSize : ℕ
  expectedSha256 : D
  /-- A size that is not positive is refused at once. -/
  size_pos : 0 < expectedSize
  maxRetries : ℕ
  /-- `allowed_redirect_hosts is not None`. -/
  hostsRestricted : Bool

/-- `block_size`, and `chunk_size`. -/
def blockSize : ℕ := 1048576

/-- `window`. -/
def window : ℕ := 8388608

/-- What `_fd_json` reads at most. -/
def jsonLimit : ℕ := 16777216

theorem blockSize_pos : 0 < blockSize := by decide

variable {α D : Type} (S : Setup α D)

/-- The state with these blocks. -/
def Setup.metadata (committed : ℕ) (blocks : List (Block D)) : Metadata D where
  schema := "strict-resume-v2"
  status := "active"
  identity := S.identity
  expectedSize := S.expectedSize
  expectedSha256 := S.expectedSha256
  blockSize := HfArtifacts.blockSize
  committed := committed
  blocks := blocks

/-- Where blocks that follow one another from `offset` end. -/
def contiguous : ℕ → List (Block D) → Option ℕ
  | offset, [] => some offset
  | offset, entry :: rest =>
    if 0 < entry.size ∧ entry.offset = offset then contiguous (offset + entry.size) rest
    else none

section Checks

variable [DecidableEq D]

/-- Every block of the partial file has the hash its entry says. -/
def hashesMatch (part : List α) : ℕ → List (Block D) → Bool
  | _, [] => true
  | offset, entry :: rest =>
    let chunk := (part.drop offset).take entry.size
    (chunk.length == entry.size && S.sha chunk == entry.sha256) &&
      hashesMatch part (offset + entry.size) rest

/-- The checks on a state file that is there, before anything is changed. -/
def resumeState (metadata : Metadata D) (part : Option (List α)) : Except String Unit :=
  if jsonLimit < S.jsonSize metadata then .error "strict resume state is invalid"
  else if metadata.identity ≠ S.identity ∨ metadata.expectedSize ≠ S.expectedSize ∨
      metadata.expectedSha256 ≠ S.expectedSha256 then
    .error "strict resume identity mismatch"
  else if metadata.schema ≠ "strict-resume-v2" ∧
      (part.elim false fun p => p.length != metadata.committed) then
    .error "strict resume partial size mismatch"
  else if metadata.schema ≠ "strict-resume-v2" ∨ metadata.status ≠ "active" ∨
      metadata.blockSize ≠ blockSize then
    .error "strict resume state schema/status is invalid"
  else
    match contiguous 0 metadata.blocks with
    | none => .error "strict resume state block entry is invalid"
    | some finish =>
      if metadata.committed ≠ finish then
        .error "strict resume state committed offset is invalid"
      else if S.expectedSize < metadata.committed ∨
          (part.isNone = true ∧ metadata.committed ≠ 0) then
        .error "strict resume state/partial mismatch"
      else
        match part with
        | none => .ok ()
        | some p =>
          if p.length < metadata.committed then .error "strict resume partial size mismatch"
          else if hashesMatch S p 0 metadata.blocks = false then
            .error "strict resume committed block hash mismatch"
          else .ok ()

end Checks

/-! ### The server -/

/-- An answer, up to its body: the host it came from in the end, its status, the numbers
of its `Content-Range`, and its `Content-Length`. -/
structure Response where
  finalHost : String
  status : ℕ
  range : Option (ℕ × ℕ × ℕ)
  length : ℤ

/-- The checks on the answer to `Range: bytes=committed-end`, with `finish` one past
`end`. -/
def checkResponse (committed finish : ℕ) (resp : Response) : Except String Unit :=
  if S.hostsRestricted = true ∧ 10 * 1024 * 1024 < S.expectedSize ∧
      resp.finalHost = "huggingface.co" then
    .error "strict large artifact response remained on huggingface.co"
  else if resp.status ≠ 206 then
    .error s!"strict resume requires HTTP 206, got {resp.status}"
  else if resp.range = some (committed, finish - 1, S.expectedSize) ∧
      resp.length = (finish - committed : ℕ) then .ok ()
  else .error "strict resume Content-Range/Length mismatch"

/-! ### Files and attempts -/

/-- The files: the destination, the partial file and the state file. -/
structure Disk (α D : Type) where
  dest : Option (List α)
  part : Option (List α)
  state : Option (Metadata D)

/-- Where the attempt with the lock is. -/
inductive Pc (α : Type) where
  /-- Before the partial file and the state file are opened. -/
  | opening
  /-- The partial file has been made, the state file has not. -/
  | made
  /-- The checks have passed, the tail of the partial file is still there. -/
  | checked
  /-- The top of the loop. -/
  | top
  /-- Reading the body for the range up to `finish`. -/
  | body (finish : ℕ) (pending : List α)
  /-- `block` has been written and is not counted yet. -/
  | wrote (finish : ℕ) (pending block : List α)
  /-- The block is counted in memory, the state file is the old one. -/
  | counted (finish : ℕ) (pending : List α)
  /-- In the `except` clause of the loop. -/
  | failed
  /-- The hash of the whole partial file is right. -/
  | verified
  /-- The partial file has become the destination. -/
  | replaced

/-- The attempt with the lock: `committed`, `metadata["blocks"]`, whether `partfd` is open,
and `retries`. -/
structure Attempt (α D : Type) where
  pc : Pc α
  committed : ℕ
  blocks : List (Block D)
  hasPart : Bool
  retries : ℕ

/-- The files, the attempts that found no destination and wait for the lock, and the one
that has it. -/
structure Config (α D : Type) where
  disk : Disk α D
  waiting : ℕ
  attempt : Option (Attempt α D)

/-- An attempt that has just got the lock. -/
def Attempt.fresh : Attempt α D := ⟨.opening, 0, [], false, 0⟩

section Steps

variable [DecidableEq D]

/-- The bytes have the locked size and hash. -/
def Setup.good (bytes : List α) : Bool :=
  bytes.length == S.expectedSize && S.sha bytes == S.expectedSha256

inductive Action (α : Type) where
  /-- An attempt starts and finds no destination. -/
  | arrive
  /-- A waiting attempt gives up at its deadline. -/
  | leave
  /-- An attempt starts, finds a good destination and returns. -/
  | early
  /-- A waiting attempt gets the lock. -/
  | enter
  | openExisting
  | openFresh
  | storeFresh
  /-- The tail past the committed bytes is cut off. -/
  | trim
  | respond (resp : Response)
  | data (bytes : List α)
  /-- `os.write` of a block, which writes `n` bytes of it. -/
  | write (n : ℕ)
  | count
  | store
  | finishBody
  /-- An exception the loop catches. -/
  | caught
  | handle
  | verify
  | replace
  /-- The state file is removed and the attempt returns. -/
  | unlink
  /-- The attempt is killed, or an exception leaves the function. -/
  | stop

/-- The block the loop writes next: a whole one, or the last of the range. -/
def nextBlock (committed finish : ℕ) (pending : List α) : Option (List α × List α) :=
  if blockSize ≤ pending.length ∧ committed < finish then
    some (pending.take blockSize, pending.drop blockSize)
  else if pending ≠ [] ∧ committed + pending.length = finish then some (pending, [])
  else none

/-- A step of the attempt with the lock; `none` as the attempt when it ends. -/
def holderStep (d : Disk α D) (a : Attempt α D) (action : Action α) :
    Option (Disk α D × Option (Attempt α D)) :=
  match action, a.pc with
  | .stop, _ => some (d, none)
  | .openExisting, .opening =>
    match d.state with
    | none => none
    | some metadata =>
      match resumeState S metadata d.part with
      | .error _ => none
      | .ok _ => some (d, some ⟨.checked, metadata.committed, metadata.blocks, d.part.isSome, 0⟩)
  | .openFresh, .opening =>
    if d.part.isNone ∧ d.state.isNone then
      some ({ d with part := some [] }, some ⟨.made, 0, [], true, 0⟩)
    else none
  | .storeFresh, .made =>
    some ({ d with state := some (S.metadata 0 []) }, some { a with pc := .checked })
  | .trim, .checked =>
    some ({ d with part := d.part.map fun p => p.take a.committed }, some { a with pc := .top })
  | .respond resp, .top =>
    let finish := min S.expectedSize (a.committed + window)
    if a.committed < S.expectedSize ∧ a.hasPart = true ∧
        (checkResponse S a.committed finish resp).isOk = true then
      some (d, some { a with pc := .body finish [] })
    else none
  | .data bytes, .body finish pending =>
    if bytes ≠ [] ∧ pending.length < blockSize ∧
        bytes.length ≤ min blockSize (finish - a.committed - pending.length) then
      some (d, some { a with pc := .body finish (pending ++ bytes) })
    else none
  | .write n, .body finish pending =>
    match nextBlock a.committed finish pending with
    | none => none
    | some (block, rest) =>
      some ({ d with part := d.part.map fun p => p ++ block.take n },
        some { a with pc := .wrote finish rest block })
  | .count, .wrote finish pending block =>
    some (d, some { a with
      pc := .counted finish pending
      committed := a.committed + block.length
      blocks := a.blocks ++ [⟨a.committed, block.length, S.sha block⟩] })
  | .store, .counted finish pending =>
    some ({ d with state := some (S.metadata a.committed a.blocks) },
      some { a with pc := .body finish pending })
  | .finishBody, .body finish pending =>
    if pending = [] ∧ a.committed = finish then some (d, some { a with pc := .top, retries := 0 })
    else none
  | .caught, .top => if a.committed < S.expectedSize then some (d, some { a with pc := .failed }) else none
  | .caught, .body _ _ => some (d, some { a with pc := .failed })
  | .caught, .wrote _ _ _ => some (d, some { a with pc := .failed })
  | .caught, .counted _ _ => some (d, some { a with pc := .failed })
  | .handle, .failed =>
    if a.retries < S.maxRetries then
      some ({ d with part := d.part.map fun p => p.take a.committed },
        some { a with pc := .top, retries := a.retries + 1 })
    else none
  | .verify, .top =>
    if S.expectedSize ≤ a.committed ∧ (d.part.elim false S.good) = true then
      some (d, some { a with pc := .verified })
    else none
  | .replace, .verified =>
    some ({ d with dest := d.part, part := none }, some { a with pc := .replaced })
  | .unlink, .replaced => some ({ d with state := none }, none)
  | _, _ => none

/-- What the steps of the attempt with the lock can do. -/
inductive HolderStep : Disk α D → Attempt α D → Action α → Disk α D → Option (Attempt α D) → Prop
  | stop (d a) : HolderStep d a .stop d none
  | openExisting (d c b h r m) (hstate : d.state = some m)
      (hresume : resumeState S m d.part = .ok ()) :
      HolderStep d ⟨.opening, c, b, h, r⟩ .openExisting d
        (some ⟨.checked, m.committed, m.blocks, d.part.isSome, 0⟩)
  | openFresh (d c b h r) (hpart : d.part = none) (hstate : d.state = none) :
      HolderStep d ⟨.opening, c, b, h, r⟩ .openFresh { d with part := some [] }
        (some ⟨.made, 0, [], true, 0⟩)
  | storeFresh (d c b h r) : HolderStep d ⟨.made, c, b, h, r⟩ .storeFresh
      { d with state := some (S.metadata 0 []) } (some ⟨.checked, c, b, h, r⟩)
  | trim (d c b h r) : HolderStep d ⟨.checked, c, b, h, r⟩ .trim
      { d with part := d.part.map fun p => p.take c } (some ⟨.top, c, b, h, r⟩)
  | respond (d c b r resp) (hc : c < S.expectedSize)
      (hresp : (checkResponse S c (min S.expectedSize (c + window)) resp).isOk = true) :
      HolderStep d ⟨.top, c, b, true, r⟩ (.respond resp) d
        (some ⟨.body (min S.expectedSize (c + window)) [], c, b, true, r⟩)
  | data (d c b h r finish pending bytes) (hne : bytes ≠ []) (hpending : pending.length < blockSize)
      (hlen : bytes.length ≤ min blockSize (finish - c - pending.length)) :
      HolderStep d ⟨.body finish pending, c, b, h, r⟩ (.data bytes) d
        (some ⟨.body finish (pending ++ bytes), c, b, h, r⟩)
  | write (d c b h r finish pending n block rest)
      (hnext : nextBlock c finish pending = some (block, rest)) :
      HolderStep d ⟨.body finish pending, c, b, h, r⟩ (.write n)
        { d with part := d.part.map fun p => p ++ block.take n }
        (some ⟨.wrote finish rest block, c, b, h, r⟩)
  | count (d c b h r finish pending block) :
      HolderStep d ⟨.wrote finish pending block, c, b, h, r⟩ .count d
        (some ⟨.counted finish pending, c + block.length, b ++ [⟨c, block.length, S.sha block⟩], h, r⟩)
  | store (d c b h r finish pending) :
      HolderStep d ⟨.counted finish pending, c, b, h, r⟩ .store
        { d with state := some (S.metadata c b) } (some ⟨.body finish pending, c, b, h, r⟩)
  | finishBody (d c b h r) : HolderStep d ⟨.body c [], c, b, h, r⟩ .finishBody d
      (some ⟨.top, c, b, h, 0⟩)
  | caughtTop (d c b h r) (hc : c < S.expectedSize) :
      HolderStep d ⟨.top, c, b, h, r⟩ .caught d (some ⟨.failed, c, b, h, r⟩)
  | caughtBody (d c b h r finish pending) :
      HolderStep d ⟨.body finish pending, c, b, h, r⟩ .caught d (some ⟨.failed, c, b, h, r⟩)
  | caughtWrote (d c b h r finish pending block) :
      HolderStep d ⟨.wrote finish pending block, c, b, h, r⟩ .caught d (some ⟨.failed, c, b, h, r⟩)
  | caughtCounted (d c b h r finish pending) :
      HolderStep d ⟨.counted finish pending, c, b, h, r⟩ .caught d (some ⟨.failed, c, b, h, r⟩)
  | handle (d c b h r) (hr : r < S.maxRetries) : HolderStep d ⟨.failed, c, b, h, r⟩ .handle
      { d with part := d.part.map fun p => p.take c } (some ⟨.top, c, b, h, r + 1⟩)
  | verify (d c b h r p) (hc : S.expectedSize ≤ c) (hpart : d.part = some p)
      (hgood : S.good p = true) :
      HolderStep d ⟨.top, c, b, h, r⟩ .verify d (some ⟨.verified, c, b, h, r⟩)
  | replace (d c b h r) : HolderStep d ⟨.verified, c, b, h, r⟩ .replace
      { d with dest := d.part, part := none } (some ⟨.replaced, c, b, h, r⟩)
  | unlink (d c b h r) : HolderStep d ⟨.replaced, c, b, h, r⟩ .unlink { d with state := none } none

variable {S} in
/-- A step of the attempt with the lock is one of these. -/
theorem HolderStep.of_eq {d d' : Disk α D} {a : Attempt α D} {a' : Option (Attempt α D)}
    {action : Action α} (h : holderStep S d a action = some (d', a')) :
    HolderStep S d a action d' a' := by
  obtain ⟨pc, committed, blocks, hasPart, retries⟩ := a
  unfold holderStep at h
  split at h <;> rename_i hpc
  case h_1 => cases h; exact .stop d _
  case h_2 =>
    cases hpc
    split at h
    · cases h
    · next m hstate =>
      split at h
      · cases h
      · next hresume =>
        cases h
        exact .openExisting _ _ _ _ _ m hstate hresume
  case h_3 =>
    cases hpc
    split at h
    · next hnone =>
      cases h
      exact .openFresh _ _ _ _ _ (Option.isNone_iff_eq_none.mp hnone.1)
        (Option.isNone_iff_eq_none.mp hnone.2)
    · cases h
  case h_4 => cases hpc; cases h; exact .storeFresh _ _ _ _ _
  case h_5 => cases hpc; cases h; exact .trim _ _ _ _ _
  case h_6 resp =>
    cases hpc
    dsimp only at h
    split at h
    · next hok =>
      cases h
      obtain ⟨hc, hpart, hresp⟩ := hok
      subst hpart
      exact .respond _ _ _ _ _ hc hresp
    · cases h
  case h_7 bytes finish pending =>
    cases hpc
    split at h
    · next hok => cases h; exact .data _ _ _ _ _ _ _ _ hok.1 hok.2.1 hok.2.2
    · cases h
  case h_8 n finish pending =>
    cases hpc
    split at h
    · cases h
    · next block rest hnext => cases h; exact .write _ _ _ _ _ _ _ _ _ _ hnext
  case h_9 => cases hpc; cases h; exact .count _ _ _ _ _ _ _ _
  case h_10 => cases hpc; cases h; exact .store _ _ _ _ _ _ _
  case h_11 finish pending =>
    cases hpc
    split at h
    · next hok =>
      cases h
      obtain ⟨hpending, hfinish⟩ := hok
      dsimp only at hfinish
      subst hpending hfinish
      exact .finishBody _ _ _ _ _
    · cases h
  case h_12 =>
    cases hpc
    split at h
    · next hc => cases h; exact .caughtTop _ _ _ _ _ hc
    · cases h
  case h_13 => cases hpc; cases h; exact .caughtBody _ _ _ _ _ _ _
  case h_14 => cases hpc; cases h; exact .caughtWrote _ _ _ _ _ _ _ _
  case h_15 => cases hpc; cases h; exact .caughtCounted _ _ _ _ _ _ _
  case h_16 =>
    cases hpc
    split at h
    · next hr => cases h; exact .handle _ _ _ _ _ hr
    · cases h
  case h_17 =>
    cases hpc
    split at h
    · next hok =>
      cases h
      cases hpart : d.part with
      | none => rw [hpart] at hok; cases hok.2
      | some p => rw [hpart] at hok; exact .verify _ _ _ _ _ p hok.1 hpart hok.2
    · cases h
  case h_18 => cases hpc; cases h; exact .replace _ _ _ _ _
  case h_19 => cases hpc; cases h; exact .unlink _ _ _ _ _
  case h_20 => cases h

/-- A step of the whole. -/
def step (c : Config α D) (action : Action α) : Option (Config α D) :=
  match action with
  | .arrive => if c.disk.dest.isNone then some { c with waiting := c.waiting + 1 } else none
  | .leave => if 0 < c.waiting then some { c with waiting := c.waiting - 1 } else none
  | .early => if c.disk.dest.elim false S.good = true then some c else none
  | .enter =>
    if 0 < c.waiting ∧ c.attempt.isNone then
      some { c with waiting := c.waiting - 1, attempt := some .fresh }
    else none
  | action =>
    match c.attempt with
    | none => none
    | some a => (holderStep S c.disk a action).map fun r => ⟨r.1, c.waiting, r.2⟩

/-- The directory with this destination and without the partial files. -/
def start (dest : Option (List α)) : Config α D := ⟨⟨dest, none, none⟩, 0, none⟩

/-- The history of attempts on a directory. -/
def machine (dest : Option (List α)) : Machine (Config α D) (Action α) := ⟨start dest, step S⟩

end Steps

/-- The actions by which an attempt returns. -/
def Action.returns : Action α → Bool
  | .early => true
  | .unlink => true
  | _ => false

/-! ### Blocks of a partial file -/

/-- The entries of chunks that follow one another from `offset`. -/
def entries (sha : List α → D) : ℕ → List (List α) → List (Block D)
  | _, [] => []
  | offset, chunk :: rest =>
    ⟨offset, chunk.length, sha chunk⟩ :: entries sha (offset + chunk.length) rest

/-- The first `committed` bytes of `part` are the concatenation of the blocks, which follow
one another from 0 and make up `committed`, within the locked size. -/
def Recorded (part : List α) (committed : ℕ) (blocks : List (Block D)) : Prop :=
  ∃ chunks : List (List α), (∀ chunk ∈ chunks, chunk ≠ []) ∧
    blocks = entries S.sha 0 chunks ∧ committed = chunks.flatten.length ∧
      part.take committed = chunks.flatten ∧ committed ≤ S.expectedSize

theorem entries_append (sha : List α → D) (offset : ℕ) (chunks : List (List α))
    (chunk : List α) :
    entries sha offset (chunks ++ [chunk]) =
      entries sha offset chunks ++ [⟨offset + chunks.flatten.length, chunk.length, sha chunk⟩] := by
  induction chunks generalizing offset with
  | nil => simp [entries]
  | cons first rest ih =>
    rw [List.cons_append, entries, ih, entries, List.cons_append, List.flatten_cons,
      List.length_append, Nat.add_assoc]

theorem contiguous_entries (sha : List α → D) (offset : ℕ) {chunks : List (List α)}
    (h : ∀ chunk ∈ chunks, chunk ≠ []) :
    contiguous offset (entries sha offset chunks) = some (offset + chunks.flatten.length) := by
  induction chunks generalizing offset with
  | nil => rfl
  | cons first rest ih =>
    have hfirst : 0 < first.length := List.length_pos_iff.mpr (h first List.mem_cons_self)
    rw [entries, contiguous, if_pos ⟨hfirst, rfl⟩,
      ih _ fun chunk hchunk => h chunk (List.mem_cons_of_mem _ hchunk), List.flatten_cons,
      List.length_append, Nat.add_assoc]

theorem hashesMatch_entries [DecidableEq D] {part : List α} (offset : ℕ) {chunks : List (List α)}
    (h : chunks.flatten <+: part.drop offset) :
    hashesMatch S part offset (entries S.sha offset chunks) = true := by
  induction chunks generalizing offset with
  | nil => rfl
  | cons first rest ih =>
    rw [List.flatten_cons] at h
    have hfirst : (part.drop offset).take first.length = first := by
      obtain ⟨tail, htail⟩ := h
      rw [← htail, List.append_assoc, List.take_left]
    have hrest : rest.flatten <+: part.drop (offset + first.length) := by
      obtain ⟨tail, htail⟩ := h
      refine ⟨tail, ?_⟩
      rw [← List.drop_drop, ← htail, List.append_assoc, List.drop_left]
    rw [entries, hashesMatch]
    simp only [hfirst, beq_self_eq_true, Bool.true_and]
    exact ih _ hrest

/-- Nothing is recorded in a new partial file. -/
theorem Recorded.nil (part : List α) : Recorded S part 0 [] :=
  ⟨[], nofun, rfl, rfl, rfl, Nat.zero_le _⟩

variable {S}

/-- What is recorded is there. -/
theorem Recorded.le_length {part : List α} {committed : ℕ} {blocks : List (Block D)}
    (h : Recorded S part committed blocks) : committed ≤ part.length := by
  obtain ⟨chunks, -, -, hlen, htake, -⟩ := h
  have := congrArg List.length htake
  rw [List.length_take, ← hlen] at this
  omega

theorem Recorded.le_size {part : List α} {committed : ℕ} {blocks : List (Block D)}
    (h : Recorded S part committed blocks) : committed ≤ S.expectedSize :=
  h.choose_spec.2.2.2.2

/-- Only the first `committed` bytes matter. -/
theorem Recorded.of_take {part part' : List α} {committed : ℕ} {blocks : List (Block D)}
    (h : Recorded S part committed blocks) (htake : part'.take committed = part.take committed) :
    Recorded S part' committed blocks := by
  obtain ⟨chunks, hne, hblocks, hlen, hpart, hsize⟩ := h
  exact ⟨chunks, hne, hblocks, hlen, htake.trans hpart, hsize⟩

/-- Bytes added at the end change nothing. -/
theorem Recorded.append {part : List α} {committed : ℕ} {blocks : List (Block D)}
    (h : Recorded S part committed blocks) (tail : List α) :
    Recorded S (part ++ tail) committed blocks :=
  h.of_take (List.take_append_of_le_length h.le_length)

/-- Neither do bytes cut off past the committed ones. -/
theorem Recorded.take {part : List α} {committed n : ℕ} {blocks : List (Block D)}
    (h : Recorded S part committed blocks) (hn : committed ≤ n) :
    Recorded S (part.take n) committed blocks := by
  apply h.of_take
  rw [List.take_take, Nat.min_eq_left hn]

/-- A block that was written whole at the end of the committed bytes is recorded. -/
theorem Recorded.snoc {part block : List α} {committed : ℕ} {blocks : List (Block D)}
    (h : Recorded S part committed blocks) (hlen : part.length = committed) (hblock : block ≠ [])
    (hsize : committed + block.length ≤ S.expectedSize) :
    Recorded S (part ++ block) (committed + block.length)
      (blocks ++ [⟨committed, block.length, S.sha block⟩]) := by
  obtain ⟨chunks, hne, hblocks, hcommitted, htake, -⟩ := h
  have hpart : part = chunks.flatten := by rw [← htake, ← hlen, List.take_length]
  refine ⟨chunks ++ [block], ?_, ?_, ?_, ?_, hsize⟩
  · intro chunk hchunk
    rcases List.mem_append.mp hchunk with hold | hnew
    · exact hne chunk hold
    · rw [List.mem_singleton.mp hnew]
      exact hblock
  · rw [entries_append, hblocks, hcommitted, Nat.zero_add]
  · rw [List.flatten_append, List.length_append, hcommitted, List.flatten_singleton]
  · rw [List.flatten_append, List.flatten_singleton, ← hpart, ← hlen, ← List.length_append,
      List.take_length]

end OpenVoiceStream.HfArtifacts
