import OpenVoiceStream.AsrWorker.Model

/-!
# Accounts of lanes, sessions and mel files

A lane is given away with the `begin` that opens a session and comes back when the session
is closed, by its final, an error of `end` or the sweep.  `end` works on a copy of the
session, but it closes the session in the table, and a copy has the lane of the original.

A mel file belongs to its session from when the conversion returns its path.  The next
conversion of the session removes it first, and so does every way to close the session.  A
conversion that throws once its file is open never returns the path, and no one removes
that file.

## Main definitions

* `acks`, `closings` — how often a session was opened and closed.
* `Books` — the lanes and the accounts; `Stored` — the mel files.

## Main results

* `step_sound` — one step.
* `lanes_conserved` — every run.
-/

namespace OpenVoiceStream
namespace AsrWorker

/-- How often a `begin` opened the session. -/
def acks (sid : Bytes) : List Event → ℕ
  | [] => 0
  | .acked other :: history => acks sid history + if other = sid then 1 else 0
  | _ :: history => acks sid history

/-- How often the session was closed. -/
def closings (sid : Bytes) : List Event → ℕ
  | [] => 0
  | .closed other :: history => closings sid history + if other = sid then 1 else 0
  | _ :: history => closings sid history

/-- The lanes given away are those of the sessions, each of one session, and a session was
closed as often as it was opened, but for the one that is open. -/
structure Books (w : Worker) : Prop where
  lanes : w.acquired.Perm (w.sessions.items.map fun item => item.2.laneId)
  distinct : w.acquired.Nodup
  accounts : ∀ sid, acks sid w.history =
    closings sid w.history + if (w.sessions.get sid).isSome then 1 else 0

/-- A mel file whose path was returned is that of the session it was made for. -/
def Stored (sessions : Dictionary Bytes Session) (disk : List MelFile) : Prop :=
  ∀ f ∈ disk, f.path ≠ [] ∧
    (f.returned = true → ∃ st, sessions.get f.sid = some st ∧ st.melPathOwned = f.path)

/-- The invariant. -/
def Worker.Sound (w : Worker) : Prop := Books w ∧ Stored w.sessions w.disk

variable {cfg : Cfg} {w w' : Worker} {env : Env} {sid : Bytes} {st kept : Session}
  {disk : List MelFile}

@[simp] theorem say_worker (w : Worker) (line : Json) : (w.say line).worker = w := by
  unfold Worker.say
  split <;> rfl

@[simp] theorem throws_worker (w : Worker) : w.throws.worker = w := rfl

/-! ### The books -/

/-- A session keeps its lane. -/
theorem Books.put (h : Books w) (hget : w.sessions.get sid = some kept)
    (hlane : st.laneId = kept.laneId) : Books (w.put sid st) := by
  refine ⟨?_, h.distinct, fun other => ?_⟩
  · have hwas := (w.sessions.perm_cons_erase hget).map fun item => item.2.laneId
    have hnow : ((w.sessions.put sid st).items.map fun item => item.2.laneId).Perm
        (((sid, st) :: (w.sessions.erase sid).items).map fun item => item.2.laneId) :=
      w.sessions.perm_put.map _
    rw [List.map_cons, hlane] at hnow
    exact h.lanes.trans (hwas.trans hnow.symm)
  · have hsame : ((w.sessions.put sid st).get other).isSome = (w.sessions.get other).isSome := by
      by_cases hother : other = sid
      · rw [hother, hget, Dictionary.get_put_self]
        rfl
      · rw [Dictionary.get_put_of_ne hother]
    show acks other w.history = closings other w.history +
      if ((w.sessions.put sid st).get other).isSome then 1 else 0
    rw [hsame]
    exact h.accounts other

/-- A lane that was not given away is given to a new session. -/
theorem Books.ack (h : Books w) (hget : w.sessions.get sid = none) (hlane : st.laneId ∉ w.acquired) :
    Books { w.put sid st with
      acquired := st.laneId :: w.acquired
      history := .acked sid :: w.history } := by
  refine ⟨?_, List.nodup_cons.mpr ⟨hlane, h.distinct⟩, fun other => ?_⟩
  · have hnow : ((w.sessions.put sid st).items.map fun item => item.2.laneId).Perm
        (((sid, st) :: (w.sessions.erase sid).items).map fun item => item.2.laneId) :=
      w.sessions.perm_put.map _
    have hsame : (w.sessions.erase sid).items = w.sessions.items :=
      Assoc.erase_of_notMem (Dictionary.get_eq_none_iff.mp hget)
    rw [List.map_cons, hsame] at hnow
    exact (h.lanes.cons st.laneId).trans hnow.symm
  · have hwas := h.accounts other
    show acks other w.history + (if sid = other then 1 else 0) = closings other w.history +
      if ((w.sessions.put sid st).get other).isSome then 1 else 0
    by_cases hother : sid = other
    · rw [← hother, hget] at hwas
      rw [← hother, Dictionary.get_put_self]
      simpa using hwas
    · rw [Dictionary.get_put_of_ne fun heq => hother heq.symm, if_neg hother]
      exact hwas

/-- A session is closed, and its lane comes back. -/
theorem Books.close (h : Books w) (hget : w.sessions.get sid = some st) (owned : List Bytes) :
    Books (w.close sid st.laneId owned) := by
  refine ⟨?_, h.distinct.erase _, fun other => ?_⟩
  · have hwas := (w.sessions.perm_cons_erase hget).map fun item => item.2.laneId
    rw [List.map_cons] at hwas
    have herase := (h.lanes.trans hwas).erase st.laneId
    rwa [List.erase_cons_head] at herase
  · have hwas := h.accounts other
    show acks other w.history = closings other w.history + (if sid = other then 1 else 0) +
      if ((w.sessions.erase sid).get other).isSome then 1 else 0
    by_cases hother : sid = other
    · rw [← hother, hget] at hwas
      rw [← hother, Dictionary.get_erase_self]
      simpa using hwas
    · rw [Dictionary.get_erase_of_ne fun heq => hother heq.symm, if_neg hother]
      exact hwas

/-! ### The mel files -/

theorem mem_removeOwned {f : MelFile} {path : Bytes} (h : f ∈ removeOwned disk path) :
    f ∈ disk ∧ (path ≠ [] → f.path ≠ path) := by
  unfold removeOwned at h
  split at h
  · rename_i hpath
    exact ⟨h, fun hne => absurd hpath hne⟩
  · have hmem := List.mem_filter.mp h
    exact ⟨hmem.1, fun _ => by simpa using hmem.2⟩

theorem mem_foldl_removeOwned {f : MelFile} {owned : List Bytes}
    (h : f ∈ owned.foldl removeOwned disk) :
    f ∈ disk ∧ ∀ path ∈ owned, path ≠ [] → f.path ≠ path := by
  induction owned generalizing disk with
  | nil => exact ⟨h, by simp⟩
  | cons path owned ih =>
    obtain ⟨hmem, hrest⟩ := ih h
    obtain ⟨hdisk, hpath⟩ := mem_removeOwned hmem
    refine ⟨hdisk, fun other hother => ?_⟩
    rcases List.mem_cons.mp hother with rfl | hother
    · exact hpath
    · exact hrest other hother

theorem melFile_ne_nil (cfg : Cfg) (sid : Bytes) (tick : ℕ) : melFile cfg sid tick ≠ [] := by
  have hend : ascii ".safetensors" ≠ [] := by decide
  simp [melFile, hend]

/-- What a conversion leaves on the disk: what was there, and a file for its session with the
path it returns, if it returns one. -/
theorem mem_pcmB64ToMelSafetensors {f : MelFile} {pcm : Bytes} {conversion : Conversion}
    (h : f ∈ (pcmB64ToMelSafetensors cfg disk sid pcm conversion).1) :
    f ∈ disk ∨ f.path ≠ [] ∧ (f.returned = true → f.sid = sid ∧
      (pcmB64ToMelSafetensors cfg disk sid pcm conversion).2 = .ok f.path) := by
  by_cases hpcm : pcm = []
  · simp only [pcmB64ToMelSafetensors, if_pos hpcm] at h
    exact .inl h
  simp only [pcmB64ToMelSafetensors, if_neg hpcm] at h ⊢
  cases conversion with
  | made tick =>
    rcases List.mem_cons.mp h with rfl | hmem
    · exact .inr ⟨melFile_ne_nil cfg sid tick, fun _ => ⟨rfl, rfl⟩⟩
    · exact .inl (List.mem_filter.mp hmem).1
  | failed opened what =>
    cases opened with
    | none => exact .inl h
    | some tick =>
      rcases List.mem_cons.mp h with rfl | hmem
      · exact .inr ⟨melFile_ne_nil cfg sid tick, fun hreturned => by cases hreturned⟩
      · exact .inl (List.mem_filter.mp hmem).1

/-- The mel files of the other sessions, and those of one that are at a path of `owned`. -/
def StoredBut (sid : Bytes) (owned : List Bytes) (sessions : Dictionary Bytes Session)
    (disk : List MelFile) : Prop :=
  ∀ f ∈ disk, f.path ≠ [] ∧ (f.returned = true →
    f.sid = sid ∧ f.path ∈ owned ∨
      f.sid ≠ sid ∧ ∃ st, sessions.get f.sid = some st ∧ st.melPathOwned = f.path)

theorem Stored.but (h : Stored w.sessions disk) (hget : w.sessions.get sid = some kept) :
    StoredBut sid [kept.melPathOwned] w.sessions disk := by
  intro f hf
  refine ⟨(h f hf).1, fun hreturned => ?_⟩
  obtain ⟨owner, howner, hpath⟩ := (h f hf).2 hreturned
  by_cases hsid : f.sid = sid
  · rw [hsid, hget, Option.some_inj] at howner
    exact .inl ⟨hsid, by simp [howner, hpath]⟩
  · exact .inr ⟨hsid, owner, howner, hpath⟩

/-- A session is closed and its mel files are removed. -/
theorem StoredBut.close {owned : List Bytes} (h : StoredBut sid owned w.sessions w.disk)
    (lane : ℤ) : Stored (w.close sid lane owned).sessions (w.close sid lane owned).disk := by
  intro f hf
  obtain ⟨hmem, hremoved⟩ := mem_foldl_removeOwned hf
  obtain ⟨hne, hwas⟩ := h f hmem
  refine ⟨hne, fun hreturned => ?_⟩
  rcases hwas hreturned with ⟨-, hpath⟩ | ⟨hsid, owner, howner, hpath⟩
  · exact absurd rfl (hremoved f.path hpath hne)
  · exact ⟨owner, (Dictionary.get_erase_of_ne hsid).trans howner, hpath⟩

/-- The mel file of the session takes the place of what it had. -/
theorem StoredBut.put {owned : List Bytes} (h : StoredBut sid owned w.sessions disk)
    (howned : ∀ path ∈ owned, path = st.melPathOwned) : Stored (w.put sid st).sessions disk := by
  intro f hf
  obtain ⟨hne, hwas⟩ := h f hf
  refine ⟨hne, fun hreturned => ?_⟩
  rcases hwas hreturned with ⟨hsid, hpath⟩ | ⟨hsid, owner, howner, hpath⟩
  · exact ⟨st, by rw [hsid]; exact Dictionary.get_put_self _, (howned _ hpath).symm⟩
  · exact ⟨owner, (Dictionary.get_put_of_ne hsid).trans howner, hpath⟩

/-- Where the conversion returns, the session has the new file and no other. -/
theorem StoredBut.remake (st : Session) {made : Session} {conversion : Conversion}
    (h : StoredBut sid [st.melPathOwned] w.sessions w.disk)
    (hmade : remakeMel cfg w.disk sid st conversion = (disk, .ok made)) :
    StoredBut sid [made.melPathOwned] w.sessions disk ∧ made.laneId = st.laneId := by
  unfold remakeMel at hmade
  dsimp only at hmade
  split at hmade
  case h_2 => cases hmade
  case h_1 path hpath =>
    cases hmade
    refine ⟨fun f hf => ?_, rfl⟩
    rcases mem_pcmB64ToMelSafetensors hf with hmem | ⟨hne, hnew⟩
    · obtain ⟨hdisk, hremoved⟩ := mem_removeOwned hmem
      obtain ⟨hne, hwas⟩ := h f hdisk
      refine ⟨hne, fun hreturned => ?_⟩
      rcases hwas hreturned with ⟨-, howned⟩ | hother
      · have heq : f.path = st.melPathOwned := by simpa using howned
        exact absurd heq (hremoved (heq ▸ hne))
      · exact .inr hother
    · refine ⟨hne, fun hreturned => ?_⟩
      obtain ⟨hsid, hok⟩ := hnew hreturned
      rw [hpath, Except.ok.injEq] at hok
      exact .inl ⟨hsid, by simp [hok]⟩

/-- Where it throws, the session has no file any more. -/
theorem StoredBut.remakeFailed (st : Session) {what : Bytes} {conversion : Conversion}
    (h : StoredBut sid [st.melPathOwned] w.sessions w.disk)
    (hmade : remakeMel cfg w.disk sid st conversion = (disk, .error what)) :
    StoredBut sid [] w.sessions disk := by
  unfold remakeMel at hmade
  dsimp only at hmade
  split at hmade
  case h_1 => cases hmade
  case h_2 what' hwhat =>
    cases hmade
    intro f hf
    rcases mem_pcmB64ToMelSafetensors hf with hmem | ⟨hne, hnew⟩
    · obtain ⟨hdisk, hremoved⟩ := mem_removeOwned hmem
      obtain ⟨hne, hwas⟩ := h f hdisk
      refine ⟨hne, fun hreturned => ?_⟩
      rcases hwas hreturned with ⟨-, howned⟩ | hother
      · have heq : f.path = st.melPathOwned := by simpa using howned
        exact absurd heq (hremoved (heq ▸ hne))
      · exact .inr hother
    · refine ⟨hne, fun hreturned => ?_⟩
      rw [hwhat] at hnew
      cases (hnew hreturned).2

/-! ### Steps -/

theorem Worker.Sound.put (h : w.Sound) (hget : w.sessions.get sid = some kept)
    (hlane : st.laneId = kept.laneId) (howned : st.melPathOwned = kept.melPathOwned) :
    (w.put sid st).Sound :=
  ⟨h.1.put hget hlane, (h.2.but hget).put (by simp [howned])⟩

/-- The answer of `end` changes nothing but the history. -/
theorem finalAnswer_worker (cfg : Cfg) (w : Worker) (env : Env) (sid : Bytes) (st : Session) :
    (finalAnswer cfg w env sid st).1 = w ∨
      (finalAnswer cfg w env sid st).1 = w.decode sid st.melPath := by
  unfold finalAnswer
  split
  · exact .inl rfl
  split <;> exact .inr rfl

/-- A session is closed with its final. -/
theorem sound_close (hbooks : Books w) {owned : List Bytes}
    (hstored : StoredBut sid owned w.sessions w.disk) (hget : w.sessions.get sid = some kept)
    (st : Session) : ((finalAnswer cfg w env sid st).1.close sid kept.laneId owned).Sound := by
  rcases finalAnswer_worker cfg w env sid st with hsame | hsame <;> rw [hsame]
  · exact ⟨hbooks.close hget owned, hstored.close _⟩
  · exact ⟨Books.close (w := w.decode sid st.melPath) ⟨hbooks.1, hbooks.2, hbooks.3⟩ hget owned,
      StoredBut.close (w := w.decode sid st.melPath) hstored kept.laneId⟩

theorem sound_handleEnd (h : w.Sound) (input : Json) : (handleEnd cfg w env input).worker.Sound := by
  obtain ⟨hbooks, hstored⟩ := h
  unfold handleEnd
  split
  · exact ⟨hbooks, hstored⟩
  rename_i sid _
  split
  · rw [say_worker]
    exact ⟨hbooks, hstored⟩
  rename_i kept hget
  have hbut := hstored.but hget
  dsimp only
  split
  · split
    · split
      · rename_i disk made hmade
        rw [say_worker]
        have hnew := (StoredBut.remake (kept.describe input) hbut hmade).1
        refine sound_close (w := { w with disk := disk }) ⟨hbooks.1, hbooks.2, hbooks.3⟩
          (fun f hf => ?_) hget made
        refine ⟨(hnew f hf).1, fun hreturned => ?_⟩
        exact ((hnew f hf).2 hreturned).imp_left fun ⟨hsid, hpath⟩ =>
          ⟨hsid, List.mem_cons_of_mem _ hpath⟩
      · rename_i disk what hmade
        rw [say_worker]
        have hnew := StoredBut.remakeFailed (kept.describe input) hbut hmade
        refine ⟨Books.close (w := { w with disk := disk }) ⟨hbooks.1, hbooks.2, hbooks.3⟩ hget _,
          StoredBut.close (w := { w with disk := disk }) (fun f hf => ?_) kept.laneId⟩
        refine ⟨(hnew f hf).1, fun hreturned => ?_⟩
        exact ((hnew f hf).2 hreturned).imp_left fun ⟨_, hpath⟩ => by cases hpath
    · rw [say_worker]
      exact ⟨hbooks.close hget _, hbut.close _⟩
  · rw [say_worker]
    exact sound_close hbooks hbut hget _

theorem sound_decodeChunk (h : w.Sound) (hget : w.sessions.get sid = some st) :
    (decodeChunk cfg w env sid st).worker.Sound := by
  have hdecode : (w.decode sid st.melPath).Sound := ⟨⟨h.1.1, h.1.2, h.1.3⟩, h.2⟩
  unfold decodeChunk
  dsimp only
  split
  · rw [say_worker]
    exact h
  split
  · split
    · rw [say_worker]
      exact hdecode.put hget rfl rfl
    · rw [say_worker]
      exact hdecode
  · split <;> rw [say_worker] <;> exact hdecode

theorem sound_handleChunk (h : w.Sound) (input : Json) :
    (handleChunk cfg w env input).worker.Sound := by
  unfold handleChunk
  split
  · exact h
  rename_i sid _
  split
  · rw [say_worker]
    exact h
  rename_i kept hget
  have hput : (w.put sid { kept.describe input with lastActivity := env.now }).Sound :=
    h.put hget rfl rfl
  have hnow : (w.put sid { kept.describe input with lastActivity := env.now }).sessions.get sid =
      some { kept.describe input with lastActivity := env.now } := Dictionary.get_put_self _
  dsimp only
  split
  · exact hput
  · exact sound_handleEnd hput input
  split
  · exact sound_decodeChunk hput hnow
  split
  · rw [say_worker]
    exact hput
  have hbut := hput.2.but hnow
  split
  · rename_i disk made hmade
    obtain ⟨hnew, hlane⟩ := StoredBut.remake _ hbut hmade
    refine sound_decodeChunk ⟨?_, hnew.put (by simp)⟩ (Dictionary.get_put_self _)
    exact Books.put (w := { w.put sid _ with disk := disk }) ⟨hput.1.1, hput.1.2, hput.1.3⟩ hnow hlane
  · rename_i disk what hmade
    rw [say_worker]
    have hnew := StoredBut.remakeFailed _ hbut hmade
    refine ⟨⟨hput.1.1, hput.1.2, hput.1.3⟩, fun f hf => ⟨(hnew f hf).1, fun hreturned => ?_⟩⟩
    rcases (hnew f hf).2 hreturned with ⟨-, hpath⟩ | ⟨-, howner⟩
    · cases hpath
    · exact howner

theorem sound_handleBegin (h : w.Sound) (hlane : env.lane ∉ w.acquired) (input : Json) :
    (handleBegin cfg w env input).worker.Sound := by
  unfold handleBegin
  split
  · exact h
  rename_i sid _
  split
  · rw [say_worker]
    exact h
  split
  · rename_i kept hget
    rw [say_worker]
    exact h.put hget rfl rfl
  · rename_i hget
    split
    · rw [say_worker]
      exact h
    · rw [say_worker]
      have hbut : StoredBut sid [] w.sessions w.disk := by
        intro f hf
        refine ⟨(h.2 f hf).1, fun hreturned => .inr ?_⟩
        obtain ⟨owner, howner, hpath⟩ := (h.2 f hf).2 hreturned
        refine ⟨?_, owner, howner, hpath⟩
        rintro heq
        rw [heq, hget] at howner
        cases howner
      exact ⟨h.1.ack hget hlane, hbut.put (by simp)⟩

theorem sound_onJson (h : w.Sound) (hlane : env.lane ∉ w.acquired) (parsed : Json) :
    (onJson cfg w env parsed).worker.Sound := by
  unfold onJson
  split
  · rw [say_worker]
    exact h
  split
  · exact h
  split
  · exact sound_handleBegin h hlane parsed
  split
  · exact sound_handleChunk h parsed
  split
  · exact sound_handleEnd h parsed
  split
  · exact h
  · rw [say_worker]
    exact h

/-- The sweep finds the sessions that it has listed. -/
theorem sound_sweep {items : List (Bytes × ℤ)} (reply : Reply) (h : reply.worker.Sound)
    (hkeys : (items.map Prod.fst).Nodup)
    (hheld : ∀ item ∈ items, ∃ st, reply.worker.sessions.get item.1 = some st ∧
      st.laneId = item.2) : (items.foldl sweepOne reply).worker.Sound := by
  induction items generalizing reply with
  | nil => exact h
  | cons item items ih =>
    rw [List.map_cons, List.nodup_cons] at hkeys
    obtain ⟨st, hget, hlane⟩ := hheld item List.mem_cons_self
    have hrest := fun other hother => hheld other (List.mem_cons_of_mem item hother)
    have hclosed : (reply.worker.close item.1 item.2 [st.melPathOwned]).Sound := by
      rw [← hlane]
      exact ⟨h.1.close hget _, (h.2.but hget).close _⟩
    rw [List.foldl_cons]
    by_cases hescaped : reply.escaped = true
    · have hsame : sweepOne reply item = reply := by rw [sweepOne, if_pos hescaped]
      rw [hsame]
      exact ih reply h hkeys.2 hrest
    · have hworker : (sweepOne reply item).worker =
          reply.worker.close item.1 item.2 [st.melPathOwned] := by
        rw [sweepOne, if_neg hescaped, hget]
        exact say_worker _ _
      refine ih _ (hworker ▸ hclosed) hkeys.2 fun other hother => ?_
      obtain ⟨owner, howner, hlane'⟩ := hrest other hother
      have hne : other.1 ≠ item.1 := fun heq => hkeys.1 (heq ▸ List.mem_map_of_mem hother)
      rw [hworker]
      exact ⟨owner, (Dictionary.get_erase_of_ne hne).trans howner, hlane'⟩

theorem sound_sweepIdleSessions (h : w.Sound) (now : ℕ) :
    (sweepIdleSessions w now).worker.Sound := by
  refine sound_sweep ⟨w, [], false⟩ h ?_ fun item hitem => ?_
  · have hsub : ((reap w now).map Prod.fst).Sublist (w.sessions.items.map Prod.fst) := by
      have hfilter := (List.filter_sublist (l := w.sessions.items)
        (p := fun item => decide (kIdleTimeoutMs < now - item.2.lastActivity))).map Prod.fst
      rw [reap, List.map_map]
      exact hfilter
    exact w.sessions.nodup.sublist hsub
  · obtain ⟨entry, hentry, rfl⟩ := List.mem_map.mp hitem
    exact ⟨entry.2, Dictionary.get_eq_some_iff.mpr (List.mem_filter.mp hentry).1, rfl⟩

/-- **The step lemma.** -/
theorem step_sound {a : Act} (h : w.Sound) (hstep : step cfg w a = some w') : w'.Sound := by
  cases a with
  | line env parsed =>
    simp only [step] at hstep
    split at hstep
    · cases hstep
    rename_i hlane
    split at hstep
    · cases hstep
    · cases hstep
      exact sound_onJson h hlane parsed
  | sweep now =>
    simp only [step] at hstep
    split at hstep
    · cases hstep
    · cases hstep
      exact sound_sweepIdleSessions h now

theorem sound_start : Worker.start.Sound :=
  ⟨⟨List.Perm.refl _, List.nodup_nil, fun _ => rfl⟩, by simp [Stored, Worker.start]⟩

/-- **Lanes, sessions and mel files are conserved.**  In every run the lanes given away are
those of the sessions in the table, no two of them alike; each session was closed as often
as it was opened, but for the one that is open; and a mel file whose conversion returned its
path is there for a session that is open. -/
theorem lanes_conserved (cfg : Cfg) (as : List Act) (w : Worker)
    (hrun : (machine cfg).run as = some w) :
    w.acquired.Perm (w.sessions.items.map fun item => item.2.laneId) ∧ w.acquired.Nodup ∧
      (∀ sid, acks sid w.history =
        closings sid w.history + if (w.sessions.get sid).isSome then 1 else 0) ∧
      ∀ f ∈ w.disk, f.returned = true → (w.sessions.get f.sid).isSome = true := by
  have hsound : w.Sound :=
    (machine cfg).invariant_of_step sound_start (fun _ _ _ h hstep => step_sound h hstep) hrun
  refine ⟨hsound.1.lanes, hsound.1.distinct, hsound.1.accounts, fun f hf hreturned => ?_⟩
  obtain ⟨st, hget, -⟩ := (hsound.2 f hf).2 hreturned
  rw [hget]
  rfl

/-- A worker that takes samples, with four lanes. -/
def exampleCfg : Cfg :=
  { maxSlots := 4, melExtractor := true, tempDirectory := ascii "/tmp", streamPrefix := false
    finalOneShot := true, prefixTokenizer := none, unfixedChunkNum := 2, unfixedTokenNum := 5 }

/-- The decoder answers with a text, and the conversion ends like this. -/
def answers (conversion : Conversion) : Env :=
  { now := 0, lane := 0, conversion := conversion
    ran := .finished true [(0, 0, ascii "a")] 0 }

/-- A line about the session `s`. -/
def lineOf (event : String) (more : List (String × Json)) : Json :=
  .object ([("event", .literal event), ("id", .literal "s")] ++ more)

/-- A session takes samples twice. -/
def chunksRun (first second : Conversion) : List Act :=
  [.line (answers (.made 0)) (lineOf "begin" []),
    .line { answers first with lane := 1 } (lineOf "chunk" [("pcm_b64", .literal "p")]),
    .line { answers second with lane := 1 } (lineOf "chunk" [("pcm_b64", .literal "q")])]

theorem lanes_conserved_chunksRun :
    ∃ w, (machine exampleCfg).run (chunksRun (.made 1) (.made 2)) = some w ∧
      w.acquired = [0] ∧ w.disk.length = 1 ∧
      ∀ f ∈ w.disk, f.returned = true → (w.sessions.get f.sid).isSome = true :=
  ⟨_, rfl, rfl, rfl, (lanes_conserved exampleCfg (chunksRun (.made 1) (.made 2)) _ rfl).2.2.2⟩

/-- Its first conversion throws after it has opened its file, and the session is finalized. -/
def failedConversionRun : List Act :=
  chunksRun (.failed (some 1) []) (.made 2) ++
    ([.line { answers (.made 0) with lane := 1 } (lineOf "end" [])] : List Act)

/-- **A mel file is left behind** when the conversion throws after it has opened it. -/
theorem failedConversionRun_leaves_file :
    ∃ w, (machine exampleCfg).run failedConversionRun = some w ∧
      acks (ascii "s") w.history = 1 ∧ closings (ascii "s") w.history = 1 ∧
      (w.sessions.get (ascii "s")).isSome = false ∧ w.disk.map MelFile.sid = [ascii "s"] :=
  ⟨_, rfl, rfl, rfl, rfl, rfl⟩

end AsrWorker
end OpenVoiceStream
