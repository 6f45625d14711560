import OpenVoiceStream.Rk1828.Channel

/-!
# Requests are not mixed, if the worker writes frames

The thread that reads is the one that wrote the last line. What it has read, and what is still to
be read, is what the worker has written for that line; and where no thread reads, nothing is left
and the worker waits. So no thread ever reads a word that is too large, if the worker writes
none, and every thread but one that finds the worker gone stops behind the end of its reply.

## Main definitions

* `RequestOk`, `Inv` — the invariant, for one request and for all.

## Main results

* `Inv.step` — a careful step keeps it.
* `unmixed_of_careful` — requests are not mixed in careful runs.
-/

namespace OpenVoiceStream
namespace Rk1828

variable {d : Decoder}

/-- The thread has the lock. -/
def Phase.Holds : Phase → Prop
  | .locked | .ready | .reading => True
  | .absent | .waiting | .ended _ => False

/-- What a request that is still reading may yet be given. -/
def Request.ahead (r : Request d) (pipe : List (ℕ × UInt8)) : List (ℕ × UInt8) :=
  if r.phase = .reading then pipe else []

/-- The thread has not yet written its line, nor will it have failed to. -/
def Phase.Early : Phase → Prop
  | .absent | .waiting | .locked | .ready => True
  | .reading | .ended _ => False

/-- What the requests share: the lock, the number of lines, whether the worker has gone, and what
it has written. -/
structure Shared where
  lock : Option ℕ
  lines : ℕ
  exited : Bool
  log : List (ℕ × UInt8)
  pipe : List (ℕ × UInt8)

/-- What the requests share in a state. -/
def State.shared (s : State d) : Shared :=
  { lock := s.lock, lines := s.stdin.length, exited := s.exited, log := s.log, pipe := s.pipe }

/-- The invariant for one request. -/
structure RequestOk (c : Shared) (i : ℕ) (r : Request d) : Prop where
  holder : r.phase.Holds ↔ c.lock = some i
  reading : r.phase = .reading → r.line = some c.lines
  early : r.phase.Early → r.line = none
  line_le : ∀ k, r.line = some k → 1 ≤ k ∧ k ≤ c.lines
  noLine : r.line = none → r.given = []
  reader : r.reader = Reader.of d (r.given.map Prod.snd)
  texts : r.received = r.reader.texts
  share : ∀ k, r.line = some k → r.given ++ r.ahead c.pipe = c.log.filter fun b => b.1 = k
  ended : r.phase = .ended false → r.line ≠ none ∧ Scan.of (r.given.map Prod.snd) = .ended
  failed : r.phase = .ended true → r.line ≠ none → c.exited = true

/-- The invariant. -/
structure Inv (s : State d) : Prop where
  ok : ∀ i, RequestOk s.shared i (s.requests i)
  inj : ∀ i j k, (s.requests i).line = some k → (s.requests j).line = some k → i = j
  quiet : (∀ i, (s.requests i).phase ≠ .reading) →
    s.pipe = [] ∧ (s.exited = false → s.taken = s.stdin.length ∧ s.working = false)
  taken_le : s.taken ≤ s.stdin.length
  oneOut : s.stdin.length ≤ s.answered + 1
  taken_pos : s.working = true → 0 < s.taken
  tags : ∀ b ∈ s.log, 1 ≤ b.1 ∧ b.1 ≤ s.taken
  answered : ∀ k, 1 ≤ k → k ≤ s.answered →
    ∃ body, bytesFor k s.log = body ++ eosWord ∧ Scan.of body = .header []
  current : s.working = true → (Scan.of (bytesFor s.taken s.log)).Open

/-! ### The invariant in use -/

namespace Inv

variable {s : State d}

theorem holds_iff (h : Inv s) (i : ℕ) : (s.requests i).phase.Holds ↔ s.lock = some i :=
  (h.ok i).holder

/-- What a request has been given, and may yet be given, was written for its line. -/
theorem share (h : Inv s) {i k : ℕ} (hline : (s.requests i).line = some k) :
    (s.requests i).given ++ (s.requests i).ahead s.pipe = s.log.filter fun b => b.1 = k :=
  (h.ok i).share k hline

/-- Only one thread has the lock. -/
theorem holder_unique (h : Inv s) {i j : ℕ} (hi : (s.requests i).phase.Holds)
    (hj : (s.requests j).phase.Holds) : i = j := by
  rw [h.holds_iff] at hi hj
  rw [hi] at hj
  exact Option.some.inj hj

/-- While a thread that is not reading has the lock, nothing is left to be read, and the worker
waits. -/
theorem quiet_of_holder (h : Inv s) {i : ℕ} (hi : (s.requests i).phase.Holds)
    (hnot : (s.requests i).phase ≠ .reading) :
    s.pipe = [] ∧ (s.exited = false → s.taken = s.stdin.length ∧ s.working = false) := by
  refine h.quiet fun j hj => ?_
  have hholds : (s.requests j).phase.Holds := by
    rw [hj]
    trivial
  exact hnot (h.holder_unique hi hholds ▸ hj)

/-- While the worker works, a thread reads. -/
theorem exists_reading (h : Inv s) (hlive : s.exited = false) (hwork : s.working = true) :
    ∃ i, (s.requests i).phase = .reading := by
  by_contra hnone
  have hquiet := (h.quiet fun i hi => hnone ⟨i, hi⟩).2 hlive
  rw [hwork] at hquiet
  exact Bool.noConfusion hquiet.2

/-- The worker works for the last line. -/
theorem taken_eq (h : Inv s) (hwork : s.working = true) : s.taken = s.stdin.length := by
  have hout := h.oneOut
  have hpos := h.taken_pos hwork
  have hle := h.taken_le
  rw [State.answered, if_pos hwork] at hout
  omega

/-- **What has been read of a reply goes on, or it is the whole reply.** -/
theorem scan_given (h : Inv s) {k : ℕ} {bytes more : Bytes} (hk : 1 ≤ k) (hne : bytes ≠ [])
    (hbytes : bytes ++ more = bytesFor k s.log) :
    (Scan.of bytes).Open ∨
      Scan.of bytes = .ended ∧ more = [] ∧ k ≤ s.answered := by
  -- bytes were written for the line, so that the worker has taken it
  have htaken : k ≤ s.taken := by
    obtain ⟨b, rest, rfl⟩ := List.exists_cons_of_ne_nil hne
    have hmem : b ∈ bytesFor k s.log := by
      rw [← hbytes]
      exact List.mem_append_left _ List.mem_cons_self
    obtain ⟨⟨tag, b'⟩, hb', rfl⟩ := List.mem_map.mp hmem
    obtain ⟨hlog, htag⟩ := List.mem_filter.mp hb'
    rw [decide_eq_true_eq] at htag
    have hle := (h.tags _ hlog).2
    omega
  by_cases hdone : k ≤ s.answered
  · obtain ⟨body, hbody, hscan⟩ := h.answered k hk hdone
    rw [hbody] at hbytes
    obtain ⟨hended, hopen⟩ := Scan.eosWord_scan hscan
    rcases List.eq_nil_or_concat more with rfl | ⟨init, last, rfl⟩
    · rw [List.append_nil] at hbytes
      exact .inr ⟨by rw [hbytes, hended], rfl, hdone⟩
    · left
      have hword : body ++ eosWord = (body ++ eosWord.dropLast) ++ [0xFF] := by
        rw [List.append_assoc]
        rfl
      rw [hword, List.concat_eq_append, ← List.append_assoc] at hbytes
      have hinit := (List.append_inj' hbytes rfl).1
      rw [← hinit] at hopen
      exact Scan.open_of_prefix hopen
  · have hwork : s.working = true := by
      by_contra hnot
      rw [State.answered, if_neg hnot] at hdone
      exact hdone htaken
    have heq : k = s.taken := by
      rw [State.answered, if_pos hwork] at hdone
      omega
    left
    have hcurrent := h.current hwork
    rw [← heq, ← hbytes] at hcurrent
    exact Scan.open_of_prefix hcurrent

/-- The invariant says that requests are not mixed. -/
theorem unmixed (h : Inv s) : Unmixed s where
  own i line hline b hb := by
    have hmem : b ∈ s.log.filter fun b => b.1 = line := by
      rw [← h.share hline]
      exact List.mem_append_left _ hb
    simpa using (List.mem_filter.mp hmem).2
  inOrder i line hline := by
    rw [bytesFor, ← h.share hline, List.map_append]
    exact List.prefix_append _ _
  noLine i hline := (h.ok i).noLine hline
  texts i := by rw [(h.ok i).texts, (h.ok i).reader]
  whole i line hline hended := by
    have hscan := ((h.ok i).ended hended).2
    have hshare := h.share hline
    rw [Request.ahead, if_neg (by rw [hended]; exact Phase.noConfusion), List.append_nil] at hshare
    have hbytes : (s.requests i).given.map Prod.snd ++ [] = bytesFor line s.log := by
      rw [List.append_nil, hshare]
      rfl
    have hne : (s.requests i).given.map Prod.snd ≠ [] := by
      intro hnil
      rw [hnil] at hscan
      cases hscan
    have hpos := ((h.ok i).line_le line hline).1
    rcases h.scan_given hpos hne hbytes with hopen | ⟨-, -, hdone⟩
    · rw [hscan] at hopen
      exact hopen.elim
    · obtain ⟨body, hbody, hframes⟩ := h.answered line hpos hdone
      obtain ⟨frames, rfl⟩ := frames_of_scan hframes
      refine ⟨frames, hbody, ?_⟩
      rw [(h.ok i).texts, (h.ok i).reader, ← List.append_nil (List.map _ _), hbytes, hbody,
        texts_reply]
  oneOut := h.oneOut

end Inv

/-! ### One request -/

namespace RequestOk

variable {c : Shared} {i : ℕ} {r : Request d}

/-- A request without a line has been given nothing. -/
theorem of_noLine (hholder : r.phase.Holds ↔ c.lock = some i)
    (hphase : r.phase.Early ∨ r.phase = .ended true) (hline : r.line = none)
    (hgiven : r.given = []) (hreader : r.reader = Reader.init d) (htexts : r.received = []) :
    RequestOk c i r where
  holder := hholder
  reading h := by
    rw [h] at hphase
    exact hphase.elim False.elim Phase.noConfusion
  early _ := hline
  line_le k hk := by
    rw [hline] at hk
    cases hk
  noLine _ := hgiven
  reader := by rw [hreader, hgiven]; rfl
  texts := by rw [htexts, hreader]; rfl
  share k hk := by
    rw [hline] at hk
    cases hk
  ended h := by
    rw [h] at hphase
    exact hphase.elim False.elim fun h => by cases h
  failed _ h := (h hline).elim

/-- What is known of a request without a line. -/
theorem data_of_noLine (h : RequestOk c i r) (hline : r.line = none) :
    r.given = [] ∧ r.reader = Reader.init d ∧ r.received = [] := by
  have hgiven := h.noLine hline
  have hreader : r.reader = Reader.init d := by rw [h.reader, hgiven]; rfl
  exact ⟨hgiven, hreader, by rw [h.texts, hreader]; rfl⟩

/-- The lock changes hands between others. -/
theorem relock (h : RequestOk c i r) {lock : Option ℕ} (hlock : lock = some i ↔ c.lock = some i) :
    RequestOk { c with lock := lock } i r :=
  { h with holder := h.holder.trans hlock.symm }

/-- The bytes ahead change for others. -/
theorem repipe (h : RequestOk c i r) {pipe : List (ℕ × UInt8)}
    (hpipe : r.phase = .reading → pipe = c.pipe) : RequestOk { c with pipe := pipe } i r :=
  { h with
    share := by
      intro k hk
      have hshare := h.share k hk
      rw [Request.ahead] at hshare ⊢
      split
      · next hreading =>
        rw [if_pos hreading] at hshare
        rw [show ({ c with pipe := pipe } : Shared).pipe = c.pipe from hpipe hreading]
        exact hshare
      · next hnot =>
        rw [if_neg hnot] at hshare
        exact hshare }

/-- The iterator moves. -/
theorem iterate (h : RequestOk c i r) {queue : List Item} {iter : Iter} {yielded : List Text}
    (htexts : yielded ++ textsOf queue = r.received) :
    RequestOk c i { r with queue := queue, iter := iter, yielded := yielded } :=
  { h with texts := htexts.trans h.texts }

/-- The worker has gone. -/
theorem exit (h : RequestOk c i r) : RequestOk { c with exited := true } i r :=
  { h with failed := fun _ _ => rfl }

/-- The worker writes for another line. -/
theorem emit_other (h : RequestOk c i r) (hnot : r.phase ≠ .reading) {t : ℕ}
    (hline : r.line ≠ some t) (bytes : Bytes) :
    RequestOk { c with log := c.log ++ bytes.map (t, ·), pipe := c.pipe ++ bytes.map (t, ·) } i r :=
  { h with
    share := by
      intro k hk
      have hnone : (bytes.map (t, ·)).filter (fun b => b.1 = k) = [] := by
        rw [List.filter_eq_nil_iff]
        intro b hb
        obtain ⟨b', -, rfl⟩ := List.mem_map.mp hb
        rw [decide_eq_true_eq]
        rintro rfl
        exact hline hk
      have hshare := h.share k hk
      rw [Request.ahead, if_neg hnot] at hshare ⊢
      rw [List.filter_append, hnone, hshare, List.append_nil] }

/-- The worker writes for the line of the request. -/
theorem emit_own (h : RequestOk c i r) (hreading : r.phase = .reading) (bytes : Bytes) :
    RequestOk { c with log := c.log ++ bytes.map (c.lines, ·), pipe := c.pipe ++ bytes.map (c.lines, ·) }
      i r :=
  { h with
    share := by
      intro k hk
      have hline := h.reading hreading
      rw [hk] at hline
      obtain rfl := Option.some.inj hline
      have hall : (bytes.map (c.lines, ·)).filter (fun b => b.1 = c.lines) =
          bytes.map (c.lines, ·) := by
        rw [List.filter_eq_self]
        intro b hb
        obtain ⟨b', -, rfl⟩ := List.mem_map.mp hb
        simp
      have hshare := h.share c.lines hk
      rw [Request.ahead, if_pos hreading] at hshare ⊢
      rw [List.filter_append, hall, ← hshare, List.append_assoc] }

end RequestOk

/-! ### One step -/

theorem bytesFor_emit (k t : ℕ) (log : List (ℕ × UInt8)) (bytes : Bytes) :
    bytesFor k (log ++ bytes.map (t, ·)) = bytesFor k log ++ if t = k then bytes else [] := by
  rw [bytesFor, List.filter_append, List.map_append]
  congr 1
  split
  · next heq =>
    subst heq
    simp [List.filter_map, Function.comp_def]
  · next hne => simp [List.filter_map, Function.comp_def, hne]

namespace Inv

variable {s : State d}

theorem init : Inv (machine d).init where
  ok i := .of_noLine (by simp [machine, State.shared, Request.none, Phase.Holds])
    (.inl trivial) rfl rfl rfl rfl
  inj i j k h := nomatch h
  quiet _ := ⟨rfl, fun _ => ⟨rfl, rfl⟩⟩
  taken_le := Nat.le_refl _
  oneOut := Nat.zero_le _
  taken_pos h := nomatch h
  tags b h := nomatch h
  answered k hpos hle := absurd hpos (Nat.not_le.mpr (Nat.lt_succ_of_le hle))
  current h := nomatch h

/-- A request is changed, and keeps its line. The lock may be taken, or given back, and what is
to be read may change for a thread that reads. -/
theorem relock (h : Inv s) {i : ℕ} {r : Request d} (lock : Option ℕ) (pipe : List (ℕ × UInt8))
    (hr : RequestOk { s.shared with lock := lock, pipe := pipe } i r)
    (hline : r.line = (s.requests i).line)
    (hlock : ∀ j, j ≠ i → (lock = some j ↔ s.lock = some j))
    (hpipe : ∀ j, j ≠ i → (s.requests j).phase = .reading → pipe = s.pipe)
    (hquiet : (∀ j, j ≠ i → (s.requests j).phase ≠ .reading) → r.phase ≠ .reading →
      pipe = [] ∧ (s.exited = false → s.taken = s.stdin.length ∧ s.working = false)) :
    Inv { s.put i r with lock := lock, pipe := pipe } := by
  have hlines : ∀ j, ((s.put i r).requests j).line = (s.requests j).line := by
    intro j
    by_cases hj : j = i
    · rw [hj, s.put_self, hline]
    · rw [s.put_of_ne hj]
  refine { h with ok := fun j => ?_, inj := fun j j' k hk hk' => ?_, quiet := fun hq => ?_ }
  · show RequestOk _ j ((s.put i r).requests j)
    by_cases hj : j = i
    · rw [hj, s.put_self]
      exact hr
    · rw [s.put_of_ne hj]
      exact ((h.ok j).relock (hlock j hj)).repipe (hpipe j hj)
  · exact h.inj j j' k ((hlines j).symm.trans hk) ((hlines j').symm.trans hk')
  · refine hquiet (fun j hj hreading => hq j ?_) fun hreading => hq i ?_
    · show ((s.put i r).requests j).phase = _
      rw [s.put_of_ne hj, hreading]
    · show ((s.put i r).requests i).phase = _
      rw [s.put_self, hreading]

/-- A request is changed, and keeps its line and the lock. -/
theorem put (h : Inv s) {i : ℕ} {r : Request d} (hr : RequestOk s.shared i r)
    (hline : r.line = (s.requests i).line)
    (hreading : r.phase = .reading ↔ (s.requests i).phase = .reading) : Inv (s.put i r) := by
  refine h.relock s.lock s.pipe hr hline (fun _ _ => Iff.rfl) (fun _ _ _ => rfl)
    fun hothers hnot => h.quiet fun j => ?_
  by_cases hj : j = i
  · rw [hj]
    exact fun hphase => hnot (hreading.mpr hphase)
  · exact hothers j hj

/-- Nothing but the holder changes, when the lock is given back. -/
theorem others_of_holder (h : Inv s) {i : ℕ} (hi : (s.requests i).phase.Holds) (j : ℕ)
    (hj : j ≠ i) : (none : Option ℕ) = some j ↔ s.lock = some j := by
  rw [(h.holds_iff i).mp hi]
  constructor
  · intro h
    cases h
  · intro h
    exact (hj (Option.some.inj h).symm).elim

/-- A thread that has not written its line raises. -/
theorem fail_early (h : Inv s) {i : ℕ} (hi : (s.requests i).phase.Holds)
    (hearly : (s.requests i).phase.Early) : Inv (s.fail i (s.requests i)) := by
  have hline := (h.ok i).early hearly
  obtain ⟨hgiven, hreader, htexts⟩ := (h.ok i).data_of_noLine hline
  refine h.relock none s.pipe (.of_noLine ?_ (.inr rfl) hline hgiven hreader ?_) rfl
    (h.others_of_holder hi) (fun _ _ _ => rfl) ?_
  · exact iff_of_false id nofun
  · rw [Request.received] at htexts ⊢
    simpa [textsOf] using htexts
  · intro _ _
    refine h.quiet_of_holder hi fun hreading => ?_
    rw [hreading] at hearly
    exact hearly

/-- The line is written: nothing has been written for it yet. -/
theorem write (h : Inv s) {i : ℕ} (hready : (s.requests i).phase = .ready)
    (hlive : s.exited = false) :
    Inv
      { s.put i { s.requests i with phase := .reading, line := some (s.stdin.length + 1) } with
        stdin := s.stdin ++ [(s.requests i).text] } := by
  have hholds : (s.requests i).phase.Holds := by
    rw [hready]
    trivial
  have hlock := (h.holds_iff i).mp hholds
  have hearly : (s.requests i).line = none := (h.ok i).early (by rw [hready]; trivial)
  obtain ⟨hgiven, hreader, htexts⟩ := (h.ok i).data_of_noLine hearly
  obtain ⟨hpipe, hcaught⟩ := h.quiet_of_holder hholds (by rw [hready]; exact Phase.noConfusion)
  obtain ⟨htaken, hidle⟩ := hcaught hlive
  have hlength : (s.stdin ++ [(s.requests i).text]).length = s.stdin.length + 1 := by simp
  have hnothing : (s.log.filter fun b => b.1 = s.stdin.length + 1) = [] := by
    rw [List.filter_eq_nil_iff]
    intro b hb
    have hle := (h.tags b hb).2
    simp only [decide_eq_true_eq]
    omega
  have hold : ∀ j, j ≠ i → ∀ k, (s.requests j).line = some k → k ≤ s.stdin.length := fun j _ k hk =>
    ((h.ok j).line_le k hk).2
  refine
    { ok := fun j => ?_
      inj := fun j j' k hk hk' => ?_
      quiet := fun hq => ?_
      taken_le := ?_
      oneOut := ?_
      taken_pos := h.taken_pos
      tags := h.tags
      answered := h.answered
      current := h.current }
  · show RequestOk _ j ((s.put i _).requests j)
    by_cases hj : j = i
    · rw [hj, s.put_self]
      exact
        { holder := iff_of_true trivial hlock
          reading := fun _ => congrArg some hlength.symm
          early := False.elim
          line_le := fun k hk => by
            obtain rfl := Option.some.inj hk
            exact ⟨Nat.succ_pos _, hlength.ge⟩
          noLine := fun hnone => by cases hnone
          reader := (h.ok i).reader
          texts := (h.ok i).texts
          share := fun k hk => by
            obtain rfl := Option.some.inj hk
            show (s.requests i).given ++ Request.ahead _ s.pipe = _
            rw [hgiven, Request.ahead, if_pos rfl, hpipe]
            exact hnothing.symm
          ended := fun hended => by cases hended
          failed := fun hfailed => by cases hfailed }
    · rw [s.put_of_ne hj]
      have hok := h.ok j
      refine
        { hok with
          reading := fun hreading => ?_
          line_le := fun k hk => ⟨(hok.line_le k hk).1, ?_⟩ }
      · have hother : (s.requests j).phase.Holds := by
          rw [hreading]
          trivial
        exact (hj (h.holder_unique hother hholds)).elim
      · exact (hold j hj k hk).trans (by simp [State.shared])
  · have hnew : ∀ j k, j ≠ i → ((s.put i { s.requests i with
        phase := .reading, line := some (s.stdin.length + 1) }).requests j).line = some k →
        (s.requests j).line = some k := by
      intro j k hj hk
      rwa [s.put_of_ne hj] at hk
    change ((s.put i _).requests j).line = some k at hk
    change ((s.put i _).requests j').line = some k at hk'
    by_cases hj : j = i
    · by_cases hj' : j' = i
      · rw [hj, hj']
      · rw [hj, s.put_self] at hk
        have hle := hold j' hj' k (hnew j' k hj' hk')
        have heq := Option.some.inj hk
        omega
    · by_cases hj' : j' = i
      · rw [hj', s.put_self] at hk'
        have hle := hold j hj k (hnew j k hj hk)
        have heq := Option.some.inj hk'
        omega
      · exact h.inj j j' k (hnew j k hj hk) (hnew j' k hj' hk')
  · have hnot := hq i
    change ((s.put i _).requests i).phase ≠ _ at hnot
    rw [s.put_self] at hnot
    exact (hnot rfl).elim
  · exact h.taken_le.trans (by simp)
  · show (s.stdin ++ [_]).length ≤ s.answered + 1
    rw [hlength, State.answered, if_neg (by rw [hidle]; exact Bool.false_ne_true), htaken]

/-- What is left of the pipe of a thread that reads. -/
theorem share_reading (h : Inv s) {i : ℕ} (hreading : (s.requests i).phase = .reading) :
    (s.requests i).line = some s.stdin.length ∧
      (s.requests i).given ++ s.pipe = s.log.filter fun b => b.1 = s.stdin.length := by
  have hline := (h.ok i).reading hreading
  have hshare := h.share hline
  rw [Request.ahead, if_pos hreading] at hshare
  exact ⟨hline, hshare⟩

/-- A byte is read. -/
theorem read (h : Inv s) {i : ℕ} (hreading : (s.requests i).phase = .reading) {b : ℕ × UInt8}
    {rest : List (ℕ × UInt8)} (hpipe : s.pipe = b :: rest) : Inv (s.readByte i b rest) := by
  obtain ⟨hline, hshare⟩ := h.share_reading hreading
  have hholds : (s.requests i).phase.Holds := by
    rw [hreading]
    trivial
  have hpos := ((h.ok i).line_le _ hline).1
  rw [hpipe, List.append_cons] at hshare
  -- the reader and the texts, behind the byte
  have hreader : (s.requests i).reader.byte b.2 =
      Reader.of d (((s.requests i).given ++ [b]).map Prod.snd) := by
    rw [(h.ok i).reader, List.map_append, List.map_singleton, Reader.of_concat]
  have htexts : (s.requests i).yielded ++
      textsOf ((s.requests i).queue ++ State.fresh (s.requests i) b.2) =
        ((s.requests i).reader.byte b.2).texts := by
    obtain ⟨new, hnew⟩ := (s.requests i).reader.texts_prefix b.2
    have hreceived := (h.ok i).texts
    rw [Request.received] at hreceived
    rw [State.fresh, ← hnew, List.drop_left, ← hreceived]
    simp [textsOf, List.filterMap_append, List.filterMap_map]
  have hbytes : ((s.requests i).given ++ [b]).map Prod.snd ++ rest.map Prod.snd =
      bytesFor s.stdin.length s.log := by
    rw [bytesFor, ← hshare, List.map_append, List.map_append, List.map_append]
  have hscan := h.scan_given hpos (by simp) hbytes
  have hothers : ∀ j, j ≠ i → (s.requests j).phase = .reading → rest = s.pipe := by
    intro j hj hother
    have hholds' : (s.requests j).phase.Holds := by
      rw [hother]
      trivial
    exact (hj (h.holder_unique hholds' hholds)).elim
  rw [hreader] at htexts
  rcases hscan with hopen | ⟨hended, hrest, hdone⟩
  · -- the reply goes on
    have hstate : s.readByte i b rest =
        { s with pipe := rest }.put i
          { s.requests i with
            reader := (s.requests i).reader.byte b.2
            given := (s.requests i).given ++ [b]
            queue := (s.requests i).queue ++ State.fresh (s.requests i) b.2 } := by
      unfold State.readByte
      dsimp only
      rw [hreader, Reader.of_scan]
      split
      · rfl
      · rfl
      · next hscan =>
        rw [hscan] at hopen
        exact hopen.elim
      · next hscan =>
        rw [hscan] at hopen
        exact hopen.elim
    rw [hstate]
    refine h.relock s.lock rest ?_ rfl (fun _ _ => Iff.rfl) hothers
      fun _ hnot => (hnot hreading).elim
    have hok := h.ok i
    exact
      { hok with
        noLine := fun hnone => by
          change (s.requests i).line = none at hnone
          rw [hline] at hnone
          cases hnone
        reader := hreader
        texts := by rw [hreader]; exact htexts
        share := fun k hk => by
          change (s.requests i).line = some k at hk
          rw [hline] at hk
          obtain rfl := Option.some.inj hk
          show _ ++ Request.ahead _ rest = _
          rw [Request.ahead, if_pos hreading]
          exact hshare
        ended := fun hphase => by
          change (s.requests i).phase = _ at hphase
          rw [hreading] at hphase
          cases hphase }
  · -- the reply ends
    rw [List.map_eq_nil_iff] at hrest
    have hstate : s.readByte i b rest =
        { { s with pipe := rest }.put i
            { s.requests i with
              phase := .ended false
              reader := (s.requests i).reader.byte b.2
              given := (s.requests i).given ++ [b]
              queue := (s.requests i).queue ++ State.fresh (s.requests i) b.2 ++ [Item.done] } with
          lock := none } := by
      unfold State.readByte
      dsimp only
      rw [hreader, Reader.of_scan, hended]
    rw [hstate]
    refine h.relock none rest ?_ rfl (h.others_of_holder hholds) hothers fun _ _ => ⟨hrest, fun hlive => ?_⟩
    · exact
        { holder := iff_of_false id nofun
          reading := fun hphase => by cases hphase
          early := False.elim
          line_le := (h.ok i).line_le
          noLine := fun hnone => by
            change (s.requests i).line = none at hnone
            rw [hline] at hnone
            cases hnone
          reader := hreader
          texts := by
            rw [hreader, ← htexts, Request.received]
            simp [textsOf, List.filterMap_append]
          share := fun k hk => by
            change (s.requests i).line = some k at hk
            rw [hline] at hk
            obtain rfl := Option.some.inj hk
            show _ ++ Request.ahead _ rest = _
            rw [Request.ahead, if_neg (by nofun), List.append_nil]
            rw [hrest, List.append_nil] at hshare
            exact hshare
          ended := fun _ => ⟨by rw [hline]; exact Option.some_ne_none _, hended⟩
          failed := fun hphase => by cases hphase }
    · -- the worker has answered its last line
      have hle := h.taken_le
      by_cases hwork : s.working = true
      · have hpos' := h.taken_pos hwork
        rw [State.answered, if_pos hwork] at hdone
        omega
      · rw [State.answered, if_neg hwork] at hdone
        exact ⟨by omega, Bool.eq_false_iff.mpr hwork⟩

/-- The worker has gone. -/
theorem eof (h : Inv s) {i : ℕ} (hreading : (s.requests i).phase = .reading) (hpipe : s.pipe = [])
    (hexited : s.exited = true) : Inv (s.fail i (s.requests i)) := by
  have hholds : (s.requests i).phase.Holds := by
    rw [hreading]
    trivial
  obtain ⟨hline, hshare⟩ := h.share_reading hreading
  have hok := h.ok i
  refine h.relock none s.pipe ?_ rfl (h.others_of_holder hholds) (fun _ _ _ => rfl)
    fun _ _ => ⟨hpipe, fun hlive => ?_⟩
  · exact
      { hok with
        holder := iff_of_false id nofun
        reading := fun hphase => by cases hphase
        early := False.elim
        texts := by
          rw [← hok.texts, Request.received, Request.received]
          simp [textsOf, List.filterMap_append]
        share := fun k hk => by
          change (s.requests i).line = some k at hk
          rw [hline] at hk
          obtain rfl := Option.some.inj hk
          show _ ++ Request.ahead _ s.pipe = _
          rw [hpipe] at hshare
          rw [Request.ahead, if_neg (by nofun)]
          exact hshare
        ended := fun hphase => by cases hphase
        failed := fun _ _ => hexited }
  · rw [hexited] at hlive
    cases hlive

/-- The worker takes a line, and has written nothing for it. -/
theorem take (h : Inv s) (hlive : s.exited = false) (hidle : s.working = false)
    (hmore : s.taken < s.stdin.length) :
    Inv { s with working := true, taken := s.taken + 1 } := by
  have hout := h.oneOut
  rw [State.answered, if_neg (by rw [hidle]; exact Bool.false_ne_true)] at hout
  have hnothing : bytesFor (s.taken + 1) s.log = [] := by
    rw [bytesFor, List.map_eq_nil_iff, List.filter_eq_nil_iff]
    intro b hb
    have hle := (h.tags b hb).2
    rw [decide_eq_true_eq]
    omega
  exact
    { ok := h.ok
      inj := h.inj
      quiet := fun hq => by
        have hcaught := ((h.quiet hq).2 hlive).1
        omega
      taken_le := hmore
      oneOut := hout
      taken_pos := fun _ => Nat.succ_pos _
      tags := fun b hb => ⟨(h.tags b hb).1, (h.tags b hb).2.trans (Nat.le_succ _)⟩
      answered := fun k hpos hle => by
        refine h.answered k hpos ?_
        rw [State.answered, if_neg (by rw [hidle]; exact Bool.false_ne_true)]
        exact hle
      current := fun _ => by
        show (Scan.of (bytesFor (s.taken + 1) s.log)).Open
        rw [hnothing]
        trivial }

/-- The worker writes bytes, and is at its line still, or has answered it. -/
theorem emit (h : Inv s) (hlive : s.exited = false) (hwork : s.working = true) (bytes : Bytes)
    (working : Bool)
    (hopen : working = true → (Scan.of (bytesFor s.taken s.log ++ bytes)).Open)
    (hdone : working = false → bytes = eosWord ∧ Scan.of (bytesFor s.taken s.log) = .header []) :
    Inv { s.emitBytes bytes with working := working } := by
  have htaken := h.taken_eq hwork
  have hpos := h.taken_pos hwork
  obtain ⟨i, hreading⟩ := h.exists_reading hlive hwork
  obtain ⟨hline, -⟩ := h.share_reading hreading
  have hholds : (s.requests i).phase.Holds := by
    rw [hreading]
    trivial
  exact
    { ok := fun j => by
        show RequestOk
          { s.shared with
            log := s.log ++ bytes.map (s.taken, ·)
            pipe := s.pipe ++ bytes.map (s.taken, ·) } j (s.requests j)
        by_cases hj : j = i
        · rw [hj, htaken]
          exact (h.ok i).emit_own hreading bytes
        · refine (h.ok j).emit_other (fun hother => hj (h.holder_unique ?_ hholds)) ?_ bytes
          · rw [hother]
            trivial
          · intro hsame
            rw [htaken] at hsame
            exact hj (h.inj j i _ hsame hline)
      inj := h.inj
      quiet := fun hq => (hq i hreading).elim
      taken_le := h.taken_le
      oneOut := by
        show s.stdin.length ≤ (if working then s.taken - 1 else s.taken) + 1
        split <;> omega
      taken_pos := fun _ => hpos
      tags := fun b hb => by
        rcases List.mem_append.mp hb with hb | hb
        · exact h.tags b hb
        · obtain ⟨b', -, rfl⟩ := List.mem_map.mp hb
          exact ⟨hpos, Nat.le_refl _⟩
      answered := fun k hk hle => by
        show ∃ body, bytesFor k (s.log ++ bytes.map (s.taken, ·)) = body ++ eosWord ∧ _
        rw [bytesFor_emit]
        by_cases hsame : s.taken = k
        · subst hsame
          have hended : working = false := by
            by_contra hnot
            rw [Bool.not_eq_false] at hnot
            change s.taken ≤ if working then s.taken - 1 else s.taken at hle
            rw [if_pos hnot] at hle
            omega
          obtain ⟨rfl, hscan⟩ := hdone hended
          exact ⟨bytesFor s.taken s.log, by rw [if_pos rfl], hscan⟩
        · rw [if_neg hsame, List.append_nil]
          refine h.answered k hk ?_
          change k ≤ if working then s.taken - 1 else s.taken at hle
          rw [State.answered, if_pos hwork]
          split at hle <;> omega
      current := fun hworking => by
        show (Scan.of (bytesFor s.taken (s.log ++ bytes.map (s.taken, ·)))).Open
        rw [bytesFor_emit, if_pos rfl]
        exact hopen hworking }

/-- **A careful step keeps the invariant.** -/
theorem step (h : Inv s) {e : Event} (hcareful : CarefulStep s e) {s' : State d}
    (hstep : step s e = some s') : Inv s' := by
  cases e with
  | call i request =>
    rw [Rk1828.step] at hstep
    split at hstep
    · next hphase =>
      obtain rfl := Option.some.inj hstep
      have hline := (h.ok i).early (by rw [hphase]; trivial)
      obtain ⟨hgiven, hreader, htexts⟩ := (h.ok i).data_of_noLine hline
      have hholder := (h.ok i).holder
      rw [hphase] at hholder
      refine h.put (.of_noLine hholder (.inl trivial) hline hgiven hreader htexts) rfl ?_
      rw [hphase]
      exact iff_of_false nofun nofun
    · cases hstep
  | acquire i =>
    rw [Rk1828.step] at hstep
    split at hstep
    · next hphase =>
      obtain rfl := Option.some.inj hstep
      obtain ⟨hphase, hlock⟩ := hphase
      have hline := (h.ok i).early (by rw [hphase]; trivial)
      obtain ⟨hgiven, hreader, htexts⟩ := (h.ok i).data_of_noLine hline
      have hfree : ∀ j, (s.requests j).phase ≠ .reading := by
        intro j hreading
        have hholder := h.holds_iff j
        rw [hreading, hlock] at hholder
        exact nomatch hholder.mp trivial
      refine h.relock (some i) s.pipe (.of_noLine (iff_of_true trivial rfl) (.inl trivial) hline
        hgiven hreader htexts) rfl (fun j hj => ?_) (fun _ _ _ => rfl) fun _ _ => h.quiet hfree
      rw [hlock]
      exact iff_of_false (fun heq => hj (Option.some.inj heq).symm) nofun
    · cases hstep
  | check i =>
    rw [Rk1828.step] at hstep
    split at hstep
    · next hphase =>
      have hholds : (s.requests i).phase.Holds := by
        rw [hphase]
        trivial
      have hearly : (s.requests i).phase.Early := by
        rw [hphase]
        trivial
      split at hstep
      · obtain rfl := Option.some.inj hstep
        exact h.fail_early hholds hearly
      · obtain rfl := Option.some.inj hstep
        have hline := (h.ok i).early hearly
        obtain ⟨hgiven, hreader, htexts⟩ := (h.ok i).data_of_noLine hline
        refine h.put (.of_noLine (iff_of_true trivial ((h.holds_iff i).mp hholds)) (.inl trivial)
          hline hgiven hreader htexts) rfl ?_
        rw [hphase]
        exact iff_of_false nofun nofun
    · cases hstep
  | write i =>
    rw [Rk1828.step] at hstep
    split at hstep
    · next hphase =>
      split at hstep
      · obtain rfl := Option.some.inj hstep
        exact h.fail_early (by rw [hphase]; trivial) (by rw [hphase]; trivial)
      · next hlive =>
        obtain rfl := Option.some.inj hstep
        exact h.write hphase (Bool.eq_false_iff.mpr hlive)
    · cases hstep
  | read i =>
    rw [Rk1828.step] at hstep
    split at hstep
    · next hphase =>
      split at hstep
      · cases hstep
      · next hpipe =>
        obtain rfl := Option.some.inj hstep
        exact h.read hphase hpipe
    · cases hstep
  | eof i =>
    rw [Rk1828.step] at hstep
    split at hstep
    · next hphase =>
      obtain rfl := Option.some.inj hstep
      exact h.eof hphase.1 hphase.2.1 hphase.2.2
    · cases hstep
  | next i =>
    rw [Rk1828.step] at hstep
    split at hstep
    · split at hstep
      · cases hstep
      · next item rest hqueue =>
        obtain rfl := Option.some.inj hstep
        cases item with
        | text piece =>
          refine h.put ((h.ok i).iterate ?_) rfl Iff.rfl
          rw [Request.received, hqueue]
          simp [textsOf]
        | error =>
          refine h.put ((h.ok i).iterate ?_) rfl Iff.rfl
          rw [Request.received, hqueue]
          rfl
        | done =>
          refine h.put ((h.ok i).iterate ?_) rfl Iff.rfl
          rw [Request.received, hqueue]
          rfl
    · cases hstep
  | timeout i =>
    rw [Rk1828.step] at hstep
    split at hstep
    · obtain rfl := Option.some.inj hstep
      exact h.put ((h.ok i).iterate rfl) rfl Iff.rfl
    · cases hstep
  | close i =>
    rw [Rk1828.step] at hstep
    split at hstep
    · obtain rfl := Option.some.inj hstep
      exact h.put ((h.ok i).iterate rfl) rfl Iff.rfl
    · cases hstep
  | take =>
    rw [Rk1828.step] at hstep
    split at hstep
    · next hphase =>
      obtain rfl := Option.some.inj hstep
      exact h.take hphase.1 hphase.2.1 hphase.2.2
    · cases hstep
  | emit b =>
    rw [Rk1828.step] at hstep
    split at hstep
    · next hphase =>
      obtain rfl := Option.some.inj hstep
      have hemit := h.emit hphase.1 hphase.2 [b] s.working (fun _ => hcareful) fun hidle => by
          rw [hphase.2] at hidle
          cases hidle
      exact hemit
    · cases hstep
  | finish =>
    rw [Rk1828.step] at hstep
    split at hstep
    · next hphase =>
      obtain rfl := Option.some.inj hstep
      exact h.emit hphase.1 hphase.2 eosWord false nofun fun _ => ⟨rfl, hcareful⟩
    · cases hstep
  | exit =>
    rw [Rk1828.step] at hstep
    split at hstep
    · obtain rfl := Option.some.inj hstep
      exact
        { h with
          ok := fun i => (h.ok i).exit
          quiet := fun hq => ⟨(h.quiet hq).1, nofun⟩ }
    · cases hstep

end Inv

/-- **Requests are not mixed in careful runs**: for every number of requests, every order of the
events, and whatever becomes of the iterators. -/
theorem unmixed_of_careful {events : List Event} {s : State d} (hcareful : Careful d events)
    (hrun : (machine d).run events = some s) : Unmixed s := by
  have hinv : Inv s :=
    (machine d).invariant_of_guarded CarefulStep Inv.init
      (fun _ _ _ hinv hok hstep => hinv.step hok hstep) hcareful hrun
  exact hinv.unmixed

/-! ### A word that is too large -/

/-- A decoder for texts of ASCII. -/
def asciiDecoder : Decoder where
  State := Unit
  init := ()
  decode _ bytes := ((), bytes.map fun b => Char.ofNat b.toNat)
  final _ := []

/-- A request without tools. -/
def chat (prompt : String) : ChatRequest :=
  { prompt := prompt.toList, maxTokens := none, tools := none }

/-- A request up to its line. -/
def starts (i : ℕ) (prompt : String) : List Event :=
  [.call i (chat prompt), .acquire i, .check i, .write i]

/-- So many bytes are read. -/
def reads (i n : ℕ) : List Event := List.replicate n (.read i)

/-- Two requests, one after the other, each of them answered by a frame. -/
def twoReplies : List Event :=
  starts 0 "hi" ++ [.take] ++ [1, 0, 0, 0, 65].map .emit ++ [.finish] ++ reads 0 9 ++
    starts 1 "ho" ++ [.take] ++ [1, 0, 0, 0, 66].map .emit ++ [.finish] ++ reads 1 9

theorem unmixed_twoReplies :
    ∃ s, (machine asciiDecoder).run twoReplies = some s ∧
      (s.requests 1).received = ["B".toList] ∧ Unmixed s := by
  have hcareful : Careful asciiDecoder twoReplies := by
    unfold Careful
    decide +kernel
  have hsome : ((machine asciiDecoder).run twoReplies).isSome = true := by decide +kernel
  have hreceived : ((machine asciiDecoder).run twoReplies).map
      (fun s => (s.requests 1).received) = some ["B".toList] := by
    decide +kernel
  obtain ⟨s, hrun⟩ := Option.isSome_iff_exists.mp hsome
  rw [hrun, Option.map_some, Option.some.injEq] at hreceived
  exact ⟨s, hrun, hreceived, unmixed_of_careful hcareful hrun⟩

/-- A word that is too large for a frame, a request that raises at it, and one that comes next. The
first reply goes on meanwhile. -/
def oversizeWord : List Event :=
  starts 0 "hi" ++ [.take] ++ [0, 0, 0, 1].map .emit ++ reads 0 4 ++ starts 1 "ho" ++
    [1, 0, 0, 0, 65].map .emit ++ [.finish] ++ reads 1 5

/-- **Replies are mixed** behind a word that is too large: the second request is given a text that
was written for the line of the first, and two lines are out at once. -/
theorem second_given_first :
    ∃ s, (machine asciiDecoder).run oversizeWord = some s ∧
      (s.requests 0).phase = .ended true ∧ (s.requests 1).received = ["A".toList] ∧
      (s.requests 1).given.head? = some (1, 1) ∧ (s.requests 1).line = some 2 ∧ ¬Unmixed s := by
  have hrun : ((machine asciiDecoder).run oversizeWord).map (fun s =>
      ((s.requests 0).phase, (s.requests 1).received, (s.requests 1).given.head?,
        (s.requests 1).line)) = some (.ended true, ["A".toList], some (1, 1), some 2) := rfl
  obtain ⟨s, hs, hdata⟩ := Option.map_eq_some_iff.mp hrun
  obtain ⟨hphase, hdata⟩ := Prod.mk.inj hdata
  obtain ⟨hreceived, hdata⟩ := Prod.mk.inj hdata
  obtain ⟨hgiven, hline⟩ := Prod.mk.inj hdata
  refine ⟨s, hs, hphase, hreceived, hgiven, hline, fun h => ?_⟩
  have hown := h.own 1 2 hline _ (List.mem_of_head? hgiven)
  exact absurd hown (by decide)

end Rk1828
end OpenVoiceStream
