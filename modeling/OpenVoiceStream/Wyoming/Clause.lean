import Mathlib.Data.Int.Notation
import OpenVoiceStream.V2v.Tts.Buffer

/-!
# The clause buffer

`ClauseBuffer` cuts the text of a reply, which comes in chunks, into clauses. It cuts where
the buffer of the server does, but at the end of the reply it hands out whatever is left.

What counts of a text is the part of it that is no white space, `solid`. A buffer only moves
it: what was put in is what came out and what is still there.

## Main definitions

* `Python` — what Python's library says about texts.
* `solid` — the characters of a text that are no white space.
* `ClauseBuffer`, `ClauseBuffer.make` — the settings of a buffer.
* `ClauseBuffer.nextPart`, `ClauseBuffer.emit`, `ClauseBuffer.add`, `ClauseBuffer.flush` —
  the buffer; its state is the text it holds.
* `ClauseBuffer.addAll` — the clauses some chunks lead to.

## Main results

* `emit_eq` — the loop ends by itself.
* `solid_emit` — clauses and buffer hold what the buffer held.
* `emit_ne_blank` — no clause is blank.
* `solid_addAll_flush` — the clauses of a reply are its text.
-/

namespace OpenVoiceStream.Wyoming

open V2v.Tts (CharTables strip lstrip firstBreakIndex lastBreakIndex cjkLanguages)

/-- What Python's library says about texts: the tables of Unicode, `text.lower()`, and
`int(text)` where it does not raise. -/
structure Python where
  tables : CharTables
  lower : Text → Text
  int : Text → Option ℤ

/-- The characters of a text that are no white space. -/
def solid (u : CharTables) (text : Text) : Text := text.filter fun c => !u.isSpace c

/-- `contains_cjk`. -/
def containsCjk (text : Text) : Bool :=
  text.any fun c =>
    (0x4E00 ≤ c.toNat && c.toNat ≤ 0x9FFF) || (0x3400 ≤ c.toNat && c.toNat ≤ 0x4DBF) ||
      (0x3040 ≤ c.toNat && c.toNat ≤ 0x30FF) || (0xAC00 ≤ c.toNat && c.toNat ≤ 0xD7AF)

/-- `MIN_SENTENCE_CHARS`. -/
def minSentenceChars : ℕ := 2

/-- The three sizes of the environment, `…_MIN_CHARS`, `…_TARGET_CHARS` and `…_MAX_CHARS`,
for the languages without blanks between words and for the others. -/
structure Sizes where
  cjk : ℤ × ℤ × ℤ
  latin : ℤ × ℤ × ℤ

/-- The sizes where the environment says nothing. -/
def defaultSizes : Sizes := { cjk := (15, 24, 40), latin := (24, 48, 80) }

/-- A `ClauseBuffer`, as `__post_init__` leaves it. -/
structure ClauseBuffer where
  language : Text
  minChars : ℕ
  targetChars : ℕ
  maxChars : ℕ
  two_le_min : 2 ≤ minChars
  min_le_target : minChars ≤ targetChars
  target_le_max : targetChars ≤ maxChars

namespace ClauseBuffer

variable (py : Python)

/-- `__post_init__`. -/
def make (env : Sizes) (language : Option Text) : ClauseBuffer :=
  let lang := py.lower (strip py.tables (language.getD []))
  let (least, target, most) := if lang ∈ cjkLanguages then env.cjk else env.latin
  let least := (max 2 least).toNat
  let target := max least target.toNat
  { language := language.getD []
    minChars := least
    targetChars := target
    maxChars := max target most.toNat
    two_le_min := Int.toNat_le_toNat (Int.le_max_left 2 _)
    min_le_target := Nat.le_max_left _ _
    target_le_max := Nat.le_max_left _ _ }

variable (b : ClauseBuffer)

/-- `is_cjk`. -/
def isCjk (text : Text) : Bool :=
  containsCjk text || decide (py.lower b.language ∈ cjkLanguages)

/-- `_take`: a clause, and what is left. -/
def take (text : Text) (stop : ℕ) : Option Text × Text :=
  let out := strip py.tables (text.take stop)
  (if out = [] then none else some out, lstrip py.tables (text.drop stop))

/-- `_length_cut`. -/
def lengthCut (text : Text) : ℕ :=
  let limit := min text.length b.maxChars
  if b.isCjk py text then
    match lastBreakIndex text "，,、：:".toList limit with
    | some i => if b.minChars - 1 ≤ i then i + 1 else limit
    | none => limit
  else
    match (List.range limit).reverse.find? fun i =>
      b.minChars - 1 ≤ i && (text[i]?.any py.tables.isSpace) with
    | some i => i + 1
    | none => min text.length b.targetChars

/-- `soft_breaks`. -/
def softBreaks (text : Text) : Text :=
  if b.isCjk py text then "，,、：:".toList else ",;:".toList

/-- `threshold`. -/
def threshold (text : Text) : ℕ := if b.isCjk py text then b.maxChars else b.targetChars

/-- Where `_next` cuts a text that does not end the reply. -/
def cut (text : Text) : Option ℕ :=
  let size := (strip py.tables text).length
  let long (stop least : ℕ) : Bool := least ≤ (strip py.tables (text.take stop)).length
  match (firstBreakIndex text "。！？!?；;\n".toList).filter
      fun i => long (i + 1) minSentenceChars with
  | some i => some (i + 1)
  | none =>
    let soft := lastBreakIndex text (b.softBreaks py text) text.length
    match soft.filter fun i => long (i + 1) b.minChars with
    | some i => some (i + 1)
    | none =>
      if soft.isSome && b.targetChars ≤ size then some text.length
      else if size < b.threshold py text then none
      else if b.lengthCut py text = 0 then none
      else some (b.lengthCut py text)

/-- `_next`: a clause, if there is one, and the buffer after it. -/
def nextPart (final : Bool) (buf : Text) : Option Text × Text :=
  let text := lstrip py.tables buf
  if text = [] then (none, [])
  else if final then
    let out := strip py.tables text
    (if out = [] then none else some out, [])
  else
    match b.cut py text with
    | some stop => take py text stop
    | none => (none, text)

/-- `_emit`, for so many rounds at most. -/
def emit (final : Bool) : ℕ → Text → List Text × Text
  | 0, buf => ([], buf)
  | n + 1, buf =>
    match b.nextPart py final buf with
    | (none, buf) => ([], buf)
    | (some part, buf) => (part :: (emit final n buf).1, (emit final n buf).2)

/-- `add`. -/
def add (buf chunk : Text) : List Text × Text :=
  if chunk = [] then ([], buf) else b.emit py false ((buf ++ chunk).length + 1) (buf ++ chunk)

/-- `flush`. -/
def flush (buf : Text) : List Text × Text := b.emit py true (buf.length + 1) buf

/-- The clauses some chunks lead to, and the buffer after them. -/
def addAll (buf : Text) : List Text → List Text × Text
  | [] => ([], buf)
  | chunk :: rest =>
    ((b.add py buf chunk).1 ++ (addAll (b.add py buf chunk).2 rest).1,
      (addAll (b.add py buf chunk).2 rest).2)

end ClauseBuffer

/-! ### White space -/

section Solid

variable (u : CharTables)

@[simp] theorem solid_nil : solid u [] = [] := rfl

@[simp] theorem solid_append (xs ys : Text) : solid u (xs ++ ys) = solid u xs ++ solid u ys :=
  List.filter_append ..

@[simp] theorem solid_reverse (xs : Text) : solid u xs.reverse = (solid u xs).reverse :=
  List.filter_reverse

@[simp] theorem solid_lstrip (text : Text) : solid u (lstrip u text) = solid u text := by
  unfold lstrip solid
  induction text with
  | nil => rfl
  | cons c rest ih =>
    rw [List.dropWhile_cons]
    split
    · next hspace =>
      rw [ih, List.filter_cons_of_neg (by simp [hspace])]
    · rfl

@[simp] theorem solid_strip (text : Text) : solid u (strip u text) = solid u text := by
  have hback : ∀ xs : Text, solid u (xs.reverse.dropWhile u.isSpace).reverse = solid u xs := by
    intro xs
    rw [solid_reverse, show xs.reverse.dropWhile u.isSpace = lstrip u xs.reverse from rfl,
      solid_lstrip, solid_reverse, List.reverse_reverse]
  rw [strip, hback, solid_lstrip]

/-- A text that begins with no white space has something solid, if it has anything. -/
theorem lstrip_eq_nil_iff {text : Text} : lstrip u text = [] ↔ solid u text = [] := by
  unfold lstrip solid
  induction text with
  | nil => simp
  | cons c rest ih =>
    rw [List.dropWhile_cons]
    split
    · next hspace => rw [ih, List.filter_cons_of_neg (by simp [hspace])]
    · next hspace =>
      rw [List.filter_cons_of_pos (by simpa using hspace)]
      simp

theorem strip_eq_nil_iff {text : Text} : strip u text = [] ↔ solid u text = [] := by
  unfold strip
  rw [List.reverse_eq_nil_iff]
  show lstrip u (lstrip u text).reverse = [] ↔ _
  rw [lstrip_eq_nil_iff, solid_reverse, solid_lstrip, List.reverse_eq_nil_iff]

end Solid

namespace ClauseBuffer

variable (py : Python) (b : ClauseBuffer)

/-! ### What a buffer hands out -/

theorem nextPart_none {final : Bool} {buf rest : Text}
    (h : b.nextPart py final buf = (none, rest)) : solid py.tables rest = solid py.tables buf := by
  unfold nextPart at h
  dsimp only at h
  split at h
  · next hblank =>
    obtain ⟨-, rfl⟩ := Prod.mk.inj h
    exact ((lstrip_eq_nil_iff py.tables).mp hblank).symm
  · next hsolid =>
    split at h
    · obtain ⟨hout, rfl⟩ := Prod.mk.inj h
      split at hout
      · next hblank =>
        rw [strip_eq_nil_iff, solid_lstrip] at hblank
        exact hblank.symm
      · cases hout
    · split at h
      · obtain ⟨hout, rfl⟩ := Prod.mk.inj h
        split at hout
        · next stop _ hblank =>
          rw [strip_eq_nil_iff] at hblank
          have hparts : lstrip py.tables buf =
              (lstrip py.tables buf).take stop ++ (lstrip py.tables buf).drop stop :=
            (List.take_append_drop _ _).symm
          rw [solid_lstrip, ← solid_lstrip py.tables buf, hparts, solid_append, hblank]
          simp
        · cases hout
      · obtain ⟨-, rfl⟩ := Prod.mk.inj h
        exact solid_lstrip py.tables buf

theorem nextPart_some {final : Bool} {buf rest part : Text}
    (h : b.nextPart py final buf = (some part, rest)) :
    solid py.tables part ≠ [] ∧
      solid py.tables part ++ solid py.tables rest = solid py.tables buf ∧
      (final = true → rest = []) := by
  have hsome : ∀ out : Text, (if out = [] then none else some out) = some part →
      out = part ∧ part ≠ [] := by
    intro out hout
    split at hout
    · cases hout
    · next hne =>
      obtain rfl := Option.some.inj hout
      exact ⟨rfl, hne⟩
  unfold nextPart at h
  dsimp only at h
  split at h
  · cases h
  · next hsolid =>
    split at h
    · obtain ⟨hout, rfl⟩ := Prod.mk.inj h
      obtain ⟨rfl, hne⟩ := hsome _ hout
      rw [Ne, strip_eq_nil_iff] at hne
      rw [solid_strip, solid_nil, List.append_nil]
      exact ⟨hne, solid_lstrip py.tables buf, fun _ => rfl⟩
    · next hfinal =>
      split at h
      · next stop _ =>
        obtain ⟨hout, rfl⟩ := Prod.mk.inj h
        obtain ⟨rfl, hne⟩ := hsome _ hout
        rw [Ne, strip_eq_nil_iff] at hne
        rw [solid_strip, solid_lstrip, ← solid_append, List.take_append_drop]
        exact ⟨hne, solid_lstrip py.tables buf, fun h => (hfinal h).elim⟩
      · cases h

/-- No clause is blank. -/
theorem emit_ne_blank (final : Bool) (n : ℕ) (buf : Text) :
    ∀ part ∈ (b.emit py final n buf).1, solid py.tables part ≠ [] := by
  induction n generalizing buf with
  | zero => exact fun part h => nomatch h
  | succ n ih =>
    unfold emit
    split
    · exact fun part h => nomatch h
    · next part rest hnext =>
      exact List.forall_mem_cons.mpr ⟨(b.nextPart_some py hnext).1, ih rest⟩

/-- **Clauses and buffer hold what the buffer held.** -/
theorem solid_emit (final : Bool) (n : ℕ) (buf : Text) :
    solid py.tables (b.emit py final n buf).1.flatten ++
      solid py.tables (b.emit py final n buf).2 = solid py.tables buf := by
  induction n generalizing buf with
  | zero => rfl
  | succ n ih =>
    unfold emit
    split
    · next rest hnext => exact b.nextPart_none py hnext
    · next part rest hnext =>
      obtain ⟨-, hparts, -⟩ := b.nextPart_some py hnext
      rw [List.flatten_cons, solid_append, List.append_assoc, ih rest, hparts]

/-- The loop ends by itself: every clause takes something solid out of the buffer. -/
theorem emit_eq {final : Bool} {n m : ℕ} {buf : Text} (hn : (solid py.tables buf).length < n)
    (hm : (solid py.tables buf).length < m) : b.emit py final n buf = b.emit py final m buf := by
  induction n generalizing m buf with
  | zero => omega
  | succ n ih =>
    cases m with
    | zero => omega
    | succ m =>
      unfold emit
      split
      · rfl
      · next part rest hnext =>
        obtain ⟨hpart, hparts, -⟩ := b.nextPart_some py hnext
        have hlength := congrArg List.length hparts
        have hpos : 0 < (solid py.tables part).length := List.length_pos_of_ne_nil hpart
        rw [List.length_append] at hlength
        have hrest : b.emit py final n rest = b.emit py final m rest :=
          ih (by omega) (by omega)
        rw [hrest]

/-- The end of a reply leaves nothing behind. -/
theorem flush_rest (buf : Text) : solid py.tables (b.flush py buf).2 = [] := by
  unfold flush emit
  split
  · next rest hnext =>
    unfold nextPart at hnext
    dsimp only at hnext
    split at hnext
    · obtain ⟨-, rfl⟩ := Prod.mk.inj hnext
      rfl
    · rw [if_pos rfl] at hnext
      obtain ⟨-, rfl⟩ := Prod.mk.inj hnext
      rfl
  · next part rest hnext =>
    obtain ⟨-, -, hrest⟩ := b.nextPart_some py hnext
    have hpieces := b.solid_emit py true buf.length rest
    rw [hrest rfl] at hpieces ⊢
    exact (List.append_eq_nil_iff.mp hpieces).2

theorem flush_ne_blank (buf : Text) :
    ∀ part ∈ (b.flush py buf).1, solid py.tables part ≠ [] :=
  b.emit_ne_blank py true _ buf

theorem solid_flush (buf : Text) :
    solid py.tables (b.flush py buf).1.flatten = solid py.tables buf := by
  have hpieces : solid py.tables (b.flush py buf).1.flatten ++
      solid py.tables (b.flush py buf).2 = solid py.tables buf := b.solid_emit py true _ buf
  rw [b.flush_rest, List.append_nil] at hpieces
  exact hpieces

theorem addAll_ne_blank (buf : Text) (chunks : List Text) :
    ∀ part ∈ (b.addAll py buf chunks).1, solid py.tables part ≠ [] := by
  induction chunks generalizing buf with
  | nil => exact fun part h => nomatch h
  | cons chunk rest ih =>
    intro part hpart
    rcases List.mem_append.mp hpart with hpart | hpart
    · unfold add at hpart
      split at hpart
      · cases hpart
      · exact b.emit_ne_blank py _ _ _ part hpart
    · exact ih _ part hpart

/-- What the chunks brought is in the clauses and in the buffer. -/
theorem solid_addAll (buf : Text) (chunks : List Text) :
    solid py.tables (b.addAll py buf chunks).1.flatten ++
      solid py.tables (b.addAll py buf chunks).2 = solid py.tables (buf ++ chunks.flatten) := by
  induction chunks generalizing buf with
  | nil => simp [addAll]
  | cons chunk rest ih =>
    have hadd : solid py.tables (b.add py buf chunk).1.flatten ++
        solid py.tables (b.add py buf chunk).2 = solid py.tables (buf ++ chunk) := by
      unfold add
      split
      · next hchunk =>
        rw [hchunk, List.append_nil]
        rfl
      · exact b.solid_emit py false _ _
    unfold addAll
    rw [List.flatten_append, solid_append, List.append_assoc, ih, List.flatten_cons,
      solid_append, ← List.append_assoc, hadd, ← solid_append, List.append_assoc]

/-- **The clauses of a reply are its text.** -/
theorem solid_addAll_flush (chunks : List Text) :
    solid py.tables ((b.addAll py [] chunks).1 ++
      (b.flush py (b.addAll py [] chunks).2).1).flatten = solid py.tables chunks.flatten := by
  rw [List.flatten_append, solid_append, b.solid_flush, b.solid_addAll, List.nil_append]

end ClauseBuffer

end OpenVoiceStream.Wyoming
