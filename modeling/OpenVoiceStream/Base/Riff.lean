import Mathlib.Algebra.Order.Ring.Nat
import Mathlib.Data.List.Basic
import Mathlib.Data.Nat.Notation

/-!
# Containers of chunks

A RIFF container is a header with a size and a form, and chunks that fill this size.  A chunk has
an id, a size, so many bytes, and one more if their number is odd.  Numbers are written with the
least significant byte first.

## Main definitions

* `leBytes`, `leNat` — a number as bytes.
* `pack`, `unpack` — some numbers as bytes.
* `Chunk`, `Container` — what can be written, and `bytes` of it.
* `lastChunk` — the last chunk with an id.

## Main results

* `leNat_leBytes`, `leBytes_leNat`, `unpack_pack`, `pack_unpack` — the two ways.
* `Chunk.take_id`, `Chunk.leNat_size`, `Chunk.take_payload` — a chunk is read as it was written.
* `exists_chunk` — bytes with enough behind them begin with a chunk.
-/

namespace Riff

/-! ### Numbers -/

/-- A number as so many bytes. -/
def leBytes : ℕ → ℕ → List UInt8
  | 0, _ => []
  | width + 1, n => UInt8.ofNat n :: leBytes width (n / 256)

/-- The number that some bytes are. -/
def leNat : List UInt8 → ℕ
  | [] => 0
  | b :: rest => b.toNat + 256 * leNat rest

theorem leBytes_succ (width n : ℕ) :
    leBytes (width + 1) n = UInt8.ofNat n :: leBytes width (n / 256) := rfl

theorem leNat_cons (b : UInt8) (rest : List UInt8) :
    leNat (b :: rest) = b.toNat + 256 * leNat rest := rfl

@[simp] theorem length_leBytes (width n : ℕ) : (leBytes width n).length = width := by
  induction width generalizing n with
  | zero => rfl
  | succ width ih => rw [leBytes_succ, List.length_cons, ih]

theorem leNat_lt (bytes : List UInt8) : leNat bytes < 256 ^ bytes.length := by
  induction bytes with
  | nil => exact Nat.one_pos
  | cons b rest ih =>
    have hb : b.toNat < 256 := UInt8.toNat_lt b
    rw [leNat_cons, List.length_cons, Nat.pow_succ]
    omega

theorem leNat_lt_of_length {bytes : List UInt8} {width : ℕ} (h : bytes.length = width) :
    leNat bytes < 256 ^ width := h ▸ leNat_lt bytes

theorem leNat_leBytes {width n : ℕ} (h : n < 256 ^ width) : leNat (leBytes width n) = n := by
  induction width generalizing n with
  | zero =>
    rw [Nat.pow_zero, Nat.lt_one_iff] at h
    exact h.symm
  | succ width ih =>
    have hrest : n / 256 < 256 ^ width := by
      rw [Nat.pow_succ] at h
      omega
    rw [leBytes_succ, leNat_cons, ih hrest, UInt8.toNat_ofNat']
    omega

theorem leBytes_leNat (bytes : List UInt8) : leBytes bytes.length (leNat bytes) = bytes := by
  induction bytes with
  | nil => rfl
  | cons b rest ih =>
    have hb : b.toNat < 256 := UInt8.toNat_lt b
    have hfirst : UInt8.ofNat (b.toNat + 256 * leNat rest) = b := by
      apply UInt8.toNat_inj.mp
      rw [UInt8.toNat_ofNat']
      omega
    have hrest : (b.toNat + 256 * leNat rest) / 256 = leNat rest := by omega
    rw [List.length_cons, leBytes_succ, leNat_cons, hfirst, hrest, ih]

/-- Numbers of these widths, one after the other. -/
def pack : List ℕ → List ℕ → List UInt8
  | width :: widths, n :: values => leBytes width n ++ pack widths values
  | _, _ => []

/-- The numbers of these widths at the beginning of some bytes. -/
def unpack : List ℕ → List UInt8 → List ℕ
  | [], _ => []
  | width :: widths, bytes => leNat (bytes.take width) :: unpack widths (bytes.drop width)

theorem unpack_pack {widths values : List ℕ}
    (h : List.Forall₂ (fun width n => n < 256 ^ width) widths values) (rest : List UInt8) :
    unpack widths (pack widths values ++ rest) = values := by
  induction h with
  | nil => rfl
  | cons hlt _ ih =>
    rw [pack, unpack, List.append_assoc, List.take_left' (length_leBytes _ _),
      List.drop_left' (length_leBytes _ _), leNat_leBytes hlt, ih]

theorem pack_unpack {widths : List ℕ} {bytes : List UInt8} (h : widths.sum ≤ bytes.length) :
    pack widths (unpack widths bytes) = bytes.take widths.sum := by
  induction widths generalizing bytes with
  | nil => rfl
  | cons width widths ih =>
    rw [List.sum_cons] at h ⊢
    have hwidth : (bytes.take width).length = width := by
      rw [List.length_take]
      omega
    have hfirst : leBytes width (leNat (bytes.take width)) = bytes.take width :=
      (congrArg (leBytes · _) hwidth.symm).trans (leBytes_leNat _)
    rw [unpack, pack, hfirst, ih (by rw [List.length_drop]; omega), ← List.take_add]

/-- A list is read on. -/
theorem take_append_drop_add (raw : List UInt8) (n k : ℕ) :
    (raw.drop n).take k ++ raw.drop (n + k) = raw.drop n := by
  rw [← List.drop_drop, List.take_append_drop]

/-! ### Chunks -/

/-- A chunk. -/
structure Chunk where
  id : List UInt8
  payload : List UInt8
  pad : List UInt8
  length_id : id.length = 4
  length_payload : payload.length < 2 ^ 32
  length_pad : pad.length = payload.length % 2

/-- The bytes of a chunk. -/
def Chunk.bytes (c : Chunk) : List UInt8 :=
  c.id ++ (leBytes 4 c.payload.length ++ (c.payload ++ c.pad))

/-- The bytes of some chunks. -/
def chunkBytes (chunks : List Chunk) : List UInt8 := chunks.flatMap Chunk.bytes

@[simp] theorem chunkBytes_cons (c : Chunk) (rest : List Chunk) :
    chunkBytes (c :: rest) = c.bytes ++ chunkBytes rest := List.flatMap_cons

namespace Chunk

variable (c : Chunk) (rest : List UInt8)

theorem length_bytes : c.bytes.length = 8 + c.payload.length + c.payload.length % 2 := by
  rw [bytes, List.length_append, List.length_append, List.length_append, length_leBytes,
    c.length_id, c.length_pad]
  omega

theorem take_id : (c.bytes ++ rest).take 4 = c.id := by
  rw [bytes, List.append_assoc]
  exact List.take_left' c.length_id

theorem drop_id : (c.bytes ++ rest).drop 4 =
    leBytes 4 c.payload.length ++ (c.payload ++ (c.pad ++ rest)) := by
  rw [bytes, List.append_assoc, List.drop_left' c.length_id, List.append_assoc,
    List.append_assoc]

theorem leNat_size : leNat (((c.bytes ++ rest).drop 4).take 4) = c.payload.length := by
  rw [drop_id, List.take_left' (length_leBytes _ _)]
  exact leNat_leBytes c.length_payload

theorem drop_size : (c.bytes ++ rest).drop 8 = c.payload ++ (c.pad ++ rest) := by
  rw [show 8 = 4 + 4 from rfl, ← List.drop_drop, drop_id, List.drop_left' (length_leBytes _ _)]

theorem take_payload : ((c.bytes ++ rest).drop 8).take c.payload.length = c.payload := by
  rw [drop_size, List.take_left]

end Chunk

/-- Bytes begin with a chunk, if so many are there as it says. -/
theorem exists_chunk {raw : List UInt8} {size : ℕ} (hsize : leNat ((raw.drop 4).take 4) = size)
    (hlength : 8 + size + size % 2 ≤ raw.length) :
    ∃ c : Chunk, raw = c.bytes ++ raw.drop (8 + size + size % 2) ∧ c.payload.length = size := by
  have hword : ((raw.drop 4).take 4).length = 4 := by
    rw [List.length_take, List.length_drop]
    omega
  have hpayload : ((raw.drop 8).take size).length = size := by
    rw [List.length_take, List.length_drop]
    omega
  refine ⟨
    { id := raw.take 4
      payload := (raw.drop 8).take size
      pad := (raw.drop (8 + size)).take (size % 2)
      length_id := by rw [List.length_take]; omega
      length_payload := ?_
      length_pad := by rw [hpayload, List.length_take, List.length_drop]; omega }, ?_, hpayload⟩
  · rw [hpayload, ← hsize]
    exact Nat.lt_of_lt_of_eq (leNat_lt_of_length hword) (by decide)
  · have hle : leBytes 4 size = (raw.drop 4).take 4 := by
      rw [← hsize]
      exact (congrArg (leBytes · _) hword.symm).trans (leBytes_leNat _)
    rw [Chunk.bytes]
    dsimp only
    rw [hpayload, hle, List.append_assoc, List.append_assoc, List.append_assoc,
      take_append_drop_add, take_append_drop_add, take_append_drop_add raw 4 4,
      List.take_append_drop]

/-! ### The last chunk with an id -/

/-- The last chunk with this id. -/
def lastChunk (id : List UInt8) (chunks : List Chunk) : Option Chunk :=
  (chunks.filter fun c => c.id = id).getLast?

variable {id : List UInt8} {chunks : List Chunk} {c : Chunk}

theorem lastChunk_concat (chunks : List Chunk) (c : Chunk) :
    lastChunk id (chunks ++ [c]) = if c.id = id then some c else lastChunk id chunks := by
  rw [lastChunk, List.filter_append]
  split
  · next heq =>
    rw [List.filter_cons_of_pos (p := fun c : Chunk => decide (c.id = id)) (decide_eq_true heq),
      List.filter_nil, List.getLast?_concat]
  · next hne =>
    rw [List.filter_cons_of_neg (p := fun c : Chunk => decide (c.id = id))
        (by rwa [decide_eq_true_eq]), List.filter_nil, List.append_nil]
    rfl

theorem mem_of_lastChunk (h : lastChunk id chunks = some c) : c ∈ chunks ∧ c.id = id := by
  have hmem := List.mem_filter.mp (List.mem_of_getLast? h)
  exact ⟨hmem.1, of_decide_eq_true hmem.2⟩

/-- Behind the last one there is none. -/
theorem lastChunk_of_forall {before behind : List Chunk} (hid : c.id = id)
    (hbehind : ∀ c ∈ behind, c.id ≠ id) : lastChunk id (before ++ c :: behind) = some c := by
  have hnone : (behind.filter fun c => c.id = id) = [] :=
    List.filter_eq_nil_iff.mpr fun c hc => by
      rw [decide_eq_true_eq]
      exact hbehind c hc
  rw [lastChunk, List.filter_append,
    List.filter_cons_of_pos (p := fun c : Chunk => decide (c.id = id)) (decide_eq_true hid), hnone,
    List.getLast?_concat]

/-! ### Containers -/

/-- `RIFF`. -/
def riffId : List UInt8 := [0x52, 0x49, 0x46, 0x46]

/-- A container, with what comes behind it. -/
structure Container where
  form : List UInt8
  chunks : List Chunk
  rest : List UInt8
  length_form : form.length = 4
  size_lt : 4 + (chunkBytes chunks).length < 2 ^ 32

/-- What a container says of its size. -/
def Container.size (c : Container) : ℕ := 4 + (chunkBytes c.chunks).length

/-- The bytes of a container. -/
def Container.bytes (c : Container) : List UInt8 :=
  riffId ++ (leBytes 4 c.size ++ (c.form ++ (chunkBytes c.chunks ++ c.rest)))

namespace Container

variable (c : Container)

theorem length_bytes : c.bytes.length = 8 + c.size + c.rest.length := by
  have hriff : riffId.length = 4 := rfl
  rw [bytes, List.length_append, List.length_append, List.length_append, List.length_append,
    length_leBytes, c.length_form, hriff, size]
  omega

theorem take_riff : c.bytes.take 4 = riffId := List.take_left' rfl

theorem drop_riff :
    c.bytes.drop 4 = leBytes 4 c.size ++ (c.form ++ (chunkBytes c.chunks ++ c.rest)) :=
  List.drop_left' rfl

theorem leNat_size : leNat ((c.bytes.drop 4).take 4) = c.size := by
  rw [drop_riff, List.take_left' (length_leBytes _ _)]
  exact leNat_leBytes c.size_lt

theorem drop_size : c.bytes.drop 8 = c.form ++ (chunkBytes c.chunks ++ c.rest) := by
  rw [show 8 = 4 + 4 from rfl, ← List.drop_drop, drop_riff, List.drop_left' (length_leBytes _ _)]

theorem take_form : (c.bytes.drop 8).take 4 = c.form := by
  rw [drop_size, List.take_left' c.length_form]

theorem drop_form : c.bytes.drop 12 = chunkBytes c.chunks ++ c.rest := by
  rw [show 12 = 8 + 4 from rfl, ← List.drop_drop, drop_size, List.drop_left' c.length_form]

end Container

/-- Bytes are a container, if the chunks behind its header fill the size that it says. -/
theorem exists_container {raw : List UInt8} {size : ℕ} {chunks : List Chunk}
    (hriff : raw.take 4 = riffId) (hsize : leNat ((raw.drop 4).take 4) = size)
    (hlength : 12 ≤ raw.length) (hchunks : raw.drop 12 = chunkBytes chunks ++ raw.drop (size + 8))
    (hfill : (chunkBytes chunks).length + 4 = size) :
    ∃ c : Container, c.bytes = raw ∧ c.chunks = chunks ∧ c.form = (raw.drop 8).take 4 := by
  have hword : ((raw.drop 4).take 4).length = 4 := by
    rw [List.length_take, List.length_drop]
    omega
  have hform : ((raw.drop 8).take 4).length = 4 := by
    rw [List.length_take, List.length_drop]
    omega
  have hlt : size < 2 ^ 32 := by
    rw [← hsize]
    exact Nat.lt_of_lt_of_eq (leNat_lt_of_length hword) (by decide)
  refine ⟨
    { form := (raw.drop 8).take 4
      chunks := chunks
      rest := raw.drop (size + 8)
      length_form := hform
      size_lt := by omega }, ?_, rfl, rfl⟩
  have hle : leBytes 4 (4 + (chunkBytes chunks).length) = (raw.drop 4).take 4 := by
    rw [Nat.add_comm, hfill, ← hsize]
    exact (congrArg (leBytes · _) hword.symm).trans (leBytes_leNat _)
  rw [Container.bytes, Container.size]
  dsimp only
  rw [hle, ← hchunks, ← hriff, take_append_drop_add raw 8 4, take_append_drop_add raw 4 4,
    List.take_append_drop]

end Riff
