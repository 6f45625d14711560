import Mathlib.Data.List.Basic
import Mathlib.Data.List.Induction
import OpenVoiceStream.Base.Template

/-!
# Frames

The worker writes the text of a reply in frames: a word with the length, and so many bytes. A
word that is no length ends the reply. The reader takes the bytes as they come; a frame is
decoded when its last byte is there.

## Main definitions

* `Scan`, `Scan.byte` — how far a reader is in its frame.
* `Decoder` — an incremental decoder.
* `Reader`, `Reader.byte` — a reader with its decoder, and the texts it hands out.
* `Frame`, `frameBytes`, `frameTexts` — frames, their bytes, and their texts.

## Main results

* `Scan.foldl_open` — what is open at the end was open all the time.
* `frames_of_scan` — bytes that end between two frames are frames.
* `texts_frames` — the texts of some frames are what the decoder makes of them.
-/

namespace OpenVoiceStream
namespace Rk1828

/-- Bytes. -/
abbrev Bytes := List UInt8

/-- `struct.Struct("<I").unpack`. -/
def le32 (word : Bytes) : ℕ := word.foldr (fun b n => b.toNat + 256 * n) 0

/-- `END_OF_STREAM`. -/
def endOfStream : ℕ := 0xFFFFFFFE

/-- `MAX_FRAME_BYTES`. -/
def maxFrameBytes : ℕ := 8 * 1024 * 1024

/-- What `emit_eos_frame` writes. -/
def eosWord : Bytes := [0xFE, 0xFF, 0xFF, 0xFF]

/-! ### Scanning -/

/-- Where a reader is: in the word in front of a frame, in a frame of this length, behind the end
of the reply, or behind a word that is too large. -/
inductive Scan
  | header (buf : Bytes)
  | body (need : ℕ) (buf : Bytes)
  | ended
  | oversize
  deriving DecidableEq, Repr

namespace Scan

/-- A byte is read. -/
def byte : Scan → UInt8 → Scan
  | header buf, b =>
    if buf.length < 3 then header (buf ++ [b])
    else if le32 (buf ++ [b]) = endOfStream then ended
    else if maxFrameBytes < le32 (buf ++ [b]) then oversize
    else if le32 (buf ++ [b]) = 0 then header []
    else body (le32 (buf ++ [b])) []
  | body need buf, b => if buf.length + 1 < need then body need (buf ++ [b]) else header []
  | ended, _ => ended
  | oversize, _ => oversize

/-- The reply goes on. -/
def Open : Scan → Prop
  | header _ | body _ _ => True
  | ended | oversize => False

instance : DecidablePred Open := fun s =>
  match s with
  | header _ | body _ _ => isTrue trivial
  | ended | oversize => isFalse id

/-- Where a reader is behind some bytes. -/
def of (bytes : Bytes) : Scan := bytes.foldl byte (header [])

@[simp] theorem of_concat (bytes : Bytes) (b : UInt8) : of (bytes ++ [b]) = (of bytes).byte b := by
  rw [of, List.foldl_append]
  rfl

theorem byte_not_open {s : Scan} (h : ¬s.Open) (b : UInt8) : s.byte b = s := by
  cases s with
  | header buf => exact (h trivial).elim
  | body need buf => exact (h trivial).elim
  | ended => rfl
  | oversize => rfl

/-- What is open behind a byte was open before it. -/
theorem open_of_byte {s : Scan} {b : UInt8} (h : (s.byte b).Open) : s.Open := by
  by_contra hnot
  rw [byte_not_open hnot] at h
  exact hnot h

/-- What is open at the end was open all the time. -/
theorem open_of_prefix {bytes more : Bytes} (h : (of (bytes ++ more)).Open) :
    (of bytes).Open := by
  induction more using List.reverseRecOn with
  | nil => rwa [List.append_nil] at h
  | append_singleton more b ih =>
    rw [← List.append_assoc, of_concat] at h
    exact ih (open_of_byte h)

/-- The word at the end of a reply ends it, and no part of the word does. -/
theorem eosWord_scan {bytes : Bytes} (h : of bytes = header []) :
    of (bytes ++ eosWord) = ended ∧ (of (bytes ++ eosWord.dropLast)).Open := by
  have hpart : of (bytes ++ eosWord.dropLast) = header [0xFE, 0xFF, 0xFF] := by
    rw [of, List.foldl_append]
    show List.foldl byte (of bytes) _ = _
    rw [h]
    rfl
  have hwhole : of (bytes ++ eosWord) = ended := by
    rw [of, List.foldl_append]
    show List.foldl byte (of bytes) _ = _
    rw [h]
    decide
  exact ⟨hwhole, by rw [hpart]; trivial⟩

end Scan

/-! ### Reading -/

/-- `codecs.getincrementaldecoder("utf-8")(errors="replace")`: what it keeps of the bytes so far,
`decode(data)`, and `decode(b"", final=True)`. -/
structure Decoder where
  State : Type
  init : State
  decode : State → Bytes → State × Text
  final : State → Text

/-- `if piece: q.put(("text", piece))`. -/
def putText (piece : Text) : List Text := if piece = [] then [] else [piece]

section Reader

variable (d : Decoder)

/-- The reader of a reply: where it is, its decoder, and the texts that it has put out. -/
structure Reader where
  scan : Scan
  dec : d.State
  texts : List Text

/-- Before the reply. -/
def Reader.init : Reader d := { scan := .header [], dec := d.init, texts := [] }

variable {d}

namespace Reader

/-- A frame is decoded. -/
def frame (r : Reader d) (piece : Bytes) : Reader d :=
  { scan := .header []
    dec := (d.decode r.dec piece).1
    texts := r.texts ++ putText (d.decode r.dec piece).2 }

/-- A byte is read: the loop of `_run_request`, between two bytes. -/
def byte (r : Reader d) (b : UInt8) : Reader d :=
  match r.scan, r.scan.byte b with
  | .header _, .ended => { r with scan := .ended, texts := r.texts ++ putText (d.final r.dec) }
  | .header _, .header [] => r.frame []
  | .body _ buf, .header _ => r.frame (buf ++ [b])
  | _, scan => { r with scan := scan }

end Reader

variable (d)

/-- A reader behind some bytes. -/
def Reader.of (bytes : Bytes) : Reader d := bytes.foldl Reader.byte (Reader.init d)

@[simp] theorem Reader.of_concat (bytes : Bytes) (b : UInt8) :
    Reader.of d (bytes ++ [b]) = (Reader.of d bytes).byte b := by
  rw [of, List.foldl_append]
  rfl

variable {d}

theorem Reader.byte_scan (r : Reader d) (b : UInt8) : (r.byte b).scan = r.scan.byte b := by
  unfold byte
  split
  · next heq => exact heq.symm
  · next heq => exact heq.symm
  · next need buf next hscan heq =>
    rw [hscan] at heq
    simp only [Scan.byte] at heq
    split at heq
    · cases heq
    · rw [hscan]
      simp only [Scan.byte]
      split
      · contradiction
      · rfl
  · rfl

@[simp] theorem Reader.of_scan (bytes : Bytes) : (Reader.of d bytes).scan = Scan.of bytes := by
  induction bytes using List.reverseRecOn with
  | nil => rfl
  | append_singleton bytes b ih => rw [of_concat, byte_scan, ih, Scan.of_concat]

/-- Texts are only added. -/
theorem Reader.texts_prefix (r : Reader d) (b : UInt8) : r.texts <+: (r.byte b).texts := by
  unfold byte
  split
  · exact List.prefix_append _ _
  · exact List.prefix_append _ _
  · exact List.prefix_append _ _
  · exact List.prefix_rfl

/-! ### Frames -/

/-- A frame that the reader takes: a word, and as many bytes as it says. -/
structure Frame where
  word : Bytes
  piece : Bytes
  length_word : word.length = 4
  le32_word : le32 word = piece.length
  length_le : piece.length ≤ maxFrameBytes

/-- The bytes of some frames. -/
def frameBytes (frames : List Frame) : Bytes := frames.flatMap fun f => f.word ++ f.piece

/-- What an incremental decoder makes of some frames, one after the other. -/
def frameTexts (d : Decoder) (dec : d.State) : List Frame → d.State × List Text
  | [] => (dec, [])
  | f :: rest =>
    let (dec, piece) := d.decode dec f.piece
    ((frameTexts d dec rest).1, putText piece ++ (frameTexts d dec rest).2)

/-- The texts of a whole reply: those of its frames, and what the decoder still has. -/
def replyTexts (d : Decoder) (frames : List Frame) : List Text :=
  (frameTexts d d.init frames).2 ++ putText (d.final (frameTexts d d.init frames).1)

theorem frameBytes_concat (frames : List Frame) (f : Frame) :
    frameBytes (frames ++ [f]) = frameBytes frames ++ (f.word ++ f.piece) := by
  rw [frameBytes, List.flatMap_append, List.flatMap_singleton]
  rfl

/-- What has been read are frames, and the beginning of another one. -/
def Scan.Cuts : Scan → Bytes → Prop
  | header buf, bytes => buf.length < 4 ∧ ∃ frames, bytes = frameBytes frames ++ buf
  | body need buf, bytes => buf.length < need ∧ need ≤ maxFrameBytes ∧
      ∃ frames word, word.length = 4 ∧ le32 word = need ∧
        bytes = frameBytes frames ++ (word ++ buf)
  | ended, _ | oversize, _ => True

theorem Scan.cuts_header {buf bytes : Bytes} (h : (header buf).Cuts bytes) (b : UInt8) :
    ((header buf).byte b).Cuts (bytes ++ [b]) := by
  obtain ⟨hlt, frames, rfl⟩ := h
  simp only [byte]
  by_cases hshort : buf.length < 3
  · rw [if_pos hshort]
    exact ⟨by rw [List.length_append, List.length_singleton]; omega, frames,
      List.append_assoc ..⟩
  have hword : (buf ++ [b]).length = 4 := by
    rw [List.length_append, List.length_singleton]
    omega
  rw [if_neg hshort]
  by_cases hend : le32 (buf ++ [b]) = endOfStream
  · rw [if_pos hend]
    trivial
  rw [if_neg hend]
  by_cases hbig : maxFrameBytes < le32 (buf ++ [b])
  · rw [if_pos hbig]
    trivial
  rw [if_neg hbig]
  by_cases hzero : le32 (buf ++ [b]) = 0
  · rw [if_pos hzero]
    refine ⟨by decide, frames ++ [⟨buf ++ [b], [], hword, hzero, by decide⟩], ?_⟩
    rw [frameBytes_concat, List.append_nil, List.append_nil, List.append_assoc]
  · rw [if_neg hzero]
    exact ⟨Nat.pos_of_ne_zero hzero, by omega, frames, buf ++ [b], hword, rfl, by simp⟩

theorem Scan.cuts_body {need : ℕ} {buf bytes : Bytes} (h : (body need buf).Cuts bytes) (b : UInt8) :
    ((body need buf).byte b).Cuts (bytes ++ [b]) := by
  obtain ⟨hlt, hle, frames, word, hword, hneed, rfl⟩ := h
  have hlength : (buf ++ [b]).length = buf.length + 1 := by
    rw [List.length_append, List.length_singleton]
  simp only [byte]
  by_cases hmore : buf.length + 1 < need
  · rw [if_pos hmore]
    exact ⟨by omega, hle, frames, word, hword, hneed, by simp⟩
  · rw [if_neg hmore]
    refine ⟨by decide, frames ++ [⟨word, buf ++ [b], hword, by omega, by omega⟩], ?_⟩
    rw [frameBytes_concat]
    simp

theorem Scan.of_cuts (bytes : Bytes) : (of bytes).Cuts bytes := by
  induction bytes using List.reverseRecOn with
  | nil => exact ⟨by decide, [], rfl⟩
  | append_singleton bytes b ih =>
    rw [of_concat]
    cases hscan : of bytes with
    | header buf => exact cuts_header (hscan ▸ ih) b
    | body need buf => exact cuts_body (hscan ▸ ih) b
    | ended => trivial
    | oversize => trivial

/-- **Bytes that end between two frames are frames.** -/
theorem frames_of_scan {bytes : Bytes} (h : Scan.of bytes = .header []) :
    ∃ frames, bytes = frameBytes frames := by
  have hcuts := Scan.of_cuts bytes
  rw [h] at hcuts
  obtain ⟨-, frames, hbytes⟩ := hcuts
  exact ⟨frames, by rw [hbytes, List.append_nil]⟩

/-- The rest of a frame is read. -/
theorem Reader.foldl_body {rest : Bytes} (hrest : rest ≠ []) {r : Reader d} {need : ℕ} {buf : Bytes}
    (hscan : r.scan = .body need buf) (hlength : buf.length + rest.length = need) :
    rest.foldl Reader.byte r = r.frame (buf ++ rest) := by
  induction rest generalizing r buf with
  | nil => exact absurd rfl hrest
  | cons b rest ih =>
    rw [List.length_cons] at hlength
    rw [List.foldl_cons]
    by_cases hlast : rest = []
    · subst hlast
      have hbyte : r.scan.byte b = .header [] := by
        rw [hscan]
        simp only [Scan.byte]
        rw [if_neg (by simp at hlength; omega)]
      rw [List.foldl_nil, byte, hbyte, hscan]
    · have hpos := List.length_pos_of_ne_nil hlast
      have hbyte : r.scan.byte b = .body need (buf ++ [b]) := by
        rw [hscan]
        simp only [Scan.byte]
        rw [if_pos (by omega)]
      have hnext : r.byte b = { r with scan := .body need (buf ++ [b]) } := by
        rw [byte, hbyte, hscan]
      rw [hnext, ih hlast rfl (by simp; omega)]
      simp [frame]

theorem Reader.foldl_three {r : Reader d} (hscan : r.scan = .header []) (b0 b1 b2 : UInt8) :
    [b0, b1, b2].foldl Reader.byte r = { r with scan := .header [b0, b1, b2] } := by
  simp [byte, hscan, Scan.byte]

/-- A frame is read. -/
theorem Reader.foldl_frame {r : Reader d} (hscan : r.scan = .header []) (f : Frame) :
    (f.word ++ f.piece).foldl Reader.byte r = r.frame f.piece := by
  obtain ⟨word, piece, hword, hle32, hle⟩ := f
  match word, hword with
  | [b0, b1, b2, b3], _ =>
    have hshort : ¬[b0, b1, b2].length < 3 := Nat.lt_irrefl 3
    have hlimit : maxFrameBytes < endOfStream := by decide
    have hcut : [b0, b1, b2, b3] ++ piece = [b0, b1, b2] ++ (b3 :: piece) := rfl
    have hword : [b0, b1, b2] ++ [b3] = [b0, b1, b2, b3] := rfl
    show List.foldl byte r ([b0, b1, b2, b3] ++ piece) = r.frame piece
    rw [hcut, List.foldl_append, foldl_three hscan, List.foldl_cons]
    by_cases hnil : piece = []
    · subst hnil
      have hzero : le32 [b0, b1, b2, b3] = 0 := hle32
      have hbyte : (Scan.header [b0, b1, b2]).byte b3 = .header [] := by
        simp only [Scan.byte]
        rw [if_neg hshort, hword, hzero]
        rfl
      rw [List.foldl_nil, byte, hbyte]
      rfl
    · have hpos : 0 < le32 [b0, b1, b2, b3] := by
        have hlength := List.length_pos_of_ne_nil hnil
        omega
      have hbyte : (Scan.header [b0, b1, b2]).byte b3 = .body piece.length [] := by
        simp only [Scan.byte]
        rw [if_neg hshort, hword, if_neg (by omega), if_neg (by omega), if_neg (by omega), hle32]
      have hnext : byte { r with scan := .header [b0, b1, b2] } b3 =
          { r with scan := .body piece.length [] } := by
        rw [byte, hbyte]
      rw [hnext, foldl_body hnil rfl (by simp)]
      rfl

theorem Reader.foldl_frames {r : Reader d} (hscan : r.scan = .header []) (frames : List Frame) :
    (frameBytes frames).foldl Reader.byte r =
      { scan := .header []
        dec := (frameTexts d r.dec frames).1
        texts := r.texts ++ (frameTexts d r.dec frames).2 } := by
  induction frames generalizing r with
  | nil =>
    obtain ⟨scan, dec, texts⟩ := r
    obtain rfl : scan = .header [] := hscan
    simp [frameBytes, frameTexts]
  | cons f rest ih =>
    have hcut : frameBytes (f :: rest) = (f.word ++ f.piece) ++ frameBytes rest :=
      List.flatMap_cons
    rw [hcut, List.foldl_append, foldl_frame hscan, ih rfl]
    simp [frameTexts, frame]

/-- **The texts of a reply** are what the decoder makes of its frames. -/
theorem texts_reply (frames : List Frame) :
    (Reader.of d (frameBytes frames ++ eosWord)).texts = replyTexts d frames := by
  have hword : eosWord = [0xFE, 0xFF, 0xFF] ++ [0xFF] := rfl
  have hbyte : (Scan.header [0xFE, 0xFF, 0xFF]).byte 0xFF = .ended := by decide
  rw [Reader.of, List.foldl_append, Reader.foldl_frames rfl, hword, List.foldl_append,
    Reader.foldl_three rfl, List.foldl_cons, List.foldl_nil, Reader.byte, hbyte]
  rfl

end Reader

end Rk1828
end OpenVoiceStream
