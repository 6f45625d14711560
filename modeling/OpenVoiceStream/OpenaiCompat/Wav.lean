import Mathlib.Data.List.Induction
import Mathlib.Data.List.Infix
import OpenVoiceStream.Base.Riff

/-!
# The audio in a WAV file

`_wav_pcm_payload` takes the PCM out of what a backend returns.  It walks over the chunks, and
keeps the format and the data of the last chunks that have them.  It accepts the containers that
serve such audio, no others, and refuses all others in one way.

## Main definitions

* `wavPcmPayload` — the reader.
* `PcmFormat`, `Serves` — what a container must hold.
* `PcmFile` — what a writer makes.

## Main results

* `walk_chunks`, `exists_chunks_of_walk` — the walk is over the chunks of a container.
* `wavPcmPayload_iff` — what is accepted, and how the rest is refused.
-/

namespace OpenVoiceStream
namespace OpenaiCompat

open Riff

/-! ### The reader -/

/-- What reading may raise. -/
inductive WavError
  /-- `ValueError`. -/
  | value (message : String)
  /-- `struct.error`. -/
  | struct
  deriving DecidableEq, Repr

/-- `raw[start:stop]`. -/
def slice (raw : List UInt8) (start stop : ℕ) : List UInt8 := (raw.take stop).drop start

/-- `struct.unpack_from("<I", raw, offset)[0]`. -/
def unpackWord (raw : List UInt8) (offset : ℕ) : Except WavError ℕ :=
  if raw.length < offset + 4 then .error .struct else .ok (leNat ((raw.drop offset).take 4))

/-- The fields of a `fmt` chunk. -/
structure Fmt where
  audioFormat : ℕ
  channels : ℕ
  sampleRate : ℕ
  byteRate : ℕ
  blockAlign : ℕ
  bits : ℕ
  deriving DecidableEq, Repr

/-- The fields in some bytes: `<HHIIHH`. -/
def Fmt.ofBytes (bytes : List UInt8) : Fmt where
  audioFormat := leNat (bytes.take 2)
  channels := leNat ((bytes.drop 2).take 2)
  sampleRate := leNat ((bytes.drop 4).take 4)
  byteRate := leNat ((bytes.drop 8).take 4)
  blockAlign := leNat ((bytes.drop 12).take 2)
  bits := leNat ((bytes.drop 14).take 2)

/-- `struct.unpack_from("<HHIIHH", raw, offset)`. -/
def unpackFmt (raw : List UInt8) (offset : ℕ) : Except WavError Fmt :=
  if raw.length < offset + 16 then .error .struct else .ok (Fmt.ofBytes (raw.drop offset))

/-- `b"WAVE"`. -/
def waveId : List UInt8 := [0x57, 0x41, 0x56, 0x45]

/-- `b"fmt "`. -/
def fmtId : List UInt8 := [0x66, 0x6D, 0x74, 0x20]

/-- `b"data"`. -/
def dataId : List UInt8 := [0x64, 0x61, 0x74, 0x61]

/-- What the walk has found. -/
structure Found where
  fmt : Option Fmt := none
  data : Option (List UInt8) := none

/-- What is kept of a chunk. -/
def keepChunk (raw : List UInt8) (chunkId : List UInt8) (start chunkSize : ℕ) (found : Found) :
    Except WavError Found :=
  if chunkId = fmtId then
    if chunkSize < 16 then .error (.value "WAV fmt chunk is too short")
    else (unpackFmt raw start).map fun fmt => { found with fmt := some fmt }
  else if chunkId = dataId then
    .ok { found with data := some (slice raw start (start + chunkSize)) }
  else .ok found

/-- One round of the walk: where it goes on. -/
def readChunk (raw : List UInt8) (riffEnd offset : ℕ) (found : Found) :
    Except WavError (ℕ × Found) :=
  if riffEnd < offset + 8 then .error (.value "backend returned a truncated WAV chunk header")
  else
    match unpackWord raw (offset + 4) with
    | .error e => .error e
    | .ok chunkSize =>
      if riffEnd < offset + 8 + chunkSize ∨ riffEnd < offset + 8 + chunkSize + chunkSize % 2 then
        .error (.value "backend returned a truncated WAV chunk")
      else
        (keepChunk raw (slice raw offset (offset + 4)) (offset + 8) chunkSize found).map
          fun found => (offset + 8 + chunkSize + chunkSize % 2, found)

theorem lt_of_readChunk {raw : List UInt8} {riffEnd offset next : ℕ} {found found' : Found}
    (h : readChunk raw riffEnd offset found = .ok (next, found')) : offset < next := by
  unfold readChunk at h
  split at h
  · cases h
  · split at h
    · cases h
    · split at h
      · cases h
      · cases hkeep : keepChunk raw (slice raw offset (offset + 4)) (offset + 8) _ found with
        | error e => rw [hkeep] at h; cases h
        | ok kept =>
          rw [hkeep] at h
          cases h
          omega

/-- The walk over the chunks. -/
def walk (raw : List UInt8) (riffEnd offset : ℕ) (found : Found) : Except WavError Found :=
  if offset < riffEnd then
    match _ : readChunk raw riffEnd offset found with
    | .error e => .error e
    | .ok (next, found) => walk raw riffEnd next found
  else .ok found
termination_by riffEnd - offset
decreasing_by
  have := lt_of_readChunk ‹readChunk raw riffEnd offset _ = .ok (next, _)›
  omega

/-- The checks behind the walk. -/
def pcmOf (found : Found) : Except WavError (List UInt8 × ℕ × ℕ) :=
  match found.fmt, found.data with
  | some fmt, some data =>
    if fmt.audioFormat ≠ 1 ∨ fmt.channels ∉ [1, 2] ∨ fmt.bits ≠ 16 then
      .error (.value "only mono/stereo PCM s16le WAV is supported")
    else if fmt.sampleRate ≤ 0 ∨ fmt.blockAlign ≠ fmt.channels * 2 then
      .error (.value "WAV PCM format metadata is invalid")
    else if fmt.byteRate ≠ fmt.sampleRate * (fmt.channels * 2) then
      .error (.value "WAV PCM byte rate is invalid")
    else if data.length % (2 * fmt.channels) ≠ 0 then
      .error (.value "WAV data is not aligned to PCM frames")
    else .ok (data, fmt.sampleRate, fmt.channels)
  | _, _ => .error (.value "WAV stream is missing fmt or data chunk")

/-- `_wav_pcm_payload`, for bytes. -/
def wavPcmPayload (raw : List UInt8) : Except WavError (List UInt8 × ℕ × ℕ) :=
  if raw.length < 12 ∨ slice raw 0 4 ≠ riffId ∨ slice raw 8 12 ≠ waveId then
    .error (.value "backend did not return a valid WAV stream")
  else
    match unpackWord raw 4 with
    | .error e => .error e
    | .ok riffSize =>
      if riffSize < 4 ∨ raw.length < riffSize + 8 then
        .error (.value "backend returned a truncated WAV stream")
      else
        match walk raw (riffSize + 8) 12 {} with
        | .error e => .error e
        | .ok found => pcmOf found

/-! ### What is served -/

/-- A format that is served: 16 bits, one channel or two. -/
structure PcmFormat where
  rate : ℕ
  channels : ℕ
  monoOrStereo : channels = 1 ∨ channels = 2
  rate_pos : 0 < rate
  byteRate_lt : rate * (channels * 2) < 2 ^ 32

/-- The first sixteen bytes of a `fmt` chunk that describes a format. -/
def PcmFormat.bytes (f : PcmFormat) : List UInt8 :=
  pack [2, 2, 4, 4, 2, 2] [1, f.channels, f.rate, f.rate * (f.channels * 2), f.channels * 2, 16]

/-- Every `fmt` chunk is long enough. -/
def LongEnough (chunks : List Chunk) : Prop :=
  ∀ chunk ∈ chunks, chunk.id = fmtId → 16 ≤ chunk.payload.length

/-- A container serves this audio in this format. -/
structure Serves (c : Container) (data : List UInt8) (f : PcmFormat) : Prop where
  form : c.form = waveId
  long : LongEnough c.chunks
  fmtChunk : ∃ chunk, lastChunk fmtId c.chunks = some chunk ∧ f.bytes <+: chunk.payload
  dataChunk : ∃ chunk, lastChunk dataId c.chunks = some chunk ∧ chunk.payload = data
  aligned : data.length % (2 * f.channels) = 0

/-- A chunk with a zero for its pad. -/
def paddedChunk (id payload : List UInt8) (hid : id.length = 4)
    (hpayload : payload.length < 2 ^ 32) : Chunk where
  id := id
  payload := payload
  pad := List.replicate (payload.length % 2) 0
  length_id := hid
  length_payload := hpayload
  length_pad := List.length_replicate

theorem PcmFormat.length_bytes (f : PcmFormat) : f.bytes.length = 16 := rfl

/-- The chunk of a format. -/
def PcmFormat.chunk (f : PcmFormat) : Chunk :=
  paddedChunk fmtId f.bytes rfl (by rw [f.length_bytes]; decide)

/-- Audio with other chunks around it. -/
structure PcmFile where
  format : PcmFormat
  pcm : List UInt8
  before : List Chunk
  between : List Chunk
  behind : List Chunk
  pcm_lt : pcm.length < 2 ^ 32
  aligned : pcm.length % (2 * format.channels) = 0
  others : ∀ chunk ∈ before ++ between ++ behind, chunk.id ≠ fmtId ∧ chunk.id ≠ dataId

/-- The chunks of a file. -/
def PcmFile.chunks (w : PcmFile) : List Chunk :=
  w.before ++ w.format.chunk :: (w.between ++ paddedChunk dataId w.pcm rfl w.pcm_lt :: w.behind)

/-- The bytes of a file. -/
def PcmFile.bytes (w : PcmFile) : List UInt8 :=
  riffId ++ (leBytes 4 (4 + (chunkBytes w.chunks).length) ++ (waveId ++ chunkBytes w.chunks))

/-! ### The walk -/

variable {raw : List UInt8} {riffEnd offset : ℕ} {found found' : Found}

theorem walk_done (h : riffEnd ≤ offset) : walk raw riffEnd offset found = .ok found := by
  rw [walk, if_neg (Nat.not_lt.mpr h)]

theorem walk_error {e : WavError} (h : offset < riffEnd)
    (hread : readChunk raw riffEnd offset found = .error e) :
    walk raw riffEnd offset found = .error e := by
  rw [walk, if_pos h]
  split
  · next heq =>
    rw [hread] at heq
    cases heq
    rfl
  · next heq =>
    rw [hread] at heq
    cases heq

theorem walk_next {next : ℕ} (h : offset < riffEnd)
    (hread : readChunk raw riffEnd offset found = .ok (next, found')) :
    walk raw riffEnd offset found = walk raw riffEnd next found' := by
  rw [walk, if_pos h]
  split
  · next heq =>
    rw [hread] at heq
    cases heq
  · next heq =>
    rw [hread] at heq
    cases heq
    rfl

/-- What is kept of a chunk that is there. -/
def Found.add (found : Found) (c : Chunk) : Except WavError Found :=
  if c.id = fmtId then
    if c.payload.length < 16 then .error (.value "WAV fmt chunk is too short")
    else .ok { found with fmt := some (Fmt.ofBytes c.payload) }
  else if c.id = dataId then .ok { found with data := some c.payload }
  else .ok found

/-- What is kept of some chunks. -/
def Found.addAll (found : Found) : List Chunk → Except WavError Found
  | [] => .ok found
  | c :: rest =>
    match found.add c with
    | .error e => .error e
    | .ok found => found.addAll rest

/-- The fields are in the first bytes. -/
theorem Fmt.ofBytes_append {bytes : List UInt8} (h : 16 ≤ bytes.length) (rest : List UInt8) :
    Fmt.ofBytes (bytes ++ rest) = Fmt.ofBytes bytes := by
  have hfield : ∀ k n, k + n ≤ 16 → ((bytes ++ rest).drop k).take n = (bytes.drop k).take n := by
    intro k n hkn
    rw [List.drop_append_of_le_length (by omega), List.take_append_of_le_length]
    rw [List.length_drop]
    omega
  rw [ofBytes, ofBytes, ← hfield 2 2 (by decide), ← hfield 4 4 (by decide),
    ← hfield 8 4 (by decide), ← hfield 12 2 (by decide), ← hfield 14 2 (by decide)]
  congr 2
  exact List.take_append_of_le_length (by omega)

/-- **A chunk that is there is read.** -/
theorem readChunk_chunk {c : Chunk} {rest : List UInt8} (found : Found) (hraw : raw.drop offset = c.bytes ++ rest)
    (hend : offset + c.bytes.length ≤ riffEnd) :
    readChunk raw riffEnd offset found =
      (found.add c).map fun found => (offset + c.bytes.length, found) := by
  have hlength := c.length_bytes
  have hraw_length : raw.length = offset + c.bytes.length + rest.length := by
    have hsum := congrArg List.length hraw
    rw [List.length_drop, List.length_append] at hsum
    omega
  have hdrop : ∀ k, raw.drop (offset + k) = (c.bytes ++ rest).drop k := fun k => by
    rw [← hraw, List.drop_drop]
  have hword : unpackWord raw (offset + 4) = .ok c.payload.length := by
    rw [unpackWord, if_neg (by omega), hdrop, c.leNat_size]
  have hslice : ∀ k n, slice raw (offset + k) (offset + k + n) =
      ((c.bytes ++ rest).drop k).take n := by
    intro k n
    rw [slice, List.drop_take, hdrop]
    congr 1
    omega
  have hid : slice raw offset (offset + 4) = c.id := (hslice 0 4).trans (c.take_id rest)
  have hkeep : keepChunk raw c.id (offset + 8) c.payload.length found = found.add c := by
    unfold keepChunk Found.add
    split
    · split
      · rfl
      · next hlong =>
        rw [unpackFmt, if_neg (by omega), hdrop, c.drop_size,
          Fmt.ofBytes_append (Nat.not_lt.mp hlong)]
        rfl
    · split
      · rw [hslice, c.take_payload]
      · rfl
  rw [readChunk, if_neg (by omega), hword]
  dsimp only
  rw [if_neg (by omega), hid, hkeep, hlength, ← Nat.add_assoc, ← Nat.add_assoc]

/-- The walk over chunks that are there. -/
theorem walk_chunks {chunks : List Chunk} {rest : List UInt8}
    (hraw : raw.drop offset = chunkBytes chunks ++ rest)
    (hend : offset + (chunkBytes chunks).length = riffEnd) :
    walk raw riffEnd offset found = found.addAll chunks := by
  induction chunks generalizing offset found with
  | nil => exact walk_done (Nat.le_of_eq hend.symm)
  | cons c chunks ih =>
    rw [chunkBytes_cons, List.append_assoc] at hraw
    rw [chunkBytes_cons, List.length_append] at hend
    have hlength := c.length_bytes
    have hread := readChunk_chunk found hraw (show _ ≤ riffEnd by omega)
    have hlt : offset < riffEnd := by omega
    rw [Found.addAll]
    cases hadd : found.add c with
    | error e =>
      rw [hadd] at hread
      exact walk_error hlt hread
    | ok found' =>
      rw [hadd] at hread
      rw [walk_next hlt hread]
      refine ih ?_ (by omega)
      rw [← List.drop_drop, hraw, List.drop_left]

/-- What is read is a chunk, or what is there is refused. -/
theorem readChunk_cases (offset : ℕ) (found : Found) (hend : riffEnd ≤ raw.length) :
    (∃ message, readChunk raw riffEnd offset found = .error (.value message)) ∨
      ∃ c : Chunk, raw.drop offset = c.bytes ++ raw.drop (offset + c.bytes.length) ∧
        offset + c.bytes.length ≤ riffEnd := by
  by_cases hhead : riffEnd < offset + 8
  · exact .inl ⟨_, if_pos hhead⟩
  have hword : unpackWord raw (offset + 4) = .ok (leNat (((raw.drop offset).drop 4).take 4)) := by
    rw [unpackWord, if_neg (by omega), List.drop_drop]
  generalize hsize : leNat (((raw.drop offset).drop 4).take 4) = size at hword
  by_cases hlong : riffEnd < offset + 8 + size ∨ riffEnd < offset + 8 + size + size % 2
  · refine .inl ⟨"backend returned a truncated WAV chunk", ?_⟩
    rw [readChunk, if_neg hhead, hword]
    exact if_pos hlong
  · obtain ⟨c, hraw, hpayload⟩ := exists_chunk hsize (by rw [List.length_drop]; omega)
    have hlength := c.length_bytes
    rw [hpayload] at hlength
    refine .inr ⟨c, ?_, by omega⟩
    rw [hlength, ← List.drop_drop]
    exact hraw

theorem Found.add_error {c : Chunk} {e : WavError} (h : found.add c = .error e) :
    e = .value "WAV fmt chunk is too short" := by
  unfold add at h
  split_ifs at h
  cases h
  rfl

/-- **The walk is over the chunks of a container**, or what is there is refused. -/
theorem walk_cases (found : Found) (hend : riffEnd ≤ raw.length) (hoffset : offset ≤ riffEnd) :
    (∃ message, walk raw riffEnd offset found = .error (.value message)) ∨
      ∃ chunks, raw.drop offset = chunkBytes chunks ++ raw.drop riffEnd ∧
        offset + (chunkBytes chunks).length = riffEnd := by
  induction hleft : riffEnd - offset using Nat.strong_induction_on generalizing offset found with
  | _ left ih =>
    rcases Nat.eq_or_lt_of_le hoffset with rfl | hlt
    · exact .inr ⟨[], rfl, rfl⟩
    rcases readChunk_cases offset found hend with ⟨message, hread⟩ | ⟨c, hraw, hnext⟩
    · exact .inl ⟨message, walk_error hlt hread⟩
    have hlength := c.length_bytes
    have hread := readChunk_chunk found hraw hnext
    cases hadd : found.add c with
    | error e =>
      rw [hadd, Found.add_error hadd] at hread
      exact .inl ⟨_, walk_error hlt hread⟩
    | ok found' =>
      rw [hadd] at hread
      rw [walk_next hlt hread]
      rcases ih _ (by omega) found' hnext rfl with herror | ⟨chunks, hchunks, hfill⟩
      · exact .inl herror
      · refine .inr ⟨c :: chunks, ?_, ?_⟩
        · rw [chunkBytes_cons, List.append_assoc, ← hchunks]
          exact hraw
        · rw [chunkBytes_cons, List.length_append]
          omega

/-! ### What is found -/

theorem Found.addAll_concat (found : Found) (chunks : List Chunk) (c : Chunk) :
    found.addAll (chunks ++ [c]) =
      match found.addAll chunks with
      | .error e => .error e
      | .ok found => found.add c := by
  induction chunks generalizing found with
  | nil =>
    show (match found.add c with | .error e => _ | .ok found => Except.ok found) = found.add c
    cases found.add c <;> rfl
  | cons d rest ih =>
    rw [List.cons_append, addAll, addAll]
    cases found.add d with
    | error e => rfl
    | ok found => exact ih found

/-- The last chunks are what is found. -/
theorem addAll_of_longEnough {chunks : List Chunk} (h : LongEnough chunks) :
    Found.addAll {} chunks =
      .ok
        { fmt := (lastChunk fmtId chunks).map fun c => Fmt.ofBytes c.payload
          data := (lastChunk dataId chunks).map Chunk.payload } := by
  induction chunks using List.reverseRecOn with
  | nil => rfl
  | append_singleton chunks c ih =>
    have hfront : LongEnough chunks := fun d hd => h d (List.mem_append_left _ hd)
    have hlast := h c (List.mem_append_right _ List.mem_cons_self)
    rw [Found.addAll_concat, ih hfront, lastChunk_concat, lastChunk_concat]
    dsimp only
    unfold Found.add
    by_cases hfmt : c.id = fmtId
    · have hdata : c.id ≠ dataId := by
        rw [hfmt]
        decide
      rw [if_pos hfmt, if_neg (Nat.not_lt.mpr (hlast hfmt)), if_pos hfmt, if_neg hdata]
      rfl
    · rw [if_neg hfmt, if_neg hfmt]
      split <;> rfl

theorem addAll_of_not_longEnough {chunks : List Chunk} (h : ¬LongEnough chunks) :
    Found.addAll {} chunks = .error (.value "WAV fmt chunk is too short") := by
  induction chunks using List.reverseRecOn with
  | nil => exact absurd (fun _ hc => absurd hc List.not_mem_nil) h
  | append_singleton chunks c ih =>
    rw [Found.addAll_concat]
    by_cases hfront : LongEnough chunks
    · have hshort : c.id = fmtId ∧ c.payload.length < 16 := by
        by_contra hnot
        refine h fun d hd hid => ?_
        rcases List.mem_append.mp hd with hd | hd
        · exact hfront d hd hid
        · rw [List.mem_singleton.mp hd] at hid ⊢
          exact Nat.not_lt.mp fun hlt => hnot ⟨hid, hlt⟩
      rw [addAll_of_longEnough hfront]
      dsimp only
      rw [Found.add, if_pos hshort.1, if_pos hshort.2]
    · rw [ih hfront]

/-! ### The format -/

/-- The fields, in their order. -/
def Fmt.toList (f : Fmt) : List ℕ :=
  [f.audioFormat, f.channels, f.sampleRate, f.byteRate, f.blockAlign, f.bits]

theorem Fmt.toList_ofBytes (bytes : List UInt8) :
    (Fmt.ofBytes bytes).toList = unpack [2, 2, 4, 4, 2, 2] bytes := by
  simp only [toList, ofBytes, unpack, List.drop_drop]

/-- The fields of a format. -/
def PcmFormat.fmt (f : PcmFormat) : Fmt where
  audioFormat := 1
  channels := f.channels
  sampleRate := f.rate
  byteRate := f.rate * (f.channels * 2)
  blockAlign := f.channels * 2
  bits := 16

theorem Fmt.toList_inj {f g : Fmt} : f.toList = g.toList ↔ f = g := by
  refine ⟨fun h => ?_, congrArg toList⟩
  cases f
  cases g
  simpa [toList] using h

/-- **A format is described** by the bytes in which its fields are read. -/
theorem PcmFormat.isPrefix_iff (f : PcmFormat) {payload : List UInt8}
    (hlong : 16 ≤ payload.length) : f.bytes <+: payload ↔ Fmt.ofBytes payload = f.fmt := by
  rw [← Fmt.toList_inj, Fmt.toList_ofBytes]
  constructor
  · rintro ⟨rest, rfl⟩
    have hchannels : f.channels * 2 < 256 ^ 2 := by
      rcases f.monoOrStereo with h | h <;> rw [h] <;> decide
    have hrate : f.rate < 256 ^ 4 := by
      have hle : f.rate ≤ f.rate * (f.channels * 2) :=
        Nat.le_mul_of_pos_right _ (by rcases f.monoOrStereo with h | h <;> omega)
      exact Nat.lt_of_le_of_lt hle f.byteRate_lt
    exact unpack_pack (.cons (by decide) (.cons (by omega) (.cons hrate (.cons f.byteRate_lt
      (.cons hchannels (.cons (by decide) .nil)))))) rest
  · intro h
    have hbytes : pack [2, 2, 4, 4, 2, 2] (unpack [2, 2, 4, 4, 2, 2] payload) =
        payload.take 16 := pack_unpack hlong
    rw [h] at hbytes
    exact ⟨payload.drop 16, (congrArg (· ++ _) hbytes).trans (List.take_append_drop 16 payload)⟩

theorem Fmt.byteRate_lt (bytes : List UInt8) : (Fmt.ofBytes bytes).byteRate < 2 ^ 32 := by
  have hle : ((bytes.drop 8).take 4).length ≤ 4 := List.length_take_le _ _
  exact Nat.lt_of_lt_of_le (leNat_lt _) (Nat.pow_le_pow_right (by decide) hle)

/-- The checks let through what is in a format. -/
theorem pcmOf_eq_ok_iff {data : List UInt8} {rate channels : ℕ}
    (hlt : ∀ fmt, found.fmt = some fmt → fmt.byteRate < 2 ^ 32) :
    pcmOf found = .ok (data, rate, channels) ↔
      ∃ f : PcmFormat, f.rate = rate ∧ f.channels = channels ∧ found.fmt = some f.fmt ∧
        found.data = some data ∧ data.length % (2 * f.channels) = 0 := by
  unfold pcmOf
  constructor
  · intro h
    split at h
    case h_2 => cases h
    case h_1 fmt kept hfmt hkept =>
      split_ifs at h with hformat hmeta hrate haligned
      rw [not_or, not_or, not_not, not_not, not_not] at hformat
      rw [not_or, not_not] at hmeta
      rw [not_not] at hrate haligned
      cases h
      have hbyteRate := hlt fmt hfmt
      rw [hrate] at hbyteRate
      refine ⟨
        { rate := fmt.sampleRate
          channels := fmt.channels
          monoOrStereo := by simpa using hformat.2.1
          rate_pos := Nat.pos_of_ne_zero fun h => hmeta.1 (Nat.le_of_eq h)
          byteRate_lt := hbyteRate }, rfl, rfl, ?_, hkept, haligned⟩
      rw [hfmt, Option.some_inj]
      cases fmt
      simp only [PcmFormat.fmt, Fmt.mk.injEq]
      exact ⟨hformat.1, trivial, trivial, hrate, hmeta.2, hformat.2.2⟩
  · rintro ⟨f, rfl, rfl, hfmt, hdata, haligned⟩
    have hmono : f.channels ∈ [1, 2] := by
      rcases f.monoOrStereo with h | h <;> rw [h] <;> decide
    have hformat : ¬(1 ≠ 1 ∨ f.channels ∉ [1, 2] ∨ 16 ≠ 16) := by
      rintro (h | h | h)
      · exact h rfl
      · exact h hmono
      · exact h rfl
    have hrate := f.rate_pos
    rw [hfmt, hdata]
    dsimp only [PcmFormat.fmt]
    rw [if_neg hformat, if_neg (by omega), if_neg (by omega), if_neg (by omega)]

theorem pcmOf_error {e : WavError} (h : pcmOf found = .error e) :
    ∃ message, e = .value message := by
  unfold pcmOf at h
  split at h
  · split_ifs at h <;> cases h <;> exact ⟨_, rfl⟩
  · cases h
    exact ⟨_, rfl⟩

/-! ### The reader -/

/-- A container whose chunks are kept goes on to the checks. -/
theorem wavPcmPayload_bytes {c : Container} (hform : c.form = waveId) :
    wavPcmPayload c.bytes =
      match Found.addAll {} c.chunks with
      | .error e => .error e
      | .ok found => pcmOf found := by
  have hlength := c.length_bytes
  have hsize : 4 ≤ c.size := Nat.le_add_right _ _
  have hriff : slice c.bytes 0 4 = riffId := c.take_riff
  have hwave : slice c.bytes 8 12 = waveId := by
    rw [slice, List.drop_take, c.take_form, hform]
  have hword : unpackWord c.bytes 4 = .ok c.size := by
    rw [unpackWord, if_neg (by omega), c.leNat_size]
  have hwalk : walk c.bytes (c.size + 8) 12 {} = Found.addAll {} c.chunks :=
    walk_chunks c.drop_form (by rw [Container.size]; omega)
  rw [wavPcmPayload, if_neg, hword]
  · dsimp only
    rw [if_neg (by omega), hwalk]
  · rintro (h | h | h)
    · omega
    · exact h hriff
    · exact h hwave

/-- What is read is a container, or what is there is refused. -/
theorem wavPcmPayload_cases (raw : List UInt8) :
    (∃ message, wavPcmPayload raw = .error (.value message)) ∨
      ∃ c : Container, c.bytes = raw ∧ c.form = waveId := by
  by_cases hhead : raw.length < 12 ∨ slice raw 0 4 ≠ riffId ∨ slice raw 8 12 ≠ waveId
  · exact .inl ⟨_, if_pos hhead⟩
  rw [not_or, not_or, not_not, not_not] at hhead
  obtain ⟨hlength, hriff, hwave⟩ := hhead
  have hword : unpackWord raw 4 = .ok (leNat ((raw.drop 4).take 4)) := if_neg (by omega)
  generalize hsize : leNat ((raw.drop 4).take 4) = size at hword
  have hstart : wavPcmPayload raw =
      if size < 4 ∨ raw.length < size + 8 then
        .error (.value "backend returned a truncated WAV stream")
      else
        match walk raw (size + 8) 12 {} with
        | .error e => .error e
        | .ok found => pcmOf found := by
    rw [wavPcmPayload, if_neg, hword]
    rintro (h | h | h)
    · exact hlength h
    · exact h hriff
    · exact h hwave
  by_cases hshort : size < 4 ∨ raw.length < size + 8
  · exact .inl ⟨_, hstart.trans (if_pos hshort)⟩
  rw [if_neg hshort] at hstart
  have hend : size + 8 ≤ raw.length := by omega
  have hoffset : 12 ≤ size + 8 := by omega
  rcases walk_cases {} hend hoffset with ⟨message, hwalk⟩ | ⟨chunks, hchunks, hfill⟩
  · rw [hwalk] at hstart
    exact .inl ⟨message, hstart⟩
  · obtain ⟨c, hbytes, -, hform⟩ :=
      exists_container hriff hsize (Nat.not_lt.mp hlength) hchunks (by omega)
    refine .inr ⟨c, hbytes, hform.trans ?_⟩
    rw [← hwave, slice, List.drop_take]

/-- What is accepted. -/
theorem wavPcmPayload_eq_ok_iff {data : List UInt8} {rate channels : ℕ} :
    wavPcmPayload raw = .ok (data, rate, channels) ↔
      ∃ c : Container, c.bytes = raw ∧
        ∃ f : PcmFormat, f.rate = rate ∧ f.channels = channels ∧ Serves c data f := by
  constructor
  · intro h
    rcases wavPcmPayload_cases raw with ⟨message, herror⟩ | ⟨c, rfl, hform⟩
    · rw [h] at herror
      cases herror
    rw [wavPcmPayload_bytes hform] at h
    by_cases hlong : LongEnough c.chunks
    · rw [addAll_of_longEnough hlong] at h
      obtain ⟨f, hrate, hchannels, hfmt, hdata, haligned⟩ := (pcmOf_eq_ok_iff (by
        intro fmt hfmt
        obtain ⟨chunk, -, rfl⟩ := Option.map_eq_some_iff.mp hfmt
        exact Fmt.byteRate_lt _)).mp h
      obtain ⟨chunk, hlast, hfields⟩ := Option.map_eq_some_iff.mp hfmt
      obtain ⟨hmem, hid⟩ := mem_of_lastChunk hlast
      exact ⟨c, rfl, f, hrate, hchannels,
        { form := hform
          long := hlong
          fmtChunk := ⟨chunk, hlast, (f.isPrefix_iff (hlong chunk hmem hid)).mpr hfields⟩
          dataChunk := Option.map_eq_some_iff.mp hdata
          aligned := haligned }⟩
    · rw [addAll_of_not_longEnough hlong] at h
      cases h
  · rintro ⟨c, rfl, f, hrate, hchannels, hform, hlong, ⟨chunk, hlast, hprefix⟩, hdata, haligned⟩
    obtain ⟨hmem, hid⟩ := mem_of_lastChunk hlast
    have hfields := (f.isPrefix_iff (hlong chunk hmem hid)).mp hprefix
    rw [wavPcmPayload_bytes hform, addAll_of_longEnough hlong]
    refine (pcmOf_eq_ok_iff ?_).mpr ⟨f, hrate, hchannels, ?_, ?_, haligned⟩
    · intro fmt hfmt
      obtain ⟨chunk, -, rfl⟩ := Option.map_eq_some_iff.mp hfmt
      exact Fmt.byteRate_lt _
    · rw [hlast]
      exact congrArg some hfields
    · exact Option.map_eq_some_iff.mpr hdata

theorem wavPcmPayload_error {e : WavError} (h : wavPcmPayload raw = .error e) :
    ∃ message, e = .value message := by
  rcases wavPcmPayload_cases raw with ⟨message, herror⟩ | ⟨c, rfl, hform⟩
  · rw [h] at herror
    cases herror
    exact ⟨message, rfl⟩
  rw [wavPcmPayload_bytes hform] at h
  by_cases hlong : LongEnough c.chunks
  · rw [addAll_of_longEnough hlong] at h
    exact pcmOf_error h
  · rw [addAll_of_not_longEnough hlong] at h
    cases h
    exact ⟨_, rfl⟩

/-- A file serves its audio. -/
theorem PcmFile.serves (w : PcmFile) {c : Container} (hform : c.form = waveId)
    (hchunks : c.chunks = w.chunks) : Serves c w.pcm w.format := by
  have hbefore : ∀ chunk ∈ w.before, chunk.id ≠ fmtId ∧ chunk.id ≠ dataId := fun chunk h =>
    w.others chunk (List.mem_append_left _ (List.mem_append_left _ h))
  have hbetween : ∀ chunk ∈ w.between, chunk.id ≠ fmtId ∧ chunk.id ≠ dataId := fun chunk h =>
    w.others chunk (List.mem_append_left _ (List.mem_append_right _ h))
  have hbehind : ∀ chunk ∈ w.behind, chunk.id ≠ fmtId ∧ chunk.id ≠ dataId := fun chunk h =>
    w.others chunk (List.mem_append_right _ h)
  have hfmt : lastChunk fmtId w.chunks = some w.format.chunk := by
    refine lastChunk_of_forall rfl fun chunk hmem => ?_
    rcases List.mem_append.mp hmem with hmem | hmem
    · exact (hbetween chunk hmem).1
    · rcases List.mem_cons.mp hmem with rfl | hmem
      · exact (by decide : dataId ≠ fmtId)
      · exact (hbehind chunk hmem).1
  have hdata : lastChunk dataId w.chunks = some (paddedChunk dataId w.pcm rfl w.pcm_lt) := by
    have hparts : w.chunks = (w.before ++ w.format.chunk :: w.between) ++
        paddedChunk dataId w.pcm rfl w.pcm_lt :: w.behind := by
      rw [chunks, List.append_assoc, List.cons_append]
    rw [hparts]
    exact lastChunk_of_forall rfl fun chunk hmem => (hbehind chunk hmem).2
  refine ⟨hform, ?_, ⟨_, hchunks ▸ hfmt, List.prefix_refl _⟩, ⟨_, hchunks ▸ hdata, rfl⟩, w.aligned⟩
  rw [hchunks]
  intro chunk hmem hid
  rcases List.mem_append.mp hmem with hmem | hmem
  · exact absurd hid (hbefore chunk hmem).1
  rcases List.mem_cons.mp hmem with rfl | hmem
  · exact Nat.le_of_eq w.format.length_bytes.symm
  rcases List.mem_append.mp hmem with hmem | hmem
  · exact absurd hid (hbetween chunk hmem).1
  rcases List.mem_cons.mp hmem with rfl | hmem
  · exact absurd hid (by decide : dataId ≠ fmtId)
  · exact absurd hid (hbehind chunk hmem).1

/-- **The reader accepts what serves audio**, and gives back this audio; it refuses everything else
with a `ValueError`; and what a writer wrote is accepted, with any other chunks around it and any
bytes behind it. -/
theorem wavPcmPayload_accepts (raw : List UInt8) :
    (∀ data rate channels, wavPcmPayload raw = .ok (data, rate, channels) ↔
      ∃ c : Container, c.bytes = raw ∧
        ∃ f : PcmFormat, f.rate = rate ∧ f.channels = channels ∧ Serves c data f) ∧
    (∀ e, wavPcmPayload raw = .error e → ∃ message, e = .value message) ∧
    ∀ (w : PcmFile) (rest : List UInt8), 4 + (chunkBytes w.chunks).length < 2 ^ 32 →
      wavPcmPayload (w.bytes ++ rest) = .ok (w.pcm, w.format.rate, w.format.channels) := by
  refine ⟨fun _ _ _ => wavPcmPayload_eq_ok_iff, fun _ h => wavPcmPayload_error h, ?_⟩
  intro w rest hlt
  refine wavPcmPayload_eq_ok_iff.mpr ⟨
    { form := waveId, chunks := w.chunks, rest := rest, length_form := rfl, size_lt := hlt }, ?_,
    w.format, rfl, rfl, w.serves rfl rfl⟩
  rw [Container.bytes, PcmFile.bytes, List.append_assoc, List.append_assoc, List.append_assoc]
  rfl

end OpenaiCompat
end OpenVoiceStream
