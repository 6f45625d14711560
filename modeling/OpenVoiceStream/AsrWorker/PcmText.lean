import OpenVoiceStream.Base.Base64
import OpenVoiceStream.AsrWorker.Json

/-!
# The samples of a chunk

A chunk brings its samples in base 64. The decoder keeps the bits that are not put out yet in a
signed number of 32 bits, which overflows after a few letters.

## Main definitions

* `base64Decode` — the source's.
* `base64` — the alphabet.

## Main results

* `base64Decode_eq` — a text is read by its letters, whatever stands between them.
* `base64Decode_encode` — the round trip.
-/

namespace OpenVoiceStream
namespace AsrWorker

/-- The letters of the decoder's table. -/
def base64Letters : Bytes :=
  ascii "ABCDEFGHIJKLMNOPQRSTUVWXYZabcdefghijklmnopqrstuvwxyz0123456789+/"

/-- The alphabet. -/
def base64 : Base64.Alphabet where
  letters := base64Letters
  pad := '='.toNat.toUInt8
  length := by decide
  nodup := by decide
  pad_notMem := by decide

/-- `kT`, with `none` for `-1`. -/
def kT (c : UInt8) : Option ℕ := base64Letters.idxOf? c

/-- The variables of the loop of `base64Decode`. -/
structure Decoding where
  v : BitVec 32
  bits : ℕ
  out : Bytes

/-- One character of `base64Decode`. -/
def Decoding.step (d : Decoding) (c : UInt8) : Decoding :=
  if c ∈ ascii "=\n\r " then d
  else
    match kT c with
    | none => d
    | some x =>
      let v := d.v <<< 6 ||| BitVec.ofNat 32 x
      let bits := d.bits + 6
      if 8 ≤ bits then
        { v := v
          bits := bits - 8
          out := d.out ++ [UInt8.ofBitVec ((v.sshiftRight (bits - 8) &&& 0xFF#32).setWidth 8)] }
      else { d with v := v, bits := bits }

/-- `base64Decode`. -/
def base64Decode (text : Bytes) : Bytes := (text.foldl Decoding.step ⟨0#32, 0, []⟩).out

namespace Decoding

/-- `v = (v << 6) | x`. -/
def shift (v : BitVec 32) (x : ℕ) : BitVec 32 := v <<< 6 ||| BitVec.ofNat 32 x

/-- `(v >> bits) & 0xFF`. -/
def byte (v : BitVec 32) (bits : ℕ) : UInt8 :=
  UInt8.ofBitVec ((v.sshiftRight bits &&& 0xFF#32).setWidth 8)

/-- What a letter does. -/
def push (d : Decoding) (x : ℕ) : Decoding :=
  let v := shift d.v x
  let bits := d.bits + 6
  if 8 ≤ bits then { v := v, bits := bits - 8, out := d.out ++ [byte v (bits - 8)] }
  else { d with v := v, bits := bits }

theorem step_eq (d : Decoding) (c : UInt8) : d.step c = ((base64.value c).map d.push).getD d := by
  have hall : ((ascii "=\n\r ").all fun b => (base64.value b).isNone) = true := by decide
  have hblank : ∀ b ∈ ascii "=\n\r ", base64.value b = none :=
    fun b hb => Option.isNone_iff_eq_none.mp (List.all_eq_true.mp hall b hb)
  unfold step
  split
  · next hc =>
    rw [hblank c hc]
    rfl
  · change (match base64.value c with | none => d | some x => d.push x) = _
    cases base64.value c with
    | none => rfl
    | some x => rfl

/-- The letters are all that is read. -/
theorem foldl_step (text : Bytes) (d : Decoding) :
    text.foldl step d = (text.filterMap base64.value).foldl push d := by
  induction text generalizing d with
  | nil => rfl
  | cons c text ih =>
    rw [List.foldl_cons, ih, step_eq]
    cases hc : base64.value c with
    | none => rw [List.filterMap_cons_none hc]; rfl
    | some x => rw [List.filterMap_cons_some hc]; rfl

/-- The bits that are shifted out are gone, and the new ones do not meet the old ones. -/
theorem toNat_shift (v : BitVec 32) {x : ℕ} (hx : x < 64) :
    (shift v x).toNat = (v.toNat * 64 + x) % 2 ^ 32 := by
  have hv : v.toNat <<< 6 % 2 ^ 32 = 2 ^ 6 * (v.toNat % 2 ^ 26) := by
    rw [Nat.shiftLeft_eq]
    omega
  have hx' : x % 2 ^ 32 = x := Nat.mod_eq_of_lt (by omega)
  rw [shift, BitVec.toNat_or, BitVec.toNat_shiftLeft, BitVec.toNat_ofNat, hx', hv,
    ← Nat.two_pow_add_eq_or_of_lt (show x < 2 ^ 6 from hx)]
  omega

/-- The sign of `v` does not get into the lowest bits. -/
theorem byte_eq {v : BitVec 32} {k n : ℕ} (hk : k ≤ 24) (hn : v.toNat / 2 ^ k % 256 = n % 256) :
    byte v k = UInt8.ofNat n := by
  have hbits : (v.sshiftRight k &&& 0xFF#32).setWidth 8 = BitVec.ofNat 8 (v.toNat / 2 ^ k) := by
    apply BitVec.eq_of_getLsbD_eq
    intro i hi
    have hlow : (0xFF#32).getLsbD i = true := by
      rw [BitVec.getLsbD_ofNat, show 0xFF = 2 ^ 8 - 1 from rfl, Nat.testBit_two_pow_sub_one]
      simp [hi]
      omega
    rw [BitVec.getLsbD_setWidth, BitVec.getLsbD_and, BitVec.getLsbD_sshiftRight, hlow,
      BitVec.getLsbD_ofNat, Nat.testBit_div_two_pow, BitVec.getLsbD]
    simp [hi, show k + i < 32 by omega, show ¬ 32 ≤ i by omega, Nat.add_comm]
  apply UInt8.toNat_inj.mp
  rw [byte, hbits, UInt8.toNat_ofNat', ← hn]
  rfl

/-- The byte that ends within the second of four letters. -/
theorem byte_second (v : BitVec 32) {a b : ℕ} (ha : a < 64) (hb : b < 64) :
    byte (shift (shift v a) b) 4 = UInt8.ofNat (a * 4 + b / 16) := by
  apply byte_eq (by omega)
  rw [toNat_shift _ hb, toNat_shift _ ha]
  omega

theorem byte_third (v : BitVec 32) {b c : ℕ} (hb : b < 64) (hc : c < 64) :
    byte (shift (shift v b) c) 2 = UInt8.ofNat (b * 16 + c / 4) := by
  apply byte_eq (by omega)
  rw [toNat_shift _ hc, toNat_shift _ hb]
  omega

theorem byte_fourth (v : BitVec 32) {c d : ℕ} (hc : c < 64) (hd : d < 64) :
    byte (shift (shift v c) d) 0 = UInt8.ofNat (c * 64 + d) := by
  apply byte_eq (by omega)
  rw [toNat_shift _ hd, toNat_shift _ hc]
  omega

/-- Letters while no bits are pending: what has been shifted out, or still pends, is not put
out. -/
theorem foldl_push (ns : List ℕ) (h : ∀ n ∈ ns, n < 64) (v : BitVec 32) (out : Bytes) :
    (ns.foldl push ⟨v, 0, out⟩).out = out ++ Base64.octets ns := by
  induction ns using Base64.octets.induct generalizing v out with
  | case1 a b c d rest ih =>
    simp only [List.mem_cons, forall_eq_or_imp] at h
    obtain ⟨ha, hb, hc, hd, hrest⟩ := h
    have hfold : (a :: b :: c :: d :: rest).foldl push ⟨v, 0, out⟩ =
        rest.foldl push ⟨shift (shift (shift (shift v a) b) c) d, 0,
          out ++ [byte (shift (shift v a) b) 4] ++ [byte (shift (shift (shift v a) b) c) 2] ++
            [byte (shift (shift (shift (shift v a) b) c) d) 0]⟩ := rfl
    rw [hfold, ih hrest, byte_second v ha hb, byte_third _ hb hc, byte_fourth _ hc hd,
      List.append_assoc, List.append_assoc, List.append_assoc]
    rfl
  | case2 a b c =>
    simp only [List.mem_cons, forall_eq_or_imp] at h
    obtain ⟨ha, hb, hc, -⟩ := h
    have hfold : ([a, b, c].foldl push ⟨v, 0, out⟩).out =
        out ++ [byte (shift (shift v a) b) 4] ++ [byte (shift (shift (shift v a) b) c) 2] := rfl
    rw [hfold, byte_second v ha hb, byte_third _ hb hc, List.append_assoc]
    rfl
  | case3 a b =>
    simp only [List.mem_cons, forall_eq_or_imp] at h
    obtain ⟨ha, hb, -⟩ := h
    have hfold : ([a, b].foldl push ⟨v, 0, out⟩).out = out ++ [byte (shift (shift v a) b) 4] := rfl
    rw [hfold, byte_second v ha hb]
    rfl
  | case4 ns h₁ h₂ h₃ =>
    rcases ns with _ | ⟨a, _ | ⟨b, _ | ⟨c, _ | ⟨d, rest⟩⟩⟩⟩
    · exact (List.append_nil out).symm
    · exact (List.append_nil out).symm
    · exact absurd rfl (h₃ a b)
    · exact absurd rfl (h₂ a b c)
    · exact absurd rfl (h₁ a b c d rest)

end Decoding

theorem lt_of_value {c : UInt8} {n : ℕ} (h : base64.value c = some n) : n < 64 := by
  obtain ⟨hn, -, -⟩ := List.idxOf?_eq_some_iff.mp h
  exact base64.length ▸ hn

/-- **A text is read by its letters**, whatever stands between them. -/
theorem base64Decode_eq (text : Bytes) :
    base64Decode text = Base64.octets (text.filterMap base64.value) := by
  rw [base64Decode, Decoding.foldl_step]
  refine Decoding.foldl_push _ (fun n hn => ?_) 0#32 []
  obtain ⟨c, -, hc⟩ := List.mem_filterMap.mp hn
  exact lt_of_value hc

/-- **What was encoded is decoded**, also when it was broken into lines, when its padding is
missing or stands elsewhere, and whatever else is in the text. -/
theorem base64Decode_encode (bytes text : Bytes)
    (h : text.filter (fun c => (base64.value c).isSome) =
      (base64.encode bytes).filter (fun c => (base64.value c).isSome)) :
    base64Decode text = bytes := by
  have hletters : ∀ s : Bytes, s.filterMap base64.value =
      (s.filter fun c => (base64.value c).isSome).filterMap base64.value := by
    intro s
    induction s with
    | nil => rfl
    | cons c s ih =>
      cases hc : base64.value c with
      | none => rw [List.filterMap_cons_none hc, List.filter_cons_of_neg (by rw [hc]; decide), ih]
      | some n =>
        rw [List.filterMap_cons_some hc, List.filter_cons_of_pos (by rw [hc]; rfl),
          List.filterMap_cons_some hc, ih]
  rw [base64Decode_eq, hletters, h, ← hletters, base64.filterMap_encode, Base64.octets_sextets]

/-- A text in two lines. -/
theorem base64Decode_encode_lines :
    base64Decode (ascii "TWFu\r\nTQ") = ascii "ManM" :=
  base64Decode_encode _ _ (by decide)

end AsrWorker
end OpenVoiceStream
