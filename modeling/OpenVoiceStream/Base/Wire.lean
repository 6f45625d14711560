import Mathlib.Data.List.Basic

/-!
# Texts on the wire

A text is sent in UTF-8, and a program that knows no Unicode reads its bytes as characters. The
characters of ASCII are single bytes, and the bytes of all others are not ASCII; what is done to
the ASCII characters of a text is done to those of its bytes.

## Main definitions

* `utf8 text` — the bytes of a text.
* `wire text` — these bytes as characters, one each.

## Main results

* `wire_eq_self` — a text of ASCII.
* `wire_flatMap` — an edit of ASCII characters.
-/

namespace OpenVoiceStream

/-- The bytes of a text. -/
def utf8 (text : List Char) : List UInt8 := text.flatMap String.utf8EncodeChar

/-- The characters of some bytes, one each. -/
def chars (bytes : List UInt8) : List Char := bytes.map Char.ofUInt8

/-- A text, as a program sees it to which a character is a byte. -/
def wire (text : List Char) : List Char := chars (utf8 text)

@[simp] theorem wire_append (text text' : List Char) :
    wire (text ++ text') = wire text ++ wire text' := by
  rw [wire, utf8, List.flatMap_append, chars, List.map_append]
  rfl

theorem wire_cons (c : Char) (text : List Char) : wire (c :: text) = wire [c] ++ wire text :=
  wire_append [c] text

theorem toNat_ofUInt8 (b : UInt8) : (Char.ofUInt8 b).toNat = b.toNat := rfl

/-- A character of ASCII is one byte. -/
theorem wire_singleton {c : Char} (hc : c.toNat < 128) : wire [c] = [c] := by
  have hbyte : String.utf8EncodeChar c = [UInt8.ofNat c.toNat] :=
    if_pos (Nat.le_of_lt_succ hc)
  have hsame : Char.ofUInt8 (UInt8.ofNat c.toNat) = c := by
    apply Char.toNat_inj.mp
    rw [toNat_ofUInt8, UInt8.toNat_ofNat', Nat.mod_eq_of_lt (by omega)]
  rw [wire, utf8, List.flatMap_singleton, hbyte, chars, List.map_singleton, hsame]

/-- A byte of a character that is not ASCII is not ASCII. -/
theorem le_of_mem_wire {c d : Char} (hc : 128 ≤ c.toNat) (hd : d ∈ wire [c]) : 128 ≤ d.toNat := by
  rw [wire, utf8, List.flatMap_singleton, chars, List.mem_map] at hd
  obtain ⟨b, hb, rfl⟩ := hd
  rw [toNat_ofUInt8]
  have hbyte : ∀ n, 128 ≤ n → n < 256 → 128 ≤ (UInt8.ofNat n).toNat := by
    intro n hlo hhi
    rwa [UInt8.toNat_ofNat', Nat.mod_eq_of_lt hhi]
  unfold String.utf8EncodeChar at hb
  have hval : c.val.toNat = c.toNat := rfl
  dsimp only at hb
  rw [hval, if_neg (by omega)] at hb
  split at hb
  · rcases List.mem_pair.mp hb with rfl | rfl <;> exact hbyte _ (by omega) (by omega)
  · split at hb
    · simp only [List.mem_cons, List.not_mem_nil, or_false] at hb
      rcases hb with rfl | rfl | rfl <;> exact hbyte _ (by omega) (by omega)
    · simp only [List.mem_cons, List.not_mem_nil, or_false] at hb
      rcases hb with rfl | rfl | rfl | rfl <;> exact hbyte _ (by omega) (by omega)

theorem wire_eq_self {text : List Char} (h : ∀ c ∈ text, c.toNat < 128) : wire text = text := by
  induction text with
  | nil => rfl
  | cons c rest ih =>
    rw [wire_cons, wire_singleton (h c List.mem_cons_self),
      ih fun d hd => h d (List.mem_cons_of_mem _ hd), List.singleton_append]

/-- An edit that replaces ASCII characters by ASCII characters may be done to the bytes. -/
theorem wire_flatMap {edit : Char → List Char}
    (hascii : ∀ c, c.toNat < 128 → ∀ d ∈ edit c, d.toNat < 128)
    (hplain : ∀ c, 128 ≤ c.toNat → edit c = [c]) (text : List Char) :
    wire (text.flatMap edit) = (wire text).flatMap edit := by
  induction text with
  | nil => rfl
  | cons c rest ih =>
    rw [List.flatMap_cons, wire_append, ih, wire_cons c rest, List.flatMap_append]
    congr 1
    rcases Nat.lt_or_ge c.toNat 128 with hc | hc
    · rw [wire_singleton hc, List.flatMap_singleton, wire_eq_self (hascii c hc)]
    · have hself : (wire [c]).flatMap edit = (wire [c]).flatMap fun d => [d] :=
        List.flatMap_congr fun d hd => hplain d (le_of_mem_wire hc hd)
      rw [hplain c hc, hself, List.flatMap_singleton']

end OpenVoiceStream
