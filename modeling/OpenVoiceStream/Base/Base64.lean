import Mathlib.Algebra.Order.Ring.Nat
import Mathlib.Data.List.Nodup

/-!
# Base 64

Three bytes are four numbers of six bits, each written as a letter. One or two bytes at the end
are two or three numbers, with bits of zero behind them, and padded to four letters.

## Main definitions

* `Alphabet` — the letters, and the padding.
* `sextets`, `octets` — bytes as numbers of six bits, and back.
* `Alphabet.encode` — the text of some bytes.

## Main results

* `octets_sextets` — back from the numbers.
* `Alphabet.filterMap_encode` — the letters of a text stand for the numbers.
-/

namespace Base64

/-! ### Numbers of six bits -/

/-- Bytes as numbers of six bits. -/
def sextets : List UInt8 → List ℕ
  | [] => []
  | [a] => [a.toNat / 4, a.toNat % 4 * 16]
  | [a, b] => [a.toNat / 4, a.toNat % 4 * 16 + b.toNat / 16, b.toNat % 16 * 4]
  | a :: b :: c :: rest =>
    a.toNat / 4 :: (a.toNat % 4 * 16 + b.toNat / 16) :: (b.toNat % 16 * 4 + c.toNat / 64) ::
      c.toNat % 64 :: sextets rest

/-- The whole bytes that numbers of six bits make up. -/
def octets : List ℕ → List UInt8
  | a :: b :: c :: d :: rest =>
    UInt8.ofNat (a * 4 + b / 16) :: UInt8.ofNat (b * 16 + c / 4) :: UInt8.ofNat (c * 64 + d) ::
      octets rest
  | [a, b, c] => [UInt8.ofNat (a * 4 + b / 16), UInt8.ofNat (b * 16 + c / 4)]
  | [a, b] => [UInt8.ofNat (a * 4 + b / 16)]
  | _ => []

theorem ofNat_eq_of_mod {n : ℕ} {b : UInt8} (h : n % 256 = b.toNat) : UInt8.ofNat n = b := by
  apply UInt8.toNat_inj.mp
  rw [UInt8.toNat_ofNat', h]

/-- **The numbers say what the bytes were.** -/
theorem octets_sextets (bytes : List UInt8) : octets (sextets bytes) = bytes := by
  induction bytes using sextets.induct with
  | case1 => rfl
  | case2 a =>
    have ha := UInt8.toNat_lt a
    simp only [sextets, octets]
    rw [ofNat_eq_of_mod (b := a) (by omega)]
  | case3 a b =>
    have ha := UInt8.toNat_lt a
    have hb := UInt8.toNat_lt b
    simp only [sextets, octets]
    rw [ofNat_eq_of_mod (b := a) (by omega), ofNat_eq_of_mod (b := b) (by omega)]
  | case4 a b c rest ih =>
    have ha := UInt8.toNat_lt a
    have hb := UInt8.toNat_lt b
    have hc := UInt8.toNat_lt c
    simp only [sextets, octets]
    rw [ofNat_eq_of_mod (b := a) (by omega), ofNat_eq_of_mod (b := b) (by omega),
      ofNat_eq_of_mod (b := c) (by omega), ih]

theorem lt_of_mem_sextets {bytes : List UInt8} {n : ℕ} (h : n ∈ sextets bytes) : n < 64 := by
  induction bytes using sextets.induct with
  | case1 => cases h
  | case2 a =>
    have ha := UInt8.toNat_lt a
    simp only [sextets, List.mem_cons, List.not_mem_nil, or_false] at h
    omega
  | case3 a b =>
    have ha := UInt8.toNat_lt a
    have hb := UInt8.toNat_lt b
    simp only [sextets, List.mem_cons, List.not_mem_nil, or_false] at h
    omega
  | case4 a b c rest ih =>
    have ha := UInt8.toNat_lt a
    have hb := UInt8.toNat_lt b
    have hc := UInt8.toNat_lt c
    simp only [sextets, List.mem_cons] at h
    rcases h with h | h | h | h | h
    · omega
    · omega
    · omega
    · omega
    · exact ih h

/-! ### Letters -/

/-- Sixty-four letters and what fills up a text. -/
structure Alphabet where
  letters : List UInt8
  pad : UInt8
  length : letters.length = 64
  nodup : letters.Nodup
  pad_notMem : pad ∉ letters

namespace Alphabet

variable (A : Alphabet)

/-- The letter of a number. -/
def letter (n : ℕ) : UInt8 := A.letters.getD n A.pad

/-- The number of a letter. -/
def value (c : UInt8) : Option ℕ := A.letters.idxOf? c

/-- The text of some bytes. -/
def encode : List UInt8 → List UInt8
  | [] => []
  | [a] => (sextets [a]).map A.letter ++ [A.pad, A.pad]
  | [a, b] => (sextets [a, b]).map A.letter ++ [A.pad]
  | a :: b :: c :: rest => (sextets [a, b, c]).map A.letter ++ encode rest

theorem value_letter {n : ℕ} (h : n < 64) : A.value (A.letter n) = some n := by
  have hn : n < A.letters.length := A.length ▸ h
  have hletter : A.letter n = A.letters[n] := by
    rw [letter, List.getD_eq_getElem?_getD, List.getElem?_eq_getElem hn, Option.getD_some]
  rw [value, hletter, List.idxOf?_eq_some_iff]
  refine ⟨hn, rfl, ?_⟩
  intro j hj heq
  exact Nat.ne_of_lt hj ((List.Nodup.getElem_inj_iff A.nodup).mp heq)

theorem value_pad : A.value A.pad = none := List.idxOf?_eq_none_iff.mpr A.pad_notMem

theorem filterMap_letter {ns : List ℕ} (h : ∀ n ∈ ns, n < 64) :
    (ns.map A.letter).filterMap A.value = ns := by
  induction ns with
  | nil => rfl
  | cons n ns ih =>
    rw [List.map_cons, List.filterMap_cons_some (A.value_letter (h n List.mem_cons_self)),
      ih fun m hm => h m (List.mem_cons_of_mem _ hm)]

/-- **The letters of a text stand for the numbers**, and what fills it up for nothing. -/
theorem filterMap_encode (bytes : List UInt8) :
    (A.encode bytes).filterMap A.value = sextets bytes := by
  have hletters : ∀ bs, ((sextets bs).map A.letter).filterMap A.value = sextets bs :=
    fun bs => A.filterMap_letter fun _ => lt_of_mem_sextets
  induction bytes using encode.induct with
  | case1 => rfl
  | case2 a =>
    simp only [encode, List.filterMap_append, hletters, List.filterMap_cons, A.value_pad,
      List.filterMap_nil, List.append_nil]
  | case3 a b =>
    simp only [encode, List.filterMap_append, hletters, List.filterMap_cons, A.value_pad,
      List.filterMap_nil, List.append_nil]
  | case4 a b c rest ih =>
    simp only [encode, List.filterMap_append, hletters, ih]
    rfl

end Alphabet

end Base64
