import Mathlib.Algebra.Order.Ring.Int
import Mathlib.Data.List.Basic

/-!
# JSON lines

The worker reads JSON lines and writes JSON lines.  Its strings are strings of bytes.
Reading a field with a default throws when the value is not an object, or when the field
is there with a value of another type.  Writing throws when a string is not well-formed
UTF-8.  The reader only makes well-formed strings, so it is what comes from elsewhere that
can be malformed: the texts of the decoder and the messages of exceptions.

## Main definitions

* `validUtf8` — the strings that can be written.
* `Json` — JSON values; `Json.dumps` — those that can be written.
* `Json.valueString`, `Json.valueBool` — `value` with a default.
* `Json.stringAt` — `contains` and `is_string`.

## Main results

* `validUtf8_append`, `validUtf8_drop_ascii`, `validUtf8_of_ascii_cons` — well-formed
  strings are put together, and cut at ASCII characters.
* `Json.dumps_object` — an object can be written if its values can.
-/

namespace OpenVoiceStream
namespace AsrWorker

/-- `std::string`. -/
abbrev Bytes := List UInt8

/-- A string of ASCII characters. -/
def ascii (s : String) : Bytes := s.toList.map fun c => c.toNat.toUInt8

/-! ### Well-formed strings -/

/-- What a decoder of UTF-8 waits for. -/
inductive Utf8
  | start
  /-- So many more continuation bytes. -/
  | one
  | two
  | three
  /-- The second byte after `E0`, which begins no shorter encoding. -/
  | e0
  /-- The second byte after `ED`, which begins no surrogate. -/
  | ed
  /-- The second byte after `F0`, which begins no shorter encoding. -/
  | f0
  /-- The second byte after `F4`, which begins nothing past the last code point. -/
  | f4
  deriving DecidableEq, Repr

/-- The byte is between two others. -/
def between (low b high : UInt8) : Bool := decide (low ≤ b) && decide (b ≤ high)

/-- An ASCII character. -/
def isAscii (b : UInt8) : Bool := between 0x00 b 0x7F

/-- One byte. -/
def Utf8.next (b : UInt8) : Utf8 → Option Utf8
  | .start =>
    if isAscii b then some .start
    else if between 0xC2 b 0xDF then some .one
    else if b = 0xE0 then some .e0
    else if b = 0xED then some .ed
    else if between 0xE1 b 0xEF then some .two
    else if b = 0xF0 then some .f0
    else if between 0xF1 b 0xF3 then some .three
    else if b = 0xF4 then some .f4
    else none
  | .one => if between 0x80 b 0xBF then some .start else none
  | .two => if between 0x80 b 0xBF then some .one else none
  | .three => if between 0x80 b 0xBF then some .two else none
  | .e0 => if between 0xA0 b 0xBF then some .one else none
  | .ed => if between 0x80 b 0x9F then some .one else none
  | .f0 => if between 0x90 b 0xBF then some .two else none
  | .f4 => if between 0x80 b 0x8F then some .two else none

/-- A string of bytes, from some point on. -/
def Utf8.run : Utf8 → Bytes → Option Utf8
  | state, [] => some state
  | state, b :: s => (state.next b).bind fun state => run state s

/-- The string is well-formed UTF-8. -/
def validUtf8 (s : Bytes) : Bool := decide (Utf8.run .start s = some .start)

theorem Utf8.run_append (state : Utf8) (s t : Bytes) :
    run state (s ++ t) = (run state s).bind fun state => run state t := by
  induction s generalizing state with
  | nil => rfl
  | cons b s ih =>
    simp only [List.cons_append, run]
    cases state.next b with
    | none => rfl
    | some state => exact ih state

theorem between_iff {low b high : UInt8} :
    between low b high = true ↔ low.toNat ≤ b.toNat ∧ b.toNat ≤ high.toNat := by
  simp [between, UInt8.le_iff_toNat_le]

theorem Utf8.next_ascii {b : UInt8} (h : isAscii b = true) : next b .start = some .start := by
  rw [next, if_pos h]

/-- An ASCII character stands only between two characters. -/
theorem Utf8.start_of_next {b : UInt8} {state after : Utf8} (h : isAscii b = true)
    (hnext : next b state = some after) : state = .start := by
  have hlow : ∀ low high : UInt8, 0x80 ≤ low.toNat → between low b high = false := by
    intro low high hlow
    rw [isAscii, between_iff] at h
    rw [Bool.eq_false_iff, Ne, between_iff]
    simp only [UInt8.reduceToNat] at h
    omega
  cases state with
  | start => rfl
  | one | two | three | e0 | ed | f0 | f4 =>
    rw [next, hlow _ _ (by decide), if_neg (by simp)] at hnext
    cases hnext

theorem Utf8.run_ascii {s : Bytes} (h : s.all isAscii = true) : run .start s = some .start := by
  induction s with
  | nil => rfl
  | cons b s ih =>
    rw [List.all_cons, Bool.and_eq_true] at h
    rw [run, next_ascii h.1, Option.bind_some]
    exact ih h.2

theorem validUtf8_iff {s : Bytes} : validUtf8 s = true ↔ Utf8.run .start s = some .start := by
  simp [validUtf8]

theorem validUtf8_append {s t : Bytes} (hs : validUtf8 s = true) (ht : validUtf8 t = true) :
    validUtf8 (s ++ t) = true := by
  rw [validUtf8_iff] at *
  rw [Utf8.run_append, hs, Option.bind_some, ht]

theorem validUtf8_ascii {s : Bytes} (h : s.all isAscii = true) : validUtf8 s = true :=
  validUtf8_iff.mpr (Utf8.run_ascii h)

/-- What is behind an ASCII prefix of a well-formed string is well-formed. -/
theorem validUtf8_drop_ascii {s t : Bytes} (hs : s.all isAscii = true)
    (h : validUtf8 (s ++ t) = true) : validUtf8 t = true := by
  rw [validUtf8_iff] at *
  rwa [Utf8.run_append, Utf8.run_ascii hs, Option.bind_some] at h

/-- What begins with an ASCII character in a well-formed string is well-formed. -/
theorem validUtf8_of_ascii_cons {s t : Bytes} {b : UInt8} (hb : isAscii b = true)
    (h : validUtf8 (s ++ b :: t) = true) : validUtf8 (b :: t) = true := by
  rw [validUtf8_iff] at *
  rw [Utf8.run_append, Option.bind_eq_some_iff] at h
  obtain ⟨state, -, hrun⟩ := h
  have hwas := hrun
  rw [Utf8.run, Option.bind_eq_some_iff] at hwas
  obtain ⟨after, hnext, -⟩ := hwas
  rwa [Utf8.start_of_next hb hnext] at hrun

/-! ### Values -/

/-- A JSON value. -/
inductive Json
  | null
  | boolean (b : Bool)
  | integer (n : ℤ)
  /-- A number with a fraction or an exponent, by its bits. -/
  | real (bits : UInt64)
  | string (s : Bytes)
  | array (items : List Json)
  | object (items : List (String × Json))

namespace Json

/-- A string that is written out in the source. -/
def literal (s : String) : Json := .string (ascii s)

mutual

/-- `dump` does not throw. -/
def dumps : Json → Bool
  | .string s => validUtf8 s
  | .array items => dumpsAll items
  | .object items => dumpsItems items
  | _ => true

/-- The values of an array. -/
def dumpsAll : List Json → Bool
  | [] => true
  | item :: rest => item.dumps && dumpsAll rest

/-- The items of an object. -/
def dumpsItems : List (String × Json) → Bool
  | [] => true
  | item :: rest => dumpsItem item && dumpsItems rest

/-- An item of an object. -/
def dumpsItem : String × Json → Bool
  | (_, value) => value.dumps

end

/-- The value under `key`. -/
def find (j : Json) (key : String) : Option Json :=
  match j with
  | .object items => items.lookup key
  | _ => none

/-- `contains`. -/
def contains (j : Json) (key : String) : Bool := (j.find key).isSome

/-- `value(key, default)` of a string; it throws where there is `none`. -/
def valueString (j : Json) (key : String) (default : Bytes) : Option Bytes :=
  match j with
  | .object items =>
    match items.lookup key with
    | none => some default
    | some (.string s) => some s
    | some _ => none
  | _ => none

/-- `value(key, default)` of a truth value; it throws where there is `none`. -/
def valueBool (j : Json) (key : String) (default : Bool) : Option Bool :=
  match j with
  | .object items =>
    match items.lookup key with
    | none => some default
    | some (.boolean b) => some b
    | some _ => none
  | _ => none

/-- The string under `key`, if there is one. -/
def stringAt (j : Json) (key : String) : Option Bytes :=
  match j.find key with
  | some (.string s) => some s
  | _ => none

@[simp] theorem dumps_string (s : Bytes) : (string s).dumps = validUtf8 s := rfl

@[simp] theorem dumps_boolean (b : Bool) : (boolean b).dumps = true := rfl

@[simp] theorem dumps_integer (n : ℤ) : (integer n).dumps = true := rfl

@[simp] theorem dumps_real (bits : UInt64) : (real bits).dumps = true := rfl

/-- An object can be written if its values can. -/
theorem dumps_object (items : List (String × Json)) :
    (object items).dumps = items.all fun item => item.2.dumps := by
  rw [show (object items).dumps = dumpsItems items from rfl]
  induction items with
  | nil => simp [dumpsItems]
  | cons item rest ih =>
    obtain ⟨key, value⟩ := item
    simp [dumpsItems, dumpsItem, ih]

theorem dumps_array (items : List Json) : (array items).dumps = items.all dumps := by
  rw [show (array items).dumps = dumpsAll items from rfl]
  induction items with
  | nil => simp [dumpsAll]
  | cons item rest ih => simp [dumpsAll, ih]

end Json

end AsrWorker
end OpenVoiceStream
