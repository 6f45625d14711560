import Mathlib.Data.Rat.Defs
import Mathlib.Data.List.Basic

/-!
# JSON values as Python holds them

Payloads, profiles and policies are JSON objects that the code reads field by
field, with Python's truth values and defaults.

What the standard library computes from a text or prints for a value is a
parameter, `Builtins`, so that nothing depends on how it prints a float or which
characters it takes for blanks.

## Main definitions

* `Value`, `Dict` — a JSON value and a JSON object.
* `Value.truthy`, `Value.or` — Python's truth value and its `or`.
* `Builtins` — the library functions on texts.

## Main results

* `bind_eq_ok` — a computation that comes through has come through its first step.
-/

namespace OpenVoiceStream

/-- A JSON value. -/
inductive Value
  | none
  | bool (b : Bool)
  | int (n : ℤ)
  | float (q : ℚ)
  | str (s : String)
  | list (values : List Value)
  | dict (items : List (String × Value))

/-- A JSON object, its keys in order of insertion. -/
abbrev Dict := List (String × Value)

namespace Value

/-- Python's truth value. -/
def truthy : Value → Bool
  | none => false
  | bool b => b
  | int n => decide (n ≠ 0)
  | float q => decide (q ≠ 0)
  | str s => decide (s ≠ "")
  | list values => !values.isEmpty
  | dict items => !items.isEmpty

/-- Python's `or`. -/
def or (v w : Value) : Value := if v.truthy then v else w

/-- `v == text`. -/
def isText (v : Value) (text : String) : Bool :=
  match v with
  | str s => s = text
  | _ => false

theorem isText_iff {v : Value} {text : String} : v.isText text = true ↔ v = .str text := by
  cases v <;> simp [isText]

/-- An optional text as the JSON value for it. -/
def ofId : Option String → Value
  | some id => .str id
  | Option.none => .none

end Value

namespace Dict

/-- `d.get(key, default)`. -/
def getD (d : Dict) (key : String) (default : Value) : Value := (d.lookup key).getD default

/-- `d.get(key)`. -/
def get (d : Dict) (key : String) : Value := d.getD key .none

/-- `d.setdefault(key, value)`, as the object after it. -/
def setdefault (d : Dict) (key : String) (value : Value) : Dict :=
  if (d.lookup key).isSome then d else d ++ [(key, value)]

end Dict

/-- A computation that comes through has come through its first step. -/
theorem bind_eq_ok {ε α β : Type} {x : Except ε α} {f : α → Except ε β} {b : β}
    (h : x >>= f = .ok b) : ∃ a, x = .ok a ∧ f a = .ok b := by
  cases x with
  | error e => cases h
  | ok a => exact ⟨a, rfl, h⟩

/-- What Python's library computes from texts and prints for values. -/
structure Builtins where
  /-- `str(v)` of a value that is not a text. -/
  repr : Value → String
  /-- `json.dumps` of an object with no blanks. -/
  dumps : Dict → String
  /-- `int(text)`, or `none` where it raises `ValueError`. -/
  int : String → Option ℤ
  /-- `text.lower()`. -/
  lower : String → String
  /-- `text.strip()`. -/
  strip : String → String

/-- `str(v)`. -/
def Builtins.str (py : Builtins) : Value → String
  | .str s => s
  | v => py.repr v

/-- Library functions for runs that print no value and parse no text. -/
def Builtins.plain : Builtins :=
  { repr := fun _ => "", dumps := fun _ => "", int := fun _ => none, lower := id, strip := id }

/-- `part in text`. -/
def textContains (text part : String) : Bool :=
  text.toList.tails.any fun rest => part.toList.isPrefixOf rest

end OpenVoiceStream
