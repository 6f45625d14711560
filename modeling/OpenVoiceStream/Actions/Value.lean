import Mathlib.Data.Int.Notation
import Mathlib.Data.List.Basic
import OpenVoiceStream.Base.Assoc

/-!
# Values read from a YAML file

What `yaml.safe_load` yields and the built-ins of Python that are applied to it. Floats
are a type of their own. What `float`, `str`, `==` and `in` do with scalars that are
neither strings nor, for `float`, floats is left to a `Python`.

## Main definitions

* `Yaml`, `Yaml.field` — a loaded value, and `d.get(name)`.
* `Yaml.toFloat`, `Scalar.text`, `Yaml.contains`, `Yaml.setItem` — `float(x)`, `str(x)`,
  `k in x` and `x[k] = v`.
* `Library` — the YAML library and the hash, with the promise that what was dumped
  loads back.
-/

namespace OpenVoiceStream.Actions

/-- A scalar of a file; `other` stands for the kinds nothing here looks into, such as
dates. -/
inductive Scalar (F : Type) where
  | none
  | bool (b : Bool)
  | int (i : ℤ)
  | float (f : F)
  | str (s : String)
  | other (id : ℕ)

/-- A loaded value; a mapping has its items in the order of the file. -/
inductive Yaml (F : Type) where
  | scalar (s : Scalar F)
  | seq (items : List (Yaml F))
  | map (items : List (Scalar F × Yaml F))

/-- How `float(x)` fails, with the text of the exception. -/
inductive FloatError where
  | typeError (text : String)
  | valueError (text : String)
  | overflowError

/-- Python's built-ins on scalars, and the float literals of the module. -/
structure Python (F : Type) where
  /-- `float(x)` of what is no float. -/
  float : Scalar F → Except FloatError F
  /-- `str(x)` of what is no string. -/
  str : Scalar F → String
  /-- `x == y` of two scalars that are not both strings. -/
  same : Scalar F → Scalar F → Bool
  /-- `bool(x)` of a float, and of the other kinds. -/
  nonzero : F → Bool
  truthy : ℕ → Bool
  /-- `k in x` of the other kinds, none where it raises. -/
  contains : ℕ → Scalar F → Option Bool
  /-- `x <= y`. -/
  le : F → F → Bool
  /-- `repr(x)`, of a value and of a string, and a float in a message. -/
  repr : Yaml F → String
  reprStr : String → String
  format : F → String
  /-- `MIN_DELAY`, `MAX_DELAY`, and the delays `0.4` of a frame and `1.5` of a pose. -/
  minDelay : F
  maxDelay : F
  frameDelay : F
  poseDelay : F

variable {F : Type} (py : Python F)

namespace Scalar

/-- `str(x)`. -/
def text : Scalar F → String
  | .str s => s
  | s => py.str s

/-- `x == y`. -/
def eq : Scalar F → Scalar F → Bool
  | .str s, .str t => s == t
  | s, t => py.same s t

/-- Whether the scalar is the string `name`. -/
def isStr (name : String) : Scalar F → Bool
  | .str s => s == name
  | _ => false

/-- `bool(x)`. -/
def truthy : Scalar F → Bool
  | .none => false
  | .bool b => b
  | .int i => i != 0
  | .float f => py.nonzero f
  | .str s => s != ""
  | .other id => py.truthy id

@[simp] theorem text_str (s : String) : text py (.str s) = s := rfl

@[simp] theorem isStr_str (name s : String) : isStr (F := F) name (.str s) = (s == name) := rfl

end Scalar

namespace Yaml

/-- `d.get(name)` of a mapping with these items. -/
def field (items : List (Scalar F × Yaml F)) (name : String) : Option (Yaml F) :=
  (items.find? fun item => item.1.isStr name).map Prod.snd

/-- `bool(x)`. -/
def truthy : Yaml F → Bool
  | .scalar s => s.truthy py
  | .seq items => !items.isEmpty
  | .map items => !items.isEmpty

/-- `float(x)`. -/
def toFloat : Yaml F → Except FloatError F
  | .scalar (.float f) => .ok f
  | .scalar s => py.float s
  | .seq _ => .error (.typeError "float() argument must be a string or a real number, not 'list'")
  | .map _ => .error (.typeError "float() argument must be a string or a real number, not 'dict'")

/-- `key in x`, none where it raises. -/
def contains : Yaml F → Scalar F → Option Bool
  | .map items, key => some (items.any fun item => item.1.eq py key)
  | .seq items, key => some (items.any fun
      | .scalar s => s.eq py key
      | _ => false)
  | .scalar (.str s), .str part => some (s.toList.tails.any part.toList.isPrefixOf)
  | .scalar (.other id), key => py.contains id key
  | .scalar _, _ => none

/-- The place in a list of this length that an index names. -/
def listIndex (length : ℕ) : Scalar F → Option ℕ
  | .int i =>
    if 0 ≤ i ∧ i < length then some i.toNat
    else if i < 0 ∧ 0 ≤ i + length then some (i + length).toNat
    else none
  | .bool b => if b.toNat < length then some b.toNat else none
  | _ => none

/-- `x[key] = value` for a key that is not in `x`, none where it raises. -/
def setItem : Yaml F → Scalar F → Yaml F → Option (Yaml F)
  | .map items, key, value => some (.map (items ++ [(key, value)]))
  | .seq items, key, value =>
    (listIndex items.length key).map fun i => .seq (items.set i value)
  | .scalar _, _, _ => none

/-- Items under strings. -/
def keyed (items : List (String × Yaml F)) : List (Scalar F × Yaml F) :=
  items.map fun item => (.str item.1, item.2)

/-- A value of strings, floats, lists and dictionaries under distinct strings. -/
inductive Plain : Yaml F → Prop where
  | str (s : String) : Plain (.scalar (.str s))
  | float (f : F) : Plain (.scalar (.float f))
  | seq {items : List (Yaml F)} (h : ∀ item ∈ items, Plain item) : Plain (.seq items)
  | dict {items : List (String × Yaml F)} (hkeys : (items.map Prod.fst).Nodup)
      (h : ∀ item ∈ items, Plain item.2) :
      Plain (.map (keyed items))

@[simp] theorem toFloat_float (f : F) : toFloat py (.scalar (.float f)) = .ok f := rfl

@[simp] theorem field_cons (key : String) (value : Yaml F) (items : List (Scalar F × Yaml F))
    (name : String) :
    field ((.str key, value) :: items) name =
      if key = name then some value else field items name := by
  unfold field
  by_cases h : key = name <;> simp [h]

@[simp] theorem field_keyed_cons (item : String × Yaml F) (items : List (String × Yaml F))
    (name : String) :
    field (keyed (item :: items)) name =
      if item.1 = name then some item.2 else field (keyed items) name :=
  field_cons item.1 item.2 (keyed items) name

@[simp] theorem field_keyed_nil (name : String) : field (F := F) (keyed []) name = none := rfl

@[simp] theorem field_nil (name : String) : field ([] : List (Scalar F × Yaml F)) name = none := rfl

end Yaml

/-- What `yaml.safe_load` does with a file: a value, a `YAMLError`, or another
exception, such as for text that is not UTF-8. -/
inductive Loaded (F : Type) where
  | value (data : Yaml F)
  | yamlError
  | raises

/-- The YAML library and the hash over the contents `τ` of files. -/
structure Library (F τ : Type) where
  load : τ → Loaded F
  dump : Yaml F → τ
  /-- Bytes of a file, its `st_size`. -/
  size : τ → ℕ
  /-- `sha256(raw).hexdigest()[:16]`. -/
  digest : τ → String
  /-- What `safe_dump` writes of a plain value, `safe_load` reads back. -/
  load_dump : ∀ data, data.Plain → load (dump data) = .value data

end OpenVoiceStream.Actions
