import Mathlib.Data.List.Basic

/-!
# Templates

`string.Template.safe_substitute`: `$name` and `${name}` stand for the values of variables,
`$$` for a dollar sign.  A variable without a value is left as it is, and so is every other
dollar sign.

The scanner is an automaton that reads one character after the other; its state is what it has
read since the last dollar sign.

## Main definitions

* `Template.safeSubstitute` — the substitution.
-/

/-- The texts. -/
abbrev Text := List Char

instance instLawfulBEqText : LawfulBEq Text := inferInstanceAs (LawfulBEq (List Char))

namespace Template

/-- A character that can begin the name of a variable. -/
def isIdStart (c : Char) : Bool := c = '_' || c.isAlpha

/-- A character that can stand in the name of a variable. -/
def isIdChar (c : Char) : Bool := isIdStart c || c.isDigit

/-- What has been read since the last dollar sign. -/
inductive Scan
  | plain
  | dollar
  | named (name : Text)
  | braced (name : Text)
  deriving DecidableEq, Repr

/-- The variable `name`, which stands in the template as `raw`. -/
def emit (lookup : Text → Option Text) (name raw : Text) : Text := (lookup name).getD raw

/-- What is emitted when the template ends. -/
def finish (lookup : Text → Option Text) : Scan → Text
  | .plain => []
  | .dollar => ['$']
  | .named name => emit lookup name ('$' :: name)
  | .braced name => '$' :: '{' :: name

/-- One character: what is emitted before it, whether it is read as plain text now, and what is
read next. -/
def scanChar (lookup : Text → Option Text) (c : Char) : Scan → Text × Scan
  | .plain => if c = '$' then ([], .dollar) else ([c], .plain)
  | .dollar =>
    if c = '$' then (['$'], .plain)
    else if c = '{' then ([], .braced [])
    else if isIdStart c then ([], .named [c])
    else (['$', c], .plain)
  | .named name =>
    if isIdChar c then ([], .named (name ++ [c]))
    else if c = '$' then (emit lookup name ('$' :: name), .dollar)
    else (emit lookup name ('$' :: name) ++ [c], .plain)
  | .braced name =>
    if c = '}' ∧ name ≠ [] then
      (emit lookup name ('$' :: '{' :: name ++ ['}']), .plain)
    else if (if name = [] then isIdStart c else isIdChar c) then ([], .braced (name ++ [c]))
    else if c = '$' then ('$' :: '{' :: name, .dollar)
    else ('$' :: '{' :: name ++ [c], .plain)

/-- The scanner. -/
def scan (lookup : Text → Option Text) : Scan → Text → Text
  | mode, [] => finish lookup mode
  | mode, c :: rest => (scanChar lookup c mode).1 ++ scan lookup (scanChar lookup c mode).2 rest

/-- `Template(value).safe_substitute(mapping)`. -/
def safeSubstitute (lookup : Text → Option Text) (value : Text) : Text := scan lookup .plain value

example : safeSubstitute (fun name => if name = ['A'] then some ['x', 'y'] else none)
    "a$A/${A}b$$${B}$".toList = "axy/xyb$${B}$".toList := by
  decide

end Template
