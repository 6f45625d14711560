import Mathlib.Algebra.Order.Ring.Int
import Mathlib.Data.List.Basic
import Mathlib.Data.List.TakeDrop
import Mathlib.Data.List.TakeWhile
import Mathlib.Data.Int.Notation
import OpenVoiceStream.Base.Template

/-!
# The request lines of the RK1828 worker

The HTTP server of the RK1828 writes each request as one line, and the worker reads it back. A
request with tools is a line of version 2, with the tools as JSON; a request without tools is a
line with a number and a prompt. What the worker makes of the line of a request is what was put
into it (`parseLine_requestLine`), and no request breaks its line (`getlines_requestLines`).

The texts are those of characters; the separators are ASCII, so that the bytes of a line are cut
where its characters are.

## Main definitions

* `escape`, `unescape` — the two ends of a field.
* `ChatRequest`, `requestLine` — what the server writes.
* `splitTab`, `strtol`, `parseLine`, `getlines` — what the worker reads.

## Main results

* `unescape_escape`, `parseLine_requestLine`, `getlines_requestLines`.
-/

namespace OpenVoiceStream
namespace Rk1828

/-! ### The server -/

/-- A tool, as `json.dumps` writes it: control characters are escaped there. -/
structure Tool where
  json : Text
  printable : ∀ c ∈ json, 0x20 ≤ c.toNat

/-- A request to `/v1/chat/completions`, behind `build_prompt`. -/
structure ChatRequest where
  prompt : Text
  maxTokens : Option ℤ
  tools : Option (List Tool)

/-- `TOOL_MIN_MAX_TOKENS`. -/
def toolMinMaxTokens : ℤ := 320

/-- `if tools:`. -/
def ChatRequest.hasTools (r : ChatRequest) : Bool := !(r.tools.getD []).isEmpty

/-- `max_new`: `int(req.max_tokens or 512)`, and a floor where there are tools. -/
def ChatRequest.maxNew (r : ChatRequest) : ℤ :=
  let n := match r.maxTokens with
    | none | some 0 => 512
    | some n => n
  if r.hasTools && n < toolMinMaxTokens then toolMinMaxTokens else n

/-- `json.dumps(tools, ensure_ascii=False)`. -/
def toolsJson (tools : List Tool) : Text :=
  '[' :: (List.intercalate ", ".toList (tools.map Tool.json) ++ "]".toList)

/-- `str.replace`, for a single character. -/
def replace (text : Text) (c : Char) (new : Text) : Text :=
  text.flatMap fun d => if d = c then new else [d]

/-- `_escape`. -/
def escape (text : Text) : Text :=
  replace (replace (replace (replace text '\\' "\\\\".toList) '\n' "\\n".toList) '\r' "\\r".toList)
    '\t' "\\t".toList

/-- A number, as `str` writes it. -/
def decimal : ℤ → Text
  | .ofNat n => Nat.toDigits 10 n
  | .negSucc n => '-' :: Nat.toDigits 10 (n + 1)

/-- The line of `_run_request`, without its end. -/
def requestLine (r : ChatRequest) : Text :=
  if r.hasTools then
    "V2\t".toList ++ decimal r.maxNew ++ "\t0\t".toList ++ escape (toolsJson (r.tools.getD [])) ++
      "\t1\t\t".toList ++ escape r.prompt
  else decimal r.maxNew ++ "\t".toList ++ escape r.prompt

/-! ### The worker -/

/-- `unescape_request`. -/
def unescape : Text → Text
  | '\\' :: c :: rest =>
    (if c = 'n' then ['\n'] else if c = 't' then ['\t'] else if c = 'r' then ['\r']
      else if c = '\\' then ['\\'] else ['\\', c]) ++ unescape rest
  | c :: rest => c :: unescape rest
  | [] => []

/-- The fields of a line, which are separated by tabs. -/
def splitTab : Text → List Text
  | [] => [[]]
  | c :: rest =>
    if c = '\t' then [] :: splitTab rest
    else
      match splitTab rest with
      | [] => [[c]]
      | field :: fields => (c :: field) :: fields

/-- `isspace` of C. -/
def isSpaceC (c : Char) : Bool := c = ' ' || (9 ≤ c.toNat && c.toNat ≤ 13)

/-- The digits in front of a text, as a number. -/
def digits (text : Text) : ℕ := Nat.ofDigitChars 10 (text.takeWhile Char.isDigit) 0

/-- A number with a sign, or without, behind white space. -/
def signed (text : Text) : ℤ :=
  match text.dropWhile isSpaceC with
  | '-' :: rest => -(digits rest : ℤ)
  | '+' :: rest => digits rest
  | rest => digits rest

/-- `strtol(…, NULL, 10)`, which stops at the ends of a `long`. -/
def strtol (text : Text) : ℤ := max (-2 ^ 63) (min (2 ^ 63 - 1) (signed text))

/-- `(int32_t)`. -/
def int32 (n : ℤ) : ℤ := Int.bmod n (2 ^ 32)

/-- `ServerTurn`. -/
structure ServerTurn where
  role : Text
  text : Text
  deriving DecidableEq, Repr

/-- What a line asks for. -/
structure Parsed where
  maxNew : ℤ := 256
  keep : ℤ := 0
  tools : Text := []
  turns : List ServerTurn := []
  deriving DecidableEq, Repr

/-- The number of tokens of a request, if it is positive. -/
def positiveOr256 (n : ℤ) : ℤ := if n ≤ 0 then 256 else n

/-- The turns of a line of version 2, two fields each. -/
def pairs : ℕ → List Text → List ServerTurn
  | n + 1, role :: text :: rest => { role := role, text := unescape text } :: pairs n rest
  | _, _ => []

/-- The request in a line. -/
def parseLine (line : Text) : Parsed :=
  if "V2\t".toList.isPrefixOf line then
    match splitTab (line.drop 3) with
    | maxNew :: keep :: tools :: count :: turns =>
      let n := int32 (strtol count)
      { maxNew := positiveOr256 (int32 (strtol maxNew))
        keep := int32 (strtol keep)
        tools := unescape tools
        turns := if 0 < n ∧ 2 * n ≤ turns.length then pairs n.toNat turns else [] }
    | _ => {}
  else
    match line.span (· ≠ '\t') with
    | (text, []) => { turns := [{ role := [], text := unescape text }] }
    | (maxNew, _ :: text) =>
      { maxNew := positiveOr256 (int32 (strtol maxNew))
        turns := [{ role := [], text := unescape text }] }

/-- `std::getline`, over and over: the lines of the input, without their ends. -/
def getlines : Text → List Text
  | [] => []
  | c :: rest =>
    if c = '\n' then [] :: getlines rest
    else
      match getlines rest with
      | [] => [[c]]
      | line :: lines => (c :: line) :: lines

/-! ### Fields -/

/-- What becomes of one character. -/
def escapeChar (c : Char) : Text :=
  if c = '\\' then ['\\', '\\'] else if c = '\n' then ['\\', 'n']
  else if c = '\r' then ['\\', 'r'] else if c = '\t' then ['\\', 't'] else [c]

/-- The four replacements do not meet. -/
theorem escape_eq (text : Text) : escape text = text.flatMap escapeChar := by
  unfold escape replace
  rw [List.flatMap_assoc, List.flatMap_assoc, List.flatMap_assoc]
  congr 1
  funext c
  unfold escapeChar
  by_cases hback : c = '\\'
  · subst hback
    decide
  by_cases hnew : c = '\n'
  · subst hnew
    decide
  by_cases hret : c = '\r'
  · subst hret
    decide
  by_cases htab : c = '\t'
  · subst htab
    decide
  simp [hback, hnew, hret, htab]

theorem unescape_cons {c : Char} (hc : c ≠ '\\') (rest : Text) :
    unescape (c :: rest) = c :: unescape rest := by
  conv_lhs => unfold unescape
  split
  · next heq => exact absurd (List.cons.inj heq).1 hc
  · next heq =>
    obtain ⟨rfl, rfl⟩ := List.cons.inj heq
    rfl
  · next heq => cases heq

/-- **A field is read as it was written.** -/
theorem unescape_escape (text : Text) : unescape (escape text) = text := by
  rw [escape_eq]
  induction text with
  | nil => rfl
  | cons c rest ih =>
    rw [List.flatMap_cons]
    by_cases hback : c = '\\'
    · subst hback
      exact congrArg ('\\' :: ·) ih
    by_cases hnew : c = '\n'
    · subst hnew
      exact congrArg ('\n' :: ·) ih
    by_cases hret : c = '\r'
    · subst hret
      exact congrArg ('\r' :: ·) ih
    by_cases htab : c = '\t'
    · subst htab
      exact congrArg ('\t' :: ·) ih
    have hplain : escapeChar c = [c] := by simp [escapeChar, hback, hnew, hret, htab]
    rw [hplain, List.singleton_append, unescape_cons hback, ih]

/-- A field holds no separator. -/
theorem not_mem_escape {text : Text} {c : Char} (hc : c = '\n' ∨ c = '\r' ∨ c = '\t') :
    c ∉ escape text := by
  rw [escape_eq, List.mem_flatMap]
  rintro ⟨d, -, hd⟩
  unfold escapeChar at hd
  split at hd
  · rcases hc with rfl | rfl | rfl <;> revert hd <;> decide
  · split at hd
    · rcases hc with rfl | rfl | rfl <;> revert hd <;> decide
    · next hnew =>
      split at hd
      · rcases hc with rfl | rfl | rfl <;> revert hd <;> decide
      · next hret =>
        split at hd
        · rcases hc with rfl | rfl | rfl <;> revert hd <;> decide
        · next htab =>
          obtain rfl := List.mem_singleton.mp hd
          rcases hc with hc | hc | hc
          · exact hnew hc
          · exact hret hc
          · exact htab hc

theorem splitTab_single {field : Text} (h : '\t' ∉ field) : splitTab field = [field] := by
  induction field with
  | nil => rfl
  | cons c rest ih =>
    rw [List.mem_cons, not_or] at h
    rw [splitTab, if_neg (Ne.symm h.1), ih h.2]

theorem splitTab_append {field : Text} (h : '\t' ∉ field) (rest : Text) :
    splitTab (field ++ '\t' :: rest) = field :: splitTab rest := by
  induction field with
  | nil => rfl
  | cons c more ih =>
    rw [List.mem_cons, not_or] at h
    rw [List.cons_append, splitTab, if_neg (Ne.symm h.1), ih h.2]

/-! ### Numbers -/

theorem isDigit_of_mem_toDigits {n : ℕ} {c : Char} (h : c ∈ Nat.toDigits 10 n) : c.isDigit :=
  Nat.isDigit_of_mem_toDigits (by decide) (by decide) h

theorem not_mem_decimal {n : ℤ} {c : Char} (hdigit : ¬c.isDigit) (hminus : c ≠ '-') :
    c ∉ decimal n := by
  intro h
  cases n with
  | ofNat n => exact hdigit (isDigit_of_mem_toDigits h)
  | negSucc n =>
    rcases List.mem_cons.mp h with h | h
    · exact hminus h
    · exact hdigit (isDigit_of_mem_toDigits h)

theorem digits_toDigits (n : ℕ) : digits (Nat.toDigits 10 n) = n := by
  have hall : (Nat.toDigits 10 n).takeWhile Char.isDigit = Nat.toDigits 10 n :=
    List.takeWhile_eq_self_iff.mpr fun _ hc => isDigit_of_mem_toDigits hc
  rw [digits, hall, Nat.ofDigitChars_ten_toDigits]

theorem toDigits_cons (n : ℕ) : ∃ c rest, Nat.toDigits 10 n = c :: rest ∧ c.isDigit := by
  have hne : Nat.toDigits 10 n ≠ [] := Nat.toDigits_ne_nil
  obtain ⟨c, rest, hdigits⟩ := List.exists_cons_of_ne_nil hne
  exact ⟨c, rest, hdigits, isDigit_of_mem_toDigits (hdigits ▸ List.mem_cons_self)⟩

theorem le_toNat_of_isDigit {c : Char} (h : c.isDigit) : 48 ≤ c.toNat := by
  rw [Char.isDigit, Bool.and_eq_true, decide_eq_true_eq] at h
  exact h.1

/-- What `str` wrote is read again. -/
theorem signed_decimal (n : ℤ) : signed (decimal n) = n := by
  unfold signed
  cases n with
  | ofNat n =>
    obtain ⟨c, rest, hdigits, hdigit⟩ := toDigits_cons n
    have hle := le_toNat_of_isDigit hdigit
    have hspace : ¬isSpaceC c := by
      intro hspace
      simp only [isSpaceC, Bool.or_eq_true, decide_eq_true_eq, Bool.and_eq_true] at hspace
      rcases hspace with rfl | hspace
      · exact absurd hle (by decide)
      · omega
    have hfront : (decimal (.ofNat n)).dropWhile isSpaceC = c :: rest := by
      rw [decimal, hdigits, List.dropWhile_cons_of_neg hspace]
    rw [hfront]
    split
    · next heq =>
      rw [(List.cons.inj heq).1] at hle
      exact absurd hle (by decide)
    · next heq =>
      rw [(List.cons.inj heq).1] at hle
      exact absurd hle (by decide)
    · rw [← hdigits, digits_toDigits]
      rfl
  | negSucc n =>
    have hfront : (decimal (.negSucc n)).dropWhile isSpaceC = decimal (.negSucc n) :=
      List.dropWhile_cons_of_neg (by decide)
    rw [hfront]
    show -(digits (Nat.toDigits 10 (n + 1)) : ℤ) = _
    rw [digits_toDigits]
    rfl

theorem strtol_decimal (n : ℤ) : strtol (decimal n) = max (-2 ^ 63) (min (2 ^ 63 - 1) n) := by
  rw [strtol, signed_decimal]

/-! ### Lines -/

/-- What the worker makes of the number of tokens of a request. -/
def ChatRequest.workerMaxNew (r : ChatRequest) : ℤ :=
  positiveOr256 (int32 (max (-2 ^ 63) (min (2 ^ 63 - 1) r.maxNew)))

/-- The tools as the worker is handed them, empty if there are none. -/
def ChatRequest.toolsText (r : ChatRequest) : Text :=
  if r.hasTools then toolsJson (r.tools.getD []) else []

theorem toolsJson_ne_nil (tools : List Tool) : toolsJson tools ≠ [] := List.cons_ne_nil _ _

theorem toolsText_ne_nil {r : ChatRequest} (h : r.hasTools = true) : r.toolsText ≠ [] := by
  rw [ChatRequest.toolsText, if_pos h]
  exact toolsJson_ne_nil _

theorem tab_not_mem_decimal (n : ℤ) : '\t' ∉ decimal n :=
  not_mem_decimal (by decide) (by decide)

theorem decimal_cons (n : ℤ) : ∃ c rest, decimal n = c :: rest := by
  cases n with
  | ofNat n =>
    obtain ⟨c, rest, hdigits, -⟩ := toDigits_cons n
    exact ⟨c, rest, hdigits⟩
  | negSucc n => exact ⟨'-', _, rfl⟩

theorem span_tab {field : Text} (h : '\t' ∉ field) (rest : Text) :
    (field ++ '\t' :: rest).span (· ≠ '\t') = (field, '\t' :: rest) := by
  rw [List.span_eq_takeWhile_dropWhile]
  induction field with
  | nil => rfl
  | cons c more ih =>
    rw [List.mem_cons, not_or] at h
    have hc : (fun d : Char => decide (d ≠ '\t')) c = true := decide_eq_true (Ne.symm h.1)
    obtain ⟨htake, hdrop⟩ := Prod.mk.inj (ih h.2)
    rw [List.cons_append, List.takeWhile_cons_of_pos (p := fun d => decide (d ≠ '\t')) hc,
      List.dropWhile_cons_of_pos (p := fun d => decide (d ≠ '\t')) hc, htake, hdrop]

/-- The text of a line, with the tools or without. -/
def lineText (maxNew : ℤ) (tools : Option Text) (prompt : Text) : Text :=
  match tools with
  | some json =>
    "V2\t".toList ++ decimal maxNew ++ "\t0\t".toList ++ escape json ++ "\t1\t\t".toList ++
      escape prompt
  | none => decimal maxNew ++ "\t".toList ++ escape prompt

theorem lineText_some (maxNew : ℤ) (json prompt : Text) :
    lineText maxNew (some json) prompt =
      "V2\t".toList ++ decimal maxNew ++ "\t0\t".toList ++ escape json ++ "\t1\t\t".toList ++
        escape prompt := rfl

theorem lineText_none (maxNew : ℤ) (prompt : Text) :
    lineText maxNew none prompt = decimal maxNew ++ "\t".toList ++ escape prompt := rfl

/-- The fields of a line of version 2. -/
theorem lineText_some_fields (maxNew : ℤ) (json prompt : Text) :
    lineText maxNew (some json) prompt = "V2\t".toList ++ (decimal maxNew ++ '\t' ::
      (['0'] ++ '\t' :: (escape json ++ '\t' :: (['1'] ++ '\t' :: ([] ++ '\t' ::
        escape prompt))))) := by
  simp [lineText_some]

theorem lineText_none_fields (maxNew : ℤ) (prompt : Text) :
    lineText maxNew none prompt = decimal maxNew ++ '\t' :: escape prompt := by
  simp [lineText_none]

/-- Only a line with tools is one of version 2. -/
theorem isPrefixOf_lineText (maxNew : ℤ) (tools : Option Text) (prompt : Text) :
    "V2\t".toList.isPrefixOf (lineText maxNew tools prompt) = tools.isSome := by
  cases tools with
  | some json => exact List.isPrefixOf_iff_prefix.mpr ⟨_, (lineText_some_fields maxNew json prompt).symm⟩
  | none =>
    refine Bool.eq_false_iff.mpr fun htrue => ?_
    have hprefix := List.isPrefixOf_iff_prefix.mp htrue
    obtain ⟨c, rest, hdecimal⟩ := decimal_cons maxNew
    have hv : 'V' = c := by
      rw [lineText_none_fields, hdecimal] at hprefix
      exact (List.cons_prefix_cons.mp hprefix).1
    have hmem : 'V' ∈ decimal maxNew := by
      rw [hdecimal, hv]
      exact List.mem_cons_self
    exact not_mem_decimal (by decide) (by decide) hmem

/-- **The worker reads what is in a line.** -/
theorem parseLine_lineText (maxNew : ℤ) (tools : Option Text) (prompt : Text) :
    parseLine (lineText maxNew tools prompt) =
      { maxNew := positiveOr256 (int32 (max (-2 ^ 63) (min (2 ^ 63 - 1) maxNew)))
        keep := 0
        tools := tools.getD []
        turns := [{ role := [], text := prompt }] } := by
  cases tools with
  | some json =>
    have hversion : "V2\t".toList.isPrefixOf (lineText maxNew (some json) prompt) = true :=
      isPrefixOf_lineText maxNew (some json) prompt
    have hfields : splitTab ((lineText maxNew (some json) prompt).drop 3) =
        [decimal maxNew, ['0'], escape json, ['1'], [], escape prompt] := by
      rw [lineText_some_fields]
      show splitTab (decimal maxNew ++ _) = _
      rw [splitTab_append (tab_not_mem_decimal _), splitTab_append (by decide),
        splitTab_append (not_mem_escape (.inr (.inr rfl))), splitTab_append (by decide),
        splitTab_append (by decide), splitTab_single (not_mem_escape (.inr (.inr rfl)))]
    have hone : int32 (strtol ['1']) = 1 := by decide
    have hzero : int32 (strtol ['0']) = 0 := by decide
    have hturns : pairs 1 [[], escape prompt] = [{ role := [], text := prompt }] := by
      rw [pairs, unescape_escape]
      rfl
    rw [parseLine, if_pos hversion, hfields]
    dsimp only
    rw [hone, hzero, if_pos ⟨by decide, by simp⟩, strtol_decimal, unescape_escape]
    exact congrArg _ hturns
  | none =>
    have hversion : ¬"V2\t".toList.isPrefixOf (lineText maxNew none prompt) = true :=
      Bool.eq_false_iff.mp (isPrefixOf_lineText maxNew none prompt)
    rw [parseLine, if_neg hversion, lineText_none_fields,
      span_tab (tab_not_mem_decimal _)]
    dsimp only
    rw [strtol_decimal, unescape_escape]
    rfl

/-- A line has no end in it. -/
theorem not_mem_lineText (maxNew : ℤ) (tools : Option Text) (prompt : Text) {c : Char}
    (hc : c = '\n' ∨ c = '\r') : c ∉ lineText maxNew tools prompt := by
  have hdecimal : c ∉ decimal maxNew := by
    rcases hc with rfl | rfl <;> exact not_mem_decimal (by decide) (by decide)
  have hfield : ∀ text, c ∉ escape text := fun text =>
    not_mem_escape (hc.imp_right .inl)
  have hplain : c ∉ "V2\t".toList ∧ c ∉ "\t0\t".toList ∧ c ∉ "\t1\t\t".toList ∧
      c ∉ "\t".toList := by
    rcases hc with rfl | rfl <;> decide
  obtain ⟨hversion, hkeep, hcount, htab⟩ := hplain
  cases tools with
  | some json =>
    simp only [lineText_some, List.mem_append, not_or]
    exact ⟨⟨⟨⟨⟨hversion, hdecimal⟩, hkeep⟩, hfield _⟩, hcount⟩, hfield _⟩
  | none =>
    simp only [lineText_none, List.mem_append, not_or]
    exact ⟨⟨hdecimal, htab⟩, hfield _⟩

/-- The tools of a request, if it has any. -/
def ChatRequest.toolsLine (r : ChatRequest) : Option Text :=
  if r.hasTools then some (toolsJson (r.tools.getD [])) else none

theorem requestLine_eq (r : ChatRequest) :
    requestLine r = lineText r.maxNew r.toolsLine r.prompt := by
  unfold requestLine ChatRequest.toolsLine
  split <;> rfl

theorem toolsText_eq (r : ChatRequest) : r.toolsText = r.toolsLine.getD [] := by
  unfold ChatRequest.toolsText ChatRequest.toolsLine
  split <;> rfl

/-- **The worker reads what the request says.** -/
theorem parseLine_requestLine (r : ChatRequest) :
    parseLine (requestLine r) =
      { maxNew := r.workerMaxNew
        keep := 0
        tools := r.toolsText
        turns := [{ role := [], text := r.prompt }] } := by
  rw [requestLine_eq, parseLine_lineText, toolsText_eq]
  rfl

theorem not_mem_requestLine (r : ChatRequest) {c : Char} (hc : c = '\n' ∨ c = '\r') :
    c ∉ requestLine r := by
  rw [requestLine_eq]
  exact not_mem_lineText _ _ _ hc

theorem getlines_append {line : Text} (h : '\n' ∉ line) (rest : Text) :
    getlines (line ++ '\n' :: rest) = line :: getlines rest := by
  induction line with
  | nil => rfl
  | cons c more ih =>
    rw [List.mem_cons, not_or] at h
    rw [List.cons_append, getlines, if_neg (Ne.symm h.1), ih h.2]

/-- **One request is one line**, whatever the requests say. -/
theorem getlines_requestLines (requests : List ChatRequest) :
    getlines (requests.map fun r => requestLine r ++ ['\n']).flatten =
      requests.map requestLine := by
  induction requests with
  | nil => rfl
  | cons r rest ih =>
    rw [List.map_cons, List.flatten_cons, List.append_assoc, List.singleton_append,
      getlines_append (not_mem_requestLine r (.inl rfl)), ih, List.map_cons]

end Rk1828
end OpenVoiceStream
