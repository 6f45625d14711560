import Mathlib.Data.List.DropRight
import OpenVoiceStream.Base.Wire
import OpenVoiceStream.Rk1828.Line

/-!
# The bytes of a request line

The HTTP server sends a request in UTF-8, and the worker knows bytes only: a `std::string` of it is
a text whose characters are bytes.  Whatever the prompt and the tools are, the worker finds one
line, and in it their bytes and the number of tokens.

## Main definitions

* `runRequestLine` — the bytes that `_run_request` writes.
* `trimEnd`, `readLine`, `serverRequests` — the loop of `run_server`.

## Main results

* `wire_lineText` — a line in UTF-8 is the line of what it says in UTF-8.
* `runRequestLine_survives` — the worker reads what the server was asked for.
-/

namespace OpenVoiceStream
namespace Rk1828

variable {τ : Type}

/-! ### The server -/

/-- `if tools:`. -/
def anyTools (tools : Option (List τ)) : Bool := !(tools.getD []).isEmpty

/-- The bytes that `_run_request` writes, where `dumps` is `json.dumps(…, ensure_ascii=False)`. -/
def runRequestLine (dumps : List τ → Text) (prompt : Text) (maxNewTokens : ℤ)
    (tools : Option (List τ)) : List UInt8 :=
  if anyTools tools then
    utf8 ("V2\t".toList ++ decimal maxNewTokens ++ "\t0\t".toList ++
      escape (dumps (tools.getD [])) ++ "\t1\t\t".toList ++ escape prompt ++ "\n".toList)
  else utf8 (decimal maxNewTokens ++ "\t".toList ++ escape prompt ++ "\n".toList)

/-! ### The worker -/

/-- `line.pop_back()`, while the line ends with a carriage return or a newline. -/
def trimEnd (line : Text) : Text := line.rdropWhile fun c => c = '\r' ∨ c = '\n'

/-- What is done with a line: nothing but the end of a stream for an empty one. -/
def readLine (line : Text) : Option Parsed :=
  if (trimEnd line).isEmpty then none else some (parseLine (trimEnd line))

/-- The requests of `run_server` for the bytes of its input, one for each line. -/
def serverRequests (input : List UInt8) : List (Option Parsed) :=
  (getlines (chars input)).map readLine

/-! ### Lines in UTF-8 -/

theorem escapeChar_of_le {c : Char} (hc : 128 ≤ c.toNat) : escapeChar c = [c] := by
  have hne : ∀ d : Char, d.toNat < 128 → c ≠ d := by
    rintro d hd rfl
    omega
  rw [escapeChar, if_neg (hne '\\' (by decide)), if_neg (hne '\n' (by decide)),
    if_neg (hne '\r' (by decide)), if_neg (hne '\t' (by decide))]

theorem lt_of_mem_escapeChar {c d : Char} (hc : c.toNat < 128) (hd : d ∈ escapeChar c) :
    d.toNat < 128 := by
  unfold escapeChar at hd
  split_ifs at hd
  · rcases List.mem_pair.mp hd with rfl | rfl <;> decide
  · rcases List.mem_pair.mp hd with rfl | rfl <;> decide
  · rcases List.mem_pair.mp hd with rfl | rfl <;> decide
  · rcases List.mem_pair.mp hd with rfl | rfl <;> decide
  · rwa [List.mem_singleton.mp hd]

theorem wire_escape (text : Text) : wire (escape text) = escape (wire text) := by
  rw [escape_eq, escape_eq]
  exact wire_flatMap (fun _ hc _ hd => lt_of_mem_escapeChar hc hd) (fun _ hc => escapeChar_of_le hc)
    text

theorem wire_decimal (n : ℤ) : wire (decimal n) = decimal n := by
  have hdigit : ∀ {c : Char}, c.isDigit → c.toNat < 128 := by
    intro c hc
    rw [Char.isDigit, Bool.and_eq_true, decide_eq_true_eq, decide_eq_true_eq] at hc
    exact Nat.lt_of_le_of_lt hc.2 (by decide)
  refine wire_eq_self fun c hc => ?_
  cases n with
  | ofNat n => exact hdigit (isDigit_of_mem_toDigits hc)
  | negSucc n =>
    rcases List.mem_cons.mp hc with rfl | hc
    · decide
    · exact hdigit (isDigit_of_mem_toDigits hc)

/-- **A line in UTF-8 is the line of what it says in UTF-8.** -/
theorem wire_lineText (maxNew : ℤ) (tools : Option Text) (prompt : Text) :
    wire (lineText maxNew tools prompt) = lineText maxNew (tools.map wire) (wire prompt) := by
  have hplain : wire "V2\t".toList = "V2\t".toList ∧ wire "\t0\t".toList = "\t0\t".toList ∧
      wire "\t1\t\t".toList = "\t1\t\t".toList ∧ wire "\t".toList = "\t".toList :=
    ⟨rfl, rfl, rfl, rfl⟩
  obtain ⟨hversion, hkeep, hcount, htab⟩ := hplain
  cases tools with
  | some json =>
    simp only [lineText_some, Option.map_some, wire_append, wire_escape, wire_decimal, hversion, hkeep,
      hcount]
  | none => simp only [lineText_none, Option.map_none, wire_append, wire_escape, wire_decimal, htab]

/-! ### One request -/

theorem trimEnd_eq_self {line : Text} (h : ∀ c, c = '\n' ∨ c = '\r' → c ∉ line) :
    trimEnd line = line := by
  refine List.rdropWhile_eq_self_iff.mpr fun hne hlast => ?_
  exact h _ (of_decide_eq_true hlast).symm (List.getLast_mem hne)

theorem lineText_ne_nil (maxNew : ℤ) (tools : Option Text) (prompt : Text) :
    lineText maxNew tools prompt ≠ [] := by
  cases tools <;> simp [lineText_some, lineText_none]

theorem readLine_lineText (maxNew : ℤ) (tools : Option Text) (prompt : Text) :
    readLine (lineText maxNew tools prompt) = some (parseLine (lineText maxNew tools prompt)) := by
  have htrim : trimEnd (lineText maxNew tools prompt) = lineText maxNew tools prompt :=
    trimEnd_eq_self fun _ hc => not_mem_lineText maxNew tools prompt hc
  rw [readLine, htrim, if_neg]
  rw [List.isEmpty_iff]
  exact lineText_ne_nil maxNew tools prompt

/-- A number that fits stays what it is. -/
theorem positiveOr256_of_lt {n : ℤ} (hpos : 1 ≤ n) (hlt : n < 2 ^ 31) :
    positiveOr256 (int32 (max (-2 ^ 63) (min (2 ^ 63 - 1) n))) = n := by
  have hlong : max (-2 ^ 63) (min (2 ^ 63 - 1) n) = n := by omega
  have hint : int32 n = n := by
    rw [int32]
    exact Int.bmod_eq_of_le (by omega) (by omega)
  rw [hlong, hint, positiveOr256, if_neg (by omega)]

/-- The JSON text of the tools, if there are any. -/
def toolsLine (dumps : List τ → Text) (tools : Option (List τ)) : Option Text :=
  if anyTools tools then some (dumps (tools.getD [])) else none

theorem runRequestLine_eq (dumps : List τ → Text) (prompt : Text) (maxNew : ℤ)
    (tools : Option (List τ)) :
    runRequestLine dumps prompt maxNew tools =
      utf8 (lineText maxNew (toolsLine dumps tools) prompt) ++ [10] := by
  unfold runRequestLine toolsLine
  split <;> exact List.flatMap_append

/-- **A request survives the trip**: its bytes are one line, which is of version 2 only if there
are tools, and the worker reads from it the bytes of the prompt, those of the tools' JSON text, and
the number of tokens, whatever comes behind. -/
theorem runRequestLine_survives (dumps : List τ → Text) (prompt : Text) (tools : Option (List τ))
    {maxNewTokens : ℤ} (hpos : 1 ≤ maxNewTokens) (hlt : maxNewTokens < 2 ^ 31) :
    (∃ line, runRequestLine dumps prompt maxNewTokens tools = line ++ [10] ∧ 10 ∉ line ∧
        "V2\t".toList.isPrefixOf (chars line) = anyTools tools) ∧
      ∀ rest, serverRequests (runRequestLine dumps prompt maxNewTokens tools ++ rest) =
        some
          { maxNew := maxNewTokens
            keep := 0
            tools := if anyTools tools then chars (utf8 (dumps (tools.getD []))) else []
            turns := [{ role := [], text := chars (utf8 prompt) }] } :: serverRequests rest := by
  have hline := wire_lineText maxNewTokens (toolsLine dumps tools) prompt
  have hsome : (toolsLine dumps tools).isSome = anyTools tools := by
    unfold toolsLine
    cases anyTools tools <;> rfl
  constructor
  · refine ⟨_, runRequestLine_eq dumps prompt maxNewTokens tools, fun hmem => ?_, ?_⟩
    · have hnewline : '\n' ∈ wire (lineText maxNewTokens (toolsLine dumps tools) prompt) :=
        List.mem_map_of_mem (f := Char.ofUInt8) hmem
      rw [hline] at hnewline
      exact not_mem_lineText _ _ _ (.inl rfl) hnewline
    · show "V2\t".toList.isPrefixOf (wire _) = _
      rw [hline, isPrefixOf_lineText, Option.isSome_map, hsome]
  · intro rest
    have hinput : chars (runRequestLine dumps prompt maxNewTokens tools ++ rest) =
        lineText maxNewTokens ((toolsLine dumps tools).map wire) (wire prompt) ++
          '\n' :: chars rest := by
      rw [runRequestLine_eq, ← hline, chars, List.append_assoc, List.map_append]
      rfl
    have hnewline : '\n' ∉
        lineText maxNewTokens ((toolsLine dumps tools).map wire) (wire prompt) :=
      not_mem_lineText _ _ _ (.inl rfl)
    have htools : ((toolsLine dumps tools).map wire).getD [] =
        if anyTools tools then chars (utf8 (dumps (tools.getD []))) else [] := by
      unfold toolsLine
      cases anyTools tools <;> rfl
    rw [serverRequests, hinput, getlines_append hnewline, List.map_cons, readLine_lineText,
      parseLine_lineText, positiveOr256_of_lt hpos hlt, htools]
    rfl

/-- A JSON text with an escape in it. -/
def lampJson : Text := "\x7b\"a\": \"\\n\"\x7d".toList

theorem lampJson_printable : (lampJson.all fun c => decide (0x20 ≤ c.toNat)) = true := rfl

/-- A tool with this text. -/
def lampTool : Tool where
  json := lampJson
  printable c hc := of_decide_eq_true (List.all_eq_true.mp lampJson_printable c hc)

/-- A prompt with a tab, a newline and what looks like an escape. -/
theorem runRequestLine_survives_lamp :
    (∃ line, runRequestLine toolsJson "开\t\\n\n".toList 320 (some [lampTool]) = line ++ [10] ∧
        10 ∉ line ∧ "V2\t".toList.isPrefixOf (chars line) = true) ∧
      ∀ rest, serverRequests (runRequestLine toolsJson "开\t\\n\n".toList 320 (some [lampTool]) ++
            rest) =
        some
          { maxNew := 320
            keep := 0
            tools := chars (utf8 "[\x7b\"a\": \"\\n\"\x7d]".toList)
            turns := [{ role := [], text := chars (utf8 "开\t\\n\n".toList) }] } ::
          serverRequests rest :=
  runRequestLine_survives toolsJson "开\t\\n\n".toList (some [lampTool]) (by decide) (by decide)

end Rk1828
end OpenVoiceStream
