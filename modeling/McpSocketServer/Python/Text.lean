import Mathlib.Data.List.Basic
import McpSocketServer.Python.Unicode

/-!
# Python string operations

The `str` operations that the program applies to hosts, targets and version numbers,
on Lean strings: `isdigit`, `strip`, `startswith`, `split` and `int`.
-/

namespace McpSocketServer

/-- `c.isdigit()` of one character. -/
def isDigitChar (c : Char) : Bool := inRanges decimalRanges c || inRanges digitOnlyRanges c

/-- `s.isdigit()`: not empty and digits only. -/
def isdigit (s : List Char) : Bool := !s.isEmpty && s.all isDigitChar

/-- `c.isprintable()` of one character. -/
def isPrintableChar (c : Char) : Bool :=
  if c.toNat < 128 then decide (32 ≤ c.toNat ∧ c.toNat ≠ 127)
  else !inRanges unprintableRanges c

/-- The value of a decimal digit in any script. -/
def decimalValue (c : Char) : Option Nat :=
  (decimalRanges.find? fun r => decide (r.1 ≤ c.toNat ∧ c.toNat ≤ r.2)).map
    fun r => (c.toNat - r.1) % 10

/-- `s.strip(chars)` for a predicate on characters. -/
def stripChars (drop : Char → Bool) (s : String) : String :=
  String.ofList ((s.toList.dropWhile drop).reverse.dropWhile drop).reverse

/-- `s.strip()`. -/
def strip (s : String) : String := stripChars (inRanges spaceRanges) s

/-- `s.strip("[]")`. -/
def stripBrackets (s : String) : String := stripChars (fun c => c == '[' || c == ']') s

/-- `s.startswith(p)` for the one-character prefix `c`. -/
def startsWith (c : Char) (s : String) : Bool := s.toList.head? == some c

/-- `s[1:]`. -/
def dropFirst (s : String) : String := String.ofList (s.toList.drop 1)

/-- The part of `s` before the first `c`: `s.split(c, 1)[0]`. -/
def beforeFirst (c : Char) (s : String) : String := String.ofList (s.toList.takeWhile (· != c))

/-- The part of `s` after the first `c`: `s[s.index(c)+1:]` where `c` occurs in `s`. -/
def afterFirst (c : Char) (s : String) : List Char := (s.toList.dropWhile (· != c)).drop 1

/-- `s.rpartition(c)[0]` where `c` occurs in `s`. -/
def beforeLast (c : Char) (s : String) : String :=
  String.ofList ((s.toList.reverse.dropWhile (· != c)).drop 1).reverse

/-- `s.rpartition(c)[2]`. -/
def afterLast (c : Char) (s : String) : List Char :=
  (s.toList.reverse.takeWhile (· != c)).reverse

/-- `s.split(c)`. -/
def splitOn (c : Char) (s : String) : List String :=
  (s.toList.splitOn c).map String.ofList

/-- The digits of an `int` literal after the sign: decimal digits, single underscores between
them. -/
def intDigits : List Char → Nat → Option Nat
  | [], acc => some acc
  | '_' :: c :: cs, acc => (decimalValue c).bind fun d => intDigits cs (10 * acc + d)
  | c :: cs, acc => (decimalValue c).bind fun d => intDigits cs (10 * acc + d)

/-- The digits of a literal behind its first one, as `int` counts them before it converts
anything: up to the first other character, `none` where an underscore does not stand between
two digits. -/
def countDigits : List Char → Option Nat
  | [] => some 0
  | ['_'] => none
  | '_' :: c :: cs => if (decimalValue c).isSome then (countDigits cs).map (· + 1) else none
  | c :: cs => if (decimalValue c).isSome then (countDigits cs).map (· + 1) else some 0

/-- The most digits that `int` converts: the default of `sys.get_int_max_str_digits()`. -/
def intMaxStrDigits : Nat := 4300

/-- How many digits a literal has for `int` to convert, where these are too many. -/
def excessDigits : List Char → Option Nat
  | [] => none
  | c :: cs =>
    ((decimalValue c).bind fun _ => (countDigits cs).map (· + 1)).filter (intMaxStrDigits < ·)

/-- A non-empty digit sequence that is not too long. -/
def intMagnitude : List Char → Option Nat
  | [] => none
  | c :: cs =>
    if (excessDigits (c :: cs)).isSome then none
    else (decimalValue c).bind fun d => intDigits cs d

/-- The characters that `int` skips around a literal: spaces, but not the separators
U+001C to U+001F, which only `str.isspace` takes for spaces. -/
def isIntSpace (c : Char) : Bool := inRanges spaceRanges c && !inRanges [(28, 31)] c

/-- The sign of a literal and what follows it. -/
def intSign (s : String) : Int × List Char :=
  match (stripChars isIntSpace s).toList with
  | '-' :: cs => (-1, cs)
  | '+' :: cs => (1, cs)
  | cs => (1, cs)

/-- `int(s)` of a string; `none` stands for the `ValueError`. -/
def parseInt (s : String) : Option Int :=
  (intMagnitude (intSign s).2).map fun n => (intSign s).1 * (n : Int)

/-- Stripping keeps a first character that is not dropped. -/
theorem stripChars_cons {drop : Char → Bool} {a : Char} (ha : drop a = false) (cs : List Char) :
    ∃ rest, (stripChars drop (String.ofList (a :: cs))).toList = a :: rest := by
  refine ⟨(cs.reverse.dropWhile drop).reverse, ?_⟩
  simp only [stripChars, String.toList_ofList, List.dropWhile_cons, ha, List.reverse_cons,
    List.dropWhile_append, Bool.false_eq_true, if_false, List.dropWhile_nil]
  cases cs.reverse.dropWhile drop <;> simp

/-- The first part of a split text begins like the text, unless with the separator. -/
theorem splitOn_cons {a c : Char} {s : String} {cs : List Char} (hs : s.toList = a :: cs)
    (hac : a ≠ c) : ∃ part parts, splitOn c s = String.ofList (a :: part) :: parts := by
  obtain ⟨part, parts, hsplit⟩ := List.exists_cons_of_ne_nil (List.splitOnP_ne_nil (· == c) cs)
  refine ⟨part, parts.map String.ofList, ?_⟩
  have hne : (a == c) = false := by simpa using hac
  rw [splitOn, hs, List.splitOn, List.splitOnP_cons_eq_if_modifyHead, hne, hsplit]
  rfl

/-- What begins with a brace is no number. -/
theorem parseInt_brace (cs : List Char) : parseInt (String.ofList ('\x7b' :: cs)) = none := by
  obtain ⟨rest, hrest⟩ := stripChars_cons (a := '\x7b') (by decide : isIntSpace _ = false) cs
  have hsign : intSign (String.ofList ('\x7b' :: cs)) = (1, '\x7b' :: rest) := by
    rw [intSign, hrest]
    simp
  have hdigit : decimalValue '\x7b' = none := by decide
  rw [parseInt, hsign]
  simp [intMagnitude, excessDigits, hdigit]

example : isdigit "9000".toList = true := by decide
example : parseInt " 1_80 " = some 180 := by decide
example : parseInt "80\x1f" = none := by decide

end McpSocketServer
