import Mathlib

/-!
Text as Python sees it: a `str` is a sequence of code points, surrogates
included, so a code point is a number below `0x110000` rather than a Lean
`Char`. The operations are the ones of the standard library, under its names.

What depends on the Unicode version of the interpreter (which code points are
printable, which are decimal digits) is not fixed here. It is carried by
`UnicodeData`, whose fields pin down the ASCII part and the surrogates.
-/

namespace Text

/-- One element of a Python `str`. -/
abbrev CodePoint := Fin 0x110000

instance neZeroCodePoints : NeZero 0x110000 := ⟨by decide⟩

/-- A Python `str`. -/
abbrev Str := List CodePoint

instance lawfulBEqStr : LawfulBEq Str := inferInstance

def CodePoint.ofChar (c : Char) : CodePoint :=
  ⟨c.toNat, by
    have hvalid : c.toNat < 0xd800 ∨ 0xdfff < c.toNat ∧ c.toNat < 0x110000 := c.valid
    omega⟩

/-- The string literal `s`. -/
def str (s : String) : Str := s.toList.map CodePoint.ofChar

/-- The text has no surrogates in it. -/
def Scalar (s : Str) : Prop := ∀ c ∈ s, ¬(0xd800 ≤ c.val ∧ c.val ≤ 0xdfff)

/-- The tables of the interpreter's Unicode database that the code consults,
correct on ASCII and on surrogates. -/
structure UnicodeData where
  isPrintable : CodePoint → Bool
  isDecimal : CodePoint → Bool
  isPrintable_ascii : ∀ c, c.val < 128 → (isPrintable c ↔ 32 ≤ c.val ∧ c.val < 127)
  isPrintable_surrogate : ∀ c, 0xd800 ≤ c.val ∧ c.val ≤ 0xdfff → isPrintable c = false
  isDecimal_ascii : ∀ c, c.val < 128 → (isDecimal c ↔ 48 ≤ c.val ∧ c.val ≤ 57)

/-- The tables that know nothing beyond ASCII. -/
def asciiData : UnicodeData where
  isPrintable c := decide (32 ≤ c.val ∧ c.val < 127)
  isDecimal c := decide (48 ≤ c.val ∧ c.val ≤ 57)
  isPrintable_ascii := by simp
  isPrintable_surrogate c hc := by
    rw [decide_eq_false_iff_not]
    omega
  isDecimal_ascii := by simp

/-! ### Whitespace and lines -/

/-- `str.isspace` on one code point. -/
def isSpace (c : CodePoint) : Bool :=
  [0x09, 0x0a, 0x0b, 0x0c, 0x0d, 0x1c, 0x1d, 0x1e, 0x1f, 0x20, 0x85, 0xa0,
    0x1680, 0x2000, 0x2001, 0x2002, 0x2003, 0x2004, 0x2005, 0x2006, 0x2007,
    0x2008, 0x2009, 0x200a, 0x2028, 0x2029, 0x202f, 0x205f, 0x3000].contains c.val

/-- `s.strip()`. -/
def strip (s : Str) : Str := (s.dropWhile isSpace).rdropWhile isSpace

/-- The code points at which `str.splitlines` ends a line. -/
def isLineBreak (c : CodePoint) : Bool :=
  [0x0a, 0x0b, 0x0c, 0x0d, 0x1c, 0x1d, 0x1e, 0x85, 0x2028, 0x2029].contains c.val

/-- The loop of `splitlines`: `line` is the text of the open line, and `cr`
says that the line before it was ended by a carriage return, whose line feed
belongs to the same boundary. -/
def splitlinesFrom (cr : Bool) (line : Str) : Str → List Str
  | [] => if line = [] then [] else [line]
  | c :: cs =>
      if cr && c.val == 0x0a then splitlinesFrom false line cs
      else if isLineBreak c then line :: splitlinesFrom (c.val == 0x0d) [] cs
      else splitlinesFrom false (line ++ [c]) cs

def splitlines (s : Str) : List Str := splitlinesFrom false [] s

example : splitlines (str "a\r\nb\n\nc\n") = [str "a", str "b", [], str "c"] := by decide

/-- `c.lower()` for the ASCII letters; other code points stay as they are. -/
def lowerAscii (c : CodePoint) : CodePoint :=
  if 0x41 ≤ c.val ∧ c.val ≤ 0x5a then Fin.ofNat _ (c.val + 0x20) else c

/-! ### Numerals -/

/-- The digit `d` of a numeral of base at most sixteen, in lower case. -/
def digitChar (d : ℕ) : CodePoint :=
  if d < 10 then Fin.ofNat _ (48 + d) else Fin.ofNat _ (87 + d)

/-- `str(n)` for a natural number. -/
def decimal (n : ℕ) : Str :=
  if n = 0 then str "0" else (Nat.digits 10 n).reverse.map digitChar

theorem exists_digit_of_mem_decimal {n : ℕ} {c : CodePoint} (hc : c ∈ decimal n) :
    ∃ d < 10, c = digitChar d := by
  unfold decimal at hc
  split at hc
  · exact ⟨0, by decide, List.mem_singleton.1 hc⟩
  · obtain ⟨d, hd, rfl⟩ := List.mem_map.1 hc
    exact ⟨d, Nat.digits_lt_base (by decide) (List.mem_reverse.1 hd), rfl⟩

/-- `f"{n:0{width}x}"`, for `n` below `16 ^ width`. -/
def hexPadded : ℕ → ℕ → Str
  | 0, _ => []
  | width + 1, n => hexPadded width (n / 16) ++ [digitChar (n % 16)]

/-! ### `repr` -/

/-- The text of one code point inside a `repr` delimited by `quote`. -/
def reprChar (U : UnicodeData) (quote c : CodePoint) : Str :=
  if c = quote ∨ c.val = 0x5c then str "\\" ++ [c]
  else if c.val = 0x09 then str "\\t"
  else if c.val = 0x0a then str "\\n"
  else if c.val = 0x0d then str "\\r"
  else if U.isPrintable c then [c]
  else if c.val ≤ 0xff then str "\\x" ++ hexPadded 2 c.val
  else if c.val ≤ 0xffff then str "\\u" ++ hexPadded 4 c.val
  else str "\\U" ++ hexPadded 8 c.val

/-- `repr(s)`: delimited by `0x27`, the single quote, unless the text has
those and no double quote `0x22`. -/
def repr (U : UnicodeData) (s : Str) : Str :=
  let quote : CodePoint := if s.contains 0x27 && !s.contains 0x22 then 0x22 else 0x27
  [quote] ++ s.flatMap (reprChar U quote) ++ [quote]

end Text
