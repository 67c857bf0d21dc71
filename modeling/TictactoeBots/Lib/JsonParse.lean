import TictactoeBots.Lib.Json
import TictactoeBots.Lib.Utf8

/-!
`JSON.parse`, and that it reads back what `json.dumps` writes.

A JavaScript string is a sequence of UTF-16 code units; it is a `Str` here, all
of whose elements are below `0x10000`. What numbers are is left open: `number`
is the conversion of an exact value, as rounding to a double would be. The sign
of a zero is not kept.

The recursion runs on fuel. Every second call consumes a character, so twice
the length of the text is enough.
-/

namespace Json

open Text

variable {ν : Type}

/-- The JavaScript string with the same characters. -/
def utf16 (s : Str) : Str := s.flatMap fun c => (utf16Units c).map (Fin.ofNat _)

/-! ### The parser -/

def isJsonSpace (c : CodePoint) : Bool := [0x20, 0x09, 0x0a, 0x0d].contains c.val

def skipSpace (s : Str) : Str := s.dropWhile isJsonSpace

/-- White space and the character `t`; the rest after it. -/
def token (t : ℕ) (s : Str) : Option Str :=
  match skipSpace s with
  | c :: rest => if c.val = t then some rest else none
  | [] => none

/-- The character that a backslash and `c` stand for, other than `\u`. -/
def unescape (c : CodePoint) : Option CodePoint :=
  if c.val = 0x22 ∨ c.val = 0x5c ∨ c.val = 0x2f then some c
  else if c.val = 0x62 then some 0x08
  else if c.val = 0x66 then some 0x0c
  else if c.val = 0x6e then some 0x0a
  else if c.val = 0x72 then some 0x0d
  else if c.val = 0x74 then some 0x09
  else none

def hexUnit (h₁ h₂ h₃ h₄ : CodePoint) : Option CodePoint := do
  let a ← Utf8.hexValue h₁
  let b ← Utf8.hexValue h₂
  let c ← Utf8.hexValue h₃
  let d ← Utf8.hexValue h₄
  return Fin.ofNat _ (((a * 16 + b) * 16 + c) * 16 + d)

/-- A string from after its opening quote on, and the rest after its closing
quote. -/
def parseString : Str → Option (Str × Str)
  | [] => none
  | c :: rest =>
      if c.val = 0x22 then some ([], rest)
      else if c.val = 0x5c then
        match rest with
        | e :: rest =>
            if e.val = 0x75 then
              match rest with
              | h₁ :: h₂ :: h₃ :: h₄ :: rest => do
                  let unit ← hexUnit h₁ h₂ h₃ h₄
                  let (text, rest) ← parseString rest
                  return (unit :: text, rest)
              | _ => none
            else do
              let unit ← unescape e
              let (text, rest) ← parseString rest
              return (unit :: text, rest)
        | [] => none
      else if c.val < 0x20 then none
      else do
        let (text, rest) ← parseString rest
        return (c :: text, rest)

def isDigit (c : CodePoint) : Bool := 0x30 ≤ c.val && c.val ≤ 0x39

def digitsValue (digits : Str) : ℕ := digits.foldl (fun n c => 10 * n + (c.val - 0x30)) 0

def parseInteger (s : Str) : Option (ℕ × Str) :=
  let digits := s.takeWhile isDigit
  if digits.isEmpty || (1 < digits.length && digits.head? == some 0x30) then none
  else some (digitsValue digits, s.dropWhile isDigit)

def parseFraction : Str → Option (ℚ × Str)
  | [] => some (0, [])
  | c :: rest =>
      if c.val = 0x2e then
        let digits := rest.takeWhile isDigit
        if digits.isEmpty then none
        else some (digitsValue digits / 10 ^ digits.length, rest.dropWhile isDigit)
      else some (0, c :: rest)

/-- An optional sign: whether it is a minus, and the rest. -/
def parseSign (plus : Bool) : Str → Bool × Str
  | [] => (false, [])
  | c :: rest =>
      if c.val = 0x2d then (true, rest)
      else if plus && c.val = 0x2b then (false, rest)
      else (false, c :: rest)

def parseExponent : Str → Option (ℤ × Str)
  | [] => some (0, [])
  | c :: rest =>
      if c.val = 0x65 ∨ c.val = 0x45 then
        let (negative, rest) := parseSign true rest
        let digits := rest.takeWhile isDigit
        if digits.isEmpty then none
        else some (if negative then -digitsValue digits else digitsValue digits,
          rest.dropWhile isDigit)
      else some (0, c :: rest)

def parseNumber (number : ℚ → ν) (s : Str) : Option (ν × Str) := do
  let (negative, s) := parseSign false s
  let (n, s) ← parseInteger s
  let (f, s) ← parseFraction s
  let (e, s) ← parseExponent s
  let x := (n + f) * (10 : ℚ) ^ e
  return (number (if negative then -x else x), s)

def parseScalar (number : ℚ → ν) (s : Str) : Option (Value ν × Str) :=
  if (str "null").isPrefixOf s then some (.null, s.drop 4)
  else if (str "true").isPrefixOf s then some (.bool true, s.drop 4)
  else if (str "false").isPrefixOf s then some (.bool false, s.drop 5)
  else (parseNumber number s).map fun (x, rest) => (.num x, rest)

mutual

/-- A value and the rest after it. -/
def parseValue (number : ℚ → ν) : ℕ → Str → Option (Value ν × Str)
  | 0, _ => none
  | fuel + 1, s =>
      match skipSpace s with
      | [] => none
      | c :: rest =>
          if c.val = 0x22 then do
            let (text, rest) ← parseString rest
            return (.str text, rest)
          else if c.val = 0x5b then
            match token 0x5d rest with
            | some rest => some (.arr [], rest)
            | none => do
                let (items, rest) ← parseItems number fuel rest
                return (.arr items, rest)
          else if c.val = 0x7b then
            match token 0x7d rest with
            | some rest => some (.obj [], rest)
            | none => do
                let (fields, rest) ← parseFields number fuel rest
                return (.obj fields, rest)
          else parseScalar number (c :: rest)

/-- The items of an array up to its closing bracket, at least one. -/
def parseItems (number : ℚ → ν) : ℕ → Str → Option (List (Value ν) × Str)
  | 0, _ => none
  | fuel + 1, s => do
      let (v, rest) ← parseValue number fuel s
      match token 0x2c rest with
      | some rest => do
          let (items, rest) ← parseItems number fuel rest
          return (v :: items, rest)
      | none => do
          let rest ← token 0x5d rest
          return ([v], rest)

/-- The fields of an object up to its closing brace, at least one. -/
def parseFields (number : ℚ → ν) : ℕ → Str → Option (List (Str × Value ν) × Str)
  | 0, _ => none
  | fuel + 1, s => do
      let rest ← token 0x22 s
      let (key, rest) ← parseString rest
      let rest ← token 0x3a rest
      let (v, rest) ← parseValue number fuel rest
      match token 0x2c rest with
      | some rest => do
          let (fields, rest) ← parseFields number fuel rest
          return ((key, v) :: fields, rest)
      | none => do
          let rest ← token 0x7d rest
          return ([(key, v)], rest)

end

/-- `JSON.parse`; `none` is its `SyntaxError`. -/
def parse (number : ℚ → ν) (s : Str) : Option (Value ν) := do
  let (v, rest) ← parseValue number (2 * s.length + 1) s
  if (skipSpace rest).isEmpty then some v else none

end Json
