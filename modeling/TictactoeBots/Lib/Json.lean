import TictactoeBots.Lib.Text

/-!
JSON values and the text Python's `json.dumps` gives them in its default
configuration: items separated by `", "`, keys and values by `": "`, and every
code point outside printable ASCII escaped.

`ν` is the type of numbers. An object is the list of its fields in order; a
Python `dict` has each key once, and where a text repeats a key the last
binding is the one `get` sees.
-/

namespace Json

open Text

inductive Value (ν : Type) where
  | null
  | bool (b : Bool)
  | num (n : ν)
  | str (s : Str)
  | arr (items : List (Value ν))
  | obj (fields : List (Str × Value ν))

/-- The binding of `key` that a `dict` made from `fields` holds. -/
def lookup {ν : Type} (key : Str) (fields : List (Str × Value ν)) : Option (Value ν) :=
  fields.reverse.lookup key

/-! ### `json.dumps` -/

/-- `str(n)` of an integer. -/
def intText : ℤ → Str
  | .ofNat n => decimal n
  | .negSucc n => Text.str "-" ++ decimal (n + 1)

/-- The UTF-16 code units of a code point: itself, or a surrogate pair. -/
def utf16Units (c : CodePoint) : List ℕ :=
  if c.val < 0x10000 then [c.val]
  else [0xd800 + (c.val - 0x10000) / 0x400, 0xdc00 + (c.val - 0x10000) % 0x400]

/-- What `json.dumps` writes for one code point of a string. -/
def escapeChar (c : CodePoint) : Str :=
  if c.val = 0x22 then Text.str "\\\""
  else if c.val = 0x5c then Text.str "\\\\"
  else if c.val = 0x08 then Text.str "\\b"
  else if c.val = 0x09 then Text.str "\\t"
  else if c.val = 0x0a then Text.str "\\n"
  else if c.val = 0x0c then Text.str "\\f"
  else if c.val = 0x0d then Text.str "\\r"
  else if 0x20 ≤ c.val ∧ c.val ≤ 0x7e then [c]
  else (utf16Units c).flatMap fun u => Text.str "\\u" ++ hexPadded 4 u

/-- The characters whose escape is one character behind a backslash, with that
character. -/
def shortEscapes : List (CodePoint × CodePoint) :=
  [(0x22, 0x22), (0x5c, 0x5c), (0x08, 0x62), (0x09, 0x74), (0x0a, 0x6e), (0x0c, 0x66), (0x0d, 0x72)]

theorem escapeChar_forms (c : CodePoint) :
    (∃ d, (c, d) ∈ shortEscapes ∧ escapeChar c = [0x5c, d]) ∨
      ((0x20 ≤ c.val ∧ c.val ≤ 0x7e ∧ c.val ≠ 0x22 ∧ c.val ≠ 0x5c) ∧ escapeChar c = [c]) ∨
      (¬(0x20 ≤ c.val ∧ c.val ≤ 0x7e) ∧
        escapeChar c = (utf16Units c).flatMap fun u => Text.str "\\u" ++ hexPadded 4 u) := by
  by_cases hshort : c ∈ shortEscapes.map Prod.fst
  · left
    simp only [shortEscapes, List.map_cons, List.map_nil, List.mem_cons, List.not_mem_nil,
      or_false] at hshort
    rcases hshort with rfl | rfl | rfl | rfl | rfl | rfl | rfl <;> exact ⟨_, by decide, rfl⟩
  · have hne : ∀ e ∈ shortEscapes.map Prod.fst, c.val ≠ e.val := fun e he hval =>
      hshort (Fin.ext hval ▸ he)
    have h22 : c.val ≠ 0x22 := hne 0x22 (by decide)
    have h5c : c.val ≠ 0x5c := hne 0x5c (by decide)
    have h08 : c.val ≠ 0x08 := hne 0x08 (by decide)
    have h09 : c.val ≠ 0x09 := hne 0x09 (by decide)
    have h0a : c.val ≠ 0x0a := hne 0x0a (by decide)
    have h0c : c.val ≠ 0x0c := hne 0x0c (by decide)
    have h0d : c.val ≠ 0x0d := hne 0x0d (by decide)
    rw [escapeChar, if_neg h22, if_neg h5c, if_neg h08, if_neg h09, if_neg h0a, if_neg h0c,
      if_neg h0d]
    by_cases hplain : 0x20 ≤ c.val ∧ c.val ≤ 0x7e
    · rw [if_pos hplain]
      exact .inr (.inl ⟨⟨hplain.1, hplain.2, h22, h5c⟩, rfl⟩)
    · rw [if_neg hplain]
      exact .inr (.inr ⟨hplain, rfl⟩)

/-- A string between double quotes. -/
def dumpsStr (s : Str) : Str := [0x22] ++ s.flatMap escapeChar ++ [0x22]

mutual

/-- `json.dumps(v)`. -/
def dumps : Value ℤ → Str
  | .null => Text.str "null"
  | .bool b => Text.str (if b then "true" else "false")
  | .num n => intText n
  | .str s => dumpsStr s
  | .arr items => Text.str "[" ++ dumpsItems items ++ Text.str "]"
  | .obj fields => [0x7b] ++ dumpsFields fields ++ [0x7d]

def dumpsItems : List (Value ℤ) → Str
  | [] => []
  | [v] => dumps v
  | v :: w :: rest => dumps v ++ Text.str ", " ++ dumpsItems (w :: rest)

def dumpsFields : List (Str × Value ℤ) → Str
  | [] => []
  | [(key, v)] => dumpsStr key ++ Text.str ": " ++ dumps v
  | (key, v) :: field :: rest =>
      dumpsStr key ++ Text.str ": " ++ dumps v ++ Text.str ", " ++ dumpsFields (field :: rest)

end

example : dumps (.arr [.obj [(str "a", .num (-3)), (str "b", .str (str "x/y"))], .null]) =
    str "[\x7b\"a\": -3, \"b\": \"x/y\"\x7d, null]" := by decide

end Json
