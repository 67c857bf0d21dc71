import TictactoeBots.Lib.JsonParse

/-!
`JSON.parse` reads what `json.dumps` writes back as the same value, its strings
in UTF-16.
-/

namespace Json

open Text

variable {ν : Type} (number : ℚ → ν)

mutual

/-- The JavaScript value that a Python value is written for. -/
def toJs : Value ℤ → Value ν
  | .null => .null
  | .bool b => .bool b
  | .num n => .num (number n)
  | .str s => .str (utf16 s)
  | .arr items => .arr (toJsItems items)
  | .obj fields => .obj (toJsFields fields)

def toJsItems : List (Value ℤ) → List (Value ν)
  | [] => []
  | v :: rest => toJs v :: toJsItems rest

def toJsFields : List (Str × Value ℤ) → List (Str × Value ν)
  | [] => []
  | (key, v) :: rest => (utf16 key, toJs v) :: toJsFields rest

end

/-! ### Strings -/

theorem hexValue_digitChar {d : ℕ} (h : d < 16) : Utf8.hexValue (digitChar d) = some d := by
  interval_cases d <;> rfl

theorem hexPadded_four (u : ℕ) :
    hexPadded 4 u = [digitChar (u / 4096 % 16), digitChar (u / 256 % 16),
      digitChar (u / 16 % 16), digitChar (u % 16)] := by
  simp [hexPadded, Nat.div_div_eq_div_mul]

theorem hexUnit_hexPadded {u : ℕ} (h : u < 0x10000) :
    hexUnit (digitChar (u / 4096 % 16)) (digitChar (u / 256 % 16)) (digitChar (u / 16 % 16))
      (digitChar (u % 16)) = some (Fin.ofNat _ u) := by
  have hdigit : ∀ n, Utf8.hexValue (digitChar (n % 16)) = some (n % 16) := fun n =>
    hexValue_digitChar (Nat.mod_lt n (by decide))
  have hsum : ((u / 4096 % 16 * 16 + u / 256 % 16) * 16 + u / 16 % 16) * 16 + u % 16 = u := by
    omega
  simp only [hexUnit, hdigit, Option.bind_eq_bind, Option.bind_some, Option.pure_def, hsum]

theorem utf16Units_lt (c : CodePoint) : ∀ u ∈ utf16Units c, u < 0x10000 := by
  have hc := c.isLt
  intro u hu
  unfold utf16Units at hu
  split at hu
  · simp only [List.mem_singleton] at hu
    omega
  · simp only [List.mem_cons, List.not_mem_nil, or_false] at hu
    omega

theorem parseString_hexPadded {u : ℕ} (h : u < 0x10000) (rest : Str) :
    parseString (str "\\u" ++ hexPadded 4 u ++ rest) =
      (parseString rest).map fun r => (Fin.ofNat _ u :: r.1, r.2) := by
  have hhead : str "\\u" = [0x5c, 0x75] := rfl
  rw [hhead, hexPadded_four, parseString.eq_def]
  simp only [List.cons_append, List.nil_append]
  rw [if_neg (by decide), if_pos (by decide), if_pos (by decide), hexUnit_hexPadded h]
  cases parseString rest <;> rfl

theorem parseString_units {units : List ℕ} (h : ∀ u ∈ units, u < 0x10000) (rest : Str) :
    parseString ((units.flatMap fun u => str "\\u" ++ hexPadded 4 u) ++ rest) =
      (parseString rest).map fun r => (units.map (Fin.ofNat _) ++ r.1, r.2) := by
  induction units with
  | nil => simp
  | cons u units ih =>
      rw [List.flatMap_cons, List.append_assoc, parseString_hexPadded (h u List.mem_cons_self),
        ih fun u hu => h u (List.mem_cons_of_mem _ hu)]
      cases parseString rest <;> rfl

theorem parseString_unescape {e unit : CodePoint} (hne : e.val ≠ 0x75)
    (h : unescape e = some unit) (rest : Str) :
    parseString ([0x5c, e] ++ rest) = (parseString rest).map fun r => (unit :: r.1, r.2) := by
  rw [parseString.eq_def]
  simp only [List.cons_append, List.nil_append]
  rw [if_neg (by decide), if_pos (by decide), if_neg hne, h]
  cases parseString rest <;> rfl

theorem parseString_escapeChar (c : CodePoint) (rest : Str) :
    parseString (escapeChar c ++ rest) =
      (parseString rest).map fun r => ((utf16Units c).map (Fin.ofNat _) ++ r.1, r.2) := by
  obtain ⟨d, hshort, heq⟩ | ⟨hplain, heq⟩ | ⟨-, heq⟩ := escapeChar_forms c
  · obtain ⟨hne, hunescape, hlt⟩ : d.val ≠ 0x75 ∧ unescape d = some c ∧ c.val < 0x80 := by
      simp only [shortEscapes, List.mem_cons, Prod.mk.injEq, List.not_mem_nil, or_false] at hshort
      rcases hshort with ⟨rfl, rfl⟩ | ⟨rfl, rfl⟩ | ⟨rfl, rfl⟩ | ⟨rfl, rfl⟩ | ⟨rfl, rfl⟩ |
          ⟨rfl, rfl⟩ | ⟨rfl, rfl⟩ <;>
        exact ⟨by decide, rfl, by decide⟩
    have hunits : utf16Units c = [c.val] := if_pos (by omega)
    have hself : Fin.ofNat 0x110000 c.val = c := Fin.ofNat_val_eq_self c
    rw [heq, hunits, parseString_unescape hne hunescape, List.map_singleton, hself]
    rfl
  · have hunits : utf16Units c = [c.val] := if_pos (by omega)
    have hself : Fin.ofNat 0x110000 c.val = c := Fin.ofNat_val_eq_self c
    rw [heq, hunits, List.singleton_append, parseString.eq_def]
    simp only [List.map_cons, List.map_nil, List.singleton_append, hself]
    rw [if_neg hplain.2.2.1, if_neg hplain.2.2.2, if_neg (by omega)]
    cases parseString rest <;> rfl
  · rw [heq]
    exact parseString_units (utf16Units_lt c) rest

theorem parseString_escaped (s rest : Str) :
    parseString (s.flatMap escapeChar ++ 0x22 :: rest) = some (utf16 s, rest) := by
  induction s with
  | nil => rw [List.flatMap_nil, List.nil_append, parseString.eq_def]; rfl
  | cons c s ih =>
      rw [List.flatMap_cons, List.append_assoc, parseString_escapeChar, ih]
      rfl

/-! ### Numbers -/

theorem isDigit_digitChar {d : ℕ} (h : d < 10) : isDigit (digitChar d) = true := by
  interval_cases d <;> rfl

theorem val_digitChar {d : ℕ} (h : d < 10) : (digitChar d).val = 48 + d := by
  interval_cases d <;> rfl

theorem isDigit_of_mem_decimal {n : ℕ} : ∀ c ∈ decimal n, isDigit c = true := by
  intro c hc
  obtain ⟨d, hd, rfl⟩ := exists_digit_of_mem_decimal hc
  exact isDigit_digitChar hd

theorem digitsValue_decimal (n : ℕ) : digitsValue (decimal n) = n := by
  unfold decimal
  split
  · rename_i hzero
    rw [hzero]
    rfl
  · have hvalue : ∀ digits : List ℕ, (∀ d ∈ digits, d < 10) →
        digitsValue (digits.reverse.map digitChar) = Nat.ofDigits 10 digits := by
      intro digits hdigits
      induction digits with
      | nil => rfl
      | cons d digits ih =>
          rw [List.forall_mem_cons] at hdigits
          have ih := ih hdigits.2
          simp only [digitsValue] at ih
          simp only [digitsValue, List.reverse_cons, List.map_append, List.map_cons,
            List.map_nil, List.foldl_append, List.foldl_cons, List.foldl_nil, ih,
            val_digitChar hdigits.1, Nat.ofDigits_cons]
          omega
    rw [hvalue _ fun d hd => Nat.digits_lt_base (by decide) hd, Nat.ofDigits_digits]

theorem decimal_injective : Function.Injective decimal :=
  Function.LeftInverse.injective digitsValue_decimal

theorem decimal_head (n : ℕ) : ¬(1 < (decimal n).length ∧ (decimal n).head? = some 0x30) := by
  rintro ⟨hlength, hhead⟩
  unfold decimal at hlength hhead
  split at hlength
  · exact absurd hlength (by decide)
  · rename_i hn
    rw [if_neg hn, List.head?_map, List.head?_reverse, Option.map_eq_some_iff] at hhead
    obtain ⟨d, hd, hzero⟩ := hhead
    have hlast := Nat.getLast_digit_ne_zero 10 hn
    rw [List.getLast?_eq_some_getLast (Nat.digits_ne_nil_iff_ne_zero.2 hn), Option.some.injEq]
      at hd
    have hlt : d < 10 := hd ▸ Nat.digits_lt_base (by decide) (List.getLast_mem _)
    have hval := val_digitChar hlt
    rw [hzero] at hval
    have hd0 : d ≠ 0 := hd ▸ hlast
    have h30 : (0x30 : CodePoint).val = 48 := rfl
    omega

theorem decimal_ne_nil (n : ℕ) : decimal n ≠ [] := by
  unfold decimal
  split
  · decide
  · rename_i hn
    rwa [ne_eq, List.map_eq_nil_iff, List.reverse_eq_nil_iff, Nat.digits_eq_nil_iff_eq_zero]

/-- What may follow a value inside an array or an object, or at the end. -/
def Delimited (rest : Str) : Prop :=
  ∀ c ∈ rest.head?, c.val = 0x2c ∨ c.val = 0x5d ∨ c.val = 0x7d

theorem delimited_nil : Delimited [] := fun c hc => by cases hc

theorem Delimited.not_isDigit {rest : Str} (h : Delimited rest) :
    rest.takeWhile isDigit = [] ∧ rest.dropWhile isDigit = rest := by
  cases rest with
  | nil => exact ⟨rfl, rfl⟩
  | cons c rest =>
      have hc : isDigit c = false := by
        have hval := h c rfl
        simp only [isDigit, Bool.and_eq_false_imp, decide_eq_true_eq, decide_eq_false_iff_not]
        omega
      exact ⟨List.takeWhile_cons_of_neg (by simp [hc]), List.dropWhile_cons_of_neg (by simp [hc])⟩

theorem parseInteger_decimal (n : ℕ) {rest : Str} (hrest : Delimited rest) :
    parseInteger (decimal n ++ rest) = some (n, rest) := by
  have htake : (decimal n ++ rest).takeWhile isDigit = decimal n := by
    rw [List.takeWhile_append_of_pos fun c hc => isDigit_of_mem_decimal c hc,
      hrest.not_isDigit.1, List.append_nil]
  have hdrop : (decimal n ++ rest).dropWhile isDigit = rest := by
    rw [List.dropWhile_append_of_pos fun c hc => isDigit_of_mem_decimal c hc,
      hrest.not_isDigit.2]
  have hempty : (decimal n).isEmpty = false := by simp [decimal_ne_nil]
  have hhead : (decide (1 < (decimal n).length) && (decimal n).head? == some 0x30) = false := by
    have h := decimal_head n
    simpa using h
  simp only [parseInteger, htake, hdrop, hempty, hhead, Bool.or_false, Bool.false_eq_true,
    if_false, digitsValue_decimal]

theorem parseFraction_of_delimited {rest : Str} (hrest : Delimited rest) :
    parseFraction rest = some (0, rest) := by
  cases rest with
  | nil => rfl
  | cons c rest =>
      have hval := hrest c rfl
      exact if_neg (by omega)

theorem parseExponent_of_delimited {rest : Str} (hrest : Delimited rest) :
    parseExponent rest = some (0, rest) := by
  cases rest with
  | nil => rfl
  | cons c rest =>
      have hval := hrest c rfl
      exact if_neg (by omega)

theorem parseSign_decimal (n : ℕ) (rest : Str) :
    parseSign false (decimal n ++ rest) = (false, decimal n ++ rest) := by
  cases hdigits : decimal n with
  | nil => exact absurd hdigits (decimal_ne_nil n)
  | cons c digits =>
      have hc : isDigit c = true := isDigit_of_mem_decimal (n := n) c (hdigits ▸ List.mem_cons_self)
      simp only [isDigit, Bool.and_eq_true, decide_eq_true_eq] at hc
      have hminus : c.val ≠ 0x2d := by omega
      simp [parseSign, hminus]

theorem parseNumber_intText (n : ℤ) {rest : Str} (hrest : Delimited rest) :
    parseNumber number (intText n ++ rest) = some (number n, rest) := by
  cases n with
  | ofNat n =>
      simp [intText, parseNumber, parseSign_decimal, parseInteger_decimal n hrest,
        parseFraction_of_delimited hrest, parseExponent_of_delimited hrest]
  | negSucc n =>
      have hminus : str "-" = [0x2d] := rfl
      have hsign : parseSign false (0x2d :: (decimal (n + 1) ++ rest)) =
          (true, decimal (n + 1) ++ rest) := by simp [parseSign]
      simp [intText, hminus, parseNumber, hsign, parseInteger_decimal (n + 1) hrest,
        parseFraction_of_delimited hrest, parseExponent_of_delimited hrest, Int.negSucc_eq]

/-! ### Values -/

theorem skipSpace_cons_of_not_space {c : CodePoint} (h : isJsonSpace c = false) (s : Str) :
    skipSpace (c :: s) = c :: s := List.dropWhile_cons_of_neg (by simp [h])

@[simp] theorem skipSpace_space (s : Str) : skipSpace (0x20 :: s) = skipSpace s := by
  simp [skipSpace, isJsonSpace]

@[simp] theorem token_space (t : ℕ) (s : Str) : token t (0x20 :: s) = token t s := by
  simp [token]

theorem parseValue_space (fuel : ℕ) (s : Str) :
    parseValue number fuel (0x20 :: s) = parseValue number fuel s := by
  cases fuel with
  | zero => rfl
  | succ fuel => simp [parseValue]

theorem parseItems_space (fuel : ℕ) (s : Str) :
    parseItems number fuel (0x20 :: s) = parseItems number fuel s := by
  cases fuel with
  | zero => rfl
  | succ fuel => simp [parseItems, parseValue_space]

theorem parseFields_space (fuel : ℕ) (s : Str) :
    parseFields number fuel (0x20 :: s) = parseFields number fuel s := by
  cases fuel with
  | zero => rfl
  | succ fuel => simp [parseFields]

theorem intText_head (n : ℤ) : ∃ c s, intText n = c :: s ∧ 0x2d ≤ c.val ∧ c.val ≤ 0x39 := by
  cases n with
  | ofNat n =>
      cases hdigits : decimal n with
      | nil => exact absurd hdigits (decimal_ne_nil n)
      | cons c s =>
          have hc : isDigit c = true := isDigit_of_mem_decimal c (hdigits ▸ List.mem_cons_self)
          simp only [isDigit, Bool.and_eq_true, decide_eq_true_eq] at hc
          exact ⟨c, s, hdigits, by omega⟩
  | negSucc n => exact ⟨0x2d, decimal (n + 1), rfl, by decide⟩

theorem isJsonSpace_of_number {c : CodePoint} (h : 0x2d ≤ c.val ∧ c.val ≤ 0x39) :
    isJsonSpace c = false := by
  simp only [isJsonSpace, List.contains_eq_mem, List.mem_cons, List.not_mem_nil, or_false,
    decide_eq_false_iff_not]
  omega

theorem parseValue_num (fuel : ℕ) (n : ℤ) {rest : Str} (hrest : Delimited rest) :
    parseValue number (fuel + 1) (intText n ++ rest) = some (.num (number n), rest) := by
  have hnumber := parseNumber_intText number n hrest
  obtain ⟨c, s, htext, hc⟩ := intText_head n
  rw [htext, List.cons_append] at hnumber ⊢
  have hname : ∀ (d : CodePoint) (name : Str), 0x39 < d.val →
      (d :: name).isPrefixOf (c :: (s ++ rest)) = false := by
    intro d name hd
    have hne : (d == c) = false := by
      simp only [beq_eq_false_iff_ne, ne_eq, Fin.ext_iff]
      omega
    simp [List.isPrefixOf, hne]
  have hnull : (str "null").isPrefixOf (c :: (s ++ rest)) = false := hname 0x6e _ (by decide)
  have htrue : (str "true").isPrefixOf (c :: (s ++ rest)) = false := hname 0x74 _ (by decide)
  have hfalse : (str "false").isPrefixOf (c :: (s ++ rest)) = false := hname 0x66 _ (by decide)
  rw [parseValue, skipSpace_cons_of_not_space (isJsonSpace_of_number hc)]
  simp only
  rw [if_neg (by omega), if_neg (by omega), if_neg (by omega)]
  simp only [parseScalar, hnull, htrue, hfalse, Bool.false_eq_true, if_false, hnumber,
    Option.map_some]

theorem parseValue_str (fuel : ℕ) (s rest : Str) :
    parseValue number (fuel + 1) (dumpsStr s ++ rest) = some (.str (utf16 s), rest) := by
  have htext : dumpsStr s ++ rest = 0x22 :: (s.flatMap escapeChar ++ 0x22 :: rest) := by
    simp [dumpsStr]
  rw [htext, parseValue, skipSpace_cons_of_not_space (by decide)]
  simp [parseString_escaped]

theorem token_self {t : CodePoint} (h : isJsonSpace t = false) (s : Str) :
    token t.val (t :: s) = some s := by
  simp [token, skipSpace_cons_of_not_space h]

theorem token_of_ne {c : CodePoint} {t : ℕ} (h : isJsonSpace c = false) (hne : c.val ≠ t)
    (s : Str) : token t (c :: s) = none := by
  simp [token, skipSpace_cons_of_not_space h, hne]

theorem dumps_head (v : Value ℤ) :
    ∃ c s, dumps v = c :: s ∧ isJsonSpace c = false ∧ c.val ≠ 0x5d := by
  cases v with
  | null => exact ⟨_, _, rfl, by decide, by decide⟩
  | bool b => cases b <;> exact ⟨_, _, rfl, by decide, by decide⟩
  | num n =>
      obtain ⟨c, s, htext, hc⟩ := intText_head n
      exact ⟨c, s, htext, isJsonSpace_of_number hc, by omega⟩
  | str s => exact ⟨_, _, rfl, by decide, by decide⟩
  | arr items => exact ⟨_, _, rfl, by decide, by decide⟩
  | obj fields => exact ⟨_, _, rfl, by decide, by decide⟩

theorem dumpsItems_head (v : Value ℤ) (items : List (Value ℤ)) :
    ∃ c s, dumpsItems (v :: items) = c :: s ∧ isJsonSpace c = false ∧ c.val ≠ 0x5d := by
  obtain ⟨c, s, htext, hc⟩ := dumps_head v
  cases items with
  | nil => exact ⟨c, s, htext, hc⟩
  | cons w items =>
      refine ⟨c, s ++ str ", " ++ dumpsItems (w :: items), ?_, hc⟩
      simp only [dumpsItems, htext, List.cons_append]

theorem dumpsFields_head (field : Str × Value ℤ) (fields : List (Str × Value ℤ)) :
    ∃ s, dumpsFields (field :: fields) = 0x22 :: s := by
  cases fields with
  | nil => exact ⟨_, by simp [dumpsFields, dumpsStr]; rfl⟩
  | cons other fields => exact ⟨_, by simp [dumpsFields, dumpsStr]; rfl⟩

/-- The parser with enough fuel, on values, on the items of an array and on the
fields of an object. -/
structure ReadsBack (fuel : ℕ) : Prop where
  value : ∀ v rest, Delimited rest → (dumps v).length ≤ fuel →
    parseValue number fuel (dumps v ++ rest) = some (toJs number v, rest)
  items : ∀ v items rest, (dumpsItems (v :: items)).length < fuel →
    parseItems number fuel (dumpsItems (v :: items) ++ 0x5d :: rest) =
      some (toJsItems number (v :: items), rest)
  fields : ∀ field fields rest, (dumpsFields (field :: fields)).length < fuel →
    parseFields number fuel (dumpsFields (field :: fields) ++ 0x7d :: rest) =
      some (toJsFields number (field :: fields), rest)

variable {number}

theorem ReadsBack.value_succ {fuel : ℕ} (h : ReadsBack number fuel) (v : Value ℤ) {rest : Str}
    (hrest : Delimited rest) (hfuel : (dumps v).length ≤ fuel + 1) :
    parseValue number (fuel + 1) (dumps v ++ rest) = some (toJs number v, rest) := by
  cases v with
  | null =>
      have hname : dumps .null ++ rest = 0x6e :: 0x75 :: 0x6c :: 0x6c :: rest := rfl
      rw [hname, parseValue, skipSpace_cons_of_not_space (by decide)]
      rfl
  | bool b =>
      cases b with
      | true =>
          have hname : dumps (.bool true) ++ rest = 0x74 :: 0x72 :: 0x75 :: 0x65 :: rest := rfl
          rw [hname, parseValue, skipSpace_cons_of_not_space (by decide)]
          rfl
      | false =>
          have hname : dumps (.bool false) ++ rest =
            0x66 :: 0x61 :: 0x6c :: 0x73 :: 0x65 :: rest := rfl
          rw [hname, parseValue, skipSpace_cons_of_not_space (by decide)]
          rfl
  | num n => exact parseValue_num number fuel n hrest
  | str s => exact parseValue_str number fuel s rest
  | arr items =>
      cases items with
      | nil =>
          have htext : dumps (.arr []) ++ rest = 0x5b :: 0x5d :: rest := rfl
          rw [htext, parseValue, skipSpace_cons_of_not_space (by decide)]
          rfl
      | cons v items =>
          have htext : dumps (.arr (v :: items)) ++ rest =
              0x5b :: (dumpsItems (v :: items) ++ 0x5d :: rest) := by
            have hopen : str "[" = [0x5b] := rfl
            have hclose : str "]" = [0x5d] := rfl
            simp [dumps, hopen, hclose]
          have hlength : (dumpsItems (v :: items)).length < fuel := by
            have hopen : (str "[").length = 1 := rfl
            have hclose : (str "]").length = 1 := rfl
            simp only [dumps, List.length_append, hopen, hclose] at hfuel
            omega
          -- the first item does not begin with the bracket that would end the array
          obtain ⟨c, s, hhead, hspace, hne⟩ := dumpsItems_head v items
          have htoken : token 0x5d (dumpsItems (v :: items) ++ 0x5d :: rest) = none := by
            rw [hhead]
            exact token_of_ne hspace hne _
          rw [htext, parseValue, skipSpace_cons_of_not_space (by decide)]
          simp [htoken, h.items v items rest hlength, toJs]
  | obj fields =>
      cases fields with
      | nil =>
          have htext : dumps (.obj []) ++ rest = 0x7b :: 0x7d :: rest := rfl
          rw [htext, parseValue, skipSpace_cons_of_not_space (by decide)]
          rfl
      | cons field fields =>
          have htext : dumps (.obj (field :: fields)) ++ rest =
              0x7b :: (dumpsFields (field :: fields) ++ 0x7d :: rest) := by
            simp [dumps]
          have hlength : (dumpsFields (field :: fields)).length < fuel := by
            simp only [dumps, List.length_append, List.length_singleton] at hfuel
            omega
          obtain ⟨s, hhead⟩ := dumpsFields_head field fields
          have htoken : token 0x7d (dumpsFields (field :: fields) ++ 0x7d :: rest) = none := by
            rw [hhead]
            exact token_of_ne (by decide) (by decide) _
          rw [htext, parseValue, skipSpace_cons_of_not_space (by decide)]
          simp [htoken, h.fields field fields rest hlength, toJs]

theorem ReadsBack.items_succ {fuel : ℕ} (h : ReadsBack number fuel) (v : Value ℤ)
    (items : List (Value ℤ)) (rest : Str)
    (hfuel : (dumpsItems (v :: items)).length < fuel + 1) :
    parseItems number (fuel + 1) (dumpsItems (v :: items) ++ 0x5d :: rest) =
      some (toJsItems number (v :: items), rest) := by
  cases items with
  | nil =>
      have hvalue := h.value v (0x5d :: rest) (fun c hc => by cases hc; decide)
        (by simp only [dumpsItems] at hfuel; omega)
      have hcomma : token 0x2c (0x5d :: rest) = none := token_of_ne (by decide) (by decide) rest
      have hclose : token 0x5d (0x5d :: rest) = some rest :=
        token_self (t := 0x5d) (by decide) rest
      rw [parseItems, dumpsItems, hvalue]
      simp [hcomma, hclose, toJsItems]
  | cons w items =>
      have htext : dumpsItems (v :: w :: items) ++ 0x5d :: rest =
          dumps v ++ 0x2c :: 0x20 :: (dumpsItems (w :: items) ++ 0x5d :: rest) := by
        have hsep : str ", " = [0x2c, 0x20] := rfl
        simp [dumpsItems, hsep]
      have hlength : (dumps v).length + 2 + (dumpsItems (w :: items)).length < fuel + 1 := by
        have hsep : (str ", ").length = 2 := rfl
        simpa only [dumpsItems, List.length_append, hsep] using hfuel
      have hvalue := h.value v (0x2c :: 0x20 :: (dumpsItems (w :: items) ++ 0x5d :: rest))
        (fun c hc => by cases hc; decide) (by omega)
      have hcomma : token 0x2c (0x2c :: 0x20 :: (dumpsItems (w :: items) ++ 0x5d :: rest)) =
        some (0x20 :: (dumpsItems (w :: items) ++ 0x5d :: rest)) :=
          token_self (t := 0x2c) (by decide) _
      rw [htext, parseItems, hvalue]
      simp [hcomma, parseItems_space, h.items w items rest (by omega), toJsItems]

theorem token_key (key rest : Str) :
    token 0x22 (dumpsStr key ++ str ": " ++ rest) =
      some (key.flatMap escapeChar ++ 0x22 :: 0x3a :: 0x20 :: rest) := by
  have hsep : str ": " = [0x3a, 0x20] := rfl
  have htext : dumpsStr key ++ str ": " ++ rest =
      0x22 :: (key.flatMap escapeChar ++ 0x22 :: 0x3a :: 0x20 :: rest) := by
    simp [dumpsStr, hsep]
  rw [htext]
  exact token_self (t := 0x22) (by decide) _

theorem token_colon (rest : Str) : token 0x3a (0x3a :: 0x20 :: rest) = some (0x20 :: rest) :=
  token_self (t := 0x3a) (by decide) _

theorem ReadsBack.fields_succ {fuel : ℕ} (h : ReadsBack number fuel) (field : Str × Value ℤ)
    (fields : List (Str × Value ℤ)) (rest : Str)
    (hfuel : (dumpsFields (field :: fields)).length < fuel + 1) :
    parseFields number (fuel + 1) (dumpsFields (field :: fields) ++ 0x7d :: rest) =
      some (toJsFields number (field :: fields), rest) := by
  obtain ⟨key, v⟩ := field
  cases fields with
  | nil =>
      have htext : dumpsFields [(key, v)] ++ 0x7d :: rest =
          dumpsStr key ++ str ": " ++ (dumps v ++ 0x7d :: rest) := by
        simp only [dumpsFields, List.append_assoc]
      have hvalue := h.value v (0x7d :: rest) (fun c hc => by cases hc; decide)
        (by simp only [dumpsFields, List.length_append] at hfuel; omega)
      have hcomma : token 0x2c (0x7d :: rest) = none := token_of_ne (by decide) (by decide) rest
      have hclose : token 0x7d (0x7d :: rest) = some rest :=
        token_self (t := 0x7d) (by decide) rest
      rw [htext, parseFields, token_key]
      simp [parseString_escaped, token_colon, parseValue_space, hvalue, hcomma, hclose,
        toJsFields]
  | cons other fields =>
      have hsep : str ", " = [0x2c, 0x20] := rfl
      have htext : dumpsFields ((key, v) :: other :: fields) ++ 0x7d :: rest =
          dumpsStr key ++ str ": " ++
            (dumps v ++ 0x2c :: 0x20 :: (dumpsFields (other :: fields) ++ 0x7d :: rest)) := by
        simp only [dumpsFields, hsep, List.append_assoc, List.cons_append, List.nil_append]
      have hlength : (dumps v).length + 2 + (dumpsFields (other :: fields)).length < fuel + 1 := by
        have htwo : (str ", ").length = 2 := rfl
        simp only [dumpsFields, List.length_append, htwo] at hfuel
        omega
      have hvalue := h.value v (0x2c :: 0x20 :: (dumpsFields (other :: fields) ++ 0x7d :: rest))
        (fun c hc => by cases hc; decide) (by omega)
      have hcomma : token 0x2c (0x2c :: 0x20 :: (dumpsFields (other :: fields) ++ 0x7d :: rest)) =
        some (0x20 :: (dumpsFields (other :: fields) ++ 0x7d :: rest)) :=
          token_self (t := 0x2c) (by decide) _
      rw [htext, parseFields, token_key]
      simp [parseString_escaped, token_colon, parseValue_space, hvalue, hcomma,
        parseFields_space, h.fields other fields rest (by omega), toJsFields]

theorem readsBack (fuel : ℕ) : ReadsBack number fuel := by
  -- no text is shorter than a value in it, so the length covers the depth of the calls
  induction fuel with
  | zero =>
      refine ⟨fun v rest _ hfuel => ?_, fun _ _ _ hfuel => absurd hfuel (Nat.not_lt_zero _),
        fun _ _ _ hfuel => absurd hfuel (Nat.not_lt_zero _)⟩
      obtain ⟨c, s, htext, _⟩ := dumps_head v
      rw [htext] at hfuel
      exact absurd hfuel (by simp)
  | succ fuel ih =>
      exact ⟨fun v _ hrest hfuel => ih.value_succ v hrest hfuel, ih.items_succ, ih.fields_succ⟩

/-- `JSON.parse(json.dumps(v))`. -/
theorem parse_dumps (v : Value ℤ) : parse number (dumps v) = some (toJs number v) := by
  have hreads : ReadsBack number (2 * (dumps v).length + 1) := readsBack _
  have hvalue := hreads.value v [] delimited_nil (by omega)
  rw [List.append_nil] at hvalue
  unfold parse
  rw [hvalue]
  rfl

end Json
