import TictactoeBots.Lib.Text

/-!
The quoting of cookie values in Python's `http.cookies`.

A value of legal characters is written as it is, any other one between double
quotes, with a backslash before quotes and backslashes and an octal escape for
the rest of the characters below `0x100` that may not stand there. Characters
from `0x100` on are not touched. Reading takes all of that back.
-/

namespace CookieQuote

open Text

/-- A character of `_LegalChars`. -/
def isLegal (c : CodePoint) : Bool :=
  (0x41 ≤ c.val && c.val ≤ 0x5a) || (0x61 ≤ c.val && c.val ≤ 0x7a) ||
    (0x30 ≤ c.val && c.val ≤ 0x39) || (str "!#$%&'*+-.^_`|~:").contains c

/-- A character of `_UnescapedChars`. -/
def isUnescaped (c : CodePoint) : Bool :=
  isLegal c || (str " ()/<=>?@[]\x7b\x7d").contains c

def quoteMark : CodePoint := 0x22

def backslash : CodePoint := 0x5c

/-- `"\\%03o" % n`, for `n` below `0o400`. -/
def octalEscape (n : ℕ) : Str :=
  [backslash, digitChar (n / 64), digitChar (n / 8 % 8), digitChar (n % 8)]

/-- The entry of `_Translator`, or the character itself. -/
def translate (c : CodePoint) : Str :=
  if c = quoteMark ∨ c = backslash then [backslash, c]
  else if c.val < 0x100 ∧ !isUnescaped c then octalEscape c.val
  else [c]

/-- `_quote(s)`. -/
def quote (s : Str) : Str :=
  if s ≠ [] ∧ s.all isLegal then s else quoteMark :: s.flatMap translate ++ [quoteMark]

def octalDigit (top : ℕ) (c : CodePoint) : Option ℕ :=
  if 0x30 ≤ c.val ∧ c.val ≤ 0x30 + top then some (c.val - 0x30) else none

def octalValue (d e f : CodePoint) : Option ℕ := do
  let high ← octalDigit 3 d
  let middle ← octalDigit 7 e
  let low ← octalDigit 7 f
  return high * 64 + middle * 8 + low

/-- A backslash stands for the character after it, unless that is a line feed. -/
def takesNext (c d : CodePoint) : Bool := c == backslash && d != 0x0a

/-- `_unquote_sub`: an octal escape, an escaped character, or any other one. -/
def unescape : Str → Str
  | c :: d :: e :: f :: rest =>
      match octalValue d e f with
      | some n =>
          if c = backslash then Fin.ofNat _ n :: unescape rest
          else c :: unescape (d :: e :: f :: rest)
      | none =>
          if takesNext c d then d :: unescape (e :: f :: rest)
          else c :: unescape (d :: e :: f :: rest)
  | c :: d :: rest =>
      if takesNext c d then d :: unescape rest else c :: unescape (d :: rest)
  | [c] => [c]
  | [] => []

/-- `_unquote(s)`. -/
def unquote (s : Str) : Str :=
  if s.length < 2 then s
  else if s.head? ≠ some quoteMark ∨ s.getLast? ≠ some quoteMark then s
  else unescape s.tail.dropLast

example : quote (str "J. \"O\" \\ B;") = str "\"J. \\\"O\\\" \\\\ B\\073\"" := by decide

/-! ### Reading back -/

theorem unescape_cons_of_ne {c : CodePoint} (h : c ≠ backslash) (rest : Str) :
    unescape (c :: rest) = c :: unescape rest := by
  have htakes : ∀ d, takesNext c d = false := fun d => by simp [takesNext, h]
  match rest with
  | [] => rfl
  | [d] => rw [unescape.eq_2 _ _ _ (by simp), htakes, if_neg Bool.false_ne_true]
  | [d, e] => rw [unescape.eq_2 _ _ _ (by simp), htakes, if_neg Bool.false_ne_true]
  | d :: e :: f :: rest =>
      rw [unescape]
      cases octalValue d e f with
      | none => rw [htakes]; rfl
      | some n => exact if_neg h

theorem unescape_backslash {d : CodePoint} (hdigit : octalDigit 3 d = none) (hfeed : d ≠ 0x0a)
    (rest : Str) : unescape (backslash :: d :: rest) = d :: unescape rest := by
  have htakes : takesNext backslash d = true := by simp [takesNext, hfeed]
  match rest with
  | [] => rw [unescape.eq_2 _ _ _ (by simp), if_pos htakes]
  | [e] => rw [unescape.eq_2 _ _ _ (by simp), if_pos htakes]
  | e :: f :: rest =>
      have hvalue : octalValue d e f = none := by simp [octalValue, hdigit]
      rw [unescape, hvalue]
      exact if_pos htakes

theorem octalDigit_digitChar {top d : ℕ} (htop : top ≤ 7) (h : d ≤ top) :
    octalDigit top (digitChar d) = some d := by
  have hd : d ≤ 7 := h.trans htop
  have hval : (digitChar d).val = 0x30 + d := by
    interval_cases d <;> rfl
  rw [octalDigit, hval, if_pos (by omega)]
  exact congrArg some (by omega)

theorem unescape_octalEscape {n : ℕ} (h : n < 0x100) (rest : Str) :
    unescape (octalEscape n ++ rest) = Fin.ofNat _ n :: unescape rest := by
  have hvalue : octalValue (digitChar (n / 64)) (digitChar (n / 8 % 8)) (digitChar (n % 8)) =
      some n := by
    rw [octalValue, octalDigit_digitChar (by omega) (by omega),
      octalDigit_digitChar (by omega) (by omega), octalDigit_digitChar (by omega) (by omega)]
    exact congrArg some (by omega)
  rw [octalEscape]
  simp only [List.cons_append, List.nil_append]
  rw [unescape, hvalue]
  rfl

theorem unescape_translate (c : CodePoint) (rest : Str) :
    unescape (translate c ++ rest) = c :: unescape rest := by
  unfold translate
  split
  · rename_i hspecial
    obtain rfl | rfl := hspecial
    · exact unescape_backslash rfl (by decide) rest
    · exact unescape_backslash rfl (by decide) rest
  · rename_i hplain
    rw [not_or] at hplain
    split
    · rename_i hescaped
      rw [unescape_octalEscape hescaped.1, Fin.ofNat_val_eq_self]
    · exact unescape_cons_of_ne hplain.2 rest

theorem unescape_flatMap_translate (s : Str) : unescape (s.flatMap translate) = s := by
  induction s with
  | nil => rfl
  | cons c s ih => rw [List.flatMap_cons, unescape_translate, ih]

/-- Every text is read back from its quoted form. -/
theorem unquote_quote (s : Str) : unquote (quote s) = s := by
  unfold quote
  split
  · rename_i hlegal
    -- a legal character is no quote mark, so the value is read as it is
    obtain ⟨c, rest, rfl⟩ := List.exists_cons_of_ne_nil hlegal.1
    have hc : isLegal c = true := List.all_eq_true.1 hlegal.2 c List.mem_cons_self
    have hhead : (c :: rest).head? ≠ some quoteMark := by
      intro h
      rw [Option.some.inj h] at hc
      exact absurd hc (by decide)
    rw [unquote, if_pos (Or.inl hhead), ite_self]
  · have hlength : ¬(quoteMark :: s.flatMap translate ++ [quoteMark]).length < 2 := by simp
    have hmarks : ¬((quoteMark :: s.flatMap translate ++ [quoteMark]).head? ≠ some quoteMark ∨
        (quoteMark :: s.flatMap translate ++ [quoteMark]).getLast? ≠ some quoteMark) := by
      rw [List.getLast?_concat]
      simp
    rw [unquote, if_neg hlength, if_neg hmarks, List.cons_append, List.tail_cons,
      List.dropLast_concat, unescape_flatMap_translate]

/-! ### What is written -/

theorem quote_cases (s : Str) : (quote s = s ∧ ∀ c ∈ s, isLegal c = true) ∨
    ∃ inside, quote s = quoteMark :: inside ++ [quoteMark] := by
  unfold quote
  split
  · rename_i hlegal
    exact .inl ⟨rfl, List.all_eq_true.1 hlegal.2⟩
  · exact .inr ⟨_, rfl⟩

theorem isSpace_of_isLegal {c : CodePoint} (h : isLegal c = true) : isSpace c = false := by
  have hall : (str "!#$%&'*+-.^_`|~:").all (fun d => decide (0x21 ≤ d.val ∧ d.val < 0x80)) = true :=
    rfl
  have hrange : 0x21 ≤ c.val ∧ c.val < 0x80 := by
    simp only [isLegal, Bool.or_eq_true, Bool.and_eq_true, decide_eq_true_eq,
      List.contains_iff_mem] at h
    obtain ((h | h) | h) | h := h
    · omega
    · omega
    · omega
    · exact of_decide_eq_true (List.all_eq_true.1 hall c h)
  rw [Bool.eq_false_iff]
  intro hspace
  simp only [isSpace, List.contains_iff_mem, List.mem_cons, List.not_mem_nil, or_false] at hspace
  omega

theorem mem_translate {c d : CodePoint} (hd : d ∈ translate c) :
    d = backslash ∨ d = quoteMark ∨ isUnescaped d = true ∨ (d = c ∧ 0x100 ≤ c.val) := by
  unfold translate at hd
  split at hd
  · rename_i hspecial
    simp only [List.mem_cons, List.not_mem_nil, or_false] at hd
    obtain rfl | rfl := hd
    · exact .inl rfl
    · exact hspecial.elim (fun h => .inr (.inl h)) .inl
  · split at hd
    · rename_i hescaped
      have hdigit : ∀ n < 8, isUnescaped (digitChar n) = true := by decide
      simp only [octalEscape, List.mem_cons, List.not_mem_nil, or_false] at hd
      obtain rfl | rfl | rfl | rfl := hd
      · exact .inl rfl
      · exact .inr (.inr (.inl (hdigit _ (by omega))))
      · exact .inr (.inr (.inl (hdigit _ (by omega))))
      · exact .inr (.inr (.inl (hdigit _ (by omega))))
    · rename_i hkept
      obtain rfl := List.mem_singleton.1 hd
      by_cases hbyte : d.val < 0x100
      · exact .inr (.inr (.inl (by simpa [hbyte] using hkept)))
      · exact .inr (.inr (.inr ⟨rfl, by omega⟩))

theorem mem_quote {s : Str} {d : CodePoint} (hd : d ∈ quote s) :
    d = backslash ∨ d = quoteMark ∨ isUnescaped d = true ∨ (d ∈ s ∧ 0x100 ≤ d.val) := by
  unfold quote at hd
  split at hd
  · rename_i hlegal
    have hd := List.all_eq_true.1 hlegal.2 d hd
    exact .inr (.inr (.inl (by simp [isUnescaped, hd])))
  · rw [List.cons_append, List.mem_cons, List.mem_append, List.mem_singleton] at hd
    obtain rfl | hd | rfl := hd
    · exact .inr (.inl rfl)
    · obtain ⟨c, hc, hd⟩ := List.mem_flatMap.1 hd
      obtain h | h | h | ⟨rfl, h⟩ := mem_translate hd
      · exact .inl h
      · exact .inr (.inl h)
      · exact .inr (.inr (.inl h))
      · exact .inr (.inr (.inr ⟨hc, h⟩))
    · exact .inr (.inl rfl)

theorem isUnescaped_lt {c : CodePoint} (h : isUnescaped c = true) : c.val < 0x80 := by
  simp only [isUnescaped, isLegal, Bool.or_eq_true, Bool.and_eq_true, decide_eq_true_eq,
    List.contains_iff_mem] at h
  have hall : (str "!#$%&'*+-.^_`|~:" ++ str " ()/<=>?@[]\x7b\x7d").all
      (fun d => decide (d.val < 0x80)) = true := rfl
  have hlists := fun d hd => of_decide_eq_true (List.all_eq_true.1 hall d hd)
  rcases h with (((h | h) | h) | h) | h
  · omega
  · omega
  · omega
  · exact hlists c (List.mem_append_left _ h)
  · exact hlists c (List.mem_append_right _ h)

theorem mem_quote_of_wide {s : Str} {c : CodePoint} (hc : c ∈ s) (hwide : 0x100 ≤ c.val) :
    c ∈ quote s := by
  unfold quote
  split
  · exact hc
  · have hkept : translate c = [c] := by
      have hmarks : ¬(c = quoteMark ∨ c = backslash) := by
        rintro (rfl | rfl) <;> exact absurd hwide (by decide)
      rw [translate, if_neg hmarks, if_neg fun h => by omega]
    rw [List.cons_append]
    refine List.mem_cons_of_mem _ (List.mem_append_left _ (List.mem_flatMap.2 ⟨c, hc, ?_⟩))
    rw [hkept]
    exact List.mem_singleton_self c

end CookieQuote
