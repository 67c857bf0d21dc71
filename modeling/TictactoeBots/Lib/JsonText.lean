import TictactoeBots.Lib.JsonParse

/-!
What can occur in a text that `json.dumps` writes: printable ASCII characters
only, and a pattern that needs no escape just where one of the strings of the
value has it.

The pattern is looked for after a translation of the characters, such as to
lower case.
-/

namespace Json

open Text

/-! ### Characters -/

/-- A string holds `c` without an escape. -/
def Plain (c : CodePoint) : Prop :=
  0x20 ≤ c.val ∧ c.val ≤ 0x7e ∧ c.val ≠ 0x22 ∧ c.val ≠ 0x5c

/-- A character that is written around and between strings, or in an escape. -/
def Markup (c : CodePoint) : Prop :=
  (0x30 ≤ c.val ∧ c.val ≤ 0x39) ∨ (0x61 ≤ c.val ∧ c.val ≤ 0x7a) ∨
    c.val ∈ [0x20, 0x22, 0x2c, 0x2d, 0x3a, 0x5b, 0x5c, 0x5d, 0x7b, 0x7d]

instance (c : CodePoint) : Decidable (Plain c) := inferInstanceAs (Decidable (_ ∧ _))

instance (c : CodePoint) : Decidable (Markup c) := inferInstanceAs (Decidable (_ ∨ _))

theorem markup_of_all {s : Str} (h : (s.all fun c => decide (Markup c)) = true) :
    ∀ c ∈ s, Markup c := fun c hc => of_decide_eq_true (List.all_eq_true.1 h c hc)

theorem markup_digitChar {d : ℕ} (h : d < 16) : Markup (digitChar d) := by
  interval_cases d <;> decide

theorem markup_hexPadded (width n : ℕ) : ∀ c ∈ hexPadded width n, Markup c := by
  induction width generalizing n with
  | zero => exact fun c hc => absurd hc List.not_mem_nil
  | succ width ih =>
      intro c hc
      obtain hc | hc := List.mem_append.1 hc
      · exact ih _ c hc
      · rw [List.mem_singleton.1 hc]
        exact markup_digitChar (Nat.mod_lt n (by decide))

theorem markup_decimal (n : ℕ) : ∀ c ∈ decimal n, Markup c := by
  intro c hc
  obtain ⟨d, hd, rfl⟩ := exists_digit_of_mem_decimal hc
  exact markup_digitChar (by omega)

theorem markup_intText (n : ℤ) : ∀ c ∈ intText n, Markup c := by
  cases n with
  | ofNat n => exact markup_decimal n
  | negSucc n =>
      intro c hc
      obtain hc | hc := List.mem_append.1 hc
      · obtain rfl : c = 0x2d := List.mem_singleton.1 hc
        decide
      · exact markup_decimal _ c hc

theorem escapeChar_cases (c : CodePoint) :
    (Plain c ∧ escapeChar c = [c]) ∨
      (¬Plain c ∧ ∃ t, escapeChar c = 0x5c :: t ∧ ∀ d ∈ t, Markup d) := by
  obtain ⟨d, hshort, heq⟩ | ⟨hplain, heq⟩ | ⟨hwide, heq⟩ := escapeChar_forms c
  · obtain ⟨hnot, hmarkup⟩ : ¬Plain c ∧ Markup d := by
      simp only [shortEscapes, List.mem_cons, Prod.mk.injEq, List.not_mem_nil, or_false] at hshort
      rcases hshort with ⟨rfl, rfl⟩ | ⟨rfl, rfl⟩ | ⟨rfl, rfl⟩ | ⟨rfl, rfl⟩ | ⟨rfl, rfl⟩ |
          ⟨rfl, rfl⟩ | ⟨rfl, rfl⟩ <;>
        exact ⟨by decide, by decide⟩
    refine .inr ⟨hnot, [d], heq, fun e he => ?_⟩
    rwa [List.mem_singleton.1 he]
  · exact .inl ⟨hplain, heq⟩
  · refine .inr ⟨fun hplain => hwide ⟨hplain.1, hplain.2.1⟩, ?_⟩
    rw [heq]
    have hunit : ∀ u, ∀ d ∈ str "\\u" ++ hexPadded 4 u, Markup d := by
      intro u d hd
      obtain hd | hd := List.mem_append.1 hd
      · exact markup_of_all (s := str "\\u") rfl d hd
      · exact markup_hexPadded 4 u d hd
    have hunits : ∀ d ∈ (utf16Units c).flatMap fun u => str "\\u" ++ hexPadded 4 u, Markup d := by
      intro d hd
      obtain ⟨u, _, hd⟩ := List.mem_flatMap.1 hd
      exact hunit u d hd
    have hhead : ∃ u units, utf16Units c = u :: units := by
      unfold utf16Units
      split <;> exact ⟨_, _, rfl⟩
    obtain ⟨u, units, hcons⟩ := hhead
    rw [hcons] at hunits ⊢
    exact ⟨_, rfl, fun d hd => hunits d (List.mem_cons_of_mem _ hd)⟩

/-! ### Printable text -/

def Printable (s : Str) : Prop := ∀ c ∈ s, 0x20 ≤ c.val ∧ c.val ≤ 0x7e

theorem Printable.append {s t : Str} (hs : Printable s) (ht : Printable t) :
    Printable (s ++ t) := fun c hc => (List.mem_append.1 hc).elim (hs c) (ht c)

theorem printable_of_markup {s : Str} (h : ∀ c ∈ s, Markup c) : Printable s := by
  intro c hc
  have hmarkup := h c hc
  simp only [Markup, List.mem_cons, List.not_mem_nil, or_false] at hmarkup
  omega

theorem printable_dumpsStr (s : Str) : Printable (dumpsStr s) := by
  have hquote : Printable [0x22] := printable_of_markup (markup_of_all rfl)
  refine (hquote.append fun c hc => ?_).append hquote
  obtain ⟨d, _, hc⟩ := List.mem_flatMap.1 hc
  obtain ⟨hplain, heq⟩ | ⟨_, t, heq, ht⟩ := escapeChar_cases d
  · rw [heq, List.mem_singleton] at hc
    exact hc ▸ ⟨hplain.1, hplain.2.1⟩
  · rw [heq] at hc
    have hescape : ∀ d ∈ (0x5c : CodePoint) :: t, Markup d :=
      List.forall_mem_cons.2 ⟨by decide, ht⟩
    exact printable_of_markup hescape c hc

mutual

theorem printable_dumps : ∀ v : Value ℤ, Printable (dumps v)
  | .null => printable_of_markup (markup_of_all rfl)
  | .bool true => printable_of_markup (markup_of_all rfl)
  | .bool false => printable_of_markup (markup_of_all rfl)
  | .num n => printable_of_markup (markup_intText n)
  | .str s => printable_dumpsStr s
  | .arr items => by
      have hopen : Printable (str "[") := printable_of_markup (markup_of_all rfl)
      have hclose : Printable (str "]") := printable_of_markup (markup_of_all rfl)
      exact (hopen.append (printable_dumpsItems items)).append hclose
  | .obj fields => by
      have hopen : Printable [0x7b] := printable_of_markup (markup_of_all rfl)
      have hclose : Printable [0x7d] := printable_of_markup (markup_of_all rfl)
      exact (hopen.append (printable_dumpsFields fields)).append hclose

theorem printable_dumpsItems : ∀ items : List (Value ℤ), Printable (dumpsItems items)
  | [] => fun _ hc => absurd hc List.not_mem_nil
  | [v] => printable_dumps v
  | v :: w :: items => by
      have hsep : Printable (str ", ") := printable_of_markup (markup_of_all rfl)
      exact ((printable_dumps v).append hsep).append (printable_dumpsItems (w :: items))

theorem printable_dumpsFields : ∀ fields : List (Str × Value ℤ), Printable (dumpsFields fields)
  | [] => fun _ hc => absurd hc List.not_mem_nil
  | [(key, v)] => by
      have hcolon : Printable (str ": ") := printable_of_markup (markup_of_all rfl)
      exact ((printable_dumpsStr key).append hcolon).append (printable_dumps v)
  | (key, v) :: field :: fields => by
      have hcolon : Printable (str ": ") := printable_of_markup (markup_of_all rfl)
      have hsep : Printable (str ", ") := printable_of_markup (markup_of_all rfl)
      exact ((((printable_dumpsStr key).append hcolon).append (printable_dumps v)).append
        hsep).append (printable_dumpsFields (field :: fields))

end

theorem utf16_of_lt {s : Str} (h : ∀ c ∈ s, c.val < 0x10000) : utf16 s = s := by
  induction s with
  | nil => rfl
  | cons c s ih =>
      rw [List.forall_mem_cons] at h
      have hunits : utf16Units c = [c.val] := if_pos h.1
      have hself : Fin.ofNat 0x110000 c.val = c := Fin.ofNat_val_eq_self c
      have hrest : utf16 s = s := ih h.2
      rw [utf16, List.flatMap_cons, hunits]
      simp only [List.map_cons, List.map_nil, hself, List.singleton_append]
      exact congrArg (c :: ·) hrest

theorem utf16_of_printable {s : Str} (h : Printable s) : utf16 s = s := by
  apply utf16_of_lt
  intro c hc
  have hrange := h c hc
  omega

theorem eq_of_utf16 {s t : Str} (h : utf16 s = t) (ht : ∀ c ∈ t, c.val < 0xd800) : s = t := by
  have hlt : ∀ c ∈ s, c.val < 0x10000 := by
    intro c hc
    by_contra hlarge
    have hfirst : Fin.ofNat 0x110000 (0xd800 + (c.val - 0x10000) / 0x400) ∈ t := by
      rw [← h, utf16]
      refine List.mem_flatMap.2 ⟨c, hc, ?_⟩
      rw [utf16Units, if_neg hlarge]
      exact List.mem_cons_self
    have hsmall := ht _ hfirst
    rw [Fin.val_ofNat] at hsmall
    omega
  rw [← h, utf16_of_lt hlt]

/-! ### Occurrences of a pattern -/

mutual

def strings {ν : Type} : Value ν → List Str
  | .str s => [s]
  | .arr items => stringsItems items
  | .obj fields => stringsFields fields
  | .null | .bool _ | .num _ => []

def stringsItems {ν : Type} : List (Value ν) → List Str
  | [] => []
  | v :: rest => strings v ++ stringsItems rest

def stringsFields {ν : Type} : List (Str × Value ν) → List Str
  | [] => []
  | (key, v) :: rest => key :: strings v ++ stringsFields rest

end

section

variable {f : CodePoint → CodePoint} {x : CodePoint} {q : Str}

/-- The pattern `x :: q`, looked for after the translation `f`, needs no escape
and does not begin like anything that is written outside strings. -/
structure Inside (f : CodePoint → CodePoint) (x : CodePoint) (q : Str) : Prop where
  plain : ∀ c, ¬Plain c → f c ∉ x :: q
  markup : ∀ c, Markup c → f c ≠ x

def Occurs (f : CodePoint → CodePoint) (x : CodePoint) (q s : Str) : Prop :=
  (x :: q) <:+: s.map f

@[simp] theorem not_occurs_nil : ¬Occurs f x q [] := by simp [Occurs]

theorem occurs_cons_of_ne {c : CodePoint} (h : f c ≠ x) (s : Str) :
    Occurs f x q (c :: s) ↔ Occurs f x q s := by
  simp only [Occurs, List.map_cons, List.infix_cons_iff, List.cons_prefix_cons]
  exact ⟨fun hor => hor.resolve_left fun hand => h hand.1.symm, .inr⟩

theorem Inside.occurs_markup_append (h : Inside f x q) {t : Str} (ht : ∀ c ∈ t, Markup c)
    (s : Str) : Occurs f x q (t ++ s) ↔ Occurs f x q s := by
  induction t with
  | nil => rfl
  | cons c t ih =>
      rw [List.forall_mem_cons] at ht
      rw [List.cons_append, occurs_cons_of_ne (h.markup c ht.1), ih ht.2]

/-- A prefix without characters that need an escape ends before the first
escape, and before the quote at the end. -/
theorem prefix_escaped_iff {p : Str} (hp : ∀ c, ¬Plain c → f c ∉ p) (s rest : Str) :
    p <+: (s.flatMap escapeChar ++ 0x22 :: rest).map f ↔ p <+: s.map f := by
  induction s generalizing p with
  | nil =>
      cases p with
      | nil => simp
      | cons y p =>
          have hne : y ≠ f 0x22 := fun heq =>
            hp 0x22 (by decide) (heq ▸ List.mem_cons_self)
          simp [hne]
  | cons c s ih =>
      cases p with
      | nil => simp
      | cons y p =>
          obtain ⟨_, heq⟩ | ⟨hescaped, t, heq, _⟩ := escapeChar_cases c
          · have hrest := ih fun c hc hmem => hp c hc (List.mem_cons_of_mem _ hmem)
            simp only [List.flatMap_cons, heq, List.nil_append, List.cons_append,
              List.map_cons, List.cons_prefix_cons, hrest]
          · -- the escape begins with a backslash, which is not in `p`, and neither is `c`
            have hne : y ≠ f 0x5c := fun heq => hp 0x5c (by decide) (heq ▸ List.mem_cons_self)
            have hne' : y ≠ f c := fun heq => hp c hescaped (heq ▸ List.mem_cons_self)
            simp [heq, hne, hne']

theorem Inside.occurs_escaped (h : Inside f x q) (s rest : Str) :
    Occurs f x q (s.flatMap escapeChar ++ 0x22 :: rest) ↔ Occurs f x q s ∨ Occurs f x q rest := by
  induction s with
  | nil =>
      rw [List.flatMap_nil, List.nil_append, occurs_cons_of_ne (h.markup 0x22 (by decide))]
      simp
  | cons c s ih =>
      obtain ⟨_, heq⟩ | ⟨hescaped, t, heq, ht⟩ := escapeChar_cases c
      · -- the pattern begins at `c`, and then ends before the next escape, or after `c`
        have hstarts := prefix_escaped_iff h.plain (c :: s) rest
        simp only [List.flatMap_cons, heq, List.nil_append, List.cons_append] at hstarts ⊢
        simp only [Occurs, List.map_cons, List.infix_cons_iff] at hstarts ih ⊢
        rw [hstarts, ih, or_assoc]
      · have hescape : ∀ d ∈ (0x5c : CodePoint) :: t, Markup d :=
          List.forall_mem_cons.2 ⟨by decide, ht⟩
        have hne : f c ≠ x := fun heq => h.plain c hescaped (heq ▸ List.mem_cons_self)
        rw [List.flatMap_cons, List.append_assoc, heq, h.occurs_markup_append hescape, ih,
          occurs_cons_of_ne hne]

theorem Inside.occurs_dumpsStr (h : Inside f x q) (s rest : Str) :
    Occurs f x q (dumpsStr s ++ rest) ↔ Occurs f x q s ∨ Occurs f x q rest := by
  have htext : dumpsStr s ++ rest = [0x22] ++ (s.flatMap escapeChar ++ 0x22 :: rest) := by
    simp [dumpsStr]
  rw [htext, h.occurs_markup_append (markup_of_all rfl), h.occurs_escaped]

def AnyOccurs (f : CodePoint → CodePoint) (x : CodePoint) (q : Str) (texts : List Str) : Prop :=
  ∃ s ∈ texts, Occurs f x q s

@[simp] theorem not_anyOccurs_nil : ¬AnyOccurs f x q [] := by simp [AnyOccurs]

@[simp] theorem anyOccurs_cons {s : Str} {texts : List Str} :
    AnyOccurs f x q (s :: texts) ↔ Occurs f x q s ∨ AnyOccurs f x q texts := by
  simp [AnyOccurs]

@[simp] theorem anyOccurs_append {texts texts' : List Str} :
    AnyOccurs f x q (texts ++ texts') ↔ AnyOccurs f x q texts ∨ AnyOccurs f x q texts' := by
  simp [AnyOccurs, or_and_right, exists_or]

mutual

/-- Before any further text, the pattern occurs in the text of a value just
where one of its strings has it. -/
theorem Inside.occurs_dumps_append (h : Inside f x q) : ∀ (v : Value ℤ) (rest : Str),
    Occurs f x q (dumps v ++ rest) ↔ AnyOccurs f x q (strings v) ∨ Occurs f x q rest
  | .null, rest => by
      simp [dumps, strings, h.occurs_markup_append (markup_of_all rfl : ∀ c ∈ str "null", _)]
  | .bool true, rest => by
      simp [dumps, strings, h.occurs_markup_append (markup_of_all rfl : ∀ c ∈ str "true", _)]
  | .bool false, rest => by
      simp [dumps, strings, h.occurs_markup_append (markup_of_all rfl : ∀ c ∈ str "false", _)]
  | .num n, rest => by
      simp [dumps, strings, h.occurs_markup_append (markup_intText n)]
  | .str s, rest => by
      simp [dumps, strings, h.occurs_dumpsStr]
  | .arr items, rest => by
      have hopen : ∀ c ∈ str "[", Markup c := markup_of_all rfl
      have hclose : ∀ c ∈ str "]", Markup c := markup_of_all rfl
      simp only [dumps, strings, List.append_assoc]
      rw [h.occurs_markup_append hopen, h.occurs_dumpsItems_append items,
        h.occurs_markup_append hclose]
  | .obj fields, rest => by
      have hopen : ∀ c ∈ ([0x7b] : Str), Markup c := markup_of_all rfl
      have hclose : ∀ c ∈ ([0x7d] : Str), Markup c := markup_of_all rfl
      simp only [dumps, strings, List.append_assoc]
      rw [h.occurs_markup_append hopen, h.occurs_dumpsFields_append fields,
        h.occurs_markup_append hclose]

theorem Inside.occurs_dumpsItems_append (h : Inside f x q) :
    ∀ (items : List (Value ℤ)) (rest : Str),
      Occurs f x q (dumpsItems items ++ rest) ↔
        AnyOccurs f x q (stringsItems items) ∨ Occurs f x q rest
  | [], rest => by simp [dumpsItems, stringsItems]
  | [v], rest => by
      simp only [dumpsItems, stringsItems, List.append_nil]
      exact h.occurs_dumps_append v rest
  | v :: w :: items, rest => by
      have hsep : ∀ c ∈ str ", ", Markup c := markup_of_all rfl
      rw [dumpsItems, stringsItems, List.append_assoc, List.append_assoc,
        h.occurs_dumps_append v, h.occurs_markup_append hsep,
        h.occurs_dumpsItems_append (w :: items), anyOccurs_append, or_assoc]

theorem Inside.occurs_dumpsFields_append (h : Inside f x q) :
    ∀ (fields : List (Str × Value ℤ)) (rest : Str),
      Occurs f x q (dumpsFields fields ++ rest) ↔
        AnyOccurs f x q (stringsFields fields) ∨ Occurs f x q rest
  | [], rest => by simp [dumpsFields, stringsFields]
  | [(key, v)], rest => by
      have hcolon : ∀ c ∈ str ": ", Markup c := markup_of_all rfl
      simp only [dumpsFields, stringsFields, List.append_nil, List.append_assoc, anyOccurs_cons]
      rw [h.occurs_dumpsStr, h.occurs_markup_append hcolon, h.occurs_dumps_append v, or_assoc]
  | (key, v) :: field :: fields, rest => by
      have hcolon : ∀ c ∈ str ": ", Markup c := markup_of_all rfl
      have hsep : ∀ c ∈ str ", ", Markup c := markup_of_all rfl
      rw [dumpsFields, stringsFields]
      simp only [List.append_assoc, List.cons_append, anyOccurs_cons, anyOccurs_append]
      rw [h.occurs_dumpsStr, h.occurs_markup_append hcolon, h.occurs_dumps_append v,
        h.occurs_markup_append hsep, h.occurs_dumpsFields_append (field :: fields), or_assoc,
        or_assoc]

end

theorem Inside.occurs_dumps (h : Inside f x q) (v : Value ℤ) :
    Occurs f x q (dumps v) ↔ AnyOccurs f x q (strings v) := by
  simpa using h.occurs_dumps_append v []

end

end Json
