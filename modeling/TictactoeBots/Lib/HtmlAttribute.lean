import TictactoeBots.Lib.Text

/-!
Texts in quoted HTML attributes: how a template writes them, and how a browser
reads them back.

The browser knows many more character references than the five that are written,
but they all begin with an ampersand, and a template writes no other one.
-/

namespace Html

open Text

def references : List (CodePoint × Str) :=
  [(0x26, str "&amp;"), (0x3e, str "&gt;"), (0x3c, str "&lt;"), (0x27, str "&#39;"),
    (0x22, str "&#34;")]

def escapeChar (c : CodePoint) : Str := (references.lookup c).getD [c]

/-- `markupsafe.escape`, and `jinja2` for every value of a template. -/
def escape (s : Str) : Str := s.flatMap escapeChar

@[simp] theorem escape_append (s t : Str) : escape (s ++ t) = escape s ++ escape t :=
  List.flatMap_append

/-- The characters of a text with references in it, at most `fuel` of them. -/
def unescapeFrom : ℕ → Str → Str
  | 0, _ | _, [] => []
  | fuel + 1, c :: rest =>
      match references.find? fun reference => reference.2.isPrefixOf (c :: rest) with
      | some reference =>
          reference.1 :: unescapeFrom fuel ((c :: rest).drop reference.2.length)
      | none => c :: unescapeFrom fuel rest

def unescape (s : Str) : Str := unescapeFrom s.length s

/-- The value of an attribute, given what follows its opening quotation mark. -/
def attributeValue (s : Str) : Str := unescape (s.takeWhile (· ≠ 0x22))

example : attributeValue (str "a&amp;b &lt;&#39;&#34;\" id=\"x\">") = str "a&b <'\"" := by decide

/-! ### Reading it back -/

theorem escapeChar_cases (c : CodePoint) :
    (escapeChar c = [c] ∧ c ≠ 0x26 ∧ c ≠ 0x22) ∨ (c, escapeChar c) ∈ references := by
  by_cases h : c ∈ references.map Prod.fst
  · simp only [references, List.map_cons, List.map_nil, List.mem_cons, List.not_mem_nil,
      or_false] at h
    rcases h with rfl | rfl | rfl | rfl | rfl <;> exact .inr (by decide)
  · have hlookup : references.lookup c = none := by
      rw [List.lookup_eq_none_iff]
      intro reference hmem
      rw [bne_iff_ne]
      rintro rfl
      exact h (List.mem_map_of_mem hmem)
    refine .inl ⟨by rw [escapeChar, hlookup]; rfl, ?_, ?_⟩
    · rintro rfl
      exact h (by decide)
    · rintro rfl
      exact h (by decide)

theorem unescapeFrom_plain (fuel : ℕ) {c : CodePoint} (h : c ≠ 0x26) (rest : Str) :
    unescapeFrom (fuel + 1) (c :: rest) = c :: unescapeFrom fuel rest := by
  have hheads : ∀ reference ∈ references, reference.2.head? = some 0x26 := by decide
  have hnone : references.find? (fun reference => reference.2.isPrefixOf (c :: rest)) = none := by
    rw [List.find?_eq_none]
    intro reference hmem hstarts
    obtain ⟨tail, htail⟩ := List.head?_eq_some_iff.1 (hheads reference hmem)
    rw [htail, List.isPrefixOf_iff_prefix, List.cons_prefix_cons] at hstarts
    exact h hstarts.1.symm
  rw [unescapeFrom, hnone]

theorem unescapeFrom_escapeChar (fuel : ℕ) (c : CodePoint) (rest : Str) :
    unescapeFrom (fuel + 1) (escapeChar c ++ rest) = c :: unescapeFrom fuel rest := by
  rcases escapeChar_cases c with ⟨hself, hne, -⟩ | hmem
  · rw [hself, List.singleton_append, unescapeFrom_plain fuel hne]
  · simp only [references, List.mem_cons, List.not_mem_nil, or_false, Prod.mk.injEq] at hmem
    rcases hmem with ⟨rfl, heq⟩ | ⟨rfl, heq⟩ | ⟨rfl, heq⟩ | ⟨rfl, heq⟩ | ⟨rfl, heq⟩ <;>
      · rw [heq]
        rfl

theorem unescapeFrom_escape {s : Str} {fuel : ℕ} (h : s.length ≤ fuel) :
    unescapeFrom fuel (escape s) = s := by
  induction s generalizing fuel with
  | nil => cases fuel <;> rfl
  | cons c s ih =>
      obtain ⟨fuel, rfl⟩ : ∃ k, fuel = k + 1 := ⟨fuel - 1, by simp at h; omega⟩
      rw [escape, List.flatMap_cons, unescapeFrom_escapeChar, ← escape, ih (by simpa using h)]

theorem length_le_escape (s : Str) : s.length ≤ (escape s).length := by
  have hpos : ∀ reference ∈ references, 1 ≤ reference.2.length := by decide
  induction s with
  | nil => exact le_rfl
  | cons c s ih =>
      have hone : 1 ≤ (escapeChar c).length := by
        rcases escapeChar_cases c with ⟨hself, -⟩ | hmem
        · simp [hself]
        · exact hpos _ hmem
      rw [escape, List.flatMap_cons, ← escape, List.length_append, List.length_cons]
      omega

theorem unescape_escape (s : Str) : unescape (escape s) = s :=
  unescapeFrom_escape (length_le_escape s)

theorem not_quote_escape (s : Str) : ∀ c ∈ escape s, c ≠ 0x22 := by
  have hquotes : (references.all fun reference => reference.2.all fun c => c != 0x22) = true := rfl
  intro c hc
  obtain ⟨d, -, hc⟩ := List.mem_flatMap.1 hc
  rcases escapeChar_cases d with ⟨hself, -, hne⟩ | hmem
  · rw [hself] at hc
    rwa [List.mem_singleton.1 hc]
  · exact bne_iff_ne.1 (List.all_eq_true.1 (List.all_eq_true.1 hquotes _ hmem) c hc)

/-- What a template writes between quotation marks is what the browser reads. -/
theorem attributeValue_escape (s after : Str) :
    attributeValue (escape s ++ 0x22 :: after) = s := by
  have hplain : ∀ c ∈ escape s, decide (c ≠ 0x22) = true := fun c hc =>
    decide_eq_true (not_quote_escape s c hc)
  rw [attributeValue, List.takeWhile_append_of_pos hplain, List.takeWhile_cons_of_neg (by decide),
    List.append_nil, unescape_escape]

end Html
