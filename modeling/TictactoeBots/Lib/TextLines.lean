import TictactoeBots.Lib.Text

/-!
Texts on which the line operations are plain: `strip` changes nothing, and
`splitlines` splits at the line feeds only. Also what joining texts keeps.
-/

namespace Text

theorem forall_mem_intercalate {P : CodePoint → Prop} {separator : Str}
    (hseparator : ∀ c ∈ separator, P c) :
    ∀ {texts : List Str}, (∀ s ∈ texts, ∀ c ∈ s, P c) → ∀ c ∈ separator.intercalate texts, P c
  | [], _ => by simp
  | [s], h => by
      rw [List.intercalate_singleton]
      exact h s List.mem_cons_self
  | s :: t :: texts, h => by
      have hrest := forall_mem_intercalate hseparator fun u hu => h u (List.mem_cons_of_mem s hu)
      rw [List.intercalate_cons_cons]
      intro c hc
      rcases List.mem_append.1 hc with hc | hc
      · rcases List.mem_append.1 hc with hc | hc
        · exact h s List.mem_cons_self c hc
        · exact hseparator c hc
      · exact hrest c hc

/-- Texts joined with a separator and a space: split at the separator, all but the
first begin with the space. -/
theorem splitOn_intercalate_space {c : CodePoint} (hc : c ≠ 0x20) {first : Str} {rest : List Str}
    (h : ∀ text ∈ first :: rest, c ∉ text) :
    ([c, 0x20].intercalate (first :: rest)).splitOn c = first :: rest.map (0x20 :: ·) := by
  have hjoin : ∀ (first : Str) (rest : List Str), [c, 0x20].intercalate (first :: rest) =
      [c].intercalate (first :: rest.map (0x20 :: ·)) := by
    intro first rest
    induction rest generalizing first with
    | nil => simp
    | cons next rest ih =>
        have hspace : [c].intercalate ((0x20 :: next) :: rest.map (0x20 :: ·)) =
            0x20 :: [c].intercalate (next :: rest.map (0x20 :: ·)) := by
          cases rest <;> simp
        rw [List.intercalate_cons_cons, List.map_cons, List.intercalate_cons_cons, hspace, ih]
        simp
  have hplain : ∀ text ∈ first :: rest.map (0x20 :: ·), c ∉ text := by
    rw [List.forall_mem_cons] at h ⊢
    refine ⟨h.1, fun text htext => ?_⟩
    obtain ⟨next, hnext, rfl⟩ := List.mem_map.1 htext
    rw [List.mem_cons, not_or]
    exact ⟨hc, h.2 next hnext⟩
  rw [hjoin, List.splitOn_intercalate c hplain (List.cons_ne_nil _ _)]

theorem strip_eq_self {s : Str} (hhead : ∀ c ∈ s.head?, isSpace c = false)
    (hlast : ∀ c ∈ s.getLast?, isSpace c = false) : strip s = s := by
  have hfront : s.dropWhile isSpace = s := by
    cases s with
    | nil => rfl
    | cons c s => exact List.dropWhile_cons_of_neg (by simp [hhead c rfl])
  rw [strip, hfront, List.rdropWhile_eq_self_iff]
  intro hne
  simp [hlast _ (List.getLast?_eq_some_getLast hne)]

/-- The loop of `splitlines` on a text without other line breaks, which is not
over and does not end with a line feed. -/
theorem splitlinesFrom_eq_splitOn {s : Str} (hbreaks : ∀ c ∈ s, isLineBreak c → c = 0x0a)
    (hlast : s.getLast? ≠ some 0x0a) :
    ∀ {line : Str}, line ≠ [] ∨ s ≠ [] →
      splitlinesFrom false line s = (s.splitOn 0x0a).modifyHead (line ++ ·) := by
  induction s with
  | nil =>
      intro line hline
      simp [splitlinesFrom, hline.resolve_right (by simp)]
  | cons c s ih =>
      intro line _
      rw [List.forall_mem_cons] at hbreaks
      have hrest : s.getLast? ≠ some 0x0a := by
        cases s with
        | nil => simp
        | cons d s => rwa [List.getLast?_cons_cons] at hlast
      rw [List.splitOn_cons_eq_if_modifyHead]
      by_cases hfeed : c = 0x0a
      · have hne : s ≠ [] := by
          rintro rfl
          exact hlast (by simp [hfeed])
        have hpieces : splitlinesFrom false [] s = s.splitOn 0x0a := by
          rw [ih hbreaks.2 hrest (.inr hne)]
          exact congrFun List.modifyHead_id _
        rw [if_pos (by simpa using hfeed), hfeed, List.modifyHead_cons, List.append_nil, ← hpieces]
        rfl
      · have hplain : isLineBreak c = false := by
          rw [Bool.eq_false_iff]
          exact fun hbreak => hfeed (hbreaks.1 hbreak)
        rw [if_neg (by simpa using hfeed), splitlinesFrom, hplain, Bool.false_and,
          if_neg Bool.false_ne_true, if_neg Bool.false_ne_true,
          ih hbreaks.2 hrest (.inl (by simp)), List.modifyHead_modifyHead]
        simp only [List.append_assoc, List.singleton_append]
        rfl

theorem splitlines_eq_splitOn {s : Str} (hne : s ≠ [])
    (hbreaks : ∀ c ∈ s, isLineBreak c → c = 0x0a) (hlast : s.getLast? ≠ some 0x0a) :
    splitlines s = s.splitOn 0x0a := by
  rw [splitlines, splitlinesFrom_eq_splitOn hbreaks hlast (.inr hne)]
  exact congrFun List.modifyHead_id _

end Text
