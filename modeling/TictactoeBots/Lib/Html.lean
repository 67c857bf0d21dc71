import TictactoeBots.Lib.Text

/-!
Where an HTML parser ends a script element: at the first `</script`, in upper or
lower case, whatever the script is written in.
-/

namespace Html

open Text

def endTag : Str := str "</script"

/-- The text contains an end tag of a script element. It is assumed that the
first one ends the element: a parser that has come by `<!--<script` is in a state
in which one does not, and these states are left out. -/
def HasEndTag (s : Str) : Prop := endTag <:+: s.map lowerAscii

instance (s : Str) : Decidable (HasEndTag s) :=
  inferInstanceAs (Decidable (endTag <:+: s.map lowerAscii))

/-- The text of a script element, given what follows its start tag. -/
def scriptText : Str → Str
  | [] => []
  | c :: rest =>
      if endTag.isPrefixOf ((c :: rest).map lowerAscii) then [] else c :: scriptText rest

example : scriptText (str "a < b</SCRIPT >c</script>") = str "a < b" := by decide

theorem prefix_append_cons_iff {α : Type*} {p s t : List α} {a : α} (h : a ∉ p) :
    p <+: s ++ a :: t ↔ p <+: s := by
  induction s generalizing p with
  | nil =>
      cases p with
      | nil => simp
      | cons b p =>
          have hne : b ≠ a := fun heq => h (heq ▸ List.mem_cons_self)
          simp [hne]
  | cons c s ih =>
      cases p with
      | nil => simp
      | cons b p =>
          have hp : a ∉ p := fun hmem => h (List.mem_cons_of_mem _ hmem)
          simp only [List.cons_append, List.cons_prefix_cons, ih hp]

theorem endTag_prefix_append_iff (c : CodePoint) (s after : Str) :
    endTag <+: (c :: (s ++ str "</script>" ++ after)).map lowerAscii ↔
      endTag <+: (c :: s).map lowerAscii := by
  have hhead : endTag = 0x3c :: str "/script" := rfl
  have hless : (0x3c : CodePoint) ∉ str "/script" := by decide
  have hrest : (s ++ str "</script>" ++ after).map lowerAscii =
      s.map lowerAscii ++ 0x3c :: (str "/script>" ++ after).map lowerAscii := by
    have htag : str "</script>" = 0x3c :: str "/script>" := rfl
    have hlower : lowerAscii 0x3c = 0x3c := rfl
    simp [htag, hlower]
  rw [hhead, List.map_cons, List.map_cons, List.cons_prefix_cons, List.cons_prefix_cons, hrest,
    prefix_append_cons_iff hless]

/-- The element holds just the text `s` exactly when there is no end tag in it. -/
theorem scriptText_eq_iff (s after : Str) :
    scriptText (s ++ str "</script>" ++ after) = s ↔ ¬HasEndTag s := by
  induction s with
  | nil =>
      have hend : scriptText (str "</script>" ++ after) = [] := rfl
      have hnone : ¬HasEndTag [] := by decide
      exact ⟨fun _ => hnone, fun _ => hend⟩
  | cons c s ih =>
      have hstarts := endTag_prefix_append_iff c s after
      rw [List.cons_append, List.cons_append, scriptText]
      simp only [HasEndTag, List.map_cons, List.infix_cons_iff, not_or] at ih hstarts ⊢
      by_cases hends : endTag <+: lowerAscii c :: s.map lowerAscii
      · rw [if_pos (List.isPrefixOf_iff_prefix.2 (hstarts.2 hends))]
        simp [hends]
      · rw [if_neg fun h => hends (hstarts.1 (List.isPrefixOf_iff_prefix.1 h))]
        rw [List.cons.injEq]
        exact ⟨fun h => ⟨hends, ih.1 h.2⟩, fun h => ⟨rfl, ih.2 h.2⟩⟩

end Html
