import Mathlib

/-!
Separators that are escaped by an element in front of them, the way a pipe is in
a table cell.

Escaping puts `esc` before every `sep` and leaves `esc` itself alone. That is
enough: a separator is escaped exactly if `esc` is immediately before it, so a
list that is escaped has none that splits, and taking the pairs back undoes it.
-/

namespace EscapedSplit

variable {α : Type*} [DecidableEq α] (esc sep : α)

def escape (s : List α) : List α := s.flatMap fun c => if c = sep then [esc, sep] else [c]

/-- Replace the pairs of `esc` and `sep` by `sep`, from the left. -/
def unescape : List α → List α
  | a :: b :: rest => if a = esc ∧ b = sep then sep :: unescape rest else a :: unescape (b :: rest)
  | [a] => [a]
  | [] => []

/-- Split at every `sep` that is not immediately preceded by `esc`; the flag says
that the element before the list is `esc`. -/
def splitFrom (escaped : Bool) : List α → List (List α)
  | [] => [[]]
  | c :: rest =>
      if c = sep ∧ escaped = false then [] :: splitFrom false rest
      else (splitFrom (c = esc) rest).modifyHead (c :: ·)

def splitUnescaped (s : List α) : List (List α) := splitFrom esc sep false s

/-- Whether the element before what follows `piece` is `esc`. -/
def flagAfter (escaped : Bool) (piece : List α) : Bool :=
  match piece.getLast? with
  | none => escaped
  | some c => c = esc

/-- Nothing in `piece` splits, wherever it stands. -/
def Inert (piece : List α) : Prop :=
  ∀ escaped rest, splitFrom esc sep escaped (piece ++ rest) =
    (splitFrom esc sep (flagAfter esc escaped piece) rest).modifyHead (piece ++ ·)

variable {esc sep} {s t : List α}

theorem unescape_cons_of_ne {c b : α} (h : b ≠ sep) (rest : List α) :
    unescape esc sep (c :: b :: rest) = c :: unescape esc sep (b :: rest) := by
  rw [unescape, if_neg fun hpair => h hpair.2]

theorem unescape_escape (hne : esc ≠ sep) (s : List α) :
    unescape esc sep (escape esc sep s) = s := by
  induction s with
  | nil => rfl
  | cons c s ih =>
      rw [escape, List.flatMap_cons, ← escape]
      by_cases hc : c = sep
      · subst hc
        rw [if_pos rfl, List.cons_append, List.singleton_append, unescape, if_pos ⟨rfl, rfl⟩, ih]
      · rw [if_neg hc, List.singleton_append]
        cases s with
        | nil => rfl
        | cons d s =>
            -- an escaped list does not begin with a separator
            have hhead : ∃ b rest, escape esc sep (d :: s) = b :: rest ∧ b ≠ sep := by
              rw [escape, List.flatMap_cons]
              by_cases hd : d = sep
              · exact ⟨esc, sep :: escape esc sep s, by rw [if_pos hd]; rfl, hne⟩
              · exact ⟨d, escape esc sep s, by rw [if_neg hd]; rfl, hd⟩
            obtain ⟨b, rest, hrest, hb⟩ := hhead
            rw [hrest] at ih ⊢
            rw [unescape_cons_of_ne hb, ih]

theorem flagAfter_append (escaped : Bool) (s t : List α) :
    flagAfter esc escaped (s ++ t) = flagAfter esc (flagAfter esc escaped s) t := by
  unfold flagAfter
  cases ht : t.getLast? with
  | none => rw [List.getLast?_eq_none_iff.1 ht, List.append_nil]
  | some c => rw [List.getLast?_append, ht]; rfl

theorem inert_nil : Inert esc sep [] := by
  intro escaped rest
  have hid : (fun piece : List α => [] ++ piece) = id := rfl
  rw [List.nil_append, hid, List.modifyHead_id]
  rfl

theorem Inert.append (hs : Inert esc sep s) (ht : Inert esc sep t) : Inert esc sep (s ++ t) := by
  intro escaped rest
  rw [List.append_assoc, hs, ht, List.modifyHead_modifyHead, flagAfter_append]
  apply congrArg (fun f => List.modifyHead f _)
  funext piece
  exact (List.append_assoc s t piece).symm

theorem inert_singleton {c : α} (h : c ≠ sep) : Inert esc sep [c] := by
  intro escaped rest
  rw [List.singleton_append, splitFrom, if_neg fun hsep => h hsep.1]
  rfl

theorem inert_of_not_mem (h : sep ∉ s) : Inert esc sep s := by
  induction s with
  | nil => exact inert_nil
  | cons c s ih =>
      rw [List.mem_cons, not_or] at h
      exact (inert_singleton (Ne.symm h.1)).append (ih h.2)

theorem inert_escape (hne : esc ≠ sep) (s : List α) : Inert esc sep (escape esc sep s) := by
  induction s with
  | nil => exact inert_nil
  | cons c s ih =>
      rw [escape, List.flatMap_cons, ← escape]
      refine Inert.append ?_ ih
      by_cases hc : c = sep
      · rw [if_pos hc]
        intro escaped rest
        have hsep : sep ≠ esc := hne.symm
        rw [List.cons_append, List.singleton_append, splitFrom, if_neg fun h => hne h.1, splitFrom,
          if_neg (by simp), List.modifyHead_modifyHead]
        simp [flagAfter, hsep, Function.comp_def]
      · rw [if_neg hc]
        exact inert_singleton hc

theorem Inert.splitFrom_append {escaped : Bool} {rest : List α} (h : Inert esc sep s)
    (hflag : flagAfter esc escaped s = false) :
    splitFrom esc sep escaped (s ++ sep :: rest) = s :: splitFrom esc sep false rest := by
  rw [h, hflag, splitFrom, if_pos ⟨rfl, rfl⟩, List.modifyHead_cons, List.append_nil]

theorem splitFrom_flatMap {pieces : List (List α)}
    (h : ∀ piece ∈ pieces, Inert esc sep piece ∧ flagAfter esc false piece = false) :
    splitFrom esc sep false (pieces.flatMap fun piece => piece ++ [sep]) = pieces ++ [[]] := by
  induction pieces with
  | nil => rfl
  | cons piece pieces ih =>
      rw [List.forall_mem_cons] at h
      rw [List.flatMap_cons, List.append_assoc, List.singleton_append,
        h.1.1.splitFrom_append h.1.2, ih h.2, List.cons_append]

end EscapedSplit
