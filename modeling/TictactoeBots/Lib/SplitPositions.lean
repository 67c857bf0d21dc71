import Mathlib

/-!
Where the elements of a list are once it is split: the element at an offset is
in the piece whose number is that of the separators before it.
-/

namespace SplitPositions

variable {α : Type*}

/-- The offset of the piece `i`, every piece before it being followed by a
separator. -/
def pieceStart (pieces : List (List α)) (i : ℕ) : ℕ :=
  ((pieces.take i).map fun piece => piece.length + 1).sum

@[simp] theorem pieceStart_zero (pieces : List (List α)) : pieceStart pieces 0 = 0 := by
  simp [pieceStart]

@[simp] theorem pieceStart_succ (piece : List α) (pieces : List (List α)) (i : ℕ) :
    pieceStart (piece :: pieces) (i + 1) = piece.length + 1 + pieceStart pieces i := by
  simp [pieceStart]

variable [DecidableEq α]

/-- `c` is at `offset`, on the piece `i` of the list split at `a`. -/
def OnPiece (a : α) (l : List α) (i offset : ℕ) (c : α) : Prop :=
  ∃ piece j, (l.splitOn a)[i]? = some piece ∧ piece[j]? = some c ∧
    offset = pieceStart (l.splitOn a) i + j

theorem exists_splitOn_cons (a : α) (l : List α) : ∃ piece pieces, l.splitOn a = piece :: pieces :=
  List.exists_cons_of_ne_nil (List.splitOn_ne_nil a l)

variable {a b c : α} {l : List α} {i offset : ℕ}

theorem not_mem_of_mem_splitOn {piece : List α} (h : piece ∈ l.splitOn a) : a ∉ piece := by
  induction l generalizing piece with
  | nil =>
      rw [List.splitOn_nil, List.mem_singleton] at h
      simp [h]
  | cons b l ih =>
      obtain ⟨first, rest, hl⟩ := exists_splitOn_cons a l
      rw [List.splitOn_cons_eq_if_modifyHead] at h
      split at h
      · obtain rfl | h := List.mem_cons.1 h
        · exact List.not_mem_nil
        · exact ih h
      · rename_i hb
        rw [hl, List.modifyHead_cons] at h
        obtain rfl | h := List.mem_cons.1 h
        · rw [List.mem_cons, not_or]
          refine ⟨?_, ih (hl ▸ List.mem_cons_self)⟩
          rintro rfl
          exact hb (beq_self_eq_true a)
        · exact ih (hl ▸ List.mem_cons_of_mem _ h)

theorem onPiece_separator : OnPiece a (a :: l) i offset c ↔
    ∃ k n, i = k + 1 ∧ offset = n + 1 ∧ OnPiece a l k n c := by
  have hsplit : (a :: l).splitOn a = [] :: l.splitOn a := by
    rw [List.splitOn_cons_eq_if_modifyHead, if_pos (beq_self_eq_true a)]
  constructor
  · rintro ⟨piece, j, hpiece, hc, rfl⟩
    rw [hsplit] at hpiece ⊢
    cases i with
    | zero =>
        cases hpiece
        cases hc
    | succ k =>
        refine ⟨k, pieceStart (l.splitOn a) k + j, rfl, ?_, piece, j, hpiece, hc, rfl⟩
        rw [pieceStart_succ, List.length_nil]
        omega
  · rintro ⟨k, n, rfl, rfl, piece, j, hpiece, hc, rfl⟩
    refine ⟨piece, j, by rw [hsplit]; exact hpiece, hc, ?_⟩
    rw [hsplit, pieceStart_succ, List.length_nil]
    omega

theorem onPiece_cons (hb : b ≠ a) : OnPiece a (b :: l) i offset c ↔
    (i = 0 ∧ offset = 0 ∧ c = b) ∨ ∃ n, offset = n + 1 ∧ OnPiece a l i n c := by
  obtain ⟨first, rest, hl⟩ := exists_splitOn_cons a l
  have hsplit : (b :: l).splitOn a = (b :: first) :: rest := by
    rw [List.splitOn_cons_eq_if_modifyHead, if_neg (by simpa using hb), hl, List.modifyHead_cons]
  unfold OnPiece
  rw [hsplit, hl]
  cases i with
  | zero =>
      simp only [List.getElem?_cons_zero, Option.some.injEq, pieceStart_zero, zero_add,
        exists_and_left, exists_eq_left', true_and]
      constructor
      · rintro ⟨j, hc, rfl⟩
        cases offset with
        | zero => exact .inl ⟨rfl, (Option.some.inj hc).symm⟩
        | succ n => exact .inr ⟨n, rfl, n, hc, rfl⟩
      · rintro (⟨rfl, rfl⟩ | ⟨n, rfl, j, hc, rfl⟩)
        · exact ⟨0, rfl, rfl⟩
        · exact ⟨n + 1, hc, rfl⟩
  | succ k =>
      simp only [List.getElem?_cons_succ, pieceStart_succ, List.length_cons]
      constructor
      · rintro ⟨piece, j, hpiece, hc, rfl⟩
        exact .inr ⟨_, by omega, piece, j, hpiece, hc, rfl⟩
      · rintro (⟨hk, -, -⟩ | ⟨n, rfl, piece, j, hpiece, hc, rfl⟩)
        · cases hk
        · exact ⟨piece, j, hpiece, hc, by omega⟩

theorem onPiece_iff : OnPiece a l i offset c ↔
    l[offset]? = some c ∧ c ≠ a ∧ (l.take offset).count a = i := by
  induction l generalizing i offset with
  | nil =>
      constructor
      · rintro ⟨piece, j, hpiece, hc, -⟩
        cases i with
        | zero =>
            cases hpiece
            cases hc
        | succ k => cases hpiece
      · rintro ⟨hc, -, -⟩
        cases hc
  | cons b l ih =>
      by_cases hb : b = a
      · subst hb
        rw [onPiece_separator]
        constructor
        · rintro ⟨k, n, rfl, rfl, hpiece⟩
          obtain ⟨hc, hne, hcount⟩ := ih.1 hpiece
          exact ⟨hc, hne, by rw [List.take_succ_cons, List.count_cons_self, hcount]⟩
        · rintro ⟨hc, hne, hcount⟩
          cases offset with
          | zero => exact absurd (Option.some.inj hc).symm hne
          | succ n =>
              rw [List.take_succ_cons, List.count_cons_self] at hcount
              exact ⟨_, n, hcount.symm, rfl, ih.2 ⟨hc, hne, rfl⟩⟩
      · rw [onPiece_cons hb]
        constructor
        · rintro (⟨rfl, rfl, rfl⟩ | ⟨n, rfl, hpiece⟩)
          · exact ⟨rfl, hb, rfl⟩
          · obtain ⟨hc, hne, hcount⟩ := ih.1 hpiece
            exact ⟨hc, hne, by rw [List.take_succ_cons, List.count_cons_of_ne hb, hcount]⟩
        · rintro ⟨hc, hne, hcount⟩
          cases offset with
          | zero => exact .inl ⟨hcount.symm, rfl, (Option.some.inj hc).symm⟩
          | succ n =>
              rw [List.take_succ_cons, List.count_cons_of_ne hb] at hcount
              exact .inr ⟨n, rfl, ih.2 ⟨hc, hne, hcount⟩⟩

end SplitPositions
