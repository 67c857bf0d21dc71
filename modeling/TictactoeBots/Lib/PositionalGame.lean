import Mathlib

/-!
Positional games: players take turns putting their mark on an empty cell, and
some sets of cells count as lines.

A position is a partial map from cells to players. `Live lines mover n s` says
that `s` is what a game that has not been decided looks like after `n` turns,
player `mover k` having made turn number `k`. Such a position carries exactly
`n` marks, so the number of turns is bounded by the number of cells, and a line
that appears in the next turn can only belong to the player who made it.
-/

namespace PositionalGame

variable {ι P : Type*}

/-- Who holds each cell. -/
abbrev Position (ι P : Type*) := ι → Option P

/-- `s'` is `s` with one more mark of `p`, on a cell that was empty. -/
def Places (p : P) (s s' : Position ι P) : Prop :=
  ∃ i, s i = none ∧ s' i = some p ∧ ∀ j, j ≠ i → s' j = s j

def HasLine (lines : Set (Set ι)) (s : Position ι P) (p : P) : Prop :=
  ∃ l ∈ lines, ∀ i ∈ l, s i = some p

def Full (s : Position ι P) : Prop := ∀ i, s i ≠ none

/-- The undecided positions, by the number of turns played. -/
inductive Live (lines : Set (Set ι)) (mover : ℕ → P) : ℕ → Position ι P → Prop
  | start : Live lines mover 0 fun _ => none
  | turn {n : ℕ} {s s' : Position ι P} :
      Live lines mover n s → Places (mover n) s s' →
        (∀ p, ¬HasLine lines s' p) → Live lines mover (n + 1) s'

theorem Places.line_owner {lines : Set (Set ι)} {p q : P} {s s' : Position ι P}
    (hplace : Places p s s') (hold : ¬HasLine lines s q) (hnew : HasLine lines s' q) :
    q = p := by
  obtain ⟨i, hempty, hmark, hrest⟩ := hplace
  obtain ⟨l, hl, hline⟩ := hnew
  by_cases hi : i ∈ l
  · have hboth : some p = some q := hmark ▸ hline i hi
    exact (Option.some.inj hboth).symm
  · refine absurd ⟨l, hl, fun j hj => ?_⟩ hold
    have hne : j ≠ i := fun h => hi (h ▸ hj)
    rw [← hrest j hne]
    exact hline j hj

theorem not_hasLine_empty {lines : Set (Set ι)} (hlines : ∀ l ∈ lines, l.Nonempty) (p : P) :
    ¬HasLine lines (fun _ => none) p := by
  rintro ⟨l, hl, hline⟩
  obtain ⟨i, hi⟩ := hlines l hl
  exact absurd (hline i hi) (by simp)

theorem Live.not_hasLine {lines : Set (Set ι)} {mover : ℕ → P} {n : ℕ} {s : Position ι P}
    (hlines : ∀ l ∈ lines, l.Nonempty) (h : Live lines mover n s) (p : P) :
    ¬HasLine lines s p := by
  cases h with
  | start => exact not_hasLine_empty hlines p
  | turn _ _ hnone => exact hnone p

/-- The positions that `n` turns lead to, whatever they decide. -/
inductive Turns (mover : ℕ → P) : ℕ → Position ι P → Prop
  | start : Turns mover 0 fun _ => none
  | turn {n : ℕ} {s s' : Position ι P} :
      Turns mover n s → Places (mover n) s s' → Turns mover (n + 1) s'

/-! ### Counting marks -/

variable [Fintype ι]

def marks (s : Position ι P) : ℕ := (Finset.univ.filter fun i => (s i).isSome).card

theorem Places.marks {p : P} {s s' : Position ι P} (h : Places p s s') :
    marks s' = marks s + 1 := by
  classical
  obtain ⟨i, hempty, hmark, hrest⟩ := h
  have hnotin : i ∉ Finset.univ.filter fun j => (s j).isSome := by simp [hempty]
  have hinsert : (Finset.univ.filter fun j => (s' j).isSome) =
      insert i (Finset.univ.filter fun j => (s j).isSome) := by
    ext j
    by_cases hj : j = i
    · subst hj
      simp [hmark]
    · simp [hj, hrest j hj]
  rw [PositionalGame.marks, hinsert, Finset.card_insert_of_notMem hnotin]
  rfl

theorem Live.marks {lines : Set (Set ι)} {mover : ℕ → P} {n : ℕ} {s : Position ι P}
    (h : Live lines mover n s) : marks s = n := by
  induction h with
  | start => simp [PositionalGame.marks]
  | turn _ hplace _ ih => rw [hplace.marks, ih]

theorem marks_eq_card_iff (s : Position ι P) : marks s = Fintype.card ι ↔ Full s := by
  rw [marks, ← Finset.card_univ, Finset.card_filter_eq_iff]
  simp [Full, Option.isSome_iff_ne_none]

theorem Live.full_iff {lines : Set (Set ι)} {mover : ℕ → P} {n : ℕ} {s : Position ι P}
    (h : Live lines mover n s) : Full s ↔ n = Fintype.card ι := by
  rw [← marks_eq_card_iff, h.marks]

/-- The turn after an undecided position fills the board exactly when it is
the last one there is a cell for. -/
theorem Live.full_after_iff {lines : Set (Set ι)} {mover : ℕ → P} {n : ℕ}
    {s s' : Position ι P} (h : Live lines mover n s) {p : P} (hplace : Places p s s') :
    Full s' ↔ n + 1 = Fintype.card ι := by
  rw [← marks_eq_card_iff, hplace.marks, h.marks]

def marksOf [DecidableEq P] (p : P) (s : Position ι P) : ℕ :=
  (Finset.univ.filter fun i => s i = some p).card

theorem Places.marksOf [DecidableEq P] {p q : P} {s s' : Position ι P} (h : Places p s s') :
    marksOf q s' = marksOf q s + if p = q then 1 else 0 := by
  classical
  obtain ⟨i, hempty, hmark, hrest⟩ := h
  have hother : ∀ j, j ≠ i → (s' j = some q ↔ s j = some q) := fun j hj => by rw [hrest j hj]
  by_cases hq : p = q
  · have hnotin : i ∉ Finset.univ.filter fun j => s j = some q := by simp [hempty]
    have hinsert : (Finset.univ.filter fun j => s' j = some q) =
        insert i (Finset.univ.filter fun j => s j = some q) := by
      ext j
      by_cases hj : j = i
      · subst hj
        simp [hmark, hq]
      · simp [hj, hother j hj]
    rw [PositionalGame.marksOf, hinsert, Finset.card_insert_of_notMem hnotin, if_pos hq]
    rfl
  · have hsame : (Finset.univ.filter fun j => s' j = some q) =
        Finset.univ.filter fun j => s j = some q := by
      ext j
      by_cases hj : j = i
      · subst hj
        simp [hmark, hempty, hq]
      · simp [hother j hj]
    rw [PositionalGame.marksOf, hsame, if_neg hq]
    rfl

theorem Turns.marksOf [DecidableEq P] {mover : ℕ → P} {n : ℕ} {s : Position ι P}
    (h : Turns mover n s) (p : P) : marksOf p s = Nat.count (fun k => mover k = p) n := by
  induction h with
  | start => simp [PositionalGame.marksOf]
  | turn _ hplace ih => rw [hplace.marksOf, ih, Nat.count_succ]

end PositionalGame
