import Mathlib

/-!
The loop that goes through a list and keeps the candidate with the best score so
far. A candidate is taken when its score is strictly better than the one kept,
so of several candidates with the best score the first one stays.
-/

namespace FirstBest

variable {α β γ : Type*}

/-- The loop, from the score and the choice it starts with. -/
def keepBest (better : γ → γ → Prop) [DecidableRel better] (score : α → γ) (choice : α → β)
    (init : γ × β) (l : List α) : γ × β :=
  l.foldl (fun kept a => if better (score a) kept.1 then (score a, choice a) else kept) init

/-- Everything before `a` is worse, and nothing after it is better. -/
def IsFirstBest (better : γ → γ → Prop) (score : α → γ) (l : List α) (a : α) : Prop :=
  ∃ front back, l = front ++ a :: back ∧ (∀ b ∈ front, better (score a) (score b)) ∧
    ∀ b ∈ back, ¬better (score b) (score a)

variable {better : γ → γ → Prop} {score : α → γ}

variable (better score) in
theorem keepBest_choice [DecidableRel better] (choice : α → β) (init : γ × β) (l : List α) :
    (keepBest better score choice init l).2 = init.2 ∨
      ∃ a ∈ l, (keepBest better score choice init l).2 = choice a := by
  induction l generalizing init with
  | nil => exact .inl rfl
  | cons a l ih =>
      rw [keepBest, List.foldl_cons]
      rcases ih (if better (score a) init.1 then (score a, choice a) else init) with
        hkept | ⟨b, hmem, hb⟩
      · split at hkept
        · exact .inr ⟨a, List.mem_cons_self, by rw [if_pos ‹_›]; exact hkept⟩
        · exact .inl (by rw [if_neg ‹_›]; exact hkept)
      · exact .inr ⟨b, List.mem_cons_of_mem a hmem, hb⟩

theorem IsFirstBest.mem {l : List α} {a : α} (h : IsFirstBest better score l a) : a ∈ l := by
  obtain ⟨front, back, rfl, -, -⟩ := h
  simp

variable [IsStrictTotalOrder γ better]

theorem IsFirstBest.not_better {l : List α} {a b : α} (h : IsFirstBest better score l a)
    (hb : b ∈ l) : ¬better (score b) (score a) := by
  obtain ⟨front, back, rfl, hfront, hback⟩ := h
  rcases List.mem_append.1 hb with hb | hb
  · exact asymm (hfront b hb)
  · rcases List.mem_cons.1 hb with rfl | hb
    · exact irrefl _
    · exact hback b hb

theorem IsFirstBest.insert {l : List α} {a b c : α} (h : IsFirstBest better score (b :: l) a)
    (hnot : ¬better (score c) (score b)) : IsFirstBest better score (b :: c :: l) a := by
  obtain ⟨front, back, heq, hfront, hback⟩ := h
  cases front with
  | nil =>
      obtain ⟨rfl, rfl⟩ := List.cons.inj heq
      exact ⟨[], c :: l, rfl, by simp, List.forall_mem_cons.2 ⟨hnot, hback⟩⟩
  | cons d front =>
      obtain ⟨rfl, rfl⟩ := List.cons.inj heq
      rw [List.forall_mem_cons] at hfront
      have hc : better (score a) (score c) := by
        rcases trichotomous_of better (score c) (score b) with hbetter | hsame | hworse
        · exact absurd hbetter hnot
        · exact hsame ▸ hfront.1
        · exact trans_of better hfront.1 hworse
      exact ⟨b :: c :: front, back, rfl,
        List.forall_mem_cons.2 ⟨hfront.1, List.forall_mem_cons.2 ⟨hc, hfront.2⟩⟩, hback⟩

variable [DecidableRel better]

theorem keepBest_cons_kept (choice : α → β) (a : α) (l : List α) :
    ∃ best, IsFirstBest better score (a :: l) best ∧
      keepBest better score choice (score a, choice a) l = (score best, choice best) := by
  induction l generalizing a with
  | nil => exact ⟨a, ⟨[], [], rfl, by simp, by simp⟩, rfl⟩
  | cons b l ih =>
      rw [keepBest, List.foldl_cons]
      split
      · rename_i hbetter
        obtain ⟨best, ⟨front, back, heq, hfront, hback⟩, hkeep⟩ := ih b
        have hbest : better (score best) (score a) := by
          cases front with
          | nil =>
              obtain ⟨rfl, -⟩ := List.cons.inj heq
              exact hbetter
          | cons d front =>
              obtain ⟨rfl, -⟩ := List.cons.inj heq
              exact trans_of better (hfront b List.mem_cons_self) hbetter
        refine ⟨best, ⟨a :: front, back, by rw [heq]; rfl, ?_, hback⟩, hkeep⟩
        exact List.forall_mem_cons.2 ⟨hbest, hfront⟩
      · rename_i hnot
        obtain ⟨best, hbest, hkeep⟩ := ih a
        exact ⟨best, hbest.insert hnot, hkeep⟩

variable (better score) in
/-- Started with a score that every candidate beats, the loop ends with the first
best of them. -/
theorem keepBest_eq (choice : α → β) (init : γ × β) {l : List α} (hne : l ≠ [])
    (hinit : ∀ a ∈ l, better (score a) init.1) :
    ∃ best, IsFirstBest better score l best ∧
      keepBest better score choice init l = (score best, choice best) := by
  cases l with
  | nil => exact absurd rfl hne
  | cons a l =>
      rw [keepBest, List.foldl_cons, if_pos (hinit a List.mem_cons_self)]
      exact keepBest_cons_kept choice a l

end FirstBest
