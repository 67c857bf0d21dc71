import Mathlib

/-!
The least element of a list under a key and, among several of the same key, the
last one. `List.argmin` takes the first.

The choice between two candidates is associative, so the choice over a
concatenation is the choice among the choices of its parts.
-/

namespace LastLeast

variable {α β : Type*} [LinearOrder β] (key : α → β)

/-- Of two candidates the second one, unless its key is greater. -/
def later : Option α → Option α → Option α
  | best, none => best
  | none, some b => some b
  | some a, some b => if key b ≤ key a then some b else some a

def lastLeast (l : List α) : Option α := l.foldl (fun best a => later key best (some a)) none

/-- Nothing before `a` is smaller, and everything after it is greater. -/
def IsLastLeast (l : List α) (a : α) : Prop :=
  ∃ front back, l = front ++ a :: back ∧ (∀ b ∈ front, key a ≤ key b) ∧ ∀ b ∈ back, key a < key b

@[simp] theorem later_none (best : Option α) : later key best none = best := by
  cases best <;> rfl

@[simp] theorem none_later (best : Option α) : later key none best = best := by
  cases best <;> rfl

theorem later_assoc (x y z : Option α) :
    later key (later key x y) z = later key x (later key y z) := by
  cases x with
  | none => simp
  | some a =>
      cases y with
      | none => simp
      | some b =>
          cases z with
          | none => simp
          | some c =>
              by_cases hba : key b ≤ key a <;> by_cases hcb : key c ≤ key b
              · simp [later, hba, hcb, hcb.trans hba]
              · simp [later, hba, hcb]
              · simp [later, hba, hcb]
              · have hca : ¬key c ≤ key a := fun h =>
                  hba ((not_le.1 hcb).le.trans h)
                simp [later, hba, hcb, hca]

theorem foldl_later (l : List α) (best : Option α) :
    l.foldl (fun best a => later key best (some a)) best = later key best (lastLeast key l) := by
  induction l generalizing best with
  | nil => simp [lastLeast]
  | cons a l ih => rw [lastLeast, List.foldl_cons, List.foldl_cons, ih, ih, none_later, later_assoc]

theorem lastLeast_cons (a : α) (l : List α) :
    lastLeast key (a :: l) = later key (some a) (lastLeast key l) := by
  rw [lastLeast, List.foldl_cons, foldl_later, none_later]

theorem lastLeast_append (l m : List α) :
    lastLeast key (l ++ m) = later key (lastLeast key l) (lastLeast key m) := by
  rw [lastLeast, List.foldl_append, foldl_later]
  rfl

/-- Only the choices of the parts compete. -/
theorem lastLeast_flatten (ls : List (List α)) :
    lastLeast key ls.flatten = lastLeast key (ls.filterMap (lastLeast key)) := by
  induction ls with
  | nil => rfl
  | cons l ls ih =>
      rw [List.flatten_cons, lastLeast_append, ih, List.filterMap_cons]
      cases lastLeast key l with
      | none => rw [none_later]
      | some a => rw [lastLeast_cons]

variable {key}

theorem lastLeast_eq_none_iff {l : List α} : lastLeast key l = none ↔ l = [] := by
  cases l with
  | nil => simp [lastLeast]
  | cons a l =>
      rw [lastLeast_cons]
      cases lastLeast key l with
      | none => simp
      | some b =>
          rw [later]
          split <;> simp

theorem lastLeast_eq_some_iff {l : List α} {a : α} :
    lastLeast key l = some a ↔ IsLastLeast key l a := by
  induction l generalizing a with
  | nil => simp [lastLeast, IsLastLeast]
  | cons x l ih =>
      rw [lastLeast_cons]
      constructor
      · intro h
        cases hrest : lastLeast key l with
        | none =>
            obtain rfl := lastLeast_eq_none_iff.1 hrest
            rw [hrest, later_none, Option.some.injEq] at h
            exact ⟨[], [], by rw [h]; rfl, by simp, by simp⟩
        | some b =>
            obtain ⟨front, back, rfl, hfront, hback⟩ := ih.1 hrest
            rw [hrest, later] at h
            split at h
            · rename_i hle
              obtain rfl := Option.some.inj h
              exact ⟨x :: front, back, rfl, by simpa using ⟨hle, hfront⟩, hback⟩
            · rename_i hlt
              obtain rfl := Option.some.inj h
              rw [not_le] at hlt
              refine ⟨[], front ++ b :: back, rfl, by simp, fun c hc => ?_⟩
              obtain hc | hc | hc := by simpa using hc
              · exact hlt.trans_le (hfront c hc)
              · exact hc ▸ hlt
              · exact hlt.trans (hback c hc)
      · rintro ⟨front, back, heq, hfront, hback⟩
        cases front with
        | nil =>
            obtain ⟨rfl, rfl⟩ := List.cons.inj heq
            cases hrest : lastLeast key l with
            | none => rw [later_none]
            | some b =>
                obtain ⟨front', back', rfl, -, -⟩ := ih.1 hrest
                have hlt := hback b (by simp)
                rw [later, if_neg (not_le.2 hlt)]
        | cons y front =>
            obtain ⟨rfl, rfl⟩ := List.cons.inj heq
            rw [List.forall_mem_cons] at hfront
            rw [ih.2 ⟨front, back, rfl, hfront.2, hback⟩, later, if_pos hfront.1]

theorem lastLeast_append_cons {l m : List α} {a w : α}
    (h : lastLeast key (l ++ a :: m) = some w) :
    w = a ∨ (w ∈ l ∧ key w < key a) ∨ (w ∈ m ∧ key w ≤ key a) := by
  have hmem : ∀ {l : List α} {b : α}, lastLeast key l = some b → b ∈ l := by
    intro l b hb
    obtain ⟨front, back, rfl, -, -⟩ := lastLeast_eq_some_iff.1 hb
    simp
  have hright : ∃ c, later key (some a) (lastLeast key m) = some c ∧ key c ≤ key a ∧
      (c = a ∨ c ∈ m) := by
    cases hm : lastLeast key m with
    | none => exact ⟨a, rfl, le_rfl, .inl rfl⟩
    | some b =>
        by_cases hle : key b ≤ key a
        · exact ⟨b, if_pos hle, hle, .inr (hmem hm)⟩
        · exact ⟨a, if_neg hle, le_rfl, .inl rfl⟩
  obtain ⟨c, hc, hle, hplace⟩ := hright
  rw [lastLeast_append, lastLeast_cons, hc] at h
  have hkept : w = c → w = a ∨ (w ∈ l ∧ key w < key a) ∨ (w ∈ m ∧ key w ≤ key a) := by
    rintro rfl
    exact hplace.imp_right fun hw => .inr ⟨hw, hle⟩
  cases hl : lastLeast key l with
  | none =>
      rw [hl, none_later, Option.some.injEq] at h
      exact hkept h.symm
  | some b =>
      rw [hl, later] at h
      split at h
      · exact hkept (Option.some.inj h).symm
      · rename_i hlt
        obtain rfl := Option.some.inj h
        exact .inr (.inl ⟨hmem hl, (not_le.1 hlt).trans_le hle⟩)

end LastLeast
