import Mathlib

/-!
The elements of a list numbered by key: each one is the first, the second, ...
of those with its key.
-/

namespace Occurrences

variable {α κ : Type*} [DecidableEq κ] (key : α → κ)

def keyCount (l : List α) (k : κ) : ℕ := l.countP fun a => key a = k

/-- Every element with its number among the elements of its key. -/
def numberedBy (l : List α) : List (α × ℕ) :=
  l.zipIdx.map fun (a, i) => (a, keyCount key (l.take (i + 1)) (key a))

@[simp] theorem keyCount_nil (k : κ) : keyCount key [] k = 0 := rfl

@[simp] theorem keyCount_concat (l : List α) (a : α) (k : κ) :
    keyCount key (l ++ [a]) k = keyCount key l k + if key a = k then 1 else 0 := by
  simp [keyCount, List.countP_singleton]

theorem keyCount_pos_iff {l : List α} {k : κ} : 0 < keyCount key l k ↔ ∃ a ∈ l, key a = k := by
  simp [keyCount, List.countP_pos_iff]

@[simp] theorem numberedBy_nil : numberedBy key [] = [] := rfl

@[simp] theorem numberedBy_concat (l : List α) (a : α) :
    numberedBy key (l ++ [a]) = numberedBy key l ++ [(a, keyCount key l (key a) + 1)] := by
  have hfront : ∀ p ∈ l.zipIdx,
      (p.1, keyCount key ((l ++ [a]).take (p.2 + 1)) (key p.1)) =
        (p.1, keyCount key (l.take (p.2 + 1)) (key p.1)) := by
    intro p hp
    have hlt : p.2 < l.length := List.snd_lt_of_mem_zipIdx hp
    rw [List.take_append_of_le_length hlt]
  have hall : (l ++ [a]).take (l.length + 1) = l ++ [a] := List.take_of_length_le (by simp)
  unfold numberedBy
  rw [List.zipIdx_append, List.map_append, List.map_congr_left hfront]
  simp [hall]

@[simp] theorem map_fst_numberedBy (l : List α) : (numberedBy key l).map Prod.fst = l := by
  simp [numberedBy, Function.comp_def, List.zipIdx_map_fst]

theorem exists_mem_numberedBy_iff {l : List α} {k : κ} {n : ℕ} :
    (∃ a, key a = k ∧ (a, n) ∈ numberedBy key l) ↔ 1 ≤ n ∧ n ≤ keyCount key l k := by
  induction l using List.reverseRecOn with
  | nil =>
      simp only [numberedBy_nil, List.not_mem_nil, and_false, exists_false, keyCount_nil, false_iff]
      omega
  | append_singleton l a ih =>
      simp only [numberedBy_concat, List.mem_append, List.mem_singleton, Prod.mk.injEq, and_or_left,
        exists_or, ih, keyCount_concat]
      by_cases hkey : key a = k
      · have hlast : (∃ b, key b = k ∧ b = a ∧ n = keyCount key l (key a) + 1) ↔
            n = keyCount key l k + 1 := by
          rw [hkey]
          exact ⟨fun ⟨_, _, _, hn⟩ => hn, fun hn => ⟨a, hkey, rfl, hn⟩⟩
        rw [hlast, if_pos hkey]
        omega
      · have hlast : ¬∃ b, key b = k ∧ b = a ∧ n = keyCount key l (key a) + 1 := by
          rintro ⟨b, hb, rfl, -⟩
          exact hkey hb
        rw [if_neg hkey, or_iff_left hlast, Nat.add_zero]

theorem numberedBy_prefix_append (l l' : List α) :
    numberedBy key l <+: numberedBy key (l ++ l') := by
  induction l' using List.reverseRecOn with
  | nil => rw [List.append_nil]
  | append_singleton l' a ih =>
      rw [← List.append_assoc, numberedBy_concat]
      exact ih.trans (List.prefix_append _ _)

end Occurrences
