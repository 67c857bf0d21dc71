import Mathlib

/-!
Replacing runs: every maximal run of the elements that meet a condition becomes
one replacement element, as `re.sub` does with a pattern `[...]+`.

Such a replacement forgets how long a run was, what it was made of, and whether
there was a run at all or the replacement element itself. `Alike` says of two
lists that they differ in nothing else, and the result tells the lists apart
exactly if they are not alike.
-/

namespace Runs

variable {α : Type*} (p : α → Bool) (r : α)

/-- `inRun` says that the run to which the list may go on has its replacement. -/
def replaceFrom : Bool → List α → List α
  | _, [] => []
  | inRun, a :: rest =>
      if p a then
        if inRun then replaceFrom true rest else r :: replaceFrom true rest
      else a :: replaceFrom false rest

def replaceRuns (l : List α) : List α := replaceFrom p r false l

/-- `run` is a run that does not go on in `rest`. -/
structure WholeRun (run rest : List α) : Prop where
  ne_nil : run ≠ []
  all : ∀ a ∈ run, p a
  ends : ∀ a ∈ rest.head?, p a = false

/-- What one replacement element in the result comes from. -/
def Gap (gap rest : List α) : Prop := gap = [r] ∨ WholeRun p gap rest

/-- The lists have the same elements but for their gaps, which are in the same
places. -/
inductive Alike : List α → List α → Prop
  | nil : Alike [] []
  | kept {a : α} {l l' : List α} : p a = false → Alike l l' → Alike (a :: l) (a :: l')
  | gap {gap gap' l l' : List α} :
      Gap p r gap l → Gap p r gap' l' → Alike l l' → Alike (gap ++ l) (gap' ++ l')

variable {p r} {l l' : List α}

@[simp] theorem replaceRuns_nil : replaceRuns p r [] = [] := rfl

theorem replaceRuns_cons_of_not {a : α} (h : p a = false) (l : List α) :
    replaceRuns p r (a :: l) = a :: replaceRuns p r l := by
  simp [replaceRuns, replaceFrom, h]

theorem replaceFrom_append {run : List α} (h : ∀ a ∈ run, p a) (rest : List α) :
    replaceFrom p r true (run ++ rest) = replaceFrom p r true rest := by
  induction run with
  | nil => rfl
  | cons a run ih =>
      rw [List.cons_append, replaceFrom, if_pos (h a List.mem_cons_self), if_pos rfl]
      exact ih fun b hb => h b (List.mem_cons_of_mem a hb)

theorem replaceFrom_of_head? (h : ∀ a ∈ l.head?, p a = false) (inRun : Bool) :
    replaceFrom p r inRun l = replaceRuns p r l := by
  cases l with
  | nil => rfl
  | cons a rest => simp [replaceRuns, replaceFrom, h a rfl]

theorem WholeRun.replaceRuns_append {run rest : List α} (h : WholeRun p run rest) :
    replaceRuns p r (run ++ rest) = r :: replaceRuns p r rest := by
  cases run with
  | nil => exact absurd rfl h.ne_nil
  | cons a run =>
      have ha : p a := h.all a List.mem_cons_self
      rw [← replaceFrom_of_head? h.ends true, replaceRuns, List.cons_append, replaceFrom, if_pos ha,
        replaceFrom_append fun b hb => h.all b (List.mem_cons_of_mem a hb)]
      rfl

theorem Gap.replaceRuns_append (hr : p r = false) {gap rest : List α} (h : Gap p r gap rest) :
    replaceRuns p r (gap ++ rest) = r :: replaceRuns p r rest := by
  rcases h with rfl | h
  · exact replaceRuns_cons_of_not hr rest
  · exact h.replaceRuns_append

theorem eq_append_of_replaceRuns {a : α} {result : List α}
    (h : replaceRuns p r l = a :: result) :
    (∃ rest, l = a :: rest ∧ p a = false ∧ replaceRuns p r rest = result) ∨
      (a = r ∧ ∃ run rest, l = run ++ rest ∧ WholeRun p run rest ∧
        replaceRuns p r rest = result) := by
  cases l with
  | nil => cases h
  | cons b tail =>
      by_cases hb : p b
      · right
        have hrun : WholeRun p (b :: tail.takeWhile p) (tail.dropWhile p) := by
          refine ⟨List.cons_ne_nil _ _, List.forall_mem_cons.2 ⟨hb, fun a ha => ?_⟩, fun a ha => ?_⟩
          · exact List.mem_takeWhile_imp ha
          · have hnot := List.head?_dropWhile_not p tail
            rw [Option.mem_def.1 ha] at hnot
            exact hnot
        have hsplit : b :: tail = b :: tail.takeWhile p ++ tail.dropWhile p := by
          rw [List.cons_append, List.takeWhile_append_dropWhile]
        rw [hsplit, hrun.replaceRuns_append, List.cons.injEq] at h
        exact ⟨h.1.symm, _, _, hsplit, hrun, h.2⟩
      · left
        rw [replaceRuns_cons_of_not (by simpa using hb), List.cons.injEq] at h
        obtain ⟨rfl, hrest⟩ := h
        exact ⟨tail, rfl, by simpa using hb, hrest⟩

theorem replaceRuns_eq_nil : replaceRuns p r l = [] ↔ l = [] := by
  cases l with
  | nil => simp
  | cons a rest => by_cases ha : p a <;> simp [replaceRuns, replaceFrom, ha]

theorem Alike.replaceRuns_eq (hr : p r = false) (h : Alike p r l l') :
    replaceRuns p r l = replaceRuns p r l' := by
  induction h with
  | nil => rfl
  | kept ha _ ih => rw [replaceRuns_cons_of_not ha, replaceRuns_cons_of_not ha, ih]
  | gap hgap hgap' _ ih => rw [hgap.replaceRuns_append hr, hgap'.replaceRuns_append hr, ih]

theorem alike_of_replaceRuns_eq (h : replaceRuns p r l = replaceRuns p r l') :
    Alike p r l l' := by
  generalize hresult : replaceRuns p r l' = result at h
  induction result generalizing l l' with
  | nil =>
      rw [replaceRuns_eq_nil.1 h, replaceRuns_eq_nil.1 hresult]
      exact .nil
  | cons a result ih =>
      rcases eq_append_of_replaceRuns h with
        ⟨rest, rfl, ha, hrest⟩ | ⟨rfl, run, rest, rfl, hrun, hrest⟩ <;>
      rcases eq_append_of_replaceRuns hresult with
        ⟨rest', rfl, ha', hrest'⟩ | ⟨heq, run', rest', rfl, hrun', hrest'⟩
      · exact .kept ha (ih hrest' hrest)
      · subst heq
        exact .gap (.inl rfl) (.inr hrun') (ih hrest' hrest)
      · exact .gap (.inr hrun) (.inl rfl) (ih hrest' hrest)
      · exact .gap (.inr hrun) (.inr hrun') (ih hrest' hrest)

/-- The results are the same exactly if the lists are alike. -/
theorem replaceRuns_eq_iff (hr : p r = false) :
    replaceRuns p r l = replaceRuns p r l' ↔ Alike p r l l' :=
  ⟨alike_of_replaceRuns_eq, Alike.replaceRuns_eq hr⟩

end Runs
