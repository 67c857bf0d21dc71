import Mathlib

/-!
Labelled step systems given by a partial step function.

Everything a run may choose (which process moves, what the network answers,
which row an unordered query returns first) is carried by the label, so the
step itself is a function and a run on concrete labels can be evaluated. A
label that is not enabled steps to `none`.

`Via` is reachability along steps that all satisfy a side condition on the
state before the step and its label. Plain reachability is the instance with
no condition, and the two rules an invariant needs are stated once for both.
-/

namespace StepSystem

variable {σ α : Type*}

/-- Take the labelled steps in order; `none` as soon as one is not enabled. -/
def exec (step : σ → α → Option σ) : σ → List α → Option σ
  | s, [] => some s
  | s, a :: as => (step s a).bind fun s' => exec step s' as

@[simp] theorem exec_nil (step : σ → α → Option σ) (s : σ) :
    exec step s [] = some s := rfl

theorem exec_cons (step : σ → α → Option σ) (s : σ) (a : α) (as : List α) :
    exec step s (a :: as) = (step s a).bind fun s' => exec step s' as := rfl

theorem exec_append (step : σ → α → Option σ) (s : σ) (as bs : List α) :
    exec step s (as ++ bs) = (exec step s as).bind fun s' => exec step s' bs := by
  induction as generalizing s with
  | nil => rfl
  | cons a as ih =>
      rw [List.cons_append, exec_cons, exec_cons, Option.bind_assoc]
      exact congrArg _ (funext fun s' => ih s')

/-- `Via step C s₀ s`: some run from `s₀` to `s` takes only steps whose label
and state before the step satisfy `C`. -/
inductive Via (step : σ → α → Option σ) (C : σ → α → Prop) (s₀ : σ) : σ → Prop
  | start : Via step C s₀ s₀
  | next {s s' : σ} (a : α) :
      Via step C s₀ s → C s a → step s a = some s' → Via step C s₀ s'

/-- Reachability along arbitrary steps. -/
def Reachable (step : σ → α → Option σ) : σ → σ → Prop :=
  Via step fun _ _ => True

variable {step : σ → α → Option σ} {C : σ → α → Prop} {s₀ s s' : σ}

/-- The invariant rule: what holds at the start and is kept by every step that
meets the side condition holds wherever such a run ends. -/
theorem Via.invariant {I : σ → Prop} (h : Via step C s₀ s) (h₀ : I s₀)
    (hstep : ∀ s a s', I s → C s a → step s a = some s' → I s') : I s := by
  induction h with
  | start => exact h₀
  | next a _ hC hs ih => exact hstep _ a _ ih hC hs

theorem Reachable.invariant {I : σ → Prop} (h : Reachable step s₀ s) (h₀ : I s₀)
    (hstep : ∀ s a s', I s → step s a = some s' → I s') : I s :=
  Via.invariant h h₀ fun s a s' hI _ hs => hstep s a s' hI hs

/-- A label list that executes, every prefix meeting the side condition, is a
run. The condition is decided along the way, so a concrete run is one
evaluation. -/
def execVia (step : σ → α → Option σ) (C : σ → α → Prop)
    [∀ s a, Decidable (C s a)] : σ → List α → Option σ
  | s, [] => some s
  | s, a :: as =>
      if C s a then (step s a).bind fun s' => execVia step C s' as else none

theorem Via.trans (h : Via step C s₀ s) (h' : Via step C s s') : Via step C s₀ s' := by
  induction h' with
  | start => exact h
  | next a _ hC hs ih => exact .next a ih hC hs

theorem via_of_execVia [∀ s a, Decidable (C s a)] (as : List α)
    (h : execVia step C s₀ as = some s) : Via step C s₀ s := by
  induction as generalizing s₀ with
  | nil =>
      simp only [execVia, Option.some.injEq] at h
      exact h ▸ .start
  | cons a as ih =>
      simp only [execVia] at h
      split at h
      · rename_i hC
        obtain ⟨s₁, hs₁, hrest⟩ := Option.bind_eq_some_iff.1 h
        exact (Via.next a .start hC hs₁).trans (ih hrest)
      · exact absurd h (by simp)

/-- The unconditional form, for plain reachability. -/
theorem reachable_of_exec (as : List α) (h : exec step s₀ as = some s) :
    Reachable step s₀ s := by
  induction as generalizing s₀ with
  | nil =>
      simp only [exec, Option.some.injEq] at h
      exact h ▸ Via.start
  | cons a as ih =>
      obtain ⟨s₁, hs₁, hrest⟩ := Option.bind_eq_some_iff.1 h
      exact (Via.next a .start trivial hs₁).trans (ih hrest)

/-! ### Processes in a list

A system of any number of processes keeps them in a list, and a label names the
one that moves by its index. What a step does is easier to say without indices,
of that process and the others. -/

theorem perm_cons_eraseIdx_of_getElem? {π : Type*} {l : List π} {i : ℕ} {a : π}
    (h : l[i]? = some a) : l.Perm (a :: l.eraseIdx i) := by
  obtain ⟨hi, rfl⟩ := List.getElem?_eq_some_iff.1 h
  exact (List.getElem_cons_eraseIdx_perm hi).symm

theorem getElem?_concat_eq_some {π : Type*} {l : List π} {a b : π} {i : ℕ} :
    (l ++ [a])[i]? = some b ↔ l[i]? = some b ∨ (i = l.length ∧ a = b) := by
  grind

theorem getElem?_set_eq_some {π : Type*} {l : List π} {a a' b : π} {i j : ℕ} (h : l[i]? = some a) :
    (l.set i a')[j]? = some b ↔ (i = j ∧ a' = b) ∨ (i ≠ j ∧ l[j]? = some b) := by
  grind

end StepSystem
