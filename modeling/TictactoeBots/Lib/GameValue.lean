import Mathlib

/-!
Games of two sides, seen from one of them: where a move leads, whose move it is,
and what a finished game pays us.

What a side can force is an inductive predicate, without strategies and without
an algorithm. A position has the value `v` when we can force at least `v` and
the other side can hold us to it. The rules for the value of a position are
those of backward induction, so what follows them computes the value, and a
play in which our moves keep the value ends with it.
-/

namespace GameValue

variable {σ τ γ : Type*}

structure Game (σ γ : Type*) where
  /-- The positions that a move leads to; none when the game is over. -/
  next : σ → List σ
  ours : σ → Prop
  payoff : σ → γ

/-- The same game, seen from the other side. -/
def Game.swap (G : Game σ γ) : Game σ γᵒᵈ :=
  ⟨G.next, fun s => ¬G.ours s, fun s => OrderDual.toDual (G.payoff s)⟩

/-- We can make the game end with a payoff of at least `b`. -/
inductive Forces [LE γ] (G : Game σ γ) (b : γ) : σ → Prop
  | finished {s : σ} (hover : G.next s = []) (hpayoff : b ≤ G.payoff s) : Forces G b s
  | ours {s t : σ} (hours : G.ours s) (hmem : t ∈ G.next s) (h : Forces G b t) : Forces G b s
  | theirs {s : σ} (htheirs : ¬G.ours s) (hopen : G.next s ≠ [])
      (h : ∀ t ∈ G.next s, Forces G b t) : Forces G b s

/-- We can force `v` and nothing above it. -/
def IsValue [LE γ] (G : Game σ γ) (s : σ) (v : γ) : Prop :=
  Forces G v s ∧ Forces G.swap (OrderDual.toDual v) s

/-! ### What can be forced -/

section Forces

variable [Preorder γ] {G : Game σ γ} {b c : γ} {s t : σ}

theorem Forces.mono (h : Forces G b s) (hle : c ≤ b) : Forces G c s := by
  induction h with
  | finished hover hpayoff => exact .finished hover (hle.trans hpayoff)
  | ours hours hmem _ ih => exact .ours hours hmem ih
  | theirs htheirs hopen _ ih => exact .theirs htheirs hopen ih

theorem Forces.le_payoff (h : Forces G b s) (hover : G.next s = []) : b ≤ G.payoff s := by
  cases h with
  | finished _ hpayoff => exact hpayoff
  | ours _ hmem _ => simp [hover] at hmem
  | theirs _ hopen _ => exact absurd hover hopen

theorem Forces.of_theirs (h : Forces G b s) (htheirs : ¬G.ours s) (hmem : t ∈ G.next s) :
    Forces G b t := by
  cases h with
  | finished hover _ => simp [hover] at hmem
  | ours hours _ _ => exact absurd hours htheirs
  | theirs _ _ h => exact h t hmem

theorem Forces.le (h : Forces G b s) {c : γᵒᵈ} (hswap : Forces G.swap c s) :
    b ≤ OrderDual.ofDual c := by
  induction h with
  | finished hover hpayoff => exact hpayoff.trans (hswap.le_payoff hover)
  | ours hours hmem _ ih => exact ih (hswap.of_theirs (not_not.2 hours) hmem)
  | @theirs s htheirs hopen _ ih =>
      cases hswap with
      | finished hover _ => exact absurd hover hopen
      | ours _ hmem hswap => exact ih _ hmem hswap
      | theirs hours _ _ => exact absurd htheirs hours

theorem Forces.le_of_payoff_le (h : Forces G b s) (hle : ∀ t, G.payoff t ≤ c) : b ≤ c := by
  induction h with
  | finished _ hpayoff => exact hpayoff.trans (hle _)
  | ours _ _ _ ih => exact ih
  | theirs _ hopen _ ih =>
      obtain ⟨t, hmem⟩ := List.exists_mem_of_ne_nil _ hopen
      exact ih t hmem

end Forces

/-! ### Backward induction -/

section Value

variable [Preorder γ] {G : Game σ γ} {s t : σ} {v : γ}

theorem IsValue.forces_iff (h : IsValue G s v) {b : γ} : Forces G b s ↔ b ≤ v :=
  ⟨fun hforces => hforces.le h.2, h.1.mono⟩

theorem IsValue.bounds {low high : γ} (h : IsValue G s v)
    (hpayoff : ∀ t, low ≤ G.payoff t ∧ G.payoff t ≤ high) : low ≤ v ∧ v ≤ high :=
  ⟨OrderDual.toDual_le_toDual.1 (h.2.le_of_payoff_le (c := OrderDual.toDual low) fun t =>
      OrderDual.toDual_le_toDual.2 (hpayoff t).1),
    h.1.le_of_payoff_le fun t => (hpayoff t).2⟩

theorem isValue_finished (hover : G.next s = []) : IsValue G s (G.payoff s) :=
  ⟨.finished hover le_rfl, .finished hover le_rfl⟩

/-- At our move the value is that of a best move. -/
theorem isValue_ours (hours : G.ours s) (hmem : t ∈ G.next s) (hvalue : IsValue G t v)
    (hbest : ∀ u ∈ G.next s, ∃ w, IsValue G u w ∧ w ≤ v) : IsValue G s v := by
  refine ⟨.ours hours hmem hvalue.1, .theirs (not_not.2 hours) (List.ne_nil_of_mem hmem) ?_⟩
  intro u hu
  obtain ⟨w, hw, hle⟩ := hbest u hu
  exact hw.2.mono (OrderDual.toDual_le_toDual.2 hle)

/-- At their move it is that of a move that is worst for us. -/
theorem isValue_theirs (htheirs : ¬G.ours s) (hmem : t ∈ G.next s) (hvalue : IsValue G t v)
    (hworst : ∀ u ∈ G.next s, ∃ w, IsValue G u w ∧ v ≤ w) : IsValue G s v := by
  refine ⟨.theirs htheirs (List.ne_nil_of_mem hmem) ?_, .ours htheirs hmem hvalue.2⟩
  intro u hu
  obtain ⟨w, hw, hle⟩ := hworst u hu
  exact hw.1.mono hle

/-- A step of a play in which our moves keep the value. -/
theorem Forces.step {b : γ} (h : Forces G b s) (hmem : t ∈ G.next s)
    (hkeeps : G.ours s → ∃ v, IsValue G s v ∧ IsValue G t v) : Forces G b t := by
  by_cases hours : G.ours s
  · obtain ⟨v, hs, ht⟩ := hkeeps hours
    exact ht.forces_iff.2 (hs.forces_iff.1 h)
  · exact h.of_theirs hours hmem

end Value

/-! ### Finding it out

A search decides what can be forced in a game that is small enough. It may be
run on another representation of the positions. -/

/-- Looks `n` moves ahead for a way to a finished game that is `good`. -/
def search (next : σ → List σ) (ours good : σ → Bool) : ℕ → σ → Bool
  | 0, _ => false
  | n + 1, s =>
      match next s with
      | [] => good s
      | t :: rest =>
          bif ours s then (t :: rest).any (search next ours good n)
          else (t :: rest).all (search next ours good n)

theorem forces_of_search [LE γ] {G : Game σ γ} {b : γ} {ours good : σ → Bool}
    (hours : ∀ s, ours s = true ↔ G.ours s) (hgood : ∀ s, good s = true → b ≤ G.payoff s)
    {n : ℕ} {s : σ} (h : search G.next ours good n s = true) : Forces G b s := by
  induction n generalizing s with
  | zero => exact absurd h Bool.false_ne_true
  | succ n ih =>
      rw [search] at h
      split at h
      · rename_i hover
        exact .finished hover (hgood s h)
      · rename_i t rest hnext
        have hopen : G.next s ≠ [] := by simp [hnext]
        cases hturn : ours s with
        | true =>
            rw [hturn, cond_true, ← hnext, List.any_eq_true] at h
            obtain ⟨u, hmem, hu⟩ := h
            exact .ours ((hours s).1 hturn) hmem (ih hu)
        | false =>
            rw [hturn, cond_false, ← hnext, List.all_eq_true] at h
            have htheirs : ¬G.ours s := fun hs => by simp [(hours s).2 hs] at hturn
            exact .theirs htheirs hopen fun u hu => ih (h u hu)

/-- Positions that correspond, with corresponding moves both ways and no smaller
payoff at the end. -/
structure Simulates [LE γ] (G : Game σ γ) (H : Game τ γ) (b : γ) (R : σ → τ → Prop) : Prop where
  ours : ∀ s t, R s t → (G.ours s ↔ H.ours t)
  forth : ∀ s t, R s t → ∀ s' ∈ G.next s, ∃ t' ∈ H.next t, R s' t'
  back : ∀ s t, R s t → ∀ t' ∈ H.next t, ∃ s' ∈ G.next s, R s' t'
  payoff : ∀ s t, R s t → G.next s = [] → b ≤ H.payoff t → b ≤ G.payoff s

theorem Simulates.forces [LE γ] {G : Game σ γ} {H : Game τ γ} {b : γ} {R : σ → τ → Prop}
    (hsim : Simulates G H b R) {t : τ} (h : Forces H b t) {s : σ} (hR : R s t) :
    Forces G b s := by
  induction h generalizing s with
  | finished hover hpayoff =>
      have hend : G.next s = [] := by
        apply List.eq_nil_iff_forall_not_mem.2
        intro s' hs'
        obtain ⟨t', ht', -⟩ := hsim.forth s _ hR s' hs'
        simp [hover] at ht'
      exact .finished hend (hsim.payoff s _ hR hend hpayoff)
  | ours hours hmem _ ih =>
      obtain ⟨s', hs', hR'⟩ := hsim.back s _ hR _ hmem
      exact .ours ((hsim.ours s _ hR).2 hours) hs' (ih hR')
  | theirs htheirs hopen _ ih =>
      obtain ⟨t', ht'⟩ := List.exists_mem_of_ne_nil _ hopen
      obtain ⟨s', hs', -⟩ := hsim.back s _ hR t' ht'
      refine .theirs (mt (hsim.ours s _ hR).1 htheirs) (List.ne_nil_of_mem hs') ?_
      intro s' hs'
      obtain ⟨t', ht', hR'⟩ := hsim.forth s _ hR s' hs'
      exact ih t' ht' hR'

end GameValue
