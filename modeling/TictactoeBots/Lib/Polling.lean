import Mathlib

/-!
Polling until a deadline.

The loop looks at the clock, tries once, and sleeps if there is nothing yet. What
a try gives and how long it and the sleep after it take depends on the time when
they begin. A try is not cut short by the deadline.
-/

namespace Polling

variable {ε α : Type*}

structure Clock where
  takes : ℚ → ℚ
  sleeps : ℚ → ℚ

/-- From one look at the clock to the next, when the first is at `t`. -/
def Clock.gap (clock : Clock) (t : ℚ) : ℚ := clock.takes t + clock.sleeps (t + clock.takes t)

/-- No sleep is shorter than `interval`, and nothing takes less than no time. -/
structure Clock.Regular (clock : Clock) (interval : ℚ) : Prop where
  interval_pos : 0 < interval
  takes : ∀ t, 0 ≤ clock.takes t
  sleeps : ∀ t, interval ≤ clock.sleeps t

/-- The result of the loop and when it ends, `none` when the deadline is over. A
try that gives `none` has found nothing yet. -/
def poll (attempt : ℚ → Except ε (Option α)) (clock : Clock) (deadline : ℚ) :
    ℕ → ℚ → Option (Except ε (Option α) × ℚ)
  | 0, _ => none
  | fuel + 1, now =>
      if now < deadline then
        match attempt now with
        | .error e => some (.error e, now + clock.takes now)
        | .ok (some a) => some (.ok (some a), now + clock.takes now)
        | .ok none => poll attempt clock deadline fuel (now + clock.gap now)
      else some (.ok none, now)

/-- The loop that begins at `start` looks at the clock at `t`. -/
inductive Looks (attempt : ℚ → Except ε (Option α)) (clock : Clock) (deadline start : ℚ) :
    ℚ → Prop
  | start : Looks attempt clock deadline start start
  | again {t : ℚ} (h : Looks attempt clock deadline start t) (hlt : t < deadline)
      (hnone : attempt t = .ok none) : Looks attempt clock deadline start (t + clock.gap t)

section Poll

variable {attempt : ℚ → Except ε (Option α)} {clock : Clock}
  {interval deadline start now finish : ℚ} {fuel : ℕ} {result : Except ε (Option α)}

theorem Clock.Regular.interval_le_gap (h : clock.Regular interval) (t : ℚ) :
    interval ≤ clock.gap t := by
  have htakes := h.takes t
  have hsleeps := h.sleeps (t + clock.takes t)
  unfold Clock.gap
  linarith

theorem Looks.start_le (hclock : clock.Regular interval) {t : ℚ}
    (h : Looks attempt clock deadline start t) : start ≤ t := by
  induction h with
  | start => exact le_rfl
  | @again t _ _ _ ih =>
      have hpos := hclock.interval_pos
      have hgap := hclock.interval_le_gap t
      linarith

theorem Looks.lt_of_gap {gap t : ℚ} (hgap : ∀ t, clock.gap t ≤ gap) (hpos : 0 < gap)
    (hstart : start ≤ deadline) (h : Looks attempt clock deadline start t) :
    t < deadline + gap := by
  cases h with
  | start => linarith
  | @again t _ hlt _ => linarith [hgap t]

theorem looks_of_poll (h : poll attempt clock deadline fuel now = some (result, finish))
    (hnow : Looks attempt clock deadline start now) :
    ∃ t, Looks attempt clock deadline start t ∧
      ((t < deadline ∧ attempt t = result ∧ result ≠ .ok none ∧ finish = t + clock.takes t) ∨
        (deadline ≤ t ∧ result = .ok none ∧ finish = t)) := by
  induction fuel generalizing now with
  | zero => cases h
  | succ fuel ih =>
      rw [poll] at h
      split at h
      · rename_i hlt
        split at h
        · rename_i e he
          obtain ⟨rfl, rfl⟩ := Prod.mk.inj (Option.some.inj h)
          exact ⟨now, hnow, .inl ⟨hlt, he, by simp, rfl⟩⟩
        · rename_i a ha
          obtain ⟨rfl, rfl⟩ := Prod.mk.inj (Option.some.inj h)
          exact ⟨now, hnow, .inl ⟨hlt, ha, by simp, rfl⟩⟩
        · rename_i hnone
          exact ih h (hnow.again hlt hnone)
      · rename_i hge
        obtain ⟨rfl, rfl⟩ := Prod.mk.inj (Option.some.inj h)
        exact ⟨now, hnow, .inr ⟨not_lt.1 hge, rfl, rfl⟩⟩

theorem poll_isSome (hclock : clock.Regular interval) (hfuel : deadline ≤ now + fuel * interval) :
    (poll attempt clock deadline (fuel + 1) now).isSome := by
  induction fuel generalizing now with
  | zero =>
      rw [Nat.cast_zero, zero_mul, add_zero] at hfuel
      rw [poll, if_neg (not_lt.2 hfuel)]
      rfl
  | succ fuel ih =>
      rw [poll]
      split
      · split
        · rfl
        · rfl
        · have hgap := hclock.interval_le_gap now
          apply ih
          push_cast at hfuel
          linarith
      · rfl

theorem poll_add_fuel {ended : Except ε (Option α) × ℚ}
    (h : poll attempt clock deadline fuel now = some ended) (more : ℕ) :
    poll attempt clock deadline (fuel + more) now = some ended := by
  induction fuel generalizing now with
  | zero => cases h
  | succ fuel ih =>
      rw [Nat.add_right_comm, poll]
      rw [poll] at h
      split at h
      · rename_i hlt
        rw [if_pos hlt]
        split at h
        · exact h
        · exact h
        · exact ih h
      · rename_i hge
        rw [if_neg hge]
        exact h

theorem Looks.poll_eq {t : ℚ} (h : Looks attempt clock deadline now t) :
    ∃ rounds, ∀ fuel, poll attempt clock deadline (fuel + rounds) now =
      poll attempt clock deadline fuel t := by
  induction h with
  | start => exact ⟨0, fun _ => rfl⟩
  | again _ hlt hnone ih =>
      obtain ⟨rounds, hrounds⟩ := ih
      refine ⟨rounds + 1, fun fuel => ?_⟩
      rw [← Nat.add_assoc, Nat.add_right_comm, hrounds, poll, if_pos hlt, hnone]

/-- The first look that finds something, before the deadline, is the last one. -/
theorem poll_of_looks {t : ℚ} {a : α} {ended : Except ε (Option α) × ℚ}
    (h : Looks attempt clock deadline now t) (hlt : t < deadline) (ha : attempt t = .ok (some a))
    (hpoll : poll attempt clock deadline fuel now = some ended) :
    ended = (.ok (some a), t + clock.takes t) := by
  obtain ⟨rounds, hrounds⟩ := h.poll_eq
  have hfound : poll attempt clock deadline (1 + rounds) now =
      some (.ok (some a), t + clock.takes t) := by
    rw [hrounds, poll, if_pos hlt, ha]
  have hmore := poll_add_fuel hfound fuel
  rw [Nat.add_comm, poll_add_fuel hpoll (1 + rounds), Option.some.injEq] at hmore
  exact hmore

/-- What is there for longer than the loop ever sleeps is found, if nothing goes
wrong before. -/
theorem exists_of_poll {gap s : ℚ} (hclock : clock.Regular interval)
    (hgap : ∀ t, clock.gap t ≤ gap) (hs : s + gap ≤ deadline) (hnow : now < s + gap)
    (hbefore : ∀ t, now ≤ t → t < s → ∀ e, attempt t ≠ .error e)
    (hthere : ∀ t, s ≤ t → t < deadline → ∃ a, attempt t = .ok (some a))
    (h : poll attempt clock deadline fuel now = some (result, finish)) :
    ∃ a, result = .ok (some a) := by
  induction fuel generalizing now with
  | zero => cases h
  | succ fuel ih =>
      have hlt : now < deadline := hnow.trans_le hs
      rw [poll, if_pos hlt] at h
      split at h
      · rename_i e he
        rcases lt_or_ge now s with hearly | hlate
        · exact absurd he (hbefore now le_rfl hearly e)
        · obtain ⟨a, ha⟩ := hthere now hlate hlt
          cases he.symm.trans ha
      · exact ⟨_, (Prod.mk.inj (Option.some.inj h)).1.symm⟩
      · rename_i hnone
        have hearly : now < s := by
          by_contra hlate
          obtain ⟨a, ha⟩ := hthere now (not_lt.1 hlate) hlt
          cases hnone.symm.trans ha
        have hpos := hclock.interval_pos
        have hleast := hclock.interval_le_gap now
        refine ih (by linarith [hgap now]) (fun t ht => hbefore t (by linarith)) h

end Poll

end Polling
