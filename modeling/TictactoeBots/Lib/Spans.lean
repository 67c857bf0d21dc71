import Mathlib

/-!
Lists of integers as spans of consecutive ones.

One loop over the list keeps a span open and extends it as long as the next
integer follows on it. Nothing is lost by that, and for an increasing list at
least one integer is missing between two spans.
-/

namespace Spans

/-- The integers from `first` to `last`. -/
structure Span where
  first : ℤ
  last : ℤ
  first_le_last : first ≤ last
  deriving DecidableEq

namespace Span

def toList (s : Span) : List ℤ := Int.range s.first (s.last + 1)

@[simp] theorem mem_toList {s : Span} {n : ℤ} : n ∈ s.toList ↔ s.first ≤ n ∧ n ≤ s.last := by
  rw [toList, Int.mem_range_iff, Int.lt_add_one_iff]

def single (n : ℤ) : Span := ⟨n, n, le_refl n⟩

@[simp] theorem toList_single (n : ℤ) : (single n).toList = [n] := by
  simp [toList, single, Int.range]

theorem first_le_next (s : Span) : s.first ≤ s.last + 1 := Int.le_add_one s.first_le_last

def extend (s : Span) : Span := ⟨s.first, s.last + 1, s.first_le_next⟩

@[simp] theorem first_extend (s : Span) : s.extend.first = s.first := rfl

@[simp] theorem last_extend (s : Span) : s.extend.last = s.last + 1 := rfl

@[simp] theorem toList_extend (s : Span) : s.extend.toList = s.toList ++ [s.last + 1] := by
  have hle := s.first_le_next
  have hlength : (s.last + 1 + 1 - s.first).toNat = (s.last + 1 - s.first).toNat + 1 := by omega
  have hlast : s.first + ((s.last + 1 - s.first).toNat : ℤ) = s.last + 1 := by omega
  unfold toList Int.range
  rw [first_extend, last_extend, hlength, List.range_succ, List.map_append, List.map_singleton,
    hlast]

end Span

/-- An integer is missing between the two. -/
def Apart (s t : Span) : Prop := s.last + 1 < t.first

def expand (spans : List Span) : List ℤ := spans.flatMap Span.toList

@[simp] theorem expand_nil : expand [] = [] := rfl

@[simp] theorem expand_cons (s : Span) (spans : List Span) :
    expand (s :: spans) = s.toList ++ expand spans := List.flatMap_cons

@[simp] theorem expand_append (spans spans' : List Span) :
    expand (spans ++ spans') = expand spans ++ expand spans' := List.flatMap_append

/-! ### The loop -/

/-- The spans that are closed, and the one that is open. -/
structure Progress where
  closed : List Span
  current : Span

namespace Progress

def spans (p : Progress) : List Span := p.closed ++ [p.current]

def start (n : ℤ) : Progress := ⟨[], Span.single n⟩

def absorb (p : Progress) (n : ℤ) : Progress :=
  if n = p.current.last + 1 then ⟨p.closed, p.current.extend⟩ else ⟨p.spans, Span.single n⟩

variable {p : Progress} {n : ℤ}

theorem expand_absorb (p : Progress) (n : ℤ) :
    expand (p.absorb n).spans = expand p.spans ++ [n] := by
  unfold absorb
  split
  · rename_i hnext
    simp [spans, hnext]
  · simp [spans]

@[simp] theorem last_absorb (p : Progress) (n : ℤ) : (p.absorb n).current.last = n := by
  unfold absorb
  split
  · rename_i hnext
    exact hnext.symm
  · rfl

theorem absorb_pairwise (h : p.spans.Pairwise Apart) (hlt : p.current.last < n) :
    (p.absorb n).spans.Pairwise Apart := by
  unfold absorb
  split
  · -- the open span still begins where it did
    unfold spans at h ⊢
    rw [List.pairwise_append] at h ⊢
    refine ⟨h.1, List.pairwise_singleton _ _, fun s hs t ht => ?_⟩
    rw [List.mem_singleton.1 ht]
    exact h.2.2 s hs p.current (List.mem_singleton_self _)
  · rename_i hgap
    have hcurrent : Apart p.current (Span.single n) := by
      simp only [Apart, Span.single]
      omega
    unfold spans
    rw [List.pairwise_append]
    refine ⟨h, List.pairwise_singleton _ _, fun s hs t ht => ?_⟩
    rw [List.mem_singleton.1 ht]
    obtain hs | hs := List.mem_append.1 hs
    · have hbefore : Apart s p.current :=
        (List.pairwise_append.1 h).2.2 s hs p.current (List.mem_singleton_self _)
      have hle := p.current.first_le_last
      simp only [Apart] at hbefore hcurrent ⊢
      omega
    · rwa [List.mem_singleton.1 hs]

theorem expand_foldl (l : List ℤ) (p : Progress) :
    expand (l.foldl absorb p).spans = expand p.spans ++ l := by
  induction l generalizing p with
  | nil => exact (List.append_nil _).symm
  | cons n l ih => rw [List.foldl_cons, ih, expand_absorb, List.append_assoc, List.singleton_append]

theorem foldl_pairwise {l : List ℤ} (h : p.spans.Pairwise Apart)
    (hsorted : (p.current.last :: l).Pairwise (· < ·)) :
    (l.foldl absorb p).spans.Pairwise Apart := by
  induction l generalizing p with
  | nil => exact h
  | cons n l ih =>
      rw [List.pairwise_cons] at hsorted
      apply ih
      · exact absorb_pairwise h (hsorted.1 n List.mem_cons_self)
      · rw [last_absorb]
        exact hsorted.2

end Progress

/-- The spans of a list. -/
def compress : List ℤ → List Span
  | [] => []
  | n :: l => (l.foldl Progress.absorb (Progress.start n)).spans

example : (compress [1, 2, 3, 7, 10, 11]).map (fun s => (s.first, s.last)) =
    [(1, 3), (7, 7), (10, 11)] := by decide

/-! ### What the spans hold -/

/-- Nothing is lost, in any order of the list. -/
theorem expand_compress (l : List ℤ) : expand (compress l) = l := by
  cases l with
  | nil => rfl
  | cons n l =>
      rw [compress, Progress.expand_foldl]
      simp [Progress.spans, Progress.start]

theorem compress_pairwise {l : List ℤ} (h : l.Pairwise (· < ·)) :
    (compress l).Pairwise Apart := by
  cases l with
  | nil => exact List.Pairwise.nil
  | cons n l => exact Progress.foldl_pairwise (List.pairwise_singleton _ _) h

theorem mem_expand {spans : List Span} {n : ℤ} :
    n ∈ expand spans ↔ ∃ s ∈ spans, s.first ≤ n ∧ n ≤ s.last := by
  simp [expand]

/-- No span can be made longer: its neighbours are not held. -/
theorem not_mem_expand {spans : List Span} (h : spans.Pairwise Apart) {s : Span}
    (hs : s ∈ spans) : s.first - 1 ∉ expand spans ∧ s.last + 1 ∉ expand spans := by
  have hother : ∀ t ∈ spans, s = t ∨ Apart s t ∨ Apart t s := by
    intro t ht
    by_cases hst : s = t
    · exact .inl hst
    · have : Std.Symm fun a b => Apart a b ∨ Apart b a := ⟨fun _ _ => Or.symm⟩
      have heither : spans.Pairwise fun a b => Apart a b ∨ Apart b a := h.imp .inl
      exact .inr (heither.forall hs ht hst)
  have hle := s.first_le_last
  constructor
  all_goals
    intro hmem
    obtain ⟨t, ht, hfirst, hlast⟩ := mem_expand.1 hmem
    simp only [Apart] at hother
    obtain rfl | hapart | hapart := hother t ht <;> omega

end Spans
