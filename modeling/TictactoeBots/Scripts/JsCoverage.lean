import TictactoeBots.Lib.LastLeast
import TictactoeBots.Lib.LineBoundaries
import TictactoeBots.Lib.SplitPositions

/-!
The report on the JavaScript coverage that the browser tests record.

V8 writes nested ranges with counts, and the innermost range over a character
says whether it was executed. A line is covered if one of its characters was.
The script reads the files of many runs and throws their ranges together.
-/

namespace TictactoeBots

open Text LastLeast SplitPositions

/-! ### Lines of one source -/

structure CoverageRange where
  start : ℤ
  stop : ℤ
  count : ℤ
  deriving DecidableEq, Repr

namespace CoverageRange

def size (r : CoverageRange) : ℤ := r.stop - r.start

def Contains (r : CoverageRange) (offset : ℤ) : Prop := r.start ≤ offset ∧ offset < r.stop

instance (r : CoverageRange) (offset : ℤ) : Decidable (r.Contains offset) :=
  inferInstanceAs (Decidable (_ ∧ _))

end CoverageRange

/-- The body of the loop of `_innermost_count`. -/
def keepInnermost (offset : ℤ) (best : Option CoverageRange) (r : CoverageRange) :
    Option CoverageRange :=
  if r.Contains offset then
    match best with
    | none => some r
    | some b => if r.size ≤ b.size then some r else best
  else best

def innermostCount (ranges : List CoverageRange) (offset : ℤ) : ℤ :=
  match ranges.foldl (keepInnermost offset) none with
  | none => 0
  | some best => best.count

/-- The inner loop of `line_coverage`, on the rest of a line that begins at
`offset`. -/
def lineCovered (ranges : List CoverageRange) (offset : ℕ) : Str → Bool
  | [] => false
  | c :: rest =>
      if isSpace c then lineCovered ranges (offset + 1) rest
      else if innermostCount ranges offset > 0 then true
      else lineCovered ranges (offset + 1) rest

/-- The outer loop, which adds one to the offset for the line feed. -/
def linesCovered (ranges : List CoverageRange) (offset : ℕ) : List Str → List Bool
  | [] => []
  | line :: rest =>
      lineCovered ranges offset line :: linesCovered ranges (offset + (line.length + 1)) rest

def lineCoverage (source : Str) (ranges : List CoverageRange) : List Bool :=
  linesCovered ranges 0 (source.splitOn 0x0a)

example : lineCoverage (str "a;\nb;\nc;") [⟨0, 8, 1⟩, ⟨3, 5, 0⟩] = [true, false, true] := by decide

/-! ### What a covered line is -/

/-- The character at `offset` is not whitespace, and there are `line` line feeds
before it. -/
def CodeAt (source : Str) (line offset : ℕ) : Prop :=
  ∃ c, source[offset]? = some c ∧ isSpace c = false ∧ (source.take offset).count 0x0a = line

/-- The smallest range over `offset`, and of those of its size the last one. -/
def IsInnermost (ranges : List CoverageRange) (offset : ℤ) (r : CoverageRange) : Prop :=
  ∃ front back, ranges = front ++ r :: back ∧ r.Contains offset ∧
    (∀ other ∈ front, other.Contains offset → r.size ≤ other.size) ∧
    ∀ other ∈ back, other.Contains offset → r.size < other.size

def innermost (offset : ℤ) (ranges : List CoverageRange) : Option CoverageRange :=
  lastLeast CoverageRange.size (ranges.filter (·.Contains offset))

theorem foldl_keepInnermost (ranges : List CoverageRange) (offset : ℤ) :
    ranges.foldl (keepInnermost offset) none = innermost offset ranges := by
  have hstep : keepInnermost offset = fun best r =>
      if decide (r.Contains offset) then later CoverageRange.size best (some r) else best := by
    funext best r
    by_cases hr : r.Contains offset
    · cases best <;> simp [keepInnermost, later, hr]
    · simp [keepInnermost, hr]
  rw [innermost, lastLeast, List.foldl_filter, hstep]

theorem innermostCount_pos {ranges : List CoverageRange} {offset : ℤ} :
    0 < innermostCount ranges offset ↔ ∃ r, innermost offset ranges = some r ∧ 0 < r.count := by
  rw [innermostCount, foldl_keepInnermost]
  cases innermost offset ranges <;> simp

theorem innermost_eq_some_iff {ranges : List CoverageRange} {offset : ℤ} {r : CoverageRange} :
    innermost offset ranges = some r ↔ IsInnermost ranges offset r := by
  rw [innermost, lastLeast_eq_some_iff]
  constructor
  · rintro ⟨front, back, heq, hfront, hback⟩
    obtain ⟨front', rest, rfl, rfl, hrest⟩ := List.filter_eq_append_iff.1 heq
    obtain ⟨skipped, back', rfl, hskipped, hr, rfl⟩ := List.filter_eq_cons_iff.1 hrest
    refine ⟨front' ++ skipped, back', by simp, by simpa using hr, fun other hother hin => ?_,
      fun other hother hin => ?_⟩
    · obtain hother | hother := List.mem_append.1 hother
      · exact hfront other (List.mem_filter.2 ⟨hother, by simpa using hin⟩)
      · exact absurd (by simpa using hin) (hskipped other hother)
    · exact hback other (List.mem_filter.2 ⟨hother, by simpa using hin⟩)
  · rintro ⟨front, back, rfl, hr, hfront, hback⟩
    refine ⟨front.filter (·.Contains offset), back.filter (·.Contains offset), ?_, ?_, ?_⟩
    · rw [List.filter_append, List.filter_cons_of_pos (by simpa using hr)]
    · simpa using hfront
    · simpa using hback

theorem lineCovered_iff {ranges : List CoverageRange} {text : Str} {offset : ℕ} :
    lineCovered ranges offset text ↔
      ∃ j c, text[j]? = some c ∧ isSpace c = false ∧ 0 < innermostCount ranges ↑(offset + j) := by
  induction text generalizing offset with
  | nil => simp [lineCovered]
  | cons c rest ih =>
      have hrest : lineCovered ranges (offset + 1) rest ↔ ∃ j d, (c :: rest)[j + 1]? = some d ∧
          isSpace d = false ∧ 0 < innermostCount ranges ↑(offset + (j + 1)) := by
        rw [ih]
        apply exists_congr
        intro j
        apply exists_congr
        intro d
        rw [List.getElem?_cons_succ, Nat.add_assoc, Nat.add_comm 1 j]
      -- the first character, or one of the others
      have hsplit : (∃ j d, (c :: rest)[j]? = some d ∧ isSpace d = false ∧
          0 < innermostCount ranges ↑(offset + j)) ↔
          (isSpace c = false ∧ 0 < innermostCount ranges offset) ∨
            lineCovered ranges (offset + 1) rest := by
        rw [hrest]
        constructor
        · rintro ⟨j, d, hd, hspace, hcount⟩
          cases j with
          | zero =>
              obtain rfl := Option.some.inj hd
              exact .inl ⟨hspace, hcount⟩
          | succ j => exact .inr ⟨j, d, hd, hspace, hcount⟩
        · rintro (⟨hspace, hcount⟩ | ⟨j, d, hd, hspace, hcount⟩)
          · exact ⟨0, c, rfl, hspace, hcount⟩
          · exact ⟨j + 1, d, hd, hspace, hcount⟩
      rw [hsplit, lineCovered]
      by_cases hspace : isSpace c = true
      · simp [hspace]
      · by_cases hcount : 0 < innermostCount ranges offset
        · simp [hspace, hcount]
        · simp [hspace, hcount]

theorem length_linesCovered (ranges : List CoverageRange) (offset : ℕ) (lines : List Str) :
    (linesCovered ranges offset lines).length = lines.length := by
  induction lines generalizing offset with
  | nil => rfl
  | cons line rest ih => rw [linesCovered, List.length_cons, ih, List.length_cons]

theorem getElem?_linesCovered (ranges : List CoverageRange) (offset : ℕ) (lines : List Str)
    (i : ℕ) :
    (linesCovered ranges offset lines)[i]? =
      lines[i]?.map (lineCovered ranges (offset + pieceStart lines i)) := by
  induction lines generalizing offset i with
  | nil => rfl
  | cons line rest ih =>
      rw [linesCovered]
      cases i with
      | zero => rfl
      | succ i =>
          rw [List.getElem?_cons_succ, ih, List.getElem?_cons_succ, pieceStart_succ,
            Nat.add_assoc offset]

/-- A line is covered if an executed range is innermost over one of its
characters. -/
theorem lineCoverage_eq_true_iff {source : Str} {ranges : List CoverageRange} {line : ℕ} :
    (lineCoverage source ranges)[line]? = some true ↔
      ∃ offset, CodeAt source line offset ∧
        ∃ r, innermost offset ranges = some r ∧ 0 < r.count := by
  rw [lineCoverage, getElem?_linesCovered, Option.map_eq_some_iff]
  simp only [Nat.zero_add, lineCovered_iff, innermostCount_pos]
  constructor
  · rintro ⟨text, htext, j, c, hc, hspace, hcount⟩
    obtain ⟨hchar, -, hline⟩ := onPiece_iff.1 ⟨text, j, htext, hc, rfl⟩
    exact ⟨_, ⟨c, hchar, hspace, hline⟩, hcount⟩
  · rintro ⟨offset, ⟨c, hc, hspace, hline⟩, hcount⟩
    have hfeed : c ≠ 0x0a := by
      rintro rfl
      exact absurd hspace (by decide)
    obtain ⟨text, j, htext, hchar, rfl⟩ := onPiece_iff.2 ⟨hc, hfeed, hline⟩
    exact ⟨text, htext, j, c, hchar, hspace, hcount⟩

/-- `line_coverage` computes what it is meant to, for every line of every
source. -/
theorem lineCoverage_meets_definition (source : Str) (ranges : List CoverageRange) :
    (lineCoverage source ranges).length = (source.splitOn 0x0a).length ∧
      ∀ line, (lineCoverage source ranges)[line]? = some true ↔
        ∃ offset, CodeAt source line offset ∧
          ∃ r, IsInnermost ranges offset r ∧ 0 < r.count := by
  refine ⟨length_linesCovered _ _ _, fun line => ?_⟩
  rw [lineCoverage_eq_true_iff]
  simp only [innermost_eq_some_iff]

end TictactoeBots
