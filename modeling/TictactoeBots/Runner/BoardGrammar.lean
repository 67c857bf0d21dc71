import TictactoeBots.Lib.LineBoundaries
import TictactoeBots.Runner.BoardText

/-!
The texts that `parse_board` accepts, as a grammar: whitespace, three rows of
three cells with one line boundary between them, whitespace. Of the texts of a
board the one that `board_to_str` writes is the normal form.
-/

namespace TictactoeBots

open Text

def rowText (row : Fin 3 → Cell) : Str :=
  (str "|").intercalate ((List.ofFn row).map Cell.text)

/-- `text` is a way to write `board`. -/
def IsBoardText (text : Str) (board : Board) : Prop :=
  ∃ lead top first middle second bottom trail, List.ofFn board = [top, middle, bottom] ∧
    Blank lead ∧ LineBoundary first ∧ LineBoundary second ∧ Blank trail ∧
      text = lead ++ (rowText top ++ first ++ rowText middle ++ second ++ rowText bottom) ++ trail

/-! ### Rows -/

theorem rowText_eq_append (row : Fin 3 → Cell) :
    rowText row = (row 0).text ++ str "|" ++ (row 1).text ++ str "|" ++ (row 2).text := by
  have hcells : List.ofFn row = [row 0, row 1, row 2] := rfl
  rw [rowText, hcells]
  simp only [List.map_cons, List.map_nil, List.intercalate_cons_cons, List.intercalate_singleton,
    List.append_assoc]

theorem parseRow_eq_some_iff {text : Str} {row : Fin 3 → Cell} :
    parseRow text = some row ↔ text = rowText row := by
  constructor
  · intro h
    rw [rowText, ← splitOn_of_parseRow h]
    exact (List.intercalate_splitOn 0x7c).symm
  · rintro rfl
    exact parseRow_text row

theorem mem_rowText {row : Fin 3 → Cell} {c : CodePoint} (hc : c ∈ rowText row) :
    isSpace c = false ∧ isLineBreak c = false := by
  have hchar : ∀ cell : Cell, ∀ d ∈ cell.text, isSpace d = false ∧ isLineBreak d = false := by
    intro cell d hd
    cases cell <;> (rw [List.mem_singleton.1 hd]; decide)
  have hpipe : ∀ d ∈ str "|", isSpace d = false ∧ isLineBreak d = false := by
    intro d hd
    rw [List.mem_singleton.1 hd]
    decide
  simp only [rowText_eq_append, List.mem_append] at hc
  rcases hc with (((hc | hc) | hc) | hc) | hc
  · exact hchar _ c hc
  · exact hpipe c hc
  · exact hchar _ c hc
  · exact hpipe c hc
  · exact hchar _ c hc

theorem unbroken_rowText (row : Fin 3 → Cell) : Unbroken (rowText row) :=
  fun _ hc => (mem_rowText hc).2

theorem rowText_ne_nil (row : Fin 3 → Cell) : rowText row ≠ [] := by
  simp [rowText_eq_append, str]

theorem head?_rowText_append (row : Fin 3 → Cell) (s : Str) :
    (rowText row ++ s).head? ≠ some 0x0a := by
  intro h
  obtain ⟨c, rest, hrow⟩ := List.exists_cons_of_ne_nil (rowText_ne_nil row)
  rw [hrow, List.cons_append, List.head?_cons, Option.some.injEq] at h
  have hfeed := (mem_rowText (hrow ▸ List.mem_cons_self : c ∈ rowText row)).1
  rw [h] at hfeed
  exact absurd hfeed (by decide)

theorem trimmed_rows (row row' : Fin 3 → Cell) (s : Str) :
    Trimmed (rowText row ++ s ++ rowText row') where
  head c hc := by
    obtain ⟨d, rest, hrow⟩ := List.exists_cons_of_ne_nil (rowText_ne_nil row)
    rw [hrow, List.cons_append, List.cons_append, List.head?_cons, Option.mem_some_iff] at hc
    rw [← hc]
    exact (mem_rowText (hrow ▸ List.mem_cons_self)).1
  last c hc := by
    rw [List.getLast?_append_of_ne_nil _ (rowText_ne_nil row')] at hc
    exact (mem_rowText (List.mem_of_getLast? hc)).1

/-! ### Both directions -/

theorem parseBoard_of_isBoardText {text : Str} {board : Board} (h : IsBoardText text board) :
    parseBoard text = some board := by
  obtain ⟨lead, top, first, middle, second, bottom, trail, hboard, hlead, hfirst, hsecond,
    htrail, rfl⟩ := h
  have hrows : List.ofFn board = [board 0, board 1, board 2] := rfl
  obtain ⟨rfl, rfl, rfl⟩ : board 0 = top ∧ board 1 = middle ∧ board 2 = bottom := by
    simpa [hrows] using hboard
  have hcore : Trimmed (rowText (board 0) ++ first ++ rowText (board 1) ++ second ++
      rowText (board 2)) := by
    have htrimmed := trimmed_rows (board 0) (board 2) (first ++ rowText (board 1) ++ second)
    simpa only [List.append_assoc] using htrimmed
  have hlines : splitlines (rowText (board 0) ++ first ++ rowText (board 1) ++ second ++
      rowText (board 2)) = [rowText (board 0), rowText (board 1), rowText (board 2)] := by
    have hlast := splitlines_unbroken (unbroken_rowText (board 2)) (rowText_ne_nil _)
    have hthird : (rowText (board 2)).head? ≠ some 0x0a := by
      simpa using head?_rowText_append (board 2) []
    have hmiddle := splitlines_append (unbroken_rowText (board 1)) hsecond fun _ => hthird
    have hfeed := head?_rowText_append (board 1) (second ++ rowText (board 2))
    have hall := splitlines_append (unbroken_rowText (board 0)) hfirst fun _ => hfeed
    simp only [List.append_assoc] at hmiddle hall ⊢
    rw [hall, hmiddle, hlast]
  have hne : rowText (board 0) ++ first ++ rowText (board 1) ++ second ++
      rowText (board 2) ≠ [] := by
    simp [rowText_ne_nil]
  have hrow : ∀ r, parseRow (rowText (board r)) = some (board r) :=
    fun r => parseRow_eq_some_iff.2 rfl
  rw [parseBoard, strip_append hlead htrail hcore hne, hlines]
  simp only [hrow]
  apply congrArg some
  funext r
  fin_cases r <;> rfl

/-- Three lines of a trimmed text have one boundary after each of the first two
and nothing after the last. -/
theorem exists_boundaries {s row0 row1 row2 : Str} (htrimmed : Trimmed s)
    (h : splitlines s = [row0, row1, row2]) :
    ∃ first second, LineBoundary first ∧ LineBoundary second ∧
      s = row0 ++ first ++ row1 ++ second ++ row2 := by
  obtain ⟨-, ⟨-, hnone⟩ | ⟨first, s1, hfirst, rfl, h1⟩⟩ := splitlines_eq_cons h
  · cases hnone
  obtain ⟨-, ⟨-, hnone⟩ | ⟨second, s2, hsecond, rfl, h2⟩⟩ := splitlines_eq_cons h1
  · cases hnone
  refine ⟨first, second, hfirst, hsecond, ?_⟩
  obtain ⟨-, ⟨rfl, -⟩ | ⟨third, s3, hthird, rfl, h3⟩⟩ := splitlines_eq_cons h2
  · simp only [List.append_assoc]
  · -- a boundary at the end would not be trimmed
    have hnothing : s3 = [] := by
      cases s3 with
      | nil => rfl
      | cons c s3 =>
          obtain ⟨line, lines, hlines⟩ := exists_splitlines_cons c s3
          rw [hlines] at h3
          cases h3
    subst hnothing
    apply absurd htrimmed
    have hend := hthird.not_trimmed_append (s := row0 ++ first ++ (row1 ++ second ++ row2))
    simpa only [List.append_assoc, List.append_nil] using hend

theorem isBoardText_of_parseBoard {text : Str} {board : Board}
    (h : parseBoard text = some board) : IsBoardText text board := by
  obtain ⟨lead, trail, hlead, htrail, htext⟩ := exists_blank_strip text
  unfold parseBoard at h
  split at h
  · rename_i row0 row1 row2 hlines
    obtain ⟨first, second, hfirst, hsecond, hstrip⟩ :=
      exists_boundaries (trimmed_strip text) hlines
    obtain ⟨cells0, h0, hrest⟩ := Option.bind_eq_some_iff.1 h
    obtain ⟨cells1, h1, hlast⟩ := Option.bind_eq_some_iff.1 hrest
    obtain ⟨cells2, h2, hboard⟩ := Option.bind_eq_some_iff.1 hlast
    rw [parseRow_eq_some_iff] at h0 h1 h2
    subst h0 h1 h2
    obtain rfl := Option.some.inj hboard
    refine ⟨lead, cells0, first, cells1, second, cells2, trail, rfl, hlead, hfirst, hsecond,
      htrail, ?_⟩
    rw [htext, hstrip]
  · cases h

theorem parseBoard_eq_some_iff {text : Str} {board : Board} :
    parseBoard text = some board ↔ IsBoardText text board :=
  ⟨isBoardText_of_parseBoard, parseBoard_of_isBoardText⟩

/-- `parse_board` accepts the texts of the grammar and no others, the board is
the one that is written there, and `board_to_str` writes it in a way that is
read back. -/
theorem parseBoard_grammar (text : Str) :
    ((parseBoard text).isSome ↔ ∃ board, IsBoardText text board) ∧
      ∀ board, (parseBoard text = some board ↔ IsBoardText text board) ∧
        IsBoardText (boardToStr board) board ∧ parseBoard (boardToStr board) = some board := by
  refine ⟨?_, fun board => ⟨parseBoard_eq_some_iff, ?_, parseBoard_boardToStr board⟩⟩
  · rw [Option.isSome_iff_exists]
    exact exists_congr fun board => parseBoard_eq_some_iff
  · exact parseBoard_eq_some_iff.1 (parseBoard_boardToStr board)

example : IsBoardText (str "\t.|.|.\r\n.|X|.\x0c.|.|O \n")
    ![![.dot, .dot, .dot], ![.dot, .X, .dot], ![.dot, .dot, .O]] :=
  parseBoard_eq_some_iff.1 (by decide)

end TictactoeBots
