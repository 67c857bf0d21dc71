import TictactoeBots.Lib.TextLines
import TictactoeBots.Runner.Engine

/-!
The texts of boards: what `board_to_str` writes is plain, with line feeds only
between the rows, and `parse_board` reads the board back from it.
-/

namespace TictactoeBots

open Text

/-- The text has no characters but those of a board, and the line feeds are
between others. -/
structure PlainBoardText (text : Str) : Prop where
  chars : ∀ c ∈ text, c ∈ str "XO.|\n"
  head : text.head? ≠ some 0x0a
  last : text.getLast? ≠ some 0x0a

theorem mem_cellText {cell : Cell} {c : CodePoint} (hc : c ∈ cell.text) :
    c ∈ str "XO.|\n" := by
  cases cell <;> (rw [List.mem_singleton.1 hc]; decide)

theorem exists_cellText_cons (cell : Cell) : ∃ c, cell.text = [c] ∧ c ≠ 0x0a := by
  cases cell <;> exact ⟨_, rfl, by decide⟩

theorem plainBoardText_boardToStr (b : Board) : PlainBoardText (boardToStr b) where
  chars := by
    refine forall_mem_intercalate (by simp [str]) fun line hline => ?_
    obtain ⟨row, _, rfl⟩ := List.mem_map.1 hline
    refine forall_mem_intercalate (by simp [str]) fun text htext c hc => ?_
    obtain ⟨cell, _, rfl⟩ := List.mem_map.1 htext
    exact mem_cellText hc
  head := by
    obtain ⟨c, hcell, hfeed⟩ := exists_cellText_cons (b 0 0)
    have hshape : ∃ rest, boardToStr b = (b 0 0).text ++ rest := by
      simp only [boardToStr, List.ofFn_succ, List.map_cons,
        List.intercalate_cons_cons, List.append_assoc]
      exact ⟨_, rfl⟩
    obtain ⟨rest, hshape⟩ := hshape
    rw [hshape, hcell]
    simpa using hfeed
  last := by
    obtain ⟨c, hcell, hfeed⟩ := exists_cellText_cons (b 2 2)
    have hshape : ∃ front, boardToStr b = front ++ (b 2 2).text := by
      simp only [boardToStr, List.ofFn_succ, List.ofFn_zero,
        List.map_cons, List.map_nil, List.intercalate_cons_cons, List.intercalate_singleton,
        ← List.append_assoc]
      exact ⟨_, rfl⟩
    obtain ⟨front, hshape⟩ := hshape
    rw [hshape, hcell]
    simpa using hfeed

theorem plain_of_mem {c : CodePoint} (hc : c ∈ str "XO.|\n") (hfeed : c ≠ 0x0a) :
    isSpace c = false ∧ isLineBreak c = false := by
  have hcases : c ∈ [0x58, 0x4f, 0x2e, 0x7c, 0x0a] := hc
  simp only [List.mem_cons, List.not_mem_nil, or_false] at hcases
  rcases hcases with rfl | rfl | rfl | rfl | rfl
  · decide
  · decide
  · decide
  · decide
  · exact absurd rfl hfeed

theorem PlainBoardText.splitlines_strip {text : Str} (h : PlainBoardText text) (hne : text ≠ []) :
    splitlines (strip text) = text.splitOn 0x0a := by
  have hstrip : strip text = text := by
    refine strip_eq_self (fun c hc => ?_) fun c hc => ?_
    · exact (plain_of_mem (h.chars c (List.mem_of_head? hc)) fun hfeed => h.head (hfeed ▸ hc)).1
    · exact (plain_of_mem (h.chars c (List.mem_of_getLast? hc)) fun hfeed => h.last (hfeed ▸ hc)).1
  rw [hstrip]
  refine splitlines_eq_splitOn hne (fun c hc hbreak => ?_) h.last
  by_contra hfeed
  rw [(plain_of_mem (h.chars c hc) hfeed).2] at hbreak
  exact absurd hbreak (by simp)

theorem mapM_ofText : ∀ {texts : List Str} {row : List Cell},
    texts.mapM Cell.ofText = some row → texts = row.map Cell.text
  | [], row, h => by
      rw [List.mapM_nil] at h
      rw [← Option.some.inj h]
      rfl
  | text :: texts, row, h => by
      rw [List.mapM_cons] at h
      obtain ⟨cell, hcell, h⟩ := Option.bind_eq_some_iff.1 h
      obtain ⟨rest, hrest, h⟩ := Option.bind_eq_some_iff.1 h
      have htext : cell.text = text := by simpa using List.find?_some hcell
      rw [← Option.some.inj h, List.map_cons, htext, mapM_ofText hrest]

theorem splitOn_of_parseRow {row : Str} {cells : Fin 3 → Cell} (h : parseRow row = some cells) :
    row.splitOn 0x7c = (List.ofFn cells).map Cell.text := by
  unfold parseRow at h
  split at h
  · rename_i a b c hmapped
    rw [mapM_ofText hmapped, ← Option.some.inj h]
    rfl
  · exact absurd h (by simp)

/-! ### Reading back -/

theorem parseRow_text (row : Fin 3 → Cell) :
    parseRow ((str "|").intercalate ((List.ofFn row).map Cell.text)) = some row := by
  have hsplit : ((str "|").intercalate ((List.ofFn row).map Cell.text)).splitOn 0x7c =
      (List.ofFn row).map Cell.text := by
    refine List.splitOn_intercalate 0x7c (fun text htext hpipe => ?_) (by simp)
    obtain ⟨cell, _, rfl⟩ := List.mem_map.1 htext
    cases cell <;> exact absurd hpipe (by decide)
  have hcells : List.ofFn row = [row 0, row 1, row 2] := rfl
  rw [parseRow, hsplit, hcells]
  simp only [List.map_cons, List.map_nil, List.mapM_cons, List.mapM_nil, Cell.ofText_text]
  apply congrArg some
  funext c
  fin_cases c <;> rfl

/-- A board is read back from its text. -/
theorem parseBoard_boardToStr (board : Board) : parseBoard (boardToStr board) = some board := by
  have hplain := plainBoardText_boardToStr board
  have hne : boardToStr board ≠ [] := by
    obtain ⟨c, hcell, _⟩ := exists_cellText_cons (board 0 0)
    simp [boardToStr, List.ofFn_succ, hcell]
  have hsplit : (boardToStr board).splitOn 0x0a =
      (List.ofFn board).map fun row => (str "|").intercalate ((List.ofFn row).map Cell.text) := by
    refine List.splitOn_intercalate 0x0a (fun line hline hfeed => ?_) (by simp)
    obtain ⟨row, _, rfl⟩ := List.mem_map.1 hline
    have hpipe : ∀ c ∈ str "|", c ≠ 0x0a := fun c hc => by
      rw [List.mem_singleton.1 hc]
      decide
    refine forall_mem_intercalate (P := fun c => c ≠ 0x0a) hpipe (fun text htext => ?_) _ hfeed rfl
    obtain ⟨cell, _, rfl⟩ := List.mem_map.1 htext
    obtain ⟨c, hcell, hc⟩ := exists_cellText_cons cell
    rw [hcell]
    simpa using hc
  have hrows : List.ofFn board = [board 0, board 1, board 2] := rfl
  rw [parseBoard, hplain.splitlines_strip hne, hsplit, hrows]
  simp only [List.map_cons, List.map_nil, parseRow_text]
  apply congrArg some
  funext r
  fin_cases r <;> rfl

end TictactoeBots
