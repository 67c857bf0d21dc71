import TictactoeBots.Lib.EscapedSplit
import TictactoeBots.Lib.JsonRoundTrip
import TictactoeBots.Lib.LineBoundaries
import TictactoeBots.Entities.Leaderboard

/-!
The leaderboard as a table in Markdown.

A name is put into a cell with a backslash before each of its pipes, and the
cells have spaces around them. A backslash of the name is left as it is; it
stands before a pipe of the name that gets its own, or before a space.
-/

namespace TictactoeBots

open Text EscapedSplit

def backslash : CodePoint := 0x5c

def pipe : CodePoint := 0x7c

/-- `s.replace("|", "\\|")`. -/
def mdEscape (s : Str) : Str := escape backslash pipe s

example : mdEscape (str "a\\|b|") = str "a\\\\|b\\|" := by decide

def headerLines : List Str :=
  [ str "# Leaderboard",
    [],
    str "| # | Bot | Clean Wins | Forfeit Wins | Draws | Losses | Lifetime |",
    str "|---|-----|------------|--------------|-------|--------|----------|" ]

/-- The line of the row with rank `i`. -/
def leaderboardLine (row : LeaderboardRow) (i : ℕ) : Str :=
  str "| " ++ decimal i ++ str " | " ++ mdEscape row.versionedName ++ str " | " ++
    decimal row.stats.cleanWins ++ str " | " ++ decimal row.stats.forfeitWins ++ str " | " ++
    decimal row.stats.draws ++ str " | " ++ decimal row.stats.losses ++ str " | " ++
    decimal row.lifetimeWins ++ str "-" ++ decimal row.lifetimeLosses ++ str " |"

def renderLeaderboardMd (rows : List LeaderboardRow) : Str :=
  if rows.isEmpty then str "# Leaderboard\n\nNo bots submitted yet.\n"
  else
    let lines := headerLines ++ (rows.zipIdx 1).map fun (row, i) => leaderboardLine row i
    (str "\n").intercalate lines ++ str "\n"

/-! ### The table -/

def cellTexts (row : LeaderboardRow) (i : ℕ) : List Str :=
  [ decimal i, mdEscape row.versionedName, decimal row.stats.cleanWins,
    decimal row.stats.forfeitWins, decimal row.stats.draws, decimal row.stats.losses,
    decimal row.lifetimeWins ++ str "-" ++ decimal row.lifetimeLosses ]

/-- Between its outer pipes the line has seven cells, which are those of the row
but for the spaces, and the name can be read off the second one. -/
def WellFormedLine (row : LeaderboardRow) (i : ℕ) (text : Str) : Prop :=
  ∃ cells, splitUnescaped backslash pipe text = [] :: cells ++ [[]] ∧ cells.length = 7 ∧
    cells.map strip = cellTexts row i ∧
    ∃ cell, cells[1]? = some cell ∧ unescape backslash pipe (strip cell) = row.versionedName

/-! ### Cells -/

theorem plain_of_mem_decimal {n : ℕ} {c : CodePoint} (hc : c ∈ decimal n) :
    c ≠ pipe ∧ isSpace c = false ∧ isLineBreak c = false := by
  obtain ⟨d, hd, rfl⟩ := exists_digit_of_mem_decimal hc
  interval_cases d <;> decide

/-- The text has nothing in it that ends a cell or a line, or that `strip` takes
off. -/
structure CellText (s : Str) : Prop where
  inert : Inert backslash pipe s
  trimmed : Trimmed s
  unbroken : Unbroken s
  nonempty : s ≠ []

theorem cellText_of_plain {s : Str}
    (h : ∀ c ∈ s, c ≠ pipe ∧ isSpace c = false ∧ isLineBreak c = false) (hne : s ≠ []) :
    CellText s where
  inert := inert_of_not_mem fun hpipe => (h pipe hpipe).1 rfl
  trimmed := trimmed_of_forall fun c hc => (h c hc).2.1
  unbroken c hc := (h c hc).2.2
  nonempty := hne

theorem cellText_decimal (n : ℕ) : CellText (decimal n) :=
  cellText_of_plain (fun _ hc => plain_of_mem_decimal hc) (Json.decimal_ne_nil n)

theorem cellText_lifetime (wins losses : ℕ) :
    CellText (decimal wins ++ str "-" ++ decimal losses) := by
  refine cellText_of_plain (fun c hc => ?_) (by simp [Json.decimal_ne_nil])
  simp only [List.mem_append] at hc
  obtain (hc | hc) | hc := hc
  · exact plain_of_mem_decimal hc
  · rw [List.mem_singleton.1 hc]
    decide
  · exact plain_of_mem_decimal hc

theorem mem_mdEscape {s : Str} {c : CodePoint} (hc : c ∈ mdEscape s) : c = backslash ∨ c ∈ s := by
  obtain ⟨d, hd, hc⟩ := List.mem_flatMap.1 hc
  split at hc
  · rename_i hpipe
    simp only [List.mem_cons, List.not_mem_nil, or_false] at hc
    exact hc.imp_right fun h => by rw [h, ← hpipe]; exact hd
  · rw [List.mem_singleton.1 hc]
    exact .inr hd

/-- Escaping puts nothing but backslashes at the ends. -/
theorem cellText_mdEscape {name : Str} (htrimmed : Trimmed name) (hunbroken : Unbroken name)
    (hne : name ≠ []) : CellText (mdEscape name) where
  inert := inert_escape (by decide) name
  unbroken c hc := by
    obtain rfl | hc := mem_mdEscape hc
    · rfl
    · exact hunbroken c hc
  nonempty := by
    obtain ⟨c, rest, rfl⟩ := List.exists_cons_of_ne_nil hne
    rw [mdEscape, escape, List.flatMap_cons]
    split <;> simp
  trimmed := by
    constructor
    · intro c hc
      obtain ⟨d, rest, rfl⟩ := List.exists_cons_of_ne_nil hne
      rw [mdEscape, escape, List.flatMap_cons] at hc
      split at hc
      · obtain rfl := Option.some.inj hc
        rfl
      · obtain rfl := Option.some.inj hc
        exact htrimmed.head _ rfl
    · intro c hc
      obtain ⟨rest, d, rfl⟩ := (List.eq_nil_or_concat' name).resolve_left hne
      have hd := htrimmed.last d (by simp)
      rw [mdEscape, escape, List.flatMap_append, List.flatMap_singleton] at hc
      split at hc
      · rename_i hpipe
        rw [List.getLast?_append] at hc
        obtain rfl := Option.some.inj hc
        rfl
      · rw [List.getLast?_append] at hc
        obtain rfl := Option.some.inj hc
        exact hd

/-! ### Lines -/

def padded (text : Str) : Str := str " " ++ text ++ str " "

theorem strip_padded {text : Str} (h : CellText text) : strip (padded text) = text := by
  have hspace : Blank (str " ") := by
    intro c hc
    rw [List.mem_singleton.1 hc]
    rfl
  exact strip_append hspace hspace h.trimmed h.nonempty

theorem inert_padded {text : Str} (h : CellText text) :
    Inert backslash pipe (padded text) ∧ flagAfter backslash false (padded text) = false := by
  have hspace : Inert backslash pipe (str " ") := inert_singleton (by decide)
  refine ⟨(hspace.append h.inert).append hspace, ?_⟩
  rw [padded, flagAfter_append]
  rfl

theorem rowLine_eq (text : Str) (texts : List Str) :
    str "| " ++ (str " | ").intercalate (text :: texts) ++ str " |" =
      pipe :: ((text :: texts).map padded).flatMap fun cell => cell ++ [pipe] := by
  have hpipe : str "| " = pipe :: str " " := rfl
  have hbetween : str " | " = str " " ++ pipe :: str " " := rfl
  have hlast : str " |" = str " " ++ [pipe] := rfl
  induction texts generalizing text with
  | nil =>
      rw [List.intercalate_singleton, hpipe, hlast]
      simp only [padded, List.map_cons, List.map_nil, List.flatMap_cons, List.flatMap_nil,
        List.append_assoc, List.cons_append, List.append_nil]
  | cons next texts ih =>
      have hrest := ih next
      rw [hpipe, List.cons_append, List.cons_append, List.cons.injEq] at hrest ⊢
      rw [List.intercalate_cons_cons, List.map_cons, List.flatMap_cons, ← hrest.2, hbetween]
      simp only [padded, List.append_assoc, List.cons_append, List.nil_append, true_and]

theorem leaderboardLine_eq (row : LeaderboardRow) (i : ℕ) :
    leaderboardLine row i =
      pipe :: ((cellTexts row i).map padded).flatMap fun cell => cell ++ [pipe] := by
  unfold leaderboardLine cellTexts
  rw [← rowLine_eq]
  simp only [List.intercalate_cons_cons, List.intercalate_singleton, List.append_assoc]

variable {row : LeaderboardRow}

theorem cellText_of_mem (htrimmed : Trimmed row.versionedName)
    (hunbroken : Unbroken row.versionedName) (hne : row.versionedName ≠ []) (i : ℕ) :
    ∀ text ∈ cellTexts row i, CellText text := by
  simp only [cellTexts, List.forall_mem_cons]
  refine ⟨cellText_decimal _, cellText_mdEscape htrimmed hunbroken hne, cellText_decimal _,
    cellText_decimal _, cellText_decimal _, cellText_decimal _, cellText_lifetime _ _, ?_⟩
  exact fun text htext => absurd htext List.not_mem_nil

theorem unbroken_leaderboardLine {i : ℕ} (h : ∀ text ∈ cellTexts row i, CellText text) :
    Unbroken (leaderboardLine row i) := by
  rw [leaderboardLine_eq]
  intro c hc
  obtain rfl | hc := List.mem_cons.1 hc
  · rfl
  · obtain ⟨cell, hcell, hc⟩ := List.mem_flatMap.1 hc
    obtain ⟨text, htext, rfl⟩ := List.mem_map.1 hcell
    simp only [padded, List.mem_append] at hc
    obtain ((hc | hc) | hc) | hc := hc
    · rw [List.mem_singleton.1 hc]
      rfl
    · exact (h text htext).unbroken c hc
    · rw [List.mem_singleton.1 hc]
      rfl
    · rw [List.mem_singleton.1 hc]
      rfl

theorem wellFormedLine {i : ℕ} (h : ∀ text ∈ cellTexts row i, CellText text) :
    WellFormedLine row i (leaderboardLine row i) := by
  have hsplit : splitFrom backslash pipe false (((cellTexts row i).map padded).flatMap
      fun cell => cell ++ [pipe]) = (cellTexts row i).map padded ++ [[]] := by
    apply splitFrom_flatMap
    intro cell hcell
    obtain ⟨text, htext, rfl⟩ := List.mem_map.1 hcell
    exact inert_padded (h text htext)
  have hname : CellText (mdEscape row.versionedName) := h _ (by simp [cellTexts])
  have hsecond : (cellTexts row i)[1]? = some (mdEscape row.versionedName) := rfl
  refine ⟨(cellTexts row i).map padded, ?_, List.length_map _, ?_,
    padded (mdEscape row.versionedName), ?_, ?_⟩
  · rw [leaderboardLine_eq, splitUnescaped, splitFrom, if_pos ⟨rfl, rfl⟩, hsplit, List.cons_append]
  · rw [List.map_map]
    exact (List.map_congr_left fun text htext => strip_padded (h text htext)).trans (List.map_id _)
  · rw [List.getElem?_map, hsecond, Option.map_some]
  · rw [strip_padded hname]
    exact unescape_escape (by decide) _

theorem unbroken_headerLines : ∀ line ∈ headerLines, Unbroken line := by
  have hall : headerLines.all (fun line => line.all fun c => !isLineBreak c) = true := by
    decide +kernel
  exact fun line hline => unbroken_of_all (List.all_eq_true.1 hall line hline)

theorem intercalate_feed_append (line : Str) (lines : List Str) :
    (str "\n").intercalate (line :: lines) ++ str "\n" =
      (line :: lines).flatMap fun line => line ++ str "\n" := by
  induction lines generalizing line with
  | nil => simp
  | cons next lines ih =>
      rw [List.intercalate_cons_cons, List.append_assoc, ih]
      rfl

/-- The file has its four header lines and then one well-formed line for each
row, in order, whatever the names are. -/
theorem renderLeaderboardMd_wellFormed {rows : List LeaderboardRow} (hrows : rows ≠ [])
    (hnames : ∀ row ∈ rows, strip row.versionedName = row.versionedName ∧
      row.versionedName ≠ [] ∧ Unbroken row.versionedName) :
    ∃ lines, splitlines (renderLeaderboardMd rows) = headerLines ++ lines ∧
      headerLines.length = 4 ∧ lines.length = rows.length ∧
      ∀ (i : ℕ) (row : LeaderboardRow), rows[i]? = some row →
        ∃ text, lines[i]? = some text ∧ WellFormedLine row (i + 1) text := by
  have hcells : ∀ row ∈ rows, ∀ i, ∀ text ∈ cellTexts row i, CellText text := by
    intro row hrow
    obtain ⟨htrimmed, hne, hunbroken⟩ := hnames row hrow
    exact cellText_of_mem (trimmed_of_strip_eq htrimmed) hunbroken hne
  refine ⟨(rows.zipIdx 1).map fun (row, i) => leaderboardLine row i, ?_, rfl, by simp, ?_⟩
  · obtain ⟨first, rest, hfirst⟩ : ∃ first rest, headerLines = first :: rest := ⟨_, _, rfl⟩
    rw [renderLeaderboardMd, if_neg (by simpa using hrows), hfirst, List.cons_append,
      intercalate_feed_append, ← List.cons_append, ← hfirst]
    apply splitlines_flatMap_feed
    intro line hline
    obtain hline | hline := List.mem_append.1 hline
    · exact unbroken_headerLines line hline
    · obtain ⟨⟨row, i⟩, hrow, rfl⟩ := List.mem_map.1 hline
      exact unbroken_leaderboardLine (hcells row (List.fst_mem_of_mem_zipIdx hrow) i)
  · intro i row hrow
    refine ⟨leaderboardLine row (i + 1), ?_,
      wellFormedLine (hcells row (List.mem_of_getElem? hrow) _)⟩
    rw [List.getElem?_map, List.getElem?_zipIdx, hrow, Nat.add_comm 1 i]
    rfl

/-- A bot whose name has an escaped pipe in it and ends with a backslash. -/
def backslashRow : LeaderboardRow where
  baseName := str "a\\|b\\"
  versionedName := str "a\\|b\\"
  submittedAt := 0
  stats := ⟨1, 0, 0, 0⟩
  lifetimeWins := 1
  lifetimeLosses := 0

def freshRow : LeaderboardRow where
  baseName := str "b"
  versionedName := str "bV2"
  submittedAt := 1
  stats := ⟨0, 0, 0, 0⟩
  lifetimeWins := 0
  lifetimeLosses := 1

theorem renderLeaderboardMd_backslashRow :
    ∃ lines, splitlines (renderLeaderboardMd [backslashRow, freshRow]) = headerLines ++ lines ∧
      headerLines.length = 4 ∧ lines.length = [backslashRow, freshRow].length ∧
      ∀ (i : ℕ) (row : LeaderboardRow), [backslashRow, freshRow][i]? = some row →
        ∃ text, lines[i]? = some text ∧ WellFormedLine row (i + 1) text := by
  apply renderLeaderboardMd_wellFormed (List.cons_ne_nil _ _)
  intro row hrow
  obtain rfl | rfl := List.mem_pair.1 hrow
  · exact ⟨by decide, by decide, unbroken_of_all rfl⟩
  · exact ⟨by decide, by decide, unbroken_of_all rfl⟩

end TictactoeBots
