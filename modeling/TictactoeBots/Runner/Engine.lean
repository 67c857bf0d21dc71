import TictactoeBots.Lib.Text
import TictactoeBots.Lib.PositionalGame

/-!
The pure game logic: board texts, winner detection and move validation.

A `Board` is the grid that `parse_board` returns. That function only returns
three rows of three cells, each `X`, `O` or `.`, so the shape is part of the
type here. The last part reads a board as a position of a positional game on
the nine cells and says what `check_winner` and `validate_move` mean there.
-/

namespace TictactoeBots

open Text

inductive MatchOutcome where
  | xWins
  | oWins
  | xForfeit
  | oForfeit
  | cat
  deriving DecidableEq, Repr

/-- The text of an outcome, as it is stored. -/
def MatchOutcome.value : MatchOutcome → Str
  | .xWins => str "x_wins"
  | .oWins => str "o_wins"
  | .xForfeit => str "x_forfeit"
  | .oForfeit => str "o_forfeit"
  | .cat => str "cat"

/-- What a cell of a parsed board can hold. -/
inductive Cell where
  | X
  | O
  | dot
  deriving DecidableEq, Repr

def Cell.text : Cell → Str
  | .X => str "X"
  | .O => str "O"
  | .dot => str "."

/-- The cell with the given text; `none` for any other text. -/
def Cell.ofText (c : Str) : Option Cell :=
  [Cell.X, Cell.O, Cell.dot].find? fun cell => cell.text == c

theorem Cell.ofText_text (cell : Cell) : Cell.ofText cell.text = some cell := by
  cases cell <;> rfl

theorem Cell.text_injective : Function.Injective Cell.text := by
  intro a b h
  have hparsed := congrArg Cell.ofText h
  rwa [Cell.ofText_text, Cell.ofText_text, Option.some.injEq] at hparsed

abbrev Board := Fin 3 → Fin 3 → Cell

def emptyBoard : Board := fun _ _ => .dot

/-- The cells in reading order. -/
def cells : List (Fin 3 × Fin 3) :=
  [(0, 0), (0, 1), (0, 2), (1, 0), (1, 1), (1, 2), (2, 0), (2, 1), (2, 2)]

def winningLines : List (List (Fin 3 × Fin 3)) :=
  [ [(0, 0), (0, 1), (0, 2)],
    [(1, 0), (1, 1), (1, 2)],
    [(2, 0), (2, 1), (2, 2)],
    [(0, 0), (1, 0), (2, 0)],
    [(0, 1), (1, 1), (2, 1)],
    [(0, 2), (1, 2), (2, 2)],
    [(0, 0), (1, 1), (2, 2)],
    [(0, 2), (1, 1), (2, 0)] ]

/-! ### Board texts -/

/-- One row of `parse_board`: three cells between pipes. -/
def parseRow (row : Str) : Option (Fin 3 → Cell) :=
  match (row.splitOn 0x7c).mapM Cell.ofText with
  | some [a, b, c] => some ![a, b, c]
  | _ => none

def parseBoard (text : Str) : Option Board :=
  match splitlines (strip text) with
  | [row0, row1, row2] => do
      let cells0 ← parseRow row0
      let cells1 ← parseRow row1
      let cells2 ← parseRow row2
      return ![cells0, cells1, cells2]
  | _ => none

def boardToStr (board : Board) : Str :=
  (str "\n").intercalate
    ((List.ofFn board).map fun row => (str "|").intercalate ((List.ofFn row).map Cell.text))

/-! ### Winner and move -/

/-- The body of the loop of `check_winner`. -/
def lineOutcome (board : Board) (line : List (Fin 3 × Fin 3)) : Option MatchOutcome :=
  let values := line.map fun (r, c) => board r c
  if values = [.X, .X, .X] then some .xWins
  else if values = [.O, .O, .O] then some .oWins
  else none

def checkWinner (board : Board) : Option MatchOutcome :=
  match winningLines.findSome? (lineOutcome board) with
  | some outcome => some outcome
  | none => if cells.all fun (r, c) => board r c ≠ .dot then some .cat else none

def changes (oldBoard newBoard : Board) : List (Fin 3 × Fin 3) :=
  cells.filter fun (r, c) => oldBoard r c ≠ newBoard r c

/-- `none` when the move is valid, else what is wrong with it. -/
def validateMove (oldBoard newBoard : Board) (symbol : Cell) : Option Str :=
  match changes oldBoard newBoard with
  | [] => some (str "no move made")
  | [(r, c)] =>
      let old := oldBoard r c
      let new := newBoard r c
      if old ≠ .dot then
        some (str "cell (" ++ decimal r.val ++ str "," ++ decimal c.val ++
          str ") was already occupied")
      else if new ≠ symbol then
        some (str "placed wrong symbol '" ++ new.text ++ str "', expected '" ++
          symbol.text ++ str "'")
      else none
  | changed => some (decimal changed.length ++ str " cells changed, expected 1")

example : parseBoard (str " X|.|.\n.|O|.\r\n.|.|X\n") =
    some ![![.X, .dot, .dot], ![.dot, .O, .dot], ![.dot, .dot, .X]] := by decide

/-! ### The two players -/

/-- The `player` texts of the game loop. -/
inductive Player where
  | x
  | o
  deriving DecidableEq, Repr

instance : Fintype Player := ⟨{.x, .o}, fun p => by cases p <;> decide⟩

def Player.text : Player → Str
  | .x => str "x"
  | .o => str "o"

def Player.symbol : Player → Cell
  | .x => .X
  | .o => .O

def Player.other : Player → Player
  | .x => .o
  | .o => .x

def Player.wins : Player → MatchOutcome
  | .x => .xWins
  | .o => .oWins

theorem Player.symbol_ne_dot (p : Player) : p.symbol ≠ .dot := by
  cases p <;> simp [Player.symbol]

def HasLine (board : Board) (player : Player) : Prop :=
  ∃ line ∈ winningLines, ∀ rc ∈ line, board rc.1 rc.2 = player.symbol

def Full (board : Board) : Prop := ∀ r c, board r c ≠ .dot

/-- `newBoard` is `oldBoard` with `symbol` put on one cell that was empty, and
nothing else changed. -/
def AddsOne (symbol : Cell) (oldBoard newBoard : Board) : Prop :=
  ∃ r c, oldBoard r c = .dot ∧ newBoard r c = symbol ∧
    ∀ r' c', (r', c') ≠ (r, c) → newBoard r' c' = oldBoard r' c'

instance (board : Board) (player : Player) : Decidable (HasLine board player) :=
  inferInstanceAs (Decidable (∃ line ∈ winningLines, ∀ rc ∈ line, _))

instance (board : Board) : Decidable (Full board) :=
  inferInstanceAs (Decidable (∀ r c, board r c ≠ .dot))

instance (symbol : Cell) (b b' : Board) : Decidable (AddsOne symbol b b') :=
  inferInstanceAs (Decidable (∃ r c, b r c = .dot ∧ b' r c = symbol ∧
    ∀ r' c', (r', c') ≠ (r, c) → b' r' c' = b r' c'))

/-! ### What the checks mean -/

theorem mem_cells (rc : Fin 3 × Fin 3) : rc ∈ cells := by
  revert rc
  decide

theorem mem_changes {b b' : Board} {rc : Fin 3 × Fin 3} :
    rc ∈ changes b b' ↔ b rc.1 rc.2 ≠ b' rc.1 rc.2 := by
  simp [changes, mem_cells]

theorem changes_nodup (b b' : Board) : (changes b b').Nodup :=
  List.Nodup.filter _ (by decide)

theorem changes_eq_singleton {b b' : Board} {rc : Fin 3 × Fin 3} :
    changes b b' = [rc] ↔ ∀ rc' : Fin 3 × Fin 3, b rc'.1 rc'.2 ≠ b' rc'.1 rc'.2 ↔ rc' = rc := by
  constructor
  · intro h rc'
    rw [← mem_changes, h, List.mem_singleton]
  · intro h
    refine List.perm_singleton.1 ((List.perm_ext_iff_of_nodup (changes_nodup b b')
      (List.nodup_singleton rc)).2 fun rc' => ?_)
    rw [mem_changes, h, List.mem_singleton]

/-- The validation accepts exactly the boards that add one symbol of the
player. -/
theorem validateMove_eq_none_iff {b b' : Board} {player : Player} :
    validateMove b b' player.symbol = none ↔ AddsOne player.symbol b b' := by
  constructor
  · intro h
    unfold validateMove at h
    split at h
    · exact absurd h (by simp)
    · rename_i r c hchanges
      have honly := changes_eq_singleton.1 hchanges
      by_cases hold : b r c = .dot <;> by_cases hnew : b' r c = player.symbol <;>
        simp [hold, hnew] at h
      refine ⟨r, c, hold, hnew, fun r' c' hne => ?_⟩
      by_contra hdiff
      exact hne ((honly (r', c')).1 fun heq => hdiff heq.symm)
    · exact absurd h (by simp)
  · rintro ⟨r, c, hold, hnew, hrest⟩
    have hchanges : changes b b' = [(r, c)] := by
      refine changes_eq_singleton.2 fun rc' => ⟨fun hdiff => ?_, ?_⟩
      · by_contra hne
        exact hdiff (hrest rc'.1 rc'.2 hne).symm
      · rintro rfl
        rw [hold, hnew]
        exact player.symbol_ne_dot.symm
    simp [validateMove, hchanges, hold, hnew]

theorem lineOutcome_eq_some_iff {board : Board} {line : List (Fin 3 × Fin 3)}
    (hline : line ∈ winningLines) {outcome : MatchOutcome} :
    lineOutcome board line = some outcome ↔
      ∃ p : Player, outcome = p.wins ∧ ∀ rc ∈ line, board rc.1 rc.2 = p.symbol := by
  have hthree : ∃ a b c, line = [a, b, c] := by
    simp only [winningLines, List.mem_cons, List.not_mem_nil, or_false] at hline
    rcases hline with rfl | rfl | rfl | rfl | rfl | rfl | rfl | rfl <;> exact ⟨_, _, _, rfl⟩
  obtain ⟨a, b, c, rfl⟩ := hthree
  simp only [lineOutcome, List.map_cons, List.map_nil, List.cons.injEq, and_true,
    List.forall_mem_cons, List.not_mem_nil, false_imp_iff, implies_true]
  constructor
  · intro h
    split at h
    · rename_i hx
      exact ⟨.x, (Option.some.inj h).symm, hx⟩
    · split at h
      · rename_i ho
        exact ⟨.o, (Option.some.inj h).symm, ho⟩
      · exact absurd h (by simp)
  · rintro ⟨p, rfl, hp⟩
    cases p <;> simp [Player.symbol] at hp <;> simp [hp, Player.wins]

theorem validateMove_ne_nil {b b' : Board} {symbol : Cell} {text : Str}
    (h : validateMove b b' symbol = some text) : text ≠ [] := by
  unfold validateMove at h
  split at h
  · rw [← Option.some.inj h]
    decide
  · simp only at h
    split at h
    · rw [← Option.some.inj h]
      simp [str]
    · split at h
      · rw [← Option.some.inj h]
        simp [str]
      · exact absurd h (by simp)
  · rw [← Option.some.inj h]
    simp [str]

/-- An announced outcome is a line of its winner, or a full board without lines. -/
theorem checkWinner_eq_some {board : Board} {outcome : MatchOutcome}
    (h : checkWinner board = some outcome) :
    (∃ p : Player, outcome = p.wins ∧ HasLine board p) ∨
      (outcome = .cat ∧ (∀ p, ¬HasLine board p) ∧ Full board) := by
  unfold checkWinner at h
  split at h
  · rename_i decided hfound
    obtain ⟨line, hline, hout⟩ := List.exists_of_findSome?_eq_some hfound
    obtain ⟨p, rfl, hp⟩ := (lineOutcome_eq_some_iff hline).1 hout
    exact .inl ⟨p, (Option.some.inj h).symm, line, hline, hp⟩
  · rename_i hnone
    split at h
    · rename_i hfull
      refine .inr ⟨(Option.some.inj h).symm, ?_, fun r c => ?_⟩
      · rintro p ⟨line, hline, hp⟩
        have hout := (lineOutcome_eq_some_iff hline).2 ⟨p, rfl, hp⟩
        rw [List.findSome?_eq_none_iff.1 hnone line hline] at hout
        exact absurd hout (by simp)
      · simpa using List.all_eq_true.1 hfull (r, c) (mem_cells _)
    · exact absurd h (by simp)

theorem checkWinner_eq_none {board : Board} (h : checkWinner board = none) :
    (∀ p, ¬HasLine board p) ∧ ¬Full board := by
  unfold checkWinner at h
  split at h
  · exact absurd h (by simp)
  · rename_i hnone
    split at h
    · exact absurd h (by simp)
    · rename_i hopen
      constructor
      · rintro p ⟨line, hline, hp⟩
        have hout := (lineOutcome_eq_some_iff hline).2 ⟨p, rfl, hp⟩
        rw [List.findSome?_eq_none_iff.1 hnone line hline] at hout
        exact absurd hout (by simp)
      · intro hfull
        exact hopen (List.all_eq_true.2 fun rc _ => by simpa using hfull rc.1 rc.2)

/-! ### Boards as positions -/

def Cell.owner : Cell → Option Player
  | .X => some .x
  | .O => some .o
  | .dot => none

theorem Cell.owner_eq_some_iff {cell : Cell} {p : Player} :
    cell.owner = some p ↔ cell = p.symbol := by
  cases cell <;> cases p <;> simp [Cell.owner, Player.symbol]

theorem Cell.owner_eq_none_iff {cell : Cell} : cell.owner = none ↔ cell = .dot := by
  cases cell <;> simp [Cell.owner]

theorem Cell.owner_injective : Function.Injective Cell.owner := by
  intro a b h
  cases a <;> cases b <;> simp_all [Cell.owner]

open PositionalGame in
def Board.position (board : Board) : Position (Fin 3 × Fin 3) Player :=
  fun rc => (board rc.1 rc.2).owner

def lineSets : Set (Set (Fin 3 × Fin 3)) := {l | ∃ line ∈ winningLines, l = {rc | rc ∈ line}}

theorem lineSets_nonempty (l : Set (Fin 3 × Fin 3)) (hl : l ∈ lineSets) : l.Nonempty := by
  obtain ⟨line, hline, rfl⟩ := hl
  simp only [winningLines, List.mem_cons, List.not_mem_nil, or_false] at hline
  rcases hline with rfl | rfl | rfl | rfl | rfl | rfl | rfl | rfl <;>
    exact ⟨_, List.mem_cons_self⟩

theorem hasLine_iff_position {board : Board} {p : Player} :
    HasLine board p ↔ PositionalGame.HasLine lineSets board.position p := by
  simp [HasLine, PositionalGame.HasLine, lineSets, Board.position, Cell.owner_eq_some_iff]

theorem full_iff_position {board : Board} :
    Full board ↔ PositionalGame.Full board.position := by
  simp [Full, PositionalGame.Full, Board.position, Cell.owner_eq_none_iff]

theorem addsOne_iff_places {b b' : Board} {p : Player} :
    AddsOne p.symbol b b' ↔ PositionalGame.Places p b.position b'.position := by
  simp [AddsOne, PositionalGame.Places, Board.position, Cell.owner_eq_some_iff,
    Cell.owner_eq_none_iff, Cell.owner_injective.eq_iff]

end TictactoeBots
