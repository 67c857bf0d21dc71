import TictactoeBots.Runner.Engine

/-!
The reducer of the human-vs-bot play page.

Its strings are those of JavaScript, sequences of UTF-16 code units, and its
boards are arrays of arrays of strings, of whatever shape `parseBoard` gives
them. A property access on `undefined` throws a `TypeError`, which is the
`Except.error` here, with the text that V8 gives it.

On the boards that the game can have, `gridOf` of a grid of cells, the reducer
does what the engine does: the lemmas at the end say so for each function.
-/

namespace TictactoeBots.PlayState

open Text

/-- `string[][]`. -/
abbrev Grid := List (List Str)

inductive Whose where
  | human
  | bot
  | over
  deriving DecidableEq, Repr

structure State where
  board : Grid
  whose : Whose
  status : Str
  ended : Bool

/-- The data attributes of the board element. -/
structure Ctx where
  botId : Str
  botName : Str
  playerName : Str
  humanSymbol : Str
  botSymbol : Str

def emptyGrid : Grid := List.replicate 3 [str ".", str ".", str "."]

def boardToStr (board : Grid) : Str :=
  (str "\n").intercalate (board.map fun row => (str "|").intercalate row)

def parseBoard (text : Str) : Grid :=
  (text.splitOn 0x0a).map fun row => row.splitOn 0x7c

/-! ### Cells and winners -/

/-- `board[r][c]`, where `none` is `undefined`. -/
def cellAt (board : Grid) (r c : ℕ) : Except Str (Option Str) :=
  match board[r]? with
  | some row => .ok row[c]?
  | none => .error (str "Cannot read properties of undefined (reading '" ++ decimal c ++ str "')")

/-- `board[r][c] = symbol`, for a cell that exists. -/
def setCell (board : Grid) (r c : ℕ) (symbol : Str) : Grid :=
  board.modify r fun row => row.set c symbol

/-- The body of the loop of `checkWinner`: `some a` when it returns `a`. -/
def lineWinner (board : Grid) (line : List (Fin 3 × Fin 3)) :
    Except Str (Option (Option Str)) := do
  match ← line.mapM fun (r, c) => cellAt board r c with
  | [a, b, c] => if a ≠ some (str ".") ∧ a = b ∧ b = c then return some a else return none
  | _ => return none

/-- The loop of `checkWinner` over the lines that are left, and what follows it. -/
def checkWinnerFrom (board : Grid) : List (List (Fin 3 × Fin 3)) → Except Str (Option Str)
  | [] => .ok (if board.all fun row => row.all (· ≠ str ".") then some (str "cat") else none)
  | line :: lines => do
      match ← lineWinner board line with
      | some a => return a
      | none => checkWinnerFrom board lines

/-- `none` is `null`, and `undefined` where the board has no such cells. -/
def checkWinner (board : Grid) : Except Str (Option Str) := checkWinnerFrom board winningLines

/-! ### Transitions -/

def turnCaption (ctx : Ctx) (whose : Whose) : Str :=
  (if whose = .human then ctx.playerName else ctx.botName) ++ str "'s Turn"

def endCaption (ctx : Ctx) (winner : Str) : Str :=
  if winner = str "cat" then str "Cat game"
  else if winner = ctx.humanSymbol then ctx.playerName ++ str " wins"
  else ctx.botName ++ str " wins"

def initialState (ctx : Ctx) : State :=
  let whose : Whose := if ctx.humanSymbol = str "X" then .human else .bot
  { board := emptyGrid, whose := whose, ended := false, status := turnCaption ctx whose }

/-- The state with which both moves go on from their new board: the end when
`winner` is truthy, else the turn of `next`. -/
def afterMove (ctx : Ctx) (board : Grid) (next : Whose) : Except Str State := do
  match ← checkWinner board with
  | some (c :: winner) =>
      return { board := board, whose := .over, ended := true, status := endCaption ctx (c :: winner) }
  | _ =>
      return { board := board, whose := next, ended := false, status := turnCaption ctx next }

/-- `none` when it returns the state it was given. -/
def applyHumanMove (state : State) (ctx : Ctx) (index : ℕ) : Except Str (Option State) :=
  if state.ended ∨ state.whose ≠ .human then .ok none
  else do
    let r := index / 3
    let c := index % 3
    if (← cellAt state.board r c) ≠ some (str ".") then return none
    else some <$> afterMove ctx (setCell state.board r c ctx.humanSymbol) .bot

def applyBotMove (state : State) (ctx : Ctx) (newBoardStr : Str) : Except Str State :=
  if state.ended then .ok state else afterMove ctx (parseBoard newBoardStr) .human

def applyForfeit (state : State) (reason : Str) : State :=
  { board := state.board, whose := .over, ended := true, status := str "Game over: " ++ reason }

/-! ### The boards of the game -/

def gridOf (b : Board) : Grid := (List.ofFn b).map fun row => (List.ofFn row).map Cell.text

def place (b : Board) (r c : Fin 3) (cell : Cell) : Board :=
  Function.update b r (Function.update (b r) c cell)

theorem boardToStr_gridOf (b : Board) : boardToStr (gridOf b) = TictactoeBots.boardToStr b := by
  rw [boardToStr, gridOf, List.map_map]
  rfl

theorem addsOne_place {b : Board} {r c : Fin 3} {cell : Cell} (h : b r c = .dot) :
    AddsOne cell b (place b r c cell) := by
  refine ⟨r, c, h, by simp [place], fun r' c' hne => ?_⟩
  by_cases hr : r' = r
  · subst hr
    have hc : c' ≠ c := fun hc => hne (by rw [hc])
    simp [place, hc]
  · simp [place, hr]

theorem cellAt_gridOf (b : Board) (r c : Fin 3) :
    cellAt (gridOf b) r c = .ok (some (b r c).text) := by
  fin_cases r <;> fin_cases c <;> rfl

theorem setCell_gridOf (b : Board) (r c : Fin 3) (cell : Cell) :
    setCell (gridOf b) r c cell.text = gridOf (place b r c cell) := by
  fin_cases r <;> fin_cases c <;> rfl

theorem gridOf_injective : Function.Injective gridOf := by
  intro b b' h
  ext r c : 2
  have hcell := cellAt_gridOf b r c
  rw [h, cellAt_gridOf, Except.ok.injEq, Option.some.injEq] at hcell
  exact (Cell.text_injective hcell).symm

theorem cellAt_dot_iff {b : Board} {r c : Fin 3} :
    cellAt (gridOf b) r c = .ok (some (str ".")) ↔ b r c = .dot := by
  rw [cellAt_gridOf, Except.ok.injEq, Option.some.injEq]
  exact Cell.text_injective.eq_iff (b := .dot)

theorem parseBoard_boardToStr (b : Board) : parseBoard (boardToStr (gridOf b)) = gridOf b := by
  have hrow : ∀ row ∈ gridOf b, 0x0a ∉ (str "|").intercalate row ∧
      ((str "|").intercalate row).splitOn 0x7c = row := by
    intro row hrow
    obtain ⟨cells, _, rfl⟩ := List.mem_map.1 hrow
    simp only [List.ofFn_succ, List.ofFn_zero, List.map_cons, List.map_nil]
    cases cells 0 <;> cases cells (Fin.succ 0) <;> cases cells (Fin.succ (Fin.succ 0)) <;>
      exact ⟨by decide, by decide⟩
  have hlines : (boardToStr (gridOf b)).splitOn 0x0a =
      (gridOf b).map fun row => (str "|").intercalate row := by
    refine List.splitOn_intercalate 0x0a (fun line hline => ?_) (by simp [gridOf])
    obtain ⟨row, hmem, rfl⟩ := List.mem_map.1 hline
    exact (hrow row hmem).1
  rw [parseBoard, hlines, List.map_map]
  calc (gridOf b).map ((fun row => row.splitOn 0x7c) ∘ fun row => (str "|").intercalate row)
      = (gridOf b).map id := List.map_congr_left fun row hmem => (hrow row hmem).2
    _ = gridOf b := List.map_id _

/-! ### Clicks -/

/-- The cell with the given `data-index`. -/
def rowOf (index : Fin 9) : Fin 3 := ⟨index / 3, by omega⟩

def columnOf (index : Fin 9) : Fin 3 := ⟨index % 3, by omega⟩

theorem applyHumanMove_of_taken (ctx : Ctx) {b : Board} {index : Fin 9} {status : Str}
    (h : b (rowOf index) (columnOf index) ≠ .dot) :
    applyHumanMove ⟨gridOf b, .human, status, false⟩ ctx index = .ok none := by
  have hcell : cellAt (gridOf b) (index / 3) (index % 3) =
      .ok (some (b (rowOf index) (columnOf index)).text) :=
    cellAt_gridOf b (rowOf index) (columnOf index)
  have hmark : (b (rowOf index) (columnOf index)).text ≠ str "." :=
    fun htext => h (Cell.text_injective htext)
  simp [applyHumanMove, hcell, hmark, bind, Except.bind, pure, Except.pure]

theorem applyHumanMove_of_empty {ctx : Ctx} {human : Player} {b : Board} {index : Fin 9}
    {status : Str} (hctx : ctx.humanSymbol = human.symbol.text)
    (h : b (rowOf index) (columnOf index) = .dot) :
    applyHumanMove ⟨gridOf b, .human, status, false⟩ ctx index =
      some <$>
        afterMove ctx (gridOf (place b (rowOf index) (columnOf index) human.symbol)) .bot := by
  have hcell : cellAt (gridOf b) (index / 3) (index % 3) = .ok (some (str ".")) :=
    cellAt_dot_iff.2 h
  have hboard : setCell (gridOf b) (index / 3) (index % 3) human.symbol.text =
      gridOf (place b (rowOf index) (columnOf index) human.symbol) :=
    setCell_gridOf b (rowOf index) (columnOf index) human.symbol
  simp [applyHumanMove, hcell, hctx, hboard, bind, Except.bind]

theorem applyHumanMove_of_not_human {ctx : Ctx} {state : State} (index : ℕ)
    (h : state.whose ≠ .human) : applyHumanMove state ctx index = .ok none :=
  if_pos (.inr h)

/-! ### Its winner -/

def winnerText : MatchOutcome → Str
  | .xWins => str "X"
  | .oWins => str "O"
  | _ => str "cat"

theorem lineWinner_gridOf (b : Board) {line : List (Fin 3 × Fin 3)} (hline : line.length = 3) :
    lineWinner (gridOf b) line =
      .ok ((lineOutcome b line).map fun outcome => some (winnerText outcome)) := by
  obtain ⟨x, y, z, rfl⟩ := List.length_eq_three.1 hline
  simp only [lineWinner, List.mapM_cons, List.mapM_nil, cellAt_gridOf, lineOutcome, List.map_cons,
    List.map_nil]
  cases b x.1 x.2 <;> cases b y.1 y.2 <;> cases b z.1 z.2 <;> rfl

theorem all_gridOf (b : Board) :
    ((gridOf b).all fun row => row.all (· ≠ str ".")) =
      cells.all fun (r, c) => b r c ≠ Cell.dot := by
  have hcell : ∀ cell : Cell, decide (cell.text ≠ str ".") = decide (cell ≠ .dot) := by
    intro cell
    cases cell <;> rfl
  calc ((gridOf b).all fun row => row.all (· ≠ str "."))
      = cells.all fun (r, c) => (b r c).text ≠ str "." := by
        simp only [gridOf, List.ofFn_succ, List.ofFn_zero, List.map_cons, List.map_nil,
          List.all_cons, List.all_nil, cells, Bool.and_true, Bool.and_assoc]
        rfl
    _ = cells.all fun (r, c) => b r c ≠ Cell.dot := by simp only [hcell]

theorem checkWinnerFrom_gridOf (b : Board) : ∀ {lines : List (List (Fin 3 × Fin 3))},
    (∀ line ∈ lines, line.length = 3) →
      checkWinnerFrom (gridOf b) lines = .ok ((match lines.findSome? (lineOutcome b) with
        | some outcome => some outcome
        | none => if cells.all fun (r, c) => b r c ≠ Cell.dot then some .cat else none).map winnerText)
  | [], _ => by
      rw [checkWinnerFrom, all_gridOf, List.findSome?_nil]
      simp only
      split <;> rfl
  | line :: lines, h => by
      have ih := checkWinnerFrom_gridOf b fun l hl => h l (List.mem_cons_of_mem line hl)
      rw [checkWinnerFrom, lineWinner_gridOf b (h line List.mem_cons_self), List.findSome?_cons]
      cases lineOutcome b line with
      | some outcome => rfl
      | none => exact ih

/-- The page and the engine agree about every board of the game. -/
theorem checkWinner_gridOf (b : Board) :
    checkWinner (gridOf b) = .ok ((TictactoeBots.checkWinner b).map winnerText) :=
  checkWinnerFrom_gridOf b (by decide)

theorem winnerText_ne_nil (outcome : MatchOutcome) :
    ∃ c text, winnerText outcome = c :: text := by
  cases outcome <;> exact ⟨_, _, rfl⟩

theorem afterMove_of_winner (ctx : Ctx) {b : Board} (next : Whose) {outcome : MatchOutcome}
    (h : TictactoeBots.checkWinner b = some outcome) :
    afterMove ctx (gridOf b) next =
      .ok ⟨gridOf b, .over, endCaption ctx (winnerText outcome), true⟩ := by
  obtain ⟨c, text, htext⟩ := winnerText_ne_nil outcome
  rw [afterMove, checkWinner_gridOf, h, Option.map_some, htext]
  rfl

theorem afterMove_of_open (ctx : Ctx) {b : Board} (next : Whose)
    (h : TictactoeBots.checkWinner b = none) :
    afterMove ctx (gridOf b) next = .ok ⟨gridOf b, next, turnCaption ctx next, false⟩ := by
  rw [afterMove, checkWinner_gridOf, h]
  rfl

end TictactoeBots.PlayState
