import TictactoeBots.Lib.FirstBest
import TictactoeBots.Web.PlayState

/-!
The programs under `example_bots`.

Every one of them reads a symbol and a board from its standard input, changes
its board in place and prints it. A `BotProgram` is what happens in between,
on the inputs that callers send. `none` is a program that ends without printing
a board: with an exception, or silently.
-/

namespace TictactoeBots

open Text FirstBest
open PlayState (place)

abbrev BotProgram := Player → Board → Option Board

/-- Rows and columns are written as numerals. -/
local instance neZeroThree : NeZero 3 := ⟨by decide⟩

/-! ### Input and output -/

/-- The symbol and the board on the standard input: its stripped lines, all but
the first one split at pipes. -/
def readInput (input : Str) : Option (Player × Board) :=
  match splitlines (strip input) with
  | [symbol, row0, row1, row2] => do
      let player ← [Player.x, Player.o].find? fun player => player.symbol.text == symbol
      let cells0 ← parseRow row0
      let cells1 ← parseRow row1
      let cells2 ← parseRow row2
      return (player, ![cells0, cells1, cells2])
  | _ => none

def BotProgram.stdout (program : BotProgram) (input : Str) : Option Str := do
  let (symbol, board) ← readInput input
  let newBoard ← program symbol board
  return boardToStr newBoard ++ str "\n"

/-! ### The parts that several programs have -/

def empties (board : Board) : List (Fin 3 × Fin 3) := cells.filter fun (r, c) => board r c = .dot

/-- `find_completion`, which two programs call `find_win` and `find_block`: the
empty cell of the first line in which `symbol` has the other two. -/
def findCompletion (lines : List (List (Fin 3 × Fin 3))) (board : Board) (symbol : Player) :
    Option (Fin 3 × Fin 3) :=
  lines.findSome? fun line =>
    let marks := line.map fun (r, c) => board r c
    if marks.count symbol.symbol = 2 ∧ marks.count .dot = 1 then
      line.find? fun (r, c) => board r c = .dot
    else none

def firstEmpty (order : List (Fin 3 × Fin 3)) (board : Board) : Option (Fin 3 × Fin 3) :=
  order.find? fun (r, c) => board r c = .dot

/-- `r, c = move` and the end of a program, which fails where `move` is `None`. -/
def playAt (symbol : Player) (board : Board) (move : Option (Fin 3 × Fin 3)) : Option Board :=
  move.map fun (r, c) => place board r c symbol.symbol

/-- Complete a line, else block one, else take the first empty cell. -/
def completionBot (lines : List (List (Fin 3 × Fin 3))) (preferred : List (Fin 3 × Fin 3)) :
    BotProgram := fun symbol board =>
  playAt symbol board <|
    (findCompletion lines board symbol).or <|
      (findCompletion lines board symbol.other).or (firstEmpty preferred board)

def preferred : List (Fin 3 × Fin 3) :=
  [(1, 1), (0, 0), (0, 2), (2, 0), (2, 2), (0, 1), (1, 0), (1, 2), (2, 1)]

/-! ### The programs -/

/-- A program that takes the first empty cell and exits; without one it prints
nothing. -/
def firstCellBot : BotProgram := fun symbol board => playAt symbol board (empties board).head?

def py310 : BotProgram := firstCellBot

def py311 : BotProgram := firstCellBot

def py312 : BotProgram := firstCellBot

def py313 : BotProgram := firstCellBot

def py314 : BotProgram := firstCellBot

def horizontalBlindLines : List (List (Fin 3 × Fin 3)) :=
  [ [(0, 0), (1, 0), (2, 0)],
    [(0, 1), (1, 1), (2, 1)],
    [(0, 2), (1, 2), (2, 2)],
    [(0, 0), (1, 1), (2, 2)],
    [(0, 2), (1, 1), (2, 0)] ]

def horizontalBlindBot : BotProgram := completionBot horizontalBlindLines preferred

def verticalBlindLines : List (List (Fin 3 × Fin 3)) :=
  [ [(0, 0), (0, 1), (0, 2)],
    [(1, 0), (1, 1), (1, 2)],
    [(2, 0), (2, 1), (2, 2)],
    [(0, 0), (1, 1), (2, 2)],
    [(0, 2), (1, 1), (2, 0)] ]

def verticalBlindBot : BotProgram := completionBot verticalBlindLines preferred

def diagonalBlindLines : List (List (Fin 3 × Fin 3)) :=
  [ [(0, 0), (0, 1), (0, 2)],
    [(1, 0), (1, 1), (1, 2)],
    [(2, 0), (2, 1), (2, 2)],
    [(0, 0), (1, 0), (2, 0)],
    [(0, 1), (1, 1), (2, 1)],
    [(0, 2), (1, 2), (2, 2)] ]

def diagonalBlindBot : BotProgram := completionBot diagonalBlindLines preferred

def passiveOrder : List (Fin 3 × Fin 3) :=
  [(0, 1), (1, 0), (1, 2), (2, 1), (1, 1), (0, 0), (0, 2), (2, 0), (2, 2)]

def defenseOnlyBot : BotProgram := fun symbol board =>
  playAt symbol board <|
    (findCompletion winningLines board symbol.other).or (firstEmpty passiveOrder board)

def aggressiveOrder : List (Fin 3 × Fin 3) :=
  [(1, 1), (0, 0), (0, 2), (2, 0), (2, 2), (0, 1), (1, 0), (1, 2), (2, 1)]

/-- The lines that a mark at `(r, c)` would leave one short of complete. -/
def scoreMove (board : Board) (symbol : Player) (move : Fin 3 × Fin 3) : ℤ :=
  let board := place board move.1 move.2 symbol.symbol
  (winningLines.filter fun line =>
    let marks := line.map fun (r, c) => board r c
    marks.count symbol.symbol = 2 ∧ marks.count .dot = 1).length

def offenseOnlyBot : BotProgram := fun symbol board =>
  playAt symbol board <|
    match findCompletion winningLines board symbol with
    | some move => some move
    | none =>
        let candidates := aggressiveOrder.filter fun (r, c) => board r c = .dot
        (keepBest (· > ·) (scoreMove board symbol) some (-1, none) candidates).2

/-- It takes the first cell of its opponent, and an empty one if there is none. -/
def overwriterBot : BotProgram := fun symbol board =>
  playAt symbol board <|
    (cells.find? fun (r, c) => board r c = symbol.other.symbol).or (firstEmpty cells board)

/-- It takes two cells, where two are empty. -/
def doubleMoverBot : BotProgram := fun symbol board =>
  some (((empties board).take 2).foldl (fun b (r, c) => place b r c symbol.symbol) board)

/-! ### The perfect bots -/

/-- The body of the loop of `winner`. -/
def lineSymbol (board : Board) (line : List (Fin 3 × Fin 3)) : Option Cell :=
  match line.map fun (r, c) => board r c with
  | [a, b, c] => if a ≠ .dot ∧ a = b ∧ b = c then some a else none
  | _ => none

def winner (board : Board) : Option Cell := winningLines.findSome? (lineSymbol board)

def marked (board : Board) : ℤ := (cells.filter fun (r, c) => board r c ≠ .dot).length

/-- `minimax`, to a depth of `n` calls. The first version of the bot has no
branch for the moves of the opponent, in which it would keep the worst score;
the second one has. -/
def minimax (opponentChooses : Bool) (me : Player) :
    ℕ → Board → Player → ℤ × Option (Fin 3 × Fin 3)
  | 0, _, _ => (0, none)
  | n + 1, board, toMove =>
      match winner board with
      | some w => if w = me.symbol then (10 - marked board, none) else (-10 + marked board, none)
      | none =>
          match empties board with
          | [] => (0, none)
          | first :: rest =>
              let score := fun (move : Fin 3 × Fin 3) =>
                (minimax opponentChooses me n (place board move.1 move.2 toMove.symbol)
                  toMove.other).1
              if toMove = me then keepBest (· > ·) score some (-999, some first) (first :: rest)
              else if opponentChooses then
                keepBest (· < ·) score some (999, some first) (first :: rest)
              else (999, some first)

/-- A board has nine cells, so no call is deeper than the tenth. -/
def perfectBot (opponentChooses : Bool) : BotProgram := fun symbol board =>
  playAt symbol board (minimax opponentChooses symbol 10 board symbol).2

def perfectBotV1 : BotProgram := perfectBot false

def perfectBotV2 : BotProgram := perfectBot true

end TictactoeBots
