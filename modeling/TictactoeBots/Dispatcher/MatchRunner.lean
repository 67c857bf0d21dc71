import TictactoeBots.Runner.Engine
import TictactoeBots.Dispatcher.Pods

/-!
The game loop over two warm pods.

`ask` is `request_turn` with the number of the move it is called for, so that
two requests of one game may be answered differently. An exception that leaves
a function is its `Except.error`; a game loop that runs out of iterations
returns `none`, as the Python function then does.
-/

namespace TictactoeBots

open Text Python

structure Move where
  moveNumber : ℕ
  player : Player
  board : Str
  error : PyValue

structure MatchResult where
  result : MatchOutcome
  moves : List Move

structure Turn where
  player : Player
  symbol : Cell
  podIp : Str

def forfeitLabel : Player → MatchOutcome
  | .x => .xForfeit
  | .o => .oForfeit

/-- `request_turn(pod_ip, symbol, board, timeout)`. -/
abbrev AskPod := Str → Str → Str → ℚ → Except PyException TurnResponse

/-- What `_play_turn` returns: the new board, or the error that forfeits. -/
inductive TurnOutcome where
  | accepted (newBoard : Board)
  | forfeit (error : PyValue)

/-- What the `try` block of `_play_turn` makes of a response. -/
def judgeResponse (U : UnicodeData) (symbol : Cell) (board : Board) (response : TurnResponse) :
    Except PyException TurnOutcome :=
  if truthy response.error then .ok (.forfeit response.error)
  else if !truthy response.board then .ok (.forfeit (.str (str "no output")))
  else
    match response.board with
    | .str newBoardText =>
        match parseBoard newBoardText with
        | none =>
            .ok (.forfeit
              (.str (str "invalid output: unparseable board: " ++ repr U newBoardText)))
        | some newBoard =>
            match validateMove board newBoard symbol with
            | some moveError => .ok (.forfeit (.str moveError))
            | none => .ok (.accepted newBoard)
    -- `parse_board` starts with `text.strip()`
    | v => .error (noAttribute v (str "strip"))

def playTurn (U : UnicodeData) (ask : AskPod) (symbol : Cell) (podIp : Str) (board : Board)
    (timeout : ℚ) : Except PyException TurnOutcome :=
  match ask podIp symbol.text (boardToStr board) timeout >>= judgeResponse U symbol board with
  | .ok outcome => .ok outcome
  | .error exc =>
      if exc.isA .urlError then .ok (.forfeit (.str (str "HTTP error: " ++ exc.text)))
      else .error exc

/-- The loop of `run_match_from_pods` from a given board on, over the turns
that `enumerate` has still to produce. -/
def gameLoop (U : UnicodeData) (ask : ℕ → AskPod) (timeout : ℚ) (board : Board)
    (moves : List Move) : List (ℕ × Turn) → Except PyException (Option MatchResult)
  | [] => .ok none
  | (moveNumber, turn) :: rest => do
      match ← playTurn U (ask moveNumber) turn.symbol turn.podIp board timeout with
      | .forfeit forfeitError =>
          let move := Move.mk moveNumber turn.player (boardToStr board) forfeitError
          return some ⟨forfeitLabel turn.player, moves ++ [move]⟩
      | .accepted newBoard =>
          let move := Move.mk moveNumber turn.player (boardToStr newBoard) .null
          match checkWinner newBoard with
          | some outcome => return some ⟨outcome, moves ++ [move]⟩
          | none => gameLoop U ask timeout newBoard (moves ++ [move]) rest

/-- `enumerate(itertools.islice(itertools.cycle((x, o)), n), start=1)`. -/
def cycleTurns (x o : Turn) (n : ℕ) : List (ℕ × Turn) :=
  (List.range n).map fun i => (i + 1, if i % 2 = 0 then x else o)

def runMatchFromPods (U : UnicodeData) (coreV1 : CoreV1) (ask : ℕ → AskPod)
    (podNameX podNameO : Str) (turnTimeout : ℚ) : Except PyException (Option MatchResult) := do
  let ipX ← getPodIp coreV1 podNameX
  let ipO ← getPodIp coreV1 podNameO
  let turns := cycleTurns ⟨.x, .X, ipX⟩ ⟨.o, .O, ipO⟩ 9
  gameLoop U ask turnTimeout emptyBoard [] turns

end TictactoeBots
