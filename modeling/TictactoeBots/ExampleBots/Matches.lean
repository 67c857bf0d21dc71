import TictactoeBots.Runner.BoardGrammar
import TictactoeBots.Runner.TurnHandler
import TictactoeBots.Dispatcher.ReachedPositions
import TictactoeBots.ExampleBots.Programs

/-!
Matches in which a program is at work in one of the pods.

The text that the turn server hands to a program is read back as the symbol and
the board, and the board that the program prints is the one that the dispatcher
validates. So the turns of the program are those of the function that models
it, and what they keep is kept through the whole match, whatever the pod of the
other player answers.
-/

namespace TictactoeBots

open Text Python

/-! ### Input and output -/

def turnInput (player : Player) (board : Board) : Str :=
  player.symbol.text ++ str "\n" ++ boardToStr board

theorem boardToStr_ne_nil (board : Board) : boardToStr board ≠ [] := by
  intro hnil
  have hparse := parseBoard_boardToStr board
  rw [hnil, parseBoard_nil] at hparse
  exact absurd hparse (by simp)

theorem turnInput_eq_intercalate (player : Player) (board : Board) :
    turnInput player board =
      (str "\n").intercalate (player.symbol.text :: (List.ofFn board).map rowText) := by
  rw [List.intercalate_cons_of_ne_nil (by simp)]
  rfl

theorem plainBoardText_turnInput (player : Player) (board : Board) :
    PlainBoardText (turnInput player board) where
  chars := by
    intro c hc
    rcases List.mem_append.1 hc with hc | hc
    · rcases List.mem_append.1 hc with hc | hc
      · exact mem_cellText hc
      · rw [List.mem_singleton.1 hc]
        decide
    · exact (plainBoardText_boardToStr board).chars c hc
  head := by
    cases player with
    | x => exact show some (0x58 : CodePoint) ≠ some 0x0a by decide
    | o => exact show some (0x4f : CodePoint) ≠ some 0x0a by decide
  last := by
    rw [turnInput, List.getLast?_append_of_ne_nil _ (boardToStr_ne_nil board)]
    exact (plainBoardText_boardToStr board).last

theorem splitlines_turnInput (player : Player) (board : Board) :
    splitlines (strip (turnInput player board)) =
      player.symbol.text :: (List.ofFn board).map rowText := by
  rw [(plainBoardText_turnInput player board).splitlines_strip (by simp [turnInput, str]),
    turnInput_eq_intercalate]
  apply List.splitOn_intercalate
  · rw [List.forall_mem_cons]
    refine ⟨by cases player <;> decide, fun line hline hfeed => ?_⟩
    obtain ⟨row, _, rfl⟩ := List.mem_map.1 hline
    exact absurd (mem_rowText hfeed).2 (by decide)
  · simp

theorem readInput_turnInput (player : Player) (board : Board) :
    readInput (turnInput player board) = some (player, board) := by
  have hrows : List.ofFn board = [board 0, board 1, board 2] := rfl
  rw [readInput, splitlines_turnInput, hrows]
  have hplayer : ([Player.x, Player.o].find? fun p => p.symbol.text == player.symbol.text) =
      some player := by
    cases player <;> rfl
  have hboard : ![board 0, board 1, board 2] = board := by
    ext r
    fin_cases r <;> rfl
  simp [hplayer, parseRow_eq_some_iff.2 rfl, hboard]

theorem BotProgram.stdout_turnInput {program : BotProgram} {player : Player}
    {board newBoard : Board} (hmove : program player board = some newBoard) :
    program.stdout (turnInput player board) = some (boardToStr newBoard ++ str "\n") := by
  rw [BotProgram.stdout, readInput_turnInput]
  simp [hmove]

/-- `strip` takes off the line feed that `print` has added. -/
theorem strip_printed (board : Board) :
    strip (boardToStr board ++ str "\n") = boardToStr board := by
  have hplain := plainBoardText_boardToStr board
  have htrimmed : Trimmed (boardToStr board) := by
    refine ⟨fun c hc => ?_, fun c hc => ?_⟩
    · exact (plain_of_mem (hplain.chars c (List.mem_of_head? hc))
        fun hfeed => hplain.head (hfeed ▸ hc)).1
    · exact (plain_of_mem (hplain.chars c (List.mem_of_getLast? hc))
        fun hfeed => hplain.last (hfeed ▸ hc)).1
  have hfeed : Blank (str "\n") := fun c hc => by
    rw [List.mem_singleton.1 hc]
    decide
  exact @strip_append [] _ _ (by simp [Blank]) hfeed htrimmed (boardToStr_ne_nil board)

theorem scalar_of_plain {text : Str} (h : PlainBoardText text) : Scalar text := by
  intro c hc
  have hcases : c ∈ [0x58, 0x4f, 0x2e, 0x7c, 0x0a] := h.chars c hc
  simp only [List.mem_cons, List.not_mem_nil, or_false] at hcases
  rcases hcases with rfl | rfl | rfl | rfl | rfl <;> decide

theorem scalar_symbol (player : Player) : Scalar player.symbol.text := by
  cases player <;> exact scalar_of_all rfl

theorem scalar_printed (board : Board) : Scalar (boardToStr board ++ str "\n") :=
  scalar_append (scalar_of_plain (plainBoardText_boardToStr board)) (scalar_of_all rfl)

/-! ### Turns of a program -/

def RunsProgram (program : BotProgram) (process : BotProcess) : Prop :=
  ∀ input out, program.stdout input = some out →
    ∃ stdout stderr, (process input).ending = .completed 0 stdout stderr ∧ stdout.text = out

/-- A process that prints what the program prints, and nothing without that. -/
def BotProgram.process (program : BotProgram) : BotProcess := fun input =>
  match readInput input >>= fun (symbol, board) => program symbol board with
  | some newBoard => promptRun 0 ⟨_, scalar_printed newBoard⟩ ⟨[], scalar_nil⟩
  | none => promptRun 1 ⟨[], scalar_nil⟩ ⟨[], scalar_nil⟩

theorem runs_process (program : BotProgram) : RunsProgram program program.process := by
  intro input out hout
  rw [BotProgram.stdout] at hout
  rw [BotProgram.process]
  obtain ⟨⟨symbol, board⟩, hread, hout⟩ := Option.bind_eq_some_iff.1 hout
  obtain ⟨newBoard, hmove, hout⟩ := Option.bind_eq_some_iff.1 hout
  rw [hread]
  simp only [Option.bind_eq_bind, Option.bind_some, hmove]
  exact ⟨_, _, rfl, Option.some.inj hout⟩

theorem replies_process (program : BotProgram) {timeout : ℚ} (htimeout : 0 < timeout)
    (input : Str) : (program.process input).Replies timeout := by
  rw [BotProgram.process]
  split <;> exact ⟨rfl, rfl, htimeout⟩

theorem RunsProgram.reply_eq {program : BotProgram} {process : BotProcess}
    (hruns : RunsProgram program process) {player : Player} {board newBoard : Board}
    (hmove : program player board = some newBoard) :
    (process (player.symbol.text ++ str "\n" ++ boardToStr board)).ending.reply =
      .obj [(str "board", .str (boardToStr newBoard))] := by
  obtain ⟨stdout, stderr, hend, htext⟩ := hruns _ _ (BotProgram.stdout_turnInput hmove)
  rw [turnInput] at hend
  rw [hend]
  simp [ProcessEnd.reply, htext, strip_printed, boardToStr_ne_nil]

theorem RunsProgram.printsMove_iff {program : BotProgram} {process : BotProcess}
    (hruns : RunsProgram program process) {player : Player} {board newBoard : Board}
    (hmove : program player board = some newBoard) (other : Board) :
    (process (turnInput player board)).PrintsMove player.symbol board other ↔
      other = newBoard ∧ AddsOne player.symbol board newBoard := by
  obtain ⟨stdout, stderr, hend, htext⟩ := hruns _ _ (BotProgram.stdout_turnInput hmove)
  constructor
  · rintro ⟨_, stdout', _, hend', hparse, hadds⟩
    rw [hend, ProcessEnd.completed.injEq] at hend'
    obtain ⟨-, rfl, -⟩ := hend'
    rw [htext, strip_printed, parseBoard_boardToStr, Option.some.injEq] at hparse
    exact ⟨hparse.symm, hparse ▸ hadds⟩
  · rintro ⟨rfl, hadds⟩
    exact ⟨0, stdout, stderr, hend, by rw [htext, strip_printed, parseBoard_boardToStr], hadds⟩

/-- Whenever `player` is asked for a turn, a run of the program answers, and the
answer arrives. -/
def PlaysBy (json : JsonLoads) (urlopen : ℕ → Urlopen) (timeout : ℚ) (podIp : Str)
    (player : Player) (program : BotProgram) : Prop :=
  ∀ n board, mover n = player → ∃ process, RunsProgram program process ∧
    ReplyArrives json (urlopen (n + 1)) process podIp player.symbol.text (boardToStr board) timeout

theorem playsBy_of_serves (py : PodPython) {json : JsonLoads} {urlopen : ℕ → Urlopen}
    {podIp : Str} {player : Player} {program : BotProgram} {timeout : ℚ}
    (hserver : ReadsTexts py.json) (hclient : ReadsTexts json)
    (hserves : ∀ n, mover n = player → ∃ process, RunsProgram program process ∧
      (∀ input, (process input).Replies timeout) ∧ Serves py process (urlopen (n + 1)) podIp) :
    PlaysBy json urlopen timeout podIp player program := by
  intro n board hmover
  obtain ⟨process, hruns, hreplies, hserves⟩ := hserves n hmover
  exact ⟨process, hruns, hserves.replyArrives hserver hclient
    (scalar_symbol player) (scalar_of_plain (plainBoardText_boardToStr board)) (hreplies _)⟩

def sides (x o : BotProgram) : Player → BotProgram
  | .x => x
  | .o => o

def programPods (program : Player → BotProgram) (k : ℕ) : Urlopen :=
  answering plainPodPython (program (mover (k - 1))).process

theorem playsBy_programPods (program : Player → BotProgram) (player : Player) (podIp : Str)
    {timeout : ℚ} (htimeout : 0 < timeout) :
    PlaysBy plainLoads (programPods program) timeout podIp player (program player) := by
  apply playsBy_of_serves plainPodPython readsTexts_plainLoads readsTexts_plainLoads
  intro n hmover
  refine ⟨(program player).process, runs_process _, replies_process _ htimeout,
    fun request timeout _ => ?_⟩
  rw [programPods, Nat.add_sub_cancel, hmover]

section Turn

variable {json : JsonLoads} {urlopen : ℕ → Urlopen} {timeout : ℚ} {podIp : Str}
  {player : Player} {program : BotProgram} {n : ℕ} {board newBoard : Board}

theorem PlaysBy.turn (hplays : PlaysBy json urlopen timeout podIp player program)
    (U : UnicodeData) (hmover : mover n = player) (hmove : program player board = some newBoard) :
    let turn := playTurn U (requestTurn json (urlopen (n + 1))) player.symbol podIp board timeout
    (turn = .ok (.accepted newBoard) ∧ AddsOne player.symbol board newBoard) ∨
      ((∃ error, turn = .ok (.forfeit error)) ∧ ¬AddsOne player.symbol board newBoard) := by
  obtain ⟨process, hruns, harrives⟩ := hplays n board hmover
  rcases playTurn_of_arrives U harrives with ⟨printed, hplay, hprints⟩ | ⟨hforfeit, hnone⟩
  · obtain ⟨rfl, hadds⟩ := (hruns.printsMove_iff hmove printed).1 hprints
    exact .inl ⟨hplay, hadds⟩
  · exact .inr ⟨hforfeit, fun hadds =>
      hnone newBoard ((hruns.printsMove_iff hmove newBoard).2 ⟨rfl, hadds⟩)⟩

theorem PlaysBy.turn_eq (hplays : PlaysBy json urlopen timeout podIp player program)
    (U : UnicodeData) (hmover : mover n = player) (hmove : program player board = some newBoard)
    (hadds : AddsOne player.symbol board newBoard) :
    playTurn U (requestTurn json (urlopen (n + 1))) player.symbol podIp board timeout =
      .ok (.accepted newBoard) := by
  rcases hplays.turn U hmover hmove with ⟨hplay, _⟩ | ⟨_, hnot⟩
  · exact hplay
  · exact absurd hadds hnot

end Turn

/-! ### The last turn of a match -/

section Match

variable {U : UnicodeData} {ask : ℕ → AskPod} {timeout : ℚ} {ipX ipO : Str}

/-- What a position that is reached comes to, in a run with a result: a forfeit, a
move that decides the match, or the next position. -/
theorem Reached.turn_cases {n : ℕ} {board : Board} {moves : List Move} {m : MatchResult}
    (hreached : Reached U ask timeout ipX ipO n board moves)
    (hrun : gameLoop U ask timeout emptyBoard [] (matchTurns ipX ipO) = .ok (some m)) :
    let turn := playTurn U (ask (n + 1)) (mover n).symbol (moverIp ipX ipO n) board timeout
    (∃ error, turn = .ok (.forfeit error) ∧
      m = ⟨forfeitLabel (mover n), moves ++ [forfeitMove n board error]⟩) ∨
    (∃ newBoard outcome, turn = .ok (.accepted newBoard) ∧ checkWinner newBoard = some outcome ∧
      m = ⟨outcome, moves ++ [acceptedMove n newBoard]⟩) ∨
    ∃ newBoard, turn = .ok (.accepted newBoard) ∧
      Reached U ask timeout ipX ipO (n + 1) newBoard (moves ++ [acceptedMove n newBoard]) := by
  intro turn
  have hloop := hreached.run_eq.symm.trans hrun
  cases hplay : playTurn U (ask (n + 1)) (mover n).symbol (moverIp ipX ipO n) board timeout with
  | error exc =>
      rw [gameLoop, hplay] at hloop
      cases hloop
  | ok outcome =>
      cases outcome with
      | forfeit error =>
          rw [gameLoop_of_forfeit hplay, Except.ok.injEq, Option.some.injEq] at hloop
          exact .inl ⟨error, hplay, hloop.symm⟩
      | accepted newBoard =>
          cases hout : checkWinner newBoard with
          | some outcome =>
              rw [gameLoop_of_over hplay hout, Except.ok.injEq, Option.some.injEq] at hloop
              exact .inr (.inl ⟨newBoard, outcome, hplay, hout, hloop.symm⟩)
          | none => exact .inr (.inr ⟨newBoard, hplay, .turn hreached hplay hout⟩)

/-- A run of the game loop that returns a result has reached a position whose
turn decides the match: with a forfeit, or with a move. -/
theorem Reached.last_turn {n : ℕ} {board : Board} {moves : List Move} {m : MatchResult}
    (hreached : Reached U ask timeout ipX ipO n board moves)
    (hrun : gameLoop U ask timeout emptyBoard [] (matchTurns ipX ipO) = .ok (some m)) :
    ∃ n board moves, Reached U ask timeout ipX ipO n board moves ∧
      let turn := playTurn U (ask (n + 1)) (mover n).symbol (moverIp ipX ipO n) board timeout
      ((∃ error, turn = .ok (.forfeit error) ∧
          m = ⟨forfeitLabel (mover n), moves ++ [forfeitMove n board error]⟩) ∨
        ∃ newBoard outcome, turn = .ok (.accepted newBoard) ∧
          checkWinner newBoard = some outcome ∧
            m = ⟨outcome, moves ++ [acceptedMove n newBoard]⟩) := by
  -- every accepted move that decides nothing leaves fewer of the nine turns
  induction hleft : 9 - n generalizing n board moves with
  | zero =>
      have hlt := hreached.played.lt_nine
      omega
  | succ left ih =>
      rcases hreached.turn_cases hrun with hforfeit | hover | ⟨newBoard, _, hnext⟩
      · exact ⟨n, board, moves, hreached, .inl hforfeit⟩
      · exact ⟨n, board, moves, hreached, .inr hover⟩
      · exact ih hnext (by omega)

/-- What holds of the empty board and is kept by every accepted move that
decides nothing holds whenever the loop asks for a move. -/
theorem Reached.invariant {I : ℕ → Board → Prop} (hstart : I 0 emptyBoard)
    (hstep : ∀ n board moves newBoard, Reached U ask timeout ipX ipO n board moves → I n board →
      playTurn U (ask (n + 1)) (mover n).symbol (moverIp ipX ipO n) board timeout =
        .ok (.accepted newBoard) → checkWinner newBoard = none → I (n + 1) newBoard)
    {n : ℕ} {board : Board} {moves : List Move}
    (hreached : Reached U ask timeout ipX ipO n board moves) : I n board := by
  induction hreached with
  | start => exact hstart
  | turn h hplay hout ih => exact hstep _ _ _ _ h ih hplay hout

end Match

end TictactoeBots
