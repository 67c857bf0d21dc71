import TictactoeBots.Dispatcher.GameRuns
import TictactoeBots.Runner.TurnServer

/-!
The forfeit rule, from the end of the bot's process to the outcome of the turn.

By the rule a move counts only if the bot has ended without an exception, and in
every other case it forfeits. The turn server looks at what the bot has printed
and not at its exit status. Where there is no reply, or none in time, the
exception that the client gets is not caught, and there is no forfeit either.
-/

namespace TictactoeBots

open Text Python

/-! ### The rule -/

/-- The bot has ended without an unhandled exception, and in time. -/
def BotRun.Clean (run : BotRun) : Prop := ∃ stdout stderr, run.ending = .completed 0 stdout stderr

/-- What the bot has printed is `newBoard`, which adds one symbol of its own. -/
def BotRun.PrintsMove (run : BotRun) (symbol : Cell) (board newBoard : Board) : Prop :=
  ∃ returncode stdout stderr, run.ending = .completed returncode stdout stderr ∧
    parseBoard (strip stdout.text) = some newBoard ∧ AddsOne symbol board newBoard

/-- The documented rule: a move is accepted if the bot has printed it and ended
cleanly, and in every other case the bot forfeits. -/
def ForfeitRule (run : BotRun) (symbol : Cell) (board : Board)
    (turn : Except PyException TurnOutcome) : Prop :=
  (∃ newBoard, turn = .ok (.accepted newBoard) ∧ run.Clean ∧
    run.PrintsMove symbol board newBoard) ∨
  ((∃ error, turn = .ok (.forfeit error)) ∧
    ¬(run.Clean ∧ ∃ newBoard, run.PrintsMove symbol board newBoard))

/-! ### The reply of a turn server -/

theorem response_of_reply (ending : ProcessEnd) :
    ∃ response, turnResponse ending.reply = .ok response ∧
      (truthy response.error ∨ ∃ text, response.board = .str text) ∧
      ∀ symbol board newBoard, Delivers symbol board response newBoard ↔
        ∃ returncode stdout stderr, ending = .completed returncode stdout stderr ∧
          parseBoard (strip stdout.text) = some newBoard ∧ AddsOne symbol board newBoard := by
  rcases ending.reply_cases with ⟨text, hne, hreply, hblank⟩ | ⟨_, stdout, _, hend, _, hreply⟩
  · have htruthy : truthy (.str text) := by simpa using hne
    refine ⟨⟨.null, .str text⟩, by rw [hreply]; rfl, .inl htruthy, fun symbol board newBoard => ?_⟩
    constructor
    · rintro ⟨herror, _⟩
      rw [htruthy] at herror
      exact absurd herror (by simp)
    · rintro ⟨returncode, stdout, stderr, hend, hparse, _⟩
      rw [hblank returncode stdout stderr hend, parseBoard_nil] at hparse
      exact absurd hparse (by simp)
  · refine ⟨⟨.str (strip stdout.text), .null⟩, by rw [hreply]; rfl, .inr ⟨_, rfl⟩,
      fun symbol board newBoard => ?_⟩
    constructor
    · rintro ⟨_, text, htext, hparse, hadds⟩
      obtain rfl : strip stdout.text = text := by simpa using htext
      exact ⟨_, stdout, _, hend, hparse, hadds⟩
    · rintro ⟨_, stdout', _, hend', hparse, hadds⟩
      rw [hend, ProcessEnd.completed.injEq] at hend'
      obtain ⟨-, rfl, -⟩ := hend'
      exact ⟨rfl, _, rfl, hparse, hadds⟩

theorem playTurn_of_response (U : UnicodeData) {ask : AskPod} {player : Player} {podIp : Str}
    {board : Board} {timeout : ℚ} {response : TurnResponse}
    (hask : ask podIp player.symbol.text (boardToStr board) timeout = .ok response)
    (hshape : truthy response.error ∨ ∃ text, response.board = .str text) :
    let turn := playTurn U ask player.symbol podIp board timeout
    (∃ newBoard, turn = .ok (.accepted newBoard) ∧
      Delivers player.symbol board response newBoard) ∨
    ((∃ error, turn = .ok (.forfeit error)) ∧
      ∀ newBoard, ¬Delivers player.symbol board response newBoard) := by
  rcases playTurn_cases U ask player podIp board timeout with
    ⟨response', newBoard, hok, hdel, hplay⟩ | ⟨⟨error, hplay, _⟩, _, hnone⟩ | ⟨_, hnot⟩
  · rw [hask, Except.ok.injEq] at hok
    subst hok
    exact .inl ⟨newBoard, hplay, hdel⟩
  · exact .inr ⟨⟨error, hplay⟩, fun newBoard => hnone response newBoard hask⟩
  · rw [hask] at hnot
    exact absurd (hshape.imp id .inr) hnot

/-- What a turn server is asked ends in a response that delivers the move of the
run, or in an exception that is no `URLError`. -/
theorem askTurnServer_cases (processes : ℕ → BotProcess) (k : ℕ) (player : Player) (podIp : Str)
    (board : Board) (timeout : ℚ) :
    let run := processes k (player.symbol.text ++ str "\n" ++ boardToStr board)
    let exchange := askTurnServer processes k podIp player.symbol.text (boardToStr board) timeout
    (run.Replies timeout ∧ ∃ response, exchange = .ok response ∧
      (truthy response.error ∨ ∃ text, response.board = .str text) ∧
      ∀ newBoard, Delivers player.symbol board response newBoard ↔
        run.PrintsMove player.symbol board newBoard) ∨
    (¬run.Replies timeout ∧ ∃ exc, exchange = .error exc ∧ exc.isA .urlError = false) := by
  intro run exchange
  rcases askTurnServer_eq processes k podIp player.symbol.text (boardToStr board) timeout with
    ⟨hreplies, hask⟩ | hnot
  · obtain ⟨response, hresponse, hshape, hdelivers⟩ := response_of_reply run.ending
    exact .inl ⟨hreplies, response, hask.trans hresponse, hshape,
      hdelivers player.symbol board⟩
  · exact .inr hnot

/-- The turn of a bot: the move it has printed, a forfeit, or an exception where
there is no reply in time. -/
theorem playTurn_turnServer (U : UnicodeData) (processes : ℕ → BotProcess) (k : ℕ)
    (player : Player) (podIp : Str) (board : Board) (timeout : ℚ) :
    let turn := playTurn U (askTurnServer processes k) player.symbol podIp board timeout
    let run := processes k (player.symbol.text ++ str "\n" ++ boardToStr board)
    (run.Replies timeout ∧ ∃ newBoard, turn = .ok (.accepted newBoard) ∧
      run.PrintsMove player.symbol board newBoard) ∨
    (run.Replies timeout ∧ (∃ error, turn = .ok (.forfeit error)) ∧
      ∀ newBoard, ¬run.PrintsMove player.symbol board newBoard) ∨
    (¬run.Replies timeout ∧ ∃ exc, turn = .error exc) := by
  intro turn run
  rcases askTurnServer_cases processes k player podIp board timeout with
    ⟨hreplies, response, hask, hshape, hdelivers⟩ | ⟨hnot, exc, hask, hclass⟩
  · rcases playTurn_of_response U hask hshape with ⟨newBoard, hplay, hdel⟩ | ⟨hforfeit, hnone⟩
    · exact .inl ⟨hreplies, newBoard, hplay, (hdelivers newBoard).1 hdel⟩
    · exact .inr (.inl ⟨hreplies, hforfeit, fun newBoard h =>
        hnone newBoard ((hdelivers newBoard).2 h)⟩)
  · refine .inr (.inr ⟨hnot, exc, ?_⟩)
    exact (playTurn_of_raised hask).trans (by rw [hclass]; rfl)

/-! ### A reply over the network -/

/-- The reply of the turn server gets to its client: the body of the response
decodes to the `dict` that `_run_bot` has made. -/
def ReplyArrives (json : JsonLoads) (urlopen : Urlopen) (process : BotProcess)
    (podIp symbol board : Str) (timeout : ℚ) : Prop :=
  ∃ content reply, urlopen (turnRequest podIp symbol board) timeout = .ok content ∧
    runBot process symbol board = .ok reply ∧ json.loads content = .ok reply

section Arrives

variable {json : JsonLoads} {urlopen : Urlopen} {process : BotProcess} {player : Player}
  {podIp : Str} {board : Board} {timeout : ℚ}

theorem requestTurn_of_arrives (hreply : ReplyArrives json urlopen process podIp player.symbol.text
      (boardToStr board) timeout) :
    ∃ response, requestTurn json urlopen podIp player.symbol.text (boardToStr board) timeout =
        .ok response ∧
      (truthy response.error ∨ ∃ text, response.board = .str text) ∧
      ∀ newBoard, Delivers player.symbol board response newBoard ↔
        (process (player.symbol.text ++ str "\n" ++ boardToStr board)).PrintsMove
          player.symbol board newBoard := by
  obtain ⟨content, reply, hopen, hrun, hloads⟩ := hreply
  obtain ⟨-, -, rfl⟩ := runBot_eq_ok_iff.1 hrun
  obtain ⟨response, hresponse, hshape, hdelivers⟩ := response_of_reply
    (process (player.symbol.text ++ str "\n" ++ boardToStr board)).ending
  exact ⟨response, (requestTurn_of_loads hopen hloads).trans hresponse, hshape,
    hdelivers player.symbol board⟩

theorem playTurn_of_arrives (U : UnicodeData)
    (hreply : ReplyArrives json urlopen process podIp player.symbol.text
      (boardToStr board) timeout) :
    let turn := playTurn U (requestTurn json urlopen) player.symbol podIp board timeout
    let run := process (player.symbol.text ++ str "\n" ++ boardToStr board)
    (∃ newBoard, turn = .ok (.accepted newBoard) ∧ run.PrintsMove player.symbol board newBoard) ∨
    ((∃ error, turn = .ok (.forfeit error)) ∧
      ∀ newBoard, ¬run.PrintsMove player.symbol board newBoard) := by
  obtain ⟨response, hask, hshape, hdelivers⟩ := requestTurn_of_arrives hreply
  simp only [← hdelivers]
  exact playTurn_of_response U hask hshape

end Arrives

/-! ### The rule and the code -/

/-- The turn follows the rule exactly when the run has a reply in time and the
bot has not failed after printing a move. -/
theorem forfeitRule_iff (U : UnicodeData) (process : BotProcess) (player : Player) (podIp : Str)
    (board : Board) (timeout : ℚ) :
    let run := process (player.symbol.text ++ str "\n" ++ boardToStr board)
    ForfeitRule run player.symbol board
        (playTurn U (askTurnServer (fun _ => process) 0) player.symbol podIp board timeout) ↔
      run.Replies timeout ∧ ¬∃ returncode stdout stderr newBoard,
        run.ending = .completed returncode stdout stderr ∧ returncode ≠ 0 ∧
          parseBoard (strip stdout.text) = some newBoard ∧
            AddsOne player.symbol board newBoard := by
  intro run
  rcases playTurn_turnServer U (fun _ => process) 0 player podIp board timeout with
    ⟨hreplies, newBoard, hplay, hprints⟩ | ⟨hreplies, ⟨error, hplay⟩, hnone⟩ | ⟨hnot, exc, hplay⟩
  · rw [hplay]
    constructor
    · rintro (⟨_, _, ⟨stdout, stderr, hclean⟩, _⟩ | ⟨⟨_, hforfeit⟩, _⟩)
      · refine ⟨hreplies, ?_⟩
        rintro ⟨returncode, _, _, _, hend, hfailed, _⟩
        rw [hclean, ProcessEnd.completed.injEq] at hend
        exact hfailed hend.1.symm
      · cases hforfeit
    · rintro ⟨-, hnofail⟩
      refine .inl ⟨newBoard, rfl, ?_, hprints⟩
      obtain ⟨returncode, stdout, stderr, hend, hparse, hadds⟩ := hprints
      by_cases hzero : returncode = 0
      · exact ⟨stdout, stderr, hzero ▸ hend⟩
      · exact absurd ⟨returncode, stdout, stderr, newBoard, hend, hzero, hparse, hadds⟩ hnofail
  · rw [hplay]
    refine iff_of_true (.inr ⟨⟨error, rfl⟩, fun h => h.2.elim hnone⟩) ⟨hreplies, ?_⟩
    rintro ⟨returncode, stdout, stderr, newBoard, hend, _, hmove⟩
    exact hnone newBoard ⟨returncode, stdout, stderr, hend, hmove⟩
  · rw [hplay]
    refine iff_of_false ?_ fun h => hnot h.1
    rintro (⟨_, haccepted, _⟩ | ⟨⟨_, hforfeit⟩, _⟩)
    · cases haccepted
    · cases hforfeit

def firstCellOutput : DecodedText where
  text := str "X|.|.\n.|.|.\n.|.|."
  scalar := by
    have hascii : (str "X|.|.\n.|.|.\n.|.|.").all (fun c => c.val < 0x80) = true := rfl
    intro c hc hrange
    have hlt := of_decide_eq_true (List.all_eq_true.1 hascii c hc)
    omega

theorem scalar_nil : Scalar [] := by simp [Scalar]

def printsFirstCell (returncode : ℤ) : BotProcess :=
  fun _ => promptRun returncode firstCellOutput ⟨[], scalar_nil⟩

/-- A bot that prints its move and then raises: its process exits with status
1, and the move is accepted. -/
theorem failedBot_moves :
    ¬ForfeitRule (printsFirstCell 1 (str "X\n.|.|.\n.|.|.\n.|.|.")) .X emptyBoard
        (playTurn asciiData (askTurnServer (fun _ => printsFirstCell 1) 0) .X (str "10.0.0.1")
          emptyBoard 10) := by
  rintro (⟨_, _, ⟨stdout, stderr, hclean⟩, _⟩ | ⟨⟨error, hforfeit⟩, _⟩)
  · exact absurd (ProcessEnd.completed.inj hclean).1 (by decide)
  · have haccepted : ∃ newBoard, playTurn asciiData
        (askTurnServer (fun _ => printsFirstCell 1) 0) .X (str "10.0.0.1") emptyBoard 10 =
          .ok (.accepted newBoard) := ⟨_, rfl⟩
    obtain ⟨newBoard, hplay⟩ := haccepted
    rw [hplay] at hforfeit
    exact absurd hforfeit (by simp)

/-- A bot that does not end within ten seconds: the dispatcher does not wait
longer than that, so there is no forfeit. -/
theorem sleepingBot_escapes (U : UnicodeData) (process : BotProcess) (player : Player)
    (podIp : Str) (board : Board)
    (h : (process (player.symbol.text ++ str "\n" ++ boardToStr board)).ending = .timedOut) :
    ∃ exc, playTurn U (askTurnServer (fun _ => process) 0) player.symbol podIp board 10 =
      .error exc := by
  have hlate := BotRun.not_replies_of_timedOut le_rfl h
  rcases playTurn_turnServer U (fun _ => process) 0 player podIp board 10 with
    ⟨hreplies, _⟩ | ⟨hreplies, _⟩ | ⟨_, hexc⟩
  · exact absurd hreplies hlate
  · exact absurd hreplies hlate
  · exact hexc

end TictactoeBots
