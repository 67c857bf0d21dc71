import TictactoeBots.Dispatcher.MatchRunner

/-!
What a game loop can produce, whatever the pods answer.

`Played` describes the games that are still going on after some turns and
`Finished` the results, both by the rules of the game alone. The game loop is
then shown to return nothing but finished games, by one step of the loop and an
induction over the turns that are left.
-/

namespace TictactoeBots

open Text Python

/-- The player of the turn with index `i`, counted from zero. -/
def mover (i : ℕ) : Player := if i % 2 = 0 then .x else .o

def acceptedMove (n : ℕ) (board : Board) : Move :=
  ⟨n + 1, mover n, boardToStr board, .null⟩

def forfeitMove (n : ℕ) (board : Board) (error : PyValue) : Move :=
  ⟨n + 1, mover n, boardToStr board, error⟩

/-- Games that are undecided after `n` accepted moves. -/
inductive Played : ℕ → Board → List Move → Prop
  | start : Played 0 emptyBoard []
  | turn {n : ℕ} {board newBoard : Board} {moves : List Move} :
      Played n board moves → AddsOne (mover n).symbol board newBoard →
        (∀ p, ¬HasLine newBoard p) → ¬Full newBoard →
          Played (n + 1) newBoard (moves ++ [acceptedMove n newBoard])

/-- The results of finished games. -/
inductive Finished : MatchResult → Prop
  | forfeit {n : ℕ} {board : Board} {moves : List Move} {error : PyValue} :
      Played n board moves → truthy error →
        Finished ⟨forfeitLabel (mover n), moves ++ [forfeitMove n board error]⟩
  | line {n : ℕ} {board newBoard : Board} {moves : List Move} :
      Played n board moves → AddsOne (mover n).symbol board newBoard →
        HasLine newBoard (mover n) →
          Finished ⟨(mover n).wins, moves ++ [acceptedMove n newBoard]⟩
  | full {board newBoard : Board} {moves : List Move} :
      Played 8 board moves → AddsOne (mover 8).symbol board newBoard →
        (∀ p, ¬HasLine newBoard p) →
          Finished ⟨.cat, moves ++ [acceptedMove 8 newBoard]⟩

/-! ### Undecided games -/

theorem Played.live {n : ℕ} {board : Board} {moves : List Move} (h : Played n board moves) :
    PositionalGame.Live lineSets mover n board.position := by
  induction h with
  | start => exact .start
  | turn _ hadds hlines _ ih =>
      exact .turn ih (addsOne_iff_places.1 hadds) fun p hp => hlines p (hasLine_iff_position.2 hp)

theorem Played.not_hasLine {n : ℕ} {board : Board} {moves : List Move}
    (h : Played n board moves) (p : Player) : ¬HasLine board p :=
  fun hline => h.live.not_hasLine lineSets_nonempty p (hasLine_iff_position.1 hline)

theorem Played.not_full {n : ℕ} {board : Board} {moves : List Move}
    (h : Played n board moves) : ¬Full board := by
  cases h with
  | start => exact fun hfull => hfull 0 0 rfl
  | turn _ _ _ hopen => exact hopen

theorem Played.lt_nine {n : ℕ} {board : Board} {moves : List Move}
    (h : Played n board moves) : n < 9 := by
  induction h with
  | start => decide
  | turn hplayed hadds hlines hopen ih =>
      have hlive := (Played.turn hplayed hadds hlines hopen).live
      have hne : _ ≠ 9 := fun heq => hopen (full_iff_position.2 (hlive.full_iff.2 heq))
      omega

theorem Played.length_moves {n : ℕ} {board : Board} {moves : List Move}
    (h : Played n board moves) : moves.length = n := by
  induction h with
  | start => rfl
  | turn _ _ _ _ ih => simp [ih]

theorem Played.full_after_iff {n : ℕ} {board newBoard : Board} {moves : List Move}
    (h : Played n board moves) (hadds : AddsOne (mover n).symbol board newBoard) :
    Full newBoard ↔ n = 8 := by
  rw [full_iff_position, h.live.full_after_iff (addsOne_iff_places.1 hadds),
    show Fintype.card (Fin 3 × Fin 3) = 9 from rfl]
  omega

theorem Played.line_owner {n : ℕ} {board newBoard : Board} {moves : List Move}
    (h : Played n board moves) (hadds : AddsOne (mover n).symbol board newBoard)
    {p : Player} (hline : HasLine newBoard p) : p = mover n :=
  (addsOne_iff_places.1 hadds).line_owner
    (fun hold => h.not_hasLine p (hasLine_iff_position.2 hold)) (hasLine_iff_position.1 hline)

theorem Played.finished {n : ℕ} {board newBoard : Board} {moves : List Move}
    (h : Played n board moves) (hadds : AddsOne (mover n).symbol board newBoard)
    {outcome : MatchOutcome} (hout : checkWinner newBoard = some outcome) :
    Finished ⟨outcome, moves ++ [acceptedMove n newBoard]⟩ := by
  obtain ⟨p, rfl, hline⟩ | ⟨rfl, hlines, hfull⟩ := checkWinner_eq_some hout
  · obtain rfl := h.line_owner hadds hline
    exact .line h hadds hline
  · obtain rfl := (h.full_after_iff hadds).1 hfull
    exact .full h hadds hlines

/-! ### One turn -/

/-- `response` carries a legal move of the player with the given symbol, and
`newBoard` is the board after it. -/
def Delivers (symbol : Cell) (board : Board) (response : TurnResponse) (newBoard : Board) :
    Prop :=
  truthy response.error = false ∧
    ∃ text, response.board = .str text ∧ parseBoard text = some newBoard ∧
      AddsOne symbol board newBoard

theorem parseBoard_nil : parseBoard [] = none := rfl

/-- The responses on which the turn is decided without an exception: an error
is reported, there is no board, or the board is a text. -/
def Judged (response : TurnResponse) : Prop :=
  truthy response.error ∨ truthy response.board = false ∨ ∃ text, response.board = .str text

/-- Everything `_play_turn` can make of a response. -/
theorem judgeResponse_cases (U : UnicodeData) (player : Player) (board : Board)
    (response : TurnResponse) :
    (∃ newBoard, judgeResponse U player.symbol board response = .ok (.accepted newBoard) ∧
      Delivers player.symbol board response newBoard) ∨
    (∃ error, judgeResponse U player.symbol board response = .ok (.forfeit error) ∧
      truthy error ∧ Judged response ∧
        ∀ newBoard, ¬Delivers player.symbol board response newBoard) ∨
    (∃ exc, judgeResponse U player.symbol board response = .error exc ∧
      exc.isA .urlError = false ∧ ¬Judged response) := by
  unfold judgeResponse
  split
  · rename_i herror
    refine .inr (.inl ⟨_, rfl, herror, .inl herror, fun newBoard hdel => ?_⟩)
    simp [hdel.1] at herror
  · rename_i herror
    split
    · rename_i hboard
      have hempty : truthy response.board = false := by simpa using hboard
      refine .inr (.inl ⟨_, rfl, rfl, .inr (.inl hempty), ?_⟩)
      rintro newBoard ⟨_, text, htext, hparsed, _⟩
      rw [htext, truthy_str] at hempty
      obtain rfl : text = [] := by simpa using hempty
      rw [parseBoard_nil] at hparsed
      exact absurd hparsed (by simp)
    · rename_i hboard
      split
      · rename_i text htext
        have hjudged : Judged response := .inr (.inr ⟨text, htext⟩)
        split
        · rename_i hnone
          refine .inr (.inl ⟨_, rfl, by simp [str], hjudged, ?_⟩)
          rintro newBoard ⟨_, text', htext', hparsed, _⟩
          rw [htext, Json.Value.str.injEq] at htext'
          rw [← htext', hnone] at hparsed
          exact absurd hparsed (by simp)
        · rename_i parsed hparsed
          split
          · rename_i moveError hinvalid
            refine .inr (.inl ⟨_, rfl, by simpa using validateMove_ne_nil hinvalid, hjudged, ?_⟩)
            rintro newBoard ⟨_, text', htext', hparsed', hadds⟩
            rw [htext, Json.Value.str.injEq] at htext'
            rw [← htext', hparsed, Option.some.injEq] at hparsed'
            rw [hparsed', validateMove_eq_none_iff.2 hadds] at hinvalid
            exact absurd hinvalid (by simp)
          · rename_i hvalid
            exact .inl ⟨parsed, rfl, by simpa using herror, text, htext, hparsed,
              validateMove_eq_none_iff.1 hvalid⟩
      · rename_i hnotStr
        refine .inr (.inr ⟨_, rfl, rfl, ?_⟩)
        rintro (hjudged | hjudged | ⟨text, htext⟩)
        · exact herror hjudged
        · simp [hjudged] at hboard
        · exact hnotStr text htext

/-- How an exchange may end without its exception leaving `_play_turn`. -/
def Settled : Except PyException TurnResponse → Prop
  | .ok response => Judged response
  | .error exc => exc.isA .urlError

section Turn

variable {U : UnicodeData} {ask : AskPod} {symbol : Cell} {podIp : Str} {board : Board}
  {timeout : ℚ}

theorem playTurn_of_raised {exc : PyException}
    (hask : ask podIp symbol.text (boardToStr board) timeout = .error exc) :
    playTurn U ask symbol podIp board timeout =
      if exc.isA .urlError then .ok (.forfeit (.str (str "HTTP error: " ++ exc.text)))
      else .error exc := by
  rw [playTurn, hask]
  rfl

theorem bind_judgeResponse {response : TurnResponse}
    (hask : ask podIp symbol.text (boardToStr board) timeout = .ok response) :
    (ask podIp symbol.text (boardToStr board) timeout >>= judgeResponse U symbol board) =
      judgeResponse U symbol board response := by
  rw [hask]
  rfl

theorem playTurn_of_judged {response : TurnResponse} {outcome : TurnOutcome}
    (hask : ask podIp symbol.text (boardToStr board) timeout = .ok response)
    (hjudge : judgeResponse U symbol board response = .ok outcome) :
    playTurn U ask symbol podIp board timeout = .ok outcome := by
  rw [playTurn, bind_judgeResponse hask, hjudge]

theorem playTurn_of_not_judged {response : TurnResponse} {exc : PyException}
    (hask : ask podIp symbol.text (boardToStr board) timeout = .ok response)
    (hjudge : judgeResponse U symbol board response = .error exc)
    (hclass : exc.isA .urlError = false) :
    playTurn U ask symbol podIp board timeout = .error exc := by
  rw [playTurn, bind_judgeResponse hask, hjudge]
  simp [hclass]

end Turn

theorem playTurn_cases (U : UnicodeData) (ask : AskPod) (player : Player) (podIp : Str)
    (board : Board) (timeout : ℚ) :
    let exchange := ask podIp player.symbol.text (boardToStr board) timeout
    (∃ response newBoard, exchange = .ok response ∧
      Delivers player.symbol board response newBoard ∧
        playTurn U ask player.symbol podIp board timeout = .ok (.accepted newBoard)) ∨
    ((∃ error, playTurn U ask player.symbol podIp board timeout = .ok (.forfeit error) ∧
      truthy error) ∧ Settled exchange ∧
        ∀ response newBoard, exchange = .ok response →
          ¬Delivers player.symbol board response newBoard) ∨
    ((∃ exc, playTurn U ask player.symbol podIp board timeout = .error exc) ∧
      ¬Settled exchange) := by
  intro exchange
  cases hexchange : exchange with
  | error exc =>
      have hplay := @playTurn_of_raised U _ _ _ _ _ _ hexchange
      by_cases hurl : exc.isA .urlError
      · refine .inr (.inl ⟨⟨_, by rw [hplay, if_pos hurl], by simp [str]⟩, hurl, ?_⟩)
        intro response newBoard h
        exact absurd h (by simp)
      · exact .inr (.inr ⟨⟨exc, by rw [hplay, if_neg hurl]⟩, hurl⟩)
  | ok response =>
      have hask : ask podIp player.symbol.text (boardToStr board) timeout = .ok response :=
        hexchange
      rcases judgeResponse_cases U player board response with
        ⟨newBoard, hjudge, hdel⟩ | ⟨error, hjudge, herror, hjudged, hnone⟩ |
          ⟨exc, hjudge, hclass, hnot⟩
      · exact .inl ⟨response, newBoard, rfl, hdel, playTurn_of_judged hask hjudge⟩
      · refine .inr (.inl ⟨⟨error, playTurn_of_judged hask hjudge, herror⟩, hjudged, ?_⟩)
        rintro _ newBoard ⟨rfl⟩
        exact hnone newBoard
      · exact .inr (.inr ⟨⟨exc, playTurn_of_not_judged hask hjudge hclass⟩, hnot⟩)

/-! ### The whole loop -/

def moverIp (ipX ipO : Str) (n : ℕ) : Str := if n % 2 = 0 then ipX else ipO

def matchTurns (ipX ipO : Str) : List (ℕ × Turn) :=
  cycleTurns ⟨.x, .X, ipX⟩ ⟨.o, .O, ipO⟩ 9

theorem matchTurns_drop (ipX ipO : Str) {n : ℕ} (hn : n < 9) :
    (matchTurns ipX ipO).drop n =
      (n + 1, ⟨mover n, (mover n).symbol, moverIp ipX ipO n⟩) ::
        (matchTurns ipX ipO).drop (n + 1) := by
  have hlen : n < (matchTurns ipX ipO).length := by simpa [matchTurns, cycleTurns] using hn
  rw [List.drop_eq_getElem_cons hlen]
  congr 1
  by_cases heven : n % 2 = 0 <;>
    simp [matchTurns, cycleTurns, mover, moverIp, heven, Player.symbol]

section Iteration

variable {U : UnicodeData} {ask : ℕ → AskPod} {timeout : ℚ} {podIp : Str} {n : ℕ}
  {board newBoard : Board} {moves : List Move} {rest : List (ℕ × Turn)}

theorem gameLoop_of_over {outcome : MatchOutcome}
    (hplay : playTurn U (ask (n + 1)) (mover n).symbol podIp board timeout =
      .ok (.accepted newBoard)) (hout : checkWinner newBoard = some outcome) :
    gameLoop U ask timeout board moves ((n + 1, ⟨mover n, (mover n).symbol, podIp⟩) :: rest) =
      .ok (some ⟨outcome, moves ++ [acceptedMove n newBoard]⟩) := by
  rw [gameLoop, hplay]
  simp only [bind, Except.bind, hout]
  rfl

theorem gameLoop_of_open
    (hplay : playTurn U (ask (n + 1)) (mover n).symbol podIp board timeout =
      .ok (.accepted newBoard)) (hout : checkWinner newBoard = none) :
    gameLoop U ask timeout board moves ((n + 1, ⟨mover n, (mover n).symbol, podIp⟩) :: rest) =
      gameLoop U ask timeout newBoard (moves ++ [acceptedMove n newBoard]) rest := by
  rw [gameLoop, hplay]
  simp only [bind, Except.bind, hout]
  rfl

theorem gameLoop_of_forfeit {error : PyValue}
    (hplay : playTurn U (ask (n + 1)) (mover n).symbol podIp board timeout =
      .ok (.forfeit error)) :
    gameLoop U ask timeout board moves ((n + 1, ⟨mover n, (mover n).symbol, podIp⟩) :: rest) =
      .ok (some ⟨forfeitLabel (mover n), moves ++ [forfeitMove n board error]⟩) := by
  rw [gameLoop, hplay]
  rfl

end Iteration

/-- One iteration of the loop on an undecided game: it returns a finished game,
lets an exception through, or goes on with an undecided game. -/
theorem gameLoop_step (U : UnicodeData) (ask : ℕ → AskPod) (timeout : ℚ) (ipX ipO : Str)
    {n : ℕ} {board : Board} {moves : List Move} (h : Played n board moves) :
    let run := gameLoop U ask timeout board moves ((matchTurns ipX ipO).drop n)
    let exchange := ask (n + 1) (moverIp ipX ipO n) (mover n).symbol.text (boardToStr board) timeout
    (∃ m, run = .ok (some m) ∧ Finished m) ∨
    ((∃ exc, run = .error exc) ∧ ¬Settled exchange) ∨
    (∃ newBoard, Played (n + 1) newBoard (moves ++ [acceptedMove n newBoard]) ∧
      run = gameLoop U ask timeout newBoard (moves ++ [acceptedMove n newBoard])
        ((matchTurns ipX ipO).drop (n + 1))) := by
  intro run exchange
  have hrun : run = gameLoop U ask timeout board moves
      ((n + 1, ⟨mover n, (mover n).symbol, moverIp ipX ipO n⟩) ::
        (matchTurns ipX ipO).drop (n + 1)) := by
    rw [← matchTurns_drop ipX ipO h.lt_nine]
  rcases playTurn_cases U (ask (n + 1)) (mover n) (moverIp ipX ipO n) board timeout with
    ⟨response, newBoard, _, hdel, hplay⟩ | ⟨⟨error, hplay, herror⟩, _, _⟩ | ⟨⟨exc, hplay⟩, hnot⟩
  · have hadds : AddsOne (mover n).symbol board newBoard := hdel.2.elim fun _ ht => ht.2.2
    cases hout : checkWinner newBoard with
    | some outcome =>
        exact .inl ⟨_, hrun.trans (gameLoop_of_over hplay hout), h.finished hadds hout⟩
    | none =>
        obtain ⟨hlines, hopen⟩ := checkWinner_eq_none hout
        exact .inr (.inr ⟨newBoard, .turn h hadds hlines hopen,
          hrun.trans (gameLoop_of_open hplay hout)⟩)
  · exact .inl ⟨_, hrun.trans (gameLoop_of_forfeit hplay), .forfeit h herror⟩
  · refine .inr (.inl ⟨⟨exc, ?_⟩, hnot⟩)
    rw [hrun, gameLoop, hplay]
    rfl

/-- The loop returns a finished game unless an exchange fails in a way that
`_play_turn` does not catch; it never runs out of iterations. -/
theorem gameLoop_cases (U : UnicodeData) (ask : ℕ → AskPod) (timeout : ℚ) (ipX ipO : Str)
    {n : ℕ} {board : Board} {moves : List Move} (h : Played n board moves) :
    let run := gameLoop U ask timeout board moves ((matchTurns ipX ipO).drop n)
    (∃ m, run = .ok (some m) ∧ Finished m) ∨
      ((∃ exc, run = .error exc) ∧
        ∃ k podIp symbol text, ¬Settled (ask k podIp symbol text timeout)) := by
  -- the number of turns left decreases, since an undecided game has fewer than nine
  induction hleft : 9 - n generalizing n board moves with
  | zero =>
      have hlt := h.lt_nine
      omega
  | succ left ih =>
      rcases gameLoop_step U ask timeout ipX ipO h with
        hdone | ⟨hexc, hnot⟩ | ⟨newBoard, hnext, hrun⟩
      · exact .inl hdone
      · exact .inr ⟨hexc, _, _, _, _, hnot⟩
      · rw [hrun]
        exact ih hnext (by omega)

theorem runMatchFromPods_eq {U : UnicodeData} {coreV1 : CoreV1} {ask : ℕ → AskPod}
    {podNameX podNameO ipX ipO : Str} {turnTimeout : ℚ}
    (hx : getPodIp coreV1 podNameX = .ok ipX) (ho : getPodIp coreV1 podNameO = .ok ipO) :
    runMatchFromPods U coreV1 ask podNameX podNameO turnTimeout =
      gameLoop U ask turnTimeout emptyBoard [] (matchTurns ipX ipO) := by
  simp only [runMatchFromPods, hx, ho]
  rfl

theorem runMatchFromPods_finished {U : UnicodeData} {coreV1 : CoreV1} {ask : ℕ → AskPod}
    {podNameX podNameO : Str} {turnTimeout : ℚ} {r : Option MatchResult}
    (h : runMatchFromPods U coreV1 ask podNameX podNameO turnTimeout = .ok r) :
    ∃ m, r = some m ∧ Finished m := by
  obtain ⟨ipX, hx, hrest⟩ := exists_of_bind_eq_ok h
  obtain ⟨ipO, ho, -⟩ := exists_of_bind_eq_ok hrest
  rw [runMatchFromPods_eq hx ho] at h
  rcases gameLoop_cases U ask turnTimeout ipX ipO .start with
    ⟨m, hm, hfinished⟩ | ⟨⟨exc, hexc⟩, _⟩
  · rw [List.drop_zero, h, Except.ok.injEq] at hm
    exact ⟨m, hm, hfinished⟩
  · rw [List.drop_zero, h] at hexc
    exact absurd hexc (by simp)

end TictactoeBots
