import TictactoeBots.Dispatcher.Transcript

/-!
The positions that a match comes to, and the run of the game loop from there.
-/

namespace TictactoeBots

open Text Python

section Match

variable (U : UnicodeData) (ask : ℕ → AskPod) (timeout : ℚ) (ipX ipO : Str)

/-- The positions in which a run of the game loop asks for a move, with the
number of moves made and their records. -/
inductive Reached : ℕ → Board → List Move → Prop
  | start : Reached 0 emptyBoard []
  | turn {n : ℕ} {board newBoard : Board} {moves : List Move} :
      Reached n board moves →
        playTurn U (ask (n + 1)) (mover n).symbol (moverIp ipX ipO n) board timeout =
          .ok (.accepted newBoard) →
        checkWinner newBoard = none →
          Reached (n + 1) newBoard (moves ++ [acceptedMove n newBoard])

variable {U ask timeout ipX ipO}

theorem playTurn_accepted {ask : AskPod} {player : Player} {podIp : Str}
    {board newBoard : Board}
    (h : playTurn U ask player.symbol podIp board timeout = .ok (.accepted newBoard)) :
    AddsOne player.symbol board newBoard := by
  rcases playTurn_cases U ask player podIp board timeout with
    ⟨_, _, _, hdel, hplay⟩ | ⟨⟨error, hplay, _⟩, _⟩ | ⟨⟨exc, hplay⟩, _⟩
  · obtain ⟨_, text, _, _, hadds⟩ := hdel
    simp only [hplay, Except.ok.injEq, TurnOutcome.accepted.injEq] at h
    exact h ▸ hadds
  · simp [hplay] at h
  · simp [hplay] at h

theorem Reached.played {n : ℕ} {board : Board} {moves : List Move}
    (h : Reached U ask timeout ipX ipO n board moves) : Played n board moves := by
  induction h with
  | start => exact .start
  | turn _ hplay hout ih =>
      obtain ⟨hlines, hopen⟩ := checkWinner_eq_none hout
      exact .turn ih (playTurn_accepted hplay) hlines hopen

theorem Reached.run_eq {n : ℕ} {board : Board} {moves : List Move}
    (h : Reached U ask timeout ipX ipO n board moves) :
    gameLoop U ask timeout emptyBoard [] (matchTurns ipX ipO) =
      gameLoop U ask timeout board moves
        ((n + 1, ⟨mover n, (mover n).symbol, moverIp ipX ipO n⟩) ::
          (matchTurns ipX ipO).drop (n + 1)) := by
  rw [← matchTurns_drop ipX ipO h.played.lt_nine]
  induction h with
  | start => rw [List.drop_zero]
  | turn hreached hplay hout ih =>
      rw [ih, matchTurns_drop ipX ipO hreached.played.lt_nine, gameLoop_of_open hplay hout]

end Match

def failing (exc : PyException) : ℕ → Urlopen := fun _ _ _ => .error exc

end TictactoeBots
