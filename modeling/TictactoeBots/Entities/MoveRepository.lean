import TictactoeBots.Entities.Recording
import TictactoeBots.Lib.Sql

/-!
`MoveRepository.for_match`, and what the rows it returns tell about the match.

The query orders its rows by the move number. The database may read its tables
in any order; as the moves of a match are numbered, the result does not depend
on it.
-/

namespace TictactoeBots

open Text Python

structure ForMatchRow where
  moveNumber : ℕ
  boardState : Str
  error : Option Str
  botName : Str
  deriving DecidableEq

/-- `bots` and `moves` are the tables in the order in which they are read. -/
def forMatch (bots : List BotRow) (moves : List MoveRow) (matchId : ℕ) : List ForMatchRow :=
  let joined := Sql.join moves bots fun move bot => Sql.eq (some bot.id) (some move.botId)
  let kept := Sql.select joined fun row => Sql.eq (some row.1.matchId) (some matchId)
  (Sql.orderBy kept fun row => row.1.moveNumber).map fun row =>
    ⟨row.1.moveNumber, row.1.boardState, row.1.error, row.2.versionedName⟩

/-! ### The schema -/

/-- What the keys of the schema and the sequences guarantee: bot ids are
unique, no match has an id that is still to be given out, and every move belongs
to a match. -/
structure Db.Constrained (db : Db) : Prop where
  bot_ids : (db.bots.map BotRow.id).Nodup
  match_ids : ∀ m ∈ db.matchRows, m.id ≤ db.matchSeq
  move_match : ∀ move ∈ db.moveRows, move.matchId ∈ db.matchRows.map MatchRow.id

theorem Db.Constrained.move_le {db : Db} (h : db.Constrained) {move : MoveRow}
    (hmove : move ∈ db.moveRows) : move.matchId ≤ db.matchSeq := by
  obtain ⟨m, hm, hid⟩ := List.mem_map.1 (h.move_match move hmove)
  rw [← hid]
  exact h.match_ids m hm

/-! ### The moves of one match -/

theorem forMatch_eq {bots : List BotRow} {moves sorted : List MoveRow} {matchId : ℕ}
    (botOf : MoveRow → BotRow) (hids : (bots.map BotRow.id).Nodup)
    (hperm : (moves.filter fun move => move.matchId = matchId).Perm sorted)
    (hsorted : sorted.Pairwise fun a b => a.moveNumber < b.moveNumber)
    (hbots : ∀ move ∈ sorted, botOf move ∈ bots ∧ (botOf move).id = move.botId) :
    forMatch bots moves matchId = sorted.map fun move =>
      ⟨move.moveNumber, move.boardState, move.error, (botOf move).versionedName⟩ := by
  have hkept : Sql.select
      (Sql.join moves bots fun move bot => Sql.eq (some bot.id) (some move.botId))
      (fun row => Sql.eq (some row.1.matchId) (some matchId)) =
        (moves.filter fun move => move.matchId = matchId).map fun move => (move, botOf move) := by
    have hselect : Sql.select moves (fun move => Sql.eq (some move.matchId) (some matchId)) =
        moves.filter fun move => move.matchId = matchId := by
      simp [Sql.select]
    rw [Sql.select_join_left moves bots _ fun move => Sql.eq (some move.matchId) (some matchId),
      hselect, Sql.join_key (fun move => some (botOf move)) hids]
    · simp
    · intro move hmove
      obtain ⟨hmem, hid⟩ := hbots move (hperm.subset hmove)
      simp [hmem, hid]
  have horder : Sql.orderBy
      ((moves.filter fun move => move.matchId = matchId).map fun move => (move, botOf move))
      (fun row => row.1.moveNumber) = sorted.map fun move => (move, botOf move) :=
    Sql.orderBy_eq_of_perm (hperm.map _) (List.pairwise_map.2 hsorted)
  rw [forMatch]
  simp only [hkept, horder, List.map_map]
  rfl

/-! ### The winner, from the moves alone -/

def ForMatchRow.mover (row : ForMatchRow) : Player := if row.moveNumber % 2 = 1 then .x else .o

/-- The side that the moves show to have won: the other side where the last
move carries an error, the last mover where it completes a line. -/
def winningSide (rows : List ForMatchRow) : Option Player :=
  match rows.getLast? with
  | none => none
  | some last =>
      match last.error with
      | some _ => some last.mover.other
      | none =>
          match parseBoard last.boardState with
          | some board => if HasLine board last.mover then some last.mover else none
          | none => none

theorem winningSide_of_error (rows : List ForMatchRow) {last : ForMatchRow} {text : Str}
    (h : last.error = some text) : winningSide (rows ++ [last]) = some last.mover.other := by
  rw [winningSide, List.getLast?_concat]
  simp only [h]

theorem winningSide_of_board (rows : List ForMatchRow) {last : ForMatchRow} {board : Board}
    (herror : last.error = none) (hboard : parseBoard last.boardState = some board) :
    winningSide (rows ++ [last]) = if HasLine board last.mover then some last.mover else none := by
  rw [winningSide, List.getLast?_concat]
  simp only [herror, hboard]

/-- The moves end in an error-free ninth one that completes no line. -/
def EndsFull (rows : List ForMatchRow) : Prop :=
  ∃ last board, rows.getLast? = some last ∧ last.moveNumber = 9 ∧ last.error = none ∧
    parseBoard last.boardState = some board ∧ ∀ p, ¬HasLine board p

end TictactoeBots
