import TictactoeBots.Entities.Tables

/-!
`MatchRepository.record` statement by statement, any of its inserts failing.

The inserts go into a working copy of the tables. The commit makes the copy the
database; an exception leaves the session without a commit, so that the copy is
thrown away and only the sequences have moved on. Without faults this is the
`record` of the tables.
-/

namespace TictactoeBots

open Text Python

/-- The database as the other sessions see it, and as the transaction has made it. -/
structure Transaction where
  committed : Db
  working : Db

/-- The rows of before; a sequence does not go back. -/
def Transaction.rollback (t : Transaction) : Db :=
  { t.committed with matchSeq := t.working.matchSeq, moveSeq := t.working.moveSeq }

def Transaction.commit (t : Transaction) : Db := t.working

/-- Which inserts raise an exception of the server: that of the match, and those
of the moves by their index. -/
structure RecordFaults where
  insertMatch : Option PyException
  insertMove : ℕ → Option PyException

def RecordFaults.none : RecordFaults := ⟨Option.none, fun _ => Option.none⟩

def insertMoves (faults : RecordFaults) (working : Db) (i : ℕ) :
    List MoveRow → Db × Except PyException Unit
  | [] => (working, .ok ())
  | row :: rows =>
      match faults.insertMove i with
      | some exc => (working, .error exc)
      | none =>
          insertMoves faults
            { working with
              moveRows := working.moveRows ++ [row]
              moveSeq := working.moveSeq + 1 } (i + 1) rows

/-- `record`, with the statements that it sends in their order. -/
def recordTransaction (faults : RecordFaults) (db : Db) (now botXId botOId : ℕ)
    (result : MatchResult) (correlationId : Str) : Db × Except PyException Unit :=
  let winnerId := winnerIdFor result.result botXId botOId
  if !storable correlationId then (db, .error dataError)
  else
    let matchId := db.matchSeq + 1
    let row : MatchRow :=
      ⟨matchId, botXId, botOId, winnerId, result.result, some correlationId, now⟩
    let numbered := { db with matchSeq := matchId }
    if !(db.hasBot botXId && db.hasBot botOId) then
      ((Transaction.mk db numbered).rollback, .error integrityError)
    else
      match faults.insertMatch with
      | some exc => ((Transaction.mk db numbered).rollback, .error exc)
      | none =>
          let flushed := { numbered with matchRows := db.matchRows ++ [row] }
          -- the driver looks at all the values before it sends the statement
          match (result.moves.zipIdx 1).mapM fun (move, i) =>
              moveRow matchId botXId botOId (db.moveSeq + i) move with
          | none => ((Transaction.mk db flushed).rollback, .error dataError)
          | some rows =>
              match insertMoves faults flushed 0 rows with
              | (working, .error exc) => ((Transaction.mk db working).rollback, .error exc)
              | (working, .ok ()) => ((Transaction.mk db working).commit, .ok ())

/-! ### The inserts -/

theorem insertMoves_ok {faults : RecordFaults} {rows : List MoveRow} {working after : Db} {i : ℕ}
    (h : insertMoves faults working i rows = (after, .ok ())) :
    after = { working with
      moveRows := working.moveRows ++ rows
      moveSeq := working.moveSeq + rows.length } := by
  induction rows generalizing working i with
  | nil => simpa [insertMoves] using (congrArg Prod.fst h).symm
  | cons row rows ih =>
      rw [insertMoves] at h
      split at h
      · exact absurd (congrArg Prod.snd h) (by simp)
      · rw [ih h]
        simp only [List.append_assoc, List.singleton_append, List.length_cons]
        congr 1
        omega

theorem insertMoves_of_noFaults {faults : RecordFaults} (hnone : ∀ i, faults.insertMove i = none)
    (rows : List MoveRow) (working : Db) (i : ℕ) :
    (insertMoves faults working i rows).2 = .ok () := by
  induction rows generalizing working i with
  | nil => rfl
  | cons row rows ih =>
      rw [insertMoves, hnone]
      exact ih _ _

/-! ### The whole transaction -/

/-- Everything the transaction can do: raise, with every row as it was, or
commit what the `record` of the tables writes. -/
theorem recordTransaction_cases (faults : RecordFaults) (db : Db) (now botXId botOId : ℕ)
    (result : MatchResult) (correlationId : Str) :
    let run := recordTransaction faults db now botXId botOId result correlationId
    ((∃ exc, run.2 = .error exc) ∧ run.1.matchRows = db.matchRows ∧
      run.1.moveRows = db.moveRows ∧ run.1.bots = db.bots) ∨
    (run.2 = .ok () ∧ run = db.record now botXId botOId result correlationId) := by
  unfold recordTransaction Db.record
  simp only
  split_ifs with hstorable hbots
  · exact .inl ⟨⟨_, rfl⟩, rfl, rfl, rfl⟩
  · exact .inl ⟨⟨_, rfl⟩, rfl, rfl, rfl⟩
  · cases faults.insertMatch with
    | some exc => exact .inl ⟨⟨_, rfl⟩, rfl, rfl, rfl⟩
    | none =>
        cases (result.moves.zipIdx 1).mapM fun (move, i) =>
            moveRow (db.matchSeq + 1) botXId botOId (db.moveSeq + i) move with
        | none => exact .inl ⟨⟨_, rfl⟩, rfl, rfl, rfl⟩
        | some rows =>
            simp only
            split
            · exact .inl ⟨⟨_, rfl⟩, rfl, rfl, rfl⟩
            · rename_i working hmoves
              exact .inr ⟨rfl, by rw [Transaction.commit, insertMoves_ok hmoves]⟩

theorem recordTransaction_none (db : Db) (now botXId botOId : ℕ) (result : MatchResult)
    (correlationId : Str) :
    recordTransaction .none db now botXId botOId result correlationId =
      db.record now botXId botOId result correlationId := by
  unfold recordTransaction Db.record
  simp only
  split_ifs with hstorable hbots
  · rfl
  · rfl
  · simp only [RecordFaults.none]
    cases (result.moves.zipIdx 1).mapM fun (move, i) =>
        moveRow (db.matchSeq + 1) botXId botOId (db.moveSeq + i) move with
    | none => rfl
    | some rows =>
        simp only
        split
        · rename_i hmoves
          have hok := congrArg Prod.snd hmoves
          rw [insertMoves_of_noFaults fun _ => rfl] at hok
          exact absurd hok (by simp)
        · rename_i hmoves
          rw [Transaction.commit, insertMoves_ok hmoves]

end TictactoeBots
