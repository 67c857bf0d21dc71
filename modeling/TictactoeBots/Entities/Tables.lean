import TictactoeBots.Lib.Sql
import TictactoeBots.Dispatcher.MatchRunner

/-!
The three tables and the transactions that write to them.

A table is the list of its rows in insertion order. Ids come from sequences,
which a rolled back transaction does not turn back. A write returns the
database afterwards together with its outcome, so a failed one can be compared
with the state before it. Names are taken at any length, although the unique
index of PostgreSQL sets them a limit.
-/

namespace TictactoeBots

open Text Python

structure BotRow where
  id : ℕ
  baseName : Str
  versionedName : Str
  version : ℕ
  ownerToken : Str
  source : Option (List UInt8)
  pythonVersion : Str
  runtimeKey : Str
  podName : Option Str
  podReady : Bool
  submittedAt : ℕ
  deriving DecidableEq

structure MatchRow where
  id : ℕ
  botXId : ℕ
  botOId : ℕ
  winnerId : Option ℕ
  result : MatchOutcome
  correlationId : Option Str
  playedAt : ℕ

structure MoveRow where
  id : ℕ
  matchId : ℕ
  moveNumber : ℕ
  botId : ℕ
  boardState : Str
  error : Option Str

/-- The database. Each sequence holds the last id it gave out. -/
structure Db where
  bots : List BotRow
  matchRows : List MatchRow
  moveRows : List MoveRow
  botSeq : ℕ
  matchSeq : ℕ
  moveSeq : ℕ

def Db.empty : Db := ⟨[], [], [], 0, 0, 0⟩

/-- The texts a text column can hold: PostgreSQL has no U+0000, and a
surrogate has no UTF-8 encoding. -/
def storable (s : Str) : Bool :=
  s.all fun c => c.val != 0 && !(0xd800 ≤ c.val && c.val ≤ 0xdfff)

@[simp] theorem storable_append (s t : Str) :
    storable (s ++ t) = (storable s && storable t) := List.all_append

theorem storable_iff {s : Str} :
    storable s ↔ ∀ c ∈ s, c.val ≠ 0 ∧ ¬(0xd800 ≤ c.val ∧ c.val ≤ 0xdfff) := by
  unfold storable
  rw [List.all_eq_true]
  apply forall₂_congr
  intro c _
  rw [Bool.and_eq_true, bne_iff_ne, Bool.not_eq_true', Bool.and_eq_false_iff,
    decide_eq_false_iff_not, decide_eq_false_iff_not, not_and_or]

/-- A value bound to a nullable text column; `none` when the driver rejects it. -/
def textColumn : PyValue → Option (Option Str)
  | .null => some none
  | .str s => if storable s then some (some s) else none
  | _ => none

def dataError : PyException := ⟨.other (str "DBAPIError"), str "invalid input for query argument"⟩

def integrityError : PyException := ⟨.other (str "IntegrityError"), str "constraint violated"⟩

/-! ### `BotRepository.create` -/

/-- The arguments of `create`. -/
structure NewBot where
  baseName : Str
  versionedName : Str
  version : ℕ
  ownerToken : Str
  pythonVersion : Str
  runtimeKey : Str
  source : Option (List UInt8)

def NewBot.storable (new : NewBot) : Bool :=
  [new.baseName, new.versionedName, new.ownerToken, new.pythonVersion, new.runtimeKey].all
    TictactoeBots.storable

/-- The row an insert adds, with the defaults of the model for the rest. -/
def NewBot.row (new : NewBot) (id now : ℕ) : BotRow where
  id := id
  baseName := new.baseName
  versionedName := new.versionedName
  version := new.version
  ownerToken := new.ownerToken
  source := new.source
  pythonVersion := new.pythonVersion
  runtimeKey := new.runtimeKey
  podName := none
  podReady := false
  submittedAt := now

/-- Insert and commit; `versioned_name` is unique. -/
def Db.create (db : Db) (now : ℕ) (new : NewBot) : Db × Except PyException BotRow :=
  if !new.storable then (db, .error dataError)
  else
    let id := db.botSeq + 1
    if db.bots.any fun bot => bot.versionedName == new.versionedName then
      ({ db with botSeq := id }, .error integrityError)
    else
      ({ db with botSeq := id, bots := db.bots ++ [new.row id now] }, .ok (new.row id now))

/-- The insert meets no objection of the driver or of the unique constraint. -/
def Db.Admits (db : Db) (new : NewBot) : Prop :=
  new.storable ∧ ∀ bot ∈ db.bots, bot.versionedName ≠ new.versionedName

theorem Db.create_cases (db : Db) (now : ℕ) (new : NewBot) :
    (¬db.Admits new ∧ ∃ exc seq, db.botSeq ≤ seq ∧
      db.create now new = ({ db with botSeq := seq }, .error exc)) ∨
    (db.Admits new ∧
      db.create now new =
        ({ db with
            botSeq := db.botSeq + 1
            bots := db.bots ++ [new.row (db.botSeq + 1) now] },
          .ok (new.row (db.botSeq + 1) now))) := by
  unfold Db.create
  split
  · rename_i hstorable
    refine .inl ⟨fun hadmits => ?_, _, db.botSeq, le_rfl, rfl⟩
    simp [hadmits.1] at hstorable
  · rename_i hstorable
    simp only
    split
    · rename_i htaken
      refine .inl ⟨fun hadmits => ?_, _, db.botSeq + 1, Nat.le_succ _, rfl⟩
      obtain ⟨bot, hbot, heq⟩ := List.any_eq_true.1 htaken
      exact hadmits.2 bot hbot (by simpa using heq)
    · rename_i hfree
      exact .inr ⟨⟨by simpa using hstorable, by simpa using hfree⟩, rfl⟩

/-! ### `MatchRepository.record` -/

def winnerIdFor (result : MatchOutcome) (botXId botOId : ℕ) : Option ℕ :=
  if result ∈ [.xWins, .oForfeit] then some botXId
  else if result ∈ [.oWins, .xForfeit] then some botOId
  else none

def Db.hasBot (db : Db) (id : ℕ) : Bool := db.bots.any fun bot => bot.id == id

/-- The row of one move; `none` when the driver rejects one of its values. -/
def moveRow (matchId botXId botOId id : ℕ) (move : Move) : Option MoveRow := do
  let error ← textColumn move.error
  if !storable move.board then none
  return {
    id := id
    matchId := matchId
    moveNumber := move.moveNumber
    botId := if move.player = .x then botXId else botOId
    boardState := move.board
    error := error }

/-- The match and all of its moves in one transaction. -/
def Db.record (db : Db) (now botXId botOId : ℕ) (result : MatchResult) (correlationId : Str) :
    Db × Except PyException Unit :=
  let winnerId := winnerIdFor result.result botXId botOId
  if !storable correlationId then (db, .error dataError)
  else
    let matchId := db.matchSeq + 1
    let row : MatchRow :=
      ⟨matchId, botXId, botOId, winnerId, result.result, some correlationId, now⟩
    -- the flush that populates `match.id`
    if !(db.hasBot botXId && db.hasBot botOId) then
      ({ db with matchSeq := matchId }, .error integrityError)
    else
      let rows := (result.moves.zipIdx 1).mapM fun (move, i) =>
        moveRow matchId botXId botOId (db.moveSeq + i) move
      match rows with
      | none => ({ db with matchSeq := matchId }, .error dataError)
      | some rows =>
          ({ db with
              matchSeq := matchId
              matchRows := db.matchRows ++ [row]
              moveRows := db.moveRows ++ rows
              moveSeq := db.moveSeq + rows.length }, .ok ())

theorem Db.record_cases (db : Db) (now botXId botOId : ℕ) (result : MatchResult)
    (correlationId : Str) :
    ((∃ exc, (db.record now botXId botOId result correlationId).2 = .error exc) ∧
      (db.record now botXId botOId result correlationId).1.matchRows = db.matchRows) ∨
    ((db.record now botXId botOId result correlationId).2 = .ok () ∧
      db.hasBot botXId ∧ db.hasBot botOId ∧
      (db.record now botXId botOId result correlationId).1.matchRows =
        db.matchRows ++ [⟨db.matchSeq + 1, botXId, botOId,
          winnerIdFor result.result botXId botOId, result.result, some correlationId, now⟩]) := by
  unfold Db.record
  simp only
  split
  · exact .inl ⟨⟨_, rfl⟩, rfl⟩
  · split
    · exact .inl ⟨⟨_, rfl⟩, rfl⟩
    · rename_i hbots
      split
      · exact .inl ⟨⟨_, rfl⟩, rfl⟩
      · simp only [Bool.not_eq_true, Bool.not_eq_false', Bool.and_eq_true] at hbots
        exact .inr ⟨rfl, hbots.1, hbots.2, rfl⟩

theorem Db.record_bots (db : Db) (now botXId botOId : ℕ) (result : MatchResult)
    (correlationId : Str) :
    (db.record now botXId botOId result correlationId).1.bots = db.bots := by
  unfold Db.record
  simp only
  split_ifs <;> try rfl
  split <;> rfl

def twoBots : Db :=
  let db := (Db.empty.create 0
    ⟨str "Foo", str "Foo", 1, str "token", str "3.14", str "python-3.14", none⟩).1
  (db.create 0 ⟨str "Bar", str "Bar", 1, str "token", str "3.14", str "python-3.14", none⟩).1

end TictactoeBots
