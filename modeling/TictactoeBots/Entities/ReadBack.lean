import TictactoeBots.Dispatcher.ReachedPositions
import TictactoeBots.Runner.BoardText
import TictactoeBots.Entities.MoveRepository
import TictactoeBots.Entities.Transactions

/-!
Recording a match and reading it back.

The game loop numbers its moves from one, so the order of the query is the order
in which they were made; each row carries the bot that played the side of its
move. What the row of the match says about the winner can be seen from the last
of the moves.
-/

namespace TictactoeBots

open Text Python StepSystem

/-! ### The numbers of the moves -/

theorem Played.moveNumbers {n : ℕ} {board : Board} {moves : List Move}
    (h : Played n board moves) : moves.map Move.moveNumber = List.range' 1 n := by
  induction h with
  | start => rfl
  | turn _ _ _ _ ih =>
      rw [List.map_append, ih, List.range'_concat, Nat.one_mul, Nat.add_comm]
      rfl

theorem Played.moveNumbers_append {n : ℕ} {board : Board} {moves : List Move} {move : Move}
    (h : Played n board moves) (hmove : move.moveNumber = n + 1) :
    (moves ++ [move]).map Move.moveNumber = List.range' 1 (n + 1) := by
  rw [List.map_append, h.moveNumbers, List.range'_concat, Nat.one_mul, Nat.add_comm 1 n, ← hmove]
  rfl

theorem Finished.moveNumbers {m : MatchResult} (h : Finished m) :
    ∃ n, m.moves.map Move.moveNumber = List.range' 1 n := by
  cases h with
  | forfeit hplayed _ => exact ⟨_, hplayed.moveNumbers_append rfl⟩
  | line hplayed _ _ => exact ⟨_, hplayed.moveNumbers_append rfl⟩
  | full hplayed _ _ => exact ⟨_, hplayed.moveNumbers_append rfl⟩

/-! ### The rows of the moves -/

def moveDetail (botX botO : BotRow) (move : Move) : ForMatchRow where
  moveNumber := move.moveNumber
  boardState := move.board
  error := (textColumn move.error).join
  botName := (if move.player = .x then botX else botO).versionedName

theorem moveRow_eq_some {matchId botXId botOId id : ℕ} {move : Move} {row : MoveRow}
    (h : moveRow matchId botXId botOId id move = some row) :
    textColumn move.error = some row.error ∧
      row = ⟨id, matchId, move.moveNumber, if move.player = .x then botXId else botOId,
        move.board, row.error⟩ := by
  unfold moveRow at h
  obtain ⟨error, herror, h⟩ := Option.bind_eq_some_iff.1 h
  by_cases hboard : storable move.board = true
  · simp only [hboard, Bool.not_true, Bool.false_eq_true, if_false] at h
    rw [← Option.some.inj h]
    exact ⟨herror, rfl⟩
  · simp only [hboard, Bool.not_false, if_true] at h
    cases h

theorem map_eq_of_mapM {α β γ : Type} {f : α → Option β} {g : β → γ} {h : α → γ}
    (hfg : ∀ a b, f a = some b → g b = h a) :
    ∀ {l : List α} {l' : List β}, l.mapM f = some l' → l'.map g = l.map h
  | [], l', hl => by
      rw [List.mapM_nil] at hl
      rw [← Option.some.inj hl]
      rfl
  | a :: l, l', hl => by
      rw [List.mapM_cons] at hl
      obtain ⟨b, hb, hl⟩ := Option.bind_eq_some_iff.1 hl
      obtain ⟨rest, hrest, hl⟩ := Option.bind_eq_some_iff.1 hl
      rw [← Option.some.inj hl, List.map_cons, List.map_cons, hfg a b hb, map_eq_of_mapM hfg hrest]

theorem Db.record_ok {db : Db} {now botXId botOId : ℕ} {result : MatchResult}
    {correlationId : Str}
    (h : (db.record now botXId botOId result correlationId).2 = .ok ()) :
    ∃ rows, ((result.moves.zipIdx 1).mapM fun (move, i) =>
        moveRow (db.matchSeq + 1) botXId botOId (db.moveSeq + i) move) = some rows ∧
      (db.record now botXId botOId result correlationId).1 =
        { db with
          matchSeq := db.matchSeq + 1
          matchRows := db.matchRows ++ [⟨db.matchSeq + 1, botXId, botOId,
            winnerIdFor result.result botXId botOId, result.result, some correlationId, now⟩]
          moveRows := db.moveRows ++ rows
          moveSeq := db.moveSeq + rows.length } := by
  unfold Db.record at h ⊢
  simp only at h ⊢
  split_ifs at h ⊢
  split at h
  · exact absurd h (by simp)
  · rename_i rows hrows
    exact ⟨rows, hrows, rfl⟩

/-! ### The winner -/

theorem mover_moveDetail {botX botO : BotRow} {move : Move} {n : ℕ}
    (hnumber : move.moveNumber = n + 1) : (moveDetail botX botO move).mover = mover n := by
  have hrow : (moveDetail botX botO move).moveNumber = n + 1 := hnumber
  rw [ForMatchRow.mover, hrow, mover]
  rcases Nat.mod_two_eq_zero_or_one n with hn | hn
  · rw [if_pos (by omega), if_pos hn]
  · rw [if_neg (by omega), if_neg (by omega)]

theorem parseBoard_moveDetail {botX botO : BotRow} (n : ℕ) (board : Board) :
    parseBoard (moveDetail botX botO (acceptedMove n board)).boardState = some board := by
  have htext : (moveDetail botX botO (acceptedMove n board)).boardState = boardToStr board := rfl
  rw [htext, parseBoard_boardToStr]

theorem winningSide_accepted {botX botO : BotRow} (n : ℕ) (board : Board) (moves : List Move) :
    winningSide ((moves ++ [acceptedMove n board]).map (moveDetail botX botO)) =
      if HasLine board (mover n) then some (mover n) else none := by
  have hmover : (moveDetail botX botO (acceptedMove n board)).mover = mover n :=
    mover_moveDetail rfl
  have herror : (moveDetail botX botO (acceptedMove n board)).error = none := rfl
  rw [List.map_append, List.map_singleton,
    winningSide_of_board _ herror (parseBoard_moveDetail n board), hmover]

theorem error_of_stored {botX botO : BotRow} {move : Move} (herror : truthy move.error)
    (hstored : (textColumn move.error).isSome) :
    ∃ text, text ≠ [] ∧ (moveDetail botX botO move).error = some text := by
  rw [moveDetail]
  cases hcase : move.error with
  | str s =>
      rw [hcase, textColumn] at hstored
      rw [hcase] at herror
      split at hstored
      · rename_i hstorable
        exact ⟨s, by simpa using herror, by simp [textColumn, hstorable]⟩
      · exact absurd hstored (by simp)
  | null =>
      rw [hcase] at herror
      exact absurd herror (by simp)
  | bool _ | num _ | arr _ | obj _ =>
      rw [hcase] at hstored
      exact absurd hstored (by simp [textColumn])

theorem Finished.winner {m : MatchResult} (h : Finished m) (botX botO : BotRow)
    (hstored : ∀ move ∈ m.moves, (textColumn move.error).isSome) :
    let rows := m.moves.map (moveDetail botX botO)
    winnerIdFor m.result botX.id botO.id =
        (winningSide rows).map (fun p => if p = .x then botX.id else botO.id) ∧
      (winningSide rows = none → EndsFull rows) := by
  cases h with
  | @forfeit n board moves error hplayed herror =>
      obtain ⟨text, -, htext⟩ :=
        error_of_stored herror (hstored (forfeitMove n board error) (by simp))
      have hside : winningSide ((moves ++ [forfeitMove n board error]).map
          (moveDetail botX botO)) = some (mover n).other := by
        rw [List.map_append, List.map_singleton, winningSide_of_error _ htext, mover_moveDetail rfl]
      simp only [hside]
      refine ⟨?_, fun hnone => absurd hnone (by simp)⟩
      cases mover n <;> rfl
  | @line n board newBoard moves hplayed hadds hline =>
      have hside := @winningSide_accepted botX botO n newBoard moves
      rw [if_pos hline] at hside
      simp only [hside]
      refine ⟨?_, fun hnone => absurd hnone (by simp)⟩
      cases mover n <;> rfl
  | @full board newBoard moves hplayed hadds hlines =>
      have hside := @winningSide_accepted botX botO 8 newBoard moves
      rw [if_neg (hlines _)] at hside
      simp only [hside]
      refine ⟨rfl, fun _ => ⟨moveDetail botX botO (acceptedMove 8 newBoard), newBoard, ?_, rfl, rfl,
        parseBoard_moveDetail 8 newBoard, hlines⟩⟩
      rw [List.map_append, List.map_singleton, List.getLast?_concat]

/-! ### Recording and reading back -/

/-- `row` is a new match, its moves are read back as the result has them, its
winner shows in them, and nothing else has changed. -/
structure StoredMatch (db after : Db) (botX botO : BotRow) (m : MatchResult) (row : MatchRow) :
    Prop where
  added : after.matchRows = db.matchRows ++ [row]
  fresh : ∀ old ∈ db.matchRows, old.id ≠ row.id
  sides : row.botXId = botX.id ∧ row.botOId = botO.id
  result : row.result = m.result
  readBack : ∀ bots moves, bots.Perm after.bots → moves.Perm after.moveRows →
    forMatch bots moves row.id = m.moves.map (moveDetail botX botO)
  winner : row.winnerId = (winningSide (m.moves.map (moveDetail botX botO))).map
    fun p => if p = .x then botX.id else botO.id
  undecided : row.winnerId = none → EndsFull (m.moves.map (moveDetail botX botO))
  otherMoves : after.moveRows.filter (fun move => move.matchId ≠ row.id) = db.moveRows
  bots : after.bots = db.bots

def sideBot (botX botO : BotRow) (row : MoveRow) : BotRow :=
  if row.botId = botX.id then botX else botO

section Rows

variable {db : Db} {botX botO : BotRow} {moves : List Move} {rows : List MoveRow}

theorem map_rows {γ : Type} {matchId botXId botOId seq : ℕ} {g : MoveRow → γ} {h : Move → γ}
    (hgh : ∀ id move row, moveRow matchId botXId botOId id move = some row → g row = h move)
    (hrows : ((moves.zipIdx 1).mapM fun (move, i) =>
      moveRow matchId botXId botOId (seq + i) move) = some rows) :
    rows.map g = moves.map h := by
  rw [map_eq_of_mapM (h := fun p => h p.1) (fun p row hrow => hgh _ p.1 row hrow) hrows]
  conv_rhs => rw [← List.zipIdx_map_fst 1 moves, List.map_map]
  rfl

theorem matchId_of_mem {matchId botXId botOId seq : ℕ}
    (hrows : ((moves.zipIdx 1).mapM fun (move, i) =>
      moveRow matchId botXId botOId (seq + i) move) = some rows) {row : MoveRow}
    (hrow : row ∈ rows) : row.matchId = matchId := by
  have hmap := map_rows (g := MoveRow.matchId) (h := fun _ => matchId)
    (fun id move row h => by rw [(moveRow_eq_some h).2]) hrows
  have hmem : row.matchId ∈ rows.map MoveRow.matchId := List.mem_map_of_mem hrow
  rw [hmap] at hmem
  obtain ⟨_, _, heq⟩ := List.mem_map.1 hmem
  exact heq.symm

variable (hrows : ((moves.zipIdx 1).mapM fun (move, i) =>
  moveRow (db.matchSeq + 1) botX.id botO.id (db.moveSeq + i) move) = some rows)

include hrows

theorem sideBot_id {row : MoveRow} (hrow : row ∈ rows) :
    (sideBot botX botO row).id = row.botId := by
  have hmap := map_rows (g := MoveRow.botId)
    (h := fun move => if move.player = .x then botX.id else botO.id)
    (fun id move row h => by rw [(moveRow_eq_some h).2]) hrows
  have hmem : row.botId ∈ rows.map MoveRow.botId := List.mem_map_of_mem hrow
  rw [hmap] at hmem
  obtain ⟨move, _, heq⟩ := List.mem_map.1 hmem
  rw [sideBot, ← heq]
  by_cases hx : (if move.player = .x then botX.id else botO.id) = botX.id
  · rw [if_pos hx, hx]
  · have hplayer : move.player ≠ .x := fun h => hx (if_pos h)
    rw [if_neg hx, if_neg hplayer]

theorem details_of_rows (hsame : botO.id = botX.id → botO = botX) :
    rows.map (fun row => ForMatchRow.mk row.moveNumber row.boardState row.error
      (sideBot botX botO row).versionedName) = moves.map (moveDetail botX botO) := by
  refine map_rows (fun id move row h => ?_) hrows
  obtain ⟨herror, heq⟩ := moveRow_eq_some h
  have hname : sideBot botX botO row = if move.player = .x then botX else botO := by
    rw [sideBot, heq]
    by_cases hplayer : move.player = .x
    · rw [if_pos hplayer, if_pos rfl, if_pos hplayer]
    · rw [if_neg hplayer, if_neg hplayer]
      split
      · rename_i hid
        exact (hsame hid).symm
      · rfl
  rw [moveDetail, herror, Option.join_some, hname, heq]

theorem sorted_rows {n : ℕ} (hnumbers : moves.map Move.moveNumber = List.range' 1 n) :
    rows.Pairwise fun a b => a.moveNumber < b.moveNumber := by
  have hmap := map_rows (g := MoveRow.moveNumber) (h := Move.moveNumber)
    (fun id move row h => by rw [(moveRow_eq_some h).2]) hrows
  have hsorted : (rows.map MoveRow.moveNumber).Pairwise (· < ·) := by
    rw [hmap, hnumbers]
    exact List.pairwise_lt_range'
  exact List.pairwise_map.1 hsorted

theorem stored_of_rows : ∀ move ∈ moves, (textColumn move.error).isSome := by
  have hmap := map_rows (g := fun row => some row.error) (h := fun move => textColumn move.error)
    (fun id move row h => (moveRow_eq_some h).1.symm) hrows
  intro move hmove
  have hmem : textColumn move.error ∈ moves.map fun move => textColumn move.error :=
    List.mem_map_of_mem hmove
  rw [← hmap] at hmem
  obtain ⟨row, _, heq⟩ := List.mem_map.1 hmem
  simp [← heq]

end Rows

theorem storedMatch_of_record {db : Db} (hdb : db.Constrained) {m : MatchResult}
    (hfinished : Finished m) {now : ℕ} {botX botO : BotRow} (hx : botX ∈ db.bots)
    (ho : botO ∈ db.bots) {correlationId : Str}
    (hok : (db.record now botX.id botO.id m correlationId).2 = .ok ()) :
    ∃ row, StoredMatch db (db.record now botX.id botO.id m correlationId).1 botX botO m row := by
  obtain ⟨rows, hrows, hafter⟩ := Db.record_ok hok
  obtain ⟨n, hnumbers⟩ := hfinished.moveNumbers
  obtain ⟨hwinner, hundecided⟩ := hfinished.winner botX botO (stored_of_rows hrows)
  have hsame : botO.id = botX.id → botO = botX := fun hid =>
    List.inj_on_of_nodup_map hdb.bot_ids ho hx hid
  have hold : ∀ move ∈ db.moveRows, move.matchId ≠ db.matchSeq + 1 := fun move hmove => by
    have hle := hdb.move_le hmove
    omega
  refine ⟨⟨db.matchSeq + 1, botX.id, botO.id, winnerIdFor m.result botX.id botO.id, m.result,
    some correlationId, now⟩, ?_⟩
  rw [hafter]
  constructor
  · rfl
  · intro old hmem
    have hle := hdb.match_ids old hmem
    simp only
    omega
  · exact ⟨rfl, rfl⟩
  · rfl
  · intro bots moves hbots hmoves
    have hnew : (db.moveRows ++ rows).filter (fun move => move.matchId = db.matchSeq + 1) =
        rows := by
      rw [List.filter_append, List.filter_eq_nil_iff.2 (by simpa using hold),
        List.filter_eq_self.2 (by simpa using fun row => matchId_of_mem hrows), List.nil_append]
    have hperm := hmoves.filter fun move => decide (move.matchId = db.matchSeq + 1)
    rw [hnew] at hperm
    rw [forMatch_eq (sideBot botX botO) ((hbots.map BotRow.id).nodup_iff.2 hdb.bot_ids) hperm
      (sorted_rows hrows hnumbers) ?_, details_of_rows hrows hsame]
    refine fun row hrow => ⟨hbots.symm.subset ?_, sideBot_id hrows hrow⟩
    rw [sideBot]
    split
    · exact hx
    · exact ho
  · exact hwinner
  · intro hnone
    apply hundecided
    rw [hwinner] at hnone
    exact Option.map_eq_none_iff.1 hnone
  · rw [List.filter_append, List.filter_eq_self.2 (by simpa using hold),
      List.filter_eq_nil_iff.2 (by simpa using fun row => matchId_of_mem hrows), List.append_nil]
  · rfl

/-- A match that the game loop has returned, between two bots of any database,
is stored so that it can be read back without loss; or an insert fails, and
nothing of it is stored. -/
theorem record_lossless (U : UnicodeData) (coreV1 : CoreV1) (ask : ℕ → AskPod)
    (podNameX podNameO : Str) (turnTimeout : ℚ) (faults : RecordFaults) (db : Db) (now : ℕ)
    (botX botO : BotRow) (m : MatchResult) (correlationId : Str)
    (hrun : runMatchFromPods U coreV1 ask podNameX podNameO turnTimeout = .ok (some m))
    (hdb : db.Constrained) (hx : botX ∈ db.bots) (ho : botO ∈ db.bots) :
    let run := recordTransaction faults db now botX.id botO.id m correlationId
    (run.2 = .ok () → ∃ row, StoredMatch db run.1 botX botO m row) ∧
    (∀ exc, run.2 = .error exc →
      run.1.matchRows = db.matchRows ∧ run.1.moveRows = db.moveRows) := by
  obtain ⟨m', hm, hfinished⟩ := runMatchFromPods_finished hrun
  obtain rfl := Option.some.inj hm
  simp only
  rcases recordTransaction_cases faults db now botX.id botO.id m correlationId with
    ⟨⟨exc, hexc⟩, hmatches, hmoves, _⟩ | ⟨hok, heq⟩
  · refine ⟨fun hok => ?_, fun _ _ => ⟨hmatches, hmoves⟩⟩
    rw [hexc] at hok
    cases hok
  · refine ⟨fun _ => ?_, fun exc hexc => ?_⟩
    · rw [heq] at hok ⊢
      exact storedMatch_of_record hdb hfinished hx ho hok
    · rw [hok] at hexc
      cases hexc

/-! ### The databases of the program -/

theorem Db.le_record_matchSeq (db : Db) (now botXId botOId : ℕ) (result : MatchResult)
    (correlationId : Str) :
    db.matchSeq ≤ (db.record now botXId botOId result correlationId).1.matchSeq := by
  unfold Db.record
  simp only
  split_ifs
  · exact le_rfl
  · exact Nat.le_succ _
  · split <;> exact Nat.le_succ _

theorem Db.Constrained.record {db : Db} (h : db.Constrained) (now botXId botOId : ℕ)
    (result : MatchResult) (correlationId : Str) :
    (db.record now botXId botOId result correlationId).1.Constrained := by
  have hseq := db.le_record_matchSeq now botXId botOId result correlationId
  have hbots := db.record_bots now botXId botOId result correlationId
  have hcases := recordTransaction_cases .none db now botXId botOId result correlationId
  simp only [recordTransaction_none] at hcases
  rcases hcases with ⟨_, hmatches, hmoves, _⟩ | ⟨hok, _⟩
  · refine ⟨?_, ?_, ?_⟩
    · rw [hbots]
      exact h.bot_ids
    · rw [hmatches]
      exact fun m hm => (h.match_ids m hm).trans hseq
    · rw [hmatches, hmoves]
      exact h.move_match
  · obtain ⟨rows, hrows, hafter⟩ := Db.record_ok hok
    rw [hafter]
    refine ⟨h.bot_ids, ?_, ?_⟩
    · simp only [List.forall_mem_append, List.forall_mem_singleton, le_refl, and_true]
      exact fun m hm => (h.match_ids m hm).trans (Nat.le_succ _)
    · simp only [List.map_append, List.mem_append, List.map_singleton, List.mem_singleton]
      rintro move (hmove | hmove)
      · exact .inl (h.move_match move hmove)
      · exact .inr (matchId_of_mem hrows hmove)

theorem constrained_of_reachable {db : Db} (h : Reachable dbStep Db.empty db) :
    db.Constrained := by
  have hboth : db.Consistent ∧ db.Constrained := by
    refine h.invariant (I := fun db => db.Consistent ∧ db.Constrained)
      ⟨Db.consistent_empty, ⟨by simp [Db.empty], by simp [Db.empty], by simp [Db.empty]⟩⟩ ?_
    rintro db action db' ⟨hcons, hdb⟩ hstep
    have hnext := hcons.step hstep
    refine ⟨hnext, ?_⟩
    cases action with
    | recordMatch now botXId botOId result correlationId =>
        rw [← Option.some.inj hstep]
        exact hdb.record now botXId botOId result correlationId
    | insertBot now new =>
        refine ⟨hnext.ids_nodup, ?_, ?_⟩
        all_goals
          rw [← Option.some.inj hstep]
          rcases db.create_cases now new with ⟨_, exc, seq, _, heq⟩ | ⟨_, heq⟩
          all_goals rw [heq]
        exacts [hdb.match_ids, hdb.match_ids, hdb.move_match, hdb.move_match]
  exact hboth.2

def fooBot : BotRow :=
  ⟨1, str "Foo", str "Foo", 1, str "token", none, str "3.14", str "python-3.14", none, false, 0⟩

def barBot : BotRow :=
  ⟨2, str "Bar", str "Bar", 1, str "token", none, str "3.14", str "python-3.14", none, false, 0⟩

theorem constrained_twoBots : twoBots.Constrained :=
  constrained_of_reachable (reachable_of_exec
    [.insertBot 0 ⟨str "Foo", str "Foo", 1, str "token", str "3.14", str "python-3.14", none⟩,
      .insertBot 0 ⟨str "Bar", str "Bar", 1, str "token", str "3.14", str "python-3.14", none⟩] rfl)

def twoReplies (k : ℕ) : AskPod := fun _ _ _ _ =>
  if k = 1 then .ok ⟨.str (str "X|.|.\n.|.|.\n.|.|."), .null⟩
  else if k = 2 then .ok ⟨.str (str "X|O|.\n.|.|.\n.|.|."), .null⟩
  else .error ⟨.urlError, str "refused"⟩

def brokenOffMatch : MatchResult :=
  ⟨.xForfeit, [⟨1, .x, str "X|.|.\n.|.|.\n.|.|.", .null⟩,
    ⟨2, .o, str "X|O|.\n.|.|.\n.|.|.", .null⟩,
    ⟨3, .x, str "X|O|.\n.|.|.\n.|.|.", .str (str "HTTP error: refused")⟩]⟩

theorem runMatchFromPods_twoReplies :
    runMatchFromPods asciiData oneAddress twoReplies (str "bot-1") (str "bot-2") 10 =
      .ok (some brokenOffMatch) := rfl

theorem record_lossless_brokenOff : ∃ row, StoredMatch twoBots
    (recordTransaction .none twoBots 1 1 2 brokenOffMatch (str "c")).1 fooBot barBot
      brokenOffMatch row :=
  (record_lossless asciiData oneAddress twoReplies (str "bot-1") (str "bot-2") 10 .none twoBots 1
    fooBot barBot brokenOffMatch (str "c") runMatchFromPods_twoReplies constrained_twoBots
    List.mem_cons_self (List.mem_cons_of_mem _ List.mem_cons_self)).1 rfl

end TictactoeBots
