import TictactoeBots.Entities.Recording

/-!
The four statistics of one bot version.

Each is a `COUNT(*)` over the matches with its own `WHERE` clause. On the rows
that the program writes the clauses split the matches of a bot into four
disjoint parts, and the four columns add up over all bots the way a
tournament's table should.
-/

namespace TictactoeBots

open StepSystem Sql

/-! ### The queries -/

def cleanWinsWhere (botId : ℕ) (m : MatchRow) : Truth :=
  Sql.and (eq m.winnerId (some botId)) (isIn (some m.result) [.xWins, .oWins])

def forfeitWinsWhere (botId : ℕ) (m : MatchRow) : Truth :=
  Sql.and (eq m.winnerId (some botId)) (isIn (some m.result) [.xForfeit, .oForfeit])

def drawsWhere (botId : ℕ) (m : MatchRow) : Truth :=
  Sql.and (Sql.or (eq (some m.botXId) (some botId)) (eq (some m.botOId) (some botId)))
    (eq (some m.result) (some .cat))

def lossesWhere (botId : ℕ) (m : MatchRow) : Truth :=
  Sql.and (Sql.or (eq (some m.botXId) (some botId)) (eq (some m.botOId) (some botId)))
    (Sql.and (ne (some m.result) (some .cat))
      (Sql.or (isNull m.winnerId) (ne m.winnerId (some botId))))

structure VersionStats where
  cleanWins : ℕ
  forfeitWins : ℕ
  draws : ℕ
  losses : ℕ

def perVersionStats (matchRows : List MatchRow) (botId : ℕ) : VersionStats where
  cleanWins := count matchRows (cleanWinsWhere botId)
  forfeitWins := count matchRows (forfeitWinsWhere botId)
  draws := count matchRows (drawsWhere botId)
  losses := count matchRows (lossesWhere botId)

/-! ### One match -/

def MatchRow.involves (m : MatchRow) (botId : ℕ) : Bool := m.botXId == botId || m.botOId == botId

/-- Whether a statistic of the bot counts the match, column by column. -/
def columns (botId : ℕ) (m : MatchRow) : List Bool :=
  [cleanWinsWhere, forfeitWinsWhere, drawsWhere, lossesWhere].map fun clause =>
    holds (clause botId m)

theorem columns_eq {m : MatchRow} (hm : m.winnerId = winnerIdFor m.result m.botXId m.botOId)
    (botId : ℕ) :
    columns botId m =
      match m.result with
      | .xWins => [m.botXId == botId, false, false, m.botOId == botId && m.botXId != botId]
      | .oWins => [m.botOId == botId, false, false, m.botXId == botId && m.botOId != botId]
      | .oForfeit => [false, m.botXId == botId, false, m.botOId == botId && m.botXId != botId]
      | .xForfeit => [false, m.botOId == botId, false, m.botXId == botId && m.botOId != botId]
      | .cat => [false, false, m.botXId == botId || m.botOId == botId, false] := by
  obtain ⟨_, x, o, winnerId, result, _, _⟩ := m
  simp only at hm
  subst hm
  by_cases hx : x = botId <;> by_cases ho : o = botId <;> cases result <;>
    simp [columns, cleanWinsWhere, forfeitWinsWhere, drawsWhere, lossesWhere, winnerIdFor, hx, ho]

theorem columns_count {m : MatchRow}
    (hm : m.winnerId = winnerIdFor m.result m.botXId m.botOId) (botId : ℕ) :
    (columns botId m).count true = if m.involves botId then 1 else 0 := by
  rw [columns_eq hm, MatchRow.involves]
  by_cases hx : m.botXId = botId <;> by_cases ho : m.botOId = botId <;> cases m.result <;>
    simp [hx, ho]

/-- The four statistics of a bot count its matches. -/
theorem perVersionStats_sum {matchRows : List MatchRow}
    (hwinner : ∀ m ∈ matchRows, m.winnerId = winnerIdFor m.result m.botXId m.botOId)
    (botId : ℕ) :
    (perVersionStats matchRows botId).cleanWins + (perVersionStats matchRows botId).forfeitWins +
        (perVersionStats matchRows botId).draws + (perVersionStats matchRows botId).losses =
      matchRows.countP fun m => m.involves botId := by
  simp only [perVersionStats, count, countP_eq_sum, ← List.sum_map_add]
  apply sum_map_congr
  intro m hm
  rw [← columns_count (hwinner m hm) botId]
  simp only [columns, List.map_cons, List.map_nil, List.count_cons, List.count_nil]
  simp only [beq_true]
  omega

/-! ### One match, counted by the bots -/

section Totals

variable {bots : List BotRow} {m : MatchRow}

theorem wins_of_match (hids : (bots.map BotRow.id).Nodup)
    (hx : m.botXId ∈ bots.map BotRow.id) (ho : m.botOId ∈ bots.map BotRow.id)
    (hm : m.winnerId = winnerIdFor m.result m.botXId m.botOId) :
    bots.countP (fun bot => holds (cleanWinsWhere bot.id m)) +
      bots.countP (fun bot => holds (forfeitWinsWhere bot.id m)) =
        if m.result = .cat then 0 else 1 := by
  have hcol := fun bot : BotRow => columns_eq hm bot.id
  cases hresult : m.result <;>
    simp only [hresult, columns, List.map_cons, List.map_nil, List.cons.injEq, and_true] at hcol <;>
    simp [fun bot => (hcol bot).1, fun bot => (hcol bot).2.1, countP_key hids hx,
      countP_key hids ho]

theorem losses_of_match (hids : (bots.map BotRow.id).Nodup)
    (hx : m.botXId ∈ bots.map BotRow.id) (ho : m.botOId ∈ bots.map BotRow.id)
    (hm : m.winnerId = winnerIdFor m.result m.botXId m.botOId) :
    bots.countP (fun bot => holds (lossesWhere bot.id m)) =
      if m.result ≠ .cat ∧ m.botXId ≠ m.botOId then 1 else 0 := by
  have hcol := fun bot : BotRow => columns_eq hm bot.id
  have hxo := countP_key_and_ne (k := m.botXId) hids ho
  have hox := countP_key_and_ne (k := m.botOId) hids hx
  rw [if_congr (eq_comm (a := m.botOId)) rfl rfl] at hox
  cases hresult : m.result <;>
    simp only [hresult, columns, List.map_cons, List.map_nil, List.cons.injEq, and_true] at hcol <;>
    simp [fun bot => (hcol bot).2.2.2, hxo, hox]

theorem draws_of_match (hids : (bots.map BotRow.id).Nodup)
    (hx : m.botXId ∈ bots.map BotRow.id) (ho : m.botOId ∈ bots.map BotRow.id)
    (hm : m.winnerId = winnerIdFor m.result m.botXId m.botOId) :
    bots.countP (fun bot => holds (drawsWhere bot.id m)) =
      if m.result = .cat then if m.botXId = m.botOId then 1 else 2 else 0 := by
  have hcol := fun bot : BotRow => columns_eq hm bot.id
  cases hresult : m.result <;>
    simp only [hresult, columns, List.map_cons, List.map_nil, List.cons.injEq, and_true] at hcol <;>
    simp [fun bot => (hcol bot).2.2.1, countP_two_keys hids hx ho]

end Totals

theorem sum_count_comm (bots : List BotRow) (matchRows : List MatchRow)
    (clause : ℕ → MatchRow → Truth) :
    (bots.map fun bot => count matchRows (clause bot.id)).sum =
      (matchRows.map fun m => bots.countP fun bot => holds (clause bot.id m)).sum :=
  sum_countP_comm bots matchRows fun bot m => holds (clause bot.id m)

/-- In every database the program writes, the four statistics of a bot split
its matches, each match in exactly one column, and the columns summed over all
bots are: one win for each decisive match, one loss for each decisive match
between different bots, and a draw for each bot of a drawn match. -/
theorem perVersionStats_conserved {db : Db} (h : Reachable dbStep Db.empty db) :
    (∀ bot ∈ db.bots,
      (let s := perVersionStats db.matchRows bot.id
       s.cleanWins + s.forfeitWins + s.draws + s.losses =
         db.matchRows.countP fun m => m.involves bot.id) ∧
      ∀ m ∈ db.matchRows, (columns bot.id m).count true = if m.involves bot.id then 1 else 0) ∧
    (db.bots.map fun bot =>
        (perVersionStats db.matchRows bot.id).cleanWins +
          (perVersionStats db.matchRows bot.id).forfeitWins).sum =
      db.matchRows.countP (fun m => m.result ≠ .cat) ∧
    (db.bots.map fun bot => (perVersionStats db.matchRows bot.id).losses).sum =
      db.matchRows.countP (fun m => m.result ≠ .cat ∧ m.botXId ≠ m.botOId) ∧
    (db.bots.map fun bot => (perVersionStats db.matchRows bot.id).draws).sum =
      2 * db.matchRows.countP (fun m => m.result = .cat ∧ m.botXId ≠ m.botOId) +
        db.matchRows.countP (fun m => m.result = .cat ∧ m.botXId = m.botOId) := by
  have hdb := consistent_of_reachable h
  refine ⟨fun bot _ => ⟨perVersionStats_sum hdb.winner bot.id,
    fun m hm => columns_count (hdb.winner m hm) bot.id⟩, ?_, ?_, ?_⟩
  · simp only [perVersionStats, List.sum_map_add, sum_count_comm]
    rw [← List.sum_map_add, countP_eq_sum]
    apply sum_map_congr
    intro m hm
    rw [wins_of_match hdb.ids_nodup (hdb.side_x m hm) (hdb.side_o m hm) (hdb.winner m hm)]
    by_cases hcat : m.result = .cat <;> simp [hcat]
  · simp only [perVersionStats, sum_count_comm]
    rw [countP_eq_sum]
    apply sum_map_congr
    intro m hm
    rw [losses_of_match hdb.ids_nodup (hdb.side_x m hm) (hdb.side_o m hm) (hdb.winner m hm)]
    simp
  · simp only [perVersionStats, sum_count_comm]
    rw [countP_eq_sum, countP_eq_sum, ← List.sum_map_mul_left, ← List.sum_map_add]
    apply sum_map_congr
    intro m hm
    rw [draws_of_match hdb.ids_nodup (hdb.side_x m hm) (hdb.side_o m hm) (hdb.winner m hm)]
    by_cases hcat : m.result = .cat <;> by_cases hself : m.botXId = m.botOId <;>
      simp [hcat, hself]

theorem perVersionStats_conserved_selfMatch :
    ∃ db, exec dbStep Db.empty forfeitedSelfMatch = some db ∧ db.matchRows.length = 1 ∧
      (db.bots.map fun bot => (perVersionStats db.matchRows bot.id).losses).sum =
        db.matchRows.countP (fun m => m.result ≠ .cat ∧ m.botXId ≠ m.botOId) :=
  ⟨_, rfl, rfl, (perVersionStats_conserved (reachable_of_exec forfeitedSelfMatch
    rfl)).2.2.1⟩

end TictactoeBots
