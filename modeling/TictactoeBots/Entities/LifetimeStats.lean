import TictactoeBots.Entities.VersionStats

/-!
The lifetime record of a bot family.

The two queries join the match table with up to three aliases of the bot
table. The joins run along foreign keys, so each of them finds one row or, for
the winner of a drawn match, none, and a query counts the matches that meet a
condition on those rows. The conditions are then compared with what the
statistic is meant to count.
-/

namespace TictactoeBots

open Text StepSystem Sql

/-! ### The queries -/

def lifetimeWins (db : Db) (baseName : Str) : ℕ :=
  let withX := join db.matchRows db.bots fun m bx => eq (some bx.id) (some m.botXId)
  let withO := join withX db.bots fun r bo => eq (some bo.id) (some r.1.botOId)
  let withW := join withO db.bots fun r bw => eq (some bw.id) r.1.1.winnerId
  count withW fun (((m, bx), bo), bw) =>
    Sql.and (eq (some bw.baseName) (some baseName))
      (Sql.or (Sql.or (eq (some m.botXId) (some m.botOId))
        (ne (some bx.baseName) (some baseName))) (ne (some bo.baseName) (some baseName)))

/-- `NOT EXISTS` over the bots of the family that won the match. -/
def winnerNotInFamily (db : Db) (baseName : Str) (m : MatchRow) : Truth :=
  Sql.not (existsRow db.bots fun bw =>
    Sql.and (eq (some bw.id) m.winnerId) (eq (some bw.baseName) (some baseName)))

def lifetimeLosses (db : Db) (baseName : Str) : ℕ :=
  let withX := join db.matchRows db.bots fun m bx => eq (some bx.id) (some m.botXId)
  let withO := join withX db.bots fun r bo => eq (some bo.id) (some r.1.botOId)
  count withO fun ((m, bx), bo) =>
    Sql.and (ne (some m.result) (some .cat))
      (Sql.and
        (Sql.or (eq (some bx.baseName) (some baseName)) (eq (some bo.baseName) (some baseName)))
        (Sql.and
          (Sql.or (ne (some bx.baseName) (some baseName)) (ne (some bo.baseName) (some baseName)))
          (Sql.or (isNull m.winnerId) (winnerNotInFamily db baseName m))))

/-! ### What they are meant to count -/

def MatchOutcome.winner : MatchOutcome → Option Player
  | .xWins => some .x
  | .oForfeit => some .x
  | .oWins => some .o
  | .xForfeit => some .o
  | .cat => none

def MatchRow.side (m : MatchRow) : Player → ℕ
  | .x => m.botXId
  | .o => m.botOId

def Db.botById (db : Db) (id : ℕ) : Option BotRow := db.bots.find? fun bot => bot.id == id

def Db.familyOf (db : Db) (m : MatchRow) (p : Player) : Option Str :=
  (db.botById (m.side p)).map BotRow.baseName

def wonAgainstOther (db : Db) (family : Str) (m : MatchRow) : Prop :=
  ∃ p, m.result.winner = some p ∧ db.familyOf m p = some family ∧
    db.familyOf m p.other ≠ some family

/-- The family played the match against another family, and the match was
decided without a win of the family. -/
def lostAgainstOther (db : Db) (family : Str) (m : MatchRow) : Prop :=
  m.result.winner ≠ none ∧ ∃ p, db.familyOf m p = some family ∧
    db.familyOf m p.other ≠ some family ∧ m.result.winner ≠ some p

/-- A decided match of one bot of the family against itself. -/
def decisiveSelfMatch (db : Db) (family : Str) (m : MatchRow) : Prop :=
  m.result.winner ≠ none ∧ m.botXId = m.botOId ∧ db.familyOf m .x = some family

instance (db : Db) (family : Str) : DecidablePred (wonAgainstOther db family) := fun m =>
  inferInstanceAs (Decidable (∃ p, m.result.winner = some p ∧ db.familyOf m p = some family ∧
    db.familyOf m p.other ≠ some family))

instance (db : Db) (family : Str) : DecidablePred (lostAgainstOther db family) := fun m =>
  inferInstanceAs (Decidable (m.result.winner ≠ none ∧ ∃ p, db.familyOf m p = some family ∧
    db.familyOf m p.other ≠ some family ∧ m.result.winner ≠ some p))

instance (db : Db) (family : Str) : DecidablePred (decisiveSelfMatch db family) := fun m =>
  inferInstanceAs (Decidable (m.result.winner ≠ none ∧ m.botXId = m.botOId ∧
    db.familyOf m .x = some family))

/-! ### The queries on consistent tables -/

theorem Db.Consistent.botById_eq_some_iff {db : Db} (h : db.Consistent) {id : ℕ} {bot : BotRow} :
    db.botById id = some bot ↔ bot ∈ db.bots ∧ bot.id = id := by
  constructor
  · intro hfind
    exact ⟨List.mem_of_find?_eq_some hfind, by simpa using List.find?_some hfind⟩
  · rintro ⟨hbot, rfl⟩
    obtain ⟨bot', hfind⟩ : ∃ bot', db.botById bot.id = some bot' := by
      rw [← Option.isSome_iff_exists, Db.botById, List.find?_isSome]
      exact ⟨bot, hbot, by simp⟩
    have hid : bot'.id = bot.id := by simpa using List.find?_some hfind
    rw [hfind, List.inj_on_of_nodup_map h.ids_nodup (List.mem_of_find?_eq_some hfind) hbot hid]

theorem Db.Consistent.exists_botById {db : Db} (h : db.Consistent) {id : ℕ}
    (hid : id ∈ db.bots.map BotRow.id) : ∃ bot, db.botById id = some bot := by
  obtain ⟨bot, hbot, rfl⟩ := List.mem_map.1 hid
  exact ⟨bot, h.botById_eq_some_iff.2 ⟨hbot, rfl⟩⟩

theorem Db.Consistent.reference {db : Db} (h : db.Consistent) {id : ℕ}
    (hid : id ∈ db.bots.map BotRow.id) :
    some id = (db.botById id).map BotRow.id ∧ ∀ bot ∈ db.botById id, bot ∈ db.bots := by
  obtain ⟨bot, hbot⟩ := h.exists_botById hid
  obtain ⟨hmem, hbotId⟩ := h.botById_eq_some_iff.1 hbot
  simp [hbot, hmem, hbotId]

theorem Db.Consistent.winner_mem {db : Db} (h : db.Consistent) {m : MatchRow}
    (hm : m ∈ db.matchRows) {w : ℕ} (hw : m.winnerId = some w) :
    w ∈ db.bots.map BotRow.id := by
  have hx := h.side_x m hm
  have ho := h.side_o m hm
  rw [h.winner m hm] at hw
  cases hresult : m.result <;> simp [hresult, winnerIdFor] at hw <;> rw [← hw] <;> assumption

/-- A query over the match table joined with both sides counts matches. -/
theorem Db.Consistent.countP_sides {db : Db} (h : db.Consistent)
    (p : (MatchRow × BotRow) × BotRow → Bool) :
    (join (join db.matchRows db.bots fun m bx => eq (some bx.id) (some m.botXId)) db.bots
        fun r bo => eq (some bo.id) (some r.1.botOId)).countP p =
      db.matchRows.countP fun m => (db.botById m.botXId).any fun bx =>
        (db.botById m.botOId).any fun bo => p ((m, bx), bo) := by
  rw [countP_join_key (fun r => db.botById r.1.botOId) h.ids_nodup,
    countP_join_key (fun m => db.botById m.botXId) h.ids_nodup]
  · exact fun m hm => h.reference (h.side_x m hm)
  · intro r hr
    exact h.reference (h.side_o r.1 (mem_join.1 hr).1)

theorem Db.Consistent.sides {db : Db} (h : db.Consistent) {m : MatchRow}
    (hm : m ∈ db.matchRows) :
    ∃ bx bo, db.botById m.botXId = some bx ∧ db.botById m.botOId = some bo ∧
      db.familyOf m .x = some bx.baseName ∧ db.familyOf m .o = some bo.baseName ∧
      (m.botXId = m.botOId → bx = bo) ∧
      m.winnerId.bind db.botById = m.result.winner.map fun
        | .x => bx
        | .o => bo := by
  obtain ⟨bx, hx⟩ := h.exists_botById (h.side_x m hm)
  obtain ⟨bo, ho⟩ := h.exists_botById (h.side_o m hm)
  refine ⟨bx, bo, hx, ho, ?_, ?_, fun heq => ?_, ?_⟩
  · rw [Db.familyOf, MatchRow.side, hx, Option.map_some]
  · rw [Db.familyOf, MatchRow.side, ho, Option.map_some]
  · rw [heq, ho] at hx
    exact (Option.some.inj hx).symm
  · rw [h.winner m hm]
    cases m.result <;> simp [winnerIdFor, MatchOutcome.winner, hx, ho]

theorem Db.Consistent.holds_winnerNotInFamily {db : Db} (h : db.Consistent) (family : Str)
    (m : MatchRow) :
    holds (winnerNotInFamily db family m) =
      !(m.winnerId.bind db.botById).any fun bw => bw.baseName = family := by
  have hany : (db.bots.any fun bw => holds (Sql.and (eq (some bw.id) m.winnerId)
      (eq (some bw.baseName) (some family)))) =
        (m.winnerId.bind db.botById).any fun bw => bw.baseName = family := by
    rw [Bool.eq_iff_iff]
    cases m.winnerId with
    | none => simp
    | some w =>
        simp only [eq_some, holds_and, holds_some, Option.bind_some, List.any_eq_true,
          Option.any_eq_true, Bool.and_eq_true, decide_eq_true_eq]
        constructor
        · rintro ⟨bot, hbot, hid, hfamily⟩
          exact ⟨bot, h.botById_eq_some_iff.2 ⟨hbot, hid⟩, hfamily⟩
        · rintro ⟨bot, hfind, hfamily⟩
          obtain ⟨hbot, hid⟩ := h.botById_eq_some_iff.1 hfind
          exact ⟨bot, hbot, hid, hfamily⟩
  rw [winnerNotInFamily, existsRow, not_some, holds_some, hany]

theorem Player.exists_iff {P : Player → Prop} : (∃ p, P p) ↔ P .x ∨ P .o :=
  ⟨fun ⟨p, hp⟩ => by cases p <;> simp [hp], fun h => h.elim (⟨_, ·⟩) (⟨_, ·⟩)⟩

theorem Db.Consistent.lifetimeWins_eq {db : Db} (h : db.Consistent) (family : Str) :
    lifetimeWins db family = db.matchRows.countP fun m =>
      wonAgainstOther db family m ∨ decisiveSelfMatch db family m := by
  -- the join with the winner finds its row, or drops a match without one
  rw [lifetimeWins, count, countP_join_key (fun r => r.1.1.winnerId.bind db.botById) h.ids_nodup,
    h.countP_sides]
  · apply List.countP_congr
    intro m hm
    obtain ⟨bx, bo, hx, ho, hfx, hfo, hself, hwinner⟩ := h.sides hm
    simp only [hx, ho, hwinner, Option.any_some, holds_and, holds_or, ne_some, eq_some, holds_some,
      wonAgainstOther, decisiveSelfMatch, Player.exists_iff, Player.other, hfx, hfo]
    cases m.result <;> simp [MatchOutcome.winner] <;> grind
  · intro r hr
    have hm := (mem_join.1 (mem_join.1 hr).1).1
    cases hw : r.1.1.winnerId with
    | none => simp
    | some w => exact h.reference (h.winner_mem hm hw)

theorem Db.Consistent.lifetimeLosses_eq {db : Db} (h : db.Consistent) (family : Str) :
    lifetimeLosses db family = db.matchRows.countP fun m => lostAgainstOther db family m := by
  rw [lifetimeLosses, count, h.countP_sides]
  apply List.countP_congr
  intro m hm
  obtain ⟨bx, bo, hx, ho, hfx, hfo, hself, hwinner⟩ := h.sides hm
  have hnull : m.winnerId.isNone = m.result.winner.isNone := by
    rw [h.winner m hm]
    cases m.result <;> rfl
  simp only [hx, ho, hwinner, hnull, Option.any_some, holds_and, holds_or, ne_some, eq_some,
    holds_some, holds_isNull, h.holds_winnerNotInFamily, lostAgainstOther, Player.exists_iff,
    Player.other, hfx, hfo]
  cases m.result <;> simp [MatchOutcome.winner] <;> grind

/-! ### Sums over the families -/

def Db.families (db : Db) : List Str := (db.bots.map BotRow.baseName).dedup

theorem Db.families_nodup (db : Db) : (db.families.map some).Nodup :=
  (List.nodup_dedup _).map (Option.some_injective _)

theorem Db.Consistent.familyOf_mem {db : Db} (h : db.Consistent) {m : MatchRow}
    (hm : m ∈ db.matchRows) (p : Player) : db.familyOf m p ∈ db.families.map some := by
  have hside : m.side p ∈ db.bots.map BotRow.id := by
    cases p with
    | x => exact h.side_x m hm
    | o => exact h.side_o m hm
  obtain ⟨bot, hbot⟩ := h.exists_botById hside
  rw [Db.familyOf, hbot]
  apply List.mem_map_of_mem
  rw [Db.families, List.mem_dedup]
  exact List.mem_map_of_mem (h.botById_eq_some_iff.1 hbot).1

theorem lostAgainstOther_iff {db : Db} {family : Str} {m : MatchRow} {p : Player}
    (hp : m.result.winner = some p) :
    lostAgainstOther db family m ↔
      db.familyOf m p.other = some family ∧ db.familyOf m p ≠ some family := by
  cases p <;> simp [lostAgainstOther, Player.exists_iff, Player.other, hp]

theorem Db.Consistent.won_count_eq_lost_count {db : Db} (h : db.Consistent) {m : MatchRow}
    (hm : m ∈ db.matchRows) :
    db.families.countP (fun family => wonAgainstOther db family m) =
      db.families.countP fun family => lostAgainstOther db family m := by
  cases hp : m.result.winner with
  | none => simp [wonAgainstOther, lostAgainstOther, hp]
  | some p =>
      have hwon : db.families.countP (fun family => wonAgainstOther db family m) =
          if db.familyOf m p.other = db.familyOf m p then 0 else 1 := by
        rw [← countP_key_and_ne db.families_nodup (h.familyOf_mem hm p)]
        exact List.countP_congr fun family _ => by simp [wonAgainstOther, hp]
      have hlost : db.families.countP (fun family => lostAgainstOther db family m) =
          if db.familyOf m p = db.familyOf m p.other then 0 else 1 := by
        rw [← countP_key_and_ne db.families_nodup (h.familyOf_mem hm p.other)]
        exact List.countP_congr fun family _ => by simp [lostAgainstOther_iff hp]
      rw [hwon, hlost]
      exact if_congr eq_comm rfl rfl

theorem Db.Consistent.self_count {db : Db} (h : db.Consistent) {m : MatchRow}
    (hm : m ∈ db.matchRows) :
    db.families.countP (fun family => decisiveSelfMatch db family m) =
      if m.result.winner ≠ none ∧ m.botXId = m.botOId then 1 else 0 := by
  split
  · rename_i hself
    rw [← countP_key db.families_nodup (h.familyOf_mem hm .x)]
    exact List.countP_congr fun family _ => by simp [decisiveSelfMatch, hself]
  · rename_i hother
    apply List.countP_eq_zero.2
    intro family _ hself
    apply hother
    have hself : decisiveSelfMatch db family m := by simpa using hself
    exact ⟨hself.1, hself.2.1⟩

theorem not_won_not_lost_of_same_family {db : Db} {family : Str} {m : MatchRow}
    (hx : db.familyOf m .x = some family) (ho : db.familyOf m .o = some family) :
    ¬wonAgainstOther db family m ∧ ¬lostAgainstOther db family m := by
  simp [wonAgainstOther, lostAgainstOther, Player.exists_iff, Player.other, hx, ho]

theorem familyOf_eq_of_self {db : Db} {m : MatchRow} (h : m.botXId = m.botOId) :
    db.familyOf m .x = db.familyOf m .o := by
  simp [Db.familyOf, MatchRow.side, h]

/-- In every database the program writes, `lifetime_wins` of a family counts
the matches it won against another family and its decisive self-matches, and
`lifetime_losses` those it lost to another family; matches between different
bots of one family count in neither. Over all families there are as many wins
as losses, but for the decisive self-matches. -/
theorem lifetimeStats_conserved {db : Db} (h : Reachable dbStep Db.empty db) :
    (∀ family,
      lifetimeWins db family =
        db.matchRows.countP (fun m => wonAgainstOther db family m) +
          db.matchRows.countP (fun m => decisiveSelfMatch db family m) ∧
      lifetimeLosses db family = db.matchRows.countP (fun m => lostAgainstOther db family m) ∧
      ∀ m, m.botXId ≠ m.botOId → db.familyOf m .x = some family →
        db.familyOf m .o = some family →
          ¬wonAgainstOther db family m ∧ ¬decisiveSelfMatch db family m ∧
            ¬lostAgainstOther db family m) ∧
    (db.families.map (lifetimeWins db)).sum =
      (db.families.map (lifetimeLosses db)).sum +
        db.matchRows.countP fun m => m.result.winner ≠ none ∧ m.botXId = m.botOId := by
  have hdb := consistent_of_reachable h
  have hwins : ∀ family, lifetimeWins db family =
      db.matchRows.countP (fun m => wonAgainstOther db family m) +
        db.matchRows.countP (fun m => decisiveSelfMatch db family m) := by
    intro family
    have hdisjoint : db.matchRows.countP (fun m =>
        decide (wonAgainstOther db family m) && decide (decisiveSelfMatch db family m)) = 0 := by
      apply List.countP_eq_zero.2
      intro m _ hboth
      simp only [Bool.and_eq_true, decide_eq_true_eq] at hboth
      obtain ⟨hwon, -, hself, hx⟩ := hboth
      exact (not_won_not_lost_of_same_family hx (familyOf_eq_of_self hself ▸ hx)).1 hwon
    rw [hdb.lifetimeWins_eq, ← countP_or_add_countP_and, hdisjoint, Nat.add_zero]
    simp only [Bool.decide_or]
  refine ⟨fun family => ⟨hwins family, hdb.lifetimeLosses_eq family, fun m hne hx ho => ?_⟩, ?_⟩
  · obtain ⟨hwon, hlost⟩ := not_won_not_lost_of_same_family hx ho
    exact ⟨hwon, fun hself => hne hself.2.1, hlost⟩
  · have hwon : (db.families.map fun family =>
        db.matchRows.countP fun m => wonAgainstOther db family m).sum =
          (db.families.map fun family =>
            db.matchRows.countP fun m => lostAgainstOther db family m).sum := by
      rw [sum_countP_comm _ _ fun family m => decide (wonAgainstOther db family m),
        sum_countP_comm _ _ fun family m => decide (lostAgainstOther db family m)]
      exact sum_map_congr fun m hm => hdb.won_count_eq_lost_count hm
    have hself : (db.families.map fun family =>
        db.matchRows.countP fun m => decisiveSelfMatch db family m).sum =
          db.matchRows.countP fun m => m.result.winner ≠ none ∧ m.botXId = m.botOId := by
      rw [sum_countP_comm _ _ fun family m => decide (decisiveSelfMatch db family m),
        countP_eq_sum]
      apply sum_map_congr
      intro m hm
      rw [hdb.self_count hm]
      exact if_congr (by simp) rfl rfl
    rw [funext hwins, List.sum_map_add, hwon, hself, funext hdb.lifetimeLosses_eq]

theorem lifetimeStats_conserved_selfMatch :
    ∃ db, exec dbStep Db.empty forfeitedSelfMatch = some db ∧ db.matchRows.length = 1 ∧
      (db.families.map (lifetimeWins db)).sum =
        (db.families.map (lifetimeLosses db)).sum +
          db.matchRows.countP fun m => m.result.winner ≠ none ∧ m.botXId = m.botOId :=
  ⟨_, rfl, rfl, (lifetimeStats_conserved (reachable_of_exec forfeitedSelfMatch rfl)).2⟩

end TictactoeBots
