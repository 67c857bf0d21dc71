import TictactoeBots.Entities.LifetimeStats

/-!
`MatchRepository.list_for_bot`.

The query joins the match table with three aliases of the bot table. Both sides
of a match are bots and the outer join with the winner drops nothing, so the
query returns each match of the family once, and a count over its rows is a
count over the match table.
-/

namespace TictactoeBots

open Text Sql

/-! ### The query -/

structure MatchSelectRow where
  id : ℕ
  botX : Str
  botXBase : Str
  botXPython : Str
  botO : Str
  botOBase : Str
  botOPython : Str
  winner : Option Str
  result : MatchOutcome
  playedAt : ℕ

/-- A match with its two bots and, when there is one, the winner. -/
abbrev JoinedMatch := ((MatchRow × BotRow) × BotRow) × Option BotRow

/-- The joins of `_match_select`, over the tables in the order in which they
are read. -/
def matchJoin (bots : List BotRow) (matchRows : List MatchRow) : List JoinedMatch :=
  let withX := join matchRows bots fun m bx => eq (some m.botXId) (some bx.id)
  let withO := join withX bots fun r bo => eq (some r.1.botOId) (some bo.id)
  leftJoin withO bots fun r bw => eq r.1.1.winnerId (some bw.id)

def matchSelectRow : JoinedMatch → MatchSelectRow
  | (((m, bx), bo), bw) =>
    { id := m.id
      botX := bx.versionedName
      botXBase := bx.baseName
      botXPython := bx.pythonVersion
      botO := bo.versionedName
      botOBase := bo.baseName
      botOPython := bo.pythonVersion
      winner := bw.map BotRow.versionedName
      result := m.result
      playedAt := m.playedAt }

/-- Every match that a version of the family played, the latest first. -/
def listForBot (bots : List BotRow) (matchRows : List MatchRow) (baseName : Str) :
    List MatchSelectRow :=
  let rows := select (matchJoin bots matchRows) fun (((_, bx), bo), _) =>
    Sql.or (eq (some bx.baseName) (some baseName)) (eq (some bo.baseName) (some baseName))
  orderBy (rows.map matchSelectRow) fun row => OrderDual.toDual row.playedAt

/-! ### Counting its rows -/

theorem Db.Consistent.perm {db : Db} (h : db.Consistent) {bots : List BotRow}
    {matchRows : List MatchRow} (hbots : bots.Perm db.bots)
    (hmatches : matchRows.Perm db.matchRows) :
    { db with bots := bots, matchRows := matchRows : Db }.Consistent := by
  have hids : (bots.map BotRow.id).Perm (db.bots.map BotRow.id) := hbots.map _
  refine ⟨hids.nodup_iff.2 h.ids_nodup, fun bot hbot => h.ids_le bot (hbots.subset hbot),
    fun m hm => ?_, fun m hm => ?_, fun m hm => h.winner m (hmatches.subset hm)⟩
  · exact hids.symm.subset (h.side_x m (hmatches.subset hm))
  · exact hids.symm.subset (h.side_o m (hmatches.subset hm))

theorem Db.Consistent.countP_matchJoin {db : Db} (h : db.Consistent)
    (p : (MatchRow × BotRow) × BotRow → Bool) :
    (matchJoin db.bots db.matchRows).countP (fun r => p r.1) =
      db.matchRows.countP fun m => (db.botById m.botXId).any fun bx =>
        (db.botById m.botOId).any fun bo => p ((m, bx), bo) := by
  have hfst : (matchJoin db.bots db.matchRows).map Prod.fst =
      join (join db.matchRows db.bots fun m bx => eq (some m.botXId) (some bx.id)) db.bots
        fun r bo => eq (some r.1.botOId) (some bo.id) :=
    leftJoin_key_map_fst h.ids_nodup
  have hcount := h.countP_sides p
  simp only [eq_symm (some (BotRow.id _))] at hcount
  rw [← hcount, ← hfst, List.countP_map]
  rfl

theorem Db.Consistent.id_eq_iff {db : Db} (h : db.Consistent) {id : ℕ} {bot other : BotRow}
    (hother : db.botById id = some other) (hbot : bot ∈ db.bots) : id = bot.id ↔ other = bot := by
  obtain ⟨hmem, rfl⟩ := h.botById_eq_some_iff.1 hother
  constructor
  · intro hid
    exact List.inj_on_of_nodup_map h.ids_nodup hmem hbot hid
  · rintro rfl
    rfl

theorem Db.Consistent.countP_listForBot {db : Db} (h : db.Consistent)
    (hnames : (db.bots.map BotRow.versionedName).Nodup) {bot : BotRow} (hbot : bot ∈ db.bots) :
    (listForBot db.bots db.matchRows bot.baseName).countP
        (fun row => row.botX = bot.versionedName ∨ row.botO = bot.versionedName) =
      db.matchRows.countP fun m => m.involves bot.id := by
  let shown : (MatchRow × BotRow) × BotRow → Bool := fun r =>
    (r.1.2.versionedName = bot.versionedName ∨ r.2.versionedName = bot.versionedName) ∧
      (r.1.2.baseName = bot.baseName ∨ r.2.baseName = bot.baseName)
  have hrows : (listForBot db.bots db.matchRows bot.baseName).countP
      (fun row => row.botX = bot.versionedName ∨ row.botO = bot.versionedName) =
        (matchJoin db.bots db.matchRows).countP fun r => shown r.1 := by
    rw [listForBot, (orderBy_perm _ _).countP_eq, List.countP_map, select, List.countP_filter]
    apply List.countP_congr
    rintro ⟨⟨⟨m, bx⟩, bo⟩, bw⟩ -
    simp only [Function.comp_apply, Bool.and_eq_true, decide_eq_true_eq, holds_or, eq_some,
      holds_some, Bool.or_eq_true, shown]
    exact Iff.rfl
  rw [hrows, h.countP_matchJoin]
  apply List.countP_congr
  intro m hm
  obtain ⟨bx, hx⟩ := h.exists_botById (h.side_x m hm)
  obtain ⟨bo, ho⟩ := h.exists_botById (h.side_o m hm)
  have hname : ∀ {id other}, db.botById id = some other →
      (other.versionedName = bot.versionedName ↔ other = bot) := by
    intro id other hother
    refine ⟨fun hname => ?_, fun heq => by rw [heq]⟩
    exact List.inj_on_of_nodup_map hnames (h.botById_eq_some_iff.1 hother).1 hbot hname
  simp only [hx, ho, Option.any_some, shown, decide_eq_true_eq, hname hx, hname ho,
    MatchRow.involves, Bool.or_eq_true, beq_iff_eq, h.id_eq_iff hx hbot, h.id_eq_iff ho hbot,
    and_iff_left_iff_imp]
  -- a match of the bot is one of its family
  exact Or.imp (congrArg BotRow.baseName) (congrArg BotRow.baseName)

end TictactoeBots
