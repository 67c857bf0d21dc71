import TictactoeBots.Entities.BotRepository
import TictactoeBots.Entities.LifetimeStats

/-!
The leaderboard and the family page's list of versions.

The leaderboard joins the bots with the highest version of each family. A row
for each family, and for none twice, comes out of that only if a family does not
have one version twice; the schema does not say so, but the names that are made
of the versions are unique.
-/

namespace TictactoeBots

open Text StepSystem Sql

/-! ### The queries -/

/-- `latest_bot`: the bots whose version is the highest of their family. -/
def latestBot (bots : List BotRow) : List BotRow :=
  (join bots (groupMax bots BotRow.baseName BotRow.version) fun bot group =>
    Sql.and (eq (some group.1) (some bot.baseName)) (eq group.2 (some bot.version))).map Prod.fst

structure LeaderboardRow where
  baseName : Str
  versionedName : Str
  submittedAt : ℕ
  stats : VersionStats
  lifetimeWins : ℕ
  lifetimeLosses : ℕ

def LeaderboardRow.wins (row : LeaderboardRow) : ℕ := row.stats.cleanWins + row.stats.forfeitWins

/-- `bots` is the bot table in the order in which it is read. -/
def leaderboard (db : Db) (bots : List BotRow) : List LeaderboardRow :=
  let stats := (latestBot bots).map fun bot =>
    { baseName := bot.baseName
      versionedName := bot.versionedName
      submittedAt := bot.submittedAt
      stats := perVersionStats db.matchRows bot.id
      lifetimeWins := lifetimeWins db bot.baseName
      lifetimeLosses := lifetimeLosses db bot.baseName : LeaderboardRow }
  orderBy stats fun row => toLex (OrderDual.toDual row.wins, row.submittedAt)

structure FamilyRow where
  versionedName : Str
  version : ℕ
  submittedAt : ℕ
  stats : VersionStats

def familyRow (db : Db) (bot : BotRow) : FamilyRow where
  versionedName := bot.versionedName
  version := bot.version
  submittedAt := bot.submittedAt
  stats := perVersionStats db.matchRows bot.id

/-- The versions of one family, the highest first. -/
def family (db : Db) (bots : List BotRow) (baseName : Str) : List FamilyRow :=
  let rows := (select bots fun bot => eq (some bot.baseName) (some baseName)).map (familyRow db)
  orderBy rows fun row => OrderDual.toDual row.version

/-! ### Unique names and versions -/

/-- No two bots have one versioned name, and no family has one version twice. -/
structure BotKeys (bots : List BotRow) : Prop where
  names_nodup : (bots.map BotRow.versionedName).Nodup
  version_inj : ∀ bot ∈ bots, ∀ other ∈ bots, bot.baseName = other.baseName →
    bot.version = other.version → bot = other

theorem BotKeys.nodup {bots : List BotRow} (h : BotKeys bots) : bots.Nodup :=
  h.names_nodup.of_map

theorem BotKeys.perm {bots bots' : List BotRow} (h : BotKeys bots) (hperm : bots'.Perm bots) :
    BotKeys bots' where
  names_nodup := (hperm.map _).nodup_iff.2 h.names_nodup
  version_inj bot hbot other hother :=
    h.version_inj bot (hperm.subset hbot) other (hperm.subset hother)

/-- The unique constraint. -/
theorem Db.create_names_nodup {db : Db} (h : (db.bots.map BotRow.versionedName).Nodup)
    (now : ℕ) (new : NewBot) : ((db.create now new).1.bots.map BotRow.versionedName).Nodup := by
  rcases db.create_cases now new with ⟨_, exc, seq, _, heq⟩ | ⟨hadmits, heq⟩
  · rw [heq]
    exact h
  · rw [heq, List.map_append, List.map_singleton]
    refine List.nodup_append.2 ⟨h, List.nodup_singleton _, ?_⟩
    rintro name hname _ hnew rfl
    obtain ⟨bot, hbot, hbotName⟩ := List.mem_map.1 hname
    exact hadmits.2 bot hbot (hbotName.trans (List.mem_singleton.1 hnew))

theorem names_nodup_of_reachable {db : Db} (h : Reachable dbStep Db.empty db) :
    (db.bots.map BotRow.versionedName).Nodup := by
  refine h.invariant (I := fun db => (db.bots.map BotRow.versionedName).Nodup) List.nodup_nil ?_
  rintro db (⟨now, new⟩ | ⟨now, botXId, botOId, result, correlationId⟩) db' hdb hstep
  · rw [← Option.some.inj hstep]
    exact Db.create_names_nodup hdb now new
  · rw [← Option.some.inj hstep, Db.record_bots]
    exact hdb

/-! ### The shape of the leaderboard -/

def Highest (bots : List BotRow) (bot : BotRow) : Prop :=
  bot ∈ bots ∧ ∀ other ∈ bots, other.baseName = bot.baseName → other.version ≤ bot.version

theorem mem_latestBot {bots : List BotRow} {bot : BotRow} :
    bot ∈ latestBot bots ↔ Highest bots bot := by
  rw [latestBot, join_groupMax, List.mem_filter, decide_eq_true_eq, Highest]

theorem latestBot_sublist (bots : List BotRow) : (latestBot bots).Sublist bots := by
  rw [latestBot, join_groupMax]
  exact List.filter_sublist

theorem latestBot_bases_nodup {bots : List BotRow} (h : BotKeys bots) :
    ((latestBot bots).map BotRow.baseName).Nodup := by
  refine List.Nodup.map_on (fun bot hbot other hother hbase => ?_)
    (h.nodup.sublist (latestBot_sublist bots))
  obtain ⟨hbot, hhighest⟩ := mem_latestBot.1 hbot
  obtain ⟨hother, hhighest'⟩ := mem_latestBot.1 hother
  exact h.version_inj bot hbot other hother hbase
    (le_antisymm (hhighest' bot hbot hbase) (hhighest other hother hbase.symm))

theorem exists_highest {bots : List BotRow} {bot : BotRow} (hbot : bot ∈ bots) :
    ∃ latest, Highest bots latest ∧ latest.baseName = bot.baseName := by
  have hmem : bot ∈ bots.filter fun other => other.baseName = bot.baseName := by simp [hbot]
  obtain ⟨latest, hlatest⟩ := Option.ne_none_iff_exists'.1
    (mt List.argmax_eq_none.1 (List.ne_nil_of_mem hmem) :
      List.argmax BotRow.version (bots.filter fun other => other.baseName = bot.baseName) ≠ none)
  obtain ⟨hin, hbase⟩ := List.mem_filter.1 (List.argmax_mem hlatest)
  rw [decide_eq_true_eq] at hbase
  refine ⟨latest, ⟨hin, fun other hother hsame => ?_⟩, hbase⟩
  refine List.le_of_mem_argmax (List.mem_filter.2 ⟨hother, ?_⟩) hlatest
  rw [decide_eq_true_eq, hsame, hbase]

structure LeaderboardRow.Shows (row : LeaderboardRow) (db : Db) (bot : BotRow) : Prop where
  baseName : row.baseName = bot.baseName
  versionedName : row.versionedName = bot.versionedName
  submittedAt : row.submittedAt = bot.submittedAt
  stats : row.stats = perVersionStats db.matchRows bot.id

/-- One row for each family, its highest version, in the order of the wins and
then of the time of submission, with the statistics of the family page. -/
structure LeaderboardShape (db : Db) (rows : List LeaderboardRow)
    (familyOf : Str → List FamilyRow) : Prop where
  families_nodup : (rows.map LeaderboardRow.baseName).Nodup
  families : ∀ baseName, baseName ∈ rows.map LeaderboardRow.baseName ↔
    baseName ∈ db.bots.map BotRow.baseName
  highest : ∀ row ∈ rows, ∃ bot, Highest db.bots bot ∧ row.Shows db bot
  sorted : rows.Pairwise fun a b =>
    b.wins < a.wins ∨ (a.wins = b.wins ∧ a.submittedAt ≤ b.submittedAt)
  listed : ∀ row ∈ rows, ∃ version ∈ familyOf row.baseName,
    version.versionedName = row.versionedName
  sameStats : ∀ row ∈ rows, ∀ version ∈ familyOf row.baseName,
    version.versionedName = row.versionedName → version.stats = row.stats

theorem mem_leaderboard {db : Db} {bots : List BotRow} {row : LeaderboardRow}
    (h : row ∈ leaderboard db bots) : ∃ bot, Highest bots bot ∧ row.Shows db bot := by
  have hmem := (orderBy_perm _ _).subset h
  obtain ⟨bot, hbot, rfl⟩ := List.mem_map.1 hmem
  exact ⟨bot, mem_latestBot.1 hbot, rfl, rfl, rfl, rfl⟩

theorem leaderboard_bases (db : Db) (bots : List BotRow) :
    ((leaderboard db bots).map LeaderboardRow.baseName).Perm
      ((latestBot bots).map BotRow.baseName) := by
  apply ((orderBy_perm _ _).map _).trans
  rw [List.map_map]
  exact List.Perm.refl _

theorem mem_family {db : Db} {bots : List BotRow} {baseName : Str} {version : FamilyRow} :
    version ∈ family db bots baseName ↔
      ∃ bot ∈ bots, bot.baseName = baseName ∧ version = familyRow db bot := by
  rw [family, (orderBy_perm _ _).mem_iff]
  simp only [List.mem_map, mem_select, eq_some, holds_some, decide_eq_true_eq]
  constructor
  · rintro ⟨bot, ⟨hbot, hbase⟩, rfl⟩
    exact ⟨bot, hbot, hbase, rfl⟩
  · rintro ⟨bot, hbot, hbase, rfl⟩
    exact ⟨bot, ⟨hbot, hbase⟩, rfl⟩

theorem pairwise_leaderboard (db : Db) (bots : List BotRow) :
    (leaderboard db bots).Pairwise fun a b =>
      b.wins < a.wins ∨ (a.wins = b.wins ∧ a.submittedAt ≤ b.submittedAt) := by
  apply (pairwise_orderBy _ _).imp
  intro a b hle
  rw [Prod.Lex.le_iff] at hle
  exact hle.imp id fun h => ⟨OrderDual.toDual_inj.1 h.1, h.2⟩

/-- On tables with unique names and versions the leaderboard has its shape, in
whatever order the bots are read. -/
theorem leaderboardShape {db : Db} {bots bots' : List BotRow} (hkeys : BotKeys db.bots)
    (hbots : bots.Perm db.bots) (hbots' : bots'.Perm db.bots) :
    LeaderboardShape db (leaderboard db bots) (family db bots') := by
  have hhighest : ∀ bot, Highest bots bot → Highest db.bots bot := fun bot h =>
    ⟨hbots.subset h.1, fun other hother => h.2 other (hbots.symm.subset hother)⟩
  refine ⟨?_, fun baseName => ?_, fun row hrow => ?_, pairwise_leaderboard db bots,
    fun row hrow => ?_, fun row hrow version hversion hname => ?_⟩
  · exact (leaderboard_bases db bots).nodup_iff.2 (latestBot_bases_nodup (hkeys.perm hbots))
  · rw [(leaderboard_bases db bots).mem_iff]
    constructor
    · intro h
      obtain ⟨bot, hbot, rfl⟩ := List.mem_map.1 h
      exact List.mem_map_of_mem (hbots.subset (mem_latestBot.1 hbot).1)
    · intro h
      obtain ⟨bot, hbot, rfl⟩ := List.mem_map.1 h
      obtain ⟨latest, hlatest, hbase⟩ := exists_highest (hbots.symm.subset hbot)
      rw [← hbase]
      exact List.mem_map_of_mem (mem_latestBot.2 hlatest)
  · obtain ⟨bot, hbot, hshows⟩ := mem_leaderboard hrow
    exact ⟨bot, hhighest bot hbot, hshows⟩
  · obtain ⟨bot, hbot, hshows⟩ := mem_leaderboard hrow
    refine ⟨familyRow db bot, mem_family.2 ⟨bot, ?_, hshows.baseName.symm, rfl⟩, ?_⟩
    · exact hbots'.symm.subset (hbots.subset hbot.1)
    · exact hshows.versionedName.symm
  · obtain ⟨bot, hbot, hshows⟩ := mem_leaderboard hrow
    obtain ⟨other, hother, _, rfl⟩ := mem_family.1 hversion
    obtain rfl : other = bot := List.inj_on_of_nodup_map hkeys.names_nodup
      (hbots'.subset hother) (hbots.subset hbot.1) (hname.trans hshows.versionedName)
    exact hshows.stats.symm

end TictactoeBots
