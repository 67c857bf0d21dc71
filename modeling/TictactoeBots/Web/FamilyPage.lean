import TictactoeBots.Entities.Leaderboard
import TictactoeBots.Entities.MatchRepository

/-!
The page of a bot family: its versions with their statistics, and under each
version the matches that it played.

The statistics are counted by the database, by the id of the bot. The matches
are grouped by the web server, by the name of the version. Names are unique, so
the two agree.
-/

namespace TictactoeBots

open Text StepSystem Sql

/-! ### `group_matches_by_version` -/

/-- A dict that is only looked up: its order is not used. -/
abbrev Grouped (μ : Type*) := Str → Option (List μ)

/-- `grouped[name].append(m)`; `none` for the `KeyError`. -/
def Grouped.append {μ : Type*} (grouped : Grouped μ) (name : Str) (m : μ) : Option (Grouped μ) :=
  (grouped name).map fun shown => Function.update grouped name (some (shown ++ [m]))

section Grouping

-- the rows are duck-typed: what is used of them are the names
variable {ν μ : Type*} (versionedName : ν → Str) (botX botO : μ → Str)

/-- The body of the loop. -/
def groupMatch (versionedNames : List Str) (grouped : Grouped μ) (m : μ) : Option (Grouped μ) := do
  let grouped ← (if botX m ∈ versionedNames then grouped.append (botX m) m else some grouped)
  if botO m ∈ versionedNames ∧ botO m ≠ botX m then grouped.append (botO m) m else some grouped

def groupMatchesByVersion (versions : List ν) (matchRows : List μ) : Option (Grouped μ) :=
  let versionedNames := versions.map versionedName
  let grouped : Grouped μ := fun name => if name ∈ versionedNames then some [] else none
  matchRows.foldlM (groupMatch botX botO versionedNames) grouped

def listed (versionedNames : List Str) (shown : Str → List μ) : Grouped μ :=
  fun name => if name ∈ versionedNames then some (shown name) else none

theorem listed_congr {versionedNames : List Str} {shown shown' : Str → List μ}
    (h : ∀ name ∈ versionedNames, shown name = shown' name) :
    listed versionedNames shown = listed versionedNames shown' := by
  funext name
  unfold listed
  split
  · rename_i hname
    rw [h name hname]
  · rfl

theorem append_listed {versionedNames : List Str} {name : Str} (h : name ∈ versionedNames)
    (shown : Str → List μ) (m : μ) :
    (listed versionedNames shown).append name m =
      some (listed versionedNames fun key => shown key ++ if key = name then [m] else []) := by
  rw [Grouped.append, listed, if_pos h, Option.map_some]
  apply congrArg some
  funext key
  by_cases hkey : key = name
  · subst hkey
    simp [listed, h]
  · simp [listed, hkey]

theorem groupMatch_listed (versionedNames : List Str) (shown : Str → List μ) (m : μ) :
    groupMatch botX botO versionedNames (listed versionedNames shown) m =
      some (listed versionedNames fun name =>
        shown name ++ [m].filter fun m => botX m = name ∨ botO m = name) := by
  have hx : (if botX m ∈ versionedNames then (listed versionedNames shown).append (botX m) m
      else some (listed versionedNames shown)) =
        some (listed versionedNames fun name =>
          shown name ++ if name = botX m then [m] else []) := by
    split
    · rename_i hmem
      exact append_listed hmem shown m
    · rename_i hmem
      apply congrArg some
      apply listed_congr
      intro name hname
      rw [if_neg (ne_of_mem_of_not_mem hname hmem), List.append_nil]
  rw [groupMatch, hx, Option.bind_eq_bind, Option.bind_some]
  split
  · rename_i ho
    rw [append_listed ho.1]
    apply congrArg some
    apply listed_congr
    intro name _
    rw [List.append_assoc]
    by_cases hnameX : name = botX m
    · subst hnameX
      simp [ho.2.symm]
    · by_cases hnameO : name = botO m
      · simp [hnameO, ho.2]
      · simp [hnameX, hnameO, Ne.symm hnameX, Ne.symm hnameO]
  · rename_i ho
    apply congrArg some
    apply listed_congr
    intro name hname
    by_cases hnameX : name = botX m
    · simp [hnameX]
    · have hnameO : botO m ≠ name := by
        rintro rfl
        exact ho ⟨hname, hnameX⟩
      simp [hnameX, hnameO, Ne.symm hnameX]

theorem groupMatchesByVersion_eq (versions : List ν) (matchRows : List μ) :
    groupMatchesByVersion versionedName botX botO versions matchRows =
      some (listed (versions.map versionedName) fun name =>
        matchRows.filter fun m => botX m = name ∨ botO m = name) := by
  have hloop : ∀ (rest : List μ) (shown : Str → List μ),
      rest.foldlM (groupMatch botX botO (versions.map versionedName))
          (listed (versions.map versionedName) shown) =
        some (listed (versions.map versionedName) fun name =>
          shown name ++ rest.filter fun m => botX m = name ∨ botO m = name) := by
    intro rest
    induction rest with
    | nil =>
        intro shown
        simp
    | cons m rest ih =>
        intro shown
        rw [List.foldlM_cons, groupMatch_listed, Option.bind_eq_bind, Option.bind_some, ih]
        simp only [List.append_assoc, ← List.filter_append, List.singleton_append]
  exact hloop matchRows fun _ => []

end Grouping

/-! ### The page -/

/-- What the template is rendered with. -/
structure BotDetail where
  baseName : Str
  versions : List FamilyRow
  groupedMatches : Grouped MatchSelectRow

/-- The outer `none` is a `KeyError`, the inner one the page for what is not
found. -/
def botFamily (db : Db) (bots : List BotRow) (matchRows : List MatchRow) (baseName : Str) :
    Option (Option BotDetail) := do
  let versions := family db bots baseName
  if versions.isEmpty then return none
  let matchRows := listForBot bots matchRows baseName
  let grouped ← groupMatchesByVersion FamilyRow.versionedName MatchSelectRow.botX
    MatchSelectRow.botO versions matchRows
  return some ⟨baseName, versions, grouped⟩

/-- The matches that a page shows under a version are as many as its statistics
count. -/
def BotDetail.Agrees (page : BotDetail) : Prop :=
  ∀ v ∈ page.versions, ∃ shown, page.groupedMatches v.versionedName = some shown ∧
    shown.length = v.stats.cleanWins + v.stats.forfeitWins + v.stats.draws + v.stats.losses

theorem botFamily_eq (db : Db) (bots : List BotRow) (matchRows : List MatchRow) (baseName : Str) :
    botFamily db bots matchRows baseName =
      some (if (family db bots baseName).isEmpty then none else some
        { baseName := baseName
          versions := family db bots baseName
          groupedMatches :=
            listed ((family db bots baseName).map FamilyRow.versionedName) fun name =>
              (listForBot bots matchRows baseName).filter fun m =>
                m.botX = name ∨ m.botO = name }) := by
  rw [botFamily]
  simp only [groupMatchesByVersion_eq, Option.bind_eq_bind, Option.bind_some]
  split <;> rfl

theorem Db.Consistent.length_shown {db : Db} (h : db.Consistent)
    (hnames : (db.bots.map BotRow.versionedName).Nodup) {bots : List BotRow}
    {matchRows : List MatchRow} (hbots : bots.Perm db.bots)
    (hmatches : matchRows.Perm db.matchRows) {bot : BotRow} (hbot : bot ∈ bots) :
    ((listForBot bots matchRows bot.baseName).filter fun m =>
        m.botX = bot.versionedName ∨ m.botO = bot.versionedName).length =
      (perVersionStats db.matchRows bot.id).cleanWins +
        (perVersionStats db.matchRows bot.id).forfeitWins +
        (perVersionStats db.matchRows bot.id).draws +
        (perVersionStats db.matchRows bot.id).losses := by
  have hread := (h.perm hbots hmatches).countP_listForBot
    ((hbots.map BotRow.versionedName).nodup_iff.2 hnames) hbot
  rw [← List.countP_eq_length_filter, hread, perVersionStats_sum h.winner,
    hmatches.countP_eq]

theorem family_isEmpty (db : Db) (bots : List BotRow) (baseName : Str) :
    (family db bots baseName).isEmpty ↔ baseName ∉ bots.map BotRow.baseName := by
  rw [List.isEmpty_iff, List.eq_nil_iff_forall_not_mem]
  constructor
  · intro hempty hbase
    obtain ⟨bot, hbot, hbot'⟩ := List.mem_map.1 hbase
    exact hempty _ (mem_family.2 ⟨bot, hbot, hbot', rfl⟩)
  · intro hbase v hv
    obtain ⟨bot, hbot, rfl, rfl⟩ := mem_family.1 hv
    exact hbase (List.mem_map_of_mem hbot)

/-- The page of a family lists the matches of each version completely, and as
many as its statistics say. -/
theorem familyPage_complete :
    (∀ {ν μ : Type} (versionedName : ν → Str) (botX botO : μ → Str) (versions : List ν)
        (matchRows : List μ), ∃ grouped,
      groupMatchesByVersion versionedName botX botO versions matchRows = some grouped ∧
        ∀ v ∈ versions, grouped (versionedName v) =
          some (matchRows.filter fun m => botX m = versionedName v ∨ botO m = versionedName v)) ∧
    ∀ db, Reachable dbStep Db.empty db → ∀ bots matchRows, bots.Perm db.bots →
      matchRows.Perm db.matchRows → ∀ baseName, ∃ page,
        botFamily db bots matchRows baseName = some page ∧
          (page = none ↔ baseName ∉ db.bots.map BotRow.baseName) ∧
          ∀ detail, page = some detail → detail.versions = family db bots baseName ∧
            detail.Agrees := by
  refine ⟨fun versionedName botX botO versions matchRows => ?_,
    fun db h bots matchRows hbots hmatches baseName => ?_⟩
  · refine ⟨_, groupMatchesByVersion_eq versionedName botX botO versions matchRows, ?_⟩
    intro v hv
    exact if_pos (List.mem_map_of_mem hv)
  · refine ⟨_, botFamily_eq db bots matchRows baseName, ?_, ?_⟩
    · have hbases := (hbots.map BotRow.baseName).mem_iff (a := baseName)
      rw [← hbases, ← family_isEmpty db bots baseName]
      split
      · rename_i hempty
        exact iff_of_true rfl hempty
      · rename_i hempty
        exact iff_of_false (Option.some_ne_none _) hempty
    · intro detail hdetail
      split at hdetail
      · cases hdetail
      obtain rfl := Option.some.inj hdetail
      refine ⟨rfl, fun v hv => ⟨_, if_pos (List.mem_map_of_mem hv), ?_⟩⟩
      obtain ⟨bot, hbot, rfl, rfl⟩ := mem_family.1 hv
      exact (consistent_of_reachable h).length_shown (names_nodup_of_reachable h) hbots hmatches
        hbot

def twoVersionMatches : List DbAction :=
  [ .insertBot 0 ⟨str "Foo", str "Foo", 1, str "token", str "3.14", str "python-3.14", none⟩,
    .insertBot 1 ⟨str "Foo", str "FooV2", 2, str "token", str "3.14", str "python-3.14", none⟩,
    .recordMatch 2 2 1 ⟨.xWins, []⟩ (str "c1"), .recordMatch 3 2 2 ⟨.xForfeit, []⟩ (str "c2") ]

theorem familyPage_complete_twoVersions :
    ∃ db, exec dbStep Db.empty twoVersionMatches = some db ∧ ∃ page,
      botFamily db db.bots db.matchRows (str "Foo") = some page ∧ page ≠ none ∧
        ∀ detail, page = some detail →
          detail.versions = family db db.bots (str "Foo") ∧ detail.Agrees := by
  refine ⟨_, rfl, ?_⟩
  obtain ⟨page, hpage, hnone, hsome⟩ := familyPage_complete.2 _
    (reachable_of_exec twoVersionMatches rfl) _ _ (.refl _) (.refl _) (str "Foo")
  refine ⟨page, hpage, ?_, hsome⟩
  rw [ne_eq, hnone]
  decide

end TictactoeBots
