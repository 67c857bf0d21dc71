import TictactoeBots.Entities.Leaderboard
import TictactoeBots.Web.VersionNames

/-!
The leaderboard while bots are submitted and matches are recorded.

The two kinds of steps share the tables only. A recorded match leaves the bots
alone, and submissions keep the names and the versions unique.
-/

namespace TictactoeBots

open Text Python StepSystem

variable {py : Interpreter}

inductive TableAction where
  | submit (action : SubmitAction)
  | recordMatch (now botXId botOId : ℕ) (result : MatchResult) (correlationId : Str)

def tableStep (s : SubmitSystem py) : TableAction → Option (SubmitSystem py)
  | .submit action => submitStep s action
  | .recordMatch now botXId botOId result correlationId =>
      some { s with db := (s.db.record now botXId botOId result correlationId).1 }

/-- The versions are in order and the names unique. -/
structure TablesSound (s : SubmitSystem py) : Prop extends VersionsSound s where
  names_nodup : (s.db.bots.map BotRow.versionedName).Nodup

theorem TablesSound.botKeys {s : SubmitSystem py} (h : TablesSound s) : BotKeys s.db.bots where
  names_nodup := h.names_nodup
  version_inj bot hbot other hother hbase hversion := by
    have hname : bot.versionedName = other.versionedName := by
      rw [h.named bot hbot, h.named other hother, hbase, hversion]
    exact List.inj_on_of_nodup_map h.names_nodup hbot hother hname

theorem tablesSound_start : TablesSound (SubmitSystem.start py) where
  rows := rfl
  numbered _ := rfl
  named _ hbot := absurd hbot List.not_mem_nil
  fromUpload _ hins := absurd hins List.not_mem_nil
  running _ hr := absurd hr List.not_mem_nil
  names_nodup := List.nodup_nil

theorem tablesSound_step {s s' : SubmitSystem py} {action : TableAction} (h : TablesSound s)
    (hstep : tableStep s action = some s') : TablesSound s' := by
  cases action with
  | submit action =>
      refine ⟨versionsSound_step h.toVersionsSound hstep, ?_⟩
      rcases db_of_submitStep hstep with heq | ⟨now, new, heq⟩
      · rw [heq]
        exact h.names_nodup
      · rw [heq]
        exact Db.create_names_nodup h.names_nodup now new
  | recordMatch now botXId botOId result correlationId =>
      have hbots := s.db.record_bots now botXId botOId result correlationId
      rw [← Option.some.inj hstep]
      refine ⟨⟨⟨?_, ?_, ?_, h.fromUpload⟩, ?_⟩, ?_⟩ <;> simp only [hbots]
      exacts [h.rows, h.numbered, h.named, h.running, h.names_nodup]

/-- However submissions and recorded matches interleave, the leaderboard has one
row for each family, its highest version, in order and with the statistics of
the family page. -/
theorem leaderboard_shape {s : SubmitSystem py}
    (h : Reachable tableStep (SubmitSystem.start py) s) (bots bots' : List BotRow)
    (hbots : bots.Perm s.db.bots) (hbots' : bots'.Perm s.db.bots) :
    LeaderboardShape s.db (leaderboard s.db bots) (family s.db bots') := by
  have hsound : TablesSound s :=
    h.invariant tablesSound_start fun s action s' hs hstep => tablesSound_step hs hstep
  exact leaderboardShape hsound.botKeys hbots hbots'

/-- `Foo` is submitted twice, and the two versions play a match in between
which the older one wins. -/
def twoVersions : List TableAction :=
  [ .submit (.arrive namedUpload), .submit (.arrive namedUpload),
    .submit (.selectOwner 1 [] (plainToken 0x61 hexValue_a)),
    .submit (.selectOwner 1 [] (plainToken 0x61 hexValue_a)),
    .submit (.selectVersion 1), .submit (.insert 0 0), .submit (.selectVersion 0),
    .submit (.insert 0 1), .recordMatch 2 1 2 ⟨.xWins, []⟩ (str "c1") ]

theorem leaderboard_shape_twoVersions :
    ∃ s, exec tableStep (SubmitSystem.start literalModules) twoVersions = some s ∧
      s.db.bots.length = 2 ∧ s.db.matchRows.length = 1 ∧
      LeaderboardShape s.db (leaderboard s.db s.db.bots) (family s.db s.db.bots) :=
  ⟨_, rfl, rfl, rfl, leaderboard_shape (reachable_of_exec twoVersions rfl) _ _ (.refl _) (.refl _)⟩

end TictactoeBots
