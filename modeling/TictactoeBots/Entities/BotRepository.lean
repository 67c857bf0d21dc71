import TictactoeBots.Entities.Tables

/-!
The queries of `BotRepository` that the pipeline makes, and `set_pod_ready`.

None of the selects has an `ORDER BY`, so each of them takes the rows in the
order in which the database happens to return them.
-/

namespace TictactoeBots

open Text

/-- `SELECT owner_token ... WHERE base_name = ... LIMIT 1`. -/
def ownerToken (rows : List BotRow) (baseName : Str) : Option Str :=
  (rows.find? fun bot => bot.baseName == baseName).map BotRow.ownerToken

/-- `SELECT max(version)`, `NULL` over no rows, then `(current or 0) + 1`. -/
def nextVersion (rows : List BotRow) (baseName : Str) : ℕ :=
  (((rows.filter fun bot => bot.baseName == baseName).map BotRow.version).max?).getD 0 + 1

def readyBots (rows : List BotRow) : List BotRow := rows.filter BotRow.podReady

/-- A bot that does not exist is left alone. -/
def setPodReady (rows : List BotRow) (botId : ℕ) (podName : Str) : List BotRow :=
  rows.map fun bot =>
    if bot.id = botId then { bot with podReady := true, podName := some podName } else bot

def readyIds (rows : List BotRow) : List ℕ := (readyBots rows).map BotRow.id

@[simp] theorem map_id_setPodReady (rows : List BotRow) (botId : ℕ) (podName : Str) :
    (setPodReady rows botId podName).map BotRow.id = rows.map BotRow.id := by
  simp only [setPodReady, List.map_map]
  apply List.map_congr_left
  intro bot _
  by_cases h : bot.id = botId <;> simp [h]

theorem mem_readyIds {rows : List BotRow} {id : ℕ} :
    id ∈ readyIds rows ↔ ∃ bot ∈ rows, bot.podReady ∧ bot.id = id := by
  simp [readyIds, readyBots, and_assoc]

theorem mem_readyIds_setPodReady {rows : List BotRow} {botId id : ℕ} {podName : Str} :
    id ∈ readyIds (setPodReady rows botId podName) ↔
      id ∈ readyIds rows ∨ (id = botId ∧ id ∈ rows.map BotRow.id) := by
  simp only [mem_readyIds, setPodReady, List.mem_map]
  constructor
  · rintro ⟨_, ⟨bot, hbot, rfl⟩, hready, hid⟩
    by_cases h : bot.id = botId
    · rw [if_pos h] at hid
      exact .inr ⟨hid.symm.trans h, bot, hbot, hid⟩
    · rw [if_neg h] at hready hid
      exact .inl ⟨bot, hbot, hready, hid⟩
  · rintro (⟨bot, hbot, hready, rfl⟩ | ⟨rfl, bot, hbot, rfl⟩)
    · refine ⟨_, ⟨bot, hbot, rfl⟩, ?_, ?_⟩ <;> by_cases h : bot.id = botId <;> simp [h, hready]
    · exact ⟨_, ⟨bot, hbot, rfl⟩, by simp, by simp⟩

theorem readyIds_sublist (rows : List BotRow) : (readyIds rows).Sublist (rows.map BotRow.id) :=
  List.filter_sublist.map _

end TictactoeBots
