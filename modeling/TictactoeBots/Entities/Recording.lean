import TictactoeBots.Lib.StepSystem
import TictactoeBots.Entities.Tables

/-!
Databases that come about by inserting bots and recording matches.

The label of a step carries the arguments of the call and the clock. A call
that fails is a step too; it changes no row.
-/

namespace TictactoeBots

open Text Python StepSystem

inductive DbAction where
  | insertBot (now : ℕ) (new : NewBot)
  | recordMatch (now botXId botOId : ℕ) (result : MatchResult) (correlationId : Str)

def dbStep (db : Db) : DbAction → Option Db
  | .insertBot now new => some (db.create now new).1
  | .recordMatch now botXId botOId result correlationId =>
      some (db.record now botXId botOId result correlationId).1

/-- What holds of the rows of every database the program writes: bot ids are
unique, the sides of a match are bots, and the winner is the side that the
result names. -/
structure Db.Consistent (db : Db) : Prop where
  ids_nodup : (db.bots.map BotRow.id).Nodup
  ids_le : ∀ bot ∈ db.bots, bot.id ≤ db.botSeq
  side_x : ∀ m ∈ db.matchRows, m.botXId ∈ db.bots.map BotRow.id
  side_o : ∀ m ∈ db.matchRows, m.botOId ∈ db.bots.map BotRow.id
  winner : ∀ m ∈ db.matchRows, m.winnerId = winnerIdFor m.result m.botXId m.botOId

theorem Db.consistent_empty : Db.empty.Consistent := by
  constructor <;> simp [Db.empty]

theorem Db.Consistent.create {db : Db} (h : db.Consistent) (now : ℕ) (new : NewBot) :
    (db.create now new).1.Consistent := by
  obtain ⟨_, exc, seq, hseq, heq⟩ | ⟨_, heq⟩ := db.create_cases now new
  · rw [heq]
    exact ⟨h.ids_nodup, fun bot hbot => (h.ids_le bot hbot).trans hseq, h.side_x, h.side_o,
      h.winner⟩
  · have hids : (db.bots ++ [new.row (db.botSeq + 1) now]).map BotRow.id =
        db.bots.map BotRow.id ++ [db.botSeq + 1] := by
      simp [NewBot.row]
    rw [heq]
    refine ⟨?_, ?_, ?_, ?_, h.winner⟩
    · rw [hids]
      refine List.nodup_append.2 ⟨h.ids_nodup, List.nodup_singleton _, ?_⟩
      intro id hid id' hid' heq
      obtain ⟨bot, hbot, rfl⟩ := List.mem_map.1 hid
      have hle := h.ids_le bot hbot
      rw [List.mem_singleton] at hid'
      omega
    · intro bot hbot
      obtain hold | hnew := List.mem_append.1 hbot
      · exact (h.ids_le bot hold).trans (Nat.le_succ _)
      · rw [List.mem_singleton.1 hnew]
        exact le_rfl
    · rw [hids]
      exact fun m hm => List.mem_append_left _ (h.side_x m hm)
    · rw [hids]
      exact fun m hm => List.mem_append_left _ (h.side_o m hm)

theorem Db.mem_ids_of_hasBot {db : Db} {id : ℕ} (h : db.hasBot id) :
    id ∈ db.bots.map BotRow.id := by
  simpa [Db.hasBot] using h

theorem Db.record_botSeq (db : Db) (now botXId botOId : ℕ) (result : MatchResult)
    (correlationId : Str) :
    (db.record now botXId botOId result correlationId).1.botSeq = db.botSeq := by
  unfold Db.record
  simp only
  split_ifs <;> try rfl
  split <;> rfl

theorem Db.Consistent.record {db : Db} (h : db.Consistent) (now botXId botOId : ℕ)
    (result : MatchResult) (correlationId : Str) :
    (db.record now botXId botOId result correlationId).1.Consistent := by
  have hbots := db.record_bots now botXId botOId result correlationId
  have hseq := db.record_botSeq now botXId botOId result correlationId
  rcases db.record_cases now botXId botOId result correlationId with
    ⟨_, hsame⟩ | ⟨_, hx, ho, hadded⟩
  · refine ⟨?_, ?_, ?_, ?_, ?_⟩ <;> simp only [hbots, hseq, hsame]
    exacts [h.ids_nodup, h.ids_le, h.side_x, h.side_o, h.winner]
  · have hx := Db.mem_ids_of_hasBot hx
    have ho := Db.mem_ids_of_hasBot ho
    refine ⟨?_, ?_, ?_, ?_, ?_⟩ <;> simp only [hbots, hseq, hadded, List.forall_mem_append,
      List.forall_mem_singleton]
    exacts [h.ids_nodup, h.ids_le, ⟨h.side_x, hx⟩, ⟨h.side_o, ho⟩, ⟨h.winner, trivial⟩]

theorem Db.Consistent.step {db db' : Db} {action : DbAction} (h : db.Consistent)
    (hstep : dbStep db action = some db') : db'.Consistent := by
  cases action with
  | insertBot now new =>
      rw [← Option.some.inj hstep]
      exact h.create now new
  | recordMatch now botXId botOId result correlationId =>
      rw [← Option.some.inj hstep]
      exact h.record now botXId botOId result correlationId

theorem consistent_of_reachable {db : Db} (h : Reachable dbStep Db.empty db) : db.Consistent :=
  h.invariant Db.consistent_empty fun _ _ _ hdb hstep => hdb.step hstep

/-- One bot is inserted, plays itself, and forfeits on the first move. -/
def forfeitedSelfMatch : List DbAction :=
  [ .insertBot 0 ⟨str "Foo", str "Foo", 1, str "token", str "3.14", str "python-3.14", none⟩,
    .recordMatch 1 1 1 ⟨.xForfeit,
      [⟨1, .x, boardToStr emptyBoard, .str (str "no output")⟩]⟩ (str "c1") ]

end TictactoeBots
