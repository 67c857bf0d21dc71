import TictactoeBots.Lib.StepSystem
import TictactoeBots.Entities.Tables
import TictactoeBots.MatchScheduler.Scheduling

/-!
The consumer of `matches.ondeck`: handlers that play a match, record it and
acknowledge the message, and a broker that delivers again what was not
acknowledged when the dispatcher dies.

A step is one await of one handler, or an event of the broker. The commit of
`record` and the acknowledgement are steps of their own.
-/

namespace TictactoeBots

open Text Python StepSystem

/-- Both bots with their pods; `none` when one of them is missing. -/
def fetchMatchBots (rows : List BotRow) (botXId botOId : ℕ) : Option (BotRow × BotRow) := do
  let botX ← rows.find? fun bot => bot.id == botXId
  let botO ← rows.find? fun bot => bot.id == botOId
  if botX.podName.isNone || botO.podName.isNone then none
  return (botX, botO)

/-- What a match runs against: the interpreter's tables, the cluster and the
network. -/
structure Surroundings where
  U : UnicodeData
  coreV1 : CoreV1
  ask : ℕ → AskPod

/-- How far a handler has got with its message. -/
inductive DeliveryStage where
  | received
  | fetched (botX botO : BotRow)
  | played (result : MatchResult)
  | recorded
  | finished
  /-- The bots were not found; the handler returns early. -/
  | skipped

structure Delivery where
  msg : MatchOndeck
  stage : DeliveryStage

/-- `published` are the correlation ids of everything that was ever published. -/
structure OndeckSystem where
  db : Db
  published : List Str
  queue : List MatchOndeck
  /-- The messages that are delivered and not acknowledged. -/
  deliveries : List Delivery

def OndeckSystem.start (bots : List BotRow) : OndeckSystem :=
  ⟨{ Db.empty with bots := bots }, [], [], []⟩

inductive OndeckAction where
  /-- `match_scheduler` publishes, with a correlation id not drawn before. -/
  | publish (msg : MatchOndeck)
  | deliver
  | fetch (delivery : ℕ)
  | play (delivery : ℕ) (env : Surroundings)
  | record (delivery : ℕ) (now : ℕ)
  /-- The event is published, or the failure to do so is swallowed. -/
  | announce (delivery : ℕ)
  | ack (delivery : ℕ)
  | die

def ondeckStep (s : OndeckSystem) : OndeckAction → Option OndeckSystem
  | .publish msg =>
      if msg.correlationId ∈ s.published then none
      else some { s with
        published := msg.correlationId :: s.published
        queue := s.queue ++ [msg] }
  | .deliver =>
      match s.queue with
      | msg :: rest => some { s with queue := rest, deliveries := ⟨msg, .received⟩ :: s.deliveries }
      | [] => none
  | .fetch i =>
      match s.deliveries[i]? with
      | some ⟨msg, .received⟩ =>
          let stage := match fetchMatchBots s.db.bots msg.botXId msg.botOId with
            | some (botX, botO) => DeliveryStage.fetched botX botO
            | none => .skipped
          some { s with deliveries := ⟨msg, stage⟩ :: s.deliveries.eraseIdx i }
      | _ => none
  | .play i env =>
      match s.deliveries[i]? with
      | some ⟨msg, .fetched botX botO⟩ =>
          -- `_fetch_match_bots` has checked that both pod names are there
          match runMatchFromPods env.U env.coreV1 env.ask (botX.podName.getD [])
            (botO.podName.getD []) 10 with
          | .ok (some result) =>
              some { s with deliveries := ⟨msg, .played result⟩ :: s.deliveries.eraseIdx i }
          -- an exception, or `record(None)`: the message is rejected and not queued again
          | _ => some { s with deliveries := s.deliveries.eraseIdx i }
      | _ => none
  | .record i now =>
      match s.deliveries[i]? with
      | some ⟨msg, .played result⟩ =>
          match s.db.record now msg.botXId msg.botOId result msg.correlationId with
          | (db, .ok ()) =>
              some { s with
                db := db
                deliveries := ⟨msg, .recorded⟩ :: s.deliveries.eraseIdx i }
          | (db, .error _) => some { s with db := db, deliveries := s.deliveries.eraseIdx i }
      | _ => none
  | .announce i =>
      match s.deliveries[i]? with
      | some ⟨msg, .recorded⟩ =>
          some { s with deliveries := ⟨msg, .finished⟩ :: s.deliveries.eraseIdx i }
      | _ => none
  | .ack i =>
      match s.deliveries[i]? with
      | some ⟨_, .finished⟩ | some ⟨_, .skipped⟩ =>
          some { s with deliveries := s.deliveries.eraseIdx i }
      | _ => none
  | .die => some { s with queue := s.deliveries.map Delivery.msg ++ s.queue, deliveries := [] }

/-! ### The possible steps

Without the indices: `others` are the deliveries that do not move. -/

inductive OndeckMoves (s : OndeckSystem) : OndeckAction → OndeckSystem → Prop
  | publish {msg : MatchOndeck} (hfresh : msg.correlationId ∉ s.published) :
      OndeckMoves s (.publish msg)
        { s with published := msg.correlationId :: s.published, queue := s.queue ++ [msg] }
  | deliver {msg : MatchOndeck} {rest : List MatchOndeck} (hqueue : s.queue = msg :: rest) :
      OndeckMoves s .deliver
        { s with queue := rest, deliveries := ⟨msg, .received⟩ :: s.deliveries }
  | fetch {i : ℕ} {msg : MatchOndeck} {botX botO : BotRow} {others : List Delivery}
      (hperm : s.deliveries.Perm (⟨msg, .received⟩ :: others))
      (hfetch : fetchMatchBots s.db.bots msg.botXId msg.botOId = some (botX, botO)) :
      OndeckMoves s (.fetch i) { s with deliveries := ⟨msg, .fetched botX botO⟩ :: others }
  | skip {i : ℕ} {msg : MatchOndeck} {others : List Delivery}
      (hperm : s.deliveries.Perm (⟨msg, .received⟩ :: others))
      (hfetch : fetchMatchBots s.db.bots msg.botXId msg.botOId = none) :
      OndeckMoves s (.fetch i) { s with deliveries := ⟨msg, .skipped⟩ :: others }
  | play {i : ℕ} {env : Surroundings} {msg : MatchOndeck} {botX botO : BotRow}
      {result : MatchResult} {others : List Delivery}
      (hperm : s.deliveries.Perm (⟨msg, .fetched botX botO⟩ :: others))
      (hrun : runMatchFromPods env.U env.coreV1 env.ask (botX.podName.getD [])
        (botO.podName.getD []) 10 = .ok (some result)) :
      OndeckMoves s (.play i env) { s with deliveries := ⟨msg, .played result⟩ :: others }
  | noResult {i : ℕ} {env : Surroundings} {msg : MatchOndeck} {botX botO : BotRow}
      {others : List Delivery}
      (hperm : s.deliveries.Perm (⟨msg, .fetched botX botO⟩ :: others))
      (hrun : ∀ result, runMatchFromPods env.U env.coreV1 env.ask (botX.podName.getD [])
        (botO.podName.getD []) 10 ≠ .ok (some result)) :
      OndeckMoves s (.play i env) { s with deliveries := others }
  | record {i now : ℕ} {msg : MatchOndeck} {result : MatchResult} {others : List Delivery}
      (hperm : s.deliveries.Perm (⟨msg, .played result⟩ :: others))
      (hrecord : (s.db.record now msg.botXId msg.botOId result msg.correlationId).2 = .ok ()) :
      OndeckMoves s (.record i now)
        { s with
          db := (s.db.record now msg.botXId msg.botOId result msg.correlationId).1
          deliveries := ⟨msg, .recorded⟩ :: others }
  | recordFails {i now : ℕ} {msg : MatchOndeck} {result : MatchResult} {exc : PyException}
      {others : List Delivery} (hperm : s.deliveries.Perm (⟨msg, .played result⟩ :: others))
      (hrecord : (s.db.record now msg.botXId msg.botOId result msg.correlationId).2 = .error exc) :
      OndeckMoves s (.record i now)
        { s with
          db := (s.db.record now msg.botXId msg.botOId result msg.correlationId).1
          deliveries := others }
  | announce {i : ℕ} {msg : MatchOndeck} {others : List Delivery}
      (hperm : s.deliveries.Perm (⟨msg, .recorded⟩ :: others)) :
      OndeckMoves s (.announce i) { s with deliveries := ⟨msg, .finished⟩ :: others }
  | ack {i : ℕ} {msg : MatchOndeck} {stage : DeliveryStage} {others : List Delivery}
      (hperm : s.deliveries.Perm (⟨msg, stage⟩ :: others))
      (hstage : stage = .finished ∨ stage = .skipped) :
      OndeckMoves s (.ack i) { s with deliveries := others }
  | die :
      OndeckMoves s .die
        { s with queue := s.deliveries.map Delivery.msg ++ s.queue, deliveries := [] }

theorem moves_of_ondeckStep {s s' : OndeckSystem} {action : OndeckAction}
    (h : ondeckStep s action = some s') : OndeckMoves s action s' := by
  cases action with
  | publish msg =>
      simp only [ondeckStep, Option.ite_none_left_eq_some, Option.some.injEq] at h
      obtain ⟨hfresh, rfl⟩ := h
      exact .publish hfresh
  | deliver =>
      simp only [ondeckStep] at h
      split at h
      · rename_i hqueue
        rw [← Option.some.inj h]
        exact .deliver hqueue
      · exact absurd h (by simp)
  | fetch i =>
      simp only [ondeckStep] at h
      split at h
      · rename_i msg hget
        have hperm := perm_cons_eraseIdx_of_getElem? hget
        rw [← Option.some.inj h]
        cases hfetch : fetchMatchBots s.db.bots msg.botXId msg.botOId with
        | none => exact .skip hperm hfetch
        | some pair => exact .fetch hperm hfetch
      · exact absurd h (by simp)
  | play i env =>
      simp only [ondeckStep] at h
      split at h
      · rename_i hget
        have hperm := perm_cons_eraseIdx_of_getElem? hget
        split at h
        · rename_i hrun
          rw [← Option.some.inj h]
          exact .play hperm hrun
        · rename_i hrun
          rw [← Option.some.inj h]
          exact .noResult hperm hrun
      · exact absurd h (by simp)
  | record i now =>
      simp only [ondeckStep] at h
      split at h
      · rename_i msg result hget
        have hperm := perm_cons_eraseIdx_of_getElem? hget
        split at h
        · rename_i db hrecord
          rw [← Option.some.inj h, show db = _ from (congrArg Prod.fst hrecord).symm]
          exact .record hperm (congrArg Prod.snd hrecord)
        · rename_i db exc hrecord
          rw [← Option.some.inj h, show db = _ from (congrArg Prod.fst hrecord).symm]
          exact .recordFails hperm (congrArg Prod.snd hrecord)
      · exact absurd h (by simp)
  | announce i =>
      simp only [ondeckStep] at h
      split at h
      · rename_i hget
        rw [← Option.some.inj h]
        exact .announce (perm_cons_eraseIdx_of_getElem? hget)
      · exact absurd h (by simp)
  | ack i =>
      simp only [ondeckStep] at h
      split at h
      · rename_i hget
        rw [← Option.some.inj h]
        exact .ack (perm_cons_eraseIdx_of_getElem? hget) (.inl rfl)
      · rename_i hget
        rw [← Option.some.inj h]
        exact .ack (perm_cons_eraseIdx_of_getElem? hget) (.inr rfl)
      · exact absurd h (by simp)
  | die =>
      rw [← Option.some.inj h]
      exact .die

/-! ### Recording at most once -/

def DeliveryStage.HasRecorded : DeliveryStage → Prop
  | .recorded | .finished => True
  | .received | .fetched _ _ | .played _ | .skipped => False

/-- The dispatcher does not die between the commit of a match and the
acknowledgement of its message. -/
def NoLateDeath (s : OndeckSystem) : OndeckAction → Prop
  | .die => ∀ delivery ∈ s.deliveries, ¬delivery.stage.HasRecorded
  | _ => True

def MatchOndeck.key (msg : MatchOndeck) : Option Str := some msg.correlationId

def Delivery.open : Delivery → List (Option Str)
  | ⟨_, .recorded⟩ | ⟨_, .finished⟩ => []
  | ⟨msg, .received⟩ | ⟨msg, .fetched _ _⟩ | ⟨msg, .played _⟩ | ⟨msg, .skipped⟩ => [msg.key]

/-- How many rows with a correlation id there are or may still come. -/
def OndeckSystem.load (s : OndeckSystem) (key : Option Str) : ℕ :=
  (s.queue.map MatchOndeck.key).count key + (s.deliveries.flatMap Delivery.open).count key +
    (s.db.matchRows.map MatchRow.correlationId).count key

theorem load_of_perm {s : OndeckSystem} {delivery : Delivery} {others : List Delivery}
    (hperm : s.deliveries.Perm (delivery :: others)) (left : List Delivery) (db : Db)
    {key : Option Str}
    (hle : (left.flatMap Delivery.open).count key +
        (db.matchRows.map MatchRow.correlationId).count key ≤
      delivery.open.count key + (s.db.matchRows.map MatchRow.correlationId).count key) :
    OndeckSystem.load { s with db := db, deliveries := left ++ others } key ≤ s.load key := by
  have hcount := (hperm.flatMap_right Delivery.open).count_eq key
  rw [List.flatMap_cons, List.count_append] at hcount
  simp only [OndeckSystem.load, List.flatMap_append, List.count_append, hcount]
  omega

theorem flatMap_open_of_not_recorded {deliveries : List Delivery}
    (h : ∀ delivery ∈ deliveries, ¬delivery.stage.HasRecorded) :
    deliveries.flatMap Delivery.open = deliveries.map fun delivery => delivery.msg.key := by
  induction deliveries with
  | nil => rfl
  | cons delivery rest ih =>
      rw [List.flatMap_cons, List.map_cons, ih fun d hd => h d (List.mem_cons_of_mem _ hd)]
      have hopen := h delivery List.mem_cons_self
      obtain ⟨msg, stage⟩ := delivery
      cases stage with
      | recorded | finished => exact absurd trivial hopen
      | received | fetched _ _ | played _ | skipped => rfl

theorem load_of_step {s s' : OndeckSystem} {action : OndeckAction} (hdeath : NoLateDeath s action)
    (h : ondeckStep s action = some s') :
    (s'.published = s.published ∧ ∀ key, s'.load key ≤ s.load key) ∨
    ∃ correlationId, correlationId ∉ s.published ∧
      s'.published = correlationId :: s.published ∧
        ∀ key, s'.load key = s.load key + [some correlationId].count key := by
  cases moves_of_ondeckStep h with
  | @publish msg hfresh =>
      refine .inr ⟨msg.correlationId, hfresh, rfl, fun key => ?_⟩
      simp only [OndeckSystem.load, List.map_append, List.map_cons, List.map_nil,
        List.count_append, MatchOndeck.key]
      omega
  | deliver hqueue =>
      refine .inl ⟨rfl, fun key => ?_⟩
      simp only [OndeckSystem.load, hqueue, List.map_cons, List.flatMap_cons, Delivery.open,
        List.count_cons, List.count_append, List.count_nil]
      omega
  | fetch hperm | skip hperm | play hperm | announce hperm =>
      exact .inl ⟨rfl, fun _ => load_of_perm hperm [_] s.db le_rfl⟩
  | noResult hperm | ack hperm =>
      exact .inl ⟨rfl, fun _ => load_of_perm hperm [] s.db (Nat.add_le_add_right (Nat.zero_le _) _)⟩
  | @record i now msg result others hperm hrecord =>
      refine .inl ⟨rfl, fun key => load_of_perm hperm [_] _ ?_⟩
      rcases s.db.record_cases now msg.botXId msg.botOId result msg.correlationId with
        ⟨⟨exc, hexc⟩, -⟩ | ⟨-, -, -, hrows⟩
      · rw [hexc] at hrecord
        cases hrecord
      -- the message has become the row
      · rw [hrows, List.map_append, List.count_append]
        exact (Nat.zero_add _).le.trans (Nat.add_comm _ _).le
  | @recordFails i now msg result exc others hperm hrecord =>
      refine .inl ⟨rfl, fun key => load_of_perm hperm [] _ ?_⟩
      rcases s.db.record_cases now msg.botXId msg.botOId result msg.correlationId with
        ⟨-, hrows⟩ | ⟨hok, -⟩
      · rw [hrows]
        exact Nat.add_le_add_right (Nat.zero_le _) _
      · rw [hok] at hrecord
        cases hrecord
  | die =>
      -- nothing in delivery has been recorded, so its messages count as much in the queue
      refine .inl ⟨rfl, fun key => ?_⟩
      simp only [OndeckSystem.load, flatMap_open_of_not_recorded hdeath, List.map_append,
        List.map_map, List.count_append, List.flatMap_nil, List.count_nil]
      simp only [Function.comp_def]
      omega

/-- The published ids are distinct and cover every row that there is or may
still be. -/
structure RecordedOnce (s : OndeckSystem) : Prop where
  published_nodup : s.published.Nodup
  covered : ∀ key, s.load key ≤ (s.published.map some).count key

theorem RecordedOnce.step {s s' : OndeckSystem} {action : OndeckAction} (hs : RecordedOnce s)
    (hdeath : NoLateDeath s action) (h : ondeckStep s action = some s') : RecordedOnce s' := by
  obtain ⟨hsame, hle⟩ | ⟨correlationId, hfresh, hpub, hload⟩ := load_of_step hdeath h
  · refine ⟨?_, fun key => ?_⟩
    · rw [hsame]
      exact hs.published_nodup
    · rw [hsame]
      exact (hle key).trans (hs.covered key)
  · refine ⟨?_, fun key => ?_⟩
    · rw [hpub]
      exact List.nodup_cons.2 ⟨hfresh, hs.published_nodup⟩
    · have hcovered := hs.covered key
      rw [hload, hpub]
      simp only [List.map_cons, List.count_cons, List.count_nil]
      omega

theorem RecordedOnce.start (bots : List BotRow) : RecordedOnce (OndeckSystem.start bots) where
  published_nodup := List.nodup_nil
  covered key := by simp [OndeckSystem.load, OndeckSystem.start, Db.empty]

/-- With distinct correlation ids, no two matches carry the same one in a run
in which the dispatcher never dies between the commit of a match and the
acknowledgement of its message. -/
theorem match_recorded_once {bots : List BotRow} {s : OndeckSystem}
    (h : Via ondeckStep NoLateDeath (OndeckSystem.start bots) s) :
    (s.db.matchRows.map MatchRow.correlationId).Nodup := by
  have hinv : RecordedOnce s := h.invariant (.start bots)
    fun _ _ _ hs hdeath hstep => hs.step hdeath hstep
  apply List.nodup_iff_count_le_one.2
  intro key
  have hone := List.nodup_iff_count_le_one.1
    (hinv.published_nodup.map (Option.some_injective _)) key
  have hcovered := hinv.covered key
  simp only [OndeckSystem.load] at hcovered
  omega

instance : ∀ stage : DeliveryStage, Decidable stage.HasRecorded
  | .recorded | .finished => .isTrue trivial
  | .received | .fetched _ _ | .played _ | .skipped => .isFalse id

instance (s : OndeckSystem) : ∀ action, Decidable (NoLateDeath s action)
  | .die => inferInstanceAs (Decidable (∀ delivery ∈ s.deliveries, ¬delivery.stage.HasRecorded))
  | .publish _ | .deliver | .fetch _ | .play _ _ | .record _ _ | .announce _ | .ack _ =>
      .isTrue trivial

/-- Pods that answer with neither a board nor an error. -/
def silentPods : Surroundings :=
  ⟨asciiData, ⟨fun _ _ => .ok ⟨⟨some (str "10.0.0.1")⟩⟩⟩, fun _ _ _ _ _ => .ok ⟨.null, .null⟩⟩

theorem match_recorded_once_earlyDeath :
    ∃ s, Via ondeckStep NoLateDeath (OndeckSystem.start [plainBotReady 1]) s ∧
      s.db.matchRows.length = 1 ∧ (s.db.matchRows.map MatchRow.correlationId).Nodup := by
  have hrun : Via ondeckStep NoLateDeath (OndeckSystem.start [plainBotReady 1]) _ :=
    via_of_execVia [.publish ⟨1, 1, str "c1"⟩, .deliver, .fetch 0, .play 0 silentPods, .die,
      .deliver, .fetch 0, .play 0 silentPods, .record 0 5, .announce 0, .ack 0] rfl
  exact ⟨_, hrun, rfl, match_recorded_once hrun⟩

/-- The dispatcher dies after the commit and before the acknowledgement: the
message comes back, and the match is played and recorded a second time. -/
theorem match_recorded_twice :
    ∃ s, Reachable ondeckStep (OndeckSystem.start [plainBotReady 1]) s ∧
      ¬(s.db.matchRows.map MatchRow.correlationId).Nodup := by
  have hrun : Reachable ondeckStep (OndeckSystem.start [plainBotReady 1]) _ :=
    reachable_of_exec [.publish ⟨1, 1, str "c1"⟩, .deliver, .fetch 0, .play 0 silentPods,
      .record 0 5, .die, .deliver, .fetch 0, .play 0 silentPods, .record 0 6] rfl
  exact ⟨_, hrun, by decide⟩

end TictactoeBots
