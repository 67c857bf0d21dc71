import TictactoeBots.Lib.StepSystem
import TictactoeBots.Entities.BotRepository
import TictactoeBots.Dispatcher.Pods

/-!
From built pods to scheduled matches: the last two steps of `pod_builder`, the
`matches.schedule` queue, and the handlers of `match_scheduler`.

A `pod_builder` handler commits `set_pod_ready` and then publishes the
`PodReadyMessage`. A scheduler handler reads the ready bots from the database
and then publishes the pairings one by one. Both are interrupted at every
await: a step of the system is one commit, one read or one publish, of any
process. How many scheduler handlers may run at once is not fixed here.
-/

namespace TictactoeBots

open Text StepSystem

structure MatchOndeck where
  botXId : ℕ
  botOId : ℕ
  correlationId : Str

def MatchOndeck.pairing (msg : MatchOndeck) : ℕ × ℕ := (msg.botXId, msg.botOId)

/-- The messages that `_enqueue_matches` publishes, in order, by their sides. -/
def pairings (botId : ℕ) (ready : List BotRow) : List (ℕ × ℕ) :=
  ready.flatMap fun other =>
    (botId, other.id) :: if other.id ≠ botId then [(other.id, botId)] else []

/-- Where a handler of a `PodReadyMessage` is: before the read of the ready
bots, or with the messages it has still to publish. -/
inductive HandlerStage where
  | received
  | publishing (pending : List (ℕ × ℕ))

structure Handler where
  botId : ℕ
  stage : HandlerStage

/-- `builds` are the bots whose pod is being built, `notifying` those that are
ready and not announced yet, and `schedule`, `handled` and `failed` those whose
message is queued, has been handled, or has made its handler raise. -/
structure Pipeline where
  bots : List BotRow
  builds : List ℕ
  notifying : List ℕ
  schedule : List ℕ
  handlers : List Handler
  handled : List ℕ
  failed : List ℕ
  /-- Everything that was published to `matches.ondeck`. -/
  ondeck : List MatchOndeck

/-- No pod is ready yet and every queue is empty. -/
def Pipeline.start (bots : List BotRow) (builds : List ℕ) : Pipeline where
  bots := bots.map fun bot => { bot with podReady := false, podName := none }
  builds := builds
  notifying := []
  schedule := []
  handlers := []
  handled := []
  failed := []
  ondeck := []

inductive PipelineAction where
  | commitReady (botId : ℕ)
  | publishReady (botId : ℕ)
  /-- The `pod_builder` handler ends before its next step. -/
  | builderFails (botId : ℕ)
  | deliver
  /-- A handler reads the ready bots, which arrive in some order. -/
  | readReady (handler : ℕ) (ready : List BotRow)
  | publishNext (handler : ℕ) (correlationId : Str)
  | finish (handler : ℕ)
  /-- A handler raises; its message is rejected and not queued again. -/
  | raises (handler : ℕ)

def pipelineStep (s : Pipeline) : PipelineAction → Option Pipeline
  | .commitReady botId =>
      if botId ∈ s.builds then
        some { s with
          bots := setPodReady s.bots botId (podName botId)
          builds := s.builds.erase botId
          notifying := botId :: s.notifying }
      else none
  | .publishReady botId =>
      if botId ∈ s.notifying then
        some { s with
          notifying := s.notifying.erase botId
          schedule := s.schedule ++ [botId] }
      else none
  | .builderFails botId =>
      if botId ∈ s.builds then some { s with builds := s.builds.erase botId }
      else if botId ∈ s.notifying then some { s with notifying := s.notifying.erase botId }
      else none
  | .deliver =>
      match s.schedule with
      | botId :: rest =>
          some { s with schedule := rest, handlers := ⟨botId, .received⟩ :: s.handlers }
      | [] => none
  | .readReady i ready =>
      match s.handlers[i]? with
      | some ⟨botId, .received⟩ =>
          if ready.Perm (readyBots s.bots) then
            some { s with
              handlers := ⟨botId, .publishing (pairings botId ready)⟩ :: s.handlers.eraseIdx i }
          else none
      | _ => none
  | .publishNext i correlationId =>
      match s.handlers[i]? with
      | some ⟨botId, .publishing ((x, o) :: rest)⟩ =>
          some { s with
            handlers := ⟨botId, .publishing rest⟩ :: s.handlers.eraseIdx i
            ondeck := s.ondeck ++ [⟨x, o, correlationId⟩] }
      | _ => none
  | .finish i =>
      match s.handlers[i]? with
      | some ⟨botId, .publishing []⟩ =>
          some { s with handlers := s.handlers.eraseIdx i, handled := botId :: s.handled }
      | _ => none
  | .raises i =>
      match s.handlers[i]? with
      | some ⟨botId, _⟩ =>
          some { s with handlers := s.handlers.eraseIdx i, failed := botId :: s.failed }
      | none => none

def plainBot (id : ℕ) : BotRow :=
  NewBot.row ⟨decimal id, decimal id, 1, str "token", str "3.14", str "python-3.14", none⟩ id 0

def plainBotReady (id : ℕ) : BotRow :=
  { plainBot id with podReady := true, podName := some (podName id) }

/-! ### What a step can do

`PipelineMoves` lists the steps without the indices: a handler that moves is
taken out of the running ones, `others` being the rest. -/

inductive PipelineMoves (s : Pipeline) : PipelineAction → Pipeline → Prop
  | commitReady {botId : ℕ} (hbuild : botId ∈ s.builds) :
      PipelineMoves s (.commitReady botId)
        { s with
          bots := setPodReady s.bots botId (podName botId)
          builds := s.builds.erase botId
          notifying := botId :: s.notifying }
  | publishReady {botId : ℕ} (hnotify : botId ∈ s.notifying) :
      PipelineMoves s (.publishReady botId)
        { s with
          notifying := s.notifying.erase botId
          schedule := s.schedule ++ [botId] }
  | buildFails {botId : ℕ} (hbuild : botId ∈ s.builds) :
      PipelineMoves s (.builderFails botId) { s with builds := s.builds.erase botId }
  | notifyFails {botId : ℕ} (hnotify : botId ∈ s.notifying) :
      PipelineMoves s (.builderFails botId) { s with notifying := s.notifying.erase botId }
  | deliver {botId : ℕ} {rest : List ℕ} (hqueue : s.schedule = botId :: rest) :
      PipelineMoves s .deliver
        { s with schedule := rest, handlers := ⟨botId, .received⟩ :: s.handlers }
  | readReady {i botId : ℕ} {ready : List BotRow} {others : List Handler}
      (hget : s.handlers[i]? = some ⟨botId, .received⟩)
      (hperm : s.handlers.Perm (⟨botId, .received⟩ :: others))
      (hready : ready.Perm (readyBots s.bots)) :
      PipelineMoves s (.readReady i ready)
        { s with handlers := ⟨botId, .publishing (pairings botId ready)⟩ :: others }
  | publishNext {i botId x o : ℕ} {rest : List (ℕ × ℕ)} {correlationId : Str}
      {others : List Handler}
      (hperm : s.handlers.Perm (⟨botId, .publishing ((x, o) :: rest)⟩ :: others)) :
      PipelineMoves s (.publishNext i correlationId)
        { s with
          handlers := ⟨botId, .publishing rest⟩ :: others
          ondeck := s.ondeck ++ [⟨x, o, correlationId⟩] }
  | finish {i botId : ℕ} {others : List Handler}
      (hperm : s.handlers.Perm (⟨botId, .publishing []⟩ :: others)) :
      PipelineMoves s (.finish i) { s with handlers := others, handled := botId :: s.handled }
  | raises {i botId : ℕ} {stage : HandlerStage} {others : List Handler}
      (hperm : s.handlers.Perm (⟨botId, stage⟩ :: others)) :
      PipelineMoves s (.raises i) { s with handlers := others, failed := botId :: s.failed }

theorem moves_of_step {s s' : Pipeline} {action : PipelineAction}
    (h : pipelineStep s action = some s') : PipelineMoves s action s' := by
  cases action with
  | commitReady botId =>
      simp only [pipelineStep, Option.ite_none_right_eq_some, Option.some.injEq] at h
      obtain ⟨hbuild, rfl⟩ := h
      exact .commitReady hbuild
  | publishReady botId =>
      simp only [pipelineStep, Option.ite_none_right_eq_some, Option.some.injEq] at h
      obtain ⟨hnotify, rfl⟩ := h
      exact .publishReady hnotify
  | builderFails botId =>
      simp only [pipelineStep] at h
      split at h
      · rename_i hbuild
        rw [← Option.some.inj h]
        exact .buildFails hbuild
      · simp only [Option.ite_none_right_eq_some, Option.some.injEq] at h
        obtain ⟨hnotify, rfl⟩ := h
        exact .notifyFails hnotify
  | deliver =>
      simp only [pipelineStep] at h
      split at h
      · rename_i hqueue
        rw [← Option.some.inj h]
        exact .deliver hqueue
      · exact absurd h (by simp)
  | readReady i ready =>
      simp only [pipelineStep] at h
      split at h
      · rename_i hget
        simp only [Option.ite_none_right_eq_some, Option.some.injEq] at h
        obtain ⟨hready, rfl⟩ := h
        exact .readReady hget (perm_cons_eraseIdx_of_getElem? hget) hready
      · exact absurd h (by simp)
  | publishNext i correlationId =>
      simp only [pipelineStep] at h
      split at h
      · rename_i hget
        rw [← Option.some.inj h]
        exact .publishNext (perm_cons_eraseIdx_of_getElem? hget)
      · exact absurd h (by simp)
  | finish i =>
      simp only [pipelineStep] at h
      split at h
      · rename_i hget
        rw [← Option.some.inj h]
        exact .finish (perm_cons_eraseIdx_of_getElem? hget)
      · exact absurd h (by simp)
  | raises i =>
      simp only [pipelineStep] at h
      split at h
      · rename_i hget
        rw [← Option.some.inj h]
        exact .raises (perm_cons_eraseIdx_of_getElem? hget)
      · exact absurd h (by simp)

/-! ### Where messages and pairings are -/

def Handler.pending : Handler → List (ℕ × ℕ)
  | ⟨_, .received⟩ => []
  | ⟨_, .publishing pending⟩ => pending

def Handler.HasRead (handler : Handler) : Prop := handler.stage ≠ .received

/-- The bots whose `PodReadyMessage` was published, wherever it is now. -/
def Pipeline.announced (s : Pipeline) : List ℕ :=
  s.schedule ++ s.handlers.map Handler.botId ++ s.handled ++ s.failed

def Handler.unread : Handler → List ℕ
  | ⟨botId, .received⟩ => [botId]
  | ⟨_, .publishing _⟩ => []

/-- The bots whose `PodReadyMessage` is still to come or to be acted on. -/
def Pipeline.unread (s : Pipeline) : List ℕ :=
  s.builds ++ s.notifying ++ s.schedule ++ s.handlers.flatMap Handler.unread

def Pipeline.pairs (s : Pipeline) : List (ℕ × ℕ) :=
  s.ondeck.map MatchOndeck.pairing ++ s.handlers.flatMap Handler.pending

/-- Some handler for the bot has got as far as reading the ready bots. -/
def Pipeline.Opened (s : Pipeline) (botId : ℕ) : Prop :=
  botId ∈ s.handled ∨ botId ∈ s.failed ∨
    ∃ handler ∈ s.handlers, handler.botId = botId ∧ handler.HasRead

end TictactoeBots
