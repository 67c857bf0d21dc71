import TictactoeBots.Entities.BotRepository
import TictactoeBots.Dispatcher.Pods
import TictactoeBots.MatchScheduler.Scheduling
import TictactoeBots.Web.Submit

/-!
The consumer of `matches.build`: it creates the pod of a bot, waits for it,
marks the bot as ready and announces it on `matches.schedule`.

The handler touches the cluster, the database and the broker one after the
other. `buildNext` is what it does between two of these, so a process that dies
has done a number of them, and the broker delivers its message again because it
is acknowledged last. Kubernetes refuses a second pod of one name.
-/

namespace TictactoeBots

open Text Python

/-- The images of `RUNTIMES` by key. -/
def runtimeImages : List (Str × Str) :=
  [ (str "python-3.10", str "pyowa/bot-runner-python:3.10"),
    (str "python-3.11", str "pyowa/bot-runner-python:3.11"),
    (str "python-3.12", str "pyowa/bot-runner-python:3.12"),
    (str "python-3.13", str "pyowa/bot-runner-python:3.13"),
    (str "python-3.14", str "pyowa/bot-runner-python:3.14") ]

/-- What `build_bot_pod_manifest` puts into a pod. The source is passed to the
pod in base 64. -/
structure PodManifest where
  name : Str
  image : Str
  source : List UInt8
  botId : ℕ

/-- What a `pod_builder` handler reads and changes. -/
structure BuildWorld where
  bots : List BotRow
  pods : List PodManifest
  schedule : List ℕ

/-- How far a handler has got with its message. -/
inductive BuildStage where
  | received
  | found (bot : BotRow) (image : Str)
  | created (bot : BotRow)
  | waited (bot : BotRow)
  | registered (bot : BotRow)
  | announced
  /-- The runtime or the bot is unknown; the handler returns early. -/
  | skipped

inductive BuildStatus where
  | running (stage : BuildStage)
  | acked
  | rejected

def podExists (pods : List PodManifest) (name : Str) : Bool := pods.any fun pod => pod.name == name

def fetchBotAndRuntime (bots : List BotRow) (msg : BuildPodMessage) : Option (BotRow × Str) := do
  let image ← runtimeImages.lookup msg.runtimeKey
  let bot ← bots.find? fun bot => bot.id == msg.botId
  return (bot, image)

/-- What the handler does next, if nothing but a pod of the same name is in its
way. -/
def buildNext (w : BuildWorld) (msg : BuildPodMessage) : BuildStage → BuildWorld × BuildStatus
  | .received =>
      match fetchBotAndRuntime w.bots msg with
      | some (bot, image) => (w, .running (.found bot image))
      | none => (w, .running .skipped)
  | .found bot image =>
      -- `create_namespaced_pod` raises, and the message is rejected and not queued again
      if podExists w.pods (podName bot.id) then (w, .rejected)
      else
        let manifest := ⟨podName bot.id, image, bot.source.getD [], bot.id⟩
        ({ w with pods := manifest :: w.pods }, .running (.created bot))
  | .created bot => (w, .running (.waited bot))
  | .waited bot =>
      ({ w with bots := setPodReady w.bots bot.id (podName bot.id) }, .running (.registered bot))
  | .registered bot => ({ w with schedule := w.schedule ++ [bot.id] }, .running .announced)
  | .announced | .skipped => (w, .acked)

def buildSteps (msg : BuildPodMessage) : ℕ → BuildWorld × BuildStatus → BuildWorld × BuildStatus
  | 0, s => s
  | n + 1, (w, .running stage) => buildSteps msg n (buildNext w msg stage)
  | _ + 1, s => s

def handleBuildPodMessage (w : BuildWorld) (msg : BuildPodMessage) : BuildWorld × BuildStatus :=
  buildSteps msg 6 (w, .running .received)

theorem handleBuildPodMessage_ends (w : BuildWorld) (msg : BuildPodMessage) :
    (handleBuildPodMessage w msg).2 = .acked ∨ (handleBuildPodMessage w msg).2 = .rejected := by
  cases hfetch : fetchBotAndRuntime w.bots msg with
  | none => exact .inl (by simp [handleBuildPodMessage, buildSteps, buildNext, hfetch])
  | some found =>
      obtain ⟨bot, image⟩ := found
      by_cases hpod : podExists w.pods (podName bot.id) = true
      · exact .inr (by simp [handleBuildPodMessage, buildSteps, buildNext, hfetch, hpod])
      · exact .inl (by simp [handleBuildPodMessage, buildSteps, buildNext, hfetch, hpod])

/-! ### What the handler finds -/

@[simp] theorem podExists_cons_self (name image : Str) (source : List UInt8) (botId : ℕ)
    (pods : List PodManifest) : podExists (⟨name, image, source, botId⟩ :: pods) name = true := by
  simp [podExists]

theorem isSome_lookup_runtimeImages {key : Str} (h : key ∈ runtimeKeys) :
    (runtimeImages.lookup key).isSome := by
  simp only [runtimeKeys, List.mem_cons, List.not_mem_nil, or_false] at h
  rcases h with rfl | rfl | rfl | rfl | rfl <;> rfl

theorem find_bot_of_mem {bots : List BotRow} {id : ℕ} (h : id ∈ bots.map BotRow.id) :
    ∃ bot, bots.find? (fun bot => bot.id == id) = some bot ∧ bot ∈ bots ∧ bot.id = id := by
  obtain ⟨other, hother, rfl⟩ := List.mem_map.1 h
  cases hfind : bots.find? fun bot => bot.id == other.id with
  | none => exact absurd (List.find?_eq_none.1 hfind other hother) (by simp)
  | some bot =>
      have hid := List.find?_some hfind
      exact ⟨bot, rfl, List.mem_of_find?_eq_some hfind, by simpa using hid⟩

theorem fetchBotAndRuntime_eq_some {bots : List BotRow} {msg : BuildPodMessage} {bot : BotRow}
    {image : Str} (h : fetchBotAndRuntime bots msg = some (bot, image)) :
    bot ∈ bots ∧ bot.id = msg.botId := by
  simp only [fetchBotAndRuntime, Option.bind_eq_bind, Option.bind_eq_some_iff] at h
  obtain ⟨_, -, found, hfind, heq⟩ := h
  obtain ⟨rfl, rfl⟩ := Prod.mk.inj (Option.some.inj heq)
  have hid := List.find?_some hfind
  exact ⟨List.mem_of_find?_eq_some hfind, by simpa using hid⟩

theorem fetchBotAndRuntime_of_known {bots : List BotRow} {msg : BuildPodMessage}
    (hbot : msg.botId ∈ bots.map BotRow.id) (hruntime : msg.runtimeKey ∈ runtimeKeys) :
    ∃ bot image, fetchBotAndRuntime bots msg = some (bot, image) ∧ bot.id = msg.botId := by
  obtain ⟨image, himage⟩ := Option.isSome_iff_exists.1 (isSome_lookup_runtimeImages hruntime)
  obtain ⟨bot, hfind, -, hid⟩ := find_bot_of_mem hbot
  exact ⟨bot, image, by simp [fetchBotAndRuntime, himage, hfind], hid⟩

/-! ### Redelivery -/

/-- The bot is ready and was announced, so its matches are scheduled. -/
def BuildWorld.MatchesComing (w : BuildWorld) (botId : ℕ) : Prop :=
  botId ∈ readyIds w.bots ∧ botId ∈ w.schedule

theorem buildNext_ids (w : BuildWorld) (msg : BuildPodMessage) (stage : BuildStage) :
    (buildNext w msg stage).1.bots.map BotRow.id = w.bots.map BotRow.id := by
  cases stage with
  | received => simp only [buildNext]; split <;> rfl
  | found bot image => simp only [buildNext]; split <;> rfl
  | waited bot => exact map_id_setPodReady _ _ _
  | created _ | registered _ | announced | skipped => rfl

theorem buildSteps_ids (msg : BuildPodMessage) (n : ℕ) (s : BuildWorld × BuildStatus) :
    (buildSteps msg n s).1.bots.map BotRow.id = s.1.bots.map BotRow.id := by
  induction n generalizing s with
  | zero => rfl
  | succ n ih =>
      obtain ⟨w, status⟩ := s
      cases status with
      | running stage => exact (ih _).trans (buildNext_ids w msg stage)
      | acked | rejected => rfl

/-- Without a pod of the bot in the cluster the handler does all of its work;
with one it changes nothing. -/
theorem handleBuildPodMessage_comes_iff {w : BuildWorld} {msg : BuildPodMessage}
    (hbot : msg.botId ∈ w.bots.map BotRow.id) (hruntime : msg.runtimeKey ∈ runtimeKeys) :
    (handleBuildPodMessage w msg).1.MatchesComing msg.botId ↔
      podExists w.pods (podName msg.botId) = false ∨ w.MatchesComing msg.botId := by
  obtain ⟨bot, image, hfetch, hid⟩ := fetchBotAndRuntime_of_known hbot hruntime
  cases hpod : podExists w.pods (podName msg.botId) with
  | true => simp [handleBuildPodMessage, buildSteps, buildNext, hfetch, hid, hpod]
  | false =>
      have hready : msg.botId ∈ readyIds (setPodReady w.bots msg.botId (podName msg.botId)) :=
        mem_readyIds_setPodReady.2 (.inr ⟨rfl, hbot⟩)
      simp [handleBuildPodMessage, buildSteps, buildNext, hfetch, hid, hpod,
        BuildWorld.MatchesComing, hready]

/-- The steps after which a death does no harm to a bot that had no pod and was
not announced when its message was first delivered. -/
theorem recoverable_iff_of_new {w w₁ : BuildWorld} {msg : BuildPodMessage}
    {stage : BuildStage} {k : ℕ} (hbot : msg.botId ∈ w.bots.map BotRow.id)
    (hruntime : msg.runtimeKey ∈ runtimeKeys) (hpod : podExists w.pods (podName msg.botId) = false)
    (hnew : msg.botId ∉ w.schedule)
    (hdeath : buildSteps msg k (w, .running .received) = (w₁, .running stage)) :
    podExists w₁.pods (podName msg.botId) = false ∨ w₁.MatchesComing msg.botId ↔
      k ≤ 1 ∨ k = 5 := by
  obtain ⟨bot, image, hfetch, hid⟩ := fetchBotAndRuntime_of_known hbot hruntime
  have hready : msg.botId ∈ readyIds (setPodReady w.bots msg.botId (podName msg.botId)) :=
    mem_readyIds_setPodReady.2 (.inr ⟨rfl, hbot⟩)
  match k with
  | 0 | 1 | 2 | 3 | 4 | 5 =>
      simp only [buildSteps, buildNext, hfetch, hid, hpod, Bool.false_eq_true, if_false,
        Prod.mk.injEq] at hdeath
      obtain ⟨rfl, -⟩ := hdeath
      simp [BuildWorld.MatchesComing, hready, hnew, hpod]
  | k + 6 =>
      simp [buildSteps, buildNext, hfetch, hid, hpod] at hdeath
      cases k <;> simp [buildSteps] at hdeath

/-- A `pod_builder` dies after `k` steps with its message unacknowledged, and
the message is handled again without a further failure. The bot is then ready
and announced exactly when at the death there was no pod of the bot yet or it
already was both. For a new bot this means before the pod is created, which is
the second step, or after the announcement, the fifth. -/
theorem redelivery_recovers_iff {w w₁ : BuildWorld} {msg : BuildPodMessage} {stage : BuildStage}
    {k : ℕ} (hbot : msg.botId ∈ w.bots.map BotRow.id) (hruntime : msg.runtimeKey ∈ runtimeKeys)
    (hdeath : buildSteps msg k (w, .running .received) = (w₁, .running stage)) :
    ((handleBuildPodMessage w₁ msg).1.MatchesComing msg.botId ↔
      podExists w₁.pods (podName msg.botId) = false ∨ w₁.MatchesComing msg.botId) ∧
    (podExists w.pods (podName msg.botId) = false → msg.botId ∉ w.schedule →
      ((handleBuildPodMessage w₁ msg).1.MatchesComing msg.botId ↔ k ≤ 1 ∨ k = 5)) := by
  have hids : w₁.bots.map BotRow.id = w.bots.map BotRow.id := by
    have hsteps := buildSteps_ids msg k (w, .running .received)
    rwa [hdeath] at hsteps
  have hcomes := handleBuildPodMessage_comes_iff (hids ▸ hbot) hruntime
  refine ⟨hcomes, fun hpod hnew => ?_⟩
  exact hcomes.trans (recoverable_iff_of_new hbot hruntime hpod hnew hdeath)

def newBotWorld : BuildWorld := ⟨[plainBot 1], [], []⟩

def newBotMessage : BuildPodMessage := ⟨1, str "python-3.14"⟩

/-- It dies before it has created the pod, and gets ready in the end. -/
theorem redelivery_recovers_early :
    (handleBuildPodMessage (buildSteps newBotMessage 1 (newBotWorld, .running .received)).1
      newBotMessage).1.MatchesComing 1 := by
  have hrecovers := @redelivery_recovers_iff newBotWorld _ newBotMessage _ 1 (by decide)
    (by decide) rfl
  exact (hrecovers.2 rfl (by decide)).2 (.inl le_rfl)

/-- It dies after it has created the pod: the pod is in the way of the second
handler, and the bot never gets ready. -/
theorem redelivery_stuck :
    (buildSteps newBotMessage 2 (newBotWorld, .running .received)).2 =
        .running (.created (plainBot 1)) ∧
      (handleBuildPodMessage (buildSteps newBotMessage 2 (newBotWorld, .running .received)).1
        newBotMessage).2 = .rejected ∧
      ¬(handleBuildPodMessage (buildSteps newBotMessage 2 (newBotWorld, .running .received)).1
        newBotMessage).1.MatchesComing 1 := by
  refine ⟨rfl, rfl, ?_⟩
  rintro ⟨hready, -⟩
  exact absurd hready (by decide)

end TictactoeBots
