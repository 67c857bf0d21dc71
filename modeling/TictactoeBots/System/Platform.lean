import TictactoeBots.Dispatcher.OndeckHandler
import TictactoeBots.Dispatcher.PodBuilder
import TictactoeBots.Web.ConcurrentSubmit

/-!
The whole platform: the web service, the `pod_builder`, the `match_scheduler`
and the `ondeck_handler` over one database and three queues.

Each service moves as its own model says. What they share is here: a step of
one of them reads and writes the common database, and what it publishes lands
in a queue that another one reads. Any number of handlers of each service may
run, and a service may die, whereupon the broker queues its messages again. The
web service has no message to get back: its submissions end with it.
-/

namespace TictactoeBots

open Text Python StepSystem

variable {py : Interpreter}

structure Building where
  msg : BuildPodMessage
  stage : BuildStage

structure Platform (py : Interpreter) where
  /-- The web service with the database. -/
  web : SubmitSystem py
  /-- The messages of submissions that have inserted their row and not published yet. -/
  announcing : List BuildPodMessage
  buildQueue : List BuildPodMessage
  pods : List PodManifest
  builders : List Building
  schedule : List ℕ
  schedulers : List Handler
  ondeck : List MatchOndeck
  deliveries : List Delivery

def Platform.empty (py : Interpreter) : Platform py :=
  ⟨SubmitSystem.start py, [], [], [], [], [], [], [], []⟩

def Platform.buildWorld (s : Platform py) : BuildWorld := ⟨s.web.db.bots, s.pods, s.schedule⟩

/-- What the scheduler sees; it takes no part in the building of pods. -/
def Platform.pipeline (s : Platform py) : Pipeline where
  bots := s.web.db.bots
  builds := []
  notifying := []
  schedule := s.schedule
  handlers := s.schedulers
  handled := []
  failed := []
  ondeck := s.ondeck

def Platform.ondeckSystem (s : Platform py) : OndeckSystem :=
  ⟨s.web.db, [], s.ondeck, s.deliveries⟩

inductive PlatformAction where
  /-- A step of a submission, up to its insert. -/
  | web (action : SubmitAction)
  | enqueueBuild (submission : ℕ)
  | enqueueRaises (submission : ℕ)
  | webDies
  | deliverBuild
  | build (builder : ℕ)
  /-- The handler raises; its message is rejected and not queued again. -/
  | buildRaises (builder : ℕ)
  | builderDies
  | scheduler (action : PipelineAction)
  | schedulerDies
  | dispatcher (action : OndeckAction)

/-- The build messages of the rows that a step of the web service inserted. -/
def newBuilds (s s' : SubmitSystem py) : List BuildPodMessage :=
  (s'.inserted.drop s.inserted.length).map fun ins => ⟨ins.row.id, ins.row.runtimeKey⟩

def platformStep (s : Platform py) : PlatformAction → Option (Platform py)
  | .web action =>
      (submitStep s.web action).map fun web =>
        { s with web := web, announcing := newBuilds s.web web ++ s.announcing }
  | .enqueueBuild i =>
      match s.announcing[i]? with
      | some msg =>
          some { s with
            announcing := s.announcing.eraseIdx i
            buildQueue := s.buildQueue ++ [msg] }
      | none => none
  | .enqueueRaises i =>
      match s.announcing[i]? with
      | some _ => some { s with announcing := s.announcing.eraseIdx i }
      | none => none
  | .webDies => some { s with web := { s.web with running := [] }, announcing := [] }
  | .deliverBuild =>
      match s.buildQueue with
      | msg :: rest =>
          some { s with buildQueue := rest, builders := ⟨msg, .received⟩ :: s.builders }
      | [] => none
  | .build i =>
      match s.builders[i]? with
      | some ⟨msg, stage⟩ =>
          let (w, status) := buildNext s.buildWorld msg stage
          let others := s.builders.eraseIdx i
          some { s with
            web := { s.web with db := { s.web.db with bots := w.bots } }
            pods := w.pods
            schedule := w.schedule
            builders := match status with
              | .running stage => ⟨msg, stage⟩ :: others
              | .acked | .rejected => others }
      | none => none
  | .buildRaises i =>
      match s.builders[i]? with
      | some _ => some { s with builders := s.builders.eraseIdx i }
      | none => none
  | .builderDies =>
      some { s with buildQueue := s.builders.map Building.msg ++ s.buildQueue, builders := [] }
  | .scheduler action =>
      (pipelineStep s.pipeline action).map fun pipeline =>
        { s with
          schedule := pipeline.schedule
          schedulers := pipeline.handlers
          ondeck := pipeline.ondeck }
  | .schedulerDies =>
      some { s with schedule := s.schedulers.map Handler.botId ++ s.schedule, schedulers := [] }
  -- only the scheduler publishes to `matches.ondeck`
  | .dispatcher (.publish _) => none
  | .dispatcher action =>
      (ondeckStep s.ondeckSystem action).map fun ondeck =>
        { s with
          web := { s.web with db := ondeck.db }
          ondeck := ondeck.queue
          deliveries := ondeck.deliveries }

/-- The bots whose `PodReadyMessage` is queued or delivered and not acknowledged. -/
def Platform.podReadyMessages (s : Platform py) : List ℕ :=
  s.schedule ++ s.schedulers.map Handler.botId

def Platform.matchOndecks (s : Platform py) : List MatchOndeck :=
  s.ondeck ++ s.deliveries.map Delivery.msg

end TictactoeBots
