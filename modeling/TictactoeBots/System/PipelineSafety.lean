import TictactoeBots.Lib.JsonRoundTrip
import TictactoeBots.Entities.Recording
import TictactoeBots.System.Platform
import TictactoeBots.Web.SubmitFailures

/-!
From the upload to the match, every message names bots that are ready, and
every match is played against the pods of its two bots.

The chain of reasons runs through all services. `pod_builder` commits before it
publishes, so a bot that is announced is ready; the scheduler pairs it with
ready bots only; and as a ready bot stays ready and has the pod name made of
its id, the lookup of the `ondeck_handler` finds both pods. Each invariant
speaks of the ready ids only, which grow, so a step of one service keeps the
invariants of the others.
-/

namespace TictactoeBots

open Text Python StepSystem

variable {py : Interpreter}

/-! ### The bot table -/

/-- Beyond what every write keeps, a ready bot has the pod made for it. -/
structure BotsSound (db : Db) : Prop extends db.Consistent where
  podNames : ∀ bot ∈ db.bots, bot.podReady → bot.podName = some (podName bot.id)

/-- No bot goes away, and a ready bot stays ready. -/
structure BotsGrow (bots bots' : List BotRow) : Prop where
  ids : bots.map BotRow.id ⊆ bots'.map BotRow.id
  ready : readyIds bots ⊆ readyIds bots'

theorem BotsGrow.refl (bots : List BotRow) : BotsGrow bots bots :=
  ⟨List.Subset.refl _, List.Subset.refl _⟩

theorem podName_injective : Function.Injective podName := fun _ _ h =>
  Json.decimal_injective (List.append_cancel_left h)

theorem BotsSound.create {db : Db} (h : BotsSound db) (now : ℕ) (new : NewBot) :
    BotsSound (db.create now new).1 ∧ BotsGrow db.bots (db.create now new).1.bots := by
  have hconsistent := h.toConsistent.create now new
  rcases db.create_cases now new with ⟨-, exc, seq, -, heq⟩ | ⟨-, heq⟩ <;>
    rw [heq] at hconsistent ⊢
  · exact ⟨⟨hconsistent, h.podNames⟩, .refl _⟩
  · refine ⟨⟨hconsistent, ?_⟩, ?_, ?_⟩
    · intro bot hbot hready
      obtain hbot | hbot := List.mem_append.1 hbot
      · exact h.podNames bot hbot hready
      -- a new row is not ready
      · rw [List.mem_singleton.1 hbot] at hready
        cases hready
    · rw [List.map_append]
      exact List.subset_append_left _ _
    · intro id hid
      obtain ⟨bot, hbot, hready⟩ := mem_readyIds.1 hid
      exact mem_readyIds.2 ⟨bot, List.mem_append_left _ hbot, hready⟩

theorem BotsSound.setPodReady {db : Db} (h : BotsSound db) (botId : ℕ) :
    BotsSound { db with bots := setPodReady db.bots botId (podName botId) } ∧
      BotsGrow db.bots (setPodReady db.bots botId (podName botId)) := by
  have hids := map_id_setPodReady db.bots botId (podName botId)
  refine ⟨⟨⟨?_, ?_, ?_, ?_, h.winner⟩, ?_⟩, ?_, ?_⟩
  · rw [hids]
    exact h.ids_nodup
  · intro bot hbot
    obtain ⟨old, hold, rfl⟩ := List.mem_map.1 hbot
    split <;> exact h.ids_le old hold
  · rw [hids]
    exact h.side_x
  · rw [hids]
    exact h.side_o
  · intro bot hbot hready
    obtain ⟨old, hold, rfl⟩ := List.mem_map.1 hbot
    by_cases hid : old.id = botId
    · simp [hid]
    · rw [if_neg hid] at hready ⊢
      exact h.podNames old hold hready
  · rw [hids]
    exact List.Subset.refl _
  · exact fun id hid => mem_readyIds_setPodReady.2 (.inl hid)

theorem BotsSound.record {db : Db} (h : BotsSound db) (now botXId botOId : ℕ)
    (result : MatchResult) (correlationId : Str) :
    BotsSound (db.record now botXId botOId result correlationId).1 := by
  refine ⟨h.toConsistent.record now botXId botOId result correlationId, ?_⟩
  rw [db.record_bots]
  exact h.podNames

theorem BotsSound.find_ready {db : Db} (h : BotsSound db) {id : ℕ} (hid : id ∈ readyIds db.bots) :
    ∃ bot, db.bots.find? (fun bot => bot.id == id) = some bot ∧
      bot.podName = some (podName id) := by
  obtain ⟨ready, hready, hflag, rfl⟩ := mem_readyIds.1 hid
  obtain ⟨bot, hfind, hbot, hbotId⟩ := find_bot_of_mem (List.mem_map_of_mem hready)
  obtain rfl := List.inj_on_of_nodup_map h.ids_nodup hbot hready hbotId
  exact ⟨bot, hfind, h.podNames bot hbot hflag⟩

theorem BotsSound.fetchMatchBots_eq {db : Db} (h : BotsSound db) {x o : ℕ}
    (hx : x ∈ readyIds db.bots) (ho : o ∈ readyIds db.bots) :
    ∃ botX botO, fetchMatchBots db.bots x o = some (botX, botO) ∧
      botX.podName = some (podName x) ∧ botO.podName = some (podName o) := by
  obtain ⟨botX, hfindX, hnameX⟩ := h.find_ready hx
  obtain ⟨botO, hfindO, hnameO⟩ := h.find_ready ho
  exact ⟨botX, botO, by simp [fetchMatchBots, hfindX, hfindO, hnameX, hnameO], hnameX, hnameO⟩

/-! ### The handlers -/

/-- From its lookup on a `pod_builder` handler is about a bot that exists, and
from its commit on about one that is ready. -/
def Building.Sound (bots : List BotRow) (building : Building) : Prop :=
  match building.stage with
  | .found bot _ | .created bot | .waited bot => bot.id ∈ bots.map BotRow.id
  | .registered bot => bot.id ∈ readyIds bots
  | .received | .announced | .skipped => True

def MatchOndeck.NamesReady (bots : List BotRow) (msg : MatchOndeck) : Prop :=
  msg.botXId ∈ readyIds bots ∧ msg.botOId ∈ readyIds bots

def Handler.Sound (bots : List BotRow) (handler : Handler) : Prop :=
  handler.botId ∈ readyIds bots ∧
    ∀ pair ∈ handler.pending, pair.1 ∈ readyIds bots ∧ pair.2 ∈ readyIds bots

/-- The bots that a match is about to be played with have their own pods. -/
def Delivery.OwnPods (delivery : Delivery) : Prop :=
  match delivery.stage with
  | .fetched botX botO =>
      botX.podName = some (podName delivery.msg.botXId) ∧
        botO.podName = some (podName delivery.msg.botOId)
  | .skipped => False
  | .received | .played _ | .recorded | .finished => True

def Delivery.Sound (bots : List BotRow) (delivery : Delivery) : Prop :=
  delivery.msg.NamesReady bots ∧ delivery.OwnPods

section Grow

variable {bots bots' : List BotRow}

theorem Building.Sound.mono {building : Building} (h : building.Sound bots)
    (hgrow : BotsGrow bots bots') : building.Sound bots' := by
  obtain ⟨msg, stage⟩ := building
  cases stage with
  | found bot image | created bot | waited bot => exact hgrow.ids h
  | registered bot => exact hgrow.ready h
  | received | announced | skipped => trivial

theorem MatchOndeck.NamesReady.mono {msg : MatchOndeck} (h : msg.NamesReady bots)
    (hgrow : BotsGrow bots bots') : msg.NamesReady bots' :=
  ⟨hgrow.ready h.1, hgrow.ready h.2⟩

theorem Handler.Sound.mono {handler : Handler} (h : handler.Sound bots)
    (hgrow : BotsGrow bots bots') : handler.Sound bots' :=
  ⟨hgrow.ready h.1, fun pair hpair =>
    ⟨hgrow.ready (h.2 pair hpair).1, hgrow.ready (h.2 pair hpair).2⟩⟩

end Grow

theorem buildNext_sound {w : BuildWorld} {msg : BuildPodMessage} {stage : BuildStage}
    (h : (⟨msg, stage⟩ : Building).Sound w.bots)
    (hschedule : ∀ id ∈ w.schedule, id ∈ readyIds w.bots) :
    (∀ id ∈ (buildNext w msg stage).1.schedule, id ∈ readyIds w.bots) ∧
      ∀ next, (buildNext w msg stage).2 = .running next →
        (⟨msg, next⟩ : Building).Sound (buildNext w msg stage).1.bots := by
  cases stage with
  | received =>
      cases hfetch : fetchBotAndRuntime w.bots msg with
      | none =>
          simp only [buildNext, hfetch, BuildStatus.running.injEq]
          refine ⟨hschedule, ?_⟩
          rintro _ rfl
          trivial
      | some found =>
          obtain ⟨bot, image⟩ := found
          obtain ⟨hbot, -⟩ := fetchBotAndRuntime_eq_some hfetch
          simp only [buildNext, hfetch, BuildStatus.running.injEq]
          refine ⟨hschedule, ?_⟩
          rintro _ rfl
          exact List.mem_map_of_mem hbot
  | found bot image =>
      by_cases hpod : podExists w.pods (podName bot.id) = true
      · simp only [buildNext, hpod, if_true]
        exact ⟨hschedule, fun next hnext => by cases hnext⟩
      · simp only [buildNext, hpod, Bool.false_eq_true, if_false, BuildStatus.running.injEq]
        refine ⟨hschedule, ?_⟩
        rintro _ rfl
        exact h
  | created bot =>
      refine ⟨hschedule, ?_⟩
      rintro _ ⟨⟩
      exact h
  | waited bot =>
      refine ⟨hschedule, ?_⟩
      rintro _ ⟨⟩
      exact mem_readyIds_setPodReady.2 (.inr ⟨rfl, h⟩)
  | registered bot =>
      refine ⟨fun id hid => ?_, ?_⟩
      · obtain hid | hid := List.mem_append.1 hid
        · exact hschedule id hid
        · rw [List.mem_singleton.1 hid]
          exact h
      · rintro _ ⟨⟩
        trivial
  | announced | skipped => exact ⟨hschedule, fun next hnext => by cases hnext⟩

theorem mem_pairings_ready {bots ready : List BotRow} {botId : ℕ}
    (hbot : botId ∈ readyIds bots) (hready : ready.Perm (readyBots bots)) :
    ∀ pair ∈ pairings botId ready, pair.1 ∈ readyIds bots ∧ pair.2 ∈ readyIds bots := by
  intro pair hpair
  obtain ⟨other, hother, hpair⟩ := List.mem_flatMap.1 hpair
  have hid : other.id ∈ readyIds bots := List.mem_map_of_mem (hready.mem_iff.1 hother)
  obtain rfl | hpair := List.mem_cons.1 hpair
  · exact ⟨hbot, hid⟩
  · split at hpair
    · rw [List.mem_singleton.1 hpair]
      exact ⟨hid, hbot⟩
    · exact absurd hpair List.not_mem_nil

structure SchedulerSound (s : Pipeline) : Prop where
  schedule : ∀ id ∈ s.schedule, id ∈ readyIds s.bots
  handlers : ∀ handler ∈ s.handlers, handler.Sound s.bots
  ondeck : ∀ msg ∈ s.ondeck, msg.NamesReady s.bots

theorem SchedulerSound.step {s s' : Pipeline} {action : PipelineAction} (h : SchedulerSound s)
    (hbuilds : s.builds = []) (hnotifying : s.notifying = [])
    (hstep : pipelineStep s action = some s') : s'.bots = s.bots ∧ SchedulerSound s' := by
  cases moves_of_step hstep with
  | commitReady hbuild | buildFails hbuild => simp [hbuilds] at hbuild
  | publishReady hnotify | notifyFails hnotify => simp [hnotifying] at hnotify
  | deliver hqueue =>
      have hschedule := h.schedule
      rw [hqueue, List.forall_mem_cons] at hschedule
      refine ⟨rfl, hschedule.2, List.forall_mem_cons.2 ⟨⟨hschedule.1, ?_⟩, h.handlers⟩, h.ondeck⟩
      intro pair hpair
      exact absurd hpair List.not_mem_nil
  | readReady _ hperm hready =>
      have hsound := List.forall_mem_cons.1 fun r hr => h.handlers r (hperm.mem_iff.2 hr)
      refine ⟨rfl, h.schedule, List.forall_mem_cons.2 ⟨⟨hsound.1.1, ?_⟩, hsound.2⟩, h.ondeck⟩
      exact mem_pairings_ready hsound.1.1 hready
  | publishNext hperm =>
      have hsound := List.forall_mem_cons.1 fun r hr => h.handlers r (hperm.mem_iff.2 hr)
      obtain ⟨hpair, hrest⟩ := List.forall_mem_cons.1 hsound.1.2
      refine ⟨rfl, h.schedule, List.forall_mem_cons.2 ⟨⟨hsound.1.1, hrest⟩, hsound.2⟩, ?_⟩
      intro msg hmsg
      obtain hmsg | hmsg := List.mem_append.1 hmsg
      · exact h.ondeck msg hmsg
      · rw [List.mem_singleton.1 hmsg]
        exact hpair
  | finish hperm | raises hperm =>
      exact ⟨rfl, h.schedule,
        fun r hr => h.handlers r (hperm.mem_iff.2 (List.mem_cons_of_mem _ hr)), h.ondeck⟩

structure DispatcherSound (s : OndeckSystem) : Prop where
  queue : ∀ msg ∈ s.queue, msg.NamesReady s.db.bots
  deliveries : ∀ delivery ∈ s.deliveries, delivery.Sound s.db.bots

theorem DispatcherSound.of_perm {s : OndeckSystem} (h : DispatcherSound s) {delivery : Delivery}
    {others : List Delivery} (hperm : s.deliveries.Perm (delivery :: others)) :
    delivery.Sound s.db.bots ∧ ∀ other ∈ others, other.Sound s.db.bots :=
  List.forall_mem_cons.1 fun other hother => h.deliveries other (hperm.mem_iff.2 hother)

/-- Unless something is published, a step of the `ondeck_handler` fetches the
bots of a match from those of the table, which stay as they are. -/
theorem DispatcherSound.step {s s' : OndeckSystem} {action : OndeckAction}
    (h : DispatcherSound s) (hbots : BotsSound s.db) (haction : ∀ msg, action ≠ .publish msg)
    (hstep : ondeckStep s action = some s') : BotsSound s'.db ∧ s'.db.bots = s.db.bots ∧
      DispatcherSound s' := by
  cases moves_of_ondeckStep hstep with
  | publish => exact absurd rfl (haction _)
  | deliver hqueue =>
      have hsound := h.queue
      rw [hqueue, List.forall_mem_cons] at hsound
      exact ⟨hbots, rfl, hsound.2, List.forall_mem_cons.2 ⟨⟨hsound.1, trivial⟩, h.deliveries⟩⟩
  | fetch hperm hfetch =>
      obtain ⟨hsound, hothers⟩ := h.of_perm hperm
      obtain ⟨botX, botO, hboth, hpods⟩ := hbots.fetchMatchBots_eq hsound.1.1 hsound.1.2
      rw [hboth, Option.some.injEq, Prod.mk.injEq] at hfetch
      obtain ⟨rfl, rfl⟩ := hfetch
      exact ⟨hbots, rfl, h.queue, List.forall_mem_cons.2 ⟨⟨hsound.1, hpods⟩, hothers⟩⟩
  | skip hperm hfetch =>
      -- ready bots are found
      obtain ⟨hsound, -⟩ := h.of_perm hperm
      obtain ⟨botX, botO, hboth, -⟩ := hbots.fetchMatchBots_eq hsound.1.1 hsound.1.2
      rw [hboth] at hfetch
      exact absurd hfetch (Option.some_ne_none _)
  | play hperm | announce hperm =>
      obtain ⟨hsound, hothers⟩ := h.of_perm hperm
      exact ⟨hbots, rfl, h.queue, List.forall_mem_cons.2 ⟨⟨hsound.1, trivial⟩, hothers⟩⟩
  | noResult hperm | ack hperm => exact ⟨hbots, rfl, h.queue, (h.of_perm hperm).2⟩
  | @record i now msg result others hperm =>
      obtain ⟨hsound, hothers⟩ := h.of_perm hperm
      have hrows := s.db.record_bots now msg.botXId msg.botOId result msg.correlationId
      refine ⟨hbots.record now msg.botXId msg.botOId result msg.correlationId, hrows, ?_, ?_⟩
      · exact hrows ▸ h.queue
      · exact hrows ▸ List.forall_mem_cons.2 ⟨⟨hsound.1, trivial⟩, hothers⟩
  | @recordFails i now msg result exc others hperm =>
      have hrows := s.db.record_bots now msg.botXId msg.botOId result msg.correlationId
      refine ⟨hbots.record now msg.botXId msg.botOId result msg.correlationId, hrows, ?_, ?_⟩
      · exact hrows ▸ h.queue
      · exact hrows ▸ (h.of_perm hperm).2
  | die =>
      refine ⟨hbots, rfl, fun msg hmsg => ?_, ?_⟩
      · obtain hmsg | hmsg := List.mem_append.1 hmsg
        · obtain ⟨delivery, hdelivery, rfl⟩ := List.mem_map.1 hmsg
          exact (h.deliveries delivery hdelivery).1
        · exact h.queue msg hmsg
      · intro delivery hdelivery
        exact absurd hdelivery List.not_mem_nil

/-! ### The platform -/

/-- What the services rely on. -/
structure Platform.Sound (s : Platform py) : Prop where
  bots : BotsSound s.web.db
  builders : ∀ building ∈ s.builders, building.Sound s.web.db.bots
  scheduler : SchedulerSound s.pipeline
  dispatcher : DispatcherSound s.ondeckSystem

theorem SchedulerSound.mono {s s' : Pipeline} (h : SchedulerSound s)
    (hgrow : BotsGrow s.bots s'.bots) (hhandlers : s'.handlers = s.handlers)
    (hondeck : s'.ondeck = s.ondeck) (hschedule : ∀ id ∈ s'.schedule, id ∈ readyIds s.bots) :
    SchedulerSound s' where
  schedule id hid := hgrow.ready (hschedule id hid)
  handlers handler hhandler := (h.handlers handler (hhandlers ▸ hhandler)).mono hgrow
  ondeck msg hmsg := (h.ondeck msg (hondeck ▸ hmsg)).mono hgrow

theorem DispatcherSound.mono {s s' : OndeckSystem} (h : DispatcherSound s)
    (hgrow : BotsGrow s.db.bots s'.db.bots) (hqueue : s'.queue = s.queue)
    (hdeliveries : s'.deliveries = s.deliveries) : DispatcherSound s' where
  queue msg hmsg := (h.queue msg (hqueue ▸ hmsg)).mono hgrow
  deliveries delivery hdelivery :=
    have hsound := h.deliveries delivery (hdeliveries ▸ hdelivery)
    ⟨hsound.1.mono hgrow, hsound.2⟩

theorem Platform.Sound.build {s s' : Platform py} (h : s.Sound) {i : ℕ}
    (hstep : platformStep s (.build i) = some s') : s'.Sound := by
  simp only [platformStep] at hstep
  split at hstep
  · rename_i msg stage hget
    have hbuilding : (⟨msg, stage⟩ : Building).Sound s.buildWorld.bots :=
      h.builders _ (List.mem_of_getElem? hget)
    have hgrow : BotsSound { s.web.db with bots := (buildNext s.buildWorld msg stage).1.bots } ∧
        BotsGrow s.web.db.bots (buildNext s.buildWorld msg stage).1.bots := by
      cases stage with
      | received => simp only [buildNext]; split <;> exact ⟨h.bots, .refl _⟩
      | found bot image => simp only [buildNext]; split <;> exact ⟨h.bots, .refl _⟩
      | waited bot => exact h.bots.setPodReady bot.id
      | created _ | registered _ | announced | skipped => exact ⟨h.bots, .refl _⟩
    obtain ⟨hschedule, hnext⟩ := buildNext_sound hbuilding h.scheduler.schedule
    have hothers : ∀ building ∈ s.builders.eraseIdx i,
        building.Sound (buildNext s.buildWorld msg stage).1.bots := fun building hmem =>
      (h.builders building (List.mem_of_mem_eraseIdx hmem)).mono hgrow.2
    rw [← Option.some.inj hstep]
    refine ⟨hgrow.1, ?_, h.scheduler.mono hgrow.2 rfl rfl hschedule,
      h.dispatcher.mono hgrow.2 rfl rfl⟩
    simp only
    split
    · rename_i hstatus
      exact List.forall_mem_cons.2 ⟨hnext _ hstatus, hothers⟩
    · exact hothers
    · exact hothers
  · exact absurd hstep (by simp)

theorem Platform.Sound.step {s s' : Platform py} {action : PlatformAction} (h : s.Sound)
    (hstep : platformStep s action = some s') : s'.Sound := by
  cases action with
  | web action =>
      obtain ⟨web, hweb, rfl⟩ := Option.map_eq_some_iff.1 hstep
      have hgrow : BotsSound web.db ∧ BotsGrow s.web.db.bots web.db.bots := by
        obtain hsame | ⟨now, new, hcreate⟩ := db_of_submitStep hweb
        · rw [hsame]
          exact ⟨h.bots, .refl _⟩
        · rw [hcreate]
          exact h.bots.create now new
      exact ⟨hgrow.1, fun building hmem => (h.builders building hmem).mono hgrow.2,
        h.scheduler.mono hgrow.2 rfl rfl h.scheduler.schedule,
        h.dispatcher.mono hgrow.2 rfl rfl⟩
  | enqueueBuild i | enqueueRaises i =>
      simp only [platformStep] at hstep
      split at hstep
      · rw [← Option.some.inj hstep]
        exact ⟨h.bots, h.builders, h.scheduler, h.dispatcher⟩
      · exact absurd hstep (by simp)
  | webDies =>
      rw [← Option.some.inj hstep]
      exact ⟨h.bots, h.builders, h.scheduler, h.dispatcher⟩
  | deliverBuild =>
      simp only [platformStep] at hstep
      split at hstep
      · rw [← Option.some.inj hstep]
        exact ⟨h.bots, List.forall_mem_cons.2 ⟨trivial, h.builders⟩, h.scheduler, h.dispatcher⟩
      · exact absurd hstep (by simp)
  | build i => exact h.build hstep
  | buildRaises i =>
      simp only [platformStep] at hstep
      split at hstep
      · rw [← Option.some.inj hstep]
        exact ⟨h.bots, fun building hmem => h.builders building (List.mem_of_mem_eraseIdx hmem),
          h.scheduler, h.dispatcher⟩
      · exact absurd hstep (by simp)
  | builderDies =>
      rw [← Option.some.inj hstep]
      exact ⟨h.bots, fun building hmem => absurd hmem List.not_mem_nil, h.scheduler,
        h.dispatcher⟩
  | scheduler action =>
      obtain ⟨pipeline, hpipeline, rfl⟩ := Option.map_eq_some_iff.1 hstep
      obtain ⟨hbots, hschedule, hhandlers, hondeck⟩ := h.scheduler.step rfl rfl hpipeline
      rw [hbots] at hschedule hhandlers hondeck
      exact ⟨h.bots, h.builders, ⟨hschedule, hhandlers, hondeck⟩,
        ⟨hondeck, h.dispatcher.deliveries⟩⟩
  | schedulerDies =>
      rw [← Option.some.inj hstep]
      refine ⟨h.bots, h.builders, ⟨fun id hid => ?_, ?_, h.scheduler.ondeck⟩, h.dispatcher⟩
      · obtain hid | hid := List.mem_append.1 hid
        · obtain ⟨handler, hhandler, rfl⟩ := List.mem_map.1 hid
          exact (h.scheduler.handlers handler hhandler).1
        · exact h.scheduler.schedule id hid
      · intro handler hhandler
        exact absurd hhandler List.not_mem_nil
  | dispatcher action =>
      have hmap : (∀ msg, action ≠ .publish msg) ∧
          (ondeckStep s.ondeckSystem action).map (fun ondeck =>
            { s with
              web := { s.web with db := ondeck.db }
              ondeck := ondeck.queue
              deliveries := ondeck.deliveries }) = some s' := by
        cases action with
        | publish msg => exact absurd hstep (by simp [platformStep])
        | deliver | fetch _ | play _ _ | record _ _ | announce _ | ack _ | die =>
            exact ⟨by simp, hstep⟩
      obtain ⟨ondeck, hondeck, rfl⟩ := Option.map_eq_some_iff.1 hmap.2
      obtain ⟨hsound, hbots, hdispatcher⟩ := h.dispatcher.step h.bots hmap.1 hondeck
      have hgrow : BotsGrow s.web.db.bots ondeck.db.bots := by
        rw [hbots]
        exact .refl _
      refine ⟨hsound, fun building hmem => (h.builders building hmem).mono hgrow,
        ⟨fun id hid => hgrow.ready (h.scheduler.schedule id hid), ?_, hdispatcher.queue⟩,
        ⟨hdispatcher.queue, hdispatcher.deliveries⟩⟩
      exact fun handler hhandler => (h.scheduler.handlers handler hhandler).mono hgrow

/-- What holds between the services. -/
structure PipelineSafe (s : Platform py) : Prop where
  podNames : ∀ bot ∈ s.web.db.bots, bot.podReady → bot.podName = some (podName bot.id)
  podsDistinct : ∀ bot ∈ s.web.db.bots, ∀ other ∈ s.web.db.bots, bot.podReady → other.podReady →
    bot ≠ other → bot.podName ≠ other.podName
  podReadyMessages : ∀ id ∈ s.podReadyMessages, id ∈ readyIds s.web.db.bots
  matchOndecks : ∀ msg ∈ s.matchOndecks, msg.NamesReady s.web.db.bots
  /-- The lookup for a scheduled match finds both bots with their own pods. -/
  lookups : ∀ msg ∈ s.matchOndecks, ∃ botX botO,
    fetchMatchBots s.web.db.bots msg.botXId msg.botOId = some (botX, botO) ∧
      botX.podName = some (podName msg.botXId) ∧ botO.podName = some (podName msg.botOId)
  /-- No lookup has failed, and what a match is played with is what it names. -/
  ownPods : ∀ delivery ∈ s.deliveries, delivery.OwnPods

theorem Platform.Sound.safe {s : Platform py} (h : s.Sound) : PipelineSafe s := by
  have hondecks : ∀ msg ∈ s.matchOndecks, msg.NamesReady s.web.db.bots := by
    intro msg hmsg
    obtain hmsg | hmsg := List.mem_append.1 hmsg
    · exact h.scheduler.ondeck msg hmsg
    · obtain ⟨delivery, hdelivery, rfl⟩ := List.mem_map.1 hmsg
      exact (h.dispatcher.deliveries delivery hdelivery).1
  refine ⟨h.bots.podNames, ?_, ?_, hondecks, ?_, ?_⟩
  · intro bot hbot other hother hready hreadyOther hne heq
    rw [h.bots.podNames bot hbot hready, h.bots.podNames other hother hreadyOther] at heq
    have hid := podName_injective (Option.some.inj heq)
    exact hne (List.inj_on_of_nodup_map h.bots.ids_nodup hbot hother hid)
  · intro id hid
    obtain hid | hid := List.mem_append.1 hid
    · exact h.scheduler.schedule id hid
    · obtain ⟨handler, hhandler, rfl⟩ := List.mem_map.1 hid
      exact (h.scheduler.handlers handler hhandler).1
  · intro msg hmsg
    obtain ⟨hx, ho⟩ := hondecks msg hmsg
    exact h.bots.fetchMatchBots_eq hx ho
  · exact fun delivery hdelivery => (h.dispatcher.deliveries delivery hdelivery).2

theorem Platform.sound_empty (py : Interpreter) : (Platform.empty py).Sound where
  bots := ⟨Db.consistent_empty, List.forall_mem_nil _⟩
  builders := List.forall_mem_nil _
  scheduler := ⟨List.forall_mem_nil _, List.forall_mem_nil _, List.forall_mem_nil _⟩
  dispatcher := ⟨List.forall_mem_nil _, List.forall_mem_nil _⟩

/-- In every state of the platform, messages name ready bots only, and every
match is played between the pods of its own two bots. -/
theorem pipeline_safe {s : Platform py} (h : Reachable platformStep (Platform.empty py) s) :
    PipelineSafe s := by
  have hsound : s.Sound :=
    h.invariant (Platform.sound_empty py) fun s action s' hs hstep => hs.step hstep
  exact hsound.safe

def fooReady : BotRow :=
  { (newBot ⟨namedUpload.sourceBytes, str "Foo", str "python-3.14", .obj []⟩
      (plainToken 0x61 rfl).text 1).row 1 0 with
    podReady := true, podName := some (podName 1) }

/-- A bot from its upload to the lookup for its match against itself. -/
theorem pipeline_safe_selfMatch :
    ∃ s, Reachable platformStep (Platform.empty literalModules) s ∧
      readyIds s.web.db.bots = [1] ∧ s.matchOndecks.map MatchOndeck.pairing = [(1, 1)] ∧
      PipelineSafe s := by
  have hrun : Reachable platformStep (Platform.empty literalModules) _ :=
    reachable_of_exec [.web (.arrive namedUpload), .web (.selectOwner 0 [] (plainToken 0x61 rfl)),
      .web (.selectVersion 0), .web (.insert 0 0), .enqueueBuild 0, .deliverBuild,
      .build 0, .build 0, .build 0, .build 0, .build 0, .build 0, .scheduler .deliver,
      .scheduler (.readReady 0 [fooReady]), .scheduler (.publishNext 0 (str "c1")),
      .scheduler (.finish 0), .dispatcher .deliver, .dispatcher (.fetch 0)] rfl
  exact ⟨_, hrun, rfl, rfl, pipeline_safe hrun⟩

end TictactoeBots
