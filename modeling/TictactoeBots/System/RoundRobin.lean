import TictactoeBots.MatchScheduler.Pairings
import TictactoeBots.System.PipelineSafety
import TictactoeBots.Web.RuntimeResolution

/-!
Every bot plays every bot.

A pairing passes through all of the queues. What a service has not acknowledged
when it dies is delivered again, so nothing is lost by its death; it is lost with
a message that a handler rejects, or that the web service has not published when
it fails or dies after its commit. In a run without that, a pairing is always
somewhere: a bot of it is still to be announced, or the pairing is scheduled, or
its match is recorded. Once there is nothing left to do, all are recorded.
-/

namespace TictactoeBots

open Text Python StepSystem

variable {py : Interpreter}

/-! ### Where bots and pairings are -/

def Building.coming : Building → List ℕ
  | ⟨_, .announced⟩ | ⟨_, .skipped⟩ => []
  | ⟨msg, .received⟩ | ⟨msg, .found _ _⟩ | ⟨msg, .created _⟩ | ⟨msg, .waited _⟩
  | ⟨msg, .registered _⟩ => [msg.botId]

/-- The bots for which the scheduler has still to read the ready bots. -/
def Platform.coming (s : Platform py) : List ℕ :=
  s.announcing.map BuildPodMessage.botId ++ s.buildQueue.map BuildPodMessage.botId ++
    s.builders.flatMap Building.coming ++ s.schedule ++ s.schedulers.flatMap Handler.unread

def MatchRow.pairing (row : MatchRow) : ℕ × ℕ := (row.botXId, row.botOId)

/-- The pairings that are to be published, to be played, or recorded. -/
def Platform.pairs (s : Platform py) : List (ℕ × ℕ) :=
  s.schedulers.flatMap Handler.pending ++ s.matchOndecks.map MatchOndeck.pairing ++
    s.web.db.matchRows.map MatchRow.pairing

/-- Every message is acknowledged. -/
structure Platform.Drained (s : Platform py) : Prop where
  announcing : s.announcing = []
  buildQueue : s.buildQueue = []
  builders : s.builders = []
  schedule : s.schedule = []
  schedulers : s.schedulers = []
  ondeck : s.ondeck = []
  deliveries : s.deliveries = []

def BuildStatus.isRejected : BuildStatus → Bool
  | .rejected => true
  | .running _ | .acked => false

/-- If the match is about to be played, it has a result. -/
def Delivery.hasResult (env : Surroundings) : Delivery → Bool
  | ⟨_, .fetched botX botO⟩ =>
      match runMatchFromPods env.U env.coreV1 env.ask (botX.podName.getD [])
        (botO.podName.getD []) 10 with
      | .ok (some _) => true
      | _ => false
  | _ => true

/-- If the match is about to be recorded, the database takes it. -/
def Delivery.isStored (db : Db) (now : ℕ) : Delivery → Bool
  | ⟨msg, .played result⟩ =>
      (db.record now msg.botXId msg.botOId result msg.correlationId).2.isOk
  | _ => true

/-- No handler raises and no build message fails to be published, so that no
message is dropped. Any service may die, the web service while none of its
submissions is between its commit and its message. -/
def NothingDropped (s : Platform py) : PlatformAction → Prop
  | .enqueueRaises _ | .buildRaises _ | .scheduler (.raises _) => False
  | .webDies => s.announcing = []
  | .build i => ∀ building ∈ s.builders[i]?,
      (buildNext s.buildWorld building.msg building.stage).2.isRejected = false
  | .dispatcher (.play i env) => ∀ delivery ∈ s.deliveries[i]?, delivery.hasResult env
  | .dispatcher (.record i now) => ∀ delivery ∈ s.deliveries[i]?, delivery.isStored s.web.db now
  | _ => True

/-! ### What holds of single messages -/

def BuildPodMessage.Known (bots : List BotRow) (msg : BuildPodMessage) : Prop :=
  msg.botId ∈ bots.map BotRow.id ∧ msg.runtimeKey ∈ runtimeKeys

def Building.Known (bots : List BotRow) (building : Building) : Prop :=
  building.msg.Known bots ∧
    match building.stage with
    | .found bot _ | .created bot | .waited bot | .registered bot => bot.id = building.msg.botId
    | .received | .announced => True
    | .skipped => False

def Handler.PairsOwn (handler : Handler) : Prop :=
  ∀ pair ∈ handler.pending, pair.1 = handler.botId ∨ pair.2 = handler.botId

def Delivery.Recorded (rows : List MatchRow) (delivery : Delivery) : Prop :=
  delivery.stage.HasRecorded → delivery.msg.pairing ∈ rows.map MatchRow.pairing

structure MessagesSound (s : Platform py) : Prop where
  announcing : ∀ msg ∈ s.announcing, msg.Known s.web.db.bots
  buildQueue : ∀ msg ∈ s.buildQueue, msg.Known s.web.db.bots
  builders : ∀ building ∈ s.builders, building.Known s.web.db.bots
  schedulers : ∀ handler ∈ s.schedulers, handler.PairsOwn
  deliveries : ∀ delivery ∈ s.deliveries, delivery.Recorded s.web.db.matchRows

/-! ### What a step may do to bots and pairings -/

/-- Every bot is ready or still to come, and of two ready bots one is still to
come or the two are paired. -/
structure PairsComplete (s : Platform py) : Prop where
  ready : ∀ id ∈ s.web.db.bots.map BotRow.id, id ∈ readyIds s.web.db.bots ∨ id ∈ s.coming
  paired : ∀ x ∈ readyIds s.web.db.bots, ∀ o ∈ readyIds s.web.db.bots,
    x ∈ s.coming ∨ o ∈ s.coming ∨ (x, o) ∈ s.pairs

/-- A step keeps what is to come, except that a bot is paired with all ready
bots, and keeps the pairings, except that one of the bots has to be paired
again. -/
structure Carries (s s' : Platform py) : Prop where
  ids : ∀ id ∈ s'.web.db.bots.map BotRow.id, id ∈ s.web.db.bots.map BotRow.id ∨ id ∈ s'.coming
  ready : ∀ id ∈ readyIds s.web.db.bots, id ∈ readyIds s'.web.db.bots
  newReady : ∀ id ∈ readyIds s'.web.db.bots, id ∈ readyIds s.web.db.bots ∨ id ∈ s'.coming
  coming : ∀ id ∈ s.coming, id ∈ s'.coming ∨ id ∈ readyIds s'.web.db.bots ∧
    ∀ other ∈ readyIds s'.web.db.bots, (id, other) ∈ s'.pairs ∧ (other, id) ∈ s'.pairs
  pairs : ∀ x o, (x, o) ∈ s.pairs → (x, o) ∈ s'.pairs ∨ x ∈ s'.coming ∨ o ∈ s'.coming

theorem PairsComplete.carry {s s' : Platform py} (h : PairsComplete s) (hcarries : Carries s s') :
    PairsComplete s' where
  ready id hid := by
    rcases hcarries.ids id hid with hold | hcoming
    · rcases h.ready id hold with hready | hcoming
      · exact .inl (hcarries.ready id hready)
      · rcases hcarries.coming id hcoming with hcoming | ⟨hready, _⟩
        · exact .inr hcoming
        · exact .inl hready
    · exact .inr hcoming
  paired x hx o ho := by
    rcases hcarries.newReady x hx with hxold | hcoming
    · rcases hcarries.newReady o ho with hoold | hcoming
      · rcases h.paired x hxold o hoold with hcoming | hcoming | hpair
        · rcases hcarries.coming x hcoming with hcoming | ⟨_, hall⟩
          · exact .inl hcoming
          · exact .inr (.inr (hall o ho).1)
        · rcases hcarries.coming o hcoming with hcoming | ⟨_, hall⟩
          · exact .inr (.inl hcoming)
          · exact .inr (.inr (hall x hx).2)
        · rcases hcarries.pairs x o hpair with hpair | hcoming | hcoming
          · exact .inr (.inr hpair)
          · exact .inl hcoming
          · exact .inr (.inl hcoming)
      · exact .inr (.inl hcoming)
    · exact .inl hcoming

theorem Carries.of_subset {s s' : Platform py} (hbots : s'.web.db.bots = s.web.db.bots)
    (hcoming : s.coming ⊆ s'.coming) (hpairs : s.pairs ⊆ s'.pairs) : Carries s s' where
  ids _ hid := .inl (hbots ▸ hid)
  ready _ hid := hbots ▸ hid
  newReady _ hid := .inl (hbots ▸ hid)
  coming _ hid := .inl (hcoming hid)
  pairs _ _ hpair := .inl (hpairs hpair)

theorem BuildPodMessage.Known.mono {bots bots' : List BotRow} {msg : BuildPodMessage}
    (h : msg.Known bots) (hids : bots.map BotRow.id ⊆ bots'.map BotRow.id) : msg.Known bots' :=
  ⟨hids h.1, h.2⟩

theorem Building.Known.mono {bots bots' : List BotRow} {building : Building}
    (h : building.Known bots) (hids : bots.map BotRow.id ⊆ bots'.map BotRow.id) :
    building.Known bots' :=
  ⟨h.1.mono hids, h.2⟩

/-! ### The web service -/

/-- A submission that inserts its row has a message for it to publish. -/
theorem newBuilds_cases {s s' : SubmitSystem py} {action : SubmitAction}
    (h : submitStep s action = some s') : s'.db.matchRows = s.db.matchRows ∧
      ((s'.db.bots = s.db.bots ∧ newBuilds s s' = []) ∨
        ∃ row, s'.db.bots = s.db.bots ++ [row] ∧ row.podReady = false ∧
          newBuilds s s' = [⟨row.id, row.runtimeKey⟩] ∧ row.runtimeKey ∈ runtimeKeys) := by
  cases moves_of_submitStep h with
  | arrive | findOwner | findFree | selectVersion | refused | gone =>
      exact ⟨rfl, .inl ⟨rfl, by simp [newBuilds]⟩⟩
  | @inserts i now version sub token =>
      obtain ⟨docstring, _, hkey, hmem⟩ := declaredKey_of_prepare sub.prepared
      refine ⟨rfl, .inr ⟨_, rfl, rfl, by simp [newBuilds], ?_⟩⟩
      show sub.valid.runtimeKey ∈ runtimeKeys
      rw [hkey]
      exact hmem

section Steps

variable {s s' : Platform py}

theorem carries_web (hm : MessagesSound s) {action : SubmitAction}
    (hstep : platformStep s (.web action) = some s') : MessagesSound s' ∧ Carries s s' := by
  obtain ⟨web, hweb, rfl⟩ := Option.map_eq_some_iff.1 hstep
  obtain ⟨hrows, ⟨hbots, hnew⟩ | ⟨row, hbots, hready, hnew, hkey⟩⟩ := newBuilds_cases hweb
  · rw [hnew]
    refine ⟨⟨?_, ?_, ?_, hm.schedulers, ?_⟩, .of_subset hbots ?_ ?_⟩
    · exact hbots ▸ hm.announcing
    · exact hbots ▸ hm.buildQueue
    · exact hbots ▸ hm.builders
    · exact hrows ▸ hm.deliveries
    · exact fun id hid => hid
    · intro pair hpair
      simp only [Platform.pairs, hrows]
      exact hpair
  · rw [hnew]
    have hids : s.web.db.bots.map BotRow.id ⊆ web.db.bots.map BotRow.id := by
      rw [hbots, List.map_append]
      exact List.subset_append_left _ _
    have hreadyIds : ∀ id, id ∈ readyIds web.db.bots ↔ id ∈ readyIds s.web.db.bots := by
      intro id
      simp [mem_readyIds, hbots, or_and_right, exists_or, hready]
    refine ⟨⟨?_, fun msg hmsg => (hm.buildQueue msg hmsg).mono hids,
      fun building hmem => (hm.builders building hmem).mono hids, hm.schedulers,
      hrows ▸ hm.deliveries⟩, ?_⟩
    · refine List.forall_mem_cons.2 ⟨⟨?_, hkey⟩, fun msg hmsg => (hm.announcing msg hmsg).mono hids⟩
      simp [hbots]
    · refine ⟨fun id hid => ?_, fun id hid => (hreadyIds id).2 hid,
        fun id hid => .inl ((hreadyIds id).1 hid), fun id hid => .inl ?_, fun x o hpair => .inl ?_⟩
      · simp only [hbots, List.map_append, List.mem_append, List.map_cons, List.map_nil,
          List.mem_singleton] at hid
        refine hid.imp_right fun hid => ?_
        simp [Platform.coming, hid]
      · exact List.mem_cons_of_mem _ hid
      · simp only [Platform.pairs, hrows]
        exact hpair

/-! ### The `pod_builder` -/

def BuildStatus.left (msg : BuildPodMessage) : BuildStatus → List Building
  | .running stage => [⟨msg, stage⟩]
  | .acked | .rejected => []

theorem buildNext_carries {w : BuildWorld} {msg : BuildPodMessage} {stage : BuildStage}
    (hknown : (⟨msg, stage⟩ : Building).Known w.bots)
    (hkept : (buildNext w msg stage).2.isRejected = false) :
    let next := buildNext w msg stage
    (∀ building ∈ next.2.left msg, building.Known next.1.bots) ∧
      (∀ id ∈ readyIds next.1.bots,
        id ∈ readyIds w.bots ∨ id ∈ (next.2.left msg).flatMap Building.coming) ∧
      ∀ id ∈ (⟨msg, stage⟩ : Building).coming ++ w.schedule,
        id ∈ (next.2.left msg).flatMap Building.coming ++ next.1.schedule := by
  obtain ⟨hmsg, hstage⟩ := hknown
  cases stage with
  | received =>
      obtain ⟨bot, image, hfetch, hid⟩ := fetchBotAndRuntime_of_known hmsg.1 hmsg.2
      simp only [buildNext, hfetch, BuildStatus.left]
      exact ⟨List.forall_mem_singleton.2 ⟨hmsg, hid⟩, fun id hid => .inl hid, fun id hid => hid⟩
  | found bot image =>
      by_cases hpod : podExists w.pods (podName bot.id) = true
      · simp only [buildNext, if_pos hpod] at hkept
        cases hkept
      · simp only [buildNext, if_neg hpod, BuildStatus.left]
        exact ⟨List.forall_mem_singleton.2 ⟨hmsg, hstage⟩, fun id hid => .inl hid,
          fun id hid => hid⟩
  | created bot =>
      exact ⟨List.forall_mem_singleton.2 ⟨hmsg, hstage⟩, fun id hid => .inl hid, fun id hid => hid⟩
  | waited bot =>
      have hstage : bot.id = msg.botId := hstage
      refine ⟨List.forall_mem_singleton.2 ⟨hmsg.mono ?_, hstage⟩, fun id hid => ?_,
        fun id hid => hid⟩
      · exact (map_id_setPodReady _ _ _).symm ▸ List.Subset.refl _
      · refine (mem_readyIds_setPodReady.1 hid).imp_right fun hid => ?_
        simp [BuildStatus.left, buildNext, Building.coming, hid.1, hstage]
  | registered bot =>
      have hstage : bot.id = msg.botId := hstage
      refine ⟨List.forall_mem_singleton.2 ⟨hmsg, trivial⟩, fun id hid => .inl hid, fun id hid => ?_⟩
      simp only [Building.coming, List.mem_append, List.mem_singleton] at hid
      simp only [buildNext, BuildStatus.left, hstage, List.mem_append, List.mem_singleton]
      exact .inr hid.symm
  | announced => exact ⟨List.forall_mem_nil _, fun id hid => .inl hid, fun id hid => hid⟩
  | skipped => exact hstage.elim

theorem buildNext_ready (w : BuildWorld) (msg : BuildPodMessage) (stage : BuildStage) :
    ∀ id ∈ readyIds w.bots, id ∈ readyIds (buildNext w msg stage).1.bots := by
  intro id hid
  cases stage with
  | received => simp only [buildNext]; split <;> exact hid
  | found bot image => simp only [buildNext]; split <;> exact hid
  | waited bot => exact mem_readyIds_setPodReady.2 (.inl hid)
  | created _ | registered _ | announced | skipped => exact hid

theorem platformStep_build {i : ℕ} {msg : BuildPodMessage} {stage : BuildStage}
    (hget : s.builders[i]? = some ⟨msg, stage⟩) :
    platformStep s (.build i) =
      let next := buildNext s.buildWorld msg stage
      some { s with
        web := { s.web with db := { s.web.db with bots := next.1.bots } }
        pods := next.1.pods
        schedule := next.1.schedule
        builders := next.2.left msg ++ s.builders.eraseIdx i } := by
  simp only [platformStep, hget]
  cases (buildNext s.buildWorld msg stage).2 <;> rfl

theorem carries_build (hm : MessagesSound s) {i : ℕ} (hkept : NothingDropped s (.build i))
    (hstep : platformStep s (.build i) = some s') : MessagesSound s' ∧ Carries s s' := by
  cases hget : s.builders[i]? with
  | none => simp [platformStep, hget] at hstep
  | some building =>
      obtain ⟨msg, stage⟩ := building
      obtain ⟨hleft, hready, hcoming⟩ := buildNext_carries
        (hm.builders _ (List.mem_of_getElem? hget)) (hkept _ hget)
      have hids := buildNext_ids s.buildWorld msg stage
      have hgrow := buildNext_ready s.buildWorld msg stage
      have hbuilding := fun id =>
        ((perm_cons_eraseIdx_of_getElem? hget).flatMap_right Building.coming).mem_iff (a := id)
      rw [platformStep_build hget] at hstep
      generalize buildNext s.buildWorld msg stage = next at *
      rw [← Option.some.inj hstep]
      have hsub : s.web.db.bots.map BotRow.id ⊆ next.1.bots.map BotRow.id := by
        rw [hids]
        exact List.Subset.refl _
      refine ⟨⟨fun msg hmsg => (hm.announcing msg hmsg).mono hsub,
        fun msg hmsg => (hm.buildQueue msg hmsg).mono hsub, ?_, hm.schedulers, hm.deliveries⟩,
        ⟨fun id hid => .inl (hids ▸ hid), hgrow, fun id hid => ?_, fun id hid => .inl ?_,
          fun x o hpair => .inl hpair⟩⟩
      · intro building hmem
        rcases List.mem_append.1 hmem with hmem | hmem
        · exact hleft building hmem
        · exact (hm.builders building (List.mem_of_mem_eraseIdx hmem)).mono hsub
      · refine (hready id hid).imp_right fun hid => ?_
        simp only [Platform.coming, List.flatMap_append, List.mem_append]
        exact .inl (.inl (.inr (.inl hid)))
      · have hnext := hcoming id
        have hold := hbuilding id
        simp only [Platform.coming, Platform.buildWorld, List.flatMap_append, List.flatMap_cons,
          List.mem_append] at hid hnext hold ⊢
        rw [hold] at hid
        grind

/-! ### The scheduler -/

theorem carries_scheduler (h : s.Sound) (hm : MessagesSound s) {action : PipelineAction}
    (hkept : NothingDropped s (.scheduler action))
    (hstep : platformStep s (.scheduler action) = some s') : MessagesSound s' ∧ Carries s s' := by
  obtain ⟨pipeline, hpipeline, rfl⟩ := Option.map_eq_some_iff.1 hstep
  cases moves_of_step hpipeline with
  | commitReady hbuild | buildFails hbuild => exact absurd hbuild List.not_mem_nil
  | publishReady hnotify | notifyFails hnotify => exact absurd hnotify List.not_mem_nil
  | raises => exact hkept.elim
  | deliver hqueue =>
      have hqueue : s.schedule = _ := hqueue
      refine ⟨⟨hm.announcing, hm.buildQueue, hm.builders, ?_, hm.deliveries⟩,
        .of_subset rfl ?_ fun pair hpair => hpair⟩
      · exact List.forall_mem_cons.2 ⟨List.forall_mem_nil _, hm.schedulers⟩
      · intro id hid
        simp only [Platform.coming, hqueue, Platform.pipeline, List.mem_append, List.mem_cons,
          List.flatMap_cons, Handler.unread] at hid ⊢
        grind
  | @readReady i botId ready others hget hperm hready =>
      have hperm : s.schedulers.Perm (⟨botId, .received⟩ :: others) := hperm
      have hunread := fun id => (hperm.flatMap_right Handler.unread).mem_iff (a := id)
      have hpending := fun pair => (hperm.flatMap_right Handler.pending).mem_iff (a := pair)
      have hbot : botId ∈ readyIds s.web.db.bots :=
        (h.scheduler.handlers _ (List.mem_of_getElem? hget)).1
      have hothers := List.forall_mem_cons.1 fun r hr => hm.schedulers r (hperm.mem_iff.2 hr)
      have hnew : ∀ other ∈ readyIds s.web.db.bots,
          (botId, other) ∈ pairings botId ready ∧ (other, botId) ∈ pairings botId ready := by
        intro other hother
        have hmem := (hready.map BotRow.id).mem_iff.2 hother
        exact ⟨mem_pairings.2 (.inl ⟨rfl, hmem⟩), mem_pairings.2 (.inr ⟨rfl, hmem⟩)⟩
      refine ⟨⟨hm.announcing, hm.buildQueue, hm.builders, ?_, hm.deliveries⟩,
        ⟨fun id hid => .inl hid, fun id hid => hid, fun id hid => .inl hid, fun id hid => ?_,
          fun x o hpair => .inl ?_⟩⟩
      · refine List.forall_mem_cons.2 ⟨?_, hothers.2⟩
        rintro ⟨x, o⟩ hpair
        exact (mem_pairings.1 hpair).imp And.left And.left
      · by_cases hid' : id = botId
        · subst hid'
          refine .inr ⟨hbot, fun other hother => ?_⟩
          simp only [Platform.pairs, List.flatMap_cons, Handler.pending, List.mem_append]
          exact ⟨.inl (.inl (.inl (hnew other hother).1)), .inl (.inl (.inl (hnew other hother).2))⟩
        · left
          have hold := hunread id
          simp only [Platform.coming, Platform.pipeline, List.flatMap_cons, Handler.unread,
            List.mem_append, List.mem_singleton, hid', false_or, List.nil_append] at hid hold ⊢
          rwa [hold] at hid
      · have hold := hpending (x, o)
        simp only [Platform.pairs, Platform.matchOndecks, Platform.pipeline, List.flatMap_cons,
          Handler.pending, List.nil_append, List.mem_append] at hpair hold ⊢
        rw [hold] at hpair
        grind
  | @publishNext i botId x o rest correlationId others hperm =>
      have hperm : s.schedulers.Perm (⟨botId, .publishing ((x, o) :: rest)⟩ :: others) := hperm
      have hunread := fun id => (hperm.flatMap_right Handler.unread).mem_iff (a := id)
      have hpending := fun pair => (hperm.flatMap_right Handler.pending).mem_iff (a := pair)
      have hothers := List.forall_mem_cons.1 fun r hr => hm.schedulers r (hperm.mem_iff.2 hr)
      refine ⟨⟨hm.announcing, hm.buildQueue, hm.builders, ?_, hm.deliveries⟩,
        .of_subset rfl (fun id hid => ?_) fun pair hpair => ?_⟩
      · exact List.forall_mem_cons.2 ⟨fun pair hpair =>
          hothers.1 pair (List.mem_cons_of_mem _ hpair), hothers.2⟩
      · have hold := hunread id
        simp only [Platform.coming, Platform.pipeline, List.flatMap_cons, Handler.unread,
          List.nil_append, List.mem_append] at hid hold ⊢
        rwa [hold] at hid
      · have hold := hpending pair
        simp only [Platform.pairs, Platform.matchOndecks, Platform.pipeline, List.flatMap_cons,
          Handler.pending, List.cons_append, List.mem_cons, List.map_append, List.map_cons,
          List.map_nil, MatchOndeck.pairing, List.not_mem_nil, or_false, List.mem_append]
          at hpair hold ⊢
        rw [hold] at hpair
        grind
  | @finish i botId others hperm =>
      have hperm : s.schedulers.Perm (⟨botId, .publishing []⟩ :: others) := hperm
      have hunread := fun id => (hperm.flatMap_right Handler.unread).mem_iff (a := id)
      have hpending := fun pair => (hperm.flatMap_right Handler.pending).mem_iff (a := pair)
      have hothers := List.forall_mem_cons.1 fun r hr => hm.schedulers r (hperm.mem_iff.2 hr)
      refine ⟨⟨hm.announcing, hm.buildQueue, hm.builders, hothers.2, hm.deliveries⟩,
        .of_subset rfl (fun id hid => ?_) fun pair hpair => ?_⟩
      · have hold := hunread id
        simp only [Platform.coming, Platform.pipeline, List.flatMap_cons, Handler.unread,
          List.nil_append, List.mem_append] at hid hold ⊢
        rwa [hold] at hid
      · have hold := hpending pair
        simp only [Platform.pairs, Platform.matchOndecks, Platform.pipeline, List.flatMap_cons,
          Handler.pending, List.nil_append, List.mem_append] at hpair hold ⊢
        rwa [hold] at hpair

/-! ### The `ondeck_handler` -/

theorem carries_delivery (hm : MessagesSound s) {delivery : Delivery} (left : List Delivery)
    {others : List Delivery} {db : Db} (hperm : s.deliveries.Perm (delivery :: others))
    (hbots : db.bots = s.web.db.bots) (hrows : s.web.db.matchRows ⊆ db.matchRows)
    (hleft : ∀ other ∈ left, other.Recorded db.matchRows)
    (hpair : delivery.msg.pairing ∈
      left.map (fun other => other.msg.pairing) ++ db.matchRows.map MatchRow.pairing) :
    MessagesSound { s with web := { s.web with db := db }, deliveries := left ++ others } ∧
      Carries s { s with web := { s.web with db := db }, deliveries := left ++ others } := by
  have hmapped := List.map_subset MatchRow.pairing hrows
  refine ⟨⟨hbots ▸ hm.announcing, hbots ▸ hm.buildQueue, hbots ▸ hm.builders, hm.schedulers, ?_⟩,
    .of_subset hbots (fun id hid => hid) fun pair hold => ?_⟩
  · intro other hother hrecorded
    rcases List.mem_append.1 hother with hother | hother
    · exact hleft other hother hrecorded
    · exact hmapped
        (hm.deliveries other (hperm.mem_iff.2 (List.mem_cons_of_mem _ hother)) hrecorded)
  · have hdeliveries := ((hperm.map Delivery.msg).map MatchOndeck.pairing).mem_iff (a := pair)
    have hrow := @hmapped pair
    simp only [Platform.pairs, Platform.matchOndecks, List.map_append, List.map_cons, List.map_map,
      List.mem_append, List.mem_cons, Function.comp_def] at hold hdeliveries hpair ⊢
    grind

theorem carries_record (hm : MessagesSound s) {i now : ℕ} {msg : MatchOndeck}
    {result : MatchResult} {db : Db} (hget : s.deliveries[i]? = some ⟨msg, .played result⟩)
    (hrecord : s.web.db.record now msg.botXId msg.botOId result msg.correlationId = (db, .ok ())) :
    MessagesSound { s with
      web := { s.web with db := db }
      deliveries := [⟨msg, .recorded⟩] ++ s.deliveries.eraseIdx i } ∧
    Carries s { s with
      web := { s.web with db := db }
      deliveries := [⟨msg, .recorded⟩] ++ s.deliveries.eraseIdx i } := by
  have hbots := s.web.db.record_bots now msg.botXId msg.botOId result msg.correlationId
  rcases s.web.db.record_cases now msg.botXId msg.botOId result msg.correlationId with
    ⟨⟨exc, hexc⟩, _⟩ | ⟨_, _, _, hrows⟩
  · rw [hrecord] at hexc
    cases hexc
  · rw [hrecord] at hbots hrows
    have hpair : msg.pairing ∈ db.matchRows.map MatchRow.pairing := by
      rw [hrows, List.map_append]
      exact List.mem_append_right _ List.mem_cons_self
    refine carries_delivery hm [⟨msg, .recorded⟩] (perm_cons_eraseIdx_of_getElem? hget) hbots ?_
      (List.forall_mem_singleton.2 fun _ => hpair) (by simp)
    rw [hrows]
    exact List.subset_append_left _ _

theorem carries_dispatcher (h : s.Sound) (hm : MessagesSound s) {action : OndeckAction}
    (hkept : NothingDropped s (.dispatcher action))
    (hstep : platformStep s (.dispatcher action) = some s') : MessagesSound s' ∧ Carries s s' := by
  cases action with
  | publish msg => exact absurd hstep (by simp [platformStep])
  | deliver =>
      obtain ⟨ondeck, hondeck, rfl⟩ := Option.map_eq_some_iff.1 hstep
      cases moves_of_ondeckStep hondeck with
      | deliver hqueue =>
          have hqueue : s.ondeck = _ := hqueue
          refine ⟨⟨hm.announcing, hm.buildQueue, hm.builders, hm.schedulers, ?_⟩,
            .of_subset rfl (fun id hid => hid) fun pair hpair => ?_⟩
          · exact List.forall_mem_cons.2 ⟨fun hrecorded => hrecorded.elim, hm.deliveries⟩
          · simp only [Platform.pairs, Platform.matchOndecks, Platform.ondeckSystem, hqueue,
              List.map_append, List.map_cons, List.mem_append, List.mem_cons] at hpair ⊢
            grind
  | fetch i =>
      obtain ⟨ondeck, hondeck, rfl⟩ := Option.map_eq_some_iff.1 hstep
      cases moves_of_ondeckStep hondeck with
      | @fetch _ msg botX botO others hperm _ =>
          exact carries_delivery hm [⟨msg, .fetched botX botO⟩] hperm rfl
            (List.Subset.refl _) (List.forall_mem_singleton.2 fun hrecorded => hrecorded.elim)
            (by simp)
      | @skip _ msg others hperm hfetch =>
          -- ready bots are found
          have hsound := (h.dispatcher.of_perm hperm).1
          obtain ⟨botX, botO, hboth, -⟩ := h.bots.fetchMatchBots_eq hsound.1.1 hsound.1.2
          exact absurd (hboth.symm.trans hfetch) (Option.some_ne_none _)
  | play i env =>
      obtain ⟨ondeck, hondeck, rfl⟩ := Option.map_eq_some_iff.1 hstep
      simp only [ondeckStep] at hondeck
      split at hondeck
      · rename_i msg botX botO hget
        have hresult := hkept _ hget
        simp only [Delivery.hasResult] at hresult
        split at hondeck
        · rename_i result _
          rw [← Option.some.inj hondeck]
          exact carries_delivery hm [⟨msg, .played result⟩]
            (perm_cons_eraseIdx_of_getElem? hget) rfl (List.Subset.refl _)
            (List.forall_mem_singleton.2 fun hrecorded => hrecorded.elim) (by simp)
        · rename_i hnone
          split at hresult
          · rename_i result hrun
            exact absurd hrun (hnone result)
          · cases hresult
      · exact absurd hondeck (by simp)
  | record i now =>
      obtain ⟨ondeck, hondeck, rfl⟩ := Option.map_eq_some_iff.1 hstep
      simp only [ondeckStep] at hondeck
      split at hondeck
      · rename_i msg result hget
        have hok := hkept _ hget
        simp only [Delivery.isStored] at hok
        cases hrecord : s.web.db.record now msg.botXId msg.botOId result msg.correlationId with
        | mk db stored =>
            rw [hrecord] at hok
            obtain _ | _ := stored
            · cases hok
            · have hrecord' : s.ondeckSystem.db.record now msg.botXId msg.botOId result
                  msg.correlationId = (db, .ok ()) := hrecord
              simp only [hrecord', Option.some.injEq] at hondeck
              rw [← hondeck]
              exact carries_record hm hget hrecord
      · exact absurd hondeck (by simp)
  | announce i =>
      obtain ⟨ondeck, hondeck, rfl⟩ := Option.map_eq_some_iff.1 hstep
      cases moves_of_ondeckStep hondeck with
      | @announce _ msg others hperm =>
          have hrecorded := hm.deliveries _ (hperm.mem_iff.2 List.mem_cons_self)
          exact carries_delivery hm [⟨msg, .finished⟩] hperm rfl (List.Subset.refl _)
            (List.forall_mem_singleton.2 fun _ => hrecorded trivial) (by simp)
  | ack i =>
      obtain ⟨ondeck, hondeck, rfl⟩ := Option.map_eq_some_iff.1 hstep
      cases moves_of_ondeckStep hondeck with
      | @ack _ msg stage others hperm hstage =>
          obtain rfl | rfl := hstage
          · have hrecorded := hm.deliveries _ (hperm.mem_iff.2 List.mem_cons_self)
            exact carries_delivery hm [] hperm rfl (List.Subset.refl _)
              (List.forall_mem_nil _) (List.mem_append_right _ (hrecorded trivial))
          · exact ((h.dispatcher.of_perm hperm).1.2).elim
  | die =>
      rw [← Option.some.inj hstep]
      refine ⟨⟨hm.announcing, hm.buildQueue, hm.builders, hm.schedulers, List.forall_mem_nil _⟩,
        .of_subset rfl (fun id hid => hid) fun pair hpair => ?_⟩
      simp only [Platform.pairs, Platform.matchOndecks, Platform.ondeckSystem, List.map_append,
        List.map_nil, List.append_nil, List.mem_append] at hpair ⊢
      grind

/-! ### Deaths and the build queue -/

/-- The scheduler dies: its messages are handled again, so the pairings that
were still to be published need not be kept. -/
theorem carries_schedulerDies (hm : MessagesSound s)
    (hstep : platformStep s .schedulerDies = some s') : MessagesSound s' ∧ Carries s s' := by
  rw [← Option.some.inj hstep]
  have hunread : ∀ id, id ∈ s.schedulers.flatMap Handler.unread →
      id ∈ s.schedulers.map Handler.botId := by
    intro id hid
    obtain ⟨⟨botId, stage⟩, hhandler, hid⟩ := List.mem_flatMap.1 hid
    cases stage with
    | received => exact List.mem_map.2 ⟨_, hhandler, (List.mem_singleton.1 hid).symm⟩
    | publishing pending => exact absurd hid List.not_mem_nil
  refine ⟨⟨hm.announcing, hm.buildQueue, hm.builders, List.forall_mem_nil _, hm.deliveries⟩,
    ⟨fun id hid => .inl hid, fun id hid => hid, fun id hid => .inl hid, fun id hid => .inl ?_,
      fun x o hpair => ?_⟩⟩
  · have hmoved := hunread id
    simp only [Platform.coming, List.flatMap_nil, List.append_nil, List.mem_append] at hid ⊢
    grind
  · simp only [Platform.pairs, List.flatMap_nil, List.nil_append, List.mem_append] at hpair ⊢
    rcases hpair with (hpending | hondeck) | hrow
    · obtain ⟨handler, hhandler, hpending⟩ := List.mem_flatMap.1 hpending
      have hback := List.mem_map_of_mem (f := Handler.botId) hhandler
      refine .inr ((hm.schedulers handler hhandler (x, o) hpending).imp (fun hx => ?_) fun ho => ?_)
      · simp only [Platform.coming, List.mem_append]
        exact .inl (.inr (.inl ((show x = handler.botId from hx) ▸ hback)))
      · simp only [Platform.coming, List.mem_append]
        exact .inl (.inr (.inl ((show o = handler.botId from ho) ▸ hback)))
    · exact .inl (.inl hondeck)
    · exact .inl (.inr hrow)

theorem carries_builderDies (hm : MessagesSound s)
    (hstep : platformStep s .builderDies = some s') : MessagesSound s' ∧ Carries s s' := by
  rw [← Option.some.inj hstep]
  have hcoming : ∀ id, id ∈ s.builders.flatMap Building.coming →
      id ∈ (s.builders.map Building.msg).map BuildPodMessage.botId := by
    intro id hid
    obtain ⟨⟨msg, stage⟩, hbuilding, hid⟩ := List.mem_flatMap.1 hid
    refine List.mem_map.2 ⟨msg, List.mem_map_of_mem hbuilding, ?_⟩
    cases stage with
    | announced | skipped => exact absurd hid List.not_mem_nil
    | received | found _ _ | created _ | waited _ | registered _ =>
        exact (List.mem_singleton.1 hid).symm
  refine ⟨⟨hm.announcing, fun msg hmsg => ?_, List.forall_mem_nil _, hm.schedulers, hm.deliveries⟩,
    .of_subset rfl (fun id hid => ?_) fun pair hpair => hpair⟩
  · rcases List.mem_append.1 hmsg with hmsg | hmsg
    · obtain ⟨building, hbuilding, rfl⟩ := List.mem_map.1 hmsg
      exact (hm.builders building hbuilding).1
    · exact hm.buildQueue msg hmsg
  · have hmoved := hcoming id
    simp only [Platform.coming, List.flatMap_nil, List.append_nil, List.map_append,
      List.mem_append] at hid ⊢
    grind

theorem carries_enqueueBuild (hm : MessagesSound s) {i : ℕ}
    (hstep : platformStep s (.enqueueBuild i) = some s') : MessagesSound s' ∧ Carries s s' := by
  simp only [platformStep] at hstep
  split at hstep
  · rename_i msg hget
    have hperm := perm_cons_eraseIdx_of_getElem? hget
    have hsplit := List.forall_mem_cons.1 fun m hmem => hm.announcing m (hperm.mem_iff.2 hmem)
    rw [← Option.some.inj hstep]
    refine ⟨⟨hsplit.2, fun m hmem => ?_, hm.builders, hm.schedulers, hm.deliveries⟩,
      .of_subset rfl (fun id hid => ?_) fun pair hpair => hpair⟩
    · rcases List.mem_append.1 hmem with hmem | hmem
      · exact hm.buildQueue m hmem
      · rw [List.mem_singleton.1 hmem]
        exact hsplit.1
    · have hold := (hperm.map BuildPodMessage.botId).mem_iff (a := id)
      simp only [Platform.coming, List.map_append, List.map_cons, List.map_nil, List.mem_append,
        List.mem_cons, List.not_mem_nil, or_false] at hid hold ⊢
      rw [hold] at hid
      grind
  · exact absurd hstep (by simp)

theorem carries_webDies (hm : MessagesSound s) (hkept : NothingDropped s .webDies)
    (hstep : platformStep s .webDies = some s') : MessagesSound s' ∧ Carries s s' := by
  rw [← Option.some.inj hstep]
  refine ⟨⟨List.forall_mem_nil _, hm.buildQueue, hm.builders, hm.schedulers, hm.deliveries⟩,
    .of_subset rfl (fun id hid => ?_) fun pair hpair => hpair⟩
  have hnone : s.announcing = [] := hkept
  simpa only [Platform.coming, hnone] using hid

theorem carries_deliverBuild (hm : MessagesSound s)
    (hstep : platformStep s .deliverBuild = some s') : MessagesSound s' ∧ Carries s s' := by
  simp only [platformStep] at hstep
  split at hstep
  · rename_i msg rest hqueue
    have hsplit := hm.buildQueue
    rw [hqueue, List.forall_mem_cons] at hsplit
    rw [← Option.some.inj hstep]
    refine ⟨⟨hm.announcing, hsplit.2, List.forall_mem_cons.2 ⟨⟨hsplit.1, trivial⟩, hm.builders⟩,
      hm.schedulers, hm.deliveries⟩, .of_subset rfl (fun id hid => ?_) fun pair hpair => hpair⟩
    simp only [Platform.coming, hqueue, List.map_cons, List.flatMap_cons, Building.coming,
      List.mem_append, List.mem_cons, List.not_mem_nil, or_false] at hid ⊢
    grind
  · exact absurd hstep (by simp)

theorem carries_of_step (h : s.Sound) (hm : MessagesSound s) {action : PlatformAction}
    (hkept : NothingDropped s action) (hstep : platformStep s action = some s') :
    MessagesSound s' ∧ Carries s s' := by
  cases action with
  | web action => exact carries_web hm hstep
  | enqueueBuild i => exact carries_enqueueBuild hm hstep
  | enqueueRaises i | buildRaises i => exact hkept.elim
  | webDies => exact carries_webDies hm hkept hstep
  | deliverBuild => exact carries_deliverBuild hm hstep
  | build i => exact carries_build hm hkept hstep
  | builderDies => exact carries_builderDies hm hstep
  | scheduler action => exact carries_scheduler h hm hkept hstep
  | schedulerDies => exact carries_schedulerDies hm hstep
  | dispatcher action => exact carries_dispatcher h hm hkept hstep

end Steps

/-! ### The round robin -/

/-- What holds in every state of a run that drops no message. -/
structure Platform.Complete (s : Platform py) : Prop where
  sound : s.Sound
  messages : MessagesSound s
  pairs : PairsComplete s

theorem Platform.complete_empty (py : Interpreter) : (Platform.empty py).Complete where
  sound := Platform.sound_empty py
  messages := ⟨List.forall_mem_nil _, List.forall_mem_nil _, List.forall_mem_nil _,
    List.forall_mem_nil _, List.forall_mem_nil _⟩
  pairs := ⟨List.forall_mem_nil _, List.forall_mem_nil _⟩

theorem Platform.Complete.step {s s' : Platform py} {action : PlatformAction} (h : s.Complete)
    (hkept : NothingDropped s action) (hstep : platformStep s action = some s') : s'.Complete := by
  obtain ⟨hmessages, hcarries⟩ := carries_of_step h.sound h.messages hkept hstep
  exact ⟨h.sound.step hstep, hmessages, h.pairs.carry hcarries⟩

/-- However the services overlap and whenever they die: once every message is
acknowledged and none was dropped, all uploaded bots are ready, and each has
played each, itself included, on either side. -/
theorem round_robin_complete {s : Platform py}
    (h : Via platformStep NothingDropped (Platform.empty py) s) (hdrained : s.Drained) :
    (∀ bot ∈ s.web.db.bots, bot.podReady) ∧
      ∀ botX ∈ s.web.db.bots, ∀ botO ∈ s.web.db.bots,
        ∃ row ∈ s.web.db.matchRows, row.botXId = botX.id ∧ row.botOId = botO.id := by
  have hinv : s.Complete := h.invariant (Platform.complete_empty py)
    fun s action s' hs hkept hstep => hs.step hkept hstep
  have hnone : s.coming = [] := by
    simp [Platform.coming, hdrained.announcing, hdrained.buildQueue, hdrained.builders,
      hdrained.schedule, hdrained.schedulers]
  have hpairs : s.pairs = s.web.db.matchRows.map MatchRow.pairing := by
    simp [Platform.pairs, Platform.matchOndecks, hdrained.schedulers, hdrained.ondeck,
      hdrained.deliveries]
  have hready : ∀ bot ∈ s.web.db.bots, bot.id ∈ readyIds s.web.db.bots := by
    intro bot hbot
    rcases hinv.pairs.ready bot.id (List.mem_map_of_mem hbot) with hready | hcoming
    · exact hready
    · rw [hnone] at hcoming
      exact absurd hcoming List.not_mem_nil
  refine ⟨fun bot hbot => ?_, fun botX hX botO hO => ?_⟩
  · obtain ⟨ready, hmem, hflag, hid⟩ := mem_readyIds.1 (hready bot hbot)
    rwa [← List.inj_on_of_nodup_map hinv.sound.bots.ids_nodup hmem hbot hid]
  · have hpair := hinv.pairs.paired botX.id (hready botX hX) botO.id (hready botO hO)
    rw [hnone, hpairs] at hpair
    rcases hpair with hcoming | hcoming | hpair
    · exact absurd hcoming List.not_mem_nil
    · exact absurd hcoming List.not_mem_nil
    · obtain ⟨row, hrow, heq⟩ := List.mem_map.1 hpair
      exact ⟨row, hrow, Prod.mk.inj heq⟩

instance (s : Platform py) : ∀ action, Decidable (NothingDropped s action)
  | .enqueueRaises _ | .buildRaises _ | .scheduler (.raises _) => .isFalse id
  | .webDies => decidable_of_iff (s.announcing.isEmpty = true) List.isEmpty_iff
  | .build i => inferInstanceAs (Decidable (∀ building ∈ s.builders[i]?,
      (buildNext s.buildWorld building.msg building.stage).2.isRejected = false))
  | .dispatcher (.play i env) =>
      inferInstanceAs (Decidable (∀ delivery ∈ s.deliveries[i]?, delivery.hasResult env = true))
  | .dispatcher (.record i now) =>
      inferInstanceAs (Decidable (∀ delivery ∈ s.deliveries[i]?,
        delivery.isStored s.web.db now = true))
  | .web _ | .enqueueBuild _ | .deliverBuild | .builderDies | .schedulerDies
  | .scheduler (.commitReady _) | .scheduler (.publishReady _) | .scheduler (.builderFails _)
  | .scheduler .deliver | .scheduler (.readReady _ _) | .scheduler (.publishNext _ _)
  | .scheduler (.finish _) | .dispatcher (.publish _) | .dispatcher .deliver
  | .dispatcher (.fetch _) | .dispatcher (.announce _) | .dispatcher (.ack _)
  | .dispatcher .die => .isTrue trivial

def barUpload : Upload := ⟨asciiBytes "\"\"\"name: Bar\"\"\"", none⟩

def barReady : BotRow :=
  { (newBot ⟨barUpload.sourceBytes, str "Bar", str "python-3.14", .obj []⟩
      (plainToken 0x62 rfl).text 1).row 2 1 with
    podReady := true, podName := some (podName 2) }

/-- Two uploads. Each of the services dies once: the web service with a
submission that has only arrived, the others with the message of the first bot. -/
theorem round_robin_complete_deaths :
    ∃ s, Via platformStep NothingDropped (Platform.empty literalModules) s ∧
      s.web.db.bots = [fooReady, barReady] ∧
      (∀ bot ∈ s.web.db.bots, bot.podReady) ∧
      ∀ botX ∈ s.web.db.bots, ∀ botO ∈ s.web.db.bots,
        ∃ row ∈ s.web.db.matchRows, row.botXId = botX.id ∧ row.botOId = botO.id := by
  have hfirst : Via platformStep NothingDropped (Platform.empty literalModules) _ :=
    via_of_execVia [.web (.arrive namedUpload), .web (.selectOwner 0 [] (plainToken 0x61 rfl)),
      .web (.selectVersion 0), .web (.insert 0 0), .enqueueBuild 0, .web (.arrive barUpload),
      .webDies, .deliverBuild, .builderDies, .deliverBuild, .build 0, .build 0, .build 0, .build 0,
      .build 0, .build 0, .scheduler .deliver, .scheduler (.readReady 0 [fooReady]),
      .schedulerDies, .scheduler .deliver, .scheduler (.readReady 0 [fooReady]),
      .scheduler (.publishNext 0 (str "c1")), .scheduler (.finish 0), .dispatcher .deliver,
      .dispatcher (.fetch 0), .dispatcher .die, .dispatcher .deliver, .dispatcher (.fetch 0),
      .dispatcher (.play 0 silentPods), .dispatcher (.record 0 5), .dispatcher (.announce 0),
      .dispatcher (.ack 0)] rfl
  have hrun : Via platformStep NothingDropped (Platform.empty literalModules) _ :=
    hfirst.trans <| via_of_execVia [.web (.arrive barUpload),
      .web (.selectOwner 0 [fooReady] (plainToken 0x62 rfl)), .web (.selectVersion 0),
      .web (.insert 0 1), .enqueueBuild 0, .deliverBuild, .build 0, .build 0, .build 0, .build 0,
      .build 0, .build 0, .scheduler .deliver, .scheduler (.readReady 0 [fooReady, barReady]),
      .scheduler (.publishNext 0 (str "c2")), .scheduler (.publishNext 0 (str "c3")),
      .scheduler (.publishNext 0 (str "c4")), .scheduler (.finish 0), .dispatcher .deliver,
      .dispatcher (.fetch 0), .dispatcher (.play 0 silentPods), .dispatcher (.record 0 6),
      .dispatcher (.announce 0), .dispatcher (.ack 0), .dispatcher .deliver,
      .dispatcher (.fetch 0), .dispatcher (.play 0 silentPods), .dispatcher (.record 0 7),
      .dispatcher (.announce 0), .dispatcher (.ack 0), .dispatcher .deliver,
      .dispatcher (.fetch 0), .dispatcher (.play 0 silentPods), .dispatcher (.record 0 8),
      .dispatcher (.announce 0), .dispatcher (.ack 0)] rfl
  exact ⟨_, hrun, rfl, round_robin_complete hrun ⟨rfl, rfl, rfl, rfl, rfl, rfl, rfl⟩⟩

end TictactoeBots
