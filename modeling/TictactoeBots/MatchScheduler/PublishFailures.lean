import TictactoeBots.Lib.Python
import TictactoeBots.MatchScheduler.Pairings

/-!
A scheduler handler whose publishing breaks off.

The handler publishes its pairings one by one inside `message.process()`. That
block acknowledges the message when it is left normally; on an exception it
rejects it, and puts it back into the queue only if it was told to. An
exception of a publish may be raised before or after the broker has taken the
message.
-/

namespace TictactoeBots

open Text Python StepSystem

inductive Settlement where
  | acked
  | rejected
  | requeued
  deriving DecidableEq

/-- The end of `async with message.process(requeue=requeue)`. -/
def processExit {α : Type} (requeue : Bool) : Except PyException α → Settlement
  | .ok _ => .acked
  | .error _ => if requeue then .requeued else .rejected

inductive PublishResult where
  | published
  | raised (exc : PyException) (taken : Bool)

/-- The messages of `_enqueue_matches` in order, with the correlation ids drawn
for them. -/
def ondeckMessages (draw : ℕ → Str) (botId : ℕ) (ready : List BotRow) : List MatchOndeck :=
  (pairings botId ready).zipIdx.map fun (pair, i) => ⟨pair.1, pair.2, draw i⟩

/-- The loop over the messages that are left, the next of them being the one
with number `n`: what the broker has got of them, and `count` or the exception. -/
def publishAll (publish : ℕ → PublishResult) (n : ℕ) :
    List MatchOndeck → List MatchOndeck × Except PyException ℕ
  | [] => ([], .ok n)
  | msg :: rest =>
      match publish n with
      | .published =>
          let (sent, result) := publishAll publish (n + 1) rest
          (msg :: sent, result)
      | .raised exc taken => (if taken then [msg] else [], .error exc)

def enqueueMatches (publish : ℕ → PublishResult) (draw : ℕ → Str) (botId : ℕ)
    (ready : List BotRow) : List MatchOndeck × Except PyException ℕ :=
  publishAll publish 0 (ondeckMessages draw botId ready)

/-- What has been published when the handler has ended, and what has become of
its message. `msg` is `none` when the body does not validate, and `ready` is
how the select of the ready bots ends. -/
def handlePodReadyMessage (msg : Option ℕ) (ready : Except PyException (List BotRow))
    (publish : ℕ → PublishResult) (draw : ℕ → Str) : List MatchOndeck × Settlement :=
  match msg with
  | none => ([], .acked)
  | some botId =>
      match ready with
      | .error exc => ([], processExit (α := ℕ) false (.error exc))
      | .ok ready =>
          let (sent, result) := enqueueMatches publish draw botId ready
          (sent, processExit false result)

@[simp] theorem map_pairing_ondeckMessages (draw : ℕ → Str) (botId : ℕ) (ready : List BotRow) :
    (ondeckMessages draw botId ready).map MatchOndeck.pairing = pairings botId ready := by
  simp [ondeckMessages, MatchOndeck.pairing, Function.comp_def]

@[simp] theorem length_ondeckMessages (draw : ℕ → Str) (botId : ℕ) (ready : List BotRow) :
    (ondeckMessages draw botId ready).length = (pairings botId ready).length := by
  simp [ondeckMessages]

theorem publishAll_raises {publish : ℕ → PublishResult} {n k : ℕ} {exc : PyException}
    {taken : Bool} {msgs : List MatchOndeck} (hk : k < msgs.length)
    (hbefore : ∀ i < k, publish (n + i) = .published)
    (hraises : publish (n + k) = .raised exc taken) :
    publishAll publish n msgs = (msgs.take (if taken then k + 1 else k), .error exc) := by
  induction msgs generalizing n k with
  | nil => exact absurd hk (Nat.not_lt_zero _)
  | cons msg rest ih =>
      cases k with
      | zero =>
          rw [Nat.add_zero] at hraises
          rw [publishAll, hraises]
          cases taken <;> rfl
      | succ k =>
          have hfirst := hbefore 0 (Nat.succ_pos _)
          rw [Nat.add_zero] at hfirst
          have hrest := ih (n := n + 1) (Nat.lt_of_succ_lt_succ hk)
            (fun i hi => by rw [Nat.add_assoc, Nat.add_comm 1]; exact hbefore _ (by omega))
            (by rw [Nat.add_assoc, Nat.add_comm 1]; exact hraises)
          rw [publishAll, hfirst, hrest]
          cases taken <;> rfl

theorem forall_mem_take_iff {α : Type*} {l : List α} (h : l.Nodup) (m : ℕ) :
    (∀ a ∈ l, a ∈ l.take m) ↔ l.length ≤ m := by
  constructor
  · intro hall
    rw [← List.drop_eq_nil_iff, List.eq_nil_iff_forall_not_mem]
    intro a ha
    exact List.disjoint_take_drop h le_rfl (hall a (List.mem_of_mem_drop ha)) ha
  · intro hm a ha
    rwa [List.take_of_length_le hm]

/-- The `k`-th publish of a handler raises. Then all pairings of the bot are
published or the message is queued again exactly when that publish was the last
one and the broker had taken its message all the same. -/
theorem pairings_kept_iff {botId k : ℕ} {ready : List BotRow} {publish : ℕ → PublishResult}
    {exc : PyException} {taken : Bool} (draw : ℕ → Str)
    (hready : (ready.map BotRow.id).Nodup) (hk : k < (pairings botId ready).length)
    (hbefore : ∀ i < k, publish i = .published) (hraises : publish k = .raised exc taken) :
    ((∀ pair ∈ pairings botId ready, pair ∈
        (handlePodReadyMessage (some botId) (.ok ready) publish draw).1.map MatchOndeck.pairing) ∨
      (handlePodReadyMessage (some botId) (.ok ready) publish draw).2 = .requeued) ↔
    taken = true ∧ k + 1 = (pairings botId ready).length := by
  have hrun : enqueueMatches publish draw botId ready =
      ((ondeckMessages draw botId ready).take (if taken then k + 1 else k), .error exc) := by
    apply publishAll_raises
    · rwa [length_ondeckMessages]
    · simpa using hbefore
    · simpa using hraises
  have hhandler : handlePodReadyMessage (some botId) (.ok ready) publish draw =
      ((ondeckMessages draw botId ready).take (if taken then k + 1 else k), .rejected) := by
    simp [handlePodReadyMessage, hrun, processExit]
  rw [hhandler]
  simp only [List.map_take, map_pairing_ondeckMessages, forall_mem_take_iff (pairings_nodup hready),
    reduceCtorEq, or_false]
  cases taken with
  | true =>
      simp only [if_true, true_and]
      omega
  | false =>
      simp only [Bool.false_eq_true, if_false, false_and, iff_false]
      omega

def raisesAt (k : ℕ) (i : ℕ) : PublishResult :=
  if i = k then .raised ⟨.timeoutError, []⟩ true else .published

def threeReady : List BotRow := [plainBotReady 1, plainBotReady 2, plainBotReady 3]

/-- The last of five publishes raises, and nothing is lost. -/
theorem pairings_kept_iff_last :
    ((∀ pair ∈ pairings 2 threeReady, pair ∈ (handlePodReadyMessage (some 2) (.ok threeReady)
        (raisesAt 4) decimal).1.map MatchOndeck.pairing) ∨
      (handlePodReadyMessage (some 2) (.ok threeReady) (raisesAt 4) decimal).2 = .requeued) ↔
    true = true ∧ 4 + 1 = (pairings 2 threeReady).length :=
  pairings_kept_iff decimal (by decide) (by decide) (fun _ hi => if_neg (by omega)) rfl

/-- The first of three publishes raises: no pairing of the bot is published,
and its message is gone. -/
theorem pairings_lost :
    (handlePodReadyMessage (some 2) (.ok [plainBotReady 1, plainBotReady 2])
        (fun _ => .raised ⟨.timeoutError, []⟩ false) fun _ => str "c1") = ([], .rejected) ∧
      (2, 2) ∈ pairings 2 [plainBotReady 1, plainBotReady 2] :=
  ⟨rfl, by decide⟩

/-! ### The handler among the others -/

theorem publishAll_prefix (publish : ℕ → PublishResult) (n : ℕ) (msgs : List MatchOndeck) :
    (∃ unsent, msgs = (publishAll publish n msgs).1 ++ unsent) ∧
      ∀ count, (publishAll publish n msgs).2 = .ok count →
        (publishAll publish n msgs).1 = msgs := by
  induction msgs generalizing n with
  | nil => exact ⟨⟨[], rfl⟩, fun _ _ => rfl⟩
  | cons msg rest ih =>
      rw [publishAll]
      cases publish n with
      | published =>
          obtain ⟨⟨unsent, hsplit⟩, hall⟩ := ih (n + 1)
          refine ⟨⟨unsent, ?_⟩, fun count hcount => ?_⟩
          · rw [List.cons_append, ← hsplit]
          · exact congrArg _ (hall count hcount)
      | raised exc taken =>
          refine ⟨?_, fun count hcount => by cases hcount⟩
          cases taken with
          | true => exact ⟨rest, rfl⟩
          | false => exact ⟨msg :: rest, rfl⟩

theorem exec_publishes {s : Pipeline} {botId : ℕ} {others : List Handler} {unsent : List (ℕ × ℕ)}
    (msgs : List MatchOndeck)
    (h : s.handlers = ⟨botId, .publishing (msgs.map MatchOndeck.pairing ++ unsent)⟩ :: others) :
    exec pipelineStep s (msgs.map fun msg => .publishNext 0 msg.correlationId) =
      some { s with
        handlers := ⟨botId, .publishing unsent⟩ :: others, ondeck := s.ondeck ++ msgs } := by
  induction msgs generalizing s with
  | nil =>
      rw [List.map_nil, List.nil_append] at h
      simp [← h]
  | cons msg rest ih =>
      have hstep : pipelineStep s (.publishNext 0 msg.correlationId) = some { s with
          handlers := ⟨botId, .publishing (rest.map MatchOndeck.pairing ++ unsent)⟩ :: others
          ondeck := s.ondeck ++ [msg] } := by
        simp [pipelineStep, h, MatchOndeck.pairing]
      rw [List.map_cons, exec_cons, hstep, Option.bind_some, ih rfl]
      simp

def handlerActions (ready : List BotRow) (sent : List MatchOndeck) : List PipelineAction :=
  .readReady 0 ready :: sent.map fun msg => .publishNext 0 msg.correlationId

theorem exec_handlerActions {s : Pipeline} {botId : ℕ} {others : List Handler} {ready : List BotRow}
    {unsent : List (ℕ × ℕ)} (sent : List MatchOndeck)
    (h : s.handlers = ⟨botId, .received⟩ :: others) (hready : ready.Perm (readyBots s.bots))
    (hsent : pairings botId ready = sent.map MatchOndeck.pairing ++ unsent) :
    exec pipelineStep s (handlerActions ready sent) = some { s with
      handlers := ⟨botId, .publishing unsent⟩ :: others, ondeck := s.ondeck ++ sent } := by
  have hread : pipelineStep s (.readReady 0 ready) = some { s with
      handlers := ⟨botId, .publishing (pairings botId ready)⟩ :: others } := by
    simp [pipelineStep, h, hready]
  rw [handlerActions, exec_cons, hread, Option.bind_some, exec_publishes sent (by rw [← hsent])]

theorem handlePodReadyMessage_run {s : Pipeline} {botId : ℕ} {others : List Handler}
    {ready : List BotRow} (publish : ℕ → PublishResult) (draw : ℕ → Str)
    (h : s.handlers = ⟨botId, .received⟩ :: others) (hready : ready.Perm (readyBots s.bots)) :
    ∃ actions s', exec pipelineStep s actions = some s' ∧ s'.handlers = others ∧
      s'.ondeck = s.ondeck ++ (handlePodReadyMessage (some botId) (.ok ready) publish draw).1 ∧
      ((handlePodReadyMessage (some botId) (.ok ready) publish draw).2 = .acked ∧
          s'.handled = botId :: s.handled ∨
        (handlePodReadyMessage (some botId) (.ok ready) publish draw).2 = .rejected ∧
          s'.failed = botId :: s.failed) := by
  obtain ⟨⟨unsent, hsplit⟩, hall⟩ := publishAll_prefix publish 0 (ondeckMessages draw botId ready)
  have hhandler : handlePodReadyMessage (some botId) (.ok ready) publish draw =
      ((publishAll publish 0 (ondeckMessages draw botId ready)).1,
        processExit false (publishAll publish 0 (ondeckMessages draw botId ready)).2) := rfl
  rw [hhandler]
  generalize publishAll publish 0 (ondeckMessages draw botId ready) = run at hsplit hall ⊢
  obtain ⟨sent, result⟩ := run
  have hsent := congrArg (List.map MatchOndeck.pairing) hsplit
  rw [map_pairing_ondeckMessages, List.map_append] at hsent
  have hexec := exec_handlerActions sent h hready hsent
  cases result with
  | ok count =>
      -- nothing is left to publish, so the handler finishes
      have hunsent : unsent = [] := by
        rw [hall count rfl] at hsplit
        exact List.self_eq_append_right.1 hsplit
      subst hunsent
      refine ⟨handlerActions ready sent ++ [.finish 0], { s with
        handlers := others, handled := botId :: s.handled, ondeck := s.ondeck ++ sent }, ?_,
        rfl, rfl, .inl ⟨rfl, rfl⟩⟩
      rw [exec_append, hexec]
      rfl
  | error exc =>
      refine ⟨handlerActions ready sent ++ [.raises 0], { s with
        handlers := others, failed := botId :: s.failed, ondeck := s.ondeck ++ sent }, ?_,
        rfl, rfl, .inr ⟨rfl, rfl⟩⟩
      rw [exec_append, hexec]
      rfl

end TictactoeBots
