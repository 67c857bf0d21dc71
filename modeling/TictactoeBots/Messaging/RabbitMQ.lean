import TictactoeBots.Lib.StepSystem

/-!
The lazily connected queue of the web service.

`_ensure_connected` has four awaits. It assigns the connection after the first
of them and its other two fields after the second and the fourth, while its
guard asks for the connection only. A step is what a call does between two
awaits, so other calls may run in between. Nothing is awaited between the
return of `_ensure_connected` and the use of the channel or the exchange, so
the fields at the return are the ones that are used.
-/

namespace TictactoeBots

open StepSystem

/-- A channel, opened on the connection with the given number. -/
structure Channel where
  connection : ℕ
  deriving DecidableEq

/-- The events exchange, declared on a channel. -/
structure Exchange where
  channel : Channel
  deriving DecidableEq

/-- The fields of the queue object; `none` is Python's `None`. -/
structure RabbitMQQueue where
  connection : Option ℕ
  channel : Option Channel
  eventsExchange : Option Exchange
  deriving DecidableEq

inductive QueueCall where
  | enqueueBuildPod
  | publishEvent
  deriving DecidableEq

/-- Which await a call is at. -/
inductive ConnectStage where
  | connecting
  | openingChannel (connection : ℕ)
  | declaringQueue
  | declaringExchange (channel : Channel)

structure ConnectingCall where
  method : QueueCall
  stage : ConnectStage

/-- What a call finds when `_ensure_connected` has returned. -/
structure Returned where
  method : QueueCall
  queue : RabbitMQQueue
  isOpen : Bool
  deriving DecidableEq

structure QueueSystem where
  queue : RabbitMQQueue
  /-- How many connections have been opened, the numbers of which are `1, 2, …`. -/
  opened : ℕ
  closed : List ℕ
  calls : List ConnectingCall
  returned : List Returned

def QueueSystem.fresh : QueueSystem := ⟨⟨none, none, none⟩, 0, [], [], []⟩

def QueueSystem.isOpen (s : QueueSystem) : Bool :=
  match s.queue.connection with
  | some connection => connection ∉ s.closed
  | none => false

inductive QueueAction where
  /-- A method is called and runs up to the first await. -/
  | call (method : QueueCall)
  | connects (call : ℕ)
  | opensChannel (call : ℕ)
  | declaresQueue (call : ℕ)
  | declaresExchange (call : ℕ)
  | raises (call : ℕ)
  | close

def queueStep (s : QueueSystem) : QueueAction → Option QueueSystem
  | .call method =>
      if s.isOpen then some { s with returned := s.returned ++ [⟨method, s.queue, true⟩] }
      else some { s with calls := ⟨method, .connecting⟩ :: s.calls }
  | .connects i =>
      match s.calls[i]? with
      | some ⟨method, .connecting⟩ =>
          let connection := s.opened + 1
          some { s with
            queue := { s.queue with connection := some connection }
            opened := connection
            calls := ⟨method, .openingChannel connection⟩ :: s.calls.eraseIdx i }
      | _ => none
  | .opensChannel i =>
      match s.calls[i]? with
      | some ⟨method, .openingChannel connection⟩ =>
          some { s with
            queue := { s.queue with channel := some ⟨connection⟩ }
            calls := ⟨method, .declaringQueue⟩ :: s.calls.eraseIdx i }
      | _ => none
  | .declaresQueue i =>
      match s.calls[i]? with
      | some ⟨method, .declaringQueue⟩ =>
          -- the channel is read from the object again, where another call may have put its own
          match s.queue.channel with
          | some channel =>
              some { s with calls := ⟨method, .declaringExchange channel⟩ :: s.calls.eraseIdx i }
          | none => some { s with calls := s.calls.eraseIdx i }
      | _ => none
  | .declaresExchange i =>
      match s.calls[i]? with
      | some ⟨method, .declaringExchange channel⟩ =>
          let queue := { s.queue with eventsExchange := some ⟨channel⟩ }
          some { s with
            queue := queue
            calls := s.calls.eraseIdx i
            returned := s.returned ++ [⟨method, queue, s.isOpen⟩] }
      | _ => none
  | .raises i =>
      match s.calls[i]? with
      | some _ => some { s with calls := s.calls.eraseIdx i }
      | none => none
  | .close =>
      match s.queue.connection with
      | some connection =>
          if connection ∈ s.closed then none
          else some { s with closed := connection :: s.closed }
      | none => none

/-! ### Half-built objects -/

/-- Channel and exchange are there and belong to the connection. -/
def RabbitMQQueue.Complete (queue : RabbitMQQueue) : Prop :=
  ∃ connection, queue.connection = some connection ∧ queue.channel = some ⟨connection⟩ ∧
    queue.eventsExchange = some ⟨⟨connection⟩⟩

/-- The publish that follows uses a field that is `None`. -/
def Returned.DereferencesNone (ret : Returned) : Prop :=
  match ret.method with
  | .enqueueBuildPod => ret.queue.channel = none
  | .publishEvent => ret.queue.eventsExchange = none

/-- The call has its connection and is still to declare the exchange. -/
def ConnectStage.Building : ConnectStage → Prop
  | .connecting => False
  | .openingChannel _ | .declaringQueue | .declaringExchange _ => True

structure NeverHalfBuilt (s : QueueSystem) : Prop where
  complete : ∀ ret ∈ s.returned, ret.isOpen ∧ ret.queue.Complete
  noNone : ∀ ret ∈ s.returned, ¬ret.DereferencesNone
  /-- With no call building, the next one finds a complete object or connects anew. -/
  recovers : (∀ call ∈ s.calls, ¬call.stage.Building) → s.isOpen → s.queue.Complete

/-- While a call is building, no other call starts or gets its connection, what
the call awaits does not raise, and the connection is not closed. -/
def Undisturbed (s : QueueSystem) : QueueAction → Prop
  | .call _ | .connects _ | .close => ∀ call ∈ s.calls, ¬call.stage.Building
  | .raises i => ∀ call ∈ s.calls[i]?, ¬call.stage.Building
  | .opensChannel _ | .declaresQueue _ | .declaresExchange _ => True

/-! ### The invariant -/

/-- How much a building call has made, on the connection of the object. -/
def QueueSystem.Built (s : QueueSystem) : ConnectStage → Prop
  | .connecting => True
  | .openingChannel connection =>
      s.queue.connection = some connection ∧ connection ∉ s.closed
  | .declaringQueue =>
      ∃ connection, s.queue.connection = some connection ∧ connection ∉ s.closed ∧
        s.queue.channel = some ⟨connection⟩
  | .declaringExchange channel =>
      s.queue.connection = some channel.connection ∧ channel.connection ∉ s.closed ∧
        s.queue.channel = some channel

structure QueueSound (s : QueueSystem) : Prop where
  complete : ∀ ret ∈ s.returned, ret.isOpen ∧ ret.queue.Complete
  connection_le : ∀ connection, s.queue.connection = some connection → connection ≤ s.opened
  closed_le : ∀ connection ∈ s.closed, connection ≤ s.opened
  alone : s.calls.Pairwise fun call other => ¬(call.stage.Building ∧ other.stage.Building)
  built : ∀ call ∈ s.calls, s.Built call.stage
  settled : (∀ call ∈ s.calls, ¬call.stage.Building) → s.isOpen → s.queue.Complete

theorem ConnectStage.eq_connecting {stage : ConnectStage} (h : ¬stage.Building) :
    stage = .connecting := by
  cases stage with
  | connecting => rfl
  | openingChannel _ | declaringQueue | declaringExchange _ => exact absurd trivial h

theorem Built.of_not_building (s : QueueSystem) {stage : ConnectStage} (h : ¬stage.Building) :
    s.Built stage := by
  rw [stage.eq_connecting h]
  trivial

theorem QueueSound.others {s : QueueSystem} (h : QueueSound s) {i : ℕ} {call : ConnectingCall}
    (hget : s.calls[i]? = some call) (hbuilding : call.stage.Building) :
    ∀ other ∈ s.calls.eraseIdx i, ¬other.stage.Building := by
  have hpairwise := ((perm_cons_eraseIdx_of_getElem? hget).pairwise_iff
    fun hne ⟨hother, hcall⟩ => hne ⟨hcall, hother⟩).1 h.alone
  intro other hother hotherBuilding
  exact (List.pairwise_cons.1 hpairwise).1 other hother ⟨hbuilding, hotherBuilding⟩

theorem pairwise_of_none_building {calls : List ConnectingCall}
    (h : ∀ call ∈ calls, ¬call.stage.Building) :
    calls.Pairwise fun call other => ¬(call.stage.Building ∧ other.stage.Building) :=
  List.pairwise_of_forall_mem_list fun call hcall _ _ hboth => h call hcall hboth.1

theorem QueueSound.complete_append {s : QueueSystem} (h : QueueSound s) {ret : Returned}
    (hopen : ret.isOpen) (hcomplete : ret.queue.Complete) :
    ∀ r ∈ s.returned ++ [ret], r.isOpen ∧ r.queue.Complete := by
  intro r hr
  obtain hr | hr := List.mem_append.1 hr
  · exact h.complete r hr
  · rw [List.mem_singleton.1 hr]
    exact ⟨hopen, hcomplete⟩

theorem QueueSound.resume {s : QueueSystem} (h : QueueSound s) {queue : RabbitMQQueue}
    {opened : ℕ} {method : QueueCall} {stage : ConnectStage} {others : List ConnectingCall}
    (hopened : s.opened ≤ opened) (hqueue : ∀ connection, queue.connection = some connection →
      connection ≤ opened)
    (hothers : ∀ other ∈ others, ¬other.stage.Building)
    (hbuilding : stage.Building)
    (hbuilt : QueueSystem.Built { s with queue := queue, opened := opened } stage) :
    QueueSound { s with
      queue := queue, opened := opened, calls := ⟨method, stage⟩ :: others } where
  complete := h.complete
  connection_le := hqueue
  closed_le connection hmem := (h.closed_le connection hmem).trans hopened
  alone := List.pairwise_cons.2
    ⟨fun other hother hboth => hothers other hother hboth.2, pairwise_of_none_building hothers⟩
  built := List.forall_mem_cons.2 ⟨hbuilt, fun other hother =>
    Built.of_not_building _ (hothers other hother)⟩
  settled hnone := absurd hbuilding (hnone _ List.mem_cons_self)

theorem QueueSystem.isOpen_iff {s : QueueSystem} :
    s.isOpen ↔ ∃ connection, s.queue.connection = some connection ∧ connection ∉ s.closed := by
  unfold QueueSystem.isOpen
  cases s.queue.connection <;> simp

theorem QueueSound.step {s s' : QueueSystem} {action : QueueAction} (h : QueueSound s)
    (hundisturbed : Undisturbed s action) (hstep : queueStep s action = some s') :
    QueueSound s' := by
  cases action with
  | call method =>
      simp only [queueStep] at hstep
      split at hstep
      · rename_i hopen
        rw [← Option.some.inj hstep]
        exact ⟨h.complete_append rfl (h.settled hundisturbed hopen), h.connection_le, h.closed_le,
          h.alone, h.built, h.settled⟩
      · rename_i hopen
        rw [← Option.some.inj hstep]
        refine ⟨h.complete, h.connection_le, h.closed_le, ?_, ?_, ?_⟩
        · exact List.pairwise_cons.2 ⟨fun other _ hboth => hboth.1, h.alone⟩
        · exact List.forall_mem_cons.2 ⟨trivial, h.built⟩
        · exact fun _ hopened => absurd hopened hopen
  | connects i =>
      simp only [queueStep] at hstep
      split at hstep
      · rw [← Option.some.inj hstep]
        apply h.resume (Nat.le_succ _)
        · rintro _ ⟨⟩
          exact le_rfl
        · exact fun other hother => hundisturbed other (List.mem_of_mem_eraseIdx hother)
        · trivial
        · exact ⟨rfl, fun hclosed => absurd (h.closed_le _ hclosed) (Nat.not_succ_le_self _)⟩
      · exact absurd hstep (by simp)
  | opensChannel i =>
      simp only [queueStep] at hstep
      split at hstep
      · rename_i hget
        rw [← Option.some.inj hstep]
        obtain ⟨hconnection, hclosed⟩ := h.built _ (List.mem_of_getElem? hget)
        refine h.resume le_rfl ?_ (h.others hget trivial) trivial ⟨_, hconnection, hclosed, rfl⟩
        exact h.connection_le
      · exact absurd hstep (by simp)
  | declaresQueue i =>
      simp only [queueStep] at hstep
      split at hstep
      · rename_i hget
        obtain ⟨connection, hconnection, hclosed, hchannel⟩ := h.built _ (List.mem_of_getElem? hget)
        rw [hchannel] at hstep
        rw [← Option.some.inj hstep]
        exact h.resume le_rfl h.connection_le (h.others hget trivial) trivial
          ⟨hconnection, hclosed, hchannel⟩
      · exact absurd hstep (by simp)
  | declaresExchange i =>
      simp only [queueStep] at hstep
      split at hstep
      · rename_i method channel hget
        rw [← Option.some.inj hstep]
        obtain ⟨hconnection, hclosed, hchannel⟩ := h.built _ (List.mem_of_getElem? hget)
        have hothers := h.others hget trivial
        have hcomplete : RabbitMQQueue.Complete
            { s.queue with eventsExchange := some ⟨channel⟩ } :=
          ⟨channel.connection, hconnection, hchannel, rfl⟩
        refine ⟨?_, h.connection_le, h.closed_le, pairwise_of_none_building hothers, ?_,
          fun _ _ => hcomplete⟩
        · exact h.complete_append (QueueSystem.isOpen_iff.2 ⟨_, hconnection, hclosed⟩) hcomplete
        · exact fun call hcall => Built.of_not_building _ (hothers call hcall)
      · exact absurd hstep (by simp)
  | raises i =>
      simp only [queueStep] at hstep
      split at hstep
      · rename_i call hget
        rw [← Option.some.inj hstep]
        have hperm := perm_cons_eraseIdx_of_getElem? hget
        refine ⟨h.complete, h.connection_le, h.closed_le, ?_, ?_, ?_⟩
        · exact h.alone.sublist (List.eraseIdx_sublist _ _)
        · exact fun call hcall => h.built call (List.mem_of_mem_eraseIdx hcall)
        -- the call that is gone was not building either
        · intro hnone
          apply h.settled
          intro other hother
          obtain rfl | hother := List.mem_cons.1 (hperm.mem_iff.1 hother)
          · exact hundisturbed other hget
          · exact hnone other hother
      · exact absurd hstep (by simp)
  | close =>
      simp only [queueStep] at hstep
      split at hstep
      · rename_i connection hconnection
        simp only [Option.ite_none_left_eq_some, Option.some.injEq] at hstep
        obtain ⟨-, rfl⟩ := hstep
        refine ⟨h.complete, h.connection_le, ?_, h.alone, ?_, ?_⟩
        · exact List.forall_mem_cons.2 ⟨h.connection_le _ hconnection, h.closed_le⟩
        · exact fun call hcall => Built.of_not_building _ (hundisturbed call hcall)
        · intro _ hopen
          obtain ⟨other, hother, hnot⟩ := QueueSystem.isOpen_iff.1 hopen
          obtain rfl := Option.some.inj (hconnection.symm.trans hother)
          exact absurd List.mem_cons_self hnot
      · exact absurd hstep (by simp)

theorem RabbitMQQueue.Complete.not_dereferencesNone {ret : Returned} (h : ret.queue.Complete) :
    ¬ret.DereferencesNone := by
  obtain ⟨connection, -, hchannel, hexchange⟩ := h
  unfold Returned.DereferencesNone
  split
  · rw [hchannel]
    exact Option.some_ne_none _
  · rw [hexchange]
    exact Option.some_ne_none _

/-- As long as nothing comes between a call that has its connection and its
exchange, `_ensure_connected` returns with everything built, and with no call
at work the object is complete or will be connected anew. -/
theorem never_halfBuilt {s : QueueSystem} (h : Via queueStep Undisturbed QueueSystem.fresh s) :
    NeverHalfBuilt s := by
  have hfresh : QueueSound QueueSystem.fresh := by
    refine ⟨List.forall_mem_nil _, ?_, List.forall_mem_nil _, List.Pairwise.nil,
      List.forall_mem_nil _, ?_⟩
    · rintro _ ⟨⟩
    · rintro _ ⟨⟩
  have hsound : QueueSound s :=
    h.invariant hfresh fun s action s' hs hundisturbed hstep => hs.step hundisturbed hstep
  exact ⟨hsound.complete, fun ret hret => (hsound.complete ret hret).2.not_dereferencesNone,
    hsound.settled⟩

instance : ∀ stage : ConnectStage, Decidable stage.Building
  | .connecting => .isFalse id
  | .openingChannel _ | .declaringQueue | .declaringExchange _ => .isTrue trivial

instance (s : QueueSystem) : ∀ action, Decidable (Undisturbed s action)
  | .call _ | .connects _ | .close =>
      inferInstanceAs (Decidable (∀ call ∈ s.calls, ¬call.stage.Building))
  | .raises i => inferInstanceAs (Decidable (∀ call ∈ s.calls[i]?, ¬call.stage.Building))
  | .opensChannel _ | .declaresQueue _ | .declaresExchange _ => .isTrue trivial

/-- A first connect that fails, a call that builds everything, one that finds it
built, and one that connects anew after a close. -/
theorem never_halfBuilt_reconnect :
    ∃ s, Via queueStep Undisturbed QueueSystem.fresh s ∧ s.returned.length = 3 ∧
      NeverHalfBuilt s := by
  have hrun : Via queueStep Undisturbed QueueSystem.fresh _ :=
    via_of_execVia [.call .publishEvent, .raises 0, .call .enqueueBuildPod, .connects 0,
      .opensChannel 0, .declaresQueue 0, .declaresExchange 0, .call .publishEvent, .close,
      .call .publishEvent, .connects 0, .opensChannel 0, .declaresQueue 0, .declaresExchange 0] rfl
  exact ⟨_, hrun, rfl, never_halfBuilt hrun⟩

/-- A second call starts while the first one opens its channel: it finds the
connection open and the channel `None`. -/
theorem halfBuilt_seen :
    ∃ s, Reachable queueStep QueueSystem.fresh s ∧ ¬NeverHalfBuilt s := by
  have hrun : Reachable queueStep QueueSystem.fresh _ :=
    reachable_of_exec [.call .publishEvent, .connects 0, .call .enqueueBuildPod] rfl
  exact ⟨_, hrun, fun h => h.noNone _ List.mem_cons_self rfl⟩

/-- From `s` on, nothing but calls has happened, and each of them used `None`. -/
structure StuckSince (s t : QueueSystem) : Prop where
  queue : t.queue = s.queue
  closed : t.closed = s.closed
  calls : t.calls = []
  later : ∃ later, t.returned = s.returned ++ later ∧ ∀ ret ∈ later, ret.DereferencesNone

/-- What a call leaves that raises between its connection and its channel: as
long as the connection is not closed, every later call uses `None`. -/
theorem queue_stuck {s s' : QueueSystem} (hopen : s.isOpen) (hcalls : s.calls = [])
    (hchannel : s.queue.channel = none) (hexchange : s.queue.eventsExchange = none)
    (h : Via queueStep (fun _ action => action ≠ .close) s s') : StuckSince s s' := by
  have hstart : StuckSince s s :=
    ⟨rfl, rfl, hcalls, [], (List.append_nil _).symm, List.forall_mem_nil _⟩
  apply h.invariant hstart
  intro t action t' ht hclose hstep
  obtain ⟨later, hreturned, hlater⟩ := ht.later
  cases action with
  | call method =>
      have hstill : t.isOpen := by
        rw [QueueSystem.isOpen_iff, ht.queue, ht.closed]
        exact QueueSystem.isOpen_iff.1 hopen
      simp only [queueStep, hstill, if_true, Option.some.injEq] at hstep
      subst hstep
      refine ⟨ht.queue, ht.closed, ht.calls, later ++ [⟨method, t.queue, true⟩], ?_, ?_⟩
      · rw [hreturned, List.append_assoc]
      · intro ret hret
        obtain hret | hret := List.mem_append.1 hret
        · exact hlater ret hret
        · rw [List.mem_singleton.1 hret]
          cases method with
          | enqueueBuildPod => exact (congrArg RabbitMQQueue.channel ht.queue).trans hchannel
          | publishEvent =>
              exact (congrArg RabbitMQQueue.eventsExchange ht.queue).trans hexchange
  | close => exact absurd rfl hclose
  | connects i | opensChannel i | declaresQueue i | declaresExchange i | raises i =>
      simp [queueStep, ht.calls] at hstep

end TictactoeBots
