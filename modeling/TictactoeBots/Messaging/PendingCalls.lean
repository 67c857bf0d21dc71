import TictactoeBots.Messaging.RpcClient

/-!
The entries that calls leave behind in `_pending`.

A call registers its future before it publishes. The entry goes when a reply
arrives or the timer runs out; where the publish raises or the caller cancels
the call, nothing takes it out.
-/

namespace TictactoeBots

open Text Python StepSystem

/-- The call has not ended, and no reply has settled it. -/
def RpcCall.InProgress (call : RpcCall) : Prop := call.stage.ended = false ∧ call.arrived = []

/-- The dict has the ids of the calls in progress, and none of a call that has
ended. -/
structure NothingLeft (s : RpcSystem) : Prop where
  exact : ∀ cid, (s.pending cid).isSome ↔
    ∃ call ∈ s.calls, call.correlationId = cid ∧ call.InProgress
  ended : ∀ call ∈ s.calls, call.stage.ended → s.pending call.correlationId = none

/-- A call whose publish raises, or that its caller cancels, has had its reply. -/
def EndsSettled (s : RpcSystem) : RpcAction → Prop
  | .event i .publishRaises | .event i .raisesCancelled => ∀ call ∈ s.calls[i]?, call.arrived ≠ []
  | _ => True

instance (s : RpcSystem) : DecidablePred (EndsSettled s) := fun action => by
  unfold EndsSettled
  split <;> infer_instance

/-! ### One id -/

section OneId

variable {s s' : RpcSystem} {i : ℕ} {call call' : RpcCall} {event : CallEvent}

theorem RpcSound.inProgress_iff (h : RpcSound s) (hget : s.calls[i]? = some call) :
    (∃ other ∈ s.calls, other.correlationId = call.correlationId ∧ other.InProgress) ↔
      call.InProgress := by
  constructor
  · rintro ⟨other, hother, hid, hprogress⟩
    obtain ⟨j, hj⟩ := List.getElem?_of_mem hother
    obtain rfl := h.ids_inj j i other call hj hget hid
    obtain rfl : other = call := Option.some.inj (hj.symm.trans hget)
    exact hprogress
  · exact fun hprogress => ⟨call, List.mem_of_getElem? hget, rfl, hprogress⟩

theorem RpcSound.nothingLeft (h : RpcSound s)
    (hexact : ∀ cid, (s.pending cid).isSome ↔
      ∃ call ∈ s.calls, call.correlationId = cid ∧ call.InProgress) : NothingLeft s := by
  refine ⟨hexact, fun call hcall hended => ?_⟩
  obtain ⟨i, hget⟩ := List.getElem?_of_mem hcall
  rw [← Option.not_isSome_iff_eq_none, hexact, h.inProgress_iff hget]
  rintro ⟨hprogress, -⟩
  rw [hended] at hprogress
  cases hprogress

theorem inProgress_set_iff (hget : s.calls[i]? = some call)
    (hcalls : s'.calls = s.calls.set i call')
    (hid : call'.correlationId = call.correlationId) {cid : Str} (hne : call.correlationId ≠ cid) :
    (∃ other ∈ s'.calls, other.correlationId = cid ∧ other.InProgress) ↔
      ∃ other ∈ s.calls, other.correlationId = cid ∧ other.InProgress := by
  constructor
  · rintro ⟨other, hother, rfl, hprogress⟩
    obtain ⟨j, hj⟩ := List.getElem?_of_mem hother
    rw [hcalls] at hj
    rcases (getElem?_set_eq_some hget).1 hj with ⟨-, rfl⟩ | ⟨-, hj⟩
    · exact absurd hid.symm hne
    · exact ⟨other, List.mem_of_getElem? hj, rfl, hprogress⟩
  · rintro ⟨other, hother, rfl, hprogress⟩
    obtain ⟨j, hj⟩ := List.getElem?_of_mem hother
    have hij : i ≠ j := by
      rintro rfl
      exact hne (congrArg RpcCall.correlationId (Option.some.inj (hget.symm.trans hj)))
    refine ⟨other, ?_, rfl, hprogress⟩
    rw [hcalls]
    exact List.mem_of_getElem? ((getElem?_set_eq_some hget).2 (.inr ⟨hij, hj⟩))

/-- After an event the entries are right if its call, where it has ended other
than by its timer, had been answered. -/
theorem RpcSound.nothingLeft_event (h : RpcSound s) (h' : RpcSound s') (hleft : NothingLeft s)
    (hget : s.calls[i]? = some call) (hadvance : call.advance event = some call')
    (hcalls : s'.calls = s.calls.set i call')
    (hpending : ∀ key, s'.pending key =
      if event = .timesOut ∧ call.correlationId = key then none else s.pending key) :
    NothingLeft s' ↔ (event ≠ .timesOut → call'.stage.ended → call.arrived ≠ []) := by
  have hadv := advances_of_advance hadvance
  have hget' : s'.calls[i]? = some call' := by
    rw [hcalls]
    exact (getElem?_set_eq_some hget).2 (.inl ⟨rfl, rfl⟩)
  have hentry : (s.pending call.correlationId).isSome ↔ call.arrived = [] := by
    rw [hleft.exact, h.inProgress_iff hget, RpcCall.InProgress, and_iff_right hadv.inProgress]
  constructor
  · intro hleft' htimesOut hended hnone
    have hgone := hleft'.ended call' (List.mem_of_getElem? hget') hended
    rw [hpending, if_neg fun hboth => htimesOut hboth.1, hadv.correlationId] at hgone
    rw [hgone] at hentry
    exact absurd (hentry.2 hnone) (by simp)
  · intro hanswered
    apply h'.nothingLeft
    intro cid
    by_cases hcid : call.correlationId = cid
    · subst hcid
      rw [← hadv.correlationId, h'.inProgress_iff hget', hadv.correlationId, hpending,
        RpcCall.InProgress, hadv.arrived]
      by_cases htimesOut : event = .timesOut
      · have hended : call'.stage.ended := by
          subst htimesOut
          obtain ⟨-, rfl⟩ := Option.ite_some_none_eq_some.1 hadvance
          rfl
        simp [htimesOut, hended]
      · rw [if_neg fun hboth => htimesOut hboth.1, hentry]
        constructor
        · intro hnone
          refine ⟨?_, hnone⟩
          rw [← Bool.not_eq_true]
          exact fun hended => hanswered htimesOut hended hnone
        · exact And.right
    · rw [hpending, if_neg fun hboth => hcid hboth.2, hleft.exact,
        inProgress_set_iff hget hcalls hadv.correlationId hcid]

theorem RpcSound.endsSettled_iff (h : RpcSound s) (hget : s.calls[i]? = some call)
    (hadvance : call.advance event = some call') :
    EndsSettled s (.event i event) ↔
      (event ≠ .timesOut → call'.stage.ended → call.arrived ≠ []) := by
  have hadv := advances_of_advance hadvance
  cases event with
  | published =>
      obtain ⟨-, rfl⟩ := Option.ite_some_none_eq_some.1 hadvance
      simp [EndsSettled, CallStage.ended]
  | publishRaises =>
      obtain ⟨-, rfl⟩ := Option.ite_some_none_eq_some.1 hadvance
      simp [EndsSettled, hget, CallStage.ended]
  | deadline =>
      obtain ⟨-, rfl⟩ := Option.ite_some_none_eq_some.1 hadvance
      simp [EndsSettled, hadv.inProgress]
  | cancel =>
      obtain ⟨-, hsome⟩ := Option.ite_none_left_eq_some.1 hadvance
      obtain rfl := Option.some.inj hsome
      simp [EndsSettled, hadv.inProgress]
  | cancelsFuture =>
      obtain ⟨-, rfl⟩ := Option.ite_some_none_eq_some.1 hadvance
      simp [EndsSettled, hadv.inProgress]
  -- what is returned is a reply
  | returns =>
      refine iff_of_true trivial fun _ _ hnone => ?_
      simp only [RpcCall.advance] at hadvance
      split at hadvance
      · rename_i body _ hfuture
        have hfirst := (h.calls call (List.mem_of_getElem? hget)).answered body hfuture
          hadv.inProgress
        rw [hnone] at hfirst
        cases hfirst
      · cases hadvance
  | timesOut => simp [EndsSettled]
  | raisesCancelled =>
      obtain ⟨-, rfl⟩ := Option.ite_some_none_eq_some.1 hadvance
      simp [EndsSettled, hget, CallStage.ended]

end OneId

/-! ### Runs -/

section Runs

variable {s s' : RpcSystem}

theorem nothingLeft_fresh : NothingLeft .fresh := by
  constructor <;> simp [RpcSystem.fresh]

theorem NothingLeft.register (hleft : NothingLeft s) (h' : RpcSound s') {cid : Str}
    (hfresh : cid ∉ s.calls.map RpcCall.correlationId)
    (hcalls : s'.calls = s.calls ++ [.start cid])
    (hpending : s'.pending = Function.update s.pending cid (some s.calls.length)) :
    NothingLeft s' := by
  apply h'.nothingLeft
  intro key
  by_cases hkey : key = cid
  · subst hkey
    rw [hpending, Function.update_self]
    refine iff_of_true rfl ⟨.start key, ?_, rfl, rfl, rfl⟩
    rw [hcalls]
    exact List.mem_append_right _ (List.mem_singleton_self _)
  · rw [hpending, Function.update_of_ne hkey, hleft.exact, hcalls]
    constructor
    · rintro ⟨call, hcall, hid⟩
      exact ⟨call, List.mem_append_left _ hcall, hid⟩
    · rintro ⟨call, hcall, hid, hprogress⟩
      rcases List.mem_append.1 hcall with hcall | hcall
      · exact ⟨call, hcall, hid, hprogress⟩
      · rw [List.mem_singleton.1 hcall] at hid
        exact absurd hid.symm hkey

theorem NothingLeft.deliver (hleft : NothingLeft s) (h' : RpcSound s') {cid : Option Str}
    {body : List UInt8} (hcalls : s'.calls = s.calls.map fun call => call.reply cid body)
    (hpending : ∀ key, s'.pending key = if cid = some key then none else s.pending key) :
    NothingLeft s' := by
  apply h'.nothingLeft
  intro key
  rw [hpending, hcalls]
  simp only [List.mem_map, exists_exists_and_eq_and, RpcCall.reply_correlationId]
  by_cases hcid : cid = some key
  · rw [if_pos hcid]
    apply iff_of_false (by simp)
    rintro ⟨call, -, rfl, hended, hnone⟩
    subst hcid
    rw [RpcCall.reply_stage] at hended
    rw [call.reply_own, hended] at hnone
    simp at hnone
  · rw [if_neg hcid, hleft.exact]
    apply exists_congr
    intro call
    apply and_congr_right
    intro _
    apply and_congr_right
    intro hid
    rw [RpcCall.reply_of_ne (hid ▸ hcid)]

/-- Where nothing was left behind before a step, nothing is after it exactly if
the step meets the condition. -/
theorem NothingLeft.step_iff (hleft : NothingLeft s) (h : RpcSound s) {action : RpcAction}
    (hstep : rpcStep s action = some s') : NothingLeft s' ↔ EndsSettled s action := by
  have h' := h.step hstep
  cases h.moves hstep with
  | call cid hfresh hcalls hpending =>
      exact iff_of_true (hleft.register h' hfresh hcalls hpending) trivial
  | event i event call call' hget hadvance hcalls hpending =>
      rw [h.endsSettled_iff hget hadvance]
      exact h.nothingLeft_event h' hleft hget hadvance hcalls hpending
  | reply cid body hcalls hpending =>
      exact iff_of_true (hleft.deliver h' hcalls hpending) trivial

end Runs

/-- As long as no call ends unanswered by a failed publish or by a cancellation,
the dict holds the ids of the calls in progress; the first step that ends one so
leaves its entry behind. -/
theorem nothingLeft_of_endsSettled {s : RpcSystem} (h : Via rpcStep EndsSettled .fresh s) :
    NothingLeft s ∧ ∀ action s', rpcStep s action = some s' →
      (NothingLeft s' ↔ EndsSettled s action) := by
  have hboth : RpcSound s ∧ NothingLeft s := by
    refine h.invariant (I := fun s => RpcSound s ∧ NothingLeft s)
      ⟨rpcSound_fresh, nothingLeft_fresh⟩ ?_
    rintro s action s' ⟨hsound, hleft⟩ hsettled hstep
    exact ⟨hsound.step hstep, (hleft.step_iff hsound hstep).2 hsettled⟩
  exact ⟨hboth.2, fun action s' hstep => hboth.2.step_iff hboth.1 hstep⟩

def answeredAndTimedOut : List RpcAction :=
  [ .call (str "c1"), .call (str "c2"), .event 0 .published, .event 1 .published,
    .event 1 .deadline, .event 1 .cancelsFuture, .reply (some (str "c1")) [1], .event 0 .cancel,
    .event 1 .timesOut, .event 0 .raisesCancelled ]

theorem nothingLeft_of_endsSettled_answeredAndTimedOut :
    ∃ s, execVia rpcStep EndsSettled .fresh answeredAndTimedOut = some s ∧
      s.calls.map RpcCall.stage = [.cancelled, .timedOut] ∧ NothingLeft s :=
  ⟨_, rfl, rfl, (nothingLeft_of_endsSettled (via_of_execVia answeredAndTimedOut rfl)).1⟩

def cancelledCall : List RpcAction :=
  [ .call (str "c1"), .event 0 .published, .event 0 .cancel, .event 0 .cancelsFuture,
    .event 0 .raisesCancelled ]

def failedPublish : List RpcAction := [.call (str "c1"), .event 0 .publishRaises]

/-- After either, the call has ended and its entry is still there. -/
theorem entries_left_behind :
    (∃ s, exec rpcStep .fresh cancelledCall = some s ∧
      s.calls.map RpcCall.stage = [.cancelled] ∧ (s.pending (str "c1")).isSome ∧
      ¬NothingLeft s) ∧
    ∃ s, exec rpcStep .fresh failedPublish = some s ∧
      s.calls.map RpcCall.stage = [.failed] ∧ (s.pending (str "c1")).isSome ∧ ¬NothingLeft s := by
  refine ⟨⟨_, rfl, rfl, rfl, fun hleft => ?_⟩, ⟨_, rfl, rfl, rfl, fun hleft => ?_⟩⟩
  · have hnone := hleft.ended _ (List.mem_singleton_self _) rfl
    cases hnone
  · have hnone := hleft.ended _ (List.mem_singleton_self _) rfl
    cases hnone

end TictactoeBots
