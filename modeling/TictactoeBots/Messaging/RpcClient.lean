import TictactoeBots.Lib.Python
import TictactoeBots.Lib.StepSystem

/-!
Calls over the message broker: the futures of the calls that wait for a reply,
kept under their correlation ids in a dict that the calls share with the
callback for replies.

A step is what a coroutine or the callback does between two awaits. With ids
that are not given out twice, the dict delivers as if every call looked at every
reply and took the first one with its own id: a run of the system is a run of
each of its calls, on the events of that call alone.
-/

namespace TictactoeBots

open Text Python StepSystem

/-! ### Futures -/

inductive Future where
  | pending
  | result (body : List UInt8)
  | cancelled
  deriving DecidableEq

def Future.done (future : Future) : Bool := future != .pending

/-- `set_result`, which raises on a future that is done. -/
def Future.setResult (future : Future) (body : List UInt8) : Except PyException Future :=
  if future.done then .error ⟨.other (str "InvalidStateError"), str "invalid state"⟩
  else .ok (.result body)

/-- `cancel`, which leaves a future alone that is done. -/
def Future.cancel (future : Future) : Future := if future.done then future else .cancelled

def Future.resolve (future : Future) (body : List UInt8) : Future :=
  if future.done then future else .result body

/-! ### Calls -/

/-- How far a call is, or how it ended. -/
inductive CallStage where
  | publishing
  | waiting
  | returned (body : List UInt8)
  | timedOut
  | cancelled
  | failed
  deriving DecidableEq

def CallStage.ended : CallStage → Bool
  | .publishing | .waiting => false
  | .returned _ | .timedOut | .cancelled | .failed => true

/-- What has interrupted a call: the timer of `wait_for` or its caller. -/
inductive Interrupt where
  | deadline
  | cancel
  deriving DecidableEq

structure RpcCall where
  correlationId : Str
  future : Future
  stage : CallStage
  interrupt : Option Interrupt
  /-- The bodies of the replies with the id of the call that arrived while it was
  in progress, for reference only. -/
  arrived : List (List UInt8)

def RpcCall.start (cid : Str) : RpcCall := ⟨cid, .pending, .publishing, none, []⟩

/-- A step of the coroutine, or an interruption of it. -/
inductive CallEvent where
  | published
  | publishRaises
  | deadline
  | cancel
  /-- `wait_for` cancels the future, at the interruption or some time after it. -/
  | cancelsFuture
  | returns
  | timesOut
  | raisesCancelled
  deriving DecidableEq

/-- What the event does to the call itself. Whether a reply that has come in wins
over an interruption depends on the version of Python, so both are possible; a
cancellation by the caller wins over the timer. -/
def RpcCall.advance (call : RpcCall) : CallEvent → Option RpcCall
  | .published =>
      if call.stage = .publishing ∧ call.interrupt = none then
        some { call with stage := .waiting }
      else none
  | .publishRaises =>
      if call.stage = .publishing then some { call with stage := .failed } else none
  | .deadline =>
      if call.stage = .waiting then
        some { call with interrupt := some (call.interrupt.getD .deadline) }
      else none
  | .cancel =>
      if call.stage.ended then none else some { call with interrupt := some .cancel }
  | .cancelsFuture =>
      if call.stage = .waiting ∧ call.interrupt ≠ none then
        some { call with future := call.future.cancel }
      else none
  | .returns =>
      match call.stage, call.future with
      | .waiting, .result body => some { call with stage := .returned body }
      | _, _ => none
  | .timesOut =>
      if call.stage = .waiting ∧ call.interrupt = some .deadline ∧ call.future.done then
        some { call with stage := .timedOut }
      else none
  | .raisesCancelled =>
      if call.interrupt = some .cancel ∧
          (call.stage = .publishing ∨ (call.stage = .waiting ∧ call.future.done)) then
        some { call with stage := .cancelled }
      else none

/-- `_pending` maps a correlation id to a future, which is that of the call with
the number. -/
structure RpcSystem where
  pending : Str → Option ℕ
  calls : List RpcCall

def RpcSystem.fresh : RpcSystem := ⟨fun _ => none, []⟩

def RpcSystem.pop (s : RpcSystem) (cid : Str) : RpcSystem :=
  { s with pending := Function.update s.pending cid none }

def onReply (s : RpcSystem) (correlationId : Option Str) (body : List UInt8) :
    Except PyException RpcSystem :=
  match correlationId with
  | none => .ok s
  | some cid =>
    match s.pending cid with
    | none => .ok s
    | some i =>
      match s.calls[i]? with
      | none => .ok (s.pop cid)
      | some call => do
        let future ← (if call.future.done then .ok call.future else call.future.setResult body)
        return { s.pop cid with calls := s.calls.set i { call with future := future } }

inductive RpcAction where
  /-- `call` runs up to the publish. -/
  | call (cid : Str)
  | event (i : ℕ) (event : CallEvent)
  | reply (cid : Option Str) (body : List UInt8)

def RpcCall.record (call : RpcCall) (cid : Option Str) (body : List UInt8) : RpcCall :=
  if cid = some call.correlationId ∧ !call.stage.ended then
    { call with arrived := call.arrived ++ [body] }
  else call

def rpcStep (s : RpcSystem) : RpcAction → Option RpcSystem
  | .call cid =>
      -- `uuid4` gives out no id twice
      if cid ∈ s.calls.map RpcCall.correlationId then none
      else some
        { pending := Function.update s.pending cid (some s.calls.length)
          calls := s.calls ++ [.start cid] }
  | .event i event =>
      match s.calls[i]? with
      | none => none
      | some call =>
          match call.advance event with
          | none => none
          | some call' =>
              let s' := if event = .timesOut then s.pop call.correlationId else s
              some { s' with calls := s.calls.set i call' }
  | .reply cid body =>
      match onReply s cid body with
      | .error _ => none
      | .ok s' => some { s' with calls := s'.calls.map fun call => call.record cid body }

/-! ### One call -/

/-- The call when a reply arrives, whichever call it is for: the first reply
with its own id gives the future its result. -/
def RpcCall.reply (call : RpcCall) (cid : Option Str) (body : List UInt8) : RpcCall :=
  if cid = some call.correlationId then
    { call with future := call.future.resolve body }.record cid body
  else call

/-- An event of one call: its own, or a reply that has its id. -/
inductive OwnEvent where
  | event (event : CallEvent)
  | reply (body : List UInt8)

def ownStep (call : RpcCall) : OwnEvent → Option RpcCall
  | .event event => call.advance event
  | .reply body => some (call.reply (some call.correlationId) body)

/-- What holds of a call on its own: its result is the first reply. -/
structure RpcCall.Sound (call : RpcCall) : Prop where
  unanswered : call.future = .pending → call.arrived = []
  answered : ∀ body, call.future = .result body → call.stage.ended = false →
    call.arrived.head? = some body
  returned : ∀ body, call.stage = .returned body → call.arrived.head? = some body

@[simp] theorem Future.done_iff {future : Future} : future.done ↔ future ≠ .pending := by
  simp [Future.done]

theorem Future.resolve_done (future : Future) (body : List UInt8) :
    (future.resolve body).done := by
  cases future <;> rfl

theorem Future.resolve_of_done {future : Future} (h : future.done) (body : List UInt8) :
    future.resolve body = future := if_pos h

/-- Everything an event does to its call. -/
structure Advances (call call' : RpcCall) (event : CallEvent) : Prop where
  correlationId : call'.correlationId = call.correlationId
  arrived : call'.arrived = call.arrived
  inProgress : call.stage.ended = false
  future : call'.future = call.future ∨ (call'.future = .cancelled ∧ call.future = .pending)
  returned : ∀ body, call'.stage = .returned body → call.future = .result body
  timedOut : event = .timesOut → call.future.done

theorem advances_of_advance {call call' : RpcCall} {event : CallEvent}
    (h : call.advance event = some call') : Advances call call' event := by
  cases event with
  | published =>
      obtain ⟨⟨hstage, -⟩, rfl⟩ := Option.ite_some_none_eq_some.1 h
      exact ⟨rfl, rfl, by rw [hstage]; rfl, .inl rfl, by simp, by simp⟩
  | publishRaises =>
      obtain ⟨hstage, rfl⟩ := Option.ite_some_none_eq_some.1 h
      exact ⟨rfl, rfl, by rw [hstage]; rfl, .inl rfl, by simp, by simp⟩
  | deadline =>
      obtain ⟨hstage, rfl⟩ := Option.ite_some_none_eq_some.1 h
      exact ⟨rfl, rfl, by rw [hstage]; rfl, .inl rfl, by simp [hstage], by simp⟩
  | cancel =>
      obtain ⟨hstage, hsome⟩ := Option.ite_none_left_eq_some.1 h
      obtain rfl := Option.some.inj hsome
      refine ⟨rfl, rfl, by simpa using hstage, .inl rfl, fun body hbody => ?_, by simp⟩
      exact absurd (by rw [show call.stage = _ from hbody]; rfl) hstage
  | cancelsFuture =>
      obtain ⟨⟨hstage, -⟩, rfl⟩ := Option.ite_some_none_eq_some.1 h
      refine ⟨rfl, rfl, by rw [hstage]; rfl, ?_, by simp [hstage], by simp⟩
      cases hfuture : call.future <;> simp [Future.cancel, Future.done]
  | returns =>
      simp only [RpcCall.advance] at h
      split at h
      · rename_i body hstage hfuture
        obtain rfl := Option.some.inj h
        refine ⟨rfl, rfl, by rw [hstage]; rfl, .inl rfl, ?_, by simp⟩
        rintro _ ⟨⟩
        exact hfuture
      · cases h
  | timesOut =>
      obtain ⟨⟨hstage, -, hdone⟩, rfl⟩ := Option.ite_some_none_eq_some.1 h
      exact ⟨rfl, rfl, by rw [hstage]; rfl, .inl rfl, by simp, fun _ => hdone⟩
  | raisesCancelled =>
      obtain ⟨⟨-, hstage⟩, rfl⟩ := Option.ite_some_none_eq_some.1 h
      refine ⟨rfl, rfl, ?_, .inl rfl, by simp, by simp⟩
      rcases hstage with hstage | ⟨hstage, -⟩
      · rw [hstage]
        rfl
      · rw [hstage]
        rfl

@[simp] theorem RpcCall.reply_correlationId (call : RpcCall) (cid : Option Str)
    (body : List UInt8) : (call.reply cid body).correlationId = call.correlationId := by
  simp only [RpcCall.reply, RpcCall.record]
  split_ifs <;> rfl

@[simp] theorem RpcCall.record_future (call : RpcCall) (cid : Option Str) (body : List UInt8) :
    (call.record cid body).future = call.future := by
  rw [RpcCall.record]
  split <;> rfl

@[simp] theorem RpcCall.reply_stage (call : RpcCall) (cid : Option Str) (body : List UInt8) :
    (call.reply cid body).stage = call.stage := by
  simp only [RpcCall.reply, RpcCall.record]
  split_ifs <;> rfl

theorem RpcCall.reply_of_ne {call : RpcCall} {cid : Option Str} (h : cid ≠ some call.correlationId)
    (body : List UInt8) : call.reply cid body = call := if_neg h

theorem RpcCall.reply_own (call : RpcCall) (body : List UInt8) :
    call.reply (some call.correlationId) body =
      { call with
        future := call.future.resolve body
        arrived := if call.stage.ended then call.arrived else call.arrived ++ [body] } := by
  cases hended : call.stage.ended <;> simp [RpcCall.reply, RpcCall.record, hended]

theorem RpcCall.reply_future_of_done {call : RpcCall} (h : call.future.done) (cid : Option Str)
    (body : List UInt8) : (call.reply cid body).future = call.future := by
  rw [RpcCall.reply]
  split
  · rw [RpcCall.record_future, Future.resolve_of_done h]
  · rfl

theorem RpcCall.Sound.advance {call call' : RpcCall} {event : CallEvent} (h : call.Sound)
    (hadvance : call.advance event = some call') : call'.Sound := by
  have hadv := advances_of_advance hadvance
  refine ⟨fun hpending => ?_, fun body hresult hended => ?_, fun body hreturned => ?_⟩
  · rw [hadv.arrived]
    rcases hadv.future with hsame | ⟨hcancelled, -⟩
    · exact h.unanswered (hsame ▸ hpending)
    · rw [hcancelled] at hpending
      cases hpending
  · rw [hadv.arrived]
    rcases hadv.future with hsame | ⟨hcancelled, -⟩
    · exact h.answered body (hsame ▸ hresult) hadv.inProgress
    · rw [hcancelled] at hresult
      cases hresult
  · rw [hadv.arrived]
    exact h.answered body (hadv.returned body hreturned) hadv.inProgress

theorem RpcCall.Sound.reply {call : RpcCall} (h : call.Sound) (cid : Option Str)
    (body : List UInt8) : (call.reply cid body).Sound := by
  by_cases hcid : cid = some call.correlationId
  · subst hcid
    rw [call.reply_own]
    refine ⟨fun hpending => ?_, fun first hresult hended => ?_, fun first hreturned => ?_⟩
    · exact absurd hpending (Future.done_iff.1 (call.future.resolve_done body))
    · have hended : call.stage.ended = false := hended
      simp only [hended, Bool.false_eq_true, if_false]
      -- the reply sets the result only where it is the first one
      by_cases hdone : call.future.done
      · have hfuture : call.future = .result first := by
          rw [← Future.resolve_of_done hdone body]
          exact hresult
        rw [List.head?_append, h.answered first hfuture hended]
        rfl
      · have hfuture : call.future.resolve body = .result body := if_neg hdone
        rw [h.unanswered (by simpa using hdone)]
        obtain rfl : body = first := by simpa [hfuture] using hresult
        rfl
    · have hstage : call.stage = .returned first := hreturned
      simp only [hstage, CallStage.ended, if_true]
      exact h.returned first hstage
  · rw [RpcCall.reply_of_ne hcid]
    exact h

/-! ### The dict and the calls -/

/-- Ids are unique, an entry belongs to the call with its id, and a call without
one has a future that is done. -/
structure RpcSound (s : RpcSystem) : Prop where
  ids_inj : ∀ (i j : ℕ) (call other : RpcCall), s.calls[i]? = some call → s.calls[j]? = some other →
    call.correlationId = other.correlationId → i = j
  entry : ∀ cid i, s.pending cid = some i →
    ∃ call, s.calls[i]? = some call ∧ call.correlationId = cid
  registered : ∀ (i : ℕ) (call : RpcCall), s.calls[i]? = some call → call.future = .pending →
    s.pending call.correlationId = some i
  calls : ∀ call ∈ s.calls, call.Sound

theorem rpcSound_fresh : RpcSound .fresh := by
  constructor <;> simp [RpcSystem.fresh]

theorem RpcCall.record_eq_reply {call : RpcCall} {cid : Option Str} (body : List UInt8)
    (h : cid = some call.correlationId → call.future.done) :
    call.record cid body = call.reply cid body := by
  by_cases hcid : cid = some call.correlationId
  · rw [RpcCall.reply, if_pos hcid, Future.resolve_of_done (h hcid)]
  · rw [RpcCall.reply_of_ne hcid, RpcCall.record, if_neg (fun hboth => hcid hboth.1)]

theorem onReply_entry {s : RpcSystem} {cid : Str} {i : ℕ} {call : RpcCall}
    (hentry : s.pending cid = some i) (hget : s.calls[i]? = some call) (body : List UInt8) :
    onReply s (some cid) body = .ok { s.pop cid with
      calls := s.calls.set i { call with future := call.future.resolve body } } := by
  have hfuture : (if call.future.done then .ok call.future
      else call.future.setResult body : Except PyException Future) =
        .ok (call.future.resolve body) := by
    unfold Future.setResult Future.resolve
    split <;> rfl
  simp only [onReply, hentry, hget]
  rw [hfuture]
  rfl

/-- The dict delivers as if every call looked at the reply. -/
theorem RpcSound.onReply_eq {s : RpcSystem} (h : RpcSound s) (cid : Option Str)
    (body : List UInt8) :
    ∃ s', onReply s cid body = .ok s' ∧
      (∀ key, s'.pending key = if cid = some key then none else s.pending key) ∧
      s'.calls.map (fun call => call.record cid body) =
        s.calls.map fun call => call.reply cid body := by
  cases cid with
  | none =>
      refine ⟨s, rfl, fun key => rfl, List.map_congr_left fun call _ => ?_⟩
      exact RpcCall.record_eq_reply body (by simp)
  | some cid =>
      cases hentry : s.pending cid with
      | none =>
          refine ⟨s, by simp only [onReply, hentry], fun key => ?_,
            List.map_congr_left fun call hcall => RpcCall.record_eq_reply body fun hcid => ?_⟩
          · split
            · rename_i heq
              rw [← Option.some.inj heq, hentry]
            · rfl
          -- a pending future would have its entry
          · obtain ⟨i, hget⟩ := List.getElem?_of_mem hcall
            rw [Future.done_iff]
            intro hpending
            have hregistered := h.registered i call hget hpending
            rw [← Option.some.inj hcid, hentry] at hregistered
            cases hregistered
      | some i =>
          obtain ⟨call, hget, rfl⟩ := h.entry cid i hentry
          refine ⟨_, onReply_entry hentry hget body, fun key => ?_, List.ext_getElem? fun j => ?_⟩
          · by_cases hkey : call.correlationId = key
            · simp [RpcSystem.pop, hkey]
            · simp [RpcSystem.pop, hkey, Function.update_of_ne (Ne.symm hkey)]
          · rw [List.getElem?_map, List.getElem?_map]
            by_cases hij : i = j
            · subst hij
              obtain ⟨hi, -⟩ := List.getElem?_eq_some_iff.1 hget
              rw [List.getElem?_set_self hi, hget, Option.map_some, Option.map_some,
                RpcCall.reply, if_pos rfl]
            · rw [List.getElem?_set_ne hij]
              cases hother : s.calls[j]? with
              | none => rfl
              | some other =>
                  apply congrArg some
                  apply RpcCall.record_eq_reply body
                  intro hcid
                  exact absurd (h.ids_inj i j call other hget hother (Option.some.inj hcid)) hij

theorem RpcSound.onReply_done {s : RpcSystem} (h : RpcSound s) (cid : Option Str)
    (body : List UInt8) :
    ∃ s', onReply s cid body = .ok s' ∧ ∀ (i : ℕ) (call : RpcCall), s.calls[i]? = some call →
      call.future.done → ∃ call', s'.calls[i]? = some call' ∧ call'.future = call.future := by
  obtain ⟨s', hs', -, hcalls⟩ := h.onReply_eq cid body
  refine ⟨s', hs', fun i call hget hdone => ?_⟩
  have hi : (s'.calls.map fun call => call.record cid body)[i]? = some (call.reply cid body) := by
    rw [hcalls, List.getElem?_map, hget, Option.map_some]
  rw [List.getElem?_map, Option.map_eq_some_iff] at hi
  obtain ⟨call', hget', hrecord⟩ := hi
  refine ⟨call', hget', ?_⟩
  rw [← call'.record_future cid body, hrecord, RpcCall.reply_future_of_done hdone]

/-! ### Steps -/

section Steps

variable {s s' : RpcSystem}

theorem RpcSound.register (h : RpcSound s) {cid : Str}
    (hfresh : cid ∉ s.calls.map RpcCall.correlationId)
    (hcalls : s'.calls = s.calls ++ [.start cid])
    (hpending : s'.pending = Function.update s.pending cid (some s.calls.length)) :
    RpcSound s' := by
  have hother : ∀ {i : ℕ} {call : RpcCall}, s.calls[i]? = some call → call.correlationId ≠ cid :=
    fun hget hid => hfresh (hid ▸ List.mem_map_of_mem (List.mem_of_getElem? hget))
  have hget' : ∀ {i : ℕ} {call : RpcCall}, s'.calls[i]? = some call ↔
      s.calls[i]? = some call ∨ (i = s.calls.length ∧ .start cid = call) := by
    rw [hcalls]
    exact getElem?_concat_eq_some
  refine ⟨fun i j call other hi hj hid => ?_, fun key i hentry => ?_,
    fun i call hget hfuture => ?_, fun call hcall => ?_⟩
  · rcases hget'.1 hi with hi | ⟨rfl, rfl⟩ <;> rcases hget'.1 hj with hj | ⟨rfl, rfl⟩
    · exact h.ids_inj i j call other hi hj hid
    · exact absurd hid (hother hi)
    · exact absurd hid.symm (hother hj)
    · rfl
  · rw [hpending] at hentry
    by_cases hkey : key = cid
    · subst hkey
      rw [Function.update_self, Option.some.injEq] at hentry
      exact ⟨.start key, hget'.2 (.inr ⟨hentry.symm, rfl⟩), rfl⟩
    · rw [Function.update_of_ne hkey] at hentry
      obtain ⟨call, hget, hid⟩ := h.entry key i hentry
      exact ⟨call, hget'.2 (.inl hget), hid⟩
  · rw [hpending]
    rcases hget'.1 hget with hget | ⟨rfl, rfl⟩
    · rw [Function.update_of_ne (hother hget)]
      exact h.registered i call hget hfuture
    · exact Function.update_self _ _ _
  · rw [hcalls, List.mem_append, List.mem_singleton] at hcall
    rcases hcall with hcall | rfl
    · exact h.calls call hcall
    · constructor <;> simp [RpcCall.start]

theorem RpcSound.advance (h : RpcSound s) {i : ℕ} {call call' : RpcCall} {event : CallEvent}
    (hget : s.calls[i]? = some call) (hadvance : call.advance event = some call')
    (hcalls : s'.calls = s.calls.set i call')
    (hpending : ∀ key, s'.pending key =
      if event = .timesOut ∧ call.correlationId = key then none else s.pending key) :
    RpcSound s' := by
  have hadv := advances_of_advance hadvance
  have hget' : ∀ {j : ℕ} {other : RpcCall}, s'.calls[j]? = some other ↔
      (i = j ∧ call' = other) ∨ (i ≠ j ∧ s.calls[j]? = some other) := by
    rw [hcalls]
    exact getElem?_set_eq_some hget
  -- the call at an index keeps its id
  have hback : ∀ {j : ℕ} {other : RpcCall}, s'.calls[j]? = some other →
      ∃ before, s.calls[j]? = some before ∧ before.correlationId = other.correlationId := by
    intro j other hj
    rcases hget'.1 hj with ⟨rfl, rfl⟩ | ⟨-, hj⟩
    · exact ⟨call, hget, hadv.correlationId.symm⟩
    · exact ⟨other, hj, rfl⟩
  refine ⟨fun j k other third hj hk hid => ?_, fun key j hentry => ?_,
    fun j other hj hfuture => ?_, fun other hother => ?_⟩
  · obtain ⟨before, hj, hbefore⟩ := hback hj
    obtain ⟨before', hk, hbefore'⟩ := hback hk
    exact h.ids_inj j k before before' hj hk (by rw [hbefore, hbefore', hid])
  · rw [hpending] at hentry
    split at hentry
    · cases hentry
    obtain ⟨before, hj, rfl⟩ := h.entry key j hentry
    by_cases hij : i = j
    · subst hij
      obtain rfl : before = call := Option.some.inj (hj.symm.trans hget)
      exact ⟨call', hget'.2 (.inl ⟨rfl, rfl⟩), hadv.correlationId⟩
    · exact ⟨before, hget'.2 (.inr ⟨hij, hj⟩), rfl⟩
  · rw [hpending]
    rcases hget'.1 hj with ⟨rfl, rfl⟩ | ⟨hij, hj⟩
    · rcases hadv.future with hsame | ⟨hcancelled, -⟩
      · rw [hsame] at hfuture
        rw [if_neg fun hboth => Future.done_iff.1 (hadv.timedOut hboth.1) hfuture,
          hadv.correlationId]
        exact h.registered i call hget hfuture
      · rw [hcancelled] at hfuture
        cases hfuture
    · rw [if_neg fun hboth => hij (h.ids_inj i j call other hget hj hboth.2)]
      exact h.registered j other hj hfuture
  · obtain ⟨j, hj⟩ := List.getElem?_of_mem hother
    rcases hget'.1 hj with ⟨-, rfl⟩ | ⟨-, hj⟩
    · exact (h.calls call (List.mem_of_getElem? hget)).advance hadvance
    · exact h.calls other (List.mem_of_getElem? hj)

theorem RpcSound.deliver (h : RpcSound s) {cid : Option Str} {body : List UInt8}
    (hcalls : s'.calls = s.calls.map fun call => call.reply cid body)
    (hpending : ∀ key, s'.pending key = if cid = some key then none else s.pending key) :
    RpcSound s' := by
  have hback : ∀ {i : ℕ} {call : RpcCall}, s'.calls[i]? = some call →
      ∃ before, s.calls[i]? = some before ∧ before.reply cid body = call := by
    intro i call hget
    rw [hcalls, List.getElem?_map] at hget
    exact Option.map_eq_some_iff.1 hget
  refine ⟨fun i j call other hi hj hid => ?_, fun key i hentry => ?_,
    fun i call hget hfuture => ?_, fun call hcall => ?_⟩
  · obtain ⟨before, hbefore, rfl⟩ := hback hi
    obtain ⟨before', hbefore', rfl⟩ := hback hj
    exact h.ids_inj i j before before' hbefore hbefore' (by simpa using hid)
  · rw [hpending] at hentry
    split at hentry
    · cases hentry
    · obtain ⟨before, hget, rfl⟩ := h.entry key i hentry
      refine ⟨before.reply cid body, ?_, before.reply_correlationId cid body⟩
      rw [hcalls, List.getElem?_map, hget, Option.map_some]
  · obtain ⟨before, hbefore, rfl⟩ := hback hget
    rw [RpcCall.reply_correlationId, hpending]
    -- the reply leaves no future pending that it is for
    by_cases hcid : cid = some before.correlationId
    · subst hcid
      rw [before.reply_own] at hfuture
      exact absurd hfuture (Future.done_iff.1 (before.future.resolve_done body))
    · rw [RpcCall.reply_of_ne hcid] at hfuture
      rw [if_neg hcid]
      exact h.registered i before hbefore hfuture
  · rw [hcalls] at hcall
    obtain ⟨before, hbefore, rfl⟩ := List.mem_map.1 hcall
    exact (h.calls before hbefore).reply cid body

end Steps

/-- Everything a step does, a reply being looked at by every call. -/
inductive RpcMoves (s s' : RpcSystem) : RpcAction → Prop
  | call (cid : Str)
      (fresh : cid ∉ s.calls.map RpcCall.correlationId)
      (calls : s'.calls = s.calls ++ [.start cid])
      (pending : s'.pending = Function.update s.pending cid (some s.calls.length)) :
      RpcMoves s s' (.call cid)
  | event (i : ℕ) (event : CallEvent) (call call' : RpcCall)
      (get : s.calls[i]? = some call)
      (advance : call.advance event = some call')
      (calls : s'.calls = s.calls.set i call')
      (pending : ∀ key, s'.pending key =
        if event = .timesOut ∧ call.correlationId = key then none else s.pending key) :
      RpcMoves s s' (.event i event)
  | reply (cid : Option Str) (body : List UInt8)
      (calls : s'.calls = s.calls.map fun call => call.reply cid body)
      (pending : ∀ key, s'.pending key = if cid = some key then none else s.pending key) :
      RpcMoves s s' (.reply cid body)

theorem RpcSound.moves {s s' : RpcSystem} {action : RpcAction} (h : RpcSound s)
    (hstep : rpcStep s action = some s') : RpcMoves s s' action := by
  cases action with
  | call cid =>
      obtain ⟨hfresh, hsome⟩ := Option.ite_none_left_eq_some.1 hstep
      obtain rfl := Option.some.inj hsome
      exact .call cid hfresh rfl rfl
  | event i event =>
      simp only [rpcStep] at hstep
      split at hstep
      · cases hstep
      · rename_i call hget
        split at hstep
        · cases hstep
        · rename_i call' hadvance
          obtain rfl := Option.some.inj hstep
          apply RpcMoves.event i event call call' hget hadvance rfl
          intro key
          by_cases htimesOut : event = .timesOut
          · simp [htimesOut, RpcSystem.pop, Function.update_apply, eq_comm]
          · simp [htimesOut]
  | reply cid body =>
      obtain ⟨s₁, hreply, hpending, hcalls⟩ := h.onReply_eq cid body
      simp only [rpcStep, hreply] at hstep
      obtain rfl := Option.some.inj hstep
      exact .reply cid body hcalls hpending

theorem RpcSound.step {s s' : RpcSystem} {action : RpcAction} (h : RpcSound s)
    (hstep : rpcStep s action = some s') : RpcSound s' := by
  cases h.moves hstep with
  | call cid hfresh hcalls hpending => exact h.register hfresh hcalls hpending
  | event i event call call' hget hadvance hcalls hpending =>
      exact h.advance hget hadvance hcalls hpending
  | reply cid body hcalls hpending => exact h.deliver hcalls hpending

theorem rpcSound_of_reachable {s : RpcSystem} (h : Reachable rpcStep .fresh s) : RpcSound s :=
  h.invariant rpcSound_fresh fun _ _ _ hs hstep => hs.step hstep

/-! ### What a call depends on -/

/-- What an action is to the call with the index and the id. -/
def ownEvent (i : ℕ) (cid : Str) : RpcAction → Option OwnEvent
  | .call _ => none
  | .event j event => if j = i then some (.event event) else none
  | .reply key body => if key = some cid then some (.reply body) else none

/-- The events of a run that decide on one call: its own, and the first reply
with its id. -/
def deciding (i : ℕ) (cid : Str) : Bool → List RpcAction → List OwnEvent
  | _, [] => []
  | answered, action :: rest =>
      match ownEvent i cid action with
      | none => deciding i cid answered rest
      | some (.event event) => .event event :: deciding i cid answered rest
      | some (.reply body) =>
          if answered then deciding i cid true rest
          else .reply body :: deciding i cid true rest

theorem RpcSound.own_step {s s' : RpcSystem} {action : RpcAction} (h : RpcSound s)
    (hstep : rpcStep s action = some s') {i : ℕ} {call : RpcCall}
    (hget : s.calls[i]? = some call) :
    ∃ call', s'.calls[i]? = some call' ∧
      match ownEvent i call.correlationId action with
      | none => call' = call
      | some event => ownStep call event = some call' := by
  cases h.moves hstep with
  | call cid hfresh hcalls hpending =>
      refine ⟨call, ?_, rfl⟩
      rw [hcalls]
      exact getElem?_concat_eq_some.2 (.inl hget)
  | event j event other other' hgetOther hadvance hcalls hpending =>
      by_cases hji : j = i
      · subst hji
        obtain rfl : other = call := Option.some.inj (hgetOther.symm.trans hget)
        refine ⟨other', ?_, ?_⟩
        · rw [hcalls]
          exact (getElem?_set_eq_some hget).2 (.inl ⟨rfl, rfl⟩)
        · rw [ownEvent, if_pos rfl]
          exact hadvance
      · refine ⟨call, ?_, ?_⟩
        · rw [hcalls]
          exact (getElem?_set_eq_some hgetOther).2 (.inr ⟨hji, hget⟩)
        · rw [ownEvent, if_neg hji]
  | reply key body hcalls hpending =>
      refine ⟨call.reply key body, ?_, ?_⟩
      · rw [hcalls, List.getElem?_map, hget, Option.map_some]
      · by_cases hkey : key = some call.correlationId
        · rw [ownEvent, if_pos hkey, hkey]
          rfl
        · rw [ownEvent, if_neg hkey]
          exact RpcCall.reply_of_ne hkey body

theorem ownStep_correlationId {call call' : RpcCall} {event : OwnEvent}
    (h : ownStep call event = some call') : call'.correlationId = call.correlationId := by
  cases event with
  | event event => exact (advances_of_advance h).correlationId
  | reply body =>
      rw [← Option.some.inj h]
      exact call.reply_correlationId _ body

theorem ownStep_arrived {call call' : RpcCall} {event : OwnEvent}
    (h : ownStep call event = some call') (arrived : List (List UInt8)) :
    ∃ arrived', ownStep { call with arrived := arrived } event =
      some { call' with arrived := arrived' } := by
  cases event with
  | event event =>
      have hmap : { call with arrived := arrived : RpcCall }.advance event =
          (call.advance event).map fun call' => { call' with arrived := arrived } := by
        cases event <;> simp only [RpcCall.advance] <;> split <;> simp_all
      refine ⟨arrived, ?_⟩
      show RpcCall.advance _ event = _
      rw [hmap, show call.advance event = some call' from h, Option.map_some]
  | reply body =>
      refine ⟨if call.stage.ended then arrived else arrived ++ [body], ?_⟩
      rw [← Option.some.inj h, call.reply_own]
      exact congrArg some (RpcCall.reply_own { call with arrived := arrived } body)

theorem ownStep_done {call call' : RpcCall} {event : OwnEvent}
    (h : ownStep call event = some call') (hdone : call.future.done) : call'.future.done := by
  cases event with
  | event event =>
      rcases (advances_of_advance h).future with hsame | ⟨hcancelled, -⟩
      · rw [hsame]
        exact hdone
      · rw [hcancelled]
        rfl
  | reply body =>
      rw [← Option.some.inj h, RpcCall.reply_future_of_done hdone]
      exact hdone

theorem RpcSound.exec_deciding {as : List RpcAction} {s s' : RpcSystem} (h : RpcSound s)
    (hexec : exec rpcStep s as = some s') {i : ℕ} {call : RpcCall} (hget : s.calls[i]? = some call)
    (arrived : List (List UInt8)) {answered : Bool} (hanswered : answered → call.future.done) :
    ∃ call' arrived', s'.calls[i]? = some call' ∧
      exec ownStep { call with arrived := arrived } (deciding i call.correlationId answered as) =
        some { call' with arrived := arrived' } := by
  induction as generalizing s call arrived answered with
  | nil =>
      obtain rfl := Option.some.inj hexec
      exact ⟨call, arrived, hget, rfl⟩
  | cons action rest ih =>
      obtain ⟨s₁, hstep, hrest⟩ := Option.bind_eq_some_iff.1 hexec
      obtain ⟨call₁, hget₁, hown⟩ := h.own_step hstep hget
      have hsound₁ := h.step hstep
      rw [deciding]
      cases hevent : ownEvent i call.correlationId action with
      | none =>
          rw [hevent] at hown
          obtain rfl : call₁ = call := hown
          exact ih hsound₁ hrest hget₁ arrived hanswered
      | some event =>
          rw [hevent] at hown
          have hown : ownStep call event = some call₁ := hown
          obtain ⟨arrived₁, hown₁⟩ := ownStep_arrived hown arrived
          have hid := ownStep_correlationId hown
          cases event with
          | event event =>
              obtain ⟨call', arrived', hget', hrun⟩ :=
                ih hsound₁ hrest hget₁ arrived₁ fun hyes => ownStep_done hown (hanswered hyes)
              refine ⟨call', arrived', hget', ?_⟩
              simp only [exec_cons, hown₁, Option.bind_some]
              rw [hid] at hrun ⊢
              exact hrun
          | reply body =>
              obtain rfl : call.reply (some call.correlationId) body = call₁ := Option.some.inj hown
              have hdone : (call.reply (some call.correlationId) body).future.done := by
                rw [call.reply_own]
                exact call.future.resolve_done body
              simp only
              split
              -- a later reply leaves the call as it is
              · rename_i hyes
                obtain ⟨call', arrived', hget', hrun⟩ :=
                  @ih s₁ hsound₁ hrest _ hget₁ arrived true fun _ => hdone
                refine ⟨call', arrived', hget', ?_⟩
                rw [hid] at hrun
                rw [← hrun, call.reply_own, Future.resolve_of_done (hanswered hyes)]
              · obtain ⟨call', arrived', hget', hrun⟩ :=
                  @ih s₁ hsound₁ hrest _ hget₁ arrived₁ true fun _ => hdone
                refine ⟨call', arrived', hget', ?_⟩
                rw [exec_cons, hown₁, Option.bind_some]
                rw [hid] at hrun ⊢
                exact hrun

/-! ### Replies -/

/-- However calls, replies, timeouts and cancellations interleave: a call that
returns, returns the first reply with its own id that arrived while it was in
progress; the callback never gives a result to a future that is done; and the
outcome of a call depends on its own events and that first reply alone. -/
theorem replies_never_cross {s : RpcSystem} (h : Reachable rpcStep .fresh s) :
    (∀ call ∈ s.calls, ∀ body, call.stage = .returned body → call.arrived.head? = some body) ∧
    (∀ cid body, ∃ s', onReply s cid body = .ok s' ∧
      ∀ (i : ℕ) (call : RpcCall), s.calls[i]? = some call → call.future.done →
        ∃ call', s'.calls[i]? = some call' ∧ call'.future = call.future) ∧
    ∀ as s', exec rpcStep s as = some s' → ∀ i (call : RpcCall), s.calls[i]? = some call →
      ∃ call' arrived, s'.calls[i]? = some call' ∧
        exec ownStep call (deciding i call.correlationId (!call.arrived.isEmpty) as) =
          some { call' with arrived := arrived } := by
  have hsound := rpcSound_of_reachable h
  refine ⟨fun call hcall body hreturned => ?_, hsound.onReply_done,
    fun as s' hexec i call hget => ?_⟩
  · exact (hsound.calls call hcall).returned body hreturned
  · apply hsound.exec_deciding hexec hget call.arrived
    intro hanswered
    rw [Future.done_iff]
    intro hpending
    have hnone := (hsound.calls call (List.mem_of_getElem? hget)).unanswered hpending
    rw [hnone] at hanswered
    cases hanswered

/-- The replies of two calls arrive in the other order, one of them twice, between
replies that are for neither; the second call is interrupted before it takes its
reply. -/
def crossedReplies : List RpcAction :=
  [ .call (str "c1"), .call (str "c2"), .event 1 .published, .reply (some (str "c2")) [2],
    .reply none [0], .reply (some (str "c9")) [9], .event 0 .published,
    .reply (some (str "c1")) [1], .reply (some (str "c1")) [7], .event 1 .deadline,
    .event 1 .timesOut, .event 0 .returns, .reply (some (str "c2")) [3] ]

theorem replies_never_cross_crossedReplies :
    ∃ s, exec rpcStep .fresh crossedReplies = some s ∧
      s.calls.map RpcCall.stage = [.returned [1], .timedOut] ∧
      ∀ call ∈ s.calls, ∀ body, call.stage = .returned body → call.arrived.head? = some body :=
  ⟨_, rfl, rfl, (replies_never_cross (reachable_of_exec crossedReplies rfl)).1⟩

end TictactoeBots
