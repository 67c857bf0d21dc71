import TictactoeBots.Messaging.RpcClient

/-!
Calls from end to end: any number of clients with a reply queue each, a request
queue, and the workers of `serve_rpc` that consume it.

A worker acknowledges a request after it has published the reply, so when it
dies in between, the request is delivered again and answered twice; and the
broker drops a request that has waited for too long. None of this can give a
call the answer to another one.
-/

namespace TictactoeBots

open Text StepSystem

/-- A request for the handler. The number of the client stands for the name of
its reply queue. -/
structure RpcRequest where
  client : ℕ
  correlationId : Str
  payload : List UInt8

structure RpcReply where
  client : ℕ
  correlationId : Str
  body : List UInt8

/-- How far a worker has got with a request. -/
inductive WorkStage where
  | received
  | answering (body : List UInt8)
  | replied

structure Work where
  request : RpcRequest
  stage : WorkStage

variable {ω : Type}

/-- The clients, the workers and the broker between them. What a handler sees of
its surroundings is an `ω`. -/
structure RpcNet (ω : Type) where
  clients : List RpcSystem
  /-- The requests of all calls, for reference only. -/
  sent : List RpcRequest
  publishing : List RpcRequest
  queue : List RpcRequest
  works : List Work
  replies : List RpcReply
  /-- What handlers have returned from, for reference only. -/
  answered : List (RpcRequest × ω)

def RpcNet.fresh : RpcNet ω := ⟨[], [], [], [], [], [], []⟩

inductive NetAction (ω : Type) where
  | create
  | call (client : ℕ) (cid : Str) (payload : List UInt8)
  | event (client i : ℕ) (event : CallEvent)
  /-- A request arrives at the queue, or does not get there. -/
  | land (request : ℕ)
  | lose (request : ℕ)
  /-- The broker drops a request, which has expired. -/
  | expire (request : ℕ)
  | take
  /-- The handler runs; it returns or raises. -/
  | run (work : ℕ) (seen : ω)
  | publishReply (work : ℕ)
  | ack (work : ℕ)
  /-- The reply cannot be published; the request is rejected and not queued again. -/
  | raises (work : ℕ)
  /-- The worker with this request dies; the broker queues the request again. -/
  | workerDies (work : ℕ)
  | arrive (reply : ℕ)

def RpcNet.clientStep (s : RpcNet ω) (client : ℕ) (action : RpcAction) : Option (RpcNet ω) := do
  let before ← s.clients[client]?
  let after ← rpcStep before action
  return { s with clients := s.clients.set client after }

def netStep (handler : ω → List UInt8 → Option (List UInt8)) (s : RpcNet ω) :
    NetAction ω → Option (RpcNet ω)
  | .create => some { s with clients := s.clients ++ [.fresh] }
  | .call client cid payload =>
      (s.clientStep client (.call cid)).map fun s' =>
        { s' with
          sent := ⟨client, cid, payload⟩ :: s.sent
          publishing := ⟨client, cid, payload⟩ :: s.publishing }
  | .event client i event => s.clientStep client (.event i event)
  | .land n =>
      match s.publishing[n]? with
      | some request =>
          some { s with publishing := s.publishing.eraseIdx n, queue := s.queue ++ [request] }
      | none => none
  | .lose n => some { s with publishing := s.publishing.eraseIdx n }
  | .expire n => some { s with queue := s.queue.eraseIdx n }
  | .take =>
      match s.queue with
      | request :: rest => some { s with queue := rest, works := ⟨request, .received⟩ :: s.works }
      | [] => none
  | .run n seen =>
      match s.works[n]? with
      | some ⟨request, .received⟩ =>
          match handler seen request.payload with
          | some body =>
              some { s with
                works := ⟨request, .answering body⟩ :: s.works.eraseIdx n
                answered := (request, seen) :: s.answered }
          | none => some { s with works := s.works.eraseIdx n }
      | _ => none
  | .publishReply n =>
      match s.works[n]? with
      | some ⟨request, .answering body⟩ =>
          some { s with
            works := ⟨request, .replied⟩ :: s.works.eraseIdx n
            replies := s.replies ++ [⟨request.client, request.correlationId, body⟩] }
      | _ => none
  | .ack n =>
      match s.works[n]? with
      | some ⟨_, .replied⟩ => some { s with works := s.works.eraseIdx n }
      | _ => none
  | .raises n =>
      match s.works[n]? with
      | some ⟨_, .answering _⟩ => some { s with works := s.works.eraseIdx n }
      | _ => none
  | .workerDies n =>
      match s.works[n]? with
      | some work =>
          some { s with queue := work.request :: s.queue, works := s.works.eraseIdx n }
      | none => none
  | .arrive n =>
      match s.replies[n]? with
      | some reply =>
          (s.clientStep reply.client (.reply (some reply.correlationId) reply.body)).map fun s' =>
            { s' with replies := s.replies.eraseIdx n }
      | none => none

/-! ### The calls of one client -/

/-- The calls after a step: those of before, with the replies that were there or
the one that arrives, and a new one without a reply. -/
theorem calls_of_rpcStep {s s' : RpcSystem} {action : RpcAction} (h : RpcSound s)
    (hstep : rpcStep s action = some s') {call' : RpcCall} (hcall' : call' ∈ s'.calls) :
    (∃ call ∈ s.calls, call'.correlationId = call.correlationId ∧
      ∀ body ∈ call'.arrived,
        body ∈ call.arrived ∨ action = .reply (some call.correlationId) body) ∨
    ∃ cid, action = .call cid ∧ call' = .start cid := by
  cases h.moves hstep with
  | call cid hfresh hcalls hpending =>
      rw [hcalls, List.mem_append, List.mem_singleton] at hcall'
      rcases hcall' with hold | rfl
      · exact .inl ⟨call', hold, rfl, fun body hbody => .inl hbody⟩
      · exact .inr ⟨cid, rfl, rfl⟩
  | event i event call after hget hadvance hcalls hpending =>
      rw [hcalls] at hcall'
      rcases List.mem_or_eq_of_mem_set hcall' with hold | rfl
      · exact .inl ⟨call', hold, rfl, fun body hbody => .inl hbody⟩
      · have hadv := advances_of_advance hadvance
        exact .inl ⟨call, List.mem_of_getElem? hget, hadv.correlationId,
          fun body hbody => .inl (hadv.arrived ▸ hbody)⟩
  | reply cid body hcalls hpending =>
      rw [hcalls] at hcall'
      obtain ⟨call, hcall, rfl⟩ := List.mem_map.1 hcall'
      refine .inl ⟨call, hcall, call.reply_correlationId cid body, fun other hother => ?_⟩
      by_cases hcid : cid = some call.correlationId
      · subst hcid
        rw [call.reply_own] at hother
        simp only at hother
        split at hother
        · exact .inl hother
        · rcases List.mem_append.1 hother with hother | hother
          · exact .inl hother
          · rw [List.mem_singleton.1 hother]
            exact .inr rfl
      · rw [RpcCall.reply_of_ne hcid] at hother
        exact .inl hother

theorem ids_of_rpcStep {s s' : RpcSystem} {action : RpcAction} (h : RpcSound s)
    (hstep : rpcStep s action = some s') :
    s.calls.map RpcCall.correlationId ⊆ s'.calls.map RpcCall.correlationId := by
  intro cid hcid
  obtain ⟨call, hcall, rfl⟩ := List.mem_map.1 hcid
  obtain ⟨i, hget⟩ := List.getElem?_of_mem hcall
  obtain ⟨call', hget', hown⟩ := h.own_step hstep hget
  refine List.mem_map.2 ⟨call', List.mem_of_getElem? hget', ?_⟩
  split at hown
  · rw [hown]
  · exact ownStep_correlationId hown

/-! ### Where answers come from -/

/-- Some run of the handler on the request with the id has returned the body. -/
def RpcNet.Answered (s : RpcNet ω) (handler : ω → List UInt8 → Option (List UInt8)) (client : ℕ)
    (cid : Str) (body : List UInt8) : Prop :=
  ∃ request ∈ s.sent, request.client = client ∧ request.correlationId = cid ∧
    ∃ seen, (request, seen) ∈ s.answered ∧ handler seen request.payload = some body

def RpcNet.requests (s : RpcNet ω) : List RpcRequest :=
  s.publishing ++ s.queue ++ s.works.map Work.request

def Work.Sound (s : RpcNet ω) (handler : ω → List UInt8 → Option (List UInt8)) (work : Work) :
    Prop :=
  ∀ body, work.stage = .answering body →
    s.Answered handler work.request.client work.request.correlationId body

/-- Every call has made its own request, and its replies are answers to it. -/
structure ClientSound (s : RpcNet ω) (handler : ω → List UInt8 → Option (List UInt8)) (c : ℕ)
    (client : RpcSystem) : Prop where
  sound : RpcSound client
  requested : ∀ call ∈ client.calls, ∃ request ∈ s.sent, request.client = c ∧
    request.correlationId = call.correlationId
  answered : ∀ call ∈ client.calls, ∀ body ∈ call.arrived,
    s.Answered handler c call.correlationId body

structure NetSound (handler : ω → List UInt8 → Option (List UInt8)) (s : RpcNet ω) : Prop where
  clients : ∀ (c : ℕ) (client : RpcSystem), s.clients[c]? = some client →
    ClientSound s handler c client
  called : ∀ request ∈ s.sent, ∃ client, s.clients[request.client]? = some client ∧
    request.correlationId ∈ client.calls.map RpcCall.correlationId
  unique : ∀ request ∈ s.sent, ∀ other ∈ s.sent, request.client = other.client →
    request.correlationId = other.correlationId → request = other
  requests : ∀ request ∈ s.requests, request ∈ s.sent
  works : ∀ work ∈ s.works, work.Sound s handler
  replies : ∀ reply ∈ s.replies, s.Answered handler reply.client reply.correlationId reply.body

section Sound

variable {handler : ω → List UInt8 → Option (List UInt8)} {s s' : RpcNet ω}

theorem RpcNet.Answered.mono {client : ℕ} {cid : Str} {body : List UInt8}
    (h : s.Answered handler client cid body) (hsent : s.sent ⊆ s'.sent)
    (hanswered : s.answered ⊆ s'.answered) : s'.Answered handler client cid body := by
  obtain ⟨request, hrequest, hclient, hcid, seen, hseen, hbody⟩ := h
  exact ⟨request, hsent hrequest, hclient, hcid, seen, hanswered hseen, hbody⟩

theorem ClientSound.mono {c : ℕ} {client : RpcSystem} (h : ClientSound s handler c client)
    (hsent : s.sent ⊆ s'.sent) (hanswered : s.answered ⊆ s'.answered) :
    ClientSound s' handler c client where
  sound := h.sound
  requested call hcall := by
    obtain ⟨request, hrequest, hsame⟩ := h.requested call hcall
    exact ⟨request, hsent hrequest, hsame⟩
  answered call hcall body hbody := (h.answered call hcall body hbody).mono hsent hanswered

theorem NetSound.of_broker (h : NetSound handler s) (hclients : s'.clients = s.clients)
    (hsent : s'.sent = s.sent) (hanswered : s.answered ⊆ s'.answered)
    (hrequests : ∀ request ∈ s'.requests, request ∈ s.requests)
    (hworks : ∀ work ∈ s'.works, work ∈ s.works ∨ work.Sound s' handler)
    (hreplies : ∀ reply ∈ s'.replies, reply ∈ s.replies ∨
      s'.Answered handler reply.client reply.correlationId reply.body) : NetSound handler s' where
  clients c client hget :=
    (h.clients c client (hclients ▸ hget)).mono (hsent ▸ List.Subset.refl _) hanswered
  called := by
    rw [hsent, hclients]
    exact h.called
  unique := hsent ▸ h.unique
  requests request hrequest := hsent ▸ h.requests request (hrequests request hrequest)
  works work hwork := by
    rcases hworks work hwork with hold | hsound
    · exact fun body hstage =>
        (h.works work hold body hstage).mono (hsent ▸ List.Subset.refl _) hanswered
    · exact hsound
  replies reply hreply := by
    rcases hreplies reply hreply with hold | hnew
    · exact (h.replies reply hold).mono (hsent ▸ List.Subset.refl _) hanswered
    · exact hnew

/-- Requests change their places, or are dropped. -/
theorem NetSound.of_requests {publishing queue : List RpcRequest} {works : List Work}
    (h : NetSound handler s) (hworks : works ⊆ s.works)
    (hrequests : ∀ request ∈ publishing ++ queue ++ works.map Work.request,
      request ∈ s.requests) :
    NetSound handler { s with publishing := publishing, queue := queue, works := works } :=
  h.of_broker rfl rfl (List.Subset.refl _) hrequests (fun _ hwork => .inl (hworks hwork))
    fun _ hreply => .inl hreply

theorem NetSound.drop (h : NetSound handler s) (n : ℕ) :
    NetSound handler { s with works := s.works.eraseIdx n } := by
  refine h.of_requests (List.eraseIdx_subset ..) fun request hrequest => ?_
  simp only [RpcNet.requests, List.mem_append, List.mem_map] at hrequest ⊢
  refine hrequest.imp_right fun ⟨work, hwork, hsame⟩ => ?_
  exact ⟨work, List.mem_of_mem_eraseIdx hwork, hsame⟩

/-- A worker gets further with a request. -/
theorem NetSound.advance {n : ℕ} {work : Work} {stage : WorkStage}
    {answered : List (RpcRequest × ω)} {replies : List RpcReply} (h : NetSound handler s)
    (hget : s.works[n]? = some work) (hanswered : s.answered ⊆ answered)
    (hs' : s' = { s with
      works := ⟨work.request, stage⟩ :: s.works.eraseIdx n
      answered := answered
      replies := replies })
    (hstage : Work.Sound s' handler ⟨work.request, stage⟩)
    (hreplies : ∀ reply ∈ replies, reply ∈ s.replies ∨
      s'.Answered handler reply.client reply.correlationId reply.body) : NetSound handler s' := by
  subst hs'
  refine h.of_broker rfl rfl hanswered (fun request hrequest => ?_) (fun other hother => ?_) hreplies
  · have hperm := ((perm_cons_eraseIdx_of_getElem? hget).map Work.request).mem_iff (a := request)
    simp only [RpcNet.requests, List.map_cons, List.mem_append, List.mem_cons]
      at hrequest hperm ⊢
    rwa [hperm]
  · rcases List.mem_cons.1 hother with rfl | hother
    · exact .inr hstage
    · exact .inl (List.mem_of_mem_eraseIdx hother)

theorem netSound_fresh : NetSound handler (.fresh : RpcNet ω) := by
  constructor <;> simp [RpcNet.fresh, RpcNet.requests]

/-! ### The clients move -/

theorem ClientSound.step {c : ℕ} {client after : RpcSystem} {action : RpcAction}
    (h : ClientSound s handler c client) (hstep : rpcStep client action = some after)
    (hsent : s.sent ⊆ s'.sent) (hanswered : s.answered ⊆ s'.answered)
    (hcall : ∀ cid, action = .call cid → ∃ payload, ⟨c, cid, payload⟩ ∈ s'.sent)
    (hreply : ∀ cid body, action = .reply (some cid) body → s.Answered handler c cid body) :
    ClientSound s' handler c after where
  sound := h.sound.step hstep
  requested call' hcall' := by
    rcases calls_of_rpcStep h.sound hstep hcall' with ⟨call, hold, hcid, _⟩ | ⟨cid, haction, rfl⟩
    · obtain ⟨request, hrequest, hclient, hsame⟩ := h.requested call hold
      exact ⟨request, hsent hrequest, hclient, hsame.trans hcid.symm⟩
    · obtain ⟨payload, hmem⟩ := hcall cid haction
      exact ⟨_, hmem, rfl, rfl⟩
  answered call' hcall' body hbody := by
    rcases calls_of_rpcStep h.sound hstep hcall' with
      ⟨call, hold, hcid, harrived⟩ | ⟨cid, haction, rfl⟩
    · rw [hcid]
      rcases harrived body hbody with hbefore | haction
      · exact (h.answered call hold body hbefore).mono hsent hanswered
      · exact (hreply _ body haction).mono hsent hanswered
    · exact absurd hbody List.not_mem_nil

/-- What a step of a client may add to the requests. -/
def Requests (c : ℕ) (action : RpcAction) (new : List RpcRequest) : Prop :=
  (new = [] ∧ ∀ cid, action ≠ .call cid) ∨
    ∃ cid payload, action = .call cid ∧ new = [⟨c, cid, payload⟩]

theorem NetSound.of_client {c : ℕ} {client after : RpcSystem} {action : RpcAction}
    {new : List RpcRequest} (h : NetSound handler s) (hget : s.clients[c]? = some client)
    (hstep : rpcStep client action = some after) (hnew : Requests c action new)
    (hreply : ∀ cid body, action = .reply (some cid) body → s.Answered handler c cid body)
    (hclients : s'.clients = s.clients.set c after) (hsent : s'.sent = new ++ s.sent)
    (hanswered : s'.answered = s.answered)
    (hrequests : ∀ request ∈ s'.requests, request ∈ new ∨ request ∈ s.requests)
    (hworks : s'.works = s.works) (hreplies : s'.replies ⊆ s.replies) : NetSound handler s' := by
  have hsub : s.sent ⊆ s'.sent := hsent ▸ List.subset_append_right _ _
  have hsame : s.answered ⊆ s'.answered := hanswered ▸ List.Subset.refl _
  have hclient := h.clients c client hget
  have hids := ids_of_rpcStep hclient.sound hstep
  have hfresh : ∀ cid, action = .call cid → cid ∉ client.calls.map RpcCall.correlationId ∧
      cid ∈ after.calls.map RpcCall.correlationId := by
    rintro cid rfl
    cases hclient.sound.moves hstep with
    | call _ hfresh hcalls _ =>
        refine ⟨hfresh, ?_⟩
        rw [hcalls, List.map_append]
        exact List.mem_append_right _ List.mem_cons_self
  refine ⟨fun c' other hother => ?_, fun request hrequest => ?_,
    fun request hrequest other hother => ?_, fun request hrequest => ?_, fun work hwork body hstage => ?_, fun reply hmem => ?_⟩
  · rw [hclients] at hother
    rcases (getElem?_set_eq_some hget).1 hother with ⟨rfl, rfl⟩ | ⟨_, hold⟩
    · refine hclient.step hstep hsub hsame (fun cid haction => ?_) hreply
      rcases hnew with ⟨_, hnone⟩ | ⟨cid', payload, hcall, rfl⟩
      · exact absurd haction (hnone cid)
      · obtain rfl : cid = cid' := RpcAction.call.inj (haction.symm.trans hcall)
        exact ⟨payload, hsent ▸ List.mem_cons_self⟩
    · exact (h.clients c' other hold).mono hsub hsame
  · rw [hclients]
    rw [hsent, List.mem_append] at hrequest
    rcases hrequest with hrequest | hold
    · rcases hnew with ⟨rfl, _⟩ | ⟨cid, payload, hcall, rfl⟩
      · exact absurd hrequest List.not_mem_nil
      · rw [List.mem_singleton.1 hrequest]
        exact ⟨after, (getElem?_set_eq_some hget).2 (.inl ⟨rfl, rfl⟩), (hfresh cid hcall).2⟩
    · obtain ⟨other, hother, hcid⟩ := h.called request hold
      by_cases hc : c = request.client
      · subst hc
        obtain rfl : client = other := Option.some.inj (hget.symm.trans hother)
        exact ⟨after, (getElem?_set_eq_some hget).2 (.inl ⟨rfl, rfl⟩), hids hcid⟩
      · exact ⟨other, (getElem?_set_eq_some hget).2 (.inr ⟨hc, hother⟩), hcid⟩
  · -- the id of a new request is that of no call of its client
    have hapart : ∀ request ∈ new, ∀ other ∈ s.sent, request.client = other.client →
        request.correlationId ≠ other.correlationId := by
      intro request hrequest other hother hclient' hcid
      rcases hnew with ⟨rfl, _⟩ | ⟨cid, payload, hcall, rfl⟩
      · exact absurd hrequest List.not_mem_nil
      · obtain rfl := List.mem_singleton.1 hrequest
        obtain ⟨owner, howner, hmem⟩ := h.called other hother
        rw [← hclient', hget] at howner
        obtain rfl := Option.some.inj howner
        rw [← hcid] at hmem
        exact (hfresh cid hcall).1 hmem
    rw [hsent, List.mem_append] at hrequest hother
    intro hc hcid
    rcases hrequest with hrequest | hrequest <;> rcases hother with hother | hother
    · rcases hnew with ⟨rfl, _⟩ | ⟨cid, payload, _, rfl⟩
      · exact absurd hrequest List.not_mem_nil
      · rw [List.mem_singleton.1 hrequest, List.mem_singleton.1 hother]
    · exact absurd hcid (hapart request hrequest other hother hc)
    · exact absurd hcid.symm (hapart other hother request hrequest hc.symm)
    · exact h.unique request hrequest other hother hc hcid
  · rw [hsent]
    exact List.mem_append.2 ((hrequests request hrequest).imp_right (h.requests request))
  · exact (h.works work (hworks ▸ hwork) body hstage).mono hsub hsame
  · exact (h.replies reply (hreplies hmem)).mono hsub hsame

theorem RpcNet.clientStep_eq_some {c : ℕ} {action : RpcAction}
    (h : s.clientStep c action = some s') :
    ∃ client after, s.clients[c]? = some client ∧ rpcStep client action = some after ∧
      s' = { s with clients := s.clients.set c after } := by
  obtain ⟨client, hget, h⟩ := Option.bind_eq_some_iff.1 h
  obtain ⟨after, hstep, h⟩ := Option.bind_eq_some_iff.1 h
  exact ⟨client, after, hget, hstep, (Option.some.inj h).symm⟩

theorem NetSound.step {action : NetAction ω} (h : NetSound handler s)
    (hstep : netStep handler s action = some s') : NetSound handler s' := by
  cases action with
  | create =>
      rw [← Option.some.inj hstep]
      refine ⟨fun c client hget => ?_, fun request hrequest => ?_, h.unique, h.requests,
        fun work hwork body hstage => h.works work hwork body hstage, h.replies⟩
      · rcases getElem?_concat_eq_some.1 hget with hold | ⟨_, rfl⟩
        · exact (h.clients c client hold).mono (List.Subset.refl _) (List.Subset.refl _)
        · exact ⟨rpcSound_fresh, List.forall_mem_nil _, List.forall_mem_nil _⟩
      · obtain ⟨client, hget, hcid⟩ := h.called request hrequest
        exact ⟨client, getElem?_concat_eq_some.2 (.inl hget), hcid⟩
  | call c cid payload =>
      obtain ⟨moved, hclient, rfl⟩ := Option.map_eq_some_iff.1 hstep
      obtain ⟨client, after, hget, hcall, rfl⟩ := RpcNet.clientStep_eq_some hclient
      refine h.of_client hget hcall (.inr ⟨cid, payload, rfl, rfl⟩) (fun _ _ heq => by cases heq)
        rfl rfl rfl (fun request hrequest => ?_) rfl (List.Subset.refl _)
      simpa [RpcNet.requests, or_assoc] using hrequest
  | event c i event =>
      obtain ⟨client, after, hget, hevent, rfl⟩ := RpcNet.clientStep_eq_some hstep
      exact h.of_client hget hevent (.inl ⟨rfl, fun _ heq => by cases heq⟩)
        (fun _ _ heq => by cases heq) rfl rfl rfl (fun request hrequest => .inr hrequest) rfl
        (List.Subset.refl _)
  | land n =>
      simp only [netStep] at hstep
      split at hstep
      · rename_i request hget
        rw [← Option.some.inj hstep]
        refine h.of_requests (List.Subset.refl _) fun other hother => ?_
        have hperm := (perm_cons_eraseIdx_of_getElem? hget).mem_iff (a := other)
        simp only [RpcNet.requests, List.mem_append, List.mem_cons, List.not_mem_nil,
          or_false] at hother hperm ⊢
        grind
      · cases hstep
  | lose n =>
      rw [← Option.some.inj hstep]
      refine h.of_requests (List.Subset.refl _) fun other hother => ?_
      simp only [RpcNet.requests, List.mem_append] at hother ⊢
      exact hother.imp_left fun hother => hother.imp_left List.mem_of_mem_eraseIdx
  | expire n =>
      rw [← Option.some.inj hstep]
      refine h.of_requests (List.Subset.refl _) fun other hother => ?_
      simp only [RpcNet.requests, List.mem_append] at hother ⊢
      exact hother.imp_left fun hother => hother.imp_right List.mem_of_mem_eraseIdx
  | take =>
      simp only [netStep] at hstep
      split at hstep
      · rename_i request rest hqueue
        rw [← Option.some.inj hstep]
        refine h.of_broker rfl rfl (List.Subset.refl _) (fun other hother => ?_)
          (fun work hwork => ?_) fun reply hreply => .inl hreply
        · simp only [RpcNet.requests, hqueue, List.map_cons, List.mem_append, List.mem_cons]
            at hother ⊢
          grind
        · rcases List.mem_cons.1 hwork with rfl | hwork
          · exact .inr fun body hstage => by cases hstage
          · exact .inl hwork
      · cases hstep
  | run n seen =>
      simp only [netStep] at hstep
      split at hstep
      · rename_i request hget
        split at hstep
        · rename_i body hbody
          rw [← Option.some.inj hstep]
          refine h.advance hget (List.subset_cons_self _ _) rfl (fun body' hstage => ?_)
            fun reply hreply => .inl hreply
          obtain rfl : body = body' := WorkStage.answering.inj hstage
          have hsent : request ∈ s.sent := by
            refine h.requests request (List.mem_append_right _ ?_)
            exact List.mem_map_of_mem (f := Work.request) (List.mem_of_getElem? hget)
          exact ⟨request, hsent, rfl, rfl, seen, List.mem_cons_self, hbody⟩
        · rw [← Option.some.inj hstep]
          exact h.drop n
      · cases hstep
  | publishReply n =>
      simp only [netStep] at hstep
      split at hstep
      · rename_i request body hget
        rw [← Option.some.inj hstep]
        refine h.advance hget (List.Subset.refl _) rfl (fun body hstage => by cases hstage)
          fun reply hreply => ?_
        refine (List.mem_append.1 hreply).imp_right fun hnew => ?_
        rw [List.mem_singleton.1 hnew]
        exact h.works _ (List.mem_of_getElem? hget) body rfl
      · cases hstep
  | ack n | raises n =>
      simp only [netStep] at hstep
      split at hstep
      · rw [← Option.some.inj hstep]
        exact h.drop n
      · cases hstep
  | workerDies n =>
      simp only [netStep] at hstep
      split at hstep
      · rename_i dead hget
        rw [← Option.some.inj hstep]
        refine h.of_requests (List.eraseIdx_subset ..) fun other hother => ?_
        have hperm := ((perm_cons_eraseIdx_of_getElem? hget).map Work.request).mem_iff (a := other)
        simp only [RpcNet.requests, List.map_cons, List.mem_append, List.mem_cons] at hother hperm ⊢
        grind
      · cases hstep
  | arrive n =>
      simp only [netStep] at hstep
      split at hstep
      · rename_i reply hget
        obtain ⟨moved, hclient, rfl⟩ := Option.map_eq_some_iff.1 hstep
        obtain ⟨client, after, hgetClient, harrive, rfl⟩ := RpcNet.clientStep_eq_some hclient
        refine h.of_client hgetClient harrive (.inl ⟨rfl, fun _ heq => by cases heq⟩)
          (fun cid body heq => ?_) rfl rfl rfl (fun request hrequest => .inr hrequest) rfl
          fun other hother => List.mem_of_mem_eraseIdx hother
        obtain ⟨hcid, rfl⟩ := RpcAction.reply.inj heq
        obtain rfl := Option.some.inj hcid
        exact h.replies reply (List.mem_of_getElem? hget)
      · cases hstep

theorem NetSound.answered_of_returned (h : NetSound handler s) {c : ℕ} {client : RpcSystem}
    {call : RpcCall} {body : List UInt8} (hclient : s.clients[c]? = some client)
    (hcall : call ∈ client.calls) (hreturned : call.stage = .returned body) :
    s.Answered handler c call.correlationId body := by
  have hsound := h.clients c client hclient
  have hfirst := (hsound.sound.calls call hcall).returned body hreturned
  exact hsound.answered call hcall body (List.mem_of_mem_head? hfirst)

theorem netSound_of_reachable (h : Reachable (netStep handler) .fresh s) : NetSound handler s :=
  h.invariant netSound_fresh fun _ _ _ hs hstep => hs.step hstep

end Sound

/-- Whatever is delivered twice, reordered or lost on the way: a call that
returns has made one request, and returns what the handler made of it in one of
its runs. -/
theorem call_returns_own_answer {handler : ω → List UInt8 → Option (List UInt8)} {s : RpcNet ω}
    (h : Reachable (netStep handler) .fresh s) {c : ℕ} {client : RpcSystem} {call : RpcCall}
    {body : List UInt8} (hclient : s.clients[c]? = some client) (hcall : call ∈ client.calls)
    (hreturned : call.stage = .returned body) :
    ∃ payload seen, (∀ request ∈ s.sent, request.client = c →
        request.correlationId = call.correlationId → request.payload = payload) ∧
      (⟨c, call.correlationId, payload⟩, seen) ∈ s.answered ∧
      handler seen payload = some body := by
  have hinv := netSound_of_reachable h
  obtain ⟨⟨_, _, payload⟩, hrequest, rfl, rfl, seen, hseen, hbody⟩ :=
    hinv.answered_of_returned hclient hcall hreturned
  refine ⟨payload, seen, fun other hother hclient' hcid => ?_, hseen, hbody⟩
  rw [hinv.unique other hother _ hrequest hclient' hcid]

def stamp (worker : UInt8) (payload : List UInt8) : Option (List UInt8) := some (worker :: payload)

/-- Two clients draw the same id. The first request is delivered again after it
was answered, and the replies arrive in the other order. -/
def redeliveredRun : List (NetAction UInt8) :=
  [ .create, .create, .call 0 (str "c1") [1], .call 1 (str "c1") [2], .land 1, .land 0,
    .event 0 0 .published, .event 1 0 .published, .take, .run 0 7, .publishReply 0,
    .workerDies 0, .take, .run 0 8, .publishReply 0, .ack 0, .take, .run 0 9, .publishReply 0,
    .ack 0, .arrive 2, .arrive 1, .arrive 0, .event 0 0 .returns, .event 1 0 .returns ]

def redeliveredNet : RpcNet UInt8 := (exec (netStep stamp) .fresh redeliveredRun).getD .fresh

theorem call_returns_own_answer_redelivered :
    ∃ payload seen, (∀ request ∈ redeliveredNet.sent, request.client = 0 →
        request.correlationId = str "c1" → request.payload = payload) ∧
      (⟨0, str "c1", payload⟩, seen) ∈ redeliveredNet.answered ∧
      stamp seen payload = some [8, 1] :=
  @call_returns_own_answer UInt8 stamp redeliveredNet (reachable_of_exec redeliveredRun rfl) 0 _
    ⟨str "c1", .result [8, 1], .returned [8, 1], none, [[8, 1], [7, 1]]⟩ _ rfl List.mem_cons_self
    rfl

end TictactoeBots
