import TictactoeBots.Lib.JsonLoads
import TictactoeBots.Lib.Utf8Encode
import TictactoeBots.Messaging.RpcServer

/-!
The health checks.

A gateway sends a nonce to the health queue of a worker. The worker looks at its
database and at the queue it publishes to, and sends back what it has found
together with the nonce. The gateway answers its own request with 200 only if
every reply is there and has nothing to complain about.
-/

namespace TictactoeBots

open Text Python StepSystem

/-- What the checks take from their interpreter: the decoder, `str(v)` in a
formatted string, and `repr`, whose texts have no surrogates. -/
structure ProbePython where
  json : JsonLoads
  format : PyValue → Str
  format_str : ∀ s, format (.str s) = s
  reprValue : PyValue → Str
  reprExc : PyException → Str
  scalar_reprExc : ∀ exc, Scalar (reprExc exc)

inductive CheckResult where
  | ok
  | down (reason : Str)
  deriving DecidableEq

def CheckResult.text : CheckResult → Str
  | .ok => str "ok"
  | .down reason => str "down: " ++ reason

/-! ### The checks -/

/-- `except Exception as e: return "down", repr(e)`. -/
def guarded (py : ProbePython) (attempt : Except PyException CheckResult) : CheckResult :=
  match attempt with
  | .ok result => result
  | .error exc => .down (py.reprExc exc)

/-- `db_check`, by what becomes of its `SELECT 1`. -/
def dbCheck (py : ProbePython) (select : Except PyException Unit) : CheckResult :=
  guarded py (select.map fun _ => .ok)

/-- A check that opens a connection of its own, and closes it in the end. -/
def withConnection (py : ProbePython) (connect close : Except PyException Unit)
    (attempt : Except PyException CheckResult) : Except PyException CheckResult :=
  match connect with
  | .error exc => .ok (.down (py.reprExc exc))
  | .ok _ =>
      match close with
      | .ok _ => .ok (guarded py attempt)
      | .error exc => .error exc

def brokerCheck (py : ProbePython) (connect close channel declare : Except PyException Unit) :
    Except PyException CheckResult :=
  withConnection py connect close (do channel; declare; return .ok)

/-- What becomes of the `SELECT 1` and of the passive declare of a worker. -/
structure Dependencies where
  select : Except PyException Unit
  declare : Except PyException Unit

/-- The passive declare, which the handler looks at as `db_check` does at its
query. -/
def publishCheck (py : ProbePython) (declare : Except PyException Unit) : CheckResult :=
  guarded py (declare.map fun _ => .ok)

def workerReply (echo db publishQueue : Str) : List (Str × Str) :=
  [(str "echo", echo), (str "db", db), (str "publish_queue", publishQueue)]

/-- The handler that `make_health_echo_handler` makes; `none` when it raises. -/
def echoHandler (py : ProbePython) (seen : Dependencies) (payload : List UInt8) :
    Option (List UInt8) := do
  let db := (dbCheck py seen.select).text
  let publishQueue := (publishCheck py seen.declare).text
  let echo ← Utf8.decodeStrict payload
  return encodeAscii (Json.dumps (Json.textObject (workerReply echo db publishQueue)))

def isText (text : Str) : PyValue → Bool
  | .str s => s = text
  | _ => false

def failingField (py : ProbePython) : List (Str × PyValue) → CheckResult
  | [] => .ok
  | (field, v) :: rest =>
      if field = str "echo" then failingField py rest
      else if isText (str "ok") v then failingField py rest
      else .down (field ++ str ": " ++ py.format v)

/-- What the check makes of the reply. -/
def readEcho (py : ProbePython) (nonce : Str) : PyValue → Except PyException CheckResult
  | .obj fields =>
      let echo := (Json.lookup (str "echo") fields).getD .null
      if isText nonce echo then .ok (failingField py fields)
      else .ok (.down (str "echo mismatch (got " ++ py.reprValue echo ++ str ")"))
  | v => .error (noAttribute v (str "get"))

/-- `worker_echo_check`, by what becomes of its call. -/
def workerEchoCheck (py : ProbePython) (nonce : Str) (connect close : Except PyException Unit)
    (call : Except PyException (List UInt8)) : Except PyException CheckResult :=
  withConnection py connect close do
    let body ← call
    let reply ← py.json.loads body
    readEcho py nonce reply

/-! ### The gateway -/

/-- The loop over the checks. An exception of a check is not caught. -/
def runChecks : List (Str × Except PyException CheckResult) → Except PyException (List (Str × Str))
  | [] => .ok []
  | (name, check) :: checks => do
      let result ← check
      let results ← runChecks checks
      return (name, result.text) :: results

/-- The route that `make_health_router` adds: the status and the JSON of the
response. -/
def healthRoute (checks : List (Str × Except PyException CheckResult)) :
    Except PyException (ℕ × PyValue) := do
  let results ← runChecks checks
  if results.any fun (_, text) => text ≠ str "ok" then
    return (503, .obj [(str "detail", Json.textObject results)])
  else return (200, Json.textObject results)

/-! ### One check from end to end -/

section Check

variable {py : ProbePython} {nonce : Str} {seen : Dependencies} {body : List UInt8}

theorem scalar_text_guarded (attempt : Except PyException Unit) :
    Scalar (guarded py (attempt.map fun _ => .ok)).text := by
  cases attempt with
  | ok => exact scalar_of_all rfl
  | error exc => exact scalar_append (scalar_of_all rfl) (py.scalar_reprExc exc)

/-- What the gateway is to report of a worker. -/
def workerStatus (py : ProbePython) (seen : Dependencies) : CheckResult :=
  match dbCheck py seen.select, publishCheck py seen.declare with
  | .down reason, _ => .down (str "db: down: " ++ reason)
  | .ok, .down reason => .down (str "publish_queue: down: " ++ reason)
  | .ok, .ok => .ok

theorem workerStatus_eq_ok :
    workerStatus py seen = .ok ↔ seen.select = .ok () ∧ seen.declare = .ok () := by
  obtain ⟨select, declare⟩ := seen
  cases select <;> cases declare <;>
    simp [workerStatus, dbCheck, publishCheck, guarded, Except.map]

theorem CheckResult.text_eq_ok {result : CheckResult} : result.text = str "ok" ↔ result = .ok := by
  cases result with
  | ok => exact iff_of_true rfl rfl
  | down reason =>
      refine iff_of_false (fun htext => ?_) (by simp)
      have hhead : some (0x64 : CodePoint) = some 0x6f := congrArg List.head? htext
      exact absurd hhead (by decide)

theorem readEcho_workerReply (nonce db publishQueue : Str) :
    readEcho py nonce (Json.textObject (workerReply nonce db publishQueue)) =
      .ok (if db ≠ str "ok" then .down (str "db: " ++ db)
        else if publishQueue ≠ str "ok" then .down (str "publish_queue: " ++ publishQueue)
        else .ok) := by
  have hecho : Json.lookup (str "echo") [(str "echo", (.str nonce : PyValue)),
      (str "db", .str db), (str "publish_queue", .str publishQueue)] = some (.str nonce) := rfl
  have hdb : str "db" ≠ str "echo" := by decide
  have hpublish : str "publish_queue" ≠ str "echo" := by decide
  simp only [workerReply, Json.textObject, Json.stringFields, List.map_cons, List.map_nil, readEcho,
    hecho, Option.getD_some, isText, decide_true, if_true, failingField, if_neg hdb,
    if_neg hpublish, decide_eq_true_eq, py.format_str, ne_eq, ite_not]
  rfl

/-- The answer to a nonce tells the gateway what the worker has found. -/
theorem workerEchoCheck_of_answer (hjson : ReadsTexts py.json) (hnonce : Scalar nonce)
    (hbody : echoHandler py seen (Utf8.encode nonce) = some body) :
    workerEchoCheck py nonce (.ok ()) (.ok ()) (.ok body) = .ok (workerStatus py seen) := by
  rw [echoHandler, Utf8.decodeStrict_encode hnonce] at hbody
  obtain rfl := Option.some.inj hbody
  have hloads := hjson (workerReply nonce (dbCheck py seen.select).text
      (publishCheck py seen.declare).text) (by
    simp only [workerReply, List.forall_mem_cons, List.not_mem_nil, false_imp_iff, implies_true,
      and_true]
    exact ⟨⟨scalar_of_all rfl, hnonce⟩, ⟨scalar_of_all rfl, scalar_text_guarded _⟩,
      scalar_of_all rfl, scalar_text_guarded _⟩)
  have hread := @readEcho_workerReply py nonce (dbCheck py seen.select).text
    (publishCheck py seen.declare).text
  have hstatus : (if (dbCheck py seen.select).text ≠ str "ok" then
        CheckResult.down (str "db: " ++ (dbCheck py seen.select).text)
      else if (publishCheck py seen.declare).text ≠ str "ok" then
        .down (str "publish_queue: " ++ (publishCheck py seen.declare).text)
      else .ok) = workerStatus py seen := by
    simp only [ne_eq, CheckResult.text_eq_ok, workerStatus]
    cases dbCheck py seen.select <;> cases publishCheck py seen.declare <;> rfl
  rw [hstatus] at hread
  simp only [workerEchoCheck, withConnection, bind, Except.bind, hloads, hread, guarded]

end Check

/-! ### The gateway from end to end -/

theorem runChecks_of_ok {checks : List (Str × Except PyException CheckResult)}
    (h : ∀ check ∈ checks, check.2 = .ok .ok) :
    runChecks checks = .ok (checks.map fun check => (check.1, str "ok")) := by
  induction checks with
  | nil => rfl
  | cons check checks ih =>
      obtain ⟨name, check⟩ := check
      obtain ⟨rfl, hrest⟩ := List.forall_mem_cons.1 h
      rw [runChecks, ih hrest]
      rfl

theorem runChecks_allOk {checks : List (Str × Except PyException CheckResult)}
    {results : List (Str × Str)} (hrun : runChecks checks = .ok results)
    (hok : ∀ result ∈ results, result.2 = str "ok") : ∀ check ∈ checks, check.2 = .ok .ok := by
  induction checks generalizing results with
  | nil => exact List.forall_mem_nil _
  | cons check checks ih =>
      obtain ⟨name, _ | result⟩ := check
      · cases hrun
      cases hrest : runChecks checks with
      | error exc =>
          rw [runChecks, hrest] at hrun
          cases hrun
      | ok rest =>
          rw [runChecks, hrest] at hrun
          rw [← Except.ok.inj hrun] at hok
          obtain ⟨htext, hok⟩ := List.forall_mem_cons.1 hok
          rw [CheckResult.text_eq_ok.1 htext]
          exact List.forall_mem_cons.2 ⟨rfl, ih hrest hok⟩

/-- The gateway answers with 200 when all its checks return `ok`. -/
theorem healthRoute_ok_iff {checks : List (Str × Except PyException CheckResult)} :
    (∃ results, healthRoute checks = .ok (200, results)) ↔
      ∀ check ∈ checks, check.2 = .ok .ok := by
  constructor
  · rintro ⟨results, hroute⟩
    obtain ⟨texts, hrun, hroute⟩ := exists_of_bind_eq_ok hroute
    split at hroute
    · cases hroute
    · rename_i hnone
      apply runChecks_allOk hrun
      simpa using hnone
  · intro hok
    refine ⟨Json.textObject (checks.map fun check => (check.1, str "ok")), ?_⟩
    rw [healthRoute, runChecks_of_ok hok]
    simp [bind, Except.bind, pure, Except.pure]

/-- `/health` of the web server. -/
def webHealth (py : ProbePython) (select connect close channel declare : Except PyException Unit) :
    Except PyException (ℕ × PyValue) :=
  healthRoute [(str "db", .ok (dbCheck py select)),
    (str "broker", brokerCheck py connect close channel declare)]

theorem webHealth_ok_iff {py : ProbePython}
    {select connect close channel declare : Except PyException Unit} :
    (∃ results, webHealth py select connect close channel declare = .ok (200, results)) ↔
      select = .ok () ∧ connect = .ok () ∧ close = .ok () ∧ channel = .ok () ∧
        declare = .ok () := by
  have hdb : dbCheck py select = .ok ↔ select = .ok () := by
    cases select <;> simp [dbCheck, guarded, Except.map]
  have hbroker : brokerCheck py connect close channel declare = .ok .ok ↔
      connect = .ok () ∧ close = .ok () ∧ channel = .ok () ∧ declare = .ok () := by
    cases connect <;> cases close <;> cases channel <;> cases declare <;>
      simp [brokerCheck, withConnection, guarded, bind, Except.bind, pure, Except.pure]
  rw [webHealth, healthRoute_ok_iff]
  simp only [List.forall_mem_cons, List.not_mem_nil, false_imp_iff, implies_true, and_true,
    Except.ok.injEq, hdb, hbroker]

/-- A check on its way: the client and the call that it made in the network of
its worker, and what became of its connection. -/
structure Probe where
  name : Str
  nonce : Str
  net : RpcNet Dependencies
  client : ℕ
  call : RpcCall
  connect : Except PyException Unit
  close : Except PyException Unit
  raised : PyException

def Probe.reply (probe : Probe) : Except PyException (List UInt8) :=
  match probe.call.stage with
  | .returned body => .ok body
  | _ => .error probe.raised

def Probe.check (py : ProbePython) (probe : Probe) : Except PyException CheckResult :=
  workerEchoCheck py probe.nonce probe.connect probe.close probe.reply

/-- The check has sent its nonce to workers that answer with the echo handler. -/
structure Probe.Sent (py : ProbePython) (probe : Probe) : Prop where
  reachable : Reachable (netStep (echoHandler py)) .fresh probe.net
  call : ∃ client, probe.net.clients[probe.client]? = some client ∧ probe.call ∈ client.calls
  payload : ∀ request ∈ probe.net.sent, request.client = probe.client →
    request.correlationId = probe.call.correlationId → request.payload = Utf8.encode probe.nonce
  scalar : Scalar probe.nonce

/-- The call has returned what a worker sent that was given this nonce and found
nothing wrong. -/
structure Probe.Healthy (py : ProbePython) (probe : Probe) : Prop where
  connect : probe.connect = .ok ()
  close : probe.close = .ok ()
  answered : ∃ seen body, probe.call.stage = .returned body ∧
    (⟨probe.client, probe.call.correlationId, Utf8.encode probe.nonce⟩, seen) ∈ probe.net.answered ∧
    echoHandler py seen (Utf8.encode probe.nonce) = some body ∧
    seen.select = .ok () ∧ seen.declare = .ok ()

theorem Probe.reached_of_check {py : ProbePython} {probe : Probe}
    (h : probe.check py = .ok .ok) : probe.connect = .ok () ∧ probe.close = .ok () ∧
      ∃ body, probe.call.stage = .returned body := by
  simp only [Probe.check, workerEchoCheck, withConnection] at h
  split at h
  · cases h
  · rename_i hconnect
    split at h
    · rename_i hclose
      refine ⟨hconnect, hclose, ?_⟩
      cases hstage : probe.call.stage with
      | returned body => exact ⟨body, rfl⟩
      | _ => simp [Probe.reply, hstage, guarded, bind, Except.bind] at h
    · cases h

theorem Probe.Sent.check_eq {py : ProbePython} {probe : Probe} (hjson : ReadsTexts py.json)
    (h : probe.Sent py) (hconnect : probe.connect = .ok ()) (hclose : probe.close = .ok ())
    {body : List UInt8} (hreturned : probe.call.stage = .returned body) :
    ∃ seen, (⟨probe.client, probe.call.correlationId, Utf8.encode probe.nonce⟩, seen) ∈
        probe.net.answered ∧
      echoHandler py seen (Utf8.encode probe.nonce) = some body ∧
      probe.check py = .ok (workerStatus py seen) := by
  obtain ⟨client, hclient, hcall⟩ := h.call
  obtain ⟨request, hrequest, hc, hcid, seen, hseen, hbody⟩ :=
    (netSound_of_reachable h.reachable).answered_of_returned hclient hcall hreturned
  have hpayload := h.payload request hrequest hc hcid
  have heq : request = ⟨probe.client, probe.call.correlationId, Utf8.encode probe.nonce⟩ := by
    rw [← hc, ← hcid, ← hpayload]
  rw [hpayload] at hbody
  refine ⟨seen, heq ▸ hseen, hbody, ?_⟩
  rw [Probe.check, Probe.reply, hconnect, hclose, hreturned]
  exact workerEchoCheck_of_answer hjson h.scalar hbody

theorem Probe.Sent.check_ok_iff {py : ProbePython} {probe : Probe} (hjson : ReadsTexts py.json)
    (h : probe.Sent py) : probe.check py = .ok .ok ↔ probe.Healthy py := by
  constructor
  · intro hcheck
    obtain ⟨hconnect, hclose, body, hreturned⟩ := Probe.reached_of_check hcheck
    obtain ⟨seen, hseen, hbody, hstatus⟩ := h.check_eq hjson hconnect hclose hreturned
    rw [hstatus] at hcheck
    exact ⟨hconnect, hclose, seen, body, hreturned, hseen, hbody,
      workerStatus_eq_ok.1 (Except.ok.inj hcheck)⟩
  · intro hhealthy
    obtain ⟨seen, body, hreturned, _, hbody, hseen⟩ := hhealthy.answered
    rw [Probe.check, Probe.reply, hhealthy.connect, hhealthy.close, hreturned]
    rw [← @workerStatus_eq_ok py] at hseen
    rw [← hseen]
    exact workerEchoCheck_of_answer hjson h.scalar hbody

/-- A gateway answers with 200 exactly when each of its checks got through to a
worker, and that worker, given the nonce of this check, found its database and
its queue in order. A check that got through reports what its worker found. -/
theorem health_gateway (py : ProbePython) (hjson : ReadsTexts py.json) (probes : List Probe)
    (hsent : ∀ probe ∈ probes, probe.Sent py) :
    ((∃ results, healthRoute (probes.map fun probe => (probe.name, probe.check py)) =
      .ok (200, results)) ↔ ∀ probe ∈ probes, probe.Healthy py) ∧
    ∀ probe ∈ probes, ∀ body, probe.connect = .ok () → probe.close = .ok () →
      probe.call.stage = .returned body →
        ∃ seen, (⟨probe.client, probe.call.correlationId, Utf8.encode probe.nonce⟩, seen) ∈
            probe.net.answered ∧
          echoHandler py seen (Utf8.encode probe.nonce) = some body ∧
          probe.check py = .ok (workerStatus py seen) := by
  refine ⟨?_, fun probe hprobe body hconnect hclose hreturned =>
    (hsent probe hprobe).check_eq hjson hconnect hclose hreturned⟩
  rw [healthRoute_ok_iff, List.forall_mem_map]
  exact forall₂_congr fun probe hprobe => (hsent probe hprobe).check_ok_iff hjson

def plainProbePython : ProbePython where
  json := plainLoads
  format := plainFormat
  format_str := plainFormat_str
  reprValue _ := []
  reprExc _ := str "Exception()"
  scalar_reprExc _ := scalar_of_all rfl

/-- The worker dies after it has replied, and its request is answered again. -/
def probeRun : List (NetAction Dependencies) :=
  [ .create, .call 0 (str "c1") (Utf8.encode (str "6e")), .land 0, .event 0 0 .published, .take,
    .run 0 ⟨.ok (), .ok ()⟩, .publishReply 0, .workerDies 0, .take, .run 0 ⟨.ok (), .ok ()⟩,
    .publishReply 0, .ack 0, .arrive 1, .event 0 0 .returns, .arrive 0 ]

def probedNet : RpcNet Dependencies :=
  (exec (netStep (echoHandler plainProbePython)) .fresh probeRun).getD .fresh

def echoReply : List UInt8 :=
  (echoHandler plainProbePython ⟨.ok (), .ok ()⟩ (Utf8.encode (str "6e"))).getD []

def healthyProbe : Probe where
  name := str "match_scheduler"
  nonce := str "6e"
  net := probedNet
  client := 0
  call := ⟨str "c1", .result echoReply, .returned echoReply, none, [echoReply]⟩
  connect := .ok ()
  close := .ok ()
  raised := ⟨.timeoutError, []⟩

theorem health_gateway_redelivered :
    ∃ results, healthRoute [(healthyProbe.name, healthyProbe.check plainProbePython)] =
      .ok (200, results) := by
  have hrun : Reachable (netStep (echoHandler plainProbePython)) .fresh probedNet :=
    reachable_of_exec probeRun rfl
  have hsent : healthyProbe.Sent plainProbePython := by
    refine ⟨hrun, ⟨_, rfl, List.mem_cons_self⟩, fun request hrequest _ _ => ?_, scalar_of_all rfl⟩
    have hone : probedNet.sent = [⟨0, str "c1", Utf8.encode (str "6e")⟩] := rfl
    rw [show healthyProbe.net.sent = _ from hone, List.mem_singleton] at hrequest
    rw [hrequest]
    rfl
  have hhealthy : healthyProbe.Healthy plainProbePython :=
    ⟨rfl, rfl, ⟨.ok (), .ok ()⟩, echoReply, rfl, List.mem_cons_self, rfl, rfl, rfl⟩
  exact (health_gateway plainProbePython readsTexts_plainLoads [healthyProbe]
    (List.forall_mem_singleton.2 hsent)).1.2 (List.forall_mem_singleton.2 hhealthy)

end TictactoeBots
