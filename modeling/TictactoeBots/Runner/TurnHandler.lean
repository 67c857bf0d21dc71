import TictactoeBots.Lib.JsonLoads
import TictactoeBots.Dispatcher.ForfeitRule
import TictactoeBots.Dispatcher.StorableOutcomes

/-!
The HTTP handler of the turn server, and a turn request from end to end.

The client posts a JSON object and reads one back. Both are objects of texts,
so neither of the two encodings changes what the other side has written: the
client gets what the one run of the bot was turned into, if it waits for it.
Whatever else is posted, a handler that answers does so with one of the two
fields that the client looks for, or with an error status.
-/

namespace TictactoeBots

open Text Python

/-! ### The handler -/

/-- What the handler takes from its interpreter: the decoder, `str(v)` in a
formatted string, and the text of the exception of `v["…"]` on a value that is
not a `dict`, which is not the same in all the versions that are in use. -/
structure PodPython where
  json : JsonLoads
  format : PyValue → Str
  format_str : ∀ s, format (.str s) = s
  notSubscriptable : PyValue → Str

structure HttpResponse where
  status : ℕ
  headers : List (Str × Str)
  body : List UInt8

def jsonResponse (status : ℕ) (fields : List (Str × Str)) : HttpResponse where
  status := status
  headers := [(str "Content-Type", str "application/json")]
  body := encodeAscii (Json.dumps (Json.textObject fields))

/-- `payload[key]`, or the text of the exception. -/
def subscript (py : PodPython) (payload : PyValue) (key : Str) : Except Str PyValue :=
  match payload with
  | .obj fields =>
      match Json.lookup key fields with
      | some v => .ok v
      | none => .error (str "'" ++ key ++ str "'")
  | v => .error (py.notSubscriptable v)

/-- The `try` block of `do_POST`. -/
def readTurn (py : PodPython) (body : List UInt8) : Except Str (PyValue × PyValue) := do
  let payload ←
    match py.json.loads body with
    | .ok payload => .ok payload
    | .error exc => .error exc.text
  let symbol ← subscript py payload (str "symbol")
  let board ← subscript py payload (str "board")
  return (symbol, board)

/-- The fields of the `dict` that `_run_bot` returns, which are texts. -/
def replyFields : PyValue → List (Str × Str)
  | .obj fields => fields.map fun (key, v) => (key, match v with | .str text => text | _ => [])
  | _ => []

/-- `do_POST`, for a body of the announced length. An exception of `_run_bot`
leaves it before a response has been sent. -/
def doPost (py : PodPython) (process : BotProcess) (path : Str) (body : List UInt8) :
    Except PyException HttpResponse :=
  if path ≠ str "/turn" then .ok ⟨404, [], []⟩
  else
    match readTurn py body with
    | .error text => .ok (jsonResponse 400 [(str "error", str "bad request: " ++ text)])
    | .ok (symbol, board) => do
        let result ← runBot process (py.format symbol) (py.format board)
        return jsonResponse 200 (replyFields result)

def postSeconds (py : PodPython) (process : BotProcess) (body : List UInt8) : ℚ :=
  match readTurn py body with
  | .error _ => 0
  | .ok (symbol, board) => (process (py.format symbol ++ str "\n" ++ py.format board)).seconds

/-! ### The client's end -/

/-- What `urlopen` makes of a response. -/
def openResponse (response : HttpResponse) : Except PyException (List UInt8) :=
  match response.status with
  | 200 => .ok response.body
  | 400 => .error ⟨.httpError, str "HTTP Error 400: Bad Request"⟩
  | _ => .error ⟨.httpError, str "HTTP Error 404: Not Found"⟩

/-- A request for a turn to a pod that serves `process`. -/
def answering (py : PodPython) (process : BotProcess) : Urlopen := fun request timeout => do
  let body := encodeAscii request.data
  let response ← received timeout (postSeconds py process body)
    (doPost py process (str "/turn") body)
  openResponse response

/-- The turn server at `podIp` is the one that serves `process`. -/
def Serves (py : PodPython) (process : BotProcess) (urlopen : Urlopen) (podIp : Str) : Prop :=
  ∀ request timeout,
    request.url = str "http://" ++ podIp ++ str ":" ++ decimal turnPort ++ str "/turn" →
      urlopen request timeout = answering py process request timeout

/-! ### A turn from end to end -/

theorem ProcessEnd.reply_eq_textObject (ending : ProcessEnd) :
    ∃ key text, (key = str "error" ∨ key = str "board") ∧ text ≠ [] ∧
      ending.reply = Json.textObject [(key, text)] := by
  rcases ending.reply_cases with ⟨text, hne, hreply, _⟩ | ⟨_, stdout, _, _, hne, hreply⟩
  · exact ⟨str "error", text, .inl rfl, hne, hreply⟩
  · exact ⟨str "board", strip stdout.text, .inr rfl, hne, hreply⟩

theorem ProcessEnd.scalar_reply {ending : ProcessEnd} {key text : Str}
    (h : ending.reply = Json.textObject [(key, text)]) : Scalar text := by
  have htext : ∀ {key' text' : Str}, (Json.textObject [(key', text')] : PyValue) =
      Json.textObject [(key, text)] → text' = text := by
    intro key' text' heq
    simp only [Json.textObject, Json.stringFields, List.map_cons, List.map_nil,
      Json.Value.obj.injEq, List.cons.injEq, Prod.mk.injEq, Json.Value.str.injEq, and_true] at heq
    exact heq.2
  cases ending with
  | timedOut => exact htext h ▸ scalar_of_all rfl
  | failed failure => exact htext h ▸ scalar_append (scalar_of_all rfl) failure.scalar
  | completed returncode stdout stderr =>
      simp only [reply] at h
      split at h
      · refine htext h ▸ scalar_append (scalar_of_all rfl) ?_
        split
        · exact scalar_of_all rfl
        · exact scalar_append (scalar_of_all rfl) (scalar_strip stderr.scalar)
      · exact htext h ▸ scalar_strip stdout.scalar

theorem scalar_field {ending : ProcessEnd} {key text : Str}
    (hkey : key = str "error" ∨ key = str "board")
    (hreply : ending.reply = Json.textObject [(key, text)]) :
    ∀ field ∈ [(key, text)], Scalar field.1 ∧ Scalar field.2 := by
  rw [List.forall_mem_singleton]
  refine ⟨?_, ending.scalar_reply hreply⟩
  rcases hkey with rfl | rfl <;> exact scalar_of_all rfl

theorem openResponse_reply {json : JsonLoads} (hjson : ReadsTexts json) (ending : ProcessEnd) :
    ∃ content, openResponse (jsonResponse 200 (replyFields ending.reply)) = .ok content ∧
      json.loads content = .ok ending.reply := by
  obtain ⟨key, text, hkey, _, hreply⟩ := ending.reply_eq_textObject
  refine ⟨(jsonResponse 200 [(key, text)]).body, ?_, ?_⟩
  · rw [hreply]
    rfl
  · rw [hreply]
    exact hjson _ (scalar_field hkey hreply)

theorem readTurn_turnRequest {py : PodPython} (hjson : ReadsTexts py.json) {symbol board : Str}
    (hsymbol : Scalar symbol) (hboard : Scalar board) (podIp : Str) :
    readTurn py (encodeAscii (turnRequest podIp symbol board).data) =
      .ok (.str symbol, .str board) := by
  have hloads := hjson [(str "symbol", symbol), (str "board", board)] (by
    simp only [List.forall_mem_cons, List.not_mem_nil, false_imp_iff, implies_true, and_true]
    exact ⟨⟨scalar_of_all rfl, hsymbol⟩, scalar_of_all rfl, hboard⟩)
  have hdata : (turnRequest podIp symbol board).data =
      Json.dumps (Json.textObject [(str "symbol", symbol), (str "board", board)]) := rfl
  rw [readTurn, hdata, hloads]
  rfl

section Serves

variable {py : PodPython} {process : BotProcess} {urlopen : Urlopen} {podIp : Str}
  {json : JsonLoads} {symbol board : Str}

theorem Serves.urlopen_eq (hserves : Serves py process urlopen podIp)
    (hserver : ReadsTexts py.json) (hsymbol : Scalar symbol) (hboard : Scalar board)
    (timeout : ℚ) :
    urlopen (turnRequest podIp symbol board) timeout =
      received timeout (process (symbol ++ str "\n" ++ board)).seconds
          (runBot process symbol board) >>= fun reply =>
        openResponse (jsonResponse 200 (replyFields reply)) := by
  have hread := readTurn_turnRequest hserver hsymbol hboard podIp
  rw [hserves _ _ rfl, answering]
  simp only [postSeconds, doPost, ne_eq, not_true_eq_false, if_false, hread, py.format_str]
  rw [received, received]
  split
  · rfl
  · cases runBot process symbol board <;> rfl

theorem Serves.requestTurn_eq (hserves : Serves py process urlopen podIp)
    (hserver : ReadsTexts py.json) (hclient : ReadsTexts json) (hsymbol : Scalar symbol)
    (hboard : Scalar board) (timeout : ℚ) :
    requestTurn json urlopen podIp symbol board timeout =
      askTurnServer (fun _ => process) 0 podIp symbol board timeout := by
  rw [requestTurn_eq_bind, hserves.urlopen_eq hserver hsymbol hboard, askTurnServer]
  rcases received_runBot process symbol board timeout with
    ⟨_, hreceived⟩ | ⟨_, exc, hreceived, _⟩
  · obtain ⟨content, hopen, hloads⟩ :=
      openResponse_reply hclient (process (symbol ++ str "\n" ++ board)).ending
    simp only [hreceived, bind, Except.bind, hopen, hloads]
  · rw [hreceived]
    rfl

/-- The reply of the turn server arrives if it comes in time. -/
theorem Serves.replyArrives (hserves : Serves py process urlopen podIp)
    (hserver : ReadsTexts py.json) (hclient : ReadsTexts json)
    (hsymbol : Scalar symbol) (hboard : Scalar board) {timeout : ℚ}
    (hreplies : (process (symbol ++ str "\n" ++ board)).Replies timeout) :
    ReplyArrives json urlopen process podIp symbol board timeout := by
  obtain ⟨content, hopen, hloads⟩ :=
    openResponse_reply hclient (process (symbol ++ str "\n" ++ board)).ending
  refine ⟨content, _, ?_, runBot_eq_ok_iff.2 ⟨hreplies.written, hreplies.unlinked, rfl⟩, hloads⟩
  rw [hserves.urlopen_eq hserver hsymbol hboard, received, if_neg (not_le.2 hreplies.inTime),
    runBot_eq_ok_iff.2 ⟨hreplies.written, hreplies.unlinked, rfl⟩]
  exact hopen

end Serves

/-- A request for a turn to a turn server, for every symbol and every board text,
is the call of `request_turn` that the game loop is modelled with: the two fields
of what `_run_bot` has made of the run, if the run has a reply within the time of
the client, and an exception that is no `URLError` if it has none. Whatever is
posted, a request that is answered gives an object with one text, a board or an
error, or a `URLError`; one that is not answered has started a run that raised. -/
theorem turn_end_to_end (py : PodPython) (process : BotProcess) (urlopen : Urlopen)
    (podIp : Str) (json : JsonLoads) (hserver : ReadsTexts py.json) (hclient : ReadsTexts json)
    (hserves : Serves py process urlopen podIp) :
    (∀ symbol board timeout, Scalar symbol → Scalar board →
      let turn := requestTurn json urlopen podIp symbol board timeout
      let run := process (symbol ++ str "\n" ++ board)
      turn = askTurnServer (fun _ => process) 0 podIp symbol board timeout ∧
      (run.Replies timeout → turn = turnResponse run.ending.reply) ∧
      (¬run.Replies timeout → ∃ exc, turn = .error exc ∧ exc.isA .urlError = false)) ∧
    ∀ body,
      (∃ response content key text, doPost py process (str "/turn") body = .ok response ∧
        openResponse response = .ok content ∧ (key = str "error" ∨ key = str "board") ∧
          text ≠ [] ∧ json.loads content = .ok (Json.textObject [(key, text)])) ∨
      (∃ response exc, doPost py process (str "/turn") body = .ok response ∧
        openResponse response = .error exc ∧ exc.isA .urlError) ∨
      ∃ symbol board exc, readTurn py body = .ok (symbol, board) ∧
        runBot process (py.format symbol) (py.format board) = .error exc ∧
        doPost py process (str "/turn") body = .error exc := by
  refine ⟨fun symbol board timeout hsymbol hboard => ?_, fun body => ?_⟩
  · intro turn run
    have hturn := hserves.requestTurn_eq hserver hclient hsymbol hboard timeout
    refine ⟨hturn, fun hreplies => ?_, fun hnot => ?_⟩
    all_goals rcases askTurnServer_eq (fun _ => process) 0 podIp symbol board timeout with
      ⟨hreplies', hask⟩ | ⟨hnot', hexc⟩
    · exact hturn.trans hask
    · exact absurd hreplies hnot'
    · exact absurd hreplies' hnot
    · obtain ⟨exc, hask, hclass⟩ := hexc
      exact ⟨exc, hturn.trans hask, hclass⟩
  · simp only [doPost, ne_eq, not_true_eq_false, if_false]
    cases readTurn py body with
    | error text => exact .inr (.inl ⟨_, _, rfl, rfl, rfl⟩)
    | ok turn =>
        cases hrun : runBot process (py.format turn.1) (py.format turn.2) with
        | error exc => exact .inr (.inr ⟨turn.1, turn.2, exc, rfl, hrun, by simp only [hrun]; rfl⟩)
        | ok reply =>
            obtain ⟨-, -, rfl⟩ := runBot_eq_ok_iff.1 hrun
            obtain ⟨content, hopen, hloads⟩ := openResponse_reply hclient
              (process (py.format turn.1 ++ str "\n" ++ py.format turn.2)).ending
            obtain ⟨key, text, hkey, hne, hreply⟩ := ProcessEnd.reply_eq_textObject
              (process (py.format turn.1 ++ str "\n" ++ py.format turn.2)).ending
            refine .inl ⟨_, content, key, text, by simp only [hrun]; rfl, hopen, hkey, hne, ?_⟩
            rw [hloads, hreply]

def plainPodPython : PodPython where
  json := plainLoads
  format := plainFormat
  format_str := plainFormat_str
  notSubscriptable v := str "'" ++ typeName v ++ str "' object is not subscriptable"

/-- A bot that takes the first cell, asked for the first move of a match. -/
theorem turn_end_to_end_firstCell :
    requestTurn plainLoads (answering plainPodPython (printsFirstCell 0)) (str "10.0.0.1")
        (str "X") (str ".|.|.\n.|.|.\n.|.|.") 10 =
      .ok ⟨.str (str "X|.|.\n.|.|.\n.|.|."), .null⟩ :=
  ((turn_end_to_end plainPodPython (printsFirstCell 0)
    (answering plainPodPython (printsFirstCell 0)) (str "10.0.0.1") plainLoads
    readsTexts_plainLoads readsTexts_plainLoads fun _ _ _ => rfl).1 _ _ 10
      (scalar_of_all rfl) (scalar_of_all rfl)).2.1 ⟨rfl, rfl, by decide +kernel⟩

end TictactoeBots
