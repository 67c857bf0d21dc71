import TictactoeBots.Dispatcher.MatchRunner

/-!
The turn server of a bot pod: one run of the bot as a subprocess, turned into
the reply.

The process is a parameter, as what it does with its input. Its two outputs are
decoded strictly, so their texts have no surrogates in them. The JSON in which
the reply travels gives back the same `dict`. There may be no reply: an
exception that leaves `_run_bot` closes the connection, and the client waits
for its own time only.
-/

namespace TictactoeBots

open Text Python

/-! ### The process -/

/-- What decoding the bytes of an output gives. -/
structure DecodedText where
  text : Str
  scalar : Scalar text

/-- How `subprocess.run` ends. The return code is negative for a process that a
signal has killed; `failed` is any other exception, with its text. -/
inductive ProcessEnd where
  | completed (returncode : ℤ) (stdout stderr : DecodedText)
  | timedOut
  | failed (text : DecodedText)

/-- One call of `_run_bot`, as far as its surroundings and the bot decide it. -/
structure BotRun where
  written : Except PyException Unit
  ending : ProcessEnd
  /-- `os.unlink`, which raises if the bot has removed the file. -/
  unlinked : Except PyException Unit
  /-- From the request to the reply. -/
  seconds : ℚ
  limit : ending = .timedOut → 10 ≤ seconds

/-- What the bot makes of its standard input. -/
abbrev BotProcess := Str → BotRun

/-- The `dict` that `_run_bot` returns. -/
def ProcessEnd.reply : ProcessEnd → PyValue
  | .timedOut => .obj [(str "error", .str (str "timeout after 10s"))]
  | .failed text => .obj [(str "error", .str (str "runtime error: " ++ text.text))]
  | .completed _ stdout stderr =>
      let stdout := strip stdout.text
      if stdout.isEmpty then
        let stderr := strip stderr.text
        let detail := if stderr.isEmpty then [] else str ": " ++ stderr
        .obj [(str "error", .str (str "invalid output: empty response" ++ detail))]
      else .obj [(str "board", .str stdout)]

def runBot (process : BotProcess) (symbol board : Str) : Except PyException PyValue := do
  let run := process (symbol ++ str "\n" ++ board)
  run.written
  -- the `finally` clause, which comes before any of the `return`s
  run.unlinked
  return run.ending.reply

/-! ### The client -/

/-- The exception of a connection that is closed without a response. -/
def remoteDisconnected : PyException :=
  ⟨.remoteDisconnected, str "Remote end closed connection without response"⟩

/-- What a client that waits for `timeout` gets of a response after `seconds`. -/
def received {α : Type} (timeout seconds : ℚ) (response : Except PyException α) :
    Except PyException α :=
  if timeout ≤ seconds then .error ⟨.timeoutError, str "timed out"⟩
  else response.mapError fun _ => remoteDisconnected

/-- `TurnResponse(board=data.get("board"), error=data.get("error"))`. -/
def turnResponse (data : PyValue) : Except PyException TurnResponse := do
  let board ← getField data (str "board")
  let error ← getField data (str "error")
  return { board := board, error := error }

theorem requestTurn_eq_bind (json : JsonLoads) (urlopen : Urlopen) (podIp symbol board : Str)
    (timeout : ℚ) :
    requestTurn json urlopen podIp symbol board timeout =
      urlopen (turnRequest podIp symbol board) timeout >>= fun content =>
        json.loads content >>= turnResponse :=
  rfl

theorem requestTurn_of_loads {json : JsonLoads} {urlopen : Urlopen} {podIp symbol board : Str}
    {timeout : ℚ} {content : List UInt8} {data : PyValue}
    (hopen : urlopen (turnRequest podIp symbol board) timeout = .ok content)
    (hloads : json.loads content = .ok data) :
    requestTurn json urlopen podIp symbol board timeout = turnResponse data := by
  rw [requestTurn_eq_bind, hopen]
  show (json.loads content >>= _) = _
  rw [hloads]
  rfl

/-- `request_turn` to a turn server, which may find a different process at work
each time. -/
def askTurnServer (processes : ℕ → BotProcess) : ℕ → AskPod := fun k _ symbol board timeout => do
  let run := processes k (symbol ++ str "\n" ++ board)
  let data ← received timeout run.seconds (runBot (processes k) symbol board)
  turnResponse data

/-- The run has a reply, and within the time of the client. -/
structure BotRun.Replies (run : BotRun) (timeout : ℚ) : Prop where
  written : run.written = .ok ()
  unlinked : run.unlinked = .ok ()
  inTime : run.seconds < timeout

theorem BotRun.not_replies_of_timedOut {run : BotRun} {timeout : ℚ} (htimeout : timeout ≤ 10)
    (h : run.ending = .timedOut) : ¬run.Replies timeout := by
  intro hreplies
  have hlimit := run.limit h
  have hlate : run.seconds < 10 := hreplies.inTime.trans_le htimeout
  exact absurd hlimit (not_le.2 hlate)

theorem runBot_eq_ok_iff {process : BotProcess} {symbol board : Str} {reply : PyValue} :
    runBot process symbol board = .ok reply ↔
      (process (symbol ++ str "\n" ++ board)).written = .ok () ∧
      (process (symbol ++ str "\n" ++ board)).unlinked = .ok () ∧
      (process (symbol ++ str "\n" ++ board)).ending.reply = reply := by
  rw [runBot]
  cases (process (symbol ++ str "\n" ++ board)).written with
  | error exc => simp [bind, Except.bind]
  | ok _ =>
      cases (process (symbol ++ str "\n" ++ board)).unlinked with
      | error exc => simp [bind, Except.bind]
      | ok _ => simp [bind, Except.bind, pure, Except.pure]

/-- What a client gets of a run: its `dict`, or an exception that is no
`URLError`. -/
theorem received_runBot (process : BotProcess) (symbol board : Str) (timeout : ℚ) :
    let run := process (symbol ++ str "\n" ++ board)
    (run.Replies timeout ∧
      received timeout run.seconds (runBot process symbol board) = .ok run.ending.reply) ∨
    (¬run.Replies timeout ∧ ∃ exc,
      received timeout run.seconds (runBot process symbol board) = .error exc ∧
        exc.isA .urlError = false) := by
  intro run
  by_cases hlate : timeout ≤ run.seconds
  · refine .inr ⟨fun h => absurd h.inTime (not_lt.2 hlate), ⟨.timeoutError, str "timed out"⟩, ?_,
      rfl⟩
    rw [received, if_pos hlate]
  · rw [received, if_neg hlate]
    cases hrun : runBot process symbol board with
    | ok reply =>
        obtain ⟨hwritten, hunlinked, hreply⟩ := runBot_eq_ok_iff.1 hrun
        exact .inl ⟨⟨hwritten, hunlinked, not_le.1 hlate⟩, congrArg Except.ok hreply.symm⟩
    | error exc =>
        refine .inr ⟨fun h => ?_, remoteDisconnected, rfl, rfl⟩
        rw [runBot_eq_ok_iff.2 ⟨h.written, h.unlinked, rfl⟩] at hrun
        cases hrun

/-- What `request_turn` makes of a run: the fields of its `dict`, or that
exception. -/
theorem askTurnServer_eq (processes : ℕ → BotProcess) (k : ℕ) (podIp symbol board : Str)
    (timeout : ℚ) :
    let run := processes k (symbol ++ str "\n" ++ board)
    let exchange := askTurnServer processes k podIp symbol board timeout
    (run.Replies timeout ∧ exchange = turnResponse run.ending.reply) ∨
    (¬run.Replies timeout ∧ ∃ exc, exchange = .error exc ∧ exc.isA .urlError = false) := by
  intro run exchange
  have hexchange : exchange =
      received timeout run.seconds (runBot (processes k) symbol board) >>= turnResponse := rfl
  rcases received_runBot (processes k) symbol board timeout with
    ⟨hreplies, hreceived⟩ | ⟨hnot, exc, hreceived, hclass⟩
  · exact .inl ⟨hreplies, by rw [hexchange, hreceived]; rfl⟩
  · exact .inr ⟨hnot, exc, by rw [hexchange, hreceived]; rfl, hclass⟩

/-- Every `dict` has one text, which is not empty: an error, or the stripped
output. -/
theorem ProcessEnd.reply_cases (ending : ProcessEnd) :
    (∃ text, text ≠ [] ∧ ending.reply = .obj [(str "error", .str text)] ∧
      ∀ returncode stdout stderr, ending = .completed returncode stdout stderr →
        strip stdout.text = []) ∨
    (∃ returncode stdout stderr, ending = .completed returncode stdout stderr ∧
      strip stdout.text ≠ [] ∧ ending.reply = .obj [(str "board", .str (strip stdout.text))]) := by
  cases ending with
  | timedOut => exact .inl ⟨str "timeout after 10s", by decide, rfl, by simp⟩
  | failed text => exact .inl ⟨str "runtime error: " ++ text.text, by simp [str], rfl, by simp⟩
  | completed returncode stdout stderr =>
      by_cases hblank : strip stdout.text = []
      · refine .inl ⟨_, ?_, by simp only [reply, hblank, List.isEmpty_nil, if_true]; rfl, ?_⟩
        · simp [str]
        · rintro _ _ _ ⟨⟩
          exact hblank
      · refine .inr ⟨returncode, stdout, stderr, rfl, hblank, ?_⟩
        simp [reply, hblank]

def promptRun (returncode : ℤ) (stdout stderr : DecodedText) : BotRun where
  written := .ok ()
  ending := .completed returncode stdout stderr
  unlinked := .ok ()
  seconds := 0
  limit := by simp

end TictactoeBots
