import TictactoeBots.Web.BotClient
import TictactoeBots.Entities.Tables

/-!
`POST /play/turn`: the request that the play page makes for the bot's move.

`request_bot_turn` is meant to end in a checked board or in a `BotForfeit`, which
the handler turns into an answer for the page. The clauses of the client name
three classes of exceptions and its code calls a method of the decoded value,
so the ends that are meant are the only ones exactly where no other exception
arises and the value is an object.
-/

namespace TictactoeBots

open Text Python

/-! ### The handler -/

/-- `kubernetes.client.exceptions.ApiException`. -/
def apiException : ExcClass := .other (str "ApiException")

/-- The `get_pod_ip` of the play page, for which a missing pod is no exception. -/
def Web.getPodIp (coreV1 : CoreV1) (podName : Str) : Except PyException (Option Str) :=
  match coreV1.readNamespacedPod podName podNamespace with
  | .error exc => if exc.isA apiException then .ok none else .error exc
  | .ok pod =>
      match pod.status.podIp with
      | none | some [] => .ok none
      | some ip => .ok (some ip)

def defaultTurnTimeout : ℚ := 10

/-- The body of the request. The pattern `^[XO]$` leaves two symbols. -/
structure TurnRequest where
  botId : ℤ
  botSymbol : Str
  board : Str
  botSymbol_mem : botSymbol ∈ [str "X", str "O"]

/-- The page for a bot that cannot be played, or one of the two JSON answers. -/
inductive PlayTurnResponse where
  | notFound
  | error (reason : Str)
  | board (newBoard : Str)

/-- `_call_bot`, where `coreV1` is what `get_core_v1` returns or raises. -/
def callBot (json : JsonLoads) (urlopen : Urlopen) (coreV1 : Except PyException CoreV1)
    (podName symbol board : Str) : Except PyException Str := do
  match ← Web.getPodIp (← coreV1) podName with
  | none => .error (botForfeit (str "Bot is unavailable"))
  | some ip => requestBotTurn json urlopen ip symbol board defaultTurnTimeout

/-- `byId` is the select for the bot. -/
def handlePlayTurn (json : JsonLoads) (urlopen : Urlopen) (coreV1 : Except PyException CoreV1)
    (byId : ℤ → Except PyException (Option BotRow)) (payload : TurnRequest) :
    Except PyException PlayTurnResponse := do
  match ← byId payload.botId with
  | none => return .notFound
  | some bot =>
      match bot.podReady, bot.podName with
      | true, some podName =>
          match callBot json urlopen coreV1 podName payload.botSymbol payload.board with
          | .ok newBoard => return .board newBoard
          | .error exc =>
              if exc.isA (.other (str "BotForfeit")) then return .error exc.text else throw exc
      | _, _ => return .notFound

/-! ### The ends that are meant -/

/-- `request_bot_turn` returns a text that is read as the posted board with one
more `symbol`, or raises `BotForfeit`. -/
def MoveOrForfeit (symbol board : Str) (outcome : Except PyException Str) : Prop :=
  (∃ reply old new, outcome = .ok reply ∧ parseBoardStrict board = some old ∧
    parseBoardStrict reply = some new ∧ AddsMark symbol old new) ∨
  (∃ reason, outcome = .error (botForfeit reason))

/-- The handler answers with a board or with a reason. -/
def Answers (response : Except PyException PlayTurnResponse) : Prop :=
  (∃ newBoard, response = .ok (.board newBoard)) ∨ (∃ reason, response = .ok (.error reason))

/-- The exchange raised an exception that is caught, or its body is decoded to
an object or refused with a `JSONDecodeError`. -/
def Anticipated (json : JsonLoads) (exchange : Except PyException (List UInt8)) : Prop :=
  match exchange with
  | .error exc =>
      exc.isA .timeoutError ∨ exc.isA .urlError ∨ ∃ reason, exc = botForfeit reason
  | .ok content =>
      match json.loads content with
      | .error exc => exc.isA .jsonDecodeError
      | .ok payload => ∃ fields, payload = .obj fields

theorem moveOrForfeit_ok {symbol board reply : Str} {old new : Board}
    (hold : parseBoardStrict board = some old) (hnew : parseBoardStrict reply = some new)
    (hadds : AddsMark symbol old new) : MoveOrForfeit symbol board (.ok reply) :=
  .inl ⟨reply, old, new, rfl, hold, hnew, hadds⟩

theorem moveOrForfeit_error_iff {symbol board : Str} {exc : PyException} :
    MoveOrForfeit symbol board (.error exc) ↔ ∃ reason, exc = botForfeit reason := by
  simp [MoveOrForfeit]

theorem moveOrForfeit_of_object {json : JsonLoads} {urlopen : Urlopen}
    {podIp symbol board : Str} {timeout : ℚ} {content : List UInt8}
    {fields : List (Str × PyValue)}
    (hopen : urlopen (turnRequest podIp symbol board) timeout = .ok content)
    (hloads : json.loads content = .ok (.obj fields)) :
    MoveOrForfeit symbol board (requestBotTurn json urlopen podIp symbol board timeout) := by
  cases hrequest : requestBotTurn json urlopen podIp symbol board timeout with
  | ok reply =>
      obtain ⟨old, new, hold, hnew, hadds⟩ := requestBotTurn_ok hrequest
      exact moveOrForfeit_ok hold hnew hadds
  | error exc =>
      rw [moveOrForfeit_error_iff]
      -- every branch after the decoding raises the one forfeit
      suffices exc = invalidMove from ⟨_, this⟩
      rw [requestBotTurn, hopen] at hrequest
      change (decodeReply (json.loads content) >>= _) = _ at hrequest
      rw [hloads] at hrequest
      simp only [decodeReply, getField, bind, Except.bind] at hrequest
      split at hrequest
      · split at hrequest
        · split at hrequest
          · cases hrequest
          · exact (Except.error.inj hrequest).symm
        · exact (Except.error.inj hrequest).symm
      · exact (Except.error.inj hrequest).symm

/-- The two ends of `request_bot_turn` are the only ones exactly when the end
of the exchange is anticipated. -/
theorem moveOrForfeit_iff (json : JsonLoads) (urlopen : Urlopen) (podIp symbol board : Str)
    (timeout : ℚ) :
    MoveOrForfeit symbol board (requestBotTurn json urlopen podIp symbol board timeout) ↔
      Anticipated json (urlopen (turnRequest podIp symbol board) timeout) := by
  cases hexchange : urlopen (turnRequest podIp symbol board) timeout with
  | error exc =>
      have hrequest : requestBotTurn json urlopen podIp symbol board timeout =
          if exc.isA .timeoutError then .error (botForfeit (str "Bot took too long"))
          else if exc.isA .urlError then .error (botForfeit (str "Bot is unavailable"))
          else .error exc := by
        rw [requestBotTurn, hexchange, readReply]
        split_ifs <;> rfl
      rw [hrequest]
      simp only [Anticipated]
      split_ifs with htimeout hurl
      · exact iff_of_true (moveOrForfeit_error_iff.2 ⟨_, rfl⟩) (.inl htimeout)
      · exact iff_of_true (moveOrForfeit_error_iff.2 ⟨_, rfl⟩) (.inr (.inl hurl))
      · simp [moveOrForfeit_error_iff, htimeout, hurl]
  | ok content =>
      cases hloads : json.loads content with
      | error exc =>
          have hrequest : requestBotTurn json urlopen podIp symbol board timeout =
              if exc.isA .jsonDecodeError then .error invalidMove else .error exc := by
            rw [requestBotTurn, hexchange]
            change (decodeReply (json.loads content) >>= _) = _
            rw [hloads, decodeReply]
            split_ifs <;> rfl
          simp only [Anticipated, hloads]
          rw [hrequest]
          split_ifs with hdecode
          · exact iff_of_true (moveOrForfeit_error_iff.2 ⟨_, rfl⟩) hdecode
          · refine iff_of_false (fun h => ?_) hdecode
            obtain ⟨reason, rfl⟩ := moveOrForfeit_error_iff.1 h
            have hcls := json.loads_error hloads
            simp [botForfeit] at hcls
      | ok payload =>
          simp only [Anticipated, hloads]
          cases payload with
          | obj fields => exact iff_of_true (moveOrForfeit_of_object hexchange hloads) ⟨_, rfl⟩
          | null | bool b | num n | str s | arr items =>
              refine iff_of_false (fun h => ?_) (by simp)
              rw [requestBotTurn, hexchange] at h
              change MoveOrForfeit symbol board (decodeReply (json.loads content) >>= _) at h
              rw [hloads] at h
              obtain ⟨reason, hreason⟩ := moveOrForfeit_error_iff.1 h
              simp [noAttribute, botForfeit] at hreason

/-! ### The answer -/

theorem answers_iff_callBot {json : JsonLoads} {urlopen : Urlopen}
    {coreV1 : Except PyException CoreV1} {byId : ℤ → Except PyException (Option BotRow)}
    {payload : TurnRequest} {bot : BotRow} {podName : Str}
    (hbot : byId payload.botId = .ok (some bot)) (hready : bot.podReady = true)
    (hpod : bot.podName = some podName) :
    Answers (handlePlayTurn json urlopen coreV1 byId payload) ↔
      ∀ exc, callBot json urlopen coreV1 podName payload.botSymbol payload.board = .error exc →
        exc.isA (.other (str "BotForfeit")) := by
  rw [handlePlayTurn, hbot]
  simp only [bind, Except.bind, hready, hpod]
  cases hcall : callBot json urlopen coreV1 podName payload.botSymbol payload.board with
  | ok newBoard => simp [Answers, pure, Except.pure]
  | error exc =>
      by_cases hforfeit : exc.isA (.other (str "BotForfeit")) = true
      · simp [Answers, hforfeit, pure, Except.pure]
      · simp [Answers, hforfeit]

theorem isA_botForfeit_iff {exc : PyException} :
    exc.isA (.other (str "BotForfeit")) ↔ ∃ reason, exc = botForfeit reason := by
  obtain ⟨cls, text⟩ := exc
  constructor
  · intro h
    refine ⟨text, ?_⟩
    cases cls <;> simp [PyException.isA, ExcClass.mro] at h
    simp [botForfeit, h]
  · rintro ⟨reason, heq⟩
    rw [heq]
    simp [PyException.isA, ExcClass.mro, botForfeit]

theorem answers_of_noAddress {json : JsonLoads} {urlopen : Urlopen} {coreV1 : CoreV1}
    {byId : ℤ → Except PyException (Option BotRow)} {payload : TurnRequest} {bot : BotRow}
    {podName : Str} (hbot : byId payload.botId = .ok (some bot)) (hready : bot.podReady = true)
    (hpod : bot.podName = some podName) (hip : Web.getPodIp coreV1 podName = .ok none) :
    Answers (handlePlayTurn json urlopen (.ok coreV1) byId payload) := by
  apply (answers_iff_callBot hbot hready hpod).2
  intro exc hexc
  apply isA_botForfeit_iff.2
  have hcall : callBot json urlopen (.ok coreV1) podName payload.botSymbol payload.board =
      .error (botForfeit (str "Bot is unavailable")) := by
    simp [callBot, hip, bind, Except.bind]
  rw [hcall] at hexc
  exact ⟨_, (Except.error.inj hexc).symm⟩

/-- A request for a turn ends in a checked board or a `BotForfeit`, and the
handler answers with a board or a reason, exactly when the exchange with the pod
ends in one of the anticipated ways. -/
theorem turn_answered_iff (json : JsonLoads) (urlopen : Urlopen) (podIp symbol board : Str)
    (timeout : ℚ) (coreV1 : CoreV1) (byId : ℤ → Except PyException (Option BotRow))
    (payload : TurnRequest) (bot : BotRow) (podName ip : Str)
    (hbot : byId payload.botId = .ok (some bot)) (hready : bot.podReady = true)
    (hpod : bot.podName = some podName) (hip : Web.getPodIp coreV1 podName = .ok (some ip)) :
    (MoveOrForfeit symbol board (requestBotTurn json urlopen podIp symbol board timeout) ↔
      Anticipated json (urlopen (turnRequest podIp symbol board) timeout)) ∧
    (Answers (handlePlayTurn json urlopen (.ok coreV1) byId payload) ↔
      Anticipated json
        (urlopen (turnRequest ip payload.botSymbol payload.board) defaultTurnTimeout)) := by
  refine ⟨moveOrForfeit_iff json urlopen podIp symbol board timeout, ?_⟩
  have hcall : callBot json urlopen (.ok coreV1) podName payload.botSymbol payload.board =
      requestBotTurn json urlopen ip payload.botSymbol payload.board defaultTurnTimeout := by
    simp [callBot, hip, bind, Except.bind]
  rw [answers_iff_callBot hbot hready hpod, hcall, ← moveOrForfeit_iff]
  cases hrequest : requestBotTurn json urlopen ip payload.botSymbol payload.board
    defaultTurnTimeout with
  | ok reply =>
      obtain ⟨old, new, hold, hnew, hadds⟩ := requestBotTurn_ok hrequest
      exact iff_of_true (fun exc h => by cases h) (moveOrForfeit_ok hold hnew hadds)
  | error exc =>
      rw [moveOrForfeit_error_iff, ← isA_botForfeit_iff]
      exact ⟨fun h => h exc rfl, fun h raised hraised => Except.error.inj hraised ▸ h⟩

def everyPodAt (ip : Str) : CoreV1 := ⟨fun _ _ => .ok ⟨⟨some ip⟩⟩⟩

def readyBot : BotRow :=
  ⟨1, str "Foo", str "Foo", 1, [], none, str "3.14", str "python-3.14", some (str "bot-1"), true, 0⟩

def firstTurn : TurnRequest := ⟨1, str "X", emptyText, List.mem_cons_self⟩

theorem turn_answered_iff_feedReply :
    (MoveOrForfeit (str "X") emptyText (requestBotTurn (decodesReply feedReply)
        (repliesWith feedReply) (str "10.0.0.1") (str "X") emptyText 10) ↔
      Anticipated (decodesReply feedReply)
        (repliesWith feedReply (turnRequest (str "10.0.0.1") (str "X") emptyText) 10)) ∧
    (Answers (handlePlayTurn (decodesReply feedReply) (repliesWith feedReply)
        (.ok (everyPodAt (str "10.0.0.1"))) (fun _ => .ok (some readyBot)) firstTurn) ↔
      Anticipated (decodesReply feedReply) (repliesWith feedReply
        (turnRequest (str "10.0.0.1") firstTurn.botSymbol firstTurn.board) defaultTurnTimeout)) :=
  turn_answered_iff (decodesReply feedReply) (repliesWith feedReply) (str "10.0.0.1") (str "X")
    emptyText 10 (everyPodAt (str "10.0.0.1")) (fun _ => .ok (some readyBot)) firstTurn readyBot
    (str "bot-1") (str "10.0.0.1") rfl rfl rfl rfl

/-- The pod resets the connection: the exception leaves the client and the
handler, and the page gets no answer. -/
theorem connectionReset_escapes :
    ¬MoveOrForfeit (str "X") emptyText (requestBotTurn nothingDecodes
      (fun _ _ => .error ⟨.connectionResetError, str "Connection reset by peer"⟩)
      (str "10.0.0.1") (str "X") emptyText 10) ∧
    ¬Answers (handlePlayTurn nothingDecodes
      (fun _ _ => .error ⟨.connectionResetError, str "Connection reset by peer"⟩)
      (.ok (everyPodAt (str "10.0.0.1"))) (fun _ => .ok (some readyBot)) firstTurn) := by
  have hrequest : requestBotTurn nothingDecodes
      (fun _ _ => .error ⟨.connectionResetError, str "Connection reset by peer"⟩)
      (str "10.0.0.1") (str "X") emptyText 10 =
        .error ⟨.connectionResetError, str "Connection reset by peer"⟩ := rfl
  have hanswer : handlePlayTurn nothingDecodes
      (fun _ _ => .error ⟨.connectionResetError, str "Connection reset by peer"⟩)
      (.ok (everyPodAt (str "10.0.0.1"))) (fun _ => .ok (some readyBot)) firstTurn =
        .error ⟨.connectionResetError, str "Connection reset by peer"⟩ := rfl
  rw [hrequest, hanswer]
  simp [MoveOrForfeit, Answers, botForfeit]

end TictactoeBots
