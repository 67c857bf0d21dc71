import TictactoeBots.Dispatcher.ForfeitRule
import TictactoeBots.Web.BotClient

/-!
The tournament and the play page judge a bot alike.

The dispatcher has a grid and validates the grid that it reads off the reply;
the play page has a text, reads both boards from texts and checks the change
with code of its own. Each of them is shown to accept the moves that the bot
has printed and nothing else.
-/

namespace TictactoeBots

open Text Python

/-! ### The two validations -/

theorem validateOneSymbolPlaced_iff {old new : Board} {player : Player} :
    validateOneSymbolPlaced old new player.symbol.text ↔ AddsOne player.symbol old new := by
  constructor
  · intro h
    obtain ⟨r, c, hold, _, hsymbol, hrest⟩ := addsMark_of_validate h
    exact ⟨r, c, hold, Cell.text_injective hsymbol, hrest⟩
  · rintro ⟨r, c, hold, hnew, hrest⟩
    have hchanges : changes old new = [(r, c)] := by
      refine changes_eq_singleton.2 fun rc => ⟨fun hdiff => ?_, ?_⟩
      · by_contra hne
        exact hdiff (hrest rc.1 rc.2 hne).symm
      · rintro rfl
        rw [hold, hnew]
        exact player.symbol_ne_dot.symm
    simp [validateOneSymbolPlaced, hchanges, hold, hnew]

section Turn

variable {json : JsonLoads} {urlopen : Urlopen} {process : BotProcess} {player : Player}
  {podIp : Str} {board : Board} {timeout : ℚ}

theorem requestBotTurn_of_board {symbol text boardText : Str} {content : List UInt8}
    (hopen : urlopen (turnRequest podIp symbol boardText) timeout = .ok content)
    (hloads : json.loads content = .ok (.obj [(str "board", .str text)])) :
    requestBotTurn json urlopen podIp symbol boardText timeout =
      match parseBoardStrict boardText, parseBoardStrict text with
      | some old, some new =>
          if validateOneSymbolPlaced old new symbol then .ok text else .error invalidMove
      | _, _ => .error invalidMove := by
  rw [requestBotTurn, hopen]
  change (decodeReply (json.loads content) >>= _) = _
  rw [hloads]
  rfl

theorem requestBotTurn_of_arrives
    (hreply : ReplyArrives json urlopen process podIp player.symbol.text
      (boardToStr board) timeout) (newBoard : Board) :
    (∃ reply, requestBotTurn json urlopen podIp player.symbol.text (boardToStr board) timeout =
        .ok reply ∧ parseBoardStrict reply = some newBoard) ↔
      (process (player.symbol.text ++ str "\n" ++ boardToStr board)).PrintsMove
        player.symbol board newBoard := by
  obtain ⟨content, reply, hopen, hrun, hloads⟩ := hreply
  obtain ⟨-, -, rfl⟩ := runBot_eq_ok_iff.1 hrun
  rcases ProcessEnd.reply_cases
      (process (player.symbol.text ++ str "\n" ++ boardToStr board)).ending with
    ⟨text, _, hreply, hblank⟩ | ⟨returncode, stdout, stderr, hend, _, hreply⟩
  · have hweb : requestBotTurn json urlopen podIp player.symbol.text (boardToStr board) timeout =
        .error invalidMove := by
      rw [requestBotTurn, hopen]
      change (decodeReply (json.loads content) >>= _) = _
      rw [hloads, hreply]
      rfl
    rw [hweb]
    constructor
    · rintro ⟨reply, hok, _⟩
      exact absurd hok (by simp)
    · rintro ⟨returncode, stdout, stderr, hend, hparse, _⟩
      rw [hblank returncode stdout stderr hend, parseBoard_nil] at hparse
      exact absurd hparse (by simp)
  · rw [requestBotTurn_of_board hopen (hloads.trans (congrArg Except.ok hreply)),
      parseBoardStrict, parseBoardStrict, parseBoard_boardToStr]
    constructor
    · rintro ⟨reply, hok, hparse⟩
      cases hnew : parseBoard (strip stdout.text) with
      | none =>
          rw [hnew] at hok
          exact absurd hok (by simp)
      | some new =>
          simp only [hnew] at hok
          split at hok
          · rename_i hvalid
            rw [← Except.ok.inj hok, parseBoardStrict, hnew, Option.some.injEq] at hparse
            rw [hparse] at hvalid
            exact ⟨returncode, stdout, stderr, hend, hnew.trans (congrArg some hparse),
              validateOneSymbolPlaced_iff.1 hvalid⟩
          · exact absurd hok (by simp)
    · rintro ⟨_, stdout', _, hend', hparse, hadds⟩
      rw [hend, ProcessEnd.completed.injEq] at hend'
      obtain ⟨-, rfl, -⟩ := hend'
      refine ⟨strip stdout.text, ?_, hparse⟩
      rw [hparse]
      simp [validateOneSymbolPlaced_iff.2 hadds]

end Turn

/-- On the reply of one run of a bot, the dispatcher accepts a move exactly
when the play page accepts it, and both are then at the same board. -/
theorem judged_alike (U : UnicodeData) (json : JsonLoads) (urlopen webUrlopen : Urlopen)
    (process : BotProcess) (player : Player) (podIp webPodIp : Str) (board : Board)
    (timeout webTimeout : ℚ)
    (hreply : ReplyArrives json urlopen process podIp player.symbol.text (boardToStr board)
      timeout)
    (hweb : ReplyArrives json webUrlopen process webPodIp player.symbol.text (boardToStr board)
      webTimeout) :
    ((∃ newBoard, playTurn U (requestTurn json urlopen) player.symbol podIp board timeout =
        .ok (.accepted newBoard)) ↔
      ∃ reply, requestBotTurn json webUrlopen webPodIp player.symbol.text (boardToStr board)
        webTimeout = .ok reply) ∧
    ∀ newBoard reply,
      playTurn U (requestTurn json urlopen) player.symbol podIp board timeout =
          .ok (.accepted newBoard) →
        requestBotTurn json webUrlopen webPodIp player.symbol.text (boardToStr board) webTimeout =
            .ok reply →
          parseBoardStrict reply = some newBoard := by
  have hprints := requestBotTurn_of_arrives hweb
  have hparsed : ∀ reply, requestBotTurn json webUrlopen webPodIp player.symbol.text
      (boardToStr board) webTimeout = .ok reply → ∃ new, parseBoardStrict reply = some new :=
    fun reply hok => (requestBotTurn_ok hok).elim fun _ h => h.elim fun new h => ⟨new, h.2.1⟩
  rcases playTurn_of_arrives U hreply with ⟨newBoard, hplay, hmove⟩ | ⟨⟨error, hplay⟩, hnone⟩
  · obtain ⟨text, htext, hnew⟩ := (hprints newBoard).2 hmove
    refine ⟨⟨fun _ => ⟨text, htext⟩, fun _ => ⟨newBoard, hplay⟩⟩, fun accepted reply ha hr => ?_⟩
    rw [hplay, Except.ok.injEq, TurnOutcome.accepted.injEq] at ha
    rw [htext, Except.ok.injEq] at hr
    rw [← ha, ← hr, hnew]
  · refine ⟨⟨?_, ?_⟩, fun accepted reply ha _ => ?_⟩
    · rintro ⟨newBoard, haccepted⟩
      rw [hplay] at haccepted
      exact absurd haccepted (by simp)
    · rintro ⟨reply, hok⟩
      obtain ⟨new, hnew⟩ := hparsed reply hok
      exact absurd ((hprints new).1 ⟨reply, hok, hnew⟩) (hnone new)
    · rw [hplay] at ha
      exact absurd ha (by simp)

theorem judged_alike_firstCell :
    ((∃ newBoard, playTurn asciiData (requestTurn (decodesReply feedReply) (repliesWith feedReply))
        .X (str "10.0.0.1") emptyBoard 10 = .ok (.accepted newBoard)) ↔
      ∃ reply, requestBotTurn (decodesReply feedReply) (repliesWith feedReply) (str "10.0.0.1")
        (str "X") (boardToStr emptyBoard) 15 = .ok reply) ∧
    ∀ newBoard reply,
      playTurn asciiData (requestTurn (decodesReply feedReply) (repliesWith feedReply)) .X
          (str "10.0.0.1") emptyBoard 10 = .ok (.accepted newBoard) →
        requestBotTurn (decodesReply feedReply) (repliesWith feedReply) (str "10.0.0.1") (str "X")
            (boardToStr emptyBoard) 15 = .ok reply →
          parseBoardStrict reply = some newBoard :=
  judged_alike asciiData (decodesReply feedReply) (repliesWith feedReply) (repliesWith feedReply)
    (printsFirstCell 0) .x (str "10.0.0.1") (str "10.0.0.1") emptyBoard 10 15
    ⟨_, _, rfl, rfl, rfl⟩ ⟨_, _, rfl, rfl, rfl⟩

end TictactoeBots
