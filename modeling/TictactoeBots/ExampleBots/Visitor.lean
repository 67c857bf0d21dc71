import TictactoeBots.Web.PlayTurn
import TictactoeBots.Web.SameJudgement
import TictactoeBots.ExampleBots.Unbeaten

/-!
A visitor of the play page against the second perfect bot.

The board that the program prints gets to the page through the turn server, the
client and the handler of the site, and it is the board that the page shows
next. So the game on the page is one in which the bot makes its own moves, and
no page that the visitor can get to shows a line of theirs.
-/

namespace TictactoeBots

open Text Python GameValue StepSystem
open PlayState (Page PageEvent pageStep turnPage gameContext gridOf place Undecided Progress Phase
  AddsBotMark sideOf)

/-- A reply is what the handler of the site has answered to the post of the
page, with a run of the program in the pod. -/
def AnsweredBy (json : JsonLoads) (program : BotProgram) (page : Page) : PageEvent → Prop
  | .replied i newBoardStr =>
      ∃ post urlopen coreV1 byId payload process reply,
        page.requests[i]? = some post ∧
        TurnRequest.botSymbol payload = post.botSymbol ∧
        TurnRequest.board payload = post.board ∧
        RunsProgram program process ∧
        (∀ ip, ReplyArrives json urlopen process ip payload.botSymbol payload.board
          defaultTurnTimeout) ∧
        handlePlayTurn json urlopen coreV1 byId payload = .ok (.board reply) ∧
        newBoardStr = Json.utf16 reply
  | _ => True

/-! ### From the program to the page -/

theorem requestBotTurn_of_answer {json : JsonLoads} {urlopen : Urlopen}
    {coreV1 : Except PyException CoreV1} {byId : ℤ → Except PyException (Option BotRow)}
    {payload : TurnRequest} {reply : Str}
    (h : handlePlayTurn json urlopen coreV1 byId payload = .ok (.board reply)) :
    ∃ ip, requestBotTurn json urlopen ip payload.botSymbol payload.board defaultTurnTimeout =
      .ok reply := by
  obtain ⟨bot, _, h⟩ := exists_of_bind_eq_ok h
  split at h
  · cases h
  · split at h
    · split at h
      · rename_i newBoard hcall
        obtain ⟨core, _, hcall⟩ := exists_of_bind_eq_ok hcall
        obtain ⟨ip, _, hcall⟩ := exists_of_bind_eq_ok hcall
        obtain rfl : newBoard = reply := PlayTurnResponse.board.inj (Except.ok.inj h)
        split at hcall
        · cases hcall
        · exact ⟨_, hcall⟩
      · split at h <;> cases h
    · cases h

theorem handlePlayTurn_of_reply {json : JsonLoads} {urlopen : Urlopen} {coreV1 : CoreV1}
    {byId : ℤ → Except PyException (Option BotRow)} {payload : TurnRequest} {bot : BotRow}
    {podName ip reply : Str} (hbot : byId payload.botId = .ok (some bot))
    (hready : bot.podReady = true) (hpod : bot.podName = some podName)
    (hip : Web.getPodIp coreV1 podName = .ok (some ip))
    (hreply : requestBotTurn json urlopen ip payload.botSymbol payload.board defaultTurnTimeout =
      .ok reply) :
    handlePlayTurn json urlopen (.ok coreV1) byId payload = .ok (.board reply) := by
  have hcall : callBot json urlopen (.ok coreV1) podName payload.botSymbol payload.board =
      .ok reply := by
    simp [callBot, hip, hreply, bind, Except.bind]
  rw [handlePlayTurn, hbot]
  simp only [bind, Except.bind, hready, hpod, hcall]
  rfl

theorem reply_of_runs {json : JsonLoads} {urlopen : Urlopen} {process : BotProcess}
    {program : BotProgram} {player : Player} {podIp : Str} {board newBoard : Board} {timeout : ℚ}
    {reply : Str} (hruns : RunsProgram program process) (hmove : program player board = some newBoard)
    (harrives : ReplyArrives json urlopen process podIp player.symbol.text (boardToStr board)
      timeout)
    (h : requestBotTurn json urlopen podIp player.symbol.text (boardToStr board) timeout =
      .ok reply) : reply = boardToStr newBoard := by
  obtain ⟨content, arrived, hopen, hrun, hloads⟩ := harrives
  obtain ⟨-, -, rfl⟩ := runBot_eq_ok_iff.1 hrun
  rw [hruns.reply_eq hmove] at hloads
  rw [requestBotTurn_of_board hopen hloads] at h
  split at h
  · split at h
    · exact (Except.ok.inj h).symm
    · cases h
  · cases h

section Page

variable {ctx : PlayState.Ctx} {human : Player} {page page' : Page} {event : PageEvent}
  {json : JsonLoads} {n : ℕ} {board newBoard : Board}

theorem turnPage_inj {n' : ℕ} {board' : Board}
    (h : turnPage ctx human n board = turnPage ctx human n' board') :
    board = board' ∧ mover n = mover n' := by
  have hstate := congrArg Page.state h
  rw [PlayState.turnPage_state, PlayState.turnPage_state, PlayState.State.mk.injEq,
    PlayState.gridOf_injective.eq_iff] at hstate
  refine ⟨hstate.1, ?_⟩
  have hside := hstate.2.1
  rcases PlayState.eq_or_eq_other human (mover n) with hn | hn <;>
    rcases PlayState.eq_or_eq_other human (mover n') with hn' | hn' <;>
      simp [sideOf, hn, hn', PlayState.other_ne] at hside ⊢

theorem afterMove_board {next : PlayState.Whose} {state : PlayState.State}
    (h : PlayState.afterMove ctx (gridOf board) next = .ok state) :
    state.board = gridOf board := by
  cases hout : checkWinner board with
  | none =>
      rw [PlayState.afterMove_of_open ctx next hout] at h
      rw [← Except.ok.inj h]
  | some outcome =>
      rw [PlayState.afterMove_of_winner ctx next hout] at h
      rw [← Except.ok.inj h]

theorem shown_of_answer (hbot : ctx.botSymbol = human.other.symbol.text)
    {program : BotProgram} (hmover : mover n = human.other)
    (hmove : program human.other board = some newBoard) {i : ℕ} {text : Str}
    (hanswer : AnsweredBy json program (turnPage ctx human n board) (.replied i text))
    (hstep : pageStep ctx (turnPage ctx human n board) (.replied i text) = some page') :
    AddsBotMark ctx (turnPage ctx human n board) (.replied i text) ∧
      page'.state.board = gridOf newBoard := by
  obtain ⟨post, urlopen, coreV1, byId, payload, process, reply, hpost, hsymbol, hboard, hruns,
    harrives, hhandled, rfl⟩ := hanswer
  have hpage := PlayState.turnPage_of_bot ctx board hmover
  obtain ⟨rfl, rfl⟩ : i = 0 ∧
      post = ⟨ctx.botId, ctx.botSymbol, PlayState.boardToStr (gridOf board)⟩ := by
    rw [hpage] at hpost
    cases i with
    | zero => exact ⟨rfl, (Option.some.inj hpost).symm⟩
    | succ i => exact absurd hpost (by simp)
  simp only [PlayState.boardToStr_gridOf, hbot] at hsymbol hboard
  obtain ⟨ip, hrequest⟩ := requestBotTurn_of_answer hhandled
  have harrived := harrives ip
  rw [hsymbol, hboard] at hrequest harrived
  obtain rfl := reply_of_runs hruns hmove harrived hrequest
  have hplain := plainBoardText_boardToStr newBoard
  have hsame : Json.utf16 (boardToStr newBoard) = boardToStr newBoard :=
    Json.utf16_of_lt fun c hc => by
      have hlt := val_lt_of_plain hplain c hc
      omega
  have hshown : PlayState.parseBoard (boardToStr newBoard) = gridOf newBoard :=
    hplain.parseBoard_eq (parseBoard_boardToStr newBoard)
  rw [hsame] at hstep ⊢
  refine ⟨?_, ?_⟩
  · have hreply : requestBotTurn json urlopen ip ctx.botSymbol (PlayState.boardToStr (gridOf board))
        defaultTurnTimeout = .ok (boardToStr newBoard) := by
      rw [hbot]
      simpa only [PlayState.boardToStr_gridOf] using hrequest
    exact addsBotMark_of_reply hpost (plainBoardText_gridOf board) hreply hplain
  · obtain ⟨state, hstate, _⟩ := PlayState.exists_afterMove ctx newBoard .human
    have happly : PlayState.applyBotMove (turnPage ctx human n board).state ctx
        (boardToStr newBoard) = .ok state := by
      rw [hpage, PlayState.applyBotMove, hshown]
      exact hstate
    rw [pageStep, happly, hpage] at hstep
    rw [← Option.some.inj hstep]
    exact afterMove_board hstate

/-- A game in which the visitor has no line and the bot cannot be made to lose. -/
inductive Safe (ctx : PlayState.Ctx) (human : Player) : Page → Prop
  | turn {n : ℕ} {board : Board} (hboard : Undecided n board)
      (hforces : Forces (playGame human.other) 0 (board, mover n)) :
      Safe ctx human (turnPage ctx human n board)
  | finished {n : ℕ} {board : Board} {status : Str}
      (hturns : PositionalGame.Turns mover n board.position) (hline : ¬HasLine board human) :
      Safe ctx human ⟨⟨gridOf board, .over, status, true⟩, []⟩

theorem Safe.phase (h : Safe ctx human page) : Phase ctx human page := by
  cases h with
  | turn hboard _ => exact .turn hboard
  | finished hturns _ => exact .finished hturns

theorem Safe.not_hasLine (h : Safe ctx human page) (hshown : page.state.board = gridOf board) :
    ¬HasLine board human := by
  cases h with
  | turn hboard _ =>
      rw [PlayState.turnPage_state, PlayState.gridOf_injective.eq_iff] at hshown
      exact hshown ▸ hboard.noLine human
  | finished _ hline =>
      rw [PlayState.gridOf_injective.eq_iff] at hshown
      exact hshown ▸ hline

theorem bot_moved (hbot : ctx.botSymbol = human.other.symbol.text) (hmover : mover n = human.other)
    (hboard : Undecided n board)
    (hanswer : AnsweredBy json perfectBotV2 (turnPage ctx human n board) event)
    (hevent : ∀ i reason, event ≠ .failed i reason)
    (hstep : pageStep ctx (turnPage ctx human n board) event = some page')
    (hadds : AddsOne (mover n).symbol board newBoard)
    (hshown : page'.state.board = gridOf newBoard) :
    perfectBotV2 human.other board = some newBoard := by
  obtain ⟨r, c, hempty, hmove⟩ := legal_perfectBot true human.other board
    (checkWinner_eq_none_iff.2 ⟨hboard.noLine, hboard.notFull⟩)
  cases event with
  | click index =>
      have hwhose : (turnPage ctx human n board).state.whose ≠ .human := by
        simp [PlayState.turnPage_of_bot ctx board hmover]
      rw [pageStep, PlayState.applyHumanMove_of_not_human index hwhose] at hstep
      rw [← Option.some.inj hstep, PlayState.turnPage_state,
        PlayState.gridOf_injective.eq_iff] at hshown
      obtain ⟨r', c', hdot, hnew, _⟩ := hadds
      rw [← hshown, hdot] at hnew
      exact absurd hnew (mover n).symbol_ne_dot.symm
  | failed i reason => exact absurd rfl (hevent i reason)
  | replied i text =>
      obtain ⟨_, hmoved⟩ := shown_of_answer hbot hmover hmove hanswer hstep
      rw [hshown, PlayState.gridOf_injective.eq_iff] at hmoved
      rw [hmoved]
      exact hmove

theorem addsBotMark_of_answer (hbot : ctx.botSymbol = human.other.symbol.text)
    (hphase : Phase ctx human page) (hanswer : AnsweredBy json perfectBotV2 page event)
    (hstep : pageStep ctx page event = some page') : AddsBotMark ctx page event := by
  cases event with
  | click index => trivial
  | failed i reason => trivial
  | replied i text =>
      have hpost := hanswer
      obtain ⟨post, _, _, _, _, _, _, hpost, _⟩ := hpost
      cases hphase with
      | finished _ => simp at hpost
      | @turn n board hboard =>
          rcases PlayState.eq_or_eq_other human (mover n) with hmover | hmover
          · simp [PlayState.turnPage_of_human ctx board hmover] at hpost
          · obtain ⟨r, c, hempty, hmove⟩ := legal_perfectBot true human.other board
              (checkWinner_eq_none_iff.2 ⟨hboard.noLine, hboard.notFull⟩)
            exact (shown_of_answer hbot hmover hmove hanswer hstep).1

theorem line_owner_of_undecided (hboard : Undecided n board)
    (hadds : AddsOne (mover n).symbol board newBoard) {p : Player} (hline : HasLine newBoard p) :
    p = mover n :=
  (addsOne_iff_places.1 hadds).line_owner
    (fun hold => hboard.noLine p (hasLine_iff_position.2 hold)) (hasLine_iff_position.1 hline)

theorem Safe.step (hhuman : ctx.humanSymbol = human.symbol.text)
    (hbot : ctx.botSymbol = human.other.symbol.text) (hsafe : Safe ctx human page)
    (hanswer : AnsweredBy json perfectBotV2 page event)
    (hstep : pageStep ctx page event = some page') : Safe ctx human page' := by
  have hreply := addsBotMark_of_answer hbot hsafe.phase hanswer hstep
  have hprogress := hsafe.phase.progress hhuman hbot hreply hstep
  have hmoved : ∀ {n board newBoard}, Undecided n board → page = turnPage ctx human n board →
      (∀ i reason, event ≠ .failed i reason) → AddsOne (mover n).symbol board newBoard →
        page'.state.board = gridOf newBoard →
          Forces (playGame human.other) 0 (newBoard, mover (n + 1)) := by
    intro n board newBoard hboard hpage hevent hadds hshown
    cases hsafe with
    | finished _ _ =>
        have hended := congrArg (fun p : Page => p.state.ended) hpage
        simp at hended
    | turn hboard' hforces =>
        obtain ⟨rfl, hmover⟩ := turnPage_inj hpage
        rw [hmover] at hforces
        apply forces_turn hforces (checkWinner_eq_none_iff.2 ⟨hboard.noLine, hboard.notFull⟩) hadds
        intro hturn
        rw [hpage] at hanswer hstep
        exact bot_moved hbot hturn hboard hanswer hevent hstep hadds hshown
  cases hprogress with
  | stays _ => exact hsafe
  | forfeits hopen =>
      cases hsafe with
      | finished _ _ => exact absurd rfl hopen
      | turn hboard _ =>
          rw [PlayState.applyForfeit, PlayState.turnPage_state]
          exact .finished hboard.turns (hboard.noLine human)
  | moves hboard hpage hevent hadds hout =>
      exact .turn (hboard.next hadds hout) (hmoved hboard hpage hevent hadds (by simp))
  | decides hboard hpage hevent hadds hout =>
      have hloss := not_loss_of_forces (hmoved hboard hpage hevent hadds rfl) hout
      refine .finished (hboard.turns_succ hadds) fun hline => ?_
      have hother : human.other.other = human := by cases human <;> rfl
      rcases checkWinner_eq_some hout with ⟨p, rfl, hp⟩ | ⟨rfl, hnone, _⟩
      · rw [hother, line_owner_of_undecided hboard hadds hp,
          ← line_owner_of_undecided hboard hadds hline] at hloss
        exact hloss rfl
      · exact hnone human hline

end Page

/-- Whatever the order of clicks, failed requests and answers with the moves of
the second perfect bot, no page that the visitor gets to shows a line of
theirs. -/
theorem visitor_never_wins (json : JsonLoads) (botId : ℕ) (botName playerName : Str)
    (human : Player) {page : Page}
    (h : Via (pageStep (gameContext botId botName playerName human)) (AnsweredBy json perfectBotV2)
      (PlayState.init (gameContext botId botName playerName human)) page) :
    ∃ board, page.state.board = gridOf board ∧ ¬HasLine board human := by
  have hsafe : Safe (gameContext botId botName playerName human) human page := by
    induction h with
    | start =>
        rw [PlayState.init_eq]
        exact .turn ⟨.start, by decide, by decide⟩ (forces_emptyBoard human.other)
    | next event _ hanswer hstep ih => exact ih.step rfl rfl hanswer hstep
  obtain ⟨_, board, hshown, _⟩ := hsafe.phase.legal.game
  exact ⟨board, hshown, hsafe.not_hasLine hshown⟩

theorem exists_answer (ctx : PlayState.Ctx) (human : Player) (n : ℕ) {program : BotProgram}
    {board newBoard : Board} (hbot : ctx.botSymbol = human.other.symbol.text)
    (hmover : mover n = human.other) (hmove : program human.other board = some newBoard)
    (hadds : AddsOne human.other.symbol board newBoard) :
    ∃ text page', AnsweredBy plainLoads program (turnPage ctx human n board) (.replied 0 text) ∧
      pageStep ctx (turnPage ctx human n board) (.replied 0 text) = some page' ∧
      page'.state.board = gridOf newBoard := by
  have hpage := PlayState.turnPage_of_bot ctx board hmover
  have harrives : ∀ ip, ReplyArrives plainLoads
      (answering plainPodPython program.process) program.process ip human.other.symbol.text
      (boardToStr board) defaultTurnTimeout := fun ip =>
    Serves.replyArrives (fun _ _ _ => rfl) readsTexts_plainLoads readsTexts_plainLoads
      (scalar_symbol _) (scalar_of_plain (plainBoardText_boardToStr board))
      (replies_process program (by decide +kernel) _)
  obtain ⟨reply, hreply, _⟩ := (requestBotTurn_of_arrives (harrives (str "10.0.0.1")) newBoard).2
    (((runs_process program).printsMove_iff hmove newBoard).2 ⟨rfl, hadds⟩)
  have hsymbol : human.other.symbol.text ∈ [str "X", str "O"] := by
    cases human <;> simp [Player.other, Player.symbol, Cell.text]
  have hanswer : AnsweredBy plainLoads program (turnPage ctx human n board)
      (.replied 0 (Json.utf16 reply)) := by
    refine ⟨⟨ctx.botId, ctx.botSymbol, PlayState.boardToStr (gridOf board)⟩,
      answering plainPodPython program.process, .ok (everyPodAt (str "10.0.0.1")),
      fun _ => .ok (some readyBot), ⟨1, human.other.symbol.text, boardToStr board, hsymbol⟩,
      program.process, reply, ?_, hbot.symm, (PlayState.boardToStr_gridOf board).symm,
      runs_process program, harrives, ?_, rfl⟩
    · rw [hpage]
      rfl
    · exact handlePlayTurn_of_reply rfl rfl rfl rfl hreply
  obtain ⟨page', hstep⟩ : ∃ page', pageStep ctx (turnPage ctx human n board)
      (.replied 0 (Json.utf16 reply)) = some page' := by
    rw [pageStep, hpage, if_pos (by simp)]
    split <;> exact ⟨_, rfl⟩
  exact ⟨_, page', hanswer, hstep, (shown_of_answer hbot hmover hmove hanswer hstep).2⟩

/-- The visitor has taken the middle, and the bot has answered. -/
theorem visitor_never_wins_answeredPage :
    ∃ (page : Page) (newBoard : Board),
      perfectBotV2 .o (place emptyBoard 1 1 .X) = some newBoard ∧
      page.state.board = gridOf newBoard ∧
      ∃ board, page.state.board = gridOf board ∧ ¬HasLine board .x := by
  have hopen : checkWinner (place emptyBoard 1 1 .X) = none := by decide
  obtain ⟨r, c, hempty, hmove⟩ :=
    legal_perfectBot true .o (place emptyBoard 1 1 .X) hopen
  obtain ⟨text, page, hanswer, hstep, hshown⟩ := exists_answer
    (gameContext 1 (str "Foo") (str "Ann") .x) .x 1 rfl rfl hmove (PlayState.addsOne_place hempty)
  have hclick : Via (pageStep (gameContext 1 (str "Foo") (str "Ann") .x))
      (AnsweredBy plainLoads perfectBotV2)
      (PlayState.init (gameContext 1 (str "Foo") (str "Ann") .x))
      (turnPage (gameContext 1 (str "Foo") (str "Ann") .x) .x 1 (place emptyBoard 1 1 .X)) :=
    .next (.click 4) .start trivial rfl
  exact ⟨page, _, hmove, hshown, visitor_never_wins plainLoads 1 (str "Foo") (str "Ann") .x
    (hclick.next (.replied 0 text) hanswer hstep)⟩

end TictactoeBots
