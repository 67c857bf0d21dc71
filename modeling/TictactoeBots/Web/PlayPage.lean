import TictactoeBots.Lib.StepSystem
import TictactoeBots.Dispatcher.GameRuns
import TictactoeBots.Web.PlayState

/-!
The driver of the play page: clicks and answered requests, in any order.

`takeBotTurn` posts the board and waits, and the click handlers stay installed
while it does, so a page is the state together with the requests that are still
out. An event handler runs to its end before the next one starts.
-/

namespace TictactoeBots.PlayState

open Text StepSystem

/-- The context that `handle_play_game` renders into the page, `human` being
the side drawn for the visitor. -/
def gameContext (botId : ℕ) (botName playerName : Str) (human : Player) : Ctx where
  botId := decimal botId
  botName := botName
  playerName := playerName
  humanSymbol := human.symbol.text
  botSymbol := human.other.symbol.text

/-- The body of the request of `postTurn`. -/
structure TurnPost where
  botId : Str
  botSymbol : Str
  board : Str

structure Page where
  state : State
  requests : List TurnPost

/-- `takeBotTurn` up to its `await`. -/
def takeBotTurn (ctx : Ctx) (page : Page) : Page :=
  { page with requests :=
      page.requests ++ [⟨ctx.botId, ctx.botSymbol, boardToStr page.state.board⟩] }

/-- What `init` and the click handler do after they have set the state. -/
def handOver (ctx : Ctx) (page : Page) : Page :=
  if page.state.whose = .bot ∧ ¬page.state.ended then takeBotTurn ctx page else page

def init (ctx : Ctx) : Page := handOver ctx ⟨initialState ctx, []⟩

inductive PageEvent where
  | click (index : Fin 9)
  /-- `postTurn` throws an error with this message for the request `i`. -/
  | failed (i : ℕ) (reason : Str)
  /-- `postTurn` returns this text for the request `i`. -/
  | replied (i : ℕ) (newBoardStr : Str)

/-- One event; `none` when there is no such request. An exception in a click
handler leaves the page as it is, one in `takeBotTurn` is caught there. -/
def pageStep (ctx : Ctx) (page : Page) : PageEvent → Option Page
  | .click index =>
      match applyHumanMove page.state ctx index with
      | .ok (some state) => some (handOver ctx { page with state := state })
      | _ => some page
  | .failed i reason =>
      if i < page.requests.length then
        some ⟨applyForfeit page.state reason, page.requests.eraseIdx i⟩
      else none
  | .replied i newBoardStr =>
      if i < page.requests.length then
        match applyBotMove page.state ctx newBoardStr with
        | .ok state => some ⟨state, page.requests.eraseIdx i⟩
        | .error message => some ⟨applyForfeit page.state message, page.requests.eraseIdx i⟩
      else none

/-- A reply decodes to the posted board with one mark of the bot in a cell that
was empty. -/
def AddsBotMark (ctx : Ctx) (page : Page) : PageEvent → Prop
  | .replied i newBoardStr =>
      ∃ post, page.requests[i]? = some post ∧ ∃ r c : Fin 3,
        cellAt (parseBoard post.board) r c = .ok (some (str ".")) ∧
        parseBoard newBoardStr = setCell (parseBoard post.board) r c ctx.botSymbol
  | _ => True

/-! ### What a legal game is -/

/-- The value of `whose` in the turns of `p`. -/
def sideOf (human p : Player) : Whose := if p = human then .human else .bot

def markCount (board : Board) (p : Player) : ℕ := PositionalGame.marksOf p board.position

/-- The page shows a board of a game that has been played by the rules, and has
asked for a move exactly when it is the bot's turn. -/
structure LegalPage (human : Player) (page : Page) : Prop where
  atMostOne : page.requests.length ≤ 1
  onlyForBot : page.requests ≠ [] → page.state.whose = .bot
  ended_iff : page.state.ended ↔ page.state.whose = .over
  game : ∃ n board, page.state.board = gridOf board ∧
    PositionalGame.Turns mover n board.position ∧
    (¬page.state.ended → (∀ p, ¬HasLine board p) ∧ ¬Full board ∧
      ((page.state.whose = sideOf human .x ∧ markCount board .x = markCount board .o) ∨
        (page.state.whose = sideOf human .o ∧ markCount board .x = markCount board .o + 1)))

/-- No mark of `page` is gone or changed in `page'`, and if the game had ended
nothing has changed. -/
structure Extends (page page' : Page) : Prop where
  marks : ∀ (r c : Fin 3) (mark : Str), mark ≠ str "." →
    cellAt page.state.board r c = .ok (some mark) →
      cellAt page'.state.board r c = .ok (some mark)
  frozen : page.state.ended → page'.state = page.state

/-- The caption is that of the completed line, or of a full board without one.
If the two names differ, it can be read off the caption which it was. -/
structure NamesWinner (ctx : Ctx) (human : Player) (state : State) (board : Board) : Prop where
  shown : state.board = gridOf board
  one : (HasLine board human ∧ ¬HasLine board human.other) ∨
    (HasLine board human.other ∧ ¬HasLine board human) ∨
    ((∀ p, ¬HasLine board p) ∧ Full board)
  humanLine : HasLine board human → state.status = ctx.playerName ++ str " wins"
  botLine : HasLine board human.other → state.status = ctx.botName ++ str " wins"
  noLine : state.status = str "Cat game" ↔ ∀ p, ¬HasLine board p
  distinct : ctx.playerName ≠ ctx.botName →
    (state.status = ctx.playerName ++ str " wins" ↔ HasLine board human) ∧
    (state.status = ctx.botName ++ str " wins" ↔ HasLine board human.other)

/-! ### The two phases of a game -/

theorem mover_succ (n : ℕ) : mover (n + 1) = (mover n).other := by
  obtain hparity | hparity := Nat.mod_two_eq_zero_or_one n <;>
    simp [mover, Player.other, hparity, Nat.add_mod]

theorem eq_or_eq_other (p q : Player) : q = p ∨ q = p.other := by
  cases p <;> cases q <;> simp [Player.other]

theorem other_ne (p : Player) : p.other ≠ p := by
  cases p <;> simp [Player.other]

def turnPage (ctx : Ctx) (human : Player) (n : ℕ) (board : Board) : Page :=
  let whose := sideOf human (mover n)
  handOver ctx ⟨⟨gridOf board, whose, turnCaption ctx whose, false⟩, []⟩

@[simp] theorem handOver_state (ctx : Ctx) (page : Page) :
    (handOver ctx page).state = page.state := by
  unfold handOver
  split <;> rfl

@[simp] theorem turnPage_state (ctx : Ctx) (human : Player) (n : ℕ) (board : Board) :
    (turnPage ctx human n board).state = ⟨gridOf board, sideOf human (mover n),
      turnCaption ctx (sideOf human (mover n)), false⟩ :=
  handOver_state ctx _

theorem turnPage_requests (ctx : Ctx) (human : Player) (n : ℕ) (board : Board) :
    (turnPage ctx human n board).requests =
      if sideOf human (mover n) = .bot then
        [⟨ctx.botId, ctx.botSymbol, boardToStr (gridOf board)⟩]
      else [] := by
  cases hside : sideOf human (mover n) <;> simp [turnPage, handOver, takeBotTurn, hside]

/-- `n` turns have led to a board that decides nothing. -/
structure Undecided (n : ℕ) (board : Board) : Prop where
  turns : PositionalGame.Turns mover n board.position
  noLine : ∀ p, ¬HasLine board p
  notFull : ¬Full board

/-- Either a player is on the move on an undecided board, or the game is over
and no request is out. -/
inductive Phase (ctx : Ctx) (human : Player) : Page → Prop
  | turn {n : ℕ} {board : Board} :
      Undecided n board → Phase ctx human (turnPage ctx human n board)
  | finished {n : ℕ} {board : Board} {status : Str} :
      PositionalGame.Turns mover n board.position →
        Phase ctx human ⟨⟨gridOf board, .over, status, true⟩, []⟩

theorem turnPage_of_human (ctx : Ctx) {human : Player} {n : ℕ} (board : Board)
    (h : mover n = human) :
    turnPage ctx human n board = ⟨⟨gridOf board, .human, turnCaption ctx .human, false⟩, []⟩ := by
  simp [turnPage, handOver, sideOf, h]

theorem turnPage_of_bot (ctx : Ctx) {human : Player} {n : ℕ} (board : Board)
    (h : mover n = human.other) :
    turnPage ctx human n board = ⟨⟨gridOf board, .bot, turnCaption ctx .bot, false⟩,
      [⟨ctx.botId, ctx.botSymbol, boardToStr (gridOf board)⟩]⟩ := by
  simp [turnPage, handOver, sideOf, h, other_ne, takeBotTurn]

theorem init_eq (botId : ℕ) (botName playerName : Str) (human : Player) :
    init (gameContext botId botName playerName human) =
      turnPage (gameContext botId botName playerName human) human 0 emptyBoard := by
  cases human <;> rfl

/-! ### What an event does -/

/-- What an event makes of a page in the middle of a game: nothing, a forfeit,
or the move of the player whose turn it is. -/
inductive Progress (ctx : Ctx) (human : Player) (page : Page) : PageEvent → Page → Prop
  | stays {event : PageEvent} (hclick : ∃ index, event = .click index) :
      Progress ctx human page event page
  | forfeits {i : ℕ} {reason : Str} (hopen : ¬page.state.ended) :
      Progress ctx human page (.failed i reason) ⟨applyForfeit page.state reason, []⟩
  | moves {event : PageEvent} {n : ℕ} {board newBoard : Board}
      (hboard : Undecided n board)
      (hpage : page = turnPage ctx human n board)
      (hevent : ∀ i reason, event ≠ .failed i reason)
      (hadds : AddsOne (mover n).symbol board newBoard)
      (hout : TictactoeBots.checkWinner newBoard = none) :
      Progress ctx human page event (turnPage ctx human (n + 1) newBoard)
  | decides {event : PageEvent} {n : ℕ} {board newBoard : Board} {outcome : MatchOutcome}
      (hboard : Undecided n board)
      (hpage : page = turnPage ctx human n board)
      (hevent : ∀ i reason, event ≠ .failed i reason)
      (hadds : AddsOne (mover n).symbol board newBoard)
      (hout : TictactoeBots.checkWinner newBoard = some outcome) :
      Progress ctx human page event
        ⟨⟨gridOf newBoard, .over, endCaption ctx (winnerText outcome), true⟩, []⟩

section Game

variable {ctx : Ctx} {human : Player} {page page' : Page} {event : PageEvent}

theorem progress_move {n : ℕ} {board newBoard : Board} {state : State}
    (hboard : Undecided n board)
    (hevent : ∀ i reason, event ≠ .failed i reason)
    (hadds : AddsOne (mover n).symbol board newBoard)
    (hmove : afterMove ctx (gridOf newBoard) (sideOf human (mover (n + 1))) = .ok state)
    (hpage : page' = handOver ctx ⟨state, []⟩) :
    Progress ctx human (turnPage ctx human n board) event page' := by
  cases hout : TictactoeBots.checkWinner newBoard with
  | none =>
      rw [afterMove_of_open ctx _ hout, Except.ok.injEq] at hmove
      rw [hpage, ← hmove]
      exact .moves hboard rfl hevent hadds hout
  | some outcome =>
      rw [afterMove_of_winner ctx _ hout, Except.ok.injEq] at hmove
      rw [hpage, ← hmove]
      exact .decides hboard rfl hevent hadds hout

theorem exists_afterMove (ctx : Ctx) (board : Board) (next : Whose) :
    ∃ state, afterMove ctx (gridOf board) next = .ok state ∧
      (state.whose = next ∨ state.whose = .over) := by
  cases hout : TictactoeBots.checkWinner board with
  | none => exact ⟨_, afterMove_of_open ctx next hout, .inl rfl⟩
  | some outcome => exact ⟨_, afterMove_of_winner ctx next hout, .inr rfl⟩

theorem progress_human (hctx : ctx.humanSymbol = human.symbol.text) {n : ℕ} {board : Board}
    (hboard : Undecided n board) (hmover : mover n = human)
    (hstep : pageStep ctx (turnPage ctx human n board) event = some page') :
    Progress ctx human (turnPage ctx human n board) event page' := by
  have hpage := turnPage_of_human ctx board hmover
  have hnext : sideOf human (mover (n + 1)) = .bot := by
    simp [mover_succ, hmover, sideOf, other_ne]
  cases event with
  | click index =>
      by_cases hempty : board (rowOf index) (columnOf index) = .dot
      · let newBoard := place board (rowOf index) (columnOf index) human.symbol
        obtain ⟨state, hstate, _⟩ := exists_afterMove ctx newBoard .bot
        have hadds : AddsOne (mover n).symbol board newBoard := hmover ▸ addsOne_place hempty
        apply progress_move hboard (by simp) hadds (hnext ▸ hstate)
        rw [hpage, pageStep, applyHumanMove_of_empty hctx hempty, hstate] at hstep
        exact (Option.some.inj hstep).symm
      · rw [hpage, pageStep, applyHumanMove_of_taken ctx hempty, ← hpage] at hstep
        rw [← Option.some.inj hstep]
        exact .stays ⟨index, rfl⟩
  | failed i reason => simp [hpage, pageStep] at hstep
  | replied i newBoardStr => simp [hpage, pageStep] at hstep

theorem progress_bot (hctx : ctx.botSymbol = human.other.symbol.text) {n : ℕ} {board : Board}
    (hboard : Undecided n board) (hmover : mover n = human.other)
    (hreply : AddsBotMark ctx (turnPage ctx human n board) event)
    (hstep : pageStep ctx (turnPage ctx human n board) event = some page') :
    Progress ctx human (turnPage ctx human n board) event page' := by
  have hpage := turnPage_of_bot ctx board hmover
  have hnext : sideOf human (mover (n + 1)) = .human := by
    rw [mover_succ, hmover]
    cases human <;> rfl
  cases event with
  | click index =>
      rw [pageStep, applyHumanMove_of_not_human index (by simp [hpage])] at hstep
      rw [← Option.some.inj hstep]
      exact .stays ⟨index, rfl⟩
  | failed i reason =>
      have hopen : ¬(turnPage ctx human n board).state.ended := by simp [hpage]
      simp only [pageStep] at hstep
      split at hstep
      · rename_i hi
        obtain rfl : i = 0 := by simpa [hpage] using hi
        have hrest : (turnPage ctx human n board).requests.eraseIdx 0 = [] := by simp [hpage]
        rw [← Option.some.inj hstep, hrest]
        exact .forfeits hopen
      · exact absurd hstep (by simp)
  | replied i newBoardStr =>
      obtain ⟨post, hpost, r, c, hempty, hparsed⟩ := hreply
      obtain ⟨rfl, rfl⟩ : i = 0 ∧ post = ⟨ctx.botId, ctx.botSymbol, boardToStr (gridOf board)⟩ := by
        rw [hpage] at hpost
        cases i with
        | zero => exact ⟨rfl, (Option.some.inj hpost).symm⟩
        | succ i => exact absurd hpost (by simp)
      rw [parseBoard_boardToStr, cellAt_dot_iff] at hempty
      rw [parseBoard_boardToStr, hctx, setCell_gridOf] at hparsed
      let newBoard := place board r c human.other.symbol
      obtain ⟨state, hstate, hwhose⟩ := exists_afterMove ctx newBoard .human
      have hadds : AddsOne (mover n).symbol board newBoard := hmover ▸ addsOne_place hempty
      apply progress_move hboard (by simp) hadds (hnext ▸ hstate)
      have hmove : applyBotMove (turnPage ctx human n board).state ctx newBoardStr = .ok state := by
        rw [hpage, applyBotMove, hparsed]
        exact hstate
      have hkept : handOver ctx ⟨state, []⟩ = ⟨state, []⟩ := by
        apply if_neg
        intro hbot
        rw [hbot.1] at hwhose
        simp at hwhose
      rw [pageStep, hmove, hpage] at hstep
      rw [hkept]
      exact (Option.some.inj hstep).symm

/-- Everything an event can do to a page of the game. -/
theorem Phase.progress (hhuman : ctx.humanSymbol = human.symbol.text)
    (hbot : ctx.botSymbol = human.other.symbol.text) (hphase : Phase ctx human page)
    (hreply : AddsBotMark ctx page event) (hstep : pageStep ctx page event = some page') :
    Progress ctx human page event page' := by
  cases hphase with
  | @turn n board hboard =>
      rcases eq_or_eq_other human (mover n) with hmover | hmover
      · exact progress_human hhuman hboard hmover hstep
      · exact progress_bot hbot hboard hmover hreply hstep
  | finished _ =>
      cases event with
      | click index =>
          rw [pageStep, applyHumanMove_of_not_human index (by simp)] at hstep
          rw [← Option.some.inj hstep]
          exact .stays ⟨index, rfl⟩
      | failed i reason => simp [pageStep] at hstep
      | replied i newBoardStr => simp [pageStep] at hstep

/-! ### What it keeps -/

theorem Undecided.turns_succ {n : ℕ} {board newBoard : Board} (h : Undecided n board)
    (hadds : AddsOne (mover n).symbol board newBoard) :
    PositionalGame.Turns mover (n + 1) newBoard.position :=
  h.turns.turn (addsOne_iff_places.1 hadds)

theorem Undecided.next {n : ℕ} {board newBoard : Board} (h : Undecided n board)
    (hadds : AddsOne (mover n).symbol board newBoard)
    (hout : TictactoeBots.checkWinner newBoard = none) : Undecided (n + 1) newBoard where
  turns := h.turns_succ hadds
  noLine := (checkWinner_eq_none hout).1
  notFull := (checkWinner_eq_none hout).2

theorem Progress.phase (hphase : Phase ctx human page) (h : Progress ctx human page event page') :
    Phase ctx human page' := by
  cases h with
  | stays _ => exact hphase
  | forfeits _ =>
      cases hphase with
      | turn hboard =>
          rw [applyForfeit, turnPage_state]
          exact .finished hboard.turns
      | finished hturns => exact .finished hturns
  | moves hboard _ _ hadds hout => exact .turn (hboard.next hadds hout)
  | decides hboard _ _ hadds _ => exact .finished (hboard.turns_succ hadds)

theorem cell_eq_of_addsOne {symbol : Cell} {board newBoard : Board}
    (h : AddsOne symbol board newBoard) {r c : Fin 3} (hmark : board r c ≠ .dot) :
    newBoard r c = board r c := by
  obtain ⟨r', c', hempty, _, hrest⟩ := h
  apply hrest r c
  intro heq
  apply hmark
  obtain ⟨rfl, rfl⟩ := Prod.mk.inj heq
  exact hempty

theorem Extends.refl (page : Page) : Extends page page where
  marks _ _ _ _ hcell := hcell
  frozen _ := rfl

theorem Extends.trans {page'' : Page} (h : Extends page page') (h' : Extends page' page'') :
    Extends page page'' where
  marks r c mark hmark hcell := h'.marks r c mark hmark (h.marks r c mark hmark hcell)
  frozen hended := by
    have hstate := h.frozen hended
    rw [h'.frozen (hstate ▸ hended), hstate]

/-- A move leaves every other mark alone and is made before the end only. -/
theorem extends_of_addsOne {n : ℕ} {board newBoard : Board}
    (hadds : AddsOne (mover n).symbol board newBoard)
    (hshown : page'.state.board = gridOf newBoard) :
    Extends (turnPage ctx human n board) page' where
  marks r c mark hmark hcell := by
    rw [turnPage_state, cellAt_gridOf, Except.ok.injEq, Option.some.injEq] at hcell
    have hne : board r c ≠ .dot := fun hdot => hmark (by rw [← hcell, hdot]; rfl)
    rw [hshown, cellAt_gridOf, cell_eq_of_addsOne hadds hne, hcell]
  frozen hended := by simp at hended

theorem Progress.extends (h : Progress ctx human page event page') : Extends page page' := by
  cases h with
  | stays _ => exact .refl page
  | forfeits hopen => exact ⟨fun _ _ _ _ hcell => hcell, fun hended => absurd hended hopen⟩
  | moves _ hpage _ hadds _ => exact hpage ▸ extends_of_addsOne hadds (by simp)
  | decides _ hpage _ hadds _ => exact hpage ▸ extends_of_addsOne hadds rfl

theorem phase_extends_of_via (hhuman : ctx.humanSymbol = human.symbol.text)
    (hbot : ctx.botSymbol = human.other.symbol.text) (hphase : Phase ctx human page)
    (h : Via (pageStep ctx) (AddsBotMark ctx) page page') :
    Phase ctx human page' ∧ Extends page page' := by
  induction h with
  | start => exact ⟨hphase, .refl page⟩
  | next event _ hreply hstep ih =>
      have hprogress := ih.1.progress hhuman hbot hreply hstep
      exact ⟨hprogress.phase ih.1, ih.2.trans hprogress.extends⟩

/-! ### What it shows -/

theorem count_mover (n : ℕ) :
    Nat.count (fun k => mover k = .x) n = (n + 1) / 2 ∧
      Nat.count (fun k => mover k = .o) n = n / 2 := by
  induction n with
  | zero => simp
  | succ n ih =>
      rw [Nat.count_succ, Nat.count_succ, ih.1, ih.2]
      obtain hparity | hparity := Nat.mod_two_eq_zero_or_one n <;> simp [mover, hparity] <;> omega

theorem Undecided.marks {n : ℕ} {board : Board} (h : Undecided n board) :
    (mover n = .x ∧ markCount board .x = markCount board .o) ∨
      (mover n = .o ∧ markCount board .x = markCount board .o + 1) := by
  rw [markCount, markCount, h.turns.marksOf, h.turns.marksOf, (count_mover n).1, (count_mover n).2]
  obtain hparity | hparity := Nat.mod_two_eq_zero_or_one n
  · exact .inl ⟨by simp [mover, hparity], by omega⟩
  · exact .inr ⟨by simp [mover, hparity], by omega⟩

theorem Phase.legal (h : Phase ctx human page) : LegalPage human page := by
  cases h with
  | @turn n board hboard =>
      refine ⟨?_, ?_, ?_, n, board, by simp, hboard.turns, fun _ => ?_⟩
      · rw [turnPage_requests]
        split <;> simp
      · intro hrequests
        rw [turnPage_requests] at hrequests
        rw [turnPage_state]
        exact (ite_ne_right_iff.1 hrequests).1
      · rw [turnPage_state]
        unfold sideOf
        split <;> simp
      · rw [turnPage_state]
        refine ⟨hboard.noLine, hboard.notFull, ?_⟩
        rcases hboard.marks with ⟨hmover, hmarks⟩ | ⟨hmover, hmarks⟩
        · exact .inl ⟨by rw [hmover], hmarks⟩
        · exact .inr ⟨by rw [hmover], hmarks⟩
  | finished hturns =>
      exact ⟨by simp, by simp, by simp, _, _, rfl, hturns, fun hopen => absurd rfl hopen⟩

theorem wins_ne_cat (name : Str) : name ++ str " wins" ≠ str "Cat game" := by
  intro h
  have hlast := congrArg List.getLast? h
  rw [List.getLast?_append_of_ne_nil name (by decide)] at hlast
  exact absurd hlast (by decide)

theorem endCaption_wins (hhuman : ctx.humanSymbol = human.symbol.text) (p : Player) :
    endCaption ctx (winnerText p.wins) =
      (if p = human then ctx.playerName else ctx.botName) ++ str " wins" := by
  have hcat : winnerText p.wins ≠ str "cat" := by cases p <;> decide
  have hsymbol : winnerText p.wins = human.symbol.text ↔ p = human := by
    cases p <;> cases human <;> decide
  rw [endCaption, if_neg hcat, hhuman]
  simp only [hsymbol]
  split <;> rfl

theorem Undecided.namesWinner (hhuman : ctx.humanSymbol = human.symbol.text) {n : ℕ}
    {board newBoard : Board} {outcome : MatchOutcome} (h : Undecided n board)
    (hadds : AddsOne (mover n).symbol board newBoard)
    (hout : TictactoeBots.checkWinner newBoard = some outcome) :
    NamesWinner ctx human ⟨gridOf newBoard, .over, endCaption ctx (winnerText outcome), true⟩
      newBoard := by
  have howner : ∀ p, HasLine newBoard p → p = mover n := fun p hline =>
    (addsOne_iff_places.1 hadds).line_owner
      (fun hold => h.noLine p (hasLine_iff_position.2 hold)) (hasLine_iff_position.1 hline)
  rcases checkWinner_eq_some hout with ⟨p, rfl, hline⟩ | ⟨rfl, hnone, hfull⟩
  · have honly : ∀ q, HasLine newBoard q ↔ q = p := fun q =>
      ⟨fun hq => (howner q hq).trans (howner p hline).symm, fun hq => hq ▸ hline⟩
    have hcaption := endCaption_wins hhuman p
    exact {
      shown := rfl
      one := by
        simp only [honly]
        rcases eq_or_eq_other human p with rfl | rfl <;> simp [other_ne, (other_ne _).symm]
      humanLine := fun h => by rw [hcaption, if_pos ((honly human).1 h).symm]
      botLine := fun h => by rw [hcaption, if_neg ((honly human.other).1 h ▸ other_ne human)]
      noLine := ⟨fun h => absurd (hcaption ▸ h) (wins_ne_cat _), fun h => absurd hline (h p)⟩
      distinct := fun hne => by
        rw [hcaption, List.append_left_inj, List.append_left_inj, honly, honly]
        rcases eq_or_eq_other human p with rfl | rfl
        · simp [other_ne, hne]
        · simp [other_ne, (other_ne _).symm, hne.symm] }
  · have hstatus : endCaption ctx (winnerText .cat) = str "Cat game" := if_pos rfl
    exact {
      shown := rfl
      one := .inr (.inr ⟨hnone, hfull⟩)
      humanLine := fun h => absurd h (hnone human)
      botLine := fun h => absurd h (hnone human.other)
      noLine := iff_of_true hstatus hnone
      distinct := fun _ => by
        have hname : ∀ name : Str, ¬endCaption ctx (winnerText .cat) = name ++ str " wins" :=
          fun name h => wins_ne_cat name (h.symm.trans hstatus)
        exact ⟨iff_of_false (hname _) (hnone human), iff_of_false (hname _) (hnone human.other)⟩ }

end Game

/-- Whatever the order of clicks, failures and replies that add one mark of the
bot to the board they were asked about, every page is one of a legal game with
at most one request, out only in the bot's turn; from there on no mark is lost,
an ended game stays as it is, and the event that ends it either is a failure or
leaves the caption of the winner. -/
theorem play_legal (botId : ℕ) (botName playerName : Str) (human : Player) {page : Page}
    (h : Via (pageStep (gameContext botId botName playerName human))
      (AddsBotMark (gameContext botId botName playerName human))
      (init (gameContext botId botName playerName human)) page) :
    LegalPage human page ∧
    (∀ page', Via (pageStep (gameContext botId botName playerName human))
        (AddsBotMark (gameContext botId botName playerName human)) page page' →
      Extends page page') ∧
    ∀ event page', AddsBotMark (gameContext botId botName playerName human) page event →
      pageStep (gameContext botId botName playerName human) page event = some page' →
      ¬page.state.ended → page'.state.ended →
        (∃ i reason, event = .failed i reason ∧ page'.state = applyForfeit page.state reason) ∨
        ∃ board, NamesWinner (gameContext botId botName playerName human) human page'.state
          board := by
  have hstart : Phase (gameContext botId botName playerName human) human
      (init (gameContext botId botName playerName human)) := by
    rw [init_eq]
    exact .turn ⟨.start, by decide, by decide⟩
  have hphase := (phase_extends_of_via rfl rfl hstart h).1
  refine ⟨hphase.legal, fun page' hrun => (phase_extends_of_via rfl rfl hphase hrun).2, ?_⟩
  intro event page' hreply hstep hopen hended
  cases hphase.progress rfl rfl hreply hstep with
  | stays _ => exact absurd hended hopen
  | forfeits _ => exact .inl ⟨_, _, rfl, rfl⟩
  | moves _ _ _ _ _ => simp at hended
  | decides hboard _ _ hadds hout => exact .inr ⟨_, hboard.namesWinner rfl hadds hout⟩

def repliedPage : Page where
  state := {
    board := [[str "O", str ".", str "."], [str ".", str "X", str "."], [str ".", str ".", str "."]]
    whose := .human
    status := str "Ann's Turn"
    ended := false }
  requests := []

theorem play_legal_repliedPage : LegalPage .x repliedPage :=
  (play_legal 1 (str "Foo") (str "Ann") .x
    (.next (.replied 0 (str "O|.|.\n.|X|.\n.|.|.")) (.next (.click 4) .start trivial rfl)
      ⟨_, rfl, 0, 0, rfl, rfl⟩ rfl)).1

end TictactoeBots.PlayState
