import TictactoeBots.Web.PlayPage

/-!
The banner at the end of a game against a bot.

The state of the page keeps no outcome, only the caption, and the styling reads
the outcome off the caption again. The caption has the names of the players in
it, so a name can be taken for the beginning of another caption, and two equal
names for each other.
-/

namespace TictactoeBots.PlayState

open Text StepSystem

/-- What `statusKindForState` returns for an ended game. -/
inductive StatusKind where
  | success
  | error
  deriving DecidableEq, Repr

/-- `none` is `null`. -/
def statusKindForState (state : State) (ctx : Ctx) : Option StatusKind :=
  if !state.ended then none
  else if (str "Game over:").isPrefixOf state.status then some .error
  else if state.status = str "Cat game" then some .success
  else if state.status = ctx.playerName ++ str " wins" then some .success
  else some .error

def bannerSuccessClass : Str := str "banner-success"

def bannerErrorClass : Str := str "banner-error"

def addClass (classes : List Str) (name : Str) : List Str :=
  if name ∈ classes then classes else classes ++ [name]

/-- The classes of the status element after `applyStatusStyling`. -/
def applyStatusStyling (classes : List Str) (state : State) (ctx : Ctx) : List Str :=
  let removed := classes.filter
    (· ∉ [bannerSuccessClass, bannerErrorClass, str "banner", str "muted"])
  match statusKindForState state ctx with
  | some .success => [str "banner", bannerSuccessClass].foldl addClass removed
  | some .error => [str "banner", bannerErrorClass].foldl addClass removed
  | none => addClass removed (str "muted")

/-- The banner of a game that `event` has ended says how it ended: success for a
line of the visitor or a full board without lines, an error for a line of the
bot or a failed request. -/
def Truthful (ctx : Ctx) (human : Player) (event : PageEvent) (state : State) : Prop :=
  ∃ board, state.board = gridOf board ∧
    (statusKindForState state ctx = some .success ↔
      HasLine board human ∨ ((∀ p, ¬HasLine board p) ∧ Full board)) ∧
    (statusKindForState state ctx = some .error ↔
      HasLine board human.other ∨ ∃ i reason, event = .failed i reason)

/-- Whatever the visitor and the bot do, the banner is truthful from the end of
the game on. -/
def BannerTruthful (ctx : Ctx) (human : Player) : Prop :=
  ∀ page event ended page', Via (pageStep ctx) (AddsBotMark ctx) (init ctx) page →
    AddsBotMark ctx page event → pageStep ctx page event = some ended →
    ¬page.state.ended → ended.state.ended →
    Via (pageStep ctx) (AddsBotMark ctx) ended page' → Truthful ctx human event page'.state

/-! ### Captions -/

theorem mem_foldl_addClass {classes names : List Str} {name : Str} :
    name ∈ names.foldl addClass classes ↔ name ∈ classes ∨ name ∈ names := by
  induction names generalizing classes with
  | nil => simp
  | cons first names ih =>
      rw [List.foldl_cons, ih, List.mem_cons, addClass]
      split
      · rename_i hmem
        constructor
        · tauto
        · rintro (h | rfl | h)
          · exact .inl h
          · exact .inl hmem
          · exact .inr h
      · rw [List.mem_append, List.mem_singleton, or_assoc]

theorem mem_applyStatusStyling (classes : List Str) (state : State) (ctx : Ctx) :
    (bannerSuccessClass ∈ applyStatusStyling classes state ctx ↔
      statusKindForState state ctx = some .success) ∧
    (bannerErrorClass ∈ applyStatusStyling classes state ctx ↔
      statusKindForState state ctx = some .error) := by
  have hnames : bannerSuccessClass ≠ bannerErrorClass ∧ bannerSuccessClass ≠ str "banner" ∧
      bannerErrorClass ≠ str "banner" ∧ bannerSuccessClass ≠ str "muted" ∧
      bannerErrorClass ≠ str "muted" := by decide
  obtain ⟨hkinds, hsuccess, herror, hsuccess', herror'⟩ := hnames
  have hmuted : ∀ l : List Str, addClass l (str "muted") = [str "muted"].foldl addClass l :=
    fun _ => rfl
  unfold applyStatusStyling
  cases statusKindForState state ctx with
  | none =>
      simp only [hmuted, mem_foldl_addClass, List.mem_filter]
      simp [hsuccess', herror']
  | some kind =>
      cases kind <;> simp only [mem_foldl_addClass, List.mem_filter] <;>
        simp [hkinds, hkinds.symm, hsuccess, herror]

/-- What follows a name does not complete the beginning of a forfeit. -/
theorem gameOver_prefix_wins_iff {name : Str} :
    str "Game over:" <+: name ++ str " wins" ↔ str "Game over:" <+: name := by
  constructor
  · intro h
    obtain hshort | hlong :=
      List.prefix_or_prefix_of_prefix h (List.prefix_append name (str " wins"))
    · exact hshort
    · -- a part of the text itself, so one of finitely many
      have hparts : ∀ part ∈ (str "Game over:").inits,
          str "Game over:" <+: part ++ str " wins" → str "Game over:" <+: part := by decide
      exact hparts name ((List.mem_inits _ _).2 hlong) h
  · exact fun h => h.trans (List.prefix_append _ _)

variable {ctx : Ctx} {human : Player}

theorem statusKind_humanLine (hhuman : ctx.humanSymbol = human.symbol.text) (board : Grid)
    (whose : Whose) :
    statusKindForState ⟨board, whose, endCaption ctx (winnerText human.wins), true⟩ ctx =
      some (if str "Game over:" <+: ctx.playerName then .error else .success) := by
  rw [endCaption_wins hhuman, if_pos rfl]
  unfold statusKindForState
  simp only [Bool.not_true, Bool.false_eq_true, if_false, List.isPrefixOf_iff_prefix,
    gameOver_prefix_wins_iff, wins_ne_cat, if_true]
  split <;> rfl

theorem statusKind_botLine (hhuman : ctx.humanSymbol = human.symbol.text) (board : Grid)
    (whose : Whose) :
    statusKindForState ⟨board, whose, endCaption ctx (winnerText human.other.wins), true⟩ ctx =
      some (if ¬str "Game over:" <+: ctx.botName ∧ ctx.botName = ctx.playerName then .success
        else .error) := by
  rw [endCaption_wins hhuman, if_neg (other_ne human)]
  unfold statusKindForState
  simp only [Bool.not_true, Bool.false_eq_true, if_false, List.isPrefixOf_iff_prefix,
    gameOver_prefix_wins_iff, wins_ne_cat, List.append_left_inj]
  by_cases hover : str "Game over:" <+: ctx.botName
  · simp [hover]
  · by_cases hname : ctx.botName = ctx.playerName
    · have hplayer : ¬str "Game over:" <+: ctx.playerName := hname ▸ hover
      simp [hname, hplayer]
    · simp [hover, hname]

theorem statusKind_cat (board : Grid) (whose : Whose) :
    statusKindForState ⟨board, whose, endCaption ctx (winnerText .cat), true⟩ ctx =
      some .success := rfl

theorem statusKind_forfeit (state : State) (reason : Str) :
    statusKindForState (applyForfeit state reason) ctx = some .error := by
  have hstarts : (str "Game over:").isPrefixOf (str "Game over: " ++ reason) = true := rfl
  simp [statusKindForState, applyForfeit, hstarts]

/-! ### Playing a game out -/

/-- The board after the moves, made in turn from the turn of index `n` on. -/
def playMoves (n : ℕ) (board : Board) : List (Fin 3 × Fin 3) → Board
  | [] => board
  | (r, c) :: rest => playMoves (n + 1) (place board r c (mover n).symbol) rest

/-- Every move goes to an empty cell and decides nothing. -/
def playable (n : ℕ) (board : Board) : List (Fin 3 × Fin 3) → Bool
  | [] => true
  | (r, c) :: rest =>
      let newBoard := place board r c (mover n).symbol
      board r c = .dot && (TictactoeBots.checkWinner newBoard).isNone &&
        playable (n + 1) newBoard rest

def movedPage (ctx : Ctx) (human : Player) (n : ℕ) (newBoard : Board) : Page :=
  match TictactoeBots.checkWinner newBoard with
  | none => turnPage ctx human (n + 1) newBoard
  | some outcome => ⟨⟨gridOf newBoard, .over, endCaption ctx (winnerText outcome), true⟩, []⟩

def cellIndex (r c : Fin 3) : Fin 9 := ⟨3 * r + c, by omega⟩

theorem rowOf_cellIndex (r c : Fin 3) :
    rowOf (cellIndex r c) = r ∧ columnOf (cellIndex r c) = c := by
  fin_cases r <;> fin_cases c <;> exact ⟨rfl, rfl⟩

theorem handOver_afterMove (newBoard : Board) (n : ℕ) :
    ∃ state, afterMove ctx (gridOf newBoard) (sideOf human (mover (n + 1))) = .ok state ∧
      handOver ctx ⟨state, []⟩ = movedPage ctx human n newBoard := by
  unfold movedPage
  cases hout : TictactoeBots.checkWinner newBoard with
  | none => exact ⟨_, afterMove_of_open ctx _ hout, rfl⟩
  | some outcome => exact ⟨_, afterMove_of_winner ctx _ hout, by simp [handOver]⟩

theorem exists_move (hhuman : ctx.humanSymbol = human.symbol.text)
    (hbot : ctx.botSymbol = human.other.symbol.text) {n : ℕ} {board : Board} {r c : Fin 3}
    (hempty : board r c = .dot) :
    ∃ event, AddsBotMark ctx (turnPage ctx human n board) event ∧
      (∀ i reason, event ≠ .failed i reason) ∧
      pageStep ctx (turnPage ctx human n board) event =
        some (movedPage ctx human n (place board r c (mover n).symbol)) := by
  obtain ⟨state, hstate, hmoved⟩ :=
    @handOver_afterMove ctx human (place board r c (mover n).symbol) n
  rw [← hmoved]
  obtain hmover | hmover := eq_or_eq_other human (mover n)
  · have hnext : sideOf human (mover (n + 1)) = .bot := by
      simp [mover_succ, hmover, sideOf, other_ne]
    obtain ⟨hr, hc⟩ := rowOf_cellIndex r c
    have hcell : board (rowOf (cellIndex r c)) (columnOf (cellIndex r c)) = .dot := by
      rw [hr, hc, hempty]
    rw [hnext, hmover] at hstate
    refine ⟨.click (cellIndex r c), trivial, by simp, ?_⟩
    rw [turnPage_of_human ctx board hmover, pageStep, applyHumanMove_of_empty hhuman hcell, hr, hc,
      hstate]
    rfl
  · have hnext : sideOf human (mover (n + 1)) = .human := by
      rw [mover_succ, hmover]
      cases human <;> rfl
    rw [hnext, hmover] at hstate
    let newBoard := place board r c human.other.symbol
    refine ⟨.replied 0 (boardToStr (gridOf newBoard)), ?_, by simp, ?_⟩
    · refine ⟨⟨ctx.botId, ctx.botSymbol, boardToStr (gridOf board)⟩, ?_, r, c, ?_, ?_⟩
      · rw [turnPage_of_bot ctx board hmover]
        rfl
      · rw [parseBoard_boardToStr, cellAt_dot_iff, hempty]
      · rw [parseBoard_boardToStr, parseBoard_boardToStr, hbot, setCell_gridOf]
    · have hmove : applyBotMove (turnPage ctx human n board).state ctx
          (boardToStr (gridOf newBoard)) = .ok state := by
        rw [turnPage_of_bot ctx board hmover, applyBotMove, parseBoard_boardToStr]
        exact hstate
      -- a turn of the visitor is not handed over
      have hkept : handOver ctx ⟨state, []⟩ = ⟨state, []⟩ := by
        obtain ⟨same, hsame, hwhose⟩ := exists_afterMove ctx newBoard .human
        obtain rfl := Except.ok.inj (hsame.symm.trans hstate)
        apply if_neg
        intro hturn
        rw [hturn.1] at hwhose
        simp at hwhose
      rw [pageStep, hmove, hkept, turnPage_of_bot ctx board hmover]
      rfl

theorem via_playMoves (hhuman : ctx.humanSymbol = human.symbol.text)
    (hbot : ctx.botSymbol = human.other.symbol.text) {moves : List (Fin 3 × Fin 3)} :
    ∀ {n : ℕ} {board : Board}, playable n board moves →
      Via (pageStep ctx) (AddsBotMark ctx) (turnPage ctx human n board)
        (turnPage ctx human (n + moves.length) (playMoves n board moves)) := by
  induction moves with
  | nil =>
      intro n board _
      exact .start
  | cons move rest ih =>
      intro n board hplayable
      obtain ⟨r, c⟩ := move
      simp only [playable, Bool.and_eq_true, decide_eq_true_eq, Option.isNone_iff_eq_none]
        at hplayable
      obtain ⟨⟨hempty, hopen⟩, hrest⟩ := hplayable
      obtain ⟨event, hreply, -, hstep⟩ := exists_move hhuman hbot (n := n) hempty
      have hmoved : movedPage ctx human n (place board r c (mover n).symbol) =
          turnPage ctx human (n + 1) (place board r c (mover n).symbol) := by
        rw [movedPage, hopen]
      rw [hmoved] at hstep
      have hrun := (Via.next event .start hreply hstep).trans (ih hrest)
      rw [List.length_cons, Nat.add_comm rest.length 1, ← Nat.add_assoc]
      exact hrun

/-- Each side can complete the first row with its last cell. -/
theorem exists_movesToLine (p : Player) : ∃ moves, playable 0 emptyBoard moves ∧
    playMoves 0 emptyBoard moves 0 2 = .dot ∧ mover (0 + moves.length) = p ∧
      TictactoeBots.checkWinner (place (playMoves 0 emptyBoard moves) 0 2 p.symbol) =
        some p.wins ∧ HasLine (place (playMoves 0 emptyBoard moves) 0 2 p.symbol) p := by
  cases p with
  | x => exact ⟨[(0, 0), (1, 0), (0, 1), (1, 1)], by decide, by decide, rfl, by decide⟩
  | o => exact ⟨[(1, 0), (0, 0), (1, 1), (0, 1), (2, 2)], by decide, by decide, rfl, by decide⟩

theorem exists_line (hhuman : ctx.humanSymbol = human.symbol.text)
    (hbot : ctx.botSymbol = human.other.symbol.text)
    (hinit : init ctx = turnPage ctx human 0 emptyBoard) (p : Player) :
    ∃ page event board, Via (pageStep ctx) (AddsBotMark ctx) (init ctx) page ∧
      AddsBotMark ctx page event ∧ (∀ i reason, event ≠ .failed i reason) ∧
      ¬page.state.ended ∧ HasLine board p ∧
      pageStep ctx page event =
        some ⟨⟨gridOf board, .over, endCaption ctx (winnerText p.wins), true⟩, []⟩ := by
  obtain ⟨moves, hplayable, hlast, hmover, hwon, hline⟩ := exists_movesToLine p
  obtain ⟨event, hreply, hevent, hstep⟩ :=
    exists_move hhuman hbot (n := 0 + moves.length) hlast
  rw [hmover, movedPage, hwon] at hstep
  refine ⟨_, event, _, ?_, hreply, hevent, by simp, hline, hstep⟩
  rw [hinit]
  exact via_playMoves hhuman hbot hplayable

/-! ### When the banner is truthful -/

theorem Progress.truthful (hhuman : ctx.humanSymbol = human.symbol.text)
    (hname : ¬str "Game over:" <+: ctx.playerName) (hdistinct : ctx.playerName ≠ ctx.botName)
    {page ended : Page} {event : PageEvent} (hphase : Phase ctx human page)
    (h : Progress ctx human page event ended) (hopen : ¬page.state.ended)
    (hended : ended.state.ended) : Truthful ctx human event ended.state := by
  cases h with
  | stays _ => exact absurd hended hopen
  | moves _ _ _ _ _ => simp at hended
  | @forfeits i reason _ =>
      cases hphase with
      | @turn n board hboard =>
          refine ⟨board, by simp [applyForfeit], ?_, ?_⟩
          · rw [statusKind_forfeit]
            simp [hboard.noLine, hboard.notFull]
          · rw [statusKind_forfeit]
            exact iff_of_true rfl (.inr ⟨i, reason, rfl⟩)
      | finished _ => exact absurd rfl hopen
  | @decides _ n board newBoard outcome hboard hpage hevent hadds hout =>
      have hfailed : ¬∃ i reason, event = .failed i reason := by
        rintro ⟨i, reason, h⟩
        exact hevent i reason h
      have hnames := hboard.namesWinner hhuman hadds hout
      refine ⟨newBoard, rfl, ?_⟩
      obtain ⟨p, rfl, hline⟩ | ⟨rfl, hnone, hfull⟩ := checkWinner_eq_some hout
      · obtain rfl | rfl := eq_or_eq_other human p
        · have hother : ¬HasLine newBoard p.other := by
            obtain ⟨-, hnot⟩ | ⟨-, hnot⟩ | ⟨hnot, -⟩ := hnames.one
            · exact hnot
            · exact absurd hline hnot
            · exact hnot _
          rw [statusKind_humanLine hhuman, if_neg hname]
          simp [hline, hother, hfailed]
        · have hother : ¬HasLine newBoard human := by
            obtain ⟨-, hnot⟩ | ⟨-, hnot⟩ | ⟨hnot, -⟩ := hnames.one
            · exact absurd hline hnot
            · exact hnot
            · exact hnot _
          have hbot : ¬(¬str "Game over:" <+: ctx.botName ∧ ctx.botName = ctx.playerName) :=
            fun h => hdistinct h.2.symm
          rw [statusKind_botLine hhuman, if_neg hbot]
          simp only [hline, hother, Option.some.injEq, reduceCtorEq, true_or, false_or, false_iff,
            and_true]
          exact fun h => h.1 _ hline
      · rw [statusKind_cat]
        simp [hnone, hfull, hfailed]

theorem BannerTruthful.names (hhuman : ctx.humanSymbol = human.symbol.text)
    (hbot : ctx.botSymbol = human.other.symbol.text)
    (hinit : init ctx = turnPage ctx human 0 emptyBoard) (htruthful : BannerTruthful ctx human) :
    ¬str "Game over:" <+: ctx.playerName ∧ ctx.playerName ≠ ctx.botName := by
  have hstarts : ¬str "Game over:" <+: ctx.playerName := by
    intro hstarts
    obtain ⟨page, event, board, hrun, hreply, -, hopen, hline, hstep⟩ :=
      exists_line hhuman hbot hinit human
    obtain ⟨shown, hshown, hsuccess, -⟩ :=
      htruthful page event _ _ hrun hreply hstep hopen rfl .start
    obtain rfl := gridOf_injective hshown
    rw [statusKind_humanLine hhuman, if_pos hstarts] at hsuccess
    exact absurd (hsuccess.2 (.inl hline)) (by simp)
  refine ⟨hstarts, fun hname => ?_⟩
  obtain ⟨page, event, board, hrun, hreply, -, hopen, hline, hstep⟩ :=
    exists_line hhuman hbot hinit human.other
  obtain ⟨shown, hshown, -, herror⟩ :=
    htruthful page event _ _ hrun hreply hstep hopen rfl .start
  obtain rfl := gridOf_injective hshown
  have hbanner : ¬str "Game over:" <+: ctx.botName ∧ ctx.botName = ctx.playerName :=
    ⟨hname ▸ hstarts, hname.symm⟩
  rw [statusKind_botLine hhuman, if_pos hbanner] at herror
  exact absurd (herror.2 (.inl hline)) (by simp)

/-- The banner tells the truth, whatever happens in the game, exactly when the
visitor's name does not begin like the caption of a forfeit and is not that of
the bot. -/
theorem bannerTruthful_iff (botId : ℕ) (botName playerName : Str) (human : Player) :
    BannerTruthful (gameContext botId botName playerName human) human ↔
      ¬str "Game over:" <+: playerName ∧ playerName ≠ botName := by
  let ctx := gameContext botId botName playerName human
  have hstart : Phase ctx human (init ctx) := by
    rw [init_eq]
    exact .turn ⟨.start, by decide, by decide⟩
  constructor
  · exact BannerTruthful.names rfl rfl (init_eq ..)
  · rintro ⟨hname, hdistinct⟩ page event ended page' hrun hreply hstep hopen hended hlater
    have hphase := (phase_extends_of_via rfl rfl hstart hrun).1
    have hprogress := hphase.progress rfl rfl hreply hstep
    have hfrozen := (phase_extends_of_via rfl rfl (hprogress.phase hphase) hlater).2.frozen hended
    rw [hfrozen]
    exact hprogress.truthful rfl hname hdistinct hphase hopen hended

/-- A visitor who is called like the bot sees its win as a success, and one whose
name begins like a forfeit sees the own win as an error. -/
theorem names_mislead :
    ¬BannerTruthful (gameContext 1 (str "Foo") (str "Foo") .x) .x ∧
    ¬BannerTruthful (gameContext 1 (str "Foo") (str "Game over: Ann") .x) .x := by
  constructor
  · intro h
    exact (h.names rfl rfl (init_eq ..)).2 rfl
  · intro h
    exact (h.names rfl rfl (init_eq ..)).1 (by decide)

end TictactoeBots.PlayState
