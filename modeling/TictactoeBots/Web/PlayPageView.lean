import TictactoeBots.Web.BoardCells

/-!
What the visitor sees of a game, and what he can click.

`pageStep` says which state the driver keeps and which requests are out. The
steps here also do what `render` in `play.mjs` does to the elements, with the
exceptions that it may throw. On the boards of the game it throws none, the two
levels make the same steps, and the elements always tell what a click would do.
-/

namespace TictactoeBots.PlayState

open Text StepSystem BoardCells

/-! ### The elements -/

structure Els where
  cells : List CellElement
  status : Str
  statusClasses : List Str
  /-- `data-disabled` is `"true"`. -/
  disabled : Bool
  /-- The link to another game is hidden. -/
  againHidden : Bool

def templateEls : Els where
  cells := List.replicate 9 ⟨[str "cell", str "play-cell", str "cell-empty"], []⟩
  status := str "Loading..."
  statusClasses := [str "match-player-status", str "muted"]
  disabled := false
  againHidden := true

/-- The painted elements, with what it throws. -/
def render (ctx : Ctx) (thinking : Bool) (state : State) (els : Els) : Els × Option Str :=
  match paint state.board.flatten els.cells with
  | (cells, some thrown) => ({ els with cells := cells }, some thrown)
  | (cells, none) =>
      ({ cells := cells
         status := if thinking then ctx.botName ++ str " is thinking..." else state.status
         statusClasses := applyStatusStyling els.statusClasses state ctx
         disabled := state.ended || state.whose = .bot || thinking
         againHidden := !state.ended }, none)

structure View where
  page : Page
  els : Els

/-- `takeBotTurn` up to its `await`; it posts nothing when `render` throws. -/
def takeBotTurnView (ctx : Ctx) (view : View) : View :=
  match render ctx true view.page.state view.els with
  | (els, some _) => ⟨view.page, els⟩
  | (els, none) => ⟨takeBotTurn ctx view.page, els⟩

/-- What `init` and the click handler do after they have set the state. -/
def handOverView (ctx : Ctx) (view : View) : View :=
  match render ctx false view.page.state view.els with
  | (els, some _) => ⟨view.page, els⟩
  | (els, none) =>
      if view.page.state.whose = .bot ∧ ¬view.page.state.ended then
        takeBotTurnView ctx ⟨view.page, els⟩
      else ⟨view.page, els⟩

def initView (ctx : Ctx) : View := handOverView ctx ⟨⟨initialState ctx, []⟩, templateEls⟩

/-- The end of `takeBotTurn`. -/
def answered (ctx : Ctx) (state : State) (i : ℕ) (view : View) : View where
  page := ⟨state, view.page.requests.eraseIdx i⟩
  els := (render ctx false state view.els).1

def viewStep (ctx : Ctx) (view : View) : PageEvent → Option View
  | .click index =>
      match applyHumanMove view.page.state ctx index with
      | .ok (some state) =>
          some (handOverView ctx { view with page := { view.page with state := state } })
      | _ => some view
  | .failed i reason =>
      if i < view.page.requests.length then
        some (answered ctx (applyForfeit view.page.state reason) i view)
      else none
  | .replied i newBoardStr =>
      if i < view.page.requests.length then
        match applyBotMove view.page.state ctx newBoardStr with
        | .ok state => some (answered ctx state i view)
        | .error message => some (answered ctx (applyForfeit view.page.state message) i view)
      else none

/-! ### What they show -/

/-- The elements show the board and the caption of the page, and whose turn it
is: the visitor's, the bot's with a request out, or nobody's. -/
structure Displays (ctx : Ctx) (board : Board) (page : Page) (els : Els) : Prop where
  board_eq : page.state.board = gridOf board
  cells : ShowsBoard board els.cells
  status : els.status =
    if page.requests = [] then page.state.status else ctx.botName ++ str " is thinking..."
  success : bannerSuccessClass ∈ els.statusClasses ↔
    statusKindForState page.state ctx = some .success
  error : bannerErrorClass ∈ els.statusClasses ↔ statusKindForState page.state ctx = some .error
  disabled : els.disabled = false ↔ page.state.whose = .human
  again : els.againHidden = false ↔ page.state.ended

section Displays

variable {ctx : Ctx} {human : Player} {board : Board} {state : State} {page : Page} {els : Els}
  {view view' : View} {event : PageEvent}

theorem exists_render (ctx : Ctx) (thinking : Bool) (hboard : state.board = gridOf board)
    (hels : els.cells.length = 9) :
    ∃ els', render ctx thinking state els = (els', none) ∧ ShowsBoard board els'.cells ∧
      els'.status = (if thinking then ctx.botName ++ str " is thinking..." else state.status) ∧
      els'.statusClasses = applyStatusStyling els.statusClasses state ctx ∧
      els'.disabled = (state.ended || state.whose = .bot || thinking) ∧
      els'.againHidden = !state.ended := by
  obtain ⟨cells, hpaint, hcells⟩ := exists_paint board hels
  exact ⟨_, by rw [render, hboard, hpaint], hcells, rfl, rfl, rfl, rfl⟩

theorem Phase.turns (h : Phase ctx human page) :
    (page.state.whose = .human ∧ ¬page.state.ended ∧ page.requests = []) ∨
    (page.state.whose = .bot ∧ ¬page.state.ended ∧ page.requests ≠ []) ∨
    (page.state.whose = .over ∧ page.state.ended ∧ page.requests = []) := by
  cases h with
  | @turn n board _ =>
      rcases eq_or_eq_other human (mover n) with hmover | hmover
      · rw [turnPage_of_human ctx board hmover]
        exact .inl ⟨rfl, Bool.false_ne_true, rfl⟩
      · rw [turnPage_of_bot ctx board hmover]
        exact .inr (.inl ⟨rfl, Bool.false_ne_true, List.cons_ne_nil _ _⟩)
  | finished _ => exact .inr (.inr ⟨rfl, rfl, rfl⟩)

theorem Phase.exists_board (h : Phase ctx human page) :
    ∃ board, page.state.board = gridOf board := by
  obtain ⟨_, board, hboard, -⟩ := h.legal.game
  exact ⟨board, hboard⟩

theorem Phase.displays_render (h : Phase ctx human page) (hboard : page.state.board = gridOf board)
    (thinking : Bool) (hthinking : thinking = true ↔ page.requests ≠ [])
    (hels : els.cells.length = 9) :
    ∃ els', render ctx thinking page.state els = (els', none) ∧ Displays ctx board page els' := by
  obtain ⟨els', hrender, hcells, hstatus, hclasses, hdisabled, hagain⟩ :=
    exists_render ctx thinking hboard hels
  obtain ⟨hsuccess, herror⟩ := mem_applyStatusStyling els.statusClasses page.state ctx
  rw [← hclasses] at hsuccess herror
  refine ⟨els', hrender, hboard, hcells, ?_, hsuccess, herror, ?_, ?_⟩
  · rw [hstatus]
    cases thinking with
    | true => rw [if_pos rfl, if_neg (hthinking.1 rfl)]
    | false =>
        have hnil : page.requests = [] := by simpa using hthinking
        rw [if_neg Bool.false_ne_true, if_pos hnil]
  · rw [hdisabled]
    rcases h.turns with ⟨hwhose, hended, hnil⟩ | ⟨hwhose, -, -⟩ | ⟨hwhose, hended, -⟩
    · have hquiet : thinking = false := by simpa [hnil] using hthinking
      simp [hwhose, hended, hquiet]
    · simp [hwhose]
    · simp [hwhose, hended]
  · rw [hagain, Bool.not_eq_false']

theorem takeBotTurnView_of_render {els' : Els}
    (h : render ctx true page.state els = (els', none)) :
    takeBotTurnView ctx ⟨page, els⟩ = ⟨takeBotTurn ctx page, els'⟩ := by
  rw [takeBotTurnView, h]

theorem handOverView_of_render {els' : Els}
    (h : render ctx false page.state els = (els', none)) :
    handOverView ctx ⟨page, els⟩ =
      if page.state.whose = .bot ∧ ¬page.state.ended then takeBotTurnView ctx ⟨page, els'⟩
      else ⟨page, els'⟩ := by
  rw [handOverView, h]

theorem handOverView_sound (hphase : Phase ctx human (handOver ctx page))
    (hnil : page.requests = []) (hels : els.cells.length = 9) :
    (handOverView ctx ⟨page, els⟩).page = handOver ctx page ∧
      ∃ board, Displays ctx board (handOver ctx page) (handOverView ctx ⟨page, els⟩).els := by
  obtain ⟨board, hboard⟩ := hphase.exists_board
  rw [handOver_state] at hboard
  obtain ⟨painted, hrender, hcells, -⟩ := exists_render ctx false hboard hels
  rw [handOverView_of_render hrender]
  by_cases hbot : page.state.whose = .bot ∧ ¬page.state.ended
  · have hpage : handOver ctx page = takeBotTurn ctx page := if_pos hbot
    have hposted : (true : Bool) = true ↔ (takeBotTurn ctx page).requests ≠ [] := by
      simp [takeBotTurn]
    rw [hpage] at hphase ⊢
    obtain ⟨els', hrender', hdisplays⟩ :=
      hphase.displays_render hboard true hposted hcells.length
    have hthinking : render ctx true page.state painted = (els', none) := hrender'
    rw [if_pos hbot, takeBotTurnView_of_render hthinking]
    exact ⟨rfl, board, hdisplays⟩
  · have hpage : handOver ctx page = page := if_neg hbot
    have hquiet : (false : Bool) = true ↔ page.requests ≠ [] := by simp [hnil]
    rw [hpage] at hphase ⊢
    obtain ⟨els', hrender', hdisplays⟩ := hphase.displays_render hboard false hquiet hels
    obtain rfl := (Prod.mk.inj (hrender.symm.trans hrender')).1
    rw [if_neg hbot]
    exact ⟨rfl, board, hdisplays⟩

theorem answered_sound {i : ℕ} (hrequests : page.requests.length ≤ 1)
    (hi : i < page.requests.length) (hels : els.cells.length = 9)
    (hphase : Phase ctx human ⟨state, page.requests.eraseIdx i⟩) :
    ∃ board, Displays ctx board (answered ctx state i ⟨page, els⟩).page
      (answered ctx state i ⟨page, els⟩).els := by
  have hnil : page.requests.eraseIdx i = [] := by
    apply List.eq_nil_of_length_eq_zero
    rw [List.length_eraseIdx_of_lt hi]
    omega
  obtain ⟨board, hboard⟩ := hphase.exists_board
  have hquiet : (false : Bool) = true ↔ page.requests.eraseIdx i ≠ [] := by simp [hnil]
  obtain ⟨els', hrender, hdisplays⟩ := hphase.displays_render hboard false hquiet hels
  refine ⟨board, ?_⟩
  have hels' : (answered ctx state i ⟨page, els⟩).els = els' := congrArg Prod.fst hrender
  rw [hels']
  exact hdisplays

/-- The two levels make the same steps, and what was displayed still is. -/
theorem viewStep_sound (hhuman : ctx.humanSymbol = human.symbol.text)
    (hbot : ctx.botSymbol = human.other.symbol.text) (hphase : Phase ctx human view.page)
    (hdisplays : Displays ctx board view.page view.els) (hreply : AddsBotMark ctx view.page event)
    (hpage : pageStep ctx view.page event = some page) :
    ∃ view', viewStep ctx view event = some view' ∧ view'.page = page ∧
      ∃ board', Displays ctx board' page view'.els := by
  have hnext := (hphase.progress hhuman hbot hreply hpage).phase hphase
  have hels := hdisplays.cells.length
  have hrequests := hphase.legal.atMostOne
  cases event with
  | click index =>
      rcases hmove : applyHumanMove view.page.state ctx index with _ | _ | state
      all_goals
        simp only [pageStep, hmove, Option.some.injEq] at hpage
        subst hpage
        rw [viewStep, hmove]
      · exact ⟨view, rfl, rfl, board, hdisplays⟩
      · exact ⟨view, rfl, rfl, board, hdisplays⟩
      · have hnil : view.page.requests = [] := by
          rcases hphase.turns with ⟨-, -, hnil⟩ | ⟨hwhose, -, -⟩ | ⟨-, -, hnil⟩
          · exact hnil
          · rw [applyHumanMove_of_not_human _ (by simp [hwhose])] at hmove
            cases hmove
          · exact hnil
        obtain ⟨hview, hshown⟩ := handOverView_sound hnext hnil hels
        exact ⟨_, rfl, hview, hshown⟩
  | failed i reason =>
      simp only [pageStep] at hpage
      split at hpage
      · rename_i hi
        obtain rfl := Option.some.inj hpage
        rw [viewStep, if_pos hi]
        exact ⟨_, rfl, rfl, answered_sound hrequests hi hels hnext⟩
      · cases hpage
  | replied i newBoardStr =>
      simp only [pageStep] at hpage
      split at hpage
      · rename_i hi
        rw [viewStep, if_pos hi]
        cases hmove : applyBotMove view.page.state ctx newBoardStr
        all_goals
          rw [hmove] at hpage
          obtain rfl := Option.some.inj hpage
          exact ⟨_, rfl, rfl, answered_sound hrequests hi hels hnext⟩
      · cases hpage

theorem handOverView_state (ctx : Ctx) (view : View) :
    (handOverView ctx view).page.state = view.page.state := by
  unfold handOverView
  split
  · rfl
  · split
    · unfold takeBotTurnView
      split <;> rfl
    · rfl

theorem Displays.textContent (h : Displays ctx board page els) (index : Fin 9) :
    (∃ el, els.cells[index.val]? = some el ∧ el.textContent = []) ↔
      board (rowOf index) (columnOf index) = .dot := by
  obtain ⟨el, hel, htext, -⟩ := h.cells.cell (rowOf index) (columnOf index)
  have hindex : 3 * (rowOf index).val + (columnOf index).val = index.val := by
    show 3 * (index.val / 3) + index.val % 3 = index.val
    omega
  rw [hindex] at hel
  have hshown : el.textContent = [] ↔ board (rowOf index) (columnOf index) = .dot := by
    rw [htext]
    cases board (rowOf index) (columnOf index) <;> simp [Cell.text, str]
  rw [← hshown]
  refine ⟨?_, fun htext => ⟨el, hel, htext⟩⟩
  rintro ⟨el', hel', htext'⟩
  obtain rfl := Option.some.inj (hel.symm.trans hel')
  exact htext'

theorem viewStep_click_ne_iff (hhuman : ctx.humanSymbol = human.symbol.text)
    (hphase : Phase ctx human view.page) (hdisplays : Displays ctx board view.page view.els)
    (index : Fin 9) :
    viewStep ctx view (.click index) ≠ some view ↔
      view.els.disabled = false ∧
        ∃ el, view.els.cells[index.val]? = some el ∧ el.textContent = [] := by
  rw [hdisplays.disabled, hdisplays.textContent]
  by_cases hwhose : view.page.state.whose = .human
  · have hstate : view.page.state = ⟨gridOf board, .human, view.page.state.status, false⟩ := by
      have hended : view.page.state.ended = false := by
        rcases hphase.turns with ⟨-, hended, -⟩ | ⟨hbot, -, -⟩ | ⟨hover, -, -⟩
        · exact Bool.eq_false_iff.2 hended
        · exact absurd (hwhose.symm.trans hbot) (by simp)
        · exact absurd (hwhose.symm.trans hover) (by simp)
      rw [← hdisplays.board_eq, ← hwhose, ← hended]
    by_cases hempty : board (rowOf index) (columnOf index) = .dot
    · refine iff_of_true (fun hsame => ?_) ⟨hwhose, hempty⟩
      obtain ⟨next, hnext, hover⟩ :=
        exists_afterMove ctx (place board (rowOf index) (columnOf index) human.symbol) .bot
      rw [viewStep, hstate, applyHumanMove_of_empty hhuman hempty, hnext] at hsame
      have hkept := congrArg (fun view => view.page.state.whose) (Option.some.inj hsame)
      simp only [handOverView_state, hwhose] at hkept
      simp [hkept] at hover
    · refine iff_of_false (fun hne => hne ?_) fun h => hempty h.2
      rw [viewStep, hstate, applyHumanMove_of_taken ctx hempty]
  · refine iff_of_false (fun hne => hne ?_) fun h => hwhose h.1
    rw [viewStep, applyHumanMove_of_not_human _ hwhose]

theorem exists_pageStep (h : viewStep ctx view event = some view') :
    ∃ page, pageStep ctx view.page event = some page := by
  cases event with
  | click index =>
      rw [pageStep]
      split <;> exact ⟨_, rfl⟩
  | failed i reason =>
      rw [viewStep] at h
      split at h
      · rename_i hi
        exact ⟨_, if_pos hi⟩
      · cases h
  | replied i newBoardStr =>
      rw [viewStep] at h
      split at h
      · rename_i hi
        rw [pageStep, if_pos hi]
        split <;> exact ⟨_, rfl⟩
      · cases h

theorem view_of_via (hhuman : ctx.humanSymbol = human.symbol.text)
    (hbot : ctx.botSymbol = human.other.symbol.text)
    (hphase : Phase ctx human view.page) (hdisplays : Displays ctx board view.page view.els)
    (h : Via (viewStep ctx) (fun view event => AddsBotMark ctx view.page event) view view') :
    Via (pageStep ctx) (AddsBotMark ctx) view.page view'.page ∧ Phase ctx human view'.page ∧
      ∃ board', Displays ctx board' view'.page view'.els := by
  induction h with
  | start => exact ⟨.start, hphase, board, hdisplays⟩
  | next event _ hreply hstep ih =>
      obtain ⟨hrun, hphase, board, hdisplays⟩ := ih
      obtain ⟨page, hpage⟩ := exists_pageStep hstep
      obtain ⟨_, hview, rfl, hshown⟩ := viewStep_sound hhuman hbot hphase hdisplays hreply hpage
      obtain rfl := Option.some.inj (hstep.symm.trans hview)
      exact ⟨hrun.next event hreply hpage,
        (hphase.progress hhuman hbot hreply hpage).phase hphase, hshown⟩

end Displays

/-- Whatever the order of clicks, failures and replies that add one mark of the
bot, the elements show the page that the driver is at, and a click does
something exactly where they show an empty cell on an enabled board. -/
theorem playView_tells (botId : ℕ) (botName playerName : Str) (human : Player) {view : View}
    (h : Via (viewStep (gameContext botId botName playerName human))
      (fun view event => AddsBotMark (gameContext botId botName playerName human) view.page event)
      (initView (gameContext botId botName playerName human)) view) :
    let ctx := gameContext botId botName playerName human
    Via (pageStep ctx) (AddsBotMark ctx) (init ctx) view.page ∧
    (∃ board, Displays ctx board view.page view.els) ∧
    (∀ index : Fin 9, viewStep ctx view (.click index) ≠ some view ↔
      view.els.disabled = false ∧
        ∃ el, view.els.cells[index.val]? = some el ∧ el.textContent = []) ∧
    ∀ event page, AddsBotMark ctx view.page event → pageStep ctx view.page event = some page →
      ∃ view', viewStep ctx view event = some view' ∧ view'.page = page := by
  intro ctx
  have hstart : Phase ctx human (init ctx) := by
    rw [init_eq]
    exact .turn ⟨.start, by decide, by decide⟩
  have hcells : templateEls.cells.length = 9 := rfl
  have hinit : (initView ctx).page = init ctx ∧
      ∃ board, Displays ctx board (init ctx) (initView ctx).els :=
    handOverView_sound hstart rfl hcells
  obtain ⟨hview, _, hshown⟩ := hinit
  rw [← hview] at hstart hshown
  obtain ⟨hrun, hphase, board, hdisplays⟩ := view_of_via rfl rfl hstart hshown h
  refine ⟨hview ▸ hrun, ⟨board, hdisplays⟩, viewStep_click_ne_iff rfl hphase hdisplays,
    fun event page hreply hpage => ?_⟩
  obtain ⟨view', hstep, hpage', -⟩ := viewStep_sound rfl rfl hphase hdisplays hreply hpage
  exact ⟨view', hstep, hpage'⟩

theorem playView_tells_replied :
    ∃ (view : View) (board : Board),
      Displays (gameContext 1 (str "Foo") (str "Ann") .x) board view.page view.els ∧
        view.page.requests = [] := by
  have h := playView_tells 1 (str "Foo") (str "Ann") .x
    (.next (.replied 0 (str "O|.|.\n.|X|.\n.|.|.")) (.next (.click 4) .start trivial rfl)
      ⟨_, rfl, 0, 0, rfl, rfl⟩ rfl)
  obtain ⟨board, hdisplays⟩ := h.2.1
  exact ⟨_, board, hdisplays, rfl⟩

end TictactoeBots.PlayState
