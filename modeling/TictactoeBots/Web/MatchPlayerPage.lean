import TictactoeBots.Lib.JsonText
import TictactoeBots.Lib.StepSystem
import TictactoeBots.Dispatcher.Transcript
import TictactoeBots.Web.BoardCells
import TictactoeBots.Web.MatchPage
import TictactoeBots.Web.MatchPlayer

/-!
The playback page of a match: clicks and timeouts, in any order.

The adapter `match-player.mjs` reads the moves out of the script element, keeps
one reducer state, paints it into nine cells, a caption and a button, and arms at
most one timeout for the next tick. A pending timeout may fire whenever the
browser gets to it, the delays of 300 and 1100 ms are not kept. An exception ends
a handler where it is thrown, what it has painted stays.
-/

namespace TictactoeBots.MatchPlayer

open Text Python StepSystem BoardCells

/-! ### The elements -/

/-- The values of `data-state`, which also tell the icon. -/
inductive Mode where
  | replay
  | playing
  | paused
  deriving DecidableEq, Repr

inductive Icon where
  | play
  | pause
  | replay
  deriving DecidableEq, Repr

structure PlayPause where
  mode : Mode
  /-- It has the class `replay`. -/
  replay : Bool
  icon : Icon
  deriving DecidableEq, Repr

structure Els where
  cells : List CellElement
  status : Str
  playPause : PlayPause

/-- Stopped at the last move. -/
def State.atEnd (state : State) : Bool := state.index = state.last ∧ ¬state.playing

def playPauseButton (state : State) : PlayPause :=
  let mode : Mode := if state.atEnd then .replay else if state.playing then .playing else .paused
  { mode := mode
    replay := state.atEnd
    icon := match mode with
      | .replay => .replay
      | .playing => .pause
      | .paused => .play }

/-- The painted elements, with what it throws. -/
def render (dataset : Dataset) (state : State) (els : Els) : Els × Option Str :=
  match boardAt state with
  | .error thrown => (els, some thrown)
  | .ok board =>
      match paint board.flatten els.cells with
      | (cells, some thrown) => ({ els with cells := cells }, some thrown)
      | (cells, none) =>
          match caption dataset state with
          | .error thrown => ({ els with cells := cells }, some thrown)
          | .ok text => ({ cells := cells, status := text.getD [],
                           playPause := playPauseButton state }, none)

/-! ### Events -/

/-- A pending timeout, with the action that its callback passes to `update`. -/
structure Timeout where
  id : ℕ
  action : Action

structure Page where
  state : State
  els : Els
  timer : Option ℕ
  timeouts : List Timeout
  nextId : ℕ

def setTimeout (action : Action) (page : Page) : Page × ℕ :=
  ({ page with timeouts := page.timeouts ++ [⟨page.nextId, action⟩], nextId := page.nextId + 1 },
    page.nextId)

def clearTimeout (id : ℕ) (page : Page) : Page :=
  { page with timeouts := page.timeouts.filter (·.id ≠ id) }

def scheduleTick (page : Page) : Page :=
  let page := match page.timer with
    | some id => { clearTimeout id page with timer := none }
    | none => page
  if page.state.playing then
    let (page, id) := setTimeout .tick page
    { page with timer := some id }
  else page

def update (dataset : Dataset) (action : Action) (page : Page) : Page :=
  let state := nextState page.state action
  match render dataset state page.els with
  | (els, some _) => { page with state := state, els := els }
  | (els, none) => scheduleTick { page with state := state, els := els }

/-- The buttons of the template, under their `data-action`. -/
inductive Button where
  | jumpStart
  | stepBack
  | playPause
  | stepForward
  | jumpEnd

/-- The action that a click passes to `update`. -/
def Button.action (state : State) : Button → Action
  | .jumpStart => .jumpStart
  | .stepBack => .stepBack
  | .stepForward => .stepForward
  | .jumpEnd => .jumpEnd
  | .playPause => if state.atEnd then .replay else if state.playing then .pause else .play

def templateEls : Els where
  cells := List.replicate 9 ⟨[str "cell", str "cell-empty"], []⟩
  status := str "Press play to start."
  playPause := ⟨.paused, false, .play⟩

/-- The number as a template literal shows it, if it is a whole one. -/
def wholeNumber (d : Doubles) (x : d.Double) : Option ℕ :=
  (d.toRat x).bind fun q => if (q.num.toNat : ℚ) = q then some q.num.toNat else none

/-- A parsed `error`, which is a text or `null`. -/
def parsedError {ν : Type} : Json.Value ν → Option (Option Str)
  | .null => some none
  | .str s => some (some s)
  | _ => none

/-- A parsed move; `none` for values that the server does not embed. -/
def parsedMove (d : Doubles) (v : Json.Value d.Double) : Option ForMatchRow := do
  let .obj fields := v | none
  let .num number ← Json.lookup (str "move_number") fields | none
  let .str botName ← Json.lookup (str "bot_name") fields | none
  let .str boardState ← Json.lookup (str "board_state") fields | none
  let error ← parsedError (← Json.lookup (str "error") fields)
  return ⟨← wholeNumber d number, boardState, error, botName⟩

def parsedMoves (d : Doubles) : Json.Value d.Double → Option (List ForMatchRow)
  | .arr items => items.mapM (parsedMove d)
  | _ => none

/-- `init` from the moves on. -/
def startPage (dataset : Dataset) (moves : List ForMatchRow) : Page :=
  let state := initialState moves
  match render dataset state templateEls with
  | (els, some _) => ⟨state, els, none, [], 1⟩
  | (els, none) => (setTimeout .play ⟨state, els, none, [], 1⟩).1

/-- The page after `init`, where `html` is the document from the script element
on. There is no player without the element, without moves, or if `JSON.parse`
throws. -/
def init (d : Doubles) (dataset : Dataset) (html : Str) : Option Page := do
  let text ← elementText html
  let moves ← parsedMoves d (← Json.parse d.ofDecimal (Json.utf16 text))
  if moves = [] then none else return startPage dataset moves

inductive PageEvent where
  | click (button : Button)
  | fired (i : ℕ)

def pageStep (dataset : Dataset) (page : Page) : PageEvent → Option Page
  | .click button => some (update dataset (button.action page.state) page)
  | .fired i => page.timeouts[i]?.map fun timeout =>
      update dataset timeout.action { page with timeouts := page.timeouts.eraseIdx i }

/-- It is not a click. -/
def Untouched : PageEvent → Prop
  | .click _ => False
  | .fired _ => True

/-! ### What is painted -/

/-- The elements show the state of a game with these boards. -/
structure Shows (dataset : Dataset) (boards : ℕ → Board) (state : State) (els : Els) : Prop where
  board : ShowsBoard (boards (state.index + 1).toNat) els.cells
  status : caption dataset state = .ok (some els.status)
  playPause : els.playPause = playPauseButton state

/-- The moves of a game with these boards, all with a caption. -/
structure Playable (dataset : Dataset) (boards : ℕ → Board) (moves : List ForMatchRow) : Prop where
  nonempty : moves ≠ []
  start : boards 0 = emptyBoard
  board : ∀ i (h : i < moves.length), moves[i].boardState = boardToStr (boards (i + 1))
  captioned : ∀ state, Within moves state → ∃ text, caption dataset state = .ok (some text)

section Playable

variable {dataset : Dataset} {boards : ℕ → Board} {moves : List ForMatchRow} {state : State}
  {els : Els}

theorem Playable.boardAt_eq (h : Playable dataset boards moves) (hwithin : Within moves state) :
    boardAt state = .ok (PlayState.gridOf (boards (state.index + 1).toNat)) := by
  have hlower := hwithin.lower
  have hupper := hwithin.upper
  unfold boardAt
  split
  · have hindex : (state.index + 1).toNat = 0 := by omega
    rw [hindex, h.start]
    rfl
  · have hlt : state.index.toNat < moves.length := by omega
    have hindex : (state.index + 1).toNat = state.index.toNat + 1 := by omega
    rw [readMove, hwithin.moves_eq, List.getElem?_eq_getElem hlt, hindex]
    show Except.ok (PlayState.parseBoard moves[state.index.toNat].boardState) = _
    rw [h.board _ hlt, ← PlayState.boardToStr_gridOf, PlayState.parseBoard_boardToStr]

theorem Playable.render_eq (h : Playable dataset boards moves) (hwithin : Within moves state)
    (hels : els.cells.length = 9) :
    ∃ els', render dataset state els = (els', none) ∧ Shows dataset boards state els' := by
  obtain ⟨text, htext⟩ := h.captioned state hwithin
  obtain ⟨cells, hpaint, hcells⟩ := exists_paint (boards (state.index + 1).toNat) hels
  refine ⟨⟨cells, text, playPauseButton state⟩, ?_, hcells, htext, rfl⟩
  rw [render, h.boardAt_eq hwithin]
  simp only [hpaint, htext]
  rfl

end Playable

/-! ### The timeouts -/

/-- The tick is armed exactly while the page plays, and it is the timeout that
`timer` names. `auto` is what is left of the first one. -/
structure Armed (auto : List Timeout) (page : Page) : Prop where
  auto_eq : auto = [] ∨ auto = [⟨1, .play⟩]
  timeouts : page.timeouts = auto ++ page.timer.toList.map fun id => ⟨id, .tick⟩
  timer : page.timer.isSome = page.state.playing
  fresh : ∀ id ∈ page.timer, 1 < id
  nextId : 1 < page.nextId

/-- A tick that is still armed is the timeout that `timer` names; the id may also
be that of a timeout which has fired. -/
structure Disarmable (auto : List Timeout) (page : Page) : Prop where
  auto_eq : auto = [] ∨ auto = [⟨1, .play⟩]
  timeouts : ∃ ticks, page.timeouts = auto ++ ticks ∧ ∀ t ∈ ticks, page.timer = some t.id
  fresh : ∀ id ∈ page.timer, 1 < id
  nextId : 1 < page.nextId

section Timeouts

variable {auto : List Timeout} {page : Page} {action : Action}

theorem Armed.disarmable (h : Armed auto page) : Disarmable auto page where
  auto_eq := h.auto_eq
  timeouts := by
    refine ⟨_, h.timeouts, fun t ht => ?_⟩
    obtain ⟨id, hid, rfl⟩ := List.mem_map.1 ht
    exact Option.mem_toList.1 hid
  fresh := h.fresh
  nextId := h.nextId

theorem Disarmable.filter_timeouts (h : Disarmable auto page) {id : ℕ}
    (hid : page.timer = some id) : page.timeouts.filter (·.id ≠ id) = auto := by
  obtain ⟨ticks, hticks, hnamed⟩ := h.timeouts
  have hfresh := h.fresh id hid
  have hauto : auto.filter (·.id ≠ id) = auto := by
    rcases h.auto_eq with rfl | rfl
    · rfl
    · exact List.filter_eq_self.2 fun t ht => by
        obtain rfl := List.mem_singleton.1 ht
        exact decide_eq_true (show 1 ≠ id by omega)
  have hcleared : ticks.filter (·.id ≠ id) = [] := by
    refine List.filter_eq_nil_iff.2 fun t ht => ?_
    have heq := (hnamed t ht).symm.trans hid
    simp only [Option.some.injEq] at heq
    simp [heq]
  rw [hticks, List.filter_append, hauto, hcleared, List.append_nil]

theorem Disarmable.eq_of_none (h : Disarmable auto page) (hnone : page.timer = none) :
    page.timeouts = auto := by
  obtain ⟨ticks, hticks, hnamed⟩ := h.timeouts
  cases ticks with
  | nil => rw [hticks, List.append_nil]
  | cons t ticks => exact absurd ((hnamed t List.mem_cons_self).symm.trans hnone) (by simp)

/-- `scheduleTick` comes down to the two fields that it sets. -/
theorem scheduleTick_eq (h : Disarmable auto page) :
    scheduleTick page =
      if page.state.playing then
        { page with timer := some page.nextId, timeouts := auto ++ [⟨page.nextId, .tick⟩],
                    nextId := page.nextId + 1 }
      else { page with timer := none, timeouts := auto } := by
  unfold scheduleTick
  cases htimer : page.timer with
  | none =>
      have hpage : page = { page with timer := none, timeouts := auto } := by
        rw [← htimer, ← h.eq_of_none htimer]
      simp only [setTimeout, h.eq_of_none htimer]
      split
      · rfl
      · exact hpage
  | some id =>
      simp only [clearTimeout, setTimeout, h.filter_timeouts htimer]

theorem Disarmable.scheduleTick_keeps (h : Disarmable auto page) :
    (scheduleTick page).state = page.state ∧ (scheduleTick page).els = page.els := by
  rw [scheduleTick_eq h]
  split <;> exact ⟨rfl, rfl⟩

theorem Disarmable.armed (h : Disarmable auto page) : Armed auto (scheduleTick page) := by
  have hnext := h.nextId
  rw [scheduleTick_eq h]
  cases hplaying : page.state.playing with
  | true =>
      refine ⟨h.auto_eq, rfl, hplaying.symm, fun id hid => ?_, by simp only [if_true]; omega⟩
      obtain rfl := Option.mem_some_iff.1 hid
      exact hnext
  | false => exact ⟨h.auto_eq, (List.append_nil auto).symm, hplaying.symm, by simp, hnext⟩

theorem eraseIdx_of_singleton {α : Type} {a b : α} {i : ℕ} (h : [a][i]? = some b) :
    a = b ∧ [a].eraseIdx i = [] := by
  cases i with
  | zero => exact ⟨Option.some.inj h, rfl⟩
  | succ i => exact absurd h (by simp)

theorem Armed.fired (h : Armed auto page) {i : ℕ} {timeout : Timeout}
    (htimeout : page.timeouts[i]? = some timeout) :
    (auto = [⟨1, .play⟩] ∧ timeout.action = .play ∧
        Disarmable [] { page with timeouts := page.timeouts.eraseIdx i }) ∨
      (page.state.playing ∧ timeout.action = .tick ∧
        Disarmable auto { page with timeouts := page.timeouts.eraseIdx i }) := by
  rw [h.timeouts] at htimeout ⊢
  obtain hi | hi := Nat.lt_or_ge i auto.length
  · rw [List.getElem?_append_left hi] at htimeout
    rw [List.eraseIdx_append_of_lt_length hi]
    rcases h.auto_eq with rfl | rfl
    · exact absurd hi (by simp)
    · obtain ⟨rfl, herase⟩ := eraseIdx_of_singleton htimeout
      rw [herase]
      refine .inl ⟨rfl, rfl, .inl rfl, ⟨_, rfl, fun t ht => ?_⟩, h.fresh, h.nextId⟩
      obtain ⟨id, hid, rfl⟩ := List.mem_map.1 ht
      exact Option.mem_toList.1 hid
  · rw [List.getElem?_append_right hi] at htimeout
    rw [List.eraseIdx_append_of_length_le hi]
    cases htimer : page.timer with
    | none =>
        rw [htimer] at htimeout
        exact absurd htimeout (by simp)
    | some id =>
        rw [htimer] at htimeout
        obtain ⟨rfl, herase⟩ := eraseIdx_of_singleton htimeout
        have hplaying : page.state.playing := by rw [← h.timer, htimer]; rfl
        refine .inr ⟨hplaying, rfl, h.auto_eq, ⟨[], ?_, by simp⟩, ?_, h.nextId⟩
        · show auto ++ List.eraseIdx _ _ = _
          exact congrArg _ herase
        · exact htimer ▸ h.fresh

end Timeouts

/-! ### Runs -/

/-- The page shows its state, and its timeouts are as the state wants them. -/
structure PageSound (dataset : Dataset) (boards : ℕ → Board) (moves : List ForMatchRow)
    (page : Page) : Prop where
  within : Within moves page.state
  shows : Shows dataset boards page.state page.els
  armed : ∃ auto, Armed auto page

/-- Firings until the page has come to rest, at most. -/
def rank (page : Page) : ℕ :=
  (if page.timeouts.length = page.timer.toList.length then 0 else page.state.moves.length + 2) +
    if page.state.playing then (page.state.moves.length - page.state.index).toNat else 0

section Runs

variable {dataset : Dataset} {boards : ℕ → Board} {moves : List ForMatchRow} {page page' : Page}
  {auto : List Timeout}

theorem Playable.update_sound (h : Playable dataset boards moves) (action : Action)
    (htimers : Disarmable auto page) (hwithin : Within moves page.state)
    (hels : page.els.cells.length = 9) :
    (update dataset action page).state = nextState page.state action ∧
      Shows dataset boards (update dataset action page).state (update dataset action page).els ∧
      Armed auto (update dataset action page) := by
  obtain ⟨els, hrender, hshows⟩ := h.render_eq (within_nextState h.nonempty hwithin action) hels
  have hmiddle : Disarmable auto
      { page with state := nextState page.state action, els := els } :=
    ⟨htimers.auto_eq, htimers.timeouts, htimers.fresh, htimers.nextId⟩
  obtain ⟨hstate, hels'⟩ := hmiddle.scheduleTick_keeps
  have hupdate : update dataset action page =
      scheduleTick { page with state := nextState page.state action, els := els } := by
    rw [update]
    simp only [hrender]
  rw [hupdate, hstate, hels']
  exact ⟨rfl, hshows, hmiddle.armed⟩

theorem Playable.pageSound_startPage (h : Playable dataset boards moves) :
    PageSound dataset boards moves (startPage dataset moves) := by
  have hpos := List.length_pos_iff.2 h.nonempty
  have hwithin : Within moves (initialState moves) :=
    ⟨rfl, le_rfl, by simp only [initialState]; omega⟩
  have hcells : templateEls.cells.length = 9 := rfl
  obtain ⟨els, hrender, hshows⟩ := h.render_eq hwithin hcells
  have hstart : startPage dataset moves =
      (setTimeout .play ⟨initialState moves, els, none, [], 1⟩).1 := by
    rw [startPage]
    simp only [hrender]
  rw [hstart]
  exact ⟨hwithin, hshows, _, .inr rfl, rfl, rfl, by simp [setTimeout],
    Nat.lt_succ_self 1⟩

theorem Playable.click (h : Playable dataset boards moves)
    (hsound : PageSound dataset boards moves page) (button : Button) :
    PageSound dataset boards moves (update dataset (button.action page.state) page) := by
  obtain ⟨auto, harmed⟩ := hsound.armed
  obtain ⟨hstate, hshows, harmed'⟩ := h.update_sound (button.action page.state)
    harmed.disarmable hsound.within hsound.shows.board.length
  exact ⟨hstate ▸ within_nextState h.nonempty hsound.within _, hshows, _, harmed'⟩

theorem Armed.rank_eq (h : Armed auto page) :
    rank page = (if auto = [] then 0 else page.state.moves.length + 2) +
      if page.state.playing then (page.state.moves.length - page.state.index).toNat else 0 := by
  have hcount : (page.timeouts.length = page.timer.toList.length) = (auto = []) := by
    rw [h.timeouts, List.length_append, List.length_map, Nat.add_eq_right,
      List.length_eq_zero_iff]
  rw [rank, if_congr (iff_of_eq hcount) rfl rfl]

theorem Armed.timeouts_ne_nil (h : Armed auto page) (hplaying : page.state.playing) :
    page.timeouts ≠ [] := by
  have htimer := h.timer.trans hplaying
  rw [h.timeouts]
  cases htick : page.timer with
  | none => exact absurd (htick ▸ htimer) (by simp)
  | some id => simp

theorem Playable.fired (h : Playable dataset boards moves)
    (hsound : PageSound dataset boards moves page) {i : ℕ}
    (hstep : pageStep dataset page (.fired i) = some page') :
    PageSound dataset boards moves page' ∧ rank page' < rank page ∧
      (page'.timeouts = [] → page'.state.atEnd) := by
  obtain ⟨timeout, htimeout, hpage⟩ := Option.map_eq_some_iff.1 hstep
  obtain ⟨auto, harmed⟩ := hsound.armed
  have hcells := hsound.shows.board.length
  have hmoves := hsound.within.moves_eq
  have hlower := hsound.within.lower
  have hupper := hsound.within.upper
  have hlast : page.state.last = moves.length - 1 := by rw [State.last, hmoves]
  have hwithin := within_nextState h.nonempty hsound.within timeout.action
  rcases harmed.fired htimeout with ⟨rfl, haction, hleft⟩ | ⟨hplaying, haction, hleft⟩
  all_goals
    obtain ⟨hstate, hshows, harmed'⟩ := h.update_sound timeout.action hleft hsound.within hcells
    rw [hpage] at hstate hshows harmed'
    refine ⟨⟨hstate ▸ hwithin, hshows, _, harmed'⟩, ?_⟩
    rw [haction] at hstate
    rw [harmed.rank_eq, harmed'.rank_eq, hstate]
  · have hplays := congrArg State.playing hstate
    refine ⟨?_, fun hnil => absurd hnil (harmed'.timeouts_ne_nil hplays)⟩
    simp only [nextState, if_true, reduceCtorEq, if_false, hmoves]
    split <;> omega
  · simp only [nextState, hplaying, if_true, advance, ge_iff_le, hlast] at hstate ⊢
    by_cases hend : moves.length - 1 ≤ page.state.index
    · rw [if_pos hend] at hstate ⊢
      have hindex : page.state.index = page.state.last := by omega
      refine ⟨?_, fun _ => decide_eq_true ⟨hindex, Bool.false_ne_true⟩⟩
      simp only [Bool.false_eq_true, if_false, hmoves]
      omega
    · rw [if_neg hend] at hstate ⊢
      have hplays : page'.state.playing := by rw [hstate]
      refine ⟨?_, fun hnil => absurd hnil (harmed'.timeouts_ne_nil hplays)⟩
      simp only [if_true, hmoves]
      omega

theorem Playable.step (h : Playable dataset boards moves)
    (hsound : PageSound dataset boards moves page) {event : PageEvent}
    (hstep : pageStep dataset page event = some page') : PageSound dataset boards moves page' := by
  cases event with
  | click button => exact Option.some.inj hstep ▸ h.click hsound button
  | fired i => exact (h.fired hsound hstep).1

theorem Playable.pageSound_of_reachable (h : Playable dataset boards moves)
    (hpage : Reachable (pageStep dataset) (startPage dataset moves) page) :
    PageSound dataset boards moves page :=
  hpage.invariant h.pageSound_startPage fun _ _ _ hsound hstep => h.step hsound hstep

/-- Without clicks every timeout that fires is one less to come, and the last one
leaves the page at the last move. -/
theorem Playable.untouched (h : Playable dataset boards moves) :
    ∀ {events : List PageEvent} {page : Page}, PageSound dataset boards moves page →
      (∀ event ∈ events, Untouched event) → exec (pageStep dataset) page events = some page' →
        events.length + rank page' ≤ rank page ∧
          (events ≠ [] → page'.timeouts = [] → page'.state.atEnd)
  | [], page, _, _, hexec => by
      obtain rfl := Option.some.inj hexec
      exact ⟨by simp, fun hne => absurd rfl hne⟩
  | .click _ :: _, _, _, huntouched, _ => (huntouched _ List.mem_cons_self).elim
  | .fired i :: events, page, hsound, huntouched, hexec => by
      obtain ⟨next, hnext, hrest⟩ := Option.bind_eq_some_iff.1 hexec
      obtain ⟨hsound', hrank, hend⟩ := h.fired hsound hnext
      obtain ⟨hlength, hends⟩ := h.untouched hsound'
        (fun event hevent => huntouched event (List.mem_cons_of_mem _ hevent)) hrest
      refine ⟨by rw [List.length_cons]; omega, fun _ hnil => ?_⟩
      cases events with
      | nil => exact Option.some.inj hrest ▸ hend (Option.some.inj hrest ▸ hnil)
      | cons event events => exact hends (List.cons_ne_nil _ _) hnil

theorem PageSound.mode_eq_replay_iff (h : PageSound dataset boards moves page) :
    page.els.playPause.mode = .replay ↔
      page.state.index = moves.length - 1 ∧ page.state.playing = false := by
  have hlast : page.state.last = moves.length - 1 := by rw [State.last, h.within.moves_eq]
  rw [h.shows.playPause, ← hlast]
  show (if page.state.atEnd then Mode.replay else _) = _ ↔ _
  unfold State.atEnd
  cases page.state.playing <;> simp

theorem PageSound.mode_eq_playing_iff (h : PageSound dataset boards moves page) :
    page.els.playPause.mode = .playing ↔ page.state.playing := by
  rw [h.shows.playPause]
  show (if page.state.atEnd then Mode.replay else _) = _ ↔ _
  unfold State.atEnd
  cases page.state.playing with
  | true => simp
  | false =>
      simp only [Bool.false_eq_true, if_false, iff_false]
      split <;> simp

theorem PageSound.rank_le (h : PageSound dataset boards moves page) :
    rank page ≤ 2 * moves.length + 3 := by
  obtain ⟨auto, harmed⟩ := h.armed
  have hlower := h.within.lower
  rw [harmed.rank_eq, h.within.moves_eq]
  split_ifs <;> omega

end Runs

/-! ### The embedded moves -/

def detailOf (row : ForMatchRow) : MoveDetail :=
  ⟨.ofNat row.moveNumber, row.boardState, row.error, row.botName⟩

section Embedded

variable {d : Doubles} {row : ForMatchRow} {rows : List ForMatchRow}

theorem wholeNumber_of_toRat {x : d.Double} {n : ℕ} (hn : n < 2 ^ 31)
    (hx : d.toRat x = some ((Int32.ofNat n).toInt : ℚ)) : wholeNumber d x = some n := by
  rw [wholeNumber, hx, Int32.toInt_ofNat_of_lt hn]
  simp

theorem parsedMove_of_shows {v : Json.Value d.Double} (hnumber : row.moveNumber < 2 ^ 31)
    (hshows : ShowsMove d v (detailOf row)) : parsedMove d v = some (embedded row) := by
  obtain ⟨fields, n, rfl, hn, hwhole, hname, hboard, herror⟩ := hshows
  have hparsed : parsedError (Json.toJs d.ofDecimal (errorValue row.error)) =
      some (row.error.map Json.utf16) := by
    cases row.error <;> rfl
  have hnumber := wholeNumber_of_toRat hnumber hwhole
  simp only [parsedMove, hn, hname, hboard, herror, detailOf, hnumber, hparsed, bind,
    Option.bind]
  rfl

theorem parsedMoves_of_shows {v : Json.Value d.Double}
    (hnumbers : ∀ row ∈ rows, row.moveNumber < 2 ^ 31)
    (hshows : ShowsMoves d v (rows.map detailOf)) : parsedMoves d v = some (rows.map embedded) := by
  obtain ⟨items, rfl, hitems⟩ := hshows
  rw [parsedMoves]
  induction rows generalizing items with
  | nil =>
      rw [List.map_nil, List.forall₂_nil_right_iff] at hitems
      rw [hitems]
      rfl
  | cons row rows ih =>
      rw [List.map_cons, List.forall₂_cons_right_iff] at hitems
      obtain ⟨item, items, hitem, hitems, rfl⟩ := hitems
      rw [List.forall_mem_cons] at hnumbers
      rw [List.mapM_cons, parsedMove_of_shows hnumbers.1 hitem, ih hnumbers.2 _ hitems]
      rfl

theorem init_of_inert (d : Doubles) (dataset : Dataset) (hrows : rows ≠ [])
    (hnumbers : ∀ row ∈ rows, row.moveNumber < 2 ^ 31)
    (hinert : ∀ row ∈ rows, ∀ s ∈ (detailOf row).texts, ¬Html.HasEndTag s) (after : Str) :
    init d dataset (movesElement (rows.map detailOf) ++ after) =
      some (startPage dataset (rows.map embedded)) := by
  have htexts : ¬Html.HasEndTag (movesJson (rows.map detailOf)) := by
    rw [hasEndTag_movesJson_iff]
    rintro ⟨move, hmove, s, hs, htag⟩
    obtain ⟨row, hrow, rfl⟩ := List.mem_map.1 hmove
    exact hinert row hrow s hs htag
  have hdetails : rows.map detailOf ≠ [] := by simpa using hrows
  have hmoves : rows.map embedded ≠ [] := by simpa using hrows
  obtain ⟨htext, v, hparse, hshows⟩ := exists_parsedMoves d htexts hdetails after
  simp only [init, htext, hparse, parsedMoves_of_shows hnumbers hshows, bind, Option.bind,
    if_neg hmoves]
  rfl

end Embedded

/-! ### Recorded matches -/

theorem not_hasEndTag_boardToStr (b : Board) : ¬Html.HasEndTag (boardToStr b) := by
  intro htag
  have hmem : (0x3c : CodePoint) ∈ (boardToStr b).map lowerAscii :=
    htag.subset List.mem_cons_self
  obtain ⟨c, hc, hlower⟩ := List.mem_map.1 hmem
  have hcases : c ∈ [0x58, 0x4f, 0x2e, 0x7c, 0x0a] := (plainBoardText_boardToStr b).chars c hc
  simp only [List.mem_cons, List.not_mem_nil, or_false] at hcases
  rcases hcases with rfl | rfl | rfl | rfl | rfl <;> exact absurd hlower (by decide)

theorem inert_of_stored {m : MatchResult} {botX botO : BotRow} {boards : ℕ → Board}
    (hlegal : LegalTranscript boards m) (hx : ¬Html.HasEndTag botX.versionedName)
    (ho : ¬Html.HasEndTag botO.versionedName)
    (herrors : ∀ move ∈ m.moves, ∀ error, move.error = .str error → ¬Html.HasEndTag error) :
    ∀ row ∈ m.moves.map (moveDetail botX botO), row.moveNumber < 2 ^ 31 ∧
      ∀ s ∈ (detailOf row).texts, ¬Html.HasEndTag s := by
  intro row hrow
  obtain ⟨move, hmove, rfl⟩ := List.mem_map.1 hrow
  obtain ⟨i, hi, rfl⟩ := List.mem_iff_getElem.1 hmove
  have hmove := hlegal.recorded.legal i hi
  have hnine := hlegal.atMostNine
  refine ⟨?_, ?_⟩
  · show m.moves[i].moveNumber < 2 ^ 31
    rw [hmove.number]
    omega
  · show ∀ s ∈ (moveDetail botX botO m.moves[i]).botName :: m.moves[i].board ::
      (textColumn m.moves[i].error).join.toList, _
    rw [List.forall_mem_cons, List.forall_mem_cons]
    refine ⟨?_, ?_, fun s hs => ?_⟩
    · rw [moveDetail]
      simp only
      split <;> assumption
    · rw [hmove.board]
      exact not_hasEndTag_boardToStr _
    · refine herrors _ (List.getElem_mem hi) s ?_
      rw [Option.mem_toList] at hs
      have hs := Option.join_eq_some_iff.1 hs
      cases herror : m.moves[i].error with
      | str text =>
          rw [herror, textColumn, Option.ite_none_right_eq_some] at hs
          rw [Option.some.inj (Option.some.inj hs.2)]
      | _ => simp [herror, textColumn] at hs


theorem utf16_boardToStr (b : Board) : Json.utf16 (boardToStr b) = boardToStr b := by
  have hascii : (str "XO.|\n").all fun c => c.val < 0x10000 := rfl
  exact Json.utf16_of_lt fun c hc =>
    of_decide_eq_true (List.all_eq_true.1 hascii c ((plainBoardText_boardToStr b).chars c hc))

theorem playable_of_stored {db db' : Db} {botX botO : BotRow} {m : MatchResult} {row : MatchRow}
    {boards : ℕ → Board} (hfinished : Finished m) (hlegal : LegalTranscript boards m)
    (hstored : StoredMatch db db' botX botO m row)
    (htexts : ∀ move ∈ m.moves, (textColumn move.error).isSome) {bots : List BotRow}
    {moveRows : List MoveRow} (hbots : bots.Perm db'.bots)
    (hmoveRows : moveRows.Perm db'.moveRows) :
    Playable (datasetOf botX botO row) boards ((forMatch bots moveRows row.id).map embedded) := by
  obtain ⟨front, last, hmoves, hlast⟩ :=
    lastMove_of_stored hfinished hstored htexts hbots hmoveRows
  refine ⟨by simp [hmoves], hlegal.recorded.start, ?_, ?_⟩
  · rw [hstored.readBack bots moveRows hbots hmoveRows, List.map_map]
    intro i hi
    rw [List.length_map] at hi
    rw [List.getElem_map]
    show Json.utf16 m.moves[i].board = _
    rw [(hlegal.recorded.legal i hi).board, utf16_boardToStr]
  · rw [hmoves]
    intro state hwithin
    exact (hwithin.caption_of_lastMove botX botO hlast).1

end TictactoeBots.MatchPlayer
