import TictactoeBots.Entities.ReadBack
import TictactoeBots.Lib.JsonParse
import TictactoeBots.Web.PlayState

/-!
The playback of a match on its page.

The reducer of `match-player-state.mjs` keeps an index into the moves, where -1
stands for the empty board before the first of them. The captions are those of
`render` in `match-player.mjs`, with `none` for `undefined`. What makes them
texts is a fact about recorded matches: the last move of a forfeit carries a
non-empty error, so the result is asked for only where somebody won or nobody.
-/

namespace TictactoeBots.MatchPlayer

open Text Python StepSystem

structure State where
  moves : List ForMatchRow
  index : ℤ
  playing : Bool

inductive Action where
  | play
  | pause
  | stepForward
  | stepBack
  | jumpStart
  | jumpEnd
  | tick
  | replay
  | unknown (type : Str)

def initialState (moves : List ForMatchRow) : State := ⟨moves, -1, false⟩

def State.last (state : State) : ℤ := state.moves.length - 1

/-- The case that `stepForward` and `tick` share. -/
def advance (state : State) : State :=
  if state.index ≥ state.last then { state with playing := false }
  else { state with index := state.index + 1 }

def nextState (state : State) : Action → State
  | .play => { state with playing := true }
  | .pause => { state with playing := false }
  | .stepForward => advance state
  | .tick => if state.playing then advance state else state
  | .stepBack => { state with index := max (-1) (state.index - 1), playing := false }
  | .jumpStart => { state with index := -1, playing := false }
  | .jumpEnd => { state with index := state.last, playing := false }
  | .replay => { state with index := -1, playing := true }
  | .unknown _ => state

def playback (moves : List ForMatchRow) (actions : List Action) : State :=
  actions.foldl nextState (initialState moves)

/-! ### What is shown -/

/-- A property of `moves[index]`, which throws when there is no such move. -/
def readMove {α : Type} (state : State) (property : String) (read : ForMatchRow → α) :
    Except Str α :=
  match state.moves[state.index.toNat]? with
  | some move => .ok (read move)
  | none =>
      .error (str "Cannot read properties of undefined (reading '" ++ str property ++ str "')")

def boardAt (state : State) : Except Str PlayState.Grid :=
  if state.index < 0 then .ok PlayState.emptyGrid
  else (readMove state "board_state" ForMatchRow.boardState).map PlayState.parseBoard

/-- The data attributes of the board element. -/
structure Dataset where
  xBot : Str
  oBot : Str
  result : Str

def matchOverCaption (dataset : Dataset) : Option Str :=
  if dataset.result = str "x_wins" then some (dataset.xBot ++ str " won")
  else if dataset.result = str "o_wins" then some (dataset.oBot ++ str " won")
  else if dataset.result = str "cat" then some (str "Cat game")
  else none

/-- The caption of a move, `isLast` for the last one. -/
def moveCaption (dataset : Dataset) (isLast : Bool) (move : ForMatchRow) : Option Str :=
  match move.error with
  | some (c :: error) => some (move.botName ++ str " forfeited: " ++ c :: error)
  | _ =>
      if isLast then matchOverCaption dataset
      else some (str "Move " ++ decimal move.moveNumber ++ str " — " ++ move.botName)

def caption (dataset : Dataset) (state : State) : Except Str (Option Str) :=
  if state.index < 0 then
    .ok (some (if state.playing then dataset.xBot ++ str " is about to move…"
      else str "Press play to start."))
  else readMove state "error" (moveCaption dataset (state.index = state.last))

/-- `render` comes to `matchOverCaption`. -/
def AsksResult (state : State) : Prop :=
  0 ≤ state.index ∧ state.index = state.last ∧
    ∃ move, state.moves[state.index.toNat]? = some move ∧
      (move.error = none ∨ move.error = some [])

/-! ### The index stays in the list -/

/-- The state shows the empty board or one of the moves. -/
structure Within (moves : List ForMatchRow) (state : State) : Prop where
  moves_eq : state.moves = moves
  lower : -1 ≤ state.index
  upper : state.index ≤ moves.length - 1

theorem within_advance {moves : List ForMatchRow} {state : State} (h : Within moves state) :
    Within moves (advance state) := by
  obtain ⟨rfl, hlower, hupper⟩ := h
  unfold advance State.last
  split
  · exact ⟨rfl, hlower, hupper⟩
  · refine ⟨rfl, ?_, ?_⟩ <;> simp only <;> omega

theorem within_nextState {moves : List ForMatchRow} {state : State} (hmoves : moves ≠ [])
    (h : Within moves state) (action : Action) : Within moves (nextState state action) := by
  have hpos := List.length_pos_iff.2 hmoves
  cases action with
  | stepForward => exact within_advance h
  | tick =>
      simp only [nextState]
      split
      · exact within_advance h
      · exact h
  | play | pause => exact ⟨h.moves_eq, h.lower, h.upper⟩
  | unknown type => exact h
  | stepBack =>
      have hupper := h.upper
      refine ⟨h.moves_eq, le_max_left _ _, ?_⟩
      simp only [nextState]
      omega
  | jumpStart | replay =>
      refine ⟨h.moves_eq, le_rfl, ?_⟩
      simp only [nextState]
      omega
  | jumpEnd =>
      have hlast : state.last = moves.length - 1 := by rw [State.last, h.moves_eq]
      refine ⟨h.moves_eq, ?_, ?_⟩ <;> simp only [nextState, hlast] <;> omega

theorem within_playback {moves : List ForMatchRow} (hmoves : moves ≠ []) (actions : List Action) :
    Within moves (playback moves actions) := by
  have hpos := List.length_pos_iff.2 hmoves
  have hstart : Within moves (initialState moves) :=
    ⟨rfl, le_rfl, by simp only [initialState]; omega⟩
  induction actions using List.reverseRecOn with
  | nil => exact hstart
  | append_singleton actions action ih =>
      rw [playback, List.foldl_append]
      exact within_nextState hmoves ih action

theorem Within.exists_move {moves : List ForMatchRow} {state : State} (h : Within moves state)
    (hindex : ¬state.index < 0) :
    ∃ move, moves[state.index.toNat]? = some move ∧
      ∀ {α : Type} property (read : ForMatchRow → α),
        readMove state property read = .ok (read move) := by
  have hupper := h.upper
  have hlt : state.index.toNat < moves.length := by omega
  refine ⟨moves[state.index.toNat], List.getElem?_eq_getElem hlt, fun property read => ?_⟩
  rw [readMove, h.moves_eq, List.getElem?_eq_getElem hlt]

theorem Within.boardAt_isOk {moves : List ForMatchRow} {state : State} (h : Within moves state) :
    ∃ board, boardAt state = .ok board := by
  unfold boardAt
  split
  · exact ⟨_, rfl⟩
  · rename_i hindex
    obtain ⟨move, -, hread⟩ := h.exists_move hindex
    rw [hread]
    exact ⟨_, rfl⟩

theorem Within.caption_isOk {moves : List ForMatchRow} {state : State} (h : Within moves state)
    (dataset : Dataset) : ∃ text, caption dataset state = .ok text := by
  unfold caption
  split
  · exact ⟨_, rfl⟩
  · rename_i hindex
    obtain ⟨move, -, hread⟩ := h.exists_move hindex
    rw [hread]
    exact ⟨_, rfl⟩

/-! ### Playing to the end -/

def ticks (n : ℕ) (state : State) : State := (fun s => nextState s .tick)^[n] state

theorem ticks_succ (n : ℕ) (state : State) :
    ticks (n + 1) state = nextState (ticks n state) .tick :=
  Function.iterate_succ_apply' _ n state

/-- Up to the last move every tick shows the next one. -/
theorem ticks_of_le {state : State} (hplaying : state.playing) {n : ℕ}
    (hn : state.index + n ≤ state.last) :
    ticks n state = { state with index := state.index + n } := by
  induction n with
  | zero => simp [ticks]
  | succ n ih =>
      have hbefore : ¬state.index + n ≥ state.last := by omega
      rw [ticks_succ, ih (by omega)]
      simp only [nextState, hplaying, if_true, advance, State.last, ge_iff_le] at hbefore ⊢
      rw [if_neg hbefore]
      simp only [Nat.cast_succ, add_assoc]

theorem ticks_end {moves : List ForMatchRow} {state : State} (h : Within moves state)
    (hplaying : state.playing) {n : ℕ} (hn : state.index + n = moves.length) :
    ticks n state = { state with index := state.last, playing := false } := by
  have hlast : state.last = moves.length - 1 := by rw [State.last, h.moves_eq]
  have hupper := h.upper
  obtain ⟨k, rfl⟩ : ∃ k, n = k + 1 := ⟨n - 1, by omega⟩
  have hk : state.index + k = state.last := by omega
  rw [ticks_succ, ticks_of_le hplaying hk.le, hk]
  simp only [nextState, hplaying, if_true, advance]
  exact if_pos le_rfl

/-- Ticks alone stop at the last move, and not before. -/
theorem Within.ticks_stop {moves : List ForMatchRow} {state : State} (h : Within moves state)
    (hplaying : state.playing) {n : ℕ} (hn : state.index + n = moves.length) :
    (ticks n state).playing = false ∧ (ticks n state).index = moves.length - 1 ∧
      ∀ k < n, (ticks k state).playing := by
  have hlast : state.last = moves.length - 1 := by rw [State.last, h.moves_eq]
  refine ⟨?_, ?_, fun k hk => ?_⟩
  · rw [ticks_end h hplaying hn]
  · rw [ticks_end h hplaying hn, hlast]
  · rw [ticks_of_le hplaying (by omega)]
    exact hplaying

/-! ### Recorded matches -/

/-- A row of the query as the player gets it. -/
def embedded (row : ForMatchRow) : ForMatchRow where
  moveNumber := row.moveNumber
  boardState := Json.utf16 row.boardState
  error := row.error.map Json.utf16
  botName := Json.utf16 row.botName

def datasetOf (botX botO : BotRow) (row : MatchRow) : Dataset :=
  ⟨Json.utf16 botX.versionedName, Json.utf16 botO.versionedName, row.result.value⟩

/-- Outcomes that somebody or nobody won by playing. -/
def playedOut : List MatchOutcome := [.xWins, .oWins, .cat]

theorem matchOverCaption_isSome {dataset : Dataset} {result : MatchOutcome}
    (hresult : dataset.result = result.value) (h : result ∈ playedOut) :
    (matchOverCaption dataset).isSome := by
  unfold matchOverCaption
  rw [hresult]
  simp only [playedOut, List.mem_cons, List.not_mem_nil, or_false] at h
  rcases h with rfl | rfl | rfl <;> rfl

theorem moveCaption_of_error (dataset : Dataset) (isLast : Bool) {move : ForMatchRow} {error : Str}
    (herror : move.error = some error) (hne : error ≠ []) :
    (moveCaption dataset isLast move).isSome := by
  obtain ⟨c, rest, rfl⟩ := List.exists_cons_of_ne_nil hne
  simp [moveCaption, herror]

theorem moveCaption_of_not_last (dataset : Dataset) (move : ForMatchRow) :
    (moveCaption dataset false move).isSome := by
  unfold moveCaption
  split <;> rfl

theorem moveCaption_of_result {dataset : Dataset} (h : (matchOverCaption dataset).isSome)
    (isLast : Bool) (move : ForMatchRow) : (moveCaption dataset isLast move).isSome := by
  cases isLast with
  | false => exact moveCaption_of_not_last dataset move
  | true =>
      unfold moveCaption
      split
      · rfl
      · exact h

theorem Within.move_at_last {front : List ForMatchRow} {last move : ForMatchRow} {state : State}
    (h : Within (front ++ [last]) state) (hlast : state.index = state.last)
    (hmove : (front ++ [last])[state.index.toNat]? = some move) : move = last := by
  have hindex : state.index.toNat = front.length := by
    rw [hlast, State.last, h.moves_eq, List.length_append, List.length_singleton]
    omega
  rw [hindex, List.getElem?_concat_length] at hmove
  exact (Option.some.inj hmove).symm

theorem Within.caption_defined {front : List ForMatchRow} {last : ForMatchRow} {state : State}
    (h : Within (front ++ [last]) state) {dataset : Dataset}
    (hlast : (∃ error, last.error = some error ∧ error ≠ []) ∨ (matchOverCaption dataset).isSome) :
    ∃ text, caption dataset state = .ok (some text) := by
  unfold caption
  split
  · exact ⟨_, rfl⟩
  · rename_i hindex
    obtain ⟨move, hmove, hread⟩ := h.exists_move hindex
    have hsome : (moveCaption dataset (state.index = state.last) move).isSome := by
      by_cases hend : state.index = state.last
      · obtain rfl := h.move_at_last hend hmove
        obtain ⟨error, herror, hne⟩ | hresult := hlast
        · exact moveCaption_of_error dataset _ herror hne
        · exact moveCaption_of_result hresult _ move
      · rw [decide_eq_false hend]
        exact moveCaption_of_not_last dataset move
    obtain ⟨text, htext⟩ := Option.isSome_iff_exists.1 hsome
    exact ⟨text, by rw [hread, htext]⟩

theorem utf16_ne_nil {s : Str} (h : s ≠ []) : Json.utf16 s ≠ [] := by
  obtain ⟨c, rest, rfl⟩ := List.exists_cons_of_ne_nil h
  have hunits : Json.utf16Units c ≠ [] := by
    unfold Json.utf16Units
    split <;> simp
  simp [Json.utf16, hunits]

theorem exists_embedded_error {botX botO : BotRow} {move : Move} (herror : truthy move.error)
    (hstored : (textColumn move.error).isSome) :
    ∃ error, (embedded (moveDetail botX botO move)).error = some error ∧ error ≠ [] := by
  obtain ⟨text, hne, htext⟩ := @error_of_stored botX botO move herror hstored
  exact ⟨Json.utf16 text, by simp [embedded, htext], utf16_ne_nil hne⟩

theorem lastMove_of_finished {m : MatchResult} (h : Finished m) (botX botO : BotRow)
    (hstored : ∀ move ∈ m.moves, (textColumn move.error).isSome) :
    ∃ front last, m.moves.map (fun move => embedded (moveDetail botX botO move)) = front ++ [last] ∧
      ((∃ error, last.error = some error ∧ error ≠ []) ∨ m.result ∈ playedOut) := by
  cases h with
  | @forfeit n board moves error hplayed herror =>
      have hlast := hstored (forfeitMove n board error) (by simp)
      exact ⟨_, _, List.map_append, .inl (exists_embedded_error herror hlast)⟩
  | @line n board newBoard moves hplayed hadds hline =>
      refine ⟨_, _, List.map_append, .inr ?_⟩
      cases mover n <;> simp [Player.wins, playedOut]
  | @full board newBoard moves hplayed hadds hlines =>
      exact ⟨_, _, List.map_append, .inr (by simp [playedOut])⟩

theorem lastMove_of_stored {db db' : Db} {botX botO : BotRow} {m : MatchResult} {row : MatchRow}
    (hfinished : Finished m) (hstored : StoredMatch db db' botX botO m row)
    (htexts : ∀ move ∈ m.moves, (textColumn move.error).isSome) {bots : List BotRow}
    {moveRows : List MoveRow} (hbots : bots.Perm db'.bots) (hmoveRows : moveRows.Perm db'.moveRows) :
    ∃ front last, (forMatch bots moveRows row.id).map embedded = front ++ [last] ∧
      ((∃ error, last.error = some error ∧ error ≠ []) ∨ row.result ∈ playedOut) := by
  obtain ⟨front, last, hmoves, hlast⟩ := lastMove_of_finished hfinished botX botO htexts
  refine ⟨front, last, ?_, hstored.result ▸ hlast⟩
  rw [hstored.readBack bots moveRows hbots hmoveRows, List.map_map, ← hmoves]
  rfl

theorem Within.caption_of_lastMove {front : List ForMatchRow} {last : ForMatchRow} {state : State}
    (h : Within (front ++ [last]) state) (botX botO : BotRow) {row : MatchRow}
    (hlast : (∃ error, last.error = some error ∧ error ≠ []) ∨ row.result ∈ playedOut) :
    (∃ text, caption (datasetOf botX botO row) state = .ok (some text)) ∧
      (AsksResult state → row.result ∈ playedOut) := by
  constructor
  · exact h.caption_defined (hlast.imp_right (matchOverCaption_isSome rfl))
  · rintro ⟨-, hend, move, hmove, herror⟩
    rw [h.moves_eq] at hmove
    obtain rfl := h.move_at_last hend hmove
    obtain ⟨error, hsome, hne⟩ | hplayed := hlast
    · rcases herror with hnone | hempty
      · exact absurd (hsome.symm.trans hnone) (by simp)
      · exact absurd (Option.some.inj (hsome.symm.trans hempty)) hne
    · exact hplayed

/-- The playback stays within the moves and plays them to their end, and for every
recorded match it always has a caption. -/
theorem playback_sound :
    (∀ moves, moves ≠ [] → ∀ actions, Within moves (playback moves actions)) ∧
    (∀ moves, moves ≠ [] → ∀ actions dataset,
      (∃ board, boardAt (playback moves actions) = .ok board) ∧
        ∃ text, caption dataset (playback moves actions) = .ok text) ∧
    (∀ moves, moves ≠ [] → ∀ actions, (playback moves actions).playing →
      let n := (moves.length - (playback moves actions).index).toNat
      (ticks n (playback moves actions)).playing = false ∧
        (ticks n (playback moves actions)).index = moves.length - 1 ∧
        ∀ k < n, (ticks k (playback moves actions)).playing) ∧
    ∀ U coreV1 ask podNameX podNameO turnTimeout m db now botX botO correlationId,
      runMatchFromPods U coreV1 ask podNameX podNameO turnTimeout = .ok (some m) →
      db.Constrained → botX ∈ db.bots → botO ∈ db.bots →
      (db.record now botX.id botO.id m correlationId).2 = .ok () →
        ∃ row, StoredMatch db (db.record now botX.id botO.id m correlationId).1 botX botO m row ∧
          ∀ bots moveRows, bots.Perm (db.record now botX.id botO.id m correlationId).1.bots →
            moveRows.Perm (db.record now botX.id botO.id m correlationId).1.moveRows →
            let moves := (forMatch bots moveRows row.id).map embedded
            moves ≠ [] ∧ ∀ actions,
              (∃ text, caption (datasetOf botX botO row) (playback moves actions) =
                .ok (some text)) ∧
              (AsksResult (playback moves actions) → row.result ∈ playedOut) := by
  refine ⟨fun moves hmoves actions => within_playback hmoves actions, ?_, ?_, ?_⟩
  · intro moves hmoves actions dataset
    have hwithin := within_playback hmoves actions
    exact ⟨hwithin.boardAt_isOk, hwithin.caption_isOk dataset⟩
  · intro moves hmoves actions hplaying n
    have hwithin := within_playback hmoves actions
    have hupper := hwithin.upper
    have hn : (playback moves actions).index + n = moves.length := by omega
    exact hwithin.ticks_stop hplaying hn
  · intro U coreV1 ask podNameX podNameO turnTimeout m db now botX botO correlationId hrun hdb hx
      ho hok
    obtain ⟨m', hm, hfinished⟩ := runMatchFromPods_finished hrun
    obtain rfl := Option.some.inj hm
    obtain ⟨row, hstored⟩ := storedMatch_of_record hdb hfinished hx ho hok
    obtain ⟨rows, hrows, -⟩ := Db.record_ok hok
    refine ⟨row, hstored, fun bots moveRows hbots hmoveRows => ?_⟩
    obtain ⟨front, last, hshown, hlast⟩ :=
      lastMove_of_stored hfinished hstored (stored_of_rows hrows) hbots hmoveRows
    rw [hshown]
    refine ⟨by simp, fun actions => ?_⟩
    have hwithin := within_playback (List.concat_ne_nil last front) actions
    exact hwithin.caption_of_lastMove botX botO hlast

def brokenOffMoves : List ForMatchRow :=
  brokenOffMatch.moves.map fun move => embedded (moveDetail fooBot barBot move)

/-- The match is recorded and played to its end. -/
theorem playback_sound_brokenOff :
    Within brokenOffMoves (playback brokenOffMoves [.play, .tick, .stepBack, .play, .jumpEnd]) ∧
      (∃ board, boardAt (playback brokenOffMoves [.play, .tick, .tick]) = .ok board) ∧
      (ticks 4 (playback brokenOffMoves [.play])).playing = false ∧
      ∃ row text,
        StoredMatch twoBots (twoBots.record 1 1 2 brokenOffMatch (str "c")).1 fooBot barBot
          brokenOffMatch row ∧
        caption (datasetOf fooBot barBot row) (playback ((forMatch twoBots.bots
          (twoBots.record 1 1 2 brokenOffMatch (str "c")).1.moveRows row.id).map embedded)
            [.jumpEnd]) = .ok (some text) := by
  obtain ⟨hwithin, hreads, hticks, hrecorded⟩ := playback_sound
  have hmoves : brokenOffMoves ≠ [] := List.cons_ne_nil _ _
  refine ⟨hwithin _ hmoves _, (hreads _ hmoves _ ⟨[], [], []⟩).1,
    (hticks _ hmoves [.play] rfl).1, ?_⟩
  obtain ⟨row, hstored, hplayed⟩ := hrecorded asciiData oneAddress twoReplies (str "bot-1")
    (str "bot-2") 10 brokenOffMatch twoBots 1 fooBot barBot (str "c")
    runMatchFromPods_twoReplies constrained_twoBots List.mem_cons_self
    (List.mem_cons_of_mem _ List.mem_cons_self) rfl
  obtain ⟨-, hcaption⟩ := hplayed twoBots.bots _ (List.Perm.refl _) (List.Perm.refl _)
  obtain ⟨text, htext⟩ := (hcaption [.jumpEnd]).1
  exact ⟨row, text, hstored, htext⟩

end TictactoeBots.MatchPlayer
