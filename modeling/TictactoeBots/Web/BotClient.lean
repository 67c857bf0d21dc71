import TictactoeBots.Lib.JsonText
import TictactoeBots.Runner.BoardText
import TictactoeBots.Dispatcher.Pods
import TictactoeBots.Web.PlayPage

/-!
How the play page asks a bot for its move, and how the two ends read the reply.

`request_bot_turn` checks the grid that Python's `strip`, `splitlines` and
`split` find in the reply and hands the reply itself on. The browser splits it
at line feeds and pipes only. The grids are the same exactly when the reply has
no other white space in it than the line feeds between the rows.
-/

namespace TictactoeBots

open Text Python

def botForfeit (reason : Str) : PyException := ⟨.other (str "BotForfeit"), reason⟩

def invalidMove : PyException := botForfeit (str "Bot returned an invalid move")

/-- `_parse_board_strict`, line by line the `parse_board` of the engine. -/
def parseBoardStrict (text : Str) : Option Board := parseBoard text

def validateOneSymbolPlaced (old new : Board) (symbol : Str) : Bool :=
  match changes old new with
  | [(r, c)] => old r c = .dot && (new r c).text = symbol
  | _ => false

/-- The `except` clauses around the exchange with the pod. -/
def readReply : Except PyException (List UInt8) → Except PyException (List UInt8)
  | .ok data => .ok data
  | .error exc =>
      if exc.isA .timeoutError then .error (botForfeit (str "Bot took too long"))
      else if exc.isA .urlError then .error (botForfeit (str "Bot is unavailable"))
      else .error exc

/-- The `except` clause around `json.loads`. -/
def decodeReply : Except PyException PyValue → Except PyException PyValue
  | .ok payload => .ok payload
  | .error exc => if exc.isA .jsonDecodeError then .error invalidMove else .error exc

def requestBotTurn (json : JsonLoads) (urlopen : Urlopen) (podIp symbol board : Str)
    (timeout : ℚ) : Except PyException Str := do
  let data ← readReply (urlopen (turnRequest podIp symbol board) timeout)
  let payload ← decodeReply (json.loads data)
  match ← getField payload (str "board") with
  | .str newBoardStr =>
      match parseBoardStrict board, parseBoardStrict newBoardStr with
      | some old, some new =>
          if validateOneSymbolPlaced old new symbol then .ok newBoardStr else .error invalidMove
      | _, _ => .error invalidMove
  | _ => .error invalidMove

/-- `new` is `old` with the mark `symbol` in one cell that was empty. -/
def AddsMark (symbol : Str) (old new : Board) : Prop :=
  ∃ r c, old r c = .dot ∧ new r c ≠ .dot ∧ (new r c).text = symbol ∧
    ∀ r' c', (r', c') ≠ (r, c) → new r' c' = old r' c'

theorem addsMark_of_validate {old new : Board} {symbol : Str}
    (h : validateOneSymbolPlaced old new symbol) : AddsMark symbol old new := by
  unfold validateOneSymbolPlaced at h
  split at h
  · rename_i r c hchanges
    have honly := changes_eq_singleton.1 hchanges
    rw [Bool.and_eq_true, decide_eq_true_eq, decide_eq_true_eq] at h
    refine ⟨r, c, h.1, fun hdot => ?_, h.2, fun r' c' hne => ?_⟩
    · exact (honly (r, c)).2 rfl (by rw [h.1, hdot])
    · by_contra hdiff
      exact hne ((honly (r', c')).1 fun heq => hdiff heq.symm)
  · exact absurd h (by simp)

/-- An accepted reply has been read as a grid that adds one mark. -/
theorem requestBotTurn_ok {json : JsonLoads} {urlopen : Urlopen} {podIp symbol board reply : Str}
    {timeout : ℚ} (h : requestBotTurn json urlopen podIp symbol board timeout = .ok reply) :
    ∃ old new, parseBoardStrict board = some old ∧ parseBoardStrict reply = some new ∧
      AddsMark symbol old new := by
  obtain ⟨data, _, h⟩ := exists_of_bind_eq_ok h
  obtain ⟨payload, _, h⟩ := exists_of_bind_eq_ok h
  obtain ⟨value, _, h⟩ := exists_of_bind_eq_ok h
  split at h
  · split at h
    · rename_i old new hold hnew
      split at h
      · rename_i hvalid
        rw [← Except.ok.inj h]
        exact ⟨old, new, hold, hnew, addsMark_of_validate hvalid⟩
      · exact absurd h (by simp)
    · exact absurd h (by simp)
  · exact absurd h (by simp)

/-! ### The two readings -/

theorem boardToStr_parseBoard (text : Str) :
    PlayState.boardToStr (PlayState.parseBoard text) = text := by
  rw [PlayState.boardToStr, PlayState.parseBoard, List.map_map]
  have hrow : (fun row => (str "|").intercalate row) ∘ (fun row : Str => row.splitOn 0x7c) = id :=
    funext fun row => List.intercalate_splitOn 0x7c
  rw [hrow, List.map_id]
  exact List.intercalate_splitOn 0x0a

theorem plainBoardText_gridOf (b : Board) :
    PlainBoardText (PlayState.boardToStr (PlayState.gridOf b)) := by
  rw [PlayState.boardToStr_gridOf]
  exact plainBoardText_boardToStr b

theorem PlainBoardText.parseBoard_eq {text : Str} {new : Board} (h : PlainBoardText text)
    (hnew : parseBoard text = some new) : PlayState.parseBoard text = PlayState.gridOf new := by
  have hne : text ≠ [] := by
    rintro rfl
    rw [show parseBoard [] = none from rfl] at hnew
    exact absurd hnew (by simp)
  unfold parseBoard at hnew
  rw [h.splitlines_strip hne] at hnew
  split at hnew
  · rename_i row0 row1 row2 hrows
    obtain ⟨cells0, h0, hnew⟩ := Option.bind_eq_some_iff.1 hnew
    obtain ⟨cells1, h1, hnew⟩ := Option.bind_eq_some_iff.1 hnew
    obtain ⟨cells2, h2, hnew⟩ := Option.bind_eq_some_iff.1 hnew
    rw [← Option.some.inj hnew, PlayState.parseBoard, hrows, List.map_cons, List.map_cons,
      List.map_cons, List.map_nil, splitOn_of_parseRow h0, splitOn_of_parseRow h1,
      splitOn_of_parseRow h2]
    rfl
  · exact absurd hnew (by simp)

theorem val_lt_of_plain {text : Str} (h : PlainBoardText text) : ∀ c ∈ text, c.val < 0xd800 := by
  intro c hc
  have hcases : c ∈ [0x58, 0x4f, 0x2e, 0x7c, 0x0a] := h.chars c hc
  simp only [List.mem_cons, List.not_mem_nil, or_false] at hcases
  rcases hcases with rfl | rfl | rfl | rfl | rfl <;> decide

/-- The browser sees the grid that the server has checked, and with it the
posted board with one more mark, exactly when the accepted reply is a plain
board text. -/
theorem reply_read_alike_iff (json : JsonLoads) (urlopen : Urlopen)
    (podIp symbol board : Str) (timeout : ℚ) {reply : Str}
    (h : requestBotTurn json urlopen podIp symbol board timeout = .ok reply) :
    (∃ old new, parseBoardStrict board = some old ∧ parseBoardStrict reply = some new ∧
      PlayState.parseBoard (Json.utf16 reply) = PlayState.gridOf new ∧
      AddsMark symbol old new) ↔
    PlainBoardText reply := by
  obtain ⟨old, new, hold, hnew, hadds⟩ := requestBotTurn_ok h
  constructor
  · rintro ⟨_, new, _, _, hgrid, _⟩
    have htext : Json.utf16 reply = PlayState.boardToStr (PlayState.gridOf new) := by
      rw [← hgrid, boardToStr_parseBoard]
    have hplain := plainBoardText_gridOf new
    rw [Json.eq_of_utf16 htext (val_lt_of_plain hplain)]
    exact hplain
  · intro hplain
    have hsame : Json.utf16 reply = reply := Json.utf16_of_lt fun c hc => by
      have hlt := val_lt_of_plain hplain c hc
      omega
    refine ⟨old, new, hold, hnew, ?_, hadds⟩
    rw [hsame]
    exact hplain.parseBoard_eq hnew

theorem addsBotMark_of_reply {json : JsonLoads} {urlopen : Urlopen} {podIp : Str} {timeout : ℚ}
    {ctx : PlayState.Ctx} {page : PlayState.Page} {i : ℕ} {post : PlayState.TurnPost} {reply : Str}
    (hpost : page.requests[i]? = some post) (hboard : PlainBoardText post.board)
    (h : requestBotTurn json urlopen podIp ctx.botSymbol post.board timeout = .ok reply)
    (hreply : PlainBoardText reply) :
    PlayState.AddsBotMark ctx page (.replied i reply) := by
  obtain ⟨old, new, hold, hnew, r, c, hempty, _, hsymbol, hrest⟩ := requestBotTurn_ok h
  have hplace : new = PlayState.place old r c (new r c) := by
    funext r' c'
    by_cases hr : r' = r
    · subst hr
      by_cases hc : c' = c
      · simp [PlayState.place, hc]
      · simp [PlayState.place, hc, hrest r' c' (by simp [hc])]
    · simp [PlayState.place, hr, hrest r' c' (by simp [hr])]
  refine ⟨post, hpost, r, c, ?_, ?_⟩
  · rw [hboard.parseBoard_eq hold]
    exact PlayState.cellAt_dot_iff.2 hempty
  · rw [hreply.parseBoard_eq hnew, hboard.parseBoard_eq hold, ← hsymbol,
      PlayState.setCell_gridOf, ← hplace]

/-- The text of the empty board, and replies of a bot that takes the first
cell: one with line feeds and one with vertical tabs between the rows. -/
def emptyText : Str := str ".|.|.\n.|.|.\n.|.|."

def feedReply : Str := str "X|.|.\n.|.|.\n.|.|."

def tabReply : Str := str "X|.|.\x0b.|.|.\x0b.|.|."

theorem reply_read_alike_iff_feedReply :
    (∃ old new, parseBoardStrict emptyText = some old ∧ parseBoardStrict feedReply = some new ∧
      PlayState.parseBoard (Json.utf16 feedReply) = PlayState.gridOf new ∧
      AddsMark (str "X") old new) ↔
    PlainBoardText feedReply :=
  reply_read_alike_iff (decodesReply feedReply) (repliesWith feedReply) (str "10.0.0.1") (str "X")
    emptyText 10 rfl

/-- The server accepts the reply with vertical tabs. For the browser it is one
row, so that looking for a winner throws. -/
theorem tabReply_read_apart :
    requestBotTurn (decodesReply tabReply) (repliesWith tabReply) (str "10.0.0.1") (str "X")
      emptyText 10 = .ok tabReply ∧
    (¬∃ old new, parseBoardStrict emptyText = some old ∧ parseBoardStrict tabReply = some new ∧
      PlayState.parseBoard (Json.utf16 tabReply) = PlayState.gridOf new ∧
      AddsMark (str "X") old new) ∧
    PlayState.checkWinner (PlayState.parseBoard (Json.utf16 tabReply)) =
      .error (str "Cannot read properties of undefined (reading '0')") := by
  refine ⟨rfl, ?_, rfl⟩
  rintro ⟨old, new, _, _, hgrid, _⟩
  have hlength := congrArg List.length hgrid
  rw [show (PlayState.parseBoard (Json.utf16 tabReply)).length = 1 from rfl,
    show (PlayState.gridOf new).length = 3 from rfl] at hlength
  omega

end TictactoeBots
