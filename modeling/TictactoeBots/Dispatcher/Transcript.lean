import TictactoeBots.Dispatcher.GameRuns

/-!
The move list of a match, read as a game transcript.

`boards k` is the board after `k` moves. `LegalMove` says what one entry of the
move list records about the boards before and after it, `LegalTranscript` what
the whole result does. Every finished game has such a transcript, and a match
whose pods only answer, or fail with a `URLError`, is a finished game.
-/

namespace TictactoeBots

open Text Python

/-- `move` is a correct record of the turn with index `i`. -/
structure LegalMove (i : ℕ) (before after : Board) (move : Move) : Prop where
  number : move.moveNumber = i + 1
  player : move.player = mover i
  board : move.board = boardToStr after
  accepted : move.error = .null → AddsOne (mover i).symbol before after
  repeated : move.error ≠ .null → after = before
  noLine : ∀ p, ¬HasLine before p
  notFull : ¬Full before

/-- The moves are correct records of successive turns from the empty board. -/
structure Recorded (boards : ℕ → Board) (moves : List Move) : Prop where
  start : boards 0 = emptyBoard
  legal : ∀ i (h : i < moves.length), LegalMove i (boards i) (boards (i + 1)) moves[i]

structure LegalTranscript (boards : ℕ → Board) (m : MatchResult) : Prop where
  recorded : Recorded boards m.moves
  nonempty : 1 ≤ m.moves.length
  atMostNine : m.moves.length ≤ 9
  errorLast : ∀ i (h : i < m.moves.length), m.moves[i].error ≠ .null → i + 1 = m.moves.length
  wins : ∀ p : Player, m.result = p.wins ↔
    ∃ last, m.moves.getLast? = some last ∧ last.error = .null ∧ last.player = p ∧
      HasLine (boards m.moves.length) p
  cat : m.result = .cat ↔
    ∃ ninth, m.moves[8]? = some ninth ∧ ninth.error = .null ∧ ∀ p, ¬HasLine (boards 9) p
  forfeits : ∀ p : Player, m.result = forfeitLabel p ↔
    ∃ last, m.moves.getLast? = some last ∧ last.error ≠ .null ∧ last.player = p

/-! ### Extending a transcript -/

theorem Recorded.append {boards : ℕ → Board} {moves : List Move} (h : Recorded boards moves)
    {after : Board} {move : Move}
    (hmove : LegalMove moves.length (boards moves.length) after move) :
    Recorded (Function.update boards (moves.length + 1) after) (moves ++ [move]) where
  start := by rw [Function.update_of_ne (by omega), h.start]
  legal i hi := by
    rw [List.length_append, List.length_singleton] at hi
    obtain hlt | rfl := Nat.lt_succ_iff_lt_or_eq.1 hi
    · rw [List.getElem_append_left hlt, Function.update_of_ne (by omega),
        Function.update_of_ne (by omega)]
      exact h.legal i hlt
    · rw [Function.update_of_ne (by omega), Function.update_self, List.getElem_concat_length rfl]
      exact hmove

theorem Played.legal_accepted {n : ℕ} {board newBoard : Board} {moves : List Move}
    (h : Played n board moves) (hadds : AddsOne (mover n).symbol board newBoard) :
    LegalMove n board newBoard (acceptedMove n newBoard) where
  number := rfl
  player := rfl
  board := rfl
  accepted _ := hadds
  repeated herror := absurd rfl herror
  noLine := h.not_hasLine
  notFull := h.not_full

theorem Played.legal_forfeit {n : ℕ} {board : Board} {moves : List Move}
    (h : Played n board moves) {error : PyValue} (herror : error ≠ .null) :
    LegalMove n board board (forfeitMove n board error) where
  number := rfl
  player := rfl
  board := rfl
  accepted hnull := absurd hnull herror
  repeated _ := rfl
  noLine := h.not_hasLine
  notFull := h.not_full

theorem Played.recorded {n : ℕ} {board : Board} {moves : List Move} (h : Played n board moves) :
    ∃ boards, Recorded boards moves ∧ boards n = board ∧ ∀ move ∈ moves, move.error = .null := by
  induction h with
  | start =>
      exact ⟨fun _ => emptyBoard, ⟨rfl, fun i hi => absurd hi (by simp)⟩, rfl, by simp⟩
  | @turn n board newBoard moves hplayed hadds _ _ ih =>
      obtain ⟨boards, hrec, hboard, hnull⟩ := ih
      have hlegal := hplayed.legal_accepted hadds
      obtain rfl := hplayed.length_moves
      rw [← hboard] at hlegal
      refine ⟨_, hrec.append hlegal, Function.update_self .., ?_⟩
      simpa [or_imp, forall_and, acceptedMove] using hnull

theorem Player.wins_injective {p q : Player} : p.wins = q.wins ↔ p = q := by
  cases p <;> cases q <;> simp [Player.wins]

theorem forfeitLabel_injective {p q : Player} : forfeitLabel p = forfeitLabel q ↔ p = q := by
  cases p <;> cases q <;> simp [forfeitLabel]

theorem Player.wins_ne_forfeitLabel (p q : Player) : p.wins ≠ forfeitLabel q := by
  cases p <;> cases q <;> simp [Player.wins, forfeitLabel]

theorem Player.wins_ne_cat (p : Player) : p.wins ≠ .cat := by
  cases p <;> simp [Player.wins]

theorem forfeitLabel_ne_cat (p : Player) : forfeitLabel p ≠ .cat := by
  cases p <;> simp [forfeitLabel]

theorem legalTranscript_append {boards : ℕ → Board} {moves : List Move} {move : Move}
    {after : Board} {result : MatchOutcome} (hrec : Recorded boards moves)
    (hlen : moves.length < 9) (hnull : ∀ m ∈ moves, m.error = .null)
    (hmove : LegalMove moves.length (boards moves.length) after move)
    (hwins : ∀ p : Player, result = p.wins ↔ move.error = .null ∧ move.player = p ∧ HasLine after p)
    (hcat : result = .cat ↔ moves.length = 8 ∧ move.error = .null ∧ ∀ p, ¬HasLine after p)
    (hforfeits : ∀ p : Player, result = forfeitLabel p ↔ move.error ≠ .null ∧ move.player = p) :
    LegalTranscript (Function.update boards (moves.length + 1) after)
      ⟨result, moves ++ [move]⟩ where
  recorded := hrec.append hmove
  nonempty := by simp
  atMostNine := by simpa using hlen
  errorLast i hi herror := by
    simp only [List.length_append, List.length_singleton] at hi ⊢
    -- the moves before the last one have no error
    by_contra hne
    have hlt : i < moves.length := by omega
    rw [List.getElem_append_left hlt] at herror
    exact herror (hnull _ (List.getElem_mem hlt))
  wins p := by simpa using hwins p
  cat := by
    constructor
    · intro h
      obtain ⟨height, herror, hlines⟩ := hcat.1 h
      refine ⟨move, ?_, herror, ?_⟩
      · simp [← height]
      · rw [show 9 = moves.length + 1 by omega, Function.update_self]
        exact hlines
    · rintro ⟨ninth, hninth, herror, hlines⟩
      obtain ⟨hbound, hget⟩ := List.getElem?_eq_some_iff.1 hninth
      have height : moves.length = 8 := by
        rw [List.length_append, List.length_singleton] at hbound
        omega
      have hlast : (moves ++ [move])[8] = move := by simp [← height]
      rw [show 9 = moves.length + 1 by omega, Function.update_self] at hlines
      exact hcat.2 ⟨height, by rw [← hlast, hget, herror], hlines⟩
  forfeits p := by simpa using hforfeits p

theorem Finished.legalTranscript {m : MatchResult} (h : Finished m) :
    ∃ boards, LegalTranscript boards m := by
  cases h with
  | @forfeit n board moves error hplayed herror =>
      obtain ⟨boards, hrec, rfl, hnull⟩ := hplayed.recorded
      have hne : error ≠ .null := by
        rintro rfl
        simp at herror
      have hlegal := hplayed.legal_forfeit hne
      have hlt := hplayed.lt_nine
      obtain rfl := hplayed.length_moves
      refine ⟨_, legalTranscript_append hrec hlt hnull hlegal ?_ ?_ ?_⟩
      · simp [forfeitMove, hne, (Player.wins_ne_forfeitLabel _ _).symm]
      · simp [forfeitMove, hne, forfeitLabel_ne_cat]
      · simp [forfeitMove, hne, forfeitLabel_injective]
  | @line n board newBoard moves hplayed hadds hline =>
      obtain ⟨boards, hrec, rfl, hnull⟩ := hplayed.recorded
      have hlegal := hplayed.legal_accepted hadds
      have hlt := hplayed.lt_nine
      obtain rfl := hplayed.length_moves
      refine ⟨_, legalTranscript_append hrec hlt hnull hlegal (fun p => ?_) ?_ ?_⟩
      · simp only [acceptedMove, Player.wins_injective, true_and]
        exact ⟨fun h => ⟨h, h ▸ hline⟩, And.left⟩
      · simp only [acceptedMove, Player.wins_ne_cat, false_iff, not_and, not_forall, not_not]
        exact fun _ _ => ⟨_, hline⟩
      · simp [acceptedMove, Player.wins_ne_forfeitLabel]
  | @full board newBoard moves hplayed hadds hlines =>
      obtain ⟨boards, hrec, rfl, hnull⟩ := hplayed.recorded
      have hlen := hplayed.length_moves
      have hlegal : LegalMove moves.length (boards moves.length) newBoard
          (acceptedMove 8 newBoard) := by
        rw [hlen]
        exact hplayed.legal_accepted hadds
      refine ⟨_, legalTranscript_append hrec (by omega) hnull hlegal (fun p => ?_) ?_ (fun p => ?_)⟩
      · simp [hlines, (Player.wins_ne_cat p).symm]
      · simp [acceptedMove, hlen, hlines]
      · simp [acceptedMove, (forfeitLabel_ne_cat p).symm]

/-! ### Replies -/

/-- What a pod can give for one turn, short of the failures that `urlopen`
does not wrap: a response with optional texts, or a `URLError`, of which
`HTTPError` is the subclass `urlopen` raises. -/
inductive TurnReply where
  | response (board error : Option Str)
  | urlError (text : Str)
  | httpError (text : Str)

def optionalText : Option Str → PyValue
  | none => .null
  | some s => .str s

def TurnReply.toExcept : TurnReply → Except PyException TurnResponse
  | .response board error => .ok ⟨optionalText board, optionalText error⟩
  | .urlError text => .error ⟨.urlError, text⟩
  | .httpError text => .error ⟨.httpError, text⟩

theorem TurnReply.settled (reply : TurnReply) : Settled reply.toExcept := by
  cases reply with
  | urlError text => exact rfl
  | httpError text => exact rfl
  | response board error =>
      cases board with
      | none => exact .inr (.inl rfl)
      | some text => exact .inr (.inr ⟨text, rfl⟩)

/-- Whatever the two pods reply, the match returns a result, and its moves are
a legal transcript. -/
theorem runMatchFromPods_legalTranscript (U : UnicodeData) (coreV1 : CoreV1)
    (replies : ℕ → TurnReply) (podNameX podNameO ipX ipO : Str) (turnTimeout : ℚ)
    (hx : getPodIp coreV1 podNameX = .ok ipX) (ho : getPodIp coreV1 podNameO = .ok ipO) :
    ∃ m boards,
      runMatchFromPods U coreV1 (fun k _ _ _ _ => (replies k).toExcept) podNameX podNameO
        turnTimeout = .ok (some m) ∧ LegalTranscript boards m := by
  rw [runMatchFromPods_eq hx ho]
  rcases gameLoop_cases U (fun k _ _ _ _ => (replies k).toExcept) turnTimeout ipX ipO .start with
    ⟨m, hm, hfinished⟩ | ⟨_, k, _, _, _, hnot⟩
  · obtain ⟨boards, htranscript⟩ := hfinished.legalTranscript
    exact ⟨m, boards, hm, htranscript⟩
  · exact absurd (replies k).settled hnot

def oneAddress : CoreV1 := ⟨fun _ _ => .ok ⟨⟨some (str "10.0.0.1")⟩⟩⟩

theorem runMatchFromPods_legalTranscript_noReply :
    ∃ m boards,
      runMatchFromPods asciiData oneAddress
        (fun _ _ _ _ _ => (TurnReply.response none none).toExcept) (str "bot-1") (str "bot-2") 10 =
          .ok (some m) ∧ LegalTranscript boards m :=
  runMatchFromPods_legalTranscript asciiData oneAddress (fun _ => .response none none)
    (str "bot-1") (str "bot-2") (str "10.0.0.1") (str "10.0.0.1") 10 rfl rfl

end TictactoeBots
