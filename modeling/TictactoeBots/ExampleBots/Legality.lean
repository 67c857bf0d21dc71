import TictactoeBots.ExampleBots.Matches

/-!
The programs that always make a legal move, and matches between them.

On a board that decides nothing, twelve of the programs mark one empty cell.
They come to it in different ways, but each has a last resort that knows every
cell. A match between any two of them ends with a line or with a full board.
-/

namespace TictactoeBots

open Text Python FirstBest
open PlayState (place addsOne_place)

/-- On a board that decides nothing, the program marks an empty cell. -/
def Legal (program : BotProgram) : Prop :=
  ∀ player board, checkWinner board = none →
    ∃ r c, board r c = .dot ∧ program player board = some (place board r c player.symbol)

/-! ### Cells that are found -/

section Cells

variable {board : Board} {player : Player} {lines : List (List (Fin 3 × Fin 3))}
  {order : List (Fin 3 × Fin 3)} {rc : Fin 3 × Fin 3}

theorem place_same (board : Board) (rc : Fin 3 × Fin 3) (cell : Cell) :
    place board rc.1 rc.2 cell rc.1 rc.2 = cell := by
  simp [place]

theorem place_ne {rc' : Fin 3 × Fin 3} (h : rc' ≠ rc) (cell : Cell) :
    place board rc.1 rc.2 cell rc'.1 rc'.2 = board rc'.1 rc'.2 := by
  by_cases hr : rc'.1 = rc.1
  · have hc : rc'.2 ≠ rc.2 := fun hc => h (Prod.ext hr hc)
    simp [place, hr, hc]
  · simp [place, hr]

theorem mem_empties : rc ∈ empties board ↔ board rc.1 rc.2 = .dot := by
  simp [empties, mem_cells]

theorem cells_nodup : cells.Nodup := by decide

theorem empties_nodup (board : Board) : (empties board).Nodup := cells_nodup.filter _

theorem empties_place (board : Board) (player : Player) (rc : Fin 3 × Fin 3) :
    empties (place board rc.1 rc.2 player.symbol) = (empties board).erase rc := by
  rw [(empties_nodup board).erase_eq_filter, empties, empties, List.filter_filter]
  apply List.filter_congr
  intro rc' _
  by_cases heq : rc' = rc
  · simp [heq, place_same, player.symbol_ne_dot]
  · simp [heq, place_ne heq]

theorem length_empties_place (player : Player) (h : rc ∈ empties board) :
    (empties (place board rc.1 rc.2 player.symbol)).length + 1 = (empties board).length := by
  rw [empties_place, List.length_erase_of_mem h]
  have hpos := List.length_pos_of_mem h
  omega

theorem length_empties_le (board : Board) : (empties board).length ≤ 9 :=
  List.length_filter_le _ cells

theorem checkWinner_eq_none_iff {board : Board} :
    checkWinner board = none ↔ (∀ p, ¬HasLine board p) ∧ ¬Full board := by
  constructor
  · exact checkWinner_eq_none
  · rintro ⟨hlines, hopen⟩
    cases hout : checkWinner board with
    | none => rfl
    | some outcome =>
        rcases checkWinner_eq_some hout with ⟨p, _, hline⟩ | ⟨_, _, hfull⟩
        · exact absurd hline (hlines p)
        · exact absurd hfull hopen

theorem exists_empty (h : checkWinner board = none) :
    ∃ rc : Fin 3 × Fin 3, board rc.1 rc.2 = .dot := by
  by_contra hnone
  exact (checkWinner_eq_none h).2 fun r c hdot => hnone ⟨(r, c), hdot⟩

theorem exists_empties_cons (hopen : checkWinner board = none) :
    ∃ first rest, empties board = first :: rest := by
  obtain ⟨rc, hrc⟩ := exists_empty hopen
  exact List.exists_cons_of_ne_nil (List.ne_nil_of_mem (mem_empties.2 hrc))

theorem findCompletion_empty (h : findCompletion lines board player = some rc) :
    board rc.1 rc.2 = .dot := by
  obtain ⟨line, _, hline⟩ := List.exists_of_findSome?_eq_some h
  simp only at hline
  split at hline
  · simpa using List.find?_some hline
  · exact absurd hline (by simp)

theorem exists_firstEmpty (horder : ∀ rc, rc ∈ order) (h : checkWinner board = none) :
    ∃ rc, firstEmpty order board = some rc ∧ board rc.1 rc.2 = .dot := by
  obtain ⟨rc, hrc⟩ := exists_empty h
  cases hfind : firstEmpty order board with
  | none =>
      have hnot := List.find?_eq_none.1 hfind rc (horder rc)
      exact absurd hrc (by simpa using hnot)
  | some found => exact ⟨found, rfl, by simpa using List.find?_some hfind⟩

theorem exists_completion_or {other : Option (Fin 3 × Fin 3)}
    (hother : ∃ rc, other = some rc ∧ board rc.1 rc.2 = .dot) :
    ∃ rc, (findCompletion lines board player).or other = some rc ∧ board rc.1 rc.2 = .dot := by
  cases hfind : findCompletion lines board player with
  | none => simpa using hother
  | some rc => exact ⟨rc, rfl, findCompletion_empty hfind⟩

end Cells

theorem eq_place_of_addsOne {symbol : Cell} {board newBoard : Board}
    (h : AddsOne symbol board newBoard) :
    ∃ rc : Fin 3 × Fin 3, board rc.1 rc.2 = .dot ∧ newBoard = place board rc.1 rc.2 symbol := by
  obtain ⟨r, c, hempty, hnew, hrest⟩ := h
  refine ⟨(r, c), hempty, ?_⟩
  ext r' c'
  by_cases heq : (r', c') = (r, c)
  · obtain ⟨rfl, rfl⟩ := Prod.mk.inj heq
    exact hnew.trans (place_same board (r', c') symbol).symm
  · exact (hrest r' c' heq).trans (@place_ne board (r, c) (r', c') heq symbol).symm

theorem Played.open {n : ℕ} {board : Board} {moves : List Move} (h : Played n board moves) :
    checkWinner board = none :=
  checkWinner_eq_none_iff.2 ⟨h.not_hasLine, h.not_full⟩

theorem legal_of_move {program : BotProgram} {move : Player → Board → Option (Fin 3 × Fin 3)}
    (hprogram : ∀ player board, program player board = playAt player board (move player board))
    (hmove : ∀ player board, checkWinner board = none →
      ∃ rc, move player board = some rc ∧ board rc.1 rc.2 = .dot) : Legal program := by
  intro player board hopen
  obtain ⟨⟨r, c⟩, hsome, hempty⟩ := hmove player board hopen
  exact ⟨r, c, hempty, by rw [hprogram, hsome]; rfl⟩

theorem PlaysBy.turn_of_legal {json : JsonLoads} {urlopen : ℕ → Urlopen} {timeout : ℚ} {podIp : Str}
    {player : Player} {program : BotProgram} {n : ℕ} {board : Board}
    (hplays : PlaysBy json urlopen timeout podIp player program) (hlegal : Legal program)
    (U : UnicodeData) (hmover : mover n = player) (hopen : checkWinner board = none) :
    ∃ newBoard, program player board = some newBoard ∧
      playTurn U (requestTurn json (urlopen (n + 1))) player.symbol podIp board timeout =
        .ok (.accepted newBoard) := by
  obtain ⟨r, c, hempty, hmove⟩ := hlegal player board hopen
  exact ⟨_, hmove, hplays.turn_eq U hmover hmove (addsOne_place hempty)⟩

/-! ### The programs -/

theorem legal_firstCellBot : Legal firstCellBot := by
  apply legal_of_move (fun _ _ => rfl)
  intro player board hopen
  obtain ⟨first, rest, hlist⟩ := exists_empties_cons hopen
  refine ⟨first, by rw [hlist]; rfl, mem_empties.1 ?_⟩
  rw [hlist]
  exact List.mem_cons_self

theorem legal_completionBot {lines : List (List (Fin 3 × Fin 3))} {order : List (Fin 3 × Fin 3)}
    (horder : ∀ rc, rc ∈ order) : Legal (completionBot lines order) :=
  legal_of_move (fun _ _ => rfl) fun _ _ hopen =>
    exists_completion_or (exists_completion_or (exists_firstEmpty horder hopen))

theorem legal_defenseOnlyBot : Legal defenseOnlyBot :=
  legal_of_move (fun _ _ => rfl) fun _ _ hopen =>
    exists_completion_or (exists_firstEmpty (by decide) hopen)

/-- Every candidate has a score that beats the one the loop starts with. -/
theorem legal_offenseOnlyBot : Legal offenseOnlyBot := by
  apply legal_of_move (fun _ _ => rfl)
  intro player board hopen
  cases hfind : findCompletion winningLines board player with
  | some rc => exact ⟨rc, rfl, findCompletion_empty hfind⟩
  | none =>
      obtain ⟨rc, hrc⟩ := exists_empty hopen
      have hcandidate : rc ∈ aggressiveOrder.filter fun rc => board rc.1 rc.2 = .dot :=
        List.mem_filter.2 ⟨(by decide : ∀ rc, rc ∈ aggressiveOrder) rc, by simpa using hrc⟩
      obtain ⟨best, hbest, hkeep⟩ := keepBest_eq (· > ·)
        (scoreMove board player) some (-1, none) (List.ne_nil_of_mem hcandidate) fun move _ => by
          show scoreMove board player move > -1
          rw [scoreMove]
          omega
      exact ⟨best, congrArg Prod.snd hkeep, by simpa using (List.mem_filter.1 hbest.mem).2⟩

/-- The cell that fills the line of an outcome. -/
def winnerCell : MatchOutcome → Cell
  | .xWins => .X
  | .oWins => .O
  | _ => .dot

theorem lineSymbol_eq {board : Board} {line : List (Fin 3 × Fin 3)} (hline : line.length = 3) :
    lineSymbol board line = (lineOutcome board line).map winnerCell := by
  obtain ⟨x, y, z, rfl⟩ := List.length_eq_three.1 hline
  simp only [lineSymbol, lineOutcome, List.map_cons, List.map_nil]
  cases board x.1 x.2 <;> cases board y.1 y.2 <;> cases board z.1 z.2 <;> rfl

theorem winner_eq (board : Board) :
    winner board = (winningLines.findSome? (lineOutcome board)).map winnerCell := by
  have hlength : ∀ line ∈ winningLines, line.length = 3 := by decide
  rw [winner, List.map_findSome?]
  generalize winningLines = lines at hlength
  induction lines with
  | nil => rfl
  | cons line lines ih =>
      rw [List.forall_mem_cons] at hlength
      rw [List.findSome?_cons, List.findSome?_cons, lineSymbol_eq hlength.1, ih hlength.2]
      rfl

theorem winner_of_open {board : Board} (h : checkWinner board = none) : winner board = none := by
  rw [winner_eq]
  rw [checkWinner] at h
  split at h
  · exact absurd h (by simp)
  · rename_i hnone
    rw [hnone]
    rfl

theorem minimax_of_open (opponentChooses : Bool) (me : Player) (n : ℕ) {board : Board}
    (toMove : Player) (hopen : checkWinner board = none) :
    minimax opponentChooses me (n + 1) board toMove =
      let score := fun (rc : Fin 3 × Fin 3) =>
        (minimax opponentChooses me n (place board rc.1 rc.2 toMove.symbol) toMove.other).1
      if toMove = me then
        keepBest (· > ·) score some (-999, (empties board).head?) (empties board)
      else if opponentChooses then
        keepBest (· < ·) score some (999, (empties board).head?) (empties board)
      else (999, (empties board).head?) := by
  obtain ⟨first, rest, hlist⟩ := exists_empties_cons hopen
  rw [minimax, winner_of_open hopen, hlist]
  rfl

theorem legal_perfectBot (opponentChooses : Bool) : Legal (perfectBot opponentChooses) := by
  apply legal_of_move (fun _ _ => rfl)
  intro player board hopen
  obtain ⟨first, rest, hlist⟩ := exists_empties_cons hopen
  rw [minimax_of_open opponentChooses player 9 player hopen]
  simp only [if_true]
  rcases keepBest_choice (· > ·) _ some (-999, (empties board).head?) (empties board) with
    hkept | ⟨rc, hrc, hkept⟩
  · refine ⟨first, hkept.trans (by rw [hlist]; rfl), mem_empties.1 ?_⟩
    rw [hlist]
    exact List.mem_cons_self
  · exact ⟨rc, hkept, mem_empties.1 hrc⟩

/-- The programs whose moves are legal. -/
def legalBots : List BotProgram :=
  [py310, py311, py312, py313, py314, horizontalBlindBot, verticalBlindBot, diagonalBlindBot,
    defenseOnlyBot, offenseOnlyBot, perfectBotV1, perfectBotV2]

theorem legal_of_mem {program : BotProgram} (h : program ∈ legalBots) : Legal program := by
  have hpreferred : ∀ rc, rc ∈ preferred := by decide
  simp only [legalBots, List.mem_cons, List.not_mem_nil, or_false] at h
  rcases h with rfl | rfl | rfl | rfl | rfl | rfl | rfl | rfl | rfl | rfl | rfl | rfl
  · exact legal_firstCellBot
  · exact legal_firstCellBot
  · exact legal_firstCellBot
  · exact legal_firstCellBot
  · exact legal_firstCellBot
  · exact legal_completionBot hpreferred
  · exact legal_completionBot hpreferred
  · exact legal_completionBot hpreferred
  · exact legal_defenseOnlyBot
  · exact legal_offenseOnlyBot
  · exact legal_perfectBot false
  · exact legal_perfectBot true

/-! ### Matches of two programs -/

/-- The boards of the game of two programs: after `n` moves, if it is not over
before. -/
def playout (program : Player → BotProgram) : ℕ → Board
  | 0 => emptyBoard
  | n + 1 =>
      let board := playout program n
      (program (mover n) (mover n) board).getD board

def playoutMoves (program : Player → BotProgram) (n : ℕ) : List Move :=
  (List.range n).map fun i => acceptedMove i (playout program (i + 1))

section Match

variable {U : UnicodeData} {json : JsonLoads} {urlopen : ℕ → Urlopen} {timeout : ℚ}
  {ip : Player → Str} {program : Player → BotProgram} {n : ℕ}

theorem playout_succ (hlegal : ∀ p, Legal (program p))
    (hopen : checkWinner (playout program n) = none) :
    program (mover n) (mover n) (playout program n) = some (playout program (n + 1)) ∧
      AddsOne (mover n).symbol (playout program n) (playout program (n + 1)) := by
  obtain ⟨r, c, hempty, hmove⟩ := hlegal (mover n) (mover n) (playout program n) hopen
  have hnext : playout program (n + 1) = place (playout program n) r c (mover n).symbol := by
    rw [playout, hmove]
    rfl
  rw [hnext]
  exact ⟨hmove, addsOne_place hempty⟩

theorem playoutMoves_succ (program : Player → BotProgram) (n : ℕ) :
    playoutMoves program (n + 1) =
      playoutMoves program n ++ [acceptedMove n (playout program (n + 1))] := by
  rw [playoutMoves, List.range_succ, List.map_append]
  rfl

theorem played_playout (hlegal : ∀ p, Legal (program p))
    (hopen : ∀ i ≤ n, checkWinner (playout program i) = none) :
    Played n (playout program n) (playoutMoves program n) := by
  induction n with
  | zero => exact .start
  | succ n ih =>
      obtain ⟨_, hadds⟩ := playout_succ hlegal (hopen n (Nat.le_succ n))
      obtain ⟨hlines, hnotFull⟩ := checkWinner_eq_none (hopen (n + 1) le_rfl)
      rw [playoutMoves_succ]
      exact .turn (ih fun i hi => hopen i (by omega)) hadds hlines hnotFull

theorem exists_playout_over (hlegal : ∀ p, Legal (program p)) :
    ∃ n outcome, (∀ i ≤ n, checkWinner (playout program i) = none) ∧
      checkWinner (playout program (n + 1)) = some outcome := by
  have hends : ∃ n, checkWinner (playout program n) ≠ none := by
    by_contra hnever
    push Not at hnever
    exact absurd (played_playout hlegal fun i (_ : i ≤ 9) => hnever i).lt_nine (lt_irrefl 9)
  classical
  have hfirst : ∀ i < Nat.find hends, checkWinner (playout program i) = none := fun i hi =>
    not_not.1 (Nat.find_min hends hi)
  obtain ⟨outcome, hout⟩ := Option.ne_none_iff_exists'.1 (Nat.find_spec hends)
  generalize Nat.find hends = last at hfirst hout
  cases last with
  | zero =>
      have hempty : checkWinner emptyBoard = none := by decide
      rw [playout, hempty] at hout
      exact absurd hout (by simp)
  | succ n => exact ⟨n, outcome, fun i hi => hfirst i (Nat.lt_succ_of_le hi), hout⟩

theorem moverIp_eq (ip : Player → Str) (n : ℕ) : moverIp (ip .x) (ip .o) n = ip (mover n) := by
  unfold moverIp mover
  split <;> rfl

theorem playTurn_playout (U : UnicodeData) (hlegal : ∀ p, Legal (program p))
    (hplays : ∀ p, PlaysBy json urlopen timeout (ip p) p (program p))
    (hopen : checkWinner (playout program n) = none) :
    playTurn U (requestTurn json (urlopen (n + 1))) (mover n).symbol (moverIp (ip .x) (ip .o) n)
      (playout program n) timeout = .ok (.accepted (playout program (n + 1))) := by
  obtain ⟨hmove, hadds⟩ := playout_succ hlegal hopen
  rw [moverIp_eq]
  exact (hplays (mover n)).turn_eq U rfl hmove hadds

variable (ip) in
theorem reached_playout (hlegal : ∀ p, Legal (program p))
    (hplays : ∀ p, PlaysBy json urlopen timeout (ip p) p (program p))
    (hopen : ∀ i ≤ n, checkWinner (playout program i) = none) :
    Reached U (fun k => requestTurn json (urlopen k)) timeout (ip .x) (ip .o) n (playout program n)
      (playoutMoves program n) := by
  induction n with
  | zero => exact .start
  | succ n ih =>
      have hturn := playTurn_playout U hlegal hplays (hopen n (Nat.le_succ n))
      rw [playoutMoves_succ]
      exact .turn (ih fun i hi => hopen i (by omega)) hturn (hopen (n + 1) le_rfl)

variable (ip) in
theorem runMatch_playout {coreV1 : CoreV1} {podNameX podNameO : Str} {outcome : MatchOutcome}
    (hx : getPodIp coreV1 podNameX = .ok (ip .x)) (ho : getPodIp coreV1 podNameO = .ok (ip .o))
    (hlegal : ∀ p, Legal (program p))
    (hplays : ∀ p, PlaysBy json urlopen timeout (ip p) p (program p))
    (hopen : ∀ i ≤ n, checkWinner (playout program i) = none)
    (hout : checkWinner (playout program (n + 1)) = some outcome) :
    runMatchFromPods U coreV1 (fun k => requestTurn json (urlopen k)) podNameX podNameO timeout =
      .ok (some ⟨outcome, playoutMoves program (n + 1)⟩) := by
  have hreached := reached_playout (U := U) ip hlegal hplays hopen
  have hturn := playTurn_playout U hlegal hplays (hopen n le_rfl)
  rw [runMatchFromPods_eq hx ho, hreached.run_eq, gameLoop_of_over hturn hout, playoutMoves_succ]

end Match

/-- Between any two of the legal programs the match has a result, which nobody
has forfeited: it is the game that the two functions play with each other, up to
the first board on which `check_winner` announces something. -/
theorem legalBots_match (U : UnicodeData) (coreV1 : CoreV1) (json : JsonLoads)
    (urlopen : ℕ → Urlopen) (podNameX podNameO : Str) (ip : Player → Str) (timeout : ℚ)
    (program : Player → BotProgram) (hx : getPodIp coreV1 podNameX = .ok (ip .x))
    (ho : getPodIp coreV1 podNameO = .ok (ip .o)) (hprogram : ∀ p, program p ∈ legalBots)
    (hplays : ∀ p, PlaysBy json urlopen timeout (ip p) p (program p)) :
    ∃ n outcome, checkWinner (playout program n) = some outcome ∧
      (∀ i < n, checkWinner (playout program i) = none) ∧
      (∀ p, outcome ≠ forfeitLabel p) ∧
      runMatchFromPods U coreV1 (fun k => requestTurn json (urlopen k)) podNameX podNameO timeout =
        .ok (some ⟨outcome, playoutMoves program n⟩) := by
  have hlegal : ∀ p, Legal (program p) := fun p => legal_of_mem (hprogram p)
  obtain ⟨n, outcome, hopen, hout⟩ := exists_playout_over hlegal
  refine ⟨n + 1, outcome, hout, fun i hi => hopen i (Nat.le_of_lt_succ hi), ?_,
    runMatch_playout ip hx ho hlegal hplays hopen hout⟩
  rintro p rfl
  rcases checkWinner_eq_some hout with ⟨q, heq, _⟩ | ⟨heq, _⟩
  · exact Player.wins_ne_forfeitLabel q p heq.symm
  · exact forfeitLabel_ne_cat p heq

theorem legalBots_match_py310 :
    ∃ n outcome, checkWinner (playout (fun _ => py310) n) = some outcome ∧
      (∀ i < n, checkWinner (playout (fun _ => py310) i) = none) ∧
      (∀ p, outcome ≠ forfeitLabel p) ∧
      runMatchFromPods asciiData oneAddress
        (fun k => requestTurn plainLoads (programPods (fun _ => py310) k)) (str "bot-1") (str "bot-2")
        10 = .ok (some ⟨outcome, playoutMoves (fun _ => py310) n⟩) :=
  legalBots_match asciiData oneAddress plainLoads (programPods fun _ => py310) (str "bot-1")
    (str "bot-2") (fun _ => str "10.0.0.1") 10 (fun _ => py310) rfl rfl
    (fun _ => List.mem_cons_self) fun p => playsBy_programPods (fun _ => py310) p _ (by decide +kernel)

end TictactoeBots
