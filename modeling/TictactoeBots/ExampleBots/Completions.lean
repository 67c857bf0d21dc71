import TictactoeBots.ExampleBots.Legality
import TictactoeBots.Web.PlayPage

/-!
The programs that look for lines with one cell missing.

`find_completion` finds such a cell exactly where there is one in the lines that
it is given. From that follows what a match can come to with these programs:
those that complete lines win as soon as they are on the move with a line to
complete, and those that block lose by a line they know to a fork only.
-/

namespace TictactoeBots

open Text Python FirstBest
open PlayState (place addsOne_place)

/-- `player` holds the line but for the empty cell `rc`. -/
structure MissesOne (board : Board) (player : Player) (line : List (Fin 3 × Fin 3))
    (rc : Fin 3 × Fin 3) : Prop where
  mem : rc ∈ line
  empty : board rc.1 rc.2 = .dot
  rest : ∀ rc' ∈ line, rc' ≠ rc → board rc'.1 rc'.2 = player.symbol

/-- With a mark at `rc`, `player` completes one of the lines. -/
def Threat (lines : List (List (Fin 3 × Fin 3))) (board : Board) (player : Player)
    (rc : Fin 3 × Fin 3) : Prop :=
  ∃ line ∈ lines, MissesOne board player line rc

/-! ### `find_completion` -/

section Find

variable {lines : List (List (Fin 3 × Fin 3))} {board : Board} {player : Player}
  {rc : Fin 3 × Fin 3}

theorem missesOne_triple_iff {x y z : Fin 3 × Fin 3} (hnodup : [x, y, z].Nodup) :
    MissesOne board player [x, y, z] rc ↔
      (board x.1 x.2 = .dot ∧ board y.1 y.2 = player.symbol ∧ board z.1 z.2 = player.symbol ∧
        x = rc) ∨
      (board x.1 x.2 = player.symbol ∧ board y.1 y.2 = .dot ∧ board z.1 z.2 = player.symbol ∧
        y = rc) ∨
      (board x.1 x.2 = player.symbol ∧ board y.1 y.2 = player.symbol ∧ board z.1 z.2 = .dot ∧
        z = rc) := by
  simp only [List.nodup_cons, List.mem_cons, List.not_mem_nil, or_false, not_or,
    List.nodup_nil, not_false_eq_true, and_true] at hnodup
  obtain ⟨⟨hxy, hxz⟩, hyz⟩ := hnodup
  constructor
  · rintro ⟨hmem, hempty, hrest⟩
    simp only [List.forall_mem_cons, List.not_mem_nil, false_imp_iff, implies_true,
      and_true] at hrest
    simp only [List.mem_cons, List.not_mem_nil, or_false] at hmem
    rcases hmem with rfl | rfl | rfl
    · exact .inl ⟨hempty, hrest.2.1 (Ne.symm hxy), hrest.2.2 (Ne.symm hxz), rfl⟩
    · exact .inr (.inl ⟨hrest.1 hxy, hempty, hrest.2.2 (Ne.symm hyz), rfl⟩)
    · exact .inr (.inr ⟨hrest.1 hxz, hrest.2.1 hyz, hempty, rfl⟩)
  · rintro (⟨hx, hy, hz, rfl⟩ | ⟨hx, hy, hz, rfl⟩ | ⟨hx, hy, hz, rfl⟩)
    · exact ⟨by simp, hx, by simp [hy, hz]⟩
    · exact ⟨by simp, hy, by simp [hx, hz]⟩
    · exact ⟨by simp, hz, by simp [hx, hy]⟩

theorem line_completion_iff {line : List (Fin 3 × Fin 3)} (hlength : line.length = 3)
    (hnodup : line.Nodup) :
    (let marks := line.map fun (r, c) => board r c
      if marks.count player.symbol = 2 ∧ marks.count .dot = 1 then
        line.find? fun (r, c) => board r c = .dot
      else none) = some rc ↔ MissesOne board player line rc := by
  obtain ⟨x, y, z, rfl⟩ := List.length_eq_three.1 hlength
  rw [missesOne_triple_iff hnodup]
  simp only [List.map_cons, List.map_nil, List.find?_cons]
  cases board x.1 x.2 <;> cases board y.1 y.2 <;> cases board z.1 z.2 <;> cases player <;>
    simp [Player.symbol]

theorem line_shape {line : List (Fin 3 × Fin 3)} (hline : line ∈ winningLines) :
    line.length = 3 ∧ line.Nodup := by
  have hall : ∀ line ∈ winningLines, line.length = 3 ∧ line.Nodup := by decide
  exact hall line hline

theorem threat_of_findCompletion (hlines : lines ⊆ winningLines)
    (hfind : findCompletion lines board player = some rc) : Threat lines board player rc := by
  obtain ⟨line, hline, hrc⟩ := List.exists_of_findSome?_eq_some hfind
  obtain ⟨hlength, hnodup⟩ := line_shape (hlines hline)
  exact ⟨line, hline, (line_completion_iff hlength hnodup).1 hrc⟩

theorem not_threat_of_findCompletion (hlines : lines ⊆ winningLines)
    (hfind : findCompletion lines board player = none) : ¬Threat lines board player rc := by
  rintro ⟨line, hline, hmisses⟩
  obtain ⟨hlength, hnodup⟩ := line_shape (hlines hline)
  have hnone := List.findSome?_eq_none_iff.1 hfind line hline
  rw [(line_completion_iff hlength hnodup).2 hmisses] at hnone
  exact absurd hnone (by simp)

end Find

/-! ### What a move does to the lines -/

section Move

variable {lines : List (List (Fin 3 × Fin 3))} {board newBoard : Board} {player : Player}
  {rc rc' : Fin 3 × Fin 3}

theorem Threat.hasLine (hlines : lines ⊆ winningLines) (h : Threat lines board player rc) :
    HasLine (place board rc.1 rc.2 player.symbol) player := by
  obtain ⟨line, hline, hmisses⟩ := h
  refine ⟨line, hlines hline, fun rc' hrc' => ?_⟩
  by_cases heq : rc' = rc
  · rw [heq, place_same]
  · rw [place_ne heq]
    exact hmisses.rest rc' hrc' heq

theorem Threat.before (h : Threat lines (place board rc'.1 rc'.2 player.symbol) player.other rc) :
    rc ≠ rc' ∧ Threat lines board player.other rc := by
  obtain ⟨line, hline, hmem, hempty, hrest⟩ := h
  have hne : rc ≠ rc' := by
    rintro rfl
    rw [place_same] at hempty
    exact player.symbol_ne_dot hempty
  rw [place_ne hne] at hempty
  refine ⟨hne, line, hline, hmem, hempty, fun cell hcell hother => ?_⟩
  have hmark := hrest cell hcell hother
  have hcellne : cell ≠ rc' := by
    rintro rfl
    rw [place_same] at hmark
    cases player <;> exact absurd hmark (by decide)
  rwa [place_ne hcellne] at hmark

theorem checkWinner_ne_none_of_line (h : HasLine board player) : checkWinner board ≠ none :=
  fun hopen => (checkWinner_eq_none hopen).1 player h

end Move

/-! ### Completing and blocking -/

/-- The program completes a line when it can. -/
def Completes (lines : List (List (Fin 3 × Fin 3))) (program : BotProgram) : Prop :=
  ∀ player board rc newBoard, Threat lines board player rc →
    program player board = some newBoard → HasLine newBoard player

/-- If the other side can complete a line after a move of the program that
decides nothing, it could have completed two lines before. -/
def Guards (lines : List (List (Fin 3 × Fin 3))) (program : BotProgram) : Prop :=
  ∀ player board newBoard rc, program player board = some newBoard →
    checkWinner newBoard = none → Threat lines newBoard player.other rc →
      Threat lines board player.other rc ∧ ∃ rc' ≠ rc, Threat lines board player.other rc'

section Programs

variable {lines : List (List (Fin 3 × Fin 3))} {order : List (Fin 3 × Fin 3)}

theorem guards_block (hlines : lines ⊆ winningLines) {player : Player} {board newBoard : Board}
    {rc : Fin 3 × Fin 3} {fallback : Option (Fin 3 × Fin 3)}
    (hmove : playAt player board ((findCompletion lines board player.other).or fallback) =
      some newBoard) (hthreat : Threat lines newBoard player.other rc) :
    Threat lines board player.other rc ∧ ∃ rc' ≠ rc, Threat lines board player.other rc' := by
  obtain ⟨taken, htaken, rfl⟩ := Option.map_eq_some_iff.1 hmove
  obtain ⟨hne, hbefore⟩ := hthreat.before
  cases hfind : findCompletion lines board player.other with
  | none => exact absurd hbefore (not_threat_of_findCompletion hlines hfind)
  | some blocked =>
      rw [hfind, Option.some_or, Option.some.injEq] at htaken
      exact ⟨hbefore, taken, hne.symm, htaken ▸ threat_of_findCompletion hlines hfind⟩

theorem completes_of_findCompletion (hlines : lines ⊆ winningLines) {program : BotProgram}
    (hprogram : ∀ player board rc, findCompletion lines board player = some rc →
      program player board = some (place board rc.1 rc.2 player.symbol)) :
    Completes lines program := by
  intro player board rc newBoard hthreat hmove
  cases hfind : findCompletion lines board player with
  | none => exact absurd hthreat (not_threat_of_findCompletion hlines hfind)
  | some rc' =>
      rw [hprogram player board rc' hfind, Option.some.injEq] at hmove
      rw [← hmove]
      exact (threat_of_findCompletion hlines hfind).hasLine hlines

theorem completes_completionBot (hlines : lines ⊆ winningLines) :
    Completes lines (completionBot lines order) := by
  apply completes_of_findCompletion hlines
  intro player board rc hfind
  rw [completionBot, hfind]
  rfl

theorem completes_offenseOnlyBot : Completes winningLines offenseOnlyBot := by
  apply completes_of_findCompletion (List.Subset.refl _)
  intro player board rc hfind
  rw [offenseOnlyBot, hfind]
  rfl

theorem guards_completionBot (hlines : lines ⊆ winningLines) :
    Guards lines (completionBot lines order) := by
  intro player board newBoard rc hmove hopen hthreat
  cases hfind : findCompletion lines board player with
  | some rc' =>
      have hline := completes_completionBot hlines player board rc' newBoard
        (threat_of_findCompletion hlines hfind) hmove
      exact absurd hopen (checkWinner_ne_none_of_line hline)
  | none =>
      rw [completionBot, hfind, Option.none_or] at hmove
      exact guards_block hlines hmove hthreat

theorem guards_defenseOnlyBot : Guards winningLines defenseOnlyBot :=
  fun _ _ _ _ hmove _ hthreat => guards_block (List.Subset.refl _) hmove hthreat

end Programs

def completers : List (BotProgram × List (List (Fin 3 × Fin 3))) :=
  [(horizontalBlindBot, horizontalBlindLines), (verticalBlindBot, verticalBlindLines),
    (diagonalBlindBot, diagonalBlindLines), (offenseOnlyBot, winningLines)]

def blockers : List (BotProgram × List (List (Fin 3 × Fin 3))) :=
  [(horizontalBlindBot, horizontalBlindLines), (verticalBlindBot, verticalBlindLines),
    (diagonalBlindBot, diagonalBlindLines), (defenseOnlyBot, winningLines)]

theorem blindLines_subset : horizontalBlindLines ⊆ winningLines ∧
    verticalBlindLines ⊆ winningLines ∧ diagonalBlindLines ⊆ winningLines := by decide

theorem completes_of_mem {bot : BotProgram × List (List (Fin 3 × Fin 3))}
    (h : bot ∈ completers) : Legal bot.1 ∧ bot.2 ⊆ winningLines ∧ Completes bot.2 bot.1 := by
  obtain ⟨hhorizontal, hvertical, hdiagonal⟩ := blindLines_subset
  have hpreferred : ∀ rc, rc ∈ preferred := by decide
  simp only [completers, List.mem_cons, List.not_mem_nil, or_false] at h
  rcases h with rfl | rfl | rfl | rfl
  · exact ⟨legal_completionBot hpreferred, hhorizontal, completes_completionBot hhorizontal⟩
  · exact ⟨legal_completionBot hpreferred, hvertical, completes_completionBot hvertical⟩
  · exact ⟨legal_completionBot hpreferred, hdiagonal, completes_completionBot hdiagonal⟩
  · exact ⟨legal_offenseOnlyBot, List.Subset.refl _, completes_offenseOnlyBot⟩

theorem guards_of_mem {bot : BotProgram × List (List (Fin 3 × Fin 3))}
    (h : bot ∈ blockers) : Legal bot.1 ∧ Guards bot.2 bot.1 := by
  obtain ⟨hhorizontal, hvertical, hdiagonal⟩ := blindLines_subset
  have hpreferred : ∀ rc, rc ∈ preferred := by decide
  simp only [blockers, List.mem_cons, List.not_mem_nil, or_false] at h
  rcases h with rfl | rfl | rfl | rfl
  · exact ⟨legal_completionBot hpreferred, guards_completionBot hhorizontal⟩
  · exact ⟨legal_completionBot hpreferred, guards_completionBot hvertical⟩
  · exact ⟨legal_completionBot hpreferred, guards_completionBot hdiagonal⟩
  · exact ⟨legal_defenseOnlyBot, guards_defenseOnlyBot⟩

/-! ### In a match -/

theorem Played.checkWinner_of_line {n : ℕ} {board newBoard : Board} {moves : List Move}
    (h : Played n board moves) (hadds : AddsOne (mover n).symbol board newBoard)
    (hline : HasLine newBoard (mover n)) : checkWinner newBoard = some (mover n).wins := by
  obtain ⟨outcome, hout⟩ := Option.ne_none_iff_exists'.1 (checkWinner_ne_none_of_line hline)
  rcases checkWinner_eq_some hout with ⟨p, rfl, hp⟩ | ⟨_, hnone, _⟩
  · rw [hout, h.line_owner hadds hp]
  · exact absurd hline (hnone _)

theorem missesOne_of_hasLine {board : Board} {player : Player} {rc : Fin 3 × Fin 3}
    (hnone : ¬HasLine board player) (hempty : board rc.1 rc.2 = .dot)
    (hline : HasLine (place board rc.1 rc.2 player.symbol) player) :
    ∃ line ∈ winningLines, MissesOne board player line rc := by
  obtain ⟨line, hmem, hmarks⟩ := hline
  have hrest : ∀ rc' ∈ line, rc' ≠ rc → board rc'.1 rc'.2 = player.symbol := by
    intro rc' hrc' hne
    rw [← hmarks rc' hrc', place_ne hne]
  refine ⟨line, hmem, ?_, hempty, hrest⟩
  by_contra hout
  exact hnone ⟨line, hmem, fun rc' hrc' => hrest rc' hrc' fun heq => hout (heq ▸ hrc')⟩

theorem not_missesOne_emptyBoard {player : Player} {line : List (Fin 3 × Fin 3)}
    {rc : Fin 3 × Fin 3} (hline : line ∈ winningLines) : ¬MissesOne emptyBoard player line rc := by
  intro hmisses
  have hother : ∀ line ∈ winningLines, ∀ rc, ∃ rc' ∈ line, rc' ≠ rc := by decide
  obtain ⟨rc', hrc', hne⟩ := hother line hline rc
  exact player.symbol_ne_dot (hmisses.rest rc' hrc' hne).symm

/-- Whenever one of the completing programs is on the move in a match and one of
its lines has only one cell missing, the match ends there, and it has won. -/
theorem completer_wins (U : UnicodeData) (coreV1 : CoreV1) (json : JsonLoads)
    (urlopen : ℕ → Urlopen) (podNameX podNameO : Str) (ip : Player → Str) (timeout : ℚ)
    (me : Player) (bot : BotProgram × List (List (Fin 3 × Fin 3)))
    (hx : getPodIp coreV1 podNameX = .ok (ip .x)) (ho : getPodIp coreV1 podNameO = .ok (ip .o))
    (hbot : bot ∈ completers) (hplays : PlaysBy json urlopen timeout (ip me) me bot.1)
    {n : ℕ} {board : Board} {moves : List Move} {rc : Fin 3 × Fin 3}
    (hreached : Reached U (fun k => requestTurn json (urlopen k)) timeout (ip .x) (ip .o) n board
      moves) (hmover : mover n = me) (hthreat : Threat bot.2 board me rc) :
    ∃ newBoard, bot.1 me board = some newBoard ∧ HasLine newBoard me ∧
      runMatchFromPods U coreV1 (fun k => requestTurn json (urlopen k)) podNameX podNameO timeout =
        .ok (some ⟨me.wins, moves ++ [acceptedMove n newBoard]⟩) := by
  obtain ⟨hlegal, _, hcompletes⟩ := completes_of_mem hbot
  have hplayed := hreached.played
  obtain ⟨newBoard, hmove, hplay⟩ := hplays.turn_of_legal hlegal U hmover
    (checkWinner_eq_none_iff.2 ⟨hplayed.not_hasLine, hplayed.not_full⟩)
  have hline := hcompletes me board rc newBoard hthreat hmove
  refine ⟨newBoard, hmove, hline, ?_⟩
  rw [← hmover, ← moverIp_eq ip] at hplay
  have hout : checkWinner newBoard = some me.wins := by
    rw [← hmover] at hline ⊢
    exact hplayed.checkWinner_of_line (playTurn_accepted hplay) hline
  rw [runMatchFromPods_eq hx ho, hreached.run_eq, gameLoop_of_over hplay hout]

/-- After four moves X has two cells of a diagonal. -/
theorem completer_wins_offense :
    ∃ newBoard, offenseOnlyBot .x (playout (sides offenseOnlyBot py310) 4) = some newBoard ∧
      HasLine newBoard .x ∧
      runMatchFromPods asciiData oneAddress
        (fun k => requestTurn plainLoads (programPods (sides offenseOnlyBot py310) k)) (str "bot-1")
        (str "bot-2") 10 =
          .ok (some ⟨.xWins,
            playoutMoves (sides offenseOnlyBot py310) 4 ++ [acceptedMove 4 newBoard]⟩) :=
  completer_wins asciiData oneAddress plainLoads (programPods (sides offenseOnlyBot py310))
    (str "bot-1") (str "bot-2") (fun _ => str "10.0.0.1") 10 .x (offenseOnlyBot, winningLines) rfl rfl
    (by simp [completers])
    (playsBy_programPods (sides offenseOnlyBot py310) .x _ (by decide +kernel))
    (reached_playout (n := 4) (fun _ => str "10.0.0.1")
      (fun p => by cases p; exacts [legal_offenseOnlyBot, legal_firstCellBot])
      (fun p => playsBy_programPods (sides offenseOnlyBot py310) p _ (by decide +kernel))
      (by decide +kernel))
    rfl (show Threat winningLines _ .x (2, 0) from
      ⟨[(0, 2), (1, 1), (2, 0)], by decide, by decide, by decide +kernel, by decide +kernel⟩)

/-- A blocking program loses a match, if it does not forfeit, in one way only:
the other side completes a line that it does not know, or had two lines to
complete before its last move. -/
theorem blocker_loses_to_fork (U : UnicodeData) (coreV1 : CoreV1) (json : JsonLoads)
    (urlopen : ℕ → Urlopen) (podNameX podNameO : Str) (ip : Player → Str) (timeout : ℚ)
    (me : Player) (bot : BotProgram × List (List (Fin 3 × Fin 3)))
    (hx : getPodIp coreV1 podNameX = .ok (ip .x)) (ho : getPodIp coreV1 podNameO = .ok (ip .o))
    (hbot : bot ∈ blockers) (hplays : PlaysBy json urlopen timeout (ip me) me bot.1)
    {m : MatchResult}
    (hrun : runMatchFromPods U coreV1 (fun k => requestTurn json (urlopen k)) podNameX podNameO
      timeout = .ok (some m)) (hloss : m.result = me.other.wins) :
    ∃ n board newBoard moves line rc,
      Reached U (fun k => requestTurn json (urlopen k)) timeout (ip .x) (ip .o) n board moves ∧
      mover n = me ∧ bot.1 me board = some newBoard ∧
      line ∈ winningLines ∧ MissesOne newBoard me.other line rc ∧
      m.moves = moves ++ [acceptedMove n newBoard,
        acceptedMove (n + 1) (place newBoard rc.1 rc.2 me.other.symbol)] ∧
      (line ∈ bot.2 → Threat bot.2 board me.other rc ∧
        ∃ rc' ≠ rc, Threat bot.2 board me.other rc') := by
  obtain ⟨hlegal, hguards⟩ := guards_of_mem hbot
  rw [runMatchFromPods_eq hx ho] at hrun
  obtain ⟨last, before, movesBefore, hreached, hlast⟩ := Reached.start.last_turn hrun
  rcases hlast with ⟨error, _, rfl⟩ | ⟨final, outcome, hplay, hout, rfl⟩
  · exact absurd hloss (Player.wins_ne_forfeitLabel _ _).symm
  · have hadds := playTurn_accepted hplay
    have hline : HasLine final me.other := by
      rcases checkWinner_eq_some hout with ⟨p, hp, hline⟩ | ⟨hcat, _⟩
      · rwa [Player.wins_injective.1 (hp.symm.trans hloss)] at hline
      · exact absurd (hloss.symm.trans hcat) (Player.wins_ne_cat _)
    have hmover : mover last = me.other := (hreached.played.line_owner hadds hline).symm
    rw [hmover] at hadds
    obtain ⟨rc, hempty, rfl⟩ := eq_place_of_addsOne hadds
    obtain ⟨line, hmem, hmisses⟩ :=
      missesOne_of_hasLine (hreached.played.not_hasLine me.other) hempty hline
    cases hreached with
    | start => exact absurd hmisses (not_missesOne_emptyBoard hmem)
    | @turn n board _ moves hreached hplay' hopen =>
        have hme : mover n = me := by
          rw [PlayState.mover_succ] at hmover
          cases hn : mover n <;> cases me <;> simp [hn, Player.other] at hmover ⊢
        obtain ⟨newBoard, hmove, hbotPlay⟩ :=
          hplays.turn_of_legal hlegal U hme hreached.played.open
        rw [moverIp_eq, hme, hbotPlay, Except.ok.injEq, TurnOutcome.accepted.injEq] at hplay'
        subst hplay'
        refine ⟨n, board, newBoard, moves, line, rc, hreached, hme, hmove, hmem, hmisses, ?_, ?_⟩
        · simp
        · exact fun hknown => hguards me board newBoard rc hmove hopen ⟨line, hknown, hmisses⟩

/-- The defensive program blocks one of two lines. -/
theorem blocker_loses_to_fork_offense :
    ∃ n board newBoard moves line rc,
      Reached asciiData
        (fun k => requestTurn plainLoads (programPods (sides offenseOnlyBot defenseOnlyBot) k)) 10
        (str "10.0.0.1") (str "10.0.0.1") n board moves ∧
      mover n = .o ∧ defenseOnlyBot .o board = some newBoard ∧
      line ∈ winningLines ∧ MissesOne newBoard .x line rc ∧
      playoutMoves (sides offenseOnlyBot defenseOnlyBot) 7 = moves ++ [acceptedMove n newBoard,
        acceptedMove (n + 1) (place newBoard rc.1 rc.2 .X)] ∧
      (line ∈ winningLines → Threat winningLines board .x rc ∧
        ∃ rc' ≠ rc, Threat winningLines board .x rc') :=
  blocker_loses_to_fork asciiData oneAddress plainLoads
    (programPods (sides offenseOnlyBot defenseOnlyBot)) (str "bot-1") (str "bot-2")
    (fun _ => str "10.0.0.1") 10 .o (defenseOnlyBot, winningLines) rfl rfl (by simp [blockers])
    (playsBy_programPods (sides offenseOnlyBot defenseOnlyBot) .o _ (by decide +kernel))
    (runMatch_playout (n := 6) (fun _ => str "10.0.0.1") rfl rfl
      (fun p => by cases p; exacts [legal_offenseOnlyBot, legal_defenseOnlyBot])
      (fun p => playsBy_programPods (sides offenseOnlyBot defenseOnlyBot) p _ (by decide +kernel))
      (by decide +kernel) (show checkWinner _ = some .xWins by decide +kernel))
    rfl

end TictactoeBots
