import TictactoeBots.ExampleBots.Completions

/-!
The two programs that break the rules.

One of them marks two cells, the other marks a cell of its opponent. Neither
gets through a match: it forfeits with its first or second move, unless the
other side has forfeited before.
-/

namespace TictactoeBots

open Text Python
open PlayState (place addsOne_place)

/-! ### The illegal moves -/

theorem AddsOne.unique {symbol : Cell} {board newBoard : Board} {a b : Fin 3 × Fin 3}
    (h : AddsOne symbol board newBoard) (ha : newBoard a.1 a.2 ≠ board a.1 a.2)
    (hb : newBoard b.1 b.2 ≠ board b.1 b.2) : a = b := by
  obtain ⟨r, c, _, _, hrest⟩ := h
  have honly : ∀ rc : Fin 3 × Fin 3, newBoard rc.1 rc.2 ≠ board rc.1 rc.2 → rc = (r, c) := by
    intro rc hne
    by_contra hother
    exact hne (hrest rc.1 rc.2 hother)
  rw [honly a ha, honly b hb]

theorem AddsOne.eq_of_taken {symbol : Cell} {board newBoard : Board}
    (h : AddsOne symbol board newBoard) (rc : Fin 3 × Fin 3) (htaken : board rc.1 rc.2 ≠ .dot) :
    newBoard rc.1 rc.2 = board rc.1 rc.2 := by
  obtain ⟨r, c, hempty, _, hrest⟩ := h
  apply hrest rc.1 rc.2
  intro heq
  obtain ⟨rfl, rfl⟩ := Prod.mk.inj heq
  exact htaken hempty

/-- Where two cells are empty, the program marks two. -/
theorem doubleMoverBot_illegal {player : Player} {board : Board} {a b : Fin 3 × Fin 3}
    {rest : List (Fin 3 × Fin 3)} (hempties : empties board = a :: b :: rest) :
    ∃ newBoard, doubleMoverBot player board = some newBoard ∧
      ¬AddsOne player.symbol board newBoard := by
  refine ⟨_, rfl, fun hadds => ?_⟩
  have hnodup := empties_nodup board
  rw [hempties] at hnodup hadds
  have hne : a ≠ b := fun heq => by simp [heq] at hnodup
  have hempty : ∀ rc ∈ [a, b], board rc.1 rc.2 = .dot := by
    intro rc hrc
    apply mem_empties.1
    rw [hempties]
    simp only [List.mem_cons, List.not_mem_nil, or_false] at hrc ⊢
    exact hrc.elim .inl fun h => .inr (.inl h)
  apply hne
  apply hadds.unique
  · show place (place board a.1 a.2 player.symbol) b.1 b.2 player.symbol a.1 a.2 ≠ board a.1 a.2
    rw [place_ne hne, place_same, hempty a (by simp)]
    exact player.symbol_ne_dot
  · show place (place board a.1 a.2 player.symbol) b.1 b.2 player.symbol b.1 b.2 ≠ board b.1 b.2
    rw [place_same, hempty b (by simp)]
    exact player.symbol_ne_dot

theorem overwriterBot_illegal {player : Player} {board : Board} (rc : Fin 3 × Fin 3)
    (hrc : board rc.1 rc.2 = player.other.symbol) :
    ∃ newBoard, overwriterBot player board = some newBoard ∧
      ¬AddsOne player.symbol board newBoard := by
  cases hfind : cells.find? (fun rc => board rc.1 rc.2 = player.other.symbol) with
  | none =>
      have hnot := List.find?_eq_none.1 hfind rc (mem_cells rc)
      exact absurd hrc (by simpa using hnot)
  | some target =>
      have htarget : board target.1 target.2 = player.other.symbol := by
        simpa using List.find?_some hfind
      refine ⟨place board target.1 target.2 player.symbol, ?_, fun hadds => ?_⟩
      · show playAt player board ((cells.find? fun rc => board rc.1 rc.2 = player.other.symbol).or
          (firstEmpty cells board)) = _
        rw [hfind]
        rfl
      · have hsame := hadds.eq_of_taken target
          (by rw [htarget]; exact player.other.symbol_ne_dot)
        rw [place_same, htarget] at hsame
        cases player <;> exact absurd hsame (by decide)

theorem overwriterBot_emptyBoard (player : Player) :
    overwriterBot player emptyBoard = some (place emptyBoard 0 0 player.symbol) := by
  cases player <;> rfl

/-! ### The first turns of a match -/

section Match

variable {U : UnicodeData} {json : JsonLoads} {urlopen : ℕ → Urlopen} {timeout : ℚ}
  {ip : Player → Str} {me : Player} {program : BotProgram} {m : MatchResult} {n : ℕ}
  {board newBoard : Board} {moves : List Move}

theorem Played.length_empties (h : Played n board moves) : (empties board).length + n = 9 := by
  induction h with
  | start => rfl
  | @turn n _ _ _ _ hadds _ _ ih =>
      obtain ⟨rc, hempty, rfl⟩ := eq_place_of_addsOne hadds
      have hlength := length_empties_place (mover n) (mem_empties.2 hempty)
      omega

theorem Played.no_mark (h : Played n board moves) (hn : n ≤ 1) (rc : Fin 3 × Fin 3) :
    board rc.1 rc.2 ≠ (mover n).symbol := by
  cases h with
  | start => exact (mover 0).symbol_ne_dot.symm
  | turn hplayed hadds _ _ =>
      cases hplayed with
      | start =>
          obtain ⟨taken, _, rfl⟩ := eq_place_of_addsOne hadds
          by_cases heq : rc = taken
          · rw [heq, place_same]
            decide
          · rw [place_ne heq]
            exact (mover 1).symbol_ne_dot.symm
      | turn _ _ _ _ => omega

theorem Played.open_early (h : Played n board moves) (hn : n ≤ 1)
    (hadds : AddsOne (mover n).symbol board newBoard) : checkWinner newBoard = none := by
  rw [checkWinner_eq_none_iff]
  refine ⟨fun p hline => ?_, fun hfull => ?_⟩
  · obtain rfl := h.line_owner hadds hline
    obtain ⟨rc, hempty, rfl⟩ := eq_place_of_addsOne hadds
    obtain ⟨line, hmem, hmisses⟩ := missesOne_of_hasLine (h.not_hasLine _) hempty hline
    have hother : ∀ line ∈ winningLines, ∀ rc, ∃ rc' ∈ line, rc' ≠ rc := by decide
    obtain ⟨rc', hrc', hne⟩ := hother line hmem rc
    exact h.no_mark hn rc' (hmisses.rest rc' hrc' hne)
  · have height := (h.full_after_iff hadds).1 hfull
    omega

variable (ip) in
theorem Reached.illegal_turn
    (hreached : Reached U (fun k => requestTurn json (urlopen k)) timeout (ip .x) (ip .o) n board
      moves)
    (hplays : PlaysBy json urlopen timeout (ip me) me program) (hmover : mover n = me)
    (hmove : ∃ newBoard, program me board = some newBoard ∧ ¬AddsOne me.symbol board newBoard) :
    ∃ error, gameLoop U (fun k => requestTurn json (urlopen k)) timeout emptyBoard []
        (matchTurns (ip .x) (ip .o)) =
      .ok (some ⟨forfeitLabel me, moves ++ [forfeitMove n board error]⟩) := by
  obtain ⟨illegal, hmove, hnot⟩ := hmove
  obtain ⟨error, hplay⟩ : ∃ error, playTurn U (requestTurn json (urlopen (n + 1))) (mover n).symbol
      (moverIp (ip .x) (ip .o) n) board timeout = .ok (.forfeit error) := by
    rw [moverIp_eq, hmover]
    rcases hplays.turn U hmover hmove with ⟨_, hadds⟩ | ⟨hforfeit, _⟩
    · exact absurd hadds hnot
    · exact hforfeit
  exact ⟨error, by rw [hreached.run_eq, gameLoop_of_forfeit hplay, hmover]⟩

theorem Reached.result_of_illegal
    (hreached : Reached U (fun k => requestTurn json (urlopen k)) timeout (ip .x) (ip .o) n board
      moves)
    (hrun : gameLoop U (fun k => requestTurn json (urlopen k)) timeout emptyBoard []
      (matchTurns (ip .x) (ip .o)) = .ok (some m))
    (hplays : PlaysBy json urlopen timeout (ip me) me program) (hmover : mover n = me)
    (hmove : ∃ newBoard, program me board = some newBoard ∧ ¬AddsOne me.symbol board newBoard) :
    m.result = forfeitLabel me ∧ m.moves.length = n + 1 := by
  obtain ⟨error, hend⟩ := hreached.illegal_turn ip hplays hmover hmove
  rw [hend, Except.ok.injEq, Option.some.injEq] at hrun
  subst hrun
  exact ⟨rfl, by simp [hreached.played.length_moves]⟩

theorem Reached.early_turn
    (hreached : Reached U (fun k => requestTurn json (urlopen k)) timeout (ip .x) (ip .o) n board
      moves)
    (hrun : gameLoop U (fun k => requestTurn json (urlopen k)) timeout emptyBoard []
      (matchTurns (ip .x) (ip .o)) = .ok (some m)) (hn : n ≤ 1) :
    (m.result = forfeitLabel (mover n) ∧ m.moves.length = n + 1) ∨
      ∃ newBoard moves, AddsOne (mover n).symbol board newBoard ∧
        Reached U (fun k => requestTurn json (urlopen k)) timeout (ip .x) (ip .o) (n + 1) newBoard
          moves := by
  rcases hreached.turn_cases hrun with ⟨_, _, rfl⟩ | ⟨_, _, hplay, hout, _⟩ | ⟨_, hplay, hnext⟩
  · exact .inl ⟨rfl, by simp [hreached.played.length_moves]⟩
  · rw [hreached.played.open_early hn (playTurn_accepted hplay)] at hout
    cases hout
  · exact .inr ⟨_, _, playTurn_accepted hplay, hnext⟩

end Match

/-! ### Their matches -/

section Matches

variable (U : UnicodeData) (coreV1 : CoreV1) (json : JsonLoads) (urlopen : ℕ → Urlopen)
  (podNameX podNameO : Str) (ip : Player → Str) (timeout : ℚ) (me : Player) {m : MatchResult}

/-- The double mover forfeits with its first move, or X has forfeited before. -/
theorem doubleMoverBot_match (hx : getPodIp coreV1 podNameX = .ok (ip .x))
    (ho : getPodIp coreV1 podNameO = .ok (ip .o))
    (hplays : PlaysBy json urlopen timeout (ip me) me doubleMoverBot)
    (hrun : runMatchFromPods U coreV1 (fun k => requestTurn json (urlopen k)) podNameX podNameO
      timeout = .ok (some m)) :
    (m.result = forfeitLabel me ∧ m.moves.length = if me = .x then 1 else 2) ∨
      (me = .o ∧ m.result = .xForfeit ∧ m.moves.length = 1) := by
  rw [runMatchFromPods_eq hx ho] at hrun
  have hforfeit : ∀ {n board moves}, Reached U (fun k => requestTurn json (urlopen k)) timeout
      (ip .x) (ip .o) n board moves → n ≤ 1 → mover n = me →
        m.result = forfeitLabel me ∧ m.moves.length = n + 1 := by
    intro n board moves hreached hn hmover
    have hlength := hreached.played.length_empties
    apply hreached.result_of_illegal hrun hplays hmover
    match hempties : empties board with
    | a :: b :: rest => exact doubleMoverBot_illegal hempties
    | [] | [a] =>
        rw [hempties] at hlength
        simp at hlength
        omega
  cases me with
  | x => exact .inl (hforfeit .start (Nat.zero_le 1) rfl)
  | o =>
      rcases Reached.start.early_turn hrun (Nat.zero_le 1) with hfirst | ⟨_, _, _, hreached⟩
      · exact .inr ⟨rfl, hfirst⟩
      · exact .inl (hforfeit hreached le_rfl rfl)

theorem reached_py310 (program : BotProgram) :
    Reached asciiData
      (fun k => requestTurn plainLoads (programPods (sides py310 program) k)) 10 (str "10.0.0.1")
      (str "10.0.0.1") 1 (place emptyBoard 0 0 .X) [acceptedMove 0 (place emptyBoard 0 0 .X)] :=
  .turn .start
    ((playsBy_programPods (sides py310 program) .x _ (by decide +kernel)).turn_eq asciiData rfl rfl
      (addsOne_place rfl))
    (by decide)

theorem runMatch_py310 {program : BotProgram}
    (hmove : ∃ newBoard, program .o (place emptyBoard 0 0 .X) = some newBoard ∧
      ¬AddsOne Player.o.symbol (place emptyBoard 0 0 .X) newBoard) :
    ∃ error, runMatchFromPods asciiData oneAddress
        (fun k => requestTurn plainLoads (programPods (sides py310 program) k)) (str "bot-1")
        (str "bot-2") 10 =
      .ok (some ⟨.oForfeit, [acceptedMove 0 (place emptyBoard 0 0 .X),
        forfeitMove 1 (place emptyBoard 0 0 .X) error]⟩) := by
  have hx : getPodIp oneAddress (str "bot-1") = .ok (str "10.0.0.1") := rfl
  have ho : getPodIp oneAddress (str "bot-2") = .ok (str "10.0.0.1") := rfl
  rw [runMatchFromPods_eq hx ho]
  exact (reached_py310 program).illegal_turn (fun _ => str "10.0.0.1")
    (playsBy_programPods (sides py310 program) .o _ (by decide +kernel)) rfl hmove

/-- The double mover answers the first move of X with two marks. -/
theorem doubleMoverBot_match_py310 :
    ∃ m error, runMatchFromPods asciiData oneAddress
        (fun k => requestTurn plainLoads (programPods (sides py310 doubleMoverBot) k))
        (str "bot-1") (str "bot-2") 10 = .ok (some m) ∧
      doubleMoverBot .o (place emptyBoard 0 0 .X) =
        some (place (place (place emptyBoard 0 0 .X) 0 1 .O) 0 2 .O) ∧
      m.moves = [acceptedMove 0 (place emptyBoard 0 0 .X),
        forfeitMove 1 (place emptyBoard 0 0 .X) error] ∧
      ((m.result = .oForfeit ∧ m.moves.length = if Player.o = .x then 1 else 2) ∨
        (Player.o = .o ∧ m.result = .xForfeit ∧ m.moves.length = 1)) := by
  obtain ⟨error, hrun⟩ := runMatch_py310 (doubleMoverBot_illegal rfl)
  exact ⟨_, error, hrun, rfl, rfl, doubleMoverBot_match asciiData oneAddress plainLoads
    (programPods (sides py310 doubleMoverBot)) (str "bot-1") (str "bot-2")
    (fun _ => str "10.0.0.1") 10 .o rfl rfl
    (playsBy_programPods (sides py310 doubleMoverBot) .o _ (by decide +kernel)) hrun⟩

/-- The overwriter forfeits as soon as the other side has a cell, or that side
has forfeited before. -/
theorem overwriterBot_match (hx : getPodIp coreV1 podNameX = .ok (ip .x))
    (ho : getPodIp coreV1 podNameO = .ok (ip .o))
    (hplays : PlaysBy json urlopen timeout (ip me) me overwriterBot)
    (hrun : runMatchFromPods U coreV1 (fun k => requestTurn json (urlopen k)) podNameX podNameO
      timeout = .ok (some m)) :
    (m.result = forfeitLabel me ∧ m.moves.length = if me = .x then 3 else 2) ∨
      (m.result = forfeitLabel me.other ∧ m.moves.length = if me = .x then 2 else 1) := by
  rw [runMatchFromPods_eq hx ho] at hrun
  have hforfeit : ∀ {n board newBoard moves}, AddsOne me.other.symbol board newBoard →
      Reached U (fun k => requestTurn json (urlopen k)) timeout (ip .x) (ip .o) n newBoard moves →
        mover n = me → m.result = forfeitLabel me ∧ m.moves.length = n + 1 := by
    intro n board newBoard moves hadds hreached hmover
    obtain ⟨r, c, _, hmark, _⟩ := hadds
    exact hreached.result_of_illegal hrun hplays hmover (overwriterBot_illegal (r, c) hmark)
  cases me with
  | x =>
      have hadds : AddsOne Cell.X emptyBoard (place emptyBoard 0 0 .X) := addsOne_place rfl
      have hplay : playTurn U (requestTurn json (urlopen (0 + 1))) (mover 0).symbol
          (moverIp (ip .x) (ip .o) 0) emptyBoard timeout =
            .ok (.accepted (place emptyBoard 0 0 .X)) :=
        hplays.turn_eq U rfl (overwriterBot_emptyBoard .x) hadds
      have hreached : Reached U (fun k => requestTurn json (urlopen k)) timeout (ip .x) (ip .o)
          (0 + 1) _ _ := .turn .start hplay (Played.start.open_early (Nat.zero_le 1) hadds)
      rcases hreached.early_turn hrun le_rfl with hsecond | ⟨_, _, hadds', hreached'⟩
      · exact .inr hsecond
      · exact .inl (hforfeit hadds' hreached' rfl)
  | o =>
      rcases Reached.start.early_turn hrun (Nat.zero_le 1) with hfirst | ⟨_, _, hadds, hreached⟩
      · exact .inr hfirst
      · exact .inl (hforfeit hadds hreached rfl)

/-- The overwriter takes the one cell that X has. -/
theorem overwriterBot_match_py310 :
    ∃ m error, runMatchFromPods asciiData oneAddress
        (fun k => requestTurn plainLoads (programPods (sides py310 overwriterBot) k))
        (str "bot-1") (str "bot-2") 10 = .ok (some m) ∧
      overwriterBot .o (place emptyBoard 0 0 .X) = some (place emptyBoard 0 0 .O) ∧
      m.moves = [acceptedMove 0 (place emptyBoard 0 0 .X),
        forfeitMove 1 (place emptyBoard 0 0 .X) error] ∧
      ((m.result = .oForfeit ∧ m.moves.length = if Player.o = .x then 3 else 2) ∨
        (m.result = .xForfeit ∧ m.moves.length = if Player.o = .x then 2 else 1)) := by
  have htakes : overwriterBot .o (place emptyBoard 0 0 .X) = some (place emptyBoard 0 0 .O) := by
    rw [← show place (place emptyBoard 0 0 .X) 0 0 .O = place emptyBoard 0 0 .O by decide]
    rfl
  obtain ⟨error, hrun⟩ := runMatch_py310 (overwriterBot_illegal (0, 0) rfl)
  exact ⟨_, error, hrun, htakes, rfl, overwriterBot_match asciiData oneAddress plainLoads
    (programPods (sides py310 overwriterBot)) (str "bot-1") (str "bot-2")
    (fun _ => str "10.0.0.1") 10 .o rfl rfl
    (playsBy_programPods (sides py310 overwriterBot) .o _ (by decide +kernel)) hrun⟩

end Matches

end TictactoeBots
