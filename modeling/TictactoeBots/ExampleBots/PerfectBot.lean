import TictactoeBots.Lib.GameValue
import TictactoeBots.Web.PlayPage
import TictactoeBots.ExampleBots.Legality

/-!
What the perfect bots compute.

`playGame me` is the game of the engine with the payoffs of the bots: a win is
worth more the earlier it comes, and a loss less. The second version computes
the value of every position and takes the first of the best moves. The first
version does not look at the moves of its opponent at all.
-/

namespace TictactoeBots

open FirstBest GameValue
open PlayState (place addsOne_place other_ne)

/-- The positions of a game are boards with the player on the move. -/
def playGame (me : Player) : Game (Board × Player) ℤ where
  next s :=
    match checkWinner s.1 with
    | some _ => []
    | none => (empties s.1).map fun rc => (place s.1 rc.1 rc.2 s.2.symbol, s.2.other)
  ours s := s.2 = me
  payoff s :=
    match checkWinner s.1 with
    | some outcome =>
        if outcome = me.wins then 10 - marked s.1
        else if outcome = me.other.wins then -10 + marked s.1
        else 0
    | none => 0

/-! ### Payoffs -/

theorem marked_bounds (board : Board) : 0 ≤ marked board ∧ marked board ≤ 9 := by
  rw [marked]
  exact ⟨Int.natCast_nonneg _, Int.ofNat_le.2 (List.length_filter_le _ cells)⟩

theorem marked_add_empties (board : Board) : marked board + (empties board).length = 9 := by
  have hsplit := List.length_eq_length_filter_add (l := cells) fun rc =>
    decide (board rc.1 rc.2 ≠ .dot)
  have hempties : empties board =
      cells.filter fun rc => !decide (board rc.1 rc.2 ≠ .dot) := by
    apply List.filter_congr
    simp
  have hmarked : marked board =
      ((cells.filter fun rc => decide (board rc.1 rc.2 ≠ .dot)).length : ℤ) := rfl
  rw [hempties, hmarked]
  have hnine : cells.length = 9 := rfl
  omega

theorem payoff_bounds (me : Player) (s : Board × Player) :
    -10 ≤ (playGame me).payoff s ∧ (playGame me).payoff s ≤ 10 := by
  have hmarked := marked_bounds s.1
  simp only [playGame]
  split
  · split_ifs <;> omega
  · omega

/-! ### The winner -/

theorem checkWinner_of_winner {board : Board} {w : Cell} (h : winner board = some w) :
    ∃ p : Player, w = p.symbol ∧ checkWinner board = some p.wins := by
  rw [winner_eq] at h
  obtain ⟨outcome, hfound, hw⟩ := Option.map_eq_some_iff.1 h
  obtain ⟨line, hline, hout⟩ := List.exists_of_findSome?_eq_some hfound
  obtain ⟨p, rfl, _⟩ := (lineOutcome_eq_some_iff hline).1 hout
  refine ⟨p, ?_, by rw [checkWinner, hfound]⟩
  rw [← hw]
  cases p <;> rfl

theorem checkWinner_of_no_winner {board : Board} (h : winner board = none) :
    checkWinner board = if empties board = [] then some .cat else none := by
  rw [winner_eq, Option.map_eq_none_iff] at h
  have hfull : (cells.all fun rc => board rc.1 rc.2 ≠ .dot) = decide (empties board = []) := by
    rw [Bool.eq_iff_iff, decide_eq_true_eq, empties, List.filter_eq_nil_iff, List.all_eq_true]
    simp
  rw [checkWinner, h]
  show (if cells.all fun rc => board rc.1 rc.2 ≠ .dot then some MatchOutcome.cat else none) = _
  simp only [hfull, decide_eq_true_eq]

/-! ### The value of a position -/

def child (s : Board × Player) (rc : Fin 3 × Fin 3) : Board × Player :=
  (place s.1 rc.1 rc.2 s.2.symbol, s.2.other)

theorem next_of_open {me toMove : Player} {board : Board} (hopen : checkWinner board = none) :
    (playGame me).next (board, toMove) = (empties board).map (child (board, toMove)) := by
  simp only [playGame, hopen]
  rfl

theorem minimax_children {me toMove : Player} {n : ℕ} {board : Board}
    (hopen : checkWinner board = none)
    (hvalues : ∀ rc ∈ empties board, IsValue (playGame me) (child (board, toMove) rc)
      (minimax true me n (child (board, toMove) rc).1 (child (board, toMove) rc).2).1) :
    let score := fun rc => (minimax true me n (child (board, toMove) rc).1 toMove.other).1
    (toMove = me → ∃ best, IsFirstBest (· > ·) score (empties board) best ∧
      minimax true me (n + 1) board toMove = (score best, some best)) ∧
    (toMove ≠ me → ∃ best, IsFirstBest (· < ·) score (empties board) best ∧
      minimax true me (n + 1) board toMove = (score best, some best)) := by
  intro score
  obtain ⟨first, rest, hlist⟩ := exists_empties_cons hopen
  have hne : empties board ≠ [] := by simp [hlist]
  have hbounds : ∀ rc ∈ empties board, -10 ≤ score rc ∧ score rc ≤ 10 := fun rc hrc =>
    (hvalues rc hrc).bounds (payoff_bounds me)
  rw [minimax_of_open true me n toMove hopen]
  constructor
  · intro hours
    simp only [if_pos hours]
    apply keepBest_eq (· > ·) score some _ hne
    intro rc hrc
    have hlow := (hbounds rc hrc).1
    show score rc > -999
    omega
  · intro htheirs
    simp only [if_neg htheirs, if_true]
    apply keepBest_eq (· < ·) score some _ hne
    intro rc hrc
    have hhigh := (hbounds rc hrc).2
    show score rc < 999
    omega

theorem minimax_of_over (opponentChooses : Bool) {me toMove : Player} {board : Board}
    {outcome : MatchOutcome} (n : ℕ) (hout : checkWinner board = some outcome) :
    (minimax opponentChooses me (n + 1) board toMove).1 =
      (playGame me).payoff (board, toMove) := by
  simp only [playGame, hout]
  cases hwinner : winner board with
  | some w =>
      obtain ⟨p, rfl, hline⟩ := checkWinner_of_winner hwinner
      rw [hout, Option.some.injEq] at hline
      rw [minimax, hwinner, hline]
      cases p <;> cases me <;> rfl
  | none =>
      have hfull := checkWinner_of_no_winner hwinner
      rw [hout] at hfull
      split at hfull
      · rename_i hempties
        rw [minimax, hwinner, hempties, Option.some.inj hfull]
        cases me <;> rfl
      · exact absurd hfull (by simp)

/-- The score of a position in which the second version is asked, at any depth
that its empty cells leave room for. -/
theorem isValue_minimax (me : Player) {n : ℕ} {board : Board} {toMove : Player}
    (hdepth : (empties board).length < n) :
    IsValue (playGame me) (board, toMove) (minimax true me n board toMove).1 := by
  -- a move leaves fewer empty cells and one call less
  induction n generalizing board toMove with
  | zero => exact absurd hdepth (Nat.not_lt_zero _)
  | succ n ih =>
      cases hout : checkWinner board with
      | some outcome =>
          have hover : (playGame me).next (board, toMove) = [] := by simp [playGame, hout]
          rw [minimax_of_over true n hout]
          exact isValue_finished hover
      | none =>
          have hvalues : ∀ rc ∈ empties board,
              IsValue (playGame me) (child (board, toMove) rc)
                (minimax true me n (child (board, toMove) rc).1 toMove.other).1 := by
            intro rc hrc
            apply ih
            have hlength := length_empties_place toMove hrc
            show (empties (place board rc.1 rc.2 toMove.symbol)).length < n
            omega
          obtain ⟨hours, htheirs⟩ := minimax_children hout hvalues
          have hmem : ∀ rc ∈ empties board,
              child (board, toMove) rc ∈ (playGame me).next (board, toMove) := fun rc hrc =>
            next_of_open hout ▸ List.mem_map_of_mem hrc
          by_cases hturn : toMove = me
          · obtain ⟨best, hbest, hscore⟩ := hours hturn
            rw [hscore]
            apply isValue_ours hturn (hmem best hbest.mem) (hvalues best hbest.mem)
            intro u hu
            obtain ⟨rc, hrc, rfl⟩ := List.mem_map.1 (next_of_open hout ▸ hu)
            exact ⟨_, hvalues rc hrc, not_lt.1 (hbest.not_better hrc)⟩
          · obtain ⟨best, hbest, hscore⟩ := htheirs hturn
            rw [hscore]
            apply isValue_theirs hturn (hmem best hbest.mem) (hvalues best hbest.mem)
            intro u hu
            obtain ⟨rc, hrc, rfl⟩ := List.mem_map.1 (next_of_open hout ▸ hu)
            exact ⟨_, hvalues rc hrc, not_lt.1 (hbest.not_better hrc)⟩

/-- The moves of an open position have values, the position has the greatest of
them, and the second version makes the first move that has it. -/
theorem perfectBotV2_move (me : Player) {board : Board} (hopen : checkWinner board = none) :
    ∃ (value : Fin 3 × Fin 3 → ℤ) (best : Fin 3 × Fin 3),
      (∀ rc ∈ empties board, IsValue (playGame me) (child (board, me) rc) (value rc)) ∧
      IsFirstBest (· > ·) value (empties board) best ∧
      IsValue (playGame me) (board, me) (value best) ∧
      perfectBotV2 me board = some (child (board, me) best).1 := by
  have hle := length_empties_le board
  have hvalues : ∀ rc ∈ empties board, IsValue (playGame me) (child (board, me) rc)
      (minimax true me 9 (child (board, me) rc).1 (child (board, me) rc).2).1 := by
    intro rc hrc
    apply isValue_minimax
    have hlength := length_empties_place me hrc
    show (empties (place board rc.1 rc.2 me.symbol)).length < 9
    omega
  obtain ⟨best, hbest, hscore⟩ := (minimax_children hopen hvalues).1 rfl
  refine ⟨_, best, hvalues, hbest, ?_, ?_⟩
  · have hroot : IsValue (playGame me) (board, me) (minimax true me 10 board me).1 :=
      isValue_minimax me (by omega)
    rwa [hscore] at hroot
  · rw [perfectBotV2, perfectBot, hscore]
    rfl

/-- The move of the second version, on every open board: what could be forced
before can be forced after it, and every empty cell before it in reading order
would have given something away. -/
theorem perfectBotV2_optimal (me : Player) (board : Board) (hopen : checkWinner board = none) :
    ∃ front best back, empties board = front ++ best :: back ∧
      perfectBotV2 me board = some (place board best.1 best.2 me.symbol) ∧
      (∀ b, Forces (playGame me) b (board, me) ↔
        Forces (playGame me) b (place board best.1 best.2 me.symbol, me.other)) ∧
      ∀ rc ∈ front, ∃ b, Forces (playGame me) b (board, me) ∧
        ¬Forces (playGame me) b (place board rc.1 rc.2 me.symbol, me.other) := by
  obtain ⟨value, best, hvalues, ⟨front, back, hlist, hfront, _⟩, hroot, hbot⟩ :=
    perfectBotV2_move me hopen
  have hmem : ∀ rc ∈ front ++ best :: back, rc ∈ empties board := fun rc hrc => hlist ▸ hrc
  refine ⟨front, best, back, hlist, hbot, fun b => ?_, fun rc hrc => ⟨value best, hroot.1, ?_⟩⟩
  · exact hroot.forces_iff.trans (hvalues best (hmem best (by simp))).forces_iff.symm
  · intro hforces
    have hle := (hvalues rc (hmem rc (by simp [hrc]))).forces_iff.1 hforces
    exact absurd (hfront rc hrc) (not_lt.2 hle)

theorem perfectBotV2_optimal_emptyBoard :
    ∃ front best back, empties emptyBoard = front ++ best :: back ∧
      perfectBotV2 .x emptyBoard = some (place emptyBoard best.1 best.2 .X) ∧
      (∀ b, Forces (playGame .x) b (emptyBoard, .x) ↔
        Forces (playGame .x) b (place emptyBoard best.1 best.2 .X, .o)) ∧
      ∀ rc ∈ front, ∃ b, Forces (playGame .x) b (emptyBoard, .x) ∧
        ¬Forces (playGame .x) b (place emptyBoard rc.1 rc.2 .X, .o) :=
  perfectBotV2_optimal .x emptyBoard (by decide)

/-! ### The first version -/

def scoreV1 (me : Player) (board : Board) (rc : Fin 3 × Fin 3) : ℤ :=
  (minimax false me 9 (place board rc.1 rc.2 me.symbol) me.other).1

def LeavesOpen (me : Player) (board : Board) (rc : Fin 3 × Fin 3) : Prop :=
  checkWinner (place board rc.1 rc.2 me.symbol) = none

instance (me : Player) (board : Board) (rc : Fin 3 × Fin 3) :
    Decidable (LeavesOpen me board rc) :=
  inferInstanceAs (Decidable (checkWinner _ = none))

section FirstVersion

variable {me : Player} {board : Board} {rc best : Fin 3 × Fin 3}

theorem scoreV1_of_leavesOpen (h : LeavesOpen me board rc) : scoreV1 me board rc = 999 := by
  rw [scoreV1, minimax_of_open false me 8 me.other h]
  simp [PlayState.other_ne]

theorem scoreV1_bounds (h : ¬LeavesOpen me board rc) :
    -10 ≤ scoreV1 me board rc ∧ scoreV1 me board rc ≤ 10 := by
  obtain ⟨outcome, hout⟩ := Option.ne_none_iff_exists'.1 h
  rw [scoreV1, minimax_of_over false 8 hout]
  exact payoff_bounds me _

/-- A move that ends the game, with other cells still empty, is a win. All these
have the same score, the number of cells that were empty before. -/
theorem scoreV1_closing (hopen : checkWinner board = none) (hrc : rc ∈ empties board)
    (hmore : 2 ≤ (empties board).length) (hover : ¬LeavesOpen me board rc) :
    scoreV1 me board rc = (empties board).length := by
  obtain ⟨outcome, hout⟩ := Option.ne_none_iff_exists'.1 hover
  have hlength := length_empties_place me hrc
  have hadds : AddsOne me.symbol board (place board rc.1 rc.2 me.symbol) :=
    addsOne_place (mem_empties.1 hrc)
  have hwins : outcome = me.wins := by
    rcases checkWinner_eq_some hout with ⟨p, rfl, hline⟩ | ⟨_, _, hfull⟩
    · have howner : p = me := (addsOne_iff_places.1 hadds).line_owner
        (fun hold => (checkWinner_eq_none hopen).1 p (hasLine_iff_position.2 hold))
        (hasLine_iff_position.1 hline)
      rw [howner]
    · obtain ⟨other, hother⟩ := List.exists_mem_of_length_pos
        (l := empties (place board rc.1 rc.2 me.symbol)) (by omega)
      exact absurd (mem_empties.1 hother) (hfull _ _)
  have hmarked := marked_add_empties (place board rc.1 rc.2 me.symbol)
  rw [scoreV1, minimax_of_over false 8 hout]
  simp only [playGame, hout, hwins, if_true]
  omega

/-- A best move that leaves the game open is the first that does: what comes
before it has a lower score. -/
theorem find_leavesOpen (hbest : IsFirstBest (· > ·) (scoreV1 me board) (empties board) best)
    (hopen : LeavesOpen me board best) :
    (empties board).find? (fun rc => LeavesOpen me board rc) = some best := by
  obtain ⟨front, back, hsplit, hfront, _⟩ := hbest
  rw [List.find?_eq_some_iff_append]
  refine ⟨decide_eq_true hopen, front, back, hsplit, fun rc hrc => ?_⟩
  rw [Bool.not_eq_true', decide_eq_false_iff_not]
  intro hearlier
  have hworse := hfront rc hrc
  rw [scoreV1_of_leavesOpen hearlier, scoreV1_of_leavesOpen hopen] at hworse
  exact absurd hworse (lt_irrefl _)

/-- If a best move ends the game then every move does. -/
theorem not_leavesOpen_of_best
    (hbest : IsFirstBest (· > ·) (scoreV1 me board) (empties board) best)
    (hover : ¬LeavesOpen me board best) (hrc : rc ∈ empties board) : ¬LeavesOpen me board rc := by
  intro hopen
  have hhigh := (scoreV1_bounds hover).2
  have hnot := hbest.not_better hrc
  rw [scoreV1_of_leavesOpen hopen] at hnot
  omega

theorem head_of_closing (hopen : checkWinner board = none)
    (hbest : IsFirstBest (· > ·) (scoreV1 me board) (empties board) best)
    (hover : ¬LeavesOpen me board best) : (empties board).head? = some best := by
  have hall : ∀ rc ∈ empties board, ¬LeavesOpen me board rc := fun rc hrc =>
    not_leavesOpen_of_best hbest hover hrc
  have hmem := hbest.mem
  obtain ⟨front, back, hsplit, hfront, _⟩ := hbest
  cases front with
  | nil =>
      rw [hsplit]
      rfl
  | cons other front =>
      have hother : other ∈ empties board := by
        rw [hsplit]
        exact List.mem_cons_self
      have hmore : 2 ≤ (empties board).length := by
        rw [hsplit, List.length_append, List.length_cons, List.length_cons]
        omega
      have hworse := hfront other List.mem_cons_self
      rw [scoreV1_closing hopen hother hmore (hall other hother),
        scoreV1_closing hopen hmem hmore hover] at hworse
      exact absurd hworse (lt_irrefl _)

end FirstVersion

/-- The first version marks the first empty cell that does not end the game, and
where every move ends it the first empty cell: it wins only when it cannot help
it. -/
theorem perfectBotV1_move (me : Player) (board : Board) (hopen : checkWinner board = none) :
    perfectBotV1 me board = playAt me board
      (((empties board).find? fun rc => LeavesOpen me board rc).or (empties board).head?) := by
  obtain ⟨first, rest, hlist⟩ := exists_empties_cons hopen
  have hne : empties board ≠ [] := by simp [hlist]
  have hbeats : ∀ rc ∈ empties board, scoreV1 me board rc > -999 := by
    intro rc _
    by_cases hchild : LeavesOpen me board rc
    · rw [scoreV1_of_leavesOpen hchild]
      decide
    · have hlow := (scoreV1_bounds hchild).1
      omega
  obtain ⟨best, hbest, hkeep⟩ := keepBest_eq (· > ·) (scoreV1 me board) some
    (-999, (empties board).head?) hne hbeats
  have hmove : perfectBotV1 me board = playAt me board (some best) := by
    rw [perfectBotV1, perfectBot, minimax_of_open false me 9 me hopen]
    simp only [if_true]
    exact congrArg (fun kept => playAt me board kept.2) hkeep
  rw [hmove]
  apply congrArg
  by_cases hlast : LeavesOpen me board best
  · rw [find_leavesOpen hbest hlast]
    rfl
  · have hfind : (empties board).find? (fun rc => LeavesOpen me board rc) = none := by
      rw [List.find?_eq_none]
      intro rc hrc
      simpa using not_leavesOpen_of_best hbest hlast hrc
    rw [hfind, Option.none_or, head_of_closing hopen hbest hlast]

/-- With two in a row, X could win at once, and marks another cell. -/
theorem perfectBotV1_move_twoInRow :
    perfectBotV1 .x ![![.X, .X, .dot], ![.O, .O, .dot], ![.dot, .dot, .dot]] =
      some ![![.X, .X, .dot], ![.O, .O, .X], ![.dot, .dot, .dot]] := by
  rw [perfectBotV1_move .x _ (by decide)]
  decide

end TictactoeBots
