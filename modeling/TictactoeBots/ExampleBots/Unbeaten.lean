import TictactoeBots.ExampleBots.PerfectBot

/-!
The second perfect bot does not lose.

Neither side can force a win from the empty board. That is found out by a
search, on positions that are two sets of cells in the bits of two numbers. The
moves of the bot keep the value of the position, and those of its opponent
cannot lower it, so at the end of the game it is still no loss.
-/

namespace TictactoeBots

open Text Python GameValue
open PlayState (place)

/-! ### Positions in bits -/

/-- The cells of both sides, the cell `(r, c)` in the bit `3 * r + c`. -/
structure BitPosition where
  ours : ℕ
  theirs : ℕ
  ourTurn : Bool

def cellBit (rc : Fin 3 × Fin 3) : ℕ := 3 * rc.1.val + rc.2.val

/-- The sets of cells of the eight lines. -/
def lineMasks : List ℕ := [7, 56, 448, 73, 146, 292, 273, 84]

/-- The single cells, those first that are good for more lines. -/
def moveMasks : List ℕ := [16, 256, 1, 4, 64, 2, 8, 32, 128]

def hasLineMask (marks : ℕ) : Bool := lineMasks.any fun m => Nat.beq (Nat.land marks m) m

/-- `f n`, which is evaluated with the value of `n`. -/
def force {α : Type} (n : ℕ) (f : ℕ → α) : α :=
  match n with
  | 0 => f 0
  | k + 1 => f (Nat.succ k)

theorem force_eq {α : Type} (n : ℕ) (f : ℕ → α) : force n f = f n := by
  cases n <;> rfl

def BitPosition.next : BitPosition → List BitPosition
  | ⟨ours, theirs, ourTurn⟩ =>
      bif hasLineMask ours || hasLineMask theirs then []
      else force (Nat.lor ours theirs) fun taken =>
        (moveMasks.filter fun m => Nat.beq (Nat.land taken m) 0).map fun m =>
          bif ourTurn then force (Nat.lor ours m) fun ours => ⟨ours, theirs, false⟩
          else force (Nat.lor theirs m) fun theirs => ⟨ours, theirs, true⟩

/-- The game of the bits; only a loss counts. -/
def bitGame : Game BitPosition ℤ where
  next := BitPosition.next
  ours s := s.ourTurn = true
  payoff s := if hasLineMask s.theirs then -1 else 0

/-- Looks for a game that is not lost. -/
def bitSearch (s : BitPosition) : Bool :=
  search BitPosition.next BitPosition.ourTurn (fun s => !hasLineMask s.theirs) 10 s

theorem forces_of_bitSearch {s : BitPosition} (h : bitSearch s = true) : Forces bitGame 0 s := by
  refine forces_of_search (G := bitGame) (fun s => Iff.rfl) ?_ h
  intro s hgood
  rw [Bool.not_eq_true'] at hgood
  simp [bitGame, hgood]

theorem forces_bitGame_empty (ourTurn : Bool) : Forces bitGame 0 ⟨0, 0, ourTurn⟩ := by
  cases ourTurn with
  | true => exact forces_of_bitSearch (by decide +kernel)
  | false => exact forces_of_bitSearch (by decide +kernel)

/-! ### Boards in bits -/

def Marks (board : Board) (player : Player) (marks : ℕ) : Prop :=
  ∀ rc : Fin 3 × Fin 3, marks.testBit (cellBit rc) = decide (board rc.1 rc.2 = player.symbol)

def mask (line : List (Fin 3 × Fin 3)) : ℕ := line.foldr (fun rc m => 2 ^ cellBit rc ||| m) 0

theorem lineMasks_eq : lineMasks = winningLines.map mask := by decide

theorem mem_moveMasks {m : ℕ} : m ∈ moveMasks ↔ ∃ rc, m = 2 ^ cellBit rc := by
  have hperm : moveMasks.Perm (cells.map fun rc => 2 ^ cellBit rc) := by decide
  rw [hperm.mem_iff, List.mem_map]
  exact ⟨fun ⟨rc, _, heq⟩ => ⟨rc, heq.symm⟩, fun ⟨rc, heq⟩ => ⟨rc, mem_cells rc, heq.symm⟩⟩

theorem cellBit_injective {rc rc' : Fin 3 × Fin 3} : cellBit rc = cellBit rc' ↔ rc = rc' := by
  revert rc rc'
  decide

theorem testBit_mask (line : List (Fin 3 × Fin 3)) (i : ℕ) :
    (mask line).testBit i = decide (∃ rc ∈ line, cellBit rc = i) := by
  induction line with
  | nil => simp [mask]
  | cons rc line ih =>
      have hcons : mask (rc :: line) = 2 ^ cellBit rc ||| mask line := rfl
      rw [hcons, Nat.testBit_or, Nat.testBit_two_pow, ih, ← Bool.decide_or]
      simp

theorem land_mask_iff {board : Board} {player : Player} {marks : ℕ}
    (h : Marks board player marks) (line : List (Fin 3 × Fin 3)) :
    Nat.beq (Nat.land marks (mask line)) (mask line) = true ↔
      ∀ rc ∈ line, board rc.1 rc.2 = player.symbol := by
  rw [Nat.beq_eq]
  constructor
  · intro heq rc hrc
    have hbit := congrArg (fun n => n.testBit (cellBit rc)) heq
    have hline : (mask line).testBit (cellBit rc) = true := by
      rw [testBit_mask, decide_eq_true_eq]
      exact ⟨rc, hrc, rfl⟩
    have hland : (Nat.land marks (mask line)).testBit (cellBit rc) =
        (marks.testBit (cellBit rc) && (mask line).testBit (cellBit rc)) := Nat.testBit_and ..
    simp only [hland, hline, Bool.and_true, h rc, decide_eq_true_eq] at hbit
    exact hbit
  · intro hline
    apply Nat.eq_of_testBit_eq
    intro i
    have hland : (Nat.land marks (mask line)).testBit i =
        (marks.testBit i && (mask line).testBit i) := Nat.testBit_and ..
    rw [hland, testBit_mask]
    by_cases hi : ∃ rc ∈ line, cellBit rc = i
    · obtain ⟨rc, hrc, rfl⟩ := hi
      rw [h rc, decide_eq_true (hline rc hrc), Bool.true_and]
    · simp [hi]

theorem Marks.hasLineMask_iff {board : Board} {player : Player} {marks : ℕ}
    (h : Marks board player marks) : hasLineMask marks = true ↔ HasLine board player := by
  rw [hasLineMask, lineMasks_eq, List.any_map, List.any_eq_true]
  apply exists_congr
  intro line
  rw [Function.comp_apply, land_mask_iff h]

theorem land_two_pow_iff (n i : ℕ) :
    Nat.beq (Nat.land n (2 ^ i)) 0 = true ↔ n.testBit i = false := by
  have hland : Nat.land n (2 ^ i) = 2 ^ i * (n.testBit i).toNat := by
    rw [← Nat.two_pow_and]
    exact Nat.and_comm n (2 ^ i)
  rw [Nat.beq_eq, hland]
  cases n.testBit i <;> simp

section Marks

variable {board : Board} {player : Player} {ours theirs : ℕ} {rc : Fin 3 × Fin 3}

theorem Marks.free_iff (hours : Marks board player ours) (htheirs : Marks board player.other theirs)
    (rc : Fin 3 × Fin 3) :
    Nat.beq (Nat.land (Nat.lor ours theirs) (2 ^ cellBit rc)) 0 = true ↔
      board rc.1 rc.2 = .dot := by
  have hlor : (Nat.lor ours theirs).testBit (cellBit rc) =
      (ours.testBit (cellBit rc) || theirs.testBit (cellBit rc)) := Nat.testBit_or ..
  rw [land_two_pow_iff, hlor, hours rc, htheirs rc]
  cases board rc.1 rc.2 <;> cases player <;> decide

theorem Marks.place_own (h : Marks board player ours) :
    Marks (place board rc.1 rc.2 player.symbol) player (Nat.lor ours (2 ^ cellBit rc)) := by
  intro rc'
  have hlor : (Nat.lor ours (2 ^ cellBit rc)).testBit (cellBit rc') =
      (ours.testBit (cellBit rc') || (2 ^ cellBit rc).testBit (cellBit rc')) := Nat.testBit_or ..
  rw [hlor, Nat.testBit_two_pow, h rc']
  by_cases heq : rc' = rc
  · subst heq
    simp [place_same]
  · have hne : cellBit rc ≠ cellBit rc' := fun hbit => heq (cellBit_injective.1 hbit).symm
    simp [place_ne heq, hne]

theorem Marks.place_other {p : Player} (h : Marks board player ours) (hne : p ≠ player)
    (hempty : board rc.1 rc.2 = .dot) : Marks (place board rc.1 rc.2 p.symbol) player ours := by
  intro rc'
  rw [h rc']
  by_cases heq : rc' = rc
  · subst heq
    rw [place_same, hempty]
    cases p <;> cases player <;> first | rfl | exact absurd rfl hne
  · rw [place_ne heq]

end Marks

/-! ### The two games -/

theorem mem_next_playGame {me : Player} {s s' : Board × Player} :
    s' ∈ (playGame me).next s ↔
      checkWinner s.1 = none ∧ ∃ rc, s.1 rc.1 rc.2 = .dot ∧ s' = child s rc := by
  cases hout : checkWinner s.1 with
  | some outcome => simp [playGame, hout]
  | none =>
      rw [show s = (s.1, s.2) from rfl, next_of_open hout, List.mem_map]
      simp only [mem_empties, true_and]
      exact exists_congr fun rc => and_congr_right fun _ => eq_comm

def BitPosition.mark (t : BitPosition) (m : ℕ) : BitPosition :=
  if t.ourTurn then ⟨Nat.lor t.ours m, t.theirs, false⟩ else ⟨t.ours, Nat.lor t.theirs m, true⟩

theorem mem_next_bitGame {t t' : BitPosition} :
    t' ∈ bitGame.next t ↔ (hasLineMask t.ours = false ∧ hasLineMask t.theirs = false) ∧
      ∃ rc, Nat.beq (Nat.land (Nat.lor t.ours t.theirs) (2 ^ cellBit rc)) 0 = true ∧
        t' = t.mark (2 ^ cellBit rc) := by
  have hnext : bitGame.next t = bif hasLineMask t.ours || hasLineMask t.theirs then []
      else (moveMasks.filter fun m => Nat.beq (Nat.land (Nat.lor t.ours t.theirs) m) 0).map
        t.mark := by
    obtain ⟨ours, theirs, ourTurn⟩ := t
    simp only [bitGame, BitPosition.next, force_eq]
    cases ourTurn <;> rfl
  rw [hnext]
  cases hasLineMask t.ours with
  | true => simp
  | false =>
      cases hasLineMask t.theirs with
      | true => simp
      | false =>
          rw [Bool.or_self, cond_false, List.mem_map]
          constructor
          · rintro ⟨m, hm, rfl⟩
            obtain ⟨hm, hfree⟩ := List.mem_filter.1 hm
            obtain ⟨rc, rfl⟩ := mem_moveMasks.1 hm
            exact ⟨⟨rfl, rfl⟩, rc, hfree, rfl⟩
          · rintro ⟨_, rc, hfree, rfl⟩
            exact ⟨_, List.mem_filter.2 ⟨mem_moveMasks.2 ⟨rc, rfl⟩, hfree⟩, rfl⟩

/-- The position is the same in both games. -/
structure SamePosition (me : Player) (s : Board × Player) (t : BitPosition) : Prop where
  ours : Marks s.1 me t.ours
  theirs : Marks s.1 me.other t.theirs
  turn : t.ourTurn = true ↔ s.2 = me

section SamePosition

variable {me : Player} {s : Board × Player} {t : BitPosition} {rc : Fin 3 × Fin 3}

theorem SamePosition.child (h : SamePosition me s t) (hempty : s.1 rc.1 rc.2 = .dot) :
    SamePosition me (child s rc) (t.mark (2 ^ cellBit rc)) := by
  by_cases hturn : t.ourTurn = true
  · have hme : s.2 = me := h.turn.1 hturn
    have hmark : t.mark (2 ^ cellBit rc) = ⟨Nat.lor t.ours (2 ^ cellBit rc), t.theirs, false⟩ :=
      if_pos hturn
    rw [hmark, TictactoeBots.child, hme]
    refine ⟨h.ours.place_own, h.theirs.place_other (PlayState.other_ne me).symm hempty, ?_⟩
    simp [PlayState.other_ne]
  · have hother : s.2 = me.other :=
      (PlayState.eq_or_eq_other me s.2).resolve_left fun heq => hturn (h.turn.2 heq)
    have hmark : t.mark (2 ^ cellBit rc) = ⟨t.ours, Nat.lor t.theirs (2 ^ cellBit rc), true⟩ :=
      if_neg hturn
    have htwice : me.other.other = me := by cases me <;> rfl
    rw [hmark, TictactoeBots.child, hother, htwice]
    exact ⟨h.ours.place_other (PlayState.other_ne me) hempty, h.theirs.place_own, by simp⟩

theorem SamePosition.over_iff (h : SamePosition me s t) :
    (hasLineMask t.ours = false ∧ hasLineMask t.theirs = false) ↔ ∀ p, ¬HasLine s.1 p := by
  rw [← Bool.not_eq_true, ← Bool.not_eq_true, h.ours.hasLineMask_iff, h.theirs.hasLineMask_iff]
  constructor
  · rintro ⟨hme, hother⟩ p
    rcases PlayState.eq_or_eq_other me p with rfl | rfl
    · exact hme
    · exact hother
  · exact fun hnone => ⟨hnone me, hnone me.other⟩

end SamePosition

theorem simulates_bitGame (me : Player) :
    Simulates (playGame me) bitGame 0 (SamePosition me) where
  ours s t h := h.turn.symm
  forth s t h s' hs' := by
    obtain ⟨hopen, rc, hempty, rfl⟩ := mem_next_playGame.1 hs'
    refine ⟨_, mem_next_bitGame.2 ⟨?_, rc, ?_, rfl⟩, h.child hempty⟩
    · exact h.over_iff.2 (checkWinner_eq_none hopen).1
    · exact (h.ours.free_iff h.theirs rc).2 hempty
  back s t h t' ht' := by
    obtain ⟨hlines, rc, hfree, rfl⟩ := mem_next_bitGame.1 ht'
    have hempty := (h.ours.free_iff h.theirs rc).1 hfree
    refine ⟨_, mem_next_playGame.2 ⟨?_, rc, hempty, rfl⟩, h.child hempty⟩
    exact checkWinner_eq_none_iff.2 ⟨h.over_iff.1 hlines, fun hfull => hfull _ _ hempty⟩
  payoff s t h _ hpayoff := by
    have hline : hasLineMask t.theirs = false := by
      by_contra hline
      rw [Bool.not_eq_false] at hline
      simp [bitGame, hline] at hpayoff
    have hmarked := marked_bounds s.1
    simp only [playGame]
    split
    · rename_i outcome hout
      split_ifs with hwin hloss
      · omega
      · rcases checkWinner_eq_some hout with ⟨p, rfl, hp⟩ | ⟨rfl, _⟩
        · rw [Player.wins_injective.1 hloss, ← h.theirs.hasLineMask_iff, hline] at hp
          exact absurd hp (by simp)
        · exact absurd hloss.symm (Player.wins_ne_cat _)
      · exact le_rfl
    · exact le_rfl

theorem forces_emptyBoard (me : Player) : Forces (playGame me) 0 (emptyBoard, .x) := by
  have hmarks : ∀ p, Marks emptyBoard p 0 := by
    intro p rc
    rw [Nat.zero_testBit, emptyBoard, decide_eq_false p.symbol_ne_dot.symm]
  have hsame : SamePosition me (emptyBoard, .x) ⟨0, 0, decide (Player.x = me)⟩ :=
    ⟨hmarks me, hmarks me.other, decide_eq_true_iff⟩
  exact (simulates_bitGame me).forces (forces_bitGame_empty _) hsame

/-! ### The bot in a match -/

section Step

variable {me : Player} {b : ℤ} {n : ℕ} {board newBoard : Board}

theorem forces_perfectBotV2 (h : Forces (playGame me) b (board, me))
    (hopen : checkWinner board = none) (hmove : perfectBotV2 me board = some newBoard) :
    Forces (playGame me) b (newBoard, me.other) := by
  obtain ⟨value, best, hvalues, hbest, hroot, hbot⟩ := perfectBotV2_move me hopen
  rw [hbot, Option.some.injEq] at hmove
  subst hmove
  have hmem : child (board, me) best ∈ (playGame me).next (board, me) :=
    mem_next_playGame.2 ⟨hopen, best, mem_empties.1 hbest.mem, rfl⟩
  exact h.step hmem fun _ => ⟨value best, hroot, hvalues best hbest.mem⟩

theorem forces_turn (h : Forces (playGame me) b (board, mover n))
    (hopen : checkWinner board = none) (hadds : AddsOne (mover n).symbol board newBoard)
    (hbot : mover n = me → perfectBotV2 me board = some newBoard) :
    Forces (playGame me) b (newBoard, mover (n + 1)) := by
  rw [PlayState.mover_succ]
  by_cases hturn : mover n = me
  · rw [hturn] at h ⊢
    exact forces_perfectBotV2 h hopen (hbot hturn)
  · obtain ⟨rc, hempty, rfl⟩ := eq_place_of_addsOne hadds
    exact h.of_theirs hturn (mem_next_playGame.2 ⟨hopen, rc, hempty, rfl⟩)

theorem not_loss_of_forces {player : Player} {outcome : MatchOutcome}
    (h : Forces (playGame me) 0 (board, player)) (hout : checkWinner board = some outcome) :
    outcome ≠ me.other.wins := by
  rintro rfl
  have hover : (playGame me).next (board, player) = [] := by simp [playGame, hout]
  have hpayoff := h.le_payoff hover
  have hmarked := marked_bounds board
  have hne : me.other.wins ≠ me.wins := fun heq =>
    PlayState.other_ne me (Player.wins_injective.1 heq)
  simp only [playGame, hout, if_neg hne, if_true] at hpayoff
  omega

end Step

/-- A match in which the second perfect bot plays one side ends with a line of
the bot, with a full board, or with a forfeit of the other side, whatever the
pod of the other side answers. -/
theorem perfectBotV2_unbeaten (U : UnicodeData) (coreV1 : CoreV1) (json : JsonLoads)
    (urlopen : ℕ → Urlopen) (podNameX podNameO : Str) (ip : Player → Str) (timeout : ℚ)
    (me : Player) {m : MatchResult} (hx : getPodIp coreV1 podNameX = .ok (ip .x))
    (ho : getPodIp coreV1 podNameO = .ok (ip .o))
    (hplays : PlaysBy json urlopen timeout (ip me) me perfectBotV2)
    (hrun : runMatchFromPods U coreV1 (fun k => requestTurn json (urlopen k)) podNameX podNameO
      timeout = .ok (some m)) :
    m.result = me.wins ∨ m.result = .cat ∨ m.result = forfeitLabel me.other := by
  rw [runMatchFromPods_eq hx ho] at hrun
  -- the turns of the bot are accepted and are its moves
  have hbot : ∀ n board turn, checkWinner board = none → mover n = me →
      playTurn U (requestTurn json (urlopen (n + 1))) (mover n).symbol (moverIp (ip .x) (ip .o) n)
        board timeout = .ok turn →
      ∃ newBoard, turn = .accepted newBoard ∧ perfectBotV2 me board = some newBoard := by
    intro n board turn hopen hmover hturn
    obtain ⟨newBoard, hmove, hplay⟩ := hplays.turn_of_legal (legal_perfectBot true) U hmover hopen
    rw [moverIp_eq, hmover, hplay, Except.ok.injEq] at hturn
    exact ⟨newBoard, hturn.symm, hmove⟩
  have hkept : ∀ {n board moves}, Reached U (fun k => requestTurn json (urlopen k)) timeout (ip .x)
      (ip .o) n board moves → Forces (playGame me) 0 (board, mover n) := by
    intro n board moves hreached
    apply hreached.invariant (I := fun n board => Forces (playGame me) 0 (board, mover n))
      (forces_emptyBoard me)
    intro n board moves newBoard hreached hforces hplay _
    have hopen := hreached.played.open
    apply forces_turn hforces hopen (playTurn_accepted hplay)
    intro hmover
    obtain ⟨_, heq, hmove⟩ := hbot n board _ hopen hmover hplay
    rwa [TurnOutcome.accepted.inj heq]
  obtain ⟨n, board, moves, hreached, hlast⟩ := Reached.start.last_turn hrun
  have hopen := hreached.played.open
  rcases hlast with ⟨error, hplay, rfl⟩ | ⟨newBoard, outcome, hplay, hout, rfl⟩
  · rcases PlayState.eq_or_eq_other me (mover n) with hmover | hmover
    · obtain ⟨_, heq, _⟩ := hbot n board _ hopen hmover hplay
      cases heq
    · exact .inr (.inr (congrArg forfeitLabel hmover))
  · have hforces : Forces (playGame me) 0 (newBoard, mover (n + 1)) := by
      apply forces_turn (hkept hreached) hopen (playTurn_accepted hplay)
      intro hmover
      obtain ⟨_, heq, hmove⟩ := hbot n board _ hopen hmover hplay
      rwa [TurnOutcome.accepted.inj heq]
    have hloss := not_loss_of_forces hforces hout
    rcases checkWinner_eq_some hout with ⟨p, rfl, _⟩ | ⟨rfl, _⟩
    · rcases PlayState.eq_or_eq_other me p with rfl | rfl
      · exact .inl rfl
      · exact absurd rfl hloss
    · exact .inr (.inl rfl)

/-- The match against the first of the plain programs, which begins with the
move of the bot on the empty board. -/
theorem perfectBotV2_unbeaten_py310 :
    ∃ m newBoard rest, runMatchFromPods asciiData oneAddress
        (fun k => requestTurn plainLoads (programPods (sides perfectBotV2 py310) k)) (str "bot-1")
        (str "bot-2") 10 = .ok (some m) ∧
      perfectBotV2 .x emptyBoard = some newBoard ∧ m.moves = acceptedMove 0 newBoard :: rest ∧
      (m.result = .xWins ∨ m.result = .cat ∨ m.result = .oForfeit) := by
  have hplays : ∀ p, PlaysBy plainLoads (programPods (sides perfectBotV2 py310)) 10
      (str "10.0.0.1") p (sides perfectBotV2 py310 p) :=
    fun p => playsBy_programPods (sides perfectBotV2 py310) p _ (by decide +kernel)
  have hlegal : ∀ p, Legal (sides perfectBotV2 py310 p) := by
    intro p
    cases p
    exacts [legal_perfectBot true, legal_firstCellBot]
  obtain ⟨n, outcome, hopen, hout⟩ := exists_playout_over hlegal
  have hrun : runMatchFromPods asciiData oneAddress
      (fun k => requestTurn plainLoads (programPods (sides perfectBotV2 py310) k)) (str "bot-1")
      (str "bot-2") 10 = .ok (some ⟨outcome, playoutMoves (sides perfectBotV2 py310) (n + 1)⟩) :=
    runMatch_playout (fun _ => str "10.0.0.1") rfl rfl hlegal hplays hopen hout
  obtain ⟨r, c, _, hmove⟩ := legal_perfectBot true .x emptyBoard (by decide)
  have hfirst : playout (sides perfectBotV2 py310) 1 = PlayState.place emptyBoard r c .X := by
    have hx : mover 0 = Player.x := rfl
    rw [playout, playout, hx, sides, perfectBotV2, hmove]
    rfl
  obtain ⟨rest, hmoves⟩ : ∃ rest, playoutMoves (sides perfectBotV2 py310) (n + 1) =
      acceptedMove 0 (PlayState.place emptyBoard r c .X) :: rest := by
    rw [playoutMoves, List.range_succ_eq_map, List.map_cons, hfirst]
    exact ⟨_, rfl⟩
  exact ⟨_, _, rest, hrun, hmove, hmoves, perfectBotV2_unbeaten asciiData oneAddress plainLoads
    (programPods (sides perfectBotV2 py310)) (str "bot-1") (str "bot-2") (fun _ => str "10.0.0.1")
    10 .x rfl rfl (hplays .x) hrun⟩

end TictactoeBots
