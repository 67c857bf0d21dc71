import TictactoeBots.Lib.JsonText
import TictactoeBots.Lib.TextLines
import TictactoeBots.Dispatcher.ReachedPositions
import TictactoeBots.Entities.Tables
import TictactoeBots.Runner.TurnServer

/-!
Which matches can be stored.

A text column of the database has no place for U+0000. What a bot prints gets
into the moves in two ways: through `repr`, which escapes the character, when
the output is no board, and as it is when there is no output and the standard
error is put into the message. A match with such a message cannot be recorded,
and neither can one in which a turn gets no reply: it has no result.
-/

namespace TictactoeBots

open Text Python

/-! ### Texts -/

theorem storable_of_printable {s : Str} (h : Json.Printable s) : storable s := by
  rw [storable_iff]
  intro c hc
  have hrange := h c hc
  omega

theorem storable_decimal (n : ℕ) : storable (decimal n) :=
  storable_of_printable (Json.printable_of_markup (Json.markup_decimal n))

theorem storable_hexPadded (width n : ℕ) : storable (hexPadded width n) :=
  storable_of_printable (Json.printable_of_markup (Json.markup_hexPadded width n))

theorem storable_cell (cell : Cell) : storable cell.text := by cases cell <;> rfl

theorem storable_intercalate {separator : Str} {texts : List Str}
    (hseparator : storable separator) (htexts : ∀ s ∈ texts, storable s) :
    storable (separator.intercalate texts) := by
  rw [storable_iff] at hseparator ⊢
  exact forall_mem_intercalate hseparator fun s hs => storable_iff.1 (htexts s hs)

theorem storable_boardToStr (board : Board) : storable (boardToStr board) := by
  apply storable_intercalate rfl
  intro line hline
  obtain ⟨row, _, rfl⟩ := List.mem_map.1 hline
  apply storable_intercalate rfl
  intro text htext
  obtain ⟨cell, _, rfl⟩ := List.mem_map.1 htext
  exact storable_cell cell

theorem storable_singleton {c : CodePoint} (hzero : c.val ≠ 0)
    (hscalar : ¬(0xd800 ≤ c.val ∧ c.val ≤ 0xdfff)) : storable [c] := by
  rw [storable_iff]
  intro d hd
  obtain rfl := List.mem_singleton.1 hd
  exact ⟨hzero, hscalar⟩

/-- `repr` escapes U+0000 and the surrogates: they are not printable. -/
theorem storable_reprChar (U : UnicodeData) {quote c : CodePoint} (hquote : storable [quote]) :
    storable (reprChar U quote c) := by
  unfold reprChar
  split_ifs with hescaped _ _ _ hprintable
  · rw [storable_append]
    rcases hescaped with rfl | heq
    · rw [hquote]
      rfl
    · obtain rfl : c = 0x5c := Fin.ext heq
      rfl
  · rfl
  · rfl
  · rfl
  · refine storable_singleton (fun hzero => ?_) fun hsurrogate => ?_
    · have hrange := (U.isPrintable_ascii c (by omega)).1 hprintable
      omega
    · rw [U.isPrintable_surrogate c hsurrogate] at hprintable
      exact absurd hprintable (by simp)
  all_goals
    rw [storable_append, storable_hexPadded]
    rfl

theorem storable_repr (U : UnicodeData) (s : Str) : storable (Text.repr U s) := by
  have hquoted : ∀ quote : CodePoint, storable [quote] →
      storable ([quote] ++ s.flatMap (reprChar U quote) ++ [quote]) := by
    intro quote hquote
    have hbody : storable (s.flatMap (reprChar U quote)) := by
      rw [storable_iff]
      intro c hc
      obtain ⟨d, _, hc⟩ := List.mem_flatMap.1 hc
      exact storable_iff.1 (storable_reprChar U hquote) c hc
    rw [storable_append, storable_append, hquote, hbody]
    rfl
  unfold Text.repr
  split
  · exact hquoted 0x22 rfl
  · exact hquoted 0x27 rfl

theorem storable_validateMove {b b' : Board} {symbol : Cell} {text : Str}
    (h : validateMove b b' symbol = some text) : storable text := by
  unfold validateMove at h
  split at h
  · rw [← Option.some.inj h]
    rfl
  · simp only at h
    split at h
    · rw [← Option.some.inj h]
      simp only [storable_append, storable_decimal]
      rfl
    · split at h
      · rw [← Option.some.inj h]
        simp only [storable_append, storable_cell]
        rfl
      · exact absurd h (by simp)
  · rw [← Option.some.inj h]
    simp only [storable_append, storable_decimal]
    rfl

theorem mem_strip {s : Str} {c : CodePoint} (hc : isSpace c = false) :
    c ∈ strip s ↔ c ∈ s := by
  have hleft : ∀ t : Str, c ∈ t.dropWhile isSpace ↔ c ∈ t := by
    intro t
    conv_rhs => rw [← List.takeWhile_append_dropWhile (p := isSpace) (l := t)]
    rw [List.mem_append]
    refine ⟨.inr, fun h => h.resolve_left fun hspace => ?_⟩
    rw [List.mem_takeWhile_imp hspace] at hc
    exact absurd hc (by simp)
  rw [strip, List.rdropWhile, List.mem_reverse, hleft, List.mem_reverse, hleft]

theorem scalar_strip {s : Str} (hs : Scalar s) : Scalar (strip s) := by
  intro c hc hrange
  have hspace : isSpace c = false := by
    simp only [isSpace, List.contains_eq_mem, decide_eq_false_iff_not, List.mem_cons,
      List.not_mem_nil, or_false]
    omega
  exact hs c ((mem_strip hspace).1 hc) hrange

theorem storable_iff_of_scalar {s : Str} (hs : Scalar s) : storable s ↔ 0 ∉ s := by
  rw [storable_iff]
  refine ⟨fun h hzero => (h 0 hzero).1 rfl, fun h c hc => ⟨fun hzero => h ?_, hs c hc⟩⟩
  rwa [← show c = 0 from Fin.ext hzero]

/-! ### One turn -/

/-- A response that can be judged is accepted, or forfeits with its error or
with a text that can be stored. -/
theorem judgeResponse_storable (U : UnicodeData) (symbol : Cell) (board : Board)
    {response : TurnResponse} (hjudged : Judged response) :
    (∃ newBoard, judgeResponse U symbol board response = .ok (.accepted newBoard)) ∨
    (truthy response.error ∧
      judgeResponse U symbol board response = .ok (.forfeit response.error)) ∨
    (truthy response.error = false ∧ ∃ text,
      judgeResponse U symbol board response = .ok (.forfeit (.str text)) ∧ storable text) := by
  unfold judgeResponse
  split
  · rename_i herror
    exact .inr (.inl ⟨herror, rfl⟩)
  · rename_i herror
    have herror' : truthy response.error = false := by simpa using herror
    split
    · exact .inr (.inr ⟨herror', _, rfl, rfl⟩)
    · rename_i hboard
      obtain ⟨text, htext⟩ : ∃ text, response.board = .str text := by
        rcases hjudged with h | h | h
        · exact absurd h herror
        · simp [h] at hboard
        · exact h
      simp only [htext]
      cases parseBoard text with
      | none =>
          refine .inr (.inr ⟨herror', _, rfl, ?_⟩)
          rw [storable_append, storable_repr]
          rfl
      | some newBoard =>
          simp only
          cases hvalid : validateMove board newBoard symbol with
          | none => exact .inl ⟨newBoard, rfl⟩
          | some moveError =>
              exact .inr (.inr ⟨herror', moveError, rfl, storable_validateMove hvalid⟩)

/-- The run puts U+0000 into the message of its forfeit. -/
def BotRun.LeaksNul (run : BotRun) : Prop :=
  match run.ending with
  | .completed _ stdout stderr => strip stdout.text = [] ∧ 0 ∈ stderr.text
  | .timedOut => False
  | .failed text => 0 ∈ text.text

theorem storable_reply (run : BotRun) {text : Str}
    (h : run.ending.reply = .obj [(str "error", .str text)]) :
    storable text ↔ ¬run.LeaksNul := by
  have herror : ∀ {text' : Str}, (.obj [(str "error", .str text')] : PyValue) =
      .obj [(str "error", .str text)] → text' = text := by
    intro text' heq
    simpa using heq
  rw [BotRun.LeaksNul]
  cases hend : run.ending with
  | timedOut =>
      rw [hend] at h
      exact iff_of_true (herror h ▸ rfl) not_false
  | failed failure =>
      rw [hend] at h
      rw [← herror h, storable_append, ← storable_iff_of_scalar failure.scalar]
      exact Iff.rfl
  | completed returncode stdout stderr =>
      rw [hend, ProcessEnd.reply] at h
      simp only at h ⊢
      split at h
      · rename_i hblank
        rw [← herror h, List.isEmpty_iff.1 hblank, storable_append]
        simp only [true_and]
        rw [← mem_strip rfl, ← storable_iff_of_scalar (scalar_strip stderr.scalar)]
        split
        · rename_i hquiet
          rw [List.isEmpty_iff.1 hquiet]
          exact Iff.rfl
        · rw [storable_append]
          exact Iff.rfl
      · have hkeys : str "board" = str "error" := by
          simp only [Json.Value.obj.injEq, List.cons.injEq, Prod.mk.injEq] at h
          exact h.1.1
        exact absurd hkeys (by decide)

def turnRun (processes : ℕ → BotProcess) (n : ℕ) (board : Board) : BotRun :=
  processes (n + 1) ((mover n).symbol.text ++ str "\n" ++ boardToStr board)

theorem playTurn_askTurnServer (U : UnicodeData) (processes : ℕ → BotProcess) (timeout : ℚ)
    (podIp : Str) (n : ℕ) (board : Board) :
    let turn := playTurn U (askTurnServer processes (n + 1)) (mover n).symbol podIp board timeout
    let run := turnRun processes n board
    (run.Replies timeout ∧ ¬run.LeaksNul ∧ ∃ newBoard, turn = .ok (.accepted newBoard)) ∨
    (run.Replies timeout ∧
      ∃ error, turn = .ok (.forfeit (.str error)) ∧ (storable error ↔ ¬run.LeaksNul)) ∨
    (¬run.Replies timeout ∧ ∃ exc, turn = .error exc) := by
  intro turn run
  rcases askTurnServer_eq processes (n + 1) podIp (mover n).symbol.text (boardToStr board)
      timeout with ⟨hreplies, hask⟩ | ⟨hnot, exc, hask, hclass⟩
  · have hask : askTurnServer processes (n + 1) podIp (mover n).symbol.text (boardToStr board)
        timeout = turnResponse run.ending.reply := hask
    rcases run.ending.reply_cases with ⟨text, hne, hreply, _⟩ | ⟨_, stdout, _, hend, hne, hreply⟩
    · have htruthy : truthy (.str text) := by simpa using hne
      rw [hreply] at hask
      refine .inr (.inl ⟨hreplies, text, ?_, storable_reply run hreply⟩)
      exact @playTurn_of_judged U _ _ _ _ _ ⟨.null, .str text⟩ _ hask
        (by rw [judgeResponse, if_pos htruthy])
    · have hsilent : ¬run.LeaksNul := by
        rw [BotRun.LeaksNul, hend]
        exact fun h => hne h.1
      rw [hreply] at hask
      rcases @judgeResponse_storable U (mover n).symbol board ⟨.str (strip stdout.text), .null⟩
          (.inr (.inr ⟨_, rfl⟩)) with
        ⟨newBoard, hjudge⟩ | ⟨herror, _⟩ | ⟨_, text, hjudge, hstorable⟩
      · exact .inl ⟨hreplies, hsilent, newBoard, playTurn_of_judged hask hjudge⟩
      · cases herror
      · exact .inr (.inl ⟨hreplies, text, playTurn_of_judged hask hjudge,
          iff_of_true hstorable hsilent⟩)
  · refine .inr (.inr ⟨hnot, exc, ?_⟩)
    exact (playTurn_of_raised hask).trans (by rw [hclass]; rfl)

/-! ### The whole match -/

def Move.Storable (move : Move) : Prop :=
  storable move.board ∧ (textColumn move.error).isSome

theorem storable_acceptedMove (n : ℕ) (board : Board) : (acceptedMove n board).Storable :=
  ⟨storable_boardToStr board, rfl⟩

theorem storable_forfeitMove {n : ℕ} {board : Board} {error : Str} :
    (forfeitMove n board (.str error)).Storable ↔ storable error := by
  rw [Move.Storable, forfeitMove, textColumn]
  simp [storable_boardToStr]

theorem forall_storable_append {moves : List Move} {move : Move}
    (hmoves : ∀ m ∈ moves, m.Storable) (hmove : move.Storable) :
    ∀ m ∈ moves ++ [move], m.Storable := by
  intro m hm
  obtain hm | hm := List.mem_append.1 hm
  · exact hmoves m hm
  · rw [List.mem_singleton.1 hm]
    exact hmove

theorem Played.storable {n : ℕ} {board : Board} {moves : List Move}
    (h : Played n board moves) : ∀ move ∈ moves, move.Storable := by
  induction h with
  | start => simp
  | turn _ _ _ _ ih => exact forall_storable_append ih (storable_acceptedMove _ _)

section Match

variable {U : UnicodeData} {processes : ℕ → BotProcess} {timeout : ℚ} {ipX ipO : Str}

/-- The moves with which the loop ends from a position it reaches can be stored
when every run from there on has a reply in time and none leaks. -/
theorem gameLoop_storable {n : ℕ} {board : Board} {moves : List Move}
    (hreached : Reached U (askTurnServer processes) timeout ipX ipO n board moves)
    (hgood : ∀ k board moves,
      Reached U (askTurnServer processes) timeout ipX ipO k board moves →
        (turnRun processes k board).Replies timeout ∧ ¬(turnRun processes k board).LeaksNul) :
    ∃ m, gameLoop U (askTurnServer processes) timeout emptyBoard [] (matchTurns ipX ipO) =
        .ok (some m) ∧ ∀ move ∈ m.moves, move.Storable := by
  -- the number of turns left decreases, since an undecided game has fewer than nine
  induction hleft : 9 - n generalizing n board moves with
  | zero =>
      have hlt := hreached.played.lt_nine
      omega
  | succ left ih =>
      have hmoves := hreached.played.storable
      have hrun := hreached.run_eq
      obtain ⟨hreplies, hsilent⟩ := hgood n board moves hreached
      rcases playTurn_askTurnServer U processes timeout (moverIp ipX ipO n) n board with
        ⟨_, _, newBoard, hplay⟩ | ⟨_, error, hplay, hstorable⟩ | ⟨hnot, _⟩
      · cases hout : checkWinner newBoard with
        | some outcome =>
            refine ⟨⟨outcome, moves ++ [acceptedMove n newBoard]⟩, ?_, ?_⟩
            · rw [hrun, gameLoop_of_over hplay hout]
            · exact forall_storable_append hmoves (storable_acceptedMove n newBoard)
        | none => exact ih (hreached.turn hplay hout) (by omega)
      · refine ⟨⟨forfeitLabel (mover n), moves ++ [forfeitMove n board (.str error)]⟩, ?_, ?_⟩
        · rw [hrun, gameLoop_of_forfeit hplay]
        · exact forall_storable_append hmoves (storable_forfeitMove.2 (hstorable.2 hsilent))
      · exact absurd hreplies hnot

/-- A run without a reply in time leaves the match without a result, and one that
leaks ends it in a forfeit that cannot be stored. -/
theorem gameLoop_lost {n : ℕ} {board : Board} {moves : List Move}
    (hreached : Reached U (askTurnServer processes) timeout ipX ipO n board moves)
    (hbad : ¬((turnRun processes n board).Replies timeout ∧
      ¬(turnRun processes n board).LeaksNul)) :
    (∃ exc, gameLoop U (askTurnServer processes) timeout emptyBoard [] (matchTurns ipX ipO) =
      .error exc) ∨
    ∃ error, ¬storable error ∧
      gameLoop U (askTurnServer processes) timeout emptyBoard [] (matchTurns ipX ipO) =
        .ok (some ⟨forfeitLabel (mover n), moves ++ [forfeitMove n board (.str error)]⟩) := by
  rw [hreached.run_eq]
  rcases playTurn_askTurnServer U processes timeout (moverIp ipX ipO n) n board with
    ⟨hreplies, hsilent, _⟩ | ⟨hreplies, error, hplay, hstorable⟩ | ⟨_, exc, hplay⟩
  · exact absurd ⟨hreplies, hsilent⟩ hbad
  · refine .inr ⟨error, fun h => hbad ⟨hreplies, hstorable.1 h⟩, ?_⟩
    rw [gameLoop_of_forfeit hplay]
  · refine .inl ⟨exc, ?_⟩
    rw [gameLoop, hplay]
    rfl

end Match

/-! ### Recording it -/

theorem moveRow_isSome {matchId botXId botOId id : ℕ} {move : Move} :
    (moveRow matchId botXId botOId id move).isSome ↔ move.Storable := by
  unfold moveRow Move.Storable
  cases textColumn move.error with
  | none => simp
  | some error => cases storable move.board <;> simp

theorem mapM_isSome {α β : Type} {f : α → Option β} :
    ∀ {l : List α}, (l.mapM f).isSome ↔ ∀ a ∈ l, (f a).isSome
  | [] => by simp
  | a :: l => by
      rw [List.mapM_cons, List.forall_mem_cons, ← mapM_isSome (l := l)]
      cases f a with
      | none => simp
      | some b => cases l.mapM f <;> simp

theorem Db.record_ok_iff {db : Db} {now botXId botOId : ℕ} {result : MatchResult}
    {correlationId : Str} (hx : db.hasBot botXId) (ho : db.hasBot botOId)
    (hcorrelation : storable correlationId) :
    (db.record now botXId botOId result correlationId).2 = .ok () ↔
      ∀ move ∈ result.moves, move.Storable := by
  have hrows : ((result.moves.zipIdx 1).mapM fun (move, i) =>
      moveRow (db.matchSeq + 1) botXId botOId (db.moveSeq + i) move).isSome ↔
        ∀ move ∈ result.moves, move.Storable := by
    simp only [mapM_isSome, moveRow_isSome]
    rw [← List.forall_mem_map (f := Prod.fst) (P := Move.Storable), List.zipIdx_map_fst]
  rw [← hrows]
  simp only [Db.record, hcorrelation, hx, ho, Bool.and_self, Bool.not_true, Bool.false_eq_true,
    if_false]
  split <;> rename_i hmapped <;> simp [hmapped]

/-- A match between two bots of the table, played through turn servers, has a
result whose texts can all be stored and which `record` commits, exactly when
every run of a bot that the match comes to has a reply in time and puts no
U+0000 into the message of its forfeit. -/
theorem outcome_stored_iff (U : UnicodeData) (coreV1 : CoreV1) (processes : ℕ → BotProcess)
    (podNameX podNameO ipX ipO : Str) (turnTimeout : ℚ) (db : Db) (now botXId botOId : ℕ)
    (correlationId : Str) (hx : getPodIp coreV1 podNameX = .ok ipX)
    (ho : getPodIp coreV1 podNameO = .ok ipO) (hbotX : db.hasBot botXId)
    (hbotO : db.hasBot botOId) (hcorrelation : storable correlationId) :
    (∃ m, runMatchFromPods U coreV1 (askTurnServer processes) podNameX podNameO turnTimeout =
        .ok (some m) ∧
      (∀ move ∈ m.moves, move.Storable) ∧
      (db.record now botXId botOId m correlationId).2 = .ok ()) ↔
    ∀ n board moves, Reached U (askTurnServer processes) turnTimeout ipX ipO n board moves →
      (turnRun processes n board).Replies turnTimeout ∧ ¬(turnRun processes n board).LeaksNul := by
  rw [runMatchFromPods_eq hx ho]
  constructor
  · rintro ⟨m, hrun, hstorable, _⟩ n board moves hreached
    by_contra hbad
    rcases gameLoop_lost hreached hbad with ⟨exc, hends⟩ | ⟨error, herror, hends⟩
    · rw [hrun] at hends
      cases hends
    · rw [hrun, Except.ok.injEq, Option.some.injEq] at hends
      have hforfeit : (forfeitMove n board (.str error)).Storable :=
        hstorable _ (by simp [hends])
      exact herror (storable_forfeitMove.1 hforfeit)
  · intro hgood
    obtain ⟨m, hrun, hstorable⟩ := gameLoop_storable .start hgood
    exact ⟨m, hrun, hstorable, (Db.record_ok_iff hbotX hbotO hcorrelation).2 hstorable⟩

def silentBot (stderr : DecodedText) : ℕ → BotProcess :=
  fun _ _ => promptRun 0 ⟨[], by simp [Scalar]⟩ stderr

def nulLine : DecodedText where
  text := [0, 0x0a]
  scalar := by
    unfold Scalar
    rw [List.forall_mem_cons, List.forall_mem_singleton]
    decide

theorem outcome_stored_iff_silent :
    (∃ m, runMatchFromPods asciiData oneAddress
        (askTurnServer (silentBot ⟨[], by simp [Scalar]⟩)) (podName 1) (podName 2) 10 =
          .ok (some m) ∧
      (∀ move ∈ m.moves, move.Storable) ∧
      (twoBots.record 0 1 2 m (str "c")).2 = .ok ()) ↔
    ∀ n board moves, Reached asciiData (askTurnServer (silentBot ⟨[], by simp [Scalar]⟩)) 10
      (str "10.0.0.1") (str "10.0.0.1") n board moves →
        (turnRun (silentBot ⟨[], by simp [Scalar]⟩) n board).Replies 10 ∧
          ¬(turnRun (silentBot ⟨[], by simp [Scalar]⟩) n board).LeaksNul :=
  outcome_stored_iff asciiData oneAddress (silentBot ⟨[], by simp [Scalar]⟩) (podName 1)
    (podName 2) (str "10.0.0.1") (str "10.0.0.1") 10 twoBots 0 1 2 (str "c") rfl rfl rfl rfl rfl

/-- A bot prints nothing but U+0000 on its standard error: it forfeits, the
message cannot be stored, and the forfeit is not recorded. -/
theorem forfeit_lost :
    ∃ m, runMatchFromPods asciiData oneAddress (askTurnServer (silentBot nulLine)) (podName 1)
        (podName 2) 10 = .ok (some m) ∧
      m.result = .xForfeit ∧ (∃ move ∈ m.moves, ¬move.Storable) ∧
      (twoBots.record 0 1 2 m (str "c")).2 = .error dataError ∧
      (twoBots.record 0 1 2 m (str "c")).1.matchRows = [] := by
  refine ⟨_, rfl, rfl, ⟨_, List.mem_cons_self, ?_⟩, rfl, rfl⟩
  rintro ⟨_, herror⟩
  exact absurd herror (by decide)

end TictactoeBots
