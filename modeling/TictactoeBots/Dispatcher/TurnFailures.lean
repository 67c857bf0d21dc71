import TictactoeBots.Dispatcher.StorableOutcomes

/-!
Which failed turn requests become forfeits that are recorded.

`_play_turn` catches `URLError` only, around the request and the judging of the
response. A failed request is charged to the player on the move exactly when
the failure is a `URLError` or can be read off the decoded response; every
other exception leaves the game loop, and the match has no result. A forfeit
with an error that the database does not take is lost as well.
-/

namespace TictactoeBots

open Text Python

/-- How an exchange may end, in terms of what the network delivers, so that
`_play_turn` decides the turn and the database takes what it says: a `URLError`,
or a JSON object that reports an error, has no board, or has a text for its
board. The texts of the errors are storable. -/
def HandledStorably (json : JsonLoads) (exchange : Except PyException (List UInt8)) : Prop :=
  match exchange with
  | .error exc => exc.isA .urlError ∧ storable exc.text
  | .ok content =>
      match json.loads content with
      | .ok (.obj fields) =>
          if truthy ((Json.lookup (str "error") fields).getD .null) then
            ∃ text, Json.lookup (str "error") fields = some (.str text) ∧ storable text
          else
            truthy ((Json.lookup (str "board") fields).getD .null) = false ∨
              ∃ text, Json.lookup (str "board") fields = some (.str text)
      | _ => False

theorem isSome_textColumn_iff {v : PyValue} (h : truthy v) :
    (textColumn v).isSome ↔ ∃ text, v = .str text ∧ storable text := by
  cases v with
  | str text => simp [textColumn]
  | null => cases h
  | _ => simp [textColumn]

theorem getD_null_eq_str {v : Option PyValue} {text : Str} :
    v.getD .null = .str text ↔ v = some (.str text) := by
  cases v <;> simp

section Turn

variable {U : UnicodeData} {ask : AskPod} {symbol : Cell} {podIp : Str} {board : Board}
  {timeout : ℚ}

theorem not_forfeit_of_raised {exc : PyException} (hclass : exc.isA .urlError = false)
    (h : ask podIp symbol.text (boardToStr board) timeout = .error exc) (P : PyValue → Prop) :
    ¬∃ error, playTurn U ask symbol podIp board timeout = .ok (.forfeit error) ∧ P error := by
  rw [playTurn_of_raised h, hclass]
  rintro ⟨_, hforfeit, _⟩
  cases hforfeit

/-- A response without a legal move is a forfeit that can be stored if its error
is a text that can be stored, or if it has none and can be judged. -/
theorem forfeits_storably_iff {player : Player} {response : TurnResponse}
    (h : ask podIp player.symbol.text (boardToStr board) timeout = .ok response)
    (hfails : ∀ newBoard, ¬Delivers player.symbol board response newBoard) :
    (∃ error, playTurn U ask player.symbol podIp board timeout = .ok (.forfeit error) ∧
      truthy error ∧ (textColumn error).isSome) ↔
      if truthy response.error then ∃ text, response.error = .str text ∧ storable text
      else truthy response.board = false ∨ ∃ text, response.board = .str text := by
  by_cases hjudged : Judged response
  · rcases judgeResponse_storable U player.symbol board hjudged with
      ⟨newBoard, hjudge⟩ | ⟨herror, hjudge⟩ | ⟨herror, text, hjudge, hstorable⟩
    · rcases judgeResponse_cases U player board response with
        ⟨newBoard', _, hdel⟩ | ⟨_, hforfeit, _⟩ | ⟨_, hexc, _⟩
      · exact absurd hdel (hfails newBoard')
      · rw [hjudge] at hforfeit
        cases hforfeit
      · rw [hjudge] at hexc
        cases hexc
    · rw [playTurn_of_judged h hjudge, if_pos herror, ← isSome_textColumn_iff herror]
      constructor
      · rintro ⟨error, hforfeit, _, hsome⟩
        rw [Except.ok.injEq, TurnOutcome.forfeit.injEq] at hforfeit
        rwa [hforfeit]
      · exact fun hsome => ⟨_, rfl, herror, hsome⟩
    · rw [playTurn_of_judged h hjudge, if_neg (by simp [herror])]
      have hne : truthy (.str text) := by
        rcases judgeResponse_cases U player board response with
          ⟨_, haccepted, _⟩ | ⟨error, hforfeit, htruthy, _⟩ | ⟨_, hexc, _⟩
        · rw [hjudge] at haccepted
          cases haccepted
        · rw [hjudge, Except.ok.injEq, TurnOutcome.forfeit.injEq] at hforfeit
          rwa [hforfeit]
        · rw [hjudge] at hexc
          cases hexc
      refine iff_of_true ⟨_, rfl, hne, by simp [textColumn, hstorable]⟩ ?_
      exact hjudged.resolve_left (by simp [herror])
  · have hraises : ∃ exc, judgeResponse U player.symbol board response = .error exc ∧
        exc.isA .urlError = false := by
      rcases judgeResponse_cases U player board response with
        ⟨newBoard, _, hdel⟩ | ⟨_, _, _, hyes, _⟩ | ⟨exc, hexc, hclass, _⟩
      · exact absurd hdel (hfails newBoard)
      · exact absurd hyes hjudged
      · exact ⟨exc, hexc, hclass⟩
    obtain ⟨exc, hexc, hclass⟩ := hraises
    rw [playTurn_of_not_judged h hexc hclass, if_neg fun herror => hjudged (.inl herror)]
    refine iff_of_false ?_ fun hboard => hjudged (.inr hboard)
    rintro ⟨_, hforfeit, _⟩
    cases hforfeit

/-- A turn request without a legal move is a forfeit that can be stored exactly
when its exchange is handled storably. -/
theorem handledStorably_iff (U : UnicodeData) (json : JsonLoads) (urlopen : Urlopen)
    (player : Player) (podIp : Str) (board : Board) (timeout : ℚ)
    (hfails : ∀ response newBoard,
      requestTurn json urlopen podIp player.symbol.text (boardToStr board) timeout =
        .ok response → ¬Delivers player.symbol board response newBoard) :
    (∃ error, playTurn U (requestTurn json urlopen) player.symbol podIp board timeout =
        .ok (.forfeit error) ∧ truthy error ∧ (textColumn error).isSome) ↔
      HandledStorably json
        (urlopen (turnRequest podIp player.symbol.text (boardToStr board)) timeout) := by
  cases hexchange : urlopen (turnRequest podIp player.symbol.text (boardToStr board)) timeout with
  | error exc =>
      have hask : requestTurn json urlopen podIp player.symbol.text (boardToStr board) timeout =
          .error exc := by
        rw [requestTurn_eq_bind, hexchange]
        rfl
      rw [HandledStorably]
      by_cases hclass : exc.isA .urlError
      · have hcolumn : (textColumn (.str (str "HTTP error: " ++ exc.text))).isSome ↔
            storable exc.text := by
          have hprefix : storable (str "HTTP error: ") := rfl
          simp [textColumn, hprefix]
        rw [playTurn_of_raised hask, if_pos hclass, ← hcolumn]
        constructor
        · rintro ⟨error, hforfeit, _, hsome⟩
          rw [Except.ok.injEq, TurnOutcome.forfeit.injEq] at hforfeit
          exact ⟨hclass, hforfeit ▸ hsome⟩
        · exact fun h => ⟨_, rfl, by simp [str], h.2⟩
      · exact iff_of_false (not_forfeit_of_raised (by simpa using hclass) hask _)
          fun h => hclass h.1
  | ok content =>
      cases hloads : json.loads content with
      | error exc =>
          have hask : requestTurn json urlopen podIp player.symbol.text (boardToStr board)
              timeout = .error exc := by
            rw [requestTurn_eq_bind, hexchange]
            show (json.loads content >>= _) = _
            rw [hloads]
            rfl
          simp only [HandledStorably, hloads]
          exact iff_of_false (not_forfeit_of_raised (json.not_urlError hloads) hask _) not_false
      | ok data =>
          have hrequest := requestTurn_of_loads hexchange hloads
          cases data with
          | obj fields =>
              have hask : requestTurn json urlopen podIp player.symbol.text (boardToStr board)
                  timeout = .ok ⟨(Json.lookup (str "board") fields).getD .null,
                    (Json.lookup (str "error") fields).getD .null⟩ := hrequest
              rw [forfeits_storably_iff hask fun newBoard => hfails _ newBoard hask]
              simp only [HandledStorably, hloads, getD_null_eq_str]
          | _ =>
              simp only [HandledStorably, hloads]
              exact iff_of_false (not_forfeit_of_raised (by rfl) hrequest _) not_false

end Turn

/-- In every position a match reaches and for every way the turn request can
fail to deliver a legal move, the player on the move forfeits and the match is
recorded exactly when the failure is handled storably. -/
theorem forfeit_recorded_iff (U : UnicodeData) (coreV1 : CoreV1) (json : JsonLoads)
    (urlopen : ℕ → Urlopen) (podNameX podNameO ipX ipO : Str) (turnTimeout : ℚ) (db : Db)
    (now botXId botOId : ℕ) (correlationId : Str) (hx : getPodIp coreV1 podNameX = .ok ipX)
    (ho : getPodIp coreV1 podNameO = .ok ipO) (hbotX : db.hasBot botXId)
    (hbotO : db.hasBot botOId) (hcorrelation : storable correlationId)
    {n : ℕ} {board : Board} {moves : List Move}
    (hreached : Reached U (fun k => requestTurn json (urlopen k)) turnTimeout ipX ipO n board moves)
    (hfails : ∀ response newBoard,
      requestTurn json (urlopen (n + 1)) (moverIp ipX ipO n) (mover n).symbol.text
        (boardToStr board) turnTimeout = .ok response →
          ¬Delivers (mover n).symbol board response newBoard) :
    (∃ m error,
      runMatchFromPods U coreV1 (fun k => requestTurn json (urlopen k)) podNameX podNameO
        turnTimeout = .ok (some m) ∧
      m.result = forfeitLabel (mover n) ∧ m.moves = moves ++ [forfeitMove n board error] ∧
      truthy error ∧ (db.record now botXId botOId m correlationId).2 = .ok ()) ↔
    HandledStorably json (urlopen (n + 1)
      (turnRequest (moverIp ipX ipO n) (mover n).symbol.text (boardToStr board)) turnTimeout) := by
  rw [← handledStorably_iff U json (urlopen (n + 1)) (mover n) (moverIp ipX ipO n) board turnTimeout
    hfails, runMatchFromPods_eq hx ho, hreached.run_eq]
  have hstorable : ∀ error, (forfeitMove n board error).Storable ↔ (textColumn error).isSome :=
    fun error => and_iff_right (storable_boardToStr board)
  constructor
  · rintro ⟨m, error, hrun, _, hmoves, herror, hrecord⟩
    rw [Db.record_ok_iff hbotX hbotO hcorrelation] at hrecord
    have hlast : (forfeitMove n board error).Storable := hrecord _ (by simp [hmoves])
    refine ⟨error, ?_, herror, (hstorable error).1 hlast⟩
    -- the run has ended with this turn, since it has one move more than were made
    rcases playTurn_cases U (requestTurn json (urlopen (n + 1))) (mover n) (moverIp ipX ipO n) board
      turnTimeout with ⟨response, newBoard, hok, hdel, _⟩ | ⟨⟨error', hplay, _⟩, _⟩ |
        ⟨⟨exc, hplay⟩, _⟩
    · exact absurd hdel (hfails response newBoard hok)
    · rw [gameLoop_of_forfeit hplay, Except.ok.injEq, Option.some.injEq] at hrun
      rw [← hrun, List.append_cancel_left_eq, List.cons.injEq, forfeitMove, forfeitMove,
        Move.mk.injEq] at hmoves
      rw [hplay, hmoves.1.2.2.2]
    · rw [gameLoop, hplay] at hrun
      cases hrun
  · rintro ⟨error, hplay, herror, hsome⟩
    refine ⟨_, error, gameLoop_of_forfeit hplay, rfl, rfl, herror, ?_⟩
    exact (Db.record_ok_iff hbotX hbotO hcorrelation).2
      (forall_storable_append hreached.played.storable ((hstorable error).2 hsome))

theorem forfeit_recorded_iff_refused :
    (∃ m error,
      runMatchFromPods asciiData oneAddress
        (fun k => requestTurn nothingDecodes (failing ⟨.urlError, str "refused"⟩ k))
        (str "bot-1") (str "bot-2") 10 = .ok (some m) ∧
      m.result = forfeitLabel (mover 0) ∧ m.moves = [] ++ [forfeitMove 0 emptyBoard error] ∧
      truthy error ∧ (twoBots.record 0 1 2 m (str "c")).2 = .ok ()) ↔
    HandledStorably nothingDecodes (failing ⟨.urlError, str "refused"⟩ (0 + 1)
      (turnRequest (moverIp (str "10.0.0.1") (str "10.0.0.1") 0) (mover 0).symbol.text
        (boardToStr emptyBoard)) 10) :=
  forfeit_recorded_iff asciiData oneAddress nothingDecodes (failing ⟨.urlError, str "refused"⟩)
    (str "bot-1") (str "bot-2") (str "10.0.0.1") (str "10.0.0.1") 10 twoBots 0 1 2 (str "c") rfl rfl
    rfl rfl rfl .start (fun _ _ h => by cases h)

/-- A read timeout on the first move: no legal move is delivered, and instead
of a forfeit of X the match has no result. -/
theorem readTimeout_escapes :
    (∀ response, requestTurn nothingDecodes (failing ⟨.timeoutError, str "timed out"⟩ 1)
      (str "10.0.0.1") Cell.X.text (boardToStr emptyBoard) 10 ≠ .ok response) ∧
    ¬∃ m, runMatchFromPods asciiData oneAddress
      (fun k => requestTurn nothingDecodes (failing ⟨.timeoutError, str "timed out"⟩ k))
      (str "bot-1") (str "bot-2") 10 = .ok (some m) := by
  have hrun : runMatchFromPods asciiData oneAddress
      (fun k => requestTurn nothingDecodes (failing ⟨.timeoutError, str "timed out"⟩ k))
      (str "bot-1") (str "bot-2") 10 = .error ⟨.timeoutError, str "timed out"⟩ := rfl
  refine ⟨fun response => by simp [requestTurn, failing, bind, Except.bind], ?_⟩
  rintro ⟨m, hm⟩
  rw [hrun] at hm
  exact absurd hm (by simp)

end TictactoeBots
