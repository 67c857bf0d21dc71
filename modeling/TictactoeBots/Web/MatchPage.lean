import TictactoeBots.Lib.Html
import TictactoeBots.Lib.JsonRoundTrip
import TictactoeBots.Lib.JsonText
import TictactoeBots.Web.Submit

/-!
The moves that the page of a match embeds for its player.

They travel through JSON into a script element. JSON escapes quotes, backslashes,
control characters and what is not ASCII, and nothing escapes for HTML; a name
or an error with an end tag in it ends the element early. Without one, the
player reads back the moves as they were recorded.
-/

namespace TictactoeBots

open Text Html

/-- A row of `MoveRepository.for_match`. The number is in an `INTEGER` column. -/
structure MoveDetail where
  moveNumber : Int32
  boardState : Str
  error : Option Str
  botName : Str

/-- `m.error`: a text, or `None`. -/
def errorValue : Option Str → Json.Value ℤ
  | none => .null
  | some s => .str s

def moveObject (move : MoveDetail) : Json.Value ℤ :=
  .obj [(str "move_number", .num move.moveNumber.toInt), (str "bot_name", .str move.botName),
    (str "board_state", .str move.boardState), (str "error", errorValue move.error)]

/-- `moves_json` of `_render_match`. -/
def movesJson (moves : List MoveDetail) : Str := Json.dumps (.arr (moves.map moveObject))

def movesStartTag : Str := str "<script id=\"moves-data\" type=\"application/json\">"

/-- The element of `match_detail.html`, which is left out when there are no
moves. -/
def movesElement (moves : List MoveDetail) : Str :=
  if moves.isEmpty then [] else movesStartTag ++ movesJson moves ++ str "</script>"

/-! ### What the player gets -/

/-- What is used of the numbers of JavaScript: the rounding of a numeral, and
that integers up to `2 ^ 53` are exact. -/
structure Doubles where
  Double : Type
  ofDecimal : ℚ → Double
  toRat : Double → Option ℚ
  exact : ∀ n : ℤ, |n| ≤ 2 ^ 53 → toRat (ofDecimal n) = some n

/-- The `textContent` of the element. -/
def elementText (page : Str) : Option Str :=
  if movesStartTag.isPrefixOf page then some (scriptText (page.drop movesStartTag.length))
  else none

/-- The JavaScript object has the fields of the move. -/
def ShowsMove (d : Doubles) (v : Json.Value d.Double) (move : MoveDetail) : Prop :=
  ∃ fields n, v = .obj fields ∧
    Json.lookup (str "move_number") fields = some (.num n) ∧
    d.toRat n = some (move.moveNumber.toInt : ℚ) ∧
    Json.lookup (str "bot_name") fields = some (.str (Json.utf16 move.botName)) ∧
    Json.lookup (str "board_state") fields = some (.str (Json.utf16 move.boardState)) ∧
    Json.lookup (str "error") fields = some (Json.toJs d.ofDecimal (errorValue move.error))

def ShowsMoves (d : Doubles) (v : Json.Value d.Double) (moves : List MoveDetail) : Prop :=
  ∃ items, v = .arr items ∧ List.Forall₂ (ShowsMove d) items moves

/-- The embedded text has no end tag, and on a page where it is embedded, whatever
follows, the element holds that text and `JSON.parse` reads the moves from it. -/
def InertAndFaithful (d : Doubles) (moves : List MoveDetail) : Prop :=
  ¬HasEndTag (movesJson moves) ∧
    ∀ after, moves ≠ [] → ∃ text v,
      elementText (movesElement moves ++ after) = some text ∧ text = movesJson moves ∧
        Json.parse d.ofDecimal (Json.utf16 text) = some v ∧ ShowsMoves d v moves

def MoveDetail.texts (move : MoveDetail) : List Str :=
  move.botName :: move.boardState :: move.error.toList

/-! ### The text -/

theorem endTag_inside : Json.Inside lowerAscii 0x3c (str "/script") where
  plain c hc := by
    have htag : (0x3c : CodePoint) :: str "/script" =
      [0x3c, 0x2f, 0x73, 0x63, 0x72, 0x69, 0x70, 0x74] := rfl
    have hsame : lowerAscii c = c := by
      unfold Json.Plain at hc
      exact if_neg (by omega)
    rw [htag, hsame]
    simp only [List.mem_cons, List.not_mem_nil, or_false]
    unfold Json.Plain at hc
    rintro (rfl | rfl | rfl | rfl | rfl | rfl | rfl | rfl) <;> exact hc (by decide)
  markup c hc := by
    simp only [Json.Markup, List.mem_cons, List.not_mem_nil, or_false] at hc
    have hsame : lowerAscii c = c := if_neg (by omega)
    rw [hsame]
    rintro rfl
    revert hc
    decide

theorem hasEndTag_dumps_iff (v : Json.Value ℤ) :
    HasEndTag (Json.dumps v) ↔ ∃ s ∈ Json.strings v, HasEndTag s :=
  endTag_inside.occurs_dumps v

theorem mem_strings_moves {s : Str} {moves : List MoveDetail} :
    s ∈ Json.stringsItems (moves.map moveObject) ↔
      ∃ move ∈ moves, s ∈ Json.strings (moveObject move) := by
  induction moves with
  | nil => simp [Json.stringsItems]
  | cons move moves ih => simp [Json.stringsItems, ih]

theorem hasEndTag_moveObject_iff (move : MoveDetail) :
    (∃ s ∈ Json.strings (moveObject move), HasEndTag s) ↔ ∃ s ∈ move.texts, HasEndTag s := by
  have hnumber : ¬HasEndTag (str "move_number") := by decide
  have hname : ¬HasEndTag (str "bot_name") := by decide
  have hboard : ¬HasEndTag (str "board_state") := by decide
  have herror : ¬HasEndTag (str "error") := by decide
  cases h : move.error <;>
    simp [moveObject, Json.strings, Json.stringsFields, errorValue, MoveDetail.texts, h, hnumber,
      hname, hboard, herror]

theorem hasEndTag_movesJson_iff (moves : List MoveDetail) :
    HasEndTag (movesJson moves) ↔ ∃ move ∈ moves, ∃ s ∈ move.texts, HasEndTag s := by
  rw [movesJson, hasEndTag_dumps_iff]
  simp only [Json.strings, mem_strings_moves, ← hasEndTag_moveObject_iff]
  exact ⟨fun ⟨s, ⟨move, hmove, hs⟩, htag⟩ => ⟨move, hmove, s, hs, htag⟩,
    fun ⟨move, hmove, s, hs, htag⟩ => ⟨s, ⟨move, hmove, hs⟩, htag⟩⟩

theorem utf16_movesJson (moves : List MoveDetail) :
    Json.utf16 (movesJson moves) = movesJson moves :=
  Json.utf16_of_printable (Json.printable_dumps _)

/-! ### The moves -/

theorem showsMove_toJs (d : Doubles) (move : MoveDetail) :
    ShowsMove d (Json.toJs d.ofDecimal (moveObject move)) move := by
  -- 32 bits are within the 53 that a double holds exactly
  have hrange : |move.moveNumber.toInt| ≤ 2 ^ 53 := by
    have hlower := move.moveNumber.le_toInt
    have hupper := move.moveNumber.toInt_lt
    rw [abs_le]
    omega
  exact ⟨_, _, rfl, rfl, d.exact _ hrange, rfl, rfl, rfl⟩

theorem showsMoves_toJs (d : Doubles) (moves : List MoveDetail) :
    ShowsMoves d (Json.toJs d.ofDecimal (.arr (moves.map moveObject))) moves := by
  refine ⟨_, rfl, ?_⟩
  induction moves with
  | nil => exact .nil
  | cons move moves ih => exact .cons (showsMove_toJs d move) ih

theorem elementText_movesElement {moves : List MoveDetail} (hmoves : moves ≠ []) (after : Str) :
    elementText (movesElement moves ++ after) =
      some (scriptText (movesJson moves ++ str "</script>" ++ after)) := by
  have hpage : movesElement moves ++ after =
      movesStartTag ++ (movesJson moves ++ str "</script>" ++ after) := by
    rw [movesElement, if_neg (by simpa using hmoves)]
    simp only [List.append_assoc]
  have hstart : movesStartTag.isPrefixOf
      (movesStartTag ++ (movesJson moves ++ str "</script>" ++ after)) = true :=
    List.isPrefixOf_iff_prefix.2 (List.prefix_append _ _)
  rw [hpage, elementText, if_pos hstart, List.drop_left]

theorem exists_parsedMoves (d : Doubles) {moves : List MoveDetail}
    (hinert : ¬HasEndTag (movesJson moves)) (hmoves : moves ≠ []) (after : Str) :
    elementText (movesElement moves ++ after) = some (movesJson moves) ∧
      ∃ v, Json.parse d.ofDecimal (Json.utf16 (movesJson moves)) = some v ∧
        ShowsMoves d v moves := by
  refine ⟨?_, _, ?_, showsMoves_toJs d moves⟩
  · rw [elementText_movesElement hmoves, (scriptText_eq_iff _ _).2 hinert]
  · rw [utf16_movesJson]
    exact Json.parse_dumps _

/-- The embedded moves are inert and faithful exactly when no name, board or
error has `</script` in it, in upper or lower case. -/
theorem inertAndFaithful_iff (d : Doubles) (moves : List MoveDetail) :
    InertAndFaithful d moves ↔ ∀ move ∈ moves, ∀ s ∈ move.texts, ¬HasEndTag s := by
  have htexts : (∀ move ∈ moves, ∀ s ∈ move.texts, ¬HasEndTag s) ↔
      ¬HasEndTag (movesJson moves) := by
    rw [hasEndTag_movesJson_iff]
    simp only [not_exists, not_and]
  rw [htexts]
  refine ⟨And.left, fun hinert => ⟨hinert, fun after hmoves => ?_⟩⟩
  obtain ⟨htext, v, hparse, hshows⟩ := exists_parsedMoves d hinert hmoves after
  exact ⟨_, v, htext, rfl, hparse, hshows⟩

/-- Numbers that are never rounded. -/
def exactNumbers : Doubles where
  Double := ℚ
  ofDecimal x := x
  toRat := some
  exact _ _ := rfl

/-- An upload may name its bot `</script>`, and the page of any match with a move
of it is neither inert nor faithful. -/
theorem scriptName_endsElement :
    extractBotName literalModules (str "\"\"\"name: </script>\"\"\"") =
      .ok (some (str "</script>")) ∧
    validateBotName literalModules.unicode (some (str "</script>")) = .ok (str "</script>") ∧
    ¬InertAndFaithful exactNumbers
      [⟨1, str "X|.|.\n.|.|.\n.|.|.", none, str "</script>"⟩] := by
  refine ⟨rfl, rfl, fun h => ?_⟩
  exact h.1 ((hasEndTag_movesJson_iff _).2
    ⟨_, List.mem_cons_self, str "</script>", List.mem_cons_self, by decide⟩)

end TictactoeBots
