import TictactoeBots.Web.StatusBanner

/-!
The nine cells of a board on a page.

The two adapters `match-player.mjs` and `play.mjs` paint a board with the same
loop. It keeps one of three classes on each cell, and `cell-placing` on each
that has ever gone from empty to a mark.
-/

namespace TictactoeBots.BoardCells

open Text PlayState

structure CellElement where
  classList : List Str
  textContent : Str

/-- The classes of which `render` leaves a cell one. -/
def contentClasses : List Str := [str "cell-empty", str "cell-x", str "cell-o"]

def contentClass (cell : Str) : Str :=
  if cell = str "X" then str "cell-x"
  else if cell = str "O" then str "cell-o"
  else str "cell-empty"

/-- The body of the loop. -/
def paintCell (cell : Str) (el : CellElement) : CellElement :=
  let wasEmpty := str "cell-empty" ∈ el.classList
  let becomesMark := cell = str "X" ∨ cell = str "O"
  let classes := addClass (el.classList.filter (· ∉ contentClasses)) (contentClass cell)
  { classList := if wasEmpty ∧ becomesMark then addClass classes (str "cell-placing") else classes
    textContent := if cell = str "." then [] else cell }

/-- The loop over the cells of the board, with what it throws: behind the last
element `els.cells[i]` is `undefined`. -/
def paint : List Str → List CellElement → List CellElement × Option Str
  | [], els => (els, none)
  | _ :: _, [] => ([], some (str "Cannot read properties of undefined (reading 'classList')"))
  | cell :: board, el :: els =>
      let (painted, thrown) := paint board els
      (paintCell cell el :: painted, thrown)

/-- The nine cells show the board, each under one of the content classes. -/
structure ShowsBoard (board : Board) (cells : List CellElement) : Prop where
  length : cells.length = 9
  cell : ∀ r c : Fin 3, ∃ el, cells[3 * r.val + c.val]? = some el ∧
    el.textContent = (if board r c = .dot then [] else (board r c).text) ∧
    ∀ name ∈ contentClasses, name ∈ el.classList ↔ name = contentClass (board r c).text

theorem mem_addClass {name other : Str} {classes : List Str} :
    name ∈ addClass classes other ↔ name ∈ classes ∨ name = other := by
  rw [← List.mem_singleton, ← mem_foldl_addClass]
  rfl

theorem mem_paintCell {name : Str} (hname : name ∈ contentClasses) (cell : Str)
    (el : CellElement) : name ∈ (paintCell cell el).classList ↔ name = contentClass cell := by
  have hplacing : name ≠ str "cell-placing" := by
    rintro rfl
    exact absurd hname (by decide)
  have hkept : name ∉ el.classList.filter (· ∉ contentClasses) := by
    simp [hname]
  show name ∈ (if _ then addClass (addClass _ _) _ else addClass _ _) ↔ _
  split
  · rw [mem_addClass, mem_addClass]
    exact ⟨fun h => (h.resolve_right hplacing).resolve_left hkept, fun h => .inl (.inr h)⟩
  · rw [mem_addClass]
    exact ⟨fun h => h.resolve_left hkept, .inr⟩

theorem paint_of_length : ∀ {board : List Str} {els : List CellElement},
    board.length = els.length → paint board els = (List.zipWith paintCell board els, none)
  | [], [], _ => rfl
  | _ :: _, _ :: _, h => by
      rw [paint, paint_of_length (Nat.succ.inj h)]
      rfl

theorem getElem?_flatten_gridOf (b : Board) (r c : Fin 3) :
    (gridOf b).flatten[3 * r.val + c.val]? = some (b r c).text := by
  fin_cases r <;> fin_cases c <;> rfl

theorem exists_paint (b : Board) {els : List CellElement} (hels : els.length = 9) :
    ∃ cells, paint (gridOf b).flatten els = (cells, none) ∧ ShowsBoard b cells := by
  have hboard : (gridOf b).flatten.length = els.length := hels.symm
  refine ⟨_, paint_of_length hboard, ?_, fun r c => ?_⟩
  · rw [List.length_zipWith, hboard, Nat.min_self, hels]
  · have hindex : 3 * r.val + c.val < els.length := by omega
    refine ⟨paintCell (b r c).text els[3 * r.val + c.val], ?_, ?_, fun name hname =>
      mem_paintCell hname _ _⟩
    · rw [List.getElem?_zipWith, getElem?_flatten_gridOf, List.getElem?_eq_getElem hindex]
    · show (if (b r c).text = str "." then [] else (b r c).text) = _
      cases b r c <;> rfl

end TictactoeBots.BoardCells
