import Mathlib.Logic.Function.Basic

/-! # Text screens

A screen of `rows` lines and `cols` columns, with a cursor.  Behind the last cell the
cursor rests at the start of a line below the screen, and the screen scrolls when that
line is needed. -/

structure TextScreen (rows cols : Nat) (α : Type*) where
  cell : Fin rows → Fin cols → α
  row : Nat
  col : Nat

namespace TextScreen

variable {rows cols : Nat} {α : Type*}

@[ext] theorem ext {s t : TextScreen rows cols α} (cells : ∀ r c, s.cell r c = t.cell r c)
    (row : s.row = t.row) (col : s.col = t.col) : s = t := by
  cases s
  cases t
  simp only at cells row col
  rw [row, col, funext fun r => funext (cells r)]

/-- The lines move up by one, and the cursor with them; the last line is cleared. -/
def scroll (blank : α) (s : TextScreen rows cols α) : TextScreen rows cols α where
  cell r c := if below : r + 1 < rows then s.cell ⟨r + 1, below⟩ c else blank
  row := s.row - 1
  col := s.col

/-- Scroll when the cursor is below the screen. -/
def reveal (blank : α) (s : TextScreen rows cols α) : TextScreen rows cols α :=
  if s.row < rows then s else s.scroll blank

/-- Write a character and move on, to the next line behind the last column. -/
def put (blank x : α) (s : TextScreen rows cols α) : TextScreen rows cols α :=
  let s := s.reveal blank
  { cell := fun r c => if r.val = s.row ∧ c.val = s.col then x else s.cell r c
    row := if s.col + 1 < cols then s.row else s.row + 1
    col := if s.col + 1 < cols then s.col + 1 else 0 }

/-- Move to the start of the next line, which is revealed. -/
def newline (blank : α) (s : TextScreen rows cols α) : TextScreen rows cols α :=
  let s := s.reveal blank
  { s with row := s.row + 1, col := 0 }.reveal blank

/-- Move to the start of the line. -/
def carriageReturn (s : TextScreen rows cols α) : TextScreen rows cols α := { s with col := 0 }

/-- Write `count` blanks. -/
def putBlanks (blank : α) : Nat → TextScreen rows cols α → TextScreen rows cols α
  | 0, s => s
  | count + 1, s => putBlanks blank count (s.put blank blank)

/-- Write blanks up to the next multiple of `width`. -/
def tab (blank : α) (width : Nat) (s : TextScreen rows cols α) : TextScreen rows cols α :=
  putBlanks blank (width - s.col % width) s

/-! ## Revealing -/

variable {blank x y : α} {s : TextScreen rows cols α}

theorem reveal_of_lt (inside : s.row < rows) : s.reveal blank = s := if_pos inside

theorem reveal_of_le (below : rows ≤ s.row) : s.reveal blank = s.scroll blank :=
  if_neg (Nat.not_lt.mpr below)

/-- A character is written on the revealed screen. -/
theorem put_reveal (inside : (s.reveal blank).row < rows) :
    (s.reveal blank).put blank x = s.put blank x := by
  simp only [put, reveal_of_lt inside]

/-- Different characters leave different screens. -/
theorem put_inj (row : (s.reveal blank).row < rows) (col : (s.reveal blank).col < cols) :
    s.put blank x = s.put blank y ↔ x = y := by
  constructor
  · intro same
    have cells := congrArg (fun screen => screen.cell ⟨_, row⟩ ⟨_, col⟩) same
    simpa [put] using cells
  · rintro rfl
    rfl

end TextScreen
