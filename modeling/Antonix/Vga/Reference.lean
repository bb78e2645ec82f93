import Antonix.Lib.TextScreen
import Antonix.Vga.Terminal

/-! # The terminal against a text screen

The reference is a text screen of 25 lines with 80 columns whose cells hold a
character below its color.  Every character either does on the terminal what it does
on that screen, or the terminal goes wrong with it. -/

namespace Antonix.Vga

/-- What a terminal shows, and where its cursor is. -/
def Terminal.screen (t : Terminal) : TextScreen 25 80 (BitVec 16) where
  cell r c := t.termBuffSw (80 * r + c)
  row := t.termPointer / 80
  col := t.termPointer % 80

/-- What a character does on a screen. -/
def feed (color : BitVec 8) (s : TextScreen 25 80 (BitVec 16)) (c : BitVec 8) :
    TextScreen 25 80 (BitVec 16) :=
  let blank := color ++ (0x20 : BitVec 8)
  if c = 0x0A then s.newline blank
  else if c = 0x09 then s.tab blank 8
  else if c = 0x0D then s.carriageReturn
  else s.put blank (color ++ c)

/-- The pointer is inside or one past the last cell, and video memory is the copy. -/
structure Terminal.Inside (t : Terminal) : Prop where
  within : t.termPointer ≤ 80 * 25
  mirrored : ∀ i < 80 * 25, t.termBuff i = t.termBuffSw i

/-- The colors and the counter are left alone. -/
structure Terminal.Keeps (t t' : Terminal) : Prop where
  fg : t'.termFg = t.termFg
  bg : t'.termBg = t.termBg
  cntr : t'.cursorUpdateCntr = t.cursorUpdateCntr

/-- Where the pointer is after a character was printed. -/
def nextPointer (p : Nat) : Nat := if p < 80 * 25 then p + 1 else 24 * 80 + 1

/-- The signed character spills over the color unless it is ASCII. -/
theorem vgaMakeEntry_eq_iff (c color : BitVec 8) :
    vgaMakeEntry c color = color ++ c ↔ c.toNat < 0x80 ∨ color = 0xFF := by
  have made : ∀ i < 16, (vgaMakeEntry c color).getLsbD i =
      if i < 8 then c.getLsbD i else (c.msb || color.getLsbD (i - 8)) := by
    intro i small
    simp only [vgaMakeEntry, BitVec.getLsbD_or, BitVec.getLsbD_signExtend, small, decide_true,
      Bool.true_and, BitVec.getLsbD_shiftLeft, BitVec.getLsbD_setWidth, BitVec.zeroExtend]
    split
    case isTrue low => simp [low]
    case isFalse high =>
      have place : i - 8 < 16 := by omega
      simp [high, place]
  have wanted : ∀ i, (color ++ c).getLsbD i =
      if i < 8 then c.getLsbD i else color.getLsbD (i - 8) := fun _ => BitVec.getLsbD_append
  have ones : ∀ i < 8, (0xFF : BitVec 8).getLsbD i = true := by decide
  have sign : c.msb = false ↔ c.toNat < 0x80 := by
    rw [BitVec.msb_eq_false_iff_two_mul_lt]
    omega
  constructor
  · intro same
    cases negative : c.msb with
    | false => exact .inl (sign.mp negative)
    | true =>
      right
      apply BitVec.eq_of_getLsbD_eq
      intro i small
      have bit := congrArg (fun entry => entry.getLsbD (8 + i)) same
      simp only [made (8 + i) (by omega), wanted, negative] at bit
      rw [if_neg (by omega), if_neg (by omega), Nat.add_sub_cancel_left, Bool.true_or] at bit
      rw [← bit, ones i small]
  · intro plain
    apply BitVec.eq_of_getLsbD_eq
    intro i small
    rw [made i small, wanted]
    split
    case isTrue => rfl
    case isFalse high =>
      cases plain with
      | inl ascii => rw [sign.mpr ascii, Bool.false_or]
      | inr white => rw [white, ones (i - 8) (by omega), Bool.or_true]

namespace Terminal

variable {t : Terminal}

theorem Keeps.color {t' : Terminal} (keeps : t.Keeps t') : t'.color = t.color := by
  rw [Terminal.color, Terminal.color, keeps.fg, keeps.bg]

theorem Keeps.refl (t : Terminal) : t.Keeps t := ⟨rfl, rfl, rfl⟩

theorem Keeps.trans {t' t'' : Terminal} (first : t.Keeps t') (second : t'.Keeps t'') :
    t.Keeps t'' :=
  ⟨second.fg.trans first.fg, second.bg.trans first.bg, second.cntr.trans first.cntr⟩

/-! ## Fields -/

theorem keeps_setCursorPosition (p : Nat) : t.Keeps (t.vgaSetCursorPosition p) := by
  unfold vgaSetCursorPosition
  split
  · exact .refl t
  · exact ⟨rfl, rfl, rfl⟩

@[simp] theorem setCursorPosition_termPointer (p : Nat) :
    (t.vgaSetCursorPosition p).termPointer = t.termPointer := by
  unfold vgaSetCursorPosition
  split <;> rfl

@[simp] theorem setCursorPosition_termBuff (p : Nat) :
    (t.vgaSetCursorPosition p).termBuff = t.termBuff := by
  unfold vgaSetCursorPosition
  split <;> rfl

@[simp] theorem setCursorPosition_termBuffSw (p : Nat) :
    (t.vgaSetCursorPosition p).termBuffSw = t.termBuffSw := by
  unfold vgaSetCursorPosition
  split <;> rfl

theorem setCell_termBuff (id i : Nat) (entry : BitVec 16) :
    (t.setCell id entry).termBuff i = if i = id then entry else t.termBuff i :=
  Buffer.writeAt_singleton

theorem setCell_termBuffSw (id i : Nat) (entry : BitVec 16) :
    (t.setCell id entry).termBuffSw i = if i = id then entry else t.termBuffSw i :=
  Buffer.writeAt_singleton

theorem screen_row : t.screen.row = t.termPointer / 80 := rfl

theorem screen_col : t.screen.col = t.termPointer % 80 := rfl

/-! ## Scrolling -/

/-- After `n` lines, each has become the next one, in both buffers. -/
theorem copyLines_eq (n : Nat) :
    (∀ i, (t.copyLines n).termBuffSw i =
      if i < 80 * n then t.termBuffSw (i + 80) else t.termBuffSw i) ∧
    (∀ i, (t.copyLines n).termBuff i =
      if i < 80 * n then t.termBuffSw (i + 80) else t.termBuff i) ∧
    t.Keeps (t.copyLines n) ∧ (t.copyLines n).termPointer = t.termPointer := by
  induction n with
  | zero =>
    simp only [copyLines, Nat.mul_zero, Nat.not_lt_zero, if_false, implies_true, true_and]
    exact ⟨.refl t, trivial⟩
  | succ y inductionHypothesis =>
    obtain ⟨copied, shown, keeps, pointer⟩ := inductionHypothesis
    let line := Buffer.readAt (t.copyLines y).termBuffSw ((y + 1) * 80) 80
    have length : line.length = 80 := Buffer.length_readAt
    -- the line read is still the old one
    have moved : ∀ (buffer : Nat → BitVec 16) i, Buffer.writeAt buffer (y * 80) line i =
        if 80 * y ≤ i ∧ i < 80 * (y + 1) then t.termBuffSw (i + 80) else buffer i := by
      intro buffer i
      split
      case isTrue inside =>
        obtain ⟨k, rfl⟩ : ∃ k, i = y * 80 + k := ⟨i - y * 80, by omega⟩
        rw [Buffer.writeAt_inside (by omega), Buffer.getElem_readAt, copied, if_neg (by omega)]
        congr 1
        omega
      case isFalse outside => exact Buffer.writeAt_outside (by omega)
    refine ⟨?_, ?_, ⟨keeps.fg, keeps.bg, keeps.cntr⟩, pointer⟩
    · intro i
      refine (moved _ i).trans ?_
      rw [copied]
      split_ifs <;> first | rfl | omega
    · intro i
      refine (moved _ i).trans ?_
      rw [shown]
      split_ifs <;> first | rfl | omega

theorem fillLine_eq (n : Nat) (short : n ≤ 80) :
    (∀ i, (t.fillLine n).termBuffSw i =
      if 80 * 25 - n ≤ i ∧ i < 80 * 25 then vgaMakeEntry 0x20 t.color else t.termBuffSw i) ∧
    (∀ i, (t.fillLine n).termBuff i =
      if 80 * 25 - n ≤ i ∧ i < 80 * 25 then vgaMakeEntry 0x20 t.color else t.termBuff i) ∧
    t.Keeps (t.fillLine n) ∧ (t.fillLine n).termPointer = t.termPointer := by
  induction n with
  | zero =>
    have none : ∀ i, ¬ (80 * 25 - 0 ≤ i ∧ i < 80 * 25) := fun i => by omega
    simp only [fillLine, none, if_false, implies_true, true_and]
    exact ⟨.refl t, trivial⟩
  | succ i inductionHypothesis =>
    obtain ⟨copied, shown, keeps, pointer⟩ := inductionHypothesis (by omega)
    refine ⟨?_, ?_, ⟨keeps.fg, keeps.bg, keeps.cntr⟩, pointer⟩
    · intro j
      rw [fillLine, setCell_termBuffSw, copied]
      split_ifs <;> first | rfl | omega
    · intro j
      rw [fillLine, setCell_termBuff, shown]
      split_ifs <;> first | rfl | omega

/-- The blank cell of a terminal. -/
theorem blank_eq : vgaMakeEntry 0x20 t.color = t.color ++ (0x20 : BitVec 8) :=
  (vgaMakeEntry_eq_iff _ _).mpr (.inl (by decide))

/-- `vga_scroll_vert` scrolls by one line, or halts when the cursor is still below the screen. -/
theorem vgaScrollVert_eq (low : 80 ≤ t.termPointer) (high : t.termPointer < 2 ^ 32)
    (mirrored : ∀ i < 80 * 25, t.termBuff i = t.termBuffSw i) :
    if t.termPointer < 80 * 26 then
      ∃ t', t.vgaScrollVert = .ok t' ∧ t'.Inside ∧ t.Keeps t' ∧
        t'.termPointer = t.termPointer - 80 ∧
        t'.screen = t.screen.scroll (t.color ++ (0x20 : BitVec 8))
    else t.vgaScrollVert = .error (.panic "VGA: vga_scroll_vert(): failed.") := by
  let copied := t.copyLines 24
  obtain ⟨copiedSw, copiedBuff, keepsCopied, pointerCopied⟩ := copyLines_eq (t := t) 24
  obtain ⟨filledSw, filledBuff, keepsFilled, pointerFilled⟩ :=
    fillLine_eq (t := copied) 80 (Nat.le_refl 80)
  let moved : Terminal :=
    { copied.fillLine 80 with termPointer := sub32 (copied.fillLine 80).termPointer 80 }
  have pointer : moved.termPointer = t.termPointer - 80 := by
    have same : moved.termPointer = sub32 t.termPointer 80 := by
      simp only [moved, pointerFilled, copied, pointerCopied]
    rw [same, sub32_of_le low high]
  have keeps : t.Keeps (moved.vgaSetCursorPosition moved.termPointer) := by
    have keepsMoved : (copied.fillLine 80).Keeps moved := ⟨rfl, rfl, rfl⟩
    exact ((keepsCopied.trans keepsFilled).trans keepsMoved).trans (keeps_setCursorPosition _)
  have scrolled : t.vgaScrollVert =
      if moved.termPointer / 80 ≥ 25 then .error (.panic "VGA: vga_scroll_vert(): failed.")
      else .ok (moved.vgaSetCursorPosition moved.termPointer) := by
    simp only [vgaScrollVert, setCursorPosition_termPointer]
    rfl
  have shown : ∀ i, moved.termBuffSw i = if 80 * 25 - 80 ≤ i ∧ i < 80 * 25 then
      vgaMakeEntry 0x20 copied.color else copied.termBuffSw i := filledSw
  have video : ∀ i, moved.termBuff i = if 80 * 25 - 80 ≤ i ∧ i < 80 * 25 then
      vgaMakeEntry 0x20 copied.color else copied.termBuff i := filledBuff
  split
  case isTrue near =>
    -- the pointer is at most on the line below the screen, which comes up
    refine ⟨_, scrolled.trans (if_neg (by omega)), ⟨?_, ?_⟩, keeps, ?_, ?_⟩
    · rw [setCursorPosition_termPointer, pointer]
      omega
    · intro i small
      rw [setCursorPosition_termBuff, setCursorPosition_termBuffSw]
      rw [video, shown, copiedBuff, copiedSw, mirrored i small]
    · rw [setCursorPosition_termPointer, pointer]
    · apply TextScreen.ext
      · intro r c
        have line := r.isLt
        have column := c.isLt
        simp only [TextScreen.scroll, screen, setCursorPosition_termBuffSw, shown]
        split_ifs with blank more more
        · omega
        · rw [keepsCopied.color, blank_eq]
        · rw [copiedSw, if_pos (by omega)]
          congr 1
          omega
        · omega
      · simp only [TextScreen.scroll, screen, setCursorPosition_termPointer, pointer]
        omega
      · simp only [TextScreen.scroll, screen, setCursorPosition_termPointer, pointer]
        omega
  case isFalse far => exact scrolled.trans (if_pos (by omega))

/-! ## Characters -/

/-- A character stored at a pointer inside, and the pointer moved on. -/
def advanced (t : Terminal) (entry : BitVec 16) : Terminal :=
  { t.setCell t.termPointer entry with termPointer := u32 (t.termPointer + 1) }

theorem advanced_eq (inside : t.Inside) (before : t.termPointer < 80 * 25) (entry : BitVec 16)
    {t' : Terminal}
    (stored : t' = (t.advanced entry).vgaSetCursorPosition (t.advanced entry).termPointer) :
    t'.Inside ∧ t.Keeps t' ∧ t'.termPointer = t.termPointer + 1 ∧
      t'.screen = t.screen.put (t.color ++ (0x20 : BitVec 8)) entry := by
  have pointer : t'.termPointer = t.termPointer + 1 := by
    rw [stored, setCursorPosition_termPointer]
    exact u32_of_lt (by omega)
  have copy : ∀ i, t'.termBuffSw i = if i = t.termPointer then entry else t.termBuffSw i := by
    intro i
    rw [stored, setCursorPosition_termBuffSw]
    exact setCell_termBuffSw _ i entry
  have video : ∀ i, t'.termBuff i = if i = t.termPointer then entry else t.termBuff i := by
    intro i
    rw [stored, setCursorPosition_termBuff]
    exact setCell_termBuff _ i entry
  have keeps : t.Keeps (t.advanced entry) := ⟨rfl, rfl, rfl⟩
  have revealed : t.screen.reveal (t.color ++ (0x20 : BitVec 8)) = t.screen :=
    TextScreen.reveal_of_lt (show t.termPointer / 80 < 25 by omega)
  refine ⟨⟨by omega, ?_⟩, ?_, pointer, ?_⟩
  · intro i small
    rw [video, copy, inside.mirrored i small]
  · rw [stored]
    exact keeps.trans (keeps_setCursorPosition _)
  · apply TextScreen.ext
    · intro r c
      have column := c.isLt
      have cell : (t.screen.put (t.color ++ (0x20 : BitVec 8)) entry).cell r c =
          if r.val = t.termPointer / 80 ∧ c.val = t.termPointer % 80 then entry
          else t.termBuffSw (80 * r + c) := by
        simp only [TextScreen.put, revealed]
        rfl
      have same : 80 * r.val + c.val = t.termPointer ↔
          r.val = t.termPointer / 80 ∧ c.val = t.termPointer % 80 := by omega
      rw [cell, ← if_congr same rfl rfl]
      exact copy _
    · have row : (t.screen.put (t.color ++ (0x20 : BitVec 8)) entry).row =
          if t.termPointer % 80 + 1 < 80 then t.termPointer / 80 else t.termPointer / 80 + 1 := by
        simp only [TextScreen.put, revealed]
        rfl
      rw [row, screen_row, pointer]
      split <;> omega
    · have col : (t.screen.put (t.color ++ (0x20 : BitVec 8)) entry).col =
          if t.termPointer % 80 + 1 < 80 then t.termPointer % 80 + 1 else 0 := by
        simp only [TextScreen.put, revealed]
        rfl
      rw [col, screen_col, pointer]
      split <;> omega

theorem vgaPrintChar_eq (inside : t.Inside) (c : BitVec 8) :
    ∃ t', t.vgaPrintChar c = .ok t' ∧ t'.Inside ∧ t.Keeps t' ∧
      t'.termPointer = nextPointer t.termPointer ∧
      t'.screen = t.screen.put (t.color ++ (0x20 : BitVec 8)) (vgaMakeEntry c t.color) := by
  by_cases before : t.termPointer < 80 * 25
  · obtain ⟨inside', keeps, pointer, shown⟩ :=
      advanced_eq inside before (vgaMakeEntry c t.color) rfl
    refine ⟨_, ?_, inside', keeps, by rw [pointer, nextPointer, if_pos before], shown⟩
    simp only [vgaPrintChar, if_neg (Nat.not_le.mpr before), ge_iff_le, bind, Except.bind]
    rfl
  · -- the scroll deferred so far
    have within := inside.within
    have scrolls := vgaScrollVert_eq (t := t) (by omega) (by omega) inside.mirrored
    rw [if_pos (by omega)] at scrolls
    obtain ⟨t₁, scrolled, inside₁, keeps₁, pointer₁, shown₁⟩ := scrolls
    have before₁ : t₁.termPointer < 80 * 25 := by omega
    obtain ⟨inside', keeps, pointer, shown⟩ :=
      advanced_eq inside₁ before₁ (vgaMakeEntry c t.color) rfl
    refine ⟨_, ?_, inside', keeps₁.trans keeps, ?_, ?_⟩
    · simp only [vgaPrintChar, if_pos (Nat.not_lt.mp before), ge_iff_le, scrolled, bind,
        Except.bind, if_neg (Nat.not_le.mpr before₁), keeps₁.color]
      rfl
    · rw [pointer, nextPointer, if_neg before]
      omega
    · have revealed : t.screen.reveal (t.color ++ (0x20 : BitVec 8)) = t₁.screen :=
        (TextScreen.reveal_of_le (show 25 ≤ t.termPointer / 80 by omega)).trans shown₁.symm
      have row : (t.screen.reveal (t.color ++ (0x20 : BitVec 8))).row < 25 := by
        rw [revealed]
        exact Nat.div_lt_of_lt_mul before₁
      rw [shown, keeps₁.color, ← revealed, TextScreen.put_reveal row]

/-- A newline, inside the screen. -/
theorem vgaNewLine_eq (inside : t.Inside) (before : t.termPointer < 80 * 25) :
    ∃ t', t.vgaNewLine = .ok t' ∧ t'.Inside ∧ t.Keeps t' ∧
      t'.termPointer = min ((t.termPointer / 80 + 1) * 80) (24 * 80) ∧
      t'.screen = t.screen.newline (t.color ++ (0x20 : BitVec 8)) := by
  let moved : Terminal := { t with termPointer := (t.termPointer / 80 + 1) * 80 }
  have keepsMoved : t.Keeps moved := ⟨rfl, rfl, rfl⟩
  have pointer : u32 (u32 (t.termPointer + 80) / 80 * 80) = (t.termPointer / 80 + 1) * 80 := by
    rw [u32_of_lt (by omega : t.termPointer + 80 < 2 ^ 32), u32_of_lt (by omega)]
    omega
  have newLine : t.vgaNewLine =
      if moved.termPointer ≥ 80 * 25 then moved.vgaScrollVert
      else .ok (moved.vgaSetCursorPosition moved.termPointer) := by
    simp only [vgaNewLine, pointer]
    rfl
  have revealed : t.screen.reveal (t.color ++ (0x20 : BitVec 8)) = t.screen :=
    TextScreen.reveal_of_lt (show t.termPointer / 80 < 25 by omega)
  have next : moved.screen = { t.screen with row := t.screen.row + 1, col := 0 } := by
    apply TextScreen.ext
    · exact fun _ _ => rfl
    · simp only [screen, moved]
      omega
    · simp only [screen, moved]
      omega
  have wanted : t.screen.newline (t.color ++ (0x20 : BitVec 8)) =
      moved.screen.reveal (t.color ++ (0x20 : BitVec 8)) := by
    rw [TextScreen.newline, revealed, next]
  have place : moved.termPointer = (t.termPointer / 80 + 1) * 80 := rfl
  by_cases last : moved.termPointer ≥ 80 * 25
  · -- from the last line the new one has to be revealed
    have scrolls := vgaScrollVert_eq (t := moved) (by omega) (by omega) inside.mirrored
    rw [if_pos (by omega)] at scrolls
    obtain ⟨t', scrolled, inside', keeps, pointer', shown⟩ := scrolls
    refine ⟨t', newLine.trans ((if_pos last).trans scrolled), inside', keepsMoved.trans keeps,
      by omega, ?_⟩
    have below : 25 ≤ moved.screen.row := by
      rw [screen_row]
      omega
    rw [shown, wanted, TextScreen.reveal_of_le below, keepsMoved.color]
  · refine ⟨_, newLine.trans (if_neg last), ⟨?_, ?_⟩, keepsMoved.trans (keeps_setCursorPosition _),
      ?_, ?_⟩
    · rw [setCursorPosition_termPointer]
      omega
    · intro i small
      rw [setCursorPosition_termBuff, setCursorPosition_termBuffSw]
      exact inside.mirrored i small
    · rw [setCursorPosition_termPointer]
      omega
    · have above : moved.screen.row < 25 := by
        rw [screen_row]
        omega
      rw [wanted, TextScreen.reveal_of_lt above]
      simp only [screen, setCursorPosition_termPointer, setCursorPosition_termBuffSw]

/-- A newline with the cursor below the screen halts the machine. -/
theorem vgaNewLine_panics (below : t.termPointer = 80 * 25)
    (mirrored : ∀ i < 80 * 25, t.termBuff i = t.termBuffSw i) :
    t.vgaNewLine = .error (.panic "VGA: vga_scroll_vert(): failed.") := by
  let moved : Terminal := { t with termPointer := 80 * 26 }
  have pointer : u32 (u32 (t.termPointer + 80) / 80 * 80) = 80 * 26 := by
    rw [below]
    decide
  have newLine : t.vgaNewLine = moved.vgaScrollVert := by
    simp only [vgaNewLine, pointer]
    rfl
  have place : moved.termPointer = 80 * 26 := rfl
  have scrolls := vgaScrollVert_eq (t := moved) (by omega) (by omega) mirrored
  rw [if_neg (by omega)] at scrolls
  exact newLine.trans scrolls

end Terminal

end Antonix.Vga
