import Antonix.Vga.Reference

/-! # Printing strings

A newline with the cursor one past the last cell halts the machine, a tab writes as many
spaces as the column is past a multiple of 8, and a character that is not ASCII spills
over its color.  Everything else is printed as the reference prints it. -/

namespace Antonix.Vga

/-- A character that the terminal handles well at a pointer. -/
def Suits (color : BitVec 8) (p : Nat) (c : BitVec 8) : Prop :=
  if c = 0x0A then p < 80 * 25
  else if c = 0x09 then p % 8 = 4
  else if c = 0x0D then True
  else c.toNat < 0x80 ∨ color = 0xFF

instance (color : BitVec 8) (p : Nat) (c : BitVec 8) : Decidable (Suits color p c) := by
  unfold Suits
  infer_instance

/-- Where a character moves the pointer. -/
def charMoves (p : Nat) (c : BitVec 8) : Nat :=
  if c = 0x0A then min ((p / 80 + 1) * 80) (24 * 80)
  else if c = 0x09 then p + (8 - p % 8)
  else if c = 0x0D then p - p % 80
  else nextPointer p

/-- Every character of a string suits the pointer that those before it lead to. -/
def Fits (color : BitVec 8) : Nat → List (BitVec 8) → Prop
  | _, [] => True
  | p, c :: str => Suits color p c ∧ Fits color (charMoves p c) str

instance decidableFits (color : BitVec 8) : ∀ p str, Decidable (Fits color p str)
  | _, [] => isTrue trivial
  | p, c :: str =>
    @instDecidableAnd (Suits color p c) (Fits color (charMoves p c) str) _
      (decidableFits color (charMoves p c) str)

/-- What a string does on a screen. -/
def feedAll (color : BitVec 8) (s : TextScreen 25 80 (BitVec 16)) (str : List (BitVec 8)) :
    TextScreen 25 80 (BitVec 16) :=
  str.foldl (feed color) s

/-- Where the pointer is after some spaces. -/
def Terminal.afterSpaces : Nat → Nat → Nat
  | 0, p => p
  | count + 1, p => afterSpaces count (nextPointer p)

/-- Where the code moves the pointer for a character that it prints. -/
def pointerAfter (p : Nat) (c : BitVec 8) : Nat :=
  if c = 0x0A then min ((p / 80 + 1) * 80) (24 * 80)
  else if c = 0x09 then Terminal.afterSpaces (p % 8) p
  else if c = 0x0D then p - p % 80
  else nextPointer p

namespace Terminal

variable {t : Terminal}

/-! ## Tabs -/

theorem afterSpaces_eq {count p : Nat} (short : count ≤ 80) (within : p ≤ 80 * 25) :
    afterSpaces count p = if p + count ≤ 80 * 25 then p + count else p + count - 80 := by
  induction count generalizing p with
  | zero => exact (if_pos within).symm
  | succ count inductionHypothesis =>
    rw [afterSpaces, nextPointer]
    split
    case isTrue inside =>
      rw [inductionHypothesis (by omega) (by omega)]
      split <;> split <;> omega
    case isFalse below =>
      rw [inductionHypothesis (by omega) (by omega)]
      split <;> split <;> omega

theorem printSpaces_eq (count : Nat) (inside : t.Inside) :
    ∃ t', printSpaces count t = .ok t' ∧ t'.Inside ∧ t.Keeps t' ∧
      t'.termPointer = afterSpaces count t.termPointer ∧
      t'.screen = t.screen.putBlanks (t.color ++ (0x20 : BitVec 8)) count := by
  induction count generalizing t with
  | zero => exact ⟨t, rfl, inside, .refl t, rfl, rfl⟩
  | succ count inductionHypothesis =>
    obtain ⟨t₁, printed, inside₁, keeps₁, pointer₁, shown₁⟩ := vgaPrintChar_eq inside 0x20
    obtain ⟨t', rest, inside', keeps, pointer, shown⟩ := inductionHypothesis inside₁
    refine ⟨t', ?_, inside', keeps₁.trans keeps, ?_, ?_⟩
    · simp only [printSpaces, printed, bind, Except.bind]
      exact rest
    · rw [pointer, pointer₁]
      rfl
    · rw [shown, shown₁, keeps₁.color, blank_eq]
      rfl

theorem pointer_eq_of_screen {t' t'' : Terminal} (same : t'.screen = t''.screen) :
    t'.termPointer = t''.termPointer := by
  have rows := congrArg TextScreen.row same
  have cols := congrArg TextScreen.col same
  simp only [screen_row, screen_col] at rows cols
  omega

/-- A tab writes as many spaces as the column is past a multiple of 8. -/
theorem vgaApplyTab_spaces (inside : t.Inside) (updating : t.cursorUpdateCntr = 1) :
    ∃ t', t.vgaApplyTab = .ok t' ∧ t'.Inside ∧ t.Keeps t' ∧
      t'.termPointer = afterSpaces (t.termPointer % 8) t.termPointer ∧
      t'.screen = t.screen.putBlanks (t.color ++ (0x20 : BitVec 8)) (t.termPointer % 8) := by
  let begun := t.vgaCursorBeginUpdate
  -- a tab is inside of an update of its own, so that its spaces do not move the cursor
  have twice : begun.cursorUpdateCntr = 2 := by
    simp only [begun, vgaCursorBeginUpdate, updating]
    decide
  have insideBegun : begun.Inside := ⟨inside.within, inside.mirrored⟩
  obtain ⟨t₁, printed, inside₁, keeps₁, pointer₁, shown₁⟩ :=
    printSpaces_eq (t.termPointer % 8) insideBegun
  let ended : Terminal := { t₁ with cursorUpdateCntr := 1 }
  have once : i32 (t₁.cursorUpdateCntr - 1) = 1 := by
    rw [keeps₁.cntr, twice]
    decide
  have applied : t.vgaApplyTab = .ok ended := by
    simp only [vgaApplyTab, bind, Except.bind]
    rw [printed]
    simp only [vgaCursorEndUpdate, once]
    rfl
  exact ⟨ended, applied, ⟨inside₁.within, inside₁.mirrored⟩,
    ⟨keeps₁.fg, keeps₁.bg, updating.symm⟩, pointer₁, shown₁⟩

/-- A tab is right when the column is 4 past a multiple of 8. -/
theorem vgaApplyTab_eq (inside : t.Inside) (updating : t.cursorUpdateCntr = 1) :
    ∃ t', t.vgaApplyTab = .ok t' ∧ t'.Inside ∧ t.Keeps t' ∧
      t'.termPointer = afterSpaces (t.termPointer % 8) t.termPointer ∧
      (t'.screen = t.screen.tab (t.color ++ (0x20 : BitVec 8)) 8 ↔ t.termPointer % 8 = 4) := by
  have within := inside.within
  have column : t.screen.col % 8 = t.termPointer % 8 := by
    rw [screen_col]
    omega
  obtain ⟨ended, applied, inside', keeps, pointer, shown⟩ := vgaApplyTab_spaces inside updating
  refine ⟨ended, applied, inside', keeps, pointer, ?_⟩
  rw [shown, TextScreen.tab, column]
  constructor
  · -- as many spaces as the reference writes would leave the pointer elsewhere
    intro same
    obtain ⟨t₂, -, -, -, pointer₂, shown₂⟩ := printSpaces_eq (8 - t.termPointer % 8) inside
    have pointers := pointer_eq_of_screen (shown.trans (same.trans shown₂.symm))
    rw [pointer, pointer₂, afterSpaces_eq (by omega) within,
      afterSpaces_eq (by omega) within] at pointers
    split at pointers <;> split at pointers <;> omega
  · intro middle
    rw [middle]

/-! ## One character -/

theorem vgaApplyCarriageReturn_eq (inside : t.Inside) :
    t.vgaApplyCarriageReturn.Inside ∧ t.Keeps t.vgaApplyCarriageReturn ∧
      t.vgaApplyCarriageReturn.termPointer = t.termPointer - t.termPointer % 80 ∧
      t.vgaApplyCarriageReturn.screen = t.screen.carriageReturn := by
  have within := inside.within
  let moved : Terminal := { t with termPointer := t.termPointer - t.termPointer % 80 }
  have pointer : t.vgaApplyCarriageReturn.termPointer = t.termPointer - t.termPointer % 80 :=
    @setCursorPosition_termPointer moved _
  have keepsMoved : t.Keeps moved := ⟨rfl, rfl, rfl⟩
  refine ⟨⟨by omega, ?_⟩, keepsMoved.trans (keeps_setCursorPosition _), pointer, ?_⟩
  · intro i small
    have video := congrFun (@setCursorPosition_termBuff moved moved.termPointer) i
    have copy := congrFun (@setCursorPosition_termBuffSw moved moved.termPointer) i
    exact video.trans ((inside.mirrored i small).trans copy.symm)
  · apply TextScreen.ext
    · intro r c
      exact congrFun (@setCursorPosition_termBuffSw moved moved.termPointer) _
    · rw [screen_row, pointer, TextScreen.carriageReturn, screen_row]
      omega
    · have start : t.screen.carriageReturn.col = 0 := rfl
      rw [screen_col, pointer, start]
      omega

/-- A newline one past the last cell halts the machine.  Every other character is printed, and as
the reference prints it exactly where it suits. -/
theorem printStep_cases (inside : t.Inside) (updating : t.cursorUpdateCntr = 1) (c : BitVec 8) :
    ((c = 0x0A ∧ ¬ t.termPointer < 80 * 25) ∧
      t.printStep c = .error (.panic "VGA: vga_scroll_vert(): failed.")) ∨
    (c = 0x0A → t.termPointer < 80 * 25) ∧ ∃ t', t.printStep c = .ok t' ∧ t'.Inside ∧
      t.Keeps t' ∧ t'.termPointer = pointerAfter t.termPointer c ∧
      (t'.screen = feed t.color t.screen c ↔ Suits t.color t.termPointer c) := by
  have within := inside.within
  unfold printStep Suits feed pointerAfter
  by_cases newline : c = 0x0A
  · simp only [if_pos newline]
    by_cases before : t.termPointer < 80 * 25
    · obtain ⟨t', printed, inside', keeps, pointer, shown⟩ := vgaNewLine_eq inside before
      exact .inr ⟨fun _ => before, t', printed, inside', keeps, pointer,
        iff_of_true shown before⟩
    · exact .inl ⟨⟨newline, before⟩, vgaNewLine_panics (by omega) inside.mirrored⟩
  refine .inr ⟨fun same => absurd same newline, ?_⟩
  by_cases tab : c = 0x09
  · simp only [if_neg newline, if_pos tab]
    exact vgaApplyTab_eq inside updating
  by_cases carriageReturn : c = 0x0D
  · simp only [if_neg newline, if_neg tab, if_pos carriageReturn]
    obtain ⟨inside', keeps, pointer, shown⟩ := vgaApplyCarriageReturn_eq inside
    exact ⟨_, rfl, inside', keeps, pointer, iff_of_true shown trivial⟩
  · simp only [if_neg newline, if_neg tab, if_neg carriageReturn]
    obtain ⟨t', printed, inside', keeps, pointer, shown⟩ := vgaPrintChar_eq inside c
    refine ⟨t', printed, inside', keeps, pointer, ?_⟩
    have revealed : (t.screen.reveal (t.color ++ (0x20 : BitVec 8))).row < 25 := by
      unfold TextScreen.reveal
      split
      case isTrue above => exact above
      case isFalse below =>
        simp only [TextScreen.scroll, screen_row]
        omega
    have column : (t.screen.reveal (t.color ++ (0x20 : BitVec 8))).col < 80 := by
      have small : t.screen.col < 80 := by
        rw [screen_col]
        omega
      unfold TextScreen.reveal
      split <;> exact small
    rw [shown, TextScreen.put_inj revealed column, vgaMakeEntry_eq_iff]

/-- Where a character suits, the code moves the pointer as the reference does. -/
theorem pointerAfter_of_suits {color c : BitVec 8} {p : Nat} (within : p ≤ 80 * 25)
    (suits : Suits color p c) : pointerAfter p c = charMoves p c := by
  unfold pointerAfter charMoves
  by_cases newline : c = 0x0A
  · rw [if_pos newline, if_pos newline]
  by_cases tab : c = 0x09
  · rw [Suits, if_neg newline, if_pos tab] at suits
    rw [if_neg newline, if_neg newline, if_pos tab, if_pos tab, afterSpaces_eq (by omega) within,
      if_pos (by omega), suits]
  · rw [if_neg newline, if_neg newline, if_neg tab, if_neg tab]

/-- A character halts the machine, where it does not suit, or it is printed, and as the reference
prints it exactly where it suits. -/
theorem printStep_spec (inside : t.Inside) (updating : t.cursorUpdateCntr = 1) (c : BitVec 8) :
    (t.printStep c = .error (.panic "VGA: vga_scroll_vert(): failed.") ∧
      ¬ Suits t.color t.termPointer c) ∨
    ∃ t', t.printStep c = .ok t' ∧ t'.Inside ∧ t.Keeps t' ∧
      (t'.screen = feed t.color t.screen c ↔ Suits t.color t.termPointer c) ∧
      (Suits t.color t.termPointer c → t'.termPointer = charMoves t.termPointer c) := by
  obtain ⟨⟨newline, full⟩, halts⟩ | ⟨-, t', printed, inside', keeps, pointer, shown⟩ :=
    printStep_cases inside updating c
  · refine .inl ⟨halts, ?_⟩
    rwa [Suits, if_pos newline]
  · exact .inr ⟨t', printed, inside', keeps, shown,
      fun suits => pointer.trans (pointerAfter_of_suits inside.within suits)⟩

/-! ## Strings -/

theorem printLoop_inside {str : List (BitVec 8)} {t' : Terminal} (inside : t.Inside)
    (updating : t.cursorUpdateCntr = 1) (printed : printLoop str t = .ok t') :
    t'.Inside ∧ t.Keeps t' := by
  induction str generalizing t with
  | nil =>
    rw [← Except.ok.inj printed]
    exact ⟨inside, .refl t⟩
  | cons c str inductionHypothesis =>
    obtain ⟨t₁, first, rest⟩ := exists_of_bind printed
    obtain ⟨halts, -⟩ | ⟨t₂, step, inside₂, keeps, -⟩ := printStep_spec inside updating c
    · rw [halts] at first
      contradiction
    · rw [step] at first
      obtain rfl := Except.ok.inj first
      obtain ⟨inside', keeps'⟩ := inductionHypothesis inside₂ (keeps.cntr.trans updating) rest
      exact ⟨inside', keeps.trans keeps'⟩

/-- The loop follows the reference through a string exactly when the string fits. -/
theorem printLoop_iff {str : List (BitVec 8)} (inside : t.Inside)
    (updating : t.cursorUpdateCntr = 1) :
    (∀ shown, shown <+: str →
      ∃ t', printLoop shown t = .ok t' ∧ t'.screen = feedAll t.color t.screen shown) ↔
      Fits t.color t.termPointer str := by
  induction str generalizing t with
  | nil =>
    refine iff_of_true ?_ trivial
    intro shown start
    rw [List.prefix_nil.mp start]
    exact ⟨t, rfl, rfl⟩
  | cons c str inductionHypothesis =>
    obtain ⟨halts, wrong⟩ | ⟨t₁, step, inside₁, keeps, right, moves⟩ :=
      printStep_spec inside updating c
    · -- the first character halts the machine
      refine iff_of_false ?_ fun fits => wrong fits.1
      intro follows
      obtain ⟨t', printed, -⟩ := follows [c] (List.cons_prefix_cons.mpr ⟨rfl, List.nil_prefix⟩)
      simp only [printLoop, halts, bind, Except.bind] at printed
      contradiction
    · have updating₁ : t₁.cursorUpdateCntr = 1 := keeps.cntr.trans updating
      have rest := inductionHypothesis inside₁ updating₁
      have continues : ∀ shown, printLoop (c :: shown) t = printLoop shown t₁ := by
        intro shown
        simp only [printLoop, step, bind, Except.bind]
      constructor
      · intro follows
        -- the first character alone shows that it suits
        obtain ⟨t', printed, shown₁⟩ :=
          follows [c] (List.cons_prefix_cons.mpr ⟨rfl, List.nil_prefix⟩)
        rw [continues] at printed
        obtain rfl := Except.ok.inj printed
        have suits := right.mp shown₁
        refine ⟨suits, ?_⟩
        rw [← moves suits, ← keeps.color]
        apply rest.mp
        intro shown start
        obtain ⟨t', printed', shown'⟩ :=
          follows (c :: shown) (List.cons_prefix_cons.mpr ⟨rfl, start⟩)
        refine ⟨t', (continues shown).symm.trans printed', ?_⟩
        rw [shown', keeps.color, shown₁]
        rfl
      · rintro ⟨suits, fits⟩
        rw [← moves suits, ← keeps.color] at fits
        intro shown start
        cases shown with
        | nil => exact ⟨t, rfl, rfl⟩
        | cons c' shown =>
          obtain ⟨rfl, start'⟩ := List.cons_prefix_cons.mp start
          obtain ⟨t', printed, shown'⟩ := rest.mpr fits shown start'
          refine ⟨t', (continues shown).trans printed, ?_⟩
          rw [shown', keeps.color, right.mpr suits]
          rfl

/-! ## Runs -/

/-- Between two calls the counter is 0 and the board has the cursor where the pointer is. -/
structure Idle (t : Terminal) : Prop extends t.Inside where
  idle : t.cursorUpdateCntr = 0
  cursor : t.cursor = t.termPointer

theorem Idle.updating_begun (idle : t.Idle) : t.vgaCursorBeginUpdate.cursorUpdateCntr = 1 := by
  simp only [vgaCursorBeginUpdate, idle.idle]
  decide

theorem Idle.inside_begun (idle : t.Idle) : t.vgaCursorBeginUpdate.Inside :=
  ⟨idle.within, idle.mirrored⟩

/-- A call of `vga_print` is its loop, with the counter at 1. -/
theorem vgaPrint_eq {str : List (BitVec 8)} {t₁ : Terminal} (idle : t.Idle)
    (printed : printLoop str t.vgaCursorBeginUpdate = .ok t₁) :
    ∃ t', t.vgaPrint str = .ok t' ∧ t'.Idle ∧ t'.screen = t₁.screen ∧
      t'.termPointer = t₁.termPointer := by
  obtain ⟨inside, keeps⟩ := printLoop_inside idle.inside_begun idle.updating_begun printed
  -- the last update ends, and the cursor follows the pointer
  have none : i32 (t₁.cursorUpdateCntr - 1) = 0 := by
    rw [keeps.cntr, idle.updating_begun]
    decide
  have position : 2 ^ 8 * (t₁.termPointer / 2 ^ 8 % 2 ^ 8) + t₁.termPointer % 2 ^ 8 =
      t₁.termPointer := by
    have within := inside.within
    omega
  refine ⟨{ t₁ with cursorUpdateCntr := 0, cursor := t₁.termPointer }, ?_,
    ⟨⟨inside.within, inside.mirrored⟩, rfl, rfl⟩, rfl, rfl⟩
  simp only [vgaPrint, printed, bind, Except.bind, vgaCursorEndUpdate, none, if_true,
    vgaSetCursorPosition, ne_eq, not_true_eq_false, if_false, position]

theorem clearCells_eq (n : Nat) :
    (∀ i, (t.clearCells n).termBuffSw i =
      if i < n then vgaMakeEntry 0x20 t.color else t.termBuffSw i) ∧
    (∀ i, (t.clearCells n).termBuff i =
      if i < n then vgaMakeEntry 0x20 t.color else t.termBuff i) ∧ t.Keeps (t.clearCells n) := by
  induction n with
  | zero => exact ⟨fun _ => rfl, fun _ => rfl, .refl t⟩
  | succ n inductionHypothesis =>
    obtain ⟨copy, video, keeps⟩ := inductionHypothesis
    refine ⟨?_, ?_, ⟨keeps.fg, keeps.bg, keeps.cntr⟩⟩
    · intro i
      rw [clearCells, setCell_termBuffSw, copy]
      split_ifs <;> first | rfl | omega
    · intro i
      rw [clearCells, setCell_termBuff, video]
      split_ifs <;> first | rfl | omega

theorem idle_vgaClear (idle : t.cursorUpdateCntr = 0) : t.vgaClear.Idle := by
  obtain ⟨copy, video, keeps⟩ := clearCells_eq (t := t) (80 * 25)
  have counter := keeps.cntr.trans idle
  unfold vgaClear
  generalize t.clearCells (80 * 25) = cleared at copy video counter
  simp only [vgaSetCursorPosition, counter, ne_eq, not_true_eq_false, if_false]
  refine ⟨⟨Nat.zero_le _, ?_⟩, rfl, rfl⟩
  intro i small
  have shown := video i
  have kept := copy i
  rw [if_pos small] at shown kept
  exact shown.trans kept.symm

/-- The states of a terminal: after `vga_init_terminal`, and after calls that returned. -/
inductive Reachable : Terminal → Prop
  | init (t : Terminal) : Reachable t.vgaInitTerminal
  | print {t t' : Terminal} {str : List (BitVec 8)} (reachable : Reachable t)
    (printed : t.vgaPrint str = .ok t') : Reachable t'
  | clear {t : Terminal} (reachable : Reachable t) : Reachable t.vgaClear
  | setColor {t : Terminal} (reachable : Reachable t) (fg bg : Nat) :
    Reachable (t.vgaSetColor fg bg)

theorem Reachable.idle (reachable : t.Reachable) : t.Idle := by
  induction reachable with
  | init t => exact idle_vgaClear rfl
  | @print t t' str _ printed idle =>
    obtain ⟨t₁, looped, -⟩ := exists_of_bind printed
    obtain ⟨t'', printed', idle', -⟩ := vgaPrint_eq idle looped
    obtain rfl := Except.ok.inj (printed.symm.trans printed')
    exact idle'
  | clear _ idle => exact idle_vgaClear idle.idle
  | setColor _ fg bg idle => exact ⟨⟨idle.within, idle.mirrored⟩, idle.idle, idle.cursor⟩

/-- `vga_print` returns for a string and all that it starts with; it leaves the pointer at most
one past the last cell, the cursor at the pointer, and on both screens what the reference shows. -/
def PrintsRight (t : Terminal) (str : List (BitVec 8)) : Prop :=
  ∀ shown, shown <+: str → ∃ t', t.vgaPrint shown = .ok t' ∧
    t'.termPointer ≤ 80 * 25 ∧ t'.cursor = t'.termPointer ∧
    (∀ i < 80 * 25, t'.termBuff i = t'.termBuffSw i) ∧
    t'.screen = feedAll t.color t.screen shown

theorem printsRight_iff {str : List (BitVec 8)} (idle : t.Idle) :
    t.PrintsRight str ↔ Fits t.color t.termPointer str := by
  have loop : (∀ shown, shown <+: str → ∃ t₁, printLoop shown t.vgaCursorBeginUpdate = .ok t₁ ∧
      t₁.screen = feedAll t.color t.screen shown) ↔ Fits t.color t.termPointer str :=
    printLoop_iff idle.inside_begun idle.updating_begun
  rw [← loop]
  constructor
  · intro right shown start
    obtain ⟨t', printed, -, -, -, screen⟩ := right shown start
    obtain ⟨t₁, looped, -⟩ := exists_of_bind printed
    obtain ⟨t'', printed', -, same, -⟩ := vgaPrint_eq idle looped
    obtain rfl := Except.ok.inj (printed.symm.trans printed')
    exact ⟨t₁, looped, same.symm.trans screen⟩
  · intro follows shown start
    obtain ⟨t₁, looped, screen⟩ := follows shown start
    obtain ⟨t', printed, idle', same, -⟩ := vgaPrint_eq idle looped
    exact ⟨t', printed, idle'.within, idle'.cursor, idle'.mirrored, same.trans screen⟩

/-- A string that fits is printed, and its characters move the pointer one after the other. -/
theorem printLoop_moves {str : List (BitVec 8)} (inside : t.Inside)
    (updating : t.cursorUpdateCntr = 1) (fits : Fits t.color t.termPointer str) :
    ∃ t', printLoop str t = .ok t' ∧ t'.termPointer = str.foldl charMoves t.termPointer := by
  induction str generalizing t with
  | nil => exact ⟨t, rfl, rfl⟩
  | cons c str inductionHypothesis =>
    obtain ⟨suits, rest⟩ := fits
    obtain ⟨-, wrong⟩ | ⟨t₁, step, inside₁, keeps, -, moves⟩ := printStep_spec inside updating c
    · exact absurd suits wrong
    · rw [← moves suits, ← keeps.color] at rest
      obtain ⟨t', printed, pointer⟩ :=
        inductionHypothesis inside₁ (keeps.cntr.trans updating) rest
      refine ⟨t', ?_, ?_⟩
      · simp only [printLoop, step, bind, Except.bind]
        exact printed
      · rw [pointer, moves suits, List.foldl_cons]

theorem vgaPrint_moves {str : List (BitVec 8)} (idle : t.Idle)
    (fits : Fits t.color t.termPointer str) :
    ∃ t', t.vgaPrint str = .ok t' ∧ t'.termPointer = str.foldl charMoves t.termPointer := by
  have fitsBegun : Fits t.vgaCursorBeginUpdate.color t.vgaCursorBeginUpdate.termPointer str := fits
  obtain ⟨t₁, looped, pointer⟩ := printLoop_moves idle.inside_begun idle.updating_begun fitsBegun
  obtain ⟨t', printed, -, -, same⟩ := vgaPrint_eq idle looped
  exact ⟨t', printed, same.trans pointer⟩

theorem vgaInitTerminal_eq (t : Terminal) :
    t.vgaInitTerminal.termPointer = 0 ∧ t.vgaInitTerminal.color = 0x07 := by
  unfold vgaInitTerminal vgaClear
  refine ⟨setCursorPosition_termPointer _, ?_⟩
  have keeps := (clearCells_eq (t :=
    { t with termPointer := 0, cursorUpdateCntr := 0, termFg := 7, termBg := 0 }) (80 * 25)).2.2
  generalize clearCells _ (80 * 25) = cleared at keeps
  have same : cleared.Keeps { cleared with termPointer := 0 } := ⟨rfl, rfl, rfl⟩
  rw [((keeps.trans same).trans (keeps_setCursorPosition _)).color]
  exact (by decide : vgaMakeColor 7 0 = 0x07)

end Terminal

/-- From every state that a terminal can have, a string and all that it starts with are printed
right exactly when no newline comes one past the last cell, every tab comes 4 past a multiple of 8,
and every other character is ASCII (or the color is 0xFF). -/
theorem vgaPrint_right_iff (t : Terminal) (str : List (BitVec 8)) (reachable : t.Reachable) :
    t.PrintsRight str ↔ Fits t.color t.termPointer str :=
  Terminal.printsRight_iff reachable.idle

/-- A terminal before it is initialized. -/
def rawTerminal : Terminal where
  termBuff := fun _ => 0
  termBuffSw := fun _ => 0
  termPointer := 0
  cursorUpdateCntr := 0
  termFg := 0
  termBg := 0
  cursor := 0

/-- `"name\tvalue\r\n"` on an empty screen. -/
theorem vgaPrint_right_line : rawTerminal.vgaInitTerminal.PrintsRight
    [0x6E, 0x61, 0x6D, 0x65, 0x09, 0x76, 0x61, 0x6C, 0x75, 0x65, 0x0D, 0x0A] := by
  apply (vgaPrint_right_iff _ _ (.init rawTerminal)).mpr
  obtain ⟨pointer, color⟩ := rawTerminal.vgaInitTerminal_eq
  rw [pointer, color]
  decide

/-- After 24 newlines and 80 characters, another newline halts the machine. -/
theorem vgaPrint_newline_panics : ∃ t : Terminal, t.Reachable ∧
    t.vgaPrint [0x0A] = .error (.panic "VGA: vga_scroll_vert(): failed.") ∧
    ¬ t.PrintsRight [0x0A] := by
  let full : List (BitVec 8) := List.replicate 24 0x0A ++ List.replicate 80 0x78
  obtain ⟨pointer, color⟩ := rawTerminal.vgaInitTerminal_eq
  have started : rawTerminal.vgaInitTerminal.Reachable := .init rawTerminal
  have fits : Fits rawTerminal.vgaInitTerminal.color rawTerminal.vgaInitTerminal.termPointer
      full := by
    rw [pointer, color]
    decide
  obtain ⟨t, printed, moves⟩ := Terminal.vgaPrint_moves started.idle fits
  have reachable : t.Reachable := .print started printed
  have last : t.termPointer = 80 * 25 := by
    rw [moves, pointer]
    decide +kernel
  refine ⟨t, reachable, ?_, ?_⟩
  · have panics : t.vgaCursorBeginUpdate.vgaNewLine = _ :=
      Terminal.vgaNewLine_panics last reachable.idle.mirrored
    simp only [Terminal.vgaPrint, Terminal.printLoop, Terminal.printStep, if_true, panics, bind,
      Except.bind]
  · rw [Terminal.printsRight_iff reachable.idle, last]
    rintro ⟨suits, -⟩
    unfold Suits at suits
    exact absurd suits (Nat.lt_irrefl _)

end Antonix.Vga

/-! # Strings that are printed to their end

Whether `vga_print` returns is decided by the pointer alone: only a newline one past the
last cell halts the machine.  The pointer is followed through a string as the code moves
it, tabs included. -/

namespace Antonix.Vga

/-- No newline of a string comes one past the last cell. -/
def Printable : Nat → List (BitVec 8) → Prop
  | _, [] => True
  | p, c :: str => (c = 0x0A → p < 80 * 25) ∧ Printable (pointerAfter p c) str

instance decidablePrintable : ∀ p str, Decidable (Printable p str)
  | _, [] => isTrue trivial
  | p, c :: str =>
    @instDecidableAnd (c = 0x0A → p < 80 * 25) (Printable (pointerAfter p c) str) _
      (decidablePrintable (pointerAfter p c) str)

namespace Terminal

variable {t : Terminal}

end Terminal

end Antonix.Vga
