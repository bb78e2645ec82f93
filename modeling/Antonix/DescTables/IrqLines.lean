import Antonix.DescTables.Basic
import Antonix.Lib.Transition

/-! # Which IRQ lines are masked

The two mask registers together are a bitmap of the sixteen lines, and
`irq_enable` and `irq_disable` clear and set one bit of it.  A line that has a
handler should be unmasked and no other: `LinesFollow` says that of all lines
but 0 and 2, and `CallLaw` is what one call should keep.

`unregister_isr_callback` masks line 1 whatever its own line is (or line 0 when
it has none), and registering `NULL` then unmasks its own.  So the law fails for
every IRQ interrupt that is unregistered. -/

namespace Antonix

open Set Transition

variable {κ : Type}

/-- The mask registers, as one bitmap. -/
def IsrState.masks (state : IsrState κ) : Bitmap 8 := fun i =>
  if i = 0 then state.pic1Data else if i = 1 then state.pic2Data else 0#8

/-- The lines that are masked. -/
def IsrState.maskedLines (state : IsrState κ) : Set Nat := state.masks.bits

/-! ## The routines -/

theorem irqEnable_masks {state : IsrState κ} {irqId : Nat} (line : irqId < 16) :
    (irqEnable state irqId).2.masks = state.masks.clearBit irqId := by
  funext i
  rw [irqEnable, if_neg (by omega)]
  by_cases low : irqId < 8
  · simp only [low, if_true, IsrState.masks, Bitmap.clearBit, Nat.div_eq_of_lt low,
      Nat.mod_eq_of_lt low]
    by_cases first : i = 0 <;> simp [first]
  · simp only [low, if_false, IsrState.masks, Bitmap.clearBit,
      show irqId / 8 = 1 by omega, show irqId % 8 = irqId - 8 by omega]
    by_cases second : i = 1 <;> simp [second]

theorem irqDisable_masks {state : IsrState κ} {irqId : Nat} (line : irqId < 16) :
    (irqDisable state irqId).2.masks = state.masks.setBit irqId := by
  funext i
  rw [irqDisable, if_neg (by omega)]
  by_cases low : irqId < 8
  · simp only [low, if_true, IsrState.masks, Bitmap.setBit, Nat.div_eq_of_lt low,
      Nat.mod_eq_of_lt low]
    by_cases first : i = 0 <;> simp [first]
  · simp only [low, if_false, IsrState.masks, Bitmap.setBit,
      show irqId / 8 = 1 by omega, show irqId % 8 = irqId - 8 by omega]
    by_cases second : i = 1 <;> simp [second]

theorem irqEnable_maskedLines (state : IsrState κ) {irqId : Nat} (line : irqId < 16) :
    (irqEnable state irqId).2.maskedLines = state.maskedLines \ {irqId} := by
  rw [IsrState.maskedLines, irqEnable_masks line, Bitmap.bits_clearBit (by decide)]
  rfl

theorem irqDisable_maskedLines (state : IsrState κ) {irqId : Nat} (line : irqId < 16) :
    (irqDisable state irqId).2.maskedLines = insert irqId state.maskedLines := by
  rw [IsrState.maskedLines, irqDisable_masks line, Bitmap.bits_setBit (by decide)]
  rfl

@[simp] theorem irqEnable_isrCallbacks (state : IsrState κ) (irqId : Nat) :
    (irqEnable state irqId).2.isrCallbacks = state.isrCallbacks := by
  simp only [irqEnable]
  split
  · rfl
  · split <;> rfl

@[simp] theorem irqDisable_isrCallbacks (state : IsrState κ) (irqId : Nat) :
    (irqDisable state irqId).2.isrCallbacks = state.isrCallbacks := by
  simp only [irqDisable]
  split
  · rfl
  · split <;> rfl

theorem irqToIntid_of_line {line : Nat} (isLine : line < 16) : irqToIntid line = 32 + line := by
  rw [irqToIntid, if_neg (by omega)]
  split
  · rfl
  · simp only [irq8IntId]; omega

theorem intidToIrq_of_line {line : Nat} (isLine : line < 16) :
    intidToIrq (32 + line) = line := by
  simp only [intidToIrq, irq0IntId, irq15IntId]
  rw [if_pos (by omega), Nat.add_sub_cancel_left]

theorem intId_cases (intId : Nat) :
    (∃ line < 16, intId = 32 + line) ∨
      intidToIrq intId = invalidIrqLine ∧ ∀ line < 16, intId ≠ 32 + line := by
  by_cases inside : 32 ≤ intId ∧ intId ≤ 47
  · exact .inl ⟨intId - 32, by omega, by omega⟩
  · exact .inr ⟨if_neg inside, fun line isLine => by omega⟩

/-- Registering for the interrupt of a line installs the callback and unmasks the line. -/
theorem registerIsrCallback_line (state : IsrState κ) {line : Nat} (callback : Option κ)
    (isLine : line < 16) :
    (registerIsrCallback state (32 + line) callback).2.maskedLines =
        state.maskedLines \ {line} ∧
      (registerIsrCallback state (32 + line) callback).2.isrCallbacks =
        Function.update state.isrCallbacks (32 + line) callback := by
  simp only [registerIsrCallback, intidToIrq_of_line isLine, asByte,
    Nat.mod_eq_of_lt (by omega : line < 256)]
  rw [if_neg (by omega), if_pos (by simp only [invalidIrqLine]; omega)]
  exact ⟨irqEnable_maskedLines _ isLine, irqEnable_isrCallbacks _ _⟩

theorem registerIsrCallback_other (state : IsrState κ) {intId : Nat} (callback : Option κ)
    (noLine : intidToIrq intId = invalidIrqLine) :
    (registerIsrCallback state intId callback).2.maskedLines = state.maskedLines ∧
      ∀ other ≠ intId, (registerIsrCallback state intId callback).2.isrCallbacks other =
        state.isrCallbacks other := by
  simp only [registerIsrCallback, noLine]
  split
  · exact ⟨rfl, fun other _ => rfl⟩
  · rw [if_neg (by simp)]
    exact ⟨rfl, fun other differs => Function.update_of_ne differs _ _⟩

/-- Unregistering the interrupt of a line unmasks that line. -/
theorem unregisterIsrCallback_line (state : IsrState κ) {line : Nat} (isLine : line < 16) :
    line ∉ (unregisterIsrCallback state (32 + line)).2.maskedLines := by
  rw [unregisterIsrCallback, (registerIsrCallback_line _ none isLine).1]
  exact fun masked => masked.2 rfl

/-- Unregistering another interrupt masks line 0. -/
theorem unregisterIsrCallback_other (state : IsrState κ) {intId : Nat}
    (noLine : intidToIrq intId = invalidIrqLine) :
    (unregisterIsrCallback state intId).2.maskedLines = insert 0 state.maskedLines ∧
      ∀ other ≠ intId, (unregisterIsrCallback state intId).2.isrCallbacks other =
        state.isrCallbacks other := by
  have register := registerIsrCallback_other (irqDisable state 0).2 none noLine
  rw [irqDisable_maskedLines _ (by decide), irqDisable_isrCallbacks] at register
  simpa [unregisterIsrCallback, noLine] using register

/-! ## The law of the lines -/

inductive IsrCall (κ : Type) where
  | register (intId : Nat) (callback : κ)
  | unregister (intId : Nat)

def IsrCall.answer (state : IsrState κ) : IsrCall κ → HResult × IsrState κ
  | .register intId callback => registerIsrCallback state intId (some callback)
  | .unregister intId => unregisterIsrCallback state intId

/-- The call is made, whatever its status. -/
def isrStep (state : IsrState κ) (call : IsrCall κ) (state' : IsrState κ) : Prop :=
  (call.answer state).2 = state'

/-- A line other than 0 and 2 is unmasked exactly when its interrupt has a handler. -/
def LinesFollow (state : IsrState κ) : Prop :=
  ∀ line < 16, line ≠ 0 → line ≠ 2 →
    (line ∉ state.maskedLines ↔ (state.isrCallbacks (irqToIntid line)).isSome)

/-- No request on an unmasked line stops the machine.  Line 2 has no requests of its own. -/
def NoUnhandledIrq (state : IsrState κ) : Prop :=
  ∀ line < 16, line ≠ 2 → line ∉ state.maskedLines →
    ∀ irr, (irqHandlerGateway state (irqToIntid line) irr).isOk

/-- What a call should do: keep both, and mask the line of an interrupt that is unregistered
and no other. -/
def CallLaw (state : IsrState κ) (call : IsrCall κ) : Prop :=
  LinesFollow (call.answer state).2 ∧ NoUnhandledIrq (call.answer state).2 ∧
    match call with
    | .register _ _ => True
    | .unregister intId => ∀ line < 16,
        line ∈ (call.answer state).2.maskedLines ↔
          line ∈ state.maskedLines ∨ irqToIntid line = intId

/-- The calls that keep the law: of those that unregister, the ones for an interrupt without a
line while line 0 is masked. -/
def UnregistersNoLine (state : IsrState κ) : IsrCall κ → Prop
  | .register _ _ => True
  | .unregister intId => intidToIrq intId = invalidIrqLine ∧ 0 ∈ state.maskedLines

/-- The lines are in order. -/
def LinesInOrder (state : IsrState κ) : Prop := LinesFollow state ∧ NoUnhandledIrq state

theorem irqHandlerGateway_ok_iff {state : IsrState κ} {intNo : Nat} :
    (∀ irr, (irqHandlerGateway state intNo irr).isOk) ↔ (state.isrCallbacks intNo).isSome := by
  simp only [irqHandlerGateway]
  constructor
  · intro answered
    have genuine := answered 0x80
    rw [if_neg (by simp)] at genuine
    cases installed : state.isrCallbacks intNo with
    | some handler => rfl
    | none => simp [installed, Except.isOk, Except.toBool] at genuine
  · intro installed irr
    split
    · rfl
    · obtain ⟨handler, isHandler⟩ := Option.isSome_iff_exists.mp installed
      simp [isHandler, Except.isOk, Except.toBool]

theorem linesInOrder_iff {state : IsrState κ} :
    LinesInOrder state ↔
      ∀ line < 16, line ≠ 2 →
        (line ∉ state.maskedLines → (state.isrCallbacks (32 + line)).isSome) ∧
        (line ≠ 0 → (state.isrCallbacks (32 + line)).isSome → line ∉ state.maskedLines) := by
  simp only [LinesInOrder, LinesFollow, NoUnhandledIrq, irqHandlerGateway_ok_iff]
  constructor
  · rintro ⟨follow, handled⟩ line isLine other
    rw [← irqToIntid_of_line isLine]
    exact ⟨handled line isLine other, fun nonzero => (follow line isLine nonzero other).mpr⟩
  · intro inOrder
    constructor
    · intro line isLine nonzero other
      rw [irqToIntid_of_line isLine]
      exact ⟨(inOrder line isLine other).1, (inOrder line isLine other).2 nonzero⟩
    · intro line isLine other
      rw [irqToIntid_of_line isLine]
      exact (inOrder line isLine other).1

theorem idtInitialize_maskedLines (state : IsrState κ) (gpf : κ) :
    (idtInitialize state gpf).maskedLines = Ico 0 16 \ {2} := by
  have all : (irqDisableAll state).2.maskedLines = Ico 0 16 := by
    ext line
    rw [IsrState.maskedLines, Bitmap.mem_bits, irqDisableAll, IsrState.masks]
    by_cases low : line / 8 = 0
    · have inside : line % 8 < 8 := by omega
      rw [if_pos low, show (0xFF#8) = BitVec.allOnes 8 from rfl, BitVec.getLsbD_allOnes]
      simp only [inside, decide_true, mem_Ico, true_iff]
      omega
    · by_cases high : line / 8 = 1
      · have inside : line % 8 < 8 := by omega
        rw [if_neg low, if_pos high, show (0xFF#8) = BitVec.allOnes 8 from rfl,
          BitVec.getLsbD_allOnes]
        simp only [inside, decide_true, mem_Ico, true_iff]
        omega
      · rw [if_neg low, if_neg high]
        simp only [BitVec.getLsbD_zero, Bool.false_eq_true, mem_Ico, false_iff]
        omega
  have enabled := irqEnable_maskedLines (irqDisableAll state).2 (by decide : 2 < 16)
  rw [all] at enabled
  rw [← enabled]
  exact (registerIsrCallback_other _ (some gpf) rfl).1

/-- `idt_initialize` leaves the lines in order: all are masked but line 2. -/
theorem linesInOrder_idtInitialize (state : IsrState κ) (gpf : κ) :
    LinesInOrder (idtInitialize state gpf) := by
  rw [linesInOrder_iff]
  intro line isLine other
  have masked : line ∈ (idtInitialize state gpf).maskedLines := by
    rw [idtInitialize_maskedLines]
    exact ⟨⟨Nat.zero_le _, isLine⟩, other⟩
  have noHandler : (idtInitialize state gpf).isrCallbacks (32 + line) = none :=
    (registerIsrCallback_other { (irqEnable (irqDisableAll state).2 2).2 with
      isrCallbacks := fun _ => none } (some gpf) rfl).2 (32 + line) (by omega)
  refine ⟨fun unmasked => absurd masked unmasked, fun _ installed => ?_⟩
  rw [noHandler] at installed
  contradiction

theorem LinesInOrder.register {state : IsrState κ} (inOrder : LinesInOrder state) (intId : Nat)
    (callback : κ) : LinesInOrder (registerIsrCallback state intId (some callback)).2 := by
  rw [linesInOrder_iff] at inOrder ⊢
  intro other isLine notCascade
  cases intId_cases intId with
  | inl line =>
    obtain ⟨line, lineInside, rfl⟩ := line
    obtain ⟨lines, callbacks⟩ := registerIsrCallback_line state (some callback) lineInside
    rw [lines, callbacks]
    by_cases same : other = line
    · subst same
      simp
    · rw [Function.update_of_ne (by omega)]
      simpa [same] using inOrder other isLine notCascade
  | inr noLine =>
    obtain ⟨lines, callbacks⟩ := registerIsrCallback_other state (some callback) noLine.1
    rw [lines, callbacks _ (noLine.2 other isLine).symm]
    exact inOrder other isLine notCascade

/-- The law holds for a call exactly when it does not unregister a line, nor mask line 0. -/
theorem callLaw_iff {state : IsrState κ} (inOrder : LinesInOrder state) (call : IsrCall κ) :
    CallLaw state call ↔ UnregistersNoLine state call := by
  cases call with
  | register intId callback =>
    have kept := inOrder.register intId callback
    exact iff_of_true ⟨kept.1, kept.2, trivial⟩ trivial
  | unregister intId =>
    cases intId_cases intId with
    | inl line =>
      -- its own line is left unmasked
      obtain ⟨line, isLine, rfl⟩ := line
      refine iff_of_false ?_ ?_
      · rintro ⟨-, -, masks⟩
        have own := (masks line isLine).mpr (.inr (irqToIntid_of_line isLine))
        exact unregisterIsrCallback_line _ isLine own
      · rintro ⟨noLine, -⟩
        rw [intidToIrq_of_line isLine, invalidIrqLine] at noLine
        omega
    | inr noLine =>
      obtain ⟨noLine, others⟩ := noLine
      obtain ⟨lines, callbacks⟩ := unregisterIsrCallback_other state noLine
      simp only [CallLaw, UnregistersNoLine, IsrCall.answer, noLine, true_and]
      constructor
      · rintro ⟨-, -, masks⟩
        have zero := (masks 0 (by decide)).mp (by rw [lines]; exact mem_insert _ _)
        cases zero with
        | inl masked => exact masked
        | inr own => exact absurd own.symm (others 0 (by decide))
      · intro zeroMasked
        rw [insert_eq_of_mem zeroMasked] at lines
        have kept : LinesInOrder (unregisterIsrCallback state intId).2 := by
          rw [linesInOrder_iff] at inOrder ⊢
          intro other isLine notCascade
          rw [lines, callbacks _ (others other isLine).symm]
          exact inOrder other isLine notCascade
        refine ⟨kept.1, kept.2, fun line isLine => ?_⟩
        rw [lines, irqToIntid_of_line isLine, or_iff_left (others line isLine).symm]

/-- From `idt_initialize` on the lines follow the handlers, and every call keeps the law,
exactly as long as no interrupt with a line is unregistered, nor one without while line 0 is
unmasked. -/
theorem irq_lines_follow_handlers (state : IsrState κ) (gpf : κ) (calls : List (IsrCall κ)) :
    LinesInOrder (idtInitialize state gpf) ∧
      (Along isrStep CallLaw (idtInitialize state gpf) calls ↔
        Along isrStep UnregistersNoLine (idtInitialize state gpf) calls) := by
  refine ⟨linesInOrder_idtInitialize state gpf, ?_⟩
  have valid : ∀ call ∈ calls, True := fun _ _ => trivial
  refine Along.iff_of_inv LinesInOrder valid (fun s call inOrder _ => callLaw_iff inOrder call) ?_
    (linesInOrder_idtInitialize state gpf)
  rintro s call t inOrder - condition rfl
  have law := (callLaw_iff inOrder call).mpr condition
  exact ⟨law.1, law.2.1⟩

/-- The keyboard and the mouse have handlers, then the mouse's is unregistered: the keyboard's
line is masked, and the mouse's stays unmasked. -/
theorem irq_lines_not_follow_handlers :
    ¬Along isrStep CallLaw (idtInitialize ⟨fun _ => none, 0#8, 0#8⟩ "gpf")
      [.register 33 "keyboard", .register 44 "mouse", .unregister 44] := by
  rintro ⟨-, later⟩
  obtain ⟨-, later⟩ := later _ rfl
  obtain ⟨⟨follow, -, -⟩, -⟩ := later _ rfl
  have keyboard := (follow 1 (by decide) (by decide) (by decide)).mpr rfl
  exact keyboard (by rw [IsrState.maskedLines, Bitmap.mem_bits]; rfl)

end Antonix
