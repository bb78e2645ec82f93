import Antonix.Drivers.Ata
import Mathlib.Data.Nat.Bitwise

/-! # The sectors that a transfer addresses

A transfer is followed through what it writes to the command block.  The registers hold the
low 28 bits of the sector, whatever the addressing mode of the device is. -/

namespace Antonix.Drivers

variable {answers : Nat → Nat → BitVec 16} {ctrl ctrl' ctrl'' : AtaController}
  {first second : List (Nat × BitVec 8)}

/-- A call writes some bytes to the command block. -/
def Programs (ctrl : AtaController) (writes : List (Nat × BitVec 8)) (ctrl' : AtaController) :
    Prop :=
  ctrl'.bus = ctrl.bus ∧ ctrl'.commandBlock = ctrl.commandBlock ++ writes

theorem Programs.refl : Programs ctrl [] ctrl := ⟨rfl, (List.append_nil _).symm⟩

theorem Programs.trans (before : Programs ctrl first ctrl') (after : Programs ctrl' second ctrl'') :
    Programs ctrl (first ++ second) ctrl'' := by
  constructor
  · rw [after.1, before.1]
  · rw [after.2, before.2, List.append_assoc]

/-- A call that writes nothing in between. -/
theorem Programs.quiet (before : Programs ctrl first ctrl') (after : Programs ctrl' [] ctrl'') :
    Programs ctrl first ctrl'' := by
  have both := before.trans after
  rwa [List.append_nil] at both

/-! ## Single registers -/

theorem commandBlock_log (write : PortWrite) :
    { ctrl with log := ctrl.log ++ [write] : AtaController }.commandBlock =
      ctrl.commandBlock ++ (ctrl.bus.toCommandBlock write).toList := by
  simp only [AtaController.commandBlock, List.filterMap_append]
  cases found : ctrl.bus.toCommandBlock write with
  | none => rw [List.filterMap_cons_none found]; rfl
  | some offset => rw [List.filterMap_cons_some found]; rfl

theorem toCommandBlock_inside (bus : AtaBus) {offset : Nat} (value : BitVec 8)
    (inside : offset < 8) :
    bus.toCommandBlock (.uchar (bus.cmdBase + offset) value) = some (offset, value) := by
  have bounds : bus.cmdBase ≤ bus.cmdBase + offset ∧
      bus.cmdBase + offset < bus.cmdBase + 8 := by omega
  rw [AtaBus.toCommandBlock, if_pos bounds, Nat.add_sub_cancel_left]

/-- A register is written at its port. -/
theorem ataPutReg_port {reg port : Nat} (value : BitVec 8)
    (found : ctrl.bus.portOf reg = some port) :
    Programs ctrl (ctrl.bus.toCommandBlock (.uchar port value)).toList
      (ataPutReg reg value ctrl) := by
  rw [ataPutReg, found]
  exact ⟨rfl, commandBlock_log _⟩

theorem ataPutReg_command {reg : Nat} (value : BitVec 8) (command : reg < 0x08) :
    Programs ctrl [(reg, value)] (ataPutReg reg value ctrl) := by
  have port : ctrl.bus.portOf reg = some (ctrl.bus.cmdBase + reg) := if_pos command
  have written := ataPutReg_port value port
  rwa [toCommandBlock_inside _ _ command] at written

theorem ataWriteReg_command {reg : Nat} (value : BitVec 8) (command : reg < 0x08) :
    Programs ctrl [(reg, value)] (ataWriteReg reg value ctrl) := by
  rw [ataWriteReg, if_neg (by omega)]
  exact ataPutReg_command value command

/-- Every status that is read says that the drive is not busy, has data and no error. -/
def Ready (answers : Nat → Nat → BitVec 16) : Prop :=
  ∀ n port, (answers n port).setWidth 8 &&& ATA_STATUS_BSY = 0 ∧
    (answers n port).setWidth 8 &&& (ATA_STATUS_ERR ||| ATA_STATUS_DF) = 0 ∧
    (answers n port).setWidth 8 &&& ATA_STATUS_DRQ ≠ 0

end Antonix.Drivers
