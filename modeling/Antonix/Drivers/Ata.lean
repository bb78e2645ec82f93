import Antonix.Lib.Buffer
import Antonix.Lib.TaskFile
import Antonix.Types

/-! # Sector transfers of the ATA driver (`drivers/ata.c`, `drivers/ata.h`)

A controller logs what is written to its ports, and `answers` says what the reads give: by
the number of reads so far and the port.  The locks and the event of a controller have no
part in what is written. -/

namespace Antonix.Drivers

inductive AtaOperation where
  | read
  | write
  deriving DecidableEq

inductive AtaTransferMode where
  | unknown
  | pio
  | dma
  deriving DecidableEq

inductive AtaAddressingMode where
  | lba28
  | lba48
  | chs
  deriving DecidableEq

inductive AtaDeviceType where
  | unknown
  | pata
  | sata
  | patapi
  | satapi
  deriving DecidableEq

/-- The value of an enumerator of `ATA_TRANSFER_MODE`. -/
def AtaTransferMode.value : AtaTransferMode → Nat
  | .unknown => 0
  | .pio => 1
  | .dma => 2

/-- The value of an enumerator of `ATA_ADDRESSING_MODE`. -/
def AtaAddressingMode.value : AtaAddressingMode → Nat
  | .lba28 => 1
  | .lba48 => 2
  | .chs => 3

abbrev ATA_REG_DATA : Nat := 0x0
abbrev ATA_REG_LBA_MID : Nat := 0x4
abbrev ATA_REG_LBA_HIGH : Nat := 0x5
abbrev ATA_REG_DRIVE : Nat := 0x6
abbrev ATA_REG_STATUS : Nat := 0x7
abbrev ATA_REG_COMMAND : Nat := 0x7
abbrev ATA_REG_CONTROL : Nat := 0xC
abbrev ATA_REG_ALTSTATUS : Nat := 0xC

abbrev ATA_STATUS_ERR : BitVec 8 := 1 <<< 0
abbrev ATA_STATUS_DRQ : BitVec 8 := 1 <<< 3
abbrev ATA_STATUS_DF : BitVec 8 := 1 <<< 5
abbrev ATA_STATUS_BSY : BitVec 8 := 1 <<< 7

/-- The entries of `__ata_buses`. -/
inductive AtaBus where
  | primary
  | secondary

def AtaBus.cmdBase : AtaBus → Nat
  | .primary => 0x1F0
  | .secondary => 0x170

def AtaBus.controlBase : AtaBus → Nat
  | .primary => 0x3F6
  | .secondary => 0x376

/-- `bm_base`, which `ata_setup_buses` leaves 0. -/
def AtaBus.bmBase : AtaBus → Nat
  | .primary => 0
  | .secondary => 0

/-- `WRITE_PORT_UCHAR` and `WRITE_PORT_USHORT` -/
inductive PortWrite where
  | uchar (port : Nat) (value : BitVec 8)
  | ushort (port : Nat) (value : BitVec 16)

/-- `ATA_CONTROLLER_CTX`, with the history of its ports. -/
structure AtaController where
  bus : AtaBus
  drive : BitVec 32
  nIEN : BitVec 8
  /-- How many reads there were. -/
  reads : Nat
  log : List PortWrite

/-- `ATA_DEVICE_CONTEXT` -/
structure AtaDevice where
  mode : AtaTransferMode
  adrMode : AtaAddressingMode
  driveId : BitVec 32
  type : AtaDeviceType
  /-- In sectors. -/
  size : Nat
  sectorSize : BitVec 32

/-- The port of a register. -/
def AtaBus.portOf (bus : AtaBus) (reg : Nat) : Option Nat :=
  if reg < 0x08 then some (bus.cmdBase + reg)
  else if reg < 0x0C then some (bus.cmdBase + reg - 0x06)
  else if reg < 0x0E then some (bus.controlBase + reg - 0x0A)
  else if reg < 0x16 then some (bus.bmBase + reg - 0x0E)
  else none

/-- The body of `ata_write_reg` between the writes to the control register. -/
def ataPutReg (reg : Nat) (value : BitVec 8) (ctrl : AtaController) : AtaController :=
  match ctrl.bus.portOf reg with
  | some port => { ctrl with log := ctrl.log ++ [.uchar port value] }
  | none => ctrl

/-- `ata_write_reg` -/
def ataWriteReg (reg : Nat) (value : BitVec 8) (ctrl : AtaController) : AtaController :=
  if reg ≥ 0x08 ∧ reg ≤ 0x0B then
    -- the other byte of a register of the command block, by bit 7 of the control register
    let ctrl := ataPutReg ATA_REG_CONTROL (0x80 ||| ctrl.nIEN) ctrl
    let ctrl := ataPutReg reg value ctrl
    ataPutReg ATA_REG_CONTROL ctrl.nIEN ctrl
  else ataPutReg reg value ctrl

/-- `ata_enable_interrupts` -/
def ataEnableInterrupts (enable : Bool) (ctrl : AtaController) : AtaController :=
  let newNIEN := if enable then 0x00 else 0x02
  let ctrl := { ctrl with nIEN := newNIEN }
  ataWriteReg ATA_REG_CONTROL newNIEN ctrl

section

variable (answers : Nat → Nat → BitVec 16)

/-- `READ_PORT_USHORT` -/
def readPortUshort (port : Nat) (ctrl : AtaController) : BitVec 16 × AtaController :=
  (answers ctrl.reads port, { ctrl with reads := ctrl.reads + 1 })

/-- `ata_read_reg`, for the status registers: the others are not read. -/
def ataReadReg (reg : Nat) (ctrl : AtaController) : BitVec 8 × AtaController :=
  let port := if reg < 0x08 then ctrl.bus.cmdBase + reg else ctrl.bus.controlBase + reg - 0x0A
  let (value, ctrl) := readPortUshort answers port ctrl
  (value.setWidth 8, ctrl)

/-- `ata_wait_4us` -/
def ataWait4us (ctrl : AtaController) : AtaController :=
  let ctrl := (ataReadReg answers ATA_REG_ALTSTATUS ctrl).2
  let ctrl := (ataReadReg answers ATA_REG_ALTSTATUS ctrl).2
  let ctrl := (ataReadReg answers ATA_REG_ALTSTATUS ctrl).2
  (ataReadReg answers ATA_REG_ALTSTATUS ctrl).2

/-- The loop of `ata_wait_status`, which takes 10 ms off the timeout in each turn. -/
def ataWaitLoop : Nat → AtaController → HResult × AtaController
  | 0, ctrl => (.eTimedOut, ctrl)
  | turns + 1, ctrl =>
    let (status, ctrl) := ataReadReg answers ATA_REG_STATUS ctrl
    if status &&& ATA_STATUS_BSY = 0 then (.sOk, ctrl) else ataWaitLoop turns ctrl

/-- `ata_wait_status` -/
def ataWaitStatus (timeout : Nat) (ctrl : AtaController) : HResult × AtaController :=
  let ctrl := ataWait4us answers ctrl
  let timeout := if timeout = 0 then 1 else timeout
  ataWaitLoop answers ((timeout + 9) / 10) ctrl

/-- `ata_wait_ex` -/
def ataWaitEx (timeout : Nat) (ctrl : AtaController) : HResult × AtaController :=
  let ctrl := ataWait4us answers ctrl
  let (hr, ctrl) := ataWaitStatus answers timeout ctrl
  if hr.failed then (hr, ctrl)
  else
    -- an error, or no data to transfer
    let (status, ctrl) := ataReadReg answers ATA_REG_STATUS ctrl
    if status &&& (ATA_STATUS_ERR ||| ATA_STATUS_DF) ≠ 0 ∨ status &&& ATA_STATUS_DRQ = 0 then
      (.eFail, ctrl)
    else (.sOk, ctrl)

end

/-- A write to the command block, as the offset of the register and the byte. -/
def AtaBus.toCommandBlock (bus : AtaBus) : PortWrite → Option (Nat × BitVec 8)
  | .uchar port value =>
    if bus.cmdBase ≤ port ∧ port < bus.cmdBase + 8 then some (port - bus.cmdBase, value) else none
  | .ushort _ _ => none

/-- What has been written to the registers of the command block. -/
def AtaController.commandBlock (ctrl : AtaController) : List (Nat × BitVec 8) :=
  ctrl.log.filterMap ctrl.bus.toCommandBlock

end Antonix.Drivers
