import Mathlib.Data.Nat.Bitwise
import Antonix.Types

/-! # PCI enumeration (`pci_bus.c`)

Configuration space is a byte for every bus, device, function and offset.  A byte
is read through a packed address that names a dword, and then through the data port
at the byte within it.  The callback of a scan has a state of its own. -/

namespace Antonix.Pci

/-- `PCI_MAX_DEVICES` -/
abbrev pciMaxDevices : Nat := 32

/-- `PCI_MAX_FUNCTIONS` -/
abbrev pciMaxFunctions : Nat := 8

/-! ## Configuration space fields -/

abbrev pciVendorId : Nat := 0x00
abbrev pciDeviceId : Nat := 0x02
abbrev pciSubclass : Nat := 0x0a
abbrev pciClass : Nat := 0x0b
abbrev pciHeaderType : Nat := 0x0e
abbrev pciSecondaryBus : Nat := 0x19

/-- `PCI_CLASS_BRIDGE` -/
abbrev pciClassBridge : Nat := 0x06

/-- The subclass of a bridge to another PCI bus. -/
abbrev pciSubclassPciBridge : Nat := 0x04

/-- `PCI_CLASS_SELECTOR_ALL` and `PCI_SUBCLASS_SELECTOR_ALL` -/
abbrev pciSelectorAll : Nat := 0xFFFFFFFF

/-- `K_PCI_CONFIG_ADDRESS` -/
structure ConfigAddress where
  zeroBits : BitVec 2
  registerId : BitVec 6
  functionId : BitVec 3
  deviceId : BitVec 5
  busId : BitVec 8
  reserved : BitVec 7
  enableBit : BitVec 1
  deriving DecidableEq

/-- `MAKE_CONFIG_ADDRESS` -/
def makeConfigAddress (bus device func offset : Nat) : ConfigAddress where
  zeroBits := BitVec.ofNat 2 (offset &&& 0x2)
  registerId := BitVec.ofNat 6 (offset >>> 2)
  functionId := BitVec.ofNat 3 func
  deviceId := BitVec.ofNat 5 device
  busId := BitVec.ofNat 8 bus
  reserved := 0
  enableBit := 1

/-- Configuration space: the byte at an offset of a function. -/
abbrev ConfigSpace := BitVec 8 → BitVec 5 → BitVec 3 → Nat → BitVec 8

/-- The byte that `PCI_CONFIG_DATA + i` gives when the address port holds `addr`. -/
def ConfigSpace.port (space : ConfigSpace) (addr : ConfigAddress) (i : Nat) : BitVec 8 :=
  space addr.busId addr.deviceId addr.functionId (4 * addr.registerId.toNat + i)

/-- `pci_read_config_u8` -/
def pciReadConfigU8 (space : ConfigSpace) (addr : ConfigAddress) : Nat :=
  let offs := addr.zeroBits.toNat
  (space.port addr offs).toNat

/-- `pci_read_config_u16` -/
def pciReadConfigU16 (space : ConfigSpace) (addr : ConfigAddress) : Nat :=
  let offs := addr.zeroBits.toNat
  (space.port addr offs).toNat + 2 ^ 8 * (space.port addr (offs + 1)).toNat

/-- `pci_get_vendor_id` -/
def pciGetVendorId (space : ConfigSpace) (bus device func : Nat) : Nat :=
  pciReadConfigU16 space (makeConfigAddress bus device func pciVendorId)

/-- `pci_get_device_id` -/
def pciGetDeviceId (space : ConfigSpace) (bus device func : Nat) : Nat :=
  pciReadConfigU16 space (makeConfigAddress bus device func pciDeviceId)

/-- The arguments of one call of the callback. -/
structure Invocation where
  addr : ConfigAddress
  vendorId : Nat
  deviceId : Nat
  deriving DecidableEq

/-- `K_PCI_SCAN_PARAMS`; `σ` is what `user` points to. -/
structure ScanParams (σ : Type) where
  cb : Invocation → σ → HResult × σ
  classSelector : Nat
  subclassSelector : Nat

section scan

variable {σ : Type} (space : ConfigSpace) (params : ScanParams σ)

/-- A loop that ends with the first failure. -/
def scanEach (body : Nat → σ → Except Halt (HResult × σ)) :
    List Nat → σ → Except Halt (HResult × σ)
  | [], user => .ok (.sOk, user)
  | i :: rest, user => do
    let (hr, user) ← body i user
    if hr.failed then .ok (hr, user) else scanEach body rest user

/-- `pci_scan_function`; `scanBus` is `pci_scan_bus`. -/
def pciScanFunction (scanBus : Nat → σ → Except Halt (HResult × σ)) (busId deviceId funcId : Nat)
    (user : σ) : Except Halt (HResult × σ) := do
  let cls := pciReadConfigU8 space (makeConfigAddress busId deviceId funcId pciClass)
  let subclass := pciReadConfigU8 space (makeConfigAddress busId deviceId funcId pciSubclass)
  let casVendorId := pciGetVendorId space busId deviceId funcId
  let casDeviceId := pciGetDeviceId space busId deviceId funcId
  let (hr, user) :=
    if (params.classSelector = pciSelectorAll ∨ params.classSelector = cls) ∧
        (params.subclassSelector = pciSelectorAll ∨ params.subclassSelector = subclass) then
      params.cb ⟨makeConfigAddress busId deviceId funcId 0, casVendorId, casDeviceId⟩ user
    else (.sOk, user)
  if hr.failed then .ok (hr, user)
  else if cls = pciClassBridge ∧ subclass = pciSubclassPciBridge then
    let secondaryBus :=
      pciReadConfigU8 space (makeConfigAddress busId deviceId funcId pciSecondaryBus)
    let (hr, user) ← scanBus secondaryBus user
    if hr.failed then .ok (hr, user) else .ok (.sOk, user)
  else .ok (.sOk, user)

/-- `pci_scan_slot` -/
def pciScanSlot (scanBus : Nat → σ → Except Halt (HResult × σ)) (busId deviceId : Nat)
    (user : σ) : Except Halt (HResult × σ) :=
  if pciGetVendorId space busId deviceId 0 = 0xFFFF then .ok (.sFalse, user)
  else do
    let (hr, user) ← pciScanFunction space params scanBus busId deviceId 0 user
    if hr.failed then .ok (hr, user)
    else
      let hdrType := pciReadConfigU8 space (makeConfigAddress busId deviceId 0 pciHeaderType)
      if hdrType &&& 0x80 = 0 then .ok (.sOk, user)
      else
        scanEach (fun i user =>
          if pciGetVendorId space busId deviceId i ≠ 0xFFFF then
            pciScanFunction space params scanBus busId deviceId i user
          else .ok (.sOk, user)) (List.range' 1 (pciMaxFunctions - 1)) user

/-- `pci_scan_bus`; bridges may nest `depth` deep. -/
def pciScanBus : Nat → Nat → σ → Except Halt (HResult × σ)
  | 0, _, _ => .error .stuck
  | depth + 1, busId, user =>
    scanEach (pciScanSlot space params (pciScanBus depth) busId) (List.range pciMaxDevices) user

/-- The loop of `pci_scan` over several host controllers. -/
def scanHosts (depth : Nat) : List Nat → σ → Except Halt (HResult × σ)
  | [], user => .ok (.sOk, user)
  | i :: rest, user =>
    if pciGetVendorId space 0 0 i = 0xFFFF then .ok (.sOk, user)
    else do
      let (hr, user) ← pciScanBus space params depth i user
      if hr.failed then .ok (hr, user) else scanHosts depth rest user

/-- `pci_scan` -/
def pciScan (depth : Nat) (user : σ) : Except Halt (HResult × σ) :=
  let hdrType := pciReadConfigU8 space (makeConfigAddress 0 0 0 pciHeaderType)
  if hdrType &&& 0x80 = 0 then do
    let (hr, user) ← pciScanBus space params depth 0 user
    if hr.failed then .ok (hr, user) else .ok (.sOk, user)
  else scanHosts space params depth (List.range pciMaxFunctions) user

end scan

/-! ## What an address reads -/

section

variable (space : ConfigSpace) (bus device func offset : Nat)

/-- The byte at an offset of a function. -/
def configByte : Nat :=
  (space (BitVec.ofNat 8 bus) (BitVec.ofNat 5 device) (BitVec.ofNat 3 func) offset).toNat

/-- The last bit of an offset is lost: an odd offset reads the byte below it. -/
theorem pciReadConfigU8_eq (inside : offset < 256) :
    pciReadConfigU8 space (makeConfigAddress bus device func offset) =
      configByte space bus device func (offset - offset % 2) := by
  have dword : (BitVec.ofNat 6 (offset >>> 2)).toNat = offset / 4 := by
    rw [BitVec.toNat_ofNat, Nat.shiftRight_eq_div_pow]
    exact Nat.mod_eq_of_lt (by omega)
  have word : (BitVec.ofNat 2 (offset &&& 0x2)).toNat = 2 * (offset / 2 % 2) := by
    have two : offset &&& 2 = 2 * (offset / 2 % 2) := by
      have bit := Nat.and_two_pow offset 1
      rw [Nat.toNat_testBit, Nat.pow_one] at bit
      rw [bit, Nat.mul_comm]
    rw [BitVec.toNat_ofNat, two]
    omega
  have place : 4 * (offset / 4) + 2 * (offset / 2 % 2) = offset - offset % 2 := by omega
  simp only [pciReadConfigU8, ConfigSpace.port, makeConfigAddress, dword, word, place, configByte]

end

end Antonix.Pci
