import Antonix.Types

/-! # The ISA DMA controller (`isa_dma.c`)

A routine returns the bytes that it writes to the ports of the two controllers, in
order.  The locks keep the writes of one call together and are left out, as is
`dma_delay`. -/

namespace Antonix

/-- `WRITE_PORT_UCHAR(port, data)` -/
structure PortWrite where
  port : Nat
  data : Nat
  deriving DecidableEq, Repr

abbrev dmaTransferRead : Nat := 0x00
abbrev dmaTransferWrite : Nat := 0x01
abbrev dmaTransferVerify : Nat := 0x02
abbrev dmaModeSingle : Nat := 0x01

/-- An entry of `dma_ports`: the registers of a controller that the routines write. -/
structure DmaPorts where
  command : Nat
  singleChannelMask : Nat
  mode : Nat
  clearFlipFlop : Nat

/-- `dma_ports` -/
def dmaPorts (ctrlId : Nat) : DmaPorts :=
  if ctrlId = 0 then ⟨0x08, 0x0A, 0x0B, 0x0C⟩ else ⟨0xD0, 0xD4, 0xD6, 0xD8⟩

/-- An entry of `dma_ch_ports` -/
structure DmaChPorts where
  startAddr : Nat
  count : Nat
  pageAddr : Nat

/-- `dma_ch_ports` -/
def dmaChPorts : Nat → DmaChPorts
  | 0 => ⟨0x00, 0x01, 0x87⟩
  | 1 => ⟨0x02, 0x03, 0x83⟩
  | 2 => ⟨0x04, 0x05, 0x81⟩
  | 3 => ⟨0x06, 0x07, 0x82⟩
  | 4 => ⟨0xC0, 0xC2, 0x8F⟩
  | 5 => ⟨0xC4, 0xC6, 0x8B⟩
  | 6 => ⟨0xC8, 0xCA, 0x89⟩
  | _ => ⟨0xCC, 0xCE, 0x8A⟩

/-- `ctrl_id`, the controller that a channel belongs to. -/
def dmaCtrlId (channel : Nat) : Nat := if 3 < channel then 1 else 0

/-- `dma_write_word` -/
def dmaWriteWord (port data : Nat) : List PortWrite :=
  [⟨port, data &&& 0xFF⟩, ⟨port, (data >>> 8) &&& 0xFF⟩]

/-- `dma_disable_ctrl` -/
def dmaDisableCtrl (ctrlId : Nat) : List PortWrite := [⟨(dmaPorts ctrlId).command, 0x04⟩]

/-- `dma_enable_ctrl` -/
def dmaEnableCtrl (ctrlId : Nat) : List PortWrite := [⟨(dmaPorts ctrlId).command, 0x00⟩]

/-- `dma_mask_channel` -/
def dmaMaskChannel (chId : Nat) (enabled : Bool) : HResult × List PortWrite :=
  if chId = 0 ∨ chId = 4 then (.eFail, [])
  else if 7 < chId then (.eInvalidArg, [])
  else
    let maskFlag := if enabled then 0x00 else 0x01 <<< 2
    (.sOk, [⟨(dmaPorts (dmaCtrlId chId)).singleChannelMask, (chId &&& 0x03) ||| maskFlag⟩])

/-- `dma_set_channel_mode` -/
def dmaSetChannelMode (chId transfMode opMode : Nat) (autoinit reverse : Bool) :
    Except Halt (List PortWrite) := do
  let transferType ← match transfMode with
    | 0 => .ok 2
    | 1 => .ok 1
    | 2 => .ok 0
    | _ => .error (.panic "dma_set_channel_mode(): Invalid channel mode.")
  if 2 < opMode then .error (.panic "dma_set_channel(): invalid operation mode")
  else
    let data := (chId &&& 0x03) ||| (transferType <<< 2) ||| (autoinit.toNat <<< 4) |||
      (reverse.toNat <<< 5) ||| (opMode <<< 6)
    .ok [⟨(dmaPorts (dmaCtrlId chId)).mode, data % 256⟩]

/-- `dma_reset_flipflop` -/
def dmaResetFlipflop (ctrlId : Nat) : List PortWrite := [⟨(dmaPorts ctrlId).clearFlipFlop, 0x01⟩]

/-- `isadma_open_channel` -/
def isadmaOpenChannel (channel address count tMode oMode : Nat) (autoinit : Bool) :
    Except Halt (HResult × List PortWrite) :=
  let ctrlId := dmaCtrlId channel
  if 7 < channel ∨ count = 0 then .ok (.eInvalidArg, [])
  else if tMode ≠ dmaTransferRead ∧ tMode ≠ dmaTransferWrite ∧ tMode ≠ dmaTransferVerify then
    .ok (.eInvalidArg, [])
  else if 0xFFFFFF < address then
    .error (.panic "isadma_open_channel(): receiving buffer above 16mb boundary.")
  else if tMode = dmaTransferVerify then .ok (.eNotImpl, [])
  else if (dmaMaskChannel channel false).1.failed then
    .ok (.eFail, dmaDisableCtrl ctrlId ++ dmaEnableCtrl ctrlId)
  else do
    let mode ← dmaSetChannelMode channel tMode oMode autoinit false
    let words := if ctrlId = 1 then count / 2 else count
    .ok (.sOk,
      dmaDisableCtrl ctrlId ++ (dmaMaskChannel channel false).2 ++ mode ++
      dmaResetFlipflop ctrlId ++
      dmaWriteWord (dmaChPorts channel).startAddr (address &&& 0xFFFF) ++
      dmaResetFlipflop ctrlId ++
      dmaWriteWord (dmaChPorts channel).count (sub32 words 1 % 2 ^ 16) ++
      dmaResetFlipflop ctrlId ++
      [⟨(dmaChPorts channel).pageAddr, (address >>> 16) &&& 0xFF⟩] ++
      (dmaMaskChannel channel true).2 ++ dmaEnableCtrl ctrlId)

/-- `isadma_close_channel` -/
def isadmaCloseChannel (channel : Nat) : HResult × List PortWrite :=
  if 7 < channel then (.eInvalidArg, [])
  else if channel = 0 ∨ channel = 4 then (.eFail, [])
  else
    (.sOk, dmaDisableCtrl (dmaCtrlId channel) ++ (dmaMaskChannel channel false).2 ++
      dmaEnableCtrl (dmaCtrlId channel))

/-- The channels that can be opened. -/
abbrev usableChannels : List Nat := [1, 2, 3, 5, 6, 7]

/-- A usable channel is opened for memory below 16 MB, except that an empty request or a mode that
there is not is refused. -/
theorem isadmaOpenChannel_opens {channel address count tMode oMode : Nat} {autoinit : Bool}
    (usable : channel ∈ usableChannels) (below : address ≤ 0xFFFFFF) (nonempty : count ≠ 0)
    (transfer : tMode = dmaTransferRead ∨ tMode = dmaTransferWrite) (operation : oMode ≤ 2) :
    ∃ writes, isadmaOpenChannel channel address count tMode oMode autoinit = .ok (.sOk, writes) := by
  have inRange : ¬ 0xFFFFFF < address := by omega
  have exists_mode : ¬ 2 < oMode := by omega
  simp only [usableChannels, List.mem_cons, List.not_mem_nil, or_false] at usable
  obtain rfl | rfl | rfl | rfl | rfl | rfl := usable <;> obtain rfl | rfl := transfer <;>
    exact ⟨_, by simp [isadmaOpenChannel, nonempty, inRange, exists_mode, dmaMaskChannel,
      HResult.failed, HResult.succeeded, dmaSetChannelMode]; rfl⟩

end Antonix
