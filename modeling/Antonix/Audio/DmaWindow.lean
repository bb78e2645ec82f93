import Antonix.Audio.IsaDma
import Antonix.Lib.Dma8237

/-! # What an open DMA channel transfers

`isadma_open_channel` writes the low sixteen bits of the address to the controller
of either kind.  For a channel of words they count words there, so the transfer
begins at another place unless they are zero; and no request is refused because it
does not fit into a page. -/

namespace Antonix

open Dma8237

/-- The bytes written to ports, for the controllers. -/
def portWrites (writes : List PortWrite) : List (Nat × Nat) := writes.map fun w => (w.port, w.data)

theorem portWrites_append (writes rest : List PortWrite) :
    portWrites (writes ++ rest) = portWrites writes ++ portWrites rest := by
  simp [portWrites]

/-- The ports of the source are those of the controllers. -/
structure ChannelPorts (channel : Nat) : Prop where
  startAddr : register (dmaChPorts channel).startAddr = .address channel
  count : register (dmaChPorts channel).count = .count channel
  pageAddr : register (dmaChPorts channel).pageAddr = .page channel
  clearFlipFlop : register (dmaPorts (dmaCtrlId channel)).clearFlipFlop =
    .clearFlipFlop (controller channel)
  command : register (dmaPorts (dmaCtrlId channel)).command = .other
  mask : register (dmaPorts (dmaCtrlId channel)).singleChannelMask = .other
  mode : register (dmaPorts (dmaCtrlId channel)).mode = .other

theorem channelPorts {channel : Nat} (usable : channel ∈ usableChannels) :
    ChannelPorts channel := by
  simp only [usableChannels, List.mem_cons, List.not_mem_nil, or_false] at usable
  obtain rfl | rfl | rfl | rfl | rfl | rfl := usable <;> constructor <;> rfl

section

variable {channel address count tMode oMode : Nat} {autoinit : Bool} {writes : List PortWrite}
  {s : State}

theorem run_dmaWriteWord {port data : Nat} (small : data < 2 ^ 16) :
    portWrites (dmaWriteWord port data) = [(port, data % 256), (port, data / 256)] := by
  have high : data >>> 8 % 256 = data / 256 := by
    rw [Nat.shiftRight_eq_div_pow]
    omega
  have low (n : Nat) : n &&& 0xFF = n % 256 := Nat.and_two_pow_sub_one_eq_mod n 8
  simp only [portWrites, dmaWriteWord, List.map_cons, List.map_nil, low, high]

theorem run_dmaResetFlipflop (ports : ChannelPorts channel) :
    s.run (portWrites (dmaResetFlipflop (dmaCtrlId channel))) =
      { s with highNext := Function.update s.highNext (controller channel) false } := by
  simp [portWrites, dmaResetFlipflop, State.write_clearFlipFlop ports.clearFlipFlop]

/-- Writes to other registers. -/
theorem run_other {port data : Nat} (other : register port = .other) :
    s.run (portWrites [⟨port, data⟩]) = s := by
  simp [portWrites, State.write_other other]

theorem run_dmaMaskChannel (ports : ChannelPorts channel) (enabled : Bool) :
    s.run (portWrites (dmaMaskChannel channel enabled).2) = s := by
  rw [dmaMaskChannel]
  split
  · rfl
  · split
    · rfl
    · exact run_other ports.mask

theorem dmaSetChannelMode_eq_ok {reverse : Bool} {mode : List PortWrite}
    (selected : dmaSetChannelMode channel tMode oMode autoinit reverse = .ok mode) :
    oMode ≤ 2 ∧ ∃ data, mode = [⟨(dmaPorts (dmaCtrlId channel)).mode, data⟩] := by
  by_cases bound : 2 < oMode
  · exfalso
    match tMode with
    | 0 | 1 | 2 =>
      simp only [dmaSetChannelMode, if_pos bound] at selected
      cases selected
    | _ + 3 => cases selected
  · refine ⟨Nat.le_of_not_lt bound, ?_⟩
    match tMode with
    | 0 | 1 | 2 =>
      simp only [dmaSetChannelMode, if_neg bound] at selected
      exact ⟨_, (Except.ok.inj selected).symm⟩
    | _ + 3 => cases selected

/-- `isadma_open_channel`, when it returns `S_OK`. -/
theorem isadmaOpenChannel_eq_sOk
    (opened : isadmaOpenChannel channel address count tMode oMode autoinit = .ok (.sOk, writes)) :
    (count ≠ 0 ∧ (tMode = dmaTransferRead ∨ tMode = dmaTransferWrite) ∧ oMode ≤ 2) ∧
      ∃ mode, writes = dmaDisableCtrl (dmaCtrlId channel) ++ (dmaMaskChannel channel false).2 ++
        [⟨(dmaPorts (dmaCtrlId channel)).mode, mode⟩] ++
        dmaResetFlipflop (dmaCtrlId channel) ++
        dmaWriteWord (dmaChPorts channel).startAddr (address &&& 0xFFFF) ++
        dmaResetFlipflop (dmaCtrlId channel) ++
        dmaWriteWord (dmaChPorts channel).count
          (sub32 (if dmaCtrlId channel = 1 then count / 2 else count) 1 % 2 ^ 16) ++
        dmaResetFlipflop (dmaCtrlId channel) ++
        [⟨(dmaChPorts channel).pageAddr, (address >>> 16) &&& 0xFF⟩] ++
        (dmaMaskChannel channel true).2 ++ dmaEnableCtrl (dmaCtrlId channel) := by
  simp only [isadmaOpenChannel] at opened
  split at opened
  · cases opened
  · next valid =>
    split at opened
    · cases opened
    · next known =>
      split at opened
      · cases opened
      · split at opened
        · cases opened
        · next verify =>
          split at opened
          · cases opened
          · cases selected : dmaSetChannelMode channel tMode oMode autoinit false with
            | error halt =>
              rw [selected] at opened
              cases opened
            | ok mode =>
              rw [selected] at opened
              obtain ⟨bound, data, rfl⟩ := dmaSetChannelMode_eq_ok selected
              refine ⟨⟨fun zero => valid (.inr zero), ?_, bound⟩, data,
                (Prod.mk.inj (Except.ok.inj opened)).2.symm⟩
              simp only [dmaTransferRead, dmaTransferWrite, dmaTransferVerify] at known verify ⊢
              omega

/-- What the controller of the channel is programmed with. -/
theorem run_isadmaOpenChannel (usable : channel ∈ usableChannels)
    (opened : isadmaOpenChannel channel address count tMode oMode autoinit = .ok (.sOk, writes)) :
    (s.run (portWrites writes)).address channel = address % 2 ^ 16 ∧
      (s.run (portWrites writes)).count channel =
        sub32 (if dmaCtrlId channel = 1 then count / 2 else count) 1 % 2 ^ 16 ∧
      (s.run (portWrites writes)).page channel = address / 2 ^ 16 % 2 ^ 8 := by
  have ports := channelPorts usable
  obtain ⟨-, mode, rfl⟩ := isadmaOpenChannel_eq_sOk opened
  have low (n : Nat) : n &&& 0xFFFF = n % 2 ^ 16 := Nat.and_two_pow_sub_one_eq_mod n 16
  have byte (n : Nat) : n &&& 0xFF = n % 2 ^ 8 := Nat.and_two_pow_sub_one_eq_mod n 8
  have word (n : Nat) : n % 2 ^ 16 < 2 ^ 16 := Nat.mod_lt n (by decide)
  have page : portWrites [⟨(dmaChPorts channel).pageAddr, (address >>> 16) &&& 0xFF⟩] =
      [((dmaChPorts channel).pageAddr, address / 2 ^ 16 % 2 ^ 8)] := by
    rw [byte, Nat.shiftRight_eq_div_pow]
    rfl
  have command (data : Nat) (s : State) :
      s.run (portWrites [⟨(dmaPorts (dmaCtrlId channel)).command, data⟩]) = s :=
    run_other ports.command
  simp only [portWrites_append, State.run_append, dmaDisableCtrl, dmaEnableCtrl, command,
    run_dmaMaskChannel ports, run_other ports.mode, run_dmaResetFlipflop ports, low, page,
    run_dmaWriteWord (word _), State.run_address ports.startAddr, State.run_count ports.count,
    Function.update_self]
  simp only [State.run_cons, State.run_nil, State.write_page ports.pageAddr, Function.update_self,
    and_self]

/-- The request fits into one page of the channel, and a channel of words transfers whole words from
the start of the page. -/
def FitsPage (channel address count : Nat) : Prop :=
  if channel < 4 then address % 2 ^ 16 + count ≤ 2 ^ 16
  else address % 2 ^ 17 = 0 ∧ count % 2 = 0 ∧ count ≤ 2 ^ 17

/-- If the channel is opened, then the transfer that is programmed is the one that was asked for. -/
def OpensRequested (channel address count tMode oMode : Nat) (autoinit : Bool) : Prop :=
  ∀ writes, isadmaOpenChannel channel address count tMode oMode autoinit = .ok (.sOk, writes) →
    ∀ s : State, {b | b ∈ (s.run (portWrites writes)).transfer channel} =
      Set.Ico address (address + count)

/-- The transfer of an open channel is the one that was asked for exactly when it fits. -/
theorem transfer_eq_Ico_iff (usable : channel ∈ usableChannels) (below : address < 2 ^ 24)
    (word : count < 2 ^ 32)
    (opened : isadmaOpenChannel channel address count tMode oMode autoinit = .ok (.sOk, writes)) :
    {b | b ∈ (s.run (portWrites writes)).transfer channel} = Set.Ico address (address + count) ↔
      FitsPage channel address count := by
  have nonempty := Nat.pos_of_ne_zero (isadmaOpenChannel_eq_sOk opened).1.1
  obtain ⟨start, units, page⟩ : _ ∧ _ ∧ _ := run_isadmaOpenChannel (s := s) usable opened
  have inPage : address % 2 ^ 16 < 2 ^ 16 := Nat.mod_lt _ (by decide)
  have atMost (n : Nat) : n % 2 ^ 16 + 1 ≤ 2 ^ 16 := Nat.mod_lt n (by decide)
  rw [State.transfer, start, units, page, FitsPage]
  by_cases bytes : channel < 4
  · have first : dmaCtrlId channel = 0 := if_neg (by omega)
    rw [if_pos bytes, if_pos bytes, first, if_neg (by decide), sub32_of_le nonempty word,
      window_eq_Ico_iff (by decide) inPage (Nat.succ_pos _) (atMost _) nonempty]
    omega
  · have second : dmaCtrlId channel = 1 := if_pos (by omega)
    rw [if_neg bytes, if_neg bytes, second, if_pos rfl,
      window_eq_Ico_iff (by decide) inPage (Nat.succ_pos _) (atMost _) nonempty, sub32, u32]
    omega

/-- The controllers transfer what was asked for exactly when the request fits into a page of the
channel, or is refused for another reason. -/
theorem isadmaOpenChannel_requested_iff (usable : channel ∈ usableChannels)
    (below : address < 2 ^ 24) (word : count < 2 ^ 32) :
    OpensRequested channel address count tMode oMode autoinit ↔
      (count = 0 ∨ (tMode ≠ dmaTransferRead ∧ tMode ≠ dmaTransferWrite) ∨ 2 < oMode) ∨
        FitsPage channel address count := by
  by_cases refused : count = 0 ∨ (tMode ≠ dmaTransferRead ∧ tMode ≠ dmaTransferWrite) ∨ 2 < oMode
  · refine iff_of_true (fun writes opened => ?_) (.inl refused)
    obtain ⟨nonempty, transfer, operation⟩ := (isadmaOpenChannel_eq_sOk opened).1
    omega
  · have transfer : tMode = dmaTransferRead ∨ tMode = dmaTransferWrite := by omega
    obtain ⟨writes, opened⟩ := @isadmaOpenChannel_opens channel address count tMode oMode autoinit usable
      (show address ≤ 0xFFFFFF by omega) (show count ≠ 0 by omega) transfer
      (show oMode ≤ 2 by omega)
    rw [or_iff_right refused]
    constructor
    · intro requested
      let idle : State := ⟨fun _ => 0, fun _ => 0, fun _ => 0, fun _ => false⟩
      exact (transfer_eq_Ico_iff usable below word opened).mp (requested writes opened idle)
    · exact fun fits writes' opened' s => (transfer_eq_Ico_iff usable below word opened').mpr fits

/-- The whole page of 64 KB from the second one on, byte by byte. -/
theorem isadmaOpenChannel_requested_bytes :
    OpensRequested 1 0x10000 0x10000 dmaTransferRead dmaModeSingle true :=
  (isadmaOpenChannel_requested_iff (by decide) (by decide) (by decide)).mpr
    (.inr (show 0x10000 % 2 ^ 16 + 0x10000 ≤ 2 ^ 16 by decide))

/-- One word from `0x10000` on: the second page of 64 KB has no page of its own for words, and the
word at the address 0 is transferred instead. -/
theorem isadmaOpenChannel_transfers_other :
    ¬ OpensRequested 5 0x10000 2 dmaTransferRead dmaModeSingle true := by
  intro requested
  have transfer := requested _ rfl ⟨fun _ => 0, fun _ => 0, fun _ => 0, fun _ => false⟩
  have asked : (0x10000 : Nat) ∈ Set.Ico 0x10000 (0x10000 + 2) := by simp
  rw [← transfer] at asked
  revert asked
  decide

end

end Antonix
