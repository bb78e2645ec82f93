import Antonix.Drivers.AtaBlocks

/-! # Sectors of a floppy disk (`drivers/floppy.c`)

`host` gives the answers of the hardware in the order in which they are asked for: the
status of a call that waits or moves the head, and the byte that it reads.  The data go
through a buffer of the driver and have no part in the addressing. -/

namespace Antonix.Drivers

/-- `FLOPPY_144_SECTORS_PER_TRACK` -/
abbrev FLOPPY_144_SECTORS_PER_TRACK : Nat := 18

/-- `FDC_DEFAULT_COMMAND_RETRIES` -/
abbrev FDC_DEFAULT_COMMAND_RETRIES : Nat := 2

abbrev CMD_WRITE : BitVec 8 := 0x45
abbrev CMD_READ : BitVec 8 := 0x46

/-- `lba_to_chs`: cylinder, head and sector. -/
def lbaToChs (lba : BitVec 32) : BitVec 8 × BitVec 8 × BitVec 8 :=
  (BitVec.ofNat 8 (lba.toNat / (2 * FLOPPY_144_SECTORS_PER_TRACK)),
    BitVec.ofNat 8 (lba.toNat % (2 * FLOPPY_144_SECTORS_PER_TRACK) / FLOPPY_144_SECTORS_PER_TRACK),
    BitVec.ofNat 8
      (lba.toNat % (2 * FLOPPY_144_SECTORS_PER_TRACK) % FLOPPY_144_SECTORS_PER_TRACK + 1))

/-- The bytes of a sector command, and the block that it is for. -/
structure FdcCommand where
  block : BitVec 32
  bytes : List (BitVec 8)
  deriving DecidableEq

structure FdcState where
  /-- How many answers there were. -/
  answered : Nat
  sent : List FdcCommand

/-- The state before the first call. -/
def FdcState.start : FdcState := ⟨0, []⟩

section

variable (host : Nat → HResult × BitVec 8)

/-- A call whose status the hardware decides. -/
def fdcCall (st : FdcState) : HResult × FdcState :=
  ((host st.answered).1, { st with answered := st.answered + 1 })

/-- `fdc_fifo_read` of the result bytes. -/
def fdcReadResult : Nat → List (BitVec 8) → FdcState → HResult × List (BitVec 8) × FdcState
  | 0, result, st => (.sOk, result, st)
  | n + 1, result, st =>
    let (hr, byte) := host st.answered
    let st := { st with answered := st.answered + 1 }
    if hr.failed then (hr, result, st) else fdcReadResult n (result ++ [byte]) st

/-- `fdc_seek`, and once more after `fdc_recalibrate`. -/
def fdcPosition (st : FdcState) : HResult × FdcState :=
  let (hr, st) := fdcCall host st
  if hr.failed then
    let (hr, st) := fdcCall host st
    if hr.failed then (hr, st) else fdcCall host st
  else (hr, st)

/-- The nine bytes of a sector command. -/
def sectorBytes (cmd driveId cylinder head sector : BitVec 8) : List (BitVec 8) :=
  [cmd, head <<< 2 ||| (driveId &&& 0x3), cylinder, head, sector, 2,
    BitVec.ofNat 8 FLOPPY_144_SECTORS_PER_TRACK, 0x1B, 0xFF]

/-- One attempt of `fdc_read_sector` or `fdc_write_sector`: the status, and whether to retry. -/
def fdcAttempt (cmd driveId : BitVec 8) (lba : BitVec 32) (st : FdcState) :
    HResult × Bool × FdcState :=
  -- `fdc_select_drive`
  let (hr, st) := fdcCall host st
  if hr.failed then (hr, false, st)
  else
    -- `fdc_set_motor_state`
    let (hr, st) := fdcCall host st
    if hr.failed then (hr, false, st)
    else
      let (cylinder, head, sector) := lbaToChs lba
      let (hr, st) := fdcPosition host st
      if hr.failed then (hr, false, st)
      else
        -- `isadma_open_channel`
        let (hr, st) := fdcCall host st
        if hr.failed then (hr, false, st)
        else
          let command := ⟨lba, sectorBytes cmd driveId cylinder head sector⟩
          let st := { st with sent := st.sent ++ [command] }
          -- `event_waitfor`
          let (hr, st) := fdcCall host st
          if hr.failed then (hr, false, st)
          else
            let (hr, result, st) := fdcReadResult host 7 [] st
            if hr.failed then (hr, false, st)
            else if result.getD 0 0 &&& 0xC0 ≠ 0 then (.eFail, true, st)
            else (hr, false, st)

/-- What `fdc_read_sector` and `fdc_write_sector` have in common. -/
def fdcSector (cmd driveId : BitVec 8) (lba : BitVec 32) : Nat → FdcState → HResult × FdcState
  | 0, st =>
    let (hr, _, st) := fdcAttempt host cmd driveId lba st
    (hr, st)
  | retryAttempts + 1, st =>
    let (hr, forceRetry, st) := fdcAttempt host cmd driveId lba st
    if forceRetry then fdcSector cmd driveId lba retryAttempts st else (hr, st)

/-- `fdc_read_sector` -/
def fdcReadSector : BitVec 8 → BitVec 32 → Nat → FdcState → HResult × FdcState :=
  fdcSector host CMD_READ

/-- `fdc_write_sector` -/
def fdcWriteSector : BitVec 8 → BitVec 32 → Nat → FdcState → HResult × FdcState :=
  fdcSector host CMD_WRITE

/-- The loop over the blocks of a request, from block `i` on. -/
def fdcBlocksLoop (sector : BitVec 32 → Nat → FdcState → HResult × FdcState) (start : Nat) :
    Nat → Nat → FdcState → HResult × FdcState
  | 0, _, st => (.sOk, st)
  | n + 1, i, st =>
    let (hr, st) := sector (BitVec.ofNat 32 (start + i)) FDC_DEFAULT_COMMAND_RETRIES st
    if hr.failed then (hr, st) else fdcBlocksLoop sector start n (i + 1) st

/-- What `fdc_read_blocks` and `fdc_write_blocks` have in common. -/
def fdcBlocks (sector : BitVec 32 → Nat → FdcState → HResult × FdcState)
    (args : IoctlStorageReadwrite) (st : FdcState) : HResult × FdcState :=
  if args.count = 0 ∨ args.buffer = 0 then (.eInvalidArg, st)
  else fdcBlocksLoop sector args.start args.count 0 st

/-- `fdc_read_blocks` -/
def fdcReadBlocks (driveId : BitVec 8) : IoctlStorageReadwrite → FdcState → HResult × FdcState :=
  fdcBlocks (fdcReadSector host driveId)

/-- `fdc_write_blocks` -/
def fdcWriteBlocks (driveId : BitVec 8) : IoctlStorageReadwrite → FdcState → HResult × FdcState :=
  fdcBlocks (fdcWriteSector host driveId)

end

/-- The cylinder, the head and the sector of a command are those of its block. -/
def FdcCommand.Denotes (command : FdcCommand) : Prop :=
  ((command.bytes.getD 2 0).toNat : Int) * 36 + (command.bytes.getD 3 0).toNat * 18 +
    (command.bytes.getD 4 0).toNat - 1 = command.block.toNat

/-- A block of a request, by its place. -/
def IoctlStorageReadwrite.block (args : IoctlStorageReadwrite) (i : Nat) : BitVec 32 :=
  BitVec.ofNat 32 (args.start + i)

/-- The command for a block. -/
def sectorCommandFor (cmd driveId : BitVec 8) (lba : BitVec 32) : FdcCommand :=
  ⟨lba, sectorBytes cmd driveId (lbaToChs lba).1 (lbaToChs lba).2.1 (lbaToChs lba).2.2⟩

variable {host : Nat → HResult × BitVec 8} {cmd driveId : BitVec 8} {lba : BitVec 32}
  {st : FdcState}

/-- The cylinder has eight bits. -/
theorem denotes_sectorCommandFor :
    (sectorCommandFor cmd driveId lba).Denotes ↔ lba.toNat < 256 * 36 := by
  have cylinder : (lbaToChs lba).1.toNat = lba.toNat / 36 % 256 := BitVec.toNat_ofNat _ _
  have head : (lbaToChs lba).2.1.toNat = lba.toNat % 36 / 18 % 256 := BitVec.toNat_ofNat _ _
  have sector : (lbaToChs lba).2.2.toNat = (lba.toNat % 36 % 18 + 1) % 256 :=
    BitVec.toNat_ofNat _ _
  change ((lbaToChs lba).1.toNat : Int) * 36 + (lbaToChs lba).2.1.toNat * 18 +
    (lbaToChs lba).2.2.toNat - 1 = lba.toNat ↔ _
  rw [cylinder, head, sector]
  omega

/-! ## The commands that are sent -/

/-- A call sends some commands, all of them for blocks of a kind. -/
def Sends (cmd driveId : BitVec 8) (blocks : BitVec 32 → Prop) (st st' : FdcState) : Prop :=
  ∃ new, st'.sent = st.sent ++ new ∧
    ∀ command ∈ new, ∃ lba, blocks lba ∧ command = sectorCommandFor cmd driveId lba

theorem Sends.quiet {blocks : BitVec 32 → Prop} {st st' : FdcState} (same : st'.sent = st.sent) :
    Sends cmd driveId blocks st st' :=
  ⟨[], by rw [same, List.append_nil], by simp⟩

theorem Sends.trans {blocks : BitVec 32 → Prop} {st st' st'' : FdcState}
    (first : Sends cmd driveId blocks st st') (second : Sends cmd driveId blocks st' st'') :
    Sends cmd driveId blocks st st'' := by
  obtain ⟨new, sent, right⟩ := first
  obtain ⟨new', sent', right'⟩ := second
  refine ⟨new ++ new', by rw [sent', sent, List.append_assoc], ?_⟩
  intro command member
  cases List.mem_append.mp member with
  | inl early => exact right command early
  | inr late => exact right' command late

theorem Sends.mono {blocks blocks' : BitVec 32 → Prop} {st st' : FdcState}
    (sends : Sends cmd driveId blocks st st') (more : ∀ lba, blocks lba → blocks' lba) :
    Sends cmd driveId blocks' st st' := by
  obtain ⟨new, sent, right⟩ := sends
  refine ⟨new, sent, ?_⟩
  intro command member
  obtain ⟨lba, kind, same⟩ := right command member
  exact ⟨lba, more lba kind, same⟩

theorem sent_fdcReadResult (n : Nat) : ∀ (result : List (BitVec 8)) (st : FdcState),
    (fdcReadResult host n result st).2.2.sent = st.sent := by
  induction n with
  | zero =>
    intro result st
    rfl
  | succ n inductionHypothesis =>
    intro result st
    rw [fdcReadResult]
    simp only
    split
    · rfl
    · exact inductionHypothesis _ _

theorem sent_fdcPosition : (fdcPosition host st).2.sent = st.sent := by
  rw [fdcPosition]
  simp only
  split
  · split
    · rfl
    · rfl
  · rfl

/-- One attempt sends at most the command for its block. -/
theorem fdcAttempt_sends :
    Sends cmd driveId (· = lba) st (fdcAttempt host cmd driveId lba st).2.2 := by
  have quiet : ∀ {st' : FdcState}, st'.sent = st.sent → Sends cmd driveId (· = lba) st st' :=
    Sends.quiet
  have positioned := @sent_fdcPosition host
    (fdcCall host (fdcCall host st).2).2
  have commanded : ∀ {st' : FdcState},
      st'.sent = st.sent ++ [sectorCommandFor cmd driveId lba] →
        Sends cmd driveId (· = lba) st st' := by
    intro st' sent
    refine ⟨[sectorCommandFor cmd driveId lba], sent, ?_⟩
    intro command member
    exact ⟨lba, rfl, List.mem_singleton.mp member⟩
  rw [fdcAttempt]
  simp only
  -- nothing is sent before the head is in place and the channel is open
  split
  · exact quiet rfl
  split
  · exact quiet rfl
  split
  · exact quiet positioned
  split
  · exact quiet positioned
  -- whatever fails from here on, the command has been sent
  have sent : ∀ {st' : FdcState}, st'.sent =
      (fdcPosition host (fdcCall host (fdcCall host st).2).2).2.sent ++
        [sectorCommandFor cmd driveId lba] → Sends cmd driveId (· = lba) st st' := by
    intro st' same
    rw [positioned] at same
    exact commanded same
  split
  · exact sent rfl
  split
  · exact sent (sent_fdcReadResult _ _ _)
  split
  · exact sent (sent_fdcReadResult _ _ _)
  · exact sent (sent_fdcReadResult _ _ _)

theorem fdcSector_sends (retryAttempts : Nat) : ∀ st,
    Sends cmd driveId (· = lba) st (fdcSector host cmd driveId lba retryAttempts st).2 := by
  induction retryAttempts with
  | zero =>
    intro st
    exact fdcAttempt_sends
  | succ retryAttempts inductionHypothesis =>
    intro st
    rw [fdcSector]
    simp only
    split
    · exact fdcAttempt_sends.trans (inductionHypothesis _)
    · exact fdcAttempt_sends

theorem fdcBlocksLoop_sends (start n : Nat) : ∀ (i : Nat) (st : FdcState),
    Sends cmd driveId (fun lba => ∃ j < n, lba = BitVec.ofNat 32 (start + (i + j))) st
      (fdcBlocksLoop (fdcSector host cmd driveId) start n i st).2 := by
  induction n with
  | zero =>
    intro i st
    exact Sends.quiet rfl
  | succ n inductionHypothesis =>
    intro i st
    have first : Sends cmd driveId
        (fun lba => ∃ j < n + 1, lba = BitVec.ofNat 32 (start + (i + j))) st
        (fdcSector host cmd driveId (BitVec.ofNat 32 (start + i)) FDC_DEFAULT_COMMAND_RETRIES
          st).2 :=
      (fdcSector_sends _ st).mono fun lba same => ⟨0, n.succ_pos, same⟩
    rw [fdcBlocksLoop]
    simp only
    split
    · exact first
    · refine first.trans ((inductionHypothesis (i + 1) _).mono ?_)
      rintro lba ⟨j, small, same⟩
      exact ⟨j + 1, Nat.succ_lt_succ small, by rw [same, Nat.add_assoc i, Nat.add_comm 1 j]⟩

/-- Every command of a request is for one of its blocks. -/
theorem fdcBlocks_sends (args : IoctlStorageReadwrite) :
    Sends cmd driveId (fun lba => ∃ i < args.count, lba = args.block i) st
      (fdcBlocks (fdcSector host cmd driveId) args st).2 := by
  rw [fdcBlocks]
  split
  · exact Sends.quiet rfl
  · refine (fdcBlocksLoop_sends args.start args.count 0 st).mono ?_
    rintro lba ⟨i, small, same⟩
    exact ⟨i, small, by rw [same, Nat.zero_add, IoctlStorageReadwrite.block]⟩

/-! ## A drive without faults -/

/-- Every call succeeds, and no result byte has an error. -/
def faultless : Nat → HResult × BitVec 8 := fun _ => (.sOk, 0)

theorem fdcSector_faultless (retryAttempts : Nat) :
    (fdcSector faultless cmd driveId lba retryAttempts st).1 = .sOk ∧
      (fdcSector faultless cmd driveId lba retryAttempts st).2.sent =
        st.sent ++ [sectorCommandFor cmd driveId lba] := by
  cases retryAttempts with
  | zero => exact ⟨rfl, rfl⟩
  | succ retryAttempts => exact ⟨rfl, rfl⟩

theorem fdcBlocksLoop_faultless (start n : Nat) : ∀ (i : Nat) (st : FdcState),
    (fdcBlocksLoop (fdcSector faultless cmd driveId) start n i st).2.sent =
      st.sent ++ (List.range' i n).map fun j =>
        sectorCommandFor cmd driveId (BitVec.ofNat 32 (start + j)) := by
  induction n with
  | zero =>
    intro i st
    exact (List.append_nil _).symm
  | succ n inductionHypothesis =>
    intro i st
    obtain ⟨returned, sent⟩ := @fdcSector_faultless cmd driveId (BitVec.ofNat 32 (start + i)) st
      FDC_DEFAULT_COMMAND_RETRIES
    rw [fdcBlocksLoop]
    simp only
    rw [returned, if_neg (by decide), inductionHypothesis, sent, List.range'_succ, List.map_cons,
      List.append_assoc, List.singleton_append]

theorem fdcBlocks_faultless {args : IoctlStorageReadwrite} (some : args.count ≠ 0)
    (given : args.buffer ≠ 0) :
    (fdcBlocks (fdcSector faultless cmd driveId) args st).2.sent =
      st.sent ++ (List.range args.count).map fun i =>
        sectorCommandFor cmd driveId (args.block i) := by
  rw [fdcBlocks, if_neg (not_or.mpr ⟨some, given⟩), fdcBlocksLoop_faultless, List.range_eq_range']
  rfl

/-! ## Whole requests -/

/-- Whatever the hardware answers, every command of a transfer has the address of its block. -/
def AddressesBlocks (transfer : (Nat → HResult × BitVec 8) → FdcState → HResult × FdcState) :
    Prop :=
  ∀ host, ∀ command ∈ (transfer host .start).2.sent, command.Denotes

/-- No block of a request is beyond the last cylinder of eight bits, or no command is sent. -/
def FdcInRange (args : IoctlStorageReadwrite) : Prop :=
  args.count = 0 ∨ args.buffer = 0 ∨
    ∀ i < args.count, (args.start + i) % 2 ^ 32 < 256 * 36

theorem denotes_block (args : IoctlStorageReadwrite) (i : Nat) :
    (sectorCommandFor cmd driveId (args.block i)).Denotes ↔
      (args.start + i) % 2 ^ 32 < 256 * 36 := by
  rw [denotes_sectorCommandFor, IoctlStorageReadwrite.block, BitVec.toNat_ofNat]

theorem addressesBlocks_iff (cmd driveId : BitVec 8) (args : IoctlStorageReadwrite) :
    AddressesBlocks (fun host => fdcBlocks (fdcSector host cmd driveId) args) ↔
      FdcInRange args := by
  constructor
  · intro right
    by_cases none : args.count = 0
    · exact .inl none
    by_cases null : args.buffer = 0
    · exact .inr (.inl null)
    refine .inr (.inr ?_)
    intro i small
    -- a drive without faults is sent the command of every block
    have sent := @fdcBlocks_faultless cmd driveId .start args none null
    have member : sectorCommandFor cmd driveId (args.block i) ∈
        (fdcBlocks (fdcSector faultless cmd driveId) args .start).2.sent := by
      rw [sent]
      exact List.mem_append_right _ (List.mem_map.mpr ⟨i, List.mem_range.mpr small, rfl⟩)
    exact (denotes_block args i).mp (right faultless _ member)
  · intro inRange host command issued
    have member : command ∈ (fdcBlocks (fdcSector host cmd driveId) args .start).2.sent := issued
    by_cases refused : args.count = 0 ∨ args.buffer = 0
    · rw [fdcBlocks, if_pos refused] at member
      cases member
    · obtain ⟨new, sent, right⟩ := @fdcBlocks_sends host cmd driveId .start args
      rw [sent] at member
      obtain ⟨lba, ⟨i, small, rfl⟩, rfl⟩ := right command member
      rcases inRange with none | null | small'
      · exact absurd (.inl none) refused
      · exact absurd (.inr null) refused
      · exact (denotes_block args i).mpr (small' i small)

/-- Every command of a read or a write of blocks has the cylinder, the head and the sector of
its block, whatever the hardware answers, exactly when the blocks of the request are below
9216 or none is asked for; in any case a command is for a block of the request. -/
theorem fdcBlocks_chs_iff (driveId : BitVec 8) (args : IoctlStorageReadwrite) :
    (AddressesBlocks (fun host => fdcReadBlocks host driveId args) ↔ FdcInRange args) ∧
    (AddressesBlocks (fun host => fdcWriteBlocks host driveId args) ↔ FdcInRange args) ∧
    ∀ host, ∀ command ∈ (fdcReadBlocks host driveId args .start).2.sent ++
        (fdcWriteBlocks host driveId args .start).2.sent,
      (∃ i < args.count, command.block = args.block i) ∧
        (command.Denotes ↔ command.block.toNat < 9216) := by
  refine ⟨addressesBlocks_iff CMD_READ driveId args, addressesBlocks_iff CMD_WRITE driveId args,
    ?_⟩
  intro host command member
  have commands : ∀ cmd, command ∈ (fdcBlocks (fdcSector host cmd driveId) args .start).2.sent →
      (∃ i < args.count, command.block = args.block i) ∧
        (command.Denotes ↔ command.block.toNat < 9216) := by
    intro cmd issued
    obtain ⟨new, sent, right⟩ := @fdcBlocks_sends host cmd driveId .start args
    rw [sent] at issued
    obtain ⟨lba, ⟨i, small, same⟩, rfl⟩ := right command issued
    exact ⟨⟨i, small, same⟩, denotes_sectorCommandFor⟩
  cases List.mem_append.mp member with
  | inl read => exact commands CMD_READ read
  | inr write => exact commands CMD_WRITE write

/-- A write of block 9216 is sent to cylinder 0, head 0 and sector 1, which is block 0. -/
theorem fdcWriteBlocks_aliases :
    (fdcWriteBlocks faultless 0 ⟨9216, 1, 0x100000⟩ .start).2.sent =
        [⟨9216, [0x45, 0, 0, 0, 1, 2, 18, 0x1B, 0xFF]⟩] ∧
      ¬ (⟨9216, [0x45, 0, 0, 0, 1, 2, 18, 0x1B, 0xFF]⟩ : FdcCommand).Denotes := by
  constructor
  · decide
  · rw [FdcCommand.Denotes]
    decide

end Antonix.Drivers
