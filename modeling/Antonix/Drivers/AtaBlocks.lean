import Antonix.Drivers.Ata
import Antonix.Lib.Tiling

/-! # Requests for blocks (`atadev_read_blocks`, `atadev_write_blocks`)

The two routines cut a request into commands of at most 256 sectors.  `answer` is the status
of a command, by the commands up to it.  The pointer of `atadev_write_blocks` is not
initialised: `stale` is what it holds. -/

namespace Antonix.Drivers

/-- `IOCTL_STORAGE_READWRITE` -/
structure IoctlStorageReadwrite where
  start : Nat
  count : Nat
  buffer : BitVec 32

/-- A call of `ata_rw_sectors` or of `atapi_read_sectors`. -/
structure BlockCommand where
  packet : Bool
  op : AtaOperation
  pos : Nat
  count : Nat
  ptr : BitVec 32
  deriving DecidableEq

/-- `ata_is_packet_interface` -/
def ataIsPacketInterface (dc : AtaDevice) : Bool := dc.type = .patapi || dc.type = .satapi

variable (answer : List BlockCommand → HResult)

/-- A command is issued: its status and the commands so far. -/
def issue (command : BlockCommand) (issued : List BlockCommand) : HResult × List BlockCommand :=
  (answer (issued ++ [command]), issued ++ [command])

/-- The loop of `atadev_read_blocks`. -/
def atadevReadLoop (dc : AtaDevice) (cnt pos : Nat) (ptr : BitVec 32)
    (issued : List BlockCommand) : HResult × List BlockCommand :=
  if cnt > 0 then
    let effectiveCnt := if cnt > 256 then 256 else cnt
    let (hr, issued) :=
      if ataIsPacketInterface dc then issue answer ⟨true, .read, pos, effectiveCnt, ptr⟩ issued
      else issue answer ⟨false, .read, pos, effectiveCnt, ptr⟩ issued
    if hr.failed then (hr, issued)
    else
      atadevReadLoop dc (cnt - effectiveCnt) (pos + effectiveCnt)
        (ptr + BitVec.ofNat 32 effectiveCnt * dc.sectorSize) issued
  else (.sOk, issued)
  termination_by cnt
  decreasing_by split <;> omega

/-- `atadev_read_blocks` -/
def atadevReadBlocks (dc : AtaDevice) (args : IoctlStorageReadwrite) :
    HResult × List BlockCommand :=
  atadevReadLoop answer dc args.count args.start args.buffer []

/-- The loop of `atadev_write_blocks`. -/
def atadevWriteLoop (dc : AtaDevice) (cnt pos : Nat) (ptr : BitVec 32)
    (issued : List BlockCommand) : HResult × List BlockCommand :=
  if cnt > 0 then
    let effectiveCnt := if cnt > 256 then 256 else cnt
    if ataIsPacketInterface dc then (.eFail, issued)
    else
      let (hr, issued) := issue answer ⟨false, .write, pos, effectiveCnt, ptr⟩ issued
      if hr.failed then (hr, issued)
      else
        atadevWriteLoop dc (cnt - effectiveCnt) (pos + effectiveCnt)
          (ptr + BitVec.ofNat 32 effectiveCnt * dc.sectorSize) issued
  else (.sOk, issued)
  termination_by cnt
  decreasing_by split <;> omega

/-- `atadev_write_blocks` -/
def atadevWriteBlocks (stale : BitVec 32) (dc : AtaDevice) (args : IoctlStorageReadwrite) :
    HResult × List BlockCommand :=
  atadevWriteLoop answer dc args.count args.start stale []

/-! ## How a request is to be split -/

/-- The commands for a request: 256 sectors each, but for the last. -/
def blockCommands (op : AtaOperation) (dc : AtaDevice) (args : IoctlStorageReadwrite) :
    List BlockCommand :=
  (List.range ((args.count + 255) / 256)).map fun i =>
    { packet := ataIsPacketInterface dc
      op := op
      pos := args.start + 256 * i
      count := min 256 (args.count - 256 * i)
      ptr := args.buffer + BitVec.ofNat 32 (256 * i) * dc.sectorSize }

/-- Issue commands in order, up to the first that fails. -/
def issueAll : List BlockCommand → List BlockCommand → HResult × List BlockCommand
  | [], issued => (.sOk, issued)
  | command :: commands, issued =>
    let (hr, issued) := issue answer command issued
    if hr.failed then (hr, issued) else issueAll commands issued

/-- What a request is to do: a write to a packet device is refused, and any other request
issues its commands. -/
def perform (op : AtaOperation) (dc : AtaDevice) (args : IoctlStorageReadwrite) :
    HResult × List BlockCommand :=
  if op = .write ∧ ataIsPacketInterface dc ∧ 0 < args.count then (.eFail, [])
  else issueAll answer (blockCommands op dc args) []

variable {op : AtaOperation} {dc : AtaDevice} {args : IoctlStorageReadwrite}

/-! ## The commands -/

theorem blockCommands_zero (start : Nat) (ptr : BitVec 32) :
    blockCommands op dc ⟨start, 0, ptr⟩ = [] := by
  simp [blockCommands]

/-- The first command, and the ones for what is left. -/
theorem blockCommands_cons (op : AtaOperation) (dc : AtaDevice) (pos : Nat) {cnt : Nat}
    (ptr : BitVec 32) (some : 0 < cnt) :
    blockCommands op dc ⟨pos, cnt, ptr⟩ =
      ⟨ataIsPacketInterface dc, op, pos, min 256 cnt, ptr⟩ ::
        blockCommands op dc ⟨pos + min 256 cnt, cnt - min 256 cnt,
          ptr + BitVec.ofNat 32 (min 256 cnt) * dc.sectorSize⟩ := by
  have turns : (cnt + 255) / 256 = (cnt - min 256 cnt + 255) / 256 + 1 := by omega
  simp only [blockCommands, turns, List.range_succ_eq_map, List.map_cons, List.map_map]
  congr 1
  · simp
  · apply List.map_congr_left
    intro i member
    -- another command follows only when this one is full
    have long : 256 < cnt := by
      have below := List.mem_range.mp member
      omega
    have full : min 256 cnt = 256 := by omega
    simp only [Function.comp_apply, full, BlockCommand.mk.injEq, true_and]
    refine ⟨by omega, by omega, ?_⟩
    have offset : 256 * i.succ = 256 + 256 * i := by omega
    rw [offset, BitVec.ofNat_add, BitVec.add_mul, BitVec.add_assoc]

theorem blockCommands_tiling (op : AtaOperation) (dc : AtaDevice) (ptr : BitVec 32) (cnt : Nat) :
    ∀ pos, Tiling BlockCommand.pos BlockCommand.count pos (blockCommands op dc ⟨pos, cnt, ptr⟩)
      (pos + cnt) := by
  induction cnt using Nat.strong_induction_on generalizing ptr with
  | _ cnt inductionHypothesis =>
    intro pos
    by_cases none : cnt = 0
    · subst none
      rw [blockCommands_zero]
      exact .nil pos
    · have some : 0 < cnt := Nat.pos_of_ne_zero none
      have rest := inductionHypothesis (cnt - min 256 cnt) (by omega)
        (ptr + BitVec.ofNat 32 (min 256 cnt) * dc.sectorSize) (pos + min 256 cnt)
      have stop : pos + min 256 cnt + (cnt - min 256 cnt) = pos + cnt := by omega
      rw [stop] at rest
      rw [blockCommands_cons op dc pos ptr some]
      exact @Tiling.cons _ BlockCommand.pos BlockCommand.count
        ⟨ataIsPacketInterface dc, op, pos, min 256 cnt, ptr⟩ _ _ rest

/-- Each command has 1 to 256 sectors and goes to the part of the buffer that is as far from its
start as its first sector from the start of the request. -/
theorem blockCommands_fields {command : BlockCommand}
    (member : command ∈ blockCommands op dc args) :
    command.op = op ∧ command.packet = ataIsPacketInterface dc ∧ 1 ≤ command.count ∧
      command.count ≤ 256 ∧ command.ptr =
        args.buffer + BitVec.ofNat 32 (command.pos - args.start) * dc.sectorSize := by
  obtain ⟨i, below, rfl⟩ := List.mem_map.mp member
  have inside := List.mem_range.mp below
  refine ⟨rfl, rfl, ?_, Nat.min_le_left _ _, ?_⟩
  · change 1 ≤ min 256 (args.count - 256 * i)
    omega
  · simp only [Nat.add_sub_cancel_left]

/-! ## The loops -/

theorem effective_eq_min (cnt : Nat) : (if cnt > 256 then 256 else cnt) = min 256 cnt := by
  split
  · omega
  · omega

theorem issue_packet (dc : AtaDevice) (op : AtaOperation) (pos cnt : Nat) (ptr : BitVec 32)
    (issued : List BlockCommand) :
    (if ataIsPacketInterface dc then issue answer ⟨true, op, pos, cnt, ptr⟩ issued
      else issue answer ⟨false, op, pos, cnt, ptr⟩ issued) =
      issue answer ⟨ataIsPacketInterface dc, op, pos, cnt, ptr⟩ issued := by
  cases ataIsPacketInterface dc with
  | true => rfl
  | false => rfl

theorem atadevReadLoop_eq (dc : AtaDevice) (cnt : Nat) :
    ∀ (pos : Nat) (ptr : BitVec 32) (issued : List BlockCommand),
      atadevReadLoop answer dc cnt pos ptr issued =
        issueAll answer (blockCommands .read dc ⟨pos, cnt, ptr⟩) issued := by
  induction cnt using Nat.strong_induction_on with
  | _ cnt inductionHypothesis =>
    intro pos ptr issued
    rw [atadevReadLoop]
    by_cases some : cnt > 0
    · rw [if_pos some, blockCommands_cons .read dc pos ptr some]
      simp only [effective_eq_min, issue_packet, issueAll]
      split
      · rfl
      · exact inductionHypothesis _ (by omega) _ _ _
    · have none : cnt = 0 := by omega
      rw [if_neg some, none, blockCommands_zero]
      rfl

theorem atadevWriteLoop_eq {dc : AtaDevice} (disk : ataIsPacketInterface dc = false) (cnt : Nat) :
    ∀ (pos : Nat) (ptr : BitVec 32) (issued : List BlockCommand),
      atadevWriteLoop answer dc cnt pos ptr issued =
        issueAll answer (blockCommands .write dc ⟨pos, cnt, ptr⟩) issued := by
  induction cnt using Nat.strong_induction_on with
  | _ cnt inductionHypothesis =>
    intro pos ptr issued
    rw [atadevWriteLoop]
    by_cases some : cnt > 0
    · rw [if_pos some, blockCommands_cons .write dc pos ptr some]
      simp only [effective_eq_min, disk, issueAll]
      rw [if_neg (by decide)]
      split
      · rfl
      · exact inductionHypothesis _ (by omega) _ _ _
    · have none : cnt = 0 := by omega
      rw [if_neg some, none, blockCommands_zero]
      rfl

theorem atadevReadBlocks_eq (dc : AtaDevice) (args : IoctlStorageReadwrite) :
    atadevReadBlocks answer dc args = perform answer .read dc args := by
  rw [perform, if_neg (by rintro ⟨write, -⟩; cases write)]
  exact atadevReadLoop_eq answer dc args.count args.start args.buffer []

/-- A write goes from wherever the pointer points to. -/
theorem atadevWriteBlocks_eq (stale : BitVec 32) (dc : AtaDevice) (args : IoctlStorageReadwrite) :
    atadevWriteBlocks answer stale dc args =
      perform answer .write dc { args with buffer := stale } := by
  rw [perform, atadevWriteBlocks]
  cases packet : ataIsPacketInterface dc with
  | true =>
    rw [atadevWriteLoop]
    by_cases some : args.count > 0
    · rw [if_pos some, packet]
      exact (if_pos ⟨rfl, rfl, some⟩).symm
    · have none : args.count = 0 := by omega
      rw [if_neg some, if_neg fun all => some all.2.2, none, blockCommands_zero]
      rfl
  | false =>
    rw [if_neg (by rintro ⟨-, packet, -⟩; cases packet)]
    exact atadevWriteLoop_eq answer packet args.count args.start stale []

theorem issueAll_cons (command : BlockCommand) (commands issued : List BlockCommand) :
    issueAll answer (command :: commands) issued =
      if (answer (issued ++ [command])).failed then
        (answer (issued ++ [command]), issued ++ [command])
      else issueAll answer commands (issued ++ [command]) := rfl

theorem issueAll_keeps (commands : List BlockCommand) :
    ∀ issued, ∃ later, (issueAll answer commands issued).2 = issued ++ later := by
  induction commands with
  | nil =>
    intro issued
    exact ⟨[], (List.append_nil issued).symm⟩
  | cons command commands inductionHypothesis =>
    intro issued
    rw [issueAll_cons]
    by_cases failed : (answer (issued ++ [command])).failed = true
    · rw [if_pos failed]
      exact ⟨[command], rfl⟩
    · rw [if_neg failed]
      obtain ⟨later, rest⟩ := inductionHypothesis (issued ++ [command])
      exact ⟨command :: later, by rw [rest, List.append_assoc, List.singleton_append]⟩

/-- The first command is always issued. -/
theorem head_issueAll (command : BlockCommand) (commands : List BlockCommand) :
    (issueAll answer (command :: commands) []).2.head? = some command := by
  rw [issueAll_cons, List.nil_append]
  by_cases failed : (answer [command]).failed = true
  · rw [if_pos failed]
    rfl
  · obtain ⟨later, rest⟩ := issueAll_keeps answer commands [command]
    rw [if_neg failed, rest]
    rfl

theorem perform_zero (op : AtaOperation) (dc : AtaDevice) (start : Nat) (buffer : BitVec 32) :
    perform answer op dc ⟨start, 0, buffer⟩ = (.sOk, []) := by
  rw [perform, if_neg fun all => Nat.lt_irrefl 0 all.2.2, blockCommands_zero]
  rfl

/-- A write is right when there is nothing to do, when it is refused, and when the pointer happens
to be the one of the request. -/
theorem atadevWriteBlocks_iff (stale : BitVec 32) (dc : AtaDevice) (args : IoctlStorageReadwrite) :
    atadevWriteBlocks answer stale dc args = perform answer .write dc args ↔
      args.count = 0 ∨ ataIsPacketInterface dc ∨ stale = args.buffer := by
  rw [atadevWriteBlocks_eq]
  constructor
  · intro same
    by_contra wrong
    obtain ⟨some, rest⟩ := not_or.mp wrong
    obtain ⟨disk, other⟩ := not_or.mp rest
    have positive : 0 < args.count := Nat.pos_of_ne_zero some
    -- the first command is issued whatever is answered, and it shows the pointer
    rw [perform, perform, if_neg fun all => disk all.2.1, if_neg fun all => disk all.2.1,
      blockCommands_cons .write dc args.start stale positive] at same
    have heads := congrArg (fun result => result.2.head?) same
    have first : blockCommands .write dc args = _ :: _ :=
      blockCommands_cons .write dc args.start args.buffer positive
    simp only [first, head_issueAll] at heads
    exact other (congrArg BlockCommand.ptr (Option.some.inj heads))
  · have refused (args : IoctlStorageReadwrite) (packet : ataIsPacketInterface dc = true)
        (some : 0 < args.count) : perform answer .write dc args = (.eFail, []) :=
      if_pos ⟨rfl, packet, some⟩
    obtain ⟨start, count, buffer⟩ := args
    rintro (none | packet | same)
    · simp only at none
      rw [none, perform_zero, perform_zero]
    · cases count with
      | zero => rw [perform_zero, perform_zero]
      | succ count => rw [refused _ packet count.succ_pos, refused _ packet count.succ_pos]
    · rw [same]

/-- A request is cut into commands of 1 to 256 sectors that cover it in order, each with its part
of the buffer.  A read issues them up to the first that fails, for every request.  A write does
so exactly when the request is empty, the write is refused, or the pointer that is not
initialised holds the buffer of the request. -/
theorem atadevBlocks_split_iff (answer : List BlockCommand → HResult) (stale : BitVec 32)
    (dc : AtaDevice) (args : IoctlStorageReadwrite) :
    (∀ op, Tiling BlockCommand.pos BlockCommand.count args.start (blockCommands op dc args)
        (args.start + args.count) ∧
      ∀ command ∈ blockCommands op dc args, command.op = op ∧
        command.packet = ataIsPacketInterface dc ∧ 1 ≤ command.count ∧ command.count ≤ 256 ∧
        command.ptr = args.buffer + BitVec.ofNat 32 (command.pos - args.start) * dc.sectorSize) ∧
    atadevReadBlocks answer dc args = perform answer .read dc args ∧
    (atadevWriteBlocks answer stale dc args = perform answer .write dc args ↔
      args.count = 0 ∨ ataIsPacketInterface dc ∨ stale = args.buffer) := by
  refine ⟨?_, atadevReadBlocks_eq answer dc args, atadevWriteBlocks_iff answer stale dc args⟩
  intro op
  exact ⟨blockCommands_tiling op dc args.buffer args.count args.start,
    fun command member => blockCommands_fields member⟩

/-- One sector at 0x100000 is to be written, and the pointer holds 0: the sector is written from
address 0. -/
theorem atadevWriteBlocks_stale :
    (atadevWriteBlocks (fun _ => .sOk) 0 ⟨.pio, .lba28, 0, .pata, 100, 512⟩
        ⟨7, 1, 0x100000⟩).2 = [⟨false, .write, 7, 1, 0⟩] ∧
      (perform (fun _ => .sOk) .write ⟨.pio, .lba28, 0, .pata, 100, 512⟩
        ⟨7, 1, 0x100000⟩).2 = [⟨false, .write, 7, 1, 0x100000⟩] := by
  constructor
  · rw [atadevWriteBlocks_eq]
    decide
  · decide

end Antonix.Drivers
