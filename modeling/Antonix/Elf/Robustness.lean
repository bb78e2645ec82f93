import Antonix.Elf.Headers

/-! # Files that are not executables

Nothing is checked between `elf_probe` and the program headers.  `elf_execute` returns
exactly when there is a block for the file and, where a process is created, every
program header is one that the loader can take. -/

namespace Antonix.Elf

open Function Set Buffer Drivers Streams Vfs Threads Transition

/-! ## Reading the file -/

section

variable {node : VfsFile} {data : List (BitVec 8)} {str : KStream} {stack : ByteMem}
  {kmalloc : Nat → Option ByteMem} {m m' : Machine} {proc t : Nat}

theorem vfsFileRead_mode {blockSize : Nat} {answer : HResult × List (BitVec 8) × Nat}
    {str' : KStream} (returned : vfsFileRead node str blockSize = .ok (answer, str')) :
    str'.mode = str.mode := by
  rw [vfsFileRead] at returned
  split at returned
  · rw [← (eq_of_returned returned).2]
  · dsimp only at returned
    generalize (if u32 (str.pos + blockSize) > u32 node.size then sub32 (u32 node.size) str.pos
      else blockSize) = effective at returned
    split at returned
    · cases returned
    · split at returned
      · rw [← (eq_of_returned returned).2]
      · split at returned
        · cases returned
        · rw [← (eq_of_returned returned).2]

/-- From 2^31 bytes on, no position can be sought. -/
theorem vfsFileSeek_large {p : Nat} (fits : node.size < 2 ^ 32) (large : 2 ^ 31 ≤ node.size)
    (small : p < 2 ^ 31) :
    vfsFileSeek node str p kstreamOriginBeginning = (.eInvalidArg, str) := by
  have negative : i32 node.size < 0 := by
    simp only [i32, Int.bmod_def]
    omega
  have target : i32 p = p := i32_of_small small
  rw [vfsFileSeek, seekTarget_beginning, target]
  exact if_pos (.inr (by omega))

/-- A file that the probe accepts has a header and a size that is positive as an `int32_t`, and
the stream stands where it stood. -/
theorem elfProbe_accepted (holds : node.Holds data) (start : str.pos = 0)
    (accepted : ∃ str', elfProbe (vfsMethods node) stack str = .ok (.sOk, str')) :
    elfProbe (vfsMethods node) stack str = .ok (.sOk, str) ∧ data.length < 2 ^ 31 ∧
      str.mode &&& fileOpenRead ≠ 0 ∧ HasElfHeader data := by
  obtain ⟨str', accepted⟩ := accepted
  have size := holds.size
  obtain ⟨⟨answer, str₁⟩, read, -⟩ := exists_of_bind accepted
  -- the seek back succeeds only in a file that is not too large
  have small : data.length < 2 ^ 31 := by
    by_contra large
    have refused : (vfsMethods node).seek str₁ ((vfsMethods node).tell str)
        kstreamOriginBeginning = (HResult.eInvalidArg.code, str₁) := by
      rw [vfsMethods_tell, vfsMethods_seek,
        vfsFileSeek_large (by rw [size]; exact holds.small) (by omega) (by omega)]
      rfl
    have differ : HResult.eInvalidArg.code ≠ (vfsMethods node).tell str := by
      rw [vfsMethods_tell, start]
      decide
    rw [elfProbe_of_read read refused, if_pos differ] at accepted
    cases (eq_of_returned accepted).1
  have within : str.pos ≤ data.length := start ▸ Nat.zero_le _
  obtain ⟨⟨data', str₂⟩, readBytes, answered⟩ := exists_of_bind read
  obtain ⟨-, rfl⟩ := eq_of_returned answered
  have back : (vfsMethods node).seek str₂ ((vfsMethods node).tell str) kstreamOriginBeginning =
      (HResult.sOk.code, str) := by
    rw [vfsMethods_tell, vfsMethods_seek, vfsFileSeek_back (by omega) (by omega),
      vfsFileRead_mode readBytes]
    rfl
  have same : HResult.sOk.code = (vfsMethods node).tell str := start.symm
  have probed := accepted
  rw [elfProbe_of_read read back, if_neg (not_not_intro same)] at probed
  obtain ⟨status, rfl⟩ := eq_of_returned probed
  have readable : str.mode &&& fileOpenRead ≠ 0 := by
    intro unreadable
    rw [kFread, vfs_read_refused unreadable] at read
    obtain ⟨rfl, -⟩ := eq_of_returned read
    cases status
  have law : ProbeLaw (vfsMethods node) stack str (data.drop str.pos) := by
    rw [probeLaw_iff (vfs_keepsToFile holds small within)]
    refine ⟨vfs_readStays holds small within, fun header => ⟨start, ?_⟩⟩
    rw [vfs_readSucceeds_iff holds small within]
    have long := header.1
    rw [List.length_drop] at long
    exact ⟨readable, long⟩
  obtain ⟨-, hr, t, probed', verdict, -⟩ := law
  obtain ⟨rfl, -⟩ := eq_of_returned (accepted.symm.trans probed')
  have header := verdict.mp rfl
  rw [start, List.drop_zero] at header
  exact ⟨accepted, small, readable, header⟩

/-- `elf_execute` over a stream that gives all its bytes. -/
theorem elfExecute_of_read {σ : Type} {methods : StreamMethods σ} {s s₁ s₂ s₃ s₄ : σ}
    {code₂ code₃ size : Nat} (probed : elfProbe methods stack s = .ok (.sOk, s₁))
    (toEnd : methods.seek s₁ 0 kstreamOriginEnd = (code₂, s₂))
    (back : methods.seek s₂ (methods.tell s₁) kstreamOriginBeginning = (code₃, s₃))
    (bytes : sub32 (methods.tell s₂) (methods.tell s₁) = size) (length : data.length = size)
    (read : methods.read s₃ size = .ok (⟨.sOk, some size, put (fun _ => none) 0 data⟩, s₄)) :
    elfExecute methods stack kmalloc m s proc t =
      match kmalloc size with
      | none => .error .stuck
      | some _ => elfLoadFromMemory m data proc t := by
  subst length
  rw [elfExecute, probed]
  simp only [bind, Except.bind, kFtell, kFseek, kFread, toEnd, back, bytes, read]
  rw [if_neg (by decide)]
  cases kmalloc data.length with
  | none => rfl
  | some block =>
    have all : ((List.range data.length).map fun i =>
        (put (fun _ => none) 0 data i).getD (block i)) = data := by
      refine List.ext_getElem (by rw [List.length_map, List.length_range]) fun i _ inside => ?_
      rw [List.getElem_map, List.getElem_range, put_inside inside, Option.getD_some]
    dsimp only
    rw [if_neg (by simp [HResult.failed, HResult.succeeded]), all]

theorem elfExecute_eq (holds : node.Holds data) (start : str.pos = 0)
    (accepted : ∃ str', elfProbe (vfsMethods node) stack str = .ok (.sOk, str')) :
    elfExecute (vfsMethods node) stack kmalloc m str proc t =
      match kmalloc data.length with
      | none => .error .stuck
      | some _ => elfLoadFromMemory m data proc t := by
  obtain ⟨probed, small, readable, header⟩ := elfProbe_accepted holds start accepted
  have size := holds.size
  have long : 52 ≤ data.length := header.1
  have length : i32 node.size = data.length := by rw [size]; exact i32_of_small small
  have toEnd : (vfsMethods node).seek str 0 kstreamOriginEnd =
      (HResult.sOk.code, { str with pos := data.length }) := by
    have target : seekTarget node.size str.pos 0 kstreamOriginEnd = some (data.length : Int) := by
      rw [seekTarget, if_neg (by decide), if_neg (by decide), if_pos rfl, length, Int.sub_zero,
        i32_of_small small]
    rw [vfsMethods_seek, vfsFileSeek, target]
    dsimp only
    rw [length, if_neg (by omega), Int.toNat_natCast]
    rfl
  have back : (vfsMethods node).seek { str with pos := data.length }
      ((vfsMethods node).tell str) kstreamOriginBeginning = (HResult.sOk.code, str) := by
    rw [vfsMethods_tell, vfsMethods_seek, vfsFileSeek_back (by omega) (by omega)]
    rfl
  have wanted : sub32 ((vfsMethods node).tell { str with pos := data.length })
      ((vfsMethods node).tell str) = data.length := by
    rw [vfsMethods_tell, vfsMethods_tell, start]
    exact sub32_of_le (Nat.zero_le _) (Nat.lt_trans small (by decide))
  have clamped := @vfsFileRead_clamped node data str data.length holds (by omega) readable
    (by omega)
  have all : min data.length (data.length - str.pos) = data.length := by omega
  rw [all, if_neg (by omega), start, List.drop_zero, List.take_length] at clamped
  have read : (vfsMethods node).read str data.length =
      .ok (⟨.sOk, some data.length, put (fun _ => none) 0 data⟩,
        { str with pos := 0 + data.length }) := by
    change (vfsFileRead node str data.length >>= _) = _
    rw [clamped]
    rfl
  exact elfExecute_of_read probed toEnd back wanted rfl read

end

/-! ## What is loaded -/

/-- A process with this pid that was not there before. -/
def NewProcess (k : KernelState) (pid : Nat) (k' : KernelState) : Prop :=
  ∃ proc, proc ∉ k.sched.processArray ∧ proc ∈ k'.sched.processArray ∧
    (k'.sched.procs proc).id = pid

/-- The loader returns an error or a new process. -/
def LoadsOrFails (k : KernelState) (outcome : Except Halt (HResult × Option Nat × Machine)) :
    Prop :=
  ∃ hr pid m', outcome = .ok (hr, pid, m') ∧
    (hr.failed = true ∨ ∃ id, pid = some id ∧ NewProcess k id m'.kernel)

/-- What comes before and after the program headers returns: it is the same for every file. -/
def CreationReturns (k : KernelState) (proc t : Nat) : Prop :=
  ∃ answer k', elfLoadBegin k proc t = .ok (answer, k') ∧
    ∀ pid found, answer = .ok (pid, found) →
      ∃ sched, Sched.elfLoadFinish k'.sched found = .ok sched

/-- Every program header of an executable is safe when its turn comes. -/
def HeadersSafe (m : Machine) (buff : List (BitVec 8)) (proc t : Nat) : Prop :=
  elfType buff = elfTypeExecutable →
    ∀ pid found k, elfLoadBegin m.kernel proc t = .ok (.ok (pid, found), k) →
      Along (HeaderLoads buff proc) (HeaderSafe buff proc) ⟨k, m.memory⟩ (elfHeaderOffsets buff)

section

variable {m : Machine} {buff : List (BitVec 8)} {proc t : Nat}

theorem elfLoadFinish_processes {sched sched' : Sched.SchedState}
    (finished : Sched.elfLoadFinish sched proc = .ok sched') :
    sched'.procs = sched.procs ∧ sched'.processArray = sched.processArray := by
  obtain ⟨next, runQueue, rfl⟩ := Sched.schedAddThreadToRunQueue_frame finished
  exact ⟨rfl, rfl⟩

/-- Past the probe, the loader halts only in the loop over the program headers. -/
theorem elfLoadFromMemory_returns_iff (long : elfHeaderSize ≤ buff.length)
    (ready : m.kernel.Ready proc t) (creates : CreationReturns m.kernel proc t) :
    LoadsOrFails m.kernel (elfLoadFromMemory m buff proc t) ↔ HeadersSafe m buff proc t := by
  obtain ⟨answer, k, begins, finishes⟩ := creates
  rw [HeadersSafe]
  by_cases executable : elfType buff = elfTypeExecutable
  · cases answer with
    | error hr =>
      refine iff_of_true ⟨hr, none, ⟨k, m.memory⟩, ?_, .inl (elfLoadBegin_error begins)⟩ fun _ => ?_
      · rw [elfLoadFromMemory_eq long, if_neg (not_not_intro executable), begins]
        rfl
      · intro pid found k' begins'
        cases (eq_of_returned (begins.symm.trans begins')).1
    | ok created =>
      obtain ⟨pid, found⟩ := created
      obtain ⟨rfl, begun⟩ := elfLoadBegin_begun ready begins
      obtain ⟨sched, finished⟩ := finishes pid found rfl
      have loading := @LoadBegun.loading m.kernel k m.memory found t pid begun ready
      have loop := @loadHeaders_returns_iff ⟨k, m.memory⟩ buff found (LittleEndian.field 28 4 buff)
        (LittleEndian.field 44 2 buff) loading
      constructor
      -- a call that returns has gone through the loop
      · rintro ⟨hr, pid', m', returned, -⟩ - pid'' found' k' begins'
        obtain ⟨answer, rfl⟩ := eq_of_returned (begins.symm.trans begins')
        rw [elfLoadFromMemory_eq long, if_neg (not_not_intro executable), begins] at returned
        obtain ⟨begun', same, returned⟩ := exists_of_bind returned
        obtain rfl := Except.ok.inj same
        obtain ⟨m₁, looped, -⟩ := exists_of_bind returned
        exact loop.mp ⟨m₁, looped⟩
      · intro safe
        obtain ⟨m₁, looped⟩ := loop.mpr (safe executable pid found k begins)
        have run := loadHeaders_iff_run.mp looped
        obtain ⟨-, same⟩ := loadHeaders_keeps loading run
        -- the loop has left the scheduler alone, so that the last enqueue is the one given
        obtain ⟨procs, array⟩ := elfLoadFinish_processes finished
        refine ⟨.sOk, some pid, ⟨{ m₁.kernel with sched }, m₁.memory⟩,
          elfLoadFromMemory_of_run long executable begins run (by rw [same]; exact finished),
          .inr ⟨pid, rfl, found, ready.newProc, ?_, ?_⟩⟩
        · change found ∈ sched.processArray
          rw [array, begun.array]
          exact List.mem_append_right _ (List.mem_singleton_self _)
        · change (sched.procs found).id = pid
          rw [procs, begun.id]
  · refine iff_of_true ⟨.eFail, none, m, ?_, .inl rfl⟩ fun isType => absurd isType executable
    rw [elfLoadFromMemory_eq long, if_pos executable]

/-- `elf_execute` returns an error or a new process if and only if there is a block for the file and
every program header is safe. -/
theorem elfExecute_returns_iff {node : VfsFile} {data : List (BitVec 8)} {str : KStream}
    {stack : ByteMem} (kmalloc : Nat → Option ByteMem) (holds : node.Holds data)
    (start : str.pos = 0)
    (accepted : ∃ str', elfProbe (vfsMethods node) stack str = .ok (.sOk, str'))
    (ready : m.kernel.Ready proc t) (creates : CreationReturns m.kernel proc t) :
    LoadsOrFails m.kernel (elfExecute (vfsMethods node) stack kmalloc m str proc t) ↔
      kmalloc data.length ≠ none ∧ HeadersSafe m data proc t := by
  obtain ⟨-, -, -, header⟩ := elfProbe_accepted holds start accepted
  rw [elfExecute_eq holds start accepted]
  cases allocated : kmalloc data.length with
  | none =>
    refine iff_of_false ?_ fun both => both.1 rfl
    rintro ⟨hr, pid, m', returned, -⟩
    cases returned
  | some block =>
    rw [and_iff_right (Option.some_ne_none _)]
    exact elfLoadFromMemory_returns_iff header.1 ready creates

end

/-! ## A file with a note -/

/-- A file of the VFS with these bytes. -/
def fileOf (data : List (BitVec 8)) : VfsFile :=
  ⟨data.length, some fun i => data.getD i 0, data.length⟩

theorem fileOf_holds {data : List (BitVec 8)} (small : data.length < 2 ^ 32) :
    (fileOf data).Holds data := by
  refine ⟨small, rfl, fun _ => ⟨_, rfl, ?_⟩⟩
  refine List.ext_getElem length_readAt fun i _ inside => ?_
  rw [getElem_readAt, Nat.zero_add, List.getD_eq_getElem?_getD, List.getElem?_eq_getElem inside,
    Option.getD_some]

/-- Slot 768 of the kernel process has the only page table. -/
theorem booted_table (p id : Nat) :
    (Machine.booted.kernel.vmm.procs p).pageDir id = .zero ∨
      (p = 1 ∧ id = 768 ∧
        (Machine.booted.kernel.vmm.procs p).pageDir id = ⟨true, true, true, 0x200⟩) := by
  simp only [Machine.booted]
  by_cases kernel : p = 1
  · by_cases slot : id = 768
    · exact .inr (by simp [kernel, slot])
    · exact .inl (by simp [kernel, slot])
  · exact .inl (by simp [kernel])

theorem booted_table_of_ne {p id : Nat}
    (nonzero : ((Machine.booted.kernel.vmm.procs p).pageDir id).pageTableAddr ≠ 0) :
    p = 1 ∧ id = 768 ∧ ((Machine.booted.kernel.vmm.procs p).pageDir id).pageTableAddr = 0x200 := by
  rcases booted_table p id with zero | ⟨kernel, slot, table⟩
  · rw [zero] at nonzero
    exact absurd rfl nonzero
  · exact ⟨kernel, slot, by rw [table]⟩

theorem booted_tables : Machine.booted.kernel.vmm.TablesApart := by
  have others : ∀ table ∈ Machine.booted.kernel.vmm.pool, table ≠ 0 ∧ table ≠ 0x200 := by decide
  have nodup : Machine.booted.kernel.vmm.pool.Nodup := by decide
  intro p
  have foreign : ∀ table ∈ Machine.booted.kernel.vmm.foreign p, p ≠ 1 ∧ table = 0x200 := by
    intro table isForeign
    obtain ⟨nonzero, other, differ, id, found⟩ := isForeign
    obtain ⟨kernel, -, address⟩ := booted_table_of_ne (found ▸ nonzero)
    exact ⟨fun same => differ (kernel.trans same.symm), found.symm.trans address⟩
  refine ⟨fun id => ?_, fun i j same nonzero => ?_, fun id nonzero isForeign => ?_, nodup,
    fun table member => ⟨(others table member).1, fun isForeign => ?_, fun id same => ?_⟩⟩
  · change ((Machine.booted.kernel.vmm.procs p).pageDir id).fPresent = true ↔
      ((Machine.booted.kernel.vmm.procs p).pageDir id).pageTableAddr ≠ 0
    rcases booted_table p id with zero | ⟨-, -, table⟩
    · rw [zero]
      decide
    · rw [table]
      decide
  · have second : ((Machine.booted.kernel.vmm.procs p).pageDir j).pageTableAddr ≠ 0 :=
      fun zero => nonzero (same.trans zero)
    exact (booted_table_of_ne nonzero).2.1.trans (booted_table_of_ne second).2.1.symm
  · exact (foreign _ isForeign).1 (booted_table_of_ne nonzero).1
  · exact (others table member).2 (foreign table isForeign).2
  · subst same
    exact (others _ member).2 (booted_table_of_ne (others _ member).1).2.2

theorem booted_ready : Machine.booted.kernel.Ready 2 48 where
  tables := booted_tables
  pids := by
    intro p member
    obtain rfl := List.mem_singleton.mp member
    decide
  newProc := by decide
  notCurrent := by decide
  newThread := by decide

theorem booted_creates : CreationReturns Machine.booted.kernel 2 48 := by
  have known : (do
      let (answer, k) ← elfLoadBegin Machine.booted.kernel 2 48
      let _ ← Sched.elfLoadFinish k.sched 2
      .ok answer.toOption : Except Halt (Option (Nat × Nat))).toOption.map id =
        some (some (101, 2)) := by
    decide +kernel
  obtain ⟨created, returned, isCreated⟩ := exists_of_known known
  obtain ⟨⟨answer, k⟩, begins, returned⟩ := exists_of_bind returned
  obtain ⟨sched, finished, returned⟩ := exists_of_bind returned
  refine ⟨answer, k, begins, fun pid found isFound => ?_⟩
  rw [← Except.ok.inj returned, isFound] at isCreated
  obtain ⟨-, rfl⟩ := Prod.mk.inj (Option.some.inj isCreated)
  exact ⟨sched, finished⟩

/-- A segment of one byte. -/
theorem elfExecute_returns_one_byte :
    LoadsOrFails Machine.booted.kernel
        (elfExecute (vfsMethods (fileOf (elfFile [⟨1, 0, 0x400000, 1, 1, 2⟩]))) (fun _ => 0)
          (fun _ => some fun _ => 0) .booted ⟨1, 0⟩ 2 48) ↔
      some (fun _ => 0 : ByteMem) ≠ none ∧
        HeadersSafe .booted (elfFile [⟨1, 0, 0x400000, 1, 1, 2⟩]) 2 48 :=
  elfExecute_returns_iff (fun _ => some fun _ => 0) (fileOf_holds (by decide)) rfl
    (exists_of_value (by decide +kernel)) booted_ready booted_creates

/-- Nothing is wrong with it but a program header of type `PT_NOTE`. -/
theorem elfExecute_note :
    HasElfHeader (elfFile [⟨4, 0, 0, 0, 0, 0⟩]) ∧
      (∃ str', elfProbe (vfsMethods (fileOf (elfFile [⟨4, 0, 0, 0, 0, 0⟩]))) (fun _ => 0) ⟨1, 0⟩ =
        .ok (.sOk, str')) ∧
      elfExecute (vfsMethods (fileOf (elfFile [⟨4, 0, 0, 0, 0, 0⟩]))) (fun _ => 0)
        (fun _ => some fun _ => 0) .booted ⟨1, 0⟩ 2 48 =
          .error (.panic "Unhandled program header type.") :=
  ⟨by decide, exists_of_value (by decide +kernel), eq_error_of_haltOf (by decide +kernel)⟩

end Antonix.Elf
