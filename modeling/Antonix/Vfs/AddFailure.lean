import Antonix.Vfs.Mkdir

/-! # Adding a node that cannot be added

`vfsnode_add_child` sets its out pointer on success only, and its callers write to the
node behind it before they return the status.  A name that is taken is found out by
`vfsnode_add_child` alone; a parent that does not resolve is found out before it. -/

namespace Antonix.Vfs

open NameTree

/-! ## Directory and name of a path -/

/-- What `url_get_dirname` copies. -/
def dirnameOf (path : List Char) : List Char :=
  match lastDelimiter path with
  | none => ['.']
  | some 0 => [delimiter]
  | some len => path.take len

/-- What `url_get_basename` copies. -/
def basenameOf (path : List Char) : List Char :=
  match lastDelimiter path with
  | none => path
  | some i => path.drop (i + 1)

section

variable {path front base : List Char}

theorem urlGetDirname_eq (capacity : Nat) (path : List Char) :
    urlGetDirname capacity path = strcpy capacity (dirnameOf path) := by
  rw [urlGetDirname, dirnameOf]
  cases lastDelimiter path with
  | none => rfl
  | some len => cases len <;> rfl

theorem urlGetBasename_eq (capacity : Nat) (path : List Char) :
    urlGetBasename capacity path = strcpy capacity (basenameOf path) := by
  rw [urlGetBasename, basenameOf]
  cases lastDelimiter path <;> rfl

theorem dirnameOf_append (last : delimiter ∉ base) :
    dirnameOf (front ++ delimiter :: base) = if front = [] then [delimiter] else front := by
  have whole := @urlGetDirname_append front base
    ((dirnameOf (front ++ delimiter :: base)).length + 1) last
  rw [urlGetDirname_eq, strcpy_of_lt (Nat.lt_succ_self _)] at whole
  exact (eq_of_strcpy whole.symm).1

theorem basenameOf_append (last : delimiter ∉ base) :
    basenameOf (front ++ delimiter :: base) = base := by
  have whole := @urlGetBasename_append front base
    ((basenameOf (front ++ delimiter :: base)).length + 1) last
  rw [urlGetBasename_eq, strcpy_of_lt (Nat.lt_succ_self _)] at whole
  exact (eq_of_strcpy whole.symm).1

end

/-! ## The law -/

/-- The directory of the path does not resolve. -/
def ParentMissing (s : VfsState) (path : List Char) : Prop :=
  ¬ ∃ found, vfsParseUrl s (dirnameOf path) none none = .ok (.ok found)

/-- The directory of the path resolves to a node that has a child of that name. -/
def NameTaken (s : VfsState) (path : List Char) : Prop :=
  ∃ found c, vfsParseUrl s (dirnameOf path) none none = .ok (.ok found) ∧
    s.child found.node (basenameOf path) = some c

/-- No node can be added at the path. -/
def CannotAdd (s : VfsState) (path : List Char) : Prop := NameTaken s path ∨ ParentMissing s path

/-- The call returns a failure code and has written to no node. -/
def FailsCleanly (s : VfsState) (outcome : Except Halt (HResult × VfsState)) : Prop :=
  ∃ hr, hr.failed = true ∧ outcome = .ok (hr, s)

/-- The search for the path meets a component that is too long for `comp_name`. -/
def MeetsOverlong (s : VfsState) (path : List Char) : Prop :=
  ∃ rest front x more p, path = delimiter :: rest ∧ rest ≠ [] ∧
    components path = front ++ x :: more ∧ Leads s s.root front p ∧ ¬ x.length < nodeNameSize

/-- `//name`, where `name` is a child of the root. -/
def DoubleTaken (s : VfsState) (path : List Char) : Prop :=
  ∃ name c, path = delimiter :: delimiter :: name ∧ delimiter ∉ name ∧
    s.child s.root name = some c

/-- The search for the path ends with a name that is missing: the call gets to where it adds
a node. -/
def NotFound (s : VfsState) (path : List Char) : Prop :=
  vfsParseUrl s path none none = .ok (.error .eNotFound)

/-- Directory and name fit in `dir_name` and `file_name`. -/
def FitsNames (path : List Char) : Prop :=
  (dirnameOf path).length < vfsMaxDirnameLength ∧ (basenameOf path).length < vfsMaxDirnameLength

section

variable {s : VfsState} {p c n : Nat} {path name front base : List Char} {type : Nat}
  {alloc : ChildAlloc} {fill : VfsNode → VfsNode} {xs ys passed passed' : List (List Char)}

/-! ## What is undefined -/

theorem not_failsCleanly_stuck : ¬ FailsCleanly s (.error .stuck) := by
  intro clean
  obtain ⟨hr, -, returned⟩ := clean
  cases returned

/-- Where the name is taken, the caller writes through a pointer that was not set. -/
theorem addFilled_taken (taken : s.child p name = some c) :
    addFilled s p name type alloc fill = .error .stuck := by
  obtain ⟨id, finds, -⟩ := findChild_some taken
  simp only [addFilled, vfsnodeAddChild, finds, bind, Except.bind]

theorem strcpy_cases (capacity : Nat) (src : List Char) :
    src.length < capacity ∧ strcpy capacity src = .ok src ∨
      ¬ src.length < capacity ∧ strcpy capacity src = .error .stuck := by
  by_cases fits : src.length < capacity
  · exact .inl ⟨fits, if_pos fits⟩
  · exact .inr ⟨fits, if_neg fits⟩

/-- A search is undefined exactly when it meets a component that is too long. -/
theorem parse_stuck_iff :
    parseComponents s none none n passed xs = .error .stuck ↔
      ∃ front x more p, xs = front ++ x :: more ∧ Leads s n front p ∧
        ¬ x.length < nodeNameSize := by
  constructor
  · intro stuck
    induction xs generalizing n passed with
    | nil => cases stuck
    | cons x xs inductionHypothesis =>
      cases meets s n x with
      | overlong overlong => exact ⟨[], x, xs, n, rfl, .nil n, overlong⟩
      | missing fits missing =>
        rw [parse_missing fits missing] at stuck
        cases stuck
      | mountpoint c fits next mountpoint =>
        rw [parse_mountpoint fits next mountpoint] at stuck
        cases stuck
      | inner c fits next inner =>
        rw [parse_inner fits next inner] at stuck
        obtain ⟨front, y, more, p, split, leads, overlong⟩ := inductionHypothesis stuck
        exact ⟨x :: front, y, more, p, by rw [split]; rfl, .cons fits next inner leads, overlong⟩
  · intro meets
    obtain ⟨front, x, more, p, rfl, leads, overlong⟩ := meets
    rw [leads.parse_append, parse_overlong overlong]

theorem parse_defined (s : VfsState) (n : Nat) (passed xs : List (List Char)) :
    parseComponents s none none n passed xs = .error .stuck ∨
      ∃ outcome, parseComponents s none none n passed xs = .ok outcome := by
  induction xs generalizing n passed with
  | nil => exact .inr ⟨_, rfl⟩
  | cons x xs inductionHypothesis =>
    cases meets s n x with
    | overlong overlong => exact .inl (parse_overlong overlong)
    | missing fits missing => exact .inr ⟨_, parse_missing fits missing⟩
    | mountpoint c fits next mountpoint => exact .inr ⟨_, parse_mountpoint fits next mountpoint⟩
    | inner c fits next inner =>
      rw [parse_inner fits next inner]
      exact inductionHypothesis c _

/-- A path that does not resolve is undefined or refused. -/
theorem parseUrl_unresolved (unresolved : ¬ ∃ found, vfsParseUrl s path none none = .ok (.ok found)) :
    MeetsOverlong s path ∧ vfsParseUrl s path none none = .error .stuck ∨
      ¬ MeetsOverlong s path ∧
        ∃ hr, hr.failed = true ∧ vfsParseUrl s path none none = .ok (.error hr) := by
  cases pathKind path with
  | root isRoot => exact absurd ⟨_, parseUrl_root isRoot⟩ unresolved
  | relative notDelimiter =>
    refine .inr ⟨fun overlong => ?_, .eInvalidArg, rfl, parseUrl_relative notDelimiter⟩
    obtain ⟨rest, front, x, more, p, path, -⟩ := overlong
    exact notDelimiter (List.cons.inj path).1
  | @absolute rest nonempty =>
    rw [parseUrl_absolute nonempty] at unresolved ⊢
    have overlong_iff : MeetsOverlong s (delimiter :: rest) ↔
        parseComponents s none none s.root [] (components (delimiter :: rest)) = .error .stuck := by
      rw [parse_stuck_iff]
      constructor
      · intro overlong
        obtain ⟨-, front, x, more, p, -, -, there⟩ := overlong
        exact ⟨front, x, more, p, there⟩
      · intro overlong
        obtain ⟨front, x, more, p, there⟩ := overlong
        exact ⟨rest, front, x, more, p, rfl, nonempty, there⟩
    cases parse_defined s s.root [] (components (delimiter :: rest)) with
    | inl stuck => exact .inl ⟨overlong_iff.mpr stuck, stuck⟩
    | inr returns =>
      obtain ⟨outcome, parsed⟩ := returns
      have short : ¬ MeetsOverlong s (delimiter :: rest) := by
        rw [overlong_iff, parsed]
        intro stuck
        cases stuck
      cases outcome with
      | ok found => exact absurd ⟨found, parsed⟩ unresolved
      | error hr => exact .inr ⟨short, hr, by rw [(parse_error parsed).1]; rfl, parsed⟩

/-- Two ways to be unable, of which one is always wrong. -/
theorem cannotAdd_law_iff {outcome : Except Halt (HResult × VfsState)} {good : Prop}
    (taken : NameTaken s path → outcome = .error .stuck)
    (missing : ParentMissing s path → (FailsCleanly s outcome ↔ good)) :
    (CannotAdd s path → FailsCleanly s outcome) ↔
      ¬ NameTaken s path ∧ (ParentMissing s path → good) := by
  constructor
  · intro law
    refine ⟨fun isTaken => ?_, fun isMissing => (missing isMissing).mp (law (.inr isMissing))⟩
    have clean := law (.inl isTaken)
    rw [taken isTaken] at clean
    exact not_failsCleanly_stuck clean
  · intro condition cannot
    cases cannot with
    | inl isTaken => exact absurd isTaken condition.1
    | inr isMissing => exact (missing isMissing).mpr (condition.2 isMissing)

/-! ## `vfs_mkdir` -/

theorem vfsMkdir_taken (mode : Nat) (taken : NameTaken s path) :
    vfsMkdir s path mode alloc = .error .stuck := by
  obtain ⟨found, c, parsed, child⟩ := taken
  rw [vfsMkdir, urlGetDirname_eq, urlGetBasename_eq]
  rcases strcpy_cases extPathSize (dirnameOf path) with ⟨-, copied⟩ | ⟨-, copied⟩
  · rcases strcpy_cases extPathSize (basenameOf path) with ⟨-, named⟩ | ⟨-, named⟩
    · simp only [copied, parsed, named, addFilled_taken child, bind, Except.bind]
    · simp only [copied, parsed, named, bind, Except.bind]
  · simp only [copied, bind, Except.bind]

theorem vfsMkdir_missing (mode : Nat) (missing : ParentMissing s path) :
    FailsCleanly s (vfsMkdir s path mode alloc) ↔
      (dirnameOf path).length < extPathSize ∧ ¬ MeetsOverlong s (dirnameOf path) := by
  rw [vfsMkdir, urlGetDirname_eq]
  rcases strcpy_cases extPathSize (dirnameOf path) with ⟨fits, copied⟩ | ⟨overflows, copied⟩
  · rw [and_iff_right fits]
    rcases parseUrl_unresolved missing with ⟨overlong, stuck⟩ | ⟨short, hr, failed, refused⟩
    · simp only [copied, stuck, bind, Except.bind]
      exact iff_of_false not_failsCleanly_stuck (not_not_intro overlong)
    · simp only [copied, refused, bind, Except.bind]
      exact iff_of_true ⟨hr, failed, rfl⟩ short
  · simp only [copied, bind, Except.bind]
    exact iff_of_false not_failsCleanly_stuck (fun both => overflows both.1)

/-! ## The callers that look for a place -/

/-- A name that is taken although the path was not found: only `//name` does that. -/
theorem nameTaken_iff (missing : NotFound s path) : NameTaken s path ↔ DoubleTaken s path := by
  obtain ⟨front, base, rfl, last⟩ : ∃ front base, path = front ++ delimiter :: base ∧
      delimiter ∉ base := by
    obtain ⟨rest, rfl⟩ := absolute_of_missing missing
    exact exists_last_delimiter List.mem_cons_self
  constructor
  · intro taken
    obtain ⟨found, c, parsed, child⟩ := taken
    rw [basenameOf_append last] at child
    by_cases double : front = [delimiter]
    · subst double
      rw [dirnameOf_append last, if_neg (List.cons_ne_nil _ _), parseUrl_root (.inr rfl)] at parsed
      obtain rfl := Except.ok.inj (Except.ok.inj parsed)
      exact ⟨base, c, rfl, last, child⟩
    · -- then the path itself would have been found
      have absolute := absolute_of_missing missing
      have copied := strcpy_of_lt (Nat.lt_succ_self (dirnameOf (front ++ delimiter :: base)).length)
      rw [← urlGetDirname_eq] at copied
      have leads := leads_of_dirname last absolute double (plain_of_missing missing) copied parsed
      obtain ⟨rest, path⟩ := absolute
      have nonempty : rest ≠ [] := by
        rintro rfl
        rw [NotFound, path, parseUrl_root (.inr rfl)] at missing
        cases missing
      have split : components (delimiter :: rest) = components front ++ [base] := by
        rw [← path, components_append last]
      rw [NotFound, path, parseUrl_absolute nonempty, split, leads.parse_append] at missing
      cases meets s found.node base with
      | overlong overlong =>
        rw [parse_overlong overlong] at missing
        cases missing
      | missing fits free =>
        rw [free] at child
        cases child
      | mountpoint m fits next mountpoint =>
        rw [parse_mountpoint fits next mountpoint] at missing
        cases missing
      | inner m fits next inner =>
        rw [parse_inner fits next inner] at missing
        cases missing
  · intro double
    obtain ⟨name, c, path, clean, child⟩ := double
    have whole : front ++ delimiter :: base = [delimiter] ++ delimiter :: name := path
    refine ⟨⟨s.root, false, [], []⟩, c, ?_, ?_⟩
    · rw [whole, dirnameOf_append clean, if_neg (List.cons_ne_nil _ _)]
      exact parseUrl_root (.inr rfl)
    · rw [whole, basenameOf_append clean]
      exact child

/-- The directory of a path that was not found can be searched for. -/
theorem dirname_short (missing : NotFound s path) : ¬ MeetsOverlong s (dirnameOf path) := by
  intro overlong
  obtain ⟨rest, front, x, more, p, dir, nonempty, split, leads, overlong⟩ := overlong
  obtain ⟨before, base, rfl, last⟩ : ∃ before base, path = before ++ delimiter :: base ∧
      delimiter ∉ base := by
    obtain ⟨rest, rfl⟩ := absolute_of_missing missing
    exact exists_last_delimiter List.mem_cons_self
  rw [dirnameOf_append last] at dir split
  by_cases empty : before = []
  · rw [if_pos empty] at dir
    exact nonempty (List.cons.inj dir).2.symm
  · rw [if_neg empty] at dir split
    -- the search for the whole path meets the same component
    have longer : rest ++ delimiter :: base ≠ [] := by simp
    have whole : components (delimiter :: (rest ++ delimiter :: base)) =
        front ++ x :: (more ++ [base]) := by
      rw [← List.cons_append, ← dir, components_append last, split, List.append_assoc]
      rfl
    rw [NotFound, dir, List.cons_append, parseUrl_absolute longer,
      parse_stuck_iff.mpr ⟨front, x, _, p, whole, leads, overlong⟩] at missing
    cases missing

theorem findPlace_of_notFound (missing : NotFound s path) :
    findPlace s path = (do
      let dirName ← strcpy vfsMaxDirnameLength (dirnameOf path)
      let fileName ← strcpy vfsMaxDirnameLength (basenameOf path)
      match ← vfsParseUrl s dirName none none with
      | .error hr => .ok (.noParent hr)
      | .ok parent => .ok (.free parent.node fileName)) := by
  have anyBuffers : vfsParseUrl s path none (some extPathSize) = .ok (.error .eNotFound) := by
    rw [parseUrl_buffers (plain_of_missing missing), missing]
  rw [findPlace, anyBuffers, ← urlGetDirname_eq, ← urlGetBasename_eq]
  rfl

/-- The step behind the search, with what the caller does at each place. -/
theorem addStep_law_iff {next : Place → Except Halt (HResult × VfsState)}
    (noParent : ∀ hr, next (.noParent hr) = .ok (hr, s))
    (taken : ∀ p name c, s.child p name = some c → next (.free p name) = .error .stuck) :
    (NotFound s path → CannotAdd s path → FailsCleanly s (findPlace s path >>= next)) ↔
      (NotFound s path → ¬ DoubleTaken s path ∧ (ParentMissing s path → FitsNames path)) := by
  apply forall_congr'
  intro missing
  rw [← nameTaken_iff missing, findPlace_of_notFound missing]
  apply cannotAdd_law_iff
  · intro isTaken
    obtain ⟨found, c, parsed, child⟩ := isTaken
    rcases strcpy_cases vfsMaxDirnameLength (dirnameOf path) with ⟨-, copied⟩ | ⟨-, copied⟩
    · rcases strcpy_cases vfsMaxDirnameLength (basenameOf path) with ⟨-, named⟩ | ⟨-, named⟩
      · simp only [copied, named, parsed, taken _ _ _ child, bind, Except.bind]
      · simp only [copied, named, bind, Except.bind]
    · simp only [copied, bind, Except.bind]
  · intro parentMissing
    obtain ⟨hr, failed, refused⟩ : ∃ hr, hr.failed = true ∧
        vfsParseUrl s (dirnameOf path) none none = .ok (.error hr) := by
      rcases parseUrl_unresolved parentMissing with ⟨overlong, -⟩ | ⟨-, refused⟩
      · exact absurd overlong (dirname_short missing)
      · exact refused
    rcases strcpy_cases vfsMaxDirnameLength (dirnameOf path) with ⟨fits, copied⟩ | ⟨large, copied⟩
    · rcases strcpy_cases vfsMaxDirnameLength (basenameOf path) with ⟨fits', named⟩ | ⟨large, named⟩
      · simp only [copied, named, refused, noParent, bind, Except.bind]
        exact iff_of_true ⟨hr, failed, rfl⟩ ⟨fits, fits'⟩
      · simp only [copied, named, bind, Except.bind]
        exact iff_of_false not_failsCleanly_stuck (fun both => large both.2)
    · simp only [copied, bind, Except.bind]
      exact iff_of_false not_failsCleanly_stuck (fun both => large both.1)

end

/-- For every tree and every path at which no node can be added: `vfs_mkdir` fails and changes
nothing if and only if the name is not taken and the search for the directory is defined.
Behind a search that did not find the path, so do `vfs_create`, `vfs_mount_device` for a device
and `vfs_mount_fs` for a driver that could be made, if and only if the path is not `//name` with
a child `name` of the root and its two parts fit in the buffers. -/
theorem add_failure_iff (s : VfsState) (path : List Char) (mode perm drv : Nat)
    (alloc : ChildAlloc) (dev : KDevice) (content : Bool) (fsCtor : FsConstructor)
    (storageDrv : List Char) :
    let isDevice := dev.type = nodeTypeBlockdevice ∨ dev.type = nodeTypeChardevice
    let constructed := (fsCtor storageDrv).1.failed = false
    let placed := ¬ DoubleTaken s path ∧ (ParentMissing s path → FitsNames path)
    ((CannotAdd s path → FailsCleanly s (vfsMkdir s path mode alloc)) ↔
      ¬ NameTaken s path ∧ (ParentMissing s path →
        (dirnameOf path).length < extPathSize ∧ ¬ MeetsOverlong s (dirnameOf path))) ∧
    ((NotFound s path → CannotAdd s path → FailsCleanly s (vfsCreate s path perm alloc)) ↔
      (NotFound s path → placed)) ∧
    ((isDevice → NotFound s path → CannotAdd s path →
        FailsCleanly s (vfsMountDevice s dev path alloc content)) ↔
      (isDevice → NotFound s path → placed)) ∧
    ((constructed → NotFound s path → CannotAdd s path → FailsCleanly s
        (vfsMountFs s (some path) (some fsCtor) (some storageDrv) (some drv) alloc)) ↔
      (constructed → NotFound s path → placed)) := by
  refine ⟨cannotAdd_law_iff (vfsMkdir_taken mode) (vfsMkdir_missing mode), ?_, ?_, ?_⟩
  · apply addStep_law_iff
    · exact fun hr => rfl
    · intro p name c taken
      simp only [addFilled_taken taken, bind, Except.bind]
  · apply forall_congr'
    intro isDevice
    rw [vfsMountDevice, if_neg (by tauto)]
    apply addStep_law_iff
    · exact fun hr => rfl
    · intro p name c taken
      simp only [addFilled_taken taken, bind, Except.bind]
  · apply forall_congr'
    intro constructed
    apply addStep_law_iff
    · exact fun hr => rfl
    · intro p name c taken
      have taken' : VfsState.child
          { s with drivers := Function.update s.drivers drv (some (fsCtor storageDrv).2) } p name =
            some c := taken
      simp only [constructed, addFilled_taken taken', bind, Except.bind]
      rfl

/-- The second `vfs_mkdir("/a")` writes through a pointer that was not set. -/
theorem mkdir_twice :
    ∃ s, VfsStep (vfsInit (fun _ => .zeroed) 0)
        (.mkdir ['/', 'a'] 0 ⟨some fun _ => 0, some 1⟩, .sOk) s ∧
      CannotAdd s ['/', 'a'] ∧
      ¬ FailsCleanly s (vfsMkdir s ['/', 'a'] 0 ⟨some fun _ => 0, some 2⟩) := by
  obtain ⟨s, created, taken⟩ : ∃ s, VfsStep (vfsInit (fun _ => .zeroed) 0)
      (.mkdir ['/', 'a'] 0 ⟨some fun _ => 0, some 1⟩, .sOk) s ∧ NameTaken s ['/', 'a'] :=
    ⟨_, ⟨vfsInit_fresh (by decide), rfl⟩, ⟨0, false, [], []⟩, 1, rfl, rfl⟩
  refine ⟨s, created, .inl taken, ?_⟩
  rw [vfsMkdir_taken 0 taken]
  exact not_failsCleanly_stuck

end Antonix.Vfs
