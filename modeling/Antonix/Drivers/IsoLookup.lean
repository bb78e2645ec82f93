import Antonix.Drivers.IsoReaddir

/-! # Looking up a name in a directory of the ISO 9660 driver (`iso9660.c`)

`iso9660_find_subentry` rounds the size of a directory up to whole sectors, and one more where it
has whole ones already, as every directory has.  The sector behind the directory is read with it,
and scanned like the others. -/

namespace Antonix.Drivers

open Buffer LittleEndian

/-- What comes of one entry: the search ends, or goes on with this in `filename`. -/
inductive IsoVisit where
  | ends (hr : HResult) (dst : Option (List (BitVec 8)))
  | goesOn (filename : List (BitVec 8))

/-- What `iso9660_find_subentry` does with the entry at an offset. -/
def findVisit (content name : List (BitVec 8)) (flagmask offset : Nat)
    (filename : List (BitVec 8)) : Except Halt IsoVisit := do
  let flags ← fieldAt content (offset + 25) 1
  if flags &&& isoFlagHidden ≠ 0 then .ok (.goesOn filename)
  else do
    let nameLength ← fieldAt content (offset + 32) 1
    let entryName ← bytesAt content (offset + isoEntrySize) nameLength
    let filename ← iso9660ExtractFilename entryName filename
    if cString name = cString filename then
      if flagmask ≠ 0 ∧ flags &&& flagmask ≠ flagmask then .ok (.ends .eNotFound none)
      else do
        let dst ← bytesAt content offset isoEntrySize
        .ok (.ends .sOk (some dst))
    else .ok (.goesOn filename)

/-- The loop of `iso9660_find_subentry`, from an offset on. -/
def findLoop (content name : List (BitVec 8)) (flagmask offset : Nat)
    (filename : List (BitVec 8)) : Except Halt (HResult × Option (List (BitVec 8))) :=
  if offset = content.length then .ok (.eNotFound, none)
  else if inside : offset < content.length then
    match findVisit content name flagmask offset filename with
    | .error halt => .error halt
    | .ok (.ends hr dst) => .ok (hr, dst)
    | .ok (.goesOn filename) =>
      let next := offset + content[offset].toNat
      if there : next < content.length then
        if gap : content[next] = 0 then
          findLoop content name flagmask (next + (iso9660SectorSize - next % iso9660SectorSize))
            filename
        else findLoop content name flagmask next filename
      else .error .stuck
  else .error (.panic
    "iso9660_find_subentry(): unexpected case of reaching out of content buffer.")
termination_by content.length - offset
decreasing_by
  · show content.length - (next + (2048 - next % 2048)) < content.length - offset
    omega
  · -- an entry without length begins with 0
    have some : content[offset].toNat ≠ 0 := by
      intro zero
      apply gap
      have same : next = offset := by omega
      simp only [same]
      exact BitVec.eq_of_toNat_eq zero
    omega

/-- What a lookup has read of the storage, the first sector and how many, and how it has ended. -/
structure IsoLookup where
  read : Option (Nat × Nat)
  outcome : Except Halt (HResult × Option (List (BitVec 8)))

/-- `iso9660_find_subentry`, where `filename` is its buffer with whatever is in it, and `allocated`
tells whether `kmalloc` returns memory. -/
def iso9660FindSubentry (ctx : Iso9660DrvContext) (allocated : Bool) (dir : IsoDir)
    (name : List (BitVec 8)) (flagmask : Nat) (filename : List (BitVec 8)) : IsoLookup :=
  if dir.flags &&& isoFlagDirectory = 0 then ⟨none, .ok (.eInvalidArg, none)⟩
  else
    let contentSize := u32 (dir.extentSize +
      (iso9660SectorSize - dir.extentSize % iso9660SectorSize))
    if allocated = false then ⟨none, .ok (.eOutOfMem, none)⟩
    else
      match ctx.storageDrv dir.extentStart (contentSize / iso9660SectorSize) with
      | .error hr => ⟨some (dir.extentStart, contentSize / iso9660SectorSize), .ok (hr, none)⟩
      | .ok content => ⟨some (dir.extentStart, contentSize / iso9660SectorSize),
          findLoop content name flagmask 0 filename⟩

/-- A record that is not hidden has this name, and the flags that are asked for. -/
def Carried (records : List IsoRecord) (name : List (BitVec 8)) (flagmask : Nat) : Prop :=
  ∃ r ∈ records, r.flags &&& isoFlagHidden = 0 ∧ isoName r.nameBytes = cString name ∧
    (flagmask = 0 ∨ r.flags &&& flagmask = flagmask)

/-- A lookup ends, reads sectors of the directory only, finds what is there, and does not depend on
the rest of the disk. -/
structure LooksUp (image : Block) (allocated : Bool) (dir : IsoDir) (records : List IsoRecord)
    (name : List (BitVec 8)) (flagmask : Nat) (filename : List (BitVec 8)) : Prop where
  returns : ∃ result, (iso9660FindSubentry (isoDisk image) allocated dir name flagmask
    filename).outcome = .ok result
  inside : ∀ start count, (iso9660FindSubentry (isoDisk image) allocated dir name flagmask
    filename).read = some (start, count) →
      start = dir.extentStart ∧ count * iso9660SectorSize ≤ dir.extentSize
  found : (∃ dst, (iso9660FindSubentry (isoDisk image) allocated dir name flagmask
    filename).outcome = .ok (.sOk, some dst)) ↔ Carried records name flagmask
  extent : ∀ image', readAt image' (dir.extentStart * iso9660SectorSize) dir.extentSize =
    readAt image (dir.extentStart * iso9660SectorSize) dir.extentSize →
      (iso9660FindSubentry (isoDisk image') allocated dir name flagmask filename).outcome =
        (iso9660FindSubentry (isoDisk image) allocated dir name flagmask filename).outcome

section

variable {image : Block} {allocated : Bool} {dir : IsoDir} {records : List IsoRecord}
  {name filename : List (BitVec 8)} {flagmask : Nat}

/-- Without a buffer nothing is read. -/
theorem findSubentry_outOfMem (directory : dir.flags &&& isoFlagDirectory ≠ 0) :
    iso9660FindSubentry (isoDisk image) false dir name flagmask filename =
      ⟨none, .ok (.eOutOfMem, none)⟩ := by
  rw [iso9660FindSubentry, if_neg directory]
  rfl

/-- The sectors of the directory are read, and the one behind them. -/
theorem findSubentry_read (directory : dir.flags &&& isoFlagDirectory ≠ 0)
    (whole : dir.extentSize % iso9660SectorSize = 0)
    (fits : dir.extentSize + iso9660SectorSize < 2 ^ 32) :
    (iso9660FindSubentry (isoDisk image) true dir name flagmask filename).read =
      some (dir.extentStart, dir.extentSize / iso9660SectorSize + 1) := by
  have size : u32 (dir.extentSize + (iso9660SectorSize - dir.extentSize % iso9660SectorSize)) =
      dir.extentSize + iso9660SectorSize := by
    rw [whole, Nat.sub_zero, u32_of_lt fits]
  have sectors : (dir.extentSize + iso9660SectorSize) / iso9660SectorSize =
      dir.extentSize / iso9660SectorSize + 1 := Nat.add_div_right _ (by decide)
  rw [iso9660FindSubentry, if_neg directory, size]
  dsimp only
  rw [sectors]
  rfl

/-- A size that comes round to 0 leaves nothing to read. -/
theorem findSubentry_wraps (directory : dir.flags &&& isoFlagDirectory ≠ 0)
    (whole : dir.extentSize % iso9660SectorSize = 0)
    (wraps : dir.extentSize + iso9660SectorSize = 2 ^ 32) :
    iso9660FindSubentry (isoDisk image) true dir name flagmask filename =
      ⟨some (dir.extentStart, 0), .ok (.eNotFound, none)⟩ := by
  have size : u32 (dir.extentSize + (iso9660SectorSize - dir.extentSize % iso9660SectorSize)) =
      0 := by
    rw [whole, Nat.sub_zero, wraps]
    rfl
  have nothing : findLoop [] name flagmask 0 filename = .ok (.eNotFound, none) := by
    rw [findLoop, if_pos List.length_nil.symm]
  rw [iso9660FindSubentry, if_neg directory, size]
  show IsoLookup.mk _ (findLoop [] name flagmask 0 filename) = _
  rw [nothing]
  rfl

/-- A lookup that reads nothing finds nothing, and is right where there is nothing to find. -/
theorem LooksUp.of_nothing {hr : HResult} {read : Option (Nat × Nat)}
    (nothing : ∀ image, iso9660FindSubentry (isoDisk image) allocated dir name flagmask filename =
      ⟨read, .ok (hr, none)⟩)
    (none : ∀ start count, read = some (start, count) → start = dir.extentStart ∧ count = 0) :
    LooksUp image allocated dir records name flagmask filename ↔
      ¬Carried records name flagmask := by
  constructor
  · intro looksUp carried
    obtain ⟨dst, answer⟩ := looksUp.found.mpr carried
    rw [nothing] at answer
    cases answer
  · intro notCarried
    constructor
    · exact ⟨_, congrArg IsoLookup.outcome (nothing image)⟩
    · intro start count is
      rw [nothing] at is
      obtain ⟨first, zero⟩ := none start count is
      rw [zero, Nat.zero_mul]
      exact ⟨first, Nat.zero_le _⟩
    · refine iff_of_false ?_ notCarried
      intro ⟨dst, answer⟩
      rw [nothing] at answer
      cases answer
    · intro image' _
      rw [nothing, nothing]

/-- The lookup in a directory of whole sectors is right exactly where it does not read the
directory at all, and the name is not in it. -/
theorem iso9660FindSubentry_looksUp_iff (directory : dir.flags &&& isoFlagDirectory ≠ 0)
    (small : dir.extentSize < 2 ^ 32)
    (layout : IsoLayout 0 records
      (readAt image (dir.extentStart * iso9660SectorSize) dir.extentSize)) :
    LooksUp image allocated dir records name flagmask filename ↔
      (allocated = false ∨ dir.extentSize + iso9660SectorSize = 2 ^ 32) ∧
        ¬Carried records name flagmask := by
  have whole : dir.extentSize % 2048 = 0 := by
    have sectors := layout.whole
    rwa [Nat.zero_add, length_readAt] at sectors
  cases allocated with
  | false =>
    rw [LooksUp.of_nothing (fun _ => findSubentry_outOfMem directory) (fun _ _ is => by cases is)]
    simp
  | true =>
    by_cases wraps : dir.extentSize + 2048 = 2 ^ 32
    · rw [LooksUp.of_nothing (fun _ => findSubentry_wraps directory whole wraps)
        (fun _ _ is => by cases is; exact ⟨rfl, rfl⟩)]
      exact (and_iff_right (.inr wraps)).symm
    · have fits : dir.extentSize + 2048 < 2 ^ 32 := by omega
      refine iff_of_false (fun looksUp => ?_) (fun holds => ?_)
      · have read := @findSubentry_read image dir name filename flagmask directory whole fits
        have inside := (looksUp.inside _ _ read).2
        rw [Nat.add_mul, Nat.div_mul_cancel (Nat.dvd_of_mod_eq_zero whole)] at inside
        exact absurd inside (Nat.not_le.mpr (Nat.lt_add_of_pos_right (by decide)))
      · cases holds.1 with
        | inl freed => cases freed
        | inr same => exact wraps same

end

/-- In an empty directory there is no `A`, and when there is no memory none is found. -/
theorem iso9660FindSubentry_looksUp_empty :
    LooksUp (isoEmptyDirectory 40960 0) false ⟨⟨20, 2048⟩, 2⟩ [isoDotRecord 0, isoDotRecord 1]
        [0x41] 0 [] ↔
      (false = false ∨ 2048 + iso9660SectorSize = 2 ^ 32) ∧
        ¬Carried [isoDotRecord 0, isoDotRecord 1] [0x41] 0 :=
  @iso9660FindSubentry_looksUp_iff (isoEmptyDirectory 40960 0) false ⟨⟨20, 2048⟩, 2⟩ _ [0x41] [] 0
    (by decide) (by decide) (isoEmptyDirectory_layout 40960 0)

/-- A lookup in a directory of one sector reads two. -/
theorem iso9660FindSubentry_not_looksUp :
    ¬∀ (image : Block) (dir : IsoDir) (records : List IsoRecord) (name : List (BitVec 8))
        (flagmask : Nat) (filename : List (BitVec 8)),
      dir.flags &&& isoFlagDirectory ≠ 0 → dir.extentSize < 2 ^ 32 →
      IsoLayout 0 records
        (readAt image (dir.extentStart * iso9660SectorSize) dir.extentSize) →
      LooksUp image true dir records name flagmask filename := by
  intro looksUp
  have right := looksUp _ ⟨⟨20, 2048⟩, 2⟩ _ [0x41] 0 [] (by decide) (by decide)
    (isoEmptyDirectory_layout 40960 0)
  have inside := (right.inside 20 2 (findSubentry_read (by decide) rfl (by decide))).2
  exact absurd inside (by decide)

end Antonix.Drivers
