import Antonix.Lib.LittleEndian
import Antonix.Drivers.Iso9660

/-! # Volume descriptors of the ISO 9660 driver (`iso9660.c`, `string.c`)

`iso9660_parse_superblock` has a loop over the descriptors whose condition is `FALSE`, so that its
`continue` leaves it: whatever the first descriptor is, it is taken.  And `memcmp` compares the
first bytes of its arguments over and over, so of the magic only the `C` is checked. -/

namespace Antonix.Drivers

open LittleEndian

/-- `ISO_VD_PRIMARY` -/
abbrev isoVdPrimary : Nat := 0x01

/-- `ISO_VD_SET_TERMINATOR` -/
abbrev isoVdSetTerminator : Nat := 0xFF

/-- `ISO_VD_START_SECTOR` -/
abbrev isoVdStartSector : Nat := 0x10

/-- `CD001` -/
abbrev isoMagic : List (BitVec 8) := [0x43, 0x44, 0x30, 0x30, 0x31]

/-- `memcmp`.  Its pointers stay where they are. -/
def memcmp (ptr1 ptr2 : List (BitVec 8)) : Nat → Except Halt Int
  | 0 => .ok 0
  | num + 1 =>
    match ptr1, ptr2 with
    | p1 :: _, p2 :: _ =>
      if p1 = p2 then memcmp ptr1 ptr2 num else if p1 > p2 then .ok 1 else .ok (-1)
    | _, _ => .error .stuck

/-- `iso9660_validate_vd_header`, for the bytes from the magic on. -/
def iso9660ValidateVdHeader (hdr : List (BitVec 8)) : Except Halt HResult :=
  (memcmp hdr isoMagic 5).map fun order => if order = 0 then .sOk else .eFail

/-- `iso9660_parse_superblock`: the status, and what it leaves in `ctx->pvd`, where it has read
something into it. -/
def iso9660ParseSuperblock (ctx : Iso9660DrvContext) :
    Except Halt (HResult × Option (List (BitVec 8))) :=
  match ctx.storageDrv isoVdStartSector 1 with
  | .error hr => .ok (hr, none)
  | .ok pvd => do
    let hr ← iso9660ValidateVdHeader (pvd.drop 1)
    if hr.failed then .ok (.eFail, some pvd)
    else if field 0 1 pvd = isoVdSetTerminator then .ok (.eFail, some pvd)
    -- for a descriptor that is not primary the sector is counted up, and the loop is left as well
    else .ok (.sOk, some pvd)

/-- A sector with a volume descriptor. -/
structure IsoVolumeDesc where
  bytes : List (BitVec 8)
  header : 7 ≤ bytes.length

namespace IsoVolumeDesc

def type (d : IsoVolumeDesc) : Nat := field 0 1 d.bytes

def magic (d : IsoVolumeDesc) : List (BitVec 8) := (d.bytes.drop 1).take 5

/-- The descriptor goes on with the set: its magic is right, and it is not the terminator. -/
def GoesOn (d : IsoVolumeDesc) : Prop := d.magic = isoMagic ∧ d.type ≠ isoVdSetTerminator

end IsoVolumeDesc

/-- The first primary descriptor is found, and without one the call fails. -/
structure FindsPrimary (ctx : Iso9660DrvContext) (descs : List IsoVolumeDesc) : Prop where
  found : ∀ d, descs.find? (fun d => d.type = isoVdPrimary) = some d →
    iso9660ParseSuperblock ctx = .ok (.sOk, some d.bytes)
  missing : descs.find? (fun d => d.type = isoVdPrimary) = none →
    ∃ hr pvd, iso9660ParseSuperblock ctx = .ok (hr, pvd) ∧ hr.failed = true

/-- The first descriptor is primary, or no search is needed: its magic does not begin with `C`, or
its type is that of the terminator. -/
def FirstDecides (d : IsoVolumeDesc) : Prop :=
  d.magic.head? ≠ some 0x43 ∨ d.type = isoVdSetTerminator ∨
    d.type = isoVdPrimary ∧ d.magic = isoMagic

section

variable {ctx : Iso9660DrvContext} {front : List IsoVolumeDesc} {last d : IsoVolumeDesc}

/-- Two blocks are the same for `memcmp` when their first bytes are. -/
theorem memcmp_first {p1 p2 : BitVec 8} {rest1 rest2 : List (BitVec 8)} (num : Nat) :
    memcmp (p1 :: rest1) (p2 :: rest2) (num + 1) =
      .ok (if p1 = p2 then 0 else if p1 > p2 then 1 else -1) := by
  by_cases same : p1 = p2
  · rw [if_pos same]
    induction num with
    | zero => rw [memcmp, if_pos same, memcmp]
    | succ num inductionHypothesis => rw [memcmp, if_pos same, inductionHypothesis]
  · rw [memcmp, if_neg same, if_neg same]
    split
    · rfl
    · rfl

theorem iso9660ValidateVdHeader_eq (d : IsoVolumeDesc) :
    iso9660ValidateVdHeader (d.bytes.drop 1) =
      .ok (if d.magic.head? = some 0x43 then .sOk else .eFail) := by
  have header := d.header
  cases shape : d.bytes.drop 1 with
  | nil =>
    have length := congrArg List.length shape
    rw [List.length_drop] at length
    simp only [List.length_nil] at length
    omega
  | cons p1 rest =>
    have head : d.magic.head? = some p1 := by
      rw [IsoVolumeDesc.magic, shape]
      rfl
    rw [iso9660ValidateVdHeader, memcmp_first, head]
    by_cases same : p1 = 0x43
    · rw [if_pos same, same]
      rfl
    · rw [if_neg same, if_neg (fun is => same (Option.some.inj is))]
      by_cases above : p1 > 0x43
      · rw [if_pos above]
        rfl
      · rw [if_neg above]
        rfl

/-- All that decides is the first descriptor: the `C` of its magic, and its type. -/
theorem iso9660ParseSuperblock_eq (read : ctx.storageDrv isoVdStartSector 1 = .ok d.bytes) :
    iso9660ParseSuperblock ctx =
      .ok (if d.magic.head? = some 0x43 ∧ d.type ≠ isoVdSetTerminator then .sOk else .eFail,
        some d.bytes) := by
  rw [iso9660ParseSuperblock, read]
  dsimp only
  rw [iso9660ValidateVdHeader_eq]
  by_cases c : d.magic.head? = some 0x43
  · by_cases terminator : d.type = isoVdSetTerminator
    · have refused : ¬(d.magic.head? = some 0x43 ∧ d.type ≠ isoVdSetTerminator) :=
        fun holds => holds.2 terminator
      have ends : field 0 1 d.bytes = isoVdSetTerminator := terminator
      rw [if_pos c, if_neg refused]
      dsimp only [bind, Except.bind]
      rw [if_pos ends]
      rfl
    · have goesOn : ¬field 0 1 d.bytes = isoVdSetTerminator := terminator
      have taken : d.magic.head? = some 0x43 ∧ d.type ≠ isoVdSetTerminator := ⟨c, terminator⟩
      rw [if_pos c, if_pos taken]
      dsimp only [bind, Except.bind]
      rw [if_neg goesOn]
      rfl
  · have refused : ¬(d.magic.head? = some 0x43 ∧ d.type ≠ isoVdSetTerminator) :=
      fun holds => c holds.1
    rw [if_neg c, if_neg refused]
    rfl

theorem IsoVolumeDesc.GoesOn.head (goesOn : d.GoesOn) : d.magic.head? = some 0x43 := by
  rw [goesOn.1]
  rfl

/-- In a set that ends with its first descriptor there is nothing to find. -/
theorem findsPrimary_nil (read : ctx.storageDrv isoVdStartSector 1 = .ok last.bytes)
    (ends : ¬last.GoesOn) : FindsPrimary ctx [] ↔ FirstDecides last := by
  have parse := iso9660ParseSuperblock_eq read
  constructor
  · intro finds
    obtain ⟨hr, pvd, answer, failed⟩ := finds.missing rfl
    by_cases taken : last.magic.head? = some 0x43 ∧ last.type ≠ isoVdSetTerminator
    · rw [parse, if_pos taken] at answer
      cases answer
      cases failed
    · cases not_and_or.mp taken with
      | inl other => exact .inl other
      | inr terminator => exact .inr (.inl (not_not.mp terminator))
  · intro decides
    have refused : ¬(last.magic.head? = some 0x43 ∧ last.type ≠ isoVdSetTerminator) := by
      intro ⟨c, goesOn⟩
      rcases decides with other | terminator | ⟨_, magic⟩
      · exact other c
      · exact goesOn terminator
      · exact ends ⟨magic, goesOn⟩
    rw [if_neg refused] at parse
    exact ⟨fun _ none => (by cases none), fun _ => ⟨_, _, parse, rfl⟩⟩

/-- Of a longer set the first descriptor is taken. -/
theorem findsPrimary_cons (read : ctx.storageDrv isoVdStartSector 1 = .ok d.bytes)
    (goesOn : d.GoesOn) : FindsPrimary ctx (d :: front) ↔ FirstDecides d := by
  have parse := iso9660ParseSuperblock_eq read
  rw [if_pos ⟨goesOn.head, goesOn.2⟩] at parse
  by_cases primary : d.type = isoVdPrimary
  · have first : (d :: front).find? (fun d => d.type = isoVdPrimary) = some d :=
      List.find?_cons_of_pos (by simpa using primary)
    refine iff_of_true ⟨fun found is => ?_, fun none => ?_⟩ (.inr (.inr ⟨primary, goesOn.1⟩))
    · rw [first] at is
      cases is
      exact parse
    · rw [first] at none
      cases none
  · refine iff_of_false (fun finds => ?_) (fun decides => ?_)
    · cases search : (d :: front).find? (fun d => d.type = isoVdPrimary) with
      | none =>
        obtain ⟨hr, pvd, answer, failed⟩ := finds.missing search
        rw [parse] at answer
        cases answer
        cases failed
      | some found =>
        -- what was left in the buffer is not a primary descriptor
        have answer := finds.found found search
        rw [parse] at answer
        have bytes : d.bytes = found.bytes := by simpa using answer
        have isPrimary : found.type = isoVdPrimary := by simpa using List.find?_some search
        rw [IsoVolumeDesc.type, ← bytes] at isPrimary
        exact primary isPrimary
    · rcases decides with other | terminator | ⟨is, _⟩
      · exact other goesOn.head
      · exact goesOn.2 terminator
      · exact primary is

/-- The first primary descriptor of a set is found, or its absence is noticed, exactly where the
first descriptor of the set decides it. -/
theorem iso9660ParseSuperblock_finds_iff
    (read : ∀ i d, (front ++ [last])[i]? = some d →
      ctx.storageDrv (isoVdStartSector + i) 1 = .ok d.bytes)
    (goesOn : ∀ d ∈ front, d.GoesOn) (ends : ¬last.GoesOn) :
    FindsPrimary ctx front ↔ ∃ d, (front ++ [last]).head? = some d ∧ FirstDecides d := by
  cases front with
  | nil =>
    rw [findsPrimary_nil (read 0 last rfl) ends]
    constructor
    · exact fun decides => ⟨last, rfl, decides⟩
    · intro ⟨_, same, decides⟩
      cases same
      exact decides
  | cons d front =>
    rw [findsPrimary_cons (read 0 d rfl) (goesOn d List.mem_cons_self)]
    constructor
    · exact fun decides => ⟨d, rfl, decides⟩
    · intro ⟨_, same, decides⟩
      cases same
      exact decides

end

/-- A descriptor with the right magic and nothing else. -/
def isoVolumeDesc (type : BitVec 8) : IsoVolumeDesc where
  bytes := type :: isoMagic ++ [1]
  header := Nat.le_of_eq rfl

/-- A disk with these descriptors. -/
def isoDescriptors (descs : List IsoVolumeDesc) : Iso9660DrvContext where
  storageDrv := fun start _ =>
    match descs[start - isoVdStartSector]? with
    | some d => .ok d.bytes
    | none => .error .eFail

theorem isoDescriptors_read (descs : List IsoVolumeDesc) (i : Nat) (d : IsoVolumeDesc)
    (here : descs[i]? = some d) :
    (isoDescriptors descs).storageDrv (isoVdStartSector + i) 1 = .ok d.bytes := by
  simp only [isoDescriptors, Nat.add_sub_cancel_left, here]

/-- The primary descriptor comes first, as on most disks. -/
theorem iso9660ParseSuperblock_finds_first :
    FindsPrimary (isoDescriptors [isoVolumeDesc 0x01, isoVolumeDesc 0xFF]) [isoVolumeDesc 0x01] :=
  (@iso9660ParseSuperblock_finds_iff _ [isoVolumeDesc 0x01] (isoVolumeDesc 0xFF)
    (isoDescriptors_read _) (by simp [IsoVolumeDesc.GoesOn, isoVolumeDesc, IsoVolumeDesc.magic,
      IsoVolumeDesc.type, field, numberOf]) fun goesOn => goesOn.2 rfl).mpr
    ⟨isoVolumeDesc 0x01, rfl, .inr (.inr ⟨rfl, rfl⟩)⟩

/-- On a disk whose first descriptor is a boot record, that is taken for the primary one. -/
theorem iso9660ParseSuperblock_not_finds :
    ¬∀ (ctx : Iso9660DrvContext) (front : List IsoVolumeDesc) (last : IsoVolumeDesc),
      (∀ i d, (front ++ [last])[i]? = some d →
        ctx.storageDrv (isoVdStartSector + i) 1 = .ok d.bytes) →
      (∀ d ∈ front, d.GoesOn) → ¬last.GoesOn → FindsPrimary ctx front := by
  intro finds
  have goesOn : ∀ d ∈ [isoVolumeDesc 0x00, isoVolumeDesc 0x01], d.GoesOn := by
    simp [IsoVolumeDesc.GoesOn, isoVolumeDesc, IsoVolumeDesc.magic, IsoVolumeDesc.type, field,
      numberOf]
  have right := finds (isoDescriptors [isoVolumeDesc 0x00, isoVolumeDesc 0x01, isoVolumeDesc 0xFF])
    [isoVolumeDesc 0x00, isoVolumeDesc 0x01] (isoVolumeDesc 0xFF) (isoDescriptors_read _) goesOn
    fun goesOn => goesOn.2 rfl
  have answer := right.found (isoVolumeDesc 0x01) rfl
  have taken : iso9660ParseSuperblock
      (isoDescriptors [isoVolumeDesc 0x00, isoVolumeDesc 0x01, isoVolumeDesc 0xFF]) =
        .ok (.sOk, some (isoVolumeDesc 0x00).bytes) := rfl
  rw [taken] at answer
  exact absurd answer (by decide)

end Antonix.Drivers
