import Antonix.Lib.LittleEndian
import Antonix.Drivers.Iso9660
import Antonix.Drivers.IsoNames
import Antonix.Vfs.Tree

/-! # Listing a directory of the ISO 9660 driver (`iso9660.c`)

`iso9660_opendir` loads the sectors of a directory, and always one more.  `iso9660_readdir` looks
for a gap before it looks for the end: at the end of the directory it sees the first byte of that
sector, and where it is 0 it goes on behind the buffer. -/

namespace Antonix.Drivers

open Buffer LittleEndian Transition Vfs

/-! ## The stream -/

/-- `FLAG_HIDDEN` -/
abbrev isoFlagHidden : Nat := 0x01

/-- `FLAG_DIRECTORY` -/
abbrev isoFlagDirectory : Nat := 0x02

/-- `sizeof(ISO9660_DIR_ENTRY)`, where the name of an entry begins. -/
abbrev isoEntrySize : Nat := 33

/-- `ISO9660_DIR_ENTRY` of a directory. -/
structure IsoDir extends Iso9660DirEntry where
  flags : Nat

/-- `K_DIR_STREAM` of the driver; the content is its `priv_data`. -/
structure IsoDirStream where
  content : List (BitVec 8)
  len : Nat
  pos : Nat
  dirname : List Char

/-- `K_FS_NODE_INFO` -/
structure FsNodeInfo where
  size : Nat
  nodeType : Nat

/-- What the allocations of `iso9660_opendir` return: `true` is memory. -/
structure OpendirAllocs where
  content : Bool
  stream : Bool
  dirname : Bool

/-- The bytes of a buffer from `start` on; outside of it there are none. -/
def bytesAt (content : List (BitVec 8)) (start count : Nat) : Except Halt (List (BitVec 8)) :=
  if start + count ≤ content.length then .ok ((content.drop start).take count) else .error .stuck

/-- The number that a field of `count` bytes holds. -/
def fieldAt (content : List (BitVec 8)) (start count : Nat) : Except Halt Nat :=
  (bytesAt content start count).map numberOf

/-- `iso9660_opendir`, from the entry on that `iso9660_parse_url` has found. -/
def iso9660Opendir (ctx : Iso9660DrvContext) (allocs : OpendirAllocs) (dirname : List Char)
    (entry : IsoDir) : Except Halt (HResult × Option IsoDirStream) :=
  if entry.flags &&& isoFlagDirectory = 0 then .ok (.eFail, none)
  else
    let size := sub32 (u32 (entry.extentSize + iso9660SectorSize))
      (entry.extentSize % iso9660SectorSize)
    if allocs.content = false then .ok (.eOutOfMem, none)
    else
      match ctx.storageDrv entry.extentStart
        (u32 (size + iso9660SectorSize - 1) / iso9660SectorSize) with
      | .error hr => .ok (hr, none)
      | .ok content =>
        if allocs.stream = false then .ok (.eOutOfMem, none)
        else if allocs.dirname = false then .ok (.eOutOfMem, none)
        else do
          let dirname ← strcpy vfsMaxDirnameLength dirname
          .ok (.sOk, some ⟨content, entry.extentSize, 0, dirname⟩)

/-- The entry of the directory itself or of its parent: its name is `\0` or `\1`. -/
def isSelfOrParent (content : List (BitVec 8)) (newOffs : Nat) : Except Halt Bool := do
  let nameLength ← fieldAt content (newOffs + 32) 1
  if nameLength = 1 then
    (fieldAt content (newOffs + isoEntrySize) 1).map fun c => decide (c = 0 ∨ c = 1)
  else .ok false

/-- An entry that `iso9660_readdir` goes over. -/
def readdirSkips (content : List (BitVec 8)) (newOffs : Nat) : Except Halt Bool := do
  let self ← isSelfOrParent content newOffs
  if self then .ok true
  else (fieldAt content (newOffs + 25) 1).map fun flags => decide (flags &&& isoFlagHidden ≠ 0)

/-- The loop of `iso9660_readdir`: where the next entry is, or `none` at the end. -/
def iso9660ReaddirLoop (content : List (BitVec 8)) (len newOffs : Nat) :
    Except Halt (Option Nat) :=
  if inside : newOffs < content.length then
    let length := content[newOffs].toNat
    if gap : length = 0 then
      iso9660ReaddirLoop content len
        (newOffs + (iso9660SectorSize - newOffs % iso9660SectorSize))
    else if len ≤ newOffs then .ok none
    else do
      let skips ← readdirSkips content newOffs
      if skips then iso9660ReaddirLoop content len (newOffs + length) else .ok (some newOffs)
  else .error .stuck
termination_by content.length - newOffs
decreasing_by
  · show content.length - (newOffs + (2048 - newOffs % 2048)) < content.length - newOffs
    omega
  · omega

/-- The end of `iso9660_readdir`, for the entry that its loop has found. -/
def readdirEntry (ds : IsoDirStream) (newOffs : Nat) (filename : List (BitVec 8)) :
    Except Halt (HResult × Option (FsNodeInfo × List (BitVec 8)) × IsoDirStream) := do
  let flags ← fieldAt ds.content (newOffs + 25) 1
  let size ← fieldAt ds.content (newOffs + 10) 4
  let nameLength ← fieldAt ds.content (newOffs + 32) 1
  let name ← bytesAt ds.content (newOffs + isoEntrySize) nameLength
  let filename ← iso9660ExtractFilename name filename
  let length ← fieldAt ds.content newOffs 1
  let nodeType := if flags &&& isoFlagDirectory = 0 then nodeTypeFile else nodeTypeDirectory
  .ok (.sOk, some (⟨size, nodeType⟩, filename), { ds with pos := newOffs + length })

/-- `iso9660_readdir`, where `filename` is the buffer of the caller. -/
def iso9660Readdir (ds : IsoDirStream) (filename : List (BitVec 8)) :
    Except Halt (HResult × Option (FsNodeInfo × List (BitVec 8)) × IsoDirStream) := do
  match ← iso9660ReaddirLoop ds.content ds.len ds.pos with
  | none => .ok (.eEndOfStr, none, ds)
  | some newOffs => readdirEntry ds newOffs filename

/-- `iso9660_rewinddir` -/
def iso9660Rewinddir (ds : IsoDirStream) : IsoDirStream := { ds with pos := 0 }

/-! ## Directories -/

/-- A directory record: as many bytes as the first of them says, its name among them. -/
structure IsoRecord where
  bytes : List (BitVec 8)
  length : field 0 1 bytes = bytes.length
  name : isoEntrySize + field 32 1 bytes ≤ bytes.length

namespace IsoRecord

def nameBytes (r : IsoRecord) : List (BitVec 8) :=
  (r.bytes.drop isoEntrySize).take (field 32 1 r.bytes)

def flags (r : IsoRecord) : Nat := field 25 1 r.bytes

/-- Not hidden, and neither the directory itself nor its parent. -/
def Visible (r : IsoRecord) : Prop :=
  r.flags &&& isoFlagHidden = 0 ∧
    ¬(field 32 1 r.bytes = 1 ∧ (field 33 1 r.bytes = 0 ∨ field 33 1 r.bytes = 1))

instance {r : IsoRecord} : Decidable r.Visible := inferInstanceAs (Decidable (_ ∧ _))

def info (r : IsoRecord) : FsNodeInfo where
  size := field 10 4 r.bytes
  nodeType := if r.flags &&& isoFlagDirectory = 0 then nodeTypeFile else nodeTypeDirectory

end IsoRecord

/-- Whole sectors of records from an offset on: none crosses a sector, and what is left of a
sector is zero. -/
inductive IsoLayout : Nat → List IsoRecord → List (BitVec 8) → Prop
  | done {offs : Nat} : offs % iso9660SectorSize = 0 → IsoLayout offs [] []
  | gap {offs zeros : Nat} {records : List IsoRecord} {bytes : List (BitVec 8)} :
      0 < zeros → zeros ≤ iso9660SectorSize → (offs + zeros) % iso9660SectorSize = 0 →
      IsoLayout (offs + zeros) records bytes →
      IsoLayout offs records (List.replicate zeros 0 ++ bytes)
  | record {offs : Nat} {r : IsoRecord} {records : List IsoRecord} {bytes : List (BitVec 8)} :
      offs % iso9660SectorSize + r.bytes.length ≤ iso9660SectorSize →
      IsoLayout (offs + r.bytes.length) records bytes →
      IsoLayout offs (r :: records) (r.bytes ++ bytes)

/-- A stream that answers with these records, one for each call, and then with the end. -/
inductive Lists : IsoDirStream → List IsoRecord → Prop
  | done {ds : IsoDirStream} :
      (∀ filename, iso9660Readdir ds filename = .ok (.eEndOfStr, none, ds)) → Lists ds []
  | next {ds ds' : IsoDirStream} {r : IsoRecord} {records : List IsoRecord} :
      (∀ filename, iso9660Readdir ds filename = (iso9660ExtractFilename r.nameBytes filename).map
        fun filename => (.sOk, some (r.info, filename), ds')) →
      Lists ds' records → Lists ds (r :: records)

/-- One call of `iso9660_readdir` that returns. -/
def ReaddirStep (ds : IsoDirStream) (filename : List (BitVec 8)) (ds' : IsoDirStream) : Prop :=
  ∃ hr found, iso9660Readdir ds filename = .ok (hr, found, ds')

/-- The stream lists these records, and lists them again from whatever state it is rewound. -/
structure ListsExactly (ds : IsoDirStream) (records : List IsoRecord) : Prop where
  lists : Lists ds records
  rewound : ∀ filenames ds', Run ReaddirStep ds filenames ds' → Lists (iso9660Rewinddir ds') records

section

variable {content front bytes behind : List (BitVec 8)} {len offs start count : Nat}
  {r : IsoRecord} {records : List IsoRecord} {ds ds' : IsoDirStream}

theorem bytesAt_append (inside : start + count ≤ bytes.length) :
    bytesAt (front ++ (bytes ++ behind)) (front.length + start) count =
      .ok ((bytes.drop start).take count) := by
  have whole : front.length + start + count ≤ (front ++ (bytes ++ behind)).length := by
    rw [List.length_append, List.length_append]
    omega
  rw [bytesAt, if_pos whole, List.drop_append, List.drop_eq_nil_of_le (Nat.le_add_right _ _),
    Nat.add_sub_cancel_left, List.nil_append, List.drop_append_of_le_length (by omega),
    List.take_append_of_le_length (by rw [List.length_drop]; omega)]

theorem IsoRecord.header (r : IsoRecord) : isoEntrySize ≤ r.bytes.length :=
  Nat.le_trans (Nat.le_add_right _ _) r.name

/-- A field of a record, wherever the record stands. -/
theorem IsoRecord.fieldAt_eq (r : IsoRecord) (start count : Nat)
    (inside : start + count ≤ isoEntrySize) :
    fieldAt (front ++ (r.bytes ++ behind)) (front.length + start) count =
      .ok (field start count r.bytes) := by
  rw [fieldAt, bytesAt_append (Nat.le_trans inside r.header)]
  rfl

/-- What the loop does with an entry. -/
theorem iso9660ReaddirLoop_entry {first : BitVec 8} (here : content[offs]? = some first) :
    iso9660ReaddirLoop content len offs =
      if first.toNat = 0 then
        iso9660ReaddirLoop content len (offs + (iso9660SectorSize - offs % iso9660SectorSize))
      else if len ≤ offs then .ok none
      else (do
        let skips ← readdirSkips content offs
        if skips then iso9660ReaddirLoop content len (offs + first.toNat)
        else .ok (some offs)) := by
  obtain ⟨inside, rfl⟩ := List.getElem?_eq_some_iff.mp here
  rw [iso9660ReaddirLoop, dif_pos inside]
  rfl

theorem iso9660ReaddirLoop_stuck (outside : content.length ≤ offs) :
    iso9660ReaddirLoop content len offs = .error .stuck := by
  rw [iso9660ReaddirLoop, dif_neg (Nat.not_lt.mpr outside)]

/-- A record tells its length in its first byte. -/
theorem IsoRecord.exists_first (r : IsoRecord) :
    ∃ first rest, r.bytes = first :: rest ∧ first.toNat = r.bytes.length := by
  have header := r.header
  have length := r.length
  cases shape : r.bytes with
  | nil =>
    rw [shape] at header
    contradiction
  | cons first rest =>
    refine ⟨first, rest, rfl, ?_⟩
    rw [← shape, ← length, shape]
    simp [field, numberOf]

theorem isSelfOrParent_record :
    isSelfOrParent (front ++ (r.bytes ++ behind)) front.length =
      .ok (decide (field 32 1 r.bytes = 1 ∧
        (field 33 1 r.bytes = 0 ∨ field 33 1 r.bytes = 1))) := by
  rw [isSelfOrParent, r.fieldAt_eq 32 1 (by decide)]
  dsimp only [bind, Except.bind]
  by_cases single : field 32 1 r.bytes = 1
  · have name := r.name
    have self : fieldAt (front ++ (r.bytes ++ behind)) (front.length + isoEntrySize) 1 =
        .ok (field 33 1 r.bytes) := by
      rw [fieldAt, bytesAt_append (by omega)]
      rfl
    rw [if_pos single, self]
    simp [Except.map, single]
  · rw [if_neg single]
    simp [single]

theorem readdirSkips_record :
    readdirSkips (front ++ (r.bytes ++ behind)) front.length = .ok (decide ¬r.Visible) := by
  rw [readdirSkips, isSelfOrParent_record, r.fieldAt_eq 25 1 (by decide)]
  by_cases self : field 32 1 r.bytes = 1 ∧ (field 33 1 r.bytes = 0 ∨ field 33 1 r.bytes = 1)
  · simp [bind, Except.bind, IsoRecord.Visible, self]
  · simp [bind, Except.bind, Except.map, IsoRecord.Visible, IsoRecord.flags, self]

/-- The loop goes over a record that is not visible and stops at one that is. -/
theorem iso9660ReaddirLoop_record (inside : front.length < len) :
    iso9660ReaddirLoop (front ++ (r.bytes ++ behind)) len front.length =
      if r.Visible then .ok (some front.length)
      else iso9660ReaddirLoop (front ++ (r.bytes ++ behind)) len
        (front.length + r.bytes.length) := by
  obtain ⟨first, rest, shape, length⟩ := r.exists_first
  have header := r.header
  have here : (front ++ (r.bytes ++ behind))[front.length]? = some first := by
    rw [shape]
    simp
  have some : ¬first.toNat = 0 := by
    rw [length]
    exact Nat.ne_of_gt (Nat.lt_of_lt_of_le (by decide) header)
  rw [iso9660ReaddirLoop_entry here, if_neg some, if_neg (Nat.not_le.mpr inside),
    readdirSkips_record, length]
  by_cases visible : r.Visible
  · simp [bind, Except.bind, visible]
  · simp [bind, Except.bind, visible]

theorem iso9660ReaddirLoop_gap {zeros : Nat} (some : 0 < zeros) (short : zeros ≤ iso9660SectorSize)
    (aligned : (front.length + zeros) % iso9660SectorSize = 0) :
    iso9660ReaddirLoop (front ++ (List.replicate zeros 0 ++ behind)) len front.length =
      iso9660ReaddirLoop (front ++ (List.replicate zeros 0 ++ behind)) len
        (front.length + zeros) := by
  have here : (front ++ (List.replicate zeros 0 ++ behind))[front.length]? = Option.some 0 := by
    rw [List.getElem?_append_right (Nat.le_refl _), Nat.sub_self,
      List.getElem?_append_left (by simpa using some)]
    simp [some]
  have next : iso9660SectorSize - front.length % iso9660SectorSize = zeros := by
    change zeros ≤ 2048 at short
    change (front.length + zeros) % 2048 = 0 at aligned
    change 2048 - front.length % 2048 = zeros
    omega
  have zero : (0 : BitVec 8).toNat = 0 := rfl
  rw [iso9660ReaddirLoop_entry here, if_pos zero, next]

/-- What a call answers with for a visible record. -/
theorem readdirEntry_record {filename : List (BitVec 8)}
    (content : ds.content = front ++ (r.bytes ++ behind)) :
    readdirEntry ds front.length filename =
      (iso9660ExtractFilename r.nameBytes filename).map fun filename =>
        (.sOk, some (r.info, filename), { ds with pos := front.length + r.bytes.length }) := by
  have name : bytesAt (front ++ (r.bytes ++ behind)) (front.length + isoEntrySize)
      (field 32 1 r.bytes) = .ok r.nameBytes := bytesAt_append r.name
  have length := @IsoRecord.fieldAt_eq front behind r 0 1 (by decide)
  rw [Nat.add_zero, r.length] at length
  rw [readdirEntry, content, r.fieldAt_eq 25 1 (by decide), r.fieldAt_eq 10 4 (by decide),
    r.fieldAt_eq 32 1 (by decide)]
  dsimp only [bind, Except.bind]
  rw [name, length]
  dsimp only
  cases iso9660ExtractFilename r.nameBytes filename with
  | error halt => rfl
  | ok filename => rfl

theorem readdirEntry_sOk {filename : List (BitVec 8)} {hr : HResult}
    {found : Option (FsNodeInfo × List (BitVec 8))}
    (answer : readdirEntry ds offs filename = .ok (hr, found, ds')) :
    hr = .sOk ∧ ds'.content = ds.content ∧ ds'.len = ds.len ∧ ds'.dirname = ds.dirname := by
  obtain ⟨flags, _, answer⟩ := exists_of_bind answer
  obtain ⟨size, _, answer⟩ := exists_of_bind answer
  obtain ⟨nameLength, _, answer⟩ := exists_of_bind answer
  obtain ⟨name, _, answer⟩ := exists_of_bind answer
  obtain ⟨filenameBytes, _, answer⟩ := exists_of_bind answer
  obtain ⟨length, _, answer⟩ := exists_of_bind answer
  cases answer
  exact ⟨rfl, rfl, rfl, rfl⟩

theorem iso9660Readdir_end {filename : List (BitVec 8)}
    (stops : iso9660ReaddirLoop ds.content ds.len ds.pos = .ok none) :
    iso9660Readdir ds filename = .ok (.eEndOfStr, none, ds) := by
  rw [iso9660Readdir, stops]
  rfl

theorem iso9660Readdir_found {filename : List (BitVec 8)}
    (stops : iso9660ReaddirLoop ds.content ds.len ds.pos = .ok (some offs)) :
    iso9660Readdir ds filename = readdirEntry ds offs filename := by
  rw [iso9660Readdir, stops]
  rfl

theorem iso9660Readdir_halt {filename : List (BitVec 8)} {halt : Halt}
    (stops : iso9660ReaddirLoop ds.content ds.len ds.pos = .error halt) :
    iso9660Readdir ds filename = .error halt := by
  rw [iso9660Readdir, stops]
  rfl

/-- A call that returns keeps everything but the position. -/
theorem ReaddirStep.keeps {filename : List (BitVec 8)} (step : ReaddirStep ds filename ds') :
    ds'.content = ds.content ∧ ds'.len = ds.len ∧ ds'.dirname = ds.dirname := by
  obtain ⟨hr, found, answer⟩ := step
  cases stops : iso9660ReaddirLoop ds.content ds.len ds.pos with
  | error halt =>
    rw [iso9660Readdir_halt stops] at answer
    cases answer
  | ok next =>
    cases next with
    | none =>
      rw [iso9660Readdir_end stops] at answer
      cases answer
      exact ⟨rfl, rfl, rfl⟩
    | some newOffs =>
      rw [iso9660Readdir_found stops] at answer
      exact (readdirEntry_sOk answer).2

theorem rewound_of_run {filenames : List (List (BitVec 8))}
    (run : Run ReaddirStep ds filenames ds') : iso9660Rewinddir ds' = iso9660Rewinddir ds := by
  induction run with
  | nil => rfl
  | cons step _ inductionHypothesis =>
    obtain ⟨content, len, dirname⟩ := step.keeps
    rw [inductionHypothesis, iso9660Rewinddir, iso9660Rewinddir, content, len, dirname]

/-! ## What a stream lists -/

/-- A stream whose loop halts lists nothing, not even its end. -/
theorem not_lists_of_halt {halt : Halt}
    (stops : iso9660ReaddirLoop ds.content ds.len ds.pos = .error halt) : ¬Lists ds records := by
  intro lists
  cases lists with
  | done ends =>
    have answer := ends []
    rw [iso9660Readdir_halt stops] at answer
    cases answer
  | @next _ _ r _ answers _ =>
    obtain ⟨filename, out, extracted⟩ := exists_extracted r.nameBytes
    have answer := answers filename
    rw [iso9660Readdir_halt stops, extracted] at answer
    cases answer

/-- A stream at its end lists nothing more. -/
theorem lists_of_end (stops : iso9660ReaddirLoop ds.content ds.len ds.pos = .ok none) :
    Lists ds records ↔ records = [] := by
  constructor
  · intro lists
    cases lists with
    | done _ => rfl
    | @next _ _ r _ answers _ =>
      obtain ⟨filename, out, extracted⟩ := exists_extracted r.nameBytes
      have answer := answers filename
      rw [iso9660Readdir_end stops, extracted] at answer
      cases answer
  · intro none
    rw [none]
    exact .done fun _ => iso9660Readdir_end stops

/-- A stream before an entry lists that entry first. -/
theorem lists_of_found (stops : iso9660ReaddirLoop ds.content ds.len ds.pos = .ok (some offs)) :
    Lists ds records ↔ ∃ r rest ds', records = r :: rest ∧
      (∀ filename, readdirEntry ds offs filename =
        (iso9660ExtractFilename r.nameBytes filename).map
          fun filename => (.sOk, some (r.info, filename), ds')) ∧ Lists ds' rest := by
  constructor
  · intro lists
    cases lists with
    | done ends =>
      have answer := ends []
      rw [iso9660Readdir_found stops] at answer
      cases (readdirEntry_sOk answer).1
    | @next _ ds' r rest answers later =>
      refine ⟨r, rest, ds', rfl, fun filename => ?_, later⟩
      rw [← iso9660Readdir_found stops, answers]
  · intro ⟨r, rest, ds', shape, answers, later⟩
    rw [shape]
    refine .next (fun filename => ?_) later
    rw [iso9660Readdir_found stops, answers]

/-- Streams at two positions list the same when their loops stop at the same place. -/
theorem lists_congr {pos pos' : Nat} {dirname : List Char}
    (same : iso9660ReaddirLoop content len pos = iso9660ReaddirLoop content len pos') :
    Lists ⟨content, len, pos, dirname⟩ records ↔ Lists ⟨content, len, pos', dirname⟩ records := by
  cases stops : iso9660ReaddirLoop content len pos' with
  | error halt =>
    rw [stops] at same
    exact iff_of_false (not_lists_of_halt same) (not_lists_of_halt stops)
  | ok next =>
    rw [stops] at same
    cases next with
    | none => exact (lists_of_end same).trans (lists_of_end stops).symm
    | some offs =>
      have after : Lists ⟨content, len, pos', dirname⟩ records ↔ _ := lists_of_found stops
      exact (lists_of_found same).trans after.symm

/-- Before a visible record a stream lists that record, and then what the stream behind it
lists. -/
theorem lists_visible {dirname : List Char} (visible : r.Visible) (inside : front.length < len) :
    Lists ⟨front ++ (r.bytes ++ behind), len, front.length, dirname⟩ (r :: records) ↔
      Lists ⟨front ++ (r.bytes ++ behind), len, front.length + r.bytes.length, dirname⟩
        records := by
  have stops := @iso9660ReaddirLoop_record front behind len r inside
  rw [if_pos visible] at stops
  constructor
  · intro lists
    obtain ⟨r', rest, ds', shape, answers, later⟩ := (lists_of_found stops).mp lists
    cases shape
    obtain ⟨filename, out, extracted⟩ := exists_extracted r.nameBytes
    have answer := answers filename
    rw [readdirEntry_record rfl, extracted] at answer
    cases answer
    exact later
  · intro later
    exact (lists_of_found stops).mpr ⟨r, records, _, rfl, fun _ => readdirEntry_record rfl, later⟩

theorem IsoLayout.whole {bytes : List (BitVec 8)} (layout : IsoLayout offs records bytes) :
    (offs + bytes.length) % iso9660SectorSize = 0 := by
  induction layout with
  | done aligned => exact aligned
  | gap _ _ _ _ inductionHypothesis =>
    rwa [List.length_append, List.length_replicate, ← Nat.add_assoc]
  | record _ _ inductionHypothesis => rwa [List.length_append, ← Nat.add_assoc]

theorem lists_nil :
    Lists ds [] ↔ iso9660ReaddirLoop ds.content ds.len ds.pos = .ok none := by
  cases stops : iso9660ReaddirLoop ds.content ds.len ds.pos with
  | error halt => exact iff_of_false (not_lists_of_halt stops) (fun ends => by cases ends)
  | ok next =>
    cases next with
    | none => exact iff_of_true ((lists_of_end stops).mpr rfl) rfl
    | some offs =>
      refine iff_of_false (fun lists => ?_) (fun ends => by cases ends)
      obtain ⟨r, rest, ds', shape, _⟩ := (lists_of_found stops).mp lists
      cases shape

/-- A stream over whole sectors of records lists the visible ones exactly when the loop stops
where the sectors end. -/
theorem lists_layout {bytes : List (BitVec 8)} {dirname : List Char}
    (layout : IsoLayout offs records bytes) (here : offs = front.length)
    (size : len = front.length + bytes.length) :
    Lists ⟨front ++ (bytes ++ behind), len, offs, dirname⟩
        (records.filter fun r => decide r.Visible) ↔
      iso9660ReaddirLoop (front ++ (bytes ++ behind)) len len = .ok none := by
  induction layout generalizing front with
  | done _ =>
    rw [here, size]
    exact lists_nil
  | @gap offs zeros records bytes some short aligned _ inductionHypothesis =>
    subst here
    have later := @inductionHypothesis (front ++ List.replicate zeros 0) (by simp)
      (by simpa [Nat.add_assoc] using size)
    simp only [List.append_assoc] at later ⊢
    rw [lists_congr (iso9660ReaddirLoop_gap some short aligned)]
    exact later
  | @record offs r records bytes fits _ inductionHypothesis =>
    subst here
    have header : 33 ≤ r.bytes.length := r.header
    have later := @inductionHypothesis (front ++ r.bytes) (by simp)
      (by simpa [Nat.add_assoc] using size)
    have inside : front.length < len := by
      rw [size]
      simp only [List.length_append]
      omega
    simp only [List.append_assoc] at later ⊢
    rw [← later]
    by_cases visible : r.Visible
    · rw [List.filter_cons_of_pos (by simpa using visible)]
      exact lists_visible visible inside
    · rw [List.filter_cons_of_neg (by simpa using visible)]
      have passes := @iso9660ReaddirLoop_record front (bytes ++ behind) len r inside
      rw [if_neg visible] at passes
      exact lists_congr passes

/-- The loop stops behind the sectors when the next byte is there and not 0. -/
theorem iso9660ReaddirLoop_last {bytes : List (BitVec 8)}
    (whole : bytes.length % iso9660SectorSize = 0) (short : behind.length ≤ iso9660SectorSize) :
    iso9660ReaddirLoop (bytes ++ behind) bytes.length bytes.length = .ok none ↔
      ∃ first, behind.head? = some first ∧ first ≠ 0 := by
  cases behind with
  | nil =>
    rw [iso9660ReaddirLoop_stuck (by simp)]
    simp
  | cons first behind =>
    have here : (bytes ++ first :: behind)[bytes.length]? = some first := by simp
    rw [iso9660ReaddirLoop_entry here]
    by_cases zero : first.toNat = 0
    · rw [if_pos zero, whole, Nat.sub_zero, iso9660ReaddirLoop_stuck (by
        rw [List.length_append]
        exact Nat.add_le_add_left short _)]
      have is : first = 0 := BitVec.eq_of_toNat_eq zero
      simp [is]
    · rw [if_neg zero, if_pos (Nat.le_refl _)]
      have isNot : first ≠ 0 := fun is => zero (congrArg BitVec.toNat is)
      simpa using isNot

/-- A stream over a directory and the sector behind it lists the visible records exactly when that
sector does not begin with 0. -/
theorem lists_loaded {image : Block} {p : Nat} {dirname : List Char}
    (layout : IsoLayout 0 records (readAt image p len)) :
    Lists ⟨readAt image p (len + iso9660SectorSize), len, 0, dirname⟩
        (records.filter fun r => decide r.Visible) ↔ image (p + len) ≠ 0 := by
  have length : (readAt image p len).length = len := length_readAt
  have whole : (readAt image p len).length % iso9660SectorSize = 0 := by
    have sectors := layout.whole
    rwa [Nat.zero_add] at sectors
  have listed := @lists_layout [] (readAt image (p + len) iso9660SectorSize) len 0 records _ dirname
    layout rfl (by rw [length]; exact (Nat.zero_add _).symm)
  have last := @iso9660ReaddirLoop_last (readAt image (p + len) iso9660SectorSize) _ whole
    (Nat.le_of_eq length_readAt)
  have first : (readAt image (p + len) iso9660SectorSize).head? = some (image (p + len)) := by
    rw [List.head?_eq_getElem?, List.getElem?_eq_getElem (by rw [length_readAt]; decide),
      getElem_readAt, Nat.add_zero]
  rw [length] at last
  rw [readAt_add]
  refine listed.trans (last.trans ?_)
  rw [first]
  constructor
  · intro ⟨byte, same, notZero⟩
    cases same
    exact notZero
  · exact fun notZero => ⟨_, rfl, notZero⟩

end

/-! ## Opened directories -/

/-- What the storage reads is what is on the disk. -/
def ReadsDisk (ctx : Iso9660DrvContext) (image : Block) : Prop :=
  ∀ start count content, ctx.storageDrv start count = .ok content →
    content = readAt image (start * iso9660SectorSize) (count * iso9660SectorSize)

/-- The sectors that `iso9660_opendir` reads of a directory of whole sectors. -/
theorem iso9660Opendir_loaded {ctx : Iso9660DrvContext} {entry : IsoDir} {allocs : OpendirAllocs}
    {dirname : List Char} {ds : IsoDirStream} (whole : entry.extentSize % iso9660SectorSize = 0)
    (opened : iso9660Opendir ctx allocs dirname entry = .ok (.sOk, some ds)) :
    ∃ content dirname', ds = ⟨content, entry.extentSize, 0, dirname'⟩ ∧
      ctx.storageDrv entry.extentStart (u32 (u32 (entry.extentSize + iso9660SectorSize) +
        (iso9660SectorSize - 1)) / iso9660SectorSize) = .ok content := by
  have size : sub32 (u32 (entry.extentSize + iso9660SectorSize))
      (entry.extentSize % iso9660SectorSize) = u32 (entry.extentSize + iso9660SectorSize) := by
    rw [whole, sub32_of_le (Nat.zero_le _) (u32_lt _), Nat.sub_zero]
  unfold iso9660Opendir at opened
  rw [size] at opened
  split at opened
  · cases opened
  · split at opened
    · cases opened
    · dsimp only at opened
      split at opened
      · cases opened
      · rename_i content read
        split at opened
        · cases opened
        · split at opened
          · cases opened
          · obtain ⟨dirname', _, stream⟩ := exists_of_bind opened
            cases stream
            exact ⟨content, dirname', rfl, read⟩

/-- A directory is listed exactly when the byte behind its extent is loaded with it and is not 0:
then every call answers with the next visible record, and the end follows the last. -/
theorem iso9660Readdir_lists_iff {ctx : Iso9660DrvContext} {image : Block} {entry : IsoDir}
    {allocs : OpendirAllocs} {dirname : List Char} {records : List IsoRecord} {ds : IsoDirStream}
    (reads : ReadsDisk ctx image) (small : entry.extentSize < 2 ^ 32)
    (layout : IsoLayout 0 records
      (readAt image (entry.extentStart * iso9660SectorSize) entry.extentSize))
    (opened : iso9660Opendir ctx allocs dirname entry = .ok (.sOk, some ds)) :
    ListsExactly ds (records.filter fun r => decide r.Visible) ↔
      entry.extentSize + iso9660SectorSize < 2 ^ 32 ∧
        image (entry.extentStart * iso9660SectorSize + entry.extentSize) ≠ 0 := by
  have whole : entry.extentSize % 2048 = 0 := by
    have sectors := layout.whole
    rwa [Nat.zero_add, length_readAt] at sectors
  obtain ⟨content, dirname', rfl, read⟩ := iso9660Opendir_loaded whole opened
  have loaded := reads _ _ _ read
  have rewound : ListsExactly ⟨content, entry.extentSize, 0, dirname'⟩
        (records.filter fun r => decide r.Visible) ↔
      Lists ⟨content, entry.extentSize, 0, dirname'⟩
        (records.filter fun r => decide r.Visible) := by
    constructor
    · exact ListsExactly.lists
    · intro lists
      refine ⟨lists, fun filenames ds' run => ?_⟩
      rw [rewound_of_run run]
      exact lists
  rw [rewound]
  by_cases fits : entry.extentSize + 2048 < 2 ^ 32
  · have size : u32 (entry.extentSize + iso9660SectorSize) = entry.extentSize + 2048 :=
      u32_of_lt fits
    have below : entry.extentSize + 2048 + 2047 < 2 ^ 32 := by omega
    have sum : u32 (entry.extentSize + 2048 + (iso9660SectorSize - 1)) =
        entry.extentSize + 2048 + 2047 := u32_of_lt below
    have sectors : (entry.extentSize + 2048 + 2047) / 2048 * 2048 = entry.extentSize + 2048 := by
      omega
    rw [size, sum, sectors] at loaded
    rw [loaded]
    exact (lists_loaded layout).trans (and_iff_right fits).symm
  · -- the size of the buffer comes round to 0
    have wraps : u32 (entry.extentSize + iso9660SectorSize) = 0 := by
      have top : entry.extentSize + 2048 = 2 ^ 32 := by omega
      show u32 (entry.extentSize + 2048) = 0
      rw [top]
      rfl
    rw [wraps] at loaded
    have empty : content = [] := loaded
    refine iff_of_false ?_ fun holds => fits holds.1
    rw [empty]
    exact not_lists_of_halt (iso9660ReaddirLoop_stuck (Nat.le_refl _))

/-! ## A directory with nothing behind it -/

/-- The record of a directory itself, or of its parent. -/
def isoDotRecord (name : BitVec 8) : IsoRecord where
  bytes := 34 :: List.replicate 24 0 ++ 2 :: List.replicate 6 0 ++ [1, name]
  length := rfl
  name := Nat.le_of_eq rfl

/-- The sector of a directory without entries. -/
def isoEmptySector : List (BitVec 8) :=
  (isoDotRecord 0).bytes ++ ((isoDotRecord 1).bytes ++ List.replicate 1980 0)

theorem length_isoEmptySector : isoEmptySector.length = iso9660SectorSize := by
  rw [isoEmptySector, List.length_append, List.length_append, List.length_replicate]
  rfl

theorem isoEmptySector_layout : IsoLayout 0 [isoDotRecord 0, isoDotRecord 1] isoEmptySector := by
  have gap : IsoLayout 68 [] (List.replicate 1980 0 ++ []) :=
    .gap (by decide) (by decide) rfl (.done rfl)
  rw [List.append_nil] at gap
  exact .record (by decide) (.record (by decide) gap)

/-- A disk with an empty directory, and this byte behind it. -/
def isoEmptyDirectory (start : Nat) (next : BitVec 8) : Block := fun i =>
  (isoEmptySector ++ [next]).getD (i - start) 0

theorem readAt_isoEmptyDirectory (start : Nat) (next : BitVec 8) :
    readAt (isoEmptyDirectory start next) start iso9660SectorSize = isoEmptySector := by
  apply List.ext_getElem (length_readAt.trans length_isoEmptySector.symm)
  intro i _ inside
  rw [getElem_readAt, isoEmptyDirectory, Nat.add_sub_cancel_left, List.getD_eq_getElem?_getD,
    List.getElem?_append_left inside, List.getElem?_eq_getElem inside, Option.getD_some]

theorem isoEmptyDirectory_layout (start : Nat) (next : BitVec 8) :
    IsoLayout 0 [isoDotRecord 0, isoDotRecord 1]
      (readAt (isoEmptyDirectory start next) start iso9660SectorSize) := by
  rw [readAt_isoEmptyDirectory]
  exact isoEmptySector_layout

theorem isoEmptyDirectory_behind (start : Nat) (next : BitVec 8) :
    isoEmptyDirectory start next (start + iso9660SectorSize) = next := by
  rw [isoEmptyDirectory, Nat.add_sub_cancel_left, ← length_isoEmptySector,
    List.getD_eq_getElem?_getD, List.getElem?_append_right (Nat.le_refl _), Nat.sub_self]
  rfl

/-- A disk on which every sector can be read. -/
def isoDisk (image : Block) : Iso9660DrvContext where
  storageDrv := fun start count =>
    .ok (readAt image (start * iso9660SectorSize) (count * iso9660SectorSize))

theorem isoDisk_reads (image : Block) : ReadsDisk (isoDisk image) image := by
  intro start count content read
  cases read
  rfl

/-- With another directory behind it the directory is listed: it is empty. -/
theorem iso9660Readdir_lists_empty :
    ListsExactly ⟨readAt (isoEmptyDirectory 40960 34) 40960 4096, 2048, 0, []⟩ [] :=
  (@iso9660Readdir_lists_iff (isoDisk (isoEmptyDirectory 40960 34)) (isoEmptyDirectory 40960 34)
    ⟨⟨20, 2048⟩, 2⟩ ⟨true, true, true⟩ [] _ _ (isoDisk_reads _) (by decide)
    (isoEmptyDirectory_layout 40960 34) rfl).mpr
    ⟨by decide, fun zero =>
      absurd ((isoEmptyDirectory_behind 40960 34).symm.trans zero) (by decide)⟩

/-- With zeros behind the directory the last call reads behind the buffer. -/
theorem iso9660Readdir_not_lists :
    ¬∀ (ctx : Iso9660DrvContext) (image : Block) (entry : IsoDir) (allocs : OpendirAllocs)
        (dirname : List Char) (records : List IsoRecord) (ds : IsoDirStream),
      ReadsDisk ctx image → entry.extentSize < 2 ^ 32 →
      IsoLayout 0 records
        (readAt image (entry.extentStart * iso9660SectorSize) entry.extentSize) →
      iso9660Opendir ctx allocs dirname entry = .ok (.sOk, some ds) →
      ListsExactly ds (records.filter fun r => decide r.Visible) := by
  intro lists
  have listed := lists _ _ ⟨⟨20, 2048⟩, 2⟩ ⟨true, true, true⟩ [] _ _ (isoDisk_reads _)
    (by decide) (isoEmptyDirectory_layout 40960 0) rfl
  exact (lists_loaded (isoEmptyDirectory_layout 40960 0)).mp listed.lists
    (isoEmptyDirectory_behind 40960 0)

end Antonix.Drivers
