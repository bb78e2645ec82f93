import Mathlib.Data.List.Nodup
import Antonix.Drivers.FatDirectory
import Antonix.Vfs.Tree

/-! # Listing a directory (`fat16.c`)

`fat16_readdir` and `fat16_find_subentry` go through the entries of a directory each in its own
way.  They differ in two things: only the lookup takes 0x05 at the start of a name for 0xE5, and
the listing knows the entries `.` and `..` by their first characters, without the extension. -/

namespace Antonix.Drivers

open Buffer ByteMem Vfs

/-! ## The stream -/

/-- `K_DIR_STREAM` of the driver; the content is its `priv_data`. -/
structure FatDirStream where
  content : Block
  len : Nat
  pos : Nat
  dirname : List Char

/-- What follows a read in `fat16_opendir`: `streamAllocs` tells which of the allocations of the
stream and of its name return memory.  The first is not checked. -/
def openFatStream (streamAllocs : Bool × Bool) (dirname : List Char) (maxEntryCnt : Nat)
    (content : Block) :
    Except Halt HResult × FatRead → Except Halt (HResult × Option FatDirStream)
  | (.error halt, _) => .error halt
  | (.ok hr, r) =>
    if hr.failed then .ok (hr, none)
    else if streamAllocs.1 = false then .error .stuck
    else if streamAllocs.2 = false then .ok (.eOutOfMem, none)
    else do
      let dirname ← strcpy vfsMaxDirnameLength dirname
      .ok (.sOk, some ⟨fun i => (r.dst i).getD (content i), maxEntryCnt, 0, dirname⟩)

/-- `fat16_opendir`, from the entry on that `fat16_parse_url` has found; the root has none. -/
def fat16Opendir (vol : Fat16Volume) (kmalloc : Nat → Option Block) (streamAllocs : Bool × Bool)
    (dirname : List Char) (dir : Option Fat16Dir) :
    Except Halt (HResult × Option FatDirStream) :=
  match dir with
  | none =>
    match kmalloc (fatGetRootdirSize vol.layout.bpb) with
    | none => .ok (.eOutOfMem, none)
    | some content => openFatStream streamAllocs dirname vol.layout.bpb.rootEntries content
        (fat16ReadRootdirContent vol kmalloc)
  | some dir =>
    if dir.attributes &&& fatAttrDirectory = 0 then .ok (.eFail, none)
    else
      match fatContentSize vol dir with
      | .error halt => .error halt
      | .ok contentSize =>
        if contentSize = 0 then .ok (.eFail, none)
        else
          match kmalloc contentSize with
          | none => .ok (.eOutOfMem, none)
          | some content => openFatStream streamAllocs dirname (contentSize / dirEntrySize) content
              (fat16ReadFileContentInto vol.drv dir.toFat16DirEntry 0 contentSize)

/-- What a call of `fat16_readdir` hands back: `filename`, and the fields of `info`. -/
structure FatDirItem where
  filename : List (BitVec 8)
  nodeType : Nat
  size : Nat

/-- An entry that `fat16_readdir` takes for `.` or `..`. -/
def isDotEntry (content : Block) (e : Nat) : Bool :=
  content e = 0x2E ∧ (content (e + 1) = 0x20 ∨ content (e + 1) = 0x2E ∧ content (e + 2) = 0x20)

/-- The loop of `fat16_readdir`, from entry `pos` on: which entry is next, if there is one. -/
def fat16ReaddirLoop (content : Block) : Nat → Nat → Option Nat
  | 0, _ => none
  | left + 1, pos =>
    let e := pos * dirEntrySize
    let attributes := (content (e + 11)).toNat
    if content e = 0xE5 then fat16ReaddirLoop content left (pos + 1)
    else if content e = 0x00 then none
    else if attributes &&& fatAttrVolumel ≠ 0 then fat16ReaddirLoop content left (pos + 1)
    else if attributes = 0x0F then fat16ReaddirLoop content left (pos + 1)
    else if isDotEntry content e then fat16ReaddirLoop content left (pos + 1)
    else some pos

/-- What `fat16_readdir` makes of an entry. -/
def fatDirItem (entry : List (BitVec 8)) : FatDirItem where
  filename := (fatCopyShortFilename entry).takeWhile (· ≠ 0)
  nodeType := if (entry.getD 11 0).toNat &&& fatAttrDirectory = 0 then nodeTypeFile
    else nodeTypeDirectory
  size := LittleEndian.field 28 4 entry

/-- `fat16_readdir` -/
def fat16Readdir (ds : FatDirStream) : HResult × Option FatDirItem × FatDirStream :=
  match fat16ReaddirLoop ds.content (ds.len - ds.pos) ds.pos with
  | none => (.eEndOfStr, none, { ds with pos := max ds.len ds.pos })
  | some pos => (.sOk, some (fatDirItem (readAt ds.content (pos * dirEntrySize) dirEntrySize)),
      { ds with pos := pos + 1 })

/-- `fat16_rewinddir` -/
def fat16Rewinddir (ds : FatDirStream) : FatDirStream := { ds with pos := 0 }

/-! ## The entries of a directory -/

/-- The entries from the `i`-th on. -/
def entriesFrom (content : Block) : Nat → Nat → List (List (BitVec 8))
  | 0, _ => []
  | left + 1, i =>
    readAt content (i * dirEntrySize) dirEntrySize :: entriesFrom content left (i + 1)

/-- The entries before the end of the list that are neither deleted nor volume labels. -/
def liveEntries : List (List (BitVec 8)) → List (List (BitVec 8))
  | [] => []
  | entry :: rest =>
    if entry.getD 0 0 = 0xE5 then liveEntries rest
    else if entry.getD 0 0 = 0x00 then []
    else if (entry.getD 11 0).toNat &&& fatAttrVolumel ≠ 0 then liveEntries rest
    else entry :: liveEntries rest

/-- The entry has all attributes of the mask. -/
def hasFlags (flagmask : Nat) (entry : List (BitVec 8)) : Bool :=
  (entry.getD 11 0).toNat &&& flagmask = flagmask

/-- The name without the escape for 0xE5. -/
def unescape (entry : List (BitVec 8)) : List (BitVec 8) :=
  if entry.getD 0 0 = 0x05 then entry.set 0 0xE5 else entry

/-- The name of an entry, as it is compared. -/
def entryKey (entry : List (BitVec 8)) : List (BitVec 8) :=
  ((fatCopyShortFilename entry).takeWhile (· ≠ 0)).map toupper

/-- The first characters of an entry are those of `.` or `..`. -/
def LooksLikeDot (entry : List (BitVec 8)) : Prop :=
  entry.getD 0 0 = 0x2E ∧
    (entry.getD 1 0 = 0x20 ∨ entry.getD 1 0 = 0x2E ∧ entry.getD 2 0 = 0x20)

instance {entry : List (BitVec 8)} : Decidable (LooksLikeDot entry) :=
  inferInstanceAs (Decidable (_ ∧ _))

/-- The name is `.` or `..`. -/
def IsDotName (name : List (BitVec 8)) : Prop := name = [0x2E] ∨ name = [0x2E, 0x2E]

/-- The loop of `fat16_find_subentry` over a directory, with no flags and without volume labels. -/
def fatLookup (content : Block) (len : Nat) (name : List (BitVec 8)) : Option (List (BitVec 8)) :=
  (scanEntries name 0 true len 0 content).2

/-- A stream whose calls answer with these entries, one after the other, and then with the end. -/
inductive FatLists : FatDirStream → List (List (BitVec 8)) → Prop
  | done {ds ds' : FatDirStream} : fat16Readdir ds = (.eEndOfStr, none, ds') → FatLists ds []
  | next {ds ds' : FatDirStream} {pos : Nat} {entries : List (List (BitVec 8))} :
      fat16Readdir ds = (.sOk,
        some (fatDirItem (readAt ds.content (pos * dirEntrySize) dirEntrySize)), ds') →
      pos + 1 = ds'.pos → FatLists ds' entries →
      FatLists ds (readAt ds.content (pos * dirEntrySize) dirEntrySize :: entries)

/-- The same entry, as far as its attributes, cluster and size. -/
def SameEntry (entry entry' : List (BitVec 8)) : Prop := entry.drop 11 = entry'.drop 11

/-- What is listed is found, and what is found is listed exactly once, dots apart. -/
structure ListingAgrees (ds : FatDirStream) (entries : List (List (BitVec 8))) : Prop where
  lists : FatLists (fat16Rewinddir ds) entries
  found : ∀ entry ∈ entries, ∃ entry', fatLookup ds.content ds.len (fatDirItem entry).filename =
    some entry' ∧ SameEntry entry entry'
  listed : ∀ name entry', fatLookup ds.content ds.len name = some entry' → ¬IsDotName name →
    (entries.filter fun entry => stricmpEqual (fatCopyShortFilename entry) name).length = 1

/-- No entry has the escape for 0xE5, and what looks like `.` or `..` has that name. -/
def Listable (entry : List (BitVec 8)) : Prop :=
  entry.getD 0 0 ≠ 0x05 ∧
    (LooksLikeDot entry → IsDotName ((fatCopyShortFilename entry).takeWhile (· ≠ 0)))

section

variable {content : Block} {entry : List (BitVec 8)} {entries : List (List (BitVec 8))}
  {left i len : Nat} {ds ds' : FatDirStream} {dirname : List Char}

theorem getD_readAt {p n k : Nat} (inside : k < n) :
    (readAt content p n).getD k 0 = content (p + k) := by
  rw [List.getD_eq_getElem?_getD, List.getElem?_eq_getElem (by rwa [length_readAt]),
    getElem_readAt, Option.getD_some]

/-- Unescaping an entry of the buffer changes nothing behind it. -/
theorem entriesFrom_congr {content' : Block}
    (same : ∀ a, i * dirEntrySize ≤ a → content' a = content a) :
    entriesFrom content' left i = entriesFrom content left i := by
  induction left generalizing i with
  | zero => rfl
  | succ left inductionHypothesis =>
    have later := @inductionHypothesis (i + 1) fun a below =>
      same a (Nat.le_trans (Nat.mul_le_mul_right _ (Nat.le_succ i)) below)
    have here : readAt content' (i * dirEntrySize) dirEntrySize =
        readAt content (i * dirEntrySize) dirEntrySize :=
      readAt_congr fun k _ => same _ (Nat.le_add_right _ _)
    rw [entriesFrom, entriesFrom, later, here]

theorem hasFlags_true {flagmask : Nat} :
    hasFlags flagmask entry = true ↔ (entry.getD 11 0).toNat &&& flagmask = flagmask := by
  simp [hasFlags]

/-- An empty mask is not looked at, and no entry lacks an attribute of it. -/
theorem hasFlags_false {flagmask : Nat} :
    hasFlags flagmask entry = false ↔
      flagmask ≠ 0 ∧ (entry.getD 11 0).toNat &&& flagmask ≠ flagmask := by
  rw [← Bool.not_eq_true, hasFlags_true]
  constructor
  · intro lacks
    refine ⟨fun empty => lacks ?_, lacks⟩
    rw [empty, Nat.and_zero]
  · intro lacks
    exact lacks.2

theorem readAt_store8 (n : Nat) {a : Nat} :
    readAt (store8 content a 0xE5) a (n + 1) = (readAt content a (n + 1)).set 0 0xE5 := by
  apply List.ext_getElem (by simp)
  intro k inside _
  rw [getElem_readAt]
  cases k with
  | zero =>
    rw [List.getElem_set_self]
    exact store8_same
  | succ k =>
    rw [List.getElem_set_ne (Nat.zero_ne_add_one k), getElem_readAt]
    exact store8_apply_of_ne (by omega)

/-- The buffer once the lookup has unescaped an entry: only that entry is another. -/
theorem unescape_buffer {a : Nat} :
    let buf := if content a = 0x05 then store8 content a 0xE5 else content
    readAt buf a dirEntrySize = unescape (readAt content a dirEntrySize) ∧
      ∀ b, b ≠ a → buf b = content b := by
  have first : (readAt content a dirEntrySize).getD 0 0 = content a := getD_readAt (by decide)
  dsimp only
  rw [unescape, first]
  by_cases escaped : content a = 0x05
  · rw [if_pos escaped, if_pos escaped]
    exact ⟨readAt_store8 31, fun b other => store8_apply_of_ne other⟩
  · rw [if_neg escaped, if_neg escaped]
    exact ⟨rfl, fun _ _ => rfl⟩

/-- The lookup is a search in the live entries, unescaped. -/
theorem scanEntries_eq (name : List (BitVec 8)) (flagmask : Nat) :
    (scanEntries name flagmask true left i content).2 =
      ((liveEntries (entriesFrom content left i)).find? fun entry =>
        hasFlags flagmask entry && stricmpEqual (fatCopyShortFilename (unescape entry)) name).map
        unescape := by
  induction left generalizing i content with
  | zero => rfl
  | succ left inductionHypothesis =>
    have first : (readAt content (i * dirEntrySize) dirEntrySize).getD 0 0 =
        content (i * dirEntrySize) := getD_readAt (by decide)
    have attributes : (readAt content (i * dirEntrySize) dirEntrySize).getD 11 0 =
        content (i * dirEntrySize + 11) := getD_readAt (by decide)
    rw [scanEntries, entriesFrom, liveEntries, first, attributes]
    dsimp only
    by_cases deleted : content (i * dirEntrySize) = 0xE5
    · rw [if_pos deleted, if_pos deleted, inductionHypothesis]
    · rw [if_neg deleted, if_neg deleted]
      have unescaped := @unescape_buffer content (i * dirEntrySize)
      generalize (if content (i * dirEntrySize) = 0x05 then
        store8 content (i * dirEntrySize) 0xE5 else content) = buf at unescaped ⊢
      obtain ⟨here, elsewhere⟩ := unescaped
      -- what is behind the entry is still as it was
      have later : entriesFrom buf left (i + 1) = entriesFrom content left (i + 1) :=
        entriesFrom_congr fun b below => elsewhere b (by
          have next : i * dirEntrySize < (i + 1) * dirEntrySize :=
            Nat.mul_lt_mul_of_pos_right (Nat.lt_succ_self i) (by decide)
          omega)
      have rest := @inductionHypothesis buf (i + 1)
      rw [later] at rest
      rw [elsewhere (i * dirEntrySize + 11) (by omega), here]
      by_cases ended : content (i * dirEntrySize) = 0x00
      · rw [if_pos ended, if_pos ended]
        rfl
      · rw [if_neg ended, if_neg ended]
        by_cases label : (content (i * dirEntrySize + 11)).toNat &&& fatAttrVolumel ≠ 0
        · rw [if_pos ⟨rfl, label⟩, if_pos label, rest]
        · rw [if_neg fun both => label both.2, if_neg label, List.find?_cons]
          cases flags : hasFlags flagmask (readAt content (i * dirEntrySize) dirEntrySize) with
          | false =>
            rw [hasFlags_false, attributes] at flags
            rw [if_pos flags, Bool.false_and]
            exact rest
          | true =>
            have mask := hasFlags_true.mp flags
            rw [attributes] at mask
            rw [if_neg fun both => both.2 mask, Bool.true_and]
            by_cases named : stricmpEqual (fatCopyShortFilename
                (unescape (readAt content (i * dirEntrySize) dirEntrySize))) name
            · rw [if_pos named, named]
              rfl
            · rw [if_neg named, Bool.eq_false_of_not_eq_true named]
              exact rest

/-- The names of the live entries are keys: a lookup with the name of one finds it. -/
theorem find?_of_nodup {α κ : Type} [DecidableEq κ] {key : α → κ} {l : List α} {x : α}
    (distinct : (l.map key).Nodup) (member : x ∈ l) :
    l.find? (fun y => key y = key x) = some x := by
  cases search : l.find? (fun y => key y = key x) with
  | none =>
    have missed := List.find?_eq_none.mp search x member
    simp at missed
  | some y =>
    have same : key y = key x := by simpa using List.find?_some search
    rw [List.inj_on_of_nodup_map distinct (List.mem_of_find?_eq_some search) member same]

theorem stricmpEqual_iff {name : List (BitVec 8)} :
    stricmpEqual (fatCopyShortFilename entry) name = true ↔ entryKey entry = name.map toupper := by
  rw [stricmpEqual, decide_eq_true_iff, entryKey]

/-- The lookup finds the live entry with the key of the name. -/
theorem fatLookup_eq (name : List (BitVec 8)) :
    fatLookup content len name =
      ((liveEntries (entriesFrom content len 0)).find? fun entry =>
        entryKey (unescape entry) = name.map toupper).map unescape := by
  have all : ∀ entry, hasFlags 0 entry = true := fun entry => hasFlags_true.mpr (Nat.and_zero _)
  rw [fatLookup, scanEntries_eq]
  simp only [all, Bool.true_and]
  rfl

/-! ## What is listed -/

/-- An entry of the buffer, as the listing sees it. -/
theorem fat16ReaddirLoop_succ :
    fat16ReaddirLoop content (left + 1) i =
      if (readAt content (i * dirEntrySize) dirEntrySize).getD 0 0 = 0xE5 then
        fat16ReaddirLoop content left (i + 1)
      else if (readAt content (i * dirEntrySize) dirEntrySize).getD 0 0 = 0x00 then none
      else if ((readAt content (i * dirEntrySize) dirEntrySize).getD 11 0).toNat &&&
          fatAttrVolumel ≠ 0 then fat16ReaddirLoop content left (i + 1)
      else if LooksLikeDot (readAt content (i * dirEntrySize) dirEntrySize) then
        fat16ReaddirLoop content left (i + 1)
      else some i := by
  have first : (readAt content (i * dirEntrySize) dirEntrySize).getD 0 0 =
      content (i * dirEntrySize) := getD_readAt (by decide)
  have attributes : (readAt content (i * dirEntrySize) dirEntrySize).getD 11 0 =
      content (i * dirEntrySize + 11) := getD_readAt (by decide)
  have dots : isDotEntry content (i * dirEntrySize) =
      decide (LooksLikeDot (readAt content (i * dirEntrySize) dirEntrySize)) := by
    have second := @getD_readAt content (i * dirEntrySize) dirEntrySize 1 (by decide)
    have third := @getD_readAt content (i * dirEntrySize) dirEntrySize 2 (by decide)
    rw [isDotEntry, decide_eq_decide]
    unfold LooksLikeDot
    rw [first, second, third]
  rw [fat16ReaddirLoop, first, attributes]
  by_cases label : (content (i * dirEntrySize + 11)).toNat &&& fatAttrVolumel ≠ 0
  · rw [if_pos label, if_pos label]
  · -- a long name has the flag of a volume label
    have short : (content (i * dirEntrySize + 11)).toNat ≠ 0x0F := by
      intro long
      rw [long] at label
      exact label (by decide)
    rw [if_neg label, if_neg label, if_neg short, dots]
    simp only [decide_eq_true_eq]

theorem fat16Readdir_end (stops : fat16ReaddirLoop ds.content (ds.len - ds.pos) ds.pos = none) :
    fat16Readdir ds = (.eEndOfStr, none, { ds with pos := max ds.len ds.pos }) := by
  rw [fat16Readdir, stops]

theorem fat16Readdir_found {pos : Nat}
    (stops : fat16ReaddirLoop ds.content (ds.len - ds.pos) ds.pos = some pos) :
    fat16Readdir ds = (.sOk,
      some (fatDirItem (readAt ds.content (pos * dirEntrySize) dirEntrySize)),
      { ds with pos := pos + 1 }) := by
  rw [fat16Readdir, stops]

theorem fatLists_of_end
    (stops : fat16ReaddirLoop ds.content (ds.len - ds.pos) ds.pos = none) :
    FatLists ds entries ↔ entries = [] := by
  constructor
  · intro lists
    cases lists with
    | done _ => rfl
    | next answers _ _ =>
      rw [fat16Readdir_end stops] at answers
      cases answers
  · intro none
    rw [none]
    exact .done (fat16Readdir_end stops)

theorem fatLists_of_found {pos : Nat}
    (stops : fat16ReaddirLoop ds.content (ds.len - ds.pos) ds.pos = some pos) :
    FatLists ds entries ↔
      ∃ rest, entries = readAt ds.content (pos * dirEntrySize) dirEntrySize :: rest ∧
        FatLists { ds with pos := pos + 1 } rest := by
  constructor
  · intro lists
    cases lists with
    | done ends =>
      rw [fat16Readdir_found stops] at ends
      cases ends
    | @next _ ds' pos' rest answers after later =>
      rw [fat16Readdir_found stops] at answers
      have stream : { ds with pos := pos + 1 } = ds' := (Prod.mk.inj (Prod.mk.inj answers).2).2
      have same : pos' = pos := by
        rw [← stream] at after
        exact Nat.succ.inj after
      rw [same, stream]
      exact ⟨rest, rfl, later⟩
  · intro ⟨rest, shape, later⟩
    rw [shape]
    exact .next (fat16Readdir_found stops) rfl later

/-- Streams at two positions list the same when their loops stop at the same entry. -/
theorem fatLists_congr {j : Nat}
    (same : fat16ReaddirLoop content (len - i) i = fat16ReaddirLoop content (len - j) j) :
    FatLists ⟨content, len, i, dirname⟩ entries ↔ FatLists ⟨content, len, j, dirname⟩ entries := by
  cases stops : fat16ReaddirLoop content (len - j) j with
  | none =>
    rw [stops] at same
    have after : FatLists ⟨content, len, j, dirname⟩ entries ↔ _ := fatLists_of_end stops
    exact (fatLists_of_end same).trans after.symm
  | some pos =>
    rw [stops] at same
    have after : FatLists ⟨content, len, j, dirname⟩ entries ↔ _ := fatLists_of_found stops
    exact (fatLists_of_found same).trans after.symm

/-- A stream lists the live entries but those that look like dots, and nothing else. -/
theorem fatLists_iff (size : i + left = len) :
    FatLists ⟨content, len, i, dirname⟩ entries ↔
      entries = (liveEntries (entriesFrom content left i)).filter
        fun entry => ¬LooksLikeDot entry := by
  induction left generalizing i entries with
  | zero =>
    have stops : fat16ReaddirLoop content (len - i) i = none := by
      rw [← size, Nat.add_sub_cancel_left]
      rfl
    exact fatLists_of_end stops
  | succ left inductionHypothesis =>
    have here : len - i = left + 1 := by omega
    have next : len - (i + 1) = left := by omega
    have later {entries} := @inductionHypothesis entries (i + 1) (by omega)
    have skipped (goesOn : fat16ReaddirLoop content (left + 1) i =
        fat16ReaddirLoop content left (i + 1)) :
        FatLists ⟨content, len, i, dirname⟩ entries ↔
          FatLists ⟨content, len, i + 1, dirname⟩ entries :=
      fatLists_congr (by rw [here, next, goesOn])
    have loop := @fat16ReaddirLoop_succ content left i
    rw [entriesFrom, liveEntries]
    by_cases deleted : (readAt content (i * dirEntrySize) dirEntrySize).getD 0 0 = 0xE5
    · rw [if_pos deleted] at loop ⊢
      exact (skipped loop).trans later
    · rw [if_neg deleted] at loop ⊢
      by_cases ended : (readAt content (i * dirEntrySize) dirEntrySize).getD 0 0 = 0x00
      · rw [if_pos ended] at loop ⊢
        exact fatLists_of_end (by rw [here, loop])
      · rw [if_neg ended] at loop ⊢
        by_cases label : ((readAt content (i * dirEntrySize) dirEntrySize).getD 11 0).toNat &&&
            fatAttrVolumel ≠ 0
        · rw [if_pos label] at loop ⊢
          exact (skipped loop).trans later
        · rw [if_neg label] at loop ⊢
          by_cases dots : LooksLikeDot (readAt content (i * dirEntrySize) dirEntrySize)
          · rw [if_pos dots] at loop
            rw [List.filter_cons_of_neg (by simpa using dots)]
            exact (skipped loop).trans later
          · rw [if_neg dots] at loop
            rw [List.filter_cons_of_pos (by simpa using dots)]
            have found : FatLists ⟨content, len, i, dirname⟩ entries ↔ _ :=
              fatLists_of_found (by rw [here, loop])
            rw [found]
            constructor
            · intro ⟨rest, shape, lists⟩
              rw [shape, later.mp lists]
            · intro shape
              exact ⟨_, shape, later.mpr rfl⟩

/-! ## Where the two agree -/

/-- Characters that are not letters are their own capitals, and nobody else's. -/
theorem toupper_eq_iff {c d : BitVec 8} (other : d < 0x41) : toupper c = d ↔ c = d := by
  unfold toupper
  split
  · rename_i letter
    obtain ⟨low, high⟩ := letter
    constructor
    · intro same
      bv_omega
    · intro same
      bv_omega
  · exact Iff.rfl

theorem fatCopyShortFilename_cons {c : BitVec 8} {rest : List (BitVec 8)} (some : c ≠ 0x20) :
    ∃ more, fatCopyShortFilename (c :: rest) = c :: more := by
  have name : ((c :: rest).take 8).takeWhile (· ≠ 0x20) = c :: (rest.take 7).takeWhile (· ≠ 0x20) :=
    List.takeWhile_cons_of_pos (by simpa using some)
  unfold fatCopyShortFilename
  rw [name]
  dsimp only
  split
  · exact ⟨_, rfl⟩
  · exact ⟨_, rfl⟩

theorem fatCopyShortFilename_space {rest : List (BitVec 8)} :
    fatCopyShortFilename (0x20 :: rest) = [] ∨
      ∃ more, fatCopyShortFilename (0x20 :: rest) = 0x2E :: more := by
  have name : ((0x20 :: rest).take 8).takeWhile (· ≠ 0x20) = [] :=
    List.takeWhile_cons_of_neg (by decide)
  unfold fatCopyShortFilename
  rw [name]
  dsimp only
  split
  · exact .inl rfl
  · exact .inr ⟨_, rfl⟩

/-- A key begins with the escape where the entry does, and nowhere else. -/
theorem entryKey_head_iff : (entryKey entry).head? = some 0x05 ↔ entry.getD 0 0 = 0x05 := by
  cases entry with
  | nil => decide
  | cons c rest =>
    show _ ↔ c = 0x05
    by_cases space : c = 0x20
    · subst space
      refine iff_of_false (fun head => ?_) (by decide)
      rw [entryKey] at head
      cases @fatCopyShortFilename_space rest with
      | inl none =>
        rw [none] at head
        cases head
      | inr dot =>
        obtain ⟨more, shape⟩ := dot
        rw [shape, List.takeWhile_cons_of_pos (by decide)] at head
        cases head
    · obtain ⟨more, shape⟩ := @fatCopyShortFilename_cons c rest space
      rw [entryKey, shape]
      by_cases zero : c = 0
      · subst zero
        rw [List.takeWhile_cons_of_neg (by decide)]
        exact iff_of_false (fun head => by cases head) (by decide)
      · rw [List.takeWhile_cons_of_pos (by simpa using zero), List.map_cons, List.head?_cons,
          Option.some_inj]
        exact toupper_eq_iff (by decide)

theorem unescape_first : (unescape entry).getD 0 0 ≠ 0x05 := by
  unfold unescape
  by_cases escaped : entry.getD 0 0 = 0x05
  · rw [if_pos escaped]
    cases entry with
    | nil => cases escaped
    | cons c rest =>
      show (0xE5 : BitVec 8) ≠ 0x05
      decide
  · rwa [if_neg escaped]

theorem unescape_of_ne (plain : entry.getD 0 0 ≠ 0x05) : unescape entry = entry := if_neg plain

theorem fatDirItem_filename : (fatDirItem entry).filename.map toupper = entryKey entry := rfl

/-- The lookup with the name of a live entry finds it. -/
theorem fatLookup_of_live
    (distinct : ((liveEntries (entriesFrom content len 0)).map fun entry =>
      entryKey (unescape entry)).Nodup)
    (live : entry ∈ liveEntries (entriesFrom content len 0)) (plain : entry.getD 0 0 ≠ 0x05) :
    fatLookup content len (fatDirItem entry).filename = some entry := by
  have found := find?_of_nodup distinct live
  rw [unescape_of_ne plain] at found
  rw [fatLookup_eq, fatDirItem_filename, found, Option.map_some, unescape_of_ne plain]

/-- What the lookup finds is a live entry with that name. -/
theorem live_of_fatLookup {name found : List (BitVec 8)}
    (lookup : fatLookup content len name = some found) :
    ∃ entry ∈ liveEntries (entriesFrom content len 0),
      entryKey (unescape entry) = name.map toupper ∧ unescape entry = found := by
  rw [fatLookup_eq] at lookup
  obtain ⟨entry, search, same⟩ := Option.map_eq_some_iff.mp lookup
  exact ⟨entry, List.mem_of_find?_eq_some search, by simpa using List.find?_some search, same⟩

/-- A name with the key of a dot name is one. -/
theorem isDotName_of_key {name name' : List (BitVec 8)}
    (same : name.map toupper = name'.map toupper) (dots : IsDotName name') : IsDotName name := by
  have one (c : BitVec 8) (is : toupper c = toupper 0x2E) : c = 0x2E :=
    (toupper_eq_iff (by decide)).mp is
  cases dots with
  | inl dot =>
    rw [dot] at same
    obtain ⟨c, shape, isDot⟩ := List.map_eq_singleton_iff.mp same
    exact .inl (by rw [shape, one c isDot])
  | inr dots =>
    rw [dots] at same
    obtain ⟨c, rest, shape, isDot, later⟩ := List.map_eq_cons_iff.mp same
    obtain ⟨d, shape', isDot'⟩ := List.map_eq_singleton_iff.mp later
    exact .inr (by rw [shape, shape', one c isDot, one d isDot'])

/-- Of entries with different keys exactly one has a key that is there. -/
theorem length_filter_of_nodup {name : List (BitVec 8)} (distinct : (entries.map entryKey).Nodup)
    (member : entry ∈ entries) (key : entryKey entry = name.map toupper) :
    (entries.filter fun entry => stricmpEqual (fatCopyShortFilename entry) name).length = 1 := by
  have count := List.count_eq_one_of_mem distinct (List.mem_map_of_mem member)
  rw [key, List.count, List.countP_map] at count
  rw [← List.countP_eq_length_filter, ← count]
  apply List.countP_congr
  intro y _
  rw [stricmpEqual_iff, Function.comp_apply, beq_iff_eq]

/-- The listing of a directory in which every live entry can be listed. -/
theorem listingAgrees_of_listable
    (distinct : ((liveEntries (entriesFrom ds.content ds.len 0)).map fun entry =>
      entryKey (unescape entry)).Nodup)
    (listable : ∀ entry ∈ liveEntries (entriesFrom ds.content ds.len 0), Listable entry) :
    ListingAgrees ds ((liveEntries (entriesFrom ds.content ds.len 0)).filter
      fun entry => ¬LooksLikeDot entry) := by
  constructor
  · exact (fatLists_iff (Nat.zero_add ds.len)).mpr rfl
  · intro entry member
    have live := List.mem_of_mem_filter member
    exact ⟨entry, fatLookup_of_live distinct live (listable entry live).1, rfl⟩
  · intro name found lookup notDot
    obtain ⟨entry, live, key, _⟩ := live_of_fatLookup lookup
    rw [unescape_of_ne (listable entry live).1] at key
    have shown : ¬LooksLikeDot entry := fun dots =>
      notDot (isDotName_of_key key.symm ((listable entry live).2 dots))
    have keys : (liveEntries (entriesFrom ds.content ds.len 0)).map entryKey =
        (liveEntries (entriesFrom ds.content ds.len 0)).map
          fun entry => entryKey (unescape entry) :=
      List.map_congr_left fun y inside => by rw [unescape_of_ne (listable y inside).1]
    rw [← keys] at distinct
    exact length_filter_of_nodup ((List.filter_sublist.map entryKey).nodup distinct)
      (List.mem_filter.mpr ⟨live, by simpa using shown⟩) key

/-- A live entry of a directory whose listing agrees can be listed. -/
theorem ListingAgrees.listable (agrees : ListingAgrees ds entries)
    (distinct : ((liveEntries (entriesFrom ds.content ds.len 0)).map fun entry =>
      entryKey (unescape entry)).Nodup)
    (live : entry ∈ liveEntries (entriesFrom ds.content ds.len 0)) : Listable entry := by
  have all := (fatLists_iff (Nat.zero_add ds.len)).mp agrees.lists
  constructor
  · intro escaped
    have shown : ¬LooksLikeDot entry := by
      intro dots
      rw [dots.1] at escaped
      cases escaped
    have member : entry ∈ entries := by
      rw [all]
      exact List.mem_filter.mpr ⟨live, by simpa using shown⟩
    obtain ⟨found, lookup, _⟩ := agrees.found entry member
    obtain ⟨other, _, key, _⟩ := live_of_fatLookup lookup
    -- no unescaped name begins with the escape
    have head := entryKey_head_iff.mpr escaped
    rw [← fatDirItem_filename, ← key] at head
    exact unescape_first (entryKey_head_iff.mp head)
  · intro dots
    by_contra other
    have plain : entry.getD 0 0 ≠ 0x05 := by
      rw [dots.1]
      decide
    have once := agrees.listed _ _ (fatLookup_of_live distinct live plain) other
    obtain ⟨shown, member⟩ := List.exists_mem_of_length_pos (once ▸ Nat.one_pos)
    obtain ⟨listed, matched⟩ := List.mem_filter.mp member
    have key := stricmpEqual_iff.mp matched
    rw [fatDirItem_filename] at key
    have plain' : shown.getD 0 0 ≠ 0x05 := by
      intro escaped
      have head := entryKey_head_iff.mpr escaped
      rw [key] at head
      exact plain (entryKey_head_iff.mp head)
    rw [all] at listed
    obtain ⟨live', notDots⟩ := List.mem_filter.mp listed
    have same : shown = entry := List.inj_on_of_nodup_map distinct live' live (by
      rw [unescape_of_ne plain, unescape_of_ne plain', key])
    rw [same] at notDots
    exact absurd dots (by simpa using notDots)

/-- In a directory whose live entries have different names, the listing agrees with the lookup
exactly when every live entry can be listed. -/
theorem listingAgrees_iff
    (distinct : ((liveEntries (entriesFrom ds.content ds.len 0)).map fun entry =>
      entryKey (unescape entry)).Nodup) :
    (∃ entries, ListingAgrees ds entries) ↔
      ∀ entry ∈ liveEntries (entriesFrom ds.content ds.len 0), Listable entry :=
  ⟨fun ⟨_, agrees⟩ _ live => agrees.listable distinct live,
    fun listable => ⟨_, listingAgrees_of_listable distinct listable⟩⟩

/-- What was read into a stream is what a lookup in the same directory goes through. -/
theorem scanDirectory_opened {streamAllocs : Bool × Bool} {asked n : Nat} {buf : Block}
    {result : Except Halt HResult × FatRead} {name : List (BitVec 8)}
    (opened : openFatStream streamAllocs dirname n buf result = .ok (.sOk, some ds)) :
    ∃ hr, hr.failed = false ∧ (scanDirectory asked n buf name 0 true result).outcome =
      .ok (if (fatLookup ds.content ds.len name).isSome then hr else .eNotFound,
        fatLookup ds.content ds.len name) := by
  obtain ⟨outcome, r⟩ := result
  cases outcome with
  | error halt => cases opened
  | ok hr =>
    unfold openFatStream at opened
    by_cases failed : hr.failed = true
    · simp only [if_pos failed] at opened
      cases opened
    · simp only [if_neg failed] at opened
      split at opened
      · cases opened
      · split at opened
        · cases opened
        · obtain ⟨dirname', _, stream⟩ := exists_of_bind opened
          cases stream
          refine ⟨hr, Bool.eq_false_of_not_eq_true failed, ?_⟩
          unfold scanDirectory fatLookup
          dsimp only
          rw [if_neg failed]
          generalize scanEntries name 0 true n 0 (fun i => (r.dst i).getD (buf i)) = scan
          obtain ⟨scanned, found⟩ := scan
          cases found with
          | none => rfl
          | some entry => rfl

/-- The stream of a directory holds what `fat16_find_subentry` goes through there. -/
theorem fat16FindSubentry_opened {vol : Fat16Volume} {kmalloc : Nat → Option Block}
    {streamAllocs : Bool × Bool} {dir : Fat16Dir} {name : List (BitVec 8)}
    (opened : fat16Opendir vol kmalloc streamAllocs dirname (some dir) = .ok (.sOk, some ds)) :
    ∃ hr, hr.failed = false ∧ (fat16FindSubentry vol kmalloc (some dir) name 0 true).outcome =
      .ok (if (fatLookup ds.content ds.len name).isSome then hr else .eNotFound,
        fatLookup ds.content ds.len name) := by
  unfold fat16Opendir at opened
  unfold fat16FindSubentry
  dsimp only at opened ⊢
  by_cases file : dir.attributes &&& fatAttrDirectory = 0
  · rw [if_pos file] at opened
    cases opened
  · rw [if_neg file] at opened
    cases size : fatContentSize vol dir with
    | error halt =>
      rw [size] at opened
      cases opened
    | ok contentSize =>
      rw [size] at opened
      dsimp only at opened ⊢
      rw [if_neg file]
      by_cases empty : contentSize = 0
      · rw [if_pos empty] at opened
        cases opened
      · rw [if_neg empty] at opened
        cases memory : kmalloc contentSize with
        | none =>
          rw [memory] at opened
          cases opened
        | some content =>
          rw [memory] at opened
          exact scanDirectory_opened opened

end

/-- A directory with this entry and nothing else. -/
def fatContentOf (entry : List (BitVec 8)) : Block := fun i => entry.getD i 0

/-- In a directory with `A` the listing agrees. -/
theorem listingAgrees_single :
    (∃ entries, ListingAgrees ⟨fatContentOf (0x41 :: List.replicate 10 0x20), 1, 0, []⟩ entries) ↔
      ∀ entry ∈ liveEntries (entriesFrom (fatContentOf (0x41 :: List.replicate 10 0x20)) 1 0),
        Listable entry :=
  listingAgrees_iff (by decide)

/-- A name that begins with 0xE5 is listed with 0x05, and is not found. -/
theorem listingAgrees_not :
    ¬∀ ds : FatDirStream, ((liveEntries (entriesFrom ds.content ds.len 0)).map fun entry =>
      entryKey (unescape entry)).Nodup → ∃ entries, ListingAgrees ds entries := by
  intro agree
  obtain ⟨entries, agrees⟩ := agree
    ⟨fatContentOf (0x05 :: List.replicate 10 0x20), 1, 0, []⟩ (by decide)
  have live : readAt (fatContentOf (0x05 :: List.replicate 10 0x20)) 0 32 ∈
      liveEntries (entriesFrom (fatContentOf (0x05 :: List.replicate 10 0x20)) 1 0) := by decide
  exact (agrees.listable (by decide) live).1 rfl

end Antonix.Drivers
