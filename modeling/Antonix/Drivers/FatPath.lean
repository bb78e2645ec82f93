import Antonix.Drivers.FatListing
import Antonix.Vfs.Url

/-! # Resolving a path on a FAT volume (`fat16.c`)

`fat16_parse_url` cuts a url behind its delimiters and descends from the root directory.  What is
before the first delimiter is not looked at, and without a delimiter the loop does not run: the
entry is handed out as it was on the stack. -/

namespace Antonix.Drivers

open Buffer ByteMem Vfs

/-- The bytes of a C string. -/
def charBytes (s : List Char) : List (BitVec 8) := s.map fun c => BitVec.ofNat 8 c.toNat

/-- The size of `comp_name`. -/
abbrev compNameSize : Nat := 256

/-- A record of a directory as the `FAT16_DIR_ENTRY` that it is. -/
def readDirEntry (entry : List (BitVec 8)) : Fat16Dir where
  firstClustHigh := LittleEndian.field 20 2 entry
  firstClustLow := LittleEndian.field 26 2 entry
  size := LittleEndian.field 28 4 entry
  attributes := (entry.getD 11 0).toNat

/-- The descent of `fat16_parse_url`, from component `i` on, where `curr` is `curr_entry` once it is
written; `kmalloc i` is what the lookup of that component meets. -/
def parseFatComponents (vol : Fat16Volume) (kmalloc : Nat → Nat → Option Block) :
    Nat → Option (List (BitVec 8)) → List (List Char) →
      Except Halt (HResult × Option (List (BitVec 8)))
  | _, curr, [] => .ok (.sOk, curr)
  | i, curr, comp :: rest =>
    -- the copy and its terminator do not fit
    if compNameSize ≤ comp.length then .error .stuck
    else
      let flagmask := if rest = [] then 0 else fatAttrDirectory
      match (fat16FindSubentry vol (kmalloc i) (curr.map readDirEntry) (charBytes comp) flagmask
        true).outcome with
      | .error halt => .error halt
      | .ok (hr, found) =>
        if hr.failed then .ok (hr, none)
        else parseFatComponents vol kmalloc (i + 1) (found.or curr) rest

/-- `fat16_parse_url`, with what it writes to `out_entry`; a success without an entry is one that
hands out what was on the stack. -/
def fat16ParseUrl (vol : Fat16Volume) (kmalloc : Nat → Nat → Option Block) (url : List Char) :
    Except Halt (HResult × Option (List (BitVec 8))) :=
  parseFatComponents vol kmalloc 0 none (components url)

/-- `fat16_open`, as far as the entry of the stream; `streamAllocs` tells which of the allocations
of the stream and of its context return memory.  To look at an unwritten entry is undefined. -/
def fat16Open (vol : Fat16Volume) (kmalloc : Nat → Nat → Option Block)
    (streamAllocs : Bool × Bool) (url : List Char) :
    Except Halt (HResult × Option (List (BitVec 8))) :=
  match fat16ParseUrl vol kmalloc url with
  | .error halt => .error halt
  | .ok (hr, out) =>
    if hr.failed then .ok (hr, none)
    else
      match out with
      | none => .error .stuck
      | some entry =>
        if (entry.getD 11 0).toNat &&& (fatAttrDirectory ||| fatAttrVolumel) ≠ 0 then
          .ok (.eFail, none)
        else if streamAllocs.1 = false then .ok (.eOutOfMem, none)
        else if streamAllocs.2 = false then .ok (.eOutOfMem, none)
        else .ok (.sOk, some entry)

/-! ## What a url denotes -/

/-- A directory that was read into a buffer, if that went well. -/
def filledBuffer (buf : Block) (entryCnt : Nat) :
    Except Halt HResult × FatRead → Except Halt (Except HResult (Block × Nat))
  | (.error halt, _) => .error halt
  | (.ok hr, r) =>
    if hr.failed then .ok (.error hr)
    else .ok (.ok (fun i => (r.dst i).getD (buf i), entryCnt))

/-- What a lookup gets to see of a directory, and how many entries that are. -/
def fatDirectoryContent (vol : Fat16Volume) (kmalloc : Nat → Option Block) (dir : Option Fat16Dir) :
    Except Halt (Except HResult (Block × Nat)) :=
  match dir with
  | none =>
    match kmalloc (vol.layout.bpb.rootEntries &&& dirEntrySize) with
    | none => .ok (.error .eOutOfMem)
    | some buf =>
      filledBuffer buf vol.layout.bpb.rootEntries (fat16ReadRootdirContent vol kmalloc)
  | some dir =>
    match fatContentSize vol dir with
    | .error halt => .error halt
    | .ok contentSize =>
      if dir.attributes &&& fatAttrDirectory = 0 then .ok (.error .eInvalidArg)
      else
        match kmalloc contentSize with
        | none => .ok (.error .eOutOfMem)
        | some buf => filledBuffer buf (contentSize / dirEntrySize)
            (fat16ReadFileContentInto vol.drv dir.toFat16DirEntry 0 contentSize)

/-- The first live entry of a directory with this name and these attributes. -/
def firstNamed (content : Block) (len : Nat) (name : List (BitVec 8)) (flagmask : Nat) :
    Option (List (BitVec 8)) :=
  ((liveEntries (entriesFrom content len 0)).find? fun entry =>
    hasFlags flagmask entry && stricmpEqual (fatCopyShortFilename (unescape entry)) name).map
    unescape

/-- The component is matched in the directory by this entry of it. -/
def Matched (vol : Fat16Volume) (kmalloc : Nat → Option Block) (curr : Option (List (BitVec 8)))
    (comp : List Char) (flagmask : Nat) (entry : List (BitVec 8)) : Prop :=
  ∃ content len,
    fatDirectoryContent vol kmalloc (curr.map readDirEntry) = .ok (.ok (content, len)) ∧
    firstNamed content len (charBytes comp) flagmask = some entry

/-- Each component is matched in the directory of the one before it, and the last one by this entry;
`curr` is the entry of the directory of the first, and the root has none. -/
inductive Resolves (vol : Fat16Volume) (kmalloc : Nat → Nat → Option Block) :
    Nat → Option (List (BitVec 8)) → List (List Char) → List (BitVec 8) → Prop
  | last {i : Nat} {curr : Option (List (BitVec 8))} {comp : List Char}
      {entry : List (BitVec 8)} (here : Matched vol (kmalloc i) curr comp 0 entry) :
      Resolves vol kmalloc i curr [comp] entry
  | descend {i : Nat} {curr : Option (List (BitVec 8))} {comp next : List Char}
      {rest : List (List Char)} {dir entry : List (BitVec 8)}
      (here : Matched vol (kmalloc i) curr comp fatAttrDirectory dir)
      (below : Resolves vol kmalloc (i + 1) (some dir) (next :: rest) entry) :
      Resolves vol kmalloc i curr (comp :: next :: rest) entry

/-- The url is these components, each behind a delimiter. -/
structure Denotes (url : List Char) (comps : List (List Char)) : Prop where
  some : comps ≠ []
  clean : ∀ comp ∈ comps, delimiter ∉ comp
  url : url = implodeStr comps

/-- A url is parsed as it should be: the parse returns, it succeeds with the entry that the url
denotes and with no other, and what `fat16_open` looks at was written. -/
structure ParsesUrl (vol : Fat16Volume) (kmalloc : Nat → Nat → Option Block) (url : List Char) :
    Prop where
  returns : ∃ result, fat16ParseUrl vol kmalloc url = .ok result
  resolved : ∀ hr out, fat16ParseUrl vol kmalloc url = .ok (hr, out) → hr.failed = false →
    ∃ comps entry, Denotes url comps ∧ Resolves vol kmalloc 0 none comps entry ∧ out = some entry
  opened : ∀ streamAllocs, ∃ result, fat16Open vol kmalloc streamAllocs url = .ok result

/-- The descent comes to a component that is too long for `comp_name`, or to a directory whose
reading does not return. -/
inductive Breaks (vol : Fat16Volume) (kmalloc : Nat → Nat → Option Block) :
    Nat → Option (List (BitVec 8)) → List (List Char) → Prop
  | overlong {i : Nat} {curr : Option (List (BitVec 8))} {comp : List Char}
      {rest : List (List Char)} (long : compNameSize ≤ comp.length) :
      Breaks vol kmalloc i curr (comp :: rest)
  | endless {i : Nat} {curr : Option (List (BitVec 8))} {comp : List Char}
      {rest : List (List Char)} {halt : Halt}
      (read : fatDirectoryContent vol (kmalloc i) (curr.map readDirEntry) = .error halt) :
      Breaks vol kmalloc i curr (comp :: rest)
  | descend {i : Nat} {curr : Option (List (BitVec 8))} {comp next : List Char}
      {rest : List (List Char)} {dir : List (BitVec 8)}
      (here : Matched vol (kmalloc i) curr comp fatAttrDirectory dir)
      (later : Breaks vol kmalloc (i + 1) (some dir) (next :: rest)) :
      Breaks vol kmalloc i curr (comp :: next :: rest)

section

variable {vol : Fat16Volume} {kmalloc : Nat → Nat → Option Block} {i flagmask : Nat}
  {curr : Option (List (BitVec 8))} {comp url : List Char} {rest comps : List (List Char)}
  {entry entry' name : List (BitVec 8)}

/-! ## One component -/

/-- How a lookup ends, after what it has read of the directory. -/
inductive LookupEnds (name : List (BitVec 8)) (flagmask : Nat) :
    Except Halt (Except HResult (Block × Nat)) →
      Except Halt (HResult × Option (List (BitVec 8))) → Prop
  | halts {halt : Halt} : LookupEnds name flagmask (.error halt) (.error halt)
  | fails {hr : HResult} (failed : hr.failed = true) :
      LookupEnds name flagmask (.ok (.error hr)) (.ok (hr, none))
  | missing {content : Block} {len : Nat} (none : firstNamed content len name flagmask = none) :
      LookupEnds name flagmask (.ok (.ok (content, len))) (.ok (.eNotFound, Option.none))
  | found {content : Block} {len : Nat} {hr : HResult} {entry : List (BitVec 8)}
      (succeeded : hr.failed = false) (first : firstNamed content len name flagmask = some entry) :
      LookupEnds name flagmask (.ok (.ok (content, len))) (.ok (hr, some entry))

theorem scanDirectory_ends (asked entryCnt : Nat) (buf : Block)
    (result : Except Halt HResult × FatRead) :
    LookupEnds name flagmask (filledBuffer buf entryCnt result)
      (scanDirectory asked entryCnt buf name flagmask true result).outcome := by
  obtain ⟨outcome, r⟩ := result
  cases outcome with
  | error halt => exact .halts
  | ok hr =>
    unfold filledBuffer scanDirectory
    cases failed : hr.failed with
    | true =>
      simp only [failed, if_true]
      exact .fails failed
    | false =>
      have search := @scanEntries_eq (fun i => (r.dst i).getD (buf i)) entryCnt 0 name flagmask
      simp only [failed, Bool.false_eq_true, if_false]
      generalize scanEntries name flagmask true entryCnt 0 (fun i => (r.dst i).getD (buf i)) =
        scan at search
      obtain ⟨scanned, found⟩ := scan
      cases found with
      | none => exact .missing search.symm
      | some entry => exact .found failed search.symm

theorem fat16FindSubentry_ends (kmalloc : Nat → Option Block) (dir : Option Fat16Dir) :
    LookupEnds name flagmask (fatDirectoryContent vol kmalloc dir)
      (fat16FindSubentry vol kmalloc dir name flagmask true).outcome := by
  unfold fatDirectoryContent fat16FindSubentry
  cases dir with
  | none =>
    dsimp only
    cases kmalloc (vol.layout.bpb.rootEntries &&& dirEntrySize) with
    | none => exact .fails rfl
    | some buf => exact scanDirectory_ends _ _ _ _
  | some dir =>
    dsimp only
    cases fatContentSize vol dir with
    | error halt => exact .halts
    | ok contentSize =>
      dsimp only
      by_cases file : dir.attributes &&& fatAttrDirectory = 0
      · rw [if_pos file, if_pos file]
        exact .fails rfl
      · rw [if_neg file, if_neg file]
        cases kmalloc contentSize with
        | none => exact .fails rfl
        | some buf => exact scanDirectory_ends _ _ _ _

theorem Matched.unique {kmalloc : Nat → Option Block}
    (here : Matched vol kmalloc curr comp flagmask entry)
    (here' : Matched vol kmalloc curr comp flagmask entry') : entry = entry' := by
  obtain ⟨content, len, read, first⟩ := here
  obtain ⟨content', len', read', first'⟩ := here'
  rw [read] at read'
  cases read'
  exact Option.some.inj (first.symm.trans first')

/-- What the descent meets at one component, and what becomes of it. -/
inductive Descent (vol : Fat16Volume) (kmalloc : Nat → Nat → Option Block) (i : Nat)
    (curr : Option (List (BitVec 8))) (comp : List Char) (rest : List (List Char)) : Prop
  | overlong (long : compNameSize ≤ comp.length)
      (result : parseFatComponents vol kmalloc i curr (comp :: rest) = .error .stuck)
  | endless (halt : Halt)
      (read : fatDirectoryContent vol (kmalloc i) (curr.map readDirEntry) = .error halt)
      (result : parseFatComponents vol kmalloc i curr (comp :: rest) = .error halt)
  | missing (hr : HResult) (failed : hr.failed = true)
      (none : ∀ entry, ¬Matched vol (kmalloc i) curr comp
        (if rest = [] then 0 else fatAttrDirectory) entry)
      (fits : comp.length < compNameSize)
      (returns : ∀ halt,
        fatDirectoryContent vol (kmalloc i) (curr.map readDirEntry) ≠ .error halt)
      (result : parseFatComponents vol kmalloc i curr (comp :: rest) = .ok (hr, Option.none))
  | found (entry : List (BitVec 8))
      (here : Matched vol (kmalloc i) curr comp (if rest = [] then 0 else fatAttrDirectory) entry)
      (fits : comp.length < compNameSize)
      (result : parseFatComponents vol kmalloc i curr (comp :: rest) =
        parseFatComponents vol kmalloc (i + 1) (some entry) rest)

theorem descent : Descent vol kmalloc i curr comp rest := by
  by_cases long : compNameSize ≤ comp.length
  · exact .overlong long (if_pos long)
  · have fits := Nat.lt_of_not_le long
    have ends := @fat16FindSubentry_ends vol (if rest = [] then 0 else fatAttrDirectory)
      (charBytes comp) (kmalloc i) (curr.map readDirEntry)
    have step : parseFatComponents vol kmalloc i curr (comp :: rest) = _ := if_neg long
    dsimp only at step
    generalize read : fatDirectoryContent vol (kmalloc i) (curr.map readDirEntry) = content at ends
    generalize (fat16FindSubentry vol (kmalloc i) (curr.map readDirEntry) (charBytes comp)
      (if rest = [] then 0 else fatAttrDirectory) true).outcome = outcome at ends step
    cases ends with
    | halts => exact .endless _ read step
    | fails failed =>
      apply Descent.missing _ failed _ fits _ (step.trans (if_pos failed))
      · intro entry here
        obtain ⟨content, len, read', _⟩ := here
        rw [read] at read'
        cases read'
      · intro halt other
        rw [read] at other
        cases other
    | missing none =>
      apply Descent.missing .eNotFound rfl _ fits _ step
      · intro entry here
        obtain ⟨content, len, read', first⟩ := here
        rw [read] at read'
        cases read'
        rw [none] at first
        cases first
      · intro halt other
        rw [read] at other
        cases other
    | found succeeded first =>
      apply Descent.found _ ⟨_, _, read, first⟩ fits
      rw [step]
      dsimp only
      rw [succeeded]
      rfl

/-! ## The descent -/

/-- A success hands out the entry that the components resolve to. -/
theorem resolves_of_parse {hr : HResult} {out : Option (List (BitVec 8))} (some : rest ≠ [])
    (parsed : parseFatComponents vol kmalloc i curr rest = .ok (hr, out))
    (succeeded : hr.failed = false) :
    ∃ entry, Resolves vol kmalloc i curr rest entry ∧ out = Option.some entry := by
  induction rest generalizing i curr with
  | nil => contradiction
  | cons comp rest inductionHypothesis =>
    cases @descent vol kmalloc i curr comp rest with
    | overlong _ result =>
      rw [result] at parsed
      cases parsed
    | endless _ _ result =>
      rw [result] at parsed
      cases parsed
    | missing _ failed _ _ _ result =>
      rw [result] at parsed
      cases parsed
      rw [succeeded] at failed
      cases failed
    | found entry here _ result =>
      rw [result] at parsed
      cases rest with
      | nil =>
        cases parsed
        exact ⟨entry, .last here, rfl⟩
      | cons next rest =>
        obtain ⟨last, below, same⟩ := inductionHypothesis (List.cons_ne_nil next rest) parsed
        exact ⟨last, .descend here below, same⟩

/-- A matched component is descended into, unless it is too long. -/
theorem Matched.descends
    (here : Matched vol (kmalloc i) curr comp (if rest = [] then 0 else fatAttrDirectory) entry) :
    parseFatComponents vol kmalloc i curr (comp :: rest) =
        parseFatComponents vol kmalloc (i + 1) (some entry) rest ∨
      ∃ halt, parseFatComponents vol kmalloc i curr (comp :: rest) = .error halt := by
  cases @descent vol kmalloc i curr comp rest with
  | overlong _ halted => exact .inr ⟨_, halted⟩
  | endless _ _ halted => exact .inr ⟨_, halted⟩
  | missing _ _ none _ _ _ => exact absurd here (none entry)
  | found _ here' _ goesOn =>
    rw [here'.unique here] at goesOn
    exact .inl goesOn

/-- Components that resolve are found, if the parse returns. -/
theorem Resolves.parsed (resolves : Resolves vol kmalloc i curr comps entry)
    {result : HResult × Option (List (BitVec 8))}
    (parsed : parseFatComponents vol kmalloc i curr comps = .ok result) :
    result = (.sOk, some entry) := by
  induction resolves with
  | @last i curr comp entry here =>
    have descends := @Matched.descends vol kmalloc i curr comp [] entry here
    cases descends with
    | inl goesOn =>
      rw [goesOn] at parsed
      exact (Except.ok.inj parsed).symm
    | inr halts =>
      obtain ⟨halt, halted⟩ := halts
      rw [halted] at parsed
      cases parsed
  | @descend i curr comp next rest dir entry here below inductionHypothesis =>
    have descends := @Matched.descends vol kmalloc i curr comp (next :: rest) dir here
    cases descends with
    | inl goesOn =>
      rw [goesOn] at parsed
      exact inductionHypothesis parsed
    | inr halts =>
      obtain ⟨halt, halted⟩ := halts
      rw [halted] at parsed
      cases parsed

/-- The parse returns unless the descent breaks off. -/
theorem returns_of_not_breaks (whole : ¬Breaks vol kmalloc i curr comps) :
    ∃ result, parseFatComponents vol kmalloc i curr comps = .ok result := by
  induction comps generalizing i curr with
  | nil => exact ⟨_, rfl⟩
  | cons comp rest inductionHypothesis =>
    cases @descent vol kmalloc i curr comp rest with
    | overlong long _ => exact absurd (.overlong long) whole
    | endless _ read _ => exact absurd (.endless read) whole
    | missing hr _ _ _ _ result => exact ⟨_, result⟩
    | found entry here _ goesOn =>
      rw [goesOn]
      cases rest with
      | nil => exact ⟨_, rfl⟩
      | cons next rest =>
        exact inductionHypothesis fun later => whole (.descend here later)

theorem Breaks.halts (breaks : Breaks vol kmalloc i curr comps) :
    ∃ halt, parseFatComponents vol kmalloc i curr comps = .error halt := by
  induction breaks with
  | overlong long => exact ⟨_, if_pos long⟩
  | @endless i curr comp rest halt read =>
    cases @descent vol kmalloc i curr comp rest with
    | overlong _ halted => exact ⟨_, halted⟩
    | endless _ _ halted => exact ⟨_, halted⟩
    | missing _ _ _ _ returns _ => exact absurd read (returns halt)
    | found _ here _ _ =>
      obtain ⟨content, len, read', _⟩ := here
      rw [read] at read'
      cases read'
  | @descend i curr comp next rest dir here later inductionHypothesis =>
    have descends := @Matched.descends vol kmalloc i curr comp (next :: rest) dir here
    cases descends with
    | inl goesOn =>
      rw [goesOn]
      exact inductionHypothesis
    | inr halts => exact halts

/-! ## Whole urls -/

theorem components_ne_nil_iff : components url ≠ [] ↔ delimiter ∈ url := by
  constructor
  · intro some
    by_contra none
    exact some (components_of_noDelimiter none)
  · intro member
    obtain ⟨front, base, shape, last⟩ := exists_last_delimiter member
    rw [shape, components_append last]
    simp

theorem denotes_iff : Denotes url comps ↔ url.head? = some delimiter ∧ comps = components url := by
  constructor
  · intro denotes
    have same := components_implodeStr denotes.clean
    rw [← denotes.url] at same
    refine ⟨?_, same.symm⟩
    rw [denotes.url]
    cases shape : comps with
    | nil => exact absurd shape denotes.some
    | cons comp rest => rfl
  · intro ⟨absolute, same⟩
    cases url with
    | nil => cases absolute
    | cons c rest =>
      obtain rfl : c = delimiter := Option.some.inj absolute
      constructor
      · rw [same, components_ne_nil_iff]
        exact List.mem_cons_self
      · intro comp member
        rw [same] at member
        exact noDelimiter_of_mem member
      · rw [same, implodeStr_components]

/-- An entry that was written can be looked at. -/
theorem fat16Open_returns (streamAllocs : Bool × Bool)
    {result : HResult × Option (List (BitVec 8))}
    (parsed : fat16ParseUrl vol kmalloc url = .ok result)
    (written : result.1.failed = false → ∃ entry, result.2 = some entry) :
    ∃ result, fat16Open vol kmalloc streamAllocs url = .ok result := by
  obtain ⟨hr, out⟩ := result
  unfold fat16Open
  rw [parsed]
  cases failed : hr.failed with
  | true => exact ⟨_, if_pos failed⟩
  | false =>
    obtain ⟨entry, shape⟩ := written failed
    simp only [failed, Bool.false_eq_true, if_false]
    dsimp only at shape
    rw [shape]
    dsimp only
    split
    · exact ⟨_, rfl⟩
    · split
      · exact ⟨_, rfl⟩
      · split
        · exact ⟨_, rfl⟩
        · exact ⟨_, rfl⟩

/-- Without a delimiter an entry is handed out that was not written. -/
theorem fat16ParseUrl_noDelimiter (none : delimiter ∉ url) :
    fat16ParseUrl vol kmalloc url = .ok (.sOk, Option.none) := by
  rw [fat16ParseUrl, components_of_noDelimiter none]
  rfl

end

/-- A url is parsed as it should be exactly when it has a delimiter, the descent does not break off,
and either the url begins with the delimiter or what is behind its delimiters resolves to
nothing. -/
theorem parsesUrl_iff (vol : Fat16Volume) (kmalloc : Nat → Nat → Option Block) (url : List Char) :
    ParsesUrl vol kmalloc url ↔
      delimiter ∈ url ∧ ¬Breaks vol kmalloc 0 none (components url) ∧
        (url.head? = some delimiter ∨
          ∀ entry, ¬Resolves vol kmalloc 0 none (components url) entry) := by
  constructor
  · intro parses
    obtain ⟨result, parsed⟩ := parses.returns
    refine ⟨?_, ?_, ?_⟩
    · by_contra none
      obtain ⟨_, _, _, _, out⟩ := parses.resolved _ _ (fat16ParseUrl_noDelimiter none) rfl
      cases out
    · intro breaks
      obtain ⟨halt, halted⟩ := breaks.halts
      rw [fat16ParseUrl, halted] at parsed
      cases parsed
    · by_contra neither
      obtain ⟨relative, resolves⟩ := not_or.mp neither
      obtain ⟨entry, resolves⟩ := not_forall_not.mp resolves
      rw [resolves.parsed parsed] at parsed
      obtain ⟨comps, _, denotes, _⟩ := parses.resolved _ _ parsed rfl
      exact relative (denotes_iff.mp denotes).1
  · intro ⟨member, whole, absolute⟩
    have some := components_ne_nil_iff.mpr member
    obtain ⟨result, parsed⟩ := returns_of_not_breaks whole
    constructor
    · exact ⟨result, parsed⟩
    · intro hr out returned succeeded
      obtain ⟨entry, resolves, written⟩ := resolves_of_parse some returned succeeded
      cases absolute with
      | inl first => exact ⟨_, entry, denotes_iff.mpr ⟨first, rfl⟩, resolves, written⟩
      | inr nothing => exact absurd resolves (nothing entry)
    · intro streamAllocs
      apply fat16Open_returns streamAllocs parsed
      intro succeeded
      obtain ⟨entry, _, written⟩ := resolves_of_parse some parsed succeeded
      exact ⟨entry, written⟩

/-- The url of the mount point itself is empty: it is found, with an entry that was not written. -/
theorem parsesUrl_not : ¬∀ (vol : Fat16Volume) (kmalloc : Nat → Nat → Option Block)
    (url : List Char), ParsesUrl vol kmalloc url := by
  intro parses
  have empty : fat16ParseUrl floppyVolume (fun _ _ => none) [] = .ok (.sOk, none) := rfl
  obtain ⟨_, _, _, _, out⟩ := (parses floppyVolume (fun _ _ => none) []).resolved _ _ empty rfl
  cases out

end Antonix.Drivers
