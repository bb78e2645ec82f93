import Antonix.Vfs.Children
import Antonix.Vfs.Place

/-! # Creating a file

What `vfs_create` does to every path.  `url_get_dirname` takes the directory of
`//name` for the root, and `vfs_parse_url` takes it for a nameless child of the
root: there the new file lands in a directory in which it is not found. -/

namespace Antonix.Vfs

open NameTree

/-! ## The tree with the new node -/

namespace Added

variable {s t : VfsState} {p c n m : Nat} {name x : List Char} {xs : List (List Char)}

theorem child_eq (added : Added s t p c name) (reach : s.Has n) (x : List Char) :
    t.child n x = (s.child n x).or (if n = p ∧ x = name then some c else none) :=
  added.adds.child_eq reach x

theorem child_of_some (added : Added s t p c name) (reach : s.Has n)
    (found : s.child n x = some m) : t.child n x = some m := by
  rw [added.child_eq reach, found, Option.some_or]

theorem child_of_none (added : Added s t p c name) (reach : s.Has n) (missing : s.child n x = none)
    (elsewhere : ¬ (n = p ∧ x = name)) : t.child n x = none := by
  rw [added.child_eq reach, missing, if_neg elsewhere, Option.none_or]

theorem child_new (added : Added s t p c name) : t.child p name = some c := by
  rw [added.child_eq added.adds.parentReach, added.missing, if_pos ⟨rfl, rfl⟩, Option.none_or]

/-- The old walks stay. -/
theorem leads (added : Added s t p c name) (reach : s.Has n) (leads : Leads s n xs m) :
    Leads t n xs m := by
  induction leads with
  | nil n => exact .nil n
  | cons fits found inner _ inductionHypothesis =>
    have next : s.Has _ := .child reach (mem_of_child found)
    have inner' : ¬ t.IsMountpoint _ :=
      mt (added.isMountpoint_iff (added.adds.ne_leaf next)).mp inner
    exact .cons fits (added.child_of_some reach found) inner' (inductionHypothesis next)

/-- The walk to the new node. -/
theorem leads_new (added : Added s t p c name) (leads : Leads s s.root xs p)
    (plain : ¬ t.IsMountpoint c) : Leads t t.root (xs ++ [name]) c := by
  rw [added.root]
  exact (added.leads .root leads).concat added.nameFits added.child_new plain

/-- No search ends otherwise than before, but the one for the new node. -/
theorem parse_eq (added : Added s t p c name) (plain : ¬ t.IsMountpoint c) {b b' : Option Nat}
    {passed : List (List Char)} (reach : s.Has n) (fits : ∀ comp ∈ xs, comp.length < nodeNameSize) :
    parseComponents t b b' n passed xs = parseComponents s b b' n passed xs ∨
      ∃ front, xs = front ++ [name] ∧ Leads s n front p := by
  induction xs generalizing n passed with
  | nil => exact .inl rfl
  | cons x xs inductionHypothesis =>
    have later : ∀ comp ∈ xs, comp.length < nodeNameSize :=
      fun comp member => fits comp (List.mem_cons_of_mem _ member)
    cases meets s n x with
    | overlong overlong => exact absurd (fits x List.mem_cons_self) overlong
    | missing first next =>
      by_cases here : n = p ∧ x = name
      · obtain ⟨rfl, rfl⟩ := here
        cases xs with
        | nil => exact .inr ⟨[], rfl, .nil n⟩
        | cons y ys =>
          -- the new node has no children
          have second := later y List.mem_cons_self
          rw [parse_inner first added.child_new plain, parse_missing first next,
            parse_missing second (added.adds.child_leaf y)]
          exact .inl rfl
      · rw [parse_missing first next, parse_missing first (added.child_of_none reach next here)]
        exact .inl rfl
    | mountpoint m first next mountpoint =>
      have same := added.isMountpoint_iff (added.adds.ne_leaf (.child reach (mem_of_child next)))
      rw [parse_mountpoint first next mountpoint,
        parse_mountpoint first (added.child_of_some reach next) (same.mpr mountpoint)]
      exact .inl rfl
    | inner m first next inner =>
      have reach' : s.Has m := .child reach (mem_of_child next)
      have same := added.isMountpoint_iff (added.adds.ne_leaf reach')
      rw [parse_inner first next inner,
        parse_inner first (added.child_of_some reach next) (mt same.mp inner)]
      cases inductionHypothesis reach' later with
      | inl unchanged => exact .inl unchanged
      | inr new =>
        obtain ⟨front, rfl, leads⟩ := new
        exact .inr ⟨x :: front, rfl, .cons first next inner leads⟩

/-- Every path but that of the new node resolves as before. -/
theorem parseUrl_eq (added : Added s t p c name) (valid : IsVfsTree s) (plain : ¬ t.IsMountpoint c)
    {b b' : Option Nat} {rest other : List Char}
    (leads : Leads s s.root xs p) (path : components (delimiter :: rest) = xs ++ [name])
    (different : other ≠ delimiter :: rest) (fits : NamesFit other) :
    vfsParseUrl t other b b' = vfsParseUrl s other b b' := by
  cases pathKind other with
  | root isRoot => rw [parseUrl_root isRoot, parseUrl_root isRoot, added.root]
  | relative notDelimiter => rw [parseUrl_relative notDelimiter, parseUrl_relative notDelimiter]
  | absolute nonempty =>
    rw [parseUrl_absolute nonempty, parseUrl_absolute nonempty, added.root]
    cases added.parse_eq plain .root fits with
    | inl unchanged => exact unchanged
    | inr new =>
      -- in a tree only one walk leads to the parent, so the paths are the same
      obtain ⟨front, split, leads'⟩ := new
      have same : front = xs := leads'.walk.unique valid.tree leads.walk
      rw [same, ← path] at split
      rw [components_injective split] at different
      contradiction

/-- The path `//name` does not lead to a new child of the root. -/
theorem not_parse_double {b b' : Option Nat} (added : Added s t s.root c name)
    (valid : IsVfsTree s) (last : delimiter ∉ name) (plain : ¬ t.IsMountpoint c) :
    vfsParseUrl t (delimiter :: delimiter :: name) b b' ≠ .ok (.ok ⟨c, false, [], []⟩) := by
  intro parsed
  rw [parseUrl_absolute (List.cons_ne_nil _ _)] at parsed
  have claimed := (leads_of_parse parsed rfl).2
  have there : Leads t t.root ([] ++ [name]) c := added.leads_new (.nil s.root) plain
  -- one walk has two names and the other has one
  have split : components ([delimiter] ++ delimiter :: name) = components [delimiter] ++ [name] :=
    components_append last
  have same : components ([delimiter] ++ delimiter :: name) = [] ++ [name] :=
    claimed.walk.unique (added.isVfsTree valid).tree there.walk
  rw [split] at same
  cases same

end Added

/-! ## What the call does -/

section

variable {s t : VfsState} {filename front base : List Char} {perm new : Nat} {alloc : ChildAlloc}

/-- Where no mount point is crossed, `S_OK` means that a child was added. -/
theorem vfsCreate_cases (plain : ¬ CrossesMountpoint s filename)
    (created : vfsCreate s filename perm alloc = .ok (.sOk, t)) :
    vfsParseUrl s filename none none = .ok (.error .eNotFound) ∧
      ∃ dirName fileName found, urlGetDirname vfsMaxDirnameLength filename = .ok dirName ∧
        urlGetBasename vfsMaxDirnameLength filename = .ok fileName ∧
        vfsParseUrl s dirName none none = .ok (.ok found) ∧
        addFilled s found.node fileName nodeTypeFile alloc
          (fun new => { new with permission := perm, fsDriver := .vfs }) = .ok t := by
  obtain ⟨place, finds, made⟩ := exists_of_bind created
  cases finds_of_findPlace finds with
  | external parsed crossing =>
    rw [parseUrl_buffers plain] at parsed
    exact absurd ⟨_, parsed, crossing⟩ plain
  | used => cases made
  | noParent failed =>
    -- the status of a parent that is missing is not `S_OK`
    obtain ⟨rfl, -⟩ := eq_of_returned made
    contradiction
  | free parsed dirCopied nameCopied dirParsed =>
    rw [parseUrl_buffers plain] at parsed
    obtain ⟨t', added, returned⟩ := exists_of_bind made
    obtain ⟨-, rfl⟩ := eq_of_returned returned
    exact ⟨parsed, _, _, _, dirCopied, nameCopied, dirParsed, added⟩

/-- A path that resolves is not created again. -/
theorem vfsCreate_used {found : Resolved} (plain : ¬ CrossesMountpoint s filename)
    (parsed : vfsParseUrl s filename none none = .ok (.ok found)) :
    vfsCreate s filename perm alloc = .ok (.eFail, s) := by
  have inner : found.isCrossingMountpoint = false := by
    cases crossing : found.isCrossingMountpoint with
    | false => rfl
    | true => exact absurd ⟨found, parsed, crossing⟩ plain
  simp [vfsCreate, findPlace, parseUrl_buffers plain, parsed, inner, bind, Except.bind]

/-- Neither is a path whose directory does not resolve. -/
theorem vfsCreate_noParent {hr : HResult} {dirName fileName : List Char}
    (plain : ¬ CrossesMountpoint s filename)
    (parsed : vfsParseUrl s filename none none = .ok (.error .eNotFound))
    (dirCopied : urlGetDirname vfsMaxDirnameLength filename = .ok dirName)
    (nameCopied : urlGetBasename vfsMaxDirnameLength filename = .ok fileName)
    (dirParsed : vfsParseUrl s dirName none none = .ok (.error hr)) :
    vfsCreate s filename perm alloc = .ok (hr, s) := by
  simp [vfsCreate, findPlace, parseUrl_buffers plain, parsed, dirCopied, nameCopied, dirParsed,
    bind, Except.bind]

/-- And a path that was not found is created in its directory. -/
theorem vfsCreate_free {dirName fileName : List Char} {found : Resolved} (perm : Nat)
    (plain : ¬ CrossesMountpoint s filename)
    (parsed : vfsParseUrl s filename none none = .ok (.error .eNotFound))
    (dirCopied : urlGetDirname vfsMaxDirnameLength filename = .ok dirName)
    (nameCopied : urlGetBasename vfsMaxDirnameLength filename = .ok fileName)
    (dirParsed : vfsParseUrl s dirName none none = .ok (.ok found))
    (added : addFilled s found.node fileName nodeTypeFile alloc
      (fun new => { new with permission := perm, fsDriver := .vfs }) = .ok t) :
    vfsCreate s filename perm alloc = .ok (.sOk, t) := by
  simp [vfsCreate, findPlace, parseUrl_buffers plain, parsed, dirCopied, nameCopied, dirParsed,
    added, bind, Except.bind]

end

/-! ## The law -/

/-- What `vfs_create` is for: on success the path leads to the new file `new` and every other
path to where it led; a path that exists or whose directory does not is refused. -/
structure CreateLaw (s : VfsState) (filename : List Char) (perm : Nat) (alloc : ChildAlloc)
    (new : Nat) : Prop where
  created : ∀ t, vfsCreate s filename perm alloc = .ok (.sOk, t) →
    ¬ s.Has new ∧ (t.nodes new).type = nodeTypeFile ∧
      ∀ b m, vfsParseUrl t filename b m = .ok (.ok ⟨new, false, [], []⟩)
  frame : ∀ t, vfsCreate s filename perm alloc = .ok (.sOk, t) →
    ∀ other, other ≠ filename → NamesFit other →
      ∀ b m, vfsParseUrl t other b m = vfsParseUrl s other b m
  used : ∀ found, vfsParseUrl s filename none none = .ok (.ok found) →
    ∃ hr, hr.failed = true ∧ vfsCreate s filename perm alloc = .ok (hr, s)
  noParent : ∀ front base, filename = front ++ delimiter :: base → delimiter ∉ base →
    (¬ ∃ found, vfsParseUrl s front none none = .ok (.ok found)) →
    ∃ hr, hr.failed = true ∧ vfsCreate s filename perm alloc = .ok (hr, s)

/-- A path `//name` that is not found, where the root has no child called `name`. -/
def Misplaced (s : VfsState) (filename : List Char) : Prop :=
  ∃ name, filename = delimiter :: delimiter :: name ∧ delimiter ∉ name ∧
    vfsParseUrl s filename none none = .ok (.error .eNotFound) ∧ s.child s.root name = none

section

variable {s t : VfsState} {filename front base : List Char} {perm new p : Nat} {alloc : ChildAlloc}

theorem addedFile (valid : IsVfsTree s) (reach : s.Has p) (hasNode : alloc.node = some new)
    (fresh : ¬ s.Has new)
    (added : addFilled s p base nodeTypeFile alloc
      (fun new => { new with permission := perm, fsDriver := .vfs }) = .ok t) :
    Added s t p new base ∧ (t.nodes new).type = nodeTypeFile ∧ ¬ t.IsMountpoint new := by
  have isFresh : ∀ c, alloc.node = some c → ¬ s.Has c := by
    intro c node
    rw [hasNode] at node
    rwa [← Option.some.inj node]
  obtain ⟨c, node, result, leaf, -⟩ :=
    addFilled_spec valid reach isFresh (keepsLinks_owned perm) added
  obtain rfl : new = c := Option.some.inj (hasNode.symm.trans node)
  have type : (t.nodes new).type = nodeTypeFile := by rw [leaf]
  refine ⟨result, type, ?_⟩
  rw [VfsState.IsMountpoint, type]
  decide

theorem basename_eq {fileName : List Char} (last : delimiter ∉ base)
    (copied : urlGetBasename vfsMaxDirnameLength (front ++ delimiter :: base) = .ok fileName) :
    fileName = base := by
  rw [urlGetBasename_append last] at copied
  exact (eq_of_strcpy copied).1

/-- A created file hangs where the components of its directory lead to, for all paths but
`//name`. -/
theorem created_spec (valid : IsVfsTree s) (plain : ¬ CrossesMountpoint s (front ++ delimiter :: base))
    (last : delimiter ∉ base) (absolute : ∃ rest, front ++ delimiter :: base = delimiter :: rest)
    (notDouble : front ≠ [delimiter]) (hasNode : alloc.node = some new) (fresh : ¬ s.Has new)
    (created : vfsCreate s (front ++ delimiter :: base) perm alloc = .ok (.sOk, t)) :
    ∃ p, Leads s s.root (components front) p ∧ Added s t p new base ∧
      (t.nodes new).type = nodeTypeFile ∧ ¬ t.IsMountpoint new := by
  obtain ⟨missing, dirName, fileName, found, dirCopied, nameCopied, dirParsed, added⟩ :=
    vfsCreate_cases plain created
  obtain rfl := basename_eq last nameCopied
  exact ⟨found.node,
    leads_of_dirname last absolute notDouble plain dirCopied dirParsed,
    addedFile valid (reach_of_parseUrl dirParsed) hasNode fresh added⟩

/-- `//name` is created under the root when the root has no such child. -/
theorem misplaced_of_created {name : List Char}
    (plain : ¬ CrossesMountpoint s (delimiter :: delimiter :: name)) (last : delimiter ∉ name)
    (created : vfsCreate s (delimiter :: delimiter :: name) perm alloc = .ok (.sOk, t)) :
    Misplaced s (delimiter :: delimiter :: name) := by
  obtain ⟨missing, dirName, fileName, found, dirCopied, nameCopied, dirParsed, added⟩ :=
    vfsCreate_cases plain created
  have dir : urlGetDirname vfsMaxDirnameLength ([delimiter] ++ delimiter :: name) = .ok dirName :=
    dirCopied
  have copied : urlGetBasename vfsMaxDirnameLength ([delimiter] ++ delimiter :: name) =
      .ok fileName := nameCopied
  rw [urlGetDirname_append last, if_neg (List.cons_ne_nil _ _)] at dir
  obtain ⟨rfl, -⟩ := eq_of_strcpy dir
  rw [parseUrl_root (.inr rfl)] at dirParsed
  obtain rfl := Except.ok.inj (Except.ok.inj dirParsed)
  obtain rfl := basename_eq last copied
  obtain ⟨c, middle, adds, -⟩ := addFilled_cases added
  exact ⟨fileName, rfl, last, missing, (addChild_cases adds).2.1⟩

/-- There the new file is a child of the root, and the path leads elsewhere. -/
theorem not_createLaw_of_misplaced {array : Nat → Nat} (valid : IsVfsTree s)
    (short : filename.length < nodeNameSize) (plain : ¬ CrossesMountpoint s filename)
    (hasArray : alloc.array = some array) (hasNode : alloc.node = some new) (fresh : ¬ s.Has new)
    (misplaced : Misplaced s filename) : ¬ CreateLaw s filename perm alloc new := by
  intro law
  obtain ⟨name, rfl, last, missing, free⟩ := misplaced
  change name.length + 1 + 1 < 256 at short
  have nameFits : name.length < 256 := by omega
  have nameFits' : name.length < 255 := by omega
  have dirCopied : urlGetDirname vfsMaxDirnameLength ([delimiter] ++ delimiter :: name) =
      .ok [delimiter] := by
    rw [urlGetDirname_append last]
    rfl
  have nameCopied : urlGetBasename vfsMaxDirnameLength ([delimiter] ++ delimiter :: name) =
      .ok name := by
    rw [urlGetBasename_append last]
    exact strcpy_of_lt nameFits'
  obtain ⟨t, added⟩ := addFilled_returns free nameFits hasArray hasNode
  have created := vfsCreate_free perm plain missing dirCopied nameCopied
    (parseUrl_root (.inr rfl)) added
  obtain ⟨result, -, inner⟩ := addedFile valid .root hasNode fresh added
  exact result.not_parse_double valid last inner ((law.created t created).2.2 none none)

/-- A directory that does not resolve is reported. -/
theorem refused_without_parent (short : (front ++ delimiter :: base).length < nodeNameSize)
    (plain : ¬ CrossesMountpoint s (front ++ delimiter :: base)) (last : delimiter ∉ base)
    (absolute : ∃ rest, front ++ delimiter :: base = delimiter :: rest)
    (noParent : ¬ ∃ found, vfsParseUrl s front none none = .ok (.ok found)) :
    ∃ hr, hr.failed = true ∧
      vfsCreate s (front ++ delimiter :: base) perm alloc = .ok (hr, s) := by
  obtain ⟨outcome, parsed⟩ := parseUrl_returns (namesFit_of_short short) (s := s)
  cases outcome with
  | ok found => exact ⟨.eFail, rfl, vfsCreate_used plain parsed⟩
  | error hr =>
    have lengths : front.length + (base.length + 1) < 256 := by
      simpa [List.length_append] using short
    have nonempty : front ≠ [] := fun empty =>
      noParent ⟨_, parseUrl_root (.inl empty)⟩
    have missing : hr = .eNotFound := by
      obtain ⟨rest, path⟩ := absolute
      rw [path] at parsed
      cases rest with
      | nil =>
        -- the path is the root, which resolves
        rw [parseUrl_root (.inr rfl)] at parsed
        cases parsed
      | cons ch rest =>
        rw [parseUrl_absolute (List.cons_ne_nil _ _)] at parsed
        exact (parse_error parsed).1
    subst missing
    have dirCopied :
        urlGetDirname vfsMaxDirnameLength (front ++ delimiter :: base) = .ok front := by
      have fits : front.length < 255 := by omega
      rw [urlGetDirname_append last, if_neg nonempty]
      exact strcpy_of_lt fits
    have nameCopied :
        urlGetBasename vfsMaxDirnameLength (front ++ delimiter :: base) = .ok base := by
      have fits : base.length < 255 := by omega
      rw [urlGetBasename_append last]
      exact strcpy_of_lt fits
    have frontShort : front.length < 256 := by omega
    obtain ⟨outcome, dirParsed⟩ := parseUrl_returns (namesFit_of_short frontShort) (s := s)
    cases outcome with
    | ok found => exact absurd ⟨found, dirParsed⟩ noParent
    | error hr =>
      exact ⟨hr, parseUrl_failed dirParsed,
        vfsCreate_noParent plain parsed dirCopied nameCopied dirParsed⟩

/-- A path that was created has a component: the root is never created. -/
theorem nonempty_of_created {rest : List Char}
    (plain : ¬ CrossesMountpoint s (delimiter :: rest))
    (created : vfsCreate s (delimiter :: rest) perm alloc = .ok (.sOk, t)) : rest ≠ [] := by
  rintro rfl
  have missing := (vfsCreate_cases plain created).1
  rw [parseUrl_root (.inr rfl)] at missing
  cases missing

theorem createLaw_of_not_misplaced (valid : IsVfsTree s)
    (absolute : ∃ rest, filename = delimiter :: rest) (short : filename.length < nodeNameSize)
    (plain : ¬ CrossesMountpoint s filename) (hasNode : alloc.node = some new)
    (fresh : ¬ s.Has new) (placed : ¬ Misplaced s filename) :
    CreateLaw s filename perm alloc new := by
  obtain ⟨front, base, rfl, last⟩ : ∃ front base, filename = front ++ delimiter :: base ∧
      delimiter ∉ base := by
    obtain ⟨rest, rfl⟩ := absolute
    exact exists_last_delimiter List.mem_cons_self
  -- where the new node is, for the two parts about success
  have spec : ∀ t, vfsCreate s (front ++ delimiter :: base) perm alloc = .ok (.sOk, t) →
      ∃ p, Leads s s.root (components front) p ∧ Added s t p new base ∧
        (t.nodes new).type = nodeTypeFile ∧ ¬ t.IsMountpoint new := by
    intro t created
    have notDouble : front ≠ [delimiter] := by
      -- then the call would not have succeeded
      rintro rfl
      exact placed (misplaced_of_created plain last created)
    exact created_spec valid plain last absolute notDouble hasNode fresh created
  constructor
  case created =>
    intro t created
    obtain ⟨p, leads, added, type, inner⟩ := spec t created
    refine ⟨fresh, type, fun b m => ?_⟩
    have there := added.leads_new leads inner
    obtain ⟨rest, path⟩ := absolute
    rw [← components_append last, path] at there
    rw [path] at plain created ⊢
    rw [parseUrl_absolute (nonempty_of_created plain created)]
    exact there.parse
  case frame =>
    intro t created other different fits b m
    obtain ⟨p, leads, added, -, inner⟩ := spec t created
    obtain ⟨rest, path⟩ := absolute
    have split : components (front ++ delimiter :: base) = components front ++ [base] :=
      components_append last
    rw [path] at split different
    exact added.parseUrl_eq valid inner leads split different fits
  case used =>
    intro found parsed
    exact ⟨.eFail, rfl, vfsCreate_used plain parsed⟩
  case noParent =>
    intro front' base' path last' noParent
    rw [path] at short plain absolute ⊢
    exact refused_without_parent short plain last' absolute noParent

end

/-- For every tree and every absolute path of less than 256 characters that crosses no mount
point: `vfs_create` creates exactly this path, but for a path `//name` that the root has
room for. -/
theorem vfsCreate_law_iff {s : VfsState} {filename : List Char} {perm new : Nat}
    {alloc : ChildAlloc} {array : Nat → Nat} (valid : IsVfsTree s)
    (absolute : ∃ rest, filename = delimiter :: rest) (short : filename.length < 256)
    (plain : ¬ CrossesMountpoint s filename) (hasArray : alloc.array = some array)
    (hasNode : alloc.node = some new) (fresh : ¬ s.Has new) :
    CreateLaw s filename perm alloc new ↔ ¬ Misplaced s filename := by
  constructor
  · intro law misplaced
    exact not_createLaw_of_misplaced valid short plain hasArray hasNode fresh misplaced law
  · exact createLaw_of_not_misplaced valid absolute short plain hasNode fresh

/-- `/a` in an empty tree. -/
theorem vfsCreate_law_iff_a :
    CreateLaw (vfsInit (fun _ => .zeroed) 0) ['/', 'a'] 0 ⟨some fun _ => 0, some 1⟩ 1 ↔
      ¬ Misplaced (vfsInit (fun _ => .zeroed) 0) ['/', 'a'] := by
  have missing : vfsParseUrl (vfsInit (fun _ => .zeroed) 0) ['/', 'a'] none none =
      .ok (.error .eNotFound) := rfl
  have plain : ¬ CrossesMountpoint (vfsInit (fun _ => .zeroed) 0) ['/', 'a'] :=
    plain_of_missing missing
  have fresh : ¬ (vfsInit (fun _ => .zeroed) 0).Has 1 := by
    rw [vfsInit_has]
    decide
  exact vfsCreate_law_iff vfsInit_isVfsTree ⟨['a'], rfl⟩ (by decide) plain rfl rfl fresh

/-- `//a` in an empty tree becomes a child of the root, and `//a` is not found. -/
theorem vfsCreate_misplaces :
    ¬ CreateLaw (vfsInit (fun _ => .zeroed) 0) ['/', '/', 'a'] 0 ⟨some fun _ => 0, some 1⟩ 1 := by
  intro law
  have parsed := (law.created _ rfl).2.2 none none
  cases parsed

end Antonix.Vfs
