import Antonix.Vfs.Store

/-! # Open directories (`vfs.c`)

`vfs_opendir` copies the names of the children of a node, and what kind of node each of
them is, into a stream; `vfs_readdir` takes them out one after the other.  What is added to
the directory meanwhile is not in the stream. -/

namespace Antonix.FileStore

open Function NameTree Transition Vfs

/-! ## Directory streams -/

/-- `K_FS_NODE_INFO` -/
structure KFsNodeInfo where
  nodeType : Nat
  size : Nat
  deriving DecidableEq

/-- `K_DIR_STREAM` of `vfs_opendir` -/
structure KDirStream where
  dirname : List Char
  len : Nat
  pos : Nat
  names : List (List Char)
  info : List KFsNodeInfo

/-- The store with its open directories by their address. -/
structure DirStore where
  store : Store
  dirs : Nat → Option KDirStream

/-- What `vfs_opendir` gets from outside: memory for the stream, whether there is memory for all
that is in it, and what the driver at a mount point returns. -/
structure OpendirHost where
  dir : Option Nat
  contents : Bool
  fsOpendir : Nat → List Char → HResult

/-- What `vfs_opendir` copies of a child. -/
def nodeInfo (s : Store) (n : Nat) : KFsNodeInfo := ⟨(s.tree.nodes n).type, u32 (s.files n).size⟩

/-- The loop of `vfs_opendir` that populates the two arrays. -/
def populateDir (s : Store) : List Nat → Except Halt (List (List Char) × List KFsNodeInfo)
  | [] => .ok ([], [])
  | child :: children => do
    let name ← strcpy vfsMaxDirnameLength (s.tree.nodes child).name
    let (names, info) ← populateDir s children
    .ok (name :: names, nodeInfo s child :: info)

/-- `vfs_opendir` and the stream it stores at `out`, if that is one of the VFS.  No result of
`kmalloc` is checked. -/
def vfsOpendir (s : DirStore) (dirname : List Char) (host : OpendirHost) :
    Except Halt ((HResult × Option Nat) × DirStore) := do
  match ← vfsParseUrl s.store.tree dirname (some extPathSize) (some extPathSize) with
  | .error hr => .ok ((hr, none), s)
  | .ok found =>
    let node := s.store.tree.nodes found.node
    if found.isCrossingMountpoint then
      match node.fsDriver with
      | .mounted drv => .ok ((host.fsOpendir drv found.mountedPath, none), s)
      | _ => .error .stuck
    else if node.type &&& nodeTypeDirectory = 0 then .ok ((.eInvalidArg, none), s)
    else
      match host.dir with
      | none => .error .stuck
      | some h =>
        if !host.contents then .error .stuck
        else do
          let name ← strcpy vfsMaxDirnameLength node.name
          let (names, info) ← populateDir s.store (s.store.tree.kids found.node)
          let dir : KDirStream := ⟨name, node.childCnt, 0, names, info⟩
          .ok ((.sOk, some h), { s with dirs := update s.dirs h (some dir) })

/-- `vfs_readdir` into a buffer of `MAX_FILENAME_LENGTH` bytes. -/
def vfsReaddir (s : DirStore) (h : Nat) :
    Except Halt ((HResult × Option (List Char × KFsNodeInfo)) × DirStore) :=
  match s.dirs h with
  | none => .error .stuck
  | some d =>
    if ¬ d.pos ≤ d.len then .error .assertion
    else if d.pos = d.len then .ok ((.eEndOfStr, none), s)
    else
      match d.names[d.pos]?, d.info[d.pos]? with
      | some name, some info => do
        let filename ← strcpy vfsMaxDirnameLength name
        let d := { d with pos := d.pos + 1 }
        .ok ((.sOk, some (filename, info)), { s with dirs := update s.dirs h (some d) })
      | _, _ => .error .stuck

/-- `vfs_rewinddir` -/
def vfsRewinddir (s : DirStore) (h : Nat) : Except Halt (HResult × DirStore) :=
  match s.dirs h with
  | none => .error .stuck
  | some d => .ok (.sOk, { s with dirs := update s.dirs h (some { d with pos := 0 }) })

/-- `vfs_closedir` -/
def vfsClosedir (s : DirStore) (h : Nat) : Except Halt (HResult × DirStore) :=
  match s.dirs h with
  | none => .error .stuck
  | some _ => .ok (.sOk, { s with dirs := update s.dirs h none })

/-- The calls of a store, and those on its directories. -/
inductive DirCall where
  | store (call : StoreCall)
  | opendir (dirname : List Char) (host : OpendirHost)
  | readdir (h : Nat)
  | rewinddir (h : Nat)
  | closedir (h : Nat)

inductive DirAnswer where
  | store (answer : StoreAnswer)
  | opened (hr : HResult) (h : Option Nat)
  | entry (hr : HResult) (entry : Option (List Char × KFsNodeInfo))
  | status (hr : HResult)

/-- A call that returns.  The heap hands out streams that are not open. -/
inductive DirStep : DirStore → DirCall × DirAnswer → DirStore → Prop
  | store {s : DirStore} {t : Store} {call : StoreCall} {answer : StoreAnswer}
      (taken : StoreStep s.store (call, answer) t) :
      DirStep s (.store call, .store answer) { s with store := t }
  | opendir {s t : DirStore} {dirname : List Char} {host : OpendirHost} {hr : HResult}
      {h : Option Nat} (fresh : ∀ h, host.dir = some h → s.dirs h = none)
      (called : vfsOpendir s dirname host = .ok ((hr, h), t)) :
      DirStep s (.opendir dirname host, .opened hr h) t
  | readdir {s t : DirStore} {h : Nat} {hr : HResult} {entry : Option (List Char × KFsNodeInfo)}
      (called : vfsReaddir s h = .ok ((hr, entry), t)) :
      DirStep s (.readdir h, .entry hr entry) t
  | rewinddir {s t : DirStore} {h : Nat} {hr : HResult}
      (called : vfsRewinddir s h = .ok (hr, t)) : DirStep s (.rewinddir h, .status hr) t
  | closedir {s t : DirStore} {h : Nat} {hr : HResult}
      (called : vfsClosedir s h = .ok (hr, t)) : DirStep s (.closedir h, .status hr) t

/-- Behind `vfs_init`. -/
def DirStore.init (memory : Nat → VfsNode) (root : Nat) : DirStore where
  store := .init memory root
  dirs := fun _ => none

/-! ## Directories by name -/

/-- An entry of a directory: a name, and what it is the name of. -/
abbrev Entry := List Char × KFsNodeInfo

/-- What cannot change of an entry. -/
def Entry.lasting (entry : Entry) : List Char × Nat := (entry.1, entry.2.nodeType)

/-- What directories are for: a path has a list of entries, and a handle a list that was taken
down when it was opened, with a place in it. -/
structure Catalogue where
  entries : List Char → Option (List Entry)
  handles : Nat → Option (List Entry × Nat)

/-- The steps of a catalogue.  A path has its entries for good, and new ones come behind them; what
a handle lists does not change. -/
inductive Catalogue.Step : Catalogue → DirCall × DirAnswer → Catalogue → Prop
  | store {c : Catalogue} {call : StoreCall} {answer : StoreAnswer}
      {entries : List Char → Option (List Entry)}
      (kept : ∀ path l, c.entries path = some l → ∃ more, entries path = some more ∧
        l.map Entry.lasting <+: more.map Entry.lasting) :
      Step c (.store call, .store answer) { c with entries := entries }
  | refused {c : Catalogue} {path : List Char} {host : OpendirHost} {hr : HResult}
      (missing : c.entries path = none) : Step c (.opendir path host, .opened hr none) c
  | opened {c : Catalogue} {path : List Char} {host : OpendirHost} {h : Nat} {l : List Entry}
      (lists : c.entries path = some l) (free : c.handles h = none) :
      Step c (.opendir path host, .opened .sOk (some h))
        { c with handles := update c.handles h (some (l, 0)) }
  | next {c : Catalogue} {h k : Nat} {l : List Entry} {entry : Entry}
      (isOpen : c.handles h = some (l, k)) (here : l[k]? = some entry) :
      Step c (.readdir h, .entry .sOk (some entry))
        { c with handles := update c.handles h (some (l, k + 1)) }
  | finished {c : Catalogue} {h : Nat} {l : List Entry}
      (isOpen : c.handles h = some (l, l.length)) :
      Step c (.readdir h, .entry .eEndOfStr none) c
  | rewound {c : Catalogue} {h k : Nat} {l : List Entry} (isOpen : c.handles h = some (l, k)) :
      Step c (.rewinddir h, .status .sOk) { c with handles := update c.handles h (some (l, 0)) }
  | closed {c : Catalogue} {h k : Nat} {l : List Entry} (isOpen : c.handles h = some (l, k)) :
      Step c (.closedir h, .status .sOk) { c with handles := update c.handles h none }

/-- The entries of a node. -/
def nodeEntries (s : Store) (n : Nat) : List Entry :=
  (s.tree.kids n).map fun child => (s.tree.label child, nodeInfo s child)

/-- The entries of the directory that a path leads to when it meets no mount point. -/
def listing (s : Store) (path : List Char) : Option (List Entry) := do
  let n ← resolve s.tree path
  if (s.tree.nodes n).type &&& nodeTypeDirectory = 0 then none else some (nodeEntries s n)

/-- No names, no handles. -/
def Catalogue.init (memory : Nat → VfsNode) (root : Nat) : Catalogue where
  entries := listing (.init memory root)
  handles := fun _ => none

/-- The path of a name in a directory. -/
def childPath (path name : List Char) : List Char :=
  (if path = [delimiter] then [] else path) ++ delimiter :: name

/-- The names in a directory are different, and they are the ones that can be looked up in it, with
what is found there. -/
structure AgreesWithLookup (s : Store) (path : List Char) (l : List Entry) : Prop where
  distinct : (l.map Prod.fst).Nodup
  found : ∀ name, name ≠ [] → delimiter ∉ name →
    ((∃ info, (name, info) ∈ l) ↔
      ∃ result, vfsParseUrl s.tree (childPath path name) none none = .ok (.ok result))
  info : ∀ name info result, name ≠ [] → delimiter ∉ name → (name, info) ∈ l →
    vfsParseUrl s.tree (childPath path name) none none = .ok (.ok result) →
    info = nodeInfo s result.node

section

variable {s t : VfsState} {path name : List Char} {n c : Nat} {op : VfsCall × HResult}

/-! ## What every call keeps of the tree -/

/-- Siblings have different names, and every name fits into its node. -/
structure NamesApart (s : VfsState) : Prop where
  valid : IsVfsTree s
  distinct : ∀ n, s.Has n → (s.names n).Nodup
  fits : ∀ n, s.Has n → ∀ name ∈ s.names n, name.length < nodeNameSize

/-- All that is in `s` is in `t` as well, and is the same there. -/
structure Extends (s t : VfsState) : Prop where
  resolves : ∀ path n, resolve s path = some n → resolve t path = some n
  kids : ∀ n, s.Has n → s.kids n <+: t.kids n
  label : ∀ n, s.Has n → t.label n = s.label n
  type : ∀ n, s.Has n → (t.nodes n).type = (s.nodes n).type

theorem Extends.refl (s : VfsState) : Extends s s :=
  ⟨fun _ _ names => names, fun _ _ => List.prefix_rfl, fun _ _ => rfl, fun _ _ => rfl⟩

theorem namesApart_init {memory : Nat → VfsNode} {root : Nat} :
    NamesApart (vfsInit memory root) := by
  have names : ∀ n, (vfsInit memory root).Has n → (vfsInit memory root).names n = [] := by
    intro n reach
    rw [VfsState.names, vfsInit_has.mp reach, vfsInit_kids]
    rfl
  refine ⟨vfsInit_isVfsTree, ?_, ?_⟩
  · intro n reach
    simp [names n reach]
  · intro n reach
    simp [names n reach]

theorem Added.namesApart {p : Nat} (added : Added s t p c name) (apart : NamesApart s) :
    NamesApart t := by
  refine ⟨added.isVfsTree apart.valid, ?_, ?_⟩
  · intro n reach
    cases added.has_iff.mp reach with
    | inl old =>
      rw [added.names_old old]
      split
      · next isParent =>
        subst isParent
        rw [← List.concat_eq_append]
        exact List.Nodup.concat added.name_notMem (apart.distinct n old)
      · simpa using apart.distinct n old
    | inr leaf => simp [leaf, added.names_new]
  · intro n reach
    cases added.has_iff.mp reach with
    | inl old =>
      intro x member
      rw [added.names_old old, List.mem_append] at member
      cases member with
      | inl before => exact apart.fits n old x before
      | inr new =>
        split at new
        · rw [List.mem_singleton.mp new]
          exact added.nameFits
        · cases new
    | inr leaf => simp [leaf, added.names_new]

theorem extends_of_step (valid : IsVfsTree s) (step : VfsStep s op t) : Extends s t := by
  have resolves := fun path n names => @resolve_kept s t path n op valid step names
  cases vfsStep_tree valid step with
  | inl same =>
    obtain ⟨-, nodes, -⟩ := same
    exact ⟨resolves, fun n _ => by simp [VfsState.kids, nodes],
      fun n _ => by simp [VfsState.label, nodes], fun n _ => by rw [nodes]⟩
  | inr adds =>
    obtain ⟨parent, name, leaf, -, added⟩ := adds
    refine ⟨resolves, ?_, ?_, ?_⟩
    · intro n reach
      by_cases isParent : n = parent
      · subst isParent
        rw [added.adds.kidsParent]
        exact List.prefix_append _ _
      · rw [added.adds.kidsOther n isParent (added.adds.ne_leaf reach)]
    · intro n reach
      exact added.adds.labelOther n (added.adds.ne_leaf reach)
    · intro n reach
      exact added.types n (added.adds.ne_leaf reach)

theorem NamesApart.step (apart : NamesApart s) (step : VfsStep s op t) : NamesApart t := by
  cases vfsStep_tree apart.valid step with
  | inl same =>
    obtain ⟨-, nodes, root⟩ := same
    have kids : t.kids = s.kids := by funext n; simp [VfsState.kids, nodes]
    have names : t.names = s.names := by funext n; simp [VfsState.names, VfsState.label, kids, nodes]
    have has : ∀ n, t.Has n → s.Has n := by
      intro n reach
      rwa [VfsState.Has, kids, root] at reach
    refine ⟨vfsStep_isVfsTree apart.valid step, ?_, ?_⟩
    · rw [names]
      exact fun n reach => apart.distinct n (has n reach)
    · rw [names]
      exact fun n reach => apart.fits n (has n reach)
  | inr adds =>
    obtain ⟨parent, name, leaf, -, added⟩ := adds
    exact Added.namesApart added apart

/-- A path that meets no mount point needs no room for what is behind one. -/
theorem parse_into_buffers {b m : Option Nat} (names : resolve s path = some n) :
    vfsParseUrl s path b m = .ok (.ok ⟨n, false, [], []⟩) := by
  obtain ⟨found, parsed, inner, rfl⟩ := parse_of_resolve names
  cases pathKind path with
  | root isRoot =>
    rw [parseUrl_root isRoot] at parsed ⊢
    rw [← Except.ok.inj (Except.ok.inj parsed)]
  | relative notDelimiter =>
    rw [parseUrl_relative notDelimiter] at parsed
    cases parsed
  | absolute some =>
    rw [parseUrl_absolute some] at parsed ⊢
    exact (leads_of_parse parsed inner).2.parse

/-- A path leads to a node of the tree. -/
theorem has_of_resolve (names : resolve s path = some n) : s.Has n := by
  obtain ⟨found, parsed, -, rfl⟩ := parse_of_resolve names
  exact reach_of_parseUrl parsed

end

section

variable {s t : Store} {path name : List Char} {n c : Nat} {l : List Entry}

theorem listing_eq_some (lists : listing s path = some l) :
    ∃ n, resolve s.tree path = some n ∧ (s.tree.nodes n).type &&& nodeTypeDirectory ≠ 0 ∧
      l = nodeEntries s n := by
  obtain ⟨n, names, listed⟩ := Option.bind_eq_some_iff.mp lists
  split at listed
  · cases listed
  · next isDirectory => exact ⟨n, names, isDirectory, (Option.some.inj listed).symm⟩

theorem listing_of_resolve (names : resolve s.tree path = some n)
    (isDirectory : (s.tree.nodes n).type &&& nodeTypeDirectory ≠ 0) :
    listing s path = some (nodeEntries s n) := by
  simp [listing, names, isDirectory]

/-- Directories stay, and their entries. -/
theorem Extends.listing (more : Extends s.tree t.tree) (lists : listing s path = some l) :
    ∃ l', listing t path = some l' ∧ l.map Entry.lasting <+: l'.map Entry.lasting := by
  obtain ⟨n, names, isDirectory, rfl⟩ := listing_eq_some lists
  have reach := has_of_resolve names
  refine ⟨nodeEntries t n, listing_of_resolve (more.resolves path n names)
    (by rwa [more.type n reach]), ?_⟩
  have same : (nodeEntries s n).map Entry.lasting =
      (s.tree.kids n).map fun child => (t.tree.label child, (t.tree.nodes child).type) := by
    rw [nodeEntries, List.map_map]
    apply List.map_congr_left
    intro child member
    have below : s.tree.Has child := .child reach member
    simp [Entry.lasting, nodeInfo, more.label child below, more.type child below]
  have later : (nodeEntries t n).map Entry.lasting =
      (t.tree.kids n).map fun child => (t.tree.label child, (t.tree.nodes child).type) := by
    rw [nodeEntries, List.map_map]
    rfl
  rw [same, later]
  exact (more.kids n reach).map _

/-! ## Names in a directory -/

/-- The name of a child leads on from where the path of its directory leads. -/
theorem parse_childPath (names : resolve s.tree path = some n) (nonempty : name ≠ [])
    (clean : delimiter ∉ name) :
    ∃ passed, vfsParseUrl s.tree (childPath path name) none none =
      parseComponents s.tree none none n passed [name] := by
  obtain ⟨found, parsed, inner, rfl⟩ := parse_of_resolve names
  have one : components (delimiter :: name) = [name] := by
    rw [components_delimiter, takeWhile_noDelimiter clean, components_of_noDelimiter clean]
  cases pathKind path with
  | @root path isRoot =>
    rw [parseUrl_root isRoot] at parsed
    obtain rfl := Except.ok.inj (Except.ok.inj parsed)
    have whole : childPath path name = delimiter :: name := by
      cases isRoot with
      | inl empty => simp [childPath, empty]
      | inr single => simp [childPath, single]
    exact ⟨[], by rw [whole, parseUrl_absolute nonempty, one]⟩
  | relative notDelimiter =>
    rw [parseUrl_relative notDelimiter] at parsed
    cases parsed
  | @absolute rest some =>
    rw [parseUrl_absolute some] at parsed
    have leads := (leads_of_parse parsed inner).2
    have whole : childPath (delimiter :: rest) name = delimiter :: (rest ++ delimiter :: name) := by
      simp [childPath, some]
    refine ⟨[] ++ components (delimiter :: rest), ?_⟩
    rw [whole, parseUrl_absolute (by simp), ← List.cons_append, components_append clean,
      leads.parse_append [name]]

/-- The only component of a path is found exactly when a child has that name. -/
theorem parse_single_iff {passed : List (List Char)} (apart : NamesApart s.tree)
    (reach : s.tree.Has n) :
    (∃ result, parseComponents s.tree none none n passed [name] = .ok (.ok result)) ↔
      name ∈ s.tree.names n := by
  constructor
  · intro found
    obtain ⟨result, parsed⟩ := found
    have child : ∃ c, s.tree.child n name = some c := by
      cases arrives_of_parse parsed with
      | mountpoint _ found _ => exact ⟨_, found⟩
      | inner _ found _ _ => exact ⟨_, found⟩
    obtain ⟨c, found⟩ := child
    exact List.mem_map.mpr ⟨c, mem_of_child found, label_of_child found⟩
  · intro member
    have fits := apart.fits n reach name member
    obtain ⟨c, isChild, label⟩ := List.mem_map.mp member
    cases meets s.tree n name with
    | overlong overlong => exact absurd fits overlong
    | missing _ missing =>
      rw [VfsState.child, NameTree.child, List.find?_eq_none] at missing
      exact absurd label (by simpa using missing c isChild)
    | mountpoint c _ found mountpoint =>
      refine ⟨⟨c, true, [], []⟩, ?_⟩
      rw [parse_mountpoint fits found mountpoint]
      rfl
    | inner c _ found inner => exact ⟨⟨c, false, [], []⟩, (Leads.cons fits found inner (.nil c)).parse⟩

/-- Where the only component of a path leads, the child of that name is. -/
theorem child_of_parse_single {passed : List (List Char)} {result : Resolved}
    (parsed : parseComponents s.tree none none n passed [name] = .ok (.ok result)) :
    s.tree.child n name = some result.node := by
  cases arrives_of_parse parsed with
  | mountpoint _ found _ => exact found
  | inner _ found _ rest =>
    cases rest with
    | done => exact found

theorem agrees_of_listing (apart : NamesApart s.tree) (lists : listing s path = some l) :
    AgreesWithLookup s path l := by
  obtain ⟨n, names, -, rfl⟩ := listing_eq_some lists
  have reach := has_of_resolve names
  have firsts : (nodeEntries s n).map Prod.fst = s.tree.names n := by
    rw [nodeEntries, List.map_map]
    rfl
  have distinct := apart.distinct n reach
  constructor
  · rwa [firsts]
  · intro name nonempty clean
    obtain ⟨passed, whole⟩ := parse_childPath names nonempty clean
    rw [whole, parse_single_iff apart reach, ← firsts]
    simp
  · intro name info result nonempty clean member found
    obtain ⟨passed, whole⟩ := parse_childPath names nonempty clean
    rw [whole] at found
    have child := child_of_parse_single found
    obtain ⟨c, isChild, same⟩ := List.mem_map.mp member
    obtain ⟨label, rfl⟩ := Prod.mk.inj same
    -- siblings with one name are one
    have one := List.inj_on_of_nodup_map distinct isChild (mem_of_child child)
      (label.trans (label_of_child child).symm)
    rw [one]

end

/-! ## The store holds the catalogue -/

/-- The arrays of a stream are as long as it says, it is not behind their end, and a name of it
fits into the buffer of `vfs_readdir`. -/
structure KDirStream.Sound (d : KDirStream) : Prop where
  names : d.names.length = d.len
  info : d.info.length = d.len
  pos : d.pos ≤ d.len
  fits : ∀ name ∈ d.names, name.length < vfsMaxDirnameLength

/-- What a stream lists. -/
def KDirStream.entries (d : KDirStream) : List Entry := d.names.zip d.info

/-- The store has the entries and the handles. -/
structure Lists (s : DirStore) (c : Catalogue) : Prop where
  apart : NamesApart s.store.tree
  entries : c.entries = listing s.store
  handles : ∀ h, c.handles h = (s.dirs h).map fun d => (d.entries, d.pos)
  sound : ∀ h d, s.dirs h = some d → d.Sound

section

variable {s t : DirStore} {c : Catalogue} {h : Nat} {d : KDirStream}

theorem vfsnodeRelease_tree {u v : Store} {n : Nat} (released : vfsnodeRelease u n = .ok v) :
    v.tree = u.tree := by
  unfold vfsnodeRelease at released
  split at released
  · obtain rfl := Except.ok.inj released
    rfl
  · cases released

theorem openNode_tree {u v : Store} {n fmode : Nat} {host : OpenHost} {answer : HResult × Option Nat}
    (called : openNode u n fmode host = .ok (answer, v)) : v.tree = u.tree := by
  unfold openNode at called
  cases stream : host.stream with
  | none =>
    simp only [stream] at called
    obtain ⟨back, released, called⟩ := exists_of_bind called
    obtain ⟨-, rfl⟩ := eq_of_returned called
    rw [vfsnodeRelease_tree released]
    rfl
  | some h =>
    simp only [stream] at called
    split at called
    · cases called
    · split at called
      · obtain ⟨-, rfl⟩ := eq_of_returned called
        rfl
      · split at called
        · split at called
          · cases called
          · obtain ⟨-, rfl⟩ := eq_of_returned called
            rfl
        · cases called

theorem vfsOpen_tree {u v : Store} {filename : List Char} {fmode : Nat} {host : OpenHost}
    {answer : HResult × Option Nat} (called : vfsOpen u filename fmode host = .ok (answer, v)) :
    v.tree = u.tree := by
  obtain ⟨outcome, -, called⟩ := exists_of_bind called
  cases outcome with
  | error hr => rw [(eq_of_returned called).2]
  | ok found =>
    dsimp only at called
    split at called
    · split at called
      · rw [(eq_of_returned called).2]
      · cases called
    · split at called
      · rw [(eq_of_returned called).2]
      · split at called
        · rw [(eq_of_returned called).2]
        · exact openNode_tree called

/-- Only the calls on the tree change it. -/
theorem storeStep_tree {u v : Store} {op : StoreCall × StoreAnswer} (step : StoreStep u op v) :
    v.tree = u.tree ∨ ∃ op', VfsStep u.tree op' v.tree := by
  cases step with
  | tree taken => exact .inr ⟨_, taken⟩
  | fopen _ called => exact .inl (vfsOpen_tree called)
  | fclose called =>
    obtain ⟨o, -, -, rfl⟩ := vfsClose_cases called
    exact .inl rfl
  | stream _ _ called =>
    refine .inl ?_
    unfold streamCall at called
    split at called
    · cases called
    · split at called
      · obtain ⟨file, -, called⟩ := exists_of_bind called
        obtain ⟨-, rfl⟩ := eq_of_returned called
        rfl
      · rw [(eq_of_returned called).2]

theorem extends_of_storeStep {u v : Store} {op : StoreCall × StoreAnswer}
    (apart : NamesApart u.tree) (step : StoreStep u op v) :
    NamesApart v.tree ∧ Extends u.tree v.tree := by
  cases storeStep_tree step with
  | inl same =>
    rw [same]
    exact ⟨apart, .refl _⟩
  | inr tree =>
    obtain ⟨op', taken⟩ := tree
    exact ⟨apart.step taken, extends_of_step apart.valid taken⟩

/-- The arrays are the names of the children and what they are. -/
theorem populateDir_eq {u : Store} {children : List Nat} {names : List (List Char)}
    {info : List KFsNodeInfo} (populated : populateDir u children = .ok (names, info)) :
    names = children.map u.tree.label ∧ info = children.map (nodeInfo u) ∧
      ∀ name ∈ names, name.length < vfsMaxDirnameLength := by
  induction children generalizing names info with
  | nil =>
    obtain ⟨rfl, rfl⟩ := eq_of_returned populated
    simp
  | cons child children inductionHypothesis =>
    obtain ⟨name, copied, populated⟩ := exists_of_bind populated
    obtain ⟨rest, others, populated⟩ := exists_of_bind populated
    obtain ⟨rfl, fits⟩ := eq_of_strcpy copied
    obtain ⟨labels, infos, short⟩ := inductionHypothesis others
    obtain ⟨rfl, rfl⟩ := eq_of_returned populated
    refine ⟨?_, ?_, List.forall_mem_cons.mpr ⟨fits, short⟩⟩
    · rw [List.map_cons, ← labels]
      rfl
    · rw [List.map_cons, ← infos]

/-- Names that fit are copied. -/
theorem populateDir_returns {u : Store} {children : List Nat}
    (short : ∀ child ∈ children, (u.tree.label child).length < vfsMaxDirnameLength) :
    populateDir u children = .ok (children.map u.tree.label, children.map (nodeInfo u)) := by
  induction children with
  | nil => rfl
  | cons child children inductionHypothesis =>
    obtain ⟨first, later⟩ := List.forall_mem_cons.mp short
    have fits : (u.tree.nodes child).name.length < vfsMaxDirnameLength := first
    rw [populateDir, strcpy_of_lt fits, inductionHypothesis later]
    rfl

/-- `vfs_opendir` refuses a path that is no directory, and opens the stream that it was given on
the entries of any other. -/
theorem vfsOpendir_cases {path : List Char} {host : OpendirHost} {hr : HResult} {out : Option Nat}
    (called : vfsOpendir s path host = .ok ((hr, out), t)) :
    out = none ∧ t = s ∧ listing s.store path = none ∨
      ∃ h d, out = some h ∧ host.dir = some h ∧ hr = .sOk ∧ d.Sound ∧ d.pos = 0 ∧
        listing s.store path = some d.entries ∧ t = { s with dirs := update s.dirs h (some d) } := by
  obtain ⟨outcome, parsed, called⟩ := exists_of_bind called
  cases outcome with
  | error hr' =>
    obtain ⟨answer, rfl⟩ := eq_of_returned called
    refine .inl ⟨(Prod.mk.inj answer).2.symm, rfl, ?_⟩
    cases names : resolve s.store.tree path with
    | none => simp [listing, names]
    | some n => cases parsed.symm.trans (parse_into_buffers names)
  | ok found =>
    dsimp only at called
    cases crossing : found.isCrossingMountpoint with
    | true =>
      rw [crossing, if_pos rfl] at called
      split at called
      · obtain ⟨answer, rfl⟩ := eq_of_returned called
        refine .inl ⟨(Prod.mk.inj answer).2.symm, rfl, ?_⟩
        cases names : resolve s.store.tree path with
        | none => simp [listing, names]
        | some n =>
          obtain rfl := Except.ok.inj (Except.ok.inj (parsed.symm.trans (parse_into_buffers names)))
          cases crossing
      · cases called
    | false =>
      have names := resolve_of_parse parsed crossing
      rw [crossing, if_neg (by simp)] at called
      split at called
      · next notDirectory =>
        obtain ⟨answer, rfl⟩ := eq_of_returned called
        exact .inl ⟨(Prod.mk.inj answer).2.symm, rfl, by simp [listing, names, notDirectory]⟩
      · next isDirectory =>
        cases dir : host.dir with
        | none => simp [dir] at called
        | some h =>
          simp only [dir] at called
          split at called
          · cases called
          · obtain ⟨name, -, called⟩ := exists_of_bind called
            obtain ⟨arrays, populated, called⟩ := exists_of_bind called
            obtain ⟨answer, rfl⟩ := eq_of_returned called
            obtain ⟨rfl, rfl⟩ := Prod.mk.inj answer
            obtain ⟨labels, infos, short⟩ := populateDir_eq populated
            have count : (s.store.tree.kids found.node).length =
                (s.store.tree.nodes found.node).childCnt := by simp [VfsState.kids]
            refine .inr ⟨h, _, rfl, rfl, rfl, ⟨?_, ?_, Nat.zero_le _, short⟩, rfl, ?_, rfl⟩
            · simp [labels, count]
            · simp [infos, count]
            · rw [listing_of_resolve names isDirectory, KDirStream.entries, labels, infos,
                List.zip_map']
              rfl

/-- A directory whose names fit into the buffers can be opened whenever there is memory. -/
theorem vfsOpendir_returns {path : List Char} {host : OpendirHost} {l : List Entry}
    (lists : listing s.store path = some l) (short : ∀ entry ∈ l, entry.1.length < vfsMaxDirnameLength)
    (named : ∀ n, resolve s.store.tree path = some n →
      (s.store.tree.label n).length < vfsMaxDirnameLength)
    (dir : host.dir = some h) (contents : host.contents = true) :
    ∃ t, vfsOpendir s path host = .ok ((.sOk, some h), t) := by
  obtain ⟨n, names, isDirectory, rfl⟩ := listing_eq_some lists
  have parsed := @parse_into_buffers s.store.tree path n (some extPathSize) (some extPathSize) names
  have own : (s.store.tree.nodes n).name.length < vfsMaxDirnameLength := named n names
  have populated := @populateDir_returns s.store (s.store.tree.kids n) (by
    intro child member
    exact short _ (List.mem_map_of_mem member))
  simp [vfsOpendir, parsed, isDirectory, dir, contents, strcpy_of_lt own, populated, bind,
    Except.bind]

theorem KDirStream.Sound.length (sound : d.Sound) : d.entries.length = d.len := by
  simp [KDirStream.entries, sound.names, sound.info]

/-- `vfs_readdir` gives the entry at the place of the stream and goes on, until it is at the end. -/
theorem vfsReaddir_eq (taken : s.dirs h = some d) (sound : d.Sound) :
    vfsReaddir s h = .ok (match d.entries[d.pos]? with
      | some entry => ((.sOk, some entry),
        { s with dirs := update s.dirs h (some { d with pos := d.pos + 1 }) })
      | none => ((.eEndOfStr, none), s)) := by
  by_cases atEnd : d.pos = d.len
  · have missing : d.entries[d.len]? = none :=
      List.getElem?_eq_none (Nat.le_of_eq sound.length)
    simp [vfsReaddir, taken, atEnd, missing]
  · have before : d.pos < d.len := Nat.lt_of_le_of_ne sound.pos atEnd
    obtain ⟨name, isName⟩ : ∃ name, d.names[d.pos]? = some name :=
      ⟨_, List.getElem?_eq_getElem (sound.names ▸ before)⟩
    obtain ⟨info, isInfo⟩ : ∃ info, d.info[d.pos]? = some info :=
      ⟨_, List.getElem?_eq_getElem (sound.info ▸ before)⟩
    have here : (d.names.zip d.info)[d.pos]? = some (name, info) :=
      List.getElem?_zip_eq_some.mpr ⟨isName, isInfo⟩
    have fits := sound.fits name (List.mem_of_getElem? isName)
    rw [KDirStream.entries, here]
    simp [vfsReaddir, taken, sound.pos, atEnd, isName, isInfo, strcpy_of_lt fits, bind, Except.bind]

/-- A stream that is still sound is put where it was. -/
theorem Lists.put {dir : Option KDirStream} (lists : Lists s c)
    (sound : ∀ d, dir = some d → d.Sound) :
    Lists { s with dirs := update s.dirs h dir }
      { c with handles := update c.handles h (dir.map fun d => (d.entries, d.pos)) } where
  apart := lists.apart
  entries := lists.entries
  handles := by
    intro i
    by_cases same : i = h
    · simp [same]
    · simp [same, lists.handles]
  sound := by
    intro i d taken
    by_cases same : i = h
    · simp only [same, update_self] at taken
      exact sound d taken
    · simp only [update_of_ne same] at taken
      exact lists.sound i d taken

theorem lists_init (memory : Nat → VfsNode) (root : Nat) :
    Lists (.init memory root) (.init memory root) where
  apart := namesApart_init
  entries := rfl
  handles := fun _ => rfl
  sound := by
    intro h d taken
    cases taken

/-- What the store does in a step is a step of the catalogue. -/
theorem Lists.step {op : DirCall × DirAnswer} (lists : Lists s c) (step : DirStep s op t) :
    ∃ c', Catalogue.Step c op c' ∧ Lists t c' := by
  cases step with
  | @store u call answer taken =>
    obtain ⟨apart, more⟩ := extends_of_storeStep lists.apart taken
    refine ⟨{ c with entries := listing u }, .store ?_, ?_⟩
    · intro path l has
      rw [lists.entries] at has
      exact more.listing has
    · exact ⟨apart, rfl, lists.handles, lists.sound⟩
  | @opendir _ path host hr out fresh called =>
    cases vfsOpendir_cases called with
    | inl refused =>
      obtain ⟨rfl, rfl, missing⟩ := refused
      exact ⟨c, .refused (by rw [lists.entries, missing]), lists⟩
    | inr opens =>
      obtain ⟨h, d, rfl, dir, rfl, sound, start, has, rfl⟩ := opens
      have opened := @Lists.put s c h (some d) lists fun d' same => by
        rwa [← Option.some.inj same]
      rw [Option.map_some, start] at opened
      exact ⟨_, .opened (by rw [lists.entries, has]) (by simp [lists.handles, fresh h dir]), opened⟩
  | @readdir _ h hr entry called =>
    cases taken : s.dirs h with
    | none => simp [vfsReaddir, taken] at called
    | some d =>
      have sound := lists.sound h d taken
      have isOpen : c.handles h = some (d.entries, d.pos) := by simp [lists.handles, taken]
      rw [vfsReaddir_eq taken sound] at called
      cases here : d.entries[d.pos]? with
      | none =>
        rw [here] at called
        obtain ⟨answer, rfl⟩ := eq_of_returned called
        obtain ⟨rfl, rfl⟩ := Prod.mk.inj answer
        have atEnd : d.pos = d.entries.length :=
          Nat.le_antisymm (sound.length ▸ sound.pos) (List.getElem?_eq_none_iff.mp here)
        exact ⟨c, .finished (by rw [isOpen, ← atEnd]), lists⟩
      | some entry =>
        rw [here] at called
        obtain ⟨answer, rfl⟩ := eq_of_returned called
        obtain ⟨rfl, rfl⟩ := Prod.mk.inj answer
        have before : d.pos < d.entries.length := (List.getElem?_eq_some_iff.mp here).1
        refine ⟨_, .next isOpen here, @Lists.put s c h (some { d with pos := d.pos + 1 }) lists ?_⟩
        intro d' same
        rw [← Option.some.inj same]
        exact ⟨sound.names, sound.info, sound.length ▸ before, sound.fits⟩
  | @rewinddir _ h hr called =>
    unfold vfsRewinddir at called
    split at called
    · cases called
    · next d taken =>
      obtain ⟨rfl, rfl⟩ := eq_of_returned called
      have sound := lists.sound h d taken
      refine ⟨_, .rewound (by rw [lists.handles, taken]; rfl),
        @Lists.put s c h (some { d with pos := 0 }) lists ?_⟩
      intro d' same
      rw [← Option.some.inj same]
      exact ⟨sound.names, sound.info, Nat.zero_le _, sound.fits⟩
  | @closedir _ h hr called =>
    unfold vfsClosedir at called
    split at called
    · cases called
    · next d taken =>
      obtain ⟨rfl, rfl⟩ := eq_of_returned called
      refine ⟨_, .closed (by rw [lists.handles, taken]; rfl), @Lists.put s c h none lists ?_⟩
      intro d' same
      cases same

end

/-- After any calls on files, on the tree and on directories: the answers are those of a catalogue
where a directory keeps its entries for good and a handle lists those there were when it was opened,
each once and in order; the names of a directory are different and are the ones that a path through
it finds, with what is found there; and every further call on an open directory returns, as does
the opening of a directory when there is memory and its names have less than 255 characters. -/
theorem directories_list {memory : Nat → VfsNode} {root : Nat} {s : DirStore}
    {ops : List (DirCall × DirAnswer)} (run : Run DirStep (.init memory root) ops s) :
    ∃ c, Run Catalogue.Step (.init memory root) ops c ∧ Lists s c ∧
      (∀ path l, c.entries path = some l → AgreesWithLookup s.store path l) ∧
      (∀ h l k, c.handles h = some (l, k) → (∃ answer t, vfsReaddir s h = .ok (answer, t)) ∧
        (∃ t, vfsRewinddir s h = .ok (.sOk, t)) ∧ ∃ t, vfsClosedir s h = .ok (.sOk, t)) ∧
      ∀ path l n h host, c.entries path = some l → resolve s.store.tree path = some n →
        (∀ name ∈ s.store.tree.label n :: l.map Prod.fst, name.length < vfsMaxDirnameLength) →
        host.dir = some h → host.contents = true →
        ∃ t, vfsOpendir s path host = .ok ((.sOk, some h), t) := by
  have matched : ∀ s op t c, Lists s c → DirStep s op t → ∃ c', Catalogue.Step c op c' ∧ Lists t c' :=
    fun s op t c lists step => lists.step step
  obtain ⟨c, run', lists⟩ := run.simulate Lists matched (lists_init memory root)
  refine ⟨c, run', lists, ?_, ?_, ?_⟩
  · intro path l has
    rw [lists.entries] at has
    exact agrees_of_listing lists.apart has
  · intro h l k isOpen
    rw [lists.handles] at isOpen
    obtain ⟨d, taken, -⟩ := Option.map_eq_some_iff.mp isOpen
    refine ⟨?_, by simp [vfsRewinddir, taken], by simp [vfsClosedir, taken]⟩
    rw [vfsReaddir_eq taken (lists.sound h d taken)]
    exact ⟨_, _, rfl⟩
  · intro path l n h host has names short dir contents
    rw [lists.entries] at has
    obtain ⟨own, others⟩ := List.forall_mem_cons.mp short
    refine vfsOpendir_returns has (fun entry member => others _ (List.mem_map_of_mem member)) ?_ dir
      contents
    intro m same
    rwa [← Option.some.inj (names.symm.trans same)]

/-- A directory stream that has memory at an address. -/
def dirHostAt (h : Nat) : OpendirHost := ⟨some h, true, fun _ _ => .eFail⟩

/-- The root is opened, `/a` is made in it, and the root is opened again: the first stream lists
nothing, and the second one `a`. -/
theorem directories_list_a :
    ∃ c, Run Catalogue.Step (.init (fun _ => .zeroed) 0)
      [(.opendir ['/'] (dirHostAt 8), .opened .sOk (some 8)),
        (.store (.tree (.mkdir ['/', 'a'] 0 ⟨some fun _ => 0, some 1⟩)), .store (.status .sOk)),
        (.opendir ['/'] (dirHostAt 9), .opened .sOk (some 9)),
        (.readdir 8, .entry .eEndOfStr none),
        (.readdir 9, .entry .sOk (some (['a'], ⟨nodeTypeDirectory, 0⟩))),
        (.readdir 9, .entry .eEndOfStr none)] c := by
  have run : Run DirStep (.init (fun _ => .zeroed) 0)
      [(.opendir ['/'] (dirHostAt 8), .opened .sOk (some 8)),
        (.store (.tree (.mkdir ['/', 'a'] 0 ⟨some fun _ => 0, some 1⟩)), .store (.status .sOk)),
        (.opendir ['/'] (dirHostAt 9), .opened .sOk (some 9)),
        (.readdir 8, .entry .eEndOfStr none),
        (.readdir 9, .entry .sOk (some (['a'], ⟨nodeTypeDirectory, 0⟩))),
        (.readdir 9, .entry .eEndOfStr none)] _ :=
    .cons (.opendir (by rintro h ⟨⟩; rfl) rfl)
      (.cons (.store (.tree ⟨vfsInit_fresh (by decide), rfl⟩))
        (.cons (.opendir (by rintro h ⟨⟩; rfl) rfl)
          (.cons (.readdir rfl) (.cons (.readdir rfl) (.cons (.readdir rfl) (.nil _))))))
  obtain ⟨c, run', -⟩ := directories_list run
  exact ⟨c, run'⟩

end Antonix.FileStore
