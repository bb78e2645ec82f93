import Antonix.Lib.HandleTable
import Antonix.Vfs.Create
import Antonix.Vfs.File
import Antonix.Vfs.Shape

/-! # Open files (`vfs.c`)

The whole of the VFS: the tree, the content and the reference count of its nodes, and
the streams that `vfs_open` makes for them.  The content of a node that is not allocated
yet is what `kcalloc` will return. -/

namespace Antonix.FileStore

open Function HandleTable Transition Vfs

/-- A `K_STREAM` of `vfs_open`: its `priv_data`, whether its routines are those of a file or
of a device, and what they use. -/
structure OpenStream where
  node : Nat
  isFile : Bool
  str : KStream

/-- `tree` has the nodes, `files` and `refCount` what the tree leaves out of them, and
`streams` the open streams by their address. -/
structure Store where
  tree : VfsState
  files : Nat → VfsFile
  refCount : Nat → Nat
  streams : Nat → Option OpenStream

/-- Behind `vfs_init`. -/
def Store.init (memory : Nat → VfsNode) (root : Nat) : Store where
  tree := vfsInit memory root
  files := fun _ => .created
  refCount := fun _ => 0
  streams := fun _ => none

/-- Addresses have 32 bits, and 0 is `NULL`. -/
abbrev addressLimit : Nat := 2 ^ 32

/-- What `vfs_open` gets from outside the VFS: memory for the stream and for its name, the
answer of a device to `DEVIO_OPEN`, and what the driver at a mount point returns. -/
structure OpenHost where
  stream : Option Nat
  name : Bool
  devOpen : HResult
  fsOpen : Nat → List Char → Nat → HResult

/-- `vfsnode_addref` -/
def vfsnodeAddref (s : Store) (n : Nat) : Store :=
  { s with refCount := update s.refCount n (u32 (s.refCount n + 1)) }

/-- `vfsnode_release` -/
def vfsnodeRelease (s : Store) (n : Nat) : Except Halt Store :=
  if s.refCount n > 0 then
    .ok { s with refCount := update s.refCount n (s.refCount n - 1) }
  else .error .assertion

/-- The stream that `vfs_open` populates for a node. -/
def populated (s : Store) (h n fmode : Nat) (isFile : Bool) : Store :=
  { s with streams := update s.streams h (some ⟨n, isFile, { mode := fmode, pos := 0 }⟩) }

/-- `vfs_open` from where it takes the reference. -/
def openNode (s : Store) (n fmode : Nat) (host : OpenHost) :
    Except Halt ((HResult × Option Nat) × Store) :=
  let s := vfsnodeAddref s n
  match host.stream with
  | none => do
    let s ← vfsnodeRelease s n
    .ok ((.eFail, none), s)
  | some h =>
    -- `strcpy` to `NULL`
    if !host.name then .error .stuck
    else
      let type := (s.tree.nodes n).type
      if type = nodeTypeFile then .ok ((.sOk, some h), populated s h n fmode true)
      else if type = nodeTypeBlockdevice ∨ type = nodeTypeChardevice then
        if host.devOpen.failed then .error (.panic "Failed to open device.")
        else .ok ((.sOk, some h), populated s h n fmode false)
      else .error (.panic "Unknown node type.")

/-- `vfs_open` and the stream it stores at `out`, if that is one of the VFS. -/
def vfsOpen (s : Store) (filename : List Char) (fmode : Nat) (host : OpenHost) :
    Except Halt ((HResult × Option Nat) × Store) := do
  match ← vfsParseUrl s.tree filename (some extPathSize) (some extPathSize) with
  | .error hr => .ok ((hr, none), s)
  | .ok found =>
    let node := s.tree.nodes found.node
    if found.isCrossingMountpoint then
      match node.fsDriver with
      | .mounted drv => .ok ((host.fsOpen drv found.mountedPath fmode, none), s)
      | _ => .error .stuck
    else if node.permission ≠ nodeModeAllRwe then .ok ((.eAccessDenied, none), s)
    else if node.type &&& nodeTypeDirectory ≠ 0 then .ok ((.eFail, none), s)
    else openNode s found.node fmode host

/-- `vfs_close`; `devClose` is the answer of a device to `DEVIO_CLOSE`. -/
def vfsClose (s : Store) (h : Nat) (devClose : HResult) : Except Halt (HResult × Store) :=
  match s.streams h with
  | none => .error .stuck
  | some o =>
    if !o.isFile && devClose.failed then .error (.panic "Failed to close device.")
    else do
      let s ← vfsnodeRelease { s with streams := update s.streams h none } o.node
      .ok (.sOk, s)

/-! ## Calls on streams -/

/-- The stream that a call is on. -/
def callStream : FileCall → Nat
  | .read h _ | .write h _ | .seek h _ _ | .tell h => h

/-- A file and its streams.  For every other stream there is one that nothing can be done with. -/
def Store.view (s : Store) (n : Nat) : FileState where
  node := s.files n
  streams := fun h =>
    match s.streams h with
    | some o => if o.isFile ∧ o.node = n then o.str else { mode := 0, pos := 0 }
    | none => { mode := 0, pos := 0 }

/-- Store what a call on the file of a stream left of the file and of the stream. -/
def Store.put (s : Store) (h : Nat) (o : OpenStream) (t : FileState) : Store :=
  { s with
    files := update s.files o.node t.node
    streams := update s.streams h (some { o with str := t.streams h }) }

/-- A call of `vfs_file_read`, `vfs_file_write`, `vfs_file_seek` or `vfs_file_tell` through a
stream.  The calls on a device are the business of its driver and have no answer here. -/
def streamCall (s : Store) (allocated reallocated : Option Block) (call : FileCall) :
    Except Halt (Option FileAnswer × Store) :=
  match s.streams (callStream call) with
  | none => .error .stuck
  | some o =>
    if o.isFile then do
      let (answer, t) ← fileCall (s.view o.node) allocated reallocated call
      .ok (some answer, s.put (callStream call) o t)
    else .ok (none, s)

/-! ## Runs -/

/-- The calls: those that change the tree, `vfs_open`, `vfs_close` and those on a stream. -/
inductive StoreCall where
  | tree (call : VfsCall)
  | fopen (filename : List Char) (fmode : Nat) (host : OpenHost)
  | fclose (h : Nat) (devClose : HResult)
  | stream (call : FileCall)

inductive StoreAnswer where
  | status (hr : HResult)
  | opened (hr : HResult) (h : Option Nat)
  | stream (answer : Option FileAnswer)

/-- A call that returns.  The heap hands out nodes that are not in the tree and streams that are
not open, and the content of files finds its memory. -/
inductive StoreStep : Store → StoreCall × StoreAnswer → Store → Prop
  | tree {s : Store} {t : VfsState} {call : VfsCall} {hr : HResult}
      (taken : VfsStep s.tree (call, hr) t) :
      StoreStep s (.tree call, .status hr) { s with tree := t }
  | fopen {s t : Store} {filename : List Char} {fmode : Nat} {host : OpenHost} {hr : HResult}
      {h : Option Nat}
      (fresh : ∀ h, host.stream = some h → h ≠ 0 ∧ h < addressLimit ∧ s.streams h = none)
      (called : vfsOpen s filename fmode host = .ok ((hr, h), t)) :
      StoreStep s (.fopen filename fmode host, .opened hr h) t
  | fclose {s t : Store} {h : Nat} {devClose hr : HResult}
      (called : vfsClose s h devClose = .ok (hr, t)) :
      StoreStep s (.fclose h devClose, .status hr) t
  | stream {s t : Store} {call : FileCall} {answer : Option FileAnswer}
      (allocated reallocated : Block)
      (called : streamCall s (some allocated) (some reallocated) call = .ok (answer, t)) :
      StoreStep s (.stream call, .stream answer) t

/-- Block sizes are positive and end below `2 ^ 31`. -/
def StoreCall.InRange (s : Store) : StoreCall → Prop
  | .stream call => ∀ o, s.streams (callStream call) = some o → Vfs.InRange (s.view o.node) call
  | _ => True

/-! ## Files by name -/

/-- What a handle is open on, and how. -/
structure Handle where
  node : Nat
  mode : Nat
  isFile : Bool

/-- What the VFS is for: paths name nodes, nodes have bytes, and every handle has a cursor in the
bytes of its node. -/
structure FileSystem where
  paths : List Char → Option Nat
  files : Nat → ByteFile
  handles : Nat → Option Handle

/-- The mode of a handle as a handle of one file. -/
def FileSystem.modes (fs : FileSystem) (n h : Nat) : Nat :=
  match fs.handles h with
  | some handle => if handle.isFile ∧ handle.node = n then handle.mode else 0
  | none => 0

/-- The steps of a file system.  A path that names a node names it for good; what a call on a
handle reads and writes are the bytes of the node it is open on, and no others. -/
inductive FileSystem.Step : FileSystem → StoreCall × StoreAnswer → FileSystem → Prop
  | tree {fs : FileSystem} {call : VfsCall} {hr : HResult} {paths : List Char → Option Nat}
      (kept : ∀ path n, fs.paths path = some n → paths path = some n) :
      Step fs (.tree call, .status hr) { fs with paths := paths }
  | refused {fs : FileSystem} {filename : List Char} {fmode : Nat} {host : OpenHost}
      {hr : HResult} :
      Step fs (.fopen filename fmode host, .opened hr none) fs
  | opened {fs : FileSystem} {filename : List Char} {fmode n h : Nat} {host : OpenHost}
      {isFile : Bool} (names : fs.paths filename = some n) (free : fs.handles h = none) :
      Step fs (.fopen filename fmode host, .opened .sOk (some h))
        { fs with
          files := update fs.files n ((fs.files n).moveTo h 0 (Nat.zero_le _))
          handles := update fs.handles h (some ⟨n, fmode, isFile⟩) }
  | closed {fs : FileSystem} {h : Nat} {devClose : HResult} {handle : Handle}
      (isOpen : fs.handles h = some handle) :
      Step fs (.fclose h devClose, .status .sOk)
        { fs with
          files := update fs.files handle.node
            ((fs.files handle.node).moveTo h 0 (Nat.zero_le _))
          handles := update fs.handles h none }
  | file {fs : FileSystem} {call : FileCall} {n mode : Nat}
      (isOpen : fs.handles (callStream call) = some ⟨n, mode, true⟩) :
      Step fs (.stream call, .stream (some (byteFileCall (fs.modes n) (fs.files n) call).1))
        { fs with files := update fs.files n (byteFileCall (fs.modes n) (fs.files n) call).2 }
  | device {fs : FileSystem} {call : FileCall} {n mode : Nat}
      (isOpen : fs.handles (callStream call) = some ⟨n, mode, false⟩) :
      Step fs (.stream call, .stream none) fs

/-- The node that a path leads to when it meets no mount point. -/
def resolve (s : VfsState) (path : List Char) : Option Nat :=
  match vfsParseUrl s path none none with
  | .ok (.ok found) => if found.isCrossingMountpoint then none else some found.node
  | _ => none

/-- No names but the root's, no bytes and no handles. -/
def FileSystem.init (memory : Nat → VfsNode) (root : Nat) : FileSystem where
  paths := resolve (vfsInit memory root)
  files := fun _ => .empty
  handles := fun _ => none

/-! ## The VFS is a file system

Runs of the store are runs of a file system: names last, the bytes of a file are a byte array, and
a reference count is the number of streams that are open on its node. -/

section

variable {s t : VfsState} {path : List Char} {n c : Nat} {xs : List (List Char)}
  {op : VfsCall × HResult}

/-! ## Names last -/

theorem leads_congr (nodes : t.nodes = s.nodes) (leads : Leads s n xs c) : Leads t n xs c := by
  induction leads with
  | nil => exact .nil _
  | @cons n m c x xs fits found inner _ inductionHypothesis =>
    have kids : t.kids = s.kids := by funext k; simp only [VfsState.kids, nodes]
    have label : t.label = s.label := by funext k; simp only [VfsState.label, nodes]
    refine .cons fits ?_ ?_ inductionHypothesis
    · rw [VfsState.child, kids, label]
      exact found
    · rw [VfsState.IsMountpoint, nodes]
      exact inner

/-- A path names a node when it leads there. -/
theorem resolve_of_parse {b m : Option Nat} {found : Resolved}
    (parsed : vfsParseUrl s path b m = .ok (.ok found))
    (inner : found.isCrossingMountpoint = false) : resolve s path = some found.node := by
  cases pathKind path with
  | root isRoot =>
    rw [parseUrl_root isRoot] at parsed
    obtain rfl := Except.ok.inj (Except.ok.inj parsed)
    simp [resolve, parseUrl_root isRoot]
  | relative notDelimiter =>
    rw [parseUrl_relative notDelimiter] at parsed
    cases parsed
  | absolute nonempty =>
    rw [parseUrl_absolute nonempty] at parsed
    have leads := (leads_of_parse parsed inner).2
    simp [resolve, parseUrl_absolute nonempty, leads.parse]

theorem parse_of_resolve (names : resolve s path = some n) :
    ∃ found, vfsParseUrl s path none none = .ok (.ok found) ∧
      found.isCrossingMountpoint = false ∧ found.node = n := by
  unfold resolve at names
  split at names
  · next found parsed =>
    cases crossing : found.isCrossingMountpoint with
    | true => simp [crossing] at names
    | false => exact ⟨found, parsed, crossing, by simpa [crossing] using names⟩
  · cases names

/-- Whatever is added to the tree: a path that names a node names it for good. -/
theorem resolve_kept (valid : IsVfsTree s) (step : VfsStep s op t)
    (names : resolve s path = some n) : resolve t path = some n := by
  obtain ⟨found, parsed, inner, rfl⟩ := parse_of_resolve names
  have kept : t.root = s.root ∧
      ∀ xs c, Leads s s.root xs c → Leads t t.root xs c := by
    cases vfsStep_tree valid step with
    | inl same =>
      obtain ⟨-, nodes, root⟩ := same
      exact ⟨root, fun xs c leads => by rw [root]; exact leads_congr nodes leads⟩
    | inr adds =>
      obtain ⟨parent, name, leaf, -, added⟩ := adds
      exact ⟨added.root, fun xs c leads => by rw [added.root]; exact added.leads .root leads⟩
  cases pathKind path with
  | root isRoot =>
    rw [parseUrl_root isRoot] at parsed
    obtain rfl := Except.ok.inj (Except.ok.inj parsed)
    simp [resolve, parseUrl_root isRoot, kept.1]
  | relative notDelimiter =>
    rw [parseUrl_relative notDelimiter] at parsed
    cases parsed
  | absolute nonempty =>
    rw [parseUrl_absolute nonempty] at parsed
    have leads := kept.2 _ _ (leads_of_parse parsed inner).2
    simp [resolve, parseUrl_absolute nonempty, leads.parse]

end

/-! ## The store holds the file system -/

/-- The nodes that the streams are open on. -/
def Store.openNodes (s : Store) (h : Nat) : Option Nat := (s.streams h).map OpenStream.node

/-- The store has the names, the bytes and the handles, and counts the handles of every node. -/
structure Simulates (s : Store) (fs : FileSystem) : Prop where
  valid : IsVfsTree s.tree
  paths : fs.paths = resolve s.tree
  handles : ∀ h, fs.handles h = (s.streams h).map fun o => ⟨o.node, o.str.mode, o.isFile⟩
  files : ∀ n, Represents (fs.modes n) (s.view n) (fs.files n)
  addresses : ∀ h o, s.streams h = some o → h ≠ 0 ∧ h < addressLimit
  counted : ∀ n, s.refCount n = uses addressLimit s.openNodes n

section

variable {s t : Store} {fs : FileSystem} {n h fmode : Nat} {o : OpenStream} {call : FileCall}

/-- What a file has is kept by every change of its streams that the cursors follow. -/
theorem representsOfStreams {modes modes' : Nat → Nat} {view view' : FileState}
    {file file' : ByteFile} (rep : Represents modes view file) (node : view'.node = view.node)
    (data : file'.data = file.data)
    (streams : ∀ i, view'.streams i = { mode := modes' i, pos := file'.cursors i }) :
    Represents modes' view' file' where
  small := by rw [data]; exact rep.small
  size := by rw [node, data]; exact rep.size
  capacity := by rw [node, data]; exact rep.capacity
  content := by rw [node, data]; exact rep.content
  streams := streams

/-- There are not so many streams that a reference count wraps around. -/
theorem Simulates.refCount_lt (sim : Simulates s fs) (n : Nat) : s.refCount n < 2 ^ 32 := by
  rw [sim.counted n]
  refine uses_lt n (show 0 < addressLimit by decide) ?_
  cases null : s.streams 0 with
  | none => simp [Store.openNodes, null]
  | some o => exact absurd rfl (sim.addresses 0 o null).1

theorem Simulates.streams_none (sim : Simulates s fs) (free : fs.handles h = none) :
    s.streams h = none := by
  cases taken : s.streams h with
  | none => rfl
  | some o => simp [sim.handles, taken] at free

/-- A handle that is not open on a node as a file is at the start of it. -/
theorem Simulates.cursor_eq_zero (sim : Simulates s fs)
    (elsewhere : ∀ o, s.streams h = some o → ¬ (o.isFile = true ∧ o.node = n)) :
    (fs.files n).cursors h = 0 := by
  have at0 : (s.view n).streams h = { mode := 0, pos := 0 } := by
    cases taken : s.streams h with
    | none => simp [Store.view, taken]
    | some o =>
      simp only [Store.view, taken]
      exact if_neg (elsewhere o taken)
  have same := (sim.files n).streams h
  rw [at0] at same
  exact (KStream.mk.inj same).2.symm

/-! ## Opening -/

/-- A reference that is taken and given back. -/
theorem release_addref (fits : s.refCount n < 2 ^ 32)
    (released : vfsnodeRelease (vfsnodeAddref s n) n = .ok t) : t = s := by
  unfold vfsnodeRelease at released
  split at released
  · next counted =>
    obtain rfl := Except.ok.inj released
    have more : u32 (s.refCount n + 1) = s.refCount n + 1 := by
      simp only [vfsnodeAddref, update_self, u32] at counted
      rw [u32_of_lt]
      omega
    simp [vfsnodeAddref, more]
  · cases released

/-- `vfs_open` changes nothing, or it opens the stream it was given on the node of the path. -/
theorem vfsOpen_cases {filename : List Char} {host : OpenHost} {hr : HResult} {out : Option Nat}
    (fits : ∀ n, s.refCount n < 2 ^ 32)
    (called : vfsOpen s filename fmode host = .ok ((hr, out), t)) :
    out = none ∧ t = s ∨
      ∃ n h isFile, out = some h ∧ host.stream = some h ∧ hr = .sOk ∧
        resolve s.tree filename = some n ∧ t = populated (vfsnodeAddref s n) h n fmode isFile := by
  obtain ⟨outcome, parsed, called⟩ := exists_of_bind called
  cases outcome with
  | error hr' =>
    obtain ⟨answer, rfl⟩ := eq_of_returned called
    exact .inl ⟨(Prod.mk.inj answer).2.symm, rfl⟩
  | ok found =>
    dsimp only at called
    cases crossing : found.isCrossingMountpoint with
    | true =>
      -- the driver at the mount point answers
      rw [crossing, if_pos rfl] at called
      split at called
      · obtain ⟨answer, rfl⟩ := eq_of_returned called
        exact .inl ⟨(Prod.mk.inj answer).2.symm, rfl⟩
      · cases called
    | false =>
      rw [crossing, if_neg (by simp)] at called
      split at called
      · obtain ⟨answer, rfl⟩ := eq_of_returned called
        exact .inl ⟨(Prod.mk.inj answer).2.symm, rfl⟩
      · split at called
        · obtain ⟨answer, rfl⟩ := eq_of_returned called
          exact .inl ⟨(Prod.mk.inj answer).2.symm, rfl⟩
        · have names := resolve_of_parse parsed crossing
          cases stream : host.stream with
          | none =>
            simp only [openNode, stream] at called
            obtain ⟨back, released, called⟩ := exists_of_bind called
            obtain ⟨answer, rfl⟩ := eq_of_returned called
            obtain rfl := release_addref (fits found.node) released
            exact .inl ⟨(Prod.mk.inj answer).2.symm, rfl⟩
          | some h =>
            simp only [openNode, stream] at called
            split at called
            · cases called
            · split at called
              · obtain ⟨answer, rfl⟩ := eq_of_returned called
                obtain ⟨rfl, rfl⟩ := Prod.mk.inj answer
                exact .inr ⟨found.node, h, true, rfl, rfl, rfl, names, rfl⟩
              · split at called
                · split at called
                  · cases called
                  · obtain ⟨answer, rfl⟩ := eq_of_returned called
                    obtain ⟨rfl, rfl⟩ := Prod.mk.inj answer
                    exact .inr ⟨found.node, h, false, rfl, rfl, rfl, names, rfl⟩
                · cases called

theorem Simulates.opened (sim : Simulates s fs) (notNull : h ≠ 0) (below : h < addressLimit)
    (free : s.streams h = none) (isFile : Bool) :
    Simulates (populated (vfsnodeAddref s n) h n fmode isFile)
      { fs with
        files := update fs.files n ((fs.files n).moveTo h 0 (Nat.zero_le _))
        handles := update fs.handles h (some ⟨n, fmode, isFile⟩) } where
  valid := sim.valid
  paths := sim.paths
  handles := by
    intro i
    by_cases same : i = h
    · simp [same, populated]
    · simp [same, populated, vfsnodeAddref, sim.handles]
  files := by
    intro m
    refine representsOfStreams (sim.files m) rfl ?_ ?_
    · by_cases same : m = n
      · subst same
        simp [ByteFile.moveTo]
      · simp [same]
    · intro i
      have at0 := sim.cursor_eq_zero (h := h) (n := m) (by simp [free])
      by_cases isHandle : i = h
      · subst isHandle
        by_cases same : m = n
        · subst same
          cases isFile <;> simp [Store.view, populated, FileSystem.modes, ByteFile.moveTo]
        · simp [Store.view, populated, FileSystem.modes, same, Ne.symm same, at0]
      · have before := (sim.files m).streams i
        have cursor : (update fs.files n ((fs.files n).moveTo h 0 (Nat.zero_le _)) m).cursors i =
            (fs.files m).cursors i := by
          by_cases same : m = n
          · subst same
            simp [ByteFile.moveTo, isHandle]
          · simp [same]
        simpa [Store.view, populated, vfsnodeAddref, FileSystem.modes, isHandle, cursor]
          using before
  addresses := by
    intro i o taken
    by_cases same : i = h
    · subst same
      exact ⟨notNull, below⟩
    · simp only [populated, update_of_ne same] at taken
      exact sim.addresses i o taken
  counted := by
    intro m
    have free' : s.openNodes h = none := by simp [Store.openNodes, free]
    have nodes : (populated (vfsnodeAddref s n) h n fmode isFile).openNodes =
        update s.openNodes h (some n) := by
      funext i
      by_cases same : i = h
      · simp [Store.openNodes, populated, same]
      · simp [Store.openNodes, populated, vfsnodeAddref, same]
    have few := sim.refCount_lt n
    have fits : s.refCount n + 1 < 2 ^ 32 := by
      have never : update s.openNodes h (some n) 0 = none := by
        rw [update_of_ne (Ne.symm notNull)]
        cases null : s.streams 0 with
        | none => simp [Store.openNodes, null]
        | some o => exact absurd rfl (sim.addresses 0 o null).1
      have more := uses_lt n (show 0 < addressLimit by decide) never
      rw [uses_open below free', if_pos rfl, ← sim.counted n] at more
      exact more
    rw [nodes, uses_open below free']
    by_cases same : m = n
    · subst same
      rw [sim.counted] at fits
      simp [populated, vfsnodeAddref, u32_of_lt fits, sim.counted]
    · simp [populated, vfsnodeAddref, same, Ne.symm same, sim.counted]

/-! ## Closing -/

theorem vfsClose_cases {devClose hr : HResult} (called : vfsClose s h devClose = .ok (hr, t)) :
    ∃ o, s.streams h = some o ∧ hr = .sOk ∧
      t = { s with
        streams := update s.streams h none
        refCount := update s.refCount o.node (s.refCount o.node - 1) } := by
  unfold vfsClose at called
  split at called
  · cases called
  · next o taken =>
    split at called
    · cases called
    · obtain ⟨released, release, called⟩ := exists_of_bind called
      obtain ⟨rfl, rfl⟩ := eq_of_returned called
      unfold vfsnodeRelease at release
      split at release
      · obtain rfl := Except.ok.inj release
        exact ⟨o, taken, rfl, rfl⟩
      · cases release

theorem Simulates.closed (sim : Simulates s fs) (taken : s.streams h = some o) :
    Simulates
      { s with
        streams := update s.streams h none
        refCount := update s.refCount o.node (s.refCount o.node - 1) }
      { fs with
        files := update fs.files o.node ((fs.files o.node).moveTo h 0 (Nat.zero_le _))
        handles := update fs.handles h none } where
  valid := sim.valid
  paths := sim.paths
  handles := by
    intro i
    by_cases same : i = h
    · simp [same]
    · simp [same, sim.handles]
  files := by
    intro m
    refine representsOfStreams (sim.files m) rfl ?_ ?_
    · by_cases same : m = o.node
      · simp [same, ByteFile.moveTo]
      · simp [same]
    · intro i
      by_cases isHandle : i = h
      · subst isHandle
        by_cases same : m = o.node
        · simp [Store.view, FileSystem.modes, ByteFile.moveTo, same]
        · -- the cursor of the handle in another file was never moved
          have at0 := sim.cursor_eq_zero (h := i) (n := m) (by
            intro o' taken'
            obtain rfl := Option.some.inj (taken.symm.trans taken')
            simp [Ne.symm same])
          simp [Store.view, FileSystem.modes, same, at0]
      · have before := (sim.files m).streams i
        have cursor : (update fs.files o.node
            ((fs.files o.node).moveTo h 0 (Nat.zero_le _)) m).cursors i =
            (fs.files m).cursors i := by
          by_cases same : m = o.node
          · simp [same, ByteFile.moveTo, isHandle]
          · simp [same]
        simpa [Store.view, FileSystem.modes, isHandle, cursor] using before
  addresses := by
    intro i o' taken'
    by_cases same : i = h
    · simp [same] at taken'
    · simp only [update_of_ne same] at taken'
      exact sim.addresses i o' taken'
  counted := by
    intro m
    have taken' : s.openNodes h = some o.node := by simp [Store.openNodes, taken]
    have nodes : Store.openNodes
        { s with
          streams := update s.streams h none
          refCount := update s.refCount o.node (s.refCount o.node - 1) } =
        update s.openNodes h none := by
      funext i
      by_cases same : i = h
      · simp [Store.openNodes, same]
      · simp [Store.openNodes, same]
    have less := uses_close (b := m) (sim.addresses h o taken).2 taken'
    rw [nodes]
    by_cases same : m = o.node
    · subst same
      rw [if_pos rfl, ← sim.counted] at less
      simp only [update_self]
      omega
    · rw [if_neg (Ne.symm same), ← sim.counted] at less
      simp only [update_of_ne same]
      omega

/-! ## Calls on streams -/

/-- A call moves the cursor of its stream and no other. -/
theorem byteFileCall_cursors (modes : Nat → Nat) (file : ByteFile) {i : Nat}
    (other : i ≠ callStream call) :
    (byteFileCall modes file call).2.cursors i = file.cursors i := by
  cases call with
  | read h n =>
    have other' : i ≠ h := other
    simp only [byteFileCall]
    split
    · rfl
    · split
      · rfl
      · simp [ByteFile.moveTo, other']
  | write h block =>
    have other' : i ≠ h := other
    simp only [byteFileCall]
    split
    · rfl
    · simp [ByteFile.overwrite, other']
  | seek h pos origin =>
    have other' : i ≠ h := other
    simp only [byteFileCall]
    split
    · rfl
    · split
      · simp [ByteFile.moveTo, other']
      · rfl
  | tell h => rfl

/-- What a call on an open file does is what it does to the byte array. -/
theorem Simulates.stream (sim : Simulates s fs) (taken : s.streams (callStream call) = some o)
    (isFile : o.isFile = true) (inRange : (StoreCall.stream call).InRange s)
    (allocated reallocated : Block) :
    ∃ t, streamCall s (some allocated) (some reallocated) call =
        .ok (some (byteFileCall (fs.modes o.node) (fs.files o.node) call).1, t) ∧
      Simulates t { fs with
        files := update fs.files o.node
          (byteFileCall (fs.modes o.node) (fs.files o.node) call).2 } := by
  obtain ⟨u, called, rep⟩ := fileCall_represents (sim.files o.node) (inRange o taken) allocated
    reallocated
  refine ⟨s.put (callStream call) o u,
    by simp [streamCall, taken, isFile, called, bind, Except.bind], ?_⟩
  have mode : (u.streams (callStream call)).mode = o.str.mode := by
    rw [rep.streams]
    simp [FileSystem.modes, sim.handles, taken, isFile]
  constructor
  · exact sim.valid
  · exact sim.paths
  · intro i
    by_cases same : i = callStream call
    · simp [same, sim.handles, taken, mode, Store.put]
    · simp [same, sim.handles, Store.put]
  · intro m
    by_cases same : m = o.node
    · subst same
      refine ⟨?_, ?_, ?_, ?_, ?_⟩
      · simpa using rep.small
      · simpa [Store.view, Store.put] using rep.size
      · simpa [Store.view, Store.put] using rep.capacity
      · simpa [Store.view, Store.put] using rep.content
      · intro i
        by_cases isHandle : i = callStream call
        · subst isHandle
          simpa [Store.view, Store.put, isFile, FileSystem.modes] using
            rep.streams (callStream call)
        · have before := (sim.files o.node).streams i
          have cursor := byteFileCall_cursors (fs.modes o.node) (fs.files o.node) isHandle
          simpa [Store.view, Store.put, FileSystem.modes, isHandle, cursor] using before
    · refine representsOfStreams (sim.files m) (by simp [Store.view, Store.put, same])
        (by simp [same]) ?_
      intro i
      have before := (sim.files m).streams i
      by_cases isHandle : i = callStream call
      · subst isHandle
        have notHere : ¬ o.node = m := Ne.symm same
        simpa [Store.view, Store.put, FileSystem.modes, same, taken, notHere] using before
      · simpa [Store.view, Store.put, FileSystem.modes, same, isHandle] using before
  · intro i o' taken'
    by_cases same : i = callStream call
    · subst same
      exact sim.addresses _ o taken
    · simp only [Store.put, update_of_ne same] at taken'
      exact sim.addresses i o' taken'
  · intro m
    have nodes : (s.put (callStream call) o u).openNodes = s.openNodes := by
      funext i
      by_cases same : i = callStream call
      · simp [Store.openNodes, Store.put, same, taken]
      · simp [Store.openNodes, Store.put, same]
    rw [nodes]
    exact sim.counted m

/-! ## Runs -/

/-- What the store does in a step is a step of the file system. -/
theorem Simulates.step {op : StoreCall × StoreAnswer} (sim : Simulates s fs)
    (inRange : op.1.InRange s) (step : StoreStep s op t) :
    ∃ fs', FileSystem.Step fs op fs' ∧ Simulates t fs' := by
  cases step with
  | @tree tree call hr taken =>
    refine ⟨{ fs with paths := resolve tree }, .tree ?_, ?_⟩
    · intro path n names
      rw [sim.paths] at names
      exact resolve_kept sim.valid taken names
    · exact ⟨vfsStep_isVfsTree sim.valid taken, rfl, sim.handles, sim.files, sim.addresses,
        sim.counted⟩
  | @fopen _ filename fmode host hr out fresh called =>
    cases vfsOpen_cases sim.refCount_lt called with
    | inl refused =>
      obtain ⟨rfl, rfl⟩ := refused
      exact ⟨fs, .refused, sim⟩
    | inr opens =>
      obtain ⟨n, h, isFile, rfl, stream, rfl, names, rfl⟩ := opens
      obtain ⟨notNull, below, free⟩ := fresh h stream
      refine ⟨_, .opened (by rw [sim.paths]; exact names) (by simp [sim.handles, free]),
        sim.opened notNull below free isFile⟩
  | fclose called =>
    obtain ⟨o, taken, rfl, rfl⟩ := vfsClose_cases called
    exact ⟨_, .closed (by rw [sim.handles, taken]; rfl), sim.closed taken⟩
  | @stream _ call answer allocated reallocated called =>
    cases taken : s.streams (callStream call) with
    | none => simp [streamCall, taken] at called
    | some o =>
      obtain ⟨n, isFile, str⟩ := o
      cases isFile with
      | true =>
        obtain ⟨u, returned, sim'⟩ := sim.stream taken rfl inRange allocated reallocated
        obtain ⟨rfl, rfl⟩ := eq_of_returned (returned.symm.trans called)
        exact ⟨_, .file (by rw [sim.handles, taken]; rfl), sim'⟩
      | false =>
        simp only [streamCall, taken] at called
        obtain ⟨rfl, rfl⟩ := eq_of_returned called
        exact ⟨fs, .device (by rw [sim.handles, taken]; rfl), sim⟩

end

end Antonix.FileStore
