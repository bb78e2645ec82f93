import Mathlib.Logic.Function.Basic
import Antonix.Vfs.Url

/-! # The tree of the VFS (`vfs.c`)

Nodes live at addresses.  What an allocation returns is an argument of the call
that allocates: `none` is `NULL`.  Reference counts, locks and the content of files
are not part of the tree.  The counters of a node are never wrapped: every child
takes a node of more than 256 bytes, and there are 4 GiB. -/

namespace Antonix.Vfs

open Function

/-! ## Nodes -/

abbrev nodeTypeFile : Nat := 0x01
abbrev nodeTypeDirectory : Nat := 0x02
abbrev nodeTypeChardevice : Nat := 0x04
abbrev nodeTypeBlockdevice : Nat := 0x08
abbrev nodeTypeMountpoint : Nat := 0x40

/-- `NODE_MODE_ALL_RWE` -/
abbrev nodeModeAllRwe : Nat := 0xFFFF

/-- `sizeof(desc.name)` and the size of `comp_name`. -/
abbrev nodeNameSize : Nat := 256

/-- The size of the `ext_path` buffers. -/
abbrev extPathSize : Nat := 1024

/-- `K_DEVICE`, with what its `initialize` and `finalize` return; `none` is `NULL`. -/
structure KDevice where
  type : Nat
  initializer : Option HResult
  finalize : Option HResult
  deriving DecidableEq, Repr

/-- `K_FS_DRIVER`, with what its routines return. -/
structure FsDriver where
  create : List Char → Nat → HResult
  finalize : Option HResult

/-- `K_FS_DRIVER *`: no driver, `&vfs_fs_driver`, or an instance of `vfs_mount_fs`. -/
inductive FsDriverRef where
  | null
  | vfs
  | mounted (drv : Nat)
  deriving DecidableEq, Repr

/-- `K_VFS_NODE` -/
structure VfsNode where
  name : List Char
  type : Nat
  permission : Nat
  fsDriver : FsDriverRef
  children : Nat → Nat
  childCnt : Nat
  childCapacity : Nat
  content : Option KDevice
  parent : Option Nat

/-- A node as `kcalloc` returns it. -/
def VfsNode.zeroed : VfsNode where
  name := []
  type := 0
  permission := 0
  fsDriver := .null
  children := fun _ => 0
  childCnt := 0
  childCapacity := 0
  content := none
  parent := none

/-- The memory: the nodes, `vfs_root`, and the driver instances that are not freed.
`finalized` records the calls of a driver's `finalize`. -/
structure VfsState where
  nodes : Nat → VfsNode
  root : Nat
  drivers : Nat → Option FsDriver
  finalized : List Nat

/-- Change the node at `n`. -/
def VfsState.modify (s : VfsState) (n : Nat) (change : VfsNode → VfsNode) : VfsState :=
  { s with nodes := update s.nodes n (change (s.nodes n)) }

/-- `vfs_init` -/
def vfsInit (memory : Nat → VfsNode) (root : Nat) : VfsState where
  nodes := update memory root { VfsNode.zeroed with type := nodeTypeDirectory }
  root := root
  drivers := fun _ => none
  finalized := []

/-! ## Children -/

/-- `vfsnode_find_child` -/
def vfsnodeFindChild (s : VfsState) (n : Nat) (childName : List Char) : Option Nat :=
  (List.range (s.nodes n).childCnt).find? fun i =>
    (s.nodes ((s.nodes n).children i)).name = childName

/-- What `vfsnode_add_child` gets from the heap: the grown array and the new node. -/
structure ChildAlloc where
  array : Option (Nat → Nat)
  node : Option Nat

/-- The `children` of `vfsnode_add_child` with room for one more.  `krealloc` keeps the
cells of the old array. -/
def vfsnodeGrow (n : VfsNode) (array : Option (Nat → Nat)) : Option VfsNode :=
  if n.childCnt ≥ n.childCapacity then
    match array with
    | none => none
    | some fresh =>
      if n.childCapacity = 0 then some { n with children := fresh, childCapacity := 5 }
      else
        some { n with
          children := fun i => if i < n.childCapacity then n.children i else fresh i
          childCapacity := n.childCapacity * 2 }
  else some n

/-- `vfsnode_add_child`.  On failure `new_out` is not set. -/
def vfsnodeAddChild (s : VfsState) (n : Nat) (nodeName : List Char) (nodeType : Nat)
    (alloc : ChildAlloc) : Except Halt (Except HResult (Nat × VfsState)) :=
  match vfsnodeFindChild s n nodeName with
  | some _ => .ok (.error .eInvalidArg)
  | none =>
    match vfsnodeGrow (s.nodes n) alloc.array with
    | none => .ok (.error .eFail)
    | some grown =>
      match alloc.node with
      | none => .error .stuck
      | some new => do
        let name ← strcpy nodeNameSize nodeName
        let node := { VfsNode.zeroed with name := name, type := nodeType, parent := some n }
        let parent := { grown with
          children := update grown.children grown.childCnt new
          childCnt := grown.childCnt + 1 }
        .ok (.ok (new, { s with nodes := update (update s.nodes new node) n parent }))

/-- Add a child and fill it in.  All callers of `vfsnode_add_child` write through `new`
without a look at what it returned. -/
def addFilled (s : VfsState) (n : Nat) (name : List Char) (type : Nat) (alloc : ChildAlloc)
    (fill : VfsNode → VfsNode) : Except Halt VfsState := do
  match ← vfsnodeAddChild s n name type alloc with
  | .error _ => .error .stuck
  | .ok (new, s) => .ok (s.modify new fill)

/-! ## Paths -/

/-- What `vfs_parse_url` stores at its out pointers. -/
structure Resolved where
  node : Nat
  isCrossingMountpoint : Bool
  basePath : List Char
  mountedPath : List Char
  deriving DecidableEq, Repr

/-- `implode_str` into a buffer, if there is one. -/
def implodeInto (buffer : Option Nat) (comps : List (List Char)) : Except Halt (List Char) :=
  match buffer with
  | none => .ok []
  | some capacity => strcpy capacity (implodeStr comps)

/-- The search of `vfs_parse_url`, from `current` with the components `passed` behind it.
The search ends at a mount point. -/
def parseComponents (s : VfsState) (basePath mountedPath : Option Nat) :
    Nat → List (List Char) → List (List Char) → Except Halt (Except HResult Resolved)
  | current, _, [] => .ok (.ok ⟨current, false, [], []⟩)
  | current, passed, comp :: rest => do
    let compName ← strcpy nodeNameSize comp
    match vfsnodeFindChild s current compName with
    | none => .ok (.error .eNotFound)
    | some id =>
      let node := (s.nodes current).children id
      if (s.nodes node).type &&& nodeTypeMountpoint ≠ 0 then
        let base ← implodeInto basePath (passed ++ [comp])
        let mounted ← implodeInto mountedPath rest
        .ok (.ok ⟨node, true, base, mounted⟩)
      else parseComponents s basePath mountedPath node (passed ++ [comp]) rest

/-- `vfs_parse_url` with the sizes of the two path buffers. -/
def vfsParseUrl (s : VfsState) (dirname : List Char) (basePath mountedPath : Option Nat) :
    Except Halt (Except HResult Resolved) :=
  match dirname with
  | [] => .ok (.ok ⟨s.root, false, [], []⟩)
  | c :: rest =>
    if c ≠ delimiter then .ok (.error .eInvalidArg)
    else if rest = [] then .ok (.ok ⟨s.root, false, [], []⟩)
    else parseComponents s basePath mountedPath s.root [] (components dirname)

/-! ## Calls -/

/-- What `vfs_create`, `vfs_mount_device` and `vfs_mount_fs` find out about a path. -/
inductive Place where
  | external (node : Nat) (extPath : List Char)
  | used
  | noParent (hr : HResult)
  | free (parent : Nat) (name : List Char)
  deriving DecidableEq, Repr

/-- The place of a new node: the path must not exist, its directory must. -/
def findPlace (s : VfsState) (path : List Char) : Except Halt Place := do
  match ← vfsParseUrl s path none (some extPathSize) with
  | .ok found =>
    if found.isCrossingMountpoint then .ok (.external found.node found.mountedPath)
    else .ok .used
  | .error hr =>
    if hr ≠ .eNotFound then .ok .used
    else
      let dirName ← urlGetDirname vfsMaxDirnameLength path
      let fileName ← urlGetBasename vfsMaxDirnameLength path
      match ← vfsParseUrl s dirName none none with
      | .error hr => .ok (.noParent hr)
      | .ok parent => .ok (.free parent.node fileName)

/-- `vfs_create`.  A mount point always has an instance for its driver. -/
def vfsCreate (s : VfsState) (filename : List Char) (perm : Nat) (alloc : ChildAlloc) :
    Except Halt (HResult × VfsState) := do
  match ← findPlace s filename with
  | .external node extPath =>
    match (s.nodes node).fsDriver with
    | .mounted drv =>
      match s.drivers drv with
      | some driver => .ok (driver.create extPath perm, s)
      | none => .error .stuck
    | _ => .error .stuck
  | .used => .ok (.eFail, s)
  | .noParent hr => .ok (hr, s)
  | .free parent name =>
    let s ← addFilled s parent name nodeTypeFile alloc fun new =>
      { new with permission := perm, fsDriver := .vfs }
    .ok (.sOk, s)

/-- `vfs_mkdir`; a mount point on the way is not looked for. -/
def vfsMkdir (s : VfsState) (path : List Char) (mode : Nat) (alloc : ChildAlloc) :
    Except Halt (HResult × VfsState) := do
  let dirPath ← urlGetDirname extPathSize path
  match ← vfsParseUrl s dirPath none none with
  | .error hr => .ok (hr, s)
  | .ok parent =>
    let dirName ← urlGetBasename extPathSize path
    let s ← addFilled s parent.node dirName nodeTypeDirectory alloc fun new =>
      { new with permission := mode, fsDriver := .vfs }
    .ok (.sOk, s)

/-- `vfs_mount_device`; `content` says whether there was memory for the copy of the device. -/
def vfsMountDevice (s : VfsState) (dev : KDevice) (path : List Char) (alloc : ChildAlloc)
    (content : Bool) : Except Halt (HResult × VfsState) :=
  if dev.type ≠ nodeTypeBlockdevice ∧ dev.type ≠ nodeTypeChardevice then .ok (.eFail, s)
  else do
    match ← findPlace s path with
    | .external _ _ => .ok (.eInvalidArg, s)
    | .used => .ok (.eInvalidArg, s)
    | .noParent hr => .ok (hr, s)
    | .free parent name =>
      let s ← addFilled s parent name dev.type alloc fun new =>
        { new with permission := nodeModeAllRwe, fsDriver := .vfs, content := some dev }
      if !content then .error .stuck
      else
        match dev.initializer with
        | none => .ok (.sOk, s)
        | some hr =>
          if hr.failed then
            .error (.panic "vfs_mount_device(): Device failed to initialize. Handling routine not implemented.")
          else .ok (hr, s)

/-- `vfs_unmount_device` -/
def vfsUnmountDevice (s : VfsState) (path : List Char) : Except Halt HResult := do
  match ← vfsParseUrl s path none none with
  | .error _ => .ok .eInvalidArg
  | .ok found =>
    if found.isCrossingMountpoint then .ok .eInvalidArg
    else if (s.nodes found.node).type ≠ nodeTypeBlockdevice
        ∧ (s.nodes found.node).type ≠ nodeTypeChardevice then .ok .eFail
    else
      match (s.nodes found.node).content with
      | none => .error .stuck
      | some _ => .ok .eNotImpl

/-- `K_FS_CONSTRUCTOR`: the status and the instance it makes for a storage device. -/
abbrev FsConstructor := List Char → HResult × FsDriver

/-- `vfs_mount_fs`; `instanceAlloc` is the new driver instance. -/
def vfsMountFs (s : VfsState) (mountPath : Option (List Char)) (fsCtor : Option FsConstructor)
    (storageDrv : Option (List Char)) (instanceAlloc : Option Nat) (alloc : ChildAlloc) :
    Except Halt (HResult × VfsState) :=
  match mountPath, fsCtor, storageDrv with
  | some mountPath, some fsCtor, some storageDrv => do
    match ← findPlace s mountPath with
    | .external _ _ => .ok (.eInvalidArg, s)
    | .used => .ok (.eInvalidArg, s)
    | .noParent hr => .ok (hr, s)
    | .free parent name =>
      match instanceAlloc with
      | none => .error .stuck
      | some drv =>
        let (hr, driver) := fsCtor storageDrv
        if hr.failed then .ok (hr, s)
        else
          let s := { s with drivers := update s.drivers drv (some driver) }
          let s ← addFilled s parent name nodeTypeMountpoint alloc fun new =>
            { new with
              permission := nodeModeAllRwe
              type := nodeTypeMountpoint
              fsDriver := .mounted drv }
          .ok (.sOk, s)
  | _, _, _ => .ok (.ePointer, s)

/-- `vfs_unmount_fs` -/
def vfsUnmountFs (s : VfsState) (mountPath : List Char) : Except Halt (HResult × VfsState) := do
  match ← vfsParseUrl s mountPath none none with
  | .error _ => .ok (.eInvalidArg, s)
  | .ok found =>
    if found.isCrossingMountpoint then .ok (.eInvalidArg, s)
    else if (s.nodes found.node).type &&& nodeTypeMountpoint = 0 then .ok (.eFail, s)
    else
      match (s.nodes found.node).fsDriver with
      | .mounted drv =>
        match s.drivers drv with
        | none => .error .stuck
        | some driver =>
          match driver.finalize with
          | none => .ok (.sOk, s)
          | some hr =>
            .ok (if hr.failed then .sFalse else hr,
              { s with
                drivers := update s.drivers drv none
                finalized := s.finalized ++ [drv] })
      | _ => .error .stuck

/-- The calls that change the tree or take from it. -/
inductive VfsCall where
  | mkdir (path : List Char) (mode : Nat) (alloc : ChildAlloc)
  | create (filename : List Char) (perm : Nat) (alloc : ChildAlloc)
  | mountDevice (dev : KDevice) (path : List Char) (alloc : ChildAlloc) (content : Bool)
  | unmountDevice (path : List Char)
  | mountFs (mountPath : Option (List Char)) (fsCtor : Option FsConstructor)
      (storageDrv : Option (List Char)) (instanceAlloc : Option Nat) (alloc : ChildAlloc)
  | unmountFs (mountPath : List Char)

/-- The status of a call and the state behind it. -/
def vfsCall (s : VfsState) : VfsCall → Except Halt (HResult × VfsState)
  | .mkdir path mode alloc => vfsMkdir s path mode alloc
  | .create filename perm alloc => vfsCreate s filename perm alloc
  | .mountDevice dev path alloc content => vfsMountDevice s dev path alloc content
  | .unmountDevice path => do
    let hr ← vfsUnmountDevice s path
    .ok (hr, s)
  | .mountFs mountPath fsCtor storageDrv instanceAlloc alloc =>
    vfsMountFs s mountPath fsCtor storageDrv instanceAlloc alloc
  | .unmountFs mountPath => vfsUnmountFs s mountPath

end Antonix.Vfs
