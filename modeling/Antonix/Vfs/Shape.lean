import Mathlib.Data.List.Nodup
import Antonix.Lib.Transition
import Antonix.Vfs.Children
import Antonix.Vfs.Place

/-! # The shape of the tree

Files, devices and mount points are leaves, and siblings have different names that
are not empty.  The calls that add a node look at neither the type of the parent nor
the length of the name: the tree has this shape exactly as long as every one of them
happens to be given a directory and a name. -/

namespace Antonix.Vfs

open NameTree Transition

/-! ## Steps -/

/-- The node that the heap hands to a call. -/
def VfsCall.newNode : VfsCall → Option Nat
  | .mkdir _ _ alloc => alloc.node
  | .create _ _ alloc => alloc.node
  | .mountDevice _ _ alloc _ => alloc.node
  | .mountFs _ _ _ _ alloc => alloc.node
  | .unmountDevice _ => none
  | .unmountFs _ => none

/-- A call that returns; the heap hands out nodes that are not in the tree. -/
def VfsStep (s : VfsState) (op : VfsCall × HResult) (t : VfsState) : Prop :=
  (∀ c, op.1.newNode = some c → ¬ s.Has c) ∧ vfsCall s op.1 = .ok (op.2, t)

/-- The place of a path that is free. -/
def freePlace (s : VfsState) (path : List Char) : Option (Nat × List Char) :=
  match findPlace s path with
  | .ok (.free parent name) => some (parent, name)
  | _ => none

/-- The place that `vfs_mkdir` takes. -/
def mkdirPlace (s : VfsState) (path : List Char) : Option (Nat × List Char) := do
  let dirPath ← (urlGetDirname extPathSize path).toOption
  let parsed ← (vfsParseUrl s dirPath none none).toOption
  let found ← parsed.toOption
  let name ← (urlGetBasename extPathSize path).toOption
  return (found.node, name)

/-- Where a call adds a node, if it does: the parent and the name. -/
def VfsCall.target (s : VfsState) : VfsCall → Option (Nat × List Char)
  | .mkdir path _ _ => mkdirPlace s path
  | .create filename _ _ => freePlace s filename
  | .mountDevice dev path _ _ =>
    if dev.type ≠ nodeTypeBlockdevice ∧ dev.type ≠ nodeTypeChardevice then none
    else freePlace s path
  | .mountFs (some mountPath) (some fsCtor) (some storageDrv) _ _ =>
    if (fsCtor storageDrv).1.failed then none else freePlace s mountPath
  | .mountFs _ _ _ _ _ => none
  | .unmountDevice _ => none
  | .unmountFs _ => none

/-- The call adds under a directory, and what it adds has a name. -/
def PlacedWell (s : VfsState) (op : VfsCall × HResult) : Prop :=
  ∀ parent name, op.1.target s = some (parent, name) →
    (s.nodes parent).type = nodeTypeDirectory ∧ name ≠ []

section

variable {s s' t : VfsState} {p c : Nat} {name path : List Char} {type : Nat} {alloc : ChildAlloc}
  {fill : VfsNode → VfsNode} {op : VfsCall × HResult}

theorem IsVfsTree.congr (valid : IsVfsTree s) (nodes : t.nodes = s.nodes) (root : t.root = s.root) :
    IsVfsTree t := by
  have kids : t.kids = s.kids := by
    funext n
    rw [VfsState.kids, nodes, VfsState.kids]
  have parents : t.parent = s.parent := by
    funext n
    rw [VfsState.parent, nodes, VfsState.parent]
  constructor
  case tree =>
    rw [kids, parents, root]
    exact valid.tree
  case room =>
    intro n reach
    rw [VfsState.Has, kids, root] at reach
    rw [nodes]
    exact valid.room n reach
  case rootType =>
    rw [nodes, root]
    exact valid.rootType

/-- The drivers are no part of the tree. -/
theorem Added.withDrivers {drivers : Nat → Option FsDriver}
    (added : Added { s with drivers := drivers } t p c name) : Added s t p c name :=
  ⟨added.adds, added.missing, added.nameFits, added.types, added.leafParent, added.parents,
    added.leafCount, added.room, added.root⟩

theorem freePlace_eq_none (notFree : ∀ parent name, findPlace s path ≠ .ok (.free parent name)) :
    freePlace s path = none := by
  unfold freePlace
  split
  · next finds => exact absurd finds (notFree _ _)
  · rfl

theorem freePlace_eq_some (finds : findPlace s path = .ok (.free p name)) :
    freePlace s path = some (p, name) := by
  rw [freePlace, finds]

theorem has_of_free (finds : findPlace s path = .ok (.free p name)) : s.Has p := by
  cases finds_of_findPlace finds with
  | free _ _ _ dirParsed => exact reach_of_parseUrl dirParsed

/-! ## What a call does to the tree -/

/-- From `s` to `t` nothing changed in the tree, or the node of the call was added at its target. -/
def TreeStep (s : VfsState) (target : Option (Nat × List Char)) (t : VfsState) : Prop :=
  target = none ∧ t.nodes = s.nodes ∧ t.root = s.root ∨
    ∃ parent name c, target = some (parent, name) ∧ Added s t parent c name

theorem treeStep_same : TreeStep s none s := .inl ⟨rfl, rfl, rfl⟩

/-- Where no node can be added, the tree stays. -/
theorem treeStep_kept (notFree : ∀ parent name, findPlace s path ≠ .ok (.free parent name)) :
    TreeStep s (freePlace s path) s := by
  rw [freePlace_eq_none notFree]
  exact treeStep_same

theorem treeStep_add (valid : IsVfsTree s) (reach : s.Has p)
    (fresh : ∀ c, alloc.node = some c → ¬ s.Has c) (keeps : KeepsLinks fill)
    (added : addFilled s p name type alloc fill = .ok t) : TreeStep s (some (p, name)) t := by
  obtain ⟨c, -, result, -⟩ := addFilled_spec valid reach fresh keeps added
  exact .inr ⟨p, name, c, rfl, result⟩

theorem vfsMkdir_step {mode : Nat} {hr : HResult} (valid : IsVfsTree s)
    (fresh : ∀ c, alloc.node = some c → ¬ s.Has c)
    (called : vfsMkdir s path mode alloc = .ok (hr, t)) : TreeStep s (mkdirPlace s path) t := by
  obtain ⟨dirPath, copied, called⟩ := exists_of_bind called
  obtain ⟨outcome, parsed, called⟩ := exists_of_bind called
  cases outcome with
  | error hr =>
    -- no parent, no node
    obtain ⟨-, rfl⟩ := eq_of_returned called
    have target : mkdirPlace s path = none := by
      rw [mkdirPlace, copied]
      simp [parsed, Except.toOption]
    rw [target]
    exact treeStep_same
  | ok found =>
    obtain ⟨dirName, named, called⟩ := exists_of_bind called
    obtain ⟨u, added, called⟩ := exists_of_bind called
    obtain ⟨-, rfl⟩ := eq_of_returned called
    have target : mkdirPlace s path = some (found.node, dirName) := by
      rw [mkdirPlace, copied, named]
      simp [parsed, Except.toOption]
    rw [target]
    exact treeStep_add valid (reach_of_parseUrl parsed) fresh (keepsLinks_owned mode) added

theorem vfsCreate_step {perm : Nat} {hr : HResult} (valid : IsVfsTree s)
    (fresh : ∀ c, alloc.node = some c → ¬ s.Has c)
    (called : vfsCreate s path perm alloc = .ok (hr, t)) : TreeStep s (freePlace s path) t := by
  obtain ⟨place, finds, called⟩ := exists_of_bind called
  cases place with
  | external node extPath =>
    -- the other file system answers
    have unchanged : t = s := by
      dsimp only at called
      split at called
      · split at called
        · exact (eq_of_returned called).2.symm
        · contradiction
      · contradiction
    rw [unchanged]
    exact treeStep_kept (by simp [finds])
  | used =>
    obtain ⟨-, rfl⟩ := eq_of_returned called
    exact treeStep_kept (by simp [finds])
  | noParent hr =>
    obtain ⟨-, rfl⟩ := eq_of_returned called
    exact treeStep_kept (by simp [finds])
  | free parent name =>
    obtain ⟨u, added, called⟩ := exists_of_bind called
    obtain ⟨-, rfl⟩ := eq_of_returned called
    rw [freePlace_eq_some finds]
    exact treeStep_add valid (has_of_free finds) fresh (keepsLinks_owned perm) added

theorem vfsMountDevice_step {dev : KDevice} {content : Bool} {hr : HResult} (valid : IsVfsTree s)
    (fresh : ∀ c, alloc.node = some c → ¬ s.Has c)
    (called : vfsMountDevice s dev path alloc content = .ok (hr, t)) :
    TreeStep s ((VfsCall.mountDevice dev path alloc content).target s) t := by
  rw [vfsMountDevice] at called
  rw [VfsCall.target]
  by_cases noDevice : dev.type ≠ nodeTypeBlockdevice ∧ dev.type ≠ nodeTypeChardevice
  · rw [if_pos noDevice] at called ⊢
    obtain ⟨-, rfl⟩ := eq_of_returned called
    exact treeStep_same
  · rw [if_neg noDevice] at called ⊢
    obtain ⟨place, finds, called⟩ := exists_of_bind called
    cases place with
    | external node extPath =>
      obtain ⟨-, rfl⟩ := eq_of_returned called
      exact treeStep_kept (by simp [finds])
    | used =>
      obtain ⟨-, rfl⟩ := eq_of_returned called
      exact treeStep_kept (by simp [finds])
    | noParent hr =>
      obtain ⟨-, rfl⟩ := eq_of_returned called
      exact treeStep_kept (by simp [finds])
    | free parent name =>
      obtain ⟨u, added, called⟩ := exists_of_bind called
      have keeps : KeepsLinks fun new =>
          { new with permission := nodeModeAllRwe, fsDriver := .vfs, content := some dev } := by
        constructor <;> exact fun _ => rfl
      -- the state behind the call is the one with the node, whatever the device answers
      have same : t = u := by
        split at called
        · contradiction
        · split at called
          · exact (eq_of_returned called).2.symm
          · split at called
            · contradiction
            · exact (eq_of_returned called).2.symm
      rw [freePlace_eq_some finds, same]
      exact treeStep_add valid (has_of_free finds) fresh keeps added

/-- With all its arguments, `vfs_mount_fs` leaves the tree alone or adds a mount point. -/
theorem vfsMountFs_cases {mountPath storageDrv : List Char} {fsCtor : FsConstructor}
    {instanceAlloc : Option Nat} {hr : HResult}
    (called : vfsMountFs s (some mountPath) (some fsCtor) (some storageDrv) instanceAlloc alloc =
      .ok (hr, t)) :
    hr.failed = true ∧ t = s ∧
        (if (fsCtor storageDrv).1.failed then none else freePlace s mountPath) = none ∨
      (fsCtor storageDrv).1.failed = false ∧ ∃ parent name drv,
        findPlace s mountPath = .ok (.free parent name) ∧
        addFilled { s with drivers := Function.update s.drivers drv (some (fsCtor storageDrv).2) }
          parent name nodeTypeMountpoint alloc (fun new => { new with
            permission := nodeModeAllRwe
            type := nodeTypeMountpoint
            fsDriver := .mounted drv }) = .ok t := by
  obtain ⟨place, finds, called⟩ := exists_of_bind called
  cases finds_of_findPlace finds with
  | external parsed crossing =>
    obtain ⟨rfl, rfl⟩ := eq_of_returned called
    exact .inl ⟨rfl, rfl, by simp [freePlace_eq_none, finds]⟩
  | used =>
    obtain ⟨rfl, rfl⟩ := eq_of_returned called
    exact .inl ⟨rfl, rfl, by simp [freePlace_eq_none, finds]⟩
  | noParent failed =>
    obtain ⟨rfl, rfl⟩ := eq_of_returned called
    exact .inl ⟨failed, rfl, by simp [freePlace_eq_none, finds]⟩
  | @free dirName fileName found parsed dirCopied nameCopied dirParsed =>
    cases instanceAlloc with
    | none => contradiction
    | some drv =>
      dsimp only at called
      by_cases failed : (fsCtor storageDrv).1.failed = true
      · -- the new instance is freed again
        rw [if_pos failed] at called
        obtain ⟨rfl, rfl⟩ := eq_of_returned called
        exact .inl ⟨failed, rfl, if_pos failed⟩
      · rw [if_neg failed] at called
        obtain ⟨u, added, called⟩ := exists_of_bind called
        obtain ⟨-, rfl⟩ := eq_of_returned called
        exact .inr ⟨by simpa using failed, found.node, fileName, drv, finds, added⟩

theorem vfsMountFs_step {mountPath storageDrv : Option (List Char)}
    {fsCtor : Option FsConstructor} {instanceAlloc : Option Nat} {hr : HResult}
    (valid : IsVfsTree s) (fresh : ∀ c, alloc.node = some c → ¬ s.Has c)
    (called : vfsMountFs s mountPath fsCtor storageDrv instanceAlloc alloc = .ok (hr, t)) :
    TreeStep s ((VfsCall.mountFs mountPath fsCtor storageDrv instanceAlloc alloc).target s) t := by
  -- a call with a null pointer does nothing
  cases mountPath with
  | none =>
    obtain ⟨-, rfl⟩ := eq_of_returned called
    exact treeStep_same
  | some mountPath =>
    cases fsCtor with
    | none =>
      obtain ⟨-, rfl⟩ := eq_of_returned called
      exact treeStep_same
    | some fsCtor =>
      cases storageDrv with
      | none =>
        obtain ⟨-, rfl⟩ := eq_of_returned called
        exact treeStep_same
      | some storageDrv =>
        rw [VfsCall.target]
        cases vfsMountFs_cases called with
        | inl unchanged =>
          rw [unchanged.2.1, unchanged.2.2]
          exact treeStep_same
        | inr mounts =>
          obtain ⟨succeeded, parent, name, drv, finds, added⟩ := mounts
          have valid' : IsVfsTree { s with
              drivers := Function.update s.drivers drv (some (fsCtor storageDrv).2) } :=
            valid.congr rfl rfl
          have keeps : KeepsLinks fun new => { new with
              permission := nodeModeAllRwe
              type := nodeTypeMountpoint
              fsDriver := .mounted drv } := by
            constructor <;> exact fun _ => rfl
          have reach : s.Has parent := has_of_free finds
          obtain ⟨c, -, result, -⟩ := addFilled_spec valid' reach fresh keeps added
          rw [if_neg (by simp [succeeded]), freePlace_eq_some finds]
          exact .inr ⟨parent, name, c, rfl, result.withDrivers⟩

theorem vfsUnmountFs_step {hr : HResult} (called : vfsUnmountFs s path = .ok (hr, t)) :
    TreeStep s none t := by
  suffices t.nodes = s.nodes ∧ t.root = s.root from .inl ⟨rfl, this⟩
  obtain ⟨outcome, parsed, called⟩ := exists_of_bind called
  cases outcome with
  | error hr =>
    obtain ⟨-, rfl⟩ := eq_of_returned called
    exact ⟨rfl, rfl⟩
  | ok found =>
    dsimp only at called
    repeat' split at called
    all_goals first
      | contradiction
      | obtain ⟨-, rfl⟩ := eq_of_returned called
        exact ⟨rfl, rfl⟩

theorem vfsStep_tree (valid : IsVfsTree s) (step : VfsStep s op t) :
    TreeStep s (op.1.target s) t := by
  obtain ⟨call, hr⟩ := op
  obtain ⟨fresh, called⟩ := step
  cases call with
  | mkdir path mode alloc => exact vfsMkdir_step valid fresh called
  | create filename perm alloc => exact vfsCreate_step valid fresh called
  | mountDevice dev path alloc content => exact vfsMountDevice_step valid fresh called
  | unmountDevice path =>
    obtain ⟨hr', -, returned⟩ := exists_of_bind called
    obtain ⟨-, rfl⟩ := eq_of_returned returned
    exact treeStep_same
  | mountFs mountPath fsCtor storageDrv instanceAlloc alloc =>
    exact vfsMountFs_step valid fresh called
  | unmountFs path => exact vfsUnmountFs_step called

/-- Every call keeps the tree. -/
theorem vfsStep_isVfsTree (valid : IsVfsTree s) (step : VfsStep s op t) : IsVfsTree t := by
  cases vfsStep_tree valid step with
  | inl same => exact valid.congr same.2.1 same.2.2
  | inr adds =>
    obtain ⟨parent, name, c, -, added⟩ := adds
    exact added.isVfsTree valid

end

/-! ## The shape -/

/-- The names of the children of a node. -/
def VfsState.names (s : VfsState) (n : Nat) : List (List Char) := (s.kids n).map s.label

/-- Only directories have children, and the children of a node have different names. -/
structure Shape (s : VfsState) : Prop where
  directories : ∀ n, s.Has n → s.kids n ≠ [] → (s.nodes n).type = nodeTypeDirectory
  distinct : ∀ n, s.Has n → (s.names n).Nodup
  named : ∀ n, s.Has n → [] ∉ s.names n

section

variable {s t : VfsState} {p c n : Nat} {name : List Char} {op : VfsCall × HResult}

theorem vfsInit_shape {memory : Nat → VfsNode} {root : Nat} : Shape (vfsInit memory root) := by
  have names : (vfsInit memory root).names root = [] := by
    rw [VfsState.names, vfsInit_kids]
    rfl
  constructor
  case directories =>
    intro n reach some
    rw [vfsInit_has.mp reach, vfsInit_kids] at some
    contradiction
  case distinct =>
    intro n reach
    rw [vfsInit_has.mp reach, names]
    exact List.nodup_nil
  case named =>
    intro n reach
    rw [vfsInit_has.mp reach, names]
    exact List.not_mem_nil

theorem Shape.congr (nodes : t.nodes = s.nodes) (root : t.root = s.root) : Shape t ↔ Shape s := by
  obtain ⟨_, _, drivers, finalized⟩ := s
  obtain ⟨_, _, drivers', finalized'⟩ := t
  obtain rfl : _ = _ := nodes
  obtain rfl : _ = _ := root
  constructor <;> exact fun shape => ⟨shape.directories, shape.distinct, shape.named⟩

theorem Added.names_old (added : Added s t p c name) (reach : s.Has n) :
    t.names n = s.names n ++ if n = p then [name] else [] := by
  have old : (s.kids n).map t.label = (s.kids n).map s.label := by
    apply List.map_congr_left
    intro m member
    exact added.adds.labelOther m (added.adds.ne_leaf (.child reach member))
  by_cases isParent : n = p
  · subst isParent
    rw [VfsState.names, added.adds.kidsParent, List.map_append, old, if_pos rfl]
    simp [VfsState.names, added.adds.labelLeaf]
  · rw [VfsState.names, added.adds.kidsOther n isParent (added.adds.ne_leaf reach), old,
      if_neg isParent, List.append_nil]
    rfl

theorem Added.names_new (added : Added s t p c name) : t.names c = [] := by
  rw [VfsState.names, added.adds.kidsLeaf]
  rfl

/-- The name of the new node is not the name of a sibling. -/
theorem Added.name_notMem (added : Added s t p c name) : name ∉ s.names p := by
  intro member
  obtain ⟨m, child, same⟩ := List.mem_map.mp member
  have missing := added.missing
  rw [VfsState.child, NameTree.child, List.find?_eq_none] at missing
  exact missing m child (by simpa using same)

/-- The shape is kept exactly when the node is added to a directory and has a name. -/
theorem Added.shape_iff (added : Added s t p c name) :
    Shape t ↔ Shape s ∧ (s.nodes p).type = nodeTypeDirectory ∧ name ≠ [] := by
  have reachParent := added.adds.parentReach
  constructor
  · intro shape
    refine ⟨⟨?_, ?_, ?_⟩, ?_, ?_⟩
    · intro n reach some
      have notLeaf := added.adds.ne_leaf reach
      rw [← added.types n notLeaf]
      apply shape.directories n (added.has_iff.mpr (.inl reach))
      obtain ⟨m, member⟩ := List.exists_mem_of_ne_nil _ some
      exact List.ne_nil_of_mem ((added.adds.mem_kids reach m).mpr (.inl member))
    · intro n reach
      have distinct := shape.distinct n (added.has_iff.mpr (.inl reach))
      rw [added.names_old reach] at distinct
      exact (List.nodup_append.mp distinct).1
    · intro n reach
      have named := shape.named n (added.has_iff.mpr (.inl reach))
      rw [added.names_old reach, List.mem_append, not_or] at named
      exact named.1
    · -- the parent has a child now
      rw [← added.types p (added.adds.ne_leaf reachParent)]
      apply shape.directories p (added.has_iff.mpr (.inl reachParent))
      rw [added.adds.kidsParent]
      simp
    · -- the name of the new node is a name of a child
      rintro rfl
      have named := shape.named p (added.has_iff.mpr (.inl reachParent))
      rw [added.names_old reachParent, if_pos rfl] at named
      simp at named
  · intro before
    obtain ⟨shape, directory, nonempty⟩ := before
    constructor
    case directories =>
      intro n reach some
      cases added.has_iff.mp reach with
      | inl old =>
        rw [added.types n (added.adds.ne_leaf old)]
        by_cases isParent : n = p
        · rw [isParent]
          exact directory
        · rw [added.adds.kidsOther n isParent (added.adds.ne_leaf old)] at some
          exact shape.directories n old some
      | inr leaf =>
        -- the new node has no children
        rw [leaf, added.adds.kidsLeaf] at some
        contradiction
    case distinct =>
      intro n reach
      cases added.has_iff.mp reach with
      | inl old =>
        rw [added.names_old old]
        by_cases isParent : n = p
        · subst isParent
          rw [if_pos rfl, ← List.concat_eq_append]
          exact List.Nodup.concat added.name_notMem (shape.distinct n old)
        · rw [if_neg isParent, List.append_nil]
          exact shape.distinct n old
      | inr leaf =>
        rw [leaf, added.names_new]
        exact List.nodup_nil
    case named =>
      intro n reach
      cases added.has_iff.mp reach with
      | inl old =>
        rw [added.names_old old, List.mem_append, not_or]
        refine ⟨shape.named n old, ?_⟩
        split
        · simpa using Ne.symm nonempty
        · exact List.not_mem_nil
      | inr leaf =>
        rw [leaf, added.names_new]
        exact List.not_mem_nil

/-- One call keeps the shape exactly when what it adds is placed well. -/
theorem shape_step_iff (valid : IsVfsTree s) (step : VfsStep s op t) :
    Shape t ↔ Shape s ∧ PlacedWell s op := by
  cases vfsStep_tree valid step with
  | inl same =>
    have placed : PlacedWell s op := by
      intro parent name target
      rw [same.1] at target
      contradiction
    rw [Shape.congr same.2.1 same.2.2]
    exact ⟨fun shape => ⟨shape, placed⟩, And.left⟩
  | inr adds =>
    obtain ⟨parent, name, c, target, added⟩ := adds
    rw [added.shape_iff]
    constructor
    · intro after
      refine ⟨after.1, fun parent' name' target' => ?_⟩
      rw [target] at target'
      obtain ⟨rfl, rfl⟩ := Prod.mk.inj (Option.some.inj target')
      exact after.2
    · intro before
      exact ⟨before.1, before.2 parent name target⟩

/-- The tree has its shape at the end of a run exactly when everything on the way was placed
well. -/
theorem shape_run_iff {ops : List (VfsCall × HResult)} (run : Run VfsStep s ops t)
    (valid : IsVfsTree s) : Shape t ↔ Shape s ∧ Run (Guarded PlacedWell VfsStep) s ops t := by
  induction run with
  | nil s => exact ⟨fun shape => ⟨shape, .nil s⟩, And.left⟩
  | cons taken rest inductionHypothesis =>
    rw [inductionHypothesis (vfsStep_isVfsTree valid taken), shape_step_iff valid taken]
    constructor
    · intro after
      exact ⟨after.1.1, .cons ⟨after.1.2, taken⟩ after.2⟩
    · intro before
      obtain ⟨shape, guarded⟩ := before
      cases guarded with
      | cons first later =>
        -- the call decides the state behind it
        obtain ⟨-, same⟩ := eq_of_returned (first.2.2.symm.trans taken.2)
        rw [same] at later
        exact ⟨⟨shape, first.1⟩, later⟩

end

/-- After any calls on a new VFS: only directories have children, and siblings have different
names that are not empty, if and only if every call that added a node was given a directory and
a name. -/
theorem vfs_shape_iff {memory : Nat → VfsNode} {root : Nat} {ops : List (VfsCall × HResult)}
    {t : VfsState} (run : Run VfsStep (vfsInit memory root) ops t) :
    Shape t ↔ Run (Guarded PlacedWell VfsStep) (vfsInit memory root) ops t := by
  rw [shape_run_iff run vfsInit_isVfsTree]
  exact ⟨And.right, fun guarded => ⟨vfsInit_shape, guarded⟩⟩

/-- The directory `/a`. -/
theorem vfs_shape_iff_a :
    ∃ t, Run VfsStep (vfsInit (fun _ => .zeroed) 0)
        [(.mkdir ['/', 'a'] 0 ⟨some fun _ => 0, some 1⟩, .sOk)] t ∧
      (Shape t ↔ Run (Guarded PlacedWell VfsStep) (vfsInit (fun _ => .zeroed) 0)
        [(.mkdir ['/', 'a'] 0 ⟨some fun _ => 0, some 1⟩, .sOk)] t) := by
  obtain ⟨t, step⟩ : ∃ t, VfsStep (vfsInit (fun _ => .zeroed) 0)
      (.mkdir ['/', 'a'] 0 ⟨some fun _ => 0, some 1⟩, .sOk) t := ⟨_, vfsInit_fresh (by decide), rfl⟩
  exact ⟨t, .single step, vfs_shape_iff (.single step)⟩

/-- `vfs_mkdir("/")` gives the root a child without a name. -/
theorem mkdir_root_nameless :
    ∃ t, Run VfsStep (vfsInit (fun _ => .zeroed) 0)
        [(.mkdir ['/'] 0 ⟨some fun _ => 0, some 1⟩, .sOk)] t ∧ ¬ Shape t := by
  refine ⟨_, .single ⟨vfsInit_fresh (by decide), rfl⟩, fun shape => ?_⟩
  exact shape.named 0 .root (.head _)

end Antonix.Vfs
