import Antonix.Vfs.Create
import Antonix.Vfs.MountPath

/-! # Making a directory

`vfs_mkdir` asks `vfs_parse_url` for the parent and not whether a mount point was
crossed on the way: then the node that it gets is the mount point, and a child of a
mount point is never found. -/

namespace Antonix.Vfs

open NameTree

/-- What `vfs_mkdir` is for: the path leads to the new directory, and there is no new node
that no path leads to. -/
structure MkdirLaw (s t : VfsState) (path : List Char) : Prop where
  visible : ∃ new, t.Has new ∧ ¬ s.Has new ∧ (t.nodes new).type = nodeTypeDirectory ∧
    ∀ b m, vfsParseUrl t path b m = .ok (.ok ⟨new, false, [], []⟩)
  reached : ∀ c, t.Has c → ¬ s.Has c →
    ∃ url found, vfsParseUrl t url none none = .ok (.ok found) ∧ found.node = c

/-- `//name`, of which `url_get_dirname` makes the root. -/
def IsDouble (path : List Char) : Prop :=
  ∃ name, path = delimiter :: delimiter :: name ∧ delimiter ∉ name

section

variable {s t : VfsState} {path front base : List Char} {mode p c m new : Nat} {alloc : ChildAlloc}
  {name : List Char}

/-- A mount point on a path stays where it is when a node is added. -/
theorem Added.reachesMountpoint (added : Added s t p c name)
    (reaches : ReachesMountpoint s path m) : ReachesMountpoint t path m := by
  obtain ⟨absolute, front, mounted, split, prefix', x, q, rfl, leads, fits, found, mountpoint⟩ :=
    reaches
  have reach : s.Has q := leads.walk.reach .root
  have same := added.isMountpoint_iff (added.adds.ne_leaf (.child reach (mem_of_child found)))
  have leads' : Leads t t.root prefix' q := by
    rw [added.root]
    exact added.leads .root leads
  exact ⟨absolute, _, mounted, split, prefix', x, q, rfl, leads', fits,
    added.child_of_some reach found, same.mpr mountpoint⟩

/-- `S_OK` means that a child was added to the node that the directory resolved to. -/
theorem vfsMkdir_cases (created : vfsMkdir s path mode alloc = .ok (.sOk, t)) :
    ∃ dirPath dirName found, urlGetDirname extPathSize path = .ok dirPath ∧
      urlGetBasename extPathSize path = .ok dirName ∧
      vfsParseUrl s dirPath none none = .ok (.ok found) ∧
      addFilled s found.node dirName nodeTypeDirectory alloc
        (fun new => { new with permission := mode, fsDriver := .vfs }) = .ok t := by
  obtain ⟨dirPath, copied, created⟩ := exists_of_bind created
  obtain ⟨outcome, parsed, created⟩ := exists_of_bind created
  cases outcome with
  | error hr =>
    -- the status of a parent that is missing is not `S_OK`
    obtain ⟨rfl, -⟩ := eq_of_returned created
    have failed := parseUrl_failed parsed
    contradiction
  | ok found =>
    obtain ⟨dirName, named, created⟩ := exists_of_bind created
    obtain ⟨u, added, created⟩ := exists_of_bind created
    obtain ⟨-, rfl⟩ := eq_of_returned created
    exact ⟨dirPath, dirName, found, copied, named, parsed, added⟩

/-- The new directory hangs under the node that the directory of the path resolves to. -/
theorem vfsMkdir_added (valid : IsVfsTree s) (fresh : ∀ c, alloc.node = some c → ¬ s.Has c)
    (last : delimiter ∉ base)
    (created : vfsMkdir s (front ++ delimiter :: base) mode alloc = .ok (.sOk, t)) :
    ∃ dirPath found new, urlGetDirname extPathSize (front ++ delimiter :: base) = .ok dirPath ∧
      vfsParseUrl s dirPath none none = .ok (.ok found) ∧ Added s t found.node new base ∧
      (t.nodes new).type = nodeTypeDirectory ∧ ¬ t.IsMountpoint new := by
  obtain ⟨dirPath, dirName, found, copied, named, parsed, added⟩ := vfsMkdir_cases created
  rw [urlGetBasename_append last] at named
  obtain ⟨rfl, -⟩ := eq_of_strcpy named
  obtain ⟨new, -, result, leaf, -⟩ :=
    addFilled_spec valid (reach_of_parseUrl parsed) fresh (keepsLinks_owned mode) added
  have type : (t.nodes new).type = nodeTypeDirectory := by rw [leaf]
  refine ⟨dirPath, found, new, copied, parsed, result, type, ?_⟩
  rw [VfsState.IsMountpoint, type]
  decide

/-- Behind a mount point, at `/` and at `//name` the path leads elsewhere. -/
theorem mkdir_elsewhere (valid : IsVfsTree s) (fresh : ∀ c, alloc.node = some c → ¬ s.Has c)
    (absolute : ∃ rest, path = delimiter :: rest)
    (created : vfsMkdir s path mode alloc = .ok (.sOk, t))
    (elsewhere : path = [delimiter] ∨ IsDouble path ∨ CrossesMountpoint s path) :
    ¬ MkdirLaw s t path := by
  intro law
  obtain ⟨front, base, rfl, last⟩ : ∃ front base, path = front ++ delimiter :: base ∧
      delimiter ∉ base := by
    obtain ⟨rest, rfl⟩ := absolute
    exact exists_last_delimiter List.mem_cons_self
  obtain ⟨dirPath, found, new, copied, parsed, added, -, inner⟩ :=
    vfsMkdir_added valid fresh last created
  obtain ⟨new', has, isNew, -, visible⟩ := law.visible
  obtain rfl : new' = new := (added.has_iff.mp has).resolve_left isNew
  rcases elsewhere with isRoot | double | crosses
  · have root := visible none none
    rw [parseUrl_root (.inr isRoot)] at root
    have same : t.root = new' := congrArg Resolved.node (Except.ok.inj (Except.ok.inj root))
    rw [← same, added.root] at isNew
    exact isNew .root
  · obtain ⟨name, path, clean⟩ := double
    -- the directory of `//name` is the root
    have split : front ++ delimiter :: base = [delimiter] ++ delimiter :: name := path
    have named := @components_append front base last
    rw [split, components_append clean] at named
    obtain ⟨-, names⟩ := List.append_inj' named rfl
    obtain rfl : name = base := (List.cons.inj names).1
    obtain rfl : front = [delimiter] := List.append_cancel_right split
    rw [urlGetDirname_append last, if_neg (List.cons_ne_nil _ _)] at copied
    obtain ⟨rfl, -⟩ := eq_of_strcpy copied
    rw [parseUrl_root (.inr rfl)] at parsed
    obtain rfl := Except.ok.inj (Except.ok.inj parsed)
    exact added.not_parse_double valid last inner (visible none none)
  · obtain ⟨m, reaches⟩ := crossesMountpoint_iff.mp crosses
    have crossing := (added.reachesMountpoint reaches).parse
    rw [visible none none] at crossing
    cases congrArg Resolved.isCrossingMountpoint (Except.ok.inj (Except.ok.inj crossing))

/-- For every tree, mount points included, and every absolute path for which `vfs_mkdir` returns
`S_OK`: the path leads to the new directory if and only if it crosses no mount point and is
neither `/` nor `//name`. -/
theorem vfsMkdir_visible_iff (valid : IsVfsTree s) (fresh : ∀ c, alloc.node = some c → ¬ s.Has c)
    (absolute : ∃ rest, path = delimiter :: rest)
    (created : vfsMkdir s path mode alloc = .ok (.sOk, t)) :
    MkdirLaw s t path ↔
      path ≠ [delimiter] ∧ ¬ IsDouble path ∧ ¬ CrossesMountpoint s path := by
  constructor
  · intro law
    refine ⟨fun isRoot => ?_, fun double => ?_, fun crosses => ?_⟩
    · exact mkdir_elsewhere valid fresh absolute created (.inl isRoot) law
    · exact mkdir_elsewhere valid fresh absolute created (.inr (.inl double)) law
    · exact mkdir_elsewhere valid fresh absolute created (.inr (.inr crosses)) law
  · intro condition
    obtain ⟨notRoot, notDouble, plain⟩ := condition
    obtain ⟨rest, rfl⟩ := absolute
    obtain ⟨front, base, path, last⟩ := exists_last_delimiter (@List.mem_cons_self _ delimiter rest)
    have nonempty : rest ≠ [] := by
      rintro rfl
      exact notRoot rfl
    rw [path] at created plain
    obtain ⟨dirPath, found, new, copied, parsed, added, type, inner⟩ :=
      vfsMkdir_added valid fresh last created
    have single : front ≠ [delimiter] := by
      rintro rfl
      exact notDouble ⟨base, path, last⟩
    have leads := leads_of_dirname last ⟨rest, path.symm⟩ single plain copied parsed
    have there := added.leads_new leads inner
    rw [← components_append last, ← path] at there
    have visible : ∀ b m, vfsParseUrl t (delimiter :: rest) b m =
        .ok (.ok ⟨new, false, [], []⟩) := by
      intro b m
      rw [parseUrl_absolute nonempty]
      exact there.parse
    refine ⟨⟨new, added.has_iff.mpr (.inr rfl), added.adds.fresh, type, visible⟩, ?_⟩
    intro c has isNew
    obtain rfl : c = new := (added.has_iff.mp has).resolve_left isNew
    exact ⟨_, _, visible none none, rfl⟩

end

/-- A root with one child that has none. -/
theorem has_of_kids {s : VfsState} {root c n : Nat} (isRoot : s.root = root)
    (rootKids : s.kids root = [c]) (leafKids : s.kids c = []) (reach : s.Has n) :
    n = root ∨ n = c := by
  induction reach with
  | root => exact .inl isRoot
  | child _ member inductionHypothesis =>
    cases inductionHypothesis with
    | inl atRoot =>
      rw [atRoot, rootKids] at member
      exact .inr (List.mem_singleton.mp member)
    | inr atLeaf =>
      rw [atLeaf, leafKids] at member
      contradiction

/-- `/a` in an empty tree. -/
theorem vfsMkdir_visible_iff_a :
    ∃ t, vfsMkdir (vfsInit (fun _ => .zeroed) 0) ['/', 'a'] 0 ⟨some fun _ => 0, some 1⟩ =
        .ok (.sOk, t) ∧
      (MkdirLaw (vfsInit (fun _ => .zeroed) 0) t ['/', 'a'] ↔
        ['/', 'a'] ≠ [delimiter] ∧ ¬ IsDouble ['/', 'a'] ∧
          ¬ CrossesMountpoint (vfsInit (fun _ => .zeroed) 0) ['/', 'a']) := by
  obtain ⟨t, created⟩ : ∃ t, vfsMkdir (vfsInit (fun _ => .zeroed) 0) ['/', 'a'] 0
      ⟨some fun _ => 0, some 1⟩ = .ok (.sOk, t) := ⟨_, rfl⟩
  exact ⟨t, created,
    vfsMkdir_visible_iff vfsInit_isVfsTree (vfsInit_fresh (by decide)) ⟨['a'], rfl⟩ created⟩

/-- With a file system at `/m`, `vfs_mkdir("/m/x")` returns `S_OK` and hangs a directory under
the mount point. -/
theorem mkdir_behind_mountpoint :
    ∃ s t, VfsStep (vfsInit (fun _ => .zeroed) 0)
        (.mountFs (some ['/', 'm']) (some fun _ => (.sOk, ⟨fun _ _ => .eFail, none⟩)) (some ['d'])
          (some 7) ⟨some fun _ => 0, some 1⟩, .sOk) s ∧
      VfsStep s (.mkdir ['/', 'm', '/', 'x'] 0 ⟨some fun _ => 0, some 2⟩, .sOk) t ∧
      ¬ MkdirLaw s t ['/', 'm', '/', 'x'] := by
  obtain ⟨s, t, mount, created, rootKids, mountKids, root, parsed⟩ : ∃ s t,
      VfsStep (vfsInit (fun _ => .zeroed) 0)
        (.mountFs (some ['/', 'm']) (some fun _ => (.sOk, ⟨fun _ _ => .eFail, none⟩)) (some ['d'])
          (some 7) ⟨some fun _ => 0, some 1⟩, .sOk) s ∧
      vfsMkdir s ['/', 'm', '/', 'x'] 0 ⟨some fun _ => 0, some 2⟩ = .ok (.sOk, t) ∧
      s.kids 0 = [1] ∧ s.kids 1 = [] ∧ s.root = 0 ∧
      vfsParseUrl s ['/', 'm', '/', 'x'] none none = .ok (.ok ⟨1, true, [], []⟩) :=
    ⟨_, _, ⟨vfsInit_fresh (by decide), rfl⟩, rfl, rfl, rfl, rfl, rfl⟩
  have fresh : ∀ c, some 2 = some c → ¬ s.Has c := by
    intro c same reach
    rcases has_of_kids root rootKids mountKids reach with rfl | rfl <;> cases same
  exact ⟨s, t, mount, ⟨fresh, created⟩,
    mkdir_elsewhere (vfsStep_isVfsTree vfsInit_isVfsTree mount) fresh ⟨_, rfl⟩ created
      (.inr (.inr ⟨_, parsed, rfl⟩))⟩

end Antonix.Vfs
