import Antonix.Vfs.Shape

/-! # Paths that cross a mount point

Where the search of `vfs_parse_url` meets a mount point, the path is cut behind it.
Both pieces are put together from components, so that they make the whole path again,
and the first piece is a path of the mount point itself, unless it is `/`: that is the
root, even where the root has a mount point without a name. -/

namespace Antonix.Vfs

open NameTree

/-- The components lead to the node `c`, which is the first mount point on the way. -/
def FirstMountpoint (s : VfsState) (base : List (List Char)) (c : Nat) : Prop :=
  ∃ front x p, base = front ++ [x] ∧ Leads s s.root front p ∧ x.length < nodeNameSize ∧
    s.child p x = some c ∧ s.IsMountpoint c

/-- The path is absolute, not the root, and `c` is the first mount point on it. -/
def ReachesMountpoint (s : VfsState) (url : List Char) (c : Nat) : Prop :=
  (∃ rest, rest ≠ [] ∧ url = delimiter :: rest) ∧
    ∃ base mounted, components url = base ++ mounted ∧ FirstMountpoint s base c

/-- The path begins with a mount point of the root that has no name. -/
def BeginsNameless (s : VfsState) (url : List Char) : Prop :=
  ∃ rest c, url = delimiter :: delimiter :: rest ∧ s.child s.root [] = some c ∧ s.IsMountpoint c

/-- The path is cut in two: a path of the mount point `c`, and what is behind it. -/
def MountSplit (s : VfsState) (url : List Char) (c : Nat) : Prop :=
  ∃ base mounted, base ++ mounted = url ∧ (mounted = [] ∨ ∃ rest, mounted = delimiter :: rest) ∧
    (∀ b m, base.length < b → mounted.length < m →
      vfsParseUrl s url (some b) (some m) = .ok (.ok ⟨c, true, base, mounted⟩)) ∧
    ∃ found, vfsParseUrl s base none none = .ok (.ok found) ∧ found.node = c

section

variable {s : VfsState} {b m : Option Nat} {n c : Nat} {url : List Char}
  {base mounted xs passed : List (List Char)}

/-- The search ends at the mount point, and puts the two paths together. -/
theorem FirstMountpoint.parse (first : FirstMountpoint s base c) :
    parseComponents s b m s.root [] (base ++ mounted) = (do
      let base ← implodeInto b base
      let mounted ← implodeInto m mounted
      .ok (.ok ⟨c, true, base, mounted⟩)) := by
  obtain ⟨front, x, p, rfl, leads, fits, found, mountpoint⟩ := first
  rw [List.append_assoc, leads.parse_append, List.nil_append, List.singleton_append,
    parse_mountpoint fits found mountpoint]

theorem FirstMountpoint.parse_plain (first : FirstMountpoint s base c) :
    parseComponents s none none s.root [] (base ++ mounted) = .ok (.ok ⟨c, true, [], []⟩) :=
  first.parse

/-- A search that says that it crossed a mount point has met a first one. -/
theorem mountpoint_of_parse {found : Resolved}
    (parsed : parseComponents s b m n passed xs = .ok (.ok found))
    (crossing : found.isCrossingMountpoint = true) :
    ∃ front x rest p, xs = front ++ x :: rest ∧ Leads s n front p ∧ x.length < nodeNameSize ∧
      s.child p x = some found.node ∧ s.IsMountpoint found.node := by
  have arrives := arrives_of_parse parsed
  clear parsed
  induction arrives with
  | done => contradiction
  | @mountpoint n _ x _ _ xs fits next mountpoint =>
    exact ⟨[], x, xs, n, rfl, .nil n, fits, next, mountpoint⟩
  | @inner _ _ x _ _ fits next notMount _ inductionHypothesis =>
    obtain ⟨front, y, rest, p, split, leads, there⟩ := inductionHypothesis crossing
    exact ⟨x :: front, y, rest, p, by rw [split]; rfl, .cons fits next notMount leads, there⟩

theorem reachesMountpoint_of_parseUrl {found : Resolved}
    (parsed : vfsParseUrl s url b m = .ok (.ok found))
    (crossing : found.isCrossingMountpoint = true) : ReachesMountpoint s url found.node := by
  cases pathKind url with
  | root isRoot =>
    rw [parseUrl_root isRoot] at parsed
    obtain rfl := Except.ok.inj (Except.ok.inj parsed)
    contradiction
  | relative notDelimiter =>
    rw [parseUrl_relative notDelimiter] at parsed
    cases parsed
  | @absolute rest nonempty =>
    rw [parseUrl_absolute nonempty] at parsed
    obtain ⟨front, x, behind, p, split, leads, fits, found, mountpoint⟩ :=
      mountpoint_of_parse parsed crossing
    refine ⟨⟨rest, nonempty, rfl⟩, front ++ [x], behind, ?_, front, x, p, rfl, leads, fits, found,
      mountpoint⟩
    rw [split, List.append_assoc, List.singleton_append]

theorem ReachesMountpoint.parse (reaches : ReachesMountpoint s url c) :
    vfsParseUrl s url none none = .ok (.ok ⟨c, true, [], []⟩) := by
  obtain ⟨⟨rest, nonempty, rfl⟩, base, mounted, split, first⟩ := reaches
  rw [parseUrl_absolute nonempty, split, first.parse_plain]

/-- A path crosses a mount point when there is one on it. -/
theorem crossesMountpoint_iff : CrossesMountpoint s url ↔ ∃ c, ReachesMountpoint s url c := by
  constructor
  · intro crosses
    obtain ⟨found, parsed, crossing⟩ := crosses
    exact ⟨found.node, reachesMountpoint_of_parseUrl parsed crossing⟩
  · intro reaches
    obtain ⟨c, reaches⟩ := reaches
    exact ⟨_, reaches.parse, rfl⟩

theorem implodeStr_ne_nil (some : base ≠ []) : implodeStr base ≠ [] := by
  cases base with
  | nil => contradiction
  | cons comp comps => exact List.cons_ne_nil _ _

/-- What is put together is empty or begins with a delimiter. -/
theorem implodeStr_begins (comps : List (List Char)) :
    implodeStr comps = [] ∨ ∃ rest, implodeStr comps = delimiter :: rest := by
  cases comps with
  | nil => exact .inl rfl
  | cons comp comps => exact .inr ⟨_, rfl⟩

/-- The path of the mount point is `/` when the mount point has no name and is in the root. -/
theorem implodeStr_eq_root_iff : implodeStr base = [delimiter] ↔ base = [[]] := by
  constructor
  · intro root
    cases base with
    | nil => cases root
    | cons comp comps =>
      have nothing : comp ++ implodeStr comps = [] := (List.cons.inj root).2
      obtain ⟨rfl, rest⟩ := List.append_eq_nil_iff.mp nothing
      cases comps with
      | nil => rfl
      | cons comp comps => exact absurd rest (implodeStr_ne_nil (List.cons_ne_nil _ _))
  · rintro rfl
    rfl

/-- A path on which the first mount point is a nameless one of the root begins with it. -/
theorem beginsNameless_iff (nonempty : url ≠ [delimiter]) (split : components url = base ++ mounted)
    (absolute : ∃ rest, url = delimiter :: rest) (first : FirstMountpoint s base c) :
    BeginsNameless s url ↔ base = [[]] := by
  obtain ⟨front, x, p, rfl, leads, -, found, mountpoint⟩ := first
  constructor
  · intro begins
    obtain ⟨rest, c', rfl, found', mountpoint'⟩ := begins
    have nameless : components (delimiter :: delimiter :: rest) =
        [] :: components (delimiter :: rest) := components_delimiter _
    rw [nameless] at split
    cases front with
    | nil => rw [← (List.cons.inj split).1, List.nil_append]
    | cons y front =>
      -- the walk would have passed the mount point
      obtain rfl : [] = y := (List.cons.inj split).1
      cases leads with
      | cons fits next inner rest =>
        rw [found'] at next
        obtain rfl := Option.some.inj next
        exact absurd mountpoint' inner
  · intro nameless
    cases front with
    | cons y front => simp at nameless
    | nil =>
      obtain rfl : x = [] := by simpa using nameless
      cases leads with
      | nil =>
        obtain ⟨rest, rfl⟩ := absolute
        cases rest with
        | nil => contradiction
        | cons ch rest =>
          rw [components_delimiter] at split
          have empty : (ch :: rest).takeWhile (· ≠ delimiter) = [] := (List.cons.inj split).1
          by_cases isDelimiter : ch = delimiter
          · subst isDelimiter
            exact ⟨rest, c, rfl, found, mountpoint⟩
          · rw [List.takeWhile_cons_of_pos (by simpa using isDelimiter)] at empty
            contradiction

/-- The path of a mount point that is not `/` leads to it. -/
theorem FirstMountpoint.parseUrl (first : FirstMountpoint s base c)
    (clean : ∀ comp ∈ base, delimiter ∉ comp) (named : base ≠ [[]]) :
    vfsParseUrl s (implodeStr base) none none = .ok (.ok ⟨c, true, [], []⟩) := by
  have some : base ≠ [] := by
    obtain ⟨front, x, p, rfl, -⟩ := first
    simp
  obtain ⟨rest, begins⟩ := (implodeStr_begins base).resolve_left (implodeStr_ne_nil some)
  have nonempty : rest ≠ [] := by
    rintro rfl
    exact named (implodeStr_eq_root_iff.mp begins)
  rw [begins, parseUrl_absolute nonempty, ← begins, components_implodeStr clean,
    ← List.append_nil base, first.parse_plain]

/-- With room for them, the two paths are what was put together. -/
theorem FirstMountpoint.parseUrl_room {tail : List Char} (nonempty : tail ≠ [])
    (split : components (delimiter :: tail) = base ++ mounted) (first : FirstMountpoint s base c)
    {b m : Nat} (baseFits : (implodeStr base).length < b)
    (mountedFits : (implodeStr mounted).length < m) :
    vfsParseUrl s (delimiter :: tail) (some b) (some m) =
      .ok (.ok ⟨c, true, implodeStr base, implodeStr mounted⟩) := by
  rw [parseUrl_absolute nonempty, split, first.parse]
  simp only [implodeInto, strcpy_of_lt baseFits, strcpy_of_lt mountedFits, bind, Except.bind]

/-- The path of a nameless mount point of the root is `/`, and that is the root. -/
theorem not_mountSplit_of_nameless (valid : IsVfsTree s) (reaches : ReachesMountpoint s url c)
    (nameless : BeginsNameless s url) : ¬ MountSplit s url c := by
  intro law
  obtain ⟨⟨tail, nonempty, rfl⟩, base, mounted, split, first⟩ := reaches
  have notRoot : delimiter :: tail ≠ [delimiter] := fun root => nonempty (List.cons.inj root).2
  rw [beginsNameless_iff notRoot split ⟨tail, rfl⟩ first] at nameless
  obtain ⟨base', mounted', -, -, parsed, found, resolves, isMount⟩ := law
  have whole := parsed (base'.length + (implodeStr base).length + 1)
    (mounted'.length + (implodeStr mounted).length + 1) (by omega) (by omega)
  rw [first.parseUrl_room nonempty split (by omega) (by omega)] at whole
  have same : implodeStr base = base' :=
    congrArg Resolved.basePath (Except.ok.inj (Except.ok.inj whole))
  rw [← same, nameless, implodeStr_eq_root_iff.mpr rfl, parseUrl_root (.inr rfl)] at resolves
  obtain rfl := Except.ok.inj (Except.ok.inj resolves)
  obtain ⟨front, x, p, -, -, -, -, mountpoint⟩ := first
  rw [← isMount] at mountpoint
  exact valid.root_inner mountpoint

/-- For every tree and every absolute path on which the first mount point is `c`: the path is
cut into a path of `c` and what is behind it if and only if `c` is not a nameless mount point
of the root. -/
theorem vfsParseUrl_split_iff (valid : IsVfsTree s) (reaches : ReachesMountpoint s url c) :
    MountSplit s url c ↔ ¬ BeginsNameless s url := by
  constructor
  · intro law nameless
    exact not_mountSplit_of_nameless valid reaches nameless law
  · intro named
    obtain ⟨⟨tail, nonempty, rfl⟩, base, mounted, split, first⟩ := reaches
    have notRoot : delimiter :: tail ≠ [delimiter] := fun root => nonempty (List.cons.inj root).2
    rw [beginsNameless_iff notRoot split ⟨tail, rfl⟩ first] at named
    have clean : ∀ comp ∈ base, delimiter ∉ comp := fun comp member =>
      noDelimiter_of_mem (by rw [split]; exact List.mem_append_left _ member)
    have whole : implodeStr base ++ implodeStr mounted = delimiter :: tail := by
      rw [← implodeStr_append, ← split, implodeStr_components]
    exact ⟨implodeStr base, implodeStr mounted, whole, implodeStr_begins mounted,
      fun b m baseFits mountedFits => first.parseUrl_room nonempty split baseFits mountedFits,
      _, first.parseUrl clean named, rfl⟩

end

/-- `/m/x` with a file system at `/m`. -/
theorem vfsParseUrl_split_iff_m :
    ∃ t, VfsStep (vfsInit (fun _ => .zeroed) 0)
        (.mountFs (some ['/', 'm']) (some fun _ => (.sOk, ⟨fun _ _ => .eFail, none⟩)) (some ['d'])
          (some 7) ⟨some fun _ => 0, some 1⟩, .sOk) t ∧
      (MountSplit t ['/', 'm', '/', 'x'] 1 ↔ ¬ BeginsNameless t ['/', 'm', '/', 'x']) := by
  obtain ⟨t, step, parsed⟩ : ∃ t, VfsStep (vfsInit (fun _ => .zeroed) 0)
      (.mountFs (some ['/', 'm']) (some fun _ => (.sOk, ⟨fun _ _ => .eFail, none⟩)) (some ['d'])
        (some 7) ⟨some fun _ => 0, some 1⟩, .sOk) t ∧
      vfsParseUrl t ['/', 'm', '/', 'x'] none none = .ok (.ok ⟨1, true, [], []⟩) :=
    ⟨_, ⟨vfsInit_fresh (by decide), rfl⟩, rfl⟩
  exact ⟨t, step, vfsParseUrl_split_iff (vfsStep_isVfsTree vfsInit_isVfsTree step)
    (reachesMountpoint_of_parseUrl parsed rfl)⟩

/-- A file system that was mounted at `//` is a nameless child of the root: the first part of
`//x` is `/`. -/
theorem mount_without_name_not_split :
    ∃ t, VfsStep (vfsInit (fun _ => .zeroed) 0)
        (.mountFs (some ['/', '/']) (some fun _ => (.sOk, ⟨fun _ _ => .eFail, none⟩)) (some ['d'])
          (some 7) ⟨some fun _ => 0, some 1⟩, .sOk) t ∧
      ReachesMountpoint t ['/', '/', 'x'] 1 ∧ ¬ MountSplit t ['/', '/', 'x'] 1 := by
  obtain ⟨t, step, parsed, nameless, type⟩ : ∃ t, VfsStep (vfsInit (fun _ => .zeroed) 0)
      (.mountFs (some ['/', '/']) (some fun _ => (.sOk, ⟨fun _ _ => .eFail, none⟩)) (some ['d'])
        (some 7) ⟨some fun _ => 0, some 1⟩, .sOk) t ∧
      vfsParseUrl t ['/', '/', 'x'] none none = .ok (.ok ⟨1, true, [], []⟩) ∧
      t.child t.root [] = some 1 ∧ (t.nodes 1).type = nodeTypeMountpoint :=
    ⟨_, ⟨vfsInit_fresh (by decide), rfl⟩, rfl, rfl, rfl⟩
  have mountpoint : t.IsMountpoint 1 := by
    rw [VfsState.IsMountpoint, type]
    decide
  have reaches := reachesMountpoint_of_parseUrl parsed rfl
  exact ⟨t, step, reaches, not_mountSplit_of_nameless (vfsStep_isVfsTree vfsInit_isVfsTree step)
    reaches ⟨['x'], 1, rfl, nameless, mountpoint⟩⟩

end Antonix.Vfs
