import Antonix.Lib.NameTree
import Antonix.Vfs.Tree

/-! # Resolving a path in the VFS

The children of the nodes make a tree of named nodes, and `vfs_parse_url` is a walk
through it that ends at the first mount point.  `Leads` is a walk that meets none. -/

namespace Antonix.Vfs

open Function NameTree

/-! ## The tree -/

def VfsState.kids (s : VfsState) (n : Nat) : List Nat :=
  (List.range (s.nodes n).childCnt).map (s.nodes n).children

def VfsState.label (s : VfsState) (n : Nat) : List Char := (s.nodes n).name

def VfsState.parent (s : VfsState) (n : Nat) : Option Nat := (s.nodes n).parent

def VfsState.IsMountpoint (s : VfsState) (n : Nat) : Prop :=
  (s.nodes n).type &&& nodeTypeMountpoint ≠ 0

/-- A node of the tree. -/
abbrev VfsState.Has (s : VfsState) (n : Nat) : Prop := Reach s.kids s.root n

/-- The first child of a node that has this name. -/
abbrev VfsState.child (s : VfsState) (n : Nat) (x : List Char) : Option Nat :=
  NameTree.child s.kids s.label n x

/-- The nodes are a tree below a directory, and no array of children is too short. -/
structure IsVfsTree (s : VfsState) : Prop where
  tree : IsTree s.kids s.parent s.root
  room : ∀ n, s.Has n → (s.nodes n).childCnt ≤ (s.nodes n).childCapacity
  rootType : (s.nodes s.root).type = nodeTypeDirectory

/-! ## The first tree -/

section

variable {memory : Nat → VfsNode} {root n : Nat}

theorem vfsInit_kids : (vfsInit memory root).kids root = [] := by
  simp [VfsState.kids, vfsInit, VfsNode.zeroed]

theorem vfsInit_has : (vfsInit memory root).Has n ↔ n = root := by
  constructor
  · intro reach
    induction reach with
    | root => rfl
    | child _ member inductionHypothesis =>
      rw [inductionHypothesis, vfsInit_kids] at member
      contradiction
  · rintro rfl
    exact .root

/-- All other nodes are fresh for the first tree. -/
theorem vfsInit_fresh (other : n ≠ root) :
    ∀ c, some n = some c → ¬ (vfsInit memory root).Has c := by
  intro c same
  rw [vfsInit_has, ← Option.some.inj same]
  exact other

theorem vfsInit_isVfsTree : IsVfsTree (vfsInit memory root) where
  tree := {
    ofChild := by
      intro n reach c member
      rw [vfsInit_has.mp reach, vfsInit_kids] at member
      contradiction
    ofRoot := by simp [VfsState.parent, vfsInit, VfsNode.zeroed] }
  room := by
    intro n reach
    rw [vfsInit_has.mp reach]
    simp [vfsInit, VfsNode.zeroed]
  rootType := by simp [vfsInit]

end

section

variable {s : VfsState} {b m b' m' : Option Nat} {n p c : Nat} {x : List Char}
  {xs passed passed' : List (List Char)}

theorem findChild_child (s : VfsState) (n : Nat) (x : List Char) :
    (vfsnodeFindChild s n x).map (s.nodes n).children = s.child n x := by
  rw [VfsState.child, NameTree.child, VfsState.kids, List.find?_map]
  rfl

theorem findChild_none (missing : s.child n x = none) : vfsnodeFindChild s n x = none := by
  rw [← findChild_child] at missing
  exact Option.map_eq_none_iff.mp missing

theorem findChild_some (found : s.child n x = some c) :
    ∃ id, vfsnodeFindChild s n x = some id ∧ (s.nodes n).children id = c := by
  rw [← findChild_child] at found
  exact Option.map_eq_some_iff.mp found

theorem strcpy_of_lt {capacity : Nat} (fits : x.length < capacity) : strcpy capacity x = .ok x :=
  if_pos fits

theorem eq_of_strcpy {capacity : Nat} {y : List Char} (copied : strcpy capacity x = .ok y) :
    y = x ∧ x.length < capacity := by
  by_cases fits : x.length < capacity
  · rw [strcpy_of_lt fits] at copied
    exact ⟨(Except.ok.inj copied).symm, fits⟩
  · rw [strcpy, if_neg fits] at copied
    contradiction

/-! ## One component -/

theorem parse_missing (fits : x.length < nodeNameSize) (missing : s.child n x = none) :
    parseComponents s b m n passed (x :: xs) = .ok (.error .eNotFound) := by
  simp only [parseComponents, strcpy_of_lt fits, bind, Except.bind, findChild_none missing]

theorem parse_mountpoint (fits : x.length < nodeNameSize) (found : s.child n x = some c)
    (mountpoint : s.IsMountpoint c) :
    parseComponents s b m n passed (x :: xs) = (do
      let base ← implodeInto b (passed ++ [x])
      let mounted ← implodeInto m xs
      .ok (.ok ⟨c, true, base, mounted⟩)) := by
  obtain ⟨id, finds, rfl⟩ := findChild_some found
  simp only [parseComponents, strcpy_of_lt fits, bind, Except.bind, finds]
  exact if_pos mountpoint

theorem parse_inner (fits : x.length < nodeNameSize) (found : s.child n x = some c)
    (inner : ¬ s.IsMountpoint c) :
    parseComponents s b m n passed (x :: xs) = parseComponents s b m c (passed ++ [x]) xs := by
  obtain ⟨id, finds, rfl⟩ := findChild_some found
  conv_lhs => rw [parseComponents, strcpy_of_lt fits]
  simp only [bind, Except.bind, finds]
  exact if_neg inner

theorem parse_overlong (overlong : ¬ x.length < nodeNameSize) :
    parseComponents s b m n passed (x :: xs) = .error .stuck := by
  simp only [parseComponents, strcpy, if_neg overlong, bind, Except.bind]

/-- What the search meets at one component. -/
inductive Meets (s : VfsState) (n : Nat) (x : List Char) : Prop
  | overlong (overlong : ¬ x.length < nodeNameSize)
  | missing (fits : x.length < nodeNameSize) (missing : s.child n x = none)
  | mountpoint (c : Nat) (fits : x.length < nodeNameSize) (found : s.child n x = some c)
      (mountpoint : s.IsMountpoint c)
  | inner (c : Nat) (fits : x.length < nodeNameSize) (found : s.child n x = some c)
      (inner : ¬ s.IsMountpoint c)

theorem meets (s : VfsState) (n : Nat) (x : List Char) : Meets s n x := by
  by_cases fits : x.length < nodeNameSize
  · cases found : s.child n x with
    | none => exact .missing fits found
    | some c =>
      by_cases mountpoint : s.IsMountpoint c
      · exact .mountpoint c fits found mountpoint
      · exact .inner c fits found mountpoint
  · exact .overlong fits

/-- The result at a mount point, when there was room for the paths. -/
theorem eq_of_mountpoint {outcome : Except HResult Resolved} (fits : x.length < nodeNameSize)
    (found : s.child n x = some c) (mountpoint : s.IsMountpoint c)
    (parsed : parseComponents s b m n passed (x :: xs) = .ok outcome) :
    ∃ base mounted, outcome = .ok ⟨c, true, base, mounted⟩ := by
  rw [parse_mountpoint fits found mountpoint] at parsed
  obtain ⟨base, -, parsed⟩ := exists_of_bind parsed
  obtain ⟨mounted, -, parsed⟩ := exists_of_bind parsed
  exact ⟨base, mounted, (Except.ok.inj parsed).symm⟩

/-! ## Walks that meet no mount point -/

inductive Leads (s : VfsState) : Nat → List (List Char) → Nat → Prop
  | nil (n : Nat) : Leads s n [] n
  | cons {n m c : Nat} {x : List Char} {xs : List (List Char)} (fits : x.length < nodeNameSize)
      (found : s.child n x = some m) (inner : ¬ s.IsMountpoint m) (rest : Leads s m xs c) :
      Leads s n (x :: xs) c

theorem Leads.walk (leads : Leads s n xs c) : Walk s.kids s.label n xs c := by
  induction leads with
  | nil => exact .nil
  | cons _ found _ _ inductionHypothesis => exact .cons found inductionHypothesis

theorem Leads.concat (leads : Leads s n xs p) (fits : x.length < nodeNameSize)
    (found : s.child p x = some c) (inner : ¬ s.IsMountpoint c) : Leads s n (xs ++ [x]) c := by
  induction leads with
  | nil => exact .cons fits found inner (.nil c)
  | cons fits' found' inner' _ inductionHypothesis =>
    exact .cons fits' found' inner' (inductionHypothesis found)

theorem Leads.inner (leads : Leads s n xs c) (start : ¬ s.IsMountpoint n) : ¬ s.IsMountpoint c := by
  induction leads with
  | nil => exact start
  | cons _ _ inner _ inductionHypothesis => exact inductionHypothesis inner

theorem Leads.names (leads : Leads s n xs c) : ∀ comp ∈ xs, comp.length < nodeNameSize := by
  induction leads with
  | nil => simp
  | cons fits _ _ _ inductionHypothesis =>
    intro comp member
    cases List.mem_cons.mp member with
    | inl first => rwa [first]
    | inr later => exact inductionHypothesis comp later

/-- A walk goes on where such a walk has led. -/
theorem Leads.parse_append (leads : Leads s n xs c) (more : List (List Char)) :
    parseComponents s b m n passed (xs ++ more) = parseComponents s b m c (passed ++ xs) more := by
  induction leads generalizing passed with
  | nil => simp
  | cons fits found inner _ inductionHypothesis =>
    rw [List.cons_append, parse_inner fits found inner, inductionHypothesis, List.append_assoc,
      List.singleton_append]

theorem Leads.parse (leads : Leads s n xs c) :
    parseComponents s b m n passed xs = .ok (.ok ⟨c, false, [], []⟩) := by
  have whole : parseComponents s b m n passed (xs ++ []) = _ := leads.parse_append []
  rwa [List.append_nil] at whole

/-- How the search comes to the node it finds: it stops at the first mount point, or at the end. -/
inductive Arrives (s : VfsState) : Nat → List (List Char) → Resolved → Prop
  | done (n : Nat) : Arrives s n [] ⟨n, false, [], []⟩
  | mountpoint {n c : Nat} {x base mounted : List Char} {xs : List (List Char)}
      (fits : x.length < nodeNameSize) (found : s.child n x = some c)
      (mountpoint : s.IsMountpoint c) : Arrives s n (x :: xs) ⟨c, true, base, mounted⟩
  | inner {n c : Nat} {x : List Char} {xs : List (List Char)} {result : Resolved}
      (fits : x.length < nodeNameSize) (found : s.child n x = some c)
      (inner : ¬ s.IsMountpoint c) (rest : Arrives s c xs result) : Arrives s n (x :: xs) result

theorem arrives_of_parse {found : Resolved}
    (parsed : parseComponents s b m n passed xs = .ok (.ok found)) : Arrives s n xs found := by
  induction xs generalizing n passed with
  | nil =>
    obtain rfl := Except.ok.inj (Except.ok.inj parsed)
    exact .done n
  | cons x xs inductionHypothesis =>
    cases meets s n x with
    | overlong overlong =>
      rw [parse_overlong overlong] at parsed
      contradiction
    | missing fits missing =>
      rw [parse_missing fits missing] at parsed
      cases parsed
    | mountpoint c fits next mountpoint =>
      obtain ⟨base, mounted, result⟩ := eq_of_mountpoint fits next mountpoint parsed
      rw [Except.ok.inj result]
      exact .mountpoint fits next mountpoint
    | inner c fits next notMount =>
      rw [parse_inner fits next notMount] at parsed
      exact .inner fits next notMount (inductionHypothesis parsed)

/-- Where the search ends without a mount point, such a walk leads. -/
theorem leads_of_parse {found : Resolved}
    (parsed : parseComponents s b m n passed xs = .ok (.ok found))
    (inner : found.isCrossingMountpoint = false) :
    found = ⟨found.node, false, [], []⟩ ∧ Leads s n xs found.node := by
  have arrives := arrives_of_parse parsed
  clear parsed
  induction arrives with
  | done n => exact ⟨rfl, .nil n⟩
  | mountpoint => contradiction
  | inner fits next notMount _ inductionHypothesis =>
    obtain ⟨plain, rest⟩ := inductionHypothesis inner
    exact ⟨plain, .cons fits next notMount rest⟩

/-- The node that a search ends at is a node of the tree. -/
theorem reach_of_parse {found : Resolved} (start : s.Has n)
    (parsed : parseComponents s b m n passed xs = .ok (.ok found)) : s.Has found.node := by
  have arrives := arrives_of_parse parsed
  clear parsed
  induction arrives with
  | done => exact start
  | mountpoint _ next => exact .child start (mem_of_child next)
  | inner _ next _ _ inductionHypothesis =>
    exact inductionHypothesis (.child start (mem_of_child next))

/-! ## Whole paths -/

theorem parseUrl_root {path : List Char} (root : path = [] ∨ path = [delimiter]) :
    vfsParseUrl s path b m = .ok (.ok ⟨s.root, false, [], []⟩) := by
  cases root with
  | inl empty => rw [empty, vfsParseUrl]
  | inr single =>
    rw [single]
    rfl

theorem parseUrl_absolute {rest : List Char} (some : rest ≠ []) :
    vfsParseUrl s (delimiter :: rest) b m =
      parseComponents s b m s.root [] (components (delimiter :: rest)) := by
  rw [vfsParseUrl, if_neg (not_not_intro rfl), if_neg some]

theorem parseUrl_relative {ch : Char} {rest : List Char} (relative : ch ≠ delimiter) :
    vfsParseUrl s (ch :: rest) b m = .ok (.error .eInvalidArg) := by
  rw [vfsParseUrl, if_pos relative]

/-- A path is the root, a relative path, or one that is searched for. -/
inductive PathKind : List Char → Prop
  | root {path : List Char} (isRoot : path = [] ∨ path = [delimiter]) : PathKind path
  | relative {ch : Char} {rest : List Char} (notDelimiter : ch ≠ delimiter) : PathKind (ch :: rest)
  | absolute {rest : List Char} (nonempty : rest ≠ []) : PathKind (delimiter :: rest)

theorem pathKind (path : List Char) : PathKind path := by
  cases path with
  | nil => exact .root (.inl rfl)
  | cons ch rest =>
    by_cases absolute : ch = delimiter
    · subst absolute
      cases rest with
      | nil => exact .root (.inr rfl)
      | cons ch' rest => exact .absolute (List.cons_ne_nil _ _)
    · exact .relative absolute

theorem IsVfsTree.root_inner (valid : IsVfsTree s) : ¬ s.IsMountpoint s.root := by
  rw [VfsState.IsMountpoint, valid.rootType]
  decide

/-- A path that crosses no mount point does not end at one either. -/
theorem inner_of_parseUrl {path : List Char} {found : Resolved} (valid : IsVfsTree s)
    (parsed : vfsParseUrl s path b m = .ok (.ok found))
    (inner : found.isCrossingMountpoint = false) : ¬ s.IsMountpoint found.node := by
  cases pathKind path with
  | root isRoot =>
    rw [parseUrl_root isRoot] at parsed
    obtain rfl := Except.ok.inj (Except.ok.inj parsed)
    exact valid.root_inner
  | relative notDelimiter =>
    rw [parseUrl_relative notDelimiter] at parsed
    cases parsed
  | absolute nonempty =>
    rw [parseUrl_absolute nonempty] at parsed
    exact (leads_of_parse parsed inner).2.inner valid.root_inner

theorem reach_of_parseUrl {path : List Char} {found : Resolved}
    (parsed : vfsParseUrl s path b m = .ok (.ok found)) : s.Has found.node := by
  cases pathKind path with
  | root isRoot =>
    rw [parseUrl_root isRoot] at parsed
    obtain rfl := Except.ok.inj (Except.ok.inj parsed)
    exact .root
  | relative notDelimiter =>
    rw [parseUrl_relative notDelimiter] at parsed
    cases parsed
  | absolute nonempty =>
    rw [parseUrl_absolute nonempty] at parsed
    exact reach_of_parse .root parsed

end

end Antonix.Vfs
