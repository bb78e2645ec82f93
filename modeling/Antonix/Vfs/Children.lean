import Mathlib.Data.List.Range
import Antonix.Vfs.Walk

/-! # Adding a child

What `vfsnode_add_child` and its callers do to the tree: they hang a leaf under a
node, and the array of children that was grown for it holds the old children. -/

namespace Antonix.Vfs

open Function NameTree

/-- What the callers of `vfsnode_add_child` write to the new node leaves its links alone. -/
structure KeepsLinks (fill : VfsNode → VfsNode) : Prop where
  name : ∀ node, (fill node).name = node.name
  children : ∀ node, (fill node).children = node.children
  childCnt : ∀ node, (fill node).childCnt = node.childCnt
  childCapacity : ∀ node, (fill node).childCapacity = node.childCapacity
  parent : ∀ node, (fill node).parent = node.parent

theorem keepsLinks_owned (permission : Nat) :
    KeepsLinks fun new => { new with permission := permission, fsDriver := .vfs } :=
  ⟨fun _ => rfl, fun _ => rfl, fun _ => rfl, fun _ => rfl, fun _ => rfl⟩

/-- From `s` to `t` the node `c`, called `name`, was hung under `p`. -/
structure Added (s t : VfsState) (p c : Nat) (name : List Char) : Prop where
  adds : AddsLeaf s.kids t.kids s.label t.label s.root p c name
  missing : s.child p name = none
  nameFits : name.length < nodeNameSize
  types : ∀ n, n ≠ c → (t.nodes n).type = (s.nodes n).type
  leafParent : t.parent c = some p
  parents : ∀ n, n ≠ c → t.parent n = s.parent n
  leafCount : (t.nodes c).childCnt = 0
  room : ∀ n, n ≠ c → (s.nodes n).childCnt ≤ (s.nodes n).childCapacity →
    (t.nodes n).childCnt ≤ (t.nodes n).childCapacity
  root : t.root = s.root

section

variable {s t : VfsState} {p c : Nat} {name : List Char} {type : Nat} {alloc : ChildAlloc}
  {fill : VfsNode → VfsNode}

/-- The grown array holds the old children and has a free cell behind them. -/
theorem grow_spec {node grown : VfsNode} {array : Option (Nat → Nat)}
    (room : node.childCnt ≤ node.childCapacity) (grows : vfsnodeGrow node array = some grown) :
    grown.childCnt = node.childCnt ∧ node.childCnt < grown.childCapacity ∧
      (∀ i, i < node.childCnt → grown.children i = node.children i) ∧
      grown.name = node.name ∧ grown.type = node.type ∧ grown.parent = node.parent := by
  by_cases full : node.childCnt ≥ node.childCapacity
  · -- the array grows, and `krealloc` keeps its cells
    cases array with
    | none => simp [vfsnodeGrow, full] at grows
    | some fresh =>
      by_cases first : node.childCapacity = 0
      · simp only [vfsnodeGrow, if_pos full, if_pos first, Option.some.injEq] at grows
        subst grows
        simp only [true_and, and_true]
        exact ⟨by omega, fun i below => by omega⟩
      · simp only [vfsnodeGrow, if_pos full, if_neg first, Option.some.injEq] at grows
        subst grows
        simp only [true_and, and_true]
        exact ⟨by omega, fun i below => if_pos (by omega)⟩
  · simp only [vfsnodeGrow, if_neg full, Option.some.injEq] at grows
    subst grows
    simp only [true_and, and_true, implies_true]
    omega

/-- All that a successful `vfsnode_add_child` has done. -/
theorem addChild_cases (added : vfsnodeAddChild s p name type alloc = .ok (.ok (c, t))) :
    alloc.node = some c ∧ s.child p name = none ∧ name.length < nodeNameSize ∧
      ∃ grown, vfsnodeGrow (s.nodes p) alloc.array = some grown ∧ t = { s with
        nodes := update
          (update s.nodes c { VfsNode.zeroed with name := name, type := type, parent := some p }) p
          { grown with
            children := update grown.children grown.childCnt c
            childCnt := grown.childCnt + 1 } } := by
  cases finds : vfsnodeFindChild s p name with
  | some id =>
    -- the name is taken
    simp only [vfsnodeAddChild, finds] at added
    cases added
  | none =>
    have missing : s.child p name = none := by
      rw [← findChild_child, finds]
      rfl
    cases grows : vfsnodeGrow (s.nodes p) alloc.array with
    | none =>
      simp only [vfsnodeAddChild, finds, grows] at added
      cases added
    | some grown =>
      cases node : alloc.node with
      | none =>
        simp only [vfsnodeAddChild, finds, grows, node] at added
        contradiction
      | some new =>
        simp only [vfsnodeAddChild, finds, grows, node] at added
        obtain ⟨copy, copied, stored⟩ := exists_of_bind added
        obtain ⟨rfl, fits⟩ := eq_of_strcpy copied
        obtain ⟨rfl, rfl⟩ := Prod.mk.inj (Except.ok.inj (Except.ok.inj stored))
        exact ⟨rfl, missing, fits, grown, rfl, rfl⟩

theorem addFilled_cases (added : addFilled s p name type alloc fill = .ok t) :
    ∃ c middle, vfsnodeAddChild s p name type alloc = .ok (.ok (c, middle)) ∧
      t = middle.modify c fill := by
  obtain ⟨outcome, adds, filled⟩ := exists_of_bind added
  cases outcome with
  | error hr =>
    -- the caller would write through a pointer that was not set
    contradiction
  | ok result => exact ⟨result.1, result.2, adds, (Except.ok.inj filled).symm⟩

/-- With memory, a name that is free and not too long can be added. -/
theorem addFilled_returns {array : Nat → Nat} (missing : s.child p name = none)
    (fits : name.length < nodeNameSize) (hasArray : alloc.array = some array)
    (hasNode : alloc.node = some c) : ∃ t, addFilled s p name type alloc fill = .ok t := by
  have grows : (vfsnodeGrow (s.nodes p) alloc.array).isSome := by
    simp only [vfsnodeGrow, hasArray]
    split
    · split <;> rfl
    · rfl
  obtain ⟨grown, grows⟩ := Option.isSome_iff_exists.mp grows
  have finds := findChild_none missing
  simp only [addFilled, vfsnodeAddChild, finds, grows, hasNode, strcpy_of_lt fits, bind,
    Except.bind]
  exact ⟨_, rfl⟩

theorem kids_of_appended {node node' : VfsNode} (counts : node'.childCnt = node.childCnt)
    (kept : ∀ i, i < node.childCnt → node'.children i = node.children i) (c : Nat) :
    (List.range (node'.childCnt + 1)).map (update node'.children node'.childCnt c) =
      (List.range node.childCnt).map node.children ++ [c] := by
  rw [List.range_succ, List.map_append, counts]
  congr 1
  · apply List.map_congr_left
    intro i member
    have below : i < node.childCnt := List.mem_range.mp member
    rw [update_of_ne (by omega), kept i below]
  · simp

/-- Adding a child hangs a leaf into the tree. -/
theorem addFilled_spec (valid : IsVfsTree s) (reach : s.Has p)
    (fresh : ∀ c, alloc.node = some c → ¬ s.Has c) (keeps : KeepsLinks fill)
    (added : addFilled s p name type alloc fill = .ok t) :
    ∃ c, alloc.node = some c ∧ Added s t p c name ∧
      t.nodes c = fill { VfsNode.zeroed with name := name, type := type, parent := some p } ∧
      t.drivers = s.drivers ∧ t.finalized = s.finalized := by
  obtain ⟨c, middle, adds, rfl⟩ := addFilled_cases added
  obtain ⟨node, missing, fits, grown, grows, rfl⟩ := addChild_cases adds
  obtain ⟨counts, larger, kept, sameName, sameType, sameParent⟩ :=
    grow_spec (valid.room p reach) grows
  -- the parent is in the tree and the new node is not
  have apart : c ≠ p := by
    rintro rfl
    exact fresh c node reach
  refine ⟨c, node, ?_, ?_, rfl, rfl⟩
  · exact {
      adds := {
        parentReach := reach
        fresh := fresh c node
        kidsParent := by
          simp only [VfsState.kids, VfsState.modify, update_of_ne apart.symm, update_self]
          exact kids_of_appended counts kept c
        kidsLeaf := by
          simp [VfsState.kids, VfsState.modify, update_of_ne apart, keeps.childCnt, VfsNode.zeroed]
        kidsOther := by
          intro n notParent notLeaf
          simp only [VfsState.kids, VfsState.modify, update_of_ne notLeaf, update_of_ne notParent]
        labelLeaf := by
          simp [VfsState.label, VfsState.modify, update_of_ne apart, keeps.name]
        labelOther := by
          intro n notLeaf
          by_cases isParent : n = p
          · simp [VfsState.label, VfsState.modify, isParent, update_of_ne apart.symm, sameName]
          · simp only [VfsState.label, VfsState.modify, update_of_ne notLeaf,
              update_of_ne isParent] }
      missing := missing
      nameFits := fits
      types := by
        intro n notLeaf
        by_cases isParent : n = p
        · simp [VfsState.modify, isParent, update_of_ne apart.symm, sameType]
        · simp only [VfsState.modify, update_of_ne notLeaf, update_of_ne isParent]
      leafParent := by
        simp [VfsState.parent, VfsState.modify, update_of_ne apart, keeps.parent]
      parents := by
        intro n notLeaf
        by_cases isParent : n = p
        · simp [VfsState.parent, VfsState.modify, isParent, update_of_ne apart.symm, sameParent]
        · simp only [VfsState.parent, VfsState.modify, update_of_ne notLeaf, update_of_ne isParent]
      leafCount := by
        simp [VfsState.modify, update_of_ne apart, keeps.childCnt, VfsNode.zeroed]
      room := by
        intro n notLeaf hadRoom
        by_cases isParent : n = p
        · simp only [VfsState.modify, isParent, update_of_ne apart.symm, update_self]
          omega
        · simpa only [VfsState.modify, update_of_ne notLeaf, update_of_ne isParent] using hadRoom
      root := rfl }
  · simp [VfsState.modify, update_of_ne apart]

namespace Added

theorem isMountpoint_iff (added : Added s t p c name) {n : Nat} (other : n ≠ c) :
    t.IsMountpoint n ↔ s.IsMountpoint n := by
  rw [VfsState.IsMountpoint, added.types n other, VfsState.IsMountpoint]

theorem has_iff (added : Added s t p c name) {n : Nat} : t.Has n ↔ s.Has n ∨ n = c := by
  rw [VfsState.Has, added.root]
  exact added.adds.reach_iff

theorem isVfsTree (added : Added s t p c name) (valid : IsVfsTree s) : IsVfsTree t where
  tree := by
    rw [added.root]
    exact added.adds.isTree valid.tree added.leafParent added.parents
  room := by
    intro n reach
    by_cases isLeaf : n = c
    · rw [isLeaf, added.leafCount]
      exact Nat.zero_le _
    · cases added.has_iff.mp reach with
      | inl old => exact added.room n isLeaf (valid.room n old)
      | inr leaf => exact absurd leaf isLeaf
  rootType := by
    rw [added.root, added.types _ (added.adds.ne_leaf .root)]
    exact valid.rootType

end Added

end

end Antonix.Vfs
