import Mathlib.Data.List.Find

/-! # Trees of named nodes

Nodes are addresses.  `kids` gives the children of each node and `label` its name.
A walk follows names: at every node it takes the first child of the next name.

In a tree every reachable node has one parent, so a node is reached by one walk
only: the names on the way to it.  `AddsLeaf` is the edit that hangs a new node
under an old one; it says what each walk becomes. -/

namespace NameTree

variable {ν α : Type*}

/-- The first child of that name. -/
def child [DecidableEq α] (kids : ν → List ν) (label : ν → α) (n : ν) (x : α) : Option ν :=
  (kids n).find? fun c => label c = x

/-- The nodes below the root, and the root. -/
inductive Reach (kids : ν → List ν) (root : ν) : ν → Prop
  | root : Reach kids root root
  | child {n c : ν} (reach : Reach kids root n) (member : c ∈ kids n) : Reach kids root c

/-- The names `xs`, in order, lead from the first node to the last. -/
inductive Walk [DecidableEq α] (kids : ν → List ν) (label : ν → α) (n : ν) : List α → ν → Prop
  | nil : Walk kids label n [] n
  | concat {xs : List α} {x : α} {m c : ν} (walk : Walk kids label n xs m)
      (found : child kids label m x = some c) : Walk kids label n (xs ++ [x]) c

/-- Every node below the root knows its parent; the root has none. -/
structure IsTree (kids : ν → List ν) (parent : ν → Option ν) (root : ν) : Prop where
  ofChild : ∀ n, Reach kids root n → ∀ c ∈ kids n, parent c = some n
  ofRoot : parent root = none

section

variable [DecidableEq α] {kids : ν → List ν} {label : ν → α} {parent : ν → Option ν}
  {root n m c : ν} {x : α} {xs ys : List α}

theorem mem_of_child (found : child kids label n x = some c) : c ∈ kids n :=
  List.mem_of_find?_eq_some found

theorem label_of_child (found : child kids label n x = some c) : label c = x := by
  simpa using List.find?_some found

theorem Walk.reach (walk : Walk kids label n xs m) (start : Reach kids root n) :
    Reach kids root m := by
  induction walk with
  | nil => exact start
  | concat _ found inductionHypothesis => exact .child inductionHypothesis (mem_of_child found)

theorem Walk.cons (found : child kids label n x = some m) (walk : Walk kids label m xs c) :
    Walk kids label n (x :: xs) c := by
  induction walk with
  | nil => exact Walk.concat .nil found
  | concat _ found' inductionHypothesis => exact Walk.concat inductionHypothesis found'

/-- A node is reached by one walk only. -/
theorem Walk.unique (tree : IsTree kids parent root) (walk : Walk kids label root xs m)
    (other : Walk kids label root ys m) : xs = ys := by
  induction walk generalizing ys with
  | nil =>
    cases other with
    | nil => rfl
    | concat other found =>
      have isChild := tree.ofChild _ (other.reach .root) _ (mem_of_child found)
      rw [tree.ofRoot] at isChild
      contradiction
  | concat walk found inductionHypothesis =>
    have isChild := tree.ofChild _ (walk.reach .root) _ (mem_of_child found)
    cases other with
    | nil =>
      rw [tree.ofRoot] at isChild
      contradiction
    | concat other found' =>
      have isChild' := tree.ofChild _ (other.reach .root) _ (mem_of_child found')
      rw [isChild] at isChild'
      obtain rfl := Option.some.inj isChild'
      rw [inductionHypothesis other, ← label_of_child found, ← label_of_child found']

end

/-- The new node `c`, called `x` and without children, hangs under `p`; all else stays. -/
structure AddsLeaf (kids kids' : ν → List ν) (label label' : ν → α) (root p c : ν) (x : α) :
    Prop where
  parentReach : Reach kids root p
  fresh : ¬ Reach kids root c
  kidsParent : kids' p = kids p ++ [c]
  kidsLeaf : kids' c = []
  kidsOther : ∀ n, n ≠ p → n ≠ c → kids' n = kids n
  labelLeaf : label' c = x
  labelOther : ∀ n, n ≠ c → label' n = label n

namespace AddsLeaf

variable {kids kids' : ν → List ν} {label label' : ν → α} {root p c n : ν} {x : α}

theorem ne_leaf (adds : AddsLeaf kids kids' label label' root p c x)
    (reach : Reach kids root n) : n ≠ c := by
  rintro rfl
  exact adds.fresh reach

/-- The old nodes have the children they had; the parent has the leaf as well. -/
theorem mem_kids (adds : AddsLeaf kids kids' label label' root p c x)
    (reach : Reach kids root n) (m : ν) : m ∈ kids' n ↔ m ∈ kids n ∨ n = p ∧ m = c := by
  by_cases isParent : n = p
  · subst isParent
    simp [adds.kidsParent]
  · rw [adds.kidsOther n isParent (adds.ne_leaf reach)]
    simp [isParent]

/-- The nodes that can be reached are the old ones and the leaf. -/
theorem reach_iff (adds : AddsLeaf kids kids' label label' root p c x) :
    Reach kids' root n ↔ Reach kids root n ∨ n = c := by
  constructor
  · intro reach
    induction reach with
    | root => exact .inl .root
    | @child n m _ member inductionHypothesis =>
      cases inductionHypothesis with
      | inl old =>
        cases (adds.mem_kids old m).mp member with
        | inl oldChild => exact .inl (.child old oldChild)
        | inr leaf => exact .inr leaf.2
      | inr leaf =>
        rw [leaf, adds.kidsLeaf] at member
        contradiction
  · have old : ∀ n, Reach kids root n → Reach kids' root n := by
      intro n reach
      induction reach with
      | root => exact .root
      | @child n m reach member inductionHypothesis =>
        exact .child inductionHypothesis ((adds.mem_kids reach m).mpr (.inl member))
    intro reach
    cases reach with
    | inl reach => exact old n reach
    | inr leaf =>
      have member : n ∈ kids' p := by
        rw [adds.kidsParent, leaf]
        simp
      exact .child (old p adds.parentReach) member

/-- The tree stays a tree. -/
theorem isTree {parent parent' : ν → Option ν}
    (adds : AddsLeaf kids kids' label label' root p c x) (tree : IsTree kids parent root)
    (leaf : parent' c = some p) (others : ∀ n, n ≠ c → parent' n = parent n) :
    IsTree kids' parent' root where
  ofChild := by
    intro n reach m member
    cases adds.reach_iff.mp reach with
    | inl old =>
      cases (adds.mem_kids old m).mp member with
      | inl oldChild =>
        rw [others m (adds.ne_leaf (.child old oldChild))]
        exact tree.ofChild n old m oldChild
      | inr added =>
        obtain ⟨rfl, rfl⟩ := added
        exact leaf
    | inr isLeaf =>
      rw [isLeaf, adds.kidsLeaf] at member
      contradiction
  ofRoot := by
    rw [others root (adds.ne_leaf .root)]
    exact tree.ofRoot

variable [DecidableEq α]

theorem child_leaf (adds : AddsLeaf kids kids' label label' root p c x) (y : α) :
    child kids' label' c y = none := by
  rw [child, adds.kidsLeaf]
  rfl

variable [DecidableEq ν]

/-- A step of a walk finds what it found before, or the leaf. -/
theorem child_eq (adds : AddsLeaf kids kids' label label' root p c x)
    (reach : Reach kids root n) (y : α) :
    child kids' label' n y =
      (child kids label n y).or (if n = p ∧ y = x then some c else none) := by
  have old : (kids n).find? (fun m => label' m = y) = child kids label n y := by
    apply List.find?_congr
    intro m member
    rw [adds.labelOther m (adds.ne_leaf (.child reach member))]
  by_cases isParent : n = p
  · subst isParent
    rw [child, adds.kidsParent, List.find?_append, old]
    by_cases same : y = x
    · simp [adds.labelLeaf, same]
    · simp [adds.labelLeaf, same, Ne.symm same]
  · rw [child, adds.kidsOther n isParent (adds.ne_leaf reach), old]
    simp [isParent]

end AddsLeaf

end NameTree
