import Mathlib.Data.List.Perm.Subperm
import Antonix.Libc.LinkedList

/-! # The list is a sequence of payloads (`libc/linkedlist.c`)

The entries of a list are linked in both directions, the first one is the root and their number is
`node_count`.  Every call keeps this, and answers what the sequence of the payloads tells. -/

namespace Antonix.Libc

open Function DoublyLinked

/-! ## The fields of an entry -/

def prevOf (entries : Entries) (node : Nat) : Option Nat :=
  (entries node).bind DoubleListEntry.prev

def nextOf (entries : Entries) (node : Nat) : Option Nat :=
  (entries node).bind DoubleListEntry.next

def payloadOf (entries : Entries) (node : Nat) : Option Nat :=
  (entries node).map DoubleListEntry.payload

/-- A list with these entries, given by their addresses and payloads. -/
structure Holds (s : DlistState) (nodes : List (Nat × Nat)) : Prop where
  linked : ∃ last, Segment (prevOf s.entries) (nextOf s.entries) none s.list.rootNode
    (nodes.map Prod.fst) last none
  stored : ∀ n ∈ nodes, payloadOf s.entries n.1 = some n.2
  count : s.list.nodeCount = nodes.length
  apart : (nodes.map Prod.fst).Pairwise Apart
  placed : ∀ n ∈ nodes, 0 < n.1 ∧ n.1 + entrySize ≤ addresses

/-- The list behaves as this sequence of payloads. -/
def Represents (s : DlistState) (payloads : List Nat) : Prop :=
  ∃ nodes, Holds s nodes ∧ nodes.map Prod.snd = payloads

section

variable {entries entries' : Entries} {s t : DlistState} {nodes front back : List (Nat × Nat)}
  {n : Nat × Nat} {node payload a x index turns : Nat} {before head last behind : Option Nat}
  {l : List Nat}

theorem fetch_eq (stored : payloadOf entries node = some payload) :
    fetch entries node = .ok ⟨prevOf entries node, nextOf entries node, payload⟩ := by
  rw [payloadOf, Option.map_eq_some_iff] at stored
  obtain ⟨entry, there, rfl⟩ := stored
  rw [fetch, prevOf, nextOf, there]
  rfl

/-- The fields after an entry is written. -/
theorem update_fields (entries : Entries) (node : Nat) (entry : DoubleListEntry) (y : Nat) :
    let entries' := update entries node (some entry)
    nextOf entries' y = (if node = y then entry.next else nextOf entries y) ∧
      prevOf entries' y = (if node = y then entry.prev else prevOf entries y) ∧
      payloadOf entries' y = if node = y then some entry.payload else payloadOf entries y := by
  by_cases same : node = y
  · subst same
    simp [nextOf, prevOf, payloadOf]
  · simp [nextOf, prevOf, payloadOf, same, Ne.symm same]

/-- An entry that is written to keeps its other fields, and the other entries keep all of theirs. -/
theorem setNext_eq (stored : payloadOf entries node = some payload) (next : Option Nat) :
    ∃ entries', setNext entries node next = .ok entries' ∧
      (∀ y, nextOf entries' y = if node = y then next else nextOf entries y) ∧
      (∀ y, prevOf entries' y = prevOf entries y) ∧
      ∀ y, payloadOf entries' y = payloadOf entries y := by
  obtain ⟨entry, there, _⟩ := Option.map_eq_some_iff.mp stored
  have fields := update_fields entries node { entry with next := next }
  refine ⟨_, by rw [setNext, there], fun y => (fields y).1, ?_, ?_⟩
  · intro y
    rw [(fields y).2.1]
    split
    case isTrue same => rw [← same, prevOf, there]; rfl
    case isFalse other => rfl
  · intro y
    rw [(fields y).2.2]
    split
    case isTrue same => rw [← same, payloadOf, there]; rfl
    case isFalse other => rfl

theorem setPrev_eq (stored : payloadOf entries node = some payload) (prev : Option Nat) :
    ∃ entries', setPrev entries node prev = .ok entries' ∧
      (∀ y, prevOf entries' y = if node = y then prev else prevOf entries y) ∧
      (∀ y, nextOf entries' y = nextOf entries y) ∧
      ∀ y, payloadOf entries' y = payloadOf entries y := by
  obtain ⟨entry, there, _⟩ := Option.map_eq_some_iff.mp stored
  have fields := update_fields entries node { entry with prev := prev }
  refine ⟨_, by rw [setPrev, there], fun y => (fields y).2.1, ?_, ?_⟩
  · intro y
    rw [(fields y).1]
    split
    case isTrue same => rw [← same, nextOf, there]; rfl
    case isFalse other => rfl
  · intro y
    rw [(fields y).2.2]
    split
    case isTrue same => rw [← same, payloadOf, there]; rfl
    case isFalse other => rfl

theorem setNextOf_eq {link : Option Nat}
    (stored : ∀ y, link = some y → ∃ payload, payloadOf entries y = some payload)
    (next : Option Nat) :
    ∃ entries', setNextOf entries link next = .ok entries' ∧
      (∀ y, nextOf entries' y = if link = some y then next else nextOf entries y) ∧
      (∀ y, prevOf entries' y = prevOf entries y) ∧
      ∀ y, payloadOf entries' y = payloadOf entries y := by
  cases link with
  | none => exact ⟨entries, rfl, fun _ => rfl, fun _ => rfl, fun _ => rfl⟩
  | some node =>
    obtain ⟨payload, there⟩ := stored node rfl
    obtain ⟨entries', set, nexts, rest⟩ := setNext_eq there next
    exact ⟨entries', set, fun y => by simp only [nexts y, Option.some.injEq], rest⟩

theorem setPrevOf_eq {link : Option Nat}
    (stored : ∀ y, link = some y → ∃ payload, payloadOf entries y = some payload)
    (prev : Option Nat) :
    ∃ entries', setPrevOf entries link prev = .ok entries' ∧
      (∀ y, prevOf entries' y = if link = some y then prev else prevOf entries y) ∧
      (∀ y, nextOf entries' y = nextOf entries y) ∧
      ∀ y, payloadOf entries' y = payloadOf entries y := by
  cases link with
  | none => exact ⟨entries, rfl, fun _ => rfl, fun _ => rfl, fun _ => rfl⟩
  | some node =>
    obtain ⟨payload, there⟩ := stored node rfl
    obtain ⟨entries', set, prevs, rest⟩ := setPrev_eq there prev
    exact ⟨entries', set, fun y => by simp only [prevs y, Option.some.injEq], rest⟩

/-! ## How many entries there are -/

theorem not_apart_self (a : Nat) : ¬ Apart a a := by
  simp only [Apart, entrySize]
  omega

theorem nodup_of_apart (apart : l.Pairwise Apart) : l.Nodup := by
  apply apart.imp
  rintro a _ apart rfl
  exact not_apart_self a apart

/-- There are not more entries than memory has room for. -/
theorem length_le_of_apart (apart : l.Pairwise Apart)
    (placed : ∀ a ∈ l, a + entrySize ≤ addresses) : l.length ≤ addresses / entrySize := by
  have slots : (l.map (· / entrySize)).Nodup := by
    apply List.pairwise_map.mpr
    apply apart.imp
    intro a b apart same
    simp only [Apart, entrySize] at apart same
    omega
  have inside : l.map (· / entrySize) ⊆ List.range (addresses / entrySize) := by
    intro slot member
    obtain ⟨a, there, rfl⟩ := List.mem_map.mp member
    have room := placed a there
    simp only [entrySize, addresses] at room ⊢
    exact List.mem_range.mpr (by omega)
  have few := (List.subperm_of_subset slots inside).length_le
  rwa [List.length_map, List.length_range] at few

theorem Holds.length_le (holds : Holds s nodes) : nodes.length ≤ addresses / entrySize := by
  have few := length_le_of_apart holds.apart (by
    intro a member
    obtain ⟨n, there, rfl⟩ := List.mem_map.mp member
    exact (holds.placed n there).2)
  rwa [List.length_map] at few

theorem Holds.nodup (holds : Holds s nodes) : (nodes.map Prod.fst).Nodup :=
  nodup_of_apart holds.apart

/-! ## Walks along the list -/

/-- Walking to the last entry. -/
theorem lastNode_eq (front : List (Nat × Nat)) : ∀ {before : Option Nat} {node turns : Nat},
    Segment (prevOf entries) (nextOf entries) before (some node) ((front ++ [n]).map Prod.fst)
      last none →
    (∀ m ∈ front ++ [n], payloadOf entries m.1 = some m.2) → front.length < turns →
    lastNode entries turns node = .ok n.1 := by
  induction front with
  | nil =>
    intro before node turns linked stored enough
    cases turns with
    | zero => contradiction
    | succ turns =>
      obtain ⟨here, _, rest⟩ := linked.uncons
      cases here
      rw [lastNode, fetch_eq (stored n List.mem_cons_self), rest.head_nil.1]
      rfl
  | cons m front inductionHypothesis =>
    intro before node turns linked stored enough
    cases turns with
    | zero => contradiction
    | succ turns =>
      obtain ⟨here, _, rest⟩ := linked.uncons
      cases here
      rw [lastNode, fetch_eq (stored m List.mem_cons_self)]
      cases next : nextOf entries m.1 with
      | none =>
        -- there is another one
        rw [next] at rest
        cases front with
        | nil => cases rest.uncons.1
        | cons m' front => cases rest.uncons.1
      | some next' =>
        rw [next] at rest
        exact inductionHypothesis rest (fun m' member => stored m' (List.mem_cons_of_mem _ member))
          (Nat.lt_of_succ_lt_succ enough)

/-- Walking to the entry with an index. -/
theorem nodeAt_eq (front : List (Nat × Nat)) : ∀ {before : Option Nat} {node : Nat},
    Segment (prevOf entries) (nextOf entries) before (some node)
      ((front ++ n :: back).map Prod.fst) last behind →
    (∀ m ∈ front ++ n :: back, payloadOf entries m.1 = some m.2) →
    nodeAt entries front.length node = .ok (some n.1) := by
  induction front with
  | nil =>
    intro before node linked _
    cases linked.uncons.1
    rfl
  | cons m front inductionHypothesis =>
    intro before node linked stored
    obtain ⟨here, _, rest⟩ := linked.uncons
    cases here
    have there : ∃ next, nextOf entries m.1 = some next := by
      cases front with
      | nil => exact ⟨_, rest.uncons.1⟩
      | cons m' front => exact ⟨_, rest.uncons.1⟩
    obtain ⟨next, there⟩ := there
    rw [there] at rest
    rw [List.length_cons, nodeAt, fetch_eq (stored m List.mem_cons_self)]
    simp only [bind, Except.bind, there]
    exact inductionHypothesis rest fun m' member => stored m' (List.mem_cons_of_mem _ member)

/-- Looking for a payload from entry `index` on. -/
theorem findNode_eq (nodes : List (Nat × Nat)) :
    ∀ {before head : Option Nat} {turns index : Nat},
    Segment (prevOf entries) (nextOf entries) before head (nodes.map Prod.fst) last none →
    (∀ m ∈ nodes, payloadOf entries m.1 = some m.2) → nodes.length < turns →
    index + nodes.length < 2 ^ 31 →
    findNode entries payload turns head index =
      .ok (if payload ∈ nodes.map Prod.snd then
        ((index + (nodes.map Prod.snd).idxOf payload : Nat) : Int) else -1) := by
  induction nodes with
  | nil =>
    intro before head turns index linked _ enough _
    cases turns with
    | zero => contradiction
    | succ turns =>
      rw [linked.head_nil.1]
      rfl
  | cons m nodes inductionHypothesis =>
    intro before head turns index linked stored enough small
    rw [List.length_cons] at enough small
    cases turns with
    | zero => contradiction
    | succ turns =>
      obtain ⟨here, _, rest⟩ := linked.uncons
      cases here
      rw [findNode, fetch_eq (stored m List.mem_cons_self)]
      simp only [bind, Except.bind, List.map_cons]
      by_cases found : m.2 = payload
      · rw [if_pos found, if_pos (by simp [found]), List.idxOf_cons_eq _ found, Nat.add_zero,
          i32_of_small (by omega)]
      · have later := @inductionHypothesis _ _ turns (index + 1) rest
          (fun m' member => stored m' (List.mem_cons_of_mem _ member))
          (Nat.lt_of_succ_lt_succ enough) (by omega)
        rw [if_neg found, u32_of_lt (by omega), later, List.idxOf_cons_ne _ found]
        simp only [List.mem_cons, Ne.symm found, false_or]
        congr 2
        omega

/-! ## Adding an entry -/

/-- A new entry in the memory has no links, and neither has memory that is not allocated. -/
theorem update_new (fresh : entries node = none) (payload : Nat) :
    let entries' := update entries node (some ⟨none, none, payload⟩)
    (∀ y, nextOf entries' y = nextOf entries y) ∧ (∀ y, prevOf entries' y = prevOf entries y) ∧
      payloadOf entries' node = some payload ∧
      ∀ y, y ≠ node → payloadOf entries' y = payloadOf entries y := by
  have fields := update_fields entries node ⟨none, none, payload⟩
  refine ⟨?_, ?_, ?_, ?_⟩
  · intro y
    rw [(fields y).1]
    split
    case isTrue same => rw [← same, nextOf, fresh]; rfl
    case isFalse other => rfl
  · intro y
    rw [(fields y).2.1]
    split
    case isTrue same => rw [← same, prevOf, fresh]; rfl
    case isFalse other => rfl
  · rw [(fields node).2.2, if_pos rfl]
  · intro y other
    rw [(fields y).2.2, if_neg (Ne.symm other)]

theorem Fresh.unused (fresh : Fresh entries node) : entries node = none := by
  by_contra used
  exact not_apart_self node (fresh.apart node used)

theorem Holds.apart_of_fresh (holds : Holds s nodes) (fresh : Fresh s.entries node) :
    ∀ m ∈ nodes, Apart m.1 node := by
  intro m member
  apply fresh.apart
  intro unused
  have stored := holds.stored m member
  rw [payloadOf, unused] at stored
  cases stored

/-- Where the new entry is stored and linked, the list holds one entry more. -/
theorem Holds.concat (holds : Holds s nodes) (fresh : Fresh s.entries node)
    (linked : ∃ last, Segment (prevOf t.entries) (nextOf t.entries) none t.list.rootNode
      ((nodes ++ [(node, payload)]).map Prod.fst) last none)
    (there : payloadOf t.entries node = some payload)
    (others : ∀ y, y ≠ node → payloadOf t.entries y = payloadOf s.entries y)
    (count : t.list.nodeCount = nodes.length + 1) :
    Holds t (nodes ++ [(node, payload)]) where
  linked := linked
  stored := by
    intro m member
    cases List.mem_append.mp member with
    | inl old =>
      have other : m.1 ≠ node := fun same =>
        not_apart_self node (same ▸ holds.apart_of_fresh fresh m old)
      rw [others m.1 other, holds.stored m old]
    | inr new =>
      rw [List.mem_singleton.mp new, there]
  count := by rw [count, List.length_append, List.length_singleton]
  apart := by
    rw [List.map_append, List.pairwise_append]
    refine ⟨holds.apart, List.pairwise_singleton _ _, ?_⟩
    intro a old b new
    obtain ⟨m, member, rfl⟩ := List.mem_map.mp old
    rw [List.mem_singleton.mp new]
    exact holds.apart_of_fresh fresh m member
  placed := by
    intro m member
    cases List.mem_append.mp member with
    | inl old => exact holds.placed m old
    | inr new =>
      rw [List.mem_singleton.mp new]
      exact ⟨fresh.notNull, fresh.inMemory⟩

theorem Holds.counted (holds : Holds s nodes) :
    u32 (s.list.nodeCount + 1) = nodes.length + 1 := by
  have few := holds.length_le
  simp only [addresses, entrySize] at few
  rw [holds.count, u32_of_lt (by omega)]

/-- A list has a root where it has an entry. -/
theorem Holds.root (holds : Holds s (front ++ n :: back)) :
    ∃ root, s.list.rootNode = some root := by
  obtain ⟨last, linked⟩ := holds.linked
  cases front with
  | nil => exact ⟨_, linked.uncons.1⟩
  | cons m front => exact ⟨_, linked.uncons.1⟩

/-- The first entry of a list becomes its root. -/
theorem dlistAdd_first (holds : Holds s []) (fresh : Fresh s.entries node) (payload : Nat) :
    ∃ t, dlistAdd (some node) payload s = .ok (1, t) ∧ Holds t [(node, payload)] := by
  obtain ⟨nexts, prevs, there, others⟩ := update_new fresh.unused payload
  obtain ⟨last, linked⟩ := holds.linked
  have root := linked.head_nil.1
  have counted : u32 (s.list.nodeCount + 1) = 1 := holds.counted
  rw [dlistAdd, dlistEntryCreate]
  simp only [counted, root]
  refine ⟨_, rfl, holds.concat fresh ⟨some node, ?_⟩ there others rfl⟩
  apply Segment.cons
  · rw [prevs, prevOf, fresh.unused]
    rfl
  · rw [nexts, nextOf, fresh.unused]
    exact .nil _ _

/-- Another entry is linked behind the last one. -/
theorem dlistAdd_behind (holds : Holds s (front ++ [n])) (fresh : Fresh s.entries node)
    (payload : Nat) :
    ∃ t, dlistAdd (some node) payload s = .ok ((front ++ [n]).length + 1, t) ∧
      Holds t (front ++ [n] ++ [(node, payload)]) := by
  obtain ⟨nexts, prevs, there, others⟩ := update_new fresh.unused payload
  obtain ⟨last, linked⟩ := holds.linked
  obtain ⟨root, rootNode⟩ := holds.root
  have apart := holds.apart_of_fresh fresh
  have distinct : ∀ m ∈ front ++ [n], m.1 ≠ node := fun m member same =>
    not_apart_self node (same ▸ apart m member)
  -- the last entry is found in the memory that has the new one
  have stored : ∀ m ∈ front ++ [n],
      payloadOf (update s.entries node (some ⟨none, none, payload⟩)) m.1 = some m.2 := by
    intro m member
    rw [others m.1 (distinct m member), holds.stored m member]
  have linked' := linked.congr (fun y _ => prevs y) fun y _ => nexts y
  rw [rootNode] at linked'
  have few := holds.length_le
  rw [List.length_append, List.length_singleton] at few
  simp only [addresses, entrySize] at few
  have found := @lastNode_eq _ n last front none root addresses linked' stored (by
    simp only [addresses]
    omega)
  obtain ⟨entries₁, set₁, nexts₁, prevs₁, payloads₁⟩ :=
    setNext_eq (stored n (by simp)) (some node)
  have there₁ := (payloads₁ node).trans there
  obtain ⟨entries₂, set₂, prevs₂, nexts₂, payloads₂⟩ := setPrev_eq there₁ (some n.1)
  have others₂ : ∀ y, y ≠ node → payloadOf entries₂ y = payloadOf s.entries y := by
    intro y other
    rw [payloads₂, payloads₁, others y other]
  rw [dlistAdd, dlistEntryCreate]
  simp only [holds.counted, rootNode, found, set₁, set₂, bind, Except.bind]
  refine ⟨_, rfl, holds.concat fresh ⟨some node, ?_⟩ ((payloads₂ node).trans there₁) others₂ rfl⟩
  have nodup := holds.nodup
  simp only [List.map_append, List.map_cons, List.map_nil] at linked' nodup ⊢
  apply linked'.link_new
  · intro y member
    obtain ⟨m, old, rfl⟩ : ∃ m ∈ front ++ [n], m.1 = y :=
      List.mem_map.mp (by rw [List.map_append]; exact member)
    rw [prevs₂, if_neg (Ne.symm (distinct m old)), prevs₁]
  · intro y member
    have other : n.1 ≠ y := fun same =>
      (List.nodup_append.mp nodup).2.2 y member n.1 (by simp) same.symm
    rw [nexts₂, nexts₁, if_neg other]
  · rw [nexts₂, nexts₁, if_pos rfl]
  · rw [prevs₂, if_pos rfl]
  · rw [nexts₂, nexts₁, if_neg (distinct n (by simp)), nexts, nextOf, fresh.unused]
    rfl

theorem dlistAdd_eq (holds : Holds s nodes) (fresh : Fresh s.entries node) (payload : Nat) :
    ∃ t, dlistAdd (some node) payload s = .ok (nodes.length + 1, t) ∧
      Holds t (nodes ++ [(node, payload)]) := by
  cases List.eq_nil_or_concat nodes with
  | inl empty =>
    subst empty
    exact dlistAdd_first holds fresh payload
  | inr more =>
    obtain ⟨front, n, split⟩ := more
    rw [List.concat_eq_append] at split
    subst split
    exact dlistAdd_behind holds fresh payload

/-! ## Taking an entry out -/

/-- What a list holds is found at its place. -/
theorem exists_split {m : Nat × Nat} (inside : nodes[index]? = some m) :
    ∃ front back, nodes = front ++ m :: back ∧ front.length = index := by
  obtain ⟨small, rfl⟩ := List.getElem?_eq_some_iff.mp inside
  refine ⟨nodes.take index, nodes.drop (index + 1), ?_, ?_⟩
  · rw [← List.drop_eq_getElem_cons small, List.take_append_drop]
  · rw [List.length_take, Nat.min_eq_left (Nat.le_of_lt small)]

theorem dlistGetAt_eq (holds : Holds s nodes) (index : Nat) :
    dlistGetAt index s = .ok ((nodes.map Prod.snd)[index]?.getD 0) := by
  rw [dlistGetAt, holds.count, List.getElem?_map]
  cases there : nodes[index]? with
  | none =>
    rw [if_pos (List.getElem?_eq_none_iff.mp there)]
    rfl
  | some n =>
    have small := (List.getElem?_eq_some_iff.mp there).1
    obtain ⟨front, back, rfl, rfl⟩ := exists_split there
    obtain ⟨root, rootNode⟩ := holds.root
    obtain ⟨last, linked⟩ := holds.linked
    rw [rootNode] at linked
    rw [if_neg (by omega), rootNode]
    simp only [nodeAt_eq front linked holds.stored, fetch_eq (holds.stored n (by simp)), bind,
      Except.bind]
    rfl

/-- Without the entry the list holds the others. -/
theorem Holds.erase (holds : Holds s (front ++ n :: back))
    (linked : ∃ last, Segment (prevOf t.entries) (nextOf t.entries) none t.list.rootNode
      ((front ++ back).map Prod.fst) last none)
    (others : ∀ y, y ≠ n.1 → payloadOf t.entries y = payloadOf s.entries y)
    (count : t.list.nodeCount = front.length + back.length) :
    Holds t (front ++ back) where
  linked := linked
  stored := by
    intro m member
    have nodup := holds.nodup
    have kept : m ∈ front ++ n :: back := by
      cases List.mem_append.mp member with
      | inl before => exact List.mem_append_left _ before
      | inr behind => exact List.mem_append_right _ (List.mem_cons_of_mem _ behind)
    have other : m.1 ≠ n.1 := by
      intro same
      rw [List.map_append, List.map_cons, List.nodup_middle] at nodup
      apply (List.nodup_cons.mp nodup).1
      rw [← same, ← List.map_append]
      exact List.mem_map_of_mem member
    rw [others m.1 other, holds.stored m kept]
  count := by rw [count, List.length_append]
  apart := by
    have fewer : (front ++ back).Sublist (front ++ n :: back) :=
      (List.sublist_cons_self n back).append_left front
    exact List.Pairwise.sublist (fewer.map Prod.fst) holds.apart
  placed := by
    intro m member
    apply holds.placed
    cases List.mem_append.mp member with
    | inl before => exact List.mem_append_left _ before
    | inr behind => exact List.mem_append_right _ (List.mem_cons_of_mem _ behind)

theorem Holds.stored_of_mem (holds : Holds s nodes) {y : Nat} (member : y ∈ nodes.map Prod.fst) :
    ∃ payload, payloadOf s.entries y = some payload := by
  obtain ⟨m, there, rfl⟩ := List.mem_map.mp member
  exact ⟨m.2, holds.stored m there⟩

/-- The others are linked when the neighbours of an entry are linked to each other. -/
theorem Holds.unlinked (holds : Holds s (front ++ n :: back))
    (nexts : ∀ y, y ≠ n.1 → nextOf entries' y =
      if prevOf s.entries n.1 = some y then nextOf s.entries n.1 else nextOf s.entries y)
    (prevs : ∀ y, y ≠ n.1 → prevOf entries' y =
      if nextOf s.entries n.1 = some y then prevOf s.entries n.1 else prevOf s.entries y) :
    ∃ last, Segment (prevOf entries') (nextOf entries') none
      (if front.length = 0 then nextOf s.entries n.1 else s.list.rootNode)
      ((front ++ back).map Prod.fst) last none := by
  obtain ⟨last, linked⟩ := holds.linked
  have nodup := holds.nodup
  rw [List.map_append, List.map_cons] at linked nodup
  have kept : ∀ y ∈ front.map Prod.fst ++ back.map Prod.fst, y ≠ n.1 := by
    intro y member same
    rw [List.nodup_middle] at nodup
    exact (List.nodup_cons.mp nodup).1 (same ▸ member)
  obtain ⟨last', unlinked⟩ := linked.unlink nodup (fun y member => nexts y (kept y member))
    fun y member => prevs y (kept y member)
  rw [List.map_append]
  cases front with
  | nil => exact ⟨last', unlinked⟩
  | cons m front => exact ⟨last', unlinked⟩

/-- An entry is taken out of the list, and its payload is returned. -/
theorem dlistRemoveAt_eq (holds : Holds s (front ++ n :: back)) :
    ∃ t, dlistRemoveAt front.length s = .ok (n.2, t) ∧ Holds t (front ++ back) := by
  have few := holds.length_le
  have count := holds.count
  rw [List.length_append, List.length_cons] at few count
  simp only [addresses, entrySize] at few
  obtain ⟨root, rootNode⟩ := holds.root
  obtain ⟨last, linked⟩ := holds.linked
  have stored := holds.stored n (by simp)
  have found := nodeAt_eq front (by rw [← rootNode]; exact linked) holds.stored
  rw [List.map_append, List.map_cons] at linked
  -- the neighbours are entries of the list
  have storedPrev : ∀ y, prevOf s.entries n.1 = some y →
      ∃ payload, payloadOf s.entries y = some payload := by
    intro y here
    apply holds.stored_of_mem
    rw [List.map_append]
    exact List.mem_append_left _ (linked.prev_mem here)
  have storedNext : ∀ y, nextOf s.entries n.1 = some y →
      ∃ payload, payloadOf s.entries y = some payload := by
    intro y here
    apply holds.stored_of_mem
    rw [List.map_append]
    exact List.mem_append_right _ (List.mem_cons_of_mem _ (linked.next_mem here))
  obtain ⟨entries₁, set₁, nexts₁, prevs₁, payloads₁⟩ :=
    setNextOf_eq storedPrev (nextOf s.entries n.1)
  obtain ⟨entries₂, set₂, prevs₂, nexts₂, payloads₂⟩ :=
    setPrevOf_eq (fun y here => by rw [payloads₁]; exact storedNext y here) (prevOf s.entries n.1)
  have fetched₁ := fetch_eq ((payloads₁ n.1).trans stored)
  have fetched₂ := fetch_eq ((payloads₂ n.1).trans ((payloads₁ n.1).trans stored))
  rw [prevs₁, nexts₁, ite_self] at fetched₁
  rw [prevs₂, prevs₁, ite_self, nexts₂, nexts₁, ite_self] at fetched₂
  rw [dlistRemoveAt, if_neg (by omega), rootNode]
  simp only [found, fetch_eq stored, set₁, fetched₁, set₂, fetched₂, dlistEntryDestroy, bind,
    Except.bind]
  refine ⟨_, rfl, holds.erase ?_ ?_ ?_⟩
  · rw [← rootNode]
    dsimp only
    apply holds.unlinked
    · intro y other
      rw [nextOf, update_of_ne other]
      exact (nexts₂ y).trans (nexts₁ y)
    · intro y other
      rw [prevOf, update_of_ne other, ← prevs₁ y]
      exact prevs₂ y
  · intro y other
    simp only [payloadOf, update_of_ne other]
    exact (payloads₂ y).trans (payloads₁ y)
  · dsimp only
    rw [count, sub32_of_le (by omega) (by omega)]
    omega

theorem dlistRemoveAt_beyond (holds : Holds s nodes) (beyond : nodes.length ≤ index) :
    dlistRemoveAt index s = .ok (0, s) := by
  rw [dlistRemoveAt, holds.count, if_pos beyond]

theorem dlistFind_eq (holds : Holds s nodes) (payload : Nat) :
    dlistFind payload s = .ok (if payload ∈ nodes.map Prod.snd then
      (((nodes.map Prod.snd).idxOf payload : Nat) : Int) else -1) := by
  have few := holds.length_le
  simp only [addresses, entrySize] at few
  obtain ⟨last, linked⟩ := holds.linked
  have found := @findNode_eq _ payload _ nodes none s.list.rootNode addresses 0 linked
    holds.stored (by simp only [addresses]; omega) (by omega)
  rwa [Nat.zero_add] at found

/-! ## All calls -/

/-- A call answers what the sequence of payloads tells, and leaves a list of what the sequence
becomes. -/
theorem Represents.call {payloads : List Nat} {kmalloc : Option Nat} {call : DlistCall}
    (represents : Represents s payloads) (grants : Grants s.entries kmalloc call) :
    ∃ t, dlistCall kmalloc s call = .ok ((dlistSpec payloads call).1, t) ∧
      Represents t (dlistSpec payloads call).2 := by
  obtain ⟨nodes, holds, rfl⟩ := represents
  cases call with
  | add payload =>
    obtain ⟨node, rfl, fresh⟩ := grants payload rfl
    obtain ⟨t, added, holds'⟩ := dlistAdd_eq holds fresh payload
    exact ⟨t, by simp [dlistCall, added, bind, Except.bind, dlistSpec], _, holds',
      by simp [dlistSpec]⟩
  | getAt index =>
    exact ⟨s, by simp only [dlistCall, dlistGetAt_eq holds, bind, Except.bind, dlistSpec], nodes,
      holds, rfl⟩
  | removeAt index =>
    cases there : nodes[index]? with
    | none =>
      have beyond := List.getElem?_eq_none_iff.mp there
      refine ⟨s, ?_, nodes, holds, ?_⟩
      · simp [dlistCall, dlistRemoveAt_beyond holds beyond, bind, Except.bind, dlistSpec, there]
      · exact (List.eraseIdx_of_length_le (by simpa using beyond)).symm
    | some n =>
      obtain ⟨front, back, rfl, rfl⟩ := exists_split there
      obtain ⟨t, removed, holds'⟩ := dlistRemoveAt_eq holds
      refine ⟨t, ?_, _, holds', ?_⟩
      · simp [dlistCall, removed, bind, Except.bind, dlistSpec]
      · simp [dlistSpec, List.eraseIdx_append_of_length_le]
  | find payload =>
    exact ⟨s, by simp only [dlistCall, dlistFind_eq holds, bind, Except.bind, dlistSpec], nodes,
      holds, rfl⟩
  | getCount =>
    exact ⟨s, by simp only [dlistCall, dlistGetCount, dlistSpec, holds.count, List.length_map],
      nodes, holds, rfl⟩

theorem represents_create (entries : Entries) : Represents (dlistCreate entries) [] :=
  ⟨[], ⟨⟨none, .nil _ _⟩, by simp, rfl, .nil, by simp⟩, rfl⟩

end

/-- Whatever calls are made of a list, in whatever memory, it answers like the sequence of its
payloads, is linked in both directions with the root first, knows its length, and has an answer to
every further call. -/
theorem dlist_refines (entries : Entries) (calls : List (DlistCall × DlistAnswer))
    (s : DlistState) (run : Transition.Run DlistStep (dlistCreate entries) calls s) :
    ∃ payloads, Transition.Run (Transition.Answers dlistSpec) [] calls payloads ∧
      Represents s payloads ∧
      (∀ index, payloads.length ≤ index → dlistRemoveAt index s = .ok (0, s)) ∧
      ∀ kmalloc call, Grants s.entries kmalloc call →
        ∃ answer t, dlistCall kmalloc s call = .ok (answer, t) ∧ DlistStep s (call, answer) t := by
  have matched : ∀ s op t payloads, Represents s payloads → DlistStep s op t →
      ∃ payloads', Transition.Answers dlistSpec payloads op payloads' ∧
        Represents t payloads' := by
    intro s op t payloads represents taken
    obtain ⟨kmalloc, grants, returned⟩ := taken
    obtain ⟨t', answered, represents'⟩ := represents.call grants
    rw [answered] at returned
    obtain ⟨answer, rfl⟩ := eq_of_returned returned
    exact ⟨_, Prod.ext answer rfl, represents'⟩
  obtain ⟨payloads, abstract, represents⟩ :=
    run.simulate Represents matched (represents_create entries)
  refine ⟨payloads, abstract, represents, ?_, ?_⟩
  · intro index beyond
    obtain ⟨nodes, holds, rfl⟩ := represents
    exact dlistRemoveAt_beyond holds (by simpa using beyond)
  · intro kmalloc call grants
    obtain ⟨t, answered, _⟩ := represents.call grants
    exact ⟨_, t, answered, kmalloc, grants, answered⟩

/-- Two payloads, and the first of them taken out again. -/
theorem dlist_refines_two : ∃ s payloads,
    Transition.Run (Transition.Answers dlistSpec) []
      [(.add 7, .count 1), (.add 5, .count 2), (.removeAt 0, .payload 7)] payloads ∧
    Represents s payloads := by
  have first : Fresh (fun _ => none) 64 := ⟨by decide, by decide, fun a used => absurd rfl used⟩
  have second : Fresh (update (fun _ => none) 64 (some ⟨none, none, 7⟩)) 32 := by
    refine ⟨by decide, by decide, ?_⟩
    intro a used
    by_cases there : a = 64
    · exact .inr (by rw [there]; decide)
    · exact absurd (update_of_ne there _ _) used
  have noAllocation : ∀ entries index, Grants entries none (.removeAt index) := by
    intro entries index payload same
    cases same
  have run : ∃ s, Transition.Run DlistStep (dlistCreate fun _ => none)
      [(.add 7, .count 1), (.add 5, .count 2), (.removeAt 0, .payload 7)] s :=
    ⟨_, .cons ⟨some 64, fun _ _ => ⟨64, rfl, first⟩, rfl⟩ (.cons
      ⟨some 32, fun _ _ => ⟨32, rfl, second⟩, rfl⟩ (.cons
        ⟨none, noAllocation _ _, rfl⟩ (.nil _)))⟩
  obtain ⟨s, run⟩ := run
  obtain ⟨payloads, abstract, represents, _⟩ := dlist_refines (fun _ => none) _ s run
  exact ⟨s, payloads, abstract, represents⟩

end Antonix.Libc
