import Mathlib.Algebra.Group.Nat.Defs
import Mathlib.Data.List.Nodup
import Mathlib.Logic.Function.Basic

/-! # Lists linked through their elements

An intrusive list stores the link to its next element in the element itself, so
one map `next` holds every list there is, and an element can be in one of them
only.  `Chain next head l` says that the links lead from `head` through the
elements of `l` to the end.

An element is added by writing two links: that of the last element, and its own.
`link` describes these writes whatever the element is: one that is new is
appended, the last element itself stays where it is, and one that is already
further up cuts off everything behind it. -/

namespace Chains

open Function

variable {α : Type*}

/-- The links lead through the elements of the list, in order, to the end. -/
inductive Chain (next : α → Option α) : Option α → List α → Prop
  | nil : Chain next none []
  | cons {a : α} {l : List α} : Chain next (next a) l → Chain next (some a) (a :: l)

/-- Link an element behind the last one. -/
def link [DecidableEq α] (next : α → Option α) (last a : α) : α → Option α :=
  update (update next last (some a)) a none

section

variable {next next' : α → Option α} {head : Option α} {l front back : List α} {a last : α}

theorem Chain.head_nil (chain : Chain next head []) : head = none := by
  cases chain with
  | nil => rfl

theorem Chain.head_cons (chain : Chain next head (a :: l)) :
    head = some a ∧ Chain next (next a) l := by
  cases chain with
  | cons tail => exact ⟨rfl, tail⟩

theorem Chain.unique {l' : List α} (chain : Chain next head l) (other : Chain next head l') :
    l = l' := by
  induction chain generalizing l' with
  | nil =>
    cases other with
    | nil => rfl
  | cons _ inductionHypothesis =>
    cases other with
    | cons rest => rw [inductionHypothesis rest]

/-- Two chains through the same elements have the same links there. -/
theorem Chain.links_eq {head' : Option α} (chain : Chain next head l)
    (other : Chain next' head' l) : head' = head ∧ ∀ x ∈ l, next' x = next x := by
  induction chain generalizing head' with
  | nil =>
    cases other with
    | nil => exact ⟨rfl, fun x member => by contradiction⟩
  | cons _ inductionHypothesis =>
    cases other with
    | cons rest =>
      obtain ⟨first, later⟩ := inductionHypothesis rest
      exact ⟨rfl, List.forall_mem_cons.mpr ⟨first, later⟩⟩

theorem Chain.congr (chain : Chain next head l) (same : ∀ x ∈ l, next' x = next x) :
    Chain next' head l := by
  induction chain with
  | nil => exact .nil
  | @cons a l _ inductionHypothesis =>
    apply Chain.cons
    rw [same a List.mem_cons_self]
    exact inductionHypothesis fun x member => same x (List.mem_cons_of_mem _ member)

/-- Behind one of its elements a chain may be led elsewhere. -/
theorem Chain.graft {rest : List α} (chain : Chain next head (front ++ a :: back))
    (same : ∀ x ∈ front, next' x = next x) (led : Chain next' (next' a) rest) :
    Chain next' head (front ++ a :: rest) := by
  induction front generalizing head with
  | nil =>
    cases chain with
    | cons _ => exact .cons led
  | cons first front inductionHypothesis =>
    cases chain with
    | cons tail =>
      apply Chain.cons
      rw [same first List.mem_cons_self]
      exact inductionHypothesis tail fun x member => same x (List.mem_cons_of_mem _ member)

theorem Chain.next_last (chain : Chain next head (front ++ [last])) : next last = none := by
  induction front generalizing head with
  | nil =>
    cases chain with
    | cons tail =>
      generalize next last = after at tail
      cases tail with
      | nil => rfl
  | cons first front inductionHypothesis =>
    cases chain with
    | cons tail => exact inductionHypothesis tail

/-! ## Linking -/

variable [DecidableEq α]

theorem link_self : link next last a a = none := update_self _ _ _

theorem link_last (differ : last ≠ a) : link next last a last = some a := by
  rw [link, update_of_ne differ, update_self]

theorem link_of_ne {x : α} (notLast : x ≠ last) (notA : x ≠ a) : link next last a x = next x := by
  rw [link, update_of_ne notA, update_of_ne notLast]

/-- A new element is appended. -/
theorem Chain.link_new (chain : Chain next head (front ++ [last])) (nodup : (front ++ [last]).Nodup)
    (new : a ∉ front ++ [last]) : Chain (link next last a) head (front ++ [last, a]) := by
  have notLast : last ≠ a := by
    rintro rfl
    simp at new
  refine chain.graft (fun x member => link_of_ne ?_ ?_) ?_
  · rintro rfl
    exact (List.nodup_append.mp nodup).2.2 x member x (List.mem_singleton_self x) rfl
  · rintro rfl
    exact new (List.mem_append_left _ member)
  · rw [link_last notLast]
    apply Chain.cons
    rw [link_self]
    exact .nil

/-- The last element keeps its place. -/
theorem Chain.link_same (chain : Chain next head (front ++ [last])) :
    link next last last = next := by
  rw [link, update_idem, ← chain.next_last, update_eq_self]

/-- An element further up becomes the last one. -/
theorem Chain.link_again (chain : Chain next head (front ++ a :: back ++ [last]))
    (nodup : (front ++ a :: back ++ [last]).Nodup) :
    Chain (link next last a) head (front ++ [a]) := by
  rw [List.append_assoc, List.cons_append] at chain nodup
  have apart := (List.nodup_append.mp nodup).2.2
  refine chain.graft (fun x member => link_of_ne ?_ ?_) ?_
  · exact apart x member last (by simp)
  · exact apart x member a (by simp)
  · rw [link_self]
    exact .nil

end

/-! ## Neighbours in a ring -/

/-- Reading the list as a ring, `b` comes right after `a`. -/
def Precedes (a b : α) (l : List α) : Prop :=
  (∃ front back, l = front ++ a :: b :: back) ∨ ∃ mid, l = b :: (mid ++ [a])

section

variable {a b first x : α} {l : List α}

/-- A ring may be read from any of its elements on. -/
theorem Precedes.rotate (precedes : Precedes a b (first :: l)) : Precedes a b (l ++ [first]) := by
  cases precedes with
  | inl inside =>
    obtain ⟨front, back, split⟩ := inside
    cases front with
    | nil =>
      obtain ⟨rfl, rfl⟩ := List.cons.inj split
      exact .inr ⟨back, rfl⟩
    | cons x front =>
      obtain ⟨rfl, rfl⟩ := List.cons.inj split
      exact .inl ⟨front, back ++ [first], by simp⟩
  | inr around =>
    obtain ⟨mid, split⟩ := around
    obtain ⟨rfl, rfl⟩ := List.cons.inj split
    exact .inl ⟨mid, [], by simp⟩

/-- An element that is added between the last and the first one separates no others. -/
theorem Precedes.concat (precedes : Precedes a b (first :: l)) (differ : b ≠ first) (x : α) :
    Precedes a b (first :: l ++ [x]) := by
  cases precedes with
  | inl inside =>
    obtain ⟨front, back, split⟩ := inside
    exact .inl ⟨front, back ++ [x], by simp [split]⟩
  | inr around =>
    obtain ⟨mid, split⟩ := around
    exact absurd (List.cons.inj split).1.symm differ

/-- Neighbours stay neighbours when another element leaves. -/
theorem Precedes.tail (precedes : Precedes a b (first :: l)) (notA : a ≠ first) (notB : b ≠ first) :
    Precedes a b l := by
  cases precedes with
  | inl inside =>
    obtain ⟨front, back, split⟩ := inside
    cases front with
    | nil => exact absurd (List.cons.inj split).1.symm notA
    | cons x front => exact .inl ⟨front, back, (List.cons.inj split).2⟩
  | inr around =>
    obtain ⟨mid, split⟩ := around
    exact absurd (List.cons.inj split).1.symm notB

/-- What precedes the first element of a ring is its last one. -/
theorem Precedes.last (precedes : Precedes a first (first :: l)) (nodup : (first :: l).Nodup) :
    ∃ mid, l = mid ++ [a] := by
  cases precedes with
  | inl inside =>
    obtain ⟨front, back, split⟩ := inside
    rw [split] at nodup
    cases front with
    | nil =>
      obtain ⟨rfl, -⟩ := List.cons.inj split
      simp at nodup
    | cons x front =>
      obtain ⟨rfl, -⟩ := List.cons.inj split
      simp at nodup
  | inr around =>
    obtain ⟨mid, split⟩ := around
    exact ⟨mid, (List.cons.inj split).2⟩

end

end Chains
