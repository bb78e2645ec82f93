import Mathlib.Data.List.Nodup

/-! # Doubly linked lists

Every element of a doubly linked list stores a link to the next and one to the previous element.
A segment of such a list is known by what is around it: the element before its first and the
element behind its last, and how it is entered from either side.

A change of a list is local to a seam between two segments: a segment keeps its links, except
those at its ends, which are led to what is there now. -/

namespace DoublyLinked

variable {α : Type*}

/-- The links lead from `head` through the elements of the list to `behind`, and from `last`
through them to `before`. -/
inductive Segment (prev next : α → Option α) :
    Option α → Option α → List α → Option α → Option α → Prop
  | nil (before behind : Option α) : Segment prev next before behind [] before behind
  | cons {before last behind : Option α} {a : α} {l : List α} (back : prev a = before)
    (rest : Segment prev next (some a) (next a) l last behind) :
    Segment prev next before (some a) (a :: l) last behind

namespace Segment

variable {prev next prev' next' : α → Option α} {before head last behind : Option α}
  {l front back : List α} {a x : α}

theorem head_nil (segment : Segment prev next before head [] last behind) :
    head = behind ∧ last = before := by
  cases segment with
  | nil => exact ⟨rfl, rfl⟩

theorem uncons (segment : Segment prev next before head (a :: l) last behind) :
    head = some a ∧ prev a = before ∧ Segment prev next (some a) (next a) l last behind := by
  cases segment with
  | cons back rest => exact ⟨rfl, back, rest⟩

/-- Two segments with a seam between them are one. -/
theorem append {mid seam : Option α} (first : Segment prev next before head front mid seam)
    (second : Segment prev next mid seam back last behind) :
    Segment prev next before head (front ++ back) last behind := by
  induction first with
  | nil => exact second
  | cons back rest inductionHypothesis => exact .cons back (inductionHypothesis second)

/-- A segment may be cut anywhere. -/
theorem split (segment : Segment prev next before head (front ++ back) last behind) :
    ∃ mid seam, Segment prev next before head front mid seam ∧
      Segment prev next mid seam back last behind := by
  induction front generalizing before head with
  | nil => exact ⟨before, head, .nil before head, segment⟩
  | cons a front inductionHypothesis =>
    obtain ⟨rfl, link, rest⟩ := segment.uncons
    obtain ⟨mid, seam, first, second⟩ := inductionHypothesis rest
    exact ⟨mid, seam, .cons link first, second⟩

/-- The links of the elements are all that counts. -/
theorem congr (segment : Segment prev next before head l last behind)
    (prevs : ∀ x ∈ l, prev' x = prev x) (nexts : ∀ x ∈ l, next' x = next x) :
    Segment prev' next' before head l last behind := by
  induction segment with
  | nil => exact .nil _ _
  | @cons before last behind a l back rest inductionHypothesis =>
    have later := inductionHypothesis (fun x member => prevs x (List.mem_cons_of_mem _ member))
      fun x member => nexts x (List.mem_cons_of_mem _ member)
    rw [← nexts a List.mem_cons_self] at later
    exact .cons ((prevs a List.mem_cons_self).trans back) later

theorem last_concat (segment : Segment prev next before head (front ++ [x]) last behind) :
    last = some x ∧ next x = behind := by
  obtain ⟨mid, seam, _, second⟩ := segment.split
  obtain ⟨ends, back⟩ := second.uncons.2.2.head_nil
  exact ⟨back, ends⟩

/-! ## Leading an end elsewhere -/

/-- The last link of a segment is led to another element. -/
theorem lead {behind' : Option α}
    (segment : Segment prev next before head (front ++ [x]) last behind)
    (prevs : ∀ y ∈ front ++ [x], prev' y = prev y) (nexts : ∀ y ∈ front, next' y = next y)
    (led : next' x = behind') :
    Segment prev' next' before head (front ++ [x]) last behind' := by
  obtain ⟨mid, seam, first, second⟩ := segment.split
  obtain ⟨rfl, link, rest⟩ := second.uncons
  obtain ⟨_, rfl⟩ := rest.head_nil
  have kept : Segment prev' next' before head front mid (some x) :=
    first.congr (fun y member => prevs y (List.mem_append_left _ member)) nexts
  have link' : prev' x = mid := by rw [prevs x (by simp), link]
  apply kept.append
  apply Segment.cons link'
  rw [led]
  exact .nil _ _

/-- The first link back is led to another element. -/
theorem hang {before' : Option α} (segment : Segment prev next before head (x :: l) last behind)
    (led : prev' x = before') (prevs : ∀ y ∈ l, prev' y = prev y)
    (nexts : ∀ y ∈ x :: l, next' y = next y) :
    Segment prev' next' before' head (x :: l) last behind := by
  obtain ⟨rfl, _, rest⟩ := segment.uncons
  have kept := rest.congr prevs fun y member => nexts y (List.mem_cons_of_mem _ member)
  rw [← nexts x List.mem_cons_self] at kept
  exact .cons led kept

/-- The way out of a segment is led elsewhere, whether it has a last element or not. -/
theorem lead_out [DecidableEq α] {behind' : Option α}
    (segment : Segment prev next none head l last behind) (nodup : l.Nodup)
    (prevs : ∀ y ∈ l, prev' y = prev y)
    (nexts : ∀ y ∈ l, next' y = if last = some y then behind' else next y) :
    Segment prev' next' none (if l = [] then behind' else head) l last behind' := by
  cases List.eq_nil_or_concat l with
  | inl empty =>
    subst empty
    rw [segment.head_nil.2, if_pos rfl]
    exact .nil _ _
  | inr more =>
    obtain ⟨front, x, rfl⟩ := more
    rw [List.concat_eq_append] at *
    have here := segment.last_concat.1
    rw [if_neg (by simp)]
    apply segment.lead prevs
    · intro y member
      have other : x ≠ y := by
        intro same
        exact (List.nodup_append.mp nodup).2.2 y member x (List.mem_singleton_self x) same.symm
      rw [nexts y (by simp [member]), if_neg (by simpa [here] using other)]
    · rw [nexts x (by simp), if_pos here]

/-- The way back out of a segment is led elsewhere, whether it has a first element or not. -/
theorem lead_back [DecidableEq α] {before' : Option α}
    (segment : Segment prev next before head l last none) (nodup : l.Nodup)
    (nexts : ∀ y ∈ l, next' y = next y)
    (prevs : ∀ y ∈ l, prev' y = if head = some y then before' else prev y) :
    ∃ last', Segment prev' next' before' head l last' none := by
  cases l with
  | nil =>
    rw [segment.head_nil.1]
    exact ⟨before', .nil _ _⟩
  | cons x l =>
    have here := segment.uncons.1
    refine ⟨last, segment.hang ?_ ?_ nexts⟩
    · rw [prevs x List.mem_cons_self, if_pos here]
    · intro y member
      have other : x ≠ y := by
        rintro rfl
        exact (List.nodup_cons.mp nodup).1 member
      rw [prevs y (List.mem_cons_of_mem _ member), if_neg (by simpa [here] using other)]

/-! ## Whole lists -/

/-- A new element is linked behind the last one. -/
theorem link_new (segment : Segment prev next before head (front ++ [x]) last none)
    (prevs : ∀ y ∈ front ++ [x], prev' y = prev y) (nexts : ∀ y ∈ front, next' y = next y)
    (there : next' x = some a) (back : prev' a = some x) (ends : next' a = none) :
    Segment prev' next' before head (front ++ [x] ++ [a]) (some a) none := by
  obtain ⟨rfl, _⟩ := segment.last_concat
  apply (segment.lead prevs nexts there).append
  apply Segment.cons back
  rw [ends]
  exact .nil _ _

/-- The link back of an element leads to one of those before it. -/
theorem prev_mem (segment : Segment prev next none head (front ++ a :: back) last behind)
    (here : prev a = some x) : x ∈ front := by
  obtain ⟨mid, seam, first, second⟩ := segment.split
  obtain ⟨rfl, link, _⟩ := second.uncons
  rw [link] at here
  cases List.eq_nil_or_concat front with
  | inl empty =>
    rw [empty] at first
    rw [first.head_nil.2] at here
    cases here
  | inr more =>
    obtain ⟨front, y, rfl⟩ := more
    rw [List.concat_eq_append] at first ⊢
    rw [first.last_concat.1] at here
    cases here
    simp

/-- The link of an element leads to one of those behind it. -/
theorem next_mem (segment : Segment prev next before head (front ++ a :: back) last none)
    (here : next a = some x) : x ∈ back := by
  obtain ⟨mid, seam, _, second⟩ := segment.split
  obtain ⟨_, _, rest⟩ := second.uncons
  rw [here] at rest
  cases back with
  | nil => cases rest.head_nil.1
  | cons y back =>
    cases rest.uncons.1
    exact List.mem_cons_self

/-- An element is taken out: its neighbours are linked to each other, and nothing else is. -/
theorem unlink [DecidableEq α] (segment : Segment prev next none head (front ++ a :: back) last none)
    (nodup : (front ++ a :: back).Nodup)
    (nexts : ∀ y ∈ front ++ back, next' y = if prev a = some y then next a else next y)
    (prevs : ∀ y ∈ front ++ back, prev' y = if next a = some y then prev a else prev y) :
    ∃ last', Segment prev' next' none (if front = [] then next a else head) (front ++ back) last'
      none := by
  have before : ∀ y, prev a = some y → y ∈ front := fun y => segment.prev_mem
  have behind : ∀ y, next a = some y → y ∈ back := fun y => segment.next_mem
  obtain ⟨mid, seam, first, second⟩ := segment.split
  obtain ⟨rfl, link, rest⟩ := second.uncons
  obtain ⟨distinctFront, distinctBack, apart⟩ := List.nodup_append.mp nodup
  -- what is behind the element is not linked back to from before it, nor the other way
  have prevs' : ∀ y ∈ front, prev' y = prev y := by
    intro y member
    rw [prevs y (List.mem_append_left _ member), if_neg]
    intro here
    exact apart y member y (List.mem_cons_of_mem _ (behind y here)) rfl
  have nexts' : ∀ y ∈ back, next' y = next y := by
    intro y member
    rw [nexts y (List.mem_append_right _ member), if_neg]
    intro here
    exact apart y (before y here) y (List.mem_cons_of_mem _ member) rfl
  rw [link] at nexts prevs
  have first' := first.lead_out distinctFront prevs'
    fun y member => nexts y (List.mem_append_left _ member)
  obtain ⟨last', second'⟩ := rest.lead_back (List.nodup_cons.mp distinctBack).2 nexts'
    fun y member => prevs y (List.mem_append_right _ member)
  exact ⟨last', first'.append second'⟩

end Segment

end DoublyLinked
