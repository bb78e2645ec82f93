import Mathlib.Algebra.BigOperators.Fin
import Mathlib.Logic.Function.Basic

/-! # Tables of handles

A table maps the handles below a limit to what they are open on.  A reference count is
right when it is the number of handles that are open on its object; a handle is opened
and closed by a change of one entry. -/

namespace HandleTable

open Function

variable {β : Type*} [DecidableEq β] {limit h : Nat} {table : Nat → Option β} {entry : Option β}
  {b : β}

/-- How many handles are open on an object. -/
def uses (limit : Nat) (table : Nat → Option β) (b : β) : Nat :=
  ((Finset.range limit).filter fun h => table h = some b).card

theorem uses_eq_sum (limit : Nat) (table : Nat → Option β) (b : β) :
    uses limit table b = ∑ h ∈ Finset.range limit, if table h = some b then 1 else 0 := by
  rw [uses, Finset.card_filter]

/-- One entry changes, and with it the counts of its old and its new object. -/
theorem uses_update (table : Nat → Option β) (below : h < limit) (entry : Option β) (b : β) :
    uses limit (update table h entry) b + (if table h = some b then 1 else 0) =
      uses limit table b + if entry = some b then 1 else 0 := by
  have member : h ∈ Finset.range limit := Finset.mem_range.mpr below
  have others : ∑ i ∈ (Finset.range limit).erase h,
        (if update table h entry i = some b then 1 else 0) =
      ∑ i ∈ (Finset.range limit).erase h, if table i = some b then 1 else 0 := by
    apply Finset.sum_congr rfl
    intro i other
    rw [update_of_ne (Finset.ne_of_mem_erase other)]
  rw [uses_eq_sum, uses_eq_sum, ← Finset.add_sum_erase _ _ member,
    ← Finset.add_sum_erase _ (fun i => if table i = some b then 1 else 0) member, others,
    update_self]
  omega

/-- Opening a handle that was not open is one use more. -/
theorem uses_open (below : h < limit) (free : table h = none) (b' : β) :
    uses limit (update table h (some b')) b = uses limit table b + if b' = b then 1 else 0 := by
  have changed := uses_update table below (some b') b
  simpa [free] using changed

/-- Closing a handle is one use less. -/
theorem uses_close {b' : β} (below : h < limit) (taken : table h = some b') :
    uses limit (update table h none) b + (if b' = b then 1 else 0) = uses limit table b := by
  have changed := uses_update table below none b
  simpa [taken] using changed

theorem uses_eq_zero (unused : ∀ h, table h ≠ some b) : uses limit table b = 0 := by
  simp [uses, unused]

/-- A handle that is never open leaves room for one more use. -/
theorem uses_lt (b : β) (below : h < limit) (never : table h = none) : uses limit table b < limit := by
  have inside : (Finset.range limit).filter (fun i => table i = some b) ⊂ Finset.range limit := by
    apply Finset.filter_ssubset.mpr
    exact ⟨h, by simp [below], by simp [never]⟩
  simpa [uses] using Finset.card_lt_card inside

end HandleTable
