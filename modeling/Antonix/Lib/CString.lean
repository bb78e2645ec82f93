import Antonix.Lib.ByteMem

/-! # Strings in memory

A string is a run of characters that are not zero, and a zero behind them.  What is in
memory behind the zero is not part of it. -/

/-- The string `s` and its terminator are in memory from `a` on. -/
inductive CString (memory : ByteMem) : Nat → List (BitVec 8) → Prop
  | nil {a : Nat} (ends : memory a = 0) : CString memory a []
  | cons {a : Nat} {c : BitVec 8} {s : List (BitVec 8)} (here : memory a = c) (nonzero : c ≠ 0)
    (rest : CString memory (a + 1) s) : CString memory a (c :: s)

namespace CString

variable {memory memory' : ByteMem} {a : Nat} {c : BitVec 8} {s t : List (BitVec 8)}

theorem ends (text : CString memory a []) : memory a = 0 := by
  cases text with
  | nil ends => exact ends

theorem uncons (text : CString memory a (c :: s)) :
    memory a = c ∧ c ≠ 0 ∧ CString memory (a + 1) s := by
  cases text with
  | cons here nonzero rest => exact ⟨here, nonzero, rest⟩

/-- Memory holds one string at an address. -/
theorem unique (text : CString memory a s) (other : CString memory a t) : s = t := by
  induction text generalizing t with
  | nil ends =>
    cases other with
    | nil => rfl
    | cons here nonzero rest => exact absurd (here.symm.trans ends) nonzero
  | cons here nonzero rest inductionHypothesis =>
    cases other with
    | nil ends => exact absurd (here.symm.trans ends) nonzero
    | cons here' nonzero' rest' =>
      rw [← here, ← here', inductionHypothesis rest']

theorem zero_not_mem (text : CString memory a s) : 0 ∉ s := by
  induction text with
  | nil ends => exact List.not_mem_nil
  | cons here nonzero rest inductionHypothesis =>
    intro member
    cases List.mem_cons.mp member with
    | inl first => exact nonzero first.symm
    | inr later => exact inductionHypothesis later

end CString
