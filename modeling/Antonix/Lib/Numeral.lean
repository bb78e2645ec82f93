import Mathlib.Data.Nat.Digits.Defs
import Mathlib.Data.Nat.Digits.Lemmas
import Mathlib.Tactic.Ring

/-! # Numerals

The numeral of a number lists its digits with the highest first; zero has one digit.
Beside it are two loops that programs print with: taking the digits off at the low end,
with the division of C, and building the number whose digits are reversed. -/

namespace Numeral

open Nat (ofDigits)

variable {b : Nat}

/-- The digits of `n`, the highest first. -/
def digits (b n : Nat) : List Nat := if n = 0 then [0] else (Nat.digits b n).reverse

/-- The number that digits stand for, the highest first. -/
def value (b : Nat) (ds : List Nat) : Nat := ds.foldl (fun v d => b * v + d) 0

/-- The number whose digits are those of `n` in the other order. -/
def reversal (b n : Nat) : Nat := value b (Nat.digits b n)

theorem foldl_eq (v : Nat) (ds : List Nat) :
    ds.foldl (fun v d => b * v + d) v = ofDigits b ds.reverse + b ^ ds.length * v := by
  induction ds generalizing v with
  | nil => simp
  | cons d ds inductionHypothesis =>
    rw [List.foldl_cons, inductionHypothesis, List.reverse_cons, Nat.ofDigits_append,
      Nat.ofDigits_singleton, List.length_reverse, List.length_cons, Nat.pow_succ]
    ring

theorem value_eq (ds : List Nat) : value b ds = ofDigits b ds.reverse := by
  rw [value, foldl_eq, Nat.mul_zero, Nat.add_zero]

@[simp] theorem value_digits (n : Nat) : value b (digits b n) = n := by
  unfold digits
  split
  case isTrue zero => simp [value, zero]
  case isFalse positive => rw [value_eq, List.reverse_reverse, Nat.ofDigits_digits]

theorem digits_of_pos {n : Nat} (positive : n ≠ 0) : digits b n = (Nat.digits b n).reverse :=
  if_neg positive

theorem digits_of_lt {n : Nat} (small : n < b) : digits b n = [n] := by
  by_cases zero : n = 0
  · rw [digits, if_pos zero, zero]
  · rw [digits_of_pos zero, Nat.digits_of_lt b n zero small, List.reverse_singleton]

/-- The last digit stands behind those of the quotient. -/
theorem digits_of_le {n : Nat} (base : 1 < b) (large : b ≤ n) :
    digits b n = digits b (n / b) ++ [n % b] := by
  have quotient : n / b ≠ 0 := Nat.ne_of_gt (Nat.div_pos large (by omega))
  rw [digits_of_pos (by omega), digits_of_pos quotient, Nat.digits_def' base (by omega),
    List.reverse_cons]

theorem lt_of_mem_digits {n d : Nat} (base : 1 < b) (member : d ∈ digits b n) : d < b := by
  unfold digits at member
  split at member
  case isTrue zero =>
    rw [List.mem_singleton.mp member]
    exact Nat.lt_of_succ_lt base
  case isFalse positive => exact Nat.digits_lt_base base (List.mem_reverse.mp member)

/-! ## Taking digits off -/

/-- The low digits of `r`, the lowest first, as `%` and `/` of C give them. -/
def peel (b : Int) : Nat → Int → List Int
  | 0, _ => []
  | count + 1, r => r.tmod b :: peel b count (r.tdiv b)

theorem length_peel (b : Int) (count : Nat) (r : Int) : (peel b count r).length = count := by
  induction count generalizing r with
  | zero => rfl
  | succ count inductionHypothesis => simp [peel, inductionHypothesis]

/-- The number that low digits, positive or negative, stand for. -/
def weigh (b : Int) : List Int → Int
  | [] => 0
  | d :: ds => d + b * weigh b ds

theorem weigh_natCast (ds : List Nat) : weigh b (ds.map Nat.cast) = ofDigits b ds := by
  induction ds with
  | nil => rfl
  | cons d ds inductionHypothesis =>
    rw [List.map_cons, weigh, inductionHypothesis, Nat.ofDigits_cons]
    push_cast
    rfl

/-- Nothing is left when as many digits are taken off as the number has. -/
theorem weigh_peel {count : Nat} {r : Int} (fits : r.natAbs < b ^ count) :
    weigh b (peel b count r) = r := by
  induction count generalizing r with
  | zero =>
    rw [Nat.pow_zero] at fits
    have zero : r = 0 := by omega
    rw [zero]
    rfl
  | succ count inductionHypothesis =>
    have smaller : (r.tdiv b).natAbs < b ^ count := by
      rw [Int.natAbs_tdiv, Int.natAbs_natCast]
      exact Nat.div_lt_of_lt_mul (by rwa [Nat.pow_succ, Nat.mul_comm] at fits)
    rw [peel, weigh, inductionHypothesis smaller, Int.tmod_add_mul_tdiv]

/-- Digits are the ones taken off exactly when they make up the number. -/
theorem peel_eq_iff {ds : List Nat} {r : Int} (base : 1 < b) (small : ∀ d ∈ ds, d < b)
    (fits : r.natAbs < b ^ ds.length) :
    peel b ds.length r = ds.map Nat.cast ↔ r = (ofDigits b ds : Nat) := by
  constructor
  · intro same
    rw [← weigh_natCast, ← same, weigh_peel fits]
  · rintro rfl
    clear fits
    induction ds with
    | nil => rfl
    | cons d ds inductionHypothesis =>
      have digit : d < b := small d List.mem_cons_self
      have value : ofDigits b (d :: ds) = d + b * ofDigits b ds := Nat.ofDigits_cons
      have low : ((ofDigits b (d :: ds) : Nat) : Int).tmod b = d := by
        rw [← Int.ofNat_tmod, value, Nat.add_mul_mod_self_left, Nat.mod_eq_of_lt digit]
      have rest : ((ofDigits b (d :: ds) : Nat) : Int).tdiv b = (ofDigits b ds : Nat) := by
        rw [← Int.ofNat_tdiv, value, Nat.add_mul_div_left _ _ (by omega), Nat.div_eq_of_lt digit,
          Nat.zero_add]
      rw [List.length_cons, peel, low, rest, List.map_cons,
        inductionHypothesis fun e member => small e (List.mem_cons_of_mem d member)]

/-! ## Reversal -/

theorem reversal_eq (n : Nat) : reversal b n = ofDigits b (Nat.digits b n).reverse := value_eq _

/-- A reversal has no more digits than the number. -/
theorem reversal_lt (base : 1 < b) (n : Nat) : reversal b n < b ^ (Nat.digits b n).length := by
  rw [reversal_eq, ← List.length_reverse]
  apply Nat.ofDigits_lt_base_pow_length base
  intro d member
  exact Nat.digits_lt_base base (List.mem_reverse.mp member)

end Numeral
