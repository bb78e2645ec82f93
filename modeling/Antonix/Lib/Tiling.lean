import Mathlib.Data.List.Pairwise
import Mathlib.Data.Set.Lattice
import Mathlib.Order.CompletePartialOrder
import Mathlib.Order.Interval.Set.Basic

/-! # Tilings of an address range

A list of tiles, each with a first address and a length, tiles `[a, c)` when the
first tile starts at `a`, every tile starts where the one before it ends and the
last ends at `c`.  Heaps that are walked from header to header are tilings;
splitting a block and merging neighbours replace a run of tiles by another run
over the same addresses. -/

/-- The tiles follow one another from the first address to the last, without a gap. -/
inductive Tiling {β : Type*} (start len : β → Nat) : Nat → List β → Nat → Prop
  | nil (a : Nat) : Tiling start len a [] a
  | cons {tile : β} {tiles : List β} {c : Nat} :
      Tiling start len (start tile + len tile) tiles c →
      Tiling start len (start tile) (tile :: tiles) c

namespace Tiling

variable {β : Type*} {start len : β → Nat} {a b c : Nat} {tiles front back : List β} {x y : β}

theorem append (left : Tiling start len a front b) (right : Tiling start len b back c) :
    Tiling start len a (front ++ back) c := by
  induction left with
  | nil => exact right
  | cons _ inductionHypothesis => exact .cons (inductionHypothesis right)

theorem split : ∀ {front : List β} {a : Nat}, Tiling start len a (front ++ back) c →
    ∃ b, Tiling start len a front b ∧ Tiling start len b back c
  | [], a, tiled => ⟨a, .nil a, tiled⟩
  | tile :: front, a, tiled => by
    cases tiled with
    | cons rest =>
      obtain ⟨b, left, right⟩ := split rest
      exact ⟨b, .cons left, right⟩

theorem tail (tiled : Tiling start len a (x :: tiles) c) :
    Tiling start len (start x + len x) tiles c := by
  cases tiled with
  | cons rest => exact rest

/-- The end is determined by the tiles. -/
theorem stop_unique {c' : Nat} : ∀ {tiles : List β} {a : Nat}, Tiling start len a tiles c →
    Tiling start len a tiles c' → c = c'
  | [], a, tiled, tiled' => by
    cases tiled with
    | nil => cases tiled' with | nil => rfl
  | x :: tiles, a, tiled, tiled' => stop_unique tiled.tail tiled'.tail

theorem le (tiled : Tiling start len a tiles c) : a ≤ c := by
  induction tiled with
  | nil => exact le_rfl
  | cons _ inductionHypothesis => omega

/-- Every tile lies inside the range. -/
theorem inside (tiled : Tiling start len a tiles c) :
    ∀ x ∈ tiles, a ≤ start x ∧ start x + len x ≤ c := by
  induction tiled with
  | nil => simp
  | cons rest inductionHypothesis =>
    have := rest.le
    intro x member
    cases List.mem_cons.mp member with
    | inl first => subst first; omega
    | inr later =>
      have := inductionHypothesis x later
      omega

/-- Every tile ends before the ones after it start. -/
theorem ordered (tiled : Tiling start len a tiles c) :
    tiles.Pairwise fun x y => start x + len x ≤ start y := by
  induction tiled with
  | nil => exact .nil
  | cons rest inductionHypothesis =>
    exact .cons (fun y member => (rest.inside y member).1) inductionHypothesis

/-- No tile occurs twice. -/
theorem nodup (tiled : Tiling start len a tiles c) (positive : ∀ x, 0 < len x) : tiles.Nodup :=
  tiled.ordered.imp fun {x y} before same => by
    have := positive x
    rw [same] at before this
    omega

/-- Of two different tiles, one ends before the other starts. -/
theorem apart (tiled : Tiling start len a tiles c) (left : x ∈ tiles) (right : y ∈ tiles)
    (differ : x ≠ y) : start x + len x ≤ start y ∨ start y + len y ≤ start x := by
  refine List.Pairwise.forall_of_forall_of_flip
    (R := fun x y => x ≠ y → start x + len x ≤ start y ∨ start y + len y ≤ start x)
    ?_ ?_ ?_ left right differ
  · exact fun x _ same => absurd rfl same
  · exact tiled.ordered.imp fun before _ => .inl before
  · exact tiled.ordered.imp fun before _ => .inr before

/-- If every tile has at least `k` addresses, there are few tiles. -/
theorem length_le {k : Nat} (tiled : Tiling start len a tiles c)
    (large : ∀ x ∈ tiles, k ≤ len x) : a + k * tiles.length ≤ c := by
  induction tiled with
  | nil => simp
  | @cons tile tiles c rest inductionHypothesis =>
    have first := large tile List.mem_cons_self
    have later := inductionHypothesis fun x member => large x (List.mem_cons_of_mem _ member)
    rw [List.length_cons, Nat.mul_succ]
    omega

end Tiling
