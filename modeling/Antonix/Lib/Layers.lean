import Mathlib.Data.List.Basic
import Mathlib.Data.Set.Basic

/-! # Pictures made of layers

A layer has ink at some points.  Layers are painted one after the other, so the last one
that has ink at a point is the one to be seen there.

A picture that is repainted in parts is fresh but for its damage: where it is not damaged,
it shows what there is to be seen. -/

namespace Layers

variable {Point Ink : Type*}

/-- The ink of a layer at a point, if there is any. -/
abbrev Layer (Point Ink : Type*) := Point → Option Ink

/-- What is to be seen of layers, the last one on top. -/
def compose : List (Layer Point Ink) → Layer Point Ink
  | [], _ => none
  | layer :: layers, p => (compose layers p).or (layer p)

/-- The layer with the ink inside of `clip` only. -/
def within (clip : Set Point) [DecidablePred (· ∈ clip)] (layer : Layer Point Ink) :
    Layer Point Ink := fun p => if p ∈ clip then layer p else none

/-- A layer is painted over what is there. -/
def paintOn (canvas : Point → Ink) (layer : Layer Point Ink) : Point → Ink := fun p =>
  (layer p).getD (canvas p)

section

variable {layers layers' : List (Layer Point Ink)} {layer : Layer Point Ink} {p : Point}

@[simp] theorem compose_nil : compose ([] : List (Layer Point Ink)) p = none := rfl

@[simp] theorem compose_cons :
    compose (layer :: layers) p = (compose layers p).or (layer p) := rfl

@[simp] theorem compose_append :
    compose (layers ++ layers') p = (compose layers' p).or (compose layers p) := by
  induction layers with
  | nil => simp
  | cons layer layers inductionHypothesis => simp [inductionHypothesis, Option.or_assoc]

theorem compose_eq_none : compose layers p = none ↔ ∀ layer ∈ layers, layer p = none := by
  induction layers with
  | nil => simp
  | cons layer layers inductionHypothesis => simp [inductionHypothesis, and_comm]

theorem compose_map_congr {α : Type*} {items : List α} {f g : α → Layer Point Ink}
    (same : ∀ item ∈ items, f item p = g item p) :
    compose (items.map f) p = compose (items.map g) p := by
  induction items with
  | nil => rfl
  | cons item items inductionHypothesis =>
    rw [List.forall_mem_cons] at same
    simp [same.1, inductionHypothesis same.2]

/-- A layer that is exchanged for another one makes no difference where they agree. -/
theorem compose_set {k : Nat} {old : Layer Point Ink} (there : layers[k]? = some old)
    (same : layer p = old p) : compose (layers.set k layer) p = compose layers p := by
  induction layers generalizing k with
  | nil => rfl
  | cons first layers inductionHypothesis =>
    cases k with
    | zero =>
      obtain rfl : first = old := by simpa using there
      simp [same]
    | succ k => simp [inductionHypothesis (by simpa using there)]

/-- Layers without ink at a point can be left out. -/
theorem compose_filter {α : Type*} {items : List α} {f : α → Layer Point Ink} {keep : α → Bool}
    (blank : ∀ item ∈ items, keep item = false → f item p = none) :
    compose ((items.filter keep).map f) p = compose (items.map f) p := by
  induction items with
  | nil => rfl
  | cons item items inductionHypothesis =>
    rw [List.forall_mem_cons] at blank
    have later := inductionHypothesis blank.2
    cases kept : keep item with
    | true => simp [kept, later]
    | false => simp [kept, later, blank.1 kept]

/-- The painter's algorithm. -/
theorem foldl_paintOn (canvas : Point → Ink) :
    layers.foldl paintOn canvas p = (compose layers p).getD (canvas p) := by
  induction layers generalizing canvas with
  | nil => rfl
  | cons layer layers inductionHypothesis =>
    rw [List.foldl_cons, inductionHypothesis, compose_cons, paintOn]
    cases compose layers p <;> simp

theorem within_of_mem {clip : Set Point} [DecidablePred (· ∈ clip)] (inside : p ∈ clip) :
    within clip layer p = layer p := if_pos inside

theorem within_of_notMem {clip : Set Point} [DecidablePred (· ∈ clip)] (outside : p ∉ clip) :
    within clip layer p = none := if_neg outside

end

/-! ## Damage -/

/-- In the region, the picture shows what there is to be seen but for the damage. -/
def Fresh (region : Set Point) (shown : Point → Ink) (scene : Layer Point Ink)
    (damage : Set Point) : Prop :=
  ∀ p ∈ region, p ∉ damage → ∀ ink, scene p = some ink → shown p = ink

variable {region damage damage' : Set Point} {shown shown' : Point → Ink}
  {scene scene' : Layer Point Ink}

/-- What is to be seen may change where there is damage afterwards. -/
theorem Fresh.change (fresh : Fresh region shown scene damage) (more : damage ⊆ damage')
    (covered : ∀ p ∈ region, p ∉ damage' → scene' p = scene p) :
    Fresh region shown scene' damage' := by
  intro p inside undamaged ink seen
  rw [covered p inside undamaged] at seen
  exact fresh p inside (fun damaged => undamaged (more damaged)) ink seen

theorem Fresh.mono (fresh : Fresh region shown scene damage) (more : damage ⊆ damage') :
    Fresh region shown scene damage' := fresh.change more fun _ _ _ => rfl

/-- Damage goes where the picture is painted again. -/
theorem Fresh.repaint (fresh : Fresh region shown scene damage) (clip : Set Point)
    (rest : ∀ p ∈ region, p ∈ damage → p ∈ clip ∨ p ∈ damage')
    (painted : ∀ p ∈ region, p ∈ clip → ∀ ink, scene p = some ink → shown' p = ink)
    (kept : ∀ p ∈ region, p ∉ clip → shown' p = shown p) :
    Fresh region shown' scene damage' := by
  intro p inside undamaged ink seen
  by_cases clipped : p ∈ clip
  · exact painted p inside clipped ink seen
  · rw [kept p inside clipped]
    refine fresh p inside (fun damaged => ?_) ink seen
    cases rest p inside damaged with
    | inl here => exact clipped here
    | inr here => exact undamaged here

/-- Without damage, all there is to be seen is shown. -/
theorem Fresh.shows (fresh : Fresh region shown scene ∅) {p : Point} (inside : p ∈ region)
    {ink : Ink} (seen : scene p = some ink) : shown p = ink :=
  fresh p inside (Set.notMem_empty p) ink seen

end Layers
