import Mathlib.Data.List.Basic

/-! # Labelled runs of a transition system

A machine is a labelled step relation `σ → ι → σ → Prop`.  `Run step s ops t`
says that the steps labelled `ops`, taken in order, lead from `s` to `t`; every
statement about arbitrary histories in this development is a statement about
all runs.

`Guarded guard step` keeps the steps whose label meets a condition in the state
they are taken from, so that "every step of the run meets the condition" is a
run of the guarded machine. -/

namespace Transition

variable {σ ι : Type*}

/-- The steps labelled `ops`, in order, lead from the first state to the last. -/
inductive Run (step : σ → ι → σ → Prop) : σ → List ι → σ → Prop
  | nil (s : σ) : Run step s [] s
  | cons {s t u : σ} {op : ι} {ops : List ι} :
      step s op t → Run step t ops u → Run step s (op :: ops) u

/-- The steps of a machine that are taken where `guard` allows them. -/
def Guarded (guard : σ → ι → Prop) (step : σ → ι → σ → Prop) : σ → ι → σ → Prop :=
  fun s op t => guard s op ∧ step s op t

/-- The condition holds of every operation of a sequence in the state in which its turn comes. -/
def Along (step : σ → ι → σ → Prop) (P : σ → ι → Prop) : σ → List ι → Prop
  | _, [] => True
  | s, op :: ops => P s op ∧ ∀ t, step s op t → Along step P t ops

/-- The steps of a machine that answers calls; the label is the call with its answer. -/
def Answers {κ α : Type*} (machine : σ → κ → α × σ) : σ → κ × α → σ → Prop :=
  fun s op t => machine s op.1 = (op.2, t)

section

variable {step : σ → ι → σ → Prop}

theorem Along.single {P : σ → ι → Prop} {s : σ} {op : ι} (holds : P s op) :
    Along step P s [op] := ⟨holds, fun _ _ => trivial⟩

/-- Two conditions agree along a sequence when they agree wherever an invariant holds that the
steps which meet them keep. -/
theorem Along.iff_of_inv {P Q : σ → ι → Prop} {valid : ι → Prop} (inv : σ → Prop) {s : σ}
    {ops : List ι} (valids : ∀ op ∈ ops, valid op)
    (agree : ∀ s op, inv s → valid op → (P s op ↔ Q s op))
    (kept : ∀ s op t, inv s → valid op → Q s op → step s op t → inv t) (start : inv s) :
    Along step P s ops ↔ Along step Q s ops := by
  induction ops generalizing s with
  | nil => exact Iff.rfl
  | cons op ops inductionHypothesis =>
    have first := valids op List.mem_cons_self
    have same := agree s op start first
    have later : ∀ t, Q s op → step s op t → (Along step P t ops ↔ Along step Q t ops) := by
      intro t meets taken
      exact inductionHypothesis (fun op' member => valids op' (List.mem_cons_of_mem _ member))
        (kept s op t start first meets taken)
    constructor
    · intro along
      have meets := same.mp along.1
      exact ⟨meets, fun t taken => (later t meets taken).mp (along.2 t taken)⟩
    · intro along
      exact ⟨same.mpr along.1, fun t taken => (later t along.1 taken).mpr (along.2 t taken)⟩

/-- A condition holds along a sequence when an invariant that the steps keep gives it. -/
theorem Along.of_inv {P : σ → ι → Prop} {valid : ι → Prop} (inv : σ → Prop) {s : σ} {ops : List ι}
    (valids : ∀ op ∈ ops, valid op) (holds : ∀ s op, inv s → valid op → P s op)
    (kept : ∀ s op t, inv s → valid op → step s op t → inv t) (start : inv s) :
    Along step P s ops := by
  induction ops generalizing s with
  | nil => trivial
  | cons op ops inductionHypothesis =>
    have first := valids op List.mem_cons_self
    refine ⟨holds s op start first, ?_⟩
    intro t taken
    exact inductionHypothesis (fun op' member => valids op' (List.mem_cons_of_mem _ member))
      (kept s op t start first taken)

theorem Run.single {s t : σ} {op : ι} (taken : step s op t) : Run step s [op] t :=
  .cons taken (.nil t)

theorem Run.append {s t u : σ} {first second : List ι}
    (left : Run step s first t) (right : Run step t second u) :
    Run step s (first ++ second) u := by
  induction left with
  | nil => exact right
  | cons taken _ inductionHypothesis => exact .cons taken (inductionHypothesis right)

/-- A run of one machine is a run of another that has all its steps. -/
theorem Run.mono {other : σ → ι → σ → Prop} {s t : σ} {ops : List ι}
    (more : ∀ s op t, step s op t → other s op t) (run : Run step s ops t) : Run other s ops t := by
  induction run with
  | nil => exact .nil _
  | cons taken _ inductionHypothesis => exact .cons (more _ _ _ taken) inductionHypothesis

/-- A run of two stretches has a state between them. -/
theorem Run.split {s u : σ} {first second : List ι} (run : Run step s (first ++ second) u) :
    ∃ t, Run step s first t ∧ Run step t second u := by
  induction first generalizing s with
  | nil => exact ⟨s, .nil s, run⟩
  | cons op first inductionHypothesis =>
    cases run with
    | cons taken rest =>
      obtain ⟨t, left, right⟩ := inductionHypothesis rest
      exact ⟨t, .cons taken left, right⟩

/-- Induction on the last step: what holds of the past and the present at the start, and is
kept when a step is added to the past, holds at the end. -/
theorem Run.history {s t : σ} {ops : List ι} (holds : List ι → σ → Prop) (start : holds [] s)
    (kept : ∀ past s op t, holds past s → step s op t → holds (past ++ [op]) t)
    (run : Run step s ops t) : holds ops t := by
  suffices extended : ∀ past, holds past s → holds (past ++ ops) t from extended [] start
  clear start
  induction run with
  | nil => simp
  | @cons s t u op ops taken _ inductionHypothesis =>
    intro past before
    have after := inductionHypothesis (past ++ [op]) (kept past s op t before taken)
    rwa [List.append_assoc, List.singleton_append] at after

/-- An invariant that every step preserves holds at the end of every run. -/
theorem Run.invariant {s t : σ} {ops : List ι} (inv : σ → Prop)
    (preserved : ∀ s op t, inv s → step s op t → inv t)
    (run : Run step s ops t) (start : inv s) : inv t := by
  induction run with
  | nil => exact start
  | cons taken _ inductionHypothesis =>
    exact inductionHypothesis (preserved _ _ _ start taken)

/-- A run whose operations are allowed everywhere. -/
theorem Run.guarded {guard : σ → ι → Prop} {s t : σ} {ops : List ι}
    (run : Run step s ops t) (allowed : ∀ op ∈ ops, ∀ s, guard s op) :
    Run (Guarded guard step) s ops t := by
  induction run with
  | nil => exact .nil _
  | @cons s t u op ops taken _ inductionHypothesis =>
    have first : guard s op := allowed op List.mem_cons_self s
    exact .cons ⟨first, taken⟩ (inductionHypothesis fun op' member =>
      allowed op' (List.mem_cons_of_mem _ member))

/-- Forward simulation: when every step is matched by a step with the same label, every run is
matched by a run with the same labels. -/
theorem Run.simulate {τ : Type*} {other : τ → ι → τ → Prop} {s t : σ} {s' : τ} {ops : List ι}
    (related : σ → τ → Prop)
    (matched : ∀ s op t s', related s s' → step s op t → ∃ t', other s' op t' ∧ related t t')
    (run : Run step s ops t) (start : related s s') :
    ∃ t', Run other s' ops t' ∧ related t t' := by
  induction run generalizing s' with
  | nil => exact ⟨s', .nil _, start⟩
  | cons taken _ inductionHypothesis =>
    obtain ⟨middle, first, next⟩ := matched _ _ _ _ start taken
    obtain ⟨last, rest, ending⟩ := inductionHypothesis next
    exact ⟨last, .cons first rest, ending⟩

/-- What goes in and what comes out of a queue: when every step keeps the order, a run does. -/
theorem Run.conserve {α : Type*} {given taken : ι → List α} {s t : σ} {ops : List ι}
    (contents : σ → List α)
    (kept : ∀ s op t, step s op t → contents s ++ given op = taken op ++ contents t)
    (run : Run step s ops t) :
    contents s ++ ops.flatMap given = ops.flatMap taken ++ contents t := by
  induction run with
  | nil => simp
  | cons first _ inductionHypothesis =>
    simp only [List.flatMap_cons]
    rw [← List.append_assoc, kept _ _ _ first, List.append_assoc, inductionHypothesis,
      List.append_assoc]

/-- Counting: when every step keeps the balance of a quantity, a run keeps it. -/
theorem Run.balance {s t : σ} {ops : List ι} (given taken : ι → Bool) (amount : σ → Nat)
    (kept : ∀ s op t, step s op t →
      amount s + (if given op then 1 else 0) = (if taken op then 1 else 0) + amount t)
    (run : Run step s ops t) :
    amount s + ops.countP given = ops.countP taken + amount t := by
  induction run with
  | nil => simp
  | cons first _ inductionHypothesis =>
    have here := kept _ _ _ first
    simp only [List.countP_cons]
    omega

end

end Transition
