import Mathlib.Algebra.Order.Monoid.Prod
import Mathlib.Analysis.Convex.Basic
import Mathlib.Data.Sign.Basic
import Mathlib.Tactic.FieldSimp
import Mathlib.Tactic.Linarith
import Mathlib.Tactic.LinearCombination
import Mathlib.Tactic.Module

/-! # Segments in the plane

Two segments meet exactly when each separates the ends of the other, or one has an end of
the other on it.  A segment meets a rectangle exactly when it meets an edge of it, or lies
inside. -/

namespace PlaneSegments

open Set

section

variable {K : Type*} [Field K] {p q r : K × K}

/-- On which side of the line from `p` to `q` the point `r` is, and how far from it. -/
def cross (p q r : K × K) : K := (q.2 - p.2) * (r.1 - q.1) - (q.1 - p.1) * (r.2 - q.2)

theorem cross_add_smul (p q r s : K × K) (t : K) :
    cross p q (r + t • (s - r)) = (1 - t) * cross p q r + t * cross p q s := by
  simp only [cross, Prod.fst_add, Prod.snd_add, Prod.smul_fst, Prod.smul_snd, Prod.fst_sub,
    Prod.snd_sub, smul_eq_mul]
  ring

theorem cross_left (p q : K × K) : cross p q p = 0 := by
  simp only [cross]
  ring

theorem cross_right (p q : K × K) : cross p q q = 0 := by
  simp only [cross]
  ring

/-- A point in line with two different points. -/
theorem exists_of_cross_eq_zero (apart : p ≠ q) (inLine : cross p q r = 0) :
    ∃ t : K, r = p + t • (q - p) := by
  by_cases sameX : q.1 = p.1
  · have apartY : q.2 - p.2 ≠ 0 := by
      intro sameY
      exact apart (Prod.ext sameX.symm (sub_eq_zero.mp sameY).symm)
    have column : r.1 = p.1 := by
      simp only [cross, sameX, sub_self, zero_mul, sub_zero] at inLine
      exact sub_eq_zero.mp ((mul_eq_zero.mp inLine).resolve_left apartY)
    refine ⟨(r.2 - p.2) / (q.2 - p.2), Prod.ext ?_ ?_⟩
    · simp [sameX, column]
    · simp only [Prod.snd_add, Prod.smul_snd, Prod.snd_sub, smul_eq_mul]
      field_simp
      ring
  · have apartX : q.1 - p.1 ≠ 0 := sub_ne_zero.mpr sameX
    refine ⟨(r.1 - p.1) / (q.1 - p.1), Prod.ext ?_ ?_⟩
    · simp only [Prod.fst_add, Prod.smul_fst, Prod.fst_sub, smul_eq_mul]
      field_simp
      ring
    · simp only [Prod.snd_add, Prod.smul_snd, Prod.snd_sub, smul_eq_mul]
      simp only [cross] at inLine
      field_simp
      linear_combination -inLine

end

variable {K : Type*} [Field K] [LinearOrder K] [IsStrictOrderedRing K]

/-- The rectangle that two points span. -/
def InBox (p q r : K × K) : Prop :=
  (min p.1 q.1 ≤ r.1 ∧ r.1 ≤ max p.1 q.1) ∧ min p.2 q.2 ≤ r.2 ∧ r.2 ≤ max p.2 q.2

variable {p q r p1 q1 p2 q2 : K × K}

theorem mem_segment_iff_exists :
    r ∈ segment K p q ↔ ∃ t : K, (0 ≤ t ∧ t ≤ 1) ∧ r = p + t • (q - p) := by
  rw [segment_eq_image']
  constructor
  · intro member
    obtain ⟨t, range, rfl⟩ := member
    exact ⟨t, range, rfl⟩
  · intro onIt
    obtain ⟨t, range, rfl⟩ := onIt
    exact ⟨t, range, rfl⟩

/-- Between two values. -/
theorem between_of_range {a b t : K} (above : 0 ≤ t) (below : t ≤ 1) :
    min a b ≤ a + t * (b - a) ∧ a + t * (b - a) ≤ max a b := by
  cases le_total a b with
  | inl up =>
    rw [min_eq_left up, max_eq_right up]
    constructor <;> nlinarith
  | inr down =>
    rw [min_eq_right down, max_eq_left down]
    constructor <;> nlinarith

theorem range_of_between {a b t : K} (apart : a ≠ b)
    (between : min a b ≤ a + t * (b - a) ∧ a + t * (b - a) ≤ max a b) : 0 ≤ t ∧ t ≤ 1 := by
  cases lt_or_gt_of_ne apart with
  | inl up =>
    rw [min_eq_left up.le, max_eq_right up.le] at between
    constructor <;> nlinarith
  | inr down =>
    rw [min_eq_right down.le, max_eq_left down.le] at between
    constructor <;> nlinarith

/-- A point is on a segment when it is in line with the ends and inside of their rectangle. -/
theorem mem_segment_iff : r ∈ segment K p q ↔ cross p q r = 0 ∧ InBox p q r := by
  rw [mem_segment_iff_exists]
  constructor
  · intro onIt
    obtain ⟨t, ⟨above, below⟩, rfl⟩ := onIt
    refine ⟨?_, ?_, ?_⟩
    · rw [cross_add_smul, cross_left, cross_right, mul_zero, mul_zero, add_zero]
    · exact between_of_range above below
    · exact between_of_range above below
  · intro ⟨inLine, boxX, boxY⟩
    by_cases same : p = q
    · subst same
      rw [min_self, max_self] at boxX boxY
      exact ⟨0, ⟨le_rfl, zero_le_one⟩, by
        rw [zero_smul, add_zero]
        exact Prod.ext (le_antisymm boxX.2 boxX.1) (le_antisymm boxY.2 boxY.1)⟩
    · obtain ⟨t, rfl⟩ := exists_of_cross_eq_zero same inLine
      refine ⟨t, ?_, rfl⟩
      by_cases sameX : p.1 = q.1
      · exact range_of_between (fun sameY => same (Prod.ext sameX sameY)) boxY
      · exact range_of_between sameX boxX

/-! ## Two segments -/

theorem range_of_sign_ne {a b : K} (differ : SignType.sign a ≠ SignType.sign b) :
    a - b ≠ 0 ∧ 0 ≤ a / (a - b) ∧ a / (a - b) ≤ 1 := by
  have apart : a ≠ b := fun same => differ (congrArg _ same)
  refine ⟨sub_ne_zero.mpr apart, ?_⟩
  cases lt_or_gt_of_ne apart with
  | inl up =>
    have low : a ≤ 0 := by
      by_contra positive
      rw [not_le] at positive
      exact differ ((sign_pos positive).trans (sign_pos (positive.trans up)).symm)
    have high : 0 ≤ b := by
      by_contra negative
      rw [not_le] at negative
      exact differ ((sign_neg (up.trans negative)).trans (sign_neg negative).symm)
    have gap : a - b < 0 := by linarith
    exact ⟨div_nonneg_of_nonpos low gap.le, (div_le_one_of_neg gap).mpr (by linarith)⟩
  | inr down =>
    have low : b ≤ 0 := by
      by_contra positive
      rw [not_le] at positive
      exact differ ((sign_pos (positive.trans down)).trans (sign_pos positive).symm)
    have high : 0 ≤ a := by
      by_contra negative
      rw [not_le] at negative
      exact differ ((sign_neg negative).trans (sign_neg (LT.lt.trans down negative)).symm)
    have gap : 0 < a - b := by linarith
    exact ⟨div_nonneg high gap.le, (div_le_one gap).mpr (by linarith)⟩

/-- Segments that separate the ends of each other meet. -/
theorem meet_of_separate (first : SignType.sign (cross p1 q1 p2) ≠ SignType.sign (cross p1 q1 q2))
    (second : SignType.sign (cross p2 q2 p1) ≠ SignType.sign (cross p2 q2 q1)) :
    (segment K p1 q1 ∩ segment K p2 q2).Nonempty := by
  obtain ⟨apart, above, below⟩ := range_of_sign_ne first
  obtain ⟨apart', above', below'⟩ := range_of_sign_ne second
  have opposite : cross p2 q2 p1 - cross p2 q2 q1 = -(cross p1 q1 p2 - cross p1 q1 q2) := by
    simp only [cross]
    ring
  refine ⟨p2 + (cross p1 q1 p2 / (cross p1 q1 p2 - cross p1 q1 q2)) • (q2 - p2),
    mem_segment_iff_exists.mpr ⟨cross p2 q2 p1 / (cross p2 q2 p1 - cross p2 q2 q1),
      ⟨above', below'⟩, ?_⟩, mem_segment_iff_exists.mpr ⟨_, ⟨above, below⟩, rfl⟩⟩
  rw [opposite]
  -- both points are where the two lines cross
  refine Prod.ext ?_ ?_
  · simp only [Prod.fst_add, Prod.smul_fst, Prod.fst_sub, smul_eq_mul]
    field_simp
    simp only [cross]
    ring
  · simp only [Prod.snd_add, Prod.smul_snd, Prod.snd_sub, smul_eq_mul]
    field_simp
    simp only [cross]
    ring

theorem zero_of_combination {a b t : K} (range : 0 ≤ t ∧ t ≤ 1)
    (same : SignType.sign a = SignType.sign b) (none : (1 - t) * a + t * b = 0) :
    a = 0 ∧ b = 0 := by
  obtain ⟨above, below⟩ := range
  rcases lt_trichotomy a 0 with negative | zero | positive
  · have negative' : b < 0 := sign_eq_neg_one_iff.mp (same ▸ sign_neg negative)
    nlinarith [mul_nonneg (sub_nonneg.mpr below) (neg_nonneg.mpr negative.le),
      mul_nonneg above (neg_nonneg.mpr negative'.le)]
  · subst zero
    exact ⟨rfl, sign_eq_zero_iff.mp (same ▸ sign_zero)⟩
  · have positive' : 0 < b := sign_eq_one_iff.mp (same ▸ sign_pos positive)
    nlinarith [mul_nonneg (sub_nonneg.mpr below) positive.le, mul_nonneg above positive'.le]

/-- An interval that meets `[0, 1]` has an end in it, or 0 between its ends. -/
theorem end_or_zero_between {s t u v : K} (range : 0 ≤ s ∧ s ≤ 1) (within : 0 ≤ t ∧ t ≤ 1)
    (between : s = u + t * (v - u)) :
    (0 ≤ u ∧ u ≤ 1) ∨ (0 ≤ v ∧ v ≤ 1) ∨ ∃ τ : K, (0 ≤ τ ∧ τ ≤ 1) ∧ u + τ * (v - u) = 0 := by
  by_cases differ : SignType.sign u = SignType.sign v
  · rw [or_iff_not_imp_left, or_iff_not_imp_left]
    intro outside outside'
    exfalso
    have ⟨low, high⟩ := between_of_range within.1 within.2 (a := u) (b := v)
    rw [← between] at low high
    rcases lt_trichotomy u 0 with negative | zero | positive
    · have negative' : v < 0 := sign_eq_neg_one_iff.mp (differ ▸ sign_neg negative)
      exact absurd range.1 (not_le.mpr (high.trans_lt (max_lt negative negative')))
    · exact outside ⟨zero.ge, zero.le.trans zero_le_one⟩
    · have positive' : 0 < v := sign_eq_one_iff.mp (differ ▸ sign_pos positive)
      have beyond : 1 < u := not_le.mp fun below => outside ⟨positive.le, below⟩
      have beyond' : 1 < v := not_le.mp fun below => outside' ⟨positive'.le, below⟩
      exact absurd range.2 (not_le.mpr ((lt_min beyond beyond').trans_le low))
  · obtain ⟨apart, inside⟩ := range_of_sign_ne differ
    refine .inr (.inr ⟨u / (u - v), inside, ?_⟩)
    field_simp
    ring

/-- When one of two segments that meet does not separate the ends of the other, an end of one is
on the other. -/
theorem end_mem_of_not_separate (meet : (segment K p1 q1 ∩ segment K p2 q2).Nonempty)
    (same : SignType.sign (cross p1 q1 p2) = SignType.sign (cross p1 q1 q2)) :
    p2 ∈ segment K p1 q1 ∨ q2 ∈ segment K p1 q1 ∨ p1 ∈ segment K p2 q2 := by
  obtain ⟨x, first, second⟩ := meet
  by_cases point : p1 = q1
  · subst point
    rw [segment_same, mem_singleton_iff] at first
    exact .inr (.inr (first ▸ second))
  · obtain ⟨s, range, rfl⟩ := mem_segment_iff_exists.mp first
    obtain ⟨t, within, onBoth⟩ := mem_segment_iff_exists.mp second
    have inLine : (1 - t) * cross p1 q1 p2 + t * cross p1 q1 q2 = 0 := by
      rw [← cross_add_smul, ← onBoth]
      exact (mem_segment_iff.mp first).1
    obtain ⟨inLine1, inLine2⟩ := zero_of_combination within same inLine
    obtain ⟨u, rfl⟩ := exists_of_cross_eq_zero point inLine1
    obtain ⟨v, rfl⟩ := exists_of_cross_eq_zero point inLine2
    have moved : ∀ τ : K, p1 + u • (q1 - p1) + τ • (p1 + v • (q1 - p1) - (p1 + u • (q1 - p1))) =
        p1 + (u + τ * (v - u)) • (q1 - p1) := by
      intro τ
      module
    rw [moved, add_right_inj] at onBoth
    have between := smul_left_injective K (sub_ne_zero.mpr (Ne.symm point)) onBoth
    cases end_or_zero_between range within between with
    | inl inside => exact .inl (mem_segment_iff_exists.mpr ⟨u, inside, rfl⟩)
    | inr other =>
      cases other with
      | inl inside => exact .inr (.inl (mem_segment_iff_exists.mpr ⟨v, inside, rfl⟩))
      | inr start =>
        obtain ⟨τ, inside, zero⟩ := start
        refine .inr (.inr (mem_segment_iff_exists.mpr ⟨τ, inside, ?_⟩))
        rw [moved, zero, zero_smul, add_zero]

/-- Two segments meet when each separates the ends of the other, or one has an end of the other on
it. -/
theorem meet_iff : (segment K p1 q1 ∩ segment K p2 q2).Nonempty ↔
    (SignType.sign (cross p1 q1 p2) ≠ SignType.sign (cross p1 q1 q2) ∧
      SignType.sign (cross p2 q2 p1) ≠ SignType.sign (cross p2 q2 q1)) ∨
    p2 ∈ segment K p1 q1 ∨ q2 ∈ segment K p1 q1 ∨ p1 ∈ segment K p2 q2 ∨
      q1 ∈ segment K p2 q2 := by
  constructor
  · intro meet
    by_cases first : SignType.sign (cross p1 q1 p2) = SignType.sign (cross p1 q1 q2)
    · have ends := end_mem_of_not_separate meet first
      tauto
    · by_cases second : SignType.sign (cross p2 q2 p1) = SignType.sign (cross p2 q2 q1)
      · have ends := end_mem_of_not_separate (inter_comm _ _ ▸ meet) second
        tauto
      · exact .inl ⟨first, second⟩
  · intro either
    rcases either with ⟨first, second⟩ | onFirst | onFirst | onSecond | onSecond
    · exact meet_of_separate first second
    · exact ⟨p2, onFirst, left_mem_segment K p2 q2⟩
    · exact ⟨q2, onFirst, right_mem_segment K p2 q2⟩
    · exact ⟨p1, left_mem_segment K p1 q1, onSecond⟩
    · exact ⟨q1, right_mem_segment K p1 q1, onSecond⟩

/-! ## A segment and a rectangle -/

/-- On the way from where all values are nonnegative there is a last place where they are: the end,
or a place where one of them is 0.  A value is given by what it is at the start and at the end. -/
theorem exists_last_nonneg (values : List (K × K)) (start : ∀ c ∈ values, 0 ≤ c.1) :
    ∃ t : K, (0 ≤ t ∧ t ≤ 1) ∧ (∀ c ∈ values, 0 ≤ (1 - t) * c.1 + t * c.2) ∧
      (t = 1 ∨ ∃ c ∈ values, (1 - t) * c.1 + t * c.2 = 0) := by
  induction values with
  | nil => exact ⟨1, ⟨zero_le_one, le_rfl⟩, by simp, .inl rfl⟩
  | cons c rest inductionHypothesis =>
    have ⟨first, later⟩ := List.forall_mem_cons.mp start
    obtain ⟨t, ⟨above, below⟩, nonneg, last⟩ := inductionHypothesis later
    by_cases holds : 0 ≤ (1 - t) * c.1 + t * c.2
    · refine ⟨t, ⟨above, below⟩, List.forall_mem_cons.mpr ⟨holds, nonneg⟩, ?_⟩
      cases last with
      | inl whole => exact .inl whole
      | inr zero =>
        obtain ⟨d, member, zero⟩ := zero
        exact .inr ⟨d, List.mem_cons_of_mem c member, zero⟩
    · -- the way ends earlier, where this value is 0
      rw [not_le] at holds
      have shorter : ∀ (τ : K) (d : K × K), (1 - τ * t) * d.1 + τ * t * d.2 =
          (1 - τ) * d.1 + τ * ((1 - t) * d.1 + t * d.2) := by
        intro τ d
        ring
      generalize value : (1 - t) * c.1 + t * c.2 = g at holds
      have gap : 0 < c.1 - g := by linarith
      have low : 0 ≤ c.1 / (c.1 - g) := div_nonneg first gap.le
      have high : c.1 / (c.1 - g) ≤ 1 := (div_le_one gap).mpr (by linarith)
      have zero : (1 - c.1 / (c.1 - g) * t) * c.1 + c.1 / (c.1 - g) * t * c.2 = 0 := by
        rw [shorter, value]
        field_simp
        ring
      generalize c.1 / (c.1 - g) = τ at low high zero
      refine ⟨τ * t, ⟨mul_nonneg low above, mul_le_one₀ high above below⟩, ?_,
        .inr ⟨c, List.mem_cons_self, zero⟩⟩
      refine List.forall_mem_cons.mpr ⟨zero.ge, fun d member => ?_⟩
      rw [shorter]
      exact add_nonneg (mul_nonneg (sub_nonneg.mpr high) (later d member))
        (mul_nonneg low (nonneg d member))

variable {a b x y : K × K}

/-- A segment that leaves a rectangle crosses its border. -/
theorem exists_on_border (inside : x ∈ Icc a b) (outside : y ∉ Icc a b) :
    ∃ z ∈ segment K x y, z ∈ Icc a b ∧
      (z.1 = a.1 ∨ z.1 = b.1 ∨ z.2 = a.2 ∨ z.2 = b.2) := by
  obtain ⟨⟨left, top⟩, right, bottom⟩ := inside
  obtain ⟨t, range, nonneg, last⟩ := exists_last_nonneg
    [(x.1 - a.1, y.1 - a.1), (b.1 - x.1, b.1 - y.1), (x.2 - a.2, y.2 - a.2),
      (b.2 - x.2, b.2 - y.2)] (by simp [left, top, right, bottom])
  simp only [List.forall_mem_cons, List.not_mem_nil, false_imp_iff, implies_true, and_true]
    at nonneg
  obtain ⟨leftOf, rightOf, topOf, bottomOf⟩ := nonneg
  have inRect : x + t • (y - x) ∈ Icc a b := by
    refine ⟨⟨?_, ?_⟩, ?_, ?_⟩
    all_goals
      simp only [Prod.fst_add, Prod.snd_add, Prod.smul_fst, Prod.smul_snd, Prod.fst_sub,
        Prod.snd_sub, smul_eq_mul]
      linarith
  refine ⟨x + t • (y - x), mem_segment_iff_exists.mpr ⟨t, range, rfl⟩, inRect, ?_⟩
  cases last with
  | inl whole =>
    rw [whole, one_smul, add_sub_cancel] at inRect
    exact absurd inRect outside
  | inr zero =>
    simp only [Prod.fst_add, Prod.snd_add, Prod.smul_fst, Prod.smul_snd, Prod.fst_sub,
      Prod.snd_sub, smul_eq_mul]
    simp only [List.exists_mem_cons_iff, List.not_mem_nil, false_and, exists_false, or_false]
      at zero
    rcases zero with zero | zero | zero | zero
    · exact .inl (by linarith)
    · exact .inr (.inl (by linarith))
    · exact .inr (.inr (.inl (by linarith)))
    · exact .inr (.inr (.inr (by linarith)))

theorem segment_subset_rect (first : x ∈ Icc a b) (second : y ∈ Icc a b) :
    segment K x y ⊆ Icc a b := (convex_Icc a b).segment_subset first second

/-- A segment meets a rectangle when it meets one of its edges, or when both its ends are inside. -/
theorem meets_rect_iff (ordered : a ≤ b) : (segment K p q ∩ Icc a b).Nonempty ↔
    ((segment K p q ∩ segment K (a.1, a.2) (b.1, a.2)).Nonempty ∨
      (segment K p q ∩ segment K (b.1, a.2) (b.1, b.2)).Nonempty ∨
      (segment K p q ∩ segment K (b.1, b.2) (a.1, b.2)).Nonempty ∨
      (segment K p q ∩ segment K (a.1, b.2) (a.1, a.2)).Nonempty) ∨
    p ∈ Icc a b ∧ q ∈ Icc a b := by
  obtain ⟨orderedX, orderedY⟩ := ordered
  constructor
  · intro meet
    obtain ⟨x, onSegment, inside⟩ := meet
    by_cases both : p ∈ Icc a b ∧ q ∈ Icc a b
    · exact .inr both
    · -- an end outside, and the way to it
      have leaves : ∃ y, y ∉ Icc a b ∧ segment K x y ⊆ segment K p q := by
        by_cases first : p ∈ Icc a b
        · exact ⟨q, fun second => both ⟨first, second⟩,
            (convex_segment p q).segment_subset onSegment (right_mem_segment K p q)⟩
        · exact ⟨p, first,
            (convex_segment p q).segment_subset onSegment (left_mem_segment K p q)⟩
      obtain ⟨y, outside, within⟩ := leaves
      obtain ⟨z, onWay, ⟨⟨left, top⟩, right, bottom⟩, border⟩ := exists_on_border inside outside
      left
      rcases border with edge | edge | edge | edge
      · refine .inr (.inr (.inr ⟨z, within onWay, mem_segment_iff.mpr ⟨?_, ?_, ?_⟩⟩))
        · simp [cross, edge]
        · simp [edge]
        · simp [top, bottom]
      · refine .inr (.inl ⟨z, within onWay, mem_segment_iff.mpr ⟨?_, ?_, ?_⟩⟩)
        · simp [cross, edge]
        · simp [edge]
        · simp [top, bottom]
      · refine .inl ⟨z, within onWay, mem_segment_iff.mpr ⟨?_, ?_, ?_⟩⟩
        · simp [cross, edge]
        · simp [left, right]
        · simp [edge]
      · refine .inr (.inr (.inl ⟨z, within onWay, mem_segment_iff.mpr ⟨?_, ?_, ?_⟩⟩))
        · simp [cross, edge]
        · simp [left, right]
        · simp [edge]
  · intro either
    have corners : (a.1, a.2) ∈ Icc a b ∧ (b.1, a.2) ∈ Icc a b ∧ (b.1, b.2) ∈ Icc a b ∧
        (a.1, b.2) ∈ Icc a b :=
      ⟨⟨⟨le_rfl, le_rfl⟩, orderedX, orderedY⟩, ⟨⟨orderedX, le_rfl⟩, le_rfl, orderedY⟩,
        ⟨⟨orderedX, orderedY⟩, le_rfl, le_rfl⟩, ⟨⟨le_rfl, orderedY⟩, orderedX, le_rfl⟩⟩
    obtain ⟨leftTop, rightTop, rightBottom, leftBottom⟩ := corners
    rcases either with (top | right | bottom | left) | both
    · exact top.mono (inter_subset_inter_right _ (segment_subset_rect leftTop rightTop))
    · exact right.mono (inter_subset_inter_right _ (segment_subset_rect rightTop rightBottom))
    · exact bottom.mono (inter_subset_inter_right _ (segment_subset_rect rightBottom leftBottom))
    · exact left.mono (inter_subset_inter_right _ (segment_subset_rect leftBottom leftTop))
    · exact ⟨p, left_mem_segment K p q, both.1⟩

end PlaneSegments
