import Mathlib.Data.List.Basic
import Mathlib.Data.List.Induction

/-! # Words

The words of a line are its longest stretches without a separator.  Splitting at every
separator gives them in order, with an empty piece wherever two separators, or a
separator and an end of the line, have nothing between them. -/

section

variable {α : Type*}

/-- `ws` are the longest stretches of `line` without `sep`, in order. -/
inductive Words (sep : α) : List α → List (List α) → Prop
  | blank {line : List α} (seps : ∀ c ∈ line, c = sep) : Words sep line []
  | word {before w rest : List α} {ws : List (List α)} (seps : ∀ c ∈ before, c = sep)
    (nonempty : w ≠ []) (clean : sep ∉ w) (maximal : ∀ c ∈ rest.head?, c = sep)
    (later : Words sep rest ws) : Words sep (before ++ (w ++ rest)) (w :: ws)

namespace Words

variable [DecidableEq α] {sep : α} {line before : List α} {ws : List (List α)}

/-- The pieces between separators that are not empty. -/
def ofLine (sep : α) (line : List α) : List (List α) := (line.splitOn sep).filter (· ≠ [])

theorem ofLine_cons_sep : ofLine sep (sep :: line) = ofLine sep line := by
  simp [ofLine, List.splitOn_cons_eq_if_modifyHead]

theorem ofLine_seps (seps : ∀ c ∈ before, c = sep) :
    ofLine sep (before ++ line) = ofLine sep line := by
  induction before with
  | nil => rfl
  | cons c before inductionHypothesis =>
    obtain ⟨rfl, others⟩ := List.forall_mem_cons.mp seps
    rw [List.cons_append, ofLine_cons_sep, inductionHypothesis others]

theorem ofLine_word {w : List α} (nonempty : w ≠ []) (clean : sep ∉ w) :
    ofLine sep w = [w] := by
  rw [ofLine, List.splitOn_eq_singleton clean]
  simp [nonempty]

theorem ofLine_word_sep {w : List α} (nonempty : w ≠ []) (clean : sep ∉ w) :
    ofLine sep (w ++ sep :: line) = w :: ofLine sep line := by
  rw [ofLine, List.splitOn_append_cons_self_of_not_mem clean]
  simp [ofLine, nonempty]

/-- A line has no other words than these. -/
theorem eq_ofLine (words : Words sep line ws) : ws = ofLine sep line := by
  induction words with
  | @blank line seps =>
    have none := @ofLine_seps α _ sep [] line seps
    rw [List.append_nil] at none
    rw [none]
    rfl
  | @word before w rest ws seps nonempty clean maximal later inductionHypothesis =>
    rw [ofLine_seps seps, inductionHypothesis]
    cases rest with
    | nil => rw [List.append_nil, ofLine_word nonempty clean]; rfl
    | cons c rest =>
      obtain rfl : c = sep := maximal c rfl
      rw [ofLine_word_sep nonempty clean, ofLine_cons_sep]

omit [DecidableEq α] in
/-- A separator before a line changes no word. -/
theorem cons_sep (words : Words sep line ws) : Words sep (sep :: line) ws := by
  cases words with
  | blank seps => exact .blank (List.forall_mem_cons.mpr ⟨rfl, seps⟩)
  | word seps nonempty clean maximal later =>
    exact .word (List.forall_mem_cons.mpr ⟨rfl, seps⟩) nonempty clean maximal later

/-- A line starts with a stretch without separators, and a separator follows or nothing. -/
theorem exists_stretch (sep : α) (line : List α) :
    ∃ w, sep ∉ w ∧ (line = w ∨ ∃ rest, line = w ++ sep :: rest) := by
  induction line with
  | nil => exact ⟨[], List.not_mem_nil, .inl rfl⟩
  | cons c line inductionHypothesis =>
    by_cases separates : c = sep
    · exact ⟨[], List.not_mem_nil, .inr ⟨line, by rw [separates]; rfl⟩⟩
    · obtain ⟨w, clean, whole | ⟨rest, split⟩⟩ := inductionHypothesis
      · exact ⟨c :: w, by simp [clean, Ne.symm separates], .inl (by rw [whole])⟩
      · exact ⟨c :: w, by simp [clean, Ne.symm separates], .inr ⟨rest, by rw [split]; rfl⟩⟩

theorem words_ofLine (sep : α) (line : List α) : Words sep line (ofLine sep line) := by
  obtain ⟨w, clean, whole | ⟨rest, split⟩⟩ := exists_stretch sep line
  · subst whole
    by_cases empty : line = []
    · subst empty
      exact .blank fun c member => by cases member
    · have last := @word α sep [] line [] [] (fun _ member => by cases member) empty clean
        (fun _ first => by cases first) (.blank fun _ member => by cases member)
      rw [List.append_nil, List.nil_append] at last
      rwa [ofLine_word empty clean]
  · -- a stretch, a separator, and the words of what follows
    have shorter : rest.length < line.length := by
      rw [split, List.length_append, List.length_cons]
      omega
    have later := (words_ofLine sep rest).cons_sep
    by_cases empty : w = []
    · rw [split, empty, List.nil_append, ofLine_cons_sep]
      exact later
    · have next := @word α sep [] w (sep :: rest) _ (fun _ member => by cases member) empty clean
        (fun c first => (Option.some.inj first).symm) later
      rw [List.nil_append] at next
      rwa [split, ofLine_word_sep empty clean]
  termination_by line.length

end Words

end

/-! # Lines of a stream

What arrives item by item is cut where an item is the separator: the lines that are
complete, and what has arrived of the next one. -/

namespace LineFeed

variable {α : Type*} [DecidableEq α] {sep x : α} {xs : List α}

/-- One more item. -/
def feed (sep : α) (cut : List (List α) × List α) (x : α) : List (List α) × List α :=
  if x = sep then (cut.1 ++ [cut.2], []) else (cut.1, cut.2 ++ [x])

/-- The complete lines of a stream, and the rest. -/
def cut (sep : α) (xs : List α) : List (List α) × List α := xs.foldl (feed sep) ([], [])

@[simp] theorem cut_nil : cut sep ([] : List α) = ([], []) := rfl

theorem cut_snoc : cut sep (xs ++ [x]) = feed sep (cut sep xs) x := by
  simp [cut, List.foldl_append]

@[simp] theorem cut_snoc_sep : cut sep (xs ++ [sep]) = ((cut sep xs).1 ++ [(cut sep xs).2], []) := by
  simp [cut_snoc, feed]

theorem cut_snoc_ne (other : x ≠ sep) :
    cut sep (xs ++ [x]) = ((cut sep xs).1, (cut sep xs).2 ++ [x]) := by
  simp [cut_snoc, feed, other]

/-- Nothing is lost: the lines with their separators, and the rest, are the stream. -/
theorem join_cut (sep : α) (xs : List α) :
    (cut sep xs).1.flatMap (fun line => line ++ [sep]) ++ (cut sep xs).2 = xs := by
  induction xs using List.reverseRecOn with
  | nil => rfl
  | append_singleton xs x inductionHypothesis =>
    by_cases same : x = sep
    · subst same
      conv_rhs => rw [← inductionHypothesis]
      simp
    · simp only [cut_snoc_ne same, ← List.append_assoc, inductionHypothesis]

/-- No line has a separator, and neither has the rest. -/
theorem sep_notMem_cut (sep : α) (xs : List α) :
    (∀ line ∈ (cut sep xs).1, sep ∉ line) ∧ sep ∉ (cut sep xs).2 := by
  induction xs using List.reverseRecOn with
  | nil => simp
  | append_singleton xs x inductionHypothesis =>
    obtain ⟨lines, rest⟩ := inductionHypothesis
    by_cases same : x = sep
    · subst same
      simp only [cut_snoc_sep, List.mem_append, List.mem_singleton, List.not_mem_nil,
        not_false_eq_true, and_true]
      intro line member
      cases member with
      | inl earlier => exact lines line earlier
      | inr last => exact last ▸ rest
    · simp only [cut_snoc_ne same, List.mem_append, List.mem_singleton, not_or]
      exact ⟨lines, rest, Ne.symm same⟩

end LineFeed
