import Mathlib.Data.List.TakeWhile
import Antonix.Types

/-! # Paths (`url_utils.c`, `vfs.c`)

A C string is the list of its characters.  A path is cut in two ways: into the
components that `vfs_parse_url` follows, one for every delimiter, and into what is
before and behind the last delimiter.  A copy into a buffer that is too small for
it is undefined. -/

namespace Antonix.Vfs

/-- `VFS_PATH_DELIMITER` -/
abbrev delimiter : Char := '/'

/-- `VFS_MAX_DIRNAME_LENGTH` -/
abbrev vfsMaxDirnameLength : Nat := 255

/-- `strcpy` into a buffer of `capacity` bytes. -/
def strcpy (capacity : Nat) (src : List Char) : Except Halt (List Char) :=
  if src.length < capacity then .ok src else .error .stuck

/-- The index that `strrchr(path, VFS_PATH_DELIMITER)` finds. -/
def lastDelimiter : List Char → Option Nat
  | [] => none
  | c :: rest =>
    match lastDelimiter rest with
    | some i => some (i + 1)
    | none => if c = delimiter then some 0 else none

/-- `url_get_basename` -/
def urlGetBasename (capacity : Nat) (path : List Char) : Except Halt (List Char) :=
  match lastDelimiter path with
  | none => strcpy capacity path
  | some i => strcpy capacity (path.drop (i + 1))

/-- `url_get_dirname` -/
def urlGetDirname (capacity : Nat) (path : List Char) : Except Halt (List Char) :=
  match lastDelimiter path with
  | none => strcpy capacity ['.']
  | some 0 => strcpy capacity [delimiter]
  | some len => strcpy capacity (path.take len)

/-- The `components` of `vfs_parse_url`: behind every delimiter, up to the next one. -/
def components : List Char → List (List Char)
  | [] => []
  | c :: rest =>
    if c = delimiter then rest.takeWhile (· ≠ delimiter) :: components rest
    else components rest

/-- `implode_str` -/
def implodeStr (comps : List (List Char)) : List Char :=
  comps.flatMap fun comp => delimiter :: comp

section

variable {path front base : List Char}

/-- A path with a delimiter is what is before the last one and what is behind it. -/
theorem exists_last_delimiter (some : delimiter ∈ path) :
    ∃ front base, path = front ++ delimiter :: base ∧ delimiter ∉ base := by
  induction path with
  | nil => simp at some
  | cons c rest inductionHypothesis =>
    by_cases later : delimiter ∈ rest
    · obtain ⟨front, base, rfl, last⟩ := inductionHypothesis later
      exact ⟨c :: front, base, rfl, last⟩
    · cases List.mem_cons.mp some with
      | inl first => exact ⟨[], rest, by rw [first]; rfl, later⟩
      | inr member => exact absurd member later

theorem lastDelimiter_none (none : delimiter ∉ path) : lastDelimiter path = Option.none := by
  induction path with
  | nil => rfl
  | cons c rest inductionHypothesis =>
    obtain ⟨first, later⟩ := not_or.mp (fun is => none (List.mem_cons.mpr is))
    rw [lastDelimiter, inductionHypothesis later]
    exact if_neg (Ne.symm first)

theorem lastDelimiter_append (last : delimiter ∉ base) :
    lastDelimiter (front ++ delimiter :: base) = some front.length := by
  induction front with
  | nil =>
    rw [List.nil_append, lastDelimiter, lastDelimiter_none last]
    rfl
  | cons c front inductionHypothesis =>
    rw [List.cons_append, lastDelimiter, inductionHypothesis]
    rfl

theorem urlGetBasename_append {capacity : Nat} (last : delimiter ∉ base) :
    urlGetBasename capacity (front ++ delimiter :: base) = strcpy capacity base := by
  simp only [urlGetBasename, lastDelimiter_append last]
  congr 1
  rw [List.drop_append, List.drop_eq_nil_of_le (by omega)]
  simp

/-- The directory of a path; that of `/name` is the root, and so is that of `//name`. -/
theorem urlGetDirname_append {capacity : Nat} (last : delimiter ∉ base) :
    urlGetDirname capacity (front ++ delimiter :: base) =
      strcpy capacity (if front = [] then [delimiter] else front) := by
  cases front with
  | nil =>
    have first : lastDelimiter (delimiter :: base) = some 0 := by
      have after := @lastDelimiter_append [] base last
      simpa using after
    rw [List.nil_append, urlGetDirname, first]
    rfl
  | cons c front =>
    rw [urlGetDirname, lastDelimiter_append last, List.length_cons]
    simp

theorem components_delimiter (rest : List Char) :
    components (delimiter :: rest) = rest.takeWhile (· ≠ delimiter) :: components rest := if_pos rfl

theorem components_other {c : Char} (other : c ≠ delimiter) (rest : List Char) :
    components (c :: rest) = components rest := if_neg other

theorem components_of_noDelimiter (none : delimiter ∉ path) : components path = [] := by
  induction path with
  | nil => rfl
  | cons c rest inductionHypothesis =>
    obtain ⟨first, later⟩ := not_or.mp (fun is => none (List.mem_cons.mpr is))
    rw [components_other (Ne.symm first), inductionHypothesis later]

theorem takeWhile_noDelimiter (none : delimiter ∉ path) :
    path.takeWhile (· ≠ delimiter) = path := by
  apply List.takeWhile_eq_self_iff.mpr
  intro c member
  have other : c ≠ delimiter := fun same => none (same ▸ member)
  simpa using other

/-- A component ends where the next delimiter is. -/
theorem takeWhile_append_delimiter (front base : List Char) :
    (front ++ delimiter :: base).takeWhile (· ≠ delimiter) = front.takeWhile (· ≠ delimiter) := by
  induction front with
  | nil => simp
  | cons c front inductionHypothesis =>
    rw [List.cons_append, List.takeWhile_cons, List.takeWhile_cons, inductionHypothesis]

/-- The last component is what is behind the last delimiter. -/
theorem components_append (last : delimiter ∉ base) :
    components (front ++ delimiter :: base) = components front ++ [base] := by
  induction front with
  | nil =>
    rw [List.nil_append, components_delimiter, components_of_noDelimiter last,
      takeWhile_noDelimiter last]
    rfl
  | cons c front inductionHypothesis =>
    by_cases isDelimiter : c = delimiter
    · subst isDelimiter
      rw [List.cons_append, components_delimiter, components_delimiter, inductionHypothesis,
        takeWhile_append_delimiter]
      rfl
    · rw [List.cons_append, components_other isDelimiter, components_other isDelimiter,
        inductionHypothesis]

/-- What is before the first delimiter, and the components behind it, make the whole path. -/
theorem takeWhile_implodeStr (path : List Char) :
    path.takeWhile (· ≠ delimiter) ++ implodeStr (components path) = path := by
  induction path with
  | nil => rfl
  | cons c rest inductionHypothesis =>
    by_cases isDelimiter : c = delimiter
    · subst isDelimiter
      rw [components_delimiter, implodeStr, List.flatMap_cons]
      simpa [implodeStr] using inductionHypothesis
    · rw [components_other isDelimiter, List.takeWhile_cons_of_pos (by simpa using isDelimiter),
        List.cons_append, inductionHypothesis]

/-- An absolute path is its components, each behind its delimiter. -/
theorem implodeStr_components (rest : List Char) :
    implodeStr (components (delimiter :: rest)) = delimiter :: rest := by
  have whole := takeWhile_implodeStr (delimiter :: rest)
  simpa using whole

/-- Absolute paths with the same components are the same. -/
theorem components_injective {rest rest' : List Char}
    (same : components (delimiter :: rest) = components (delimiter :: rest')) : rest = rest' := by
  have imploded := congrArg implodeStr same
  rw [implodeStr_components, implodeStr_components] at imploded
  exact (List.cons.inj imploded).2

theorem implodeStr_append (comps comps' : List (List Char)) :
    implodeStr (comps ++ comps') = implodeStr comps ++ implodeStr comps' := List.flatMap_append

/-- There is no delimiter in a component. -/
theorem noDelimiter_of_mem {comp : List Char} (member : comp ∈ components path) :
    delimiter ∉ comp := by
  induction path with
  | nil => contradiction
  | cons c rest inductionHypothesis =>
    by_cases isDelimiter : c = delimiter
    · subst isDelimiter
      rw [components_delimiter] at member
      cases List.mem_cons.mp member with
      | inl first =>
        intro inside
        rw [first] at inside
        simpa using List.mem_takeWhile_imp inside
      | inr later => exact inductionHypothesis later
    · rw [components_other isDelimiter] at member
      exact inductionHypothesis member

theorem components_append_clean (clean : delimiter ∉ front) (rest : List Char) :
    components (front ++ rest) = components rest := by
  induction front with
  | nil => rfl
  | cons c front inductionHypothesis =>
    obtain ⟨first, later⟩ := not_or.mp (fun is => clean (List.mem_cons.mpr is))
    rw [List.cons_append, components_other (Ne.symm first), inductionHypothesis later]

/-- A path that was put together has the components that it was made of. -/
theorem components_implodeStr {comps : List (List Char)}
    (clean : ∀ comp ∈ comps, delimiter ∉ comp) : components (implodeStr comps) = comps := by
  induction comps with
  | nil => rfl
  | cons comp comps inductionHypothesis =>
    have first : delimiter ∉ comp := clean comp List.mem_cons_self
    have later := inductionHypothesis fun c member => clean c (List.mem_cons_of_mem _ member)
    have whole : implodeStr (comp :: comps) = delimiter :: (comp ++ implodeStr comps) := rfl
    have ends : (comp ++ implodeStr comps).takeWhile (· ≠ delimiter) = comp := by
      cases comps with
      | nil =>
        rw [implodeStr, List.flatMap_nil, List.append_nil]
        exact takeWhile_noDelimiter first
      | cons next comps =>
        have more : implodeStr (next :: comps) = delimiter :: (next ++ implodeStr comps) := rfl
        rw [more, takeWhile_append_delimiter]
        exact takeWhile_noDelimiter first
    rw [whole, components_delimiter, ends, components_append_clean first, later]

end

end Antonix.Vfs
