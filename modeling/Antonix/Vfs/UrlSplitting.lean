import Antonix.Lib.Words
import Antonix.Vfs.Normalize

/-! # Components as pointers (`url_utils.c`)

`url_decompose` goes through a path twice: it counts the delimiters, and then puts a pointer
behind each of them into the array of the caller.  `url_extract_comp` takes the length of a
component from the next pointer; the last component ends where the path does. -/

namespace Antonix.UrlUtils

open Vfs

/-- The first loop of `url_decompose`, from character `i` on. -/
def countComps (url : List Char) (delim : Char) : Nat → Nat → Nat → Nat
  | 0, _, compCount => compCount
  | left + 1, i, compCount =>
    countComps url delim left (i + 1)
      (if url[i]? = some delim then compCount + 1 else compCount)

/-- The second loop, from character `i` on, with an array for `room` pointers.  A pointer is the
index of the character that it points to. -/
def collectComps (url : List Char) (delim : Char) (room : Nat) :
    Nat → Nat → List Nat → Except Halt (List Nat)
  | 0, _, compArr => .ok compArr
  | left + 1, i, compArr =>
    if url[i]? = some delim then
      if compArr.length < room then
        collectComps url delim room left (i + 1) (compArr ++ [i + 1])
      else .error .stuck
    else collectComps url delim room left (i + 1) compArr

/-- `url_decompose` with `NULL`, or an array of some size, for `components`. -/
def urlDecompose (url : List Char) (delim : Char) (components : Option Nat) :
    Except Halt (HResult × List Nat × Nat) :=
  let compCount := countComps url delim url.length 0 0
  match components with
  | none => .ok (.sOk, [], compCount)
  | some room =>
    if compCount = 0 then .ok (.sOk, [], compCount)
    else
      match collectComps url delim room url.length 0 [] with
      | .error halt => .error halt
      | .ok compArr => .ok (.sOk, compArr, compCount)

/-- `url_extract_comp` into a buffer of `capacity` bytes. -/
def urlExtractComp (capacity : Nat) (url : List Char) (components : List Nat) (count id : Nat) :
    Except Halt (List Char) :=
  if id ≥ count then strcpy capacity []
  else if id = count - 1 then
    match components[id]? with
    | some comp => strcpy capacity (url.drop comp)
    | none => .error .stuck
  else
    match components[id]?, components[id + 1]? with
    | some comp, some next =>
      let offs := sub32 next comp
      strcpy capacity ((url.drop comp).take (offs - 1))
    | _, _ => .error .stuck

/-! ## What is asked of them -/

/-- The longest stretch without a delimiter behind the `i`-th delimiter. -/
def PieceAt (url : List Char) (i : Nat) (piece : List Char) : Prop :=
  ∃ before after, url = before ++ delimiter :: (piece ++ after) ∧ before.count delimiter = i ∧
    delimiter ∉ piece ∧ ∀ c ∈ after.head?, c = delimiter

/-- The destinations have room: for every piece, and for what is before the last delimiter. -/
structure Fits (url : List Char) (capacity dirCapacity : Nat) : Prop where
  whole : url.length < 2 ^ 32
  piece : ∀ i piece, PieceAt url i piece → piece.length < capacity
  dirname : ∀ front base, url = front ++ delimiter :: base → delimiter ∉ base →
    max 1 front.length < dirCapacity

/-- The only delimiter is the first character. -/
def OnlyFirst (url : List Char) : Prop := ∃ base, url = delimiter :: base ∧ delimiter ∉ base

/-- The only delimiters are the first two characters. -/
def OnlyFirstTwo (url : List Char) : Prop :=
  ∃ base, url = delimiter :: delimiter :: base ∧ delimiter ∉ base

section

variable {url before after piece base : List Char} {delim : Char} {capacity room i k : Nat}

/-! ## The two loops -/

/-- The pointers behind the delimiters of a path that begins at `k`. -/
def starts : List Char → Nat → List Nat
  | [], _ => []
  | c :: rest, k =>
    if c = delimiter then (k + 1) :: starts rest (k + 1) else starts rest (k + 1)

theorem length_starts (url : List Char) (k : Nat) :
    (starts url k).length = url.count delimiter := by
  induction url generalizing k with
  | nil => rfl
  | cons c rest inductionHypothesis =>
    by_cases here : c = delimiter
    · simp [starts, here, inductionHypothesis]
    · simp [starts, here, inductionHypothesis]

theorem starts_append (before rest : List Char) (k : Nat) :
    starts (before ++ rest) k = starts before k ++ starts rest (k + before.length) := by
  induction before generalizing k with
  | nil => rfl
  | cons c before inductionHypothesis =>
    have position : k + (c :: before).length = k + 1 + before.length := by
      rw [List.length_cons]
      omega
    rw [List.cons_append, starts, starts, inductionHypothesis, position]
    by_cases here : c = delimiter
    · simp [here]
    · simp [here]

theorem starts_clean (clean : delimiter ∉ piece) (k : Nat) : starts piece k = [] := by
  rw [← List.length_eq_zero_iff, length_starts, List.count_eq_zero_of_not_mem clean]

/-- The first loop counts what is left of the path. -/
theorem countComps_eq (left : Nat) : ∀ i compCount, i + left = url.length →
    countComps url delim left i compCount = compCount + (url.drop i).count delim := by
  induction left with
  | zero =>
    intro i compCount ends
    rw [List.drop_of_length_le (by omega)]
    rfl
  | succ left inductionHypothesis =>
    intro i compCount ends
    have inside : i < url.length := by omega
    rw [countComps, inductionHypothesis (i + 1) _ (by omega), List.drop_eq_getElem_cons inside,
      List.getElem?_eq_getElem inside, List.count_cons]
    by_cases here : url[i] = delim
    · simp only [here, if_true, beq_self_eq_true]
      omega
    · simp [here]

/-- The second loop has room for as many pointers as the first has counted. -/
theorem collectComps_eq (left : Nat) : ∀ i compArr, i + left = url.length →
    compArr.length + (url.drop i).count delimiter ≤ room →
    collectComps url delimiter room left i compArr =
      .ok (compArr ++ starts (url.drop i) i) := by
  induction left with
  | zero =>
    intro i compArr ends _
    rw [List.drop_of_length_le (by omega), collectComps, starts, List.append_nil]
  | succ left inductionHypothesis =>
    intro i compArr ends enough
    have inside : i < url.length := by omega
    rw [List.drop_eq_getElem_cons inside, List.count_cons] at enough
    rw [collectComps, List.getElem?_eq_getElem inside, List.drop_eq_getElem_cons inside, starts]
    by_cases here : url[i] = delimiter
    · rw [if_pos (beq_iff_eq.mpr here)] at enough
      have later : (compArr ++ [i + 1]).length + (url.drop (i + 1)).count delimiter ≤ room := by
        rw [List.length_append, List.length_singleton]
        omega
      rw [if_pos (by rw [here]), if_pos (by omega), if_pos here,
        inductionHypothesis (i + 1) _ (by omega) later, List.append_assoc]
      rfl
    · rw [if_neg (by simpa using here)] at enough
      have other : ¬ some url[i] = some delimiter := fun same => here (Option.some.inj same)
      rw [if_neg other, if_neg here, inductionHypothesis (i + 1) _ (by omega) (by omega)]

theorem urlDecompose_null (url : List Char) :
    urlDecompose url delim none = .ok (.sOk, [], url.count delim) := by
  have count := @countComps_eq url delim url.length 0 0 (Nat.zero_add _)
  rw [Nat.zero_add, List.drop_zero] at count
  rw [urlDecompose, count]

/-- An array for the pointers that were counted is filled. -/
theorem urlDecompose_eq (url : List Char) :
    urlDecompose url delimiter (some (url.count delimiter)) =
      .ok (.sOk, starts url 0, url.count delimiter) := by
  have count := @countComps_eq url delimiter url.length 0 0 (Nat.zero_add _)
  have collect := @collectComps_eq url (url.count delimiter) url.length 0 [] (Nat.zero_add _)
    (by simp)
  rw [Nat.zero_add, List.drop_zero] at count
  rw [List.drop_zero, List.nil_append] at collect
  rw [urlDecompose, count, collect]
  dsimp only
  by_cases none : url.count delimiter = 0
  · rw [if_pos none, ← length_starts url 0] at *
    rw [List.length_eq_zero_iff.mp none]
  · rw [if_neg none]

/-! ## The pieces -/

theorem components_split (before rest : List Char) :
    components (before ++ delimiter :: rest) =
      components before ++ rest.takeWhile (· ≠ delimiter) :: components rest := by
  induction before with
  | nil => exact components_delimiter rest
  | cons c before inductionHypothesis =>
    by_cases here : c = delimiter
    · subst here
      rw [List.cons_append, components_delimiter, components_delimiter, inductionHypothesis,
        takeWhile_append_delimiter]
      rfl
    · rw [List.cons_append, components_other here, components_other here, inductionHypothesis]

theorem length_components (url : List Char) :
    (components url).length = url.count delimiter := by
  induction url with
  | nil => rfl
  | cons c rest inductionHypothesis =>
    by_cases here : c = delimiter
    · simp [here, components_delimiter, inductionHypothesis]
    · simp [components_other here, here, inductionHypothesis]

theorem exists_ith_delimiter (inside : i < url.count delimiter) :
    ∃ before rest, url = before ++ delimiter :: rest ∧ before.count delimiter = i := by
  induction url generalizing i with
  | nil => simp at inside
  | cons c url inductionHypothesis =>
    by_cases here : c = delimiter
    · subst here
      cases i with
      | zero => exact ⟨[], url, rfl, rfl⟩
      | succ i =>
        rw [List.count_cons_self] at inside
        obtain ⟨before, rest, split, count⟩ := inductionHypothesis (Nat.lt_of_succ_lt_succ inside)
        exact ⟨delimiter :: before, rest, by rw [split]; rfl, by rw [List.count_cons_self, count]⟩
    · rw [List.count_cons_of_ne here] at inside
      obtain ⟨before, rest, split, count⟩ := inductionHypothesis inside
      exact ⟨c :: before, rest, by rw [split]; rfl, by rw [List.count_cons_of_ne here, count]⟩

/-- There is a piece behind every delimiter. -/
theorem exists_pieceAt (inside : i < url.count delimiter) : ∃ piece, PieceAt url i piece := by
  obtain ⟨before, rest, split, count⟩ := exists_ith_delimiter inside
  obtain ⟨piece, clean, last | ⟨after, more⟩⟩ := Words.exists_stretch delimiter rest
  · exact ⟨piece, before, [], by rw [split, last, List.append_nil], count, clean, by simp⟩
  · exact ⟨piece, before, delimiter :: after, by rw [split, more], count, clean, by simp⟩

/-- The piece behind a delimiter is the component. -/
theorem PieceAt.component (behind : PieceAt url i piece) : (components url)[i]? = some piece := by
  obtain ⟨before, after, rfl, count, clean, ends⟩ := behind
  have stretch : (piece ++ after).takeWhile (· ≠ delimiter) = piece := by
    cases after with
    | nil => rw [List.append_nil, takeWhile_noDelimiter clean]
    | cons c after =>
      obtain rfl : c = delimiter := ends c rfl
      rw [takeWhile_append_delimiter, takeWhile_noDelimiter clean]
  rw [components_split, stretch, ← count, ← length_components before,
    List.getElem?_append_right (Nat.le_refl _), Nat.sub_self]
  rfl

theorem PieceAt.inside (behind : PieceAt url i piece) : i < url.count delimiter := by
  obtain ⟨before, after, rfl, count, clean, ends⟩ := behind
  rw [List.count_append, List.count_cons_self]
  omega

/-- The length of a piece is found from the next pointer, or from the end of the path. -/
theorem urlExtractComp_piece (whole : url.length < 2 ^ 32) (behind : PieceAt url i piece) :
    urlExtractComp capacity url (starts url 0) (url.count delimiter) i =
      strcpy capacity piece := by
  have inside := behind.inside
  obtain ⟨before, after, rfl, count, clean, ends⟩ := behind
  have position : ∀ rest : List Char,
      starts (before ++ delimiter :: (piece ++ rest)) 0 =
        starts before 0 ++ (before.length + 1) ::
          starts rest (before.length + 1 + piece.length) := by
    intro rest
    rw [starts_append, starts, if_pos rfl, starts_append, starts_clean clean, Nat.zero_add]
    rfl
  have length : (starts before 0).length = i := by rw [length_starts, count]
  have dropped : (before ++ delimiter :: (piece ++ after)).drop (before.length + 1) =
      piece ++ after := by
    rw [List.drop_append, List.drop_of_length_le (by omega), Nat.add_sub_cancel_left]
    rfl
  have pointer : (starts (before ++ delimiter :: (piece ++ after)) 0)[i]? =
      some (before.length + 1) := by
    rw [position, List.getElem?_append_right (by omega), length, Nat.sub_self]
    rfl
  rw [urlExtractComp, if_neg (by omega), pointer]
  cases after with
  | nil =>
    -- the last one
    have last : i = (before ++ delimiter :: (piece ++ [])).count delimiter - 1 := by
      rw [List.append_nil, List.count_append, List.count_cons_self,
        List.count_eq_zero_of_not_mem clean, count]
      omega
    rw [if_pos last]
    dsimp only
    rw [dropped, List.append_nil]
  | cons c after =>
    obtain rfl : c = delimiter := ends c rfl
    have next : (starts (before ++ delimiter :: (piece ++ delimiter :: after)) 0)[i + 1]? =
        some (before.length + 1 + piece.length + 1) := by
      rw [position, List.getElem?_append_right (by omega), length, Nat.add_sub_cancel_left,
        List.getElem?_cons_succ, starts, if_pos rfl]
      rfl
    have more : i ≠ (before ++ delimiter :: (piece ++ delimiter :: after)).count delimiter - 1 := by
      simp only [List.count_append, List.count_cons_self, List.count_eq_zero_of_not_mem clean]
      omega
    have offs : sub32 (before.length + 1 + piece.length + 1) (before.length + 1) - 1 =
        piece.length := by
      simp only [List.length_append, List.length_cons] at whole
      rw [sub32_of_le (by omega) (by omega)]
      omega
    rw [if_neg more, next]
    dsimp only
    rw [offs, dropped, List.take_left]

/-- What normalising takes from the components is what the pointers give. -/
theorem urlExtractComp_refines (whole : url.length < 2 ^ 32) (id : Nat) :
    urlExtractComp vfsMaxFilenameLength url (starts url 0) (url.count delimiter) id =
      Vfs.urlExtractComp (Vfs.urlDecompose url).2 id := by
  by_cases inside : id < url.count delimiter
  · obtain ⟨piece, behind⟩ := exists_pieceAt inside
    rw [urlExtractComp_piece whole behind, Vfs.urlExtractComp, Vfs.urlDecompose,
      behind.component]
  · have beyond : (components url)[id]? = none := by
      rw [List.getElem?_eq_none_iff, length_components]
      omega
    rw [urlExtractComp, if_pos (by omega), Vfs.urlExtractComp, Vfs.urlDecompose, beyond]
    rfl

/-! ## What is before the last delimiter -/

theorem onlyFirst_iff {front : List Char} (last : delimiter ∉ base) :
    OnlyFirst (front ++ delimiter :: base) ↔ front = [] := by
  constructor
  · intro ⟨base', split, clean⟩
    cases front with
    | nil => rfl
    | cons c front =>
      -- the last delimiter would be behind the first
      have rest := (List.cons.inj split).2
      rw [← rest] at clean
      simp at clean
  · intro empty
    exact ⟨base, by rw [empty]; rfl, last⟩

theorem onlyFirstTwo_iff {front : List Char} (last : delimiter ∉ base) :
    OnlyFirstTwo (front ++ delimiter :: base) ↔ front = [delimiter] := by
  constructor
  · intro ⟨base', split, clean⟩
    cases front with
    | nil =>
      have rest := (List.cons.inj split).2
      rw [rest] at last
      simp at last
    | cons c front =>
      obtain ⟨rfl, rest⟩ := List.cons.inj split
      have first := (@onlyFirst_iff base front last).mp ⟨base', rest, clean⟩
      rw [first]
  · intro one
    exact ⟨base, by rw [one]; rfl, last⟩

/-- Destinations that are longer than the path have room. -/
theorem fits_of_long (whole : url.length < 2 ^ 32) (long : max 1 url.length < capacity) :
    Fits url capacity capacity where
  whole := whole
  piece := by
    intro i piece ⟨before, after, split, _⟩
    rw [split] at long
    simp only [List.length_append, List.length_cons] at long
    omega
  dirname := by
    intro front base split _
    rw [split] at long
    simp only [List.length_append, List.length_cons] at long
    omega

theorem strcpy_fits {text : List Char} (fits : text.length < capacity) :
    strcpy capacity text = .ok text := if_pos fits

end

/-- The pieces behind the delimiters are counted, pointed to and extracted in order, and put
together they are the path from its first delimiter on.  The last of them is the base name, and
with the directory it makes the path again; the directory of a path whose only delimiter is the
first character is that delimiter itself. -/
theorem url_splitting (url : List Char) (capacity dirCapacity : Nat) (delimited : delimiter ∈ url)
    (fits : Fits url capacity dirCapacity) :
    ∃ (comps : List Nat) (names : List (List Char)) (base dir : List Char),
      urlDecompose url delimiter none = .ok (.sOk, [], url.count delimiter) ∧
      urlDecompose url delimiter (some (url.count delimiter)) =
        .ok (.sOk, comps, url.count delimiter) ∧
      names.length = url.count delimiter ∧
      (∀ (i : Nat) (inside : i < names.length), PieceAt url i names[i] ∧
        urlExtractComp capacity url comps (url.count delimiter) i = .ok names[i]) ∧
      (names.flatMap fun name => delimiter :: name) = url.dropWhile (· ≠ delimiter) ∧
      urlGetBasename capacity url = .ok base ∧ names.getLast? = some base ∧
      urlGetDirname dirCapacity url = .ok dir ∧
      (¬ OnlyFirst url → dir ++ delimiter :: base = url) ∧
      (OnlyFirst url → dir ++ base = url) ∧
      (dir = [delimiter] ↔ OnlyFirst url ∨ OnlyFirstTwo url) := by
  obtain ⟨front, base, split, last⟩ := exists_last_delimiter delimited
  have lastPiece : PieceAt url (front.count delimiter) base :=
    ⟨front, [], by rw [List.append_nil, split], rfl, last, by simp⟩
  have baseFits := fits.piece _ _ lastPiece
  have dirFits := fits.dirname front base split last
  have whole := takeWhile_implodeStr url
  refine ⟨starts url 0, components url, base, if front = [] then [delimiter] else front,
    urlDecompose_null url, urlDecompose_eq url, length_components url, ?_, ?_, ?_, ?_, ?_, ?_, ?_,
    ?_⟩
  · intro i inside
    obtain ⟨piece, behind⟩ := exists_pieceAt (by rwa [length_components] at inside)
    have component := behind.component
    rw [List.getElem?_eq_getElem inside] at component
    rw [Option.some.inj component, urlExtractComp_piece fits.whole behind,
      strcpy_fits (fits.piece i piece behind)]
    exact ⟨behind, rfl⟩
  · have parts := @List.takeWhile_append_dropWhile _ (· ≠ delimiter) url
    exact List.append_cancel_left (whole.trans parts.symm)
  · rw [split, urlGetBasename_append last, strcpy_fits baseFits]
  · rw [split, components_append last, List.getLast?_concat]
  · have short : (if front = [] then [delimiter] else front).length < dirCapacity := by
      by_cases empty : front = []
      · rw [if_pos empty, List.length_singleton]
        omega
      · rw [if_neg empty]
        omega
    rw [split, urlGetDirname_append last, strcpy_fits short]
  · intro more
    rw [split, onlyFirst_iff last] at more
    rw [if_neg more, split]
  · intro first
    rw [split, onlyFirst_iff last] at first
    rw [if_pos first, split, first]
    rfl
  · rw [split, onlyFirst_iff last, onlyFirstTwo_iff last]
    by_cases empty : front = []
    · simp [empty]
    · simp [empty]

/-- A path with two delimiters in a row, and one at the end. -/
theorem url_splitting_doubled :
    ∃ (names : List (List Char)) (base dir : List Char),
      names.length = 3 ∧
      (names.flatMap fun name => delimiter :: name) = ['/', '/', 'b', '/'] ∧
      urlGetBasename 6 ['a', '/', '/', 'b', '/'] = .ok base ∧
      urlGetDirname 6 ['a', '/', '/', 'b', '/'] = .ok dir ∧
      dir ++ delimiter :: base = ['a', '/', '/', 'b', '/'] := by
  obtain ⟨comps, names, base, dir, _, _, count, _, joined, baseName, _, dirName, whole, _, _⟩ :=
    url_splitting ['a', '/', '/', 'b', '/'] 6 6 (by decide) (fits_of_long (by decide) (by decide))
  have notFirst : ¬ OnlyFirst ['a', '/', '/', 'b', '/'] := by
    intro ⟨base, split, _⟩
    cases split
  exact ⟨names, base, dir, count, joined, baseName, dirName, whole notFirst⟩

/-- The directory of `/a` would make `//a` of it, and that of `//a` is a delimiter, too. -/
theorem dirname_not_always :
    (¬ ∀ path dir base : List Char, delimiter ∈ path →
      urlGetDirname 255 path = .ok dir → urlGetBasename 255 path = .ok base →
      dir ++ delimiter :: base = path) ∧
    ¬ ∀ path dir : List Char, delimiter ∈ path → urlGetDirname 255 path = .ok dir →
      (dir = [delimiter] ↔ OnlyFirst path) := by
  constructor
  · intro joins
    have wrong := joins ['/', 'a'] ['/'] ['a'] (by decide) rfl rfl
    simp at wrong
  · intro only
    obtain ⟨base, split, clean⟩ := (only ['/', '/', 'a'] ['/'] (by decide) rfl).mp rfl
    obtain rfl : base = ['/', 'a'] := (List.cons.inj split).2.symm
    simp at clean

end Antonix.UrlUtils
