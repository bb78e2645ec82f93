import Mathlib.Data.List.TakeWhile
import Antonix.Types

/-! # Names in directory records (`iso9660.c`)

`iso9660_extract_filename` copies a name into the buffer of its caller and looks for a `;` before
the name is terminated.  A name without one is followed, for the search, by what is left in the
buffer. -/

namespace Antonix.Drivers

/-- The character before the version number of a file. -/
abbrev semicolon : BitVec 8 := 0x3B

/-- A character that ends the search of `iso9660_extract_filename`. -/
abbrev EndsName (c : BitVec 8) : Prop := c = 0 ∨ c = semicolon

/-- The loop of `iso9660_extract_filename` over the rest of the buffer: `true` where it has put a
terminator for a `;`.  Behind the buffer there is nothing to look at. -/
def discardVersion : List (BitVec 8) → Except Halt (Bool × List (BitVec 8))
  | [] => .error .stuck
  | c :: rest =>
    if c = 0 then .ok (false, c :: rest)
    else if c = semicolon then .ok (true, 0 :: rest)
    else (discardVersion rest).map fun result => (result.1, c :: result.2)

/-- `iso9660_extract_filename`, where `name` is the `name_length` bytes of the record's name and
`target` the whole buffer of the caller. -/
def iso9660ExtractFilename (name target : List (BitVec 8)) : Except Halt (List (BitVec 8)) :=
  if target.length < name.length then .error .stuck
  else do
    let (cut, target) ← discardVersion (name ++ target.drop name.length)
    if cut then .ok target
    else if target.length ≤ name.length then .error .stuck
    else .ok (target.set name.length 0)

/-- The C string at the start of a buffer. -/
def cString (buffer : List (BitVec 8)) : List (BitVec 8) := buffer.takeWhile (· ≠ 0)

/-- A name without its version number. -/
def isoName (name : List (BitVec 8)) : List (BitVec 8) := name.takeWhile fun c => ¬EndsName c

/-- The name is extracted within `name_length + 1` bytes of the buffer: with these alone the result
is the same, and the others are left as they are. -/
def ExtractsWithin (name target : List (BitVec 8)) : Prop :=
  ∃ out, iso9660ExtractFilename name (target.take (name.length + 1)) = .ok out ∧
    cString out = isoName name ∧
    iso9660ExtractFilename name target = .ok (out ++ target.drop (name.length + 1))

section

variable {name target used front back rest : List (BitVec 8)} {c d : BitVec 8}

/-- The first character that ends the search decides; what is behind it stays. -/
theorem discardVersion_append (inside : ∀ d ∈ name, ¬EndsName d)
    (ends : EndsName c) :
    discardVersion (name ++ c :: rest) = .ok (decide (c = semicolon), name ++ 0 :: rest) := by
  induction name with
  | nil =>
    cases ends with
    | inl zero =>
      subst zero
      rfl
    | inr isSemicolon =>
      subst isSemicolon
      rfl
  | cons d name inductionHypothesis =>
    obtain ⟨first, later⟩ := List.forall_mem_cons.mp inside
    obtain ⟨notZero, notSemicolon⟩ := not_or.mp first
    rw [List.cons_append, discardVersion, if_neg notZero, if_neg notSemicolon,
      inductionHypothesis later]
    rfl

/-- Without such a character the search leaves the buffer. -/
theorem discardVersion_stuck (inside : ∀ d ∈ name, ¬EndsName d) :
    discardVersion name = .error .stuck := by
  induction name with
  | nil => rfl
  | cons d name inductionHypothesis =>
    obtain ⟨first, later⟩ := List.forall_mem_cons.mp inside
    obtain ⟨notZero, notSemicolon⟩ := not_or.mp first
    rw [discardVersion, if_neg notZero, if_neg notSemicolon, inductionHypothesis later]
    rfl

theorem extractFilename_eq (length : used.length = name.length) :
    iso9660ExtractFilename name (used ++ d :: rest) = (do
      let (cut, target) ← discardVersion (name ++ d :: rest)
      if cut then .ok target
      else if target.length ≤ name.length then .error .stuck
      else .ok (target.set name.length 0)) := by
  have room : ¬(used ++ d :: rest).length < name.length := by
    rw [List.length_append, length]
    omega
  have behind : (used ++ d :: rest).drop name.length = d :: rest := by
    rw [← length, List.drop_left]
  rw [iso9660ExtractFilename, if_neg room, behind]

/-- The search ends in the name: the byte behind it is terminated too, unless it was a `;`. -/
theorem extractFilename_inside (length : used.length = (front ++ c :: back).length)
    (inside : ∀ d ∈ front, ¬EndsName d) (ends : EndsName c) :
    iso9660ExtractFilename (front ++ c :: back) (used ++ d :: rest) =
      .ok (front ++ 0 :: back ++ (if c = semicolon then d else 0) :: rest) := by
  have found : discardVersion (front ++ c :: back ++ d :: rest) =
      .ok (decide (c = semicolon), front ++ 0 :: back ++ d :: rest) := by
    rw [List.append_assoc, List.cons_append, discardVersion_append inside ends]
    simp
  rw [extractFilename_eq length, found]
  cases ends with
  | inl zero =>
    subst zero
    have terminated : (front ++ 0 :: back ++ d :: rest).set (front ++ 0 :: back).length 0 =
        front ++ 0 :: back ++ 0 :: rest := by
      rw [List.set_append_right _ _ (Nat.le_refl _), Nat.sub_self]
      rfl
    have room : ¬(front ++ 0 :: back ++ d :: rest).length ≤ (front ++ 0 :: back).length := by
      rw [List.length_append, List.length_cons]
      omega
    dsimp only [bind, Except.bind]
    rw [terminated, if_neg (by decide), if_neg room]
    rfl
  | inr isSemicolon =>
    subst isSemicolon
    simp [bind, Except.bind]

/-- The search goes through the whole name and ends right behind it. -/
theorem extractFilename_behind (length : used.length = name.length)
    (inside : ∀ d ∈ name, ¬EndsName d) (ends : EndsName d) :
    iso9660ExtractFilename name (used ++ d :: rest) = .ok (name ++ 0 :: rest) := by
  rw [extractFilename_eq length, discardVersion_append inside ends]
  cases ends with
  | inl zero =>
    subst zero
    simp [bind, Except.bind]
  | inr isSemicolon =>
    subst isSemicolon
    simp [bind, Except.bind]

theorem cString_append (clean : ∀ d ∈ front, d ≠ 0) : cString (front ++ 0 :: back) = front := by
  rw [cString, List.takeWhile_append_of_pos (by simpa using clean)]
  simp

theorem isoName_append (inside : ∀ d ∈ front, ¬EndsName d) (ends : EndsName c) :
    isoName (front ++ c :: back) = front := by
  rw [isoName, List.takeWhile_append_of_pos (by simpa using inside),
    List.takeWhile_cons_of_neg (by simpa using or_iff_not_imp_left.mp ends), List.append_nil]

/-- A name has a first character that ends the search, or none. -/
theorem endsName_cases (name : List (BitVec 8)) :
    (∃ front c back, name = front ++ c :: back ∧ (∀ d ∈ front, ¬EndsName d) ∧ EndsName c) ∨
      ∀ d ∈ name, ¬EndsName d := by
  induction name with
  | nil => simp
  | cons d name inductionHypothesis =>
    by_cases ends : EndsName d
    · exact .inl ⟨[], d, name, rfl, by simp, ends⟩
    · cases inductionHypothesis with
      | inl found =>
        obtain ⟨front, c, back, rfl, inside, endsC⟩ := found
        exact .inl ⟨d :: front, c, back, rfl, List.forall_mem_cons.mpr ⟨ends, inside⟩, endsC⟩
      | inr inside => exact .inr (List.forall_mem_cons.mpr ⟨ends, inside⟩)

/-- There is a buffer for every name. -/
theorem exists_extracted (name : List (BitVec 8)) :
    ∃ target out, iso9660ExtractFilename name target = .ok out := by
  have length : (List.replicate name.length (0 : BitVec 8)).length = name.length :=
    List.length_replicate
  refine ⟨List.replicate name.length 0 ++ [0], ?_⟩
  cases endsName_cases name with
  | inl found =>
    obtain ⟨front, c, back, rfl, inside, ends⟩ := found
    exact ⟨_, extractFilename_inside length inside ends⟩
  | inr inside => exact ⟨_, extractFilename_behind length inside (.inl rfl)⟩

/-- The bytes that an extraction may use are those of the name and one more. -/
theorem extractsWithin_split (length : used.length = name.length) :
    ExtractsWithin name (used ++ d :: rest) ↔
      ∃ out, iso9660ExtractFilename name (used ++ [d]) = .ok out ∧ cString out = isoName name ∧
        iso9660ExtractFilename name (used ++ d :: rest) = .ok (out ++ rest) := by
  have within : (used ++ d :: rest).take (name.length + 1) = used ++ [d] := by
    rw [← length, List.take_append, List.take_of_length_le (Nat.le_succ _)]
    simp
  have beyond : (used ++ d :: rest).drop (name.length + 1) = rest := by
    rw [← length]
    simp
  rw [ExtractsWithin, within, beyond]

theorem extractsWithin_inside (length : used.length = (front ++ c :: back).length)
    (inside : ∀ d ∈ front, ¬EndsName d) (ends : EndsName c) :
    ExtractsWithin (front ++ c :: back) (used ++ d :: rest) := by
  have clean : ∀ d ∈ front, d ≠ 0 := fun d member zero => inside d member (.inl zero)
  apply (extractsWithin_split length).mpr
  refine ⟨_, extractFilename_inside length inside ends, ?_, ?_⟩
  · rw [List.append_assoc, List.cons_append, cString_append clean, isoName_append inside ends]
  · rw [extractFilename_inside length inside ends, List.append_assoc]
    simp

theorem extractsWithin_behind (length : used.length = name.length)
    (inside : ∀ d ∈ name, ¬EndsName d) (ends : EndsName d) :
    ExtractsWithin name (used ++ d :: rest) := by
  have clean : ∀ d ∈ name, d ≠ 0 := fun d member zero => inside d member (.inl zero)
  apply (extractsWithin_split length).mpr
  refine ⟨_, extractFilename_behind length inside ends, ?_, ?_⟩
  · rw [cString_append clean, isoName, List.takeWhile_eq_self_iff.mpr (by simpa using inside)]
  · rw [extractFilename_behind length inside ends, List.append_assoc]
    rfl

/-- Where the search goes on behind these bytes, they are not enough. -/
theorem not_extractsWithin (length : used.length = name.length)
    (inside : ∀ d ∈ name, ¬EndsName d) (goesOn : ¬EndsName d) :
    ¬ExtractsWithin name (used ++ d :: rest) := by
  intro extracts
  obtain ⟨out, extracted, _⟩ := (extractsWithin_split length).mp extracts
  have last : ∀ e ∈ name ++ [d], ¬EndsName e := by
    intro e member
    cases List.mem_append.mp member with
    | inl early => exact inside e early
    | inr late => exact List.mem_singleton.mp late ▸ goesOn
  rw [extractFilename_eq length, discardVersion_stuck last] at extracted
  cases extracted

/-- A name is extracted within its bytes and one more exactly when it has a `;` or a NUL, or
there is one of them in the buffer right behind it. -/
theorem extractsWithin_iff (room : name.length < target.length) :
    ExtractsWithin name target ↔
      (∃ c ∈ name, EndsName c) ∨ ∃ d, target[name.length]? = some d ∧ EndsName d := by
  -- the byte right behind the name, and what is behind that
  obtain ⟨used, d, rest, rfl, length⟩ : ∃ used d rest, target = used ++ d :: rest ∧
      used.length = name.length := by
    refine ⟨target.take name.length, target[name.length], target.drop (name.length + 1), ?_, ?_⟩
    · rw [← List.drop_eq_getElem_cons room, List.take_append_drop]
    · exact List.length_take_of_le (Nat.le_of_lt room)
  have byte : (used ++ d :: rest)[name.length]? = some d := by
    rw [← length]
    simp
  rw [byte]
  cases endsName_cases name with
  | inl found =>
    obtain ⟨front, c, back, rfl, inside, ends⟩ := found
    exact iff_of_true (extractsWithin_inside length inside ends)
      (.inl ⟨c, List.mem_append_right _ List.mem_cons_self, ends⟩)
  | inr inside =>
    by_cases ends : EndsName d
    · exact iff_of_true (extractsWithin_behind length inside ends) (.inr ⟨d, rfl, ends⟩)
    · apply iff_of_false (not_extractsWithin length inside ends)
      intro either
      cases either with
      | inl found =>
        obtain ⟨c, member, endsC⟩ := found
        exact inside c member endsC
      | inr next =>
        obtain ⟨e, same, endsE⟩ := next
        cases same
        exact ends endsE

/-- `A.TXT;1` has its `;`, so nothing behind it is looked at. -/
theorem extractsWithin_iff_version :
    ExtractsWithin [0x41, 0x2E, 0x54, 0x3B, 0x31] (List.replicate 8 0xFF) ↔
      (∃ c ∈ [0x41, 0x2E, 0x54, 0x3B, 0x31], EndsName c) ∨
        ∃ d, (List.replicate 8 (0xFF : BitVec 8))[5]? = some d ∧ EndsName d :=
  extractsWithin_iff (by decide)

/-- In a buffer that held a longer name with a `;`, a character of that name stays: `AB` becomes
`ABx`. -/
theorem extractsWithin_not :
    ¬∀ name target : List (BitVec 8), name.length < target.length → ExtractsWithin name target := by
  intro extracts
  obtain ⟨out, _, _, extracted⟩ := extracts [0x41, 0x42] [0x78, 0x78, 0x78, 0x3B] (by decide)
  have mixed : iso9660ExtractFilename [0x41, 0x42] [0x78, 0x78, 0x78, 0x3B] =
      .ok ([0x41, 0x42, 0x78] ++ [0]) := rfl
  have kept := Except.ok.inj (extracted.symm.trans mixed)
  have last := (List.append_inj' kept rfl).2
  exact absurd last (by decide)

end

end Antonix.Drivers
