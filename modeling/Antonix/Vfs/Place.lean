import Antonix.Vfs.Walk

/-! # The place of a new node

How `vfs_parse_url`, `url_get_dirname` and `url_get_basename` agree on a path: the
directory of a path resolves where the search for the path itself got stuck. -/

namespace Antonix.Vfs

open NameTree

/-- Every component fits in `comp_name`, so that the search for the path is defined. -/
def NamesFit (path : List Char) : Prop := ∀ comp ∈ components path, comp.length < nodeNameSize

/-- The search for the path ends at a mount point. -/
def CrossesMountpoint (s : VfsState) (path : List Char) : Prop :=
  ∃ found, vfsParseUrl s path none none = .ok (.ok found) ∧ found.isCrossingMountpoint = true

section

variable {s : VfsState} {b m : Option Nat} {n c : Nat} {x : List Char}
  {xs passed passed' : List (List Char)} {path : List Char} {hr : HResult}

/-! ## Ends of a search -/

/-- A search fails at a component that is missing, whatever the buffers. -/
theorem parse_error (missing : parseComponents s b m n passed xs = .ok (.error hr)) :
    hr = .eNotFound ∧
      ∀ b m passed, parseComponents s b m n passed xs = .ok (.error hr) := by
  induction xs generalizing n passed with
  | nil => cases missing
  | cons x xs inductionHypothesis =>
    cases meets s n x with
    | overlong overlong =>
      rw [parse_overlong overlong] at missing
      contradiction
    | missing fits none =>
      rw [parse_missing fits none] at missing
      obtain rfl := Except.error.inj (Except.ok.inj missing)
      exact ⟨rfl, fun _ _ _ => parse_missing fits none⟩
    | mountpoint c fits next mountpoint =>
      obtain ⟨base, mounted, result⟩ := eq_of_mountpoint fits next mountpoint missing
      contradiction
    | inner c fits next inner =>
      rw [parse_inner fits next inner] at missing
      obtain ⟨notFound, always⟩ := inductionHypothesis missing
      exact ⟨notFound, fun b m passed => (parse_inner fits next inner).trans (always b m _)⟩

theorem parseUrl_error (parsed : vfsParseUrl s path b m = .ok (.error hr)) :
    hr = .eInvalidArg ∨ hr = .eNotFound := by
  cases pathKind path with
  | root isRoot =>
    rw [parseUrl_root isRoot] at parsed
    cases parsed
  | relative notDelimiter =>
    rw [parseUrl_relative notDelimiter] at parsed
    exact .inl (Except.error.inj (Except.ok.inj parsed)).symm
  | absolute nonempty =>
    rw [parseUrl_absolute nonempty] at parsed
    exact .inr (parse_error parsed).1

theorem parseUrl_failed (parsed : vfsParseUrl s path b m = .ok (.error hr)) : hr.failed = true := by
  cases parseUrl_error parsed with
  | inl invalid => rw [invalid]; rfl
  | inr missing => rw [missing]; rfl

/-- Without buffers to fill, a search over names that fit ends. -/
theorem parse_returns (fits : ∀ comp ∈ xs, comp.length < nodeNameSize) :
    ∃ outcome, parseComponents s none none n passed xs = .ok outcome := by
  induction xs generalizing n passed with
  | nil => exact ⟨_, rfl⟩
  | cons x xs inductionHypothesis =>
    cases meets s n x with
    | overlong overlong => exact absurd (fits x List.mem_cons_self) overlong
    | missing fits missing => exact ⟨_, parse_missing fits missing⟩
    | mountpoint c fits next mountpoint => exact ⟨_, parse_mountpoint fits next mountpoint⟩
    | inner c first next inner =>
      rw [parse_inner first next inner]
      exact inductionHypothesis fun comp member => fits comp (List.mem_cons_of_mem _ member)

theorem parseUrl_returns (fits : NamesFit path) :
    ∃ outcome, vfsParseUrl s path none none = .ok outcome := by
  cases pathKind path with
  | root isRoot => exact ⟨_, parseUrl_root isRoot⟩
  | relative notDelimiter => exact ⟨_, parseUrl_relative notDelimiter⟩
  | absolute nonempty =>
    rw [parseUrl_absolute nonempty]
    exact parse_returns fits

/-- The buffers matter at a mount point only. -/
theorem parse_buffers
    (plain : ∀ found, parseComponents s none none n passed xs = .ok (.ok found) →
      found.isCrossingMountpoint = false) :
    parseComponents s b m n passed' xs = parseComponents s none none n passed xs := by
  induction xs generalizing n passed passed' with
  | nil => rfl
  | cons x xs inductionHypothesis =>
    cases meets s n x with
    | overlong overlong => rw [parse_overlong overlong, parse_overlong overlong]
    | missing fits missing => rw [parse_missing fits missing, parse_missing fits missing]
    | mountpoint c fits next mountpoint =>
      -- the search without buffers would have ended here
      have ends := plain _ (parse_mountpoint fits next mountpoint)
      contradiction
    | inner c fits next inner =>
      rw [parse_inner fits next inner] at plain
      rw [parse_inner fits next inner, parse_inner fits next inner]
      exact inductionHypothesis plain

theorem parseUrl_buffers (plain : ¬ CrossesMountpoint s path) :
    vfsParseUrl s path b m = vfsParseUrl s path none none := by
  cases pathKind path with
  | root isRoot => rw [parseUrl_root isRoot, parseUrl_root isRoot]
  | relative notDelimiter => rw [parseUrl_relative notDelimiter, parseUrl_relative notDelimiter]
  | absolute nonempty =>
    rw [parseUrl_absolute nonempty, parseUrl_absolute nonempty]
    apply parse_buffers
    intro found parsed
    cases crossing : found.isCrossingMountpoint with
    | false => rfl
    | true => exact absurd ⟨found, by rw [parseUrl_absolute nonempty, parsed], crossing⟩ plain

theorem parseUrl_missing_buffers (missing : vfsParseUrl s path b m = .ok (.error hr)) :
    vfsParseUrl s path none none = .ok (.error hr) := by
  cases pathKind path with
  | root isRoot =>
    rw [parseUrl_root isRoot] at missing
    cases missing
  | relative notDelimiter => rwa [parseUrl_relative notDelimiter] at missing ⊢
  | absolute nonempty =>
    rw [parseUrl_absolute nonempty] at missing ⊢
    exact (parse_error missing).2 none none []

/-- A search that ends at a mount point ends there for every longer path. -/
theorem parse_crossing_append {found : Resolved} (more : List (List Char))
    (parsed : parseComponents s none none n passed xs = .ok (.ok found))
    (crossing : found.isCrossingMountpoint = true) :
    ∃ found', parseComponents s none none n passed (xs ++ more) = .ok (.ok found') ∧
      found'.isCrossingMountpoint = true := by
  have arrives := arrives_of_parse parsed
  clear parsed
  induction arrives generalizing passed with
  | done => contradiction
  | mountpoint fits next mountpoint => exact ⟨_, parse_mountpoint fits next mountpoint, rfl⟩
  | inner fits next inner _ inductionHypothesis =>
    rw [List.cons_append, parse_inner fits next inner]
    exact inductionHypothesis crossing

/-- A path that is not found crosses no mount point. -/
theorem plain_of_missing (missing : vfsParseUrl s path none none = .ok (.error hr)) :
    ¬ CrossesMountpoint s path := by
  intro crosses
  obtain ⟨found, parsed, -⟩ := crosses
  rw [missing] at parsed
  cases parsed

/-! ## Directory and name -/

theorem length_component {comp : List Char} (member : comp ∈ components path) :
    comp.length < path.length := by
  induction path with
  | nil => contradiction
  | cons c rest inductionHypothesis =>
    rw [List.length_cons]
    by_cases isDelimiter : c = delimiter
    · subst isDelimiter
      rw [components_delimiter] at member
      cases List.mem_cons.mp member with
      | inl first =>
        have shorter : comp.length ≤ rest.length := by
          rw [first]
          exact (List.takeWhile_prefix _).length_le
        omega
      | inr later =>
        have := inductionHypothesis later
        omega
    · rw [components_other isDelimiter] at member
      have := inductionHypothesis member
      omega

theorem namesFit_of_short (short : path.length < nodeNameSize) : NamesFit path :=
  fun _ member => Nat.lt_trans (length_component member) short

/-- All that the search for a place can say. -/
inductive Finds (s : VfsState) (path : List Char) : Place → Prop
  | external {found : Resolved}
      (parsed : vfsParseUrl s path none (some extPathSize) = .ok (.ok found))
      (crossing : found.isCrossingMountpoint = true) :
      Finds s path (.external found.node found.mountedPath)
  | used : Finds s path .used
  | noParent {hr : HResult} (failed : hr.failed = true) : Finds s path (.noParent hr)
  | free {dirName fileName : List Char} {found : Resolved}
      (parsed : vfsParseUrl s path none (some extPathSize) = .ok (.error .eNotFound))
      (dirCopied : urlGetDirname vfsMaxDirnameLength path = .ok dirName)
      (nameCopied : urlGetBasename vfsMaxDirnameLength path = .ok fileName)
      (dirParsed : vfsParseUrl s dirName none none = .ok (.ok found)) :
      Finds s path (.free found.node fileName)

theorem finds_of_findPlace {place : Place} (finds : findPlace s path = .ok place) :
    Finds s path place := by
  obtain ⟨outcome, parsed, finds⟩ := exists_of_bind finds
  cases outcome with
  | ok found =>
    cases crossing : found.isCrossingMountpoint with
    | true =>
      simp only [crossing, if_true] at finds
      rw [← Except.ok.inj finds]
      exact .external parsed crossing
    | false =>
      simp only [crossing] at finds
      rw [← Except.ok.inj finds]
      exact .used
  | error hr =>
    dsimp only at finds
    by_cases missing : hr = .eNotFound
    · -- the path is free, and its directory is searched for
      subst missing
      rw [if_neg (not_not_intro rfl)] at finds
      obtain ⟨dirName, dirCopied, finds⟩ := exists_of_bind finds
      obtain ⟨fileName, nameCopied, finds⟩ := exists_of_bind finds
      obtain ⟨outcome, dirParsed, finds⟩ := exists_of_bind finds
      cases outcome with
      | error hr =>
        rw [← Except.ok.inj finds]
        exact .noParent (parseUrl_failed dirParsed)
      | ok found =>
        rw [← Except.ok.inj finds]
        exact .free parsed dirCopied nameCopied dirParsed
    · rw [if_pos missing] at finds
      rw [← Except.ok.inj finds]
      exact .used

/-- The directory of a path that crosses no mount point leads to the node above; that of
`//name` is the root and not the nameless child of the root. -/
theorem leads_of_dirname {capacity : Nat} {front base dirName : List Char} {found : Resolved}
    (last : delimiter ∉ base) (absolute : ∃ rest, front ++ delimiter :: base = delimiter :: rest)
    (notDouble : front ≠ [delimiter]) (plain : ¬ CrossesMountpoint s (front ++ delimiter :: base))
    (dirCopied : urlGetDirname capacity (front ++ delimiter :: base) = .ok dirName)
    (dirParsed : vfsParseUrl s dirName none none = .ok (.ok found)) :
    Leads s s.root (components front) found.node := by
  rw [urlGetDirname_append last] at dirCopied
  obtain ⟨rfl, -⟩ := eq_of_strcpy dirCopied
  cases front with
  | nil =>
    -- `/name`: both take the root
    rw [if_pos rfl, parseUrl_root (.inr rfl)] at dirParsed
    obtain rfl := Except.ok.inj (Except.ok.inj dirParsed)
    exact .nil s.root
  | cons ch front =>
    obtain ⟨rest, path⟩ := absolute
    obtain rfl : ch = delimiter := (List.cons.inj path).1
    have nonempty : front ≠ [] := by
      rintro rfl
      exact notDouble rfl
    rw [if_neg (List.cons_ne_nil _ _), parseUrl_absolute nonempty] at dirParsed
    cases crossing : found.isCrossingMountpoint with
    | false => exact (leads_of_parse dirParsed crossing).2
    | true =>
      -- the search for the whole path ends at the same mount point
      obtain ⟨found', parsed, crossing'⟩ := parse_crossing_append [base] dirParsed crossing
      have longer : front ++ delimiter :: base ≠ [] := by simp
      rw [← components_append last, List.cons_append, ← parseUrl_absolute longer] at parsed
      exact absurd ⟨found', parsed, crossing'⟩ plain

/-- A path that was not found is absolute. -/
theorem absolute_of_missing (missing : vfsParseUrl s path b m = .ok (.error .eNotFound)) :
    ∃ rest, path = delimiter :: rest := by
  cases pathKind path with
  | root isRoot =>
    rw [parseUrl_root isRoot] at missing
    cases missing
  | relative notDelimiter =>
    rw [parseUrl_relative notDelimiter] at missing
    cases missing
  | absolute nonempty => exact ⟨_, rfl⟩

/-- The names on a path with a place fit, so that the path can be searched for at any time. -/
theorem namesFit_of_free {parent : Nat} {name : List Char}
    (finds : findPlace s path = .ok (.free parent name)) : NamesFit path := by
  cases finds_of_findPlace finds with
  | free parsed dirCopied nameCopied dirParsed =>
    have missing := parseUrl_missing_buffers parsed
    have absolute := absolute_of_missing missing
    obtain ⟨front, base, rfl, last⟩ : ∃ front base, path = front ++ delimiter :: base ∧
        delimiter ∉ base := by
      obtain ⟨rest, rfl⟩ := absolute
      exact exists_last_delimiter List.mem_cons_self
    have baseFits : base.length < nodeNameSize := by
      rw [urlGetBasename_append last] at nameCopied
      exact Nat.lt_trans (eq_of_strcpy nameCopied).2 (by decide)
    have frontFits : ∀ comp ∈ components front, comp.length < nodeNameSize := by
      by_cases double : front = [delimiter]
      · -- the only component of the directory is empty
        subst double
        simp [components]
      · exact (leads_of_dirname last absolute double (plain_of_missing missing) dirCopied
          dirParsed).names
    intro comp member
    rw [components_append last] at member
    cases List.mem_append.mp member with
    | inl inFront => exact frontFits comp inFront
    | inr isBase => rwa [List.mem_singleton.mp isBase]

end

end Antonix.Vfs
