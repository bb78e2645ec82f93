import Mathlib.Data.List.Chain
import Antonix.Vfs.Url

/-! # Normalised paths (`url_utils.c`)

`url_normalize` marks the components to skip and puts the others together.  For a
`..` it marks the component before it, whether that is still there or not: it is
the one to remove exactly where it is a name.  Whatever it returns is a path of
names, and stays as it is when it is normalised again. -/

namespace Antonix.Vfs

/-- `VFS_MAX_FILENAME_LENGTH` -/
abbrev vfsMaxFilenameLength : Nat := 255

abbrev dot : List Char := ['.']

abbrev dotDot : List Char := ['.', '.']

/-- `url_decompose`; a component is what the next delimiter, or the end, leaves of it. -/
def urlDecompose (url : List Char) : HResult × List (List Char) := (.sOk, components url)

/-- `url_extract_comp` into a buffer of `VFS_MAX_FILENAME_LENGTH` bytes. -/
def urlExtractComp (comps : List (List Char)) (id : Nat) : Except Halt (List Char) :=
  match comps[id]? with
  | none => .ok []
  | some comp => strcpy vfsMaxFilenameLength comp

/-- The loop of `url_normalize` over the components, from component `i` on. -/
def maskLoop (comps : List (List Char)) :
    Nat → Nat → List Bool → Except Halt (Except HResult (List Bool))
  | 0, _, skipMask => .ok (.ok skipMask)
  | left + 1, i, skipMask => do
    let name ← urlExtractComp comps i
    if name = dot then maskLoop comps left (i + 1) (skipMask.set i true)
    else if name = dotDot then
      if i = 0 then .ok (.error .eInvalidData)
      else maskLoop comps left (i + 1) ((skipMask.set i true).set (i - 1) true)
    else if name = [] then
      -- a double delimiter discards all components so far
      maskLoop comps left (i + 1) (List.replicate (i + 1) true ++ skipMask.drop (i + 1))
    else maskLoop comps left (i + 1) skipMask

/-- The loop that composes the path again, with what is behind `dst` so far. -/
def composeLoop (comps : List (List Char)) (skipMask : List Bool) :
    Nat → Nat → List Char → Except Halt (List Char)
  | 0, _, dst => .ok dst
  | left + 1, i, dst =>
    if skipMask.getD i false then composeLoop comps skipMask left (i + 1) dst
    else do
      let name ← urlExtractComp comps i
      composeLoop comps skipMask left (i + 1) (dst ++ delimiter :: name)

/-- `url_normalize`: the status, and `dst` where it is written. -/
def urlNormalize (src : List Char) : Except Halt (HResult × Option (List Char)) := do
  let (hr, compArr) := urlDecompose src
  if hr.failed then .ok (hr, none)
  else if compArr.length = 0 then .ok (.sOk, some [delimiter])
  else
    match ← maskLoop compArr compArr.length 0 (List.replicate compArr.length false) with
    | .error hr => .ok (hr, none)
    | .ok skipMask => do
      let dst ← composeLoop compArr skipMask compArr.length 0 []
      .ok (.sOk, some (if dst = [] then [delimiter] else dst))

/-! ## Components and their marks -/

/-- What the loop does to the components so far, the last of them first. -/
def markStep (marked : List (List Char × Bool)) (comp : List Char) : List (List Char × Bool) :=
  if comp = dot then (comp, true) :: marked
  else if comp = dotDot then
    match marked with
    | [] => [(comp, true)]
    | (last, _) :: rest => (comp, true) :: (last, true) :: rest
  else if comp = [] then (comp, true) :: marked.map fun entry => (entry.1, true)
  else (comp, false) :: marked

/-- The components of a path with their marks, the last of them first. -/
def markComps (comps : List (List Char)) : List (List Char × Bool) := comps.foldl markStep []

/-- The components that are not skipped, the last of them first. -/
def kept (marked : List (List Char × Bool)) : List (List Char) :=
  (marked.filter fun entry => !entry.2).map Prod.fst

/-- Neither `.` nor `..`, nor empty. -/
def IsName (comp : List Char) : Prop := comp ≠ dot ∧ comp ≠ dotDot ∧ comp ≠ []

/-- A path of these components. -/
def renderPath (comps : List (List Char)) : List Char :=
  if comps = [] then [delimiter] else implodeStr comps

/-! ## What a path means -/

/-- What a component does to the names so far, the last of them first. -/
def resolveStep (names : List (List Char)) (comp : List Char) : Option (List (List Char)) :=
  if comp = dot then some names
  else if comp = dotDot then
    match names with
    | [] => none
    | _ :: rest => some rest
  else some (comp :: names)

/-- The names that a path leads through, the last of them first; there are none when a
`..` has nothing to remove. -/
def resolveComps (comps : List (List Char)) : Option (List (List Char)) :=
  comps.foldlM resolveStep []

/-- Every `..` is directly behind the name that it removes. -/
def ParentsNamed (comps : List (List Char)) : Prop :=
  comps.IsChain fun comp next => next = dotDot → comp ≠ dot ∧ comp ≠ dotDot

instance {comps : List (List Char)} : Decidable (ParentsNamed comps) :=
  inferInstanceAs (Decidable (comps.IsChain fun comp next =>
    next = dotDot → comp ≠ dot ∧ comp ≠ dotDot))

/-- A path of names from `src` that is its own normal form. -/
structure Canonical (src out : List Char) : Prop where
  absolute : out.head? = some delimiter
  names : out ≠ [delimiter] → ∀ comp ∈ components out, IsName comp
  ordered : out ≠ [delimiter] → (components out).Sublist (components src)
  stable : urlNormalize out = .ok (.sOk, some out)

section

variable {comps front rest : List (List Char)} {comp src dst : List Char}
  {marked : List (List Char × Bool)}

theorem comp_cases (comp : List Char) : comp = dot ∨ comp = dotDot ∨ comp = [] ∨ IsName comp := by
  by_cases isDot : comp = dot
  · exact .inl isDot
  · by_cases isDotDot : comp = dotDot
    · exact .inr (.inl isDotDot)
    · by_cases isEmpty : comp = []
      · exact .inr (.inr (.inl isEmpty))
      · exact .inr (.inr (.inr ⟨isDot, isDotDot, isEmpty⟩))

@[simp] theorem markStep_dot : markStep marked dot = (dot, true) :: marked := rfl

@[simp] theorem markStep_dotDot {last : List Char} {mark : Bool} :
    markStep ((last, mark) :: marked) dotDot = (dotDot, true) :: (last, true) :: marked := rfl

@[simp] theorem markStep_empty :
    markStep marked [] = ([], true) :: marked.map fun entry => (entry.1, true) := rfl

theorem markStep_name (name : IsName comp) : markStep marked comp = (comp, false) :: marked := by
  obtain ⟨notDot, notDotDot, notEmpty⟩ := name
  simp only [markStep, if_neg notDot, if_neg notDotDot, if_neg notEmpty]

theorem map_fst_markStep : (markStep marked comp).map Prod.fst = comp :: marked.map Prod.fst := by
  rcases comp_cases comp with rfl | rfl | rfl | name
  · rfl
  · cases marked with
    | nil => rfl
    | cons entry rest => rfl
  · simp [Function.comp_def]
  · rw [markStep_name name]
    rfl

theorem markComps_append (comps : List (List Char)) (comp : List Char) :
    markComps (comps ++ [comp]) = markStep (markComps comps) comp := by
  rw [markComps, List.foldl_append]
  rfl

theorem map_fst_markComps (comps : List (List Char)) :
    (markComps comps).map Prod.fst = comps.reverse := by
  induction comps using List.reverseRecOn with
  | nil => rfl
  | append_singleton comps comp inductionHypothesis =>
    rw [markComps_append, map_fst_markStep, inductionHypothesis, List.reverse_append]
    rfl

theorem kept_cons_false {last : List Char} :
    kept ((last, false) :: marked) = last :: kept marked := rfl

/-- What is kept is a name. -/
theorem isName_of_kept (comps : List (List Char)) :
    ∀ comp ∈ kept (markComps comps), IsName comp := by
  induction comps using List.reverseRecOn with
  | nil => simp [kept, markComps]
  | append_singleton comps comp inductionHypothesis =>
    rw [markComps_append]
    generalize markComps comps = marked at inductionHypothesis
    rcases comp_cases comp with rfl | rfl | rfl | name
    · exact inductionHypothesis
    · cases marked with
      | nil => exact inductionHypothesis
      | cons entry rest =>
        obtain ⟨last, mark⟩ := entry
        cases mark with
        | true => exact inductionHypothesis
        | false => exact (List.forall_mem_cons.mp inductionHypothesis).2
    · simp [kept]
    · rw [markStep_name name]
      exact List.forall_mem_cons.mpr ⟨name, inductionHypothesis⟩

/-- The kept components are components of the path, in its order. -/
theorem kept_sublist (comps : List (List Char)) :
    (kept (markComps comps)).reverse.Sublist comps := by
  have all := List.filter_sublist (l := markComps comps) (p := fun entry => !entry.2)
  have names := (all.map Prod.fst).reverse
  rwa [map_fst_markComps, List.reverse_reverse] at names

theorem kept_of_names (names : ∀ comp ∈ comps, IsName comp) :
    kept (markComps comps) = comps.reverse := by
  induction comps using List.reverseRecOn with
  | nil => rfl
  | append_singleton comps comp inductionHypothesis =>
    obtain ⟨before, last⟩ := List.forall_mem_append.mp names
    rw [markComps_append, markStep_name (last comp (List.mem_singleton_self comp)),
      kept_cons_false, inductionHypothesis before, List.reverse_append]
    rfl

/-! ## The loops -/

theorem urlExtractComp_eq (short : comp.length < vfsMaxFilenameLength) :
    urlExtractComp (front ++ comp :: rest) front.length = .ok comp := by
  simp [urlExtractComp, strcpy, short]

/-- `skip_mask` when the components with these marks are done and `left` are to come. -/
def skipMask (marked : List (List Char × Bool)) (left : Nat) : List Bool :=
  marked.reverse.map Prod.snd ++ List.replicate left false

theorem skipMask_next {mark : Bool} {left : Nat} :
    skipMask ((comp, mark) :: marked) left =
      (skipMask marked (left + 1)).set marked.length mark := by
  have length : (marked.reverse.map Prod.snd).length = marked.length := by simp
  rw [skipMask, skipMask, ← length, List.set_append_right _ _ (Nat.le_refl _), Nat.sub_self]
  simp [List.replicate_succ]

theorem skipMask_name {left : Nat} :
    skipMask ((comp, false) :: marked) left = skipMask marked (left + 1) := by
  simp [skipMask, List.replicate_succ]

theorem skipMask_discard {left : Nat} :
    skipMask ((comp, true) :: marked.map fun entry => (entry.1, true)) left =
      List.replicate (marked.length + 1) true ++
        (skipMask marked (left + 1)).drop (marked.length + 1) := by
  have length : (marked.reverse.map Prod.snd).length = marked.length := by simp
  have behind : (skipMask marked (left + 1)).drop (marked.length + 1) =
      List.replicate left false := by
    rw [skipMask, ← length, List.drop_length_add_append, List.replicate_succ, List.drop_succ_cons,
      List.drop_zero]
  rw [behind, skipMask, List.replicate_succ']
  simp [Function.comp_def]

theorem skipMask_dotDot {last : List Char} {mark : Bool} {left : Nat} :
    skipMask ((comp, true) :: (last, true) :: marked) left =
      ((skipMask ((last, mark) :: marked) (left + 1)).set (marked.length + 1) true).set
        marked.length true := by
  rw [skipMask_next, skipMask_next, skipMask_next, List.length_cons,
    List.set_comm _ _ (Nat.succ_ne_self _), List.set_set]

/-- The loop marks the components one after the other. -/
theorem maskLoop_eq (short : ∀ comp ∈ rest, comp.length < vfsMaxFilenameLength)
    (marks : marked.map Prod.fst = front.reverse)
    (first : marked = [] → rest.head? ≠ some dotDot) :
    maskLoop (front ++ rest) rest.length front.length (skipMask marked rest.length) =
      .ok (.ok (skipMask (rest.foldl markStep marked) 0)) := by
  induction rest generalizing front marked with
  | nil => rfl
  | cons comp rest inductionHypothesis =>
    obtain ⟨here, later⟩ := List.forall_mem_cons.mp short
    have length : marked.length = front.length := by
      simpa using congrArg List.length marks
    have next := @inductionHypothesis (front ++ [comp]) (markStep marked comp) later
      (by rw [map_fst_markStep, marks, List.reverse_append]; rfl)
      (fun none => by simpa [none] using @map_fst_markStep comp marked)
    rw [List.append_assoc, List.singleton_append, List.length_append, List.length_singleton] at next
    rw [List.length_cons, List.foldl_cons, ← next, maskLoop, urlExtractComp_eq here]
    dsimp only [bind, Except.bind]
    rcases comp_cases comp with rfl | rfl | rfl | name
    · rw [if_pos rfl, markStep_dot, skipMask_next, length]
    · cases marked with
      | nil => exact absurd rfl (first rfl)
      | cons entry earlier =>
        obtain ⟨last, mark⟩ := entry
        have notFirst : front.length ≠ 0 := by
          rw [← length]
          exact Nat.succ_ne_zero _
        rw [if_neg (by decide), if_pos rfl, if_neg notFirst, markStep_dotDot,
          @skipMask_dotDot _ _ _ mark, ← length]
        rfl
    · rw [if_neg (by decide), if_neg (by decide), if_pos rfl, markStep_empty, skipMask_discard,
        length]
    · rw [if_neg name.1, if_neg name.2.1, if_neg name.2.2, markStep_name name, skipMask_name]

/-- There is nothing before a first `..` that it could remove. -/
theorem maskLoop_dotDot (skipMask : List Bool) :
    maskLoop (dotDot :: rest) (dotDot :: rest).length 0 skipMask = .ok (.error .eInvalidData) := by
  have extracted : urlExtractComp (dotDot :: rest) 0 = .ok dotDot := rfl
  rw [List.length_cons, maskLoop, extracted]
  rfl

/-- The loop puts the components without a mark behind each other. -/
theorem composeLoop_eq {front rest : List (List Char × Bool)}
    (short : ∀ entry ∈ rest, entry.1.length < vfsMaxFilenameLength) :
    composeLoop ((front ++ rest).map Prod.fst) ((front ++ rest).map Prod.snd) rest.length
        front.length dst =
      .ok (dst ++ implodeStr ((rest.filter fun entry => !entry.2).map Prod.fst)) := by
  induction rest generalizing front dst with
  | nil => simp [composeLoop, implodeStr]
  | cons entry rest inductionHypothesis =>
    obtain ⟨comp, mark⟩ := entry
    obtain ⟨here, later⟩ := List.forall_mem_cons.mp short
    have next := fun dst => @inductionHypothesis dst (front ++ [(comp, mark)]) later
    simp only [List.append_assoc, List.singleton_append, List.length_append,
      List.length_singleton] at next
    have flag : ((front ++ (comp, mark) :: rest).map Prod.snd).getD front.length false = mark := by
      simp
    rw [List.length_cons, composeLoop, flag]
    cases mark with
    | true => exact next dst
    | false =>
      have extracted : urlExtractComp ((front ++ (comp, false) :: rest).map Prod.fst)
          front.length = .ok comp := by
        rw [List.map_append, List.map_cons, ← @List.length_map _ _ front Prod.fst]
        exact urlExtractComp_eq here
      rw [if_neg Bool.false_ne_true, extracted]
      dsimp only [bind, Except.bind]
      rw [next, List.append_assoc]
      rfl

/-- What is put together is what the marks leave. -/
theorem composeLoop_markComps
    (short : ∀ comp ∈ components src, comp.length < vfsMaxFilenameLength) :
    composeLoop (components src) (skipMask (markComps (components src)) 0)
        (components src).length 0 [] =
      .ok (implodeStr (kept (markComps (components src))).reverse) := by
  have names : (markComps (components src)).reverse.map Prod.fst = components src := by
    rw [List.map_reverse, map_fst_markComps, List.reverse_reverse]
  have marks : (markComps (components src)).reverse.map Prod.snd =
      skipMask (markComps (components src)) 0 := by
    rw [skipMask, List.replicate_zero, List.append_nil]
  have length : (markComps (components src)).reverse.length = (components src).length := by
    rw [← List.length_map Prod.fst, names]
  have composed := @composeLoop_eq [] [] (markComps (components src)).reverse fun entry member =>
    short _ (names ▸ List.mem_map_of_mem member)
  rwa [List.nil_append, List.nil_append, names, marks, length, List.filter_reverse,
    List.map_reverse] at composed

theorem implodeStr_eq_nil : implodeStr comps = [] ↔ comps = [] := by
  cases comps with
  | nil => simp [implodeStr]
  | cons comp comps => simp [implodeStr]

/-- What `url_normalize` writes when nothing is wrong with the path. -/
theorem urlNormalize_eq (short : ∀ comp ∈ components src, comp.length < vfsMaxFilenameLength)
    (first : (components src).head? ≠ some dotDot) :
    urlNormalize src =
      .ok (.sOk, some (renderPath (kept (markComps (components src))).reverse)) := by
  have masked := @maskLoop_eq [] (components src) [] short rfl fun _ => first
  have composed := composeLoop_markComps short
  rw [List.nil_append, List.length_nil] at masked
  unfold urlNormalize urlDecompose
  dsimp only
  by_cases none : (components src).length = 0
  · rw [if_neg (by decide), if_pos none, List.eq_nil_of_length_eq_zero none]
    rfl
  · have start : List.replicate (components src).length false =
        skipMask [] (components src).length := rfl
    rw [if_neg (by decide), if_neg none, start, masked]
    dsimp only [bind, Except.bind]
    rw [← markComps, composed]
    simp only [renderPath, implodeStr_eq_nil]

/-- There is nothing before a first `..`: the path is refused. -/
theorem urlNormalize_dotDot (first : (components src).head? = some dotDot) :
    urlNormalize src = .ok (.eInvalidData, none) := by
  obtain ⟨rest, comps⟩ := List.head?_eq_some_iff.mp first
  have masked := @maskLoop_dotDot rest
    (List.replicate (dotDot :: rest).length false)
  unfold urlNormalize urlDecompose
  dsimp only
  have some : (dotDot :: rest).length ≠ 0 := Nat.succ_ne_zero _
  rw [comps, if_neg (by decide), if_neg some, masked]
  rfl

/-! ## Normal forms -/

theorem components_renderPath (some : comps ≠ []) (clean : ∀ comp ∈ comps, delimiter ∉ comp) :
    components (renderPath comps) = comps := by
  rw [renderPath, if_neg some, components_implodeStr clean]

/-- There is nothing to remove from a path of names. -/
theorem urlNormalize_renderPath (names : ∀ comp ∈ comps, IsName comp)
    (clean : ∀ comp ∈ comps, delimiter ∉ comp)
    (short : ∀ comp ∈ comps, comp.length < vfsMaxFilenameLength) :
    urlNormalize (renderPath comps) = .ok (.sOk, some (renderPath comps)) := by
  cases comps with
  | nil => rfl
  | cons comp comps =>
    have same : components (renderPath (comp :: comps)) = comp :: comps :=
      components_renderPath (List.cons_ne_nil _ _) clean
    have normal := @urlNormalize_eq (renderPath (comp :: comps))
    rw [same, kept_of_names names, List.reverse_reverse] at normal
    apply normal short
    intro first
    exact (names comp List.mem_cons_self).2.1 (Option.some.inj first)

theorem renderPath_ne (some : comps ≠ []) (names : ∀ comp ∈ comps, IsName comp) :
    renderPath comps ≠ [delimiter] := by
  cases comps with
  | nil => exact absurd rfl some
  | cons comp comps =>
    intro alone
    have empty : comp ++ implodeStr comps = [] := (List.cons.inj alone).2
    exact (names comp List.mem_cons_self).2.2 (List.append_eq_nil_iff.mp empty).1

/-- Whatever `url_normalize` returns is a canonical path. -/
theorem urlNormalize_canonical {written : Option (List Char)}
    (short : ∀ comp ∈ components src, comp.length < vfsMaxFilenameLength)
    (done : urlNormalize src = .ok (.sOk, written)) :
    ∃ out, written = some out ∧ Canonical src out := by
  by_cases first : (components src).head? = some dotDot
  · rw [urlNormalize_dotDot first] at done
    cases done
  · rw [urlNormalize_eq short first] at done
    cases done
    have ordered := kept_sublist (components src)
    have names : ∀ comp ∈ (kept (markComps (components src))).reverse, IsName comp :=
      fun comp member => isName_of_kept _ comp (List.mem_reverse.mp member)
    generalize (kept (markComps (components src))).reverse = comps at ordered names
    have clean : ∀ comp ∈ comps, delimiter ∉ comp :=
      fun comp member => noDelimiter_of_mem (ordered.subset member)
    have stable := urlNormalize_renderPath names clean
      fun comp member => short comp (ordered.subset member)
    cases comps with
    | nil =>
      exact ⟨_, rfl, rfl, fun other => absurd rfl other, fun other => absurd rfl other, stable⟩
    | cons comp comps =>
      have same := components_renderPath (List.cons_ne_nil comp comps) clean
      exact ⟨_, rfl, rfl, fun _ => by rwa [same], fun _ => by rwa [same], stable⟩

/-- `..` takes the name before it away, `.` nothing. -/
theorem urlNormalize_canonical_parent :
    ∃ out, some "/usr/lib".toList = some out ∧ Canonical "/usr/bin/.././lib".toList out :=
  urlNormalize_canonical (by decide) (by decide)

/-! ## What is left of a path -/

theorem resolveComps_append (comps : List (List Char)) (comp : List Char) :
    resolveComps (comps ++ [comp]) =
      (resolveComps comps).bind fun names => resolveStep names comp := by
  rw [resolveComps, List.foldlM_append]
  simp only [List.foldlM_cons, List.foldlM_nil, bind_pure]
  rfl

theorem resolveStep_name {names : List (List Char)} (name : IsName comp) :
    resolveStep names comp = some (comp :: names) := by
  unfold resolveStep
  rw [if_neg name.1, if_neg name.2.1]

theorem exists_top_of_dotDot {names after : List (List Char)}
    (step : resolveStep names dotDot = some after) : ∃ top, names = top :: after := by
  cases names with
  | nil => cases step
  | cons top rest =>
    cases step
    exact ⟨top, rfl⟩

theorem parentsNamed_append {last : List Char} :
    ParentsNamed (front ++ [last] ++ [comp]) ↔
      ParentsNamed (front ++ [last]) ∧ (comp = dotDot → last ≠ dot ∧ last ≠ dotDot) := by
  rw [ParentsNamed, List.isChain_append]
  simp [ParentsNamed]

theorem parentsNamed_append_other (other : comp ≠ dotDot) :
    ParentsNamed (comps ++ [comp]) ↔ ParentsNamed comps := by
  rw [ParentsNamed, List.isChain_append]
  simp [ParentsNamed, other]

/-- What is kept of a path with these names: the names, as long as every `..` is directly
behind one; otherwise it is too much. -/
structure Tracks (comps names : List (List Char)) : Prop where
  exact : ParentsNamed comps → kept (markComps comps) = names
  excess : ¬ParentsNamed comps → names.length < (kept (markComps comps)).length

theorem Tracks.le {names : List (List Char)} (tracks : Tracks comps names) :
    names.length ≤ (kept (markComps comps)).length := by
  by_cases named : ParentsNamed comps
  · rw [tracks.exact named]
  · exact Nat.le_of_lt (tracks.excess named)

/-- A `..` behind a name takes the name from both. -/
theorem Tracks.pop {names : List (List Char)} (name : IsName comp)
    (tracks : Tracks (front ++ [comp]) (comp :: names)) :
    Tracks (front ++ [comp] ++ [dotDot]) names := by
  have pushed : markComps (front ++ [comp]) = (comp, false) :: markComps front := by
    rw [markComps_append, markStep_name name]
  have popped : kept (markComps (front ++ [comp] ++ [dotDot])) = kept (markComps front) := by
    rw [markComps_append, pushed]
    rfl
  have same : ParentsNamed (front ++ [comp] ++ [dotDot]) ↔ ParentsNamed (front ++ [comp]) := by
    rw [parentsNamed_append]
    exact ⟨And.left, fun named => ⟨named, fun _ => ⟨name.1, name.2.1⟩⟩⟩
  constructor
  · intro named
    have before := tracks.exact (same.mp named)
    rw [pushed, kept_cons_false] at before
    rw [popped]
    exact (List.cons.inj before).2
  · intro stray
    have before := tracks.excess fun named => stray (same.mpr named)
    rw [pushed, kept_cons_false] at before
    rw [popped]
    exact Nat.lt_of_succ_lt_succ before

/-- A `..` behind another `..` or a `.` takes only the name that it means. -/
theorem Tracks.stray {last : List Char} {names : List (List Char)}
    (skipped : last = dot ∨ last = dotDot) (tracks : Tracks (front ++ [last]) (comp :: names)) :
    Tracks (front ++ [last] ++ [dotDot]) names := by
  have same : kept (markComps (front ++ [last] ++ [dotDot])) =
      kept (markComps (front ++ [last])) := by
    rw [markComps_append, markComps_append]
    cases skipped with
    | inl isDot =>
      rw [isDot]
      rfl
    | inr isDotDot =>
      rw [isDotDot]
      cases markComps front with
      | nil => rfl
      | cons entry rest => rfl
  have more := tracks.le
  rw [List.length_cons, ← same] at more
  constructor
  · intro named
    obtain ⟨notDot, notDotDot⟩ := (parentsNamed_append.mp named).2 rfl
    exact absurd skipped (not_or.mpr ⟨notDot, notDotDot⟩)
  · exact fun _ => more

/-- A component that is not `..` does the same to both. -/
theorem Tracks.next {names : List (List Char)} (some : comp ≠ []) (other : comp ≠ dotDot)
    (tracks : Tracks comps names) :
    ∃ after, resolveStep names comp = Option.some after ∧ Tracks (comps ++ [comp]) after := by
  have same := @parentsNamed_append_other comps comp other
  by_cases isDot : comp = dot
  · subst isDot
    refine ⟨names, rfl, ?_, ?_⟩
    · intro named
      rw [markComps_append]
      exact tracks.exact (same.mp named)
    · intro stray
      rw [markComps_append]
      exact tracks.excess fun named => stray (same.mpr named)
  · have pushed : kept (markComps (comps ++ [comp])) = comp :: kept (markComps comps) := by
      rw [markComps_append, markStep_name ⟨isDot, other, some⟩, kept_cons_false]
    refine ⟨comp :: names, resolveStep_name ⟨isDot, other, some⟩, ?_, ?_⟩
    · intro named
      rw [pushed, tracks.exact (same.mp named)]
    · intro stray
      rw [pushed]
      exact Nat.succ_lt_succ (tracks.excess fun named => stray (same.mpr named))

theorem tracks_of_resolved {names : List (List Char)} (proper : ∀ comp ∈ comps, comp ≠ [])
    (resolved : resolveComps comps = some names) : Tracks comps names := by
  induction comps using List.reverseRecOn generalizing names with
  | nil =>
    cases resolved
    exact ⟨fun _ => rfl, fun stray => absurd .nil stray⟩
  | append_singleton comps comp inductionHypothesis =>
    obtain ⟨earlier, last⟩ := List.forall_mem_append.mp proper
    have some := last comp (List.mem_singleton_self comp)
    rw [resolveComps_append] at resolved
    obtain ⟨before, resolvedBefore, step⟩ := Option.bind_eq_some_iff.mp resolved
    have tracks := inductionHypothesis earlier resolvedBefore
    by_cases parent : comp = dotDot
    · subst parent
      obtain ⟨top, rfl⟩ := exists_top_of_dotDot step
      -- what stands directly before the `..` decides what it marks
      cases comps using List.reverseRecOn with
      | nil => cases resolvedBefore
      | append_singleton front previous =>
        have proper := earlier previous (List.mem_append_right _ (List.mem_singleton_self _))
        rcases comp_cases previous with isDot | isDotDot | isEmpty | name
        · exact tracks.stray (.inl isDot)
        · exact tracks.stray (.inr isDotDot)
        · exact absurd isEmpty proper
        · rw [resolveComps_append] at resolvedBefore
          obtain ⟨_, _, pushed⟩ := Option.bind_eq_some_iff.mp resolvedBefore
          rw [resolveStep_name name] at pushed
          cases pushed
          exact tracks.pop name
    · obtain ⟨after, stepped, next⟩ := tracks.next some parent
      rw [stepped] at step
      cases step
      exact next

theorem renderPath_injective {comps' : List (List Char)}
    (names : ∀ comp ∈ comps, IsName comp) (names' : ∀ comp ∈ comps', IsName comp)
    (clean : ∀ comp ∈ comps, delimiter ∉ comp) (clean' : ∀ comp ∈ comps', delimiter ∉ comp)
    (same : renderPath comps = renderPath comps') : comps = comps' := by
  by_cases none : comps = []
  · by_cases none' : comps' = []
    · rw [none, none']
    · rw [none] at same
      exact absurd same.symm (renderPath_ne none' names')
  · by_cases none' : comps' = []
    · rw [none'] at same
      exact absurd same (renderPath_ne none names)
    · rw [← components_renderPath none clean, same, components_renderPath none' clean']

/-- What a path resolves to is made of names in it. -/
theorem isName_of_resolved {names : List (List Char)} (proper : ∀ comp ∈ comps, comp ≠ [])
    (resolved : resolveComps comps = some names) : ∀ name ∈ names, name ∈ comps ∧ IsName name := by
  induction comps using List.reverseRecOn generalizing names with
  | nil =>
    cases resolved
    simp
  | append_singleton comps comp inductionHypothesis =>
    obtain ⟨earlier, last⟩ := List.forall_mem_append.mp proper
    rw [resolveComps_append] at resolved
    obtain ⟨before, resolvedBefore, step⟩ := Option.bind_eq_some_iff.mp resolved
    have names : ∀ name ∈ before, name ∈ comps ++ [comp] ∧ IsName name := by
      intro name member
      obtain ⟨inside, isName⟩ := inductionHypothesis earlier resolvedBefore name member
      exact ⟨List.mem_append_left _ inside, isName⟩
    rcases comp_cases comp with rfl | rfl | rfl | name
    · cases step
      exact names
    · obtain ⟨top, rfl⟩ := exists_top_of_dotDot step
      exact (List.forall_mem_cons.mp names).2
    · exact absurd rfl (last [] (List.mem_singleton_self _))
    · rw [resolveStep_name name] at step
      cases step
      exact List.forall_mem_cons.mpr
        ⟨⟨List.mem_append_right _ (List.mem_singleton_self _), name⟩, names⟩

theorem head_of_resolved {names : List (List Char)} (resolved : resolveComps comps = some names) :
    comps.head? ≠ some dotDot := by
  intro first
  obtain ⟨rest, rfl⟩ := List.head?_eq_some_iff.mp first
  cases resolved

/-- For a path of non-empty components on which every `..` has a name to remove,
`url_normalize` writes the path of the names that are left exactly when every `..` is
directly behind the name that it removes. -/
theorem urlNormalize_resolves {names : List (List Char)}
    (proper : ∀ comp ∈ components src, comp ≠ [] ∧ comp.length < vfsMaxFilenameLength)
    (resolved : resolveComps (components src) = some names) :
    urlNormalize src = .ok (.sOk, some (renderPath names.reverse)) ↔
      ParentsNamed (components src) := by
  have some : ∀ comp ∈ components src, comp ≠ [] := fun comp member => (proper comp member).1
  have tracks := tracks_of_resolved some resolved
  rw [urlNormalize_eq (fun comp member => (proper comp member).2) (head_of_resolved resolved)]
  constructor
  · intro same
    have keptNames : ∀ comp ∈ kept (markComps (components src)),
        comp ∈ components src ∧ IsName comp := fun comp member =>
      ⟨(kept_sublist _).subset (List.mem_reverse.mpr member), isName_of_kept _ comp member⟩
    have left := isName_of_resolved some resolved
    have paths : renderPath (kept (markComps (components src))).reverse =
        renderPath names.reverse := by
      simpa using same
    have reversed := renderPath_injective (fun comp member =>
        (keptNames comp (List.mem_reverse.mp member)).2)
      (fun comp member => (left comp (List.mem_reverse.mp member)).2)
      (fun comp member => noDelimiter_of_mem (keptNames comp (List.mem_reverse.mp member)).1)
      (fun comp member => noDelimiter_of_mem (left comp (List.mem_reverse.mp member)).1) paths
    by_contra stray
    have more := tracks.excess stray
    rw [List.reverse_inj.mp reversed] at more
    exact Nat.lt_irrefl _ more
  · intro named
    rw [tracks.exact named]

/-- In `/a/b/..` the `..` is directly behind `b`. -/
theorem urlNormalize_resolves_parent :
    urlNormalize "/a/b/..".toList = .ok (.sOk, some (renderPath [['a']])) :=
  (@urlNormalize_resolves "/a/b/..".toList [['a']] (by decide) rfl).mpr (by decide)

/-- Of two `..` in a row the second one marks the first, and `a` stays. -/
theorem urlNormalize_keeps_parent :
    ¬∀ (src : List Char) (names : List (List Char)),
      (∀ comp ∈ components src, comp ≠ [] ∧ comp.length < vfsMaxFilenameLength) →
      src.head? = some delimiter → resolveComps (components src) = some names →
      urlNormalize src = .ok (.sOk, some (renderPath names.reverse)) := by
  intro resolves
  have path := resolves "/a/b/../..".toList [] (by decide) rfl rfl
  have kept : urlNormalize "/a/b/../..".toList = .ok (.sOk, some "/a".toList) := by decide
  rw [kept] at path
  exact absurd path (by decide)

end

end Antonix.Vfs
