import Mathlib.Algebra.Group.Nat.Even
import Mathlib.Data.List.DropRight
import Antonix.Lib.CString
import Antonix.Libc.Rendering

/-! # How far `vsprintf` reads its format (`libc/string.c`)

`vsprintf` goes on to the character behind a `%` before it knows that there is one.  Where
the `%` is the last character that is the terminator, which is written like any other
character, and the loop goes on behind it.  A `%` takes the next character with it, so
that this happens to the formats that end with an odd number of them. -/

namespace Antonix.Libc

/-- What was read before a loop has been read when it ends. -/
def noting {α : Type*} (reads : List Nat) : Option (α × List Nat) → Option (α × List Nat) :=
  Option.map fun ended => (ended.1, reads ++ ended.2)

/-- What the loop reads of the format when it comes to a `%`; the look back at the character before
is for an escape that is not implemented. -/
def percentReads (fmt pc : Nat) : List Nat := pc :: (if pc = fmt then [] else [pc - 1]) ++ [pc + 1]

/-- The loop of `vsprintf` on a format in memory, for so many turns: how it ends, and the
addresses of the format that it has read. -/
def vsprintfTurns (memory : ByteMem) (fmt : Nat) :
    Nat → Nat → Target → Nat → List VaArg → Option (Except Halt (Target × Nat) × List Nat)
  | 0, _, _, _, _ => none
  | turns + 1, pc, target, dst, args =>
    if memory pc = 0 then some (.ok (target, dst), [pc])
    else if memory pc = 0x25 then
      match placeHolder target dst (memory (pc + 1)) args with
      | some (.error halt) => some (.error halt, percentReads fmt pc)
      | some (.ok (target, dst, args)) =>
        noting (percentReads fmt pc) (vsprintfTurns memory fmt turns (pc + 2) target dst args)
      | none =>
        -- the next character is written, and the loop goes on behind it, whatever it is
        noting (percentReads fmt pc) (vsprintfTurns memory fmt turns (pc + 2)
          (put target dst (memory (pc + 1))) (dst + 1) args)
    else
      noting [pc] (vsprintfTurns memory fmt turns (pc + 1) (put target dst (memory pc)) (dst + 1)
        args)

/-- The loop ends, whatever the arguments are, and reads nothing outside of a format of this
length and its terminator. -/
def StaysInside (memory : ByteMem) (fmt length : Nat) : Prop :=
  ∀ target args, ∃ turns result reads,
    vsprintfTurns memory fmt turns fmt target 0 args = some (result, reads) ∧
      ∀ a ∈ reads, fmt ≤ a ∧ a ≤ fmt + length

/-- The number of `%` that a format ends with. -/
def trailingPercents (format : List (BitVec 8)) : Nat := (format.rtakeWhile (· = 0x25)).length

/-- An argument for every place holder of a format. -/
def sampleArgs : List (BitVec 8) → List VaArg
  | [] => []
  | [_] => []
  | pc :: id :: format =>
    if pc = 0x25 then
      if id = 0x64 ∨ id = 0x78 then .int 0 :: sampleArgs format
      else if id = 0x73 then .str (some []) :: sampleArgs format
      else sampleArgs format
    else sampleArgs (id :: format)

section

variable {memory : ByteMem} {fmt pc dst turns : Nat} {target : Target} {args : List VaArg}
  {format : List (BitVec 8)} {c id : BitVec 8}

/-! ## The `%` at the end -/

/-- One more element in front of a list matters to its tail only when the tail is all of it. -/
theorem length_rtakeWhile_cons {α : Type*} {p : α → Bool} {x : α} {l : List α} :
    ((x :: l).rtakeWhile p).length =
      if (l.rtakeWhile p).length = l.length then l.length + if p x then 1 else 0
      else (l.rtakeWhile p).length := by
  simp only [List.rtakeWhile, List.length_reverse, List.reverse_cons, List.takeWhile_append]
  split
  · cases here : p x with
    | true => simp [here]
    | false => simp [here]
  · rfl

theorem trailingPercents_cons :
    trailingPercents (c :: format) =
      if trailingPercents format = format.length then
        format.length + if c = 0x25 then 1 else 0
      else trailingPercents format := by
  simp only [trailingPercents, length_rtakeWhile_cons, decide_eq_true_eq]
  congr

theorem trailingPercents_le : trailingPercents format ≤ format.length :=
  List.IsSuffix.length_le (List.rtakeWhile_suffix _ _)

theorem trailingPercents_char (plain : c ≠ 0x25) :
    trailingPercents (c :: format) = trailingPercents format := by
  rw [trailingPercents_cons]
  rw [if_neg plain]
  split
  case isTrue whole => exact whole.symm
  case isFalse => rfl

/-- A `%` and what it takes with it make no difference to the parity. -/
theorem trailingPercents_percent :
    Even (trailingPercents (0x25 :: id :: format)) ↔ Even (trailingPercents format) := by
  have most := @trailingPercents_le format
  rw [trailingPercents_cons, trailingPercents_cons, List.length_cons]
  by_cases whole : trailingPercents format = format.length
  · rw [if_pos whole, if_pos rfl]
    by_cases percent : id = 0x25
    · rw [if_pos percent, if_pos rfl, whole]
      simp [Nat.even_add_one]
    · rw [if_neg percent, if_neg (by omega), whole]
      simp
  · rw [if_neg whole, if_neg (by omega)]

/-! ## Turns of the loop -/

theorem noting_eq_some {α : Type*} {before reads : List Nat} {ended : Option (α × List Nat)}
    {result : α} :
    noting before ended = some (result, reads) ↔
      ∃ later, ended = some (result, later) ∧ reads = before ++ later := by
  cases ended with
  | none => simp [noting]
  | some ended =>
    obtain ⟨result', later⟩ := ended
    simp only [noting, Option.map_some, Option.some.injEq, Prod.mk.injEq]
    constructor
    · rintro ⟨rfl, rfl⟩
      exact ⟨later, ⟨rfl, rfl⟩, rfl⟩
    · rintro ⟨later', ⟨rfl, rfl⟩, rfl⟩
      exact ⟨rfl, rfl⟩

theorem vsprintfTurns_end (ends : memory pc = 0) :
    vsprintfTurns memory fmt (turns + 1) pc target dst args =
      some (.ok (target, dst), [pc]) := if_pos ends

theorem vsprintfTurns_char (here : memory pc = c) (nonzero : c ≠ 0) (plain : c ≠ 0x25) :
    vsprintfTurns memory fmt (turns + 1) pc target dst args =
      noting [pc] (vsprintfTurns memory fmt turns (pc + 1) (put target dst c) (dst + 1) args) := by
  subst here
  rw [vsprintfTurns, if_neg nonzero, if_neg plain]

theorem vsprintfTurns_percent (here : memory pc = 0x25) (next : memory (pc + 1) = id) :
    vsprintfTurns memory fmt (turns + 1) pc target dst args =
      match placeHolder target dst id args with
      | some (.error halt) => some (.error halt, percentReads fmt pc)
      | some (.ok (target, dst, args)) =>
        noting (percentReads fmt pc) (vsprintfTurns memory fmt turns (pc + 2) target dst args)
      | none =>
        noting (percentReads fmt pc)
          (vsprintfTurns memory fmt turns (pc + 2) (put target dst id) (dst + 1) args) := by
  subst next
  have nonzero : memory pc ≠ 0 := by simp [here]
  rw [vsprintfTurns, if_neg nonzero, if_pos here]

theorem percentReads_range {a : Nat} (behind : fmt ≤ pc) (member : a ∈ percentReads fmt pc) :
    fmt ≤ a ∧ a ≤ pc + 1 := by
  unfold percentReads at member
  split at member
  · simp only [List.cons_append, List.nil_append, List.mem_cons, List.not_mem_nil, or_false]
      at member
    omega
  · simp only [List.cons_append, List.nil_append, List.mem_cons, List.not_mem_nil, or_false]
      at member
    omega

/-- A loop that ends has read the character that it came to first. -/
theorem vsprintfTurns_reads {result : Except Halt (Target × Nat)} {reads : List Nat}
    (ended : vsprintfTurns memory fmt turns pc target dst args = some (result, reads)) :
    pc ∈ reads := by
  cases turns with
  | zero => simp [vsprintfTurns] at ended
  | succ turns =>
    have noted : ∀ {before ended'}, pc ∈ before →
        noting before ended' = some (result, reads) → pc ∈ reads := by
      intro before ended' member whole
      obtain ⟨later, -, rfl⟩ := noting_eq_some.mp whole
      exact List.mem_append_left _ member
    have first : pc ∈ percentReads fmt pc := List.mem_cons_self
    rw [vsprintfTurns] at ended
    split at ended
    · obtain ⟨-, rfl⟩ := Prod.mk.inj (Option.some.inj ended)
      exact List.mem_singleton_self pc
    · split at ended
      · split at ended
        · obtain ⟨-, rfl⟩ := Prod.mk.inj (Option.some.inj ended)
          exact first
        · exact noted first ended
        · exact noted first ended
      · exact noted (List.mem_singleton_self pc) ended

/-! ## Formats that are not left -/

/-- On a format with its `%` in pairs at the end the loop ends as it does on the list of its
characters, and reads the terminator last. -/
theorem vsprintfTurns_eq : ∀ {format : List (BitVec 8)} {pc : Nat} (target : Target) (dst : Nat)
    (args : List VaArg), CString memory pc format → fmt ≤ pc → Even (trailingPercents format) →
    ∃ turns reads, vsprintfTurns memory fmt turns pc target dst args =
        some (vsprintfLoop target dst format args, reads) ∧
      ∀ a ∈ reads, fmt ≤ a ∧ a ≤ pc + format.length
  | [], pc, target, dst, args, text, behind, even => by
    refine ⟨1, [pc], ?_, ?_⟩
    · rw [vsprintfTurns_end text.ends, vsprintfLoop]
    · simp [behind]
  | c :: format, pc, target, dst, args, text, behind, even => by
    obtain ⟨here, nonzero, rest⟩ := text.uncons
    by_cases percent : c = 0x25
    · subst percent
      cases format with
      | nil =>
        -- a single `%` is no pair
        simp [trailingPercents, List.rtakeWhile] at even
      | cons id format =>
        obtain ⟨next, -, later⟩ := rest.uncons
        have inside : ∀ a ∈ percentReads fmt pc,
            fmt ≤ a ∧ a ≤ pc + (0x25 :: id :: format).length := by
          intro a member
          have range := percentReads_range behind member
          simp only [List.length_cons]
          omega
        have goesOn := fun target dst args =>
          @vsprintfTurns_eq format (pc + 2) target dst args later (by omega)
            (trailingPercents_percent.mp even)
        have joined : ∀ {reads : List Nat}, (∀ a ∈ reads, fmt ≤ a ∧ a ≤ pc + 2 + format.length) →
            ∀ a ∈ percentReads fmt pc ++ reads,
              fmt ≤ a ∧ a ≤ pc + (0x25 :: id :: format).length := by
          intro reads ranges a member
          cases List.mem_append.mp member with
          | inl first => exact inside a first
          | inr second =>
            have range := ranges a second
            simp only [List.length_cons]
            omega
        rw [vsprintfLoop, if_pos rfl]
        cases handled : placeHolder target dst id args with
        | none =>
          obtain ⟨turns, reads, ended, ranges⟩ := goesOn (put target dst id) (dst + 1) args
          refine ⟨turns + 1, percentReads fmt pc ++ reads, ?_, joined ranges⟩
          rw [vsprintfTurns_percent here next, handled]
          exact noting_eq_some.mpr ⟨reads, ended, rfl⟩
        | some outcome =>
          cases outcome with
          | error halt =>
            refine ⟨1, percentReads fmt pc, ?_, inside⟩
            rw [vsprintfTurns_percent here next, handled]
            rfl
          | ok written =>
            obtain ⟨target', dst', args'⟩ := written
            obtain ⟨turns, reads, ended, ranges⟩ := goesOn target' dst' args'
            refine ⟨turns + 1, percentReads fmt pc ++ reads, ?_, joined ranges⟩
            rw [vsprintfTurns_percent here next, handled]
            exact noting_eq_some.mpr ⟨reads, ended, rfl⟩
    · rw [trailingPercents_char percent] at even
      obtain ⟨turns, reads, ended, ranges⟩ :=
        vsprintfTurns_eq (put target dst c) (dst + 1) args rest (by omega) even
      refine ⟨turns + 1, pc :: reads, ?_, ?_⟩
      · rw [vsprintfTurns_char here nonzero percent, vsprintfLoop_char percent]
        exact noting_eq_some.mpr ⟨reads, ended, rfl⟩
      · intro a member
        simp only [List.length_cons]
        cases List.mem_cons.mp member with
        | inl first => omega
        | inr later =>
          have range := ranges a later
          omega
  termination_by format => format.length

/-! ## Formats that are left -/

/-- With an argument for every place holder, a `%` is dealt with. -/
theorem placeHolder_sampleArgs (target : Target) (dst : Nat) (id : BitVec 8)
    (format : List (BitVec 8)) :
    (placeHolder target dst id (sampleArgs (0x25 :: id :: format)) = none ∧
      sampleArgs (0x25 :: id :: format) = sampleArgs format) ∨
    ∃ target' dst', placeHolder target dst id (sampleArgs (0x25 :: id :: format)) =
      some (.ok (target', dst', sampleArgs format)) := by
  rw [sampleArgs, if_pos rfl]
  by_cases dec : id = 0x64
  · rw [if_pos (.inl dec), placeHolder, if_pos dec]
    exact .inr ⟨_, _, rfl⟩
  · by_cases hex : id = 0x78
    · rw [if_pos (.inr hex), placeHolder, if_neg dec, if_pos hex]
      exact .inr ⟨_, _, rfl⟩
    · by_cases str : id = 0x73
      · rw [if_neg (not_or.mpr ⟨dec, hex⟩), if_pos str, placeHolder, if_neg dec, if_neg hex,
          if_pos str]
        exact .inr ⟨_, _, rfl⟩
      · rw [if_neg (not_or.mpr ⟨dec, hex⟩), if_neg str]
        have unhandled : placeHolder target dst id (sampleArgs format) = none := by
          unfold placeHolder
          rw [if_neg dec, if_neg hex, if_neg str]
        exact .inl ⟨unhandled, rfl⟩

/-- On a format with a `%` left over at its end the loop reads what is behind the terminator. -/
theorem vsprintfTurns_beyond : ∀ {format : List (BitVec 8)} {pc turns dst : Nat} {target : Target}
    {result : Except Halt (Target × Nat)} {reads : List Nat}, CString memory pc format →
    ¬ Even (trailingPercents format) →
    vsprintfTurns memory fmt turns pc target dst (sampleArgs format) = some (result, reads) →
    pc + format.length + 1 ∈ reads
  | _, _, 0, _, _, _, _, _, _, ended => by simp [vsprintfTurns] at ended
  | [], _, _ + 1, _, _, _, _, _, odd, _ => by simp [trailingPercents, List.rtakeWhile] at odd
  | c :: format, pc, turns + 1, dst, target, result, reads, text, odd, ended => by
    obtain ⟨here, nonzero, rest⟩ := text.uncons
    by_cases percent : c = 0x25
    · subst percent
      cases format with
      | nil =>
        -- the terminator is taken for the character behind the `%`
        rw [vsprintfTurns_percent here rest.ends] at ended
        obtain ⟨later, ended', rfl⟩ := noting_eq_some.mp ended
        exact List.mem_append_right _ (vsprintfTurns_reads ended')
      | cons id format =>
        obtain ⟨next, -, later⟩ := rest.uncons
        have odd' : ¬ Even (trailingPercents format) := fun even =>
          odd (trailingPercents_percent.mpr even)
        have same : pc + (0x25 :: id :: format).length + 1 = pc + 2 + format.length + 1 := by
          simp only [List.length_cons]
          omega
        rw [vsprintfTurns_percent here next] at ended
        rw [same]
        obtain ⟨unhandled, sample⟩ | ⟨target', dst', handled⟩ :=
          placeHolder_sampleArgs target dst id format
        · rw [unhandled, sample] at ended
          obtain ⟨reads', ended', rfl⟩ := noting_eq_some.mp ended
          exact List.mem_append_right _ (vsprintfTurns_beyond later odd' ended')
        · rw [handled] at ended
          obtain ⟨reads', ended', rfl⟩ := noting_eq_some.mp ended
          exact List.mem_append_right _ (vsprintfTurns_beyond later odd' ended')
    · rw [trailingPercents_char percent] at odd
      have sample : sampleArgs (c :: format) = sampleArgs format := by
        cases format with
        | nil => rfl
        | cons id format => rw [sampleArgs, if_neg percent]
      rw [vsprintfTurns_char here nonzero percent, sample] at ended
      obtain ⟨reads', ended', rfl⟩ := noting_eq_some.mp ended
      have beyond := vsprintfTurns_beyond rest odd ended'
      rw [List.length_cons, Nat.add_comm format.length, ← Nat.add_assoc pc]
      exact List.mem_append_right _ beyond
  termination_by format => format.length

theorem not_staysInside (text : CString memory fmt format)
    (odd : ¬ Even (trailingPercents format)) : ¬ StaysInside memory fmt format.length := by
  intro stays
  obtain ⟨turns, result, reads, ended, ranges⟩ := stays (fun _ => 0) (sampleArgs format)
  have range := ranges _ (vsprintfTurns_beyond text odd ended)
  omega

end

/-- The loop stays inside of a format and its terminator, and ends, exactly when the format does
not end with an odd number of `%`. -/
theorem vsprintf_inside_iff (memory : ByteMem) (fmt : Nat) (format : List (BitVec 8))
    (text : CString memory fmt format) :
    StaysInside memory fmt format.length ↔ Even (trailingPercents format) := by
  constructor
  · intro stays
    by_contra odd
    exact not_staysInside text odd stays
  · intro even target args
    obtain ⟨turns, reads, ended, ranges⟩ :=
      vsprintfTurns_eq target 0 args text (Nat.le_refl fmt) even
    exact ⟨turns, _, reads, ended, ranges⟩

/-- `"100%% %s"`, with other bytes behind the terminator. -/
theorem vsprintf_inside_pairs : StaysInside
    (fun a => [0x31, 0x30, 0x30, 0x25, 0x25, 0x20, 0x25, 0x73, 0x00].getD a 0xFF) 0 8 := by
  refine (vsprintf_inside_iff _ 0 [0x31, 0x30, 0x30, 0x25, 0x25, 0x20, 0x25, 0x73] ?_).mpr ?_
  · exact .cons rfl (by simp) (.cons rfl (by simp) (.cons rfl (by simp) (.cons rfl (by simp)
      (.cons rfl (by simp) (.cons rfl (by simp) (.cons rfl (by simp) (.cons rfl (by simp)
        (.nil rfl))))))))
  · exact ⟨0, rfl⟩

/-- `"100%"` is left. -/
theorem vsprintf_beyond : ∃ memory, CString memory 0 [0x31, 0x30, 0x30, 0x25] ∧
    ¬ StaysInside memory 0 4 := by
  have text : CString (fun a => [0x31, 0x30, 0x30, 0x25, 0x00].getD a 0xFF) 0
      [0x31, 0x30, 0x30, 0x25] :=
    .cons rfl (by simp) (.cons rfl (by simp) (.cons rfl (by simp) (.cons rfl (by simp)
      (.nil rfl))))
  have one : trailingPercents [0x31, 0x30, 0x30, 0x25] = 1 := rfl
  exact ⟨_, text, not_staysInside text (by rw [one]; exact Nat.not_even_one)⟩

end Antonix.Libc
