import Antonix.Drivers.IsoNames
import Antonix.Libc.Rendering

/-! # The console device (`console.c`), and `cat` (`kconsole.c`)

`con_write` gives the characters of a block to `vga_print` one by one, unless the block
ends with a terminator: then it is the format of `vga_printf`.  `cat` takes what it reads
for formats too.  `print` is `vga_print`, and `σ` what it changes. -/

namespace Antonix.Drivers

open Libc

section model

variable {σ : Type} (print : List (BitVec 8) → σ → Except Halt σ)

/-- `vga_printf`; `stack` is what its buffer of 1024 bytes holds at first.  A text that does not
fit with its terminator is written over the rest of the stack. -/
def vgaPrintf (stack : Target) (fmt : List (BitVec 8)) (args : List VaArg) (screen : σ) :
    Except Halt σ := do
  let (_, last) ← vsprintfLoop stack 0 fmt args
  let (buffer, _) ← vsprintf stack fmt args
  if 1024 ≤ last then .error .stuck else print (cString (Buffer.readAt buffer 0 1024)) screen

/-- The loop of `con_write`: a string of one character for each byte. -/
def printBytes : List (BitVec 8) → σ → Except Halt σ
  | [], screen => .ok screen
  | b :: block, screen => do
    let screen ← print (cString [b, 0]) screen
    printBytes block screen

/-- `con_write`, with the value of `bytes_written` where it is set. -/
def conWrite (stack : Target) (inBuf : Nat → BitVec 8) (blockSize : Nat) (screen : σ) :
    Except Halt (HResult × Option Nat × σ) :=
  if blockSize = 0 then .ok (.eInvalidArg, none, screen)
  else if inBuf (blockSize - 1) ≠ 0 then do
    let screen ← printBytes print (Buffer.readAt inBuf 0 blockSize) screen
    .ok (.sOk, some blockSize, screen)
  else do
    let fmt := cString (Buffer.readAt inBuf 0 blockSize)
    let screen ← vgaPrintf print stack fmt [] screen
    .ok (.sOk, some blockSize, screen)

/-- The loop of `__cmd_cat` over what it reads before a read fails. -/
def catLoop (stack : Target) : List (List (BitVec 8)) → σ → Except Halt σ
  | [], screen => .ok screen
  | bytes :: reads, screen => do
    let buff := bytes ++ [0]
    let screen ← vgaPrintf print stack (cString buff) [] screen
    catLoop stack reads screen

end model

/-! ## What is displayed -/

/-- A screen that keeps the characters it was given. -/
def record (str out : List (BitVec 8)) : Except Halt (List (BitVec 8)) := .ok (out ++ str)

/-- The bytes that are to be seen: the terminators display nothing. -/
def visible (block : List (BitVec 8)) : List (BitVec 8) := block.filter (· ≠ 0)

/-- A block that is right as a format: up to its first terminator it has no `%` and fits into the
buffer of `vga_printf`, and behind that there are terminators only. -/
def Plain (block : List (BitVec 8)) : Prop :=
  0x25 ∉ cString block ∧ (cString block).length < 1024 ∧ cString block = visible block

instance (block : List (BitVec 8)) : Decidable (Plain block) := inferInstanceAs (Decidable (_ ∧ _))

/-- `con_write` displays the bytes of a block, whatever is on the stack and behind the block. -/
def ConShows (block : List (BitVec 8)) : Prop :=
  ∀ (stack : Target) (inBuf : Nat → BitVec 8) (out : List (BitVec 8)),
    Buffer.readAt inBuf 0 block.length = block →
    conWrite record stack inBuf block.length out =
      .ok (.sOk, some block.length, out ++ visible block)

/-- `cat` displays the bytes of what it reads. -/
def CatShows (reads : List (List (BitVec 8))) : Prop :=
  ∀ (stack : Target) (out : List (BitVec 8)),
    catLoop record stack reads out = .ok (out ++ visible reads.flatten)

section

variable {block : List (BitVec 8)} {stack : Target} {out : List (BitVec 8)}

/-! ## A format without arguments -/

/-- Without arguments, a format that does not run into something undefined loses characters
behind each other, and loses one where it has a `%`. -/
theorem vsprintfLoop_noArgs (fmt : List (BitVec 8)) : ∀ {target buffer : Target} {dst last : Nat},
    vsprintfLoop target dst fmt [] = .ok (buffer, last) →
    ∃ text : List (BitVec 8), buffer = Buffer.writeAt target dst text ∧
      last = dst + text.length ∧ text.Sublist fmt ∧
      (0x25 ∈ fmt → text.length < fmt.length) := by
  induction fmt using others.induct with
  | case1 =>
    intro target buffer dst last returned
    obtain ⟨rfl, rfl⟩ := eq_of_returned returned
    exact ⟨[], (Buffer.writeAt_nil).symm, rfl, .refl [], fun member => by cases member⟩
  | case2 pc =>
    intro target buffer dst last returned
    by_cases percent : pc = 0x25
    · rw [vsprintfLoop, if_pos percent] at returned
      contradiction
    · rw [vsprintfLoop, if_neg percent] at returned
      obtain ⟨rfl, rfl⟩ := eq_of_returned returned
      exact ⟨[pc], rfl, rfl, .refl _,
        fun member => absurd (List.mem_singleton.mp member).symm percent⟩
  | case3 pc id fmt plain inductionHypothesis =>
    intro target buffer dst last returned
    rw [vsprintfLoop_char plain] at returned
    obtain ⟨text, rfl, rfl, sublist, short⟩ := inductionHypothesis returned
    refine ⟨pc :: text, writeAt_put, by rw [List.length_cons]; omega, sublist.cons_cons pc, ?_⟩
    intro member
    obtain rfl | later := List.mem_cons.mp member
    · exact absurd rfl plain
    · exact Nat.succ_lt_succ (short later)
  | case4 pc id fmt percent conversion =>
    -- the argument that the place holder asks for is missing
    intro target buffer dst last returned
    obtain rfl := not_not.mp percent
    have missing : placeHolder target dst id [] = some (.error .stuck) := by
      unfold placeHolder
      obtain rfl | rfl | rfl := conversion <;> rfl
    rw [vsprintfLoop, if_pos rfl, missing] at returned
    contradiction
  | case5 pc id fmt percent conversion inductionHypothesis =>
    intro target buffer dst last returned
    obtain rfl := not_not.mp percent
    obtain ⟨notDec, others⟩ := not_or.mp conversion
    obtain ⟨notHex, notStr⟩ := not_or.mp others
    have unhandled : placeHolder target dst id [] = none := by
      unfold placeHolder
      rw [if_neg notDec, if_neg notHex, if_neg notStr]
    rw [vsprintfLoop, if_pos rfl, unhandled] at returned
    obtain ⟨text, rfl, rfl, sublist, -⟩ := inductionHypothesis returned
    have length := sublist.length_le
    refine ⟨id :: text, writeAt_put, by rw [List.length_cons]; omega,
      (sublist.cons_cons id).cons 0x25, ?_⟩
    intro _
    simp only [List.length_cons]
    omega

/-- A format without `%` is copied. -/
theorem vsprintfLoop_plain {fmt : List (BitVec 8)} (plain : 0x25 ∉ fmt) :
    ∀ {target : Target} {dst : Nat},
      vsprintfLoop target dst fmt [] =
        .ok (Buffer.writeAt target dst fmt, dst + fmt.length) := by
  induction fmt with
  | nil =>
    intro target dst
    rw [vsprintfLoop, Buffer.writeAt_nil]
    rfl
  | cons c fmt inductionHypothesis =>
    intro target dst
    have past : dst + 1 + fmt.length = dst + (fmt.length + 1) := by omega
    rw [vsprintfLoop_char fun percent => plain (percent ▸ List.mem_cons_self),
      inductionHypothesis fun member => plain (List.mem_cons_of_mem c member), writeAt_put,
      List.length_cons, past]

/-! ## Blocks as formats -/

theorem not_mem_cString (block : List (BitVec 8)) : (0 : BitVec 8) ∉ cString block := by
  intro member
  have allowed := List.mem_takeWhile_imp member
  simp at allowed

theorem cString_sublist_visible : ∀ block : List (BitVec 8), (cString block).Sublist (visible block)
  | [] => .refl []
  | b :: block => by
    unfold cString visible
    by_cases terminator : b = 0
    · rw [List.takeWhile_cons_of_neg (by simpa using terminator)]
      exact List.nil_sublist _
    · rw [List.takeWhile_cons_of_pos (by simpa using terminator),
        List.filter_cons_of_pos (by simpa using terminator)]
      exact (cString_sublist_visible block).cons_cons b

/-- What is in the buffer of `vga_printf` up to the terminator. -/
theorem cString_buffer {text : List (BitVec 8)} (clean : (0 : BitVec 8) ∉ text)
    (fits : text.length < 1024) :
    cString (Buffer.readAt (Libc.put (Buffer.writeAt stack 0 text) text.length 0) 0 1024) = text := by
  have split : 1024 = (text ++ [0]).length + (1024 - (text ++ [0]).length) := by
    rw [List.length_append, List.length_singleton]
    omega
  rw [put_terminator, split, Buffer.readAt_add, Buffer.readAt_writeAt, List.append_assoc,
    List.singleton_append]
  exact cString_append fun c member zero => clean (zero ▸ member)

/-- A text without `%` that fits is printed as it is. -/
theorem vgaPrintf_text {σ : Type} {print : List (BitVec 8) → σ → Except Halt σ}
    {text : List (BitVec 8)} {screen : σ} (noFormat : 0x25 ∉ text) (clean : (0 : BitVec 8) ∉ text)
    (fits : text.length < 1024) : vgaPrintf print stack text [] screen = print text screen := by
  have looped : vsprintfLoop stack 0 text [] =
      .ok (Buffer.writeAt stack 0 text, text.length) := by
    rw [vsprintfLoop_plain noFormat, Nat.zero_add]
  simp only [vgaPrintf, vsprintf, looped, bind, Except.bind, if_neg (Nat.not_le.mpr fits)]
  rw [cString_buffer clean fits]

/-- A plain block is displayed. -/
theorem vgaPrintf_plain (plain : Plain block) :
    vgaPrintf record stack (cString block) [] out = .ok (out ++ visible block) := by
  obtain ⟨noFormat, fits, all⟩ := plain
  rw [vgaPrintf_text noFormat (not_mem_cString block) fits, all]
  rfl

/-- Whatever is displayed of a block is not longer than what is to be seen, and shorter unless the
block is plain. -/
theorem length_of_vgaPrintf {out' : List (BitVec 8)}
    (returned : vgaPrintf record stack (cString block) [] out = .ok out') :
    ∃ shown : List (BitVec 8), out' = out ++ shown ∧ shown.length ≤ (visible block).length ∧
      (shown.length = (visible block).length → Plain block) := by
  obtain ⟨⟨buffer, last⟩, looped, rest⟩ := exists_of_bind returned
  obtain ⟨text, rfl, rfl, sublist, short⟩ := vsprintfLoop_noArgs _ looped
  rw [Nat.zero_add] at looped rest
  by_cases fits : 1024 ≤ text.length
  · simp only [vsprintf, looped, bind, Except.bind, if_pos fits] at rest
    contradiction
  · have clean : (0 : BitVec 8) ∉ text := fun member =>
      not_mem_cString block (sublist.subset member)
    simp only [vsprintf, looped, bind, Except.bind, if_neg fits] at rest
    rw [cString_buffer clean (Nat.not_le.mp fits)] at rest
    obtain rfl := Except.ok.inj rest
    have inside := cString_sublist_visible block
    refine ⟨text, rfl, sublist.length_le.trans inside.length_le, ?_⟩
    intro complete
    have whole : (cString block).length = (visible block).length :=
      Nat.le_antisymm inside.length_le (complete.symm.le.trans sublist.length_le)
    refine ⟨?_, by omega, inside.eq_of_length whole⟩
    intro percent
    have lost := short percent
    omega

/-! ## The console device -/

theorem printBytes_record (block out : List (BitVec 8)) :
    printBytes record block out = .ok (out ++ visible block) := by
  induction block generalizing out with
  | nil => exact congrArg Except.ok (List.append_nil out).symm
  | cons b block inductionHypothesis =>
    have character : cString [b, 0] = visible [b] := by
      unfold cString visible
      by_cases terminator : b = 0
      · rw [terminator]
        rfl
      · rw [List.takeWhile_cons_of_pos (by simpa using terminator),
          List.filter_cons_of_pos (by simpa using terminator)]
        rfl
    have split : visible (b :: block) = visible [b] ++ visible block :=
      List.filter_append [b] block
    simp only [printBytes, record, bind, Except.bind]
    rw [inductionHypothesis, character, split, List.append_assoc]

/-- A block is displayed when it does not end with a terminator, and otherwise when it is plain. -/
theorem conShows_iff (nonempty : block ≠ []) :
    ConShows block ↔ block.getLast nonempty ≠ 0 ∨ Plain block := by
  have positive : block.length ≠ 0 := fun zero => nonempty (List.length_eq_zero_iff.mp zero)
  have last : ∀ inBuf : Nat → BitVec 8, Buffer.readAt inBuf 0 block.length = block →
      inBuf (block.length - 1) = block.getLast nonempty := by
    intro inBuf holds
    rw [List.getLast_eq_getElem]
    have cell : (Buffer.readAt inBuf 0 block.length)[block.length - 1]? =
        block[block.length - 1]? := by rw [holds]
    rw [List.getElem?_eq_getElem (by rw [Buffer.length_readAt]; omega),
      List.getElem?_eq_getElem (by omega)] at cell
    simpa using cell
  constructor
  · intro shows
    by_cases ends : block.getLast nonempty = 0
    · -- the block is a format, and displays all of itself only when it is plain
      right
      -- the bytes of the block, in a buffer of their own
      let inBuf := Buffer.writeAt (fun _ => (0 : BitVec 8)) 0 block
      have holds : Buffer.readAt inBuf 0 block.length = block := Buffer.readAt_writeAt
      have written := shows (fun _ => 0) inBuf [] holds
      rw [conWrite, if_neg positive, if_neg (by rw [last inBuf holds]; exact not_not.mpr ends),
        holds] at written
      obtain ⟨out', printed, answered⟩ := exists_of_bind written
      obtain ⟨-, -, rfl⟩ := eq_of_answered answered
      obtain ⟨shown, same, -, plain⟩ := length_of_vgaPrintf printed
      apply plain
      have equal : shown = visible block := (List.append_cancel_left same).symm
      rw [equal]
    · exact .inl ends
  · intro fine stack inBuf out holds
    rw [conWrite, if_neg positive, last inBuf holds, holds]
    by_cases ends : block.getLast nonempty = 0
    · simp only [if_neg (not_not.mpr ends), vgaPrintf_plain (fine.resolve_left (not_not.mpr ends))]
      rfl
    · rw [if_pos ends, printBytes_record]
      rfl

/-! ## `cat` -/

theorem visible_flatten_cons (reads : List (List (BitVec 8))) :
    visible (block :: reads).flatten = visible block ++ visible reads.flatten := by
  rw [List.flatten_cons]
  exact List.filter_append _ _

/-- A terminator behind a block is not part of it. -/
theorem cString_concat (block : List (BitVec 8)) : cString (block ++ [0]) = cString block := by
  induction block with
  | nil => rfl
  | cons b block inductionHypothesis =>
    unfold cString at inductionHypothesis ⊢
    rw [List.cons_append, List.takeWhile_cons, List.takeWhile_cons, inductionHypothesis]

theorem length_of_catLoop {reads : List (List (BitVec 8))} {out' : List (BitVec 8)}
    (returned : catLoop record stack reads out = .ok out') :
    ∃ shown : List (BitVec 8), out' = out ++ shown ∧
      shown.length ≤ (visible reads.flatten).length ∧
      (shown.length = (visible reads.flatten).length → ∀ block ∈ reads, Plain block) := by
  induction reads generalizing out with
  | nil =>
    obtain rfl := Except.ok.inj returned
    exact ⟨[], (List.append_nil out).symm, Nat.le_refl 0, fun _ => by simp⟩
  | cons block reads inductionHypothesis =>
    obtain ⟨middle, printed, rest⟩ := exists_of_bind returned
    rw [cString_concat] at printed
    obtain ⟨first, rfl, firstShort, firstPlain⟩ := length_of_vgaPrintf printed
    obtain ⟨second, rfl, secondShort, secondPlain⟩ := inductionHypothesis rest
    refine ⟨first ++ second, List.append_assoc _ _ _, ?_, ?_⟩
    · rw [visible_flatten_cons, List.length_append, List.length_append]
      omega
    · rw [visible_flatten_cons, List.length_append, List.length_append]
      -- neither part is longer than it is to be, so that both are complete
      intro complete
      exact List.forall_mem_cons.mpr ⟨firstPlain (by omega), secondPlain (by omega)⟩

/-- What is read is displayed when every read gives a plain block. -/
theorem catShows_iff (reads : List (List (BitVec 8))) :
    CatShows reads ↔ ∀ block ∈ reads, Plain block := by
  constructor
  · intro shows
    obtain ⟨shown, same, -, plain⟩ := length_of_catLoop (shows (fun _ => 0) [])
    apply plain
    have equal : shown = visible reads.flatten := (List.append_cancel_left same).symm
    rw [equal]
  · intro plain stack
    induction reads with
    | nil => exact fun out => congrArg Except.ok (List.append_nil out).symm
    | cons block reads inductionHypothesis =>
      intro out
      obtain ⟨first, others⟩ := List.forall_mem_cons.mp plain
      simp only [catLoop, cString_concat, vgaPrintf_plain first, bind, Except.bind]
      rw [inductionHypothesis others, visible_flatten_cons, List.append_assoc]

end

/-- `con_write` displays the bytes of a block exactly when the block does not end with a terminator
or is plain; `cat` displays what it reads exactly when all of it is plain. -/
theorem console_shows_iff (block : List (BitVec 8)) (reads : List (List (BitVec 8)))
    (nonempty : block ≠ []) :
    (ConShows block ↔ block.getLast nonempty ≠ 0 ∨ Plain block) ∧
      (CatShows reads ↔ ∀ block ∈ reads, Plain block) :=
  ⟨conShows_iff nonempty, catShows_iff reads⟩

/-- `"ok\n"` with its terminator, and a file with it. -/
theorem console_shows_line :
    ConShows [0x6F, 0x6B, 0x0A, 0] ∧ CatShows [[0x6F, 0x6B, 0x0A]] := by
  obtain ⟨written, read⟩ := console_shows_iff [0x6F, 0x6B, 0x0A, 0] [[0x6F, 0x6B, 0x0A]]
    (List.cons_ne_nil _ _)
  exact ⟨written.mpr (.inr (by decide)), read.mpr (by decide)⟩

/-- `"100%!"` loses its `%` when it is written with its terminator, and in a file. -/
theorem console_loses_percent :
    ¬ ConShows [0x31, 0x30, 0x30, 0x25, 0x21, 0] ∧
      ¬ CatShows [[0x31, 0x30, 0x30, 0x25, 0x21]] := by
  constructor
  · rw [conShows_iff (List.cons_ne_nil _ _)]
    decide
  · rw [catShows_iff]
    decide

end Antonix.Drivers
