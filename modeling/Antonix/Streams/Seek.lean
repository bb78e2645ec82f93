import Antonix.Vfs.File
import Antonix.Drivers.Fat16
import Antonix.Drivers.Iso9660

/-! # Seeking (`vfs.c`, `fat16.c`, `iso9660.c`)

The three `seek` routines are the same code.  They cut a 64-bit goal down to 32 bits
before they look whether it is in the file, so that a goal far outside of the file may
alias a position in it.  A 64-bit sum that wraps around has the lower half of the
mathematical one. -/

namespace Antonix.Streams

open Vfs Drivers

/-- The origin that a `switch` over the values of `kstream.h` takes. -/
def seekOrigin (origin : Int) : Option SeekOrigin :=
  if origin = kstreamOriginBeginning then some .beginning
  else if origin = kstreamOriginCurrent then some .current
  else if origin = kstreamOriginEnd then some .fromEnd
  else none

/-- The position that a seek asks for, if it knows the origin. -/
def seekGoal (size pos : Nat) (offset : Int) : Option SeekOrigin → Option Int
  | none => none
  | some .beginning => some offset
  | some .current => some (pos + offset)
  | some .fromEnd => some (size - offset)

/-- What a seek is for: the status and the position behind it. -/
def seekOutcome (size pos : Nat) : Option Int → HResult × Nat
  | none => (.eInvalidArg, pos)
  | some goal =>
    if 0 ≤ goal ∧ goal ≤ size then (.sOk, goal.toNat) else (.eInvalidArg, pos)

/-- The goal is in the file, or its lower 32 bits are no position in the file either. -/
def SeekMeets (size : Nat) (goal : Option Int) : Prop :=
  ∀ g, goal = some g → 0 ≤ g ∧ g ≤ size ∨ size < g % 2 ^ 32

section

variable {size pos : Nat} {offset origin : Int}

theorem i32_inside_iff (small : size < 2 ^ 31) (g : Int) :
    (0 ≤ i32 g ∧ i32 g ≤ size) ↔ g % 2 ^ 32 ≤ size := by
  simp only [i32, Int.bmod_def]
  omega

/-- Seeking to the goal cut down to 32 bits is seeking to the goal, but for an alias. -/
theorem seekOutcome_cut_iff (small : size < 2 ^ 31) (pos : Nat) (goal : Option Int) :
    seekOutcome size pos (goal.map i32) = seekOutcome size pos goal ↔ SeekMeets size goal := by
  cases goal with
  | none => exact iff_of_true rfl fun g absent => by cases absent
  | some g =>
    have meets : SeekMeets size (some g) ↔ (0 ≤ g ∧ g ≤ size ∨ size < g % 2 ^ 32) :=
      ⟨fun meets => meets g rfl, fun meets g' same => Option.some.inj same ▸ meets⟩
    rw [meets]
    by_cases inside : 0 ≤ g ∧ g ≤ size
    · have cut : i32 g = g := i32_of_range (by omega) (by omega)
      rw [Option.map_some, cut]
      exact iff_of_true rfl (.inl inside)
    · simp only [Option.map_some, seekOutcome, if_neg inside]
      by_cases aliased : 0 ≤ i32 g ∧ i32 g ≤ size
      · have low := (i32_inside_iff small g).mp aliased
        rw [if_pos aliased]
        refine iff_of_false (fun same => ?_) (not_or.mpr ⟨inside, by omega⟩)
        cases (Prod.mk.inj same).1
      · have high := mt (i32_inside_iff small g).mpr aliased
        rw [if_neg aliased]
        exact iff_of_true rfl (.inr (by omega))

/-- The test of the code, on the goal cut down to 32 bits. -/
theorem seekOutcome_eq {goal : Int} :
    (if goal < 0 ∨ goal > size then (HResult.eInvalidArg, pos) else (.sOk, goal.toNat)) =
      seekOutcome size pos (some goal) := by
  by_cases inside : 0 ≤ goal ∧ goal ≤ size
  · rw [seekOutcome, if_pos inside, if_neg (by omega)]
  · rw [seekOutcome, if_neg inside, if_pos (by omega)]

theorem vfs_seekTarget_eq (small : size < 2 ^ 31) :
    seekTarget size pos offset origin =
      (seekGoal size pos offset (seekOrigin origin)).map i32 := by
  have sizeCut : i32 size = size := i32_of_small small
  rw [seekTarget, sizeCut, seekOrigin]
  split
  · rfl
  · split
    · rfl
    · split
      · rfl
      · rfl

theorem vfsFileSeek_outcome {node : VfsFile} (small : node.size < 2 ^ 31) (str : KStream) :
    Prod.map id KStream.pos (vfsFileSeek node str offset origin) =
      seekOutcome node.size str.pos
        ((seekGoal node.size str.pos offset (seekOrigin origin)).map i32) := by
  have sizeCut : i32 node.size = node.size := i32_of_small small
  rw [vfsFileSeek, vfs_seekTarget_eq small, sizeCut]
  cases seekGoal node.size str.pos offset (seekOrigin origin) with
  | none => rfl
  | some goal =>
    rw [Option.map_some, ← seekOutcome_eq]
    change Prod.map id KStream.pos (if _ then _ else _) = _
    split
    · rfl
    · rfl

theorem fileSeek_outcome {f : SectorFile} (small : f.size < 2 ^ 31) (str : FileStream) :
    Prod.map id FileStream.pos (fileSeek f str offset (seekOrigin origin)) =
      seekOutcome f.size str.pos
        ((seekGoal f.size str.pos offset (seekOrigin origin)).map i32) := by
  have sizeCut : i32 f.size = f.size := i32_of_small small
  cases seekOrigin origin with
  | none => rfl
  | some start =>
    have target : (seekGoal f.size str.pos offset (some start)).map i32 =
        some (newPos f str.pos offset start) := by
      cases start <;> rfl
    rw [fileSeek, target, ← seekOutcome_eq, sizeCut]
    change Prod.map id FileStream.pos (if _ then _ else _) = _
    split
    · rfl
    · rfl

end

/-- For every size below 2 ^ 31, position in the file, offset and origin: each of the three
routines seeks to the goal when it is in the file and refuses it otherwise if and only if the
goal has no alias in the file, and all three do the same in any case. -/
theorem file_seek_iff {size pos mode : Nat} {offset origin : Int} {node : VfsFile}
    {fatCtx : Fat16DrvContext} {fatEntry : Fat16DirEntry} {isoCtx : Iso9660DrvContext}
    {isoEntry : Iso9660DirEntry} {fatCache isoCache : StrCache} (small : size < 2 ^ 31)
    (within : pos ≤ size) (vfsSize : node.size = size) (fatSize : fatEntry.size = size)
    (isoSize : isoEntry.extentSize = size) :
    let goal := seekGoal size pos offset (seekOrigin origin)
    let vfs := Prod.map id KStream.pos (vfsFileSeek node ⟨mode, pos⟩ offset origin)
    let fat := Prod.map id FileStream.pos
      (fat16FileSeek fatCtx fatEntry ⟨pos, fatCache⟩ offset (seekOrigin origin))
    let iso := Prod.map id FileStream.pos
      (iso9660FileSeek isoCtx isoEntry ⟨pos, isoCache⟩ offset (seekOrigin origin))
    (vfs = seekOutcome size pos goal ↔ SeekMeets size goal) ∧
      (fat = seekOutcome size pos goal ↔ SeekMeets size goal) ∧
      (iso = seekOutcome size pos goal ↔ SeekMeets size goal) ∧ vfs = fat ∧ fat = iso := by
  intro goal vfs fat iso
  have vfsCut : vfs = seekOutcome size pos (goal.map i32) := by
    subst vfsSize
    exact vfsFileSeek_outcome small ⟨mode, pos⟩
  have fatCut : fat = seekOutcome size pos (goal.map i32) := by
    subst fatSize
    exact fileSeek_outcome small ⟨pos, fatCache⟩
  have isoCut : iso = seekOutcome size pos (goal.map i32) := by
    subst isoSize
    exact fileSeek_outcome small ⟨pos, isoCache⟩
  rw [vfsCut, fatCut, isoCut]
  have cut := seekOutcome_cut_iff small pos goal
  exact ⟨cut, cut, cut, rfl, rfl⟩

/-- The end of an empty file, in the three of them. -/
theorem file_seek_iff_empty :
    Prod.map id KStream.pos (vfsFileSeek ⟨0, none, 0⟩ ⟨1, 0⟩ 0 kstreamOriginEnd) =
        seekOutcome 0 0 (seekGoal 0 0 0 (seekOrigin kstreamOriginEnd)) ↔
      SeekMeets 0 (seekGoal 0 0 0 (seekOrigin kstreamOriginEnd)) :=
  (@file_seek_iff 0 0 1 0 kstreamOriginEnd ⟨0, none, 0⟩
    ⟨512, 1, .fat16, fun _ => 0, 0, fun _ _ => .error .eFail⟩ ⟨0, 2, 0⟩
    ⟨fun _ _ => .error .eFail⟩ ⟨16, 0⟩ .zeroed .zeroed (by decide) (by decide) rfl rfl rfl).1

/-- In an empty file the byte at 2 ^ 32 is found. -/
theorem vfsFileSeek_aliases :
    Prod.map id KStream.pos (vfsFileSeek ⟨0, none, 0⟩ ⟨1, 0⟩ (2 ^ 32) kstreamOriginBeginning) =
        (.sOk, 0) ∧
      ¬ Prod.map id KStream.pos (vfsFileSeek ⟨0, none, 0⟩ ⟨1, 0⟩ (2 ^ 32) kstreamOriginBeginning) =
        seekOutcome 0 0 (seekGoal 0 0 (2 ^ 32) (seekOrigin kstreamOriginBeginning)) := by
  decide

end Antonix.Streams
