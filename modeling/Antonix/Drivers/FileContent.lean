import Antonix.Drivers.FatRead
import Antonix.Drivers.Iso9660

/-! # The content of files on FAT and ISO 9660 volumes

A stream is open on a file of one of the two drivers; its `read` and `seek` are the
driver's. -/

namespace Antonix.Drivers

open Buffer Transition

/-- The file that a stream is open on, by its driver. -/
inductive OpenFile where
  | fat16 (ctx : Fat16DrvContext) (entry : Fat16DirEntry)
  | iso9660 (ctx : Iso9660DrvContext) (entry : Iso9660DirEntry)

def OpenFile.file : OpenFile → SectorFile
  | .fat16 ctx entry => fat16File ctx entry
  | .iso9660 ctx entry => iso9660File ctx entry

/-- The chain or the extent of the file is well formed, and the storage holds the image. -/
def OpenFile.WellFormed (image : Block) : OpenFile → Prop
  | .fat16 ctx entry => FatWellFormed ctx entry image
  | .iso9660 ctx entry => IsoWellFormed ctx entry image

/-- The bytes of the file, by its chain or its extent. -/
def OpenFile.content (image : Block) : OpenFile → Block
  | .fat16 ctx entry => fatContent ctx entry image
  | .iso9660 _ entry => isoContent entry image

/-- The whole sectors that the driver can read: for an extent, all of them. -/
def OpenFile.Complete : OpenFile → Nat → Nat → Prop
  | .fat16 ctx _ => FatComplete ctx
  | .iso9660 _ _ => fun _ _ => True

theorem OpenFile.reads {image : Block} {file : OpenFile} (formed : file.WellFormed image)
    (sizeSmall : file.file.size < 2 ^ 31) :
    ReadsContent file.file (file.content image) file.Complete := by
  cases file with
  | fat16 ctx entry => exact fat16_reads formed sizeSmall
  | iso9660 ctx entry => exact iso9660_reads formed sizeSmall

/-- For every well-formed file of less than 2 GiB and every sequence of seeks and reads on a
stream: all reads return the file's bytes, no more and no less, if and only if each of them
meets the condition when its turn comes. -/
theorem fileContent_iff {image : Block} {file : OpenFile} {calls : List FileCall}
    (formed : file.WellFormed image) (sizeSmall : file.file.size < 2 ^ 31)
    (requests : ∀ call ∈ calls, call.IsRequest) :
    Along (FileStep file.file) (CallLaw file.file (file.content image)) .opened calls ↔
      Along (FileStep file.file) (CallMeets file.file file.Complete) .opened calls :=
  along_iff (file.reads formed sizeSmall) requests

/-- Ten zero bytes at sector 16 of an empty ISO volume. -/
def tenBytes : OpenFile :=
  .iso9660 ⟨fun start count => .ok (readAt (fun _ => 0) (start * 2048) (count * 2048))⟩ ⟨16, 10⟩

theorem tenBytes_wellFormed : tenBytes.WellFormed fun _ => 0 where
  storage := fun _ _ _ => rfl
  extent := by decide

/-- Read four bytes of them. -/
theorem fileContent_iff_tenBytes :
    Along (FileStep tenBytes.file) (CallLaw tenBytes.file (tenBytes.content fun _ => 0)) .opened
        [.read 4 (some fun _ => 0)] ↔
      Along (FileStep tenBytes.file) (CallMeets tenBytes.file tenBytes.Complete) .opened
        [.read 4 (some fun _ => 0)] := by
  apply fileContent_iff tenBytes_wellFormed (by decide)
  intro call member
  rw [List.mem_singleton.mp member]
  exact ⟨by decide, by decide⟩

/-- Seek to the second byte and read one: the rest of the sector is written as well. -/
theorem read_overruns :
    ¬ Along (FileStep tenBytes.file) (CallLaw tenBytes.file (tenBytes.content fun _ => 0)) .opened
        [.seek 1 (some .beginning), .read 1 (some fun _ => 0)] := by
  intro along
  have reads := tenBytes.reads tenBytes_wellFormed (by decide)
  have one : i32 (1 : Nat) = 1 := i32_of_small (by decide)
  have size : i32 (10 : Nat) = 10 := i32_of_small (by decide)
  have sought : (fileSeek tenBytes.file .opened 1 (some .beginning)).2 = ⟨1, .zeroed⟩ := by
    have target : newPos tenBytes.file 0 1 .beginning = 1 := one
    have bound : i32 tenBytes.file.size = 10 := size
    rw [fileSeek]
    simp only [FileStream.opened, target, bound]
    rfl
  -- what the read after the seek would have to do
  have law := (along.2 ⟨1, .zeroed⟩ sought).1
  have inv : StreamInv tenBytes.file (tenBytes.content fun _ => 0) ⟨1, .zeroed⟩ :=
    ⟨by decide, .cold⟩
  have meets := ((fileRead_iff reads inv (by decide) (by decide)).mp law).2
  -- the position is neither at the end nor in the cache, and the next sector begins too late
  rcases meets with atEnd | hit | missing
  · exact absurd atEnd (by decide)
  · exact absurd hit.2 (by decide)
  · exact absurd missing.1 (by decide)

end Antonix.Drivers
