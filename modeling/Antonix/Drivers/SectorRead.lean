import Mathlib.Data.Nat.ModEq
import Antonix.Drivers.SectorFile

/-! # Reading through the sector cache

The pieces of a read (cache, head, middle, tail) all move one `Transfer` forward:
`Progress` says that what was written so far is the file's content and that the
counters agree.  Each piece either keeps it, or fails, or has written past the end of
the request, which nothing undoes. -/

namespace Antonix.Drivers

open Buffer

/-- `readContent` reads whole sectors of the file with this content where `complete` holds,
and fails where it does not; single sectors can always be read. -/
structure ReadsContent (f : SectorFile) (content : Block) (complete : Nat → Nat → Prop) :
    Prop where
  blockPos : 0 < f.blockSize
  blockSmall : f.blockSize < 2 ^ 16
  sizeSmall : f.size < 2 ^ 31
  whole : ∀ start count, f.blockSize ∣ start → f.blockSize ∣ count →
    start + count < f.size + f.blockSize → complete start count →
    f.readContent start count = .ok (.sOk, readAt content start count)
  broken : ∀ start count, f.blockSize ∣ start → f.blockSize ∣ count →
    start + count < f.size + f.blockSize → ¬ complete start count →
    ∀ hr bytes, f.readContent start count = .ok (hr, bytes) → hr.failed = true
  single : ∀ start, f.blockSize ∣ start → start < f.size → complete start f.blockSize

/-- The cache was never used, or it holds one sector of the file. -/
inductive CacheInv (f : SectorFile) (content : Block) : StrCache → Prop
  | cold : CacheInv f content .zeroed
  | warm {start : Nat} {buff : Block} (aligned : f.blockSize ∣ start) (inside : start < f.size)
      (same : readAt buff 0 f.blockSize = readAt content start f.blockSize) :
      CacheInv f content ⟨f.blockSize, start, f.blockSize, some buff, false⟩

/-- There is a buffer for a sector, or memory for one. -/
def HasRoom (f : SectorFile) (sc : StrCache) (alloc : Option Block) : Prop :=
  f.blockSize ≤ sc.cap ∨ alloc.isSome = true

/-- Exactly the first `w` bytes behind `p` were written. -/
def Filled (content : Block) (p w : Nat) (dst : OutBuf) : Prop :=
  ∀ i, dst i = if i < w then some (content (p + i)) else none

/-- The request for `e` bytes at `p` is on its way. -/
structure Progress (f : SectorFile) (content : Block) (p e : Nat) (x : Transfer) : Prop where
  filled : Filled content p x.writeIndex x.dst
  within : x.writeIndex ≤ e
  readIndex : x.readIndex = p + x.writeIndex
  size : x.size = e - x.writeIndex
  cache : CacheInv f content x.sc

section

variable {f : SectorFile} {content : Block} {complete : Nat → Nat → Prop} {sc : StrCache}
  {alloc : Option Block} {start p e w i : Nat} {dst : OutBuf} {x x' : Transfer} {hr : HResult}

/-! ## Writing -/

theorem filled_nothing : Filled content p 0 fun _ => none := fun _ => rfl

theorem Filled.put (filled : Filled content p w dst) (l : Nat) :
    Filled content p (w + l) (put dst w (readAt content (p + w) l)) := by
  intro i
  have length : ((readAt content (p + w) l).map some).length = l := by simp
  by_cases before : i < w
  · rw [Drivers.put, writeAt_outside (.inl before), filled, if_pos before, if_pos (by omega)]
  · by_cases inside : i < w + l
    · obtain ⟨j, rfl⟩ := Nat.exists_eq_add_of_le (Nat.not_lt.mp before)
      rw [Drivers.put, writeAt_inside (by omega), if_pos inside]
      simp [Nat.add_assoc]
    · rw [Drivers.put, writeAt_outside (.inr (by omega)), filled, if_neg before, if_neg inside]

theorem not_filled_of_written (written : (dst e).isSome = true) : ¬ Filled content p e dst := by
  intro filled
  rw [filled, if_neg (Nat.lt_irrefl e)] at written
  contradiction

theorem put_written {bytes : List (BitVec 8)} (written : (dst i).isSome = true) (index : Nat) :
    (put dst index bytes i).isSome = true := by
  by_cases inside : index ≤ i ∧ i < index + bytes.length
  · obtain ⟨j, rfl⟩ := Nat.exists_eq_add_of_le inside.1
    have short : j < (bytes.map some).length := by
      rw [List.length_map]
      omega
    rw [put, writeAt_inside short]
    simp
  · have outside : i < index ∨ index + (bytes.map some).length ≤ i := by
      rw [List.length_map]
      omega
    rwa [put, writeAt_outside outside]

/-! ## The cache -/

theorem roomFor_enough {bytes : Nat} (enough : ¬ sc.cap < bytes) :
    roomFor sc bytes alloc = some sc := if_neg enough

theorem roomFor_new {bytes : Nat} {fresh : Block} (grows : sc.cap < bytes) :
    roomFor sc bytes (some fresh) =
      some { sc with buff := some fresh, cap := bytes, invalid := true } := if_pos grows

theorem roomFor_full {bytes : Nat} (grows : sc.cap < bytes) : roomFor sc bytes none = none :=
  if_pos grows

theorem cacheBlocks_returns (reads : ReadsContent f content complete)
    (inv : CacheInv f content sc) (aligned : f.blockSize ∣ start) (inside : start < f.size)
    (room : HasRoom f sc alloc) :
    ∃ buff, cacheBlocks f alloc sc start 1 =
        .ok (.sOk, ⟨f.blockSize, start, f.blockSize, some buff, false⟩) ∧
      readAt buff 0 f.blockSize = readAt content start f.blockSize := by
  have one : u32 (1 * f.blockSize) = f.blockSize := by
    have := reads.blockSmall
    rw [Nat.one_mul]
    exact u32_of_lt (by omega)
  have valid : ¬ (start % f.blockSize ≠ 0 ∨ 1 = 0) := by
    have := Nat.mod_eq_zero_of_dvd aligned
    omega
  have content' := reads.whole start f.blockSize aligned (Nat.dvd_refl _) (by omega)
    (reads.single start aligned inside)
  -- whatever the buffer held, it holds the sector now
  have filled : ∀ old : Block,
      readAt (writeAt old 0 (readAt content start f.blockSize)) 0 f.blockSize =
        readAt content start f.blockSize := by
    intro old
    have back : readAt (writeAt old 0 (readAt content start f.blockSize)) 0
        (readAt content start f.blockSize).length = readAt content start f.blockSize :=
      readAt_writeAt
    rwa [length_readAt] at back
  cases inv with
  | cold =>
    -- the first sector of the stream: the buffer is new
    cases alloc with
    | none =>
      cases room with
      | inl large => exact absurd reads.blockPos (Nat.not_lt.mpr large)
      | inr memory => contradiction
    | some fresh =>
      have grows : StrCache.zeroed.cap < f.blockSize := reads.blockPos
      refine ⟨writeAt fresh 0 (readAt content start f.blockSize), ?_, filled fresh⟩
      simp only [cacheBlocks, if_neg valid, one, roomFor_new grows, content', bind, Except.bind]
      rfl
  | @warm start' buff aligned' inside' same =>
    refine ⟨writeAt buff 0 (readAt content start f.blockSize), ?_, filled buff⟩
    have enough : roomFor ⟨f.blockSize, start', f.blockSize, some buff, false⟩ f.blockSize alloc =
        some ⟨f.blockSize, start', f.blockSize, some buff, false⟩ :=
      roomFor_enough (Nat.lt_irrefl f.blockSize)
    simp only [cacheBlocks, if_neg valid, one, enough, content', bind, Except.bind]
    rfl

theorem cacheBlocks_noRoom (inv : CacheInv f content sc) (small : f.blockSize < 2 ^ 16)
    (aligned : f.blockSize ∣ start) (full : ¬ HasRoom f sc alloc) :
    cacheBlocks f alloc sc start 1 = .ok (.eOutOfMem, .zeroed) := by
  have one : u32 (1 * f.blockSize) = f.blockSize := by
    rw [Nat.one_mul]
    exact u32_of_lt (by omega)
  have valid : ¬ (start % f.blockSize ≠ 0 ∨ 1 = 0) := by
    have := Nat.mod_eq_zero_of_dvd aligned
    omega
  obtain ⟨large, memory⟩ := not_or.mp full
  cases inv with
  | cold =>
    cases alloc with
    | some fresh => exact absurd rfl memory
    | none =>
      simp only [cacheBlocks, if_neg valid, one, roomFor_full (Nat.not_le.mp large)]
      rfl
  | warm => exact absurd (Nat.le_refl _) large

/-- The end of a sector that is in the buffer. -/
theorem readAt_rest {buff : Block} {offs b : Nat} (below : offs ≤ b)
    (same : readAt buff 0 b = readAt content start b) :
    readAt buff offs (b - offs) = readAt content (start + offs) (b - offs) := by
  have dropped := congrArg (List.drop offs) same
  rwa [drop_readAt below, drop_readAt below, Nat.zero_add] at dropped

theorem readAt_front {buff : Block} {len b : Nat} (below : len ≤ b)
    (same : readAt buff 0 b = readAt content start b) :
    readAt buff 0 len = readAt content start len := by
  have taken := congrArg (List.take len) same
  rwa [take_readAt below, take_readAt below] at taken

/-! ## The head -/

theorem readHead_aligned (aligned : f.blockSize ∣ x.readIndex) :
    readHead f alloc x = .ok (.sOk, x) := by
  have zero := Nat.mod_eq_zero_of_dvd aligned
  exact if_neg (not_not_intro zero)

theorem readHead_noRoom (reads : ReadsContent f content complete)
    (progress : Progress f content p e x) (unaligned : ¬ f.blockSize ∣ x.readIndex)
    (fits : x.readIndex < 2 ^ 32) (full : ¬ HasRoom f x.sc alloc) :
    ∃ x', readHead f alloc x = .ok (.eOutOfMem, x') := by
  have offset : x.readIndex % f.blockSize ≠ 0 := fun zero =>
    unaligned (Nat.dvd_of_mod_eq_zero zero)
  have below : sub32 x.readIndex (x.readIndex % f.blockSize) =
      x.readIndex - x.readIndex % f.blockSize := sub32_of_le (Nat.mod_le _ _) fits
  have fails := cacheBlocks_noRoom progress.cache reads.blockSmall
    (Nat.dvd_sub_mod x.readIndex) full
  refine ⟨{ x with sc := .zeroed }, ?_⟩
  simp only [readHead, if_pos offset, below, fails, bind, Except.bind]
  rfl

/-- With a buffer, the rest of the first sector is written, whatever was asked for. -/
theorem readHead_writes (reads : ReadsContent f content complete)
    (progress : Progress f content p e x) (unaligned : ¬ f.blockSize ∣ x.readIndex)
    (inside : x.readIndex < f.size) (room : HasRoom f x.sc alloc) :
    ∃ sc, CacheInv f content sc ∧ sc.cap = f.blockSize ∧
      readHead f alloc x = .ok (.sOk, {
        sc := sc
        dst := put x.dst x.writeIndex
          (readAt content x.readIndex (f.blockSize - x.readIndex % f.blockSize))
        writeIndex := u32 (x.writeIndex + (f.blockSize - x.readIndex % f.blockSize))
        readIndex := u32 (x.readIndex + (f.blockSize - x.readIndex % f.blockSize))
        size := sub32 x.size (f.blockSize - x.readIndex % f.blockSize) }) := by
  have offset : x.readIndex % f.blockSize ≠ 0 := fun zero =>
    unaligned (Nat.dvd_of_mod_eq_zero zero)
  have small := reads.blockSmall
  have sizeSmall := reads.sizeSmall
  have offsBelow : x.readIndex % f.blockSize < f.blockSize := Nat.mod_lt _ reads.blockPos
  have offsLe : x.readIndex % f.blockSize ≤ x.readIndex := Nat.mod_le _ _
  have below : sub32 x.readIndex (x.readIndex % f.blockSize) =
      x.readIndex - x.readIndex % f.blockSize := sub32_of_le offsLe (by omega)
  have rest : sub32 f.blockSize (x.readIndex % f.blockSize) =
      f.blockSize - x.readIndex % f.blockSize := sub32_of_le (by omega) (by omega)
  -- the sector that the position is in
  obtain ⟨buff, cached, same⟩ := cacheBlocks_returns reads progress.cache
    (Nat.dvd_sub_mod x.readIndex) (by omega) room
  have bytes := readAt_rest (Nat.le_of_lt offsBelow) same
  rw [Nat.sub_add_cancel offsLe] at bytes
  refine ⟨_, .warm (Nat.dvd_sub_mod x.readIndex) (by omega) same, rfl, ?_⟩
  simp only [readHead, if_pos offset, below, cached, bind, Except.bind, copyCached, rest, bytes]
  rfl

/-- A request that goes on behind the first sector is on its way. -/
theorem readHead_long (reads : ReadsContent f content complete)
    (progress : Progress f content p e x) (fits : p + e ≤ f.size)
    (unaligned : ¬ f.blockSize ∣ x.readIndex)
    (long : x.readIndex + (f.blockSize - x.readIndex % f.blockSize) ≤ p + e)
    (room : HasRoom f x.sc alloc) :
    ∃ x', readHead f alloc x = .ok (.sOk, x') ∧ Progress f content p e x' ∧
      x'.readIndex = x.readIndex + (f.blockSize - x.readIndex % f.blockSize) ∧
      x'.sc.cap = f.blockSize := by
  have offsBelow : x.readIndex % f.blockSize < f.blockSize := Nat.mod_lt _ reads.blockPos
  have sizeSmall := reads.sizeSmall
  have index := progress.readIndex
  have size := progress.size
  obtain ⟨sc, inv, cap, writes⟩ := readHead_writes reads progress unaligned (by omega) room
  -- the request is long enough for none of the counters to wrap around
  have written : u32 (x.writeIndex + (f.blockSize - x.readIndex % f.blockSize)) =
      x.writeIndex + (f.blockSize - x.readIndex % f.blockSize) := u32_of_lt (by omega)
  have read : u32 (x.readIndex + (f.blockSize - x.readIndex % f.blockSize)) =
      x.readIndex + (f.blockSize - x.readIndex % f.blockSize) := u32_of_lt (by omega)
  have left : sub32 x.size (f.blockSize - x.readIndex % f.blockSize) =
      x.size - (f.blockSize - x.readIndex % f.blockSize) := sub32_of_le (by omega) (by omega)
  rw [written, read, left] at writes
  refine ⟨_, writes, ?_, rfl, cap⟩
  constructor
  case filled =>
    have filled := progress.filled.put (f.blockSize - x.readIndex % f.blockSize)
    rwa [← index] at filled
  case within => dsimp only; omega
  case readIndex => dsimp only; omega
  case size => dsimp only; omega
  case cache => exact inv

/-- A request that ends in the first sector is written too far. -/
theorem readHead_short (reads : ReadsContent f content complete)
    (progress : Progress f content p e x) (inside : x.readIndex < f.size)
    (unaligned : ¬ f.blockSize ∣ x.readIndex)
    (short : p + e < x.readIndex + (f.blockSize - x.readIndex % f.blockSize))
    (room : HasRoom f x.sc alloc) :
    ∃ x', readHead f alloc x = .ok (.sOk, x') ∧ (x'.dst e).isSome = true := by
  obtain ⟨sc, -, -, writes⟩ := readHead_writes reads progress unaligned inside room
  refine ⟨_, writes, ?_⟩
  have within := progress.within
  have index := progress.readIndex
  -- the byte behind the request is one of the sector's
  have filled := progress.filled.put (f.blockSize - x.readIndex % f.blockSize) e
  rw [← index, if_pos (by omega)] at filled
  exact Option.isSome_iff_exists.mpr ⟨_, filled⟩

/-! ## The middle -/

theorem readMiddle_eq (aligned : f.blockSize ∣ x.readIndex) (small : x.size < 2 ^ 32) :
    readMiddle f x = (do
      let (hr, content) ← f.readContent x.readIndex (x.size / f.blockSize * f.blockSize)
      let dst := put x.dst x.writeIndex content
      if hr.failed then .ok (hr, { x with dst := dst })
      else
        .ok (.sOk, {
          sc := x.sc
          dst := dst
          writeIndex := u32 (x.writeIndex + x.size / f.blockSize * f.blockSize)
          readIndex := u32 (x.readIndex + x.size / f.blockSize * f.blockSize)
          size := sub32 x.size (x.size / f.blockSize * f.blockSize) })) := by
  have bytes : u32 (x.size / f.blockSize * f.blockSize) = x.size / f.blockSize * f.blockSize :=
    u32_of_lt (Nat.lt_of_le_of_lt (Nat.div_mul_le_self _ _) small)
  have zero := Nat.mod_eq_zero_of_dvd aligned
  rw [readMiddle, if_neg (not_not_intro zero), bytes]

theorem readMiddle_complete (reads : ReadsContent f content complete)
    (progress : Progress f content p e x) (fits : p + e ≤ f.size)
    (aligned : f.blockSize ∣ x.readIndex)
    (whole : complete x.readIndex (x.size / f.blockSize * f.blockSize)) :
    ∃ x', readMiddle f x = .ok (.sOk, x') ∧ Progress f content p e x' ∧ x'.sc = x.sc ∧
      f.blockSize ∣ x'.readIndex ∧ x'.size = x.size % f.blockSize := by
  have blockPos := reads.blockPos
  have sizeSmall := reads.sizeSmall
  have within := progress.within
  have index := progress.readIndex
  have size := progress.size
  have below : x.size / f.blockSize * f.blockSize ≤ x.size := Nat.div_mul_le_self _ _
  have split : x.size / f.blockSize * f.blockSize + x.size % f.blockSize = x.size :=
    Nat.div_add_mod' _ _
  have read := reads.whole x.readIndex _ aligned (Nat.dvd_mul_left _ _) (by omega) whole
  -- nothing wraps around inside of the file
  have written : u32 (x.writeIndex + x.size / f.blockSize * f.blockSize) =
      x.writeIndex + x.size / f.blockSize * f.blockSize := u32_of_lt (by omega)
  have moved : u32 (x.readIndex + x.size / f.blockSize * f.blockSize) =
      x.readIndex + x.size / f.blockSize * f.blockSize := u32_of_lt (by omega)
  have left : sub32 x.size (x.size / f.blockSize * f.blockSize) =
      x.size - x.size / f.blockSize * f.blockSize := sub32_of_le below (by omega)
  rw [readMiddle_eq aligned (by omega), read, written, moved, left]
  refine ⟨_, rfl, ?_, rfl, Nat.dvd_add aligned (Nat.dvd_mul_left _ _), ?_⟩
  · constructor
    case filled =>
      have filled := progress.filled.put (x.size / f.blockSize * f.blockSize)
      rwa [← index] at filled
    case within => dsimp only; omega
    case readIndex => dsimp only; omega
    case size => dsimp only; omega
    case cache => exact progress.cache
  · dsimp only
    omega

theorem readMiddle_broken (reads : ReadsContent f content complete)
    (progress : Progress f content p e x) (fits : p + e ≤ f.size)
    (aligned : f.blockSize ∣ x.readIndex)
    (broken : ¬ complete x.readIndex (x.size / f.blockSize * f.blockSize))
    (returns : readMiddle f x = .ok (hr, x')) : hr.failed = true := by
  have blockPos := reads.blockPos
  have sizeSmall := reads.sizeSmall
  have within := progress.within
  have index := progress.readIndex
  have size := progress.size
  have below : x.size / f.blockSize * f.blockSize ≤ x.size := Nat.div_mul_le_self _ _
  rw [readMiddle_eq aligned (by omega)] at returns
  obtain ⟨result, read, returns⟩ := exists_of_bind returns
  have failed := reads.broken x.readIndex _ aligned (Nat.dvd_mul_left _ _) (by omega) broken _ _
    read
  dsimp only at returns
  rw [if_pos failed] at returns
  rw [← (eq_of_returned returns).1]
  exact failed

theorem readMiddle_written (written : (x.dst i).isSome = true)
    (returns : readMiddle f x = .ok (hr, x')) : (x'.dst i).isSome = true := by
  rw [readMiddle] at returns
  split at returns
  · contradiction
  · obtain ⟨result, -, returns⟩ := exists_of_bind returns
    dsimp only at returns
    split at returns
    · rw [← (eq_of_returned returns).2]
      exact put_written written _
    · rw [← (eq_of_returned returns).2]
      exact put_written written _

/-! ## The tail -/

theorem readTail_empty (blockPos : 0 < f.blockSize) (empty : x.size = 0) :
    readTail f alloc x = .ok (.sOk, x) := by
  have small : ¬ x.size ≥ f.blockSize := by omega
  have none : ¬ x.size > 0 := by omega
  rw [readTail, if_neg small, if_neg none]

theorem readTail_noRoom (reads : ReadsContent f content complete)
    (progress : Progress f content p e x) (aligned : f.blockSize ∣ x.readIndex)
    (small : x.size < f.blockSize) (some : x.size ≠ 0) (full : ¬ HasRoom f x.sc alloc) :
    ∃ x', readTail f alloc x = .ok (.eOutOfMem, x') := by
  have fails := cacheBlocks_noRoom progress.cache reads.blockSmall aligned full
  have notLarge : ¬ x.size ≥ f.blockSize := Nat.not_le.mpr small
  have positive : x.size > 0 := Nat.pos_of_ne_zero some
  refine ⟨{ x with sc := .zeroed }, ?_⟩
  simp only [readTail, if_neg notLarge, if_pos positive, fails, bind, Except.bind]
  rfl

theorem readTail_returns (reads : ReadsContent f content complete)
    (progress : Progress f content p e x) (fits : p + e ≤ f.size)
    (aligned : f.blockSize ∣ x.readIndex) (small : x.size < f.blockSize) (some : x.size ≠ 0)
    (room : HasRoom f x.sc alloc) :
    ∃ x', readTail f alloc x = .ok (.sOk, x') ∧ Filled content p e x'.dst ∧
      CacheInv f content x'.sc := by
  have index := progress.readIndex
  have size := progress.size
  have within := progress.within
  have inside : x.readIndex < f.size := by omega
  obtain ⟨buff, cached, same⟩ := cacheBlocks_returns reads progress.cache aligned inside room
  -- the front of the last sector is what is left of the request
  have bytes := readAt_front (Nat.le_of_lt small) same
  have filled := progress.filled.put x.size
  rw [← index] at filled
  have notLarge : ¬ x.size ≥ f.blockSize := Nat.not_le.mpr small
  have positive : x.size > 0 := Nat.pos_of_ne_zero some
  refine ⟨{ x with
    sc := ⟨f.blockSize, x.readIndex, f.blockSize, Option.some buff, false⟩
    dst := put x.dst x.writeIndex (readAt content x.readIndex x.size) }, ?_, ?_,
    .warm aligned inside same⟩
  · simp only [readTail, if_neg notLarge, if_pos positive, cached, bind, Except.bind, copyCached,
      bytes]
    rfl
  · have total : x.writeIndex + x.size = e := by omega
    rwa [total] at filled

theorem readTail_written (written : (x.dst i).isSome = true)
    (returns : readTail f alloc x = .ok (hr, x')) : (x'.dst i).isSome = true := by
  rw [readTail] at returns
  split at returns
  · contradiction
  · split at returns
    · obtain ⟨result, -, returns⟩ := exists_of_bind returns
      dsimp only at returns
      split at returns
      · rw [← (eq_of_returned returns).2]
        exact written
      · obtain ⟨bytes, -, returns⟩ := exists_of_bind returns
        rw [← (eq_of_returned returns).2]
        exact put_written written _
    · rw [← (eq_of_returned returns).2]
      exact written

end

end Antonix.Drivers
