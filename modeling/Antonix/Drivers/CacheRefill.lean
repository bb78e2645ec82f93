import Antonix.Drivers.SectorRead

/-! # What a read leaves in the sector cache

A read refills the cache with the sector that it begins in and with the one that it ends in.  It
may fail anywhere: the cache holds a sector of the file behind each piece of it, if no refill
leaves bytes in the buffer and fails. -/

namespace Antonix.Drivers

open Buffer

/-- A cache that is valid and not empty has a buffer with these bytes of the file. -/
def Coherent (content : Block) (sc : StrCache) : Prop :=
  sc.invalid = false → 0 < sc.size →
    ∃ buff, sc.buff = some buff ∧ readAt buff 0 sc.size = readAt content sc.startAddr sc.size

/-- The cache was never filled, or its buffer is new, or it holds a sector of the content. -/
inductive CacheHolds (b : Nat) (content : Block) : StrCache → Prop
  | cold : CacheHolds b content .zeroed
  | unread {buff : Block} : CacheHolds b content ⟨b, 0, 0, some buff, true⟩
  | filled {start : Nat} {buff : Block} (aligned : b ∣ start)
      (same : readAt buff 0 b = readAt content start b) :
      CacheHolds b content ⟨b, start, b, some buff, false⟩

/-- A read of this sector puts the sector, or fails and puts nothing. -/
def Refills (f : SectorFile) (content : Block) (start : Nat) : Prop :=
  ∀ hr bytes, f.readContent start f.blockSize = .ok (hr, bytes) →
    bytes = if hr.failed then [] else readAt content start f.blockSize

/-- The sectors that a request for `e` bytes at `p` can refill the cache with: the one it begins in
and the one it ends in, or any where the address space does not consist of whole sectors. -/
def RefillAt (b p e start : Nat) : Prop :=
  b ∣ start ∧ start < 2 ^ 32 ∧
    (b ∣ 2 ^ 32 → start = p - p % b ∨ start = u32 (p + e) - u32 (p + e) % b)

/-- The refills of a request, in which a read of the stream is on its way: it ends where it should,
and nothing but a sector of the content is in the cache. -/
structure OnCourse (f : SectorFile) (content : Block) (p e : Nat) (x : Transfer) : Prop where
  cache : CacheHolds f.blockSize content x.sc
  ends : u32 (x.readIndex + x.size) = u32 (p + e)
  index : x.readIndex < 2 ^ 32

section

variable {f : SectorFile} {content : Block} {sc sc' : StrCache} {alloc : Option Block}
  {b bytes p e start : Nat} {x x' : Transfer} {hr : HResult}

theorem CacheHolds.coherent (holds : CacheHolds b content sc) : Coherent content sc := by
  intro valid some
  cases holds with
  | cold => exact absurd some (Nat.lt_irrefl 0)
  | unread => cases valid
  | @filled start buff _ same => exact ⟨buff, rfl, same⟩

/-! ## Refills -/

/-- With room for a sector there is a buffer, and what was valid in it still is. -/
theorem CacheHolds.roomFor (holds : CacheHolds b content sc) (pos : 0 < b)
    (room : roomFor sc b alloc = some sc') :
    CacheHolds b content sc' ∧ ∃ buff, sc'.buff = some buff ∧ sc'.cap = b := by
  cases holds with
  | cold =>
    have grows : StrCache.zeroed.cap < b := pos
    cases alloc with
    | none =>
      rw [roomFor_full grows] at room
      cases room
    | some fresh =>
      rw [roomFor_new grows] at room
      cases room
      exact ⟨.unread, fresh, rfl, rfl⟩
  | @unread buff =>
    have enough := @roomFor_enough ⟨b, 0, 0, some buff, true⟩ alloc b (Nat.lt_irrefl b)
    rw [enough] at room
    cases room
    exact ⟨.unread, buff, rfl, rfl⟩
  | @filled start buff aligned same =>
    have enough := @roomFor_enough ⟨b, start, b, some buff, false⟩ alloc b (Nat.lt_irrefl b)
    rw [enough] at room
    cases room
    exact ⟨.filled aligned same, buff, rfl, rfl⟩

/-- Only a stream without a buffer asks for one. -/
theorem CacheHolds.noRoom (holds : CacheHolds b content sc)
    (room : Drivers.roomFor sc b alloc = none) : sc = .zeroed := by
  cases holds with
  | cold => rfl
  | unread =>
    rw [roomFor_enough (Nat.lt_irrefl b)] at room
    cases room
  | filled =>
    rw [roomFor_enough (Nat.lt_irrefl b)] at room
    cases room

/-- Behind a refill that has succeeded the cache holds the sector. -/
theorem holds_refilled {buff : Block} {bytes : List (BitVec 8)} (aligned : b ∣ start)
    (put : bytes = readAt content start b) :
    CacheHolds b content ⟨b, start, b, some (writeAt buff 0 bytes), false⟩ := by
  apply CacheHolds.filled aligned
  have back : readAt (writeAt buff 0 bytes) 0 bytes.length = bytes := readAt_writeAt
  have length : bytes.length = b := by rw [put, length_readAt]
  rw [length] at back
  rw [back, put]

theorem cacheBlocks_holds (holds : CacheHolds f.blockSize content sc) (pos : 0 < f.blockSize)
    (small : f.blockSize < 2 ^ 16) (refills : f.blockSize ∣ start → Refills f content start)
    (returned : cacheBlocks f alloc sc start 1 = .ok (hr, sc')) :
    CacheHolds f.blockSize content sc' := by
  have one : u32 (1 * f.blockSize) = f.blockSize := by
    rw [Nat.one_mul]
    exact u32_of_lt (by omega)
  unfold cacheBlocks at returned
  rw [one] at returned
  by_cases refused : start % f.blockSize ≠ 0 ∨ 1 = 0
  · rw [if_pos refused] at returned
    rwa [← (eq_of_returned returned).2]
  · rw [if_neg refused] at returned
    dsimp only at returned
    have aligned : f.blockSize ∣ start := Nat.dvd_of_mod_eq_zero (by omega)
    cases room : roomFor sc f.blockSize alloc with
    | none =>
      rw [room] at returned
      rw [← (eq_of_returned returned).2, holds.noRoom room]
      exact .cold
    | some sc₁ =>
      rw [room] at returned
      obtain ⟨holds', buff, hasBuff, cap⟩ := holds.roomFor pos room
      obtain ⟨⟨hr', bytes⟩, read, returned⟩ := exists_of_bind returned
      have put := refills aligned hr' bytes read
      dsimp only at returned
      cases failed : hr'.failed with
      | true =>
        -- the bookkeeping is still that of the sector before, and so is the buffer
        rw [failed, if_pos rfl] at put
        rw [failed, if_pos rfl, put] at returned
        have same : ({ sc₁ with buff := sc₁.buff.map fun buff => writeAt buff 0 [] } : StrCache) =
            sc₁ := by
          rw [hasBuff, Option.map_some, writeAt_nil, ← hasBuff]
        rw [← (eq_of_returned returned).2, same]
        exact holds'
      | false =>
        rw [failed, if_neg Bool.false_ne_true] at put
        rw [failed, if_neg Bool.false_ne_true, hasBuff, cap] at returned
        rw [← (eq_of_returned returned).2]
        exact holds_refilled aligned put

/-! ## The pieces of a read -/

/-- The head refills with the sector that the request begins in. -/
theorem readHead_holds (course : OnCourse f content p e x)
    (begins : x.readIndex = p ∨ f.blockSize ∣ x.readIndex) (pos : 0 < f.blockSize)
    (small : f.blockSize < 2 ^ 16)
    (refills : ∀ start, RefillAt f.blockSize p e start → Refills f content start)
    (returned : readHead f alloc x = .ok (hr, x')) : OnCourse f content p e x' := by
  have index := course.index
  by_cases aligned : x.readIndex % f.blockSize = 0
  · rw [readHead_aligned (Nat.dvd_of_mod_eq_zero aligned)] at returned
    rwa [← (eq_of_returned returned).2]
  · have first : x.readIndex = p := begins.resolve_right fun divides =>
      aligned (Nat.mod_eq_zero_of_dvd divides)
    have below := Nat.mod_le x.readIndex f.blockSize
    have offs := Nat.mod_lt x.readIndex pos
    have sector : sub32 x.readIndex (x.readIndex % f.blockSize) =
        x.readIndex - x.readIndex % f.blockSize := sub32_of_le below index
    have rest : sub32 f.blockSize (x.readIndex % f.blockSize) =
        f.blockSize - x.readIndex % f.blockSize := sub32_of_le (by omega) (by omega)
    unfold readHead at returned
    rw [if_pos aligned] at returned
    obtain ⟨⟨hr', sc'⟩, cached, returned⟩ := exists_of_bind returned
    have holds : CacheHolds f.blockSize content sc' := by
      apply cacheBlocks_holds course.cache pos small _ cached
      intro divides
      rw [sector] at divides ⊢
      refine refills _ ⟨divides, by omega, fun _ => .inl ?_⟩
      rw [first]
    dsimp only at returned
    rw [rest] at returned
    split at returned
    · rw [← (eq_of_returned returned).2]
      exact ⟨holds, course.ends, index⟩
    · obtain ⟨bytes, _, returned⟩ := exists_of_bind returned
      rw [← (eq_of_returned returned).2]
      refine ⟨holds, ?_, u32_lt _⟩
      rw [← course.ends]
      simp only [sub32, u32]
      omega

/-- The middle does not touch the cache. -/
theorem readMiddle_holds (course : OnCourse f content p e x)
    (returned : readMiddle f x = .ok (hr, x')) : OnCourse f content p e x' := by
  unfold readMiddle at returned
  split at returned
  · cases returned
  · obtain ⟨⟨hr', content'⟩, _, returned⟩ := exists_of_bind returned
    have bytesSmall := u32_lt (x.size / f.blockSize * f.blockSize)
    dsimp only at returned
    generalize u32 (x.size / f.blockSize * f.blockSize) = bytes at bytesSmall returned
    split at returned
    · rw [← (eq_of_returned returned).2]
      exact ⟨course.cache, course.ends, course.index⟩
    · rw [← (eq_of_returned returned).2]
      refine ⟨course.cache, ?_, u32_lt _⟩
      rw [← course.ends]
      simp only [sub32, u32]
      omega

/-- The tail refills with the sector that the request ends in. -/
theorem readTail_holds (course : OnCourse f content p e x) (pos : 0 < f.blockSize)
    (small : f.blockSize < 2 ^ 16)
    (refills : ∀ start, RefillAt f.blockSize p e start → Refills f content start)
    (returned : readTail f alloc x = .ok (hr, x')) : CacheHolds f.blockSize content x'.sc := by
  have index := course.index
  unfold readTail at returned
  split at returned
  · cases returned
  · rename_i short
    split at returned
    · obtain ⟨⟨hr', sc'⟩, cached, returned⟩ := exists_of_bind returned
      have holds : CacheHolds f.blockSize content sc' := by
        apply cacheBlocks_holds course.cache pos small _ cached
        intro divides
        refine refills _ ⟨divides, index, fun whole => .inr ?_⟩
        -- the sector does not reach beyond the address space, and the request ends inside of it
        have fits : x.readIndex + f.blockSize ≤ 2 ^ 32 := by
          obtain ⟨k, sector⟩ := divides
          obtain ⟨n, space⟩ := whole
          rw [sector, space] at index
          rw [sector, space, ← Nat.mul_succ]
          exact Nat.mul_le_mul_left _ (Nat.lt_of_mul_lt_mul_left index)
        have sum : u32 (x.readIndex + x.size) = x.readIndex + x.size := u32_of_lt (by omega)
        rw [← course.ends, sum, Nat.add_mod, Nat.mod_eq_zero_of_dvd divides, Nat.zero_add,
          Nat.mod_mod, Nat.mod_eq_of_lt (Nat.not_le.mp short), Nat.add_sub_cancel]
      dsimp only at returned
      split at returned
      · rw [← (eq_of_returned returned).2]
        exact holds
      · obtain ⟨bytes, _, returned⟩ := exists_of_bind returned
        rw [← (eq_of_returned returned).2]
        exact holds
    · rw [← (eq_of_returned returned).2]
      exact course.cache

theorem readMissing_holds (course : OnCourse f content p e x)
    (begins : x.readIndex = p ∨ f.blockSize ∣ x.readIndex) (small : f.blockSize < 2 ^ 16)
    (refills : ∀ start, RefillAt f.blockSize p e start → Refills f content start)
    (returned : readMissing f alloc x = .ok (hr, x')) : CacheHolds f.blockSize content x'.sc := by
  unfold readMissing at returned
  split at returned
  · cases returned
  · rename_i some
    have pos := Nat.pos_of_ne_zero some
    obtain ⟨⟨hr₁, x₁⟩, head, returned⟩ := exists_of_bind returned
    have course₁ := readHead_holds course begins pos small refills head
    dsimp only at returned
    split at returned
    · rw [← (eq_of_returned returned).2]
      exact course₁.cache
    · obtain ⟨⟨hr₂, x₂⟩, middle, returned⟩ := exists_of_bind returned
      have course₂ := readMiddle_holds course₁ middle
      dsimp only at returned
      split at returned
      · rw [← (eq_of_returned returned).2]
        exact course₂.cache
      · exact readTail_holds course₂ pos small refills returned

/-! ## Requests and calls -/

/-- Behind a cache that holds the front of the request, the request goes on with a sector. -/
theorem CacheHolds.aligned_next (holds : CacheHolds b content sc) (small : b < 2 ^ 16)
    (valid : sc.invalid = false) (from' : sc.startAddr ≤ p)
    (to' : p ≤ u32 (sc.startAddr + sc.size)) :
    b ∣ u32 (p + sub32 sc.size (sub32 p sc.startAddr)) := by
  cases holds with
  | cold =>
    have zero : p = 0 := Nat.le_zero.mp to'
    rw [zero]
    exact Nat.dvd_zero b
  | unread => cases valid
  | @filled start buff aligned same =>
    dsimp only at from' to' ⊢
    -- the end of the sector does not wrap around, as the request begins before it
    have fits : start + b < 2 ^ 32 := by
      simp only [u32] at to'
      omega
    rw [u32_of_lt fits] at to'
    have next : u32 (p + sub32 b (sub32 p start)) = start + b := by
      rw [sub32_of_le from' (by omega), sub32_of_le (by omega) (by omega), u32_of_lt (by omega)]
      omega
    rw [next]
    exact Nat.dvd_add aligned (Nat.dvd_refl b)

/-- A request leaves the cache as it was, or with a sector that it begins or ends in. -/
theorem readSubblock_holds (holds : CacheHolds f.blockSize content sc) (within : p < 2 ^ 32)
    (small : f.blockSize < 2 ^ 16)
    (refills : ∀ start, RefillAt f.blockSize p e start → Refills f content start)
    (returned : readSubblock f alloc sc p e = .ok (hr, x')) :
    CacheHolds f.blockSize content x'.sc := by
  unfold readSubblock at returned
  dsimp only at returned
  by_cases cached : (!sc.invalid) = true ∧ p ≥ sc.startAddr ∧ p ≤ u32 (sc.startAddr + sc.size)
  · rw [if_pos cached] at returned
    split at returned
    · obtain ⟨bytes, _, returned⟩ := exists_of_bind returned
      rw [← (eq_of_returned returned).2]
      exact holds
    · obtain ⟨bytes, _, returned⟩ := exists_of_bind returned
      obtain ⟨valid, from', to'⟩ := cached
      have next := holds.aligned_next small (by simpa using valid) from' to'
      have written := u32_lt (2 ^ 32 + sc.size - sub32 p sc.startAddr)
      refine readMissing_holds ⟨holds, ?_, u32_lt _⟩ (.inr next) small refills returned
      simp only [sub32, u32] at written ⊢
      omega
  · rw [if_neg cached] at returned
    exact readMissing_holds ⟨holds, rfl, within⟩ (.inl rfl) small refills returned

/-- A request inside of what the cache holds is answered with the content. -/
theorem readSubblock_served (coherent : Coherent content sc) (valid : sc.invalid = false)
    (some : 0 < e) (from' : sc.startAddr ≤ p) (to' : p + e ≤ sc.startAddr + sc.size)
    (fits : sc.startAddr + sc.size < 2 ^ 32) :
    readSubblock f alloc sc p e =
      .ok (.sOk, ⟨sc, put (fun _ => none) 0 (readAt content p e), 0, p, e⟩) := by
  obtain ⟨buff, hasBuff, same⟩ := coherent valid (by omega)
  have ends : u32 (sc.startAddr + sc.size) = sc.startAddr + sc.size := u32_of_lt fits
  have request : u32 (p + e) = p + e := u32_of_lt (by omega)
  have offs : sub32 p sc.startAddr = p - sc.startAddr := sub32_of_le from' (by omega)
  have cached : (!sc.invalid) = true ∧ p ≥ sc.startAddr ∧ p ≤ sc.startAddr + sc.size :=
    ⟨by rw [valid]; rfl, from', by omega⟩
  have copied : copyCached sc.buff (p - sc.startAddr) e = .ok (readAt content p e) := by
    have rest := readAt_rest (by omega : p - sc.startAddr ≤ sc.size) same
    have front := congrArg (List.take e) rest
    rw [take_readAt (by omega), take_readAt (by omega), Nat.add_sub_cancel' from'] at front
    rw [hasBuff]
    exact congrArg Except.ok front
  simp only [readSubblock, ends, request, offs, if_pos cached, if_pos to', copied, bind,
    Except.bind]

end

/-- A position that is a 32-bit number, and a cache that holds the content. -/
structure StreamHolds (b : Nat) (content : Block) (str : FileStream) : Prop where
  pos : str.pos < 2 ^ 32
  cache : CacheHolds b content str.cache

section

variable {f : SectorFile} {content : Block} {str str' : FileStream} {alloc : Option Block}
  {b n : Nat} {outBuf : Bool} {answer : ReadAnswer}

theorem opened_holds : StreamHolds b content .opened := ⟨by decide, .cold⟩

theorem fileRead_holds (holds : StreamHolds f.blockSize content str)
    (small : f.blockSize < 2 ^ 16)
    (refills : ∀ start, RefillAt f.blockSize str.pos (effectiveSize f str.pos n) start →
      Refills f content start)
    (returned : fileRead f alloc str n outBuf = .ok (answer, str')) :
    StreamHolds f.blockSize content str' := by
  unfold fileRead at returned
  split at returned
  · rwa [← (eq_of_returned returned).2]
  · split at returned
    · rwa [← (eq_of_returned returned).2]
    · dsimp only at returned
      split at returned
      · rwa [← (eq_of_returned returned).2]
      · obtain ⟨⟨hr, x⟩, read, returned⟩ := exists_of_bind returned
        have cache := readSubblock_holds holds.cache holds.pos small refills read
        dsimp only at returned
        split at returned
        · rw [← (eq_of_returned returned).2]
          exact ⟨holds.pos, cache⟩
        · rw [← (eq_of_returned returned).2]
          exact ⟨u32_lt _, cache⟩

theorem fileSeek_holds (holds : StreamHolds b content str) (pos : Int)
    (origin : Option SeekOrigin) : StreamHolds b content (fileSeek f str pos origin).2 := by
  cases origin with
  | none => exact holds
  | some origin =>
    unfold fileSeek
    dsimp only
    split
    · exact holds
    · rename_i inside
      refine ⟨?_, holds.cache⟩
      -- the size is compared as an `int32_t`
      have bound : i32 f.size < 2 ^ 31 := by
        simp only [i32, Int.bmod_def]
        omega
      dsimp only
      omega

/-- A read inside of what the cache holds is answered with the content. -/
theorem fileRead_served (coherent : Coherent content str.cache) (valid : str.cache.invalid = false)
    (some : 0 < effectiveSize f str.pos n) (requested : n ≠ 0)
    (from' : str.cache.startAddr ≤ str.pos)
    (to' : str.pos + effectiveSize f str.pos n ≤ str.cache.startAddr + str.cache.size)
    (fits : str.cache.startAddr + str.cache.size < 2 ^ 32) :
    fileRead f alloc str n true =
      .ok (⟨.sOk, Option.some (effectiveSize f str.pos n),
          put (fun _ => none) 0 (readAt content str.pos (effectiveSize f str.pos n))⟩,
        ⟨u32 (str.pos + effectiveSize f str.pos n), str.cache⟩) := by
  have served := @readSubblock_served f content str.cache alloc str.pos (effectiveSize f str.pos n)
    coherent valid some from' to' fits
  rw [fileRead, if_neg requested, if_neg (by decide)]
  dsimp only
  rw [if_neg (Nat.ne_of_gt some), served]
  rfl

end

end Antonix.Drivers
