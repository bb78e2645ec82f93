import Antonix.Drivers.SectorRead
import Antonix.Lib.Transition

/-! # When a read is right

A read is right unless the request ends inside the unaligned sector that it starts in
(then the rest of that sector is written behind the request), or its whole sectors
cannot be read, or there is no memory for the sector buffer, or its end is beyond
4 GiB.  Each of these is a condition on the stream and the request. -/

namespace Antonix.Drivers

open Buffer Transition

/-- The next start of a sector. -/
def alignUp (b a : Nat) : Nat := if b ∣ a then a else a + (b - a % b)

/-- The bytes from `r` to `q` can be read from the device. -/
def MissMeets (f : SectorFile) (complete : Nat → Nat → Prop) (sc : StrCache)
    (alloc : Option Block) (r q : Nat) : Prop :=
  alignUp f.blockSize r ≤ q ∧
    complete (alignUp f.blockSize r)
      ((q - alignUp f.blockSize r) / f.blockSize * f.blockSize) ∧
    (HasRoom f sc alloc ∨ f.blockSize ∣ r ∧ f.blockSize ∣ q)

section

variable {f : SectorFile} {content : Block} {complete : Nat → Nat → Prop} {sc : StrCache}
  {alloc : Option Block} {p e r q : Nat} {x x' : Transfer} {hr : HResult}

theorem alignUp_of_dvd {b a : Nat} (aligned : b ∣ a) : alignUp b a = a := if_pos aligned

theorem alignUp_of_not_dvd {b a : Nat} (unaligned : ¬ b ∣ a) : alignUp b a = a + (b - a % b) :=
  if_neg unaligned

theorem dvd_alignUp {b a : Nat} (pos : 0 < b) : b ∣ alignUp b a := by
  by_cases aligned : b ∣ a
  · rwa [alignUp_of_dvd aligned]
  · have below := Nat.mod_lt a pos
    have split := Nat.div_add_mod a b
    rw [alignUp_of_not_dvd aligned]
    refine ⟨a / b + 1, ?_⟩
    rw [Nat.mul_add]
    omega

theorem mod_eq_zero_iff_of_dvd {b : Nat} (aligned : b ∣ r) (le : r ≤ q) :
    (q - r) % b = 0 ↔ b ∣ q := by
  obtain ⟨d, rfl⟩ := Nat.exists_eq_add_of_le le
  rw [Nat.add_sub_cancel_left, ← Nat.dvd_iff_mod_eq_zero]
  exact (Nat.dvd_add_right aligned).symm

/-! ## Behind the head -/

theorem rest_right (reads : ReadsContent f content complete)
    (progress : Progress f content p e x) (fits : p + e ≤ f.size)
    (aligned : f.blockSize ∣ x.readIndex)
    (whole : complete x.readIndex ((p + e - x.readIndex) / f.blockSize * f.blockSize))
    (room : HasRoom f x.sc alloc ∨ f.blockSize ∣ p + e) :
    ∃ y x', readMiddle f x = .ok (.sOk, y) ∧ readTail f alloc y = .ok (.sOk, x') ∧
      Filled content p e x'.dst ∧ CacheInv f content x'.sc := by
  have within := progress.within
  have index := progress.readIndex
  have size : x.size = p + e - x.readIndex := by
    have := progress.size
    omega
  rw [← size] at whole
  obtain ⟨y, middle, progress', cache, aligned', left⟩ :=
    readMiddle_complete reads progress fits aligned whole
  have small : y.size < f.blockSize := by
    rw [left]
    exact Nat.mod_lt _ reads.blockPos
  by_cases empty : y.size = 0
  · -- the request ends with a sector
    refine ⟨y, y, middle, readTail_empty reads.blockPos empty, ?_, progress'.cache⟩
    have all : y.writeIndex = e := by
      have := progress'.size
      have := progress'.within
      omega
    rw [← all]
    exact progress'.filled
  · have room' : HasRoom f y.sc alloc := by
      cases room with
      | inl room => rwa [cache]
      | inr ends =>
        -- a request that ends with a sector has no tail
        rw [left, size, mod_eq_zero_iff_of_dvd aligned (by omega)] at empty
        exact absurd ends empty
    obtain ⟨x', tail, filled, inv⟩ :=
      readTail_returns reads progress' fits aligned' small empty room'
    exact ⟨y, x', middle, tail, filled, inv⟩

theorem rest_wrong (reads : ReadsContent f content complete)
    (progress : Progress f content p e x) (fits : p + e ≤ f.size)
    (aligned : f.blockSize ∣ x.readIndex)
    (fails : ¬ (complete x.readIndex ((p + e - x.readIndex) / f.blockSize * f.blockSize) ∧
      (HasRoom f x.sc alloc ∨ f.blockSize ∣ p + e))) {y : Transfer}
    (middle : readMiddle f x = .ok (hr, y)) :
    hr.failed = true ∨
      ∀ hr' x', readTail f alloc y = .ok (hr', x') → hr'.failed = true := by
  have within := progress.within
  have index := progress.readIndex
  have size : x.size = p + e - x.readIndex := by
    have := progress.size
    omega
  rw [← size] at fails
  by_cases whole : complete x.readIndex (x.size / f.blockSize * f.blockSize)
  · -- the middle is read, and there is no buffer for the tail
    obtain ⟨full, ends⟩ := not_or.mp (fun room => fails ⟨whole, room⟩)
    obtain ⟨y', middle', progress', cache, aligned', left⟩ :=
      readMiddle_complete reads progress fits aligned whole
    rw [middle'] at middle
    obtain ⟨-, rfl⟩ := eq_of_returned middle
    have small : y'.size < f.blockSize := by
      rw [left]
      exact Nat.mod_lt _ reads.blockPos
    have some : y'.size ≠ 0 := by
      rw [left, size]
      exact mt (mod_eq_zero_iff_of_dvd aligned (by omega)).mp ends
    rw [← cache] at full
    obtain ⟨x', tail⟩ := readTail_noRoom reads progress' aligned' small some full
    refine .inr fun hr' x'' returns => ?_
    rw [tail] at returns
    rw [← (eq_of_returned returns).1]
    rfl
  · exact .inl (readMiddle_broken reads progress fits aligned whole middle)

/-! ## What the cache does not hold -/

theorem readMissing_of_head {y : Transfer} (blockPos : 0 < f.blockSize)
    (head : readHead f alloc x = .ok (.sOk, y)) :
    readMissing f alloc x = (do
      let (hr, x) ← readMiddle f y
      if hr.failed then .ok (hr, x)
      else readTail f alloc x) := by
  simp only [readMissing, if_neg (Nat.ne_of_gt blockPos), head, bind, Except.bind]
  rfl

theorem readMissing_right (reads : ReadsContent f content complete)
    (progress : Progress f content p e x) (fits : p + e ≤ f.size)
    (meets : MissMeets f complete x.sc alloc x.readIndex (p + e)) :
    ∃ x', readMissing f alloc x = .ok (.sOk, x') ∧ Filled content p e x'.dst ∧
      CacheInv f content x'.sc := by
  obtain ⟨long, whole, room⟩ := meets
  have start : ∃ y, readHead f alloc x = .ok (.sOk, y) ∧ Progress f content p e y ∧
      y.readIndex = alignUp f.blockSize x.readIndex ∧
      (HasRoom f y.sc alloc ∨ f.blockSize ∣ p + e) := by
    by_cases aligned : f.blockSize ∣ x.readIndex
    · exact ⟨x, readHead_aligned aligned, progress, (alignUp_of_dvd aligned).symm,
        room.imp_right And.right⟩
    · -- an unaligned start needs the buffer
      have room' : HasRoom f x.sc alloc := room.resolve_right fun ends => aligned ends.1
      rw [alignUp_of_not_dvd aligned] at long
      obtain ⟨y, head, progress', index, cap⟩ :=
        readHead_long reads progress fits aligned long room'
      exact ⟨y, head, progress', index.trans (alignUp_of_not_dvd aligned).symm,
        .inl (.inl (Nat.le_of_eq cap.symm))⟩
  obtain ⟨y, head, progress', index, room'⟩ := start
  have aligned : f.blockSize ∣ y.readIndex := by
    rw [index]
    exact dvd_alignUp reads.blockPos
  rw [← index] at whole
  obtain ⟨z, x', middle, tail, filled, inv⟩ :=
    rest_right reads progress' fits aligned whole room'
  refine ⟨x', ?_, filled, inv⟩
  rw [readMissing_of_head reads.blockPos head, middle]
  exact tail

theorem readMissing_wrong (reads : ReadsContent f content complete)
    (progress : Progress f content p e x) (fits : p + e ≤ f.size) (some : x.size ≠ 0)
    (fails : ¬ MissMeets f complete x.sc alloc x.readIndex (p + e))
    (returns : readMissing f alloc x = .ok (hr, x')) :
    hr.failed = true ∨ (x'.dst e).isSome = true := by
  have within := progress.within
  have index := progress.readIndex
  have size := progress.size
  have sizeSmall := reads.sizeSmall
  -- behind a head that kept the request on its way
  have rest : ∀ y, readHead f alloc x = .ok (.sOk, y) → Progress f content p e y →
      f.blockSize ∣ y.readIndex →
      ¬ (complete y.readIndex ((p + e - y.readIndex) / f.blockSize * f.blockSize) ∧
        (HasRoom f y.sc alloc ∨ f.blockSize ∣ p + e)) → hr.failed = true := by
    intro y head progress' aligned fails'
    rw [readMissing_of_head reads.blockPos head] at returns
    obtain ⟨⟨hr', z⟩, middle, returns⟩ := exists_of_bind returns
    dsimp only at returns
    by_cases failed : hr'.failed = true
    · rw [if_pos failed] at returns
      rw [← (eq_of_returned returns).1]
      exact failed
    · rw [if_neg failed] at returns
      exact (rest_wrong reads progress' fits aligned fails' middle).resolve_left failed _ _ returns
  by_cases aligned : f.blockSize ∣ x.readIndex
  · refine .inl (rest x (readHead_aligned aligned) progress aligned fun good => fails ?_)
    rw [MissMeets, alignUp_of_dvd aligned]
    exact ⟨by omega, good.1, good.2.imp_right fun ends => ⟨aligned, ends⟩⟩
  · by_cases room : HasRoom f x.sc alloc
    · by_cases long : x.readIndex + (f.blockSize - x.readIndex % f.blockSize) ≤ p + e
      · obtain ⟨y, head, progress', index', cap⟩ :=
          readHead_long reads progress fits aligned long room
        rw [← alignUp_of_not_dvd aligned] at index' long
        have aligned' : f.blockSize ∣ y.readIndex := by
          rw [index']
          exact dvd_alignUp reads.blockPos
        refine .inl (rest y head progress' aligned' fun good => fails ?_)
        rw [index'] at good
        exact ⟨long, good.1, .inl room⟩
      · -- the request ends in its first sector
        obtain ⟨y, head, written⟩ := readHead_short reads progress (by omega) aligned
          (Nat.not_le.mp long) room
        rw [readMissing_of_head reads.blockPos head] at returns
        obtain ⟨⟨hr', z⟩, middle, returns⟩ := exists_of_bind returns
        have written' := readMiddle_written written middle
        dsimp only at returns
        split at returns
        · rw [← (eq_of_returned returns).2]
          exact .inr written'
        · exact .inr (readTail_written written' returns)
    · -- the first sector cannot be cached
      obtain ⟨y, head⟩ := readHead_noRoom reads progress aligned (by omega) room
      have nonzero : f.blockSize ≠ 0 := Nat.ne_of_gt reads.blockPos
      simp only [readMissing, if_neg nonzero, head, bind, Except.bind] at returns
      rw [← (eq_of_returned returns).1]
      exact .inl rfl

end

/-! ## With the cache -/

/-- Where the bytes begin that the cache does not hold. -/
def missStart (sc : StrCache) (p : Nat) : Nat :=
  if sc.startAddr ≤ p ∧ p ≤ sc.startAddr + sc.size then sc.startAddr + sc.size else p

/-- The cache holds all `e` bytes at `p`, or what it does not hold can be read. -/
def SubblockMeets (f : SectorFile) (complete : Nat → Nat → Prop) (sc : StrCache)
    (alloc : Option Block) (p e : Nat) : Prop :=
  sc.startAddr ≤ p ∧ p + e ≤ sc.startAddr + sc.size ∨
    MissMeets f complete sc alloc (missStart sc p) (p + e)

section

variable {f : SectorFile} {content : Block} {complete : Nat → Nat → Prop} {sc : StrCache}
  {alloc : Option Block} {p e : Nat} {x' : Transfer} {hr : HResult}

theorem CacheInv.valid (inv : CacheInv f content sc) : sc.invalid = false := by
  cases inv with
  | cold => rfl
  | warm => rfl

theorem CacheInv.bound (inv : CacheInv f content sc) (reads : ReadsContent f content complete) :
    sc.startAddr + sc.size < 2 ^ 32 := by
  have small := reads.blockSmall
  have sizeSmall := reads.sizeSmall
  cases inv with
  | cold => decide
  | warm aligned inside same => dsimp only; omega

/-- What the cache holds is the file's content. -/
theorem CacheInv.copyCached (inv : CacheInv f content sc) {len : Nat} (from' : sc.startAddr ≤ p)
    (to' : p + len ≤ sc.startAddr + sc.size) :
    copyCached sc.buff (p - sc.startAddr) len = .ok (readAt content p len) := by
  cases inv with
  | cold =>
    have empty : len = 0 := by
      have : p + len ≤ 0 := to'
      omega
    rw [empty]
    rfl
  | @warm start buff aligned inside same =>
    dsimp only at from' to'
    have whole : readAt buff (p - start) (f.blockSize - (p - start)) =
        readAt content (start + (p - start)) (f.blockSize - (p - start)) :=
      readAt_rest (by omega) same
    have front := congrArg (List.take len) whole
    rw [take_readAt (by omega), take_readAt (by omega), Nat.add_sub_cancel' from'] at front
    exact congrArg Except.ok front

/-- A hit. -/
theorem readSubblock_hit (reads : ReadsContent f content complete) (inv : CacheInv f content sc)
    (fits : p + e ≤ f.size) (from' : sc.startAddr ≤ p) (to' : p + e ≤ sc.startAddr + sc.size) :
    ∃ x', readSubblock f alloc sc p e = .ok (.sOk, x') ∧ Filled content p e x'.dst ∧
      CacheInv f content x'.sc := by
  have bound := inv.bound reads
  have sizeSmall := reads.sizeSmall
  have ends : u32 (sc.startAddr + sc.size) = sc.startAddr + sc.size := u32_of_lt bound
  have request : u32 (p + e) = p + e := u32_of_lt (by omega)
  have offs : sub32 p sc.startAddr = p - sc.startAddr := sub32_of_le from' (by omega)
  have cached : (!sc.invalid) = true ∧ p ≥ sc.startAddr ∧ p ≤ sc.startAddr + sc.size :=
    ⟨by rw [inv.valid]; rfl, from', by omega⟩
  have filled : Filled content p (0 + e) (put (fun _ => none) 0 (readAt content (p + 0) e)) :=
    filled_nothing.put e
  rw [Nat.zero_add, Nat.add_zero] at filled
  refine ⟨⟨sc, put (fun _ => none) 0 (readAt content p e), 0, p, e⟩, ?_, filled, inv⟩
  simp only [readSubblock, ends, request, offs, if_pos cached, if_pos to', inv.copyCached from' to',
    bind, Except.bind]

/-- A miss, with what the cache holds of the request. -/
theorem readSubblock_miss (reads : ReadsContent f content complete) (inv : CacheInv f content sc)
    (fits : p + e ≤ f.size) (some : e ≠ 0)
    (miss : ¬ (sc.startAddr ≤ p ∧ p + e ≤ sc.startAddr + sc.size)) :
    ∃ x, readSubblock f alloc sc p e = readMissing f alloc x ∧ Progress f content p e x ∧
      x.sc = sc ∧ x.readIndex = missStart sc p ∧ x.size ≠ 0 := by
  have bound := inv.bound reads
  have sizeSmall := reads.sizeSmall
  have ends : u32 (sc.startAddr + sc.size) = sc.startAddr + sc.size := u32_of_lt bound
  by_cases cached : (!sc.invalid) = true ∧ p ≥ sc.startAddr ∧ p ≤ sc.startAddr + sc.size
  · obtain ⟨-, from', to'⟩ := cached
    have request : u32 (p + e) = p + e := u32_of_lt (by omega)
    have offs : sub32 p sc.startAddr = p - sc.startAddr := sub32_of_le from' (by omega)
    have written : sub32 sc.size (p - sc.startAddr) = sc.size - (p - sc.startAddr) :=
      sub32_of_le (by omega) (by omega)
    have index : u32 (p + (sc.size - (p - sc.startAddr))) = sc.startAddr + sc.size := by
      rw [u32_of_lt (by omega)]
      omega
    have left : sub32 e (sc.size - (p - sc.startAddr)) = e - (sc.size - (p - sc.startAddr)) :=
      sub32_of_le (by omega) (by omega)
    -- the request goes on behind the cached sector
    have notHit : ¬ p + e ≤ sc.startAddr + sc.size := fun hit => miss ⟨from', hit⟩
    have copied := inv.copyCached from'
      (show p + (sc.size - (p - sc.startAddr)) ≤ sc.startAddr + sc.size by omega)
    have cached : (!sc.invalid) = true ∧ p ≥ sc.startAddr ∧ p ≤ sc.startAddr + sc.size :=
      ⟨by rw [inv.valid]; rfl, from', to'⟩
    have filled : Filled content p (0 + (sc.size - (p - sc.startAddr)))
        (put (fun _ => none) 0 (readAt content (p + 0) (sc.size - (p - sc.startAddr)))) :=
      filled_nothing.put _
    rw [Nat.zero_add, Nat.add_zero] at filled
    refine ⟨⟨sc, put (fun _ => none) 0 (readAt content p (sc.size - (p - sc.startAddr))),
      sc.size - (p - sc.startAddr), sc.startAddr + sc.size,
      e - (sc.size - (p - sc.startAddr))⟩, ?_, ?_, rfl, (if_pos ⟨from', to'⟩).symm, ?_⟩
    · simp only [readSubblock, ends, request, offs, written, index, left, if_pos cached,
        if_neg notHit, copied, bind, Except.bind]
    · constructor
      case filled => exact filled
      case within => dsimp only; omega
      case readIndex => dsimp only; omega
      case size => rfl
      case cache => exact inv
    · dsimp only
      omega
  · -- nothing of the request is cached
    have outside : ¬ (sc.startAddr ≤ p ∧ p ≤ sc.startAddr + sc.size) := fun inside =>
      cached ⟨by rw [inv.valid]; rfl, inside⟩
    refine ⟨⟨sc, fun _ => none, 0, p, e⟩, ?_, ?_, rfl, (if_neg outside).symm, some⟩
    · simp only [readSubblock, ends, if_neg cached]
    · exact ⟨filled_nothing, Nat.zero_le e, rfl, rfl, inv⟩

theorem readSubblock_right (reads : ReadsContent f content complete) (inv : CacheInv f content sc)
    (fits : p + e ≤ f.size) (some : e ≠ 0) (meets : SubblockMeets f complete sc alloc p e) :
    ∃ x', readSubblock f alloc sc p e = .ok (.sOk, x') ∧ Filled content p e x'.dst ∧
      CacheInv f content x'.sc := by
  by_cases hit : sc.startAddr ≤ p ∧ p + e ≤ sc.startAddr + sc.size
  · exact readSubblock_hit reads inv fits hit.1 hit.2
  · obtain ⟨x, missing, progress, cache, index, -⟩ := readSubblock_miss reads inv fits some hit
    have meets' := meets.resolve_left hit
    rw [← index, ← cache] at meets'
    rw [missing]
    exact readMissing_right reads progress fits meets'

theorem readSubblock_wrong (reads : ReadsContent f content complete) (inv : CacheInv f content sc)
    (fits : p + e ≤ f.size) (some : e ≠ 0) (fails : ¬ SubblockMeets f complete sc alloc p e)
    (returns : readSubblock f alloc sc p e = .ok (hr, x')) :
    hr.failed = true ∨ (x'.dst e).isSome = true := by
  obtain ⟨miss, fails⟩ := not_or.mp fails
  obtain ⟨x, missing, progress, cache, index, left⟩ := readSubblock_miss reads inv fits some miss
  rw [← index] at fails
  rw [missing] at returns
  exact readMissing_wrong reads progress fits left (by rwa [cache]) returns

end

/-! ## Stream calls -/

/-- The answer to a read of `n` bytes: exactly the bytes of the file from the position on, as
many as there are, and a position behind them; `E_ENDOFSTR` at the end of the file only. -/
def ReadLaw (f : SectorFile) (content : Block) (str : FileStream) (n : Nat)
    (outcome : Except Halt (ReadAnswer × FileStream)) : Prop :=
  ∃ answer str', outcome = .ok (answer, str') ∧
    answer.hr = (if str.pos = f.size then .eEndOfStr else .sOk) ∧
    answer.bytesRead = some (min n (f.size - str.pos)) ∧
    str'.pos = str.pos + min n (f.size - str.pos) ∧
    Filled content str.pos (min n (f.size - str.pos)) answer.outBuf

/-- When a read of `n` bytes is right. -/
def ReadMeets (f : SectorFile) (complete : Nat → Nat → Prop) (str : FileStream)
    (alloc : Option Block) (n : Nat) : Prop :=
  (n + str.pos < 2 ^ 32 ∨ f.size + 2 ^ 32 ≤ n + str.pos) ∧
    (str.pos = f.size ∨
      SubblockMeets f complete str.cache alloc str.pos (min n (f.size - str.pos)))

/-- A position in the file, and a cache that holds its content. -/
structure StreamInv (f : SectorFile) (content : Block) (str : FileStream) : Prop where
  within : str.pos ≤ f.size
  cache : CacheInv f content str.cache

section

variable {f : SectorFile} {content : Block} {complete : Nat → Nat → Prop} {str : FileStream}
  {alloc : Option Block} {n : Nat}

theorem effectiveSize_right (sizeSmall : f.size < 2 ^ 31) (within : str.pos ≤ f.size)
    (request : n < 2 ^ 32) (noWrap : n + str.pos < 2 ^ 32 ∨ f.size + 2 ^ 32 ≤ n + str.pos) :
    effectiveSize f str.pos n = min n (f.size - str.pos) := by
  have left : sub32 f.size str.pos = f.size - str.pos := sub32_of_le within (by omega)
  rw [effectiveSize, left, u32]
  cases noWrap with
  | inl short =>
    rw [Nat.mod_eq_of_lt short]
    split <;> omega
  | inr long =>
    have wrapped : (n + str.pos) % 2 ^ 32 = n + str.pos - 2 ^ 32 := by omega
    rw [wrapped, if_pos (by omega)]
    omega

/-- The sum of position and request wraps around to a position in the file. -/
theorem effectiveSize_wrong
    (wraps : ¬ (n + str.pos < 2 ^ 32 ∨ f.size + 2 ^ 32 ≤ n + str.pos))
    (sizeSmall : f.size < 2 ^ 31) (within : str.pos ≤ f.size) :
    effectiveSize f str.pos n = n ∧ n ≠ min n (f.size - str.pos) := by
  obtain ⟨long, short⟩ := not_or.mp wraps
  have wrapped : (n + str.pos) % 2 ^ 32 = n + str.pos - 2 ^ 32 := by omega
  rw [effectiveSize, u32, wrapped, if_neg (by omega)]
  exact ⟨rfl, by omega⟩

theorem fileRead_eq (alloc : Option Block) (some : n ≠ 0) {e : Nat}
    (effective : effectiveSize f str.pos n = e) (left : e ≠ 0) :
    fileRead f alloc str n true = (do
      let (hr, x) ← readSubblock f alloc str.cache str.pos e
      if hr.failed then .ok (⟨hr, none, x.dst⟩, { str with cache := x.sc })
      else .ok (⟨hr, Option.some e, x.dst⟩, ⟨u32 (str.pos + e), x.sc⟩)) := by
  simp only [fileRead, effective, if_neg some, if_neg left]
  rfl

/-- A read that meets the condition is right and leaves the stream in order. -/
theorem fileRead_right (reads : ReadsContent f content complete) (inv : StreamInv f content str)
    (some : n ≠ 0) (request : n < 2 ^ 32) (meets : ReadMeets f complete str alloc n) :
    ∃ answer str', fileRead f alloc str n true = .ok (answer, str') ∧ StreamInv f content str' ∧
      ReadLaw f content str n (fileRead f alloc str n true) := by
  have sizeSmall := reads.sizeSmall
  have within := inv.within
  have effective := effectiveSize_right sizeSmall within request meets.1
  by_cases atEnd : str.pos = f.size
  · -- `E_ENDOFSTR` before anything is read
    have nothing : min n (f.size - str.pos) = 0 := by omega
    rw [nothing] at effective
    have answers : fileRead f alloc str n true =
        .ok (⟨.eEndOfStr, Option.some 0, fun _ => none⟩, str) := by
      simp only [fileRead, effective, if_neg some, if_true]
      rfl
    refine ⟨_, _, answers, inv, _, _, answers, (if_pos atEnd).symm, ?_, ?_, ?_⟩
    · rw [nothing]
    · rw [nothing, Nat.add_zero]
    · rw [nothing]
      exact filled_nothing
  · have positive : min n (f.size - str.pos) ≠ 0 := by omega
    obtain ⟨x', returns, filled, cache⟩ := readSubblock_right reads inv.cache
      (show str.pos + min n (f.size - str.pos) ≤ f.size by omega) positive
      (meets.2.resolve_left atEnd)
    have moved : u32 (str.pos + min n (f.size - str.pos)) =
        str.pos + min n (f.size - str.pos) := u32_of_lt (by omega)
    have answers := fileRead_eq alloc some effective positive
    rw [returns, moved] at answers
    refine ⟨_, _, answers, ⟨?_, cache⟩, _, _, answers, (if_neg atEnd).symm, rfl, rfl, filled⟩
    dsimp only
    omega

theorem fileRead_iff (reads : ReadsContent f content complete) (inv : StreamInv f content str)
    (some : n ≠ 0) (request : n < 2 ^ 32) :
    ReadLaw f content str n (fileRead f alloc str n true) ↔ ReadMeets f complete str alloc n := by
  have sizeSmall := reads.sizeSmall
  have within := inv.within
  constructor
  · intro law
    obtain ⟨answer, str', answers, status, count, -, filled⟩ := law
    by_cases noWrap : n + str.pos < 2 ^ 32 ∨ f.size + 2 ^ 32 ≤ n + str.pos
    · refine ⟨noWrap, ?_⟩
      by_cases atEnd : str.pos = f.size
      · exact .inl atEnd
      · right
        by_contra fails
        have positive : min n (f.size - str.pos) ≠ 0 := by omega
        have effective := effectiveSize_right sizeSmall within request noWrap
        rw [fileRead_eq alloc some effective positive] at answers
        obtain ⟨⟨hr, x'⟩, returns, answers⟩ := exists_of_bind answers
        have wrong := readSubblock_wrong reads inv.cache
          (show str.pos + min n (f.size - str.pos) ≤ f.size by omega) positive fails returns
        dsimp only at answers
        rw [if_neg atEnd] at status
        by_cases failed : hr.failed = true
        · -- a status that is not `S_OK`
          rw [if_pos failed] at answers
          rw [← (eq_of_returned answers).1] at status
          obtain rfl : hr = .sOk := status
          contradiction
        · -- a byte behind the request
          rw [if_neg failed] at answers
          rw [← (eq_of_returned answers).1] at filled
          exact not_filled_of_written (wrong.resolve_left failed) filled
    · -- the number of bytes that is reported gives it away
      obtain ⟨effective, other⟩ := effectiveSize_wrong noWrap sizeSmall within
      rw [fileRead_eq alloc some effective some] at answers
      obtain ⟨⟨hr, x'⟩, -, answers⟩ := exists_of_bind answers
      dsimp only at answers
      split at answers
      · rw [← (eq_of_returned answers).1] at count
        contradiction
      · rw [← (eq_of_returned answers).1] at count
        exact absurd (Option.some.inj count) other
  · intro meets
    obtain ⟨-, -, -, -, law⟩ := fileRead_right reads inv some request meets
    exact law

theorem fileSeek_inv (sizeSmall : f.size < 2 ^ 31) (inv : StreamInv f content str) (pos : Int)
    (origin : Option SeekOrigin) : StreamInv f content (fileSeek f str pos origin).2 := by
  cases origin with
  | none => exact inv
  | some origin =>
    rw [fileSeek]
    by_cases outside : newPos f str.pos pos origin < 0 ∨ newPos f str.pos pos origin > i32 f.size
    · rw [if_pos outside]
      exact inv
    · rw [if_neg outside]
      rw [i32_of_small sizeSmall] at outside
      refine ⟨?_, inv.cache⟩
      dsimp only
      omega

end

/-! ## Runs -/

/-- A call on an open stream; a read has an `out_buf`. -/
inductive FileCall where
  | seek (pos : Int) (origin : Option SeekOrigin)
  | read (n : Nat) (alloc : Option Block)

/-- A call that returns. -/
def FileStep (f : SectorFile) (str : FileStream) : FileCall → FileStream → Prop
  | .seek pos origin, str' => (fileSeek f str pos origin).2 = str'
  | .read n alloc, str' => ∃ answer, fileRead f alloc str n true = .ok (answer, str')

/-- The reads are right. -/
def CallLaw (f : SectorFile) (content : Block) (str : FileStream) : FileCall → Prop
  | .seek _ _ => True
  | .read n alloc => ReadLaw f content str n (fileRead f alloc str n true)

/-- The reads meet the condition. -/
def CallMeets (f : SectorFile) (complete : Nat → Nat → Prop) (str : FileStream) :
    FileCall → Prop
  | .seek _ _ => True
  | .read n alloc => ReadMeets f complete str alloc n

/-- A size that a read can be called with. -/
def FileCall.IsRequest : FileCall → Prop
  | .seek _ _ => True
  | .read n _ => 1 ≤ n ∧ n < 2 ^ 32

section

variable {f : SectorFile} {content : Block} {complete : Nat → Nat → Prop} {str : FileStream}

theorem opened_inv : StreamInv f content .opened := ⟨Nat.zero_le _, .cold⟩

theorem call_iff (reads : ReadsContent f content complete) (inv : StreamInv f content str)
    {call : FileCall} (request : call.IsRequest) :
    CallLaw f content str call ↔ CallMeets f complete str call := by
  cases call with
  | seek pos origin => exact Iff.rfl
  | read n alloc => exact fileRead_iff reads inv (Nat.ne_of_gt request.1) request.2

theorem call_inv (reads : ReadsContent f content complete) (inv : StreamInv f content str)
    {call : FileCall} (request : call.IsRequest) (meets : CallMeets f complete str call)
    {str' : FileStream} (step : FileStep f str call str') : StreamInv f content str' := by
  cases call with
  | seek pos origin =>
    obtain rfl : _ = str' := step
    exact fileSeek_inv reads.sizeSmall inv pos origin
  | read n alloc =>
    obtain ⟨answer, answers⟩ := step
    obtain ⟨answer', str'', answers', inv', -⟩ :=
      fileRead_right reads inv (Nat.ne_of_gt request.1) request.2 meets
    rw [answers] at answers'
    obtain ⟨-, rfl⟩ := eq_of_returned answers'
    exact inv'

/-- All reads of a run are right if and only if all of them meet the condition. -/
theorem along_iff (reads : ReadsContent f content complete) {calls : List FileCall}
    (requests : ∀ call ∈ calls, call.IsRequest) :
    Along (FileStep f) (CallLaw f content) .opened calls ↔
      Along (FileStep f) (CallMeets f complete) .opened calls :=
  Along.iff_of_inv (StreamInv f content) requests
    (fun _ _ inv request => call_iff reads inv request)
    (fun _ _ _ inv request meets step => call_inv reads inv request meets step) opened_inv

end

end Antonix.Drivers
