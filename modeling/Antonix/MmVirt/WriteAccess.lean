import Antonix.MmVirt.AddressSpace
import Mathlib.Order.CompletePartialOrder
import Mathlib.Order.Interval.Set.Disjoint

/-! # Which pages user code can write

A page is writable when its directory entry and its table entry both have the
write bit.  `fetch_page_table` gives a directory entry the bit of the mapping that
creates it, and later mappings in the same 4 MB leave it alone, so a region is
writable only where no read-only region came first. -/

namespace Antonix

open Set Transition

/-- The space has room for the region.  A writable region needs the write bit in the directory
entries there are, and no page is shared with a region of a different access. -/
structure AddressSpace.Admits (space : AddressSpace) (r : KVmmRegion) : Prop where
  writableDir : r.access = accessReadWrite → ∀ m ∈ r.pages,
    (space.dir (m / 1024)).pageTableAddr ≠ 0 → (space.dir (m / 1024)).fReadwrite = true
  notRead : r.access = accessReadWrite →
    ∀ x ∈ space.regions, x.access = accessRead → Disjoint x.pages r.pages
  notReadWrite : r.access ≠ accessReadWrite →
    ∀ x ∈ space.regions, x.access = accessReadWrite → Disjoint x.pages r.pages

/-- The process that the call is for admits the region asked for. -/
def VmmCall.admitted (state : VmmState) (call : VmmCall) : Prop :=
  ∀ proc r, call.Requests state proc r → (state.space proc).Admits r

section

variable {space space' : AddressSpace} {r : KVmmRegion}

end

end Antonix
