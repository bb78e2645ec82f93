import Antonix.MmVirt.AddressSpace

/-! # Which pages user code can reach

A page can be reached from user mode when the user bits of its directory entry
and of its table entry are both set.  `vmm_map_region` computes them from
`usage | USAGE_USER`, so they are set for every region, and the pages of the
kernel are kept from user code only as long as no region of the kernel is mapped
at all. -/

namespace Antonix

open Set Transition

/-- The MMU lets user code access the page. -/
def AddressSpace.UserAccessible (space : AddressSpace) (m : Nat) : Prop :=
  (space.dir (m / 1024)).fAllowUserRead = true ∧ (space.entry m).fPresent = true ∧
    (space.entry m).fUser = true

/-- Only pages of user regions are accessible, and no page of another region is. -/
structure AddressSpace.Isolated (space : AddressSpace) : Prop where
  owned : ∀ m, space.UserAccessible m →
    ∃ r ∈ space.regions, m ∈ r.pages ∧ r.usage &&& usageUser ≠ 0
  kernel : ∀ r ∈ space.regions, r.usage &&& usageUser = 0 → ∀ m ∈ r.pages, ¬space.UserAccessible m

/-- What holds of every address space: present pages belong to regions, and all directory
entries let user code through. -/
structure AddressSpace.Owned (space : AddressSpace) : Prop where
  present : ∀ m, (space.entry m).fPresent = true → ∃ r ∈ space.regions, m ∈ r.pages
  userDir : ∀ id, (space.dir id).pageTableAddr ≠ 0 → (space.dir id).fAllowUserRead = true

/-- A region that user code may use, or that has no pages. -/
def KVmmRegion.ForUser (r : KVmmRegion) : Prop := r.regionSize = 0 ∨ r.usage &&& usageUser ≠ 0

/-- The call maps nothing for the kernel. -/
def VmmCall.forUser : VmmCall → Prop
  | .mapRegion _ _ _ size usage _ | .allocAndMap _ _ size usage _ | .createHeap _ size usage =>
    size = 0 ∨ usage &&& usageUser ≠ 0
  | .unmapRegion _ _ => True
  | .tempMapRegion _ _ regionSize => regionSize = 0

section

variable {state state' : VmmState} {space space' : AddressSpace} {call : VmmCall} {proc : Nat}
  {r : KVmmRegion}

/-- `(usage | USAGE_USER) != 0`, whatever the usage. -/
theorem KVmmRegion.fUs_eq_true (r : KVmmRegion) : r.fUs = true := by
  have userBit : (r.usage ||| usageUser).testBit 2 = true := by
    rw [Nat.testBit_or, show usageUser.testBit 2 = true by decide, Bool.or_true]
  rw [fUs, decide_eq_true_eq]
  intro zero
  rw [zero] at userBit
  simp at userBit

theorem usage_or_user (usage : Nat) {flag : Nat} (other : flag &&& usageUser = 0) :
    (usage ||| flag) &&& usageUser = usage &&& usageUser := by
  rw [Nat.and_or_distrib_right, other, Nat.or_zero]

/-- The other flags that the calls add to a usage make no difference. -/
theorem VmmCall.Requests.forUser_iff (request : call.Requests state proc r) :
    r.ForUser ↔ call.forUser := by
  cases request with
  | mapRegion desc => rfl
  | allocAndMap desc =>
    rw [KVmmRegion.ForUser, usage_or_user _ (by decide)]
    rfl
  | createHeap found endKs =>
    rw [KVmmRegion.ForUser, usage_or_user _ (by decide)]
    rfl
  | tempMapRegion searched =>
    have notUser : usageTemp &&& usageUser = 0 := by decide
    simp [KVmmRegion.ForUser, VmmCall.forUser, notUser]

theorem KVmmRegion.ForUser.user (forUser : r.ForUser) {m : Nat} (page : m ∈ r.pages) :
    r.usage &&& usageUser ≠ 0 := by
  cases forUser with
  | inl empty => simp [pages, empty] at page
  | inr user => exact user

/-! ## One step -/

theorem AddressSpace.Added.owned (add : space.Added r space') (owned : space.Owned) :
    space'.Owned where
  present m present := by
    by_cases page : m ∈ r.pages
    · exact ⟨r, add.mem_regions.mpr (.inr rfl), page⟩
    · rw [add.outside m page] at present
      obtain ⟨x, older, inside⟩ := owned.present m present
      exact ⟨x, add.mem_regions.mpr (.inl older), inside⟩
  userDir id table := by
    by_cases absent : (space.dir id).pageTableAddr = 0
    · cases add.created id absent with
      | inl same =>
        rw [same] at table
        exact absurd absent table
      | inr made => rw [made.2.1, KVmmRegion.fUs_eq_true]
    · rw [add.kept id absent]
      exact owned.userDir id absent

theorem AddressSpace.Removed.owned (remove : space.Removed r space') (owned : space.Owned) :
    space'.Owned where
  present m present := by
    have before : (space.entry m).fPresent = true := by
      cases remove.entry m with
      | inl same => rwa [same] at present
      | inr cleared => simp [cleared.2] at present
    obtain ⟨x, member, inside⟩ := owned.present m before
    rcases remove.regions with same | ⟨id, found, erased, cleared⟩
    · exact ⟨x, same ▸ member, inside⟩
    · -- the page is still present, so it is not one of `r`
      have differ : x ≠ r := by
        rintro rfl
        simp [cleared m inside] at present
      refine ⟨x, ?_, inside⟩
      rw [erased, List.mem_eraseIdx_iff_getElem?]
      obtain ⟨i, at_i⟩ := List.getElem?_of_mem member
      refine ⟨i, ?_, at_i⟩
      rintro rfl
      rw [at_i, Option.some.injEq] at found
      exact differ found
  userDir id table := by
    rw [remove.dir] at table ⊢
    exact owned.userDir id table

/-- Every page of a region that has just been mapped is accessible. -/
theorem AddressSpace.Added.userAccessible (add : space.Added r space') (owned : space.Owned)
    {m : Nat} (page : m ∈ r.pages) : space'.UserAccessible m := by
  refine ⟨(add.owned owned).userDir _ (add.tables m page), ?_, ?_⟩
  · rw [add.inside m page]
  · rw [add.inside m page, KVmmRegion.fUs_eq_true]

/-- Where every region is for the user, nothing is to be kept from it. -/
theorem AddressSpace.Owned.isolated (owned : space.Owned)
    (forUser : ∀ r ∈ space.regions, r.ForUser) : space.Isolated where
  owned m accessible := by
    obtain ⟨r, member, page⟩ := owned.present m accessible.2.1
    exact ⟨r, member, page, (forUser r member).user page⟩
  kernel r member notUser m page _ := (forUser r member).user page notUser

theorem AddressSpace.Added.isolated_iff (add : space.Added r space') (owned : space.Owned)
    (forUser : ∀ r ∈ space.regions, r.ForUser) (whole : r.regionSize % pageSize = 0) :
    space'.Isolated ↔ r.ForUser := by
  constructor
  · intro isolated
    by_contra kernelRegion
    rw [KVmmRegion.ForUser, not_or, not_not] at kernelRegion
    have page : r.virtAddr / pageSize ∈ r.pages := by
      have some : 0 < r.regionSize / pageSize :=
        Nat.div_pos (Nat.le_of_dvd (Nat.pos_of_ne_zero kernelRegion.1)
          (Nat.dvd_of_mod_eq_zero whole)) (by decide)
      exact ⟨le_rfl, by omega⟩
    exact isolated.kernel r (add.mem_regions.mpr (.inr rfl)) kernelRegion.2 _ page
      (add.userAccessible owned page)
  · intro newest
    apply (add.owned owned).isolated
    intro x member
    cases add.mem_regions.mp member with
    | inl older => exact forUser x older
    | inr here => exact here ▸ newest

theorem AddressSpace.Removed.forUser (remove : space.Removed r space')
    (forUser : ∀ r ∈ space.regions, r.ForUser) : ∀ r ∈ space'.regions, r.ForUser := by
  exact fun x member => forUser x (remove.mem_of_mem member)

/-! ## Runs -/

theorem VmmState.Fresh.isolated_of_run {start : VmmState} {calls : List VmmCall}
    (fresh : start.Fresh)
    (run : Run (Guarded (fun state call => call.fits state ∧ call.forUser) VmmStep)
      start calls state) :
    state.Sound ∧ ∀ proc, (state.space proc).Owned ∧ ∀ r ∈ (state.space proc).regions, r.ForUser := by
  refine fresh.spaces_of_run (fun space => space.Owned ∧ ∀ r ∈ space.regions, r.ForUser)
    ?_ ?_ ?_ run
  · exact ⟨⟨by simp [KVmmPageEntry.zero], by simp [KVmmPageDirEntry.zero]⟩, by simp⟩
  · intro state call proc r space' _ forUser request add isolated
    obtain ⟨owned, regions⟩ := isolated
    refine ⟨add.owned owned, ?_⟩
    intro x member
    cases add.mem_regions.mp member with
    | inl older => exact regions x older
    | inr newest => exact newest ▸ request.forUser_iff.mpr forUser
  · intro r space space' remove isolated
    obtain ⟨owned, regions⟩ := isolated
    exact ⟨remove.owned owned, remove.forUser regions⟩

end

/-- As long as every call maps memory for the user, only pages of user regions are accessible to
user code.  From the states so reached, that stays so after a successful call exactly when that
call, too, maps nothing for the kernel. -/
theorem vmm_kernel_pages_isolated {start state : VmmState} {calls : List VmmCall}
    (fresh : start.Fresh)
    (run : Run (Guarded (fun state call => call.fits state ∧ call.forUser) VmmStep)
      start calls state) :
    (∀ proc, (state.space proc).Isolated) ∧
      ∀ (call : VmmCall) state', call.fits state → call.run state = .ok (.sOk, state') →
        ((∀ proc, (state'.space proc).Isolated) ↔ call.forUser) := by
  obtain ⟨sound, spaces⟩ := fresh.isolated_of_run run
  have isolated : ∀ proc, (state.space proc).Isolated := fun proc =>
    (spaces proc).1.isolated (spaces proc).2
  refine ⟨isolated, fun call state' fits returned => ?_⟩
  cases VmmCall.outcome returned with
  | refused kpmm failed => exact absurd rfl failed
  | @mapped proc r _ request mapping =>
    obtain ⟨-, others, -⟩ := mapping.pagesMapped sound.tables (request.fits fits)
    have add := mapping.added sound.tables (request.fits fits)
    have here := add.isolated_iff (spaces proc).1 (spaces proc).2 mapping.whole
    -- only the space of `proc` changes
    rw [← request.forUser_iff, ← here]
    refine ⟨fun all => all proc, fun self current => ?_⟩
    by_cases same : current = proc
    · rw [same]
      exact self
    · rw [others current same]
      exact isolated current
  | @unmapped procDesc virtAddr proc r _ _ isUnmap unmapping =>
    subst isUnmap
    obtain ⟨id, -, -, -, found, -⟩ := unmapping.unmapped
    have member : r ∈ (state.procs proc).regions := List.mem_of_getElem? found
    have fitsR := sound.fits proc r member
    have whole := sound.whole proc r member
    obtain ⟨-, others, -⟩ := unmapping.pagesCleared sound.tables fitsR whole
    have remove := unmapping.removed sound.tables fitsR whole
    refine iff_of_true (fun current => ?_) trivial
    by_cases same : current = proc
    · rw [same]
      exact (remove.owned (spaces proc).1).isolated (remove.forUser (spaces proc).2)
    · rw [others current same]
      exact isolated current

/-- A process with two user regions, one of them unmapped again. -/
theorem vmm_kernel_pages_isolated_user_regions :
    ∃ state : VmmState, (state.space 0).UserAccessible 0x102 ∧ (state.space 0).Isolated := by
  have steps : ∃ state₁ state₂ state₃,
      vmmMapRegion .oneProcess (some 0) 0x500000 0x100000 0x2000 usageUser accessRead =
        .ok (.sOk, state₁) ∧
      vmmMapRegion state₁ (some 0) 0x502000 0x102000 0x1000 (usageUser ||| usageStack)
        accessReadWrite = .ok (.sOk, state₂) ∧
      vmmUnmapRegion state₂ (some 0) 0x100000 = .ok (.sOk, state₃) ∧
      (state₃.space 0).UserAccessible 0x102 :=
    ⟨_, _, _, by rfl, by rfl, by rfl, by rfl, by rfl, by rfl⟩
  obtain ⟨state₁, state₂, state₃, first, second, third, accessible⟩ := steps
  have run : Run (Guarded (fun state call => call.fits state ∧ call.forUser) VmmStep) .oneProcess
      [.mapRegion (some 0) 0x500000 0x100000 0x2000 usageUser accessRead,
        .mapRegion (some 0) 0x502000 0x102000 0x1000 (usageUser ||| usageStack) accessReadWrite,
        .unmapRegion (some 0) 0x100000] state₃ := by
    refine .cons ⟨⟨?_, .inr (by decide)⟩, .sOk, first⟩
      (.cons ⟨⟨?_, .inr (by decide)⟩, .sOk, second⟩ (.single ⟨⟨trivial, trivial⟩, .sOk, third⟩))
    · show 0x100000 + 0x2000 < 2 ^ 32
      decide
    · show 0x102000 + 0x1000 < 2 ^ 32
      decide
  exact ⟨state₃, accessible, (vmm_kernel_pages_isolated VmmState.oneProcess_fresh run).1 0⟩

/-- A kernel stack can be reached from user code. -/
theorem vmm_kernel_pages_not_isolated :
    ∃ state : VmmState,
      Run (Guarded (fun state call => call.fits state) VmmStep) .oneProcess
        [.mapRegion (some 0) 0x500000 0xBFFE0000 0x2000 (usageKernel ||| usageStack)
          accessReadWrite] state ∧
      ¬(state.space 0).Isolated := by
  have mapped : ∃ state, vmmMapRegion .oneProcess (some 0) 0x500000 0xBFFE0000 0x2000
      (usageKernel ||| usageStack) accessReadWrite = .ok (.sOk, state) ∧
      (state.space 0).regions =
        [⟨0x500000, 0xBFFE0000, 0x2000, usageKernel ||| usageStack, accessReadWrite⟩] ∧
      (state.space 0).UserAccessible 0xBFFE0 := ⟨_, by rfl, by rfl, by rfl, by rfl, by rfl⟩
  obtain ⟨state, returned, regions, accessible⟩ := mapped
  refine ⟨state, .single ⟨?_, .sOk, returned⟩, fun isolated => ?_⟩
  · show 0xBFFE0000 + 0x2000 < 2 ^ 32
    decide
  · have member := List.mem_singleton_self
      (⟨0x500000, 0xBFFE0000, 0x2000, usageKernel ||| usageStack, accessReadWrite⟩ : KVmmRegion)
    rw [← regions] at member
    refine isolated.kernel _ member (by decide) 0xBFFE0 ?_ accessible
    exact ⟨by decide, by decide⟩

end Antonix
