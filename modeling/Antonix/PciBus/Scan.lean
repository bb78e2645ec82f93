import Mathlib.Data.List.Nodup
import Antonix.PciBus.Basic

/-! # What a scan finds

A bridge has class 6 and subclass 4.  The class byte lies at an odd offset, so the
driver reads the subclass in its place, and no function is ever a bridge to it:
`pci_scan` visits the functions of bus 0, in order, and compares both selectors
with the subclass. -/

namespace Antonix.Pci

/-! ## Functions -/

/-- A place for a function. -/
structure PciFunction where
  bus : Nat
  device : Nat
  func : Nat

namespace PciFunction

variable (space : ConfigSpace) (fn : PciFunction)

def vendorId : Nat := pciGetVendorId space fn.bus fn.device fn.func

def deviceId : Nat := pciGetDeviceId space fn.bus fn.device fn.func

/-- The class byte. -/
def classByte : Nat := configByte space fn.bus fn.device fn.func pciClass

/-- The subclass byte. -/
def subclassByte : Nat := configByte space fn.bus fn.device fn.func pciSubclass

/-- The number of the bus behind a bridge. -/
def secondaryBus : Nat := configByte space fn.bus fn.device fn.func pciSecondaryBus

/-- Bit 7 of the header type of function 0: the device has several functions. -/
def multiFunction : Prop :=
  configByte space fn.bus fn.device 0 pciHeaderType &&& 0x80 ≠ 0

/-- The function exists: its device does, and it is function 0 or one of several. -/
def Present : Prop :=
  fn.device < pciMaxDevices ∧ fn.func < pciMaxFunctions ∧
    pciGetVendorId space fn.bus fn.device 0 ≠ 0xFFFF ∧
    (fn.func = 0 ∨ fn.multiFunction space ∧ fn.vendorId space ≠ 0xFFFF)

/-- The function is a bridge to another PCI bus. -/
def IsBridge : Prop :=
  fn.classByte space = pciClassBridge ∧ fn.subclassByte space = pciSubclassPciBridge

/-- What the callback is to be told of the function. -/
def invocation : Invocation where
  addr := makeConfigAddress fn.bus fn.device fn.func 0
  vendorId := fn.vendorId space
  deviceId := fn.deviceId space

end PciFunction

/-- Bus 0 and the buses behind bridges that can be reached. -/
inductive ReachableBus (space : ConfigSpace) : Nat → Prop
  | root : ReachableBus space 0
  | bridge {fn : PciFunction} (reachable : ReachableBus space fn.bus) (present : fn.Present space)
      (isBridge : fn.IsBridge space) : ReachableBus space (fn.secondaryBus space)

/-- The selectors match a class and a subclass. -/
def Selects (classSelector subclassSelector cls subclass : Nat) : Prop :=
  (classSelector = pciSelectorAll ∨ classSelector = cls) ∧
    (subclassSelector = pciSelectorAll ∨ subclassSelector = subclass)

instance {classSelector subclassSelector cls subclass : Nat} :
    Decidable (Selects classSelector subclassSelector cls subclass) :=
  inferInstanceAs (Decidable (_ ∧ _))

/-- The functions that a scan is to find. -/
def Wanted (space : ConfigSpace) (classSelector subclassSelector : Nat) (fn : PciFunction) :
    Prop :=
  ReachableBus space fn.bus ∧ fn.Present space ∧
    Selects classSelector subclassSelector (fn.classByte space) (fn.subclassByte space)

/-- Each wanted function is invoked exactly once, with its own address and ids, and nothing
else is. -/
def ExactlyOnce (space : ConfigSpace) (classSelector subclassSelector : Nat)
    (invoked : List Invocation) : Prop :=
  invoked.Nodup ∧
    ∀ call, call ∈ invoked ↔
      ∃ fn, Wanted space classSelector subclassSelector fn ∧ call = fn.invocation space

/-! ## Addresses -/

section

variable {space : ConfigSpace}

theorem configByte_lt {bus device func offset : Nat} :
    configByte space bus device func offset < 256 := by
  unfold configByte
  exact BitVec.isLt _

/-- There are no more than 256 buses. -/
theorem ReachableBus.lt {bus : Nat} (reachable : ReachableBus space bus) : bus < 256 := by
  cases reachable with
  | root => decide
  | bridge _ _ _ => exact configByte_lt

/-- Different places have different addresses. -/
theorem makeConfigAddress_inj {bus bus' device device' func func' : Nat}
    (buses : bus < 256 ∧ bus' < 256) (devices : device < 32 ∧ device' < 32)
    (funcs : func < 8 ∧ func' < 8)
    (same : makeConfigAddress bus device func 0 = makeConfigAddress bus' device' func' 0) :
    bus = bus' ∧ device = device' ∧ func = func' := by
  simp only [makeConfigAddress, ConfigAddress.mk.injEq, true_and, and_true] at same
  obtain ⟨sameFunc, sameDevice, sameBus⟩ := same
  have funcNat := congrArg BitVec.toNat sameFunc
  have deviceNat := congrArg BitVec.toNat sameDevice
  have busNat := congrArg BitVec.toNat sameBus
  simp only [BitVec.toNat_ofNat] at funcNat deviceNat busNat
  omega

theorem PciFunction.ext_of_invocation {fn fn' : PciFunction}
    (buses : fn.bus < 256 ∧ fn'.bus < 256) (present : fn.Present space)
    (present' : fn'.Present space) (same : fn.invocation space = fn'.invocation space) :
    fn = fn' := by
  obtain ⟨device, func, -⟩ := present
  obtain ⟨device', func', -⟩ := present'
  obtain ⟨sameBus, sameDevice, sameFunc⟩ := makeConfigAddress_inj buses ⟨device, device'⟩
    ⟨func, func'⟩ (congrArg Invocation.addr same)
  cases fn
  cases fn'
  simp_all

/-- The class that the driver reads is the subclass. -/
theorem read_class (bus device func : Nat) :
    pciReadConfigU8 space (makeConfigAddress bus device func pciClass) =
      configByte space bus device func pciSubclass :=
  pciReadConfigU8_eq space bus device func pciClass (by decide)

theorem read_subclass (bus device func : Nat) :
    pciReadConfigU8 space (makeConfigAddress bus device func pciSubclass) =
      configByte space bus device func pciSubclass :=
  pciReadConfigU8_eq space bus device func pciSubclass (by decide)

theorem read_headerType (bus device func : Nat) :
    pciReadConfigU8 space (makeConfigAddress bus device func pciHeaderType) =
      configByte space bus device func pciHeaderType :=
  pciReadConfigU8_eq space bus device func pciHeaderType (by decide)

end

/-! ## The visits of a scan -/

section

variable (space : ConfigSpace)

/-- A function after the first, when it exists. -/
def otherFunction (bus device func : Nat) : List PciFunction :=
  if pciGetVendorId space bus device func ≠ 0xFFFF then [⟨bus, device, func⟩] else []

/-- The functions of a device that `pci_scan_slot` visits. -/
def slotFunctions (bus device : Nat) : List PciFunction :=
  if pciGetVendorId space bus device 0 = 0xFFFF then []
  else if configByte space bus device 0 pciHeaderType &&& 0x80 = 0 then [⟨bus, device, 0⟩]
  else
    ⟨bus, device, 0⟩ ::
      (List.range' 1 (pciMaxFunctions - 1)).flatMap (otherFunction space bus device)

/-- The functions that `pci_scan_bus` visits. -/
def busFunctions (bus : Nat) : List PciFunction :=
  (List.range pciMaxDevices).flatMap (slotFunctions space bus)

/-- The calls of the callback for the functions visited: both selectors meet the subclass. -/
def invocations (classSelector subclassSelector : Nat) (visited : List PciFunction) :
    List Invocation :=
  (visited.filter fun fn => Selects classSelector subclassSelector (fn.subclassByte space)
    (fn.subclassByte space)).map (PciFunction.invocation space)

variable {space}

theorem mem_otherFunction {bus device func : Nat} {fn : PciFunction} :
    fn ∈ otherFunction space bus device func ↔
      fn = ⟨bus, device, func⟩ ∧ pciGetVendorId space bus device func ≠ 0xFFFF := by
  unfold otherFunction
  split
  case isTrue exist => simp [exist]
  case isFalse absent => simp [absent]

theorem mem_slotFunctions {bus device : Nat} {fn : PciFunction} (small : device < pciMaxDevices) :
    fn ∈ slotFunctions space bus device ↔
      fn.bus = bus ∧ fn.device = device ∧ fn.Present space := by
  obtain ⟨bus', device', func⟩ := fn
  unfold slotFunctions PciFunction.Present PciFunction.multiFunction PciFunction.vendorId
  by_cases absent : pciGetVendorId space bus device 0 = 0xFFFF
  · -- no device in this slot
    simp only [absent, if_true, List.not_mem_nil, false_iff]
    rintro ⟨rfl, rfl, -, -, exist, -⟩
    exact exist absent
  · rw [if_neg absent]
    by_cases single : configByte space bus device 0 pciHeaderType &&& 0x80 = 0
    · -- a device with one function
      rw [if_pos single, List.mem_singleton, PciFunction.mk.injEq]
      constructor
      · rintro ⟨rfl, rfl, rfl⟩
        exact ⟨rfl, rfl, small, Nat.succ_pos 7, absent, .inl rfl⟩
      · rintro ⟨rfl, rfl, -, -, -, exist⟩
        cases exist with
        | inl first => exact ⟨rfl, rfl, first⟩
        | inr several => exact absurd single several.1
    · -- function 0, and those of the other seven that exist
      rw [if_neg single]
      simp only [List.mem_cons, List.mem_flatMap, List.mem_range'_1, mem_otherFunction,
        PciFunction.mk.injEq]
      constructor
      · intro visited
        cases visited with
        | inl first =>
          obtain ⟨rfl, rfl, rfl⟩ := first
          exact ⟨rfl, rfl, small, Nat.succ_pos 7, absent, .inl rfl⟩
        | inr other =>
          obtain ⟨i, range, ⟨rfl, rfl, rfl⟩, exist⟩ := other
          exact ⟨rfl, rfl, small, by omega, absent, .inr ⟨single, exist⟩⟩
      · rintro ⟨rfl, rfl, -, range, -, exist⟩
        cases exist with
        | inl first => exact .inl ⟨rfl, rfl, first⟩
        | inr several =>
          by_cases first : func = 0
          · exact .inl ⟨rfl, rfl, first⟩
          · exact .inr ⟨func, by omega, ⟨rfl, rfl, rfl⟩, several.2⟩

theorem mem_busFunctions {bus : Nat} {fn : PciFunction} :
    fn ∈ busFunctions space bus ↔ fn.bus = bus ∧ fn.Present space := by
  simp only [busFunctions, List.mem_flatMap, List.mem_range]
  constructor
  · rintro ⟨device, small, member⟩
    obtain ⟨sameBus, -, present⟩ := (mem_slotFunctions small).mp member
    exact ⟨sameBus, present⟩
  · rintro ⟨sameBus, present⟩
    exact ⟨fn.device, present.1, (mem_slotFunctions present.1).mpr ⟨sameBus, rfl, present⟩⟩

theorem nodup_slotFunctions (bus device : Nat) : (slotFunctions space bus device).Nodup := by
  unfold slotFunctions
  split
  · exact List.nodup_nil
  · split
    · exact List.nodup_singleton _
    · -- function 0 is none of the others, and these have different numbers
      apply List.nodup_cons.mpr
      constructor
      · simp only [List.mem_flatMap, List.mem_range'_1, mem_otherFunction, PciFunction.mk.injEq]
        rintro ⟨i, range, ⟨-, -, same⟩, -⟩
        omega
      · apply List.nodup_flatMap.mpr
        constructor
        · intro i _
          unfold otherFunction
          split
          · exact List.nodup_singleton _
          · exact List.nodup_nil
        · apply List.Nodup.pairwise_of_forall_ne List.nodup_range'
          intro i _ j _ apart fn inFirst inSecond
          have first := (mem_otherFunction.mp inFirst).1
          have second := (mem_otherFunction.mp inSecond).1
          exact apart (PciFunction.mk.inj (first.symm.trans second)).2.2

theorem nodup_busFunctions (bus : Nat) : (busFunctions space bus).Nodup := by
  apply List.nodup_flatMap.mpr
  refine ⟨fun device _ => nodup_slotFunctions bus device, ?_⟩
  apply List.nodup_range.pairwise_of_forall_ne
  intro device member device' member' apart fn inFirst inSecond
  have first := (mem_slotFunctions (List.mem_range.mp member)).mp inFirst
  have second := (mem_slotFunctions (List.mem_range.mp member')).mp inSecond
  exact apart (first.2.1.symm.trans second.2.1)

end

/-! ## A scan with a callback that never fails -/

section

variable {σ : Type} {space : ConfigSpace} {params : ScanParams σ}

/-- The state of the callback after some calls. -/
def deliver (params : ScanParams σ) (calls : List Invocation) (user : σ) : σ :=
  calls.foldl (fun user call => (params.cb call user).2) user

theorem deliver_append (first second : List Invocation) (user : σ) :
    deliver params (first ++ second) user = deliver params second (deliver params first user) :=
  List.foldl_append

theorem invocations_append {cs ss : Nat} (first second : List PciFunction) :
    invocations space cs ss (first ++ second) =
      invocations space cs ss first ++ invocations space cs ss second := by
  simp [invocations]

theorem invocations_flatMap {ι : Type} {cs ss : Nat} (visits : ι → List PciFunction)
    (is : List ι) :
    invocations space cs ss (is.flatMap visits) =
      is.flatMap fun i => invocations space cs ss (visits i) := by
  induction is with
  | nil => rfl
  | cons i is inductionHypothesis =>
    rw [List.flatMap_cons, List.flatMap_cons, invocations_append, inductionHypothesis]

/-- A loop whose turns do not fail makes the calls of its turns. -/
theorem scanEach_eq {body : Nat → σ → Except Halt (HResult × σ)} {calls : Nat → List Invocation}
    (turn : ∀ i user, ∃ hr : HResult, hr.failed = false ∧
      body i user = .ok (hr, deliver params (calls i) user)) (is : List Nat) (user : σ) :
    scanEach body is user = .ok (.sOk, deliver params (is.flatMap calls) user) := by
  induction is generalizing user with
  | nil => rfl
  | cons i is inductionHypothesis =>
    obtain ⟨hr, passed, returned⟩ := turn i user
    simp only [scanEach, returned, bind, Except.bind, passed, Bool.false_eq_true, if_false]
    rw [inductionHypothesis, List.flatMap_cons, deliver_append]

/-- No function is a bridge to the driver: it would have to be of subclass 6 and 4 at once. -/
theorem not_bridge (space : ConfigSpace) (bus device func : Nat) :
    ¬ (configByte space bus device func pciSubclass = pciClassBridge ∧
      configByte space bus device func pciSubclass = pciSubclassPciBridge) := by
  rintro ⟨six, four⟩
  rw [six] at four
  contradiction

variable (quiet : ∀ call user, (params.cb call user).1 = .sOk)
include quiet

theorem pciScanFunction_eq (scanBus : Nat → σ → Except Halt (HResult × σ))
    (bus device func : Nat) (user : σ) :
    pciScanFunction space params scanBus bus device func user =
      .ok (.sOk, deliver params (invocations space params.classSelector params.subclassSelector
        [⟨bus, device, func⟩]) user) := by
  simp only [pciScanFunction, read_class, read_subclass, if_neg (not_bridge space bus device func)]
  by_cases selected : Selects params.classSelector params.subclassSelector
      (configByte space bus device func pciSubclass) (configByte space bus device func pciSubclass)
  · have calls : invocations space params.classSelector params.subclassSelector
        [⟨bus, device, func⟩] = [PciFunction.invocation space ⟨bus, device, func⟩] := by
      simp [invocations, PciFunction.subclassByte, selected]
    unfold Selects at selected
    simp only [calls, if_pos selected, quiet]
    rfl
  · have calls : invocations space params.classSelector params.subclassSelector
        [⟨bus, device, func⟩] = [] := by
      simp [invocations, PciFunction.subclassByte, selected]
    unfold Selects at selected
    simp only [calls, if_neg selected]
    rfl

theorem pciScanSlot_eq (scanBus : Nat → σ → Except Halt (HResult × σ)) (bus device : Nat)
    (user : σ) :
    ∃ hr : HResult, hr.failed = false ∧ pciScanSlot space params scanBus bus device user =
      .ok (hr, deliver params (invocations space params.classSelector params.subclassSelector
        (slotFunctions space bus device)) user) := by
  unfold pciScanSlot slotFunctions
  by_cases absent : pciGetVendorId space bus device 0 = 0xFFFF
  · exact ⟨.sFalse, rfl, by rw [if_pos absent, if_pos absent]; rfl⟩
  · refine ⟨.sOk, rfl, ?_⟩
    rw [if_neg absent, if_neg absent, pciScanFunction_eq quiet, read_headerType]
    by_cases single : configByte space bus device 0 pciHeaderType &&& 0x80 = 0
    · simp only [single, if_true]
      rfl
    · -- functions 1 to 7: those that exist are visited
      have turn : ∀ i user, ∃ hr : HResult, hr.failed = false ∧
          (if pciGetVendorId space bus device i ≠ 0xFFFF then
            pciScanFunction space params scanBus bus device i user else .ok (.sOk, user)) =
          .ok (hr, deliver params (invocations space params.classSelector params.subclassSelector
            (otherFunction space bus device i)) user) := by
        intro i user
        refine ⟨.sOk, rfl, ?_⟩
        unfold otherFunction
        split
        · exact pciScanFunction_eq quiet scanBus bus device i user
        · rfl
      have rest := scanEach_eq turn (List.range' 1 (pciMaxFunctions - 1))
      rw [← invocations_flatMap] at rest
      have split : ⟨bus, device, 0⟩ ::
          (List.range' 1 (pciMaxFunctions - 1)).flatMap (otherFunction space bus device) =
          [⟨bus, device, 0⟩] ++
            (List.range' 1 (pciMaxFunctions - 1)).flatMap (otherFunction space bus device) := rfl
      have passed : HResult.sOk.failed = false := rfl
      rw [if_neg single, split, invocations_append, deliver_append]
      simp only [bind, Except.bind, passed, Bool.false_eq_true, if_false, if_neg single]
      exact rest _

theorem pciScanBus_eq (depth bus : Nat) (user : σ) :
    pciScanBus space params (depth + 1) bus user =
      .ok (.sOk, deliver params (invocations space params.classSelector params.subclassSelector
        (busFunctions space bus)) user) := by
  rw [pciScanBus, busFunctions, invocations_flatMap]
  exact scanEach_eq (fun device user => pciScanSlot_eq quiet _ bus device user) _ user

/-- With a single host controller, a scan visits bus 0. -/
theorem pciScan_eq (single : configByte space 0 0 0 pciHeaderType &&& 0x80 = 0) (depth : Nat)
    (user : σ) :
    pciScan space params (depth + 1) user =
      .ok (.sOk, deliver params (invocations space params.classSelector params.subclassSelector
        (busFunctions space 0)) user) := by
  simp only [pciScan, read_headerType, single, if_true, pciScanBus_eq quiet]
  rfl

end

/-! ## Enumeration -/

section

variable {space : ConfigSpace} {classSelector subclassSelector : Nat}

/-- When the driver finds what it should: on bus 0 the selectors match the subclass taken for
the class exactly where they match the class, and behind the bridges there is nothing to find. -/
def FindsAll (space : ConfigSpace) (classSelector subclassSelector : Nat) : Prop :=
  (∀ fn : PciFunction, fn.bus = 0 → fn.Present space →
    (Selects classSelector subclassSelector (fn.subclassByte space) (fn.subclassByte space) ↔
      Selects classSelector subclassSelector (fn.classByte space) (fn.subclassByte space))) ∧
  ∀ fn : PciFunction, fn.bus ≠ 0 → ¬ Wanted space classSelector subclassSelector fn

theorem mem_invocations {call : Invocation} :
    call ∈ invocations space classSelector subclassSelector (busFunctions space 0) ↔
      ∃ fn : PciFunction, fn.bus = 0 ∧ fn.Present space ∧
        Selects classSelector subclassSelector (fn.subclassByte space) (fn.subclassByte space) ∧
        call = fn.invocation space := by
  simp only [invocations, List.mem_map, List.mem_filter, mem_busFunctions, decide_eq_true_eq]
  constructor
  · rintro ⟨fn, ⟨⟨bus, present⟩, selected⟩, rfl⟩
    exact ⟨fn, bus, present, selected, rfl⟩
  · rintro ⟨fn, bus, present, selected, rfl⟩
    exact ⟨fn, ⟨⟨bus, present⟩, selected⟩, rfl⟩

/-- No function is visited twice. -/
theorem nodup_invocations :
    (invocations space classSelector subclassSelector (busFunctions space 0)).Nodup := by
  apply List.Nodup.map_on
  · intro fn member fn' member' same
    obtain ⟨bus, present⟩ := mem_busFunctions.mp (List.mem_filter.mp member).1
    obtain ⟨bus', present'⟩ := mem_busFunctions.mp (List.mem_filter.mp member').1
    exact PciFunction.ext_of_invocation (by omega) present present' same
  · exact (nodup_busFunctions 0).filter _

theorem exactlyOnce_iff :
    ExactlyOnce space classSelector subclassSelector
        (invocations space classSelector subclassSelector (busFunctions space 0)) ↔
      FindsAll space classSelector subclassSelector := by
  constructor
  · rintro ⟨-, found⟩
    refine ⟨?_, ?_⟩
    · -- what is invoked on bus 0 is what the subclass selects
      intro fn bus present
      constructor
      · intro selected
        obtain ⟨fn', wanted, same⟩ := (found (fn.invocation space)).mp
          (mem_invocations.mpr ⟨fn, bus, present, selected, rfl⟩)
        have buses : fn.bus < 256 ∧ fn'.bus < 256 := ⟨by omega, wanted.1.lt⟩
        rw [PciFunction.ext_of_invocation buses present wanted.2.1 same]
        exact wanted.2.2
      · intro selected
        have wanted : Wanted space classSelector subclassSelector fn := by
          refine ⟨?_, present, selected⟩
          rw [bus]
          exact .root
        obtain ⟨fn', bus', present', selected', same⟩ := mem_invocations.mp
          ((found (fn.invocation space)).mpr ⟨fn, wanted, rfl⟩)
        rw [PciFunction.ext_of_invocation (by omega) present present' same]
        exact selected'
    · -- a function that is invoked is on bus 0
      intro fn elsewhere wanted
      obtain ⟨fn', bus', present', -, same⟩ := mem_invocations.mp
        ((found (fn.invocation space)).mpr ⟨fn, wanted, rfl⟩)
      have buses : fn.bus < 256 ∧ fn'.bus < 256 := ⟨wanted.1.lt, by omega⟩
      rw [PciFunction.ext_of_invocation buses wanted.2.1 present' same] at elsewhere
      exact elsewhere bus'
  · rintro ⟨agree, nothing⟩
    refine ⟨nodup_invocations, ?_⟩
    intro call
    rw [mem_invocations]
    constructor
    · rintro ⟨fn, bus, present, selected, rfl⟩
      refine ⟨fn, ⟨?_, present, (agree fn bus present).mp selected⟩, rfl⟩
      rw [bus]
      exact .root
    · rintro ⟨fn, wanted, rfl⟩
      by_cases bus : fn.bus = 0
      · exact ⟨fn, bus, wanted.2.1, (agree fn bus wanted.2.1).mpr wanted.2.2, rfl⟩
      · exact absurd wanted (nothing fn bus)

end

/-- The callback that notes its calls and returns `S_OK`. -/
def recorder (classSelector subclassSelector : Nat) : ScanParams (List Invocation) where
  cb := fun call seen => (.sOk, seen ++ [call])
  classSelector := classSelector
  subclassSelector := subclassSelector

theorem deliver_recorder {classSelector subclassSelector : Nat} (calls seen : List Invocation) :
    deliver (recorder classSelector subclassSelector) calls seen = seen ++ calls := by
  induction calls generalizing seen with
  | nil => simp [deliver]
  | cons call calls inductionHypothesis =>
    have rest := inductionHypothesis (seen ++ [call])
    simp only [deliver, List.foldl_cons, recorder] at rest ⊢
    rw [rest, List.append_assoc, List.singleton_append]

/-- With a single host controller, a scan returns `S_OK` however deep bridges may nest, and every
callback that never fails sees the same calls; these are the wanted functions, each once, exactly
when `FindsAll` holds. -/
theorem pciScan_exactlyOnce_iff (space : ConfigSpace) (classSelector subclassSelector : Nat)
    (single : configByte space 0 0 0 pciHeaderType &&& 0x80 = 0) :
    ∃ calls,
      (∀ depth, pciScan space (recorder classSelector subclassSelector) (depth + 1) [] =
        .ok (.sOk, calls)) ∧
      (∀ (σ : Type) (params : ScanParams σ), params.classSelector = classSelector →
        params.subclassSelector = subclassSelector →
        (∀ call user, (params.cb call user).1 = .sOk) →
        ∀ depth user, pciScan space params (depth + 1) user =
          .ok (.sOk, calls.foldl (fun user call => (params.cb call user).2) user)) ∧
      (ExactlyOnce space classSelector subclassSelector calls ↔
        FindsAll space classSelector subclassSelector) := by
  refine ⟨invocations space classSelector subclassSelector (busFunctions space 0), ?_, ?_,
    exactlyOnce_iff⟩
  · intro depth
    rw [pciScan_eq (fun _ _ => rfl) single, deliver_recorder]
    rfl
  · rintro σ params rfl rfl quiet depth user
    exact pciScan_eq quiet single depth user

/-- A machine with a host bridge at 0:0.0 and a display controller (class 3, subclass 0) at
0:2.0. -/
def displayMachine : ConfigSpace := fun bus device func offset =>
  if bus ≠ 0 ∨ func ≠ 0 then 0xFF
  else if device = 0 then
    match offset with
    | 0x00 => 0x86 | 0x01 => 0x80 | 0x02 => 0x37 | 0x03 => 0x12 | 0x0b => 0x06 | _ => 0x00
  else if device = 2 then
    match offset with
    | 0x00 => 0x34 | 0x01 => 0x12 | 0x02 => 0x11 | 0x03 => 0x11 | 0x0b => 0x03 | _ => 0x00
  else 0xFF

/-- No function of that machine has the subclass of a bridge. -/
theorem displayMachine_subclass (fn : PciFunction) :
    fn.subclassByte displayMachine ≠ pciSubclassPciBridge := by
  simp only [PciFunction.subclassByte, configByte, displayMachine]
  split
  · decide
  · split
    · decide
    · split <;> decide

theorem displayMachine_bus {bus : Nat} (reachable : ReachableBus displayMachine bus) :
    bus = 0 := by
  cases reachable with
  | root => rfl
  | bridge _ _ isBridge => exact absurd isBridge.2 (displayMachine_subclass _)

/-- Without selectors the machine is enumerated. -/
theorem pciScan_exactlyOnce_display :
    ∃ calls, (∀ depth, pciScan displayMachine (recorder pciSelectorAll pciSelectorAll)
      (depth + 1) [] = .ok (.sOk, calls)) ∧
      ExactlyOnce displayMachine pciSelectorAll pciSelectorAll calls := by
  have finds : FindsAll displayMachine pciSelectorAll pciSelectorAll := by
    refine ⟨fun fn _ _ => by simp [Selects], ?_⟩
    intro fn elsewhere wanted
    exact elsewhere (displayMachine_bus wanted.1)
  obtain ⟨calls, scanned, -, exactly⟩ :=
    pciScan_exactlyOnce_iff displayMachine pciSelectorAll pciSelectorAll rfl
  exact ⟨calls, scanned, exactly.mpr finds⟩

/-- The display controller is not found by its class. -/
theorem pciScan_misses_display :
    ¬ ∃ calls, pciScan displayMachine (recorder 0x03 pciSelectorAll) 1 [] = .ok (.sOk, calls) ∧
      ExactlyOnce displayMachine 0x03 pciSelectorAll calls := by
  rintro ⟨calls, scanned, exactly⟩
  rw [pciScan_eq (fun _ _ => rfl) rfl, deliver_recorder] at scanned
  obtain ⟨-, same⟩ := eq_of_returned scanned
  subst same
  have agree := (exactlyOnce_iff.mp exactly).1 ⟨0, 2, 0⟩ rfl
    ⟨by decide, by decide, by decide, .inl rfl⟩
  have wanted : Selects 0x03 pciSelectorAll (PciFunction.classByte displayMachine ⟨0, 2, 0⟩)
      (PciFunction.subclassByte displayMachine ⟨0, 2, 0⟩) := ⟨.inr rfl, .inl rfl⟩
  have missed := agree.mpr wanted
  revert missed
  decide

end Antonix.Pci
