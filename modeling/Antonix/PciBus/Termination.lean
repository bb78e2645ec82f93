import Antonix.PciBus.Scan

/-! # A scan ends

`pci_scan_bus` follows the bus numbers that bridges hold, with no list of the buses
seen.  It ends all the same: no function is ever a bridge to the driver, so a scan of
a bus stays on it.  To count the calls of `pci_scan_bus`, the same scan is run with a
log of the buses beside the callback's state. -/

namespace Antonix.Pci

section logged

variable {σ : Type} (space : ConfigSpace) (params : ScanParams σ)

/-- The callback leaves the log alone. -/
def ScanParams.logged : ScanParams (σ × List Nat) where
  cb := fun call (user, buses) =>
    let (hr, user) := params.cb call user
    (hr, (user, buses))
  classSelector := params.classSelector
  subclassSelector := params.subclassSelector

/-- `pci_scan_bus`, which notes its bus in the log. -/
def loggedScanBus : Nat → Nat → σ × List Nat → Except Halt (HResult × (σ × List Nat))
  | 0, _, _ => .error .stuck
  | depth + 1, busId, (user, buses) =>
    scanEach (pciScanSlot space params.logged (loggedScanBus depth) busId)
      (List.range pciMaxDevices) (user, buses ++ [busId])

/-- The loop of `pci_scan` over several host controllers, with the log. -/
def loggedHosts (depth : Nat) : List Nat → σ × List Nat →
    Except Halt (HResult × (σ × List Nat))
  | [], state => .ok (.sOk, state)
  | i :: rest, state =>
    if pciGetVendorId space 0 0 i = 0xFFFF then .ok (.sOk, state)
    else do
      let (hr, state) ← loggedScanBus space params depth i state
      if hr.failed then .ok (hr, state) else loggedHosts depth rest state

/-- `pci_scan`, with the log. -/
def loggedScan (depth : Nat) (state : σ × List Nat) :
    Except Halt (HResult × (σ × List Nat)) :=
  let hdrType := pciReadConfigU8 space (makeConfigAddress 0 0 0 pciHeaderType)
  if hdrType &&& 0x80 = 0 then do
    let (hr, state) ← loggedScanBus space params depth 0 state
    if hr.failed then .ok (hr, state) else .ok (.sOk, state)
  else loggedHosts space params depth (List.range pciMaxFunctions) state

end logged

section

variable {σ : Type} {space : ConfigSpace} {params : ScanParams σ}

/-- A part of a scan returns, however deep bridges may nest, and notes the given buses when it
is run with a log. -/
def Notes (buses : List Nat) (user : σ) (plain : Nat → σ → Except Halt (HResult × σ))
    (logged : Nat → σ × List Nat → Except Halt (HResult × (σ × List Nat))) : Prop :=
  ∃ hr user', ∀ depth, plain depth user = .ok (hr, user') ∧
    ∀ seen, logged depth (user, seen) = .ok (hr, (user', seen ++ buses))

/-- A function is not taken for a bridge. -/
theorem pciScanFunction_notes (scanBus : Nat → Nat → σ → Except Halt (HResult × σ))
    (scanLogged : Nat → Nat → σ × List Nat → Except Halt (HResult × (σ × List Nat)))
    (bus device func : Nat) (user : σ) :
    Notes [] user (fun depth => pciScanFunction space params (scanBus depth) bus device func)
      (fun depth => pciScanFunction space params.logged (scanLogged depth) bus device func) := by
  simp only [Notes, pciScanFunction, read_class, read_subclass,
    if_neg (not_bridge space bus device func), ScanParams.logged, List.append_nil]
  split
  · -- the callback is invoked, and its failure ends the scan
    let answer := params.cb ⟨makeConfigAddress bus device func 0,
      pciGetVendorId space bus device func, pciGetDeviceId space bus device func⟩ user
    by_cases failed : answer.1.failed = true
    · exact ⟨answer.1, answer.2, fun _ => ⟨if_pos failed, fun _ => if_pos failed⟩⟩
    · exact ⟨.sOk, answer.2, fun _ => ⟨if_neg failed, fun _ => if_neg failed⟩⟩
  · exact ⟨.sOk, user, fun _ => ⟨rfl, fun _ => rfl⟩⟩

/-- A part of a scan goes on after its first step, unless that fails. -/
theorem Notes.bind {first : List Nat} {follows : List Nat → Prop} {user : σ}
    {plain rest : Nat → σ → Except Halt (HResult × σ)}
    {logged restLogged : Nat → σ × List Nat → Except Halt (HResult × (σ × List Nat))}
    (step : Notes first user plain logged)
    (next : ∀ user', ∃ second, follows second ∧ Notes second user' rest restLogged) :
    ∃ buses, (buses = first ∨ ∃ second, follows second ∧ buses = first ++ second) ∧
      Notes buses user
        (fun depth user => do
          let (hr, user) ← plain depth user
          if hr.failed then .ok (hr, user) else rest depth user)
        (fun depth state => do
          let (hr, state) ← logged depth state
          if hr.failed then .ok (hr, state) else restLogged depth state) := by
  obtain ⟨hr, user', stepped⟩ := step
  by_cases failed : hr.failed = true
  · -- the failure ends both runs after the same buses
    refine ⟨first, .inl rfl, hr, user', fun depth => ?_⟩
    obtain ⟨plainly, withLog⟩ := stepped depth
    constructor
    · simp only [plainly]
      exact if_pos failed
    · intro seen
      simp only [withLog]
      exact if_pos failed
  · obtain ⟨second, allowed, hr', last, finished⟩ := next user'
    refine ⟨first ++ second, .inr ⟨second, allowed, rfl⟩, hr', last, fun depth => ?_⟩
    obtain ⟨plainly, withLog⟩ := stepped depth
    obtain ⟨plainly', withLog'⟩ := finished depth
    constructor
    · simp only [plainly]
      exact (if_neg failed).trans plainly'
    · intro seen
      simp only [withLog, ← List.append_assoc]
      exact (if_neg failed).trans (withLog' _)

/-- When neither step notes a bus, nothing is noted. -/
theorem Notes.bind_nil {user : σ} {plain rest : Nat → σ → Except Halt (HResult × σ)}
    {logged restLogged : Nat → σ × List Nat → Except Halt (HResult × (σ × List Nat))}
    (step : Notes [] user plain logged) (next : ∀ user', Notes [] user' rest restLogged) :
    Notes [] user
      (fun depth user => do
        let (hr, user) ← plain depth user
        if hr.failed then .ok (hr, user) else rest depth user)
      (fun depth state => do
        let (hr, state) ← logged depth state
        if hr.failed then .ok (hr, state) else restLogged depth state) := by
  have silent : ∀ user', ∃ second, second = [] ∧ Notes second user' rest restLogged :=
    fun user' => ⟨[], rfl, next user'⟩
  obtain ⟨buses, none | ⟨_, rfl, none⟩, notes⟩ := step.bind silent
  · rwa [none] at notes
  · rwa [none] at notes

/-- A step that does nothing. -/
theorem notes_pure (hr : HResult) (user : σ) :
    Notes [] user (fun _ user => .ok (hr, user)) (fun _ state => .ok (hr, state)) :=
  ⟨hr, user, fun _ => ⟨rfl, fun seen => by rw [List.append_nil]⟩⟩

theorem scanEach_notes {body : Nat → Nat → σ → Except Halt (HResult × σ)}
    {logged : Nat → Nat → σ × List Nat → Except Halt (HResult × (σ × List Nat))}
    (turn : ∀ i user, Notes [] user (fun depth => body depth i) (fun depth => logged depth i))
    (is : List Nat) (user : σ) :
    Notes [] user (fun depth => scanEach (body depth) is)
      (fun depth => scanEach (logged depth) is) := by
  induction is generalizing user with
  | nil => exact notes_pure .sOk user
  | cons i is inductionHypothesis => exact (turn i user).bind_nil inductionHypothesis

/-- What `pci_scan_slot` does after function 0. -/
theorem otherFunctions_notes (scanBus : Nat → Nat → σ → Except Halt (HResult × σ))
    (scanLogged : Nat → Nat → σ × List Nat → Except Halt (HResult × (σ × List Nat)))
    (bus device : Nat) (user : σ) :
    Notes [] user
      (fun depth user =>
        if pciReadConfigU8 space (makeConfigAddress bus device 0 pciHeaderType) &&& 0x80 = 0 then
          .ok (.sOk, user)
        else scanEach (fun i user =>
          if pciGetVendorId space bus device i ≠ 0xFFFF then
            pciScanFunction space params (scanBus depth) bus device i user
          else .ok (.sOk, user)) (List.range' 1 (pciMaxFunctions - 1)) user)
      (fun depth state =>
        if pciReadConfigU8 space (makeConfigAddress bus device 0 pciHeaderType) &&& 0x80 = 0 then
          .ok (.sOk, state)
        else scanEach (fun i state =>
          if pciGetVendorId space bus device i ≠ 0xFFFF then
            pciScanFunction space params.logged (scanLogged depth) bus device i state
          else .ok (.sOk, state)) (List.range' 1 (pciMaxFunctions - 1)) state) := by
  split
  · exact notes_pure .sOk user
  · refine scanEach_notes (fun i user' => ?_) _ user
    split
    · exact pciScanFunction_notes scanBus scanLogged bus device i user'
    · exact notes_pure .sOk user'

theorem pciScanSlot_notes (scanBus : Nat → Nat → σ → Except Halt (HResult × σ))
    (scanLogged : Nat → Nat → σ × List Nat → Except Halt (HResult × (σ × List Nat)))
    (bus device : Nat) (user : σ) :
    Notes [] user (fun depth => pciScanSlot space params (scanBus depth) bus device)
      (fun depth => pciScanSlot space params.logged (scanLogged depth) bus device) := by
  unfold pciScanSlot
  by_cases absent : pciGetVendorId space bus device 0 = 0xFFFF
  · simp only [if_pos absent]
    exact notes_pure .sFalse user
  · simp only [if_neg absent]
    exact (pciScanFunction_notes scanBus scanLogged bus device 0 user).bind_nil
      (otherFunctions_notes scanBus scanLogged bus device)

/-- `pci_scan_bus` calls itself for no other bus. -/
theorem pciScanBus_notes (space : ConfigSpace) (params : ScanParams σ) (bus : Nat) (user : σ) :
    Notes [bus] user (fun depth => pciScanBus space params (depth + 1) bus)
      (fun depth => loggedScanBus space params (depth + 1) bus) := by
  obtain ⟨hr, user', scanned⟩ := scanEach_notes
    (pciScanSlot_notes (pciScanBus space params) (loggedScanBus space params) bus)
    (List.range pciMaxDevices) user
  refine ⟨hr, user', fun depth => ⟨(scanned depth).1, fun seen => ?_⟩⟩
  have withLog := (scanned depth).2 (seen ++ [bus])
  rwa [List.append_nil] at withLog

/-- The host controllers are scanned in turn, each once. -/
theorem scanHosts_notes (space : ConfigSpace) (params : ScanParams σ) (hosts : List Nat)
    (user : σ) :
    ∃ buses, buses.Sublist hosts ∧
      Notes buses user (fun depth => scanHosts space params (depth + 1) hosts)
        (fun depth => loggedHosts space params (depth + 1) hosts) := by
  induction hosts generalizing user with
  | nil => exact ⟨[], .refl [], notes_pure .sOk user⟩
  | cons host hosts inductionHypothesis =>
    simp only [scanHosts, loggedHosts]
    by_cases absent : pciGetVendorId space 0 0 host = 0xFFFF
    · -- the loop ends at the first host controller that is missing
      simp only [if_pos absent]
      exact ⟨[], List.nil_sublist _, notes_pure .sOk user⟩
    · simp only [if_neg absent]
      obtain ⟨buses, fromHosts, notes⟩ :=
        (pciScanBus_notes space params host user).bind inductionHypothesis
      refine ⟨buses, ?_, notes⟩
      obtain rfl | ⟨rest, sublist, rfl⟩ := fromHosts
      · exact List.cons_sublist_cons.mpr (List.nil_sublist _)
      · exact List.cons_sublist_cons.mpr sublist

/-- The log adds nothing to a scan but itself. -/
theorem pciScan_notes (space : ConfigSpace) (params : ScanParams σ) (user : σ) :
    ∃ buses : List Nat, buses.Nodup ∧
      Notes buses user (fun depth => pciScan space params (depth + 1))
        (fun depth => loggedScan space params (depth + 1)) := by
  unfold pciScan loggedScan
  by_cases single : pciReadConfigU8 space (makeConfigAddress 0 0 0 pciHeaderType) &&& 0x80 = 0
  · simp only [if_pos single]
    have silent : ∀ user' : σ, ∃ second, second = [] ∧
        Notes second user' (fun _ user => .ok (.sOk, user)) (fun _ state => .ok (.sOk, state)) :=
      fun user' => ⟨[], rfl, notes_pure .sOk user'⟩
    obtain ⟨buses, onlyFirst, notes⟩ := (pciScanBus_notes space params 0 user).bind silent
    refine ⟨buses, ?_, notes⟩
    obtain rfl | ⟨_, rfl, rfl⟩ := onlyFirst
    · exact List.nodup_singleton 0
    · exact List.nodup_singleton 0
  · simp only [if_neg single]
    obtain ⟨buses, sublist, notes⟩ :=
      scanHosts_notes space params (List.range pciMaxFunctions) user
    exact ⟨buses, List.nodup_range.sublist sublist, notes⟩

end

/-- Whatever configuration space holds, `pci_scan` returns, no deeper than one level into the
buses, and calls `pci_scan_bus` at most once for each bus number. -/
theorem pciScan_terminates {σ : Type} (space : ConfigSpace) (params : ScanParams σ) (user : σ) :
    ∃ hr user' buses, ∀ depth,
      pciScan space params (depth + 1) user = .ok (hr, user') ∧
        loggedScan space params (depth + 1) (user, []) = .ok (hr, (user', buses)) ∧
        buses.Nodup := by
  obtain ⟨buses, once, hr, user', scanned⟩ := pciScan_notes space params user
  refine ⟨hr, user', buses, fun depth => ⟨(scanned depth).1, ?_, once⟩⟩
  exact (scanned depth).2 []

end Antonix.Pci
