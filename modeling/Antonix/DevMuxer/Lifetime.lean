import Antonix.DevMuxer.Calls

/-! # Slots over their lifetime (`dev_muxer.c`)

A device that is removed is not destroyed with its last reference but with one release more, and a
call that is interrupted keeps its reference.  So the books are kept as long as no device is
removed and no call has to wait. -/

namespace Antonix.DevMuxer

open Function Event Transition

/-! ## What is to hold -/

/-- However the calls under way come to their end while `devmux_destroy` waits, it finds the count
at zero then. -/
def DestroyTerminates (s : System) : Prop :=
  ∀ ops t, (∀ op ∈ ops, op.Ends) → Run Step { s with muxer := removeAll s.muxer } ops t →
    t.calls = 0 → t.muxer.secDeviceCount = 0

/-- The slots are as their reference counts say. -/
structure InOrder (s : System) : Prop where
  counted : ∀ slot, (s.muxer.secDevices slot).initialized = true ↔
    0 < (s.muxer.secDevices slot).refCount
  summed : s.muxer.secDeviceCount = ∑ slot, (s.muxer.secDevices slot).refCount
  addable : ∀ slot : Slot, s.removed slot = true → s.waiting slot = 0 → s.forwarding slot = 0 →
    ∃ dm, devmuxAddDevice s.muxer (slot : Nat) true = .ok (.sOk, some slot, dm)
  unpanicked : ∀ slotId created, ∃ result, devmuxAddDevice s.muxer slotId created = .ok result
  destroyable : DestroyTerminates s

/-- The streams that a step destroys are those of the slots whose count it takes to zero. -/
def DestroysAtZero (s t : System) : Prop :=
  ∃ slots, t.muxer.destroyed = s.muxer.destroyed ++ slots ∧ slots.Nodup ∧ ∀ slot, slot ∈ slots ↔
    0 < (s.muxer.secDevices slot).refCount ∧ (t.muxer.secDevices slot).refCount = 0

/-- A step that is made destroys at zero and leaves all in order. -/
def KeepsOrder (s : System) (op : MuxOp) : Prop :=
  ∀ t, Step s op t → DestroysAtZero s t ∧ InOrder t

/-- No device is removed, and no call is made on a slot that is not active. -/
def Untroubled (s : System) : MuxOp → Prop
  | .remove slotId => ∀ slot : Slot, (slot : Nat) = slotId →
    (s.muxer.secDevices slot).initialized = false
  | .call slot => s.muxer.activeSlot = slot
  | _ => True

/-- A step that is made is untroubled. -/
def StaysUntroubled (s : System) (op : MuxOp) : Prop := ∀ t, Step s op t → Untroubled s op

/-- The books of a multiplexer that was not troubled so far. -/
structure Sound (s : System) : Prop where
  idle : ∀ slot, s.waiting slot = 0
  kept : ∀ slot, s.removed slot = false
  refs : ∀ slot, (s.muxer.secDevices slot).refCount =
    (if (s.muxer.secDevices slot).initialized then 1 else 0) + s.forwarding slot
  free : ∀ slot, (s.muxer.secDevices slot).initialized = false → s.forwarding slot = 0
  summed : s.muxer.secDeviceCount = ∑ slot, (s.muxer.secDevices slot).refCount
  quiet : ∀ slot, (s.muxer.secDevices slot).initialized = true →
    (s.muxer.secDevices slot).destructionEv.state = stateUnsignaled
  fits : s.calls + devMuxerMaxDevices < 2 ^ 32

section

variable {s t u : System} {op : MuxOp} {ops : List MuxOp} {slot : Slot} {dm dm' : KDevMuxer}

/-! ## Devices and references -/

/-- The number of devices. -/
def devices (dm : KDevMuxer) : Nat := devicesIn dm (List.finRange devMuxerMaxDevices)

theorem devices_le (dm : KDevMuxer) : devices dm ≤ devMuxerMaxDevices := by
  have most := @List.countP_le_length _ (fun slot => (dm.secDevices slot).initialized)
    (List.finRange devMuxerMaxDevices)
  rwa [List.length_finRange] at most

theorem sum_devices (dm : KDevMuxer) :
    ∑ slot, (if (dm.secDevices slot).initialized then 1 else 0) = devices dm := by
  rw [Fin.sum_univ_def, devices, devicesIn]
  induction List.finRange devMuxerMaxDevices with
  | nil => rfl
  | cons slot slots inductionHypothesis =>
    rw [List.map_cons, List.sum_cons, inductionHypothesis, List.countP_cons, Nat.add_comm]

theorem devices_congr
    (same : ∀ slot, (dm'.secDevices slot).initialized = (dm.secDevices slot).initialized) :
    devices dm' = devices dm := by
  unfold devices devicesIn
  apply List.countP_congr
  intro slot _
  rw [same slot]

/-- Each device has a reference, and so has each call. -/
theorem sum_refs (idle : ∀ slot, s.waiting slot = 0)
    (refs : ∀ slot, (s.muxer.secDevices slot).refCount =
      (if (s.muxer.secDevices slot).initialized then 1 else 0) + s.forwarding slot) :
    ∑ slot, (s.muxer.secDevices slot).refCount = devices s.muxer + s.calls := by
  have none : ∑ slot, s.waiting slot = 0 := Finset.sum_eq_zero fun slot _ => idle slot
  rw [calls_eq, none, Nat.zero_add, ← sum_devices, ← Finset.sum_add_distrib]
  exact Finset.sum_congr rfl fun slot _ => refs slot

theorem Sound.count_eq (sound : Sound s) :
    s.muxer.secDeviceCount = devices s.muxer + s.calls :=
  sound.summed.trans (sum_refs sound.idle sound.refs)

theorem Sound.count_lt (sound : Sound s) : s.muxer.secDeviceCount < 2 ^ 32 := by
  have most := devices_le s.muxer
  have fits := sound.fits
  rw [sound.count_eq]
  omega

theorem Sound.ref_lt (sound : Sound s) (slot : Slot) :
    (s.muxer.secDevices slot).refCount + 1 < 2 ^ 32 := by
  have most := forwarding_le s slot
  have fits : s.calls + 16 < 2 ^ 32 := sound.fits
  rw [sound.refs]
  split
  · omega
  · omega

/-! ## Steps that keep the books -/

/-- A slot as `devmux_add_device` makes it, before it takes the reference. -/
def newDevice : KDevDesc where
  refCount := 0
  initialized := true
  activationEv := eventCreate flagAutoreset
  destructionEv := eventCreate flagAutoreset

/-- What `devmux_add_device` does when it returns: nothing, or a slot that was free has a new
device and a reference for it. -/
theorem devmuxAddDevice_cases {slotId : Int} {created : Bool} {hr : HResult} {taken : Option Slot}
    (returned : devmuxAddDevice dm slotId created = .ok (hr, taken, dm')) :
    (taken = none ∧ dm' = dm) ∨ ∃ slot, taken = some slot ∧
      (dm.secDevices slot).initialized = false ∧ (dm.secDevices slot).refCount = 0 ∧
      dm' = deviceAddref { dm with secDevices := update dm.secDevices slot newDevice } slot := by
  simp only [devmuxAddDevice] at returned
  split at returned
  · obtain ⟨-, taken, left⟩ := eq_of_answered returned
    exact .inl ⟨taken.symm, left.symm⟩
  · split at returned
    · obtain ⟨-, taken, left⟩ := eq_of_answered returned
      exact .inl ⟨taken.symm, left.symm⟩
    · rename_i slot chosen
      split at returned
      · obtain ⟨-, taken, left⟩ := eq_of_answered returned
        exact .inl ⟨taken.symm, left.symm⟩
      · rename_i free
        split at returned
        · cases returned
        · rename_i unreferenced
          have none : (dm.secDevices slot).refCount = 0 := Decidable.not_not.mp unreferenced
          rw [none] at returned
          split at returned
          · obtain ⟨-, taken, left⟩ := eq_of_answered returned
            exact .inr ⟨slot, taken.symm, Bool.eq_false_of_not_eq_true free, none, left.symm⟩
          · obtain ⟨-, taken, left⟩ := eq_of_answered returned
            exact .inl ⟨taken.symm, left.symm⟩

/-- Without a reference to a free slot `devmux_add_device` returns. -/
theorem devmuxAddDevice_returns
    (free : ∀ slot, (dm.secDevices slot).initialized = false → (dm.secDevices slot).refCount = 0)
    (slotId : Int) (created : Bool) : ∃ result, devmuxAddDevice dm slotId created = .ok result := by
  simp only [devmuxAddDevice]
  split
  · exact ⟨_, rfl⟩
  · split
    · exact ⟨_, rfl⟩
    · rename_i slot chosen
      split
      · exact ⟨_, rfl⟩
      · rename_i notTaken
        rw [if_neg (not_not.mpr (free slot (Bool.eq_false_of_not_eq_true notTaken)))]
        split
        · exact ⟨_, rfl⟩
        · exact ⟨_, rfl⟩

/-- A step keeps the books, destroys nothing and takes no count to zero. -/
structure Keeps (s t : System) : Prop where
  sound : Sound t
  destroyed : t.muxer.destroyed = s.muxer.destroyed
  refs : ∀ slot, 0 < (s.muxer.secDevices slot).refCount →
    0 < (t.muxer.secDevices slot).refCount

theorem Sound.keeps_self (sound : Sound s) : Keeps s s := ⟨sound, rfl, fun _ held => held⟩

/-- One reference more in a slot is one more altogether. -/
theorem summed_addref (refs : ∀ i ≠ slot,
      (t.muxer.secDevices i).refCount = (s.muxer.secDevices i).refCount)
    (more : (t.muxer.secDevices slot).refCount = (s.muxer.secDevices slot).refCount + 1)
    (count : t.muxer.secDeviceCount = u32 (s.muxer.secDeviceCount + 1))
    (summed : s.muxer.secDeviceCount = ∑ slot, (s.muxer.secDevices slot).refCount)
    (fits : ∑ slot, (t.muxer.secDevices slot).refCount < 2 ^ 32) :
    t.muxer.secDeviceCount = ∑ slot, (t.muxer.secDevices slot).refCount := by
  have sums := @sum_of_one slot _ _ refs
  rw [more] at sums
  have total : s.muxer.secDeviceCount + 1 = ∑ slot, (t.muxer.secDevices slot).refCount := by omega
  rw [count, total, u32_of_lt fits]

/-- References are as calls and devices are when they are so in the slot that a step is about. -/
theorem Sound.refs_of_one (sound : Sound s)
    (others : ∀ i ≠ slot, t.muxer.secDevices i = s.muxer.secDevices i)
    (forwards : ∀ i ≠ slot, t.forwarding i = s.forwarding i)
    (here : (t.muxer.secDevices slot).refCount =
      (if (t.muxer.secDevices slot).initialized then 1 else 0) + t.forwarding slot) :
    ∀ i, (t.muxer.secDevices i).refCount =
      (if (t.muxer.secDevices i).initialized then 1 else 0) + t.forwarding i := by
  intro i
  by_cases same : i = slot
  · rw [same, here]
  · rw [others i same, forwards i same]
    exact sound.refs i

/-- A step in one slot keeps the books when it keeps them there. -/
theorem Sound.keeps_of_one (sound : Sound s)
    (others : ∀ i ≠ slot, t.muxer.secDevices i = s.muxer.secDevices i)
    (forwards : ∀ i ≠ slot, t.forwarding i = s.forwarding i)
    (refs : ∀ i, (t.muxer.secDevices i).refCount =
      (if (t.muxer.secDevices i).initialized then 1 else 0) + t.forwarding i)
    (idle : ∀ i, t.waiting i = 0) (kept : ∀ i, t.removed i = false)
    (free : (t.muxer.secDevices slot).initialized = false → t.forwarding slot = 0)
    (summed : t.muxer.secDeviceCount = ∑ i, (t.muxer.secDevices i).refCount)
    (quiet : (t.muxer.secDevices slot).destructionEv.state = stateUnsignaled)
    (fits : t.calls + devMuxerMaxDevices < 2 ^ 32)
    (destroyed : t.muxer.destroyed = s.muxer.destroyed)
    (held : 0 < (t.muxer.secDevices slot).refCount) : Keeps s t where
  sound := {
    idle := idle
    kept := kept
    refs := refs
    free := by
      intro i unused
      by_cases same : i = slot
      · subst same
        exact free unused
      · rw [others i same] at unused
        exact (forwards i same).trans (sound.free i unused)
    summed := summed
    quiet := by
      intro i device
      by_cases same : i = slot
      · rw [same, quiet]
      · rw [others i same] at device ⊢
        exact sound.quiet i device
    fits := fits }
  destroyed := destroyed
  refs := by
    intro i before
    by_cases same : i = slot
    · rw [same]
      exact held
    · rwa [others i same]

theorem Sound.add {slotId : Int} {created : Bool} {hr : HResult} {taken : Option Slot}
    (sound : Sound s) (returned : devmuxAddDevice s.muxer slotId created = .ok (hr, taken, dm)) :
    Keeps s { s with muxer := dm, removed := removedUntil s taken } := by
  obtain ⟨rfl, rfl⟩ | ⟨slot, rfl, free, unreferenced, rfl⟩ := devmuxAddDevice_cases returned
  · exact sound.keeps_self
  · let t : System :=
      { s with
        muxer := deviceAddref
          { s.muxer with secDevices := update s.muxer.secDevices slot newDevice } slot
        removed := removedUntil s (some slot) }
    have here : t.muxer.secDevices slot = { newDevice with refCount := 1 } := by
      simp [t, newDevice, u32]
    have others : ∀ i ≠ slot, t.muxer.secDevices i = s.muxer.secDevices i := by
      intro i other
      rw [deviceAddref_of_ne other]
      exact update_of_ne other _ _
    have none : t.forwarding slot = 0 := sound.free slot free
    have refs := sound.refs_of_one (t := t) others (fun _ _ => rfl) (by rw [here, none]; rfl)
    have total := @sum_refs t sound.idle refs
    have fits : t.calls + 16 < 2 ^ 32 := sound.fits
    have most : devices t.muxer ≤ 16 := devices_le _
    have summed : t.muxer.secDeviceCount = ∑ i, (t.muxer.secDevices i).refCount := by
      apply summed_addref (t := t) (fun i other => by rw [others i other]) ?_ rfl sound.summed
      · omega
      · rw [here, unreferenced]
    have kept : ∀ i, t.removed i = false := by
      intro i
      by_cases same : i = slot
      · simp [t, removedUntil, same]
      · simpa [t, removedUntil, same] using sound.kept i
    exact sound.keeps_of_one (t := t) others (fun _ _ => rfl) refs sound.idle kept (fun _ => none)
      summed (by rw [here]; rfl) fits rfl (by rw [here]; exact Nat.one_pos)

theorem Sound.switchTo (sound : Sound s) (slotId : Nat) :
    Keeps s { s with muxer := devmuxSwitchTo s.muxer slotId } := by
  obtain ⟨count, destroyed, slots⟩ := @devmuxSwitchTo_spec s.muxer slotId
  refine ⟨⟨sound.idle, sound.kept, ?_, ?_, ?_, ?_, sound.fits⟩, destroyed, ?_⟩
  · intro i
    rw [(slots i).1, (slots i).2.1]
    exact sound.refs i
  · intro i free
    rw [(slots i).2.1] at free
    exact sound.free i free
  · rw [count, sound.summed]
    exact Finset.sum_congr rfl fun i _ => (slots i).1.symm
  · intro i device
    rw [(slots i).2.1] at device
    rw [(slots i).2.2]
    exact sound.quiet i device
  · intro i held
    rwa [(slots i).1]

/-- A slot without a device is not removed. -/
theorem Sound.remove {slotId : Nat} (sound : Sound s)
    (free : ∀ slot : Slot, (slot : Nat) = slotId →
      (s.muxer.secDevices slot).initialized = false) :
    Keeps s { s with
      muxer := (devmuxRemoveDevice s.muxer slotId).2
      removed := removedAfter s slotId } := by
  have refused : devmuxRemoveDevice s.muxer slotId = (.eInvalidArg, s.muxer) := by
    unfold devmuxRemoveDevice
    split
    case isTrue inside => exact removeFromSlot_free (free ⟨slotId, inside⟩ rfl)
    case isFalse => rfl
  have same : removedAfter s slotId = s.removed := by
    rw [removedAfter, refused]
    exact if_neg (by simp)
  rw [refused, same]
  exact sound.keeps_self

theorem Sound.call (sound : Sound s) (stream : (s.muxer.secDevices slot).initialized = true)
    (threads : s.calls + devMuxerMaxDevices + 1 < 2 ^ 32) :
    Keeps s { s with
      muxer := deviceAddref s.muxer slot
      forwarding := update s.forwarding slot (s.forwarding slot + 1) } := by
  let t : System :=
    { s with
      muxer := deviceAddref s.muxer slot
      forwarding := update s.forwarding slot (s.forwarding slot + 1) }
  have here : t.muxer.secDevices slot =
      { s.muxer.secDevices slot with refCount := (s.muxer.secDevices slot).refCount + 1 } := by
    simp only [t, deviceAddref_self, u32_of_lt (sound.ref_lt slot)]
  have others : ∀ i ≠ slot, t.muxer.secDevices i = s.muxer.secDevices i :=
    fun i other => deviceAddref_of_ne other
  have calls : t.calls = s.calls + 1 := by
    have one := @calls_of_one s t slot (fun _ _ => rfl) fun i other => update_of_ne other _ _
    have more : t.forwarding slot = s.forwarding slot + 1 := update_self _ _ _
    have waits : t.waiting slot = s.waiting slot := rfl
    omega
  have more : t.forwarding slot = s.forwarding slot + 1 := update_self _ _ _
  have forwards : ∀ i ≠ slot, t.forwarding i = s.forwarding i :=
    fun i other => update_of_ne other _ _
  have refs := sound.refs_of_one (t := t) others forwards (by
    rw [here, more, ← Nat.add_assoc, ← sound.refs slot])
  have total := @sum_refs t sound.idle refs
  have threads' : s.calls + 16 + 1 < 2 ^ 32 := threads
  have most : devices t.muxer ≤ 16 := devices_le _
  have summed : t.muxer.secDeviceCount = ∑ i, (t.muxer.secDevices i).refCount := by
    apply summed_addref (t := t) (fun i other => by rw [others i other]) ?_ rfl sound.summed
    · omega
    · rw [here]
  have device : (t.muxer.secDevices slot).initialized = true := by rw [here, stream]
  have fits : t.calls + 16 < 2 ^ 32 := by omega
  exact sound.keeps_of_one (t := t) others forwards refs sound.idle sound.kept
    (fun unused => absurd device (by simp [unused])) summed
    (by rw [here]; exact sound.quiet slot stream) fits rfl (by rw [here]; exact Nat.succ_pos _)

/-- A call that is forwarded leaves the reference of its device. -/
theorem Sound.forwarded (sound : Sound s) (forwards : 0 < s.forwarding slot) :
    Keeps s { s with
      muxer := deviceRelease s.muxer slot
      forwarding := update s.forwarding slot (s.forwarding slot - 1) } := by
  let t : System :=
    { s with
      muxer := deviceRelease s.muxer slot
      forwarding := update s.forwarding slot (s.forwarding slot - 1) }
  have device : (s.muxer.secDevices slot).initialized = true := by
    cases taken : (s.muxer.secDevices slot).initialized with
    | true => rfl
    | false =>
      have none := sound.free slot taken
      omega
  have count : (s.muxer.secDevices slot).refCount = 1 + s.forwarding slot := by
    rw [sound.refs, device]
    rfl
  have held : (s.muxer.secDevices slot).refCount ≠ 0 := by omega
  have bound := sound.ref_lt slot
  have here : t.muxer.secDevices slot =
      { s.muxer.secDevices slot with refCount := (s.muxer.secDevices slot).refCount - 1 } := by
    simp only [t, deviceRelease_self held]
    rw [sub32_of_le (by omega) (by omega)]
  have others : ∀ i ≠ slot, t.muxer.secDevices i = s.muxer.secDevices i :=
    fun i other => deviceRelease_of_ne other
  have fewer : t.forwarding slot = s.forwarding slot - 1 := update_self _ _ _
  have calls : t.calls + 1 = s.calls := calls_of_forwarded forwards
  have forwards' : ∀ i ≠ slot, t.forwarding i = s.forwarding i :=
    fun i other => update_of_ne other _ _
  have refs := sound.refs_of_one (t := t) others forwards' (by
    rw [here, fewer]
    simp only [device, count, if_true]
    omega)
  have summed : t.muxer.secDeviceCount = ∑ i, (t.muxer.secDevices i).refCount := by
    have sums := @sum_of_one slot (fun i => (s.muxer.secDevices i).refCount)
      (fun i => (t.muxer.secDevices i).refCount) fun i other => by rw [others i other]
    have less : (t.muxer.secDevices slot).refCount = s.forwarding slot := by
      rw [here]
      simp only [count]
      omega
    have summed := sound.summed
    have small := sound.count_lt
    change (deviceRelease s.muxer slot).secDeviceCount = ∑ i, (t.muxer.secDevices i).refCount
    rw [deviceRelease_secDeviceCount, sub32_of_le (by omega) small]
    omega
  have stays : (t.muxer.secDevices slot).initialized = true := by rw [here, device]
  have fits : t.calls + 16 < 2 ^ 32 := by
    have before : s.calls + 16 < 2 ^ 32 := sound.fits
    omega
  exact sound.keeps_of_one (t := t) others forwards' refs sound.idle sound.kept
    (fun unused => absurd stays (by simp [unused])) summed
    (by rw [here]; exact sound.quiet slot device) fits (deviceRelease_destroyed held)
    (by rw [here]; simp only [count]; omega)

/-- An untroubled step keeps the books. -/
theorem Sound.step (sound : Sound s) (untroubled : Untroubled s op) (taken : Step s op t) :
    Keeps s t := by
  cases taken with
  | add returned => exact sound.add returned
  | remove slotId => exact sound.remove untroubled
  | switchTo slotId => exact sound.switchTo slotId
  | callActive stream threads active => exact sound.call stream threads
  | callInactive stream threads inactive => exact absurd untroubled inactive
  | activated waits signaled => exact absurd (sound.idle _) (Nat.ne_of_gt waits)
  | interrupted waits signaled => exact absurd (sound.idle _) (Nat.ne_of_gt waits)
  | waitFailed waits => exact absurd (sound.idle _) (Nat.ne_of_gt waits)
  | forwarded forwards => exact sound.forwarded forwards

/-! ## Destroying the multiplexer -/

theorem removeAll_spec (dm : KDevMuxer) (small : dm.secDeviceCount < 2 ^ 32) :
    (removeAll dm).secDeviceCount < 2 ^ 32 ∧
      ((removeAll dm).secDeviceCount + devices dm) % 2 ^ 32 = dm.secDeviceCount ∧
      ∀ i, (dm.secDevices i).initialized = true →
        ((removeAll dm).secDevices i).destructionEv =
          eventSignal (dm.secDevices i).destructionEv := by
  obtain ⟨bound, count, -, signaled⟩ :=
    removeLoop_spec (List.nodup_finRange devMuxerMaxDevices) dm small
  rw [removeAll_eq]
  exact ⟨bound, count, fun i device => signaled i (List.mem_finRange i) device⟩

/-- The count goes down with the calls under way when none of them keeps its reference. -/
theorem destroyTerminates_of (idle : ∀ slot, s.waiting slot = 0)
    (count : (removeAll s.muxer).secDeviceCount = s.calls) (small : s.calls < 2 ^ 32) :
    DestroyTerminates s := by
  intro ops t ends run done
  have guarded : Run (Guarded (fun _ op => op.Ends) Step) _ ops t :=
    run.guarded fun op member _ => ends op member
  have books := guarded.invariant
    (fun t => (∀ slot, t.waiting slot = 0) ∧ t.muxer.secDeviceCount = t.calls ∧ t.calls < 2 ^ 32)
    ?_ ⟨idle, count, small⟩
  · rw [books.2.1, done]
  · rintro s op t ⟨idle, count, small⟩ ⟨ends, taken⟩
    cases taken with
    | add returned => cases ends
    | remove slotId => cases ends
    | switchTo slotId => cases ends
    | callActive stream threads active => cases ends
    | callInactive stream threads inactive => cases ends
    | activated waits signaled => exact absurd (idle _) (Nat.ne_of_gt waits)
    | interrupted waits signaled => exact absurd (idle _) (Nat.ne_of_gt waits)
    | waitFailed waits => exact absurd (idle _) (Nat.ne_of_gt waits)
    | @forwarded slot forwards =>
      let t : System :=
        { s with
          muxer := deviceRelease s.muxer slot
          forwarding := update s.forwarding slot (s.forwarding slot - 1) }
      have fewer : t.calls + 1 = s.calls := calls_of_forwarded forwards
      refine ⟨idle, ?_, ?_⟩
      · change (deviceRelease s.muxer slot).secDeviceCount = t.calls
        rw [deviceRelease_secDeviceCount, count, sub32_of_le (by omega) small]
        omega
      · change t.calls < 2 ^ 32
        omega

/-- A release is one call less, and one reference less. -/
theorem count_release {t : System} (small : s.muxer.secDeviceCount < 2 ^ 32)
    (released : t.muxer.secDeviceCount = sub32 s.muxer.secDeviceCount 1)
    (fewer : t.calls + 1 = s.calls) :
    t.muxer.secDeviceCount < 2 ^ 32 ∧
      (t.muxer.secDeviceCount + s.calls) % 2 ^ 32 =
        (s.muxer.secDeviceCount + t.calls) % 2 ^ 32 := by
  rw [released, ← fewer]
  unfold sub32 u32
  omega

/-- All calls under way can come to an end with a release. -/
theorem exists_drain (n : Nat) : ∀ s : System, s.calls = n → s.muxer.secDeviceCount < 2 ^ 32 →
    ∃ ops t, (∀ op ∈ ops, op.Ends) ∧ Run Step s ops t ∧ t.calls = 0 ∧
      (t.muxer.secDeviceCount + n) % 2 ^ 32 = s.muxer.secDeviceCount := by
  induction n with
  | zero =>
    intro s none small
    exact ⟨[], s, by simp, .nil s, none, Nat.mod_eq_of_lt small⟩
  | succ n inductionHypothesis =>
    intro s some small
    have goesOn : ∀ op t, op.Ends → Step s op t → t.calls + 1 = s.calls →
        t.muxer.secDeviceCount = sub32 s.muxer.secDeviceCount 1 →
        ∃ ops t, (∀ op ∈ ops, op.Ends) ∧ Run Step s ops t ∧ t.calls = 0 ∧
          (t.muxer.secDeviceCount + (n + 1)) % 2 ^ 32 = s.muxer.secDeviceCount := by
      intro op t ends taken fewer released
      obtain ⟨small', count⟩ := count_release small released fewer
      obtain ⟨ops, u, ends', run, done, drained⟩ :=
        inductionHypothesis t (by omega) small'
      refine ⟨op :: ops, u, List.forall_mem_cons.mpr ⟨ends, ends'⟩, .cons taken run, done, ?_⟩
      omega
    obtain ⟨slot, -, busy⟩ := Finset.exists_ne_zero_of_sum_ne_zero
      (show ∑ slot, (s.waiting slot + s.forwarding slot) ≠ 0 from by
        change s.calls ≠ 0
        omega)
    by_cases waits : 0 < s.waiting slot
    · exact goesOn (.waitFailed slot) _ trivial (.waitFailed waits) (calls_of_waited waits)
        deviceRelease_secDeviceCount
    · have forwards : 0 < s.forwarding slot := by omega
      exact goesOn (.forwarded slot) _ trivial (.forwarded forwards) (calls_of_forwarded forwards)
        deviceRelease_secDeviceCount

/-- Where at some time the count is not that of the calls under way, it does not end at zero. -/
theorem not_destroyTerminates (ends : ∀ op ∈ ops, op.Ends)
    (run : Run Step { s with muxer := removeAll s.muxer } ops u)
    (small : u.muxer.secDeviceCount < 2 ^ 32)
    (differ : u.muxer.secDeviceCount ≠ u.calls % 2 ^ 32) : ¬ DestroyTerminates s := by
  intro terminates
  obtain ⟨ops', t, ends', run', done, drained⟩ := exists_drain u.calls u rfl small
  have zero := terminates (ops ++ ops') t (List.forall_mem_append.mpr ⟨ends, ends'⟩)
    (run.append run') done
  rw [zero, Nat.zero_add] at drained
  exact differ drained.symm

/-! ## Untroubled runs -/

theorem Sound.inOrder (sound : Sound s) : InOrder s where
  counted := by
    intro slot
    rw [sound.refs slot]
    cases taken : (s.muxer.secDevices slot).initialized with
    | true => simp
    | false => simp [sound.free slot taken]
  summed := sound.summed
  addable := by
    intro slot removed
    rw [sound.kept slot] at removed
    cases removed
  unpanicked := by
    apply devmuxAddDevice_returns
    intro slot free
    rw [sound.refs slot, free, sound.free slot free]
    rfl
  destroyable := by
    obtain ⟨bound, count, -⟩ := removeAll_spec s.muxer sound.count_lt
    have fits : s.calls + 16 < 2 ^ 32 := sound.fits
    have most : devices s.muxer ≤ 16 := devices_le _
    have calls := sound.count_eq
    exact destroyTerminates_of sound.idle (by omega) (by omega)

theorem Keeps.destroysAtZero (keeps : Keeps s t) : DestroysAtZero s t := by
  refine ⟨[], by rw [keeps.destroyed, List.append_nil], List.nodup_nil, fun slot => ?_⟩
  constructor
  · intro member
    cases member
  · rintro ⟨held, zero⟩
    have more := keeps.refs slot held
    omega

/-- A removal leaves the multiplexer with one reference too few for `devmux_destroy`. -/
theorem Sound.not_destroyTerminates_remove (sound : Sound s) (slot : Slot)
    (device : (s.muxer.secDevices slot).initialized = true) :
    ¬ DestroyTerminates { s with
      muxer := (devmuxRemoveDevice s.muxer slot).2
      removed := removedAfter s slot } := by
  have held : (s.muxer.secDevices slot).refCount ≠ 0 := by
    rw [sound.refs slot, device]
    simp
  have count := removeFromSlot_secDeviceCount device
  have same : devices (removeFromSlot s.muxer slot).2 = devices s.muxer := by
    apply devices_congr
    intro i
    by_cases here : i = slot
    · rw [here, removeFromSlot_initialized device held, device]
    · rw [removeFromSlot_of_ne here]
  have small : (removeFromSlot s.muxer slot).2.secDeviceCount < 2 ^ 32 := by
    rw [count]
    exact u32_lt _
  obtain ⟨bound, all, -⟩ := removeAll_spec _ small
  rw [devmuxRemoveDevice_slot]
  refine not_destroyTerminates (by simp) (.nil _) bound ?_
  rw [same, count, sound.count_eq, sub32, u32] at all
  change (removeAll (removeFromSlot s.muxer slot).2).secDeviceCount ≠ s.calls % 2 ^ 32
  omega

/-- A call that waits is interrupted by `devmux_destroy`, and its reference stays. -/
theorem Sound.not_destroyTerminates_call (sound : Sound s)
    (stream : (s.muxer.secDevices slot).initialized = true)
    (threads : s.calls + devMuxerMaxDevices + 1 < 2 ^ 32) :
    ¬ DestroyTerminates { s with
      muxer := deviceAddref s.muxer slot
      waiting := update s.waiting slot (s.waiting slot + 1) } := by
  let t : System :=
    { s with
      muxer := deviceAddref s.muxer slot
      waiting := update s.waiting slot (s.waiting slot + 1) }
  have threads' : s.calls + 16 + 1 < 2 ^ 32 := threads
  have most : devices s.muxer ≤ 16 := devices_le _
  have count : t.muxer.secDeviceCount = devices s.muxer + s.calls + 1 := by
    have before := sound.count_eq
    change u32 (s.muxer.secDeviceCount + 1) = _
    rw [before, u32_of_lt (by omega)]
  have devices' : devices t.muxer = devices s.muxer := by
    apply devices_congr
    intro i
    by_cases here : i = slot
    · simp [t, here]
    · rw [deviceAddref_of_ne here]
  obtain ⟨bound, all, signaled⟩ := removeAll_spec t.muxer (by omega)
  have device : (t.muxer.secDevices slot).initialized = true := by simp [t, stream]
  have quiet : (t.muxer.secDevices slot).destructionEv.state = stateUnsignaled := by
    simp only [t, deviceAddref_self]
    exact sound.quiet slot stream
  have signal : ((removeAll t.muxer).secDevices slot).destructionEv.state ≠ stateUnsignaled := by
    rw [signaled slot device]
    simp [eventSignal, quiet, u32]
  have waits : t.waiting slot = 1 := by
    simp [t, sound.idle slot]
  have taken : Step { t with muxer := removeAll t.muxer } (.interrupted slot)
      { t with
        muxer := pollDestruction (removeAll t.muxer) slot
        waiting := update t.waiting slot (t.waiting slot - 1) } :=
    .interrupted (by rw [waits]; exact Nat.one_pos) signal
  refine not_destroyTerminates ?_ (.single taken) bound ?_
  · exact List.forall_mem_singleton.mpr trivial
  · have calls : System.calls { t with
        muxer := pollDestruction (removeAll t.muxer) slot
        waiting := update t.waiting slot (t.waiting slot - 1) } = s.calls := by
      have waiting : update t.waiting slot (t.waiting slot - 1) = s.waiting := by
        have zero : 1 - 1 = s.waiting slot := (sound.idle slot).symm
        rw [waits, update_idem, zero, update_eq_self]
      rw [System.calls, System.calls, waiting]
    rw [calls]
    change (removeAll t.muxer).secDeviceCount ≠ s.calls % 2 ^ 32
    omega

/-- Of a sound multiplexer, a step keeps it in order exactly when it is untroubled. -/
theorem Sound.keepsOrder_iff (sound : Sound s) (op : MuxOp) :
    KeepsOrder s op ↔ StaysUntroubled s op := by
  constructor
  · intro keeps t taken
    have order := (keeps t taken).2
    cases taken with
    | remove slotId =>
      rintro slot rfl
      cases device : (s.muxer.secDevices slot).initialized with
      | false => rfl
      | true => exact absurd order.destroyable (sound.not_destroyTerminates_remove slot device)
    | callActive stream threads active => exact active
    | callInactive stream threads inactive =>
      exact absurd order.destroyable (sound.not_destroyTerminates_call stream threads)
    | _ => trivial
  · intro untroubled t taken
    have keeps := sound.step (untroubled t taken) taken
    exact ⟨keeps.destroysAtZero, keeps.sound.inOrder⟩

theorem sound_created : Sound created where
  idle := fun _ => rfl
  kept := fun _ => rfl
  refs := fun _ => rfl
  free := fun _ _ => rfl
  summed := by
    change 0 = ∑ slot : Slot, 0
    simp
  quiet := fun _ _ => rfl
  fits := by
    have none : created.calls = 0 := by
      change ∑ slot : Slot, 0 = 0
      simp
    rw [none]
    simp [devMuxerMaxDevices]

end

/-- A new multiplexer is in order, and along any sequence of additions, removals, switches and steps
of calls it stays so exactly as long as no device is removed from a slot and no call is made on a
slot that is not active. -/
theorem devmux_inOrder_iff (ops : List MuxOp) :
    InOrder created ∧
      (Along Step KeepsOrder created ops ↔ Along Step StaysUntroubled created ops) := by
  refine ⟨sound_created.inOrder, ?_⟩
  refine Along.iff_of_inv Sound (fun _ _ => trivial) ?_ ?_ sound_created
  · intro s op sound _
    exact sound.keepsOrder_iff op
  · intro s op t sound _ untroubled taken
    exact (sound.step (untroubled t taken) taken).sound

/-- A device that is added and removed leaves its slot taken without a reference; removed once
more, the slot is free with a count that has wrapped around, and the next addition panics. -/
theorem devmux_remove_disorder : ∃ s t, Run Step created [.add 0 true, .remove 0] s ∧
    ¬ InOrder s ∧ Run Step s [.remove 0] t ∧
    devmuxAddDevice t.muxer 0 true = .error (.panic "Unexpected error.") := by
  refine ⟨_, _, .cons (.add rfl) (.single (.remove 0)), ?_, .single (.remove 0), rfl⟩
  intro order
  have held := (order.counted 0).mp rfl
  exact Nat.lt_irrefl 0 held

end Antonix.DevMuxer
