import Mathlib.Logic.Function.Basic
import Antonix.SyncObjs.Event

/-! # The device multiplexer (`dev_muxer.c`)

The slots of a multiplexer count their references, one for the device in the slot and one for
every call that is forwarded for it.  `device_release` looks at the count that it finds, not at
the one that it leaves.  What a thread does while it holds `sec_devices_lock` or the lock of a
slot is one step; the mutexes are recursive. -/

namespace Antonix.DevMuxer

open Function Event

/-- `DEV_MUXER_MAX_DEVICES` -/
abbrev devMuxerMaxDevices : Nat := 16

abbrev Slot : Type := Fin devMuxerMaxDevices

/-- `K_DEV_DESC`; the stream is there while `initialized` is set. -/
structure KDevDesc where
  refCount : Nat
  initialized : Bool
  activationEv : KEvent
  destructionEv : KEvent

/-- `K_DEV_MUXER`, what its secondary devices are about.  `destroyed` are the slots whose stream
was passed to `vstream_destroy`, in order. -/
structure KDevMuxer where
  activeSlot : Nat
  secDevices : Slot → KDevDesc
  secDeviceCount : Nat
  destroyed : List Slot

/-- `devmux_create_intrnl`; the memory is zeroed. -/
def devmuxCreate : KDevMuxer where
  activeSlot := 0
  secDevices := fun _ => ⟨0, false, eventCreate 0, eventCreate 0⟩
  secDeviceCount := 0
  destroyed := []

/-- `device_addref` -/
def deviceAddref (dm : KDevMuxer) (slot : Slot) : KDevMuxer :=
  let dd := dm.secDevices slot
  { dm with
    secDevices := update dm.secDevices slot { dd with refCount := u32 (dd.refCount + 1) }
    secDeviceCount := u32 (dm.secDeviceCount + 1) }

/-- `device_release` -/
def deviceRelease (dm : KDevMuxer) (slot : Slot) : KDevMuxer :=
  let dd := dm.secDevices slot
  let cnt := dd.refCount
  let dd := { dd with refCount := sub32 dd.refCount 1 }
  let secDeviceCount := sub32 dm.secDeviceCount 1
  -- `cnt` is the count before the release
  if cnt = 0 then
    { dm with
      secDevices := update dm.secDevices slot { dd with initialized := false }
      secDeviceCount
      destroyed := dm.destroyed ++ [slot] }
  else { dm with secDevices := update dm.secDevices slot dd, secDeviceCount }

/-- The slot that `devmux_add_device` takes: the one asked for, or the first free one. -/
def chooseSlot (dm : KDevMuxer) (slotId : Int) : Option Slot :=
  if slotId = -1 then (List.finRange devMuxerMaxDevices).find? fun i => !(dm.secDevices i).initialized
  else (List.finRange devMuxerMaxDevices).find? fun i => (i : Nat) = slotId

/-- `devmux_add_device`: the status, the slot on success, and what it leaves.  `created` says that
`vstream_create` gets its memory. -/
def devmuxAddDevice (dm : KDevMuxer) (slotId : Int) (created : Bool) :
    Except Halt (HResult × Option Slot × KDevMuxer) :=
  if slotId < -1 ∨ slotId ≥ devMuxerMaxDevices then .ok (.eInvalidArg, none, dm)
  else
    match chooseSlot dm slotId with
    | none => .ok (.eFail, none, dm)
    | some slot =>
      let dd := dm.secDevices slot
      if dd.initialized then .ok (.eInvalidArg, none, dm)
      else if dd.refCount ≠ 0 then .error (.panic "Unexpected error.")
      else if created then
        let dd := {
          refCount := dd.refCount
          initialized := true
          activationEv := eventCreate flagAutoreset
          destructionEv := eventCreate flagAutoreset }
        .ok (.sOk, some slot,
          deviceAddref { dm with secDevices := update dm.secDevices slot dd } slot)
      else .ok (.eFail, none, dm)

/-- `devmux_remove_device` of a slot that there is. -/
def removeFromSlot (dm : KDevMuxer) (slot : Slot) : HResult × KDevMuxer :=
  let dd := dm.secDevices slot
  if dd.initialized then
    let dd := { dd with destructionEv := eventSignal dd.destructionEv }
    (.sOk, deviceRelease { dm with secDevices := update dm.secDevices slot dd } slot)
  else (.eInvalidArg, dm)

/-- `devmux_remove_device` -/
def devmuxRemoveDevice (dm : KDevMuxer) (slotId : Nat) : HResult × KDevMuxer :=
  if inside : slotId < devMuxerMaxDevices then removeFromSlot dm ⟨slotId, inside⟩
  else (.eInvalidArg, dm)

/-- `devmux_switch_to`; its status is not set when it succeeds. -/
def devmuxSwitchTo (dm : KDevMuxer) (slotId : Nat) : KDevMuxer :=
  if inside : slotId < devMuxerMaxDevices then
    let slot : Slot := ⟨slotId, inside⟩
    let dd := dm.secDevices slot
    if dd.initialized then
      { dm with
        activeSlot := slotId
        secDevices := update dm.secDevices slot
          { dd with activationEv := eventSignal dd.activationEv } }
    else dm
  else dm

/-- The loop of `devmux_destroy` that removes all devices. -/
def removeAll (dm : KDevMuxer) : KDevMuxer :=
  (List.finRange devMuxerMaxDevices).foldl (fun dm (i : Slot) => (devmuxRemoveDevice dm i).2) dm

/-! ## What the references do to a slot -/

section

variable {dm : KDevMuxer} {slot i : Slot}

@[simp] theorem deviceAddref_secDeviceCount :
    (deviceAddref dm slot).secDeviceCount = u32 (dm.secDeviceCount + 1) := rfl

@[simp] theorem deviceAddref_activeSlot : (deviceAddref dm slot).activeSlot = dm.activeSlot := rfl

@[simp] theorem deviceAddref_destroyed : (deviceAddref dm slot).destroyed = dm.destroyed := rfl

@[simp] theorem deviceAddref_self : (deviceAddref dm slot).secDevices slot =
    { dm.secDevices slot with refCount := u32 ((dm.secDevices slot).refCount + 1) } :=
  update_self _ _ _

theorem deviceAddref_of_ne (other : i ≠ slot) :
    (deviceAddref dm slot).secDevices i = dm.secDevices i := update_of_ne other _ _

@[simp] theorem deviceRelease_secDeviceCount :
    (deviceRelease dm slot).secDeviceCount = sub32 dm.secDeviceCount 1 := by
  simp only [deviceRelease]
  split
  · rfl
  · rfl

@[simp] theorem deviceRelease_activeSlot :
    (deviceRelease dm slot).activeSlot = dm.activeSlot := by
  simp only [deviceRelease]
  split
  · rfl
  · rfl

/-- A release that finds a reference only counts it down. -/
theorem deviceRelease_self (held : (dm.secDevices slot).refCount ≠ 0) :
    (deviceRelease dm slot).secDevices slot =
      { dm.secDevices slot with refCount := sub32 (dm.secDevices slot).refCount 1 } := by
  simp only [deviceRelease, if_neg held, update_self]

theorem deviceRelease_of_ne (other : i ≠ slot) :
    (deviceRelease dm slot).secDevices i = dm.secDevices i := by
  simp only [deviceRelease]
  split
  · exact update_of_ne other _ _
  · exact update_of_ne other _ _

theorem deviceRelease_destroyed (held : (dm.secDevices slot).refCount ≠ 0) :
    (deviceRelease dm slot).destroyed = dm.destroyed := by
  simp only [deviceRelease, if_neg held]

/-- A slot goes on with its destruction event whatever a release does to it. -/
@[simp] theorem deviceRelease_destructionEv :
    ((deviceRelease dm slot).secDevices i).destructionEv =
      (dm.secDevices i).destructionEv := by
  by_cases same : i = slot
  · subst same
    simp only [deviceRelease]
    split
    · simp
    · simp
  · rw [deviceRelease_of_ne same]

/-! ## Removing a device -/

theorem removeFromSlot_free (free : (dm.secDevices slot).initialized = false) :
    removeFromSlot dm slot = (.eInvalidArg, dm) := by
  simp [removeFromSlot, free]

@[simp] theorem removeFromSlot_activeSlot :
    (removeFromSlot dm slot).2.activeSlot = dm.activeSlot := by
  simp only [removeFromSlot]
  split
  · simp
  · rfl

theorem removeFromSlot_of_ne (other : i ≠ slot) :
    (removeFromSlot dm slot).2.secDevices i = dm.secDevices i := by
  simp only [removeFromSlot]
  split
  · rw [deviceRelease_of_ne other]
    exact update_of_ne other _ _
  · rfl

/-- The count goes down by one for a device that is removed. -/
theorem removeFromSlot_secDeviceCount (taken : (dm.secDevices slot).initialized = true) :
    (removeFromSlot dm slot).2.secDeviceCount = sub32 dm.secDeviceCount 1 := by
  simp [removeFromSlot, taken]

theorem removeFromSlot_signals (taken : (dm.secDevices slot).initialized = true) :
    ((removeFromSlot dm slot).2.secDevices slot).destructionEv =
      eventSignal (dm.secDevices slot).destructionEv := by
  simp [removeFromSlot, taken]

theorem removeFromSlot_initialized (taken : (dm.secDevices slot).initialized = true)
    (held : (dm.secDevices slot).refCount ≠ 0) :
    ((removeFromSlot dm slot).2.secDevices slot).initialized = true := by
  simp only [removeFromSlot, taken, if_true]
  rw [deviceRelease_self (by simpa using held)]
  simp

theorem devmuxRemoveDevice_slot (slot : Slot) :
    devmuxRemoveDevice dm slot = removeFromSlot dm slot := dif_pos slot.isLt

/-! ## Switching -/

/-- A switch changes which slot is active and its activation event. -/
theorem devmuxSwitchTo_spec (slotId : Nat) :
    (devmuxSwitchTo dm slotId).secDeviceCount = dm.secDeviceCount ∧
    (devmuxSwitchTo dm slotId).destroyed = dm.destroyed ∧
    ∀ i, ((devmuxSwitchTo dm slotId).secDevices i).refCount = (dm.secDevices i).refCount ∧
      ((devmuxSwitchTo dm slotId).secDevices i).initialized = (dm.secDevices i).initialized ∧
      ((devmuxSwitchTo dm slotId).secDevices i).destructionEv =
        (dm.secDevices i).destructionEv := by
  unfold devmuxSwitchTo
  split
  case isTrue inside =>
    dsimp only
    split
    · refine ⟨rfl, rfl, fun i => ?_⟩
      by_cases same : i = ⟨slotId, inside⟩
      · simp [same]
      · simp [same]
    · exact ⟨rfl, rfl, fun i => ⟨rfl, rfl, rfl⟩⟩
  case isFalse => exact ⟨rfl, rfl, fun i => ⟨rfl, rfl, rfl⟩⟩

/-! ## Removing all devices -/

theorem removeAll_eq : removeAll dm =
    (List.finRange devMuxerMaxDevices).foldl (fun dm i => (removeFromSlot dm i).2) dm := by
  simp only [removeAll, devmuxRemoveDevice_slot]

/-- The number of devices in slots of a list. -/
def devicesIn (dm : KDevMuxer) (slots : List Slot) : Nat :=
  slots.countP fun slot => (dm.secDevices slot).initialized

/-- What the loop of `devmux_destroy` does to the slots of a list. -/
theorem removeLoop_spec {slots : List Slot} (nodup : slots.Nodup) (dm : KDevMuxer)
    (small : dm.secDeviceCount < 2 ^ 32) :
    let dm' := slots.foldl (fun dm i => (removeFromSlot dm i).2) dm
    dm'.secDeviceCount < 2 ^ 32 ∧
      (dm'.secDeviceCount + devicesIn dm slots) % 2 ^ 32 = dm.secDeviceCount ∧
      (∀ i ∉ slots, dm'.secDevices i = dm.secDevices i) ∧
      ∀ i ∈ slots, (dm.secDevices i).initialized = true →
        (dm'.secDevices i).destructionEv = eventSignal (dm.secDevices i).destructionEv := by
  induction slots generalizing dm with
  | nil =>
    refine ⟨small, ?_, fun i _ => rfl, fun i member => by cases member⟩
    exact Nat.mod_eq_of_lt small
  | cons slot slots inductionHypothesis =>
    obtain ⟨new, nodup'⟩ := List.nodup_cons.mp nodup
    simp only [List.foldl_cons]
    have others : devicesIn (removeFromSlot dm slot).2 slots = devicesIn dm slots := by
      apply List.countP_congr
      intro i member
      have other : i ≠ slot := fun same => new (same ▸ member)
      rw [removeFromSlot_of_ne other]
    have small' : (removeFromSlot dm slot).2.secDeviceCount < 2 ^ 32 := by
      cases taken : (dm.secDevices slot).initialized with
      | true =>
        rw [removeFromSlot_secDeviceCount taken]
        exact u32_lt _
      | false => rwa [removeFromSlot_free taken]
    obtain ⟨bound, count, kept, signaled⟩ := inductionHypothesis nodup' _ small'
    refine ⟨bound, ?_, ?_, ?_⟩
    · rw [others] at count
      rw [devicesIn, List.countP_cons, ← devicesIn]
      cases taken : (dm.secDevices slot).initialized with
      | true =>
        rw [removeFromSlot_secDeviceCount taken, sub32, u32] at count
        simp only [if_true]
        omega
      | false =>
        rw [removeFromSlot_free taken] at count ⊢
        simpa using count
    · intro i outside
      obtain ⟨other, later⟩ := not_or.mp fun is => outside (List.mem_cons.mpr is)
      rw [kept i later, removeFromSlot_of_ne other]
    · intro i member taken
      cases List.mem_cons.mp member with
      | inl first =>
        subst first
        rw [kept i new, removeFromSlot_signals taken]
      | inr later =>
        have other : i ≠ slot := fun same => new (same ▸ later)
        have taken' := taken
        rw [← @removeFromSlot_of_ne dm slot i other] at taken'
        rw [signaled i later taken', removeFromSlot_of_ne other]

end

end Antonix.DevMuxer
