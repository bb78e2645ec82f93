import Mathlib.Algebra.BigOperators.Fin
import Mathlib.Algebra.Order.BigOperators.Group.Finset
import Antonix.DevMuxer.Forwarding

/-! # Calls under way (`dev_muxer.c`)

Any number of threads add, remove and switch to devices and have calls under way.  A call takes
its reference in one step and releases it in another; in between it is forwarded, or it waits for
its slot to become active or to be destroyed. -/

namespace Antonix.DevMuxer

open Function Event Transition

/-- A multiplexer and the calls under way: for each slot, how many wait for it to become active
and how many are forwarded.  A slot is `removed` from a removal of its device that succeeds to the
next addition. -/
structure System where
  muxer : KDevMuxer
  waiting : Slot → Nat
  forwarding : Slot → Nat
  removed : Slot → Bool

/-- The number of calls under way. -/
def System.calls (s : System) : Nat := ∑ slot, (s.waiting slot + s.forwarding slot)

inductive MuxOp where
  | add (slotId : Int) (created : Bool)
  | remove (slotId : Nat)
  | switchTo (slotId : Nat)
  /-- A call takes its reference. -/
  | call (slot : Slot)
  /-- The wait of a call ends with the activation of its slot, with the destruction or in failure. -/
  | activated (slot : Slot)
  | interrupted (slot : Slot)
  | waitFailed (slot : Slot)
  /-- A forwarded call releases its reference. -/
  | forwarded (slot : Slot)

/-- The operations that a call under way goes through. -/
def MuxOp.Ends : MuxOp → Prop
  | .activated _ | .interrupted _ | .waitFailed _ | .forwarded _ => True
  | _ => False

/-- The slots that have been removed once `devmux_remove_device` has returned. -/
def removedAfter (s : System) (slotId : Nat) : Slot → Bool :=
  if (devmuxRemoveDevice s.muxer slotId).1 = .sOk then
    fun slot => s.removed slot || decide ((slot : Nat) = slotId)
  else s.removed

/-- The slots that have been removed once `devmux_add_device` has returned. -/
def removedUntil (s : System) : Option Slot → Slot → Bool
  | none => s.removed
  | some slot => update s.removed slot false

/-- A slot whose activation or destruction was read by a waiter. -/
def pollActivation (dm : KDevMuxer) (slot : Slot) : KDevMuxer :=
  let dd := dm.secDevices slot
  { dm with secDevices :=
      update dm.secDevices slot { dd with activationEv := (eventPoll dd.activationEv).2 } }

def pollDestruction (dm : KDevMuxer) (slot : Slot) : KDevMuxer :=
  let dd := dm.secDevices slot
  { dm with secDevices :=
      update dm.secDevices slot { dd with destructionEv := (eventPoll dd.destructionEv).2 } }

/-- The steps.  Every call under way is made by a thread of its own, so that their number is far
below `2 ^ 32`. -/
inductive Step (s : System) : MuxOp → System → Prop
  | add {slotId : Int} {created : Bool} {hr : HResult} {slot : Option Slot} {dm : KDevMuxer}
    (returned : devmuxAddDevice s.muxer slotId created = .ok (hr, slot, dm)) :
    Step s (.add slotId created) { s with muxer := dm, removed := removedUntil s slot }
  | remove (slotId : Nat) : Step s (.remove slotId)
    { s with
      muxer := (devmuxRemoveDevice s.muxer slotId).2
      removed := removedAfter s slotId }
  | switchTo (slotId : Nat) : Step s (.switchTo slotId)
    { s with muxer := devmuxSwitchTo s.muxer slotId }
  | callActive {slot : Slot} (stream : (s.muxer.secDevices slot).initialized = true)
    (threads : s.calls + devMuxerMaxDevices + 1 < 2 ^ 32) (active : s.muxer.activeSlot = slot) :
    Step s (.call slot)
      { s with
        muxer := deviceAddref s.muxer slot
        forwarding := update s.forwarding slot (s.forwarding slot + 1) }
  | callInactive {slot : Slot} (stream : (s.muxer.secDevices slot).initialized = true)
    (threads : s.calls + devMuxerMaxDevices + 1 < 2 ^ 32)
    (inactive : s.muxer.activeSlot ≠ slot) :
    Step s (.call slot)
      { s with
        muxer := deviceAddref s.muxer slot
        waiting := update s.waiting slot (s.waiting slot + 1) }
  | activated {slot : Slot} (waits : 0 < s.waiting slot)
    (signaled : (s.muxer.secDevices slot).activationEv.state ≠ stateUnsignaled) :
    Step s (.activated slot)
      { s with
        muxer := pollActivation s.muxer slot
        waiting := update s.waiting slot (s.waiting slot - 1)
        forwarding := update s.forwarding slot (s.forwarding slot + 1) }
  | interrupted {slot : Slot} (waits : 0 < s.waiting slot)
    (signaled : (s.muxer.secDevices slot).destructionEv.state ≠ stateUnsignaled) :
    -- nothing is released
    Step s (.interrupted slot)
      { s with
        muxer := pollDestruction s.muxer slot
        waiting := update s.waiting slot (s.waiting slot - 1) }
  | waitFailed {slot : Slot} (waits : 0 < s.waiting slot) :
    Step s (.waitFailed slot)
      { s with
        muxer := deviceRelease s.muxer slot
        waiting := update s.waiting slot (s.waiting slot - 1) }
  | forwarded {slot : Slot} (forwards : 0 < s.forwarding slot) :
    Step s (.forwarded slot)
      { s with
        muxer := deviceRelease s.muxer slot
        forwarding := update s.forwarding slot (s.forwarding slot - 1) }

/-- A new multiplexer. -/
def created : System where
  muxer := devmuxCreate
  waiting := fun _ => 0
  forwarding := fun _ => 0
  removed := fun _ => false

section

variable {s t : System} {slot : Slot} {dm : KDevMuxer}

/-! ## Sums over the slots -/

/-- Two sums that differ in one slot. -/
theorem sum_of_one {f g : Slot → Nat} (others : ∀ i ≠ slot, g i = f i) :
    (∑ i, g i) + f slot = (∑ i, f i) + g slot := by
  have same : ∑ i ∈ Finset.univ.erase slot, g i = ∑ i ∈ Finset.univ.erase slot, f i :=
    Finset.sum_congr rfl fun i member => others i (Finset.ne_of_mem_erase member)
  rw [← Finset.add_sum_erase _ g (Finset.mem_univ slot),
    ← Finset.add_sum_erase _ f (Finset.mem_univ slot), same]
  omega

theorem calls_eq (s : System) :
    s.calls = (∑ slot, s.waiting slot) + ∑ slot, s.forwarding slot := Finset.sum_add_distrib

/-- A call begins or ends. -/
theorem calls_of_one (waits : ∀ i ≠ slot, t.waiting i = s.waiting i)
    (forwards : ∀ i ≠ slot, t.forwarding i = s.forwarding i) :
    t.calls + (s.waiting slot + s.forwarding slot) =
      s.calls + (t.waiting slot + t.forwarding slot) := by
  refine @sum_of_one slot (fun i => s.waiting i + s.forwarding i) _ fun i other => ?_
  rw [waits i other, forwards i other]

/-- A call that has been forwarded is one call less. -/
theorem calls_of_forwarded (forwards : 0 < s.forwarding slot) :
    ({ s with
      muxer := dm
      forwarding := update s.forwarding slot (s.forwarding slot - 1) } : System).calls + 1 =
      s.calls := by
  let t : System :=
    { s with
      muxer := dm
      forwarding := update s.forwarding slot (s.forwarding slot - 1) }
  have one := @calls_of_one s t slot (fun _ _ => rfl) fun i other => update_of_ne other _ _
  have fewer : t.forwarding slot = s.forwarding slot - 1 := update_self _ _ _
  have same : t.waiting slot = s.waiting slot := rfl
  change t.calls + 1 = s.calls
  omega

/-- A call whose wait has ended without a forward is one call less. -/
theorem calls_of_waited (waits : 0 < s.waiting slot) :
    ({ s with
      muxer := dm
      waiting := update s.waiting slot (s.waiting slot - 1) } : System).calls + 1 = s.calls := by
  let t : System :=
    { s with
      muxer := dm
      waiting := update s.waiting slot (s.waiting slot - 1) }
  have one := @calls_of_one s t slot (fun i other => update_of_ne other _ _) fun _ _ => rfl
  have fewer : t.waiting slot = s.waiting slot - 1 := update_self _ _ _
  have same : t.forwarding slot = s.forwarding slot := rfl
  change t.calls + 1 = s.calls
  omega

theorem forwarding_le (s : System) (slot : Slot) : s.forwarding slot ≤ s.calls :=
  Nat.le_trans (Nat.le_add_left _ _)
    (Finset.single_le_sum (f := fun slot => s.waiting slot + s.forwarding slot)
      (fun _ _ => Nat.zero_le _) (Finset.mem_univ slot))

/-- A call on the active slot that returns has taken its reference and released it. -/
theorem vstreamForwardCall_run {host : Host} {params : VstreamCallParams}
    {result : Option (BitVec 32)} {forwarded : Forwarded}
    (stream : (s.muxer.secDevices slot).initialized = true)
    (threads : s.calls + devMuxerMaxDevices + 1 < 2 ^ 32) (active : s.muxer.activeSlot = slot)
    (returned : vstreamForwardCall host s.muxer slot params result = .ok (forwarded, dm)) :
    Run Step s [.call slot, .forwarded slot] { s with muxer := dm } := by
  rw [vstreamForwardCall_active active] at returned
  have left : deviceRelease (deviceAddref s.muxer slot) slot = dm := by
    cases unpacked : vstreamDeserializeCall host params result with
    | error halt =>
      rw [unpacked] at returned
      cases returned
    | ok done =>
      rw [unpacked] at returned
      exact (eq_of_returned returned).2
  have calling := Step.callActive stream threads active
  have ending : Step { s with
      muxer := deviceAddref s.muxer slot
      forwarding := update s.forwarding slot (s.forwarding slot + 1) } (.forwarded slot) _ :=
    .forwarded (by simp)
  simp only [update_self, Nat.add_sub_cancel, update_idem, update_eq_self, left] at ending
  exact .cons calling (.single ending)

end

end Antonix.DevMuxer
