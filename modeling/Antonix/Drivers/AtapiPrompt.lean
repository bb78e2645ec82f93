import Antonix.Drivers.Atapi

/-! # Packet commands to prompt devices

When the devices are ready before each access, their phases and the event of the controller can
be followed exactly, and every read that is small enough succeeds. -/

namespace Antonix.Drivers.Atapi

open Event PacketDrive Transition

/-- Both devices move before each access, and neither gives up by itself. -/
structure Environment.Prompt (env : Environment) : Prop where
  moves : ∀ n which, (which, false) ∈ env.steps n
  sound : ∀ n, ∀ step ∈ env.steps n, step.2 = false

/-- Where the device that is selected and the event of the controller are; the other device is at
nothing. -/
structure Exact (which : Bool) (phase : Phase) (event : KEvent) (c : Controller) : Prop where
  stands : Stands which (· = phase) c
  plain : (c.cable.drives which).Plain
  interrupts : c.cable.interrupts = true
  event : c.irqEvent = event

/-- What a device that moves makes of the event. -/
def signalIf (irq : Bool) (event : KEvent) : KEvent := if irq then eventSignal event else event

section

variable {env : Environment} {c : Controller} {which : Bool} {phase : Phase} {event : KEvent}
  {lba n : Nat}

theorem tick_phase_still (disc : Nat → List (BitVec 16)) (phase : Phase) :
    (phase.tick disc false).1.Still := by
  cases phase with
  | working next left =>
    cases left with
    | zero => trivial
    | succ left => trivial
  | _ => trivial

theorem phase_tick_of_still (disc : Nat → List (BitVec 16)) (still : phase.Still) :
    phase.tick disc false = (phase, false) := by
  cases phase with
  | accepting => contradiction
  | working => contradiction
  | _ => rfl

theorem tick_of_plain (disc : Nat → List (BitVec 16)) {d : Drive} (plain : d.Plain) :
    d.tick disc false = ({ d with phase := (d.phase.tick disc false).1 },
      (d.phase.tick disc false).2) := by
  simp [Drive.tick, plain]

/-- The device that is selected moves. -/
theorem Exact.selected (exact : Exact which phase event c) :
    Exact which (phase.tick (env.disc which) false).1
      (signalIf (phase.tick (env.disc which) false).2 event) (deviceStep env c (which, false)) := by
  have moved := tick_of_plain (env.disc which) exact.plain
  have at' : (c.cable.drives which).phase = phase := exact.stands.phase
  rw [at'] at moved
  refine ⟨⟨exact.stands.second, ?_, ?_⟩, ?_, exact.interrupts, ?_⟩
  · simp only [deviceStep, Cable.tick, Function.update_self, moved]
  · intro other different
    simp only [deviceStep, Cable.tick, Function.update_of_ne different]
    exact exact.stands.others other different
  · simp only [deviceStep, Cable.tick, Function.update_self, moved]
    exact exact.plain
  · simp only [deviceStep, Cable.tick, moved, exact.interrupts, exact.stands.second, exact.event,
      signalIf, Bool.and_true, beq_self_eq_true]

/-- The other device has nothing to do. -/
theorem Exact.other (exact : Exact which phase event c) {other : Bool} (different : other ≠ which) :
    Exact which phase event (deviceStep env c (other, false)) := by
  have quiet : (c.cable.drives other).tick (env.disc other) false = (c.cable.drives other, false) :=
    tick_of_still (exact.stands.others other different).still false
  refine ⟨⟨exact.stands.second, ?_, ?_⟩, ?_, exact.interrupts, ?_⟩
  · simp only [deviceStep, Cable.tick, Function.update_of_ne (Ne.symm different)]
    exact exact.stands.phase
  · intro third apart
    simp only [deviceStep, Cable.tick, quiet, Function.update_eq_self]
    exact exact.stands.others third apart
  · simp only [deviceStep, Cable.tick, Function.update_of_ne (Ne.symm different)]
    exact exact.plain
  · simp only [deviceStep, Cable.tick, quiet, Bool.false_and, exact.event]
    rfl

theorem Exact.still_steps (still : phase.Still) (steps : List (Bool × Bool)) : ∀ {c : Controller},
    Exact which phase event c → (∀ step ∈ steps, step.2 = false) →
      Exact which phase event (steps.foldl (deviceStep env) c) := by
  induction steps with
  | nil => exact fun exact _ => exact
  | cons step steps inductionHypothesis =>
    intro c exact sound
    obtain ⟨moved, fails⟩ := step
    obtain rfl : fails = false := sound _ List.mem_cons_self
    refine inductionHypothesis ?_ fun step member => sound step (List.mem_cons_of_mem _ member)
    by_cases same : moved = which
    · subst same
      have next := @Exact.selected env c moved phase event exact
      rwa [phase_tick_of_still _ still] at next
    · exact exact.other same

theorem Exact.steps (steps : List (Bool × Bool)) : ∀ {c : Controller},
    Exact which phase event c → (∀ step ∈ steps, step.2 = false) → (which, false) ∈ steps →
      Exact which (phase.tick (env.disc which) false).1
        (signalIf (phase.tick (env.disc which) false).2 event)
        (steps.foldl (deviceStep env) c) := by
  induction steps with
  | nil =>
    intro c _ _ member
    cases member
  | cons step steps inductionHypothesis =>
    intro c exact sound member
    obtain ⟨moved, fails⟩ := step
    obtain rfl : fails = false := sound _ List.mem_cons_self
    have later : ∀ step ∈ steps, step.2 = false :=
      fun step member => sound step (List.mem_cons_of_mem _ member)
    -- only the first of its moves counts
    by_cases same : moved = which
    · subst same
      exact Exact.still_steps (tick_phase_still _ phase) steps exact.selected later
    · refine inductionHypothesis (exact.other same) later ?_
      rcases List.mem_cons.mp member with here | there
      · exact absurd (congrArg Prod.fst here).symm same
      · exact there

/-- Before an access the device comes to an end with what it is at. -/
theorem Exact.elapsed (prompt : env.Prompt) (exact : Exact which phase event c) :
    Exact which (phase.tick (env.disc which) false).1
      (signalIf (phase.tick (env.disc which) false).2 event) (elapse env c) := by
  have after := @Exact.steps env which phase event (env.steps c.accesses) c exact
    (prompt.sound _) (prompt.moves _ which)
  exact ⟨⟨after.stands.second, after.stands.phase, after.stands.others⟩, after.plain,
    after.interrupts, after.event⟩

theorem Exact.elapsed_still (prompt : env.Prompt) (still : phase.Still)
    (exact : Exact which phase event c) : Exact which phase event (elapse env c) := by
  have after := exact.elapsed prompt
  rwa [phase_tick_of_still _ still] at after

theorem Exact.wait4us (prompt : env.Prompt) (exact : Exact which phase event c) :
    Exact which (phase.tick (env.disc which) false).1
      (signalIf (phase.tick (env.disc which) false).2 event) (ataWait4us env c) := by
  have still := tick_phase_still (env.disc which) phase
  have second := (exact.elapsed prompt).elapsed_still prompt still
  have after := (second.elapsed_still prompt still).elapsed_still prompt still
  rwa [ataWait4us_eq]

theorem Exact.phase_eq (exact : Exact which phase event c) : c.phase = phase := by
  rw [Stands.selected exact.stands]
  exact exact.stands.phase

/-- A device that requests data, or does so in a moment, is waited for in time. -/
theorem Exact.waitEx (prompt : env.Prompt) {p : Phase}
    (soon : phase.tick (env.disc which) false = (p, false)) (requests : p.Requests) (timeout : Nat)
    (exact : Exact which phase event c) :
    (ataWaitEx env timeout c).1 = .sOk ∧ Exact which p event (ataWaitEx env timeout c).2 := by
  have first := exact.wait4us prompt
  rw [soon] at first
  have still := requests.2.2
  have second := first.wait4us prompt
  rw [phase_tick_of_still _ still] at second
  have polled := second.elapsed_still prompt still
  have read := polled.elapsed_still prompt still
  obtain ⟨turns, some⟩ : ∃ turns, ((if timeout = 0 then 1 else timeout) + 9) / 10 = turns + 1 := by
    refine ⟨((if timeout = 0 then 1 else timeout) + 9) / 10 - 1, ?_⟩
    split
    · omega
    · omega
  have quiet : p.status &&& ATA_STATUS_BSY = 0 := (still_iff p).mp still
  have status : ataWaitStatus env timeout (ataWait4us env c) =
      (.sOk, elapse env (ataWait4us env (ataWait4us env c))) := by
    rw [ataWaitStatus, some, ataWaitLoop, ataReadReg_status]
    dsimp only
    rw [polled.phase_eq, if_pos quiet]
  rw [ataWaitEx]
  dsimp only
  rw [status]
  dsimp only
  rw [if_neg (by decide), ataReadReg_status]
  dsimp only
  rw [read.phase_eq, if_neg]
  · exact ⟨rfl, read⟩
  · rintro (error | none)
    · exact error requests.1
    · exact requests.2.1 none

/-- A device that works on a sector signals the event in time. -/
theorem Exact.waitfor (prompt : env.Prompt) {p : Phase}
    (soon : phase.tick (env.disc which) false = (p, true)) (timeout : Nat)
    (exact : Exact which phase ⟨stateUnsignaled, true⟩ c) :
    (eventWaitfor env timeout c).1 = .sOk ∧
      Exact which p ⟨stateUnsignaled, true⟩ (eventWaitfor env timeout c).2 := by
  have after := exact.elapsed prompt
  rw [soon] at after
  have signaled : (elapse env c).irqEvent = ⟨1, true⟩ := after.event
  rw [eventWaitfor, eventWaitforLoop]
  dsimp only
  rw [signaled]
  exact ⟨rfl, ⟨after.stands.second, after.stands.phase, after.stands.others⟩, after.plain,
    after.interrupts, rfl⟩

theorem Exact.selected_eq (exact : Exact which phase event c) :
    c.cable.selected = c.cable.drives which := by
  rw [Cable.selected, exact.stands.second]

/-- What the device that is selected is made to do. -/
theorem Exact.modify {next : Phase} {d : Drive} (exact : Exact which phase event c)
    (does : d.phase = next) (plain : d.Plain ↔ c.cable.selected.Plain) :
    Exact which next event { c with cable := c.cable.modify d } where
  stands := exact.stands.modify does
  plain := by
    simp only [Cable.modify, exact.stands.second, Function.update_self]
    rw [plain, exact.selected_eq]
    exact exact.plain
  interrupts := exact.interrupts
  event := exact.event

theorem Exact.sendPacket (prompt : env.Prompt) {packet : List (BitVec 8)} (left : Nat) :
    ∀ {i : Nat} {c : Controller}, i + (left + 1) = 6 →
      Exact which (.packet ((List.range i).map (packetWord packet))) event c →
      Exact which (execute ((List.range 6).map (packetWord packet))) event
        (sendPacket env packet (left + 1) i c) := by
  induction left with
  | zero =>
    intro i c last exact
    have before := exact.elapsed_still prompt (by simp [Phase.Still])
    have here : (elapse env c).cable.selected.phase = _ := before.phase_eq
    have five : i = 5 := by omega
    subst five
    rw [Atapi.sendPacket, Atapi.sendPacket, writePort_data]
    refine before.modify ?_ (put_plain _ _)
    rw [put_phase _ here]
    rfl
  | succ left inductionHypothesis =>
    intro i c last exact
    have before := exact.elapsed_still prompt (by simp [Phase.Still])
    have here : (elapse env c).cable.selected.phase = _ := before.phase_eq
    rw [Atapi.sendPacket, writePort_data]
    refine inductionHypothesis (by omega) ?_
    refine before.modify ?_ (put_plain _ _)
    rw [put_phase _ here, List.length_map, List.length_range, if_neg (by omega), List.range_succ,
      List.map_append]
    rfl

theorem Exact.readWords (prompt : env.Prompt) {next left : Nat} (block : List (BitVec 16)) :
    ∀ {ptr : Nat} {buffer : Nat → BitVec 16} {c : Controller}, block ≠ [] →
      Exact which (.data block next left) event c →
      Exact which (.working next left) event (readWords env block.length ptr buffer c).2 := by
  induction block with
  | nil =>
    intro ptr buffer c some
    contradiction
  | cons word block inductionHypothesis =>
    intro ptr buffer c _ exact
    have before := exact.elapsed_still prompt (by simp [Phase.Still])
    have here : (elapse env c).cable.selected.phase = _ := before.phase_eq
    rw [List.length_cons, Atapi.readWords, readPortUshort_data]
    dsimp only
    by_cases last : block = []
    · subst last
      exact before.modify (by simp [get_of_data here]) (get_plain _)
    · refine inductionHypothesis last (before.modify ?_ (get_plain _))
      simp only [get_of_data here, if_neg last]

theorem Exact.receiveSector (prompt : env.Prompt) {left : Nat} (ptr : Nat)
    (buffer : Nat → BitVec 16)
    (exact : Exact which (.working lba (left + 1)) ⟨stateUnsignaled, true⟩ c) :
    (receiveSector env ptr buffer c).1 = .sOk ∧
      Exact which (.working (lba + 1) left) ⟨stateUnsignaled, true⟩
        (receiveSector env ptr buffer c).2.2 := by
  obtain ⟨signalled, offered⟩ := exact.waitfor prompt rfl 1000
  rw [Atapi.receiveSector]
  generalize eventWaitfor env 1000 c = waited at signalled offered
  obtain ⟨hr, c1⟩ := waited
  obtain rfl := signalled
  obtain ⟨granted, offered⟩ := offered.waitEx prompt rfl
    (by simp [Phase.Requests, Phase.status, Phase.Still]) 0
  dsimp only
  rw [if_neg (by decide), readSector]
  generalize ataWaitEx env 0 c1 = ready at granted offered
  obtain ⟨hr, c2⟩ := ready
  obtain rfl := granted
  have some : env.disc which lba ≠ [] :=
    List.ne_nil_of_length_pos (by rw [env.sectors]; exact Nat.succ_pos 1023)
  have after := @Exact.readWords env which _ prompt (lba + 1) left _ ptr buffer c2 some offered
  rw [env.sectors] at after
  dsimp only
  rw [if_neg (by decide)]
  generalize Atapi.readWords env (ATAPI_SECTOR_SIZE / 2) ptr buffer c2 = words at after
  exact ⟨rfl, after⟩

theorem Exact.receiveLoop (prompt : env.Prompt) {left : Nat} (count : Nat) :
    ∀ {lba ptr : Nat} {buffer : Nat → BitVec 16} {c : Controller},
      Exact which (.working lba (count + left)) ⟨stateUnsignaled, true⟩ c →
      (receiveLoop env count ptr buffer c).1 = .sOk ∧
        Exact which (.working (lba + count) left) ⟨stateUnsignaled, true⟩
          (receiveLoop env count ptr buffer c).2.2 := by
  induction count with
  | zero =>
    intro lba ptr buffer c exact
    rw [Nat.zero_add] at exact
    exact ⟨rfl, exact⟩
  | succ count inductionHypothesis =>
    intro lba ptr buffer c exact
    rw [Nat.add_right_comm] at exact
    obtain ⟨done, next⟩ := exact.receiveSector prompt ptr buffer
    rw [Atapi.receiveLoop]
    generalize Atapi.receiveSector env ptr buffer c = result at done next
    obtain ⟨hr, buffer', c'⟩ := result
    obtain rfl := done
    dsimp only
    rw [if_neg (by decide), Nat.add_comm count 1, ← Nat.add_assoc]
    exact inductionHypothesis next

theorem Exact.settleLoop (prompt : env.Prompt) (turns : Nat) : ∀ {c : Controller},
    Exact which .idle event c → Exact which .idle event (settleLoop env turns c) := by
  induction turns with
  | zero => exact fun exact => exact
  | succ turns inductionHypothesis =>
    intro c exact
    have after := exact.elapsed_still prompt (by simp [Phase.Still])
    rw [Atapi.settleLoop, ataReadReg_status]
    dsimp only
    split
    · exact after
    · exact inductionHypothesis after

theorem Exact.finish (prompt : env.Prompt)
    (exact : Exact which (.working lba 0) ⟨stateUnsignaled, true⟩ c) :
    (atapiFinish env c).1 = .sOk ∧
      Exact which .idle ⟨stateUnsignaled, true⟩ (atapiFinish env c).2 := by
  obtain ⟨signalled, idle⟩ := exact.waitfor prompt rfl 1000
  rw [atapiFinish]
  generalize eventWaitfor env 1000 c = waited at signalled idle
  obtain ⟨hr, c1⟩ := waited
  obtain rfl := signalled
  exact ⟨rfl, idle.settleLoop prompt _⟩

theorem Exact.receive (prompt : env.Prompt) (start : BitVec 64) {count : Nat} (few : count < 256)
    (ptr : Nat) (buffer : Nat → BitVec 16)
    (exact : Exact which (.packet []) ⟨stateUnsignaled, true⟩ c) :
    (atapiReceive env start count ptr buffer c).1 = .sOk ∧
      Exact which .idle ⟨stateUnsignaled, true⟩
        (atapiReceive env start count ptr buffer c).2.2 := by
  have sent := @Exact.sendPacket env which _ prompt (readPacket start count) 5 0 c (by omega) exact
  rw [execute_readPacket start (Nat.le_of_lt few), granted, if_neg (Nat.ne_of_lt few)] at sent
  obtain ⟨done, received⟩ := @Exact.receiveLoop env which prompt 0 count _ ptr buffer _ sent
  rw [atapiReceive]
  dsimp only
  generalize Atapi.receiveLoop env count ptr buffer _ = result at done received
  obtain ⟨hr, buffer', c'⟩ := result
  obtain rfl := done
  dsimp only at received ⊢
  rw [if_neg (by decide)]
  obtain ⟨finished, idle⟩ := received.finish prompt
  generalize atapiFinish env c' = last at finished idle
  exact ⟨finished, idle⟩

/-! ## Requests to prompt devices -/

/-- The devices are at nothing, their interrupts get through, and none is pending. -/
structure Fit (c : Controller) : Prop where
  rests : Rests c
  interrupts : c.cable.interrupts = true
  event : c.irqEvent = ⟨stateUnsignaled, true⟩

theorem deviceStep_rests (rests : Rests c) (step : Bool × Bool) : deviceStep env c step = c := by
  have quiet := @tick_of_still (env.disc step.1) _ (rests step.1).still step.2
  simp only [deviceStep, Cable.tick, quiet, Function.update_eq_self, Bool.false_and]
  rfl

theorem elapse_of_rests (rests : Rests c) :
    elapse env c = { c with accesses := c.accesses + 1 } := by
  have all : ∀ steps : List (Bool × Bool), steps.foldl (deviceStep env) c = c := by
    intro steps
    induction steps with
    | nil => rfl
    | cons step steps inductionHypothesis =>
      rw [List.foldl_cons, deviceStep_rests rests, inductionHypothesis]
  rw [elapse, all]

theorem Fit.congr {c' : Controller} (fit : Fit c) (cable : c'.cable = c.cable)
    (event : c'.irqEvent = c.irqEvent) : Fit c' where
  rests := fun which => by
    rw [cable]
    exact fit.rests which
  interrupts := by rw [cable, fit.interrupts]
  event := by rw [event, fit.event]

theorem Fit.elapsed (fit : Fit c) : Fit (elapse env c) := by
  rw [elapse_of_rests fit.rests]
  exact fit.congr rfl rfl

theorem Fit.wait4us (fit : Fit c) : Fit (ataWait4us env c) := by
  rw [ataWait4us_eq]
  exact fit.elapsed.elapsed.elapsed.elapsed

theorem wait4us_cable (fit : Fit c) : (ataWait4us env c).cable = c.cable := by
  rw [ataWait4us_eq, elapse_of_rests fit.elapsed.elapsed.elapsed.rests,
    elapse_of_rests fit.elapsed.elapsed.rests, elapse_of_rests fit.elapsed.rests,
    elapse_of_rests fit.rests]

theorem Fit.waitStatus (fit : Fit c) {timeout : Nat} (some : timeout ≠ 0) :
    (ataWaitStatus env timeout c).1 = .sOk ∧ Fit (ataWaitStatus env timeout c).2 := by
  have waited : Fit (ataWait4us env c) := fit.wait4us
  have polled : Fit (elapse env (ataWait4us env c)) := waited.elapsed
  obtain ⟨turns, enough⟩ : ∃ turns, (timeout + 9) / 10 = turns + 1 :=
    ⟨(timeout + 9) / 10 - 1, by omega⟩
  have quiet : (elapse env (ataWait4us env c)).phase.status &&& ATA_STATUS_BSY = 0 :=
    (still_iff _).mp (polled.rests _).still
  rw [ataWaitStatus, if_neg some, enough, ataWaitLoop, ataReadReg_status]
  dsimp only
  rw [if_pos quiet]
  exact ⟨rfl, polled⟩

theorem write_interrupts (cable : Cable) (offset : Nat) (value : BitVec 8) :
    (cable.write offset value).interrupts = cable.interrupts := by
  unfold Cable.write
  split
  · rfl
  · rfl
  · rfl
  · rfl
  · rfl
  · rfl

/-- A register other than that of the command is written. -/
theorem Fit.write {reg : Nat} (value : BitVec 8) (inside : reg < 7) (fit : Fit c) :
    Fit (ataWriteReg env reg value c) := by
  have rests := @ataWriteReg_rests env _ reg value inside fit.rests
  rw [ataWriteReg_command value (by omega)] at rests ⊢
  exact ⟨rests, (write_interrupts _ _ _).trans fit.elapsed.interrupts, fit.elapsed.event⟩

theorem write_cable {reg : Nat} (value : BitVec 8) (inside : reg < 8) (fit : Fit c) :
    (ataWriteReg env reg value c).cable = c.cable.write reg value := by
  rw [ataWriteReg_command value inside, elapse_of_rests fit.rests]

theorem Fit.enable (enable : Bool) (fit : Fit c) : Fit (ataEnableInterrupts env enable c) := by
  rw [ataEnableInterrupts, ataWriteReg_control]
  refine Fit.elapsed ⟨fit.rests, fit.interrupts, ?_⟩
  have reset : eventReset ⟨stateUnsignaled, true⟩ = ⟨stateUnsignaled, true⟩ := rfl
  dsimp only
  rw [fit.event, reset, ite_self]

theorem Fit.select {driveId : BitVec 32} (known : driveId < 2) (fit : Fit c) :
    (ataSelectDrive env driveId c).1 = .sOk ∧ Fit (ataSelectDrive env driveId c).2 := by
  rw [ataSelectDrive, if_neg (BitVec.not_le.mpr known)]
  split
  · have written := @Fit.write env _ ATA_REG_DRIVE
      (0xA0 ||| (driveId <<< 4).setWidth 8) (by decide) fit
    rw [ataWriteReg_command _ (by decide)] at written
    rw [writePort_command _ (by decide)]
    dsimp only
    obtain ⟨done, waited⟩ := @Fit.waitStatus env _ (@Fit.wait4us env _ written) 1000 (by decide)
    generalize ataWaitStatus env 1000 _ = result at done waited
    obtain ⟨hr, c'⟩ := result
    obtain rfl := done
    exact ⟨rfl, waited.congr rfl rfl⟩
  · exact ⟨rfl, fit⟩

/-- The device that is selected has accepted the command, and will transfer blocks as it is to. -/
theorem Fit.program (fit : Fit c) :
    Exact c.cable.second .accepting ⟨stateUnsignaled, true⟩ (atapiProgram env c) := by
  have waited : Fit (ataWait4us env c) := fit.wait4us
  have features := @Fit.write env _ ATA_REG_FEATURES 0 (by decide) waited
  have lbaMid := @Fit.write env _ ATA_REG_LBA_MID
    (BitVec.ofNat 8 (ATAPI_SECTOR_SIZE &&& 0xFF)) (by decide) features
  have lbaHigh := @Fit.write env _ ATA_REG_LBA_HIGH
    (BitVec.ofNat 8 (ATAPI_SECTOR_SIZE >>> 8)) (by decide) lbaMid
  have cable : (atapiProgram env c).cable =
      ((((c.cable.write ATA_REG_FEATURES 0).write ATA_REG_LBA_MID
        (BitVec.ofNat 8 (ATAPI_SECTOR_SIZE &&& 0xFF))).write ATA_REG_LBA_HIGH
        (BitVec.ofNat 8 (ATAPI_SECTOR_SIZE >>> 8))).write ATA_REG_COMMAND ATA_CMD_PACKET) := by
    rw [atapiProgram, write_cable _ (by decide) lbaHigh, write_cable _ (by decide) lbaMid,
      write_cable _ (by decide) features, write_cable _ (by decide) waited, wait4us_cable fit]
  refine ⟨⟨?_, ?_, ?_⟩, ?_, ?_, ?_⟩
  · rw [cable]
    rfl
  · rw [cable]
    simp [Cable.write, Cable.modify, Drive.command]
  · intro other different
    rw [cable]
    simp only [Cable.write, Cable.modify, Function.update_of_ne different]
    exact fit.rests other
  · rw [cable]
    have plain : Drive.Plain ⟨.accepting, 0, BitVec.ofNat 8 (ATAPI_SECTOR_SIZE &&& 0xFF),
      BitVec.ofNat 8 (ATAPI_SECTOR_SIZE >>> 8)⟩ := by decide
    simp only [Cable.write, Cable.modify, Cable.selected, Function.update_self]
    exact plain
  · rw [cable]
    exact fit.interrupts
  · rw [atapiProgram, ataWriteReg_command _ (by decide)]
    exact lbaHigh.elapsed.event

theorem Fit.of_exact (exact : Exact which .idle ⟨stateUnsignaled, true⟩ c) : Fit c where
  rests := Stands.rests ⟨exact.stands.second, .inl exact.stands.phase, exact.stands.others⟩
  interrupts := exact.interrupts
  event := exact.event

theorem Fit.command (prompt : env.Prompt) (start : BitVec 64) {count : Nat} (few : count < 256)
    (ptr : Nat) (buffer : Nat → BitVec 16) (fit : Fit c) :
    (atapiCommand env start count ptr buffer c).1 = .sOk ∧
      Fit (atapiCommand env start count ptr buffer c).2.2 := by
  obtain ⟨ready, packet⟩ := (@Fit.program env c fit).waitEx prompt rfl
    (by simp [Phase.Requests, Phase.status, Phase.Still]) 10000
  rw [atapiCommand]
  generalize ataWaitEx env 10000 (atapiProgram env c) = result at ready packet
  obtain ⟨hr, c'⟩ := result
  obtain rfl := ready
  obtain ⟨done, idle⟩ := packet.receive prompt start few ptr buffer
  exact ⟨done, .of_exact idle⟩

theorem Fit.readSectors (prompt : env.Prompt) {dev : AtaDevice} (pio : dev.mode = .pio)
    (known : dev.driveId < 2) (start : BitVec 64) {count : Nat} (few : count < 256) (ptr : Nat)
    (buffer : Nat → BitVec 16) (fit : Fit c) :
    (atapiReadSectors env dev start count ptr buffer c).1 = .sOk ∧
      Fit (atapiReadSectors env dev start count ptr buffer c).2.2 := by
  obtain ⟨selected, ready⟩ := @Fit.select env _ dev.driveId known (@Fit.enable env c true fit)
  have transfer : (atapiTransfer env dev start count ptr buffer c).1 = .sOk ∧
      Fit (atapiTransfer env dev start count ptr buffer c).2.2 := by
    rw [atapiTransfer, if_neg (not_not.mpr pio)]
    generalize ataSelectDrive env dev.driveId (ataEnableInterrupts env true c) = drive
      at selected ready
    obtain ⟨hr, c1⟩ := drive
    obtain rfl := selected
    have written := @Fit.write env _ ATA_REG_DRIVE ((dev.driveId <<< 4).setWidth 8) (by decide)
      ready
    dsimp only at written ⊢
    rw [if_neg (by decide)]
    exact written.command prompt start few ptr buffer
  rw [atapiReadSectors, if_neg (by omega)]
  generalize atapiTransfer env dev start count ptr buffer c = result at transfer
  obtain ⟨hr, buffer', c'⟩ := result
  exact ⟨transfer.1, transfer.2.enable false⟩

/-- A request to a device that the driver supports, for less than 256 sectors. -/
structure Request.Small (r : Request) : Prop extends r.Valid where
  pio : r.dev.mode = .pio
  known : r.dev.driveId < 2
  few : r.args.count < 256

variable {r : Request}

theorem Fit.serve (prompt : env.Prompt) (small : r.Small) (fit : Fit c) :
    (r.serve env c).1 = .sOk ∧ Fit (r.serve env c).2.2 := by
  obtain ⟨dev, ⟨start, count, base⟩, buffer⟩ := r
  rw [serve_eq]
  by_cases none : count = 0
  · subst none
    rw [blockCommands_zero]
    exact ⟨rfl, fit⟩
  · have few : count < 256 := small.few
    have whole : min 256 count = count := by omega
    obtain ⟨done, after⟩ := fit.readSectors prompt small.pio small.known (BitVec.ofNat 64 start)
      few 0 buffer
    have step : (⟨dev, ⟨start, count, base⟩, buffer⟩ : Request).after env c
        [⟨ataIsPacketInterface dev, .read, start, count, base⟩] =
          atapiReadSectors env dev (BitVec.ofNat 64 start) count 0 buffer c :=
      after_first _ count
    rw [← step] at done after
    rw [blockCommands_cons .read dev start base (Nat.pos_of_ne_zero none), issueAll_cons,
      List.nil_append, whole, Nat.sub_self, blockCommands_zero, done, if_neg (by decide)]
    exact ⟨rfl, after⟩

theorem Fit.serveAll (prompt : env.Prompt) (requests : List Request) : ∀ {c : Controller},
    Fit c → (∀ r ∈ requests, r.Small) →
      (∀ hr ∈ (serveAll env requests c).1, hr = .sOk) ∧ Fit (serveAll env requests c).2 := by
  induction requests with
  | nil => exact fun fit _ => ⟨fun _ member => (nomatch member), fit⟩
  | cons r requests inductionHypothesis =>
    intro c fit small
    obtain ⟨done, after⟩ := fit.serve prompt (small r List.mem_cons_self)
    rw [Atapi.serveAll]
    generalize r.serve env c = result at done after
    obtain ⟨hr, buffer, c'⟩ := result
    obtain rfl := done
    obtain ⟨all, fit'⟩ := inductionHypothesis after
      fun q member => small q (List.mem_cons_of_mem r member)
    refine ⟨fun hr member => ?_, fit'⟩
    rcases List.mem_cons.mp member with here | there
    · exact here
    · exact all hr there

/-- When the devices are prompt, each of any requests for less than 256 sectors succeeds, to
whichever of them they go, and its buffer has the sectors. -/
theorem packetReads_succeed (env : Environment) (prompt : env.Prompt) {c : Controller}
    (fit : Fit c) (earlier : List Request) (r : Request) (small : ∀ q ∈ r :: earlier, q.Small) :
    (r.serve env (serveAll env earlier c).2).1 = .sOk ∧
      (r.serve env (serveAll env earlier c).2).2.1 = Buffer.writeAt r.buffer 0
        (sectorWords (env.disc (secondOf r.dev.driveId)) r.args.start r.args.count) := by
  obtain ⟨-, before⟩ := fit.serveAll prompt earlier
    fun q member => small q (List.mem_cons_of_mem r member)
  have here := small r List.mem_cons_self
  obtain ⟨done, -⟩ := before.serve prompt here
  obtain ⟨got, -, all, bytes⟩ := (@serve_answered env _ r here.toValid before.rests).words
  refine ⟨done, ?_⟩
  rw [bytes, all (by rw [done]; rfl)]

theorem packetReads_succeed_second :
    ((sectorRequest 1 2).serve blankDiscs
        (serveAll blankDiscs [sectorRequest 0 1] idleController).2).1 = .sOk ∧
      ((sectorRequest 1 2).serve blankDiscs
        (serveAll blankDiscs [sectorRequest 0 1] idleController).2).2.1 =
          Buffer.writeAt (fun _ => 0) 0 (sectorWords (blankDiscs.disc true) 16 2) :=
  packetReads_succeed blankDiscs
    ⟨fun _ which => by cases which <;> simp [blankDiscs],
      fun _ step member => by
        rcases List.mem_cons.mp member with rfl | second
        · rfl
        · rw [List.mem_singleton.mp second]⟩
    ⟨fun _ => .inl rfl, rfl, rfl⟩ [sectorRequest 0 1] (sectorRequest 1 2)
    (fun q member => by
      rcases List.mem_cons.mp member with rfl | second
      · exact ⟨⟨rfl, by decide⟩, rfl, by decide, by decide⟩
      · obtain rfl := List.mem_singleton.mp second
        exact ⟨⟨rfl, by decide⟩, rfl, by decide, by decide⟩)

end

end Antonix.Drivers.Atapi
