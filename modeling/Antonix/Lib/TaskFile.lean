import Mathlib.Algebra.Group.Nat.Defs
import Mathlib.Data.BitVec
import Mathlib.Logic.Function.Basic
import Mathlib.Logic.Relation

/-! # The task file of an ATA drive

The registers of the command block.  The sector count and the three address registers
are two bytes deep: a write moves the byte that was there behind the new one.  A write to
the command register starts a command, which takes its address from the registers in the
28-bit or in the 48-bit form. -/

namespace TaskFile

/-- A register of two bytes. -/
structure Deep where
  current : BitVec 8
  previous : BitVec 8
  deriving DecidableEq

/-- A byte is written to the register. -/
def Deep.push (r : Deep) (v : BitVec 8) : Deep := ⟨v, r.current⟩

structure Registers where
  sectorCount : Deep
  lbaLow : Deep
  lbaMid : Deep
  lbaHigh : Deep
  device : BitVec 8
  deriving DecidableEq

/-- A byte is written to the register at an offset of the command block. -/
def Registers.write (regs : Registers) : Nat → BitVec 8 → Registers
  | 2, v => { regs with sectorCount := regs.sectorCount.push v }
  | 3, v => { regs with lbaLow := regs.lbaLow.push v }
  | 4, v => { regs with lbaMid := regs.lbaMid.push v }
  | 5, v => { regs with lbaHigh := regs.lbaHigh.push v }
  | 6, v => { regs with device := v }
  | _, _ => regs

/-- The commands that some writes start, with the registers at that time. -/
def issued : Registers → List (Nat × BitVec 8) → List (BitVec 8 × Registers)
  | _, [] => []
  | regs, (offset, v) :: writes =>
    if offset = 7 then (v, regs) :: issued regs writes else issued (regs.write offset v) writes

/-- The address in the 28-bit form. -/
def Registers.lba28 (regs : Registers) : Nat :=
  regs.lbaLow.current.toNat + 2 ^ 8 * regs.lbaMid.current.toNat +
    2 ^ 16 * regs.lbaHigh.current.toNat + 2 ^ 24 * (regs.device &&& 0x0F).toNat

/-- The address in the 48-bit form. -/
def Registers.lba48 (regs : Registers) : Nat :=
  regs.lbaLow.current.toNat + 2 ^ 8 * regs.lbaMid.current.toNat +
    2 ^ 16 * regs.lbaHigh.current.toNat + 2 ^ 24 * regs.lbaLow.previous.toNat +
    2 ^ 32 * regs.lbaMid.previous.toNat + 2 ^ 40 * regs.lbaHigh.previous.toNat

end TaskFile

/-! # Packet devices

A packet device takes the command `PACKET` from the task file, asks for a packet of six words
through the data register, and answers a packet that reads sectors with one block of words for
each sector.  In front of every block, and behind the last one, it is busy for as long as it
likes, and then it asks for an interrupt.  Two of them share a cable: the device register says
which one is meant. -/

namespace PacketDrive

open Function

/-- What a device is at: it accepts a command, takes the words of a packet, works on a sector with
so many to come, offers what is left of a block, or has given up. -/
inductive Phase where
  | idle
  | accepting
  | packet (words : List (BitVec 16))
  | working (lba count : Nat)
  | data (block : List (BitVec 16)) (lba count : Nat)
  | failed

/-- A device with the registers that it looks at. -/
structure Drive where
  phase : Phase
  features : BitVec 8
  lbaMid : BitVec 8
  lbaHigh : BitVec 8

/-- The status register: busy, data request, error, ready. -/
def Phase.status : Phase → BitVec 8
  | .idle => 0x40
  | .accepting => 0x80
  | .packet _ => 0x48
  | .working _ _ => 0x80
  | .data _ _ _ => 0x48
  | .failed => 0x41

/-- Byte `k` of a packet; the first byte of a word is its low one. -/
def packetByte (words : List (BitVec 16)) (k : Nat) : BitVec 8 :=
  (words.getD (k / 2) 0 >>> (8 * (k % 2))).setWidth 8

/-- The number of four bytes of a packet, the highest one first. -/
def packetNumber (words : List (BitVec 16)) (k : Nat) : Nat :=
  2 ^ 24 * (packetByte words k).toNat + 2 ^ 16 * (packetByte words (k + 1)).toNat +
    2 ^ 8 * (packetByte words (k + 2)).toNat + (packetByte words (k + 3)).toNat

/-- A packet is complete.  The command `0xA8` reads sectors; no other one is described here. -/
def execute (words : List (BitVec 16)) : Phase :=
  if packetByte words 0 = 0xA8 then .working (packetNumber words 2) (packetNumber words 6)
  else .failed

/-- Whether blocks are to have 2048 bytes and to go through the data register. -/
def Drive.Plain (d : Drive) : Prop := d.features = 0 ∧ d.lbaMid = 0x00 ∧ d.lbaHigh = 0x08

instance {d : Drive} : Decidable d.Plain := inferInstanceAs (Decidable (_ ∧ _ ∧ _))

/-- A busy device comes to an end with what it is at, or gives up; the flag says whether it asks
for an interrupt then. -/
def Phase.tick (disc : Nat → List (BitVec 16)) (fails : Bool) : Phase → Phase × Bool
  | .accepting => if fails then (.failed, true) else (.packet [], false)
  | .working lba (count + 1) =>
    if fails then (.failed, true) else (.data (disc lba) (lba + 1) count, true)
  | .working _ 0 => (.idle, true)
  | phase => (phase, false)

/-- A device moves by itself; it gives up when it is to transfer blocks in another way. -/
def Drive.tick (disc : Nat → List (BitVec 16)) (fails : Bool) (d : Drive) : Drive × Bool :=
  let (phase, irq) := d.phase.tick disc (fails || ¬ d.Plain)
  ({ d with phase := phase }, irq)

/-- The command register is written. -/
def Drive.command (v : BitVec 8) (d : Drive) : Drive :=
  { d with phase := if v = 0xA0 then .accepting else .failed }

/-- The data register is written. -/
def Drive.put (word : BitVec 16) (d : Drive) : Drive :=
  match d.phase with
  | .packet words =>
    { d with phase :=
        if words.length = 5 then execute (words ++ [word]) else .packet (words ++ [word]) }
  | _ => d

/-- The data register is read. -/
def Drive.get (d : Drive) : BitVec 16 × Drive :=
  match d.phase with
  | .data (word :: block) lba count =>
    (word, { d with phase := if block = [] then .working lba count else .data block lba count })
  | _ => (0, d)

/-- The devices on a cable, by the bit that selects them, and whether interrupts get through. -/
structure Cable where
  second : Bool
  drives : Bool → Drive
  interrupts : Bool

/-- The device that answers. -/
def Cable.selected (c : Cable) : Drive := c.drives c.second

/-- What happens to the device that is selected. -/
def Cable.modify (c : Cable) (d : Drive) : Cable := { c with drives := update c.drives c.second d }

/-- A register of the command block is written.  Both devices see it, but a command is for the one
that is selected. -/
def Cable.write (c : Cable) : Nat → BitVec 8 → Cable
  | 1, v => { c with drives := fun which => { c.drives which with features := v } }
  | 4, v => { c with drives := fun which => { c.drives which with lbaMid := v } }
  | 5, v => { c with drives := fun which => { c.drives which with lbaHigh := v } }
  | 6, v => { c with second := v.getLsbD 4 }
  | 7, v => c.modify (c.selected.command v)
  | _, _ => c

/-- A register of the command block is read: the status, or one that is not described here. -/
def Cable.read (c : Cable) (offset : Nat) : BitVec 8 :=
  if offset = 7 then c.selected.phase.status else 0

/-- One of the devices moves; the flag says whether there is an interrupt. -/
def Cable.tick (disc : Bool → Nat → List (BitVec 16)) (which fails : Bool) (c : Cable) :
    Cable × Bool :=
  let (drive, irq) := (c.drives which).tick (disc which) fails
  ({ c with drives := update c.drives which drive }, irq && c.interrupts && which == c.second)

/-! ## What a device does by itself -/

section

variable {disc : Nat → List (BitVec 16)} {d d' : Drive} {lba count : Nat}

/-- The device may move like that while nobody touches its registers. -/
def Moves (disc : Nat → List (BitVec 16)) : Drive → Drive → Prop :=
  Relation.ReflTransGen fun d d' => ∃ fails, d' = (d.tick disc fails).1

/-- What each move keeps is kept. -/
theorem Moves.keeps {P : Drive → Prop} (kept : ∀ d fails, P d → P (d.tick disc fails).1)
    (moves : Moves disc d d') (before : P d) : P d' := by
  induction moves with
  | refl => exact before
  | tail _ step inductionHypothesis =>
    obtain ⟨fails, rfl⟩ := step
    exact kept _ fails inductionHypothesis

/-- Not busy. -/
def Phase.Still : Phase → Prop
  | .accepting => False
  | .working _ _ => False
  | _ => True

theorem still_iff (phase : Phase) : phase.Still ↔ phase.status &&& 0x80 = 0 := by
  cases phase with
  | accepting => simp [Phase.Still, Phase.status]
  | working => simp [Phase.Still, Phase.status]
  | _ => simp [Phase.Still, Phase.status]

theorem tick_of_still (still : d.phase.Still) (fails : Bool) : d.tick disc fails = (d, false) := by
  obtain ⟨phase, features, lbaMid, lbaHigh⟩ := d
  cases phase with
  | accepting => contradiction
  | working => contradiction
  | _ => rfl

/-- A device that is not busy waits for somebody else. -/
theorem Moves.eq_of_still (moves : Moves disc d d') (still : d.phase.Still) : d' = d := by
  refine @Moves.keeps disc d d' (fun e => e = d) ?_ moves rfl
  intro e fails same
  rw [same, tick_of_still still]

/-! ## Packets -/

/-- The device takes the command, or a packet, or has given up. -/
def Phase.Takes : Phase → Prop
  | .accepting => True
  | .packet words => words = []
  | .failed => True
  | _ => False

/-- The device has `count` sectors from `lba` on to give, or has given up. -/
def Phase.Serves (disc : Nat → List (BitVec 16)) (lba count : Nat) : Phase → Prop
  | .idle => count = 0
  | .working next left => next = lba ∧ left = count
  | .data block next left => block = disc lba ∧ next = lba + 1 ∧ left + 1 = count
  | .failed => True
  | _ => False

theorem takes_tick (fails : Bool) (takes : d.phase.Takes) : (d.tick disc fails).1.phase.Takes := by
  obtain ⟨phase, features, lbaMid, lbaHigh⟩ := d
  cases phase with
  | accepting =>
    simp only [Drive.tick, Phase.tick]
    split
    · trivial
    · rfl
  | packet words => exact takes
  | failed => trivial
  | _ => contradiction

theorem serves_tick (fails : Bool) (serves : d.phase.Serves disc lba count) :
    (d.tick disc fails).1.phase.Serves disc lba count := by
  obtain ⟨phase, features, lbaMid, lbaHigh⟩ := d
  cases phase with
  | working next left =>
    obtain ⟨rfl, rfl⟩ := serves
    cases left with
    | zero => rfl
    | succ left =>
      simp only [Drive.tick, Phase.tick]
      split
      · trivial
      · exact ⟨rfl, rfl, rfl⟩
  | idle => exact serves
  | data block next left => exact serves
  | failed => trivial
  | _ => contradiction

theorem Moves.takes (moves : Moves disc d d') (takes : d.phase.Takes) : d'.phase.Takes :=
  @Moves.keeps disc d d' (fun e => e.phase.Takes) (fun _ fails => takes_tick fails) moves takes

theorem Moves.serves (moves : Moves disc d d') (serves : d.phase.Serves disc lba count) :
    d'.phase.Serves disc lba count :=
  @Moves.keeps disc d d' (fun e => e.phase.Serves disc lba count) (fun _ fails => serves_tick fails)
    moves serves

/-- The device is at nothing. -/
def Phase.Rests (phase : Phase) : Prop := phase = .idle ∨ phase = .failed

theorem Phase.Rests.still {phase : Phase} (rests : phase.Rests) : phase.Still := by
  cases rests with
  | inl idle => simp [idle, Phase.Still]
  | inr failed => simp [failed, Phase.Still]

/-- A data request without an error, and not busy. -/
def Phase.Requests (phase : Phase) : Prop :=
  phase.status &&& 0x21 = 0 ∧ phase.status &&& 0x08 ≠ 0 ∧ phase.Still

/-- A device that takes a packet and requests nothing has given up. -/
theorem Phase.Takes.rests {phase : Phase} (takes : phase.Takes) (still : phase.Still)
    (none : ¬ phase.Requests) : phase.Rests := by
  cases phase with
  | packet words => exact absurd (by simp [Phase.Requests, Phase.status, Phase.Still]) none
  | failed => exact .inr rfl
  | _ => contradiction

/-- A device that serves sectors and requests nothing is through, or has given up. -/
theorem Phase.Serves.rests {phase : Phase} (serves : phase.Serves disc lba count)
    (still : phase.Still) (none : ¬ phase.Requests) : phase.Rests := by
  cases phase with
  | data block next left => exact absurd (by simp [Phase.Requests, Phase.status, Phase.Still]) none
  | idle => exact .inl rfl
  | failed => exact .inr rfl
  | _ => contradiction

/-- A device that takes a packet and requests data has none of it yet. -/
theorem Phase.Takes.packet {phase : Phase} (takes : phase.Takes) (requests : phase.Requests) :
    phase = .packet [] := by
  cases phase with
  | packet words => rw [takes]
  | failed => simp [Phase.Requests, Phase.status] at requests
  | accepting => simp [Phase.Requests, Phase.status] at requests
  | _ => contradiction

/-- A device that serves sectors and requests data offers the whole next one. -/
theorem Phase.Serves.data {phase : Phase} (serves : phase.Serves disc lba count)
    (requests : phase.Requests) :
    ∃ left, phase = .data (disc lba) (lba + 1) left ∧ left + 1 = count := by
  cases phase with
  | data block next left =>
    obtain ⟨rfl, rfl, last⟩ := serves
    exact ⟨left, rfl, last⟩
  | idle => simp [Phase.Requests, Phase.status] at requests
  | working => simp [Phase.Requests, Phase.status] at requests
  | failed => simp [Phase.Requests, Phase.status] at requests
  | _ => contradiction

/-! ## The data register -/

theorem put_phase {words : List (BitVec 16)} (word : BitVec 16) (taking : d.phase = .packet words) :
    (d.put word).phase =
      if words.length = 5 then execute (words ++ [word]) else .packet (words ++ [word]) := by
  simp only [Drive.put, taking]

theorem get_of_data {word : BitVec 16} {block : List (BitVec 16)}
    (offered : d.phase = .data (word :: block) lba count) :
    d.get = (word, { d with
      phase := if block = [] then .working lba count else .data block lba count }) := by
  simp only [Drive.get, offered]

theorem put_plain (word : BitVec 16) (d : Drive) : (d.put word).Plain ↔ d.Plain := by
  unfold Drive.put
  split
  · rfl
  · rfl

theorem get_plain (d : Drive) : d.get.2.Plain ↔ d.Plain := by
  unfold Drive.get
  split
  · rfl
  · rfl

end

end PacketDrive
