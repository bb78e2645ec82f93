import Mathlib.Algebra.Group.Nat.Defs
import Mathlib.Logic.Function.Basic
import Mathlib.Order.Interval.Set.Basic

/-! # The DMA controllers of a PC

Two 8237A controllers of four channels each.  A channel has a base address and a
count, words that are written in two bytes, and a page register outside of the
controller.  A flip-flop of the controller says which byte of a word comes next.

Channels 0 to 3 transfer bytes: the address counts bytes in a page of 64 KB.
Channels 4 to 7 transfer words: the address counts words in a page of 128 KB, and
the lowest bit of the page register is not used.  The address runs on from the end
of a page to its start. -/

namespace Dma8237

/-! ## Registers -/

/-- The registers that decide what is transferred. -/
inductive Register where
  | address (channel : Nat)
  | count (channel : Nat)
  | page (channel : Nat)
  | clearFlipFlop (controller : Nat)
  | other
  deriving DecidableEq

/-- The register at a port. -/
def register : Nat → Register
  | 0x00 => .address 0
  | 0x02 => .address 1
  | 0x04 => .address 2
  | 0x06 => .address 3
  | 0xC0 => .address 4
  | 0xC4 => .address 5
  | 0xC8 => .address 6
  | 0xCC => .address 7
  | 0x01 => .count 0
  | 0x03 => .count 1
  | 0x05 => .count 2
  | 0x07 => .count 3
  | 0xC2 => .count 4
  | 0xC6 => .count 5
  | 0xCA => .count 6
  | 0xCE => .count 7
  | 0x87 => .page 0
  | 0x83 => .page 1
  | 0x81 => .page 2
  | 0x82 => .page 3
  | 0x8F => .page 4
  | 0x8B => .page 5
  | 0x89 => .page 6
  | 0x8A => .page 7
  | 0x0C => .clearFlipFlop 0
  | 0xD8 => .clearFlipFlop 1
  | _ => .other

/-- The controller of a channel. -/
def controller (channel : Nat) : Nat := channel / 4

/-- The registers of all channels, and for each controller whether a high byte comes next. -/
structure State where
  address : Nat → Nat
  count : Nat → Nat
  page : Nat → Nat
  highNext : Nat → Bool

/-- A word with a new low or high byte. -/
def setByte (word data : Nat) (high : Bool) : Nat :=
  if high then word % 256 + 256 * data else word / 256 * 256 + data

/-- A byte is written to a port. -/
def State.write (s : State) (port data : Nat) : State :=
  match register port with
  | .address ch =>
    let high := s.highNext (controller ch)
    { s with
      address := Function.update s.address ch (setByte (s.address ch) data high)
      highNext := Function.update s.highNext (controller ch) (!high) }
  | .count ch =>
    let high := s.highNext (controller ch)
    { s with
      count := Function.update s.count ch (setByte (s.count ch) data high)
      highNext := Function.update s.highNext (controller ch) (!high) }
  | .page ch => { s with page := Function.update s.page ch data }
  | .clearFlipFlop ctrl => { s with highNext := Function.update s.highNext ctrl false }
  | .other => s

/-- Bytes are written to ports, one after the other. -/
def State.run (s : State) (writes : List (Nat × Nat)) : State :=
  writes.foldl (fun s w => s.write w.1 w.2) s

section

variable {s : State} {port data ch ctrl : Nat}

@[simp] theorem State.run_nil : s.run [] = s := rfl

@[simp] theorem State.run_cons (w : Nat × Nat) (rest : List (Nat × Nat)) :
    s.run (w :: rest) = (s.write w.1 w.2).run rest := rfl

@[simp] theorem State.run_append (writes rest : List (Nat × Nat)) :
    s.run (writes ++ rest) = (s.run writes).run rest := by
  simp [State.run]

theorem State.write_other (at_port : register port = .other) : s.write port data = s := by
  rw [State.write, at_port]

theorem State.write_page (at_port : register port = .page ch) :
    s.write port data = { s with page := Function.update s.page ch data } := by
  rw [State.write, at_port]

theorem State.write_clearFlipFlop (at_port : register port = .clearFlipFlop ctrl) :
    s.write port data = { s with highNext := Function.update s.highNext ctrl false } := by
  rw [State.write, at_port]

theorem setByte_setByte (word data : Nat) :
    setByte (setByte word (data % 256) false) (data / 256) true = data := by
  simp only [setByte, Bool.false_eq_true, if_false, if_true]
  omega

/-- The low byte and then the high byte of an address. -/
theorem State.run_address (at_port : register port = .address ch)
    (low : s.highNext (controller ch) = false) :
    s.run [(port, data % 256), (port, data / 256)] =
      { s with address := Function.update s.address ch data } := by
  simp [State.write, at_port, low, setByte_setByte]

/-- The low byte and then the high byte of a count. -/
theorem State.run_count (at_port : register port = .count ch)
    (low : s.highNext (controller ch) = false) :
    s.run [(port, data % 256), (port, data / 256)] =
      { s with count := Function.update s.count ch data } := by
  simp [State.write, at_port, low, setByte_setByte]

end

/-! ## Transfers -/

/-- The bytes of `n` units of `width` bytes from unit `start` of a page on. -/
def window (width base start n : Nat) : List Nat :=
  (List.range n).flatMap fun i =>
    (List.range width).map fun j => base + width * ((start + i) % 2 ^ 16) + j

/-- The bytes that a channel is programmed to transfer, in order. -/
def State.transfer (s : State) (ch : Nat) : List Nat :=
  if ch < 4 then window 1 (s.page ch * 2 ^ 16) (s.address ch) (s.count ch + 1)
  else window 2 (s.page ch / 2 * 2 ^ 17) (s.address ch) (s.count ch + 1)

section

variable {width base start n b : Nat}

/-- The bytes of a range of units. -/
theorem unit_range_iff (positive : 0 < width) {low high : Nat} :
    (base ≤ b ∧ low ≤ (b - base) / width ∧ (b - base) / width < high) ↔
      base + width * low ≤ b ∧ b < base + width * high := by
  rw [Nat.le_div_iff_mul_le positive, Nat.div_lt_iff_lt_mul positive, Nat.mul_comm low,
    Nat.mul_comm high]
  omega

/-- A byte is in a window when its unit is, which may be one after the end of the page. -/
theorem mem_window (positive : 0 < width) (inPage : start < 2 ^ 16) (atMost : n ≤ 2 ^ 16) :
    b ∈ window width base start n ↔
      (base + width * start ≤ b ∧ b < base + width * min (start + n) (2 ^ 16)) ∨
        (base ≤ b ∧ b < base + width * (start + n - 2 ^ 16)) := by
  have first : (base ≤ b ∧ start ≤ (b - base) / width ∧
      (b - base) / width < min (start + n) (2 ^ 16)) ↔ _ := unit_range_iff positive
  have second : (base ≤ b ∧ 0 ≤ (b - base) / width ∧
      (b - base) / width < start + n - 2 ^ 16) ↔ _ := unit_range_iff positive
  rw [Nat.mul_zero, Nat.add_zero] at second
  rw [← first, ← second]
  simp only [window, List.mem_flatMap, List.mem_range, List.mem_map]
  constructor
  · rintro ⟨i, below, j, inUnit, rfl⟩
    have unit : (base + width * ((start + i) % 2 ^ 16) + j - base) / width =
        (start + i) % 2 ^ 16 := by
      rw [Nat.add_assoc, Nat.add_sub_cancel_left, Nat.mul_add_div positive,
        Nat.div_eq_of_lt inUnit, Nat.add_zero]
    rw [unit]
    omega
  · intro inside
    have above : base ≤ b := by omega
    have division := Nat.div_add_mod (b - base) width
    have inUnit := Nat.mod_lt (b - base) positive
    generalize (b - base) / width = unit at inside division
    refine ⟨if start ≤ unit then unit - start else unit + 2 ^ 16 - start, by split <;> omega,
      (b - base) % width, inUnit, ?_⟩
    have same : (start + if start ≤ unit then unit - start else unit + 2 ^ 16 - start) % 2 ^ 16 =
        unit := by
      split <;> omega
    rw [same]
    omega

theorem Ico_add_inj {a count a' count' : Nat} (some : 0 < count)
    (some' : 0 < count') : Set.Ico a (a + count) = Set.Ico a' (a' + count') ↔
      a' = a ∧ count' = count := by
  constructor
  · intro same
    have bounds : ∀ b, (a ≤ b ∧ b < a + count) ↔ (a' ≤ b ∧ b < a' + count') :=
      fun b => Set.ext_iff.mp same b
    have first := bounds a
    have first' := bounds a'
    have last := bounds (a + count - 1)
    have last' := bounds (a' + count' - 1)
    omega
  · rintro ⟨rfl, rfl⟩
    rfl

/-- A window is an interval of bytes when it does not run over the end of the page, or when it is
the whole page. -/
theorem window_eq_Ico_iff {a count : Nat} (positive : 0 < width) (inPage : start < 2 ^ 16)
    (some : 0 < n) (atMost : n ≤ 2 ^ 16) (nonempty : 0 < count) :
    {b | b ∈ window width base start n} = Set.Ico a (a + count) ↔
      (start + n ≤ 2 ^ 16 ∧ a = base + width * start ∧ count = width * n) ∨
        (n = 2 ^ 16 ∧ a = base ∧ count = width * 2 ^ 16) := by
  have members : ∀ b, b ∈ window width base start n ↔ _ := fun b =>
    mem_window positive inPage atMost
  by_cases runs : start + n ≤ 2 ^ 16
  · have interval : {b | b ∈ window width base start n} =
        Set.Ico (base + width * start) (base + width * start + width * n) := by
      ext b
      rw [Set.mem_ofPred_eq, members b, Nat.min_eq_left runs, Nat.sub_eq_zero_of_le runs,
        Nat.mul_add, Nat.mul_zero, Set.mem_Ico]
      omega
    rw [interval, Ico_add_inj (Nat.mul_pos positive some) nonempty]
    constructor
    · exact fun same => .inl ⟨runs, same⟩
    · rintro (⟨-, same⟩ | ⟨rfl, rfl, rfl⟩)
      · exact same
      · obtain rfl : start = 0 := by omega
        exact ⟨by simp, rfl⟩
  · by_cases whole : n = 2 ^ 16
    · subst whole
      have interval : {b | b ∈ window width base start (2 ^ 16)} =
          Set.Ico base (base + width * 2 ^ 16) := by
        have part := Nat.mul_le_mul_left width inPage.le
        ext b
        rw [Set.mem_ofPred_eq, members b, Nat.min_eq_right (by omega), Nat.add_sub_cancel,
          Set.mem_Ico]
        omega
      rw [interval, Ico_add_inj (Nat.mul_pos positive some) nonempty]
      constructor
      · exact fun same => .inr ⟨rfl, same⟩
      · rintro (⟨stays, -⟩ | ⟨-, same⟩)
        · exact absurd stays runs
        · exact same
    · constructor
      · intro same
        exfalso
        have part (low high : Nat) (below : low < high) : width * low < width * high :=
          Nat.mul_lt_mul_of_pos_left below positive
        have interval : ∀ b, b ∈ window width base start n ↔ a ≤ b ∧ b < a + count :=
          fun b => Set.ext_iff.mp same b
        simp only [members, Nat.min_eq_right (show 2 ^ 16 ≤ start + n by omega)] at interval
        -- the units before `start` that are left out separate the two ends of the page
        have low := part 0 (start + n - 2 ^ 16) (by omega)
        have left := part (start + n - 2 ^ 16) start (by omega)
        have right := part start (2 ^ 16) inPage
        have first := interval base
        have gap := interval (base + width * (start + n - 2 ^ 16))
        have last := interval (base + width * 2 ^ 16 - 1)
        omega
      · rintro (⟨stays, -⟩ | ⟨all, -⟩)
        · exact absurd stays runs
        · exact absurd all whole

end

end Dma8237
