import Antonix.Ps2.Keyboard
import Mathlib.Data.List.Infix

/-! # The queue of typed characters

The characters that the readers got, followed by those that wait, are at every time the
ones that the codes so far have typed, where a key that the tables do not have types a
`NUL`. -/

namespace Antonix.Ps2

open Transition

variable {kb kb' : Keyboard} {code key : BitVec 8} {seen codes : List (BitVec 8)}
  {events : List Event}

/-! ## The key map -/

/-- The key map has what the codes so far say of each key. -/
def Knows (kb : Keyboard) (seen : List (BitVec 8)) : Prop :=
  ∀ key, key &&& 0x80 = 0 → kb.keydownMap key = isDown key seen

theorem and_127_of_make : ∀ code : BitVec 8, code &&& 0x80 = 0 → code &&& 0x7F = code := by
  decide

theorem setDown_keydownMap (down : Bool) :
    (kb.setDown code down).keydownMap key = if key = code then down else kb.keydownMap key := rfl

theorem isDown_snoc :
    isDown key (seen ++ [code]) =
      if code &&& 0x7F = key then decide (code = key) else isDown key seen := by
  by_cases same : code &&& 0x7F = key
  · have alone : [code].filter (fun code => code &&& 0x7F = key) = [code] :=
      List.filter_cons_of_pos (decide_eq_true same)
    rw [if_pos same, isDown, List.filter_append, alone, List.getLast?_concat]
    simp only [Option.some.injEq]
  · have other : ¬ decide (code &&& 0x7F = key) = true := fun agrees =>
      same (of_decide_eq_true agrees)
    have none : [code].filter (fun code => code &&& 0x7F = key) = [] :=
      List.filter_cons_of_neg other
    rw [if_neg same, isDown, List.filter_append, none, List.append_nil, isDown]

theorem Knows.make (knows : Knows kb seen) (make : code &&& 0x80 = 0) :
    Knows (kb.setDown code true) (seen ++ [code]) := by
  intro key low
  rw [isDown_snoc, and_127_of_make code make]
  rw [setDown_keydownMap]
  by_cases same : code = key
  · rw [if_pos same.symm, if_pos same, decide_eq_true same]
  · rw [if_neg (Ne.symm same), if_neg same, knows key low]

theorem Knows.break (knows : Knows kb seen) (broken : code &&& 0x80 ≠ 0) :
    Knows (kb.setDown (code &&& 0x7F) false) (seen ++ [code]) := by
  intro key low
  rw [isDown_snoc, setDown_keydownMap]
  by_cases same : code &&& 0x7F = key
  · have other : code ≠ key := by
      rintro rfl
      exact broken low
    rw [if_pos same.symm, if_pos same, decide_eq_false other]
  · rw [if_neg (Ne.symm same), if_neg same, knows key low]

theorem Knows.congr (knows : Knows kb seen) (same : kb'.keydownMap = kb.keydownMap) :
    Knows kb' seen := by
  intro key low
  rw [same]
  exact knows key low

/-! ## What a call does to the queue -/

theorem pending_append (entry : BitVec 16) :
    (kb.append entry).pending = kb.pending ++ [entry.setWidth 8] := by
  have kept : Buffer.readAt (kb.append entry).kbdBuffer 0 kb.kbdPtr = kb.pending := by
    apply Buffer.readAt_congr
    intro i below
    exact Buffer.writeAt_outside (.inl (by omega))
  have added : Buffer.readAt (kb.append entry).kbdBuffer (0 + kb.kbdPtr) 1 =
      [entry.setWidth 8] := by
    rw [Nat.zero_add]
    exact Buffer.readAt_writeAt
  calc (kb.append entry).pending
      = Buffer.readAt (kb.append entry).kbdBuffer 0 (kb.kbdPtr + 1) := rfl
    _ = kb.pending ++ [entry.setWidth 8] := by rw [Buffer.readAt_add, kept, added]

theorem toggle_fields (entry : BitVec 16) :
    (kb.toggle entry).pending = kb.pending ∧ (kb.toggle entry).keydownMap = kb.keydownMap := by
  unfold Keyboard.toggle
  split_ifs
  all_goals exact ⟨rfl, rfl⟩

/-- The first character leaves and the others move up. -/
theorem pending_eq_cons (waiting : kb.kbdPtr ≠ 0) :
    kb.pending = kb.kbdBuffer 0 ::
      Buffer.readAt (Buffer.shiftDown kb.kbdBuffer 0 (kb.kbdPtr - 1)) 0 (kb.kbdPtr - 1) := by
  obtain ⟨rest, count⟩ := Nat.exists_eq_succ_of_ne_zero waiting
  have shifted := @Buffer.readAt_shiftDown _ kb.kbdBuffer 0 rest
  rw [Nat.zero_add, Buffer.readAt_zero, List.nil_append] at shifted
  have whole : kb.pending = Buffer.readAt kb.kbdBuffer 0 (1 + rest) := by
    rw [Keyboard.pending, count, Nat.succ_eq_add_one, Nat.add_comm]
  rw [whole, Buffer.readAt_add, count, Nat.succ_eq_add_one, Nat.add_sub_cancel, shifted]
  rfl

theorem lastTyped_snoc (counts : BitVec 16 → Bool) :
    lastTyped counts (seen ++ [code]) =
      if code &&& 0x80 = 0 ∧ counts (translation (seen ++ [code]) code) then
        [(translation (seen ++ [code]) code).setWidth 8]
      else [] := by
  simp [lastTyped]

/-- A code that is handled adds what it types. -/
theorem keyboardIrqHandler_spec (knows : Knows kb seen)
    (handled : keyboardIrqHandler code kb = .ok kb') :
    kb'.pending = kb.pending ++ lastTyped isAsciiSym (seen ++ [code]) ∧
      Knows kb' (seen ++ [code]) := by
  unfold keyboardIrqHandler at handled
  by_cases full : kb.kbdPtr ≥ 256
  · rw [if_pos full] at handled
    cases handled
  rw [if_neg full] at handled
  by_cases make : code &&& 0x80 = 0
  · rw [if_neg (not_not.mpr make)] at handled
    have pressed := knows.make make
    -- the table is chosen by the shift keys that are down after this code
    have translated : (if (kb.setDown code true).keydownMap 0x2A ||
          (kb.setDown code true).keydownMap 0x36 then entry keyboardScs1Uc code
        else entry keyboardScs1 code) = translation (seen ++ [code]) code := by
      rw [pressed 0x2A rfl, pressed 0x36 rfl, translation]
      split
      · rfl
      · rfl
    simp only [translated] at handled
    rw [lastTyped_snoc]
    by_cases shown : isAsciiSym (translation (seen ++ [code]) code)
    · rw [if_pos shown] at handled
      cases handled
      rw [if_pos ⟨make, shown⟩]
      exact ⟨pending_append _, pressed⟩
    · rw [if_neg shown] at handled
      cases handled
      obtain ⟨samePending, sameMap⟩ :=
        @toggle_fields (kb.setDown code true) (translation (seen ++ [code]) code)
      rw [if_neg fun both => shown both.2, List.append_nil]
      exact ⟨samePending, pressed.congr sameMap⟩
  · -- a break code releases its key and types nothing
    rw [if_pos make] at handled
    cases handled
    rw [lastTyped_snoc, if_neg fun both => make both.1, List.append_nil]
    exact ⟨rfl, knows.break make⟩

theorem getch_spec {res : BitVec 8} (taken : getch kb = .ok (res, kb')) :
    kb.pending = res :: kb'.pending ∧ kb'.keydownMap = kb.keydownMap := by
  unfold getch at taken
  by_cases empty : kb.kbdPtr = 0
  · rw [if_pos empty] at taken
    cases taken
  · rw [if_neg empty] at taken
    cases taken
    exact ⟨pending_eq_cons empty, rfl⟩

theorem readch_spec {hr : HResult} {c : Option (BitVec 8)} (taken : readch kb = (hr, c, kb')) :
    kb.pending = c.toList ++ kb'.pending ∧ kb'.keydownMap = kb.keydownMap := by
  unfold readch at taken
  by_cases empty : kb.kbdPtr = 0
  · rw [if_pos empty] at taken
    cases taken
    exact ⟨rfl, rfl⟩
  · rw [if_neg empty] at taken
    cases taken
    exact ⟨pending_eq_cons empty, rfl⟩

/-! ## Whole sessions -/

theorem typed_snoc (counts : BitVec 16 → Bool) :
    typed counts (codes ++ [code]) = typed counts codes ++ lastTyped counts (codes ++ [code]) := by
  simp [typed, List.inits_append]

/-- After some events the key map is known, and what was typed has been returned or waits. -/
structure Served (events : List Event) (kb : Keyboard) : Prop where
  knows : Knows kb (events.flatMap Event.scanned)
  queued : events.flatMap Event.returned ++ kb.pending =
    typed isAsciiSym (events.flatMap Event.scanned)

theorem served_nil : Served [] Keyboard.initial where
  knows := fun _ _ => rfl
  queued := rfl

theorem Served.step {event : Event} (served : Served events kb) (serves : event.Serves kb kb') :
    Served (events ++ [event]) kb' := by
  have scannedSnoc : (events ++ [event]).flatMap Event.scanned =
      events.flatMap Event.scanned ++ event.scanned := by simp
  have returnedSnoc : (events ++ [event]).flatMap Event.returned =
      events.flatMap Event.returned ++ event.returned := by simp
  cases event with
  | scan code =>
    obtain ⟨added, knows⟩ := keyboardIrqHandler_spec served.knows serves
    constructor
    · rw [scannedSnoc]
      exact knows
    · rw [scannedSnoc, returnedSnoc, added]
      simp only [Event.scanned, Event.returned, List.append_nil]
      rw [typed_snoc, ← served.queued, List.append_assoc]
  | getch res =>
    obtain ⟨left, sameMap⟩ := getch_spec serves
    constructor
    · rw [scannedSnoc]
      simp only [Event.scanned, List.append_nil]
      exact served.knows.congr sameMap
    · rw [scannedSnoc, returnedSnoc]
      simp only [Event.scanned, Event.returned, List.append_nil]
      rw [← served.queued, left, List.append_assoc, List.singleton_append]
  | readch hr c =>
    obtain ⟨left, sameMap⟩ := readch_spec serves
    constructor
    · rw [scannedSnoc]
      simp only [Event.scanned, List.append_nil]
      exact served.knows.congr sameMap
    · rw [scannedSnoc, returnedSnoc]
      simp only [Event.scanned, Event.returned, List.append_nil]
      rw [← served.queued, left, List.append_assoc]

theorem served_of_run (run : Run (fun kb (event : Event) kb' => event.Serves kb kb')
    Keyboard.initial events kb) : Served events kb :=
  run.history Served served_nil fun _ _ _ _ served serves => served.step serves

/-! ## Keys without an entry -/

theorem entry_eq_zero_iff : ∀ code : BitVec 8, code &&& 0x80 = 0 →
    ((entry keyboardScs1 code = 0 ↔ Unassigned code) ∧
      (entry keyboardScs1Uc code = 0 ↔ Unassigned code)) := by
  decide

theorem translation_eq_zero_iff (make : code &&& 0x80 = 0) :
    translation seen code = 0 ↔ Unassigned code := by
  obtain ⟨lower, upper⟩ := entry_eq_zero_iff code make
  unfold translation
  split
  · exact upper
  · exact lower

theorem not_unassigned_of_break :
    ∀ code : BitVec 8, code &&& 0x80 ≠ 0 → ¬ Unassigned code := by
  decide

/-- Leaving out the keys without an entry changes what one code types only when it is one. -/
theorem lastTyped_isCharacter :
    lastTyped isCharacter (seen ++ [code]) =
      if Unassigned code then [] else lastTyped isAsciiSym (seen ++ [code]) := by
  rw [lastTyped_snoc, lastTyped_snoc]
  by_cases make : code &&& 0x80 = 0
  · by_cases missing : Unassigned code
    · -- the entry is 0, which `IS_ASCII_SYM` takes for a character
      have zero := (@translation_eq_zero_iff _ (seen ++ [code]) make).mpr missing
      have uncounted : ¬ isCharacter (translation (seen ++ [code]) code) = true := by
        rw [zero]
        decide
      rw [if_pos missing, if_neg fun both => uncounted both.2]
    · have nonzero := mt (@translation_eq_zero_iff _ (seen ++ [code]) make).mp missing
      have agrees : isCharacter (translation (seen ++ [code]) code) =
          isAsciiSym (translation (seen ++ [code]) code) := by
        rw [isCharacter, bne_iff_ne.mpr nonzero, Bool.and_true]
      rw [if_neg missing, agrees]
  · have counts (p : Prop) : ¬ (code &&& 0x80 = 0 ∧ p) := fun both => make both.1
    rw [if_neg (counts _), if_neg (counts _), ite_self]

theorem lastTyped_of_unassigned (make : code &&& 0x80 = 0) (missing : Unassigned code) :
    lastTyped isAsciiSym (seen ++ [code]) = [0] := by
  rw [lastTyped_snoc, (translation_eq_zero_iff make).mpr missing]
  exact if_pos ⟨make, rfl⟩

theorem length_typed_isCharacter :
    (typed isCharacter codes).length + codes.countP (fun code => Unassigned code) =
      (typed isAsciiSym codes).length := by
  induction codes using List.reverseRecOn with
  | nil => rfl
  | append_singleton codes code inductionHypothesis =>
    rw [typed_snoc, typed_snoc, List.length_append, List.length_append, List.countP_append,
      List.countP_singleton, lastTyped_isCharacter, ← inductionHypothesis]
    by_cases missing : Unassigned code
    · have make : code &&& 0x80 = 0 := by
        by_contra broken
        exact not_unassigned_of_break code broken missing
      rw [if_pos missing, lastTyped_of_unassigned make missing, if_pos (decide_eq_true missing)]
      simp only [List.length_nil, List.length_singleton]
      omega
    · have counted : ¬ decide (Unassigned code) = true := fun yes =>
        missing (of_decide_eq_true yes)
      rw [if_neg missing, if_neg counted]
      omega

theorem typed_isCharacter_of_assigned (assigned : ∀ code ∈ codes, ¬ Unassigned code) :
    typed isCharacter codes = typed isAsciiSym codes := by
  induction codes using List.reverseRecOn with
  | nil => rfl
  | append_singleton codes code inductionHypothesis =>
    have last : ¬ Unassigned code := assigned code (by simp)
    have before := inductionHypothesis fun code' member => assigned code' (by simp [member])
    rw [typed_snoc, typed_snoc, lastTyped_isCharacter, if_neg last, before]

/-- The queue holds the characters that were typed exactly while no key without an entry is
pressed: each of those adds a `NUL`. -/
theorem typed_isCharacter_iff :
    typed isAsciiSym codes = typed isCharacter codes ↔ ∀ code ∈ codes, ¬ Unassigned code := by
  constructor
  · intro same code member missing
    have counted := @length_typed_isCharacter codes
    rw [same] at counted
    have positive : 0 < codes.countP fun code => Unassigned code :=
      List.countP_pos_iff.mpr ⟨code, member, decide_eq_true missing⟩
    omega
  · intro assigned
    exact (typed_isCharacter_of_assigned assigned).symm

/-! ## The characters returned -/

theorem keyboardIrqHandler_returns (room : kb.kbdPtr < 256) (code : BitVec 8) :
    ∃ kb', keyboardIrqHandler code kb = .ok kb' := by
  unfold keyboardIrqHandler
  rw [if_neg (Nat.not_le.mpr room)]
  simp only
  split_ifs
  all_goals exact ⟨_, rfl⟩

theorem length_pending : kb.pending.length = kb.kbdPtr := Buffer.length_readAt

/-- In every session the characters returned, followed by those that wait, are the ones typed,
exactly when no make code without an entry was handled.  While fewer than 256 wait the handler
returns, and so do `getch` on a queue that is not empty and `readch`. -/
theorem keyboard_types_iff (events : List Event) (kb : Keyboard)
    (run : Run (fun kb (event : Event) kb' => event.Serves kb kb') Keyboard.initial events kb) :
    (events.flatMap Event.returned ++ kb.pending =
        typed isCharacter (events.flatMap Event.scanned) ↔
      ∀ code ∈ events.flatMap Event.scanned, ¬ Unassigned code) ∧
    (kb.pending.length < 256 → ∀ code, ∃ kb', (Event.scan code).Serves kb kb') ∧
    (kb.pending ≠ [] → ∃ res kb', (Event.getch res).Serves kb kb') ∧
    ∃ hr c kb', (Event.readch hr c).Serves kb kb' := by
  have served := served_of_run run
  refine ⟨?_, ?_, ?_, ⟨_, _, _, rfl⟩⟩
  · rw [served.queued]
    exact typed_isCharacter_iff
  · intro room code
    rw [length_pending] at room
    exact keyboardIrqHandler_returns room code
  · intro waiting
    have nonempty : kb.kbdPtr ≠ 0 := by
      intro empty
      rw [← length_pending] at empty
      exact waiting (List.eq_nil_of_length_eq_zero empty)
    exact ⟨_, _, if_neg nonempty⟩

/-- Shift and `a`, then `a` alone, read by both readers. -/
theorem keyboard_types_shifted :
    [0x41, 0x61] ++ Keyboard.initial.pending =
      typed isCharacter [0x2A, 0x1E, 0xAA, 0x9E, 0x1E] := by
  have run : ∃ kb, Run (fun kb (event : Event) kb' => event.Serves kb kb') Keyboard.initial
      [.scan 0x2A, .scan 0x1E, .scan 0xAA, .getch 0x41, .scan 0x9E, .scan 0x1E,
        .readch .sOk (some 0x61)] kb ∧ kb.pending = [] :=
    ⟨_, .cons rfl (.cons rfl (.cons rfl (.cons rfl (.cons rfl (.cons rfl (.cons rfl (.nil _))))))),
      rfl⟩
  obtain ⟨kb, run, empty⟩ := run
  have types := (keyboard_types_iff _ kb run).1.mpr (by decide)
  rw [empty] at types
  exact types

/-- `VKEY_F11` is 0xFF57, after the make code 0x57 of the key, and no character; `getch` returns
a `NUL` for it. -/
theorem keyboard_types_nul :
    (∃ kb, Run (fun kb (event : Event) kb' => event.Serves kb kb') Keyboard.initial
      [.scan 0x57, .getch 0] kb) ∧ typed isCharacter [0x57] = [] :=
  ⟨⟨_, .cons rfl (.cons rfl (.nil _))⟩, by decide⟩

end Antonix.Ps2
