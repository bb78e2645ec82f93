import Antonix.Libc.Sprintf

/-! # What `vsprintf` prints

`__sprint_dec` reverses the digits of a number in an `int` before it writes them, and a
number of ten digits may have a reversal that does not fit.  All other text is right. -/

namespace Antonix.Libc

/-- The reversed digits of a number fit an `int`. -/
def Reversible (v : BitVec 32) : Prop := Numeral.reversal 10 v.toInt.natAbs < 2 ^ 31

instance (v : BitVec 32) : Decidable (Reversible v) := inferInstanceAs (Decidable (_ < _))

/-! ## Writing text -/

section

variable {target : Target} {dst : Nat}

theorem put_writeAt {text : List (BitVec 8)} {c : BitVec 8} :
    put (Buffer.writeAt target dst text) (dst + text.length) c =
      Buffer.writeAt target dst (text ++ [c]) :=
  Buffer.writeAt_append

/-- A text with its terminator. -/
theorem put_terminator {text : List (BitVec 8)} :
    put (Buffer.writeAt target 0 text) text.length 0 = Buffer.writeAt target 0 (text ++ [0]) := by
  have behind := @put_writeAt target 0 text 0
  rwa [Nat.zero_add] at behind

theorem writeAt_put {text : List (BitVec 8)} {c : BitVec 8} :
    Buffer.writeAt (put target dst c) (dst + 1) text = Buffer.writeAt target dst (c :: text) :=
  Buffer.writeAt_append

/-! ## Hexadecimal numerals -/

theorem hexmap_eq {d : Nat} (digit : d < 16) : hexmap.getD d 0 = digitChar d := by
  revert d
  decide

theorem countHex_eq (num : Nat) : countHex num = (Numeral.digits 16 num).length := by
  induction num using countHex.induct with
  | case1 num more inductionHypothesis =>
    have digits := Numeral.digits_of_le (b := 16) (n := num) (by decide) (by omega)
    rw [countHex, if_pos more, inductionHypothesis, digits, List.length_append,
      List.length_singleton]
  | case2 num last =>
    rw [countHex, if_neg last, Numeral.digits_of_lt (by omega), List.length_singleton]

theorem fillHex_eq (usrc : Nat) :
    ∀ target dst, fillHex target (dst + (Numeral.digits 16 usrc).length) usrc =
      (Buffer.writeAt target dst ((Numeral.digits 16 usrc).map digitChar), dst) := by
  induction usrc using Nat.strong_induction_on with
  | _ usrc inductionHypothesis =>
    intro target dst
    have digit : usrc % 16 < 16 := Nat.mod_lt _ (by decide)
    rw [fillHex]
    by_cases more : usrc / 16 > 0
    · -- the higher digits go in front of the last one, which is already in its place
      have digits := Numeral.digits_of_le (b := 16) (n := usrc) (by decide) (by omega)
      have before : dst + (Numeral.digits 16 usrc).length - 1 =
          dst + (Numeral.digits 16 (usrc / 16)).length := by
        rw [digits, List.length_append, List.length_singleton]
        omega
      simp only [if_pos more, before, inductionHypothesis _ (by omega : usrc / 16 < usrc)]
      rw [put, hexmap_eq digit, digits, List.map_append, List.map_singleton]
      have length : dst + (Numeral.digits 16 (usrc / 16)).length =
          dst + ((Numeral.digits 16 (usrc / 16)).map digitChar).length := by rw [List.length_map]
      rw [length, Buffer.writeAt_prepend]
    · have digits := Numeral.digits_of_lt (b := 16) (n := usrc) (by omega)
      have small : usrc % 16 = usrc := Nat.mod_eq_of_lt (by omega)
      rw [if_neg more, digits, List.length_singleton, Nat.add_sub_cancel, List.map_singleton, put,
        hexmap_eq digit, small]

theorem sprintHex_eq (v : BitVec 32) :
    sprintHex target dst v = (Buffer.writeAt target dst (hexadecimal v.toNat),
      dst + (hexadecimal v.toNat).length) := by
  have length : (hexadecimal v.toNat).length = (Numeral.digits 16 v.toNat).length + 2 := by
    rw [hexadecimal, List.length_cons, List.length_cons, List.length_map]
  simp only [sprintHex, countHex_eq, fillHex_eq, length]
  rw [hexadecimal, ← writeAt_put, ← writeAt_put]
  congr 1
  omega

/-! ## Decimal numerals -/

/-- The character that is written for a remainder. -/
def remainderChar (m : Int) : BitVec 8 := BitVec.ofInt 8 (0x30 + m)

theorem fillDec_eq (cnt : Nat) : ∀ target dst (reversed : Int),
    fillDec target dst reversed cnt =
      (Buffer.writeAt target dst ((Numeral.peel 10 (max cnt 1) reversed).map remainderChar),
        dst + max cnt 1) := by
  induction cnt with
  | zero => exact fun _ _ _ => rfl
  | succ cnt inductionHypothesis =>
    intro target dst reversed
    cases cnt with
    | zero => rfl
    | succ cnt =>
      have least : max (cnt + 1) 1 = cnt + 1 := by omega
      have most : max (cnt + 2) 1 = cnt + 1 + 1 := by omega
      have digits : Numeral.peel 10 (cnt + 1 + 1) reversed =
          reversed.tmod 10 :: Numeral.peel 10 (cnt + 1) (reversed.tdiv 10) := rfl
      have past : dst + 1 + (cnt + 1) = dst + (cnt + 1 + 1) := by omega
      rw [fillDec, inductionHypothesis, least, most, digits, List.map_cons, remainderChar,
        writeAt_put, past]

theorem i32_step (v d : Nat) : i32 (i32 (i32 v * 10) + d) = i32 ((10 * v + d : Nat) : Int) := by
  simp only [i32, Int.bmod_def]
  omega

theorem reverseDec_eq (src : Nat) : ∀ v cnt,
    reverseDec src (i32 (v : Nat)) cnt =
      (i32 ((Nat.digits 10 src).foldl (fun v d => 10 * v + d) v : Nat),
        cnt + (Nat.digits 10 src).length) := by
  induction src using Nat.strong_induction_on with
  | _ src inductionHypothesis =>
    intro v cnt
    by_cases positive : 0 < src
    · have digit : (src : Int).tmod 10 = (src % 10 : Nat) := rfl
      have rest : (src : Int).tdiv 10 = (src / 10 : Nat) := rfl
      rw [reverseDec, if_pos (by omega), digit, rest, i32_step,
        inductionHypothesis (src / 10) (by omega), Nat.digits_def' (by decide) positive,
        List.foldl_cons, List.length_cons]
      congr 1
      omega
    · rw [reverseDec, if_neg (by omega), Nat.eq_zero_of_not_pos positive]
      simp

theorem i32_eq_iff {n : Nat} : i32 n = n ↔ n < 2 ^ 31 := by
  simp only [i32, Int.bmod_def]
  omega

theorem natAbs_i32_le (x : Int) : (i32 x).natAbs ≤ 2 ^ 31 := by
  simp only [i32, Int.bmod_def]
  omega

/-- Remainders are written as digits when they are digits. -/
theorem map_remainderChar_eq {ms : List Int} {ds : List Nat}
    (remainders : ∀ m ∈ ms, -10 < m ∧ m < 10) (digits : ∀ d ∈ ds, d < 10) :
    ms.map remainderChar = ds.map digitChar ↔ ms = ds.map Nat.cast := by
  induction ms generalizing ds with
  | nil => cases ds with
    | nil => simp
    | cons d ds => simp
  | cons m ms inductionHypothesis => cases ds with
    | nil => simp
    | cons d ds =>
      obtain ⟨range, ranges⟩ := List.forall_mem_cons.mp remainders
      obtain ⟨digit, digits'⟩ := List.forall_mem_cons.mp digits
      have same : remainderChar m = digitChar d ↔ m = d := by
        rw [digitChar, if_pos digit, remainderChar, ← BitVec.toNat_inj]
        simp only [BitVec.toNat_ofInt, BitVec.toNat_ofNat]
        omega
      rw [List.map_cons, List.map_cons, List.map_cons, List.cons.injEq, List.cons.injEq, same,
        inductionHypothesis ranges digits']

theorem mem_peel_range {count : Nat} {r m : Int} (member : m ∈ Numeral.peel 10 count r) :
    -10 < m ∧ m < 10 := by
  induction count generalizing r with
  | zero => cases member
  | succ count inductionHypothesis =>
    obtain rfl | later := List.mem_cons.mp member
    · constructor
      · exact Int.lt_tmod_of_pos r (by decide)
      · exact Int.tmod_lt_of_pos r (by decide)
    · exact inductionHypothesis later

/-- The digits of a number below `2 ^ 31` as the two loops write them. -/
theorem digitsOut_eq {n : Nat} (small : n < 2 ^ 31) :
    ∃ text : List (BitVec 8),
      (∀ target dst, fillDec target dst (reverseDec n 0 0).1 (reverseDec n 0 0).2 =
        (Buffer.writeAt target dst text, dst + text.length)) ∧
      text.length = (Numeral.digits 10 n).length ∧
      (text = (Numeral.digits 10 n).map digitChar ↔ Numeral.reversal 10 n < 2 ^ 31) := by
  have reversed : reverseDec n 0 0 =
      (i32 (Numeral.reversal 10 n : Nat), (Nat.digits 10 n).length) := by
    have loop := reverseDec_eq n 0 0
    rwa [Nat.zero_add] at loop
  let count := max (Nat.digits 10 n).length 1
  let peeled := Numeral.peel 10 count (i32 (Numeral.reversal 10 n : Nat))
  have length : (peeled.map remainderChar).length = count := by
    rw [List.length_map, Numeral.length_peel]
  refine ⟨peeled.map remainderChar, ?_, ?_, ?_⟩
  · intro target dst
    rw [reversed, fillDec_eq, length]
  · rw [length]
    by_cases zero : n = 0
    · simp [count, zero, Numeral.digits]
    · have some : (Nat.digits 10 n).length ≠ 0 := by
        simpa [Nat.digits_eq_nil_iff_eq_zero] using zero
      rw [Numeral.digits_of_pos zero, List.length_reverse]
      omega
  · by_cases zero : n = 0
    · have digit : Numeral.digits 10 n = [0] := by rw [zero]; rfl
      have nothing : peeled = [0] := by simp only [peeled, count, zero]; rfl
      have none : Numeral.reversal 10 n = 0 := by rw [zero]; rfl
      rw [digit, nothing, none]
      decide
    · -- as many digits are taken off the reversal as the number has
      have positive : (Nat.digits 10 n).length ≠ 0 := by
        simpa [Nat.digits_eq_nil_iff_eq_zero] using zero
      have exactly : count = (Nat.digits 10 n).reverse.length := by
        rw [List.length_reverse]
        omega
      have small : ∀ d ∈ (Nat.digits 10 n).reverse, d < 10 := fun d member =>
        Nat.digits_lt_base (by decide) (List.mem_reverse.mp member)
      have fits : (i32 (Numeral.reversal 10 n : Nat)).natAbs <
          10 ^ (Nat.digits 10 n).reverse.length := by
        rw [List.length_reverse]
        by_cases short : (Nat.digits 10 n).length ≤ 9
        · -- no reversal of nine digits wraps
          have below := Numeral.reversal_lt (b := 10) (by decide) n
          have nine : 10 ^ (Nat.digits 10 n).length ≤ 10 ^ 9 :=
            Nat.pow_le_pow_right (by decide) short
          rw [i32_of_small (by omega), Int.natAbs_natCast]
          exact below
        · -- a number of ten digits has more room than an `int`
          have ten : 10 ^ 10 ≤ 10 ^ (Nat.digits 10 n).length :=
            Nat.pow_le_pow_right (by decide) (by omega)
          have range := natAbs_i32_le (Numeral.reversal 10 n : Nat)
          omega
      rw [Numeral.digits_of_pos zero,
        map_remainderChar_eq (fun m member => mem_peel_range member) small]
      simp only [exactly]
      refine (Numeral.peel_eq_iff (by decide) small fits).trans ?_
      rw [← Numeral.reversal_eq, i32_eq_iff]

/-- A decimal numeral is right when the reversed digits fit an `int`. -/
theorem sprintDec_eq (v : BitVec 32) :
    ∃ text : List (BitVec 8),
      (∀ target dst, sprintDec target dst v =
        (Buffer.writeAt target dst text, dst + text.length)) ∧
      text.length ≤ (decimal v.toInt).length ∧ (text = decimal v.toInt ↔ Reversible v) := by
  have low := BitVec.le_toInt v
  have high := BitVec.toInt_lt (x := v)
  by_cases least : v.toInt = -2 ^ 31
  · -- the sign cannot be dropped, and no digit is counted
    refine ⟨[0x2D, 0x30], ?_, ?_, ?_⟩
    · intro target dst
      have stays : i32 (v.toInt * -1) = -2 ^ 31 := by rw [least]; rfl
      have none : reverseDec (-2 ^ 31) 0 0 = (0, 0) := by
        rw [reverseDec]
        rfl
      have both : put (put target dst 0x2D) (dst + 1) 0x30 =
          Buffer.writeAt target dst [0x2D, 0x30] := writeAt_put
      simp only [sprintDec, if_pos (by omega : v.toInt < 0), stays, none, fillDec]
      exact Prod.ext both rfl
    · rw [least]
      decide
    · rw [Reversible, least]
      decide
  · obtain ⟨text, written, length, right⟩ := digitsOut_eq (n := v.toInt.natAbs) (by omega)
    by_cases negative : v.toInt < 0
    · refine ⟨0x2D :: text, ?_, ?_, ?_⟩
      · intro target dst
        have magnitude : i32 (v.toInt * -1) = (v.toInt.natAbs : Nat) := by
          rw [i32_of_range (by omega) (by omega)]
          omega
        simp only [sprintDec, if_pos negative, magnitude, written]
        rw [writeAt_put, List.length_cons]
        congr 1
        omega
      · rw [decimal, if_pos negative, List.length_cons, length, List.length_append,
          List.length_map, List.length_singleton]
        omega
      · rw [decimal, if_pos negative, List.singleton_append, List.cons.injEq, Reversible, ← right]
        exact and_iff_right rfl
    · refine ⟨text, ?_, ?_, ?_⟩
      · intro target dst
        have magnitude : v.toInt = (v.toInt.natAbs : Nat) := by omega
        simp only [sprintDec, if_neg negative]
        rw [magnitude]
        exact written target dst
      · rw [decimal, if_neg negative, List.nil_append, List.length_map, length]
      · rw [decimal, if_neg negative, List.nil_append, Reversible, ← right]

end

/-! ## Formats -/

/-- `fmt` with `args` stands for `out`: each place holder for its argument, every other character
for itself.  `%` before any other character stands for `other`. -/
inductive Renders (other : BitVec 8 → List (BitVec 8)) :
    List (BitVec 8) → List VaArg → List (BitVec 8) → Prop
  | nil (args : List VaArg) : Renders other [] args []
  | char {c fmt args out} (plain : c ≠ 0x25) (rest : Renders other fmt args out) :
    Renders other (c :: fmt) args (c :: out)
  | dec {v fmt args out} (rest : Renders other fmt args out) :
    Renders other (0x25 :: 0x64 :: fmt) (.int v :: args) (decimal v.toInt ++ out)
  | hex {v fmt args out} (rest : Renders other fmt args out) :
    Renders other (0x25 :: 0x78 :: fmt) (.int v :: args) (hexadecimal v.toNat ++ out)
  | str {s fmt args out} (rest : Renders other fmt args out) :
    Renders other (0x25 :: 0x73 :: fmt) (.str (some s) :: args) (s ++ out)
  | other {id fmt args out} (unknown : id ≠ 0x64 ∧ id ≠ 0x78 ∧ id ≠ 0x73)
    (rest : Renders other fmt args out) : Renders other (0x25 :: id :: fmt) args (other id ++ out)

/-- The arguments of the `%d` of a format. -/
def decimals : List (BitVec 8) → List VaArg → List (BitVec 32)
  | [], _ | [_], _ => []
  | pc :: id :: fmt, args =>
    if pc ≠ 0x25 then decimals (id :: fmt) args
    else if id = 0x64 then (args.head?.bind VaArg.word).toList ++ decimals fmt args.tail
    else if id = 0x78 ∨ id = 0x73 then decimals fmt args.tail
    else decimals fmt args

/-- The characters behind a `%` that are not `d`, `x` or `s`. -/
def others : List (BitVec 8) → List (BitVec 8)
  | [] | [_] => []
  | pc :: id :: fmt =>
    if pc ≠ 0x25 then others (id :: fmt)
    else if id = 0x64 ∨ id = 0x78 ∨ id = 0x73 then others fmt
    else id :: others fmt

section

variable {target : Target} {dst : Nat} {fmt : List (BitVec 8)} {args : List VaArg}

theorem copyStr_eq (src : List (BitVec 8)) : ∀ target dst,
    copyStr target dst src = (Buffer.writeAt target dst src, dst + src.length) := by
  induction src with
  | nil =>
    intro target dst
    rw [copyStr, Buffer.writeAt_nil]
    rfl
  | cons c src inductionHypothesis =>
    intro target dst
    have past : dst + 1 + src.length = dst + (src.length + 1) := by omega
    rw [copyStr, inductionHypothesis, writeAt_put, List.length_cons, past]

/-- What a character that is no `%` does. -/
theorem vsprintfLoop_char {c : BitVec 8} (plain : c ≠ 0x25) :
    vsprintfLoop target dst (c :: fmt) args =
      vsprintfLoop (put target dst c) (dst + 1) fmt args := by
  cases fmt with
  | nil =>
    rw [vsprintfLoop, vsprintfLoop, if_neg plain]
  | cons id fmt => rw [vsprintfLoop, if_neg plain]

theorem decimals_char {c : BitVec 8} (plain : c ≠ 0x25) :
    decimals (c :: fmt) args = decimals fmt args := by
  cases fmt with
  | nil => rfl
  | cons id fmt => rw [decimals, if_pos plain]

theorem others_char {c : BitVec 8} (plain : c ≠ 0x25) : others (c :: fmt) = others fmt := by
  cases fmt with
  | nil => rfl
  | cons id fmt => rw [others, if_pos plain]

/-- Texts of two parts, none longer than its counterpart, are equal part by part. -/
theorem append_eq_iff {a b as bs : List (BitVec 8)} (first : a.length ≤ b.length)
    (second : as.length ≤ bs.length) : a ++ as = b ++ bs ↔ a = b ∧ as = bs := by
  constructor
  · intro same
    have lengths := congrArg List.length same
    rw [List.length_append, List.length_append] at lengths
    exact List.append_inj same (by omega)
  · rintro ⟨rfl, rfl⟩
    rfl

/-- What a place holder does whose argument is written as `part`. -/
theorem vsprintfLoop_part {id : BitVec 8} {part text : List (BitVec 8)} {args' : List VaArg}
    (handled : ∀ target dst, placeHolder target dst id args =
      some (.ok (Buffer.writeAt target dst part, dst + part.length, args')))
    (written : ∀ target dst, vsprintfLoop target dst fmt args' =
      .ok (Buffer.writeAt target dst text, dst + text.length)) (target : Target) (dst : Nat) :
    vsprintfLoop target dst (0x25 :: id :: fmt) args =
      .ok (Buffer.writeAt target dst (part ++ text), dst + (part ++ text).length) := by
  rw [vsprintfLoop, if_pos rfl, handled]
  simp only [bind, Except.bind, written, Buffer.writeAt_append]
  rw [List.length_append, Nat.add_assoc]

/-- The loop writes a text no longer than the one wanted, and that one when the decimal numerals
are right and the characters behind a stray `%` stand for themselves. -/
theorem vsprintfLoop_eq {other : BitVec 8 → List (BitVec 8)} {out : List (BitVec 8)}
    (nonempty : ∀ id, other id ≠ []) (renders : Renders other fmt args out) :
    ∃ text : List (BitVec 8),
      (∀ target dst, vsprintfLoop target dst fmt args =
        .ok (Buffer.writeAt target dst text, dst + text.length)) ∧
      text.length ≤ out.length ∧
      (text = out ↔
        (∀ v ∈ decimals fmt args, Reversible v) ∧ ∀ id ∈ others fmt, [id] = other id) := by
  induction renders with
  | nil args =>
    refine ⟨[], ?_, Nat.le_refl 0, by simp [decimals, others]⟩
    intro target dst
    rw [vsprintfLoop, Buffer.writeAt_nil]
    rfl
  | @char c fmt args out plain rest inductionHypothesis =>
    obtain ⟨text, written, length, right⟩ := inductionHypothesis
    refine ⟨c :: text, ?_, Nat.succ_le_succ length, ?_⟩
    · intro target dst
      have past : dst + 1 + text.length = dst + (text.length + 1) := by omega
      rw [vsprintfLoop_char plain, written, writeAt_put, List.length_cons, past]
    · rw [decimals_char plain, others_char plain, ← right, List.cons.injEq]
      exact and_iff_right rfl
  | @dec v fmt args out rest inductionHypothesis =>
    obtain ⟨text, written, length, right⟩ := inductionHypothesis
    obtain ⟨numeral, printed, short, exact⟩ := sprintDec_eq v
    refine ⟨numeral ++ text, vsprintfLoop_part ?_ written, ?_, ?_⟩
    · intro target dst
      have handled : placeHolder target dst 0x64 (.int v :: args) =
          .some (.ok ((sprintDec target dst v).1, (sprintDec target dst v).2, args)) := rfl
      rw [handled, printed]
    · rw [List.length_append, List.length_append]
      exact Nat.add_le_add short length
    · have arguments : decimals (0x25 :: 0x64 :: fmt) (.int v :: args) = v :: decimals fmt args :=
        rfl
      have same : others (0x25 :: 0x64 :: fmt) = others fmt := rfl
      rw [append_eq_iff short length, exact, right, arguments, same, List.forall_mem_cons,
        and_assoc]
  | @hex v fmt args out rest inductionHypothesis =>
    obtain ⟨text, written, length, right⟩ := inductionHypothesis
    refine ⟨hexadecimal v.toNat ++ text, vsprintfLoop_part ?_ written, ?_, ?_⟩
    · intro target dst
      have handled : placeHolder target dst 0x78 (.int v :: args) =
          .some (.ok ((sprintHex target dst v).1, (sprintHex target dst v).2, args)) := rfl
      rw [handled, sprintHex_eq]
    · rw [List.length_append, List.length_append]
      exact Nat.add_le_add_left length _
    · have arguments : decimals (0x25 :: 0x78 :: fmt) (.int v :: args) = decimals fmt args := rfl
      have same : others (0x25 :: 0x78 :: fmt) = others fmt := rfl
      rw [arguments, same, ← right, List.append_cancel_left_eq]
  | @str s fmt args out rest inductionHypothesis =>
    obtain ⟨text, written, length, right⟩ := inductionHypothesis
    refine ⟨s ++ text, vsprintfLoop_part ?_ written, ?_, ?_⟩
    · intro target dst
      have handled : placeHolder target dst 0x73 (.str (.some s) :: args) =
          .some (.ok ((copyStr target dst s).1, (copyStr target dst s).2, args)) := rfl
      rw [handled, copyStr_eq]
    · rw [List.length_append, List.length_append]
      exact Nat.add_le_add_left length _
    · have arguments : decimals (0x25 :: 0x73 :: fmt) (.str (.some s) :: args) =
          decimals fmt args := rfl
      have same : others (0x25 :: 0x73 :: fmt) = others fmt := rfl
      rw [arguments, same, ← right, List.append_cancel_left_eq]
  | @other id fmt args out unknown rest inductionHypothesis =>
    obtain ⟨text, written, length, right⟩ := inductionHypothesis
    obtain ⟨notDec, notHex, notStr⟩ := unknown
    have single : [id].length ≤ (other id).length := List.length_pos_iff.mpr (nonempty id)
    refine ⟨id :: text, ?_, ?_, ?_⟩
    · intro target dst
      have past : dst + 1 + text.length = dst + (text.length + 1) := by omega
      have unhandled : placeHolder target dst id args = none := by
        unfold placeHolder
        rw [if_neg notDec, if_neg notHex, if_neg notStr]
      rw [vsprintfLoop, if_pos rfl, unhandled]
      simp only [written, writeAt_put, List.length_cons, past]
    · rw [List.length_cons, List.length_append]
      have least := List.length_pos_iff.mpr (nonempty id)
      omega
    · have arguments : decimals (0x25 :: id :: fmt) args = decimals fmt args := by
        rw [decimals, if_neg (by decide), if_neg notDec, if_neg (not_or.mpr ⟨notHex, notStr⟩)]
      have more : others (0x25 :: id :: fmt) = id :: others fmt := by
        rw [others, if_neg (by decide), if_neg (not_or.mpr ⟨notDec, not_or.mpr ⟨notHex, notStr⟩⟩)]
      rw [← List.singleton_append, append_eq_iff single length, right, arguments, more,
        List.forall_mem_cons, and_left_comm]

/-- `vsprintf` writes `out` and its terminator, and returns the length of `out`. -/
def Writes (target : Target) (fmt : List (BitVec 8)) (args : List VaArg)
    (out : List (BitVec 8)) : Prop :=
  vsprintf target fmt args = .ok (Buffer.writeAt target 0 (out ++ [0]), (out.length : Int))

theorem i32_eq_of_le {m n : Nat} (below : m ≤ n) (same : i32 m = n) : m = n ∧ n < 2 ^ 31 := by
  simp only [i32, Int.bmod_def] at same
  omega

theorem writes_iff {other : BitVec 8 → List (BitVec 8)} {out : List (BitVec 8)}
    (nonempty : ∀ id, other id ≠ []) (renders : Renders other fmt args out) :
    Writes target fmt args out ↔ out.length < 2 ^ 31 ∧
      (∀ v ∈ decimals fmt args, Reversible v) ∧ ∀ id ∈ others fmt, [id] = other id := by
  obtain ⟨text, written, length, right⟩ := vsprintfLoop_eq nonempty renders
  have result : vsprintf target fmt args =
      .ok (Buffer.writeAt target 0 (text ++ [0]), i32 text.length) := by
    simp only [vsprintf, written, bind, Except.bind, Nat.zero_add, put_terminator]
  rw [Writes, result, ← right]
  constructor
  · intro same
    obtain ⟨buffers, lengths⟩ := eq_of_returned same
    -- the text cannot be longer than `out`, so that its wrapped length is its length
    obtain ⟨equal, fits⟩ := i32_eq_of_le length lengths
    refine ⟨fits, ?_⟩
    have read := congrArg (fun buffer => Buffer.readAt buffer 0 (text ++ [0]).length) buffers
    have same : (text ++ [0]).length = (out ++ [0]).length := by
      rw [List.length_append, List.length_append, equal]
    simp only [Buffer.readAt_writeAt] at read
    rw [same, Buffer.readAt_writeAt] at read
    exact List.append_cancel_right read
  · rintro ⟨fits, rfl⟩
    rw [i32_of_small fits]

end

/-- Read to the letter, where a `%` before any other character is to stay, `vsprintf` is right
when the reversal of each decimal argument fits an `int` and no other character follows a `%`.
When such a `%` is to be dropped, as in `%%`, it is right when the reversals fit.  In both the text
has to be shorter than `2 ^ 31`.  The numerals wanted parse to the arguments. -/
theorem vsprintf_renders_iff (target : Target) (fmt : List (BitVec 8)) (args : List VaArg)
    (out : List (BitVec 8)) :
    (Renders (fun id => [0x25, id]) fmt args out →
      (Writes target fmt args out ↔
        out.length < 2 ^ 31 ∧ (∀ v ∈ decimals fmt args, Reversible v) ∧ others fmt = [])) ∧
    (Renders (fun id => [id]) fmt args out →
      (Writes target fmt args out ↔
        out.length < 2 ^ 31 ∧ ∀ v ∈ decimals fmt args, Reversible v)) ∧
    ∀ v : BitVec 32, parseDecimal (decimal v.toInt) = v.toInt ∧
      parseHexadecimal (hexadecimal v.toNat) = v.toNat := by
  refine ⟨?_, ?_, ?_⟩
  · intro renders
    rw [writes_iff (fun _ => List.cons_ne_nil _ _) renders]
    simp [List.eq_nil_iff_forall_not_mem]
  · intro renders
    rw [writes_iff (fun _ => List.cons_ne_nil _ _) renders]
    simp
  · intro v
    exact ⟨parseDecimal_decimal _, parseHexadecimal_hexadecimal _⟩

/-- `"%d %x %s"` for -42, 48879 and `"ok"`. -/
theorem vsprintf_renders_example :
    Writes (fun _ => 0) [0x25, 0x64, 0x20, 0x25, 0x78, 0x20, 0x25, 0x73]
      [.int (-42), .int 0xBEEF, .str (some [0x6F, 0x6B])]
      [0x2D, 0x34, 0x32, 0x20, 0x30, 0x78, 0x42, 0x45, 0x45, 0x46, 0x20, 0x6F, 0x6B] := by
  have number : decimal (BitVec.toInt (-42#32)) = [0x2D, 0x34, 0x32] := by decide
  have word : hexadecimal (BitVec.toNat 0xBEEF#32) = [0x30, 0x78, 0x42, 0x45, 0x45, 0x46] := by
    decide
  have renders : Renders (fun id => [0x25, id]) [0x25, 0x64, 0x20, 0x25, 0x78, 0x20, 0x25, 0x73]
      [.int (-42), .int 0xBEEF, .str (some [0x6F, 0x6B])]
      (decimal (BitVec.toInt (-42#32)) ++
        0x20 :: (hexadecimal (BitVec.toNat 0xBEEF#32) ++ 0x20 :: ([0x6F, 0x6B] ++ []))) :=
    .dec (.char (by decide) (.hex (.char (by decide) (.str (.nil [])))))
  rw [number, word] at renders
  have reversible : Reversible (-42) := by decide
  refine ((vsprintf_renders_iff _ _ _ _).1 renders).mpr ⟨by decide, ?_, rfl⟩
  exact List.forall_mem_singleton.mpr reversible

/-- The reversal of 1999999999 is above `INT_MAX`, and its numeral is wrong. -/
theorem vsprintf_wrong_numeral :
    ∃ out, Renders (fun id => [0x25, id]) [0x25, 0x64] [.int 1999999999] out ∧
      Renders (fun id => [id]) [0x25, 0x64] [.int 1999999999] out ∧
      ¬ Writes (fun _ => 0) [0x25, 0x64] [.int 1999999999] out := by
  have renders : ∀ other, Renders other [0x25, 0x64] [.int 1999999999]
      (decimal (1999999999#32).toInt ++ []) := fun _ => .dec (.nil [])
  refine ⟨_, renders _, renders _, ?_⟩
  intro writes
  have reversible := ((writes_iff (fun _ => List.cons_ne_nil _ _)
    (renders fun id => [id])).mp writes).2.1 1999999999 (by decide)
  revert reversible
  decide

end Antonix.Libc
