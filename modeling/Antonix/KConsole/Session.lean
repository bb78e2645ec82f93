import Antonix.KConsole.LineBlocks
import Antonix.Lib.Transition
import Antonix.Lib.Words
import Antonix.Ps2.KeyboardQueue

/-! # Typing (`kconsole.c`, `kernel.c`)

The main thread takes the characters of the keyboard one by one and gives them to
`kcon_process_char`, which collects a line of at most 1023 and has it executed when the
line ends.  The keyboard interrupts it wherever it is, and `con_read` takes characters
away from it. -/

namespace Antonix.KConsole

open Function Libc Drivers Ps2 Transition

/-- `LINE_BUFFER_SIZE` -/
abbrev lineBufferSize : Nat := 1024

/-- `line_buffer` and `line_buffer_idx`, with the heap and what the commands change. -/
structure Console (σ : Type) where
  lineBuffer : Nat → BitVec 8
  lineBufferIdx : Nat
  heap : Heap
  screen : σ

section model

variable {σ : Type}

/-- What the console is linked with: `vga_print`, the stack of `vga_printf`, the table of the
commands, the heap and the working directory that the commands change. -/
structure Linked (σ : Type) where
  print : List (BitVec 8) → σ → Except Halt σ
  stack : Target
  cmdList : List (CmdHandler σ)
  grants : Nat → Bool
  stale : SubstrArr
  cwd : σ → List (BitVec 8)

variable (env : Linked σ)

/-- `kcon_initialize` behind the start of the kernel. -/
def kconInitialize (heap : Heap) (screen : σ) : Console σ where
  lineBuffer := fun _ => 0
  lineBufferIdx := 0
  heap := heap
  screen := screen

/-- `kcon_prompt` -/
def kconPrompt (screen : σ) : Except Halt σ :=
  vgaPrintf env.print env.stack (ascii "#%s> ") [.str (some (env.cwd screen))] screen

/-- The new line behind what a line that is not empty displayed. -/
def addNewLine (lineBufferIdx : Nat) (screen : σ) : Except Halt σ :=
  if lineBufferIdx > 0 then vgaPrintf env.print env.stack (ascii "\n") [] screen else .ok screen

/-- `kcon_process_char` -/
def kconProcessChar (c : BitVec 8) (s : Console σ) : Except Halt (Console σ) :=
  if c ≠ 0x0A then
    if s.lineBufferIdx ≥ lineBufferSize - 1 then do
      let screen ← vgaPrintf env.print env.stack (ascii "KConsole: line buffer overflowed.\n") []
        s.screen
      .ok { s with screen := screen }
    else do
      let screen ← env.print (cString [c, 0]) s.screen
      .ok { s with
        lineBuffer := update s.lineBuffer s.lineBufferIdx c
        lineBufferIdx := s.lineBufferIdx + 1
        screen := screen }
  else do
    let screen ← env.print (ascii "\n") s.screen
    let lineBuffer := update s.lineBuffer s.lineBufferIdx 0
    let cmd := cString (Buffer.readAt lineBuffer 0 lineBufferSize)
    let (screen, heap) ← kconParseCommand env.print env.stack env.cmdList env.grants env.stale cmd
      s.heap screen
    let screen ← addNewLine env s.lineBufferIdx screen
    let screen ← kconPrompt env screen
    .ok { lineBuffer := update lineBuffer 0 0, lineBufferIdx := 0, heap := heap, screen := screen }

/-! ## The machine -/

/-- The keyboard and the main thread: `c` is the character that it has taken and not given to
`kcon_process_char` yet. -/
structure Machine (σ : Type) where
  keyboard : Keyboard
  c : Option (BitVec 8)
  console : Console σ

/-- An interrupt of the keyboard, a `readch` of somebody else, and the two halves of the loop of
`kernel_main_thread`. -/
inductive MachineCall where
  | interrupt (code : BitVec 8)
  | conRead (hr : HResult) (taken : Option (BitVec 8))
  | getch (taken : BitVec 8)
  | processChar

/-- What the keyboard sees of a step. -/
def MachineCall.event : MachineCall → List Event
  | .interrupt code => [.scan code]
  | .conRead hr taken => [.readch hr taken]
  | .getch taken => [.getch taken]
  | .processChar => []

/-- The character that the main thread takes in a step. -/
def MachineCall.taken : MachineCall → List (BitVec 8)
  | .getch taken => [taken]
  | _ => []

/-- The steps of the machine, in any order. -/
inductive MachineStep : Machine σ → MachineCall → Machine σ → Prop
  | interrupt {s : Machine σ} {code : BitVec 8} {kb : Keyboard}
      (serves : (Event.scan code).Serves s.keyboard kb) :
      MachineStep s (.interrupt code) { s with keyboard := kb }
  | conRead {s : Machine σ} {hr : HResult} {taken : Option (BitVec 8)} {kb : Keyboard}
      (serves : (Event.readch hr taken).Serves s.keyboard kb) :
      MachineStep s (.conRead hr taken) { s with keyboard := kb }
  | getch {s : Machine σ} {taken : BitVec 8} {kb : Keyboard} (idle : s.c = none)
      (serves : (Event.getch taken).Serves s.keyboard kb) :
      MachineStep s (.getch taken) { s with keyboard := kb, c := some taken }
  | processChar {s : Machine σ} {c : BitVec 8} {console : Console σ} (has : s.c = some c)
      (called : kconProcessChar env c s.console = .ok console) :
      MachineStep s .processChar { s with c := none, console := console }

/-- The start of the loop. -/
def Machine.init (heap : Heap) (screen : σ) : Machine σ where
  keyboard := .initial
  c := none
  console := kconInitialize heap screen

/-! ## What is to happen to a line -/

/-- A character of a line is shown while there is room for it. -/
def echoChar (i : Nat) (c : BitVec 8) (screen : σ) : Except Halt σ :=
  if lineBufferSize - 1 ≤ i then
    vgaPrintf env.print env.stack (ascii "KConsole: line buffer overflowed.\n") [] screen
  else env.print (cString [c, 0]) screen

/-- The characters from the place `i` of a line on are shown. -/
def echo : Nat → List (BitVec 8) → σ → Except Halt σ
  | _, [], screen => .ok screen
  | i, c :: line, screen => do
    let screen ← echoChar env i c screen
    echo (i + 1) line screen

/-- The command that a line is: its first 1023 characters, up to a `NUL`. -/
def command (line : List (BitVec 8)) : List (BitVec 8) := cString (line.take (lineBufferSize - 1))

/-- The words of a line are handed over, and the next prompt is shown. -/
def execute (line : List (BitVec 8)) (screen : σ) : Except Halt σ := do
  let screen ← env.print (ascii "\n") screen
  let screen ← handOver env.print env.stack env.cmdList (command line)
    (Words.ofLine 0x20 (command line)) screen
  let screen ← addNewLine env line.length screen
  kconPrompt env screen

/-- A line is shown as it is typed and executed when it ends. -/
def serveLine (screen : σ) (line : List (BitVec 8)) : Except Halt σ := do
  let screen ← echo env 0 line screen
  execute env line screen

/-- The lines of what was typed one after another, and what there is of the next one. -/
def session (typed : List (BitVec 8)) (screen : σ) : Except Halt σ := do
  let screen ← (LineFeed.cut 0x0A typed).1.foldlM (serveLine env) screen
  echo env 0 (LineFeed.cut 0x0A typed).2 screen

end model

/-! ## What is typed is executed

However the keyboard interrupts the main thread, the lines that it has taken from the keyboard have
been executed in order, each once. -/

section

variable {σ : Type} {env : Linked σ} {s t : Console σ} {screen screen' : σ} {c : BitVec 8}
  {line typed : List (BitVec 8)}

theorem echo_snoc (i : Nat) :
    echo env i (line ++ [c]) screen = echo env i line screen >>= echoChar env (i + line.length) c := by
  induction line generalizing i screen with
  | nil => simp [echo, bind, Except.bind]; cases echoChar env i c screen <;> rfl
  | cons d line inductionHypothesis =>
    simp only [List.cons_append, echo, bind, Except.bind]
    cases echoChar env i d screen with
    | error halt => rfl
    | ok screen' =>
      have later := @inductionHypothesis screen' (i + 1)
      simpa [bind, Except.bind, Nat.add_assoc, Nat.add_comm 1] using later

theorem session_snoc (other : c ≠ 0x0A) :
    session env (typed ++ [c]) screen =
      session env typed screen >>= echoChar env (LineFeed.cut 0x0A typed).2.length c := by
  simp only [session, LineFeed.cut_snoc_ne other, echo_snoc, Nat.zero_add, bind, Except.bind]
  cases (LineFeed.cut 0x0A typed).1.foldlM (serveLine env) screen <;> rfl

theorem session_snoc_newline :
    session env (typed ++ [0x0A]) screen =
      session env typed screen >>= execute env (LineFeed.cut 0x0A typed).2 := by
  have nothing : echo env 0 [] = fun screen => (pure screen : Except Halt σ) := rfl
  simp only [session, LineFeed.cut_snoc_sep, List.foldlM_append, List.foldlM_cons, List.foldlM_nil,
    nothing, bind_pure, bind_assoc]
  rfl

/-- A command that returns had its memory, and did what is to happen to its words. -/
theorem handOver_of_parse {heap heap' : Heap}
    (returned : kconParseCommand env.print env.stack env.cmdList env.grants env.stale line heap
      screen = .ok (screen', heap')) :
    handOver env.print env.stack env.cmdList line (Words.ofLine 0x20 line) screen =
      .ok screen' := by
  by_cases granted : ∀ j < (line.splitOn 0x20).length + 1, env.grants (heap.next + j) = true
  · rw [kconParseCommand_eq granted] at returned
    cases handed : handOver env.print env.stack env.cmdList line (Words.ofLine 0x20 line) screen with
    | error halt =>
      rw [handed] at returned
      cases returned
    | ok screen'' =>
      simp only [handed, Except.map] at returned
      rw [(eq_of_returned returned).1]
  · simp only [not_forall] at granted
    obtain ⟨j, inside, refused⟩ := granted
    have stuck := @strExplode_stuck env.grants 0x20 env.stale heap line j inside
      (Bool.eq_false_of_not_eq_true refused)
    simp only [kconParseCommand, stuck, bind, Except.bind] at returned
    cases returned

/-! ## One character -/

/-- The buffer has the line that is being typed as far as there is room for it, and everything
before that has happened. -/
structure Typed (env : Linked σ) (screen : σ) (typed : List (BitVec 8)) (s : Console σ) : Prop where
  idx : s.lineBufferIdx = min (LineFeed.cut 0x0A typed).2.length (lineBufferSize - 1)
  buffer : Buffer.readAt s.lineBuffer 0 s.lineBufferIdx =
    (LineFeed.cut 0x0A typed).2.take (lineBufferSize - 1)
  served : session env typed screen = .ok s.screen

theorem readAt_update_end (buffer : Nat → BitVec 8) (n : Nat) (x : BitVec 8) :
    Buffer.readAt (update buffer n x) 0 (n + 1) = Buffer.readAt buffer 0 n ++ [x] := by
  rw [Buffer.readAt_add, Nat.zero_add]
  have before : Buffer.readAt (update buffer n x) 0 n = Buffer.readAt buffer 0 n := by
    apply Buffer.readAt_congr
    intro i below
    exact update_of_ne (by omega) _ _
  rw [before]
  simp [Buffer.readAt]

/-- The string in the buffer ends where the terminator was put. -/
theorem cString_terminated {buffer : Nat → BitVec 8} {n : Nat} (inside : n < lineBufferSize) :
    cString (Buffer.readAt (update buffer n 0) 0 lineBufferSize) =
      cString (Buffer.readAt buffer 0 n) := by
  obtain ⟨rest, split⟩ : ∃ rest, lineBufferSize = n + 1 + rest :=
    ⟨lineBufferSize - (n + 1), by omega⟩
  rw [split, Buffer.readAt_add, readAt_update_end, cString, cString, List.append_assoc,
    List.takeWhile_append]
  split
  · next all =>
    have clean : (Buffer.readAt buffer 0 n).takeWhile (· ≠ 0) = Buffer.readAt buffer 0 n :=
      List.IsPrefix.eq_of_length (List.takeWhile_prefix _) all
    rw [clean, List.takeWhile_append]
    simp
  · rfl

/-- A character that belongs to a line. -/
theorem Typed.char (before : Typed env screen typed s) (other : c ≠ 0x0A)
    (called : kconProcessChar env c s = .ok t) : Typed env screen (typed ++ [c]) t := by
  unfold kconProcessChar at called
  rw [if_pos other] at called
  by_cases full : s.lineBufferIdx ≥ lineBufferSize - 1
  · -- it is dropped
    rw [if_pos full] at called
    obtain ⟨shown, print, called⟩ := exists_of_bind called
    obtain rfl := Except.ok.inj called
    have idx := before.idx
    have long : lineBufferSize - 1 ≤ (LineFeed.cut 0x0A typed).2.length := by omega
    constructor
    · simp only [LineFeed.cut_snoc_ne other, List.length_append, List.length_singleton]
      omega
    · simp only [LineFeed.cut_snoc_ne other, List.take_append_of_le_length long]
      exact before.buffer
    · rw [session_snoc other, before.served]
      simp only [bind, Except.bind, echoChar, if_pos long, print]
  · rw [if_neg full] at called
    obtain ⟨shown, print, called⟩ := exists_of_bind called
    obtain rfl := Except.ok.inj called
    have idx := before.idx
    have short : s.lineBufferIdx = (LineFeed.cut 0x0A typed).2.length := by omega
    have room : ¬ lineBufferSize - 1 ≤ (LineFeed.cut 0x0A typed).2.length := by omega
    constructor
    · simp only [LineFeed.cut_snoc_ne other, List.length_append, List.length_singleton]
      omega
    · simp only [LineFeed.cut_snoc_ne other, readAt_update_end, before.buffer]
      rw [List.take_of_length_le (by omega), List.take_of_length_le]
      simp only [List.length_append, List.length_singleton]
      omega
    · rw [session_snoc other, before.served]
      simp only [bind, Except.bind, echoChar, if_neg room, print]

/-- The end of a line. -/
theorem Typed.newline (before : Typed env screen typed s)
    (called : kconProcessChar env 0x0A s = .ok t) : Typed env screen (typed ++ [0x0A]) t := by
  unfold kconProcessChar at called
  rw [if_neg (by simp)] at called
  obtain ⟨fresh, print, called⟩ := exists_of_bind called
  obtain ⟨⟨done, heap⟩, parsed, called⟩ := exists_of_bind called
  obtain ⟨shown, space, called⟩ := exists_of_bind called
  obtain ⟨prompted, prompt, called⟩ := exists_of_bind called
  obtain rfl := Except.ok.inj called
  have idx := before.idx
  have inside : s.lineBufferIdx < lineBufferSize := by
    have small : lineBufferSize - 1 < lineBufferSize := by decide
    omega
  rw [cString_terminated inside, before.buffer] at parsed
  have handed := handOver_of_parse parsed
  have blank : addNewLine env (LineFeed.cut 0x0A typed).2.length done = .ok shown := by
    rw [← space, idx, addNewLine, addNewLine]
    have positive : (LineFeed.cut 0x0A typed).2.length > 0 ↔
        min (LineFeed.cut 0x0A typed).2.length (lineBufferSize - 1) > 0 := by
      have room : 0 < lineBufferSize - 1 := by decide
      omega
    simp only [positive]
  refine ⟨by simp, by simp, ?_⟩
  rw [session_snoc_newline, before.served]
  simp only [execute, command, bind, Except.bind, print, handed, blank, prompt]

theorem Typed.step (before : Typed env screen typed s) (called : kconProcessChar env c s = .ok t) :
    Typed env screen (typed ++ [c]) t := by
  by_cases newline : c = 0x0A
  · subst newline
    exact before.newline called
  · exact before.char newline called

/-! ## The main thread -/

/-- What has been typed is taken or waits, and what is taken has been processed or is held. -/
structure Serving (env : Linked σ) (screen : σ) (past : List MachineCall) (s : Machine σ) : Prop where
  keyboard : Served (past.flatMap MachineCall.event) s.keyboard
  processed : ∃ typed, past.flatMap MachineCall.taken = typed ++ s.c.toList ∧
    Typed env screen typed s.console

theorem Serving.step {past : List MachineCall} {s t : Machine σ} {op : MachineCall}
    (serving : Serving env screen past s) (step : MachineStep env s op t) :
    Serving env screen (past ++ [op]) t := by
  obtain ⟨keyboard, typed, taken, console⟩ := serving
  have events : (past ++ [op]).flatMap MachineCall.event =
      past.flatMap MachineCall.event ++ op.event := by simp
  have takes : (past ++ [op]).flatMap MachineCall.taken =
      past.flatMap MachineCall.taken ++ op.taken := by simp
  cases step with
  | interrupt serves =>
    refine ⟨?_, typed, ?_, console⟩
    · rw [events]
      exact keyboard.step serves
    · rw [takes, taken]
      simp [MachineCall.taken]
  | conRead serves =>
    refine ⟨?_, typed, ?_, console⟩
    · rw [events]
      exact keyboard.step serves
    · rw [takes, taken]
      simp [MachineCall.taken]
  | getch idle serves =>
    refine ⟨?_, typed, ?_, console⟩
    · rw [events]
      exact keyboard.step serves
    · rw [takes, taken, idle]
      simp [MachineCall.taken]
  | @processChar c console' has called =>
    refine ⟨?_, typed ++ [c], ?_, console.step called⟩
    · rw [events]
      simpa [MachineCall.event] using keyboard
    · rw [takes, taken, has]
      simp [MachineCall.taken]

end

end Antonix.KConsole
