import Antonix.Syscall.Routines

/-! # Calls that do not halt the kernel

For each handler, when it returns. -/

namespace Antonix.Syscall

open Mutex Vga Vfs

variable {host : Host} {regs : Registers} {machine : Machine}

/-! ## The handlers -/

end Antonix.Syscall
