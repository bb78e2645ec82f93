import Antonix.Vfs.AddFailure

/-! # Where a path ends

A search that does not fail ends at a node of the tree, or stops at the first mount point
with the components behind it. -/

namespace Antonix.Vfs

open NameTree

/-- The path names a node, with no mount point on the way. -/
inductive EndsAt (s : VfsState) : List Char → Nat → Prop
  | root {path : List Char} (isRoot : path = [] ∨ path = [delimiter]) : EndsAt s path s.root
  | node {rest : List Char} {n : Nat} (nonempty : rest ≠ [])
      (leads : Leads s s.root (components (delimiter :: rest)) n) : EndsAt s (delimiter :: rest) n

/-- The first mount point on the path is `c`: the components `before` lead to it. -/
inductive StopsAt (s : VfsState) : List Char → List (List Char) → Nat → List (List Char) → Prop
  | mountpoint {rest x : List Char} {front behind : List (List Char)} {p c : Nat}
      (nonempty : rest ≠ []) (split : components (delimiter :: rest) = front ++ x :: behind)
      (leads : Leads s s.root front p) (fits : x.length < nodeNameSize)
      (found : s.child p x = some c) (mountpoint : s.IsMountpoint c) :
      StopsAt s (delimiter :: rest) (front ++ [x]) c behind

section

variable {s : VfsState} {path : List Char} {n c b m : Nat} {buffer buffer' : Option Nat}
  {before behind : List (List Char)}

theorem EndsAt.parseUrl (ends : EndsAt s path n) :
    vfsParseUrl s path buffer buffer' = .ok (.ok ⟨n, false, [], []⟩) := by
  cases ends with
  | root isRoot => exact parseUrl_root isRoot
  | node nonempty leads =>
    rw [parseUrl_absolute nonempty]
    exact leads.parse

/-- At a mount point both paths are copied, as far as there is room. -/
theorem StopsAt.parseUrl (stops : StopsAt s path before c behind) :
    vfsParseUrl s path (some b) (some m) = (do
      let base ← strcpy b (implodeStr before)
      let mounted ← strcpy m (implodeStr behind)
      .ok (.ok ⟨c, true, base, mounted⟩)) := by
  cases stops with
  | mountpoint nonempty split leads fits found mountpoint =>
    rw [parseUrl_absolute nonempty, split, leads.parse_append,
      parse_mountpoint fits found mountpoint]
    rfl

theorem MeetsOverlong.parseUrl (overlong : MeetsOverlong s path) :
    vfsParseUrl s path buffer buffer' = .error .stuck := by
  obtain ⟨rest, front, x, more, p, rfl, nonempty, split, leads, long⟩ := overlong
  rw [parseUrl_absolute nonempty, split, leads.parse_append, parse_overlong long]

end

end Antonix.Vfs
