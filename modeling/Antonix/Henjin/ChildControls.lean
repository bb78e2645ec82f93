import Antonix.Henjin.MouseEvents
import Antonix.Nxgi.Graphics

/-! # Child controls (`henjin_control.c`)

A control keeps a list of its children with their positions and decorations; the
controls themselves are elsewhere, and the list points to them.  A position is that
of the decorated control, to which the decoration adds where the surface begins. -/

namespace Antonix.Henjin

open LittleEndian

/-- `GUI_TITLEBOX_HEIGHT` -/
abbrev guiTitleboxHeight : Nat := 26

/-- `HJ_DECORATION_TYPE`.  A C enumeration has room for more values. -/
inductive HjDecorationType where
  | normal
  | none
  | other (value : Nat)
  deriving DecidableEq

/-- `decor` in `HJ_CONTROL_META`, without the size that nothing sets. -/
structure HjDecor where
  offset : NxgiPoint
  type : HjDecorationType
  borderWidth : Nat
  deriving DecidableEq

/-- `HJ_CONTROL_META`, without what a window needs while it is dragged.  `control` is a pointer. -/
structure HjControlMeta where
  pos : NxgiPoint
  decor : HjDecor
  control : Nat
  deriving DecidableEq

/-- `HJ_CONTROL` with its size. -/
structure HjSizedControl extends HjControl where
  size : NxgiSize

/-- The controls by their addresses. -/
abbrev HjControls := Nat → HjSizedControl

/-- `hj_get_children_count` -/
def hjGetChildrenCount (children : List HjControlMeta) : Nat := children.length

/-- `hj_get_child_at` -/
def hjGetChildAt (children : List HjControlMeta) (index : Nat) : Except HResult HjControlMeta :=
  match children[index]? with
  | none => .error .eInvalidArg
  | some child => .ok child

/-- `hj_control_get_size` -/
def hjControlGetSize (target : HjSizedControl) : NxgiSize := target.size

/-- `hj_get_child_boundsrect` -/
def hjGetChildBoundsrect (controls : HjControls) (children : List HjControlMeta) (index : Nat) :
    NxgiRect :=
  match hjGetChildAt children index with
  | .error _ => ⟨0, 0, 0, 0⟩
  | .ok child =>
    let size := hjControlGetSize (controls child.control)
    let width := i32 (size.width + child.decor.borderWidth * 2)
    let height := i32 (size.height + child.decor.borderWidth * 2)
    let br : NxgiRect :=
      ⟨child.pos.x, child.pos.y, i32 (child.pos.x + width), i32 (child.pos.y + height)⟩
    if child.decor.type = .normal then { br with y2 := i32 (br.y2 + guiTitleboxHeight) } else br

/-- `hj_get_child_clientrect` -/
def hjGetChildClientrect (controls : HjControls) (children : List HjControlMeta) (index : Nat) :
    NxgiRect :=
  match hjGetChildAt children index with
  | .error _ => ⟨0, 0, 0, 0⟩
  | .ok child =>
    let size := hjControlGetSize (controls child.control)
    let p1 := nxgigPointAdd child.pos child.decor.offset
    ⟨p1.x, p1.y, i32 (p1.x + size.width), i32 (p1.y + size.height)⟩

/-- The meta-data that `hj_add_child` appends to the list: at the origin, without decoration. -/
def hjAddChild (children : List HjControlMeta) (child : Nat) : List HjControlMeta :=
  children ++ [{
    pos := ⟨0, 0⟩
    decor := { offset := ⟨0, 0⟩, type := .none, borderWidth := 0 }
    control := child }]

/-- `hj_control_set_child_position` -/
def hjControlSetChildPosition (children : List HjControlMeta) (index : Nat) (pos : NxgiPoint) :
    HResult × List HjControlMeta :=
  match children[index]? with
  | none => (.eFail, children)
  | some info => (.sOk, children.set index { info with pos := pos })

/-- The `switch` of `hj_control_set_child_decoration`. -/
def hjDecorate (decor : HjDecor) (d : HjDecorationType) : HResult × HjDecor :=
  match d with
  | .none => (.sOk, { offset := ⟨0, 0⟩, type := d, borderWidth := 0 })
  | .normal =>
    let borderWidth : Nat := 2
    (.sOk, {
      offset := ⟨borderWidth, guiTitleboxHeight + borderWidth⟩
      type := d
      borderWidth := borderWidth })
  -- the type is set before it is checked
  | .other _ => (.eInvalidArg, { decor with type := d })

/-- `hj_control_set_child_decoration` -/
def hjControlSetChildDecoration (children : List HjControlMeta) (index : Nat)
    (d : HjDecorationType) : HResult × List HjControlMeta :=
  match children[index]? with
  | none => (.eFail, children)
  | some info =>
    let (hr, decor) := hjDecorate info.decor d
    (hr, children.set index { info with decor := decor })

/-! ## Messages to children -/

/-- `msg->mouse.x` and `msg->mouse.y`, as a point. -/
def HjMessage.mouse (msg : HjMessage) : NxgiPoint := ⟨field 4 2 msg.bytes, field 6 2 msg.bytes⟩

/-- The message with these coordinates, which are `uint16_t`. -/
def HjMessage.withMouse (msg : HjMessage) (p : NxgiPoint) : HjMessage where
  bytes := msg.bytes.take 4 ++ (bytesOf 2 (asU32 p.x) ++ (bytesOf 2 (asU32 p.y) ++
    msg.bytes.drop 8))
  size := by simp [msg.size, sizeofHjMessage]

/-- `hj_queue_message` to the control at an address. -/
def hjQueueMessageTo (controls : HjControls) (control : Nat) (msg : HjMessage) :
    HResult × HjControls :=
  let (hr, queued) := hjQueueMessage (controls control).toHjControl msg
  (hr, Function.update controls control { controls control with toHjControl := queued })

/-- The values of `HJ_MESSAGE_TYPE` about painting. -/
abbrev hjMessageResize : Nat := 7
abbrev hjMessageRepaint : Nat := 8
abbrev hjMessageDisableDrawing : Nat := 9
abbrev hjMessageEnableDrawing : Nat := 10

/-- A message that was cleared and then given a type and the fields of `repaint`. -/
def hjRepaintMessage (rect : NxgiRect) (gc : Nat) : HjMessage where
  bytes := bytesOf 4 hjMessageRepaint ++ (bytesOf 4 (asU32 rect.x1) ++ (bytesOf 4 (asU32 rect.y1) ++
    (bytesOf 4 (asU32 rect.x2) ++ (bytesOf 4 (asU32 rect.y2) ++ bytesOf 4 gc))))
  size := by simp

/-- `hj_control_invalidate_rect2` -/
def hjControlInvalidateRect2 (controls : HjControls) (control : Nat) (rect : NxgiRect) (gc : Nat) :
    HResult × HjControls :=
  hjQueueMessageTo controls control (hjRepaintMessage rect gc)

/-! ## Coordinates of messages -/

theorem HjMessage.mouse_withMouse (msg : HjMessage) (p : NxgiPoint) :
    (msg.withMouse p).mouse = ⟨asU32 p.x % 2 ^ 16, asU32 p.y % 2 ^ 16⟩ := by
  have type : (msg.bytes.take 4).length = 4 := by simp [msg.size]
  have skipType (offset count : Nat) : field (4 + offset) count (msg.withMouse p).bytes =
      field offset count (bytesOf 2 (asU32 p.x) ++ (bytesOf 2 (asU32 p.y) ++ msg.bytes.drop 8)) := by
    rw [field, field, withMouse, ← List.drop_drop, List.drop_left' type]
  rw [mouse, show (6 : Nat) = 4 + 2 from rfl, skipType 0, skipType 2, field_here,
    field_skip 2 0, field_here]
  simp

theorem HjMessage.mouse_range (msg : HjMessage) :
    (0 ≤ msg.mouse.x ∧ msg.mouse.x < 2 ^ 16) ∧ 0 ≤ msg.mouse.y ∧ msg.mouse.y < 2 ^ 16 := by
  have x := field_lt 4 2 msg.bytes
  have y := field_lt 6 2 msg.bytes
  simp only [mouse]
  omega

/-! ## Decorations -/

/-- The two decorations that there are. -/
def HjDecor.Proper (decor : HjDecor) : Prop :=
  (decor.borderWidth = 0 ∧ decor.offset = ⟨0, 0⟩) ∨
    (decor.borderWidth = 2 ∧ decor.offset = ⟨2, 28⟩)

/-- The decorations that calls leave behind. -/
theorem hjDecorate_proper {decor : HjDecor} (proper : decor.Proper) (d : HjDecorationType) :
    (hjDecorate decor d).2.Proper := by
  cases d with
  | normal => exact .inr ⟨rfl, rfl⟩
  | none => exact .inl ⟨rfl, rfl⟩
  | other value => exact proper

theorem hjControlSetChildDecoration_proper {children : List HjControlMeta}
    (proper : ∀ child ∈ children, child.decor.Proper) (index : Nat) (d : HjDecorationType) :
    ∀ child ∈ (hjControlSetChildDecoration children index d).2, child.decor.Proper := by
  simp only [hjControlSetChildDecoration]
  cases found : children[index]? with
  | none => exact proper
  | some info =>
    intro child member
    cases List.mem_or_eq_of_mem_set member with
    | inl old => exact proper child old
    | inr new =>
      rw [new]
      exact hjDecorate_proper (proper info (List.mem_of_getElem? found)) d

theorem hjAddChild_proper {children : List HjControlMeta}
    (proper : ∀ child ∈ children, child.decor.Proper) (control : Nat) :
    ∀ child ∈ hjAddChild children control, child.decor.Proper := by
  rw [hjAddChild, List.forall_mem_append, List.forall_mem_singleton]
  exact ⟨proper, .inl ⟨rfl, rfl⟩⟩

end Antonix.Henjin
