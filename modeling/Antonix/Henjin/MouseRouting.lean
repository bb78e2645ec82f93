import Antonix.Henjin.ChildControls

/-! # Mouse messages to children (`henjin_window.c`, `henjin_desktop.c`)

Windows and the desktop paint their children in the order of the list, so the last
child over a point is the one to be seen there.  Both look for the child that a
mouse message goes to in the same order, but they do not look at the first one. -/

namespace Antonix.Henjin

open LittleEndian

/-! ## Painting -/

/-- The loop of `window_repaint` over the children from `i` on, with the children that it sends a
repaint message. -/
def windowRepaintLoop (gc : Nat) (clipRect : NxgiRect) (children : List HjControlMeta) :
    Nat → Nat → HjControls → HResult × List Nat × HjControls
  | 0, _, controls => (.sOk, [], controls)
  | turns + 1, i, controls =>
    if i < hjGetChildrenCount children then
      match hjGetChildAt children i with
      | .error hr => (hr, [], controls)
      | .ok c =>
        let br := hjGetChildBoundsrect controls children i
        if nxgigRectIntersect br clipRect then
          let cr := nxgigRectOffset br ⟨i32 (-br.x1), i32 (-br.y1)⟩
          let (hr, controls) := hjControlInvalidateRect2 controls c.control cr gc
          if hr.failed then (hr, [i], controls)
          else
            let (hr, later, controls) := windowRepaintLoop gc clipRect children turns (i + 1) controls
            (hr, i :: later, controls)
        else windowRepaintLoop gc clipRect children turns (i + 1) controls
    else (.sOk, [], controls)

/-! ## Dispatching -/

/-- What dispatching a message does: the status, whether it was dispatched, the calls of
`hj_queue_message` with the child's index and the message, and the controls after it. -/
structure Dispatch where
  hr : HResult
  dispatched : Bool
  sent : List (Nat × HjMessage)
  controls : HjControls

/-- The loop over the children from `i` on.  `found` is `k` and `*dispatched`. -/
def recipientLoop (controls : HjControls) (children : List HjControlMeta) (p : NxgiPoint) :
    Nat → Nat → Nat × Bool → HResult × Nat × Bool
  | 0, _, found => (.sOk, found)
  | turns + 1, i, found =>
    if i < hjGetChildrenCount children then
      match hjGetChildAt children i with
      | .error hr => (hr, found)
      | .ok _ =>
        let rect := hjGetChildBoundsrect controls children i
        recipientLoop controls children p turns (i + 1)
          (if nxgigPointInRect p rect then (i, true) else found)
    else (.sOk, found)

/-- A mouse message goes to one of the children from `first` on. -/
def dispatchMouseMessage (first : Nat) (controls : HjControls) (children : List HjControlMeta)
    (msg : HjMessage) : Dispatch :=
  let (hr, k, dispatched) := recipientLoop controls children msg.mouse children.length first (0, false)
  if hr.failed then ⟨hr, dispatched, [], controls⟩
  else if dispatched then
    match hjGetChildAt children k with
    | .error hr => ⟨hr, dispatched, [], controls⟩
    | .ok child =>
      let newMsg := msg.withMouse ⟨msg.mouse.x - child.pos.x, msg.mouse.y - child.pos.y⟩
      let (hr, controls) := hjQueueMessageTo controls child.control newMsg
      ⟨if hr.failed then hr else .sOk, dispatched, [(k, newMsg)], controls⟩
  else ⟨.sOk, dispatched, [], controls⟩

/-- `window_dispatch_mouse_message` -/
def windowDispatchMouseMessage (controls : HjControls) (children : List HjControlMeta)
    (msg : HjMessage) : Dispatch :=
  dispatchMouseMessage 1 controls children msg

/-- `desktop_dispatch_mouse_messages` -/
def desktopDispatchMouseMessages (controls : HjControls) (children : List HjControlMeta)
    (msg : HjMessage) : Dispatch :=
  dispatchMouseMessage 1 controls children msg

/-! ## The topmost child -/

variable {controls : HjControls} {children : List HjControlMeta} {p : NxgiPoint} {msg : HjMessage}
  {k first : Nat}

/-- The child's bounds rectangle contains the point. -/
def Covers (controls : HjControls) (children : List HjControlMeta) (p : NxgiPoint) (k : Nat) :
    Prop :=
  k < children.length ∧ nxgigPointInRect p (hjGetChildBoundsrect controls children k) = true

/-- The last child whose bounds rectangle contains the point. -/
structure Topmost (controls : HjControls) (children : List HjControlMeta) (p : NxgiPoint)
    (k : Nat) : Prop where
  covers : Covers controls children p k
  last : ∀ j, k < j → ¬ Covers controls children p j

theorem Topmost.unique {l : Nat} (top : Topmost controls children p k)
    (other : Topmost controls children p l) : k = l := by
  by_contra different
  cases Nat.lt_or_gt_of_ne different with
  | inl below => exact top.last l below other.covers
  | inr above => exact other.last k above top.covers

/-- If a child contains the point then there is a topmost one. -/
theorem Covers.topmost (covers : Covers controls children p k) :
    ∃ top, k ≤ top ∧ Topmost controls children p top := by
  induction rest : children.length - k using Nat.strong_induction_on generalizing k with
  | _ rest inductionHypothesis =>
    by_cases later : ∃ j, k < j ∧ Covers controls children p j
    · obtain ⟨j, above, coversJ⟩ := later
      have bound := coversJ.1
      obtain ⟨top, reaches, topmost⟩ :=
        inductionHypothesis (children.length - j) (by omega) coversJ rfl
      exact ⟨top, by omega, topmost⟩
    · exact ⟨k, Nat.le_refl k, covers, fun j above coversJ => later ⟨j, above, coversJ⟩⟩

theorem hjGetChildAt_of_lt {i : Nat} (bound : i < children.length) :
    hjGetChildAt children i = .ok children[i] := by
  rw [hjGetChildAt, List.getElem?_eq_getElem bound]

/-! The topmost child is the one to be seen at the point: none that is painted later contains it. -/

/-- Messages leave the sizes of the controls, and so the bounds of all children. -/
theorem hjGetChildBoundsrect_queueMessage (control : Nat) (index : Nat) :
    hjGetChildBoundsrect (hjQueueMessageTo controls control msg).2 children index =
      hjGetChildBoundsrect controls children index := by
  have sizes : ∀ c, ((hjQueueMessageTo controls control msg).2 c).size = (controls c).size := by
    intro c
    simp only [hjQueueMessageTo, Function.update_apply]
    split
    · next same => rw [same]
    · rfl
  simp only [hjGetChildBoundsrect, hjControlGetSize, sizes]

/-- The children are painted in the order of the list, all that meet the clipping rectangle. -/
theorem windowRepaintLoop_order {gc : Nat} {clipRect : NxgiRect} {turns i : Nat}
    (enough : children.length ≤ i + turns) {order : List Nat} {after : HjControls}
    (painted : windowRepaintLoop gc clipRect children turns i controls = (.sOk, order, after)) :
    order.Pairwise (· < ·) ∧ ∀ j, j ∈ order ↔ (i ≤ j ∧ j < children.length) ∧
      nxgigRectIntersect (hjGetChildBoundsrect controls children j) clipRect = true := by
  induction turns generalizing i controls order after with
  | zero =>
    obtain ⟨rfl, -⟩ : order = [] ∧ controls = after := by simpa [windowRepaintLoop] using painted
    refine ⟨List.Pairwise.nil, fun j => ?_⟩
    simp only [List.not_mem_nil, false_iff]
    omega
  | succ turns inductionHypothesis =>
    rw [windowRepaintLoop] at painted
    split at painted
    · next below =>
      rw [hjGetChildAt_of_lt below] at painted
      rw [hjGetChildrenCount] at below
      have range : ∀ j, (i ≤ j ∧ j < children.length) ↔ j = i ∨ i + 1 ≤ j ∧ j < children.length := by
        intro j
        omega
      simp only [range]
      simp only at painted
      split at painted
      · next meets =>
        split at painted
        · next failed =>
          obtain ⟨status, -⟩ := Prod.mk.inj painted
          rw [status] at failed
          cases failed
        · obtain ⟨status, rest⟩ := Prod.mk.inj painted
          obtain ⟨rfl, -⟩ := Prod.mk.inj rest
          obtain ⟨sorted, members⟩ := inductionHypothesis (by omega) (Prod.ext status rfl)
          simp only [hjControlInvalidateRect2, hjGetChildBoundsrect_queueMessage] at members
          refine ⟨List.pairwise_cons.mpr ⟨fun j later => ?_, sorted⟩, fun j => ?_⟩
          · have behind := ((members j).mp later).1.1
            omega
          · rw [List.mem_cons, hjControlInvalidateRect2, members j, or_and_right]
            refine or_congr_left (iff_self_and.mpr ?_)
            rintro rfl
            exact meets
      · next misses =>
        obtain ⟨sorted, members⟩ := inductionHypothesis (by omega) painted
        refine ⟨sorted, fun j => (members j).trans ?_⟩
        rw [or_and_right]
        refine (or_iff_right ?_).symm
        rintro ⟨rfl, meets⟩
        exact misses meets
    · next above =>
      obtain ⟨rfl, -⟩ : order = [] ∧ controls = after := by simpa using painted
      rw [hjGetChildrenCount] at above
      refine ⟨List.Pairwise.nil, fun j => ?_⟩
      simp only [List.not_mem_nil, false_iff]
      omega

/-- No child that is painted after the topmost one contains the point. -/
theorem windowRepaintLoop_topmost {gc : Nat} {clipRect : NxgiRect}
    (top : Topmost controls children p k) (inside : nxgigPointInRect p clipRect = true)
    {order : List Nat} {after : HjControls}
    (painted : windowRepaintLoop gc clipRect children children.length 0 controls =
      (.sOk, order, after)) :
    ∃ before later, order = before ++ k :: later ∧ ∀ j ∈ later, ¬ Covers controls children p j := by
  obtain ⟨sorted, members⟩ := windowRepaintLoop_order (by omega) painted
  have ⟨bound, within⟩ := top.covers
  have meets : nxgigRectIntersect (hjGetChildBoundsrect controls children k) clipRect = true := by
    rw [nxgigPointInRect_iff] at inside within
    simp only [nxgigRectIntersect, Bool.not_eq_true', Bool.or_eq_false_iff, decide_eq_false_iff_not]
    omega
  obtain ⟨before, later, rfl⟩ :=
    List.append_of_mem ((members k).mpr ⟨⟨Nat.zero_le k, bound⟩, meets⟩)
  have behind := (List.pairwise_append.mp sorted).2.1
  exact ⟨before, later, rfl, fun j member =>
    top.last j ((List.pairwise_cons.mp behind).1 j member)⟩

/-- The loop finds nothing among children that do not contain the point. -/
theorem recipientLoop_none {turns i : Nat} (none : ∀ j, i ≤ j → ¬ Covers controls children p j)
    (found : Nat × Bool) : recipientLoop controls children p turns i found = (.sOk, found) := by
  induction turns generalizing i with
  | zero => rfl
  | succ turns inductionHypothesis =>
    rw [recipientLoop]
    split
    · next bound =>
      have missed : nxgigPointInRect p (hjGetChildBoundsrect controls children i) = false :=
        Bool.eq_false_iff.mpr fun inside => none i (Nat.le_refl i) ⟨bound, inside⟩
      rw [hjGetChildAt_of_lt bound]
      simp only [missed, Bool.false_eq_true, if_false]
      exact inductionHypothesis fun j above => none j (by omega)
    · rfl

/-- The loop ends with the topmost child, if that is one of those it looks at. -/
theorem recipientLoop_topmost (top : Topmost controls children p k) {turns i : Nat}
    (enough : children.length ≤ i + turns) (reached : i ≤ k) (found : Nat × Bool) :
    recipientLoop controls children p turns i found = (.sOk, k, true) := by
  have ⟨bound, inside⟩ := top.covers
  induction turns generalizing i found with
  | zero => omega
  | succ turns inductionHypothesis =>
    have below : i < hjGetChildrenCount children := by
      rw [hjGetChildrenCount]
      omega
    rw [recipientLoop, if_pos below, hjGetChildAt_of_lt below]
    by_cases here : i = k
    · subst here
      simp only [inside, if_true]
      exact recipientLoop_none (fun j above => top.last j (by omega)) _
    · exact inductionHypothesis (by omega) (by omega) _

/-- A message goes to the topmost child, if it is one of those from `first` on. -/
theorem dispatchMouseMessage_topmost (top : Topmost controls children msg.mouse k)
    (reached : first ≤ k) (child : HjControlMeta) (found : children[k]? = some child) :
    dispatchMouseMessage first controls children msg =
      let newMsg := msg.withMouse ⟨msg.mouse.x - child.pos.x, msg.mouse.y - child.pos.y⟩
      let (hr, after) := hjQueueMessageTo controls child.control newMsg
      ⟨if hr.failed then hr else .sOk, true, [(k, newMsg)], after⟩ := by
  have loop : recipientLoop controls children msg.mouse children.length first (0, false) =
      (.sOk, k, true) :=
    recipientLoop_topmost top (by omega) reached (0, false)
  have at_k : hjGetChildAt children k = .ok child := by rw [hjGetChildAt, found]
  simp [dispatchMouseMessage, loop, at_k, HResult.failed, HResult.succeeded]

/-- A message goes nowhere if no child from `first` on is below the pointer. -/
theorem dispatchMouseMessage_none
    (none : ∀ j, first ≤ j → ¬ Covers controls children msg.mouse j) :
    dispatchMouseMessage first controls children msg = ⟨.sOk, false, [], controls⟩ := by
  have loop : recipientLoop controls children msg.mouse children.length first (0, false) =
      (.sOk, 0, false) :=
    recipientLoop_none none (0, false)
  simp [dispatchMouseMessage, loop, HResult.failed, HResult.succeeded]

/-! ## What a child receives -/

/-- A control that takes messages: an immediate one, or one whose queue is in order. -/
def TakesMessages (control : HjControl) : Prop :=
  control.type = .immediate ∨ ∃ pending, Pending control pending

/-- An immediate control has processed the message; a deferred one has it at the end of its
queue. -/
def Receives (before after : HjControl) (msg : HjMessage) : Prop :=
  (before.type = .immediate ∧ after = before) ∨
    ∃ pending, Pending before pending ∧ Pending after (pending ++ [msg])

/-- The queue of the control has room for a message, if it has a queue. -/
def HasRoom (control : HjControl) : Prop :=
  control.type = .immediate ∨ sizeofHjMessage ≤ rbGetWriteSize control.messageQueue

/-- A control receives what is queued exactly when it has room. -/
theorem receives_iff {control : HjControl} (ready : TakesMessages control) (msg : HjMessage) :
    Receives control (hjQueueMessage control msg).2 msg ↔ HasRoom control := by
  cases ready with
  | inl immediate =>
    exact ⟨fun _ => .inl immediate, fun _ => .inl ⟨immediate, by simp [hjQueueMessage, immediate]⟩⟩
  | inr deferred =>
    obtain ⟨pending, queue⟩ := deferred
    have space := queue.writeSize
    by_cases room : pending.length < 511
    · obtain ⟨after, queued, received⟩ := queue.queueMessage_room msg room
      refine ⟨fun _ => .inr ?_, fun _ => .inr ⟨pending, queue, queued ▸ received⟩⟩
      rw [space]
      simp only [messageQueueSize, sizeofHjMessage]
      omega
    · have refused := queue.queueMessage_full msg (by omega)
      rw [refused]
      constructor
      · rintro (⟨immediate, -⟩ | ⟨others, before, after⟩)
        · exact absurd immediate queue.notImmediate
        · -- the queue has not become longer
          have short := before.readSize.symm.trans after.readSize
          rw [List.length_append, List.length_singleton] at short
          simp only [sizeofHjMessage] at short
          omega
      · rintro (immediate | large)
        · exact absurd immediate queue.notImmediate
        · rw [space] at large
          simp only [messageQueueSize, sizeofHjMessage] at large
          omega

/-- The message was given to child `k`, and to no other one, and the child has it. -/
structure DeliveredTo (controls : HjControls) (children : List HjControlMeta) (msg : HjMessage)
    (k : Nat) (result : Dispatch) : Prop where
  dispatched : result.dispatched = true
  one : ∃ sent, result.sent = [(k, sent)] ∧ ∃ child, children[k]? = some child ∧
    sent = msg.withMouse ⟨msg.mouse.x - child.pos.x, msg.mouse.y - child.pos.y⟩ ∧
    Receives (controls child.control).toHjControl (result.controls child.control).toHjControl sent ∧
    ∀ other, other ≠ child.control → result.controls other = controls other

/-- The message goes to the topmost child that contains the point, and nowhere without one. -/
def RoutesMouse (controls : HjControls) (children : List HjControlMeta) (msg : HjMessage) : Prop :=
  (∀ k, Topmost controls children msg.mouse k →
    DeliveredTo controls children msg k (windowDispatchMouseMessage controls children msg)) ∧
  ((∀ j, ¬ Covers controls children msg.mouse j) →
    windowDispatchMouseMessage controls children msg = ⟨.sOk, false, [], controls⟩)

/-- A window routes a message exactly when the child that it is for is not the first one, and has
room for the message. -/
theorem windowDispatchMouseMessage_routes_iff
    (ready : ∀ child ∈ children, TakesMessages (controls child.control).toHjControl) :
    RoutesMouse controls children msg ↔
      ∀ k, Topmost controls children msg.mouse k →
        k ≠ 0 ∧ ∀ child, children[k]? = some child →
          HasRoom (controls child.control).toHjControl := by
  constructor
  · intro routes k top
    obtain ⟨dispatched, sent, -, child, found, rfl, receives, -⟩ := routes.1 k top
    by_cases first : k = 0
    · -- the loop starts behind the first child
      have missed : ∀ j, 1 ≤ j → ¬ Covers controls children msg.mouse j :=
        fun j above => top.last j (by omega)
      rw [windowDispatchMouseMessage, dispatchMouseMessage_none missed] at dispatched
      cases dispatched
    · refine ⟨first, fun child' found' => ?_⟩
      obtain rfl : child = child' := Option.some.inj (found.symm.trans found')
      rw [windowDispatchMouseMessage,
        dispatchMouseMessage_topmost top (Nat.pos_of_ne_zero first) child found] at receives
      simp only [hjQueueMessageTo, Function.update_self] at receives
      exact (receives_iff (ready child (List.mem_of_getElem? found)) _).mp receives
  · intro condition
    constructor
    · intro k top
      obtain ⟨later, room⟩ := condition k top
      obtain ⟨child, found⟩ : ∃ child, children[k]? = some child :=
        ⟨_, List.getElem?_eq_getElem top.covers.1⟩
      have takes := (receives_iff (ready child (List.mem_of_getElem? found))
        (msg.withMouse ⟨msg.mouse.x - child.pos.x, msg.mouse.y - child.pos.y⟩)).mpr
        (room child found)
      rw [windowDispatchMouseMessage,
        dispatchMouseMessage_topmost top (Nat.pos_of_ne_zero later) child found]
      refine ⟨rfl, _, rfl, child, found, rfl, ?_, fun other different => ?_⟩
      · simpa only [hjQueueMessageTo, Function.update_self] using takes
      · simp only [hjQueueMessageTo, Function.update_of_ne different]
    · exact fun none => dispatchMouseMessage_none fun j _ => none j

/-- Buttons of 20 by 10 pixels, which are immediate. -/
def someButtons : HjControls := fun _ =>
  { type := .immediate
    messageQueue := createRingBuffer (fun _ => 0) 1
    messageHandler := fun _ => .sOk
    messageDispatcher := none
    size := ⟨20, 10⟩ }

/-- A button in the upper left corner. -/
def oneButton : List HjControlMeta := hjAddChild [] 0x1000

/-- Two buttons, the second one partly over the first one. -/
def twoButtons : List HjControlMeta :=
  (hjControlSetChildPosition (hjAddChild oneButton 0x2000) 1 ⟨10, 5⟩).2

/-- Where both buttons are, the second one gets the message. -/
theorem windowDispatchMouseMessage_routes_second :
    RoutesMouse someButtons twoButtons (hjMouseMessage hjMessageMouseDown ⟨12, 7⟩ 0) := by
  have ready : ∀ child ∈ twoButtons, TakesMessages (someButtons child.control).toHjControl :=
    fun _ _ => .inl rfl
  refine (windowDispatchMouseMessage_routes_iff ready).mpr fun k top => ⟨?_, fun _ _ => .inl rfl⟩
  rintro rfl
  exact top.last 1 (by decide) ⟨by decide, by decide⟩

/-- The only button of a window gets no message. -/
theorem windowDispatchMouseMessage_misses_first :
    ¬ RoutesMouse someButtons oneButton (hjMouseMessage hjMessageMouseDown ⟨5, 5⟩ 0) := by
  intro routes
  have only : ∀ j, 0 < j → ¬ Covers someButtons oneButton
      (hjMouseMessage hjMessageMouseDown ⟨5, 5⟩ 0).mouse j := by
    intro j later covers
    have bound : j < 1 := covers.1
    omega
  have delivered := routes.1 0 ⟨⟨by decide, by decide⟩, only⟩
  exact Bool.noConfusion delivered.dispatched

end Antonix.Henjin
