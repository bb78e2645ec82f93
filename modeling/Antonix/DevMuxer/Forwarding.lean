import Antonix.DevMuxer.Basic

/-! # Forwarded calls (`dev_muxer.c`)

A call on a virtual stream is packed into `VSTREAM_CALL_PARAMS`, to be unpacked when the slot
is active.  That is a union, of which the type of the call is one member: what is packed into
the first word of another member takes its place.

The pointer that `devmux_add_device` hands out is that of the `K_DEV_STREAM`, whose first member
is the slot; as a `K_STREAM` every member is read one word too early. -/

namespace Antonix.DevMuxer

/-- A call of a `K_STREAM`, with its arguments; pointers are words. -/
inductive StreamCall where
  | read (blockSize outBuf bytesRead : BitVec 32)
  | write (blockSize inBuf bytesWritten : BitVec 32)
  | tell
  | seek (pos : BitVec 64) (origin : BitVec 8)
  | ioctl (code arg : BitVec 32)
  deriving DecidableEq

/-- `E_UNEXPECTED` -/
abbrev eUnexpected : BitVec 32 := 0x1E

/-! ## `VSTREAM_CALL_PARAMS` -/

/-- `VSTREAM_CALL_TYPE` -/
abbrev vstreamCallRead : BitVec 32 := 0

abbrev vstreamCallWrite : BitVec 32 := 1

abbrev vstreamCallClose : BitVec 32 := 2

abbrev vstreamCallTell : BitVec 32 := 3

abbrev vstreamCallSeek : BitVec 32 := 4

abbrev vstreamCallIoctl : BitVec 32 := 5

/-- `VSTREAM_CALL_PARAMS`: the members `read` and `write` are the three words of the union, `ioctl`
is the first two, and `type` is the first. -/
structure VstreamCallParams where
  word0 : BitVec 32
  word1 : BitVec 32
  word2 : BitVec 32
  deriving DecidableEq

namespace VstreamCallParams

/-- `params.type` -/
def type (params : VstreamCallParams) : BitVec 32 := params.word0

def setType (params : VstreamCallParams) (type : BitVec 32) : VstreamCallParams :=
  { params with word0 := type }

/-- `params.seek.pos` -/
def seekPos (params : VstreamCallParams) : BitVec 64 := params.word1 ++ params.word0

/-- `params.seek.origin` -/
def seekOrigin (params : VstreamCallParams) : BitVec 8 := params.word2.setWidth 8

/-- The three bytes behind the origin stay as they are. -/
def setSeek (params : VstreamCallParams) (pos : BitVec 64) (origin : BitVec 8) :
    VstreamCallParams where
  word0 := pos.setWidth 32
  word1 := (pos >>> 32).setWidth 32
  word2 := params.word2.extractLsb' 8 24 ++ origin

end VstreamCallParams

/-! ## Virtual streams -/

/-- What `event_waitfor_multiple` answers. -/
inductive WaitAnswer where
  | failed (hr : BitVec 32)
  | signaled (waitres : Nat)

/-- What a virtual stream finds: the answers of the primary device's stream, the code
`E_INTERRUPTED`, the answer of the wait, and what is in `params` before it is set. -/
structure Host where
  primDevice : StreamCall → BitVec 32
  eInterrupted : BitVec 32
  eventWaitforMultiple : WaitAnswer
  params : VstreamCallParams

/-- What has been done for a call: the calls of the primary device's stream, the status, and
`*result` where there is one. -/
structure Forwarded where
  calls : List StreamCall
  hr : BitVec 32
  result : Option (BitVec 32)

/-- `vstream_deserialize_call` -/
def vstreamDeserializeCall (host : Host) (p : VstreamCallParams) (result : Option (BitVec 32)) :
    Except Halt Forwarded :=
  if p.type = vstreamCallRead then
    let call := .read p.word0 p.word1 p.word2
    .ok ⟨[call], host.primDevice call, result⟩
  else if p.type = vstreamCallWrite then
    let call := .write p.word0 p.word1 p.word2
    .ok ⟨[call], host.primDevice call, result⟩
  else if p.type = vstreamCallClose then .ok ⟨[], eUnexpected, result⟩
  else if p.type = vstreamCallTell then
    match result with
    | none => .error .stuck
    | some _ => .ok ⟨[.tell], 0, some (host.primDevice .tell)⟩
  else if p.type = vstreamCallSeek then
    let call := .seek p.seekPos p.seekOrigin
    match result with
    | none => .error .stuck
    | some _ => .ok ⟨[call], 0, some (host.primDevice call)⟩
  else if p.type = vstreamCallIoctl then
    let call := .ioctl p.word0 p.word1
    .ok ⟨[call], host.primDevice call, result⟩
  else .ok ⟨[], BitVec.ofNat 32 HResult.eInvalidArg.code, result⟩

/-- `vstream_forward_call` -/
def vstreamForwardCall (host : Host) (dm : KDevMuxer) (slot : Slot) (params : VstreamCallParams)
    (result : Option (BitVec 32)) : Except Halt (Forwarded × KDevMuxer) :=
  let isActiveSlot := dm.activeSlot = slot
  let dm := deviceAddref dm slot
  let forward := (vstreamDeserializeCall host params result).map (·, deviceRelease dm slot)
  if isActiveSlot then forward
  else
    match host.eventWaitforMultiple with
    | .failed hr => .ok (⟨[], hr, result⟩, deviceRelease dm slot)
    -- the reference is kept
    | .signaled 0 => .ok (⟨[], host.eInterrupted, result⟩, dm)
    | .signaled 1 => forward
    | .signaled _ => .error (.panic "Unexpected case.")

/-- What a call on a stream has done: the calls of the primary device's stream, and what it
returns. -/
structure Performed where
  calls : List StreamCall
  answer : BitVec 32
  deriving DecidableEq

/-- What a call that returns the status does. -/
def returnStatus (call : Except Halt (Forwarded × KDevMuxer)) :
    Except Halt (Performed × KDevMuxer) :=
  call.map fun (forwarded, dm) => (⟨forwarded.calls, forwarded.hr⟩, dm)

/-- What a call that returns `result` does. -/
def returnResult (call : Except Halt (Forwarded × KDevMuxer)) :
    Except Halt (Performed × KDevMuxer) :=
  call.map fun (forwarded, dm) => (⟨forwarded.calls, forwarded.result.getD 0⟩, dm)

section

variable (host : Host) (dm : KDevMuxer) (slot : Slot)

/-- `vstream_read` -/
def vstreamRead (blockSize outBuf bytesRead : BitVec 32) : Except Halt (Performed × KDevMuxer) :=
  let params := host.params.setType vstreamCallRead
  let params := { params with word0 := blockSize, word1 := outBuf, word2 := bytesRead }
  returnStatus (vstreamForwardCall host dm slot params none)

/-- `vstream_write` -/
def vstreamWrite (blockSize inBuf bytesWritten : BitVec 32) :
    Except Halt (Performed × KDevMuxer) :=
  let params := host.params.setType vstreamCallWrite
  let params := { params with word0 := blockSize, word1 := inBuf, word2 := bytesWritten }
  returnStatus (vstreamForwardCall host dm slot params none)

/-- `vstream_tell` -/
def vstreamTell : Except Halt (Performed × KDevMuxer) :=
  let params := host.params.setType vstreamCallTell
  returnResult (vstreamForwardCall host dm slot params (some 0))

/-- `vstream_seek` -/
def vstreamSeek (pos : BitVec 64) (origin : BitVec 8) : Except Halt (Performed × KDevMuxer) :=
  let params := host.params.setType vstreamCallSeek
  let params := params.setSeek pos origin
  returnResult (vstreamForwardCall host dm slot params (some 0))

/-- `vstream_ioctl` -/
def vstreamIoctl (code arg : BitVec 32) : Except Halt (Performed × KDevMuxer) :=
  let params := host.params.setType vstreamCallIoctl
  let params := { params with word0 := code, word1 := arg }
  returnStatus (vstreamForwardCall host dm slot params none)

/-- The function of a virtual stream that a call is for. -/
def vstreamCall : StreamCall → Except Halt (Performed × KDevMuxer)
  | .read blockSize outBuf bytesRead => vstreamRead host dm slot blockSize outBuf bytesRead
  | .write blockSize inBuf bytesWritten => vstreamWrite host dm slot blockSize inBuf bytesWritten
  | .tell => vstreamTell host dm slot
  | .seek pos origin => vstreamSeek host dm slot pos origin
  | .ioctl code arg => vstreamIoctl host dm slot code arg

end

/-! ## Streams in memory -/

/-- The functions that a `K_STREAM` points to. -/
inductive StreamFunction where
  | read
  | write
  | seek
  | tell
  | ioctl
  | close
  deriving DecidableEq

/-- The word of a `K_STREAM` with the pointer to a function; `mode`, `pos` and `filename` come
first. -/
def StreamFunction.word : StreamFunction → Nat
  | .read => 3
  | .write => 4
  | .seek => 5
  | .tell => 6
  | .ioctl => 7
  | .close => 8

/-- The function that a call is made through. -/
def StreamCall.function : StreamCall → StreamFunction
  | .read .. => .read
  | .write .. => .write
  | .tell => .tell
  | .seek .. => .seek
  | .ioctl .. => .ioctl

/-- The words of the `K_DEV_STREAM` that `vstream_create` returns, as far as they are functions of
a virtual stream: `slot`, the members of `stream`, and `dm`. -/
def kDevStream : List (Option StreamFunction) :=
  [none] ++
    ([none, none, none, some .read, some .write, some .seek, some .tell, some .ioctl, some .close,
      none, none, none] ++ [none, none, none, none]) ++
    [none]

/-- `k_fread` and the others, with the pointer that `devmux_add_device` hands out.  To call
a function as another one, or no function, is undefined. -/
def callHandle (host : Host) (dm : KDevMuxer) (slot : Slot) (call : StreamCall) :
    Except Halt (Performed × KDevMuxer) :=
  if kDevStream[call.function.word]? = some (some call.function) then vstreamCall host dm slot call
  else .error .stuck

/-! ## Calls that get through -/

/-- Exactly this call is made of the primary device's stream, and its answer returned. -/
def Forwards (host : Host) (call : StreamCall) (done : Except Halt (Performed × KDevMuxer)) :
    Prop :=
  ∃ dm, done = .ok (⟨[call], host.primDevice call⟩, dm)

/-- The first word of the arguments is the type of the call, or there is none. -/
def TypeStays : StreamCall → Prop
  | .read blockSize _ _ => blockSize = vstreamCallRead
  | .write blockSize _ _ => blockSize = vstreamCallWrite
  | .tell => True
  | .seek pos _ => pos.setWidth 32 = vstreamCallSeek
  | .ioctl code _ => code = vstreamCallIoctl

/-- The type that a call is packed with. -/
def StreamCall.type : StreamCall → BitVec 32
  | .read .. => vstreamCallRead
  | .write .. => vstreamCallWrite
  | .tell => vstreamCallTell
  | .seek .. => vstreamCallSeek
  | .ioctl .. => vstreamCallIoctl

section

variable {host : Host} {dm dm' : KDevMuxer} {slot : Slot} {p params : VstreamCallParams}
  {call : StreamCall} {result : Option (BitVec 32)} {forwarded : Forwarded}

/-! ## Packing and unpacking -/

theorem seekPos_setSeek (pos : BitVec 64) (origin : BitVec 8) :
    (params.setSeek pos origin).seekPos = pos := by
  apply BitVec.eq_of_getLsbD_eq
  intro i inside
  simp only [VstreamCallParams.seekPos, VstreamCallParams.setSeek, BitVec.getLsbD_append,
    BitVec.getLsbD_setWidth, BitVec.getLsbD_ushiftRight]
  by_cases low : i < 32
  · simp [low]
  · have high : i - 32 < 32 := by omega
    have same : 32 + (i - 32) = i := by omega
    simp [low, high, same]

theorem seekOrigin_setSeek (pos : BitVec 64) (origin : BitVec 8) :
    (params.setSeek pos origin).seekOrigin = origin := by
  apply BitVec.eq_of_getLsbD_eq
  intro i inside
  simp only [VstreamCallParams.seekOrigin, VstreamCallParams.setSeek, BitVec.getLsbD_append,
    BitVec.getLsbD_setWidth]
  simp [inside]

theorem eq_of_made {made : Forwarded} {call' : StreamCall}
    (done : (.ok made : Except Halt Forwarded) = .ok forwarded) (calls : forwarded.calls = [call])
    (own : made.calls = [call']) : call = call' := by
  obtain rfl := Except.ok.inj done
  exact List.singleton_inj.mp (calls.symm.trans own)

/-- Whatever is unpacked is a call of the type that stands in the first word. -/
theorem type_of_deserialized
    (done : vstreamDeserializeCall host p result = .ok forwarded)
    (calls : forwarded.calls = [call]) : p.type = call.type := by
  unfold vstreamDeserializeCall at done
  by_cases read : p.type = vstreamCallRead
  · rw [if_pos read] at done
    rw [eq_of_made done calls rfl, read]
    rfl
  rw [if_neg read] at done
  by_cases write : p.type = vstreamCallWrite
  · rw [if_pos write] at done
    rw [eq_of_made done calls rfl, write]
    rfl
  rw [if_neg write] at done
  by_cases close : p.type = vstreamCallClose
  · -- nothing is called
    rw [if_pos close] at done
    obtain rfl := Except.ok.inj done
    cases calls
  rw [if_neg close] at done
  by_cases tell : p.type = vstreamCallTell
  · rw [if_pos tell] at done
    cases result with
    | none => cases done
    | some _ =>
      rw [eq_of_made done calls rfl, tell]
      rfl
  rw [if_neg tell] at done
  by_cases seek : p.type = vstreamCallSeek
  · rw [if_pos seek] at done
    cases result with
    | none => cases done
    | some _ =>
      rw [eq_of_made done calls rfl, seek]
      rfl
  rw [if_neg seek] at done
  by_cases ioctl : p.type = vstreamCallIoctl
  · rw [if_pos ioctl] at done
    rw [eq_of_made done calls rfl, ioctl]
    rfl
  · rw [if_neg ioctl] at done
    obtain rfl := Except.ok.inj done
    cases calls

/-- On the active slot nothing is waited for. -/
theorem vstreamForwardCall_active (active : dm.activeSlot = slot) :
    vstreamForwardCall host dm slot params result =
      (vstreamDeserializeCall host params result).map
        (·, deviceRelease (deviceAddref dm slot) slot) := if_pos active

theorem forwards_status :
    Forwards host call (returnStatus ((vstreamDeserializeCall host p result).map (·, dm'))) ↔
      ∃ result', vstreamDeserializeCall host p result =
        .ok ⟨[call], host.primDevice call, result'⟩ := by
  cases vstreamDeserializeCall host p result with
  | error halt => simp [Forwards, returnStatus, Except.map]
  | ok forwarded =>
    obtain ⟨calls, hr, result'⟩ := forwarded
    simp [Forwards, returnStatus, Except.map]

theorem forwards_result :
    Forwards host call (returnResult ((vstreamDeserializeCall host p result).map (·, dm'))) ↔
      ∃ hr result', vstreamDeserializeCall host p result = .ok ⟨[call], hr, result'⟩ ∧
        result'.getD 0 = host.primDevice call := by
  cases vstreamDeserializeCall host p result with
  | error halt => simp [Forwards, returnResult, Except.map]
  | ok forwarded =>
    obtain ⟨calls, hr, result'⟩ := forwarded
    simp [Forwards, returnResult, Except.map]

/-- Packing and unpacking a call on the active slot makes that call exactly when the arguments leave
its type as it is. -/
theorem vstreamCall_forwards_iff (active : dm.activeSlot = slot) :
    Forwards host call (vstreamCall host dm slot call) ↔ TypeStays call := by
  cases call with
  | read blockSize outBuf bytesRead =>
    rw [vstreamCall, vstreamRead, vstreamForwardCall_active active, forwards_status]
    constructor
    · rintro ⟨result, done⟩
      exact type_of_deserialized done rfl
    · intro stays
      exact ⟨none, if_pos stays⟩
  | write blockSize inBuf bytesWritten =>
    rw [vstreamCall, vstreamWrite, vstreamForwardCall_active active, forwards_status]
    constructor
    · rintro ⟨result, done⟩
      exact type_of_deserialized done rfl
    · intro stays
      obtain rfl : blockSize = vstreamCallWrite := stays
      exact ⟨none, rfl⟩
  | tell =>
    rw [vstreamCall, vstreamTell, vstreamForwardCall_active active, forwards_result]
    exact ⟨fun _ => trivial, fun _ => ⟨0, some (host.primDevice .tell), rfl, rfl⟩⟩
  | seek pos origin =>
    rw [vstreamCall, vstreamSeek, vstreamForwardCall_active active, forwards_result]
    constructor
    · rintro ⟨hr, result, done, -⟩
      exact type_of_deserialized done rfl
    · intro stays
      have type : ((host.params.setType vstreamCallSeek).setSeek pos origin).type =
          vstreamCallSeek := stays
      refine ⟨0, some (host.primDevice (.seek pos origin)), ?_, rfl⟩
      rw [vstreamDeserializeCall, type, seekPos_setSeek, seekOrigin_setSeek]
      rfl
  | ioctl code arg =>
    rw [vstreamCall, vstreamIoctl, vstreamForwardCall_active active, forwards_status]
    constructor
    · rintro ⟨result, done⟩
      exact type_of_deserialized done rfl
    · intro stays
      obtain rfl : code = vstreamCallIoctl := stays
      exact ⟨none, rfl⟩

/-- No function of the stream is where a `K_STREAM` has it. -/
theorem kDevStream_misses (function : StreamFunction) :
    kDevStream[function.word]? ≠ some (some function) := by
  cases function with
  | _ => simp [kDevStream, StreamFunction.word]

end

/-- On the active slot a call of a virtual stream's own function is made of the primary device
exactly when its first argument happens to be its type: a read of no bytes, a write of one, a seek
whose low word is 4, the control code 5, and always to tell the position.  A call through the
pointer that `devmux_add_device` hands out never is. -/
theorem vstream_forwards_iff (host : Host) (dm : KDevMuxer) (slot : Slot)
    (active : dm.activeSlot = slot) (call : StreamCall) :
    (Forwards host call (vstreamCall host dm slot call) ↔ TypeStays call) ∧
    ¬ Forwards host call (callHandle host dm slot call) := by
  refine ⟨vstreamCall_forwards_iff active, ?_⟩
  rintro ⟨dm', done⟩
  rw [callHandle, if_neg (kDevStream_misses _)] at done
  cases done

/-- A host whose device answers every call with 7. -/
def sevenHost : Host where
  primDevice := fun _ => 7
  eInterrupted := 0x20
  eventWaitforMultiple := .signaled 1
  params := ⟨0, 0, 0⟩

/-- A read of no bytes. -/
theorem vstream_forwards_nothing : Forwards sevenHost (.read 0 0x1000 0x2000)
    (vstreamCall sevenHost devmuxCreate 0 (.read 0 0x1000 0x2000)) :=
  (vstream_forwards_iff sevenHost devmuxCreate 0 rfl _).1.mpr rfl

/-- A read of one byte becomes a write, and a read of 512 bytes is refused. -/
theorem vstreamRead_misread :
    (vstreamCall sevenHost devmuxCreate 0 (.read 1 0x1000 0x2000)).map Prod.fst =
      .ok ⟨[.write 1 0x1000 0x2000], 7⟩ ∧
    (vstreamCall sevenHost devmuxCreate 0 (.read 512 0x1000 0x2000)).map Prod.fst =
      .ok ⟨[], 0x10⟩ ∧
    ¬ Forwards sevenHost (.read 512 0x1000 0x2000)
      (vstreamCall sevenHost devmuxCreate 0 (.read 512 0x1000 0x2000)) := by
  refine ⟨rfl, rfl, ?_⟩
  rintro ⟨dm, done⟩
  have calls := congrArg (Except.map fun result : Performed × KDevMuxer => result.1.calls) done
  cases calls

end Antonix.DevMuxer
