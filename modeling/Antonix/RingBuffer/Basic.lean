import Antonix.Types
import Antonix.Lib.Ring

/-! # Ring buffers (`ringbuffer.c`, `sound_blaster16.c`)

The Sound Blaster driver has a copy of the routines of `ringbuffer.c` that works on
its own context.  The locks only make each call atomic and are left out. -/

namespace Antonix

open Buffer

/-- `RING_BUFFER` -/
structure RingBuffer where
  buffer : Nat → BitVec 8
  bufferCapacity : Nat
  readPointer : Nat
  writePointer : Nat

/-- `create_ring_buffer`.  The memory that `kmalloc` returns holds anything. -/
def createRingBuffer (buffer : Nat → BitVec 8) (bufferSize : Nat) : RingBuffer where
  buffer := buffer
  bufferCapacity := bufferSize
  readPointer := 0
  writePointer := 0

/-- `avail_bytes`, the result of `rb_get_read_size` -/
def rbGetReadSize (rb : RingBuffer) : Nat :=
  if rb.readPointer > rb.writePointer then
    sub32 rb.bufferCapacity (sub32 rb.readPointer rb.writePointer)
  else sub32 rb.writePointer rb.readPointer

/-- `free_seg_size`, the result of `rb_get_write_size`: one byte stays between the pointers. -/
def rbGetWriteSize (rb : RingBuffer) : Nat :=
  let freeSegSize :=
    if rb.writePointer ≥ rb.readPointer then
      sub32 rb.bufferCapacity (sub32 rb.writePointer rb.readPointer)
    else sub32 rb.readPointer rb.writePointer
  sub32 freeSegSize 1

/-- `rb_write`, where `src` is the `len` bytes at `src`. -/
def rbWrite (rb : RingBuffer) (src : List (BitVec 8)) : HResult × RingBuffer :=
  if rbGetWriteSize rb < src.length then (.eBufferOverflow, rb)
  else if src.length > sub32 rb.bufferCapacity rb.writePointer then
    let s1 := sub32 rb.bufferCapacity rb.writePointer
    let s2 := sub32 src.length s1
    let first := writeAt rb.buffer rb.writePointer (src.take s1)
    (.sOk, { rb with
      buffer := writeAt first 0 ((src.drop s1).take s2)
      writePointer := s2 })
  else
    (.sOk, { rb with
      buffer := writeAt rb.buffer rb.writePointer src
      writePointer := u32 (rb.writePointer + src.length) })

/-- `rb_read`, with the bytes that it copies to `dst`. -/
def rbRead (rb : RingBuffer) (len : Nat) : HResult × List (BitVec 8) × RingBuffer :=
  if rbGetReadSize rb < len then (.eBufferUnderflow, [], rb)
  else if u32 (rb.readPointer + len) > rb.bufferCapacity then
    let s1 := sub32 rb.bufferCapacity rb.readPointer
    let s2 := sub32 len s1
    (.sOk, readAt rb.buffer rb.readPointer s1 ++ readAt rb.buffer 0 s2,
      { rb with readPointer := s2 })
  else
    (.sOk, readAt rb.buffer rb.readPointer len,
      { rb with readPointer := u32 (rb.readPointer + len) })

/-- `rb_read_upto`, with the bytes that it copies to `dst` and `actual_bytes`. -/
def rbReadUpto (rb : RingBuffer) (max : Nat) :
    HResult × List (BitVec 8) × Nat × RingBuffer :=
  let size := if rbGetReadSize rb > max then max else rbGetReadSize rb
  if size = 0 then (.eBufferUnderflow, [], size, rb)
  else
    let (hr, dst, rb) := rbRead rb size
    (hr, dst, size, rb)

/-! ## The copy of the Sound Blaster driver -/

/-- `SB16_DRV_CONTEXT`, the audio buffer. -/
structure Sb16DrvContext where
  audioBuffer : Nat → BitVec 8
  audioBufferCapacity : Nat
  audioRp : Nat
  audioWp : Nat

namespace Sb16

/-- The audio buffer under the names of `ringbuffer.c`. -/
def ring (ctx : Sb16DrvContext) : RingBuffer where
  buffer := ctx.audioBuffer
  bufferCapacity := ctx.audioBufferCapacity
  readPointer := ctx.audioRp
  writePointer := ctx.audioWp

/-- Store the fields of a ring buffer in the context. -/
def setRing (ctx : Sb16DrvContext) (rb : RingBuffer) : Sb16DrvContext :=
  { ctx with
    audioBuffer := rb.buffer
    audioBufferCapacity := rb.bufferCapacity
    audioRp := rb.readPointer
    audioWp := rb.writePointer }

/-- The audio buffer as `sb16_device_init` leaves it. -/
def deviceInit (audioBuffer : Nat → BitVec 8) (capacity : Nat) : Sb16DrvContext where
  audioBuffer := audioBuffer
  audioBufferCapacity := capacity
  audioRp := 0
  audioWp := 0

/-- `rb_get_read_size` of `sound_blaster16.c` -/
def rbGetReadSize (ctx : Sb16DrvContext) : Nat := Antonix.rbGetReadSize (ring ctx)

/-- `rb_get_write_size` of `sound_blaster16.c` -/
def rbGetWriteSize (ctx : Sb16DrvContext) : Nat := Antonix.rbGetWriteSize (ring ctx)

/-- `rb_write` of `sound_blaster16.c` -/
def rbWrite (ctx : Sb16DrvContext) (src : List (BitVec 8)) : HResult × Sb16DrvContext :=
  let (hr, rb) := Antonix.rbWrite (ring ctx) src
  (hr, setRing ctx rb)

/-- `rb_read` of `sound_blaster16.c` -/
def rbRead (ctx : Sb16DrvContext) (len : Nat) : HResult × List (BitVec 8) × Sb16DrvContext :=
  let (hr, dst, rb) := Antonix.rbRead (ring ctx) len
  (hr, dst, setRing ctx rb)

/-- `rb_read_upto` of `sound_blaster16.c` -/
def rbReadUpto (ctx : Sb16DrvContext) (max : Nat) :
    HResult × List (BitVec 8) × Nat × Sb16DrvContext :=
  let (hr, dst, actual, rb) := Antonix.rbReadUpto (ring ctx) max
  (hr, dst, actual, setRing ctx rb)

end Sb16

end Antonix
