/-
  The byte FIFO of the shaper (`src/libtsshaper/src/core/tss_fifo.c`): a ring of `capacity` bytes
  with a head, a tail and a size.

  The two `memcpy`s of a write or a read that runs past the end of the ring are two block copies
  here too.  A NULL FIFO is not modelled: `tsshaper_add_pid` allocates one for every PID.
-/
import TsAnalyzer.Lib.Bytes

namespace TsAnalyzer.Shaper

open Lib

structure TssFifo where
  buffer : Nat → UInt8
  capacity : Nat
  head : Nat
  tail : Nat
  size : Nat

/-- `tss_fifo_alloc`; what `malloc` leaves in the buffer is read by nobody. -/
def tssFifoAlloc (capacity : Nat) : TssFifo := ⟨fun _ => 0, capacity, 0, 0, 0⟩

namespace TssFifo

def reset (f : TssFifo) : TssFifo := { f with head := 0, tail := 0, size := 0 }

/-- `tss_fifo_write`: all of `buf`, or nothing (`none`) where it does not fit. -/
def write (f : TssFifo) (buf : List UInt8) : Option TssFifo :=
  let len := buf.length
  if f.size + len > f.capacity then none
  else
    let toEnd := f.capacity - f.tail
    let buffer :=
      if len ≤ toEnd then writeAt f.buffer f.tail buf
      else writeAt (writeAt f.buffer f.tail (buf.take toEnd)) 0 (buf.drop toEnd)
    some { f with buffer, tail := (f.tail + len) % f.capacity, size := f.size + len }

/-- `len` bytes of the ring from position `start` on, around its end. -/
def copyOut (f : TssFifo) (start len : Nat) : List UInt8 :=
  let toEnd := f.capacity - start
  if len ≤ toEnd then bytesAt f.buffer start len
  else bytesAt f.buffer start toEnd ++ bytesAt f.buffer 0 (len - toEnd)

def read (f : TssFifo) (len : Nat) : Option (List UInt8 × TssFifo) :=
  if f.size < len then none
  else
    some (f.copyOut f.head len,
      { f with head := (f.head + len) % f.capacity, size := f.size - len })

def peek (f : TssFifo) (len offset : Nat) : Option (List UInt8) :=
  if f.size < offset + len then none
  else some (f.copyOut ((f.head + offset) % f.capacity) len)

/-- `tss_fifo_drain`: what is asked for, or everything. -/
def drain (f : TssFifo) (len : Nat) : TssFifo :=
  let n := min len f.size
  { f with head := (f.head + n) % f.capacity, size := f.size - n }

end TssFifo

theorem TssFifo.drain_size_lt {f : TssFifo} {len : Nat} (hlen : 0 < len) (hsize : len ≤ f.size) :
    (f.drain len).size < f.size := by
  show f.size - min len f.size < f.size
  omega

end TsAnalyzer.Shaper
