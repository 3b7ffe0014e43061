/-
  EasyGameServer.CircularBuffer.Basic

  The two-region ring buffer of `CircularBuffer.h` / `CircularBuffer.cpp`.

  Pointers into the array are offsets from `mBuffer`, `nullptr` is `none`, and
  the array itself is a memory `Nat → UInt8`; whether every access stays below
  `mBufferEnd` is a theorem about reachable states, not part of the type.
  `size_t` differences go through `sizeSub`, so a difference that C++ would
  wrap is as large here as it is there.
-/

import EasyGameServer.Lib.Memory
import Mathlib.Algebra.Group.Nat.Defs

namespace EasyGameServer

open Lib

/-- `size_t` subtraction: wraps below zero. -/
def sizeSub (a b : Nat) : Nat := if b ≤ a then a - b else a + 2 ^ 64 - b

theorem sizeSub_of_le {a b : Nat} (h : b ≤ a) : sizeSub a b = a - b := if_pos h

structure CircularBuffer where
  mBuffer : Nat → UInt8
  mBufferEnd : Nat
  mARegionPointer : Nat
  mARegionSize : Nat
  mBRegionPointer : Option Nat
  mBRegionSize : Nat

namespace CircularBuffer

/-- The constructor; `mem` is what `new char[capacity]` happens to contain. -/
def new (capacity : Nat) (mem : Nat → UInt8) : CircularBuffer where
  mBuffer := mem
  mBufferEnd := capacity
  mARegionPointer := 0
  mARegionSize := 0
  mBRegionPointer := none
  mBRegionSize := 0

def allocateB (cb : CircularBuffer) : CircularBuffer :=
  { cb with mBRegionPointer := some 0 }

def getAFreeSpace (cb : CircularBuffer) : Nat :=
  sizeSub (sizeSub cb.mBufferEnd cb.mARegionPointer) cb.mARegionSize

def getSpaceBeforeA (cb : CircularBuffer) : Nat := cb.mARegionPointer

def getBFreeSpace (cb : CircularBuffer) : Nat :=
  match cb.mBRegionPointer with
  | none => 0
  | some b => sizeSub (sizeSub cb.mARegionPointer b) cb.mBRegionSize

/-- Not `const` in the source either: it may switch to the B region. -/
def getFreeSpaceSize (cb : CircularBuffer) : Nat × CircularBuffer :=
  if cb.mBRegionPointer.isSome then
    (cb.getBFreeSpace, cb)
  else if cb.getAFreeSpace < cb.getSpaceBeforeA then
    (cb.allocateB.getBFreeSpace, cb.allocateB)
  else
    (cb.getAFreeSpace, cb)

def getStoredSize (cb : CircularBuffer) : Nat :=
  cb.mARegionSize + cb.mBRegionSize

def getContiguousBytes (cb : CircularBuffer) : Nat :=
  if cb.mARegionSize > 0 then cb.mARegionSize else cb.mBRegionSize

/-- Where the next byte is to be written. -/
def getBuffer (cb : CircularBuffer) : Nat :=
  match cb.mBRegionPointer with
  | some b => b + cb.mBRegionSize
  | none => cb.mARegionPointer + cb.mARegionSize

def commit (cb : CircularBuffer) (len : Nat) : CircularBuffer :=
  if cb.mBRegionPointer.isSome then
    { cb with mBRegionSize := cb.mBRegionSize + len }
  else
    { cb with mARegionSize := cb.mARegionSize + len }

/-- The address of the first stored byte (`nullptr` when there is no B region
    to fall back on). -/
def getBufferStart (cb : CircularBuffer) : Option Nat :=
  if cb.mARegionSize > 0 then some cb.mARegionPointer else cb.mBRegionPointer

/-- Somebody outside the class (the kernel, completing a receive) stores
    `data` at `getBuffer`. -/
def store (cb : CircularBuffer) (data : List UInt8) : CircularBuffer :=
  { cb with mBuffer := memcpy cb.mBuffer cb.getBuffer data }

/-- `Peek`: the bytes copied to `destbuf`, or `none` for `false`. -/
def peek (cb : CircularBuffer) (bytes : Nat) : Option (List UInt8) :=
  if cb.mARegionSize + cb.mBRegionSize < bytes then
    none
  else
    let aRead :=
      if cb.mARegionSize > 0 then
        (if bytes > cb.mARegionSize then cb.mARegionSize else bytes)
      else 0
    let cnt := bytes - aRead
    let bRead := if cnt > 0 ∧ cb.mBRegionSize > 0 then cnt else 0
    some (slice cb.mBuffer cb.mARegionPointer aRead
      ++ slice cb.mBuffer (cb.mBRegionPointer.getD 0) bRead)

/-- The last block of `Read` and of `Remove`: an empty A region takes over
    what B holds. -/
def collapse (cb : CircularBuffer) : CircularBuffer :=
  if cb.mARegionSize = 0 then
    if cb.mBRegionSize > 0 then
      { cb with
        mBuffer :=
          if cb.mBRegionPointer ≠ some 0 then
            memmove cb.mBuffer 0 (cb.mBRegionPointer.getD 0) cb.mBRegionSize
          else cb.mBuffer
        mARegionPointer := 0
        mARegionSize := cb.mBRegionSize
        mBRegionPointer := none
        mBRegionSize := 0 }
    else
      { cb with
        mBRegionPointer := none
        mBRegionSize := 0
        mARegionPointer := 0
        mARegionSize := 0 }
  else cb

/-- Drop `a` bytes off the front of A and `b` off the front of B. -/
def advance (cb : CircularBuffer) (a b : Nat) : CircularBuffer :=
  { cb with
    mARegionSize := cb.mARegionSize - a
    mARegionPointer := cb.mARegionPointer + a
    mBRegionSize := cb.mBRegionSize - b
    mBRegionPointer := cb.mBRegionPointer.map (· + b) }

/-- `Read`: the bytes copied to `destbuf` and the buffer left, or `none` for
    `false`, which leaves the buffer as it was. -/
def read (cb : CircularBuffer) (bytes : Nat) : Option (List UInt8 × CircularBuffer) :=
  if cb.mARegionSize + cb.mBRegionSize < bytes then
    none
  else
    let aRead :=
      if cb.mARegionSize > 0 then
        (if bytes > cb.mARegionSize then cb.mARegionSize else bytes)
      else 0
    let cnt := bytes - aRead
    let bRead := if cnt > 0 ∧ cb.mBRegionSize > 0 then cnt else 0
    let out := slice cb.mBuffer cb.mARegionPointer aRead
      ++ slice cb.mBuffer (cb.mBRegionPointer.getD 0) bRead
    some (out, (cb.advance aRead bRead).collapse)

/-- The write into an allocated B region, which `Write` does in two places. -/
def writeB (cb : CircularBuffer) (data : List UInt8) (bytes : Nat) :
    Bool × CircularBuffer :=
  if cb.getBFreeSpace < bytes then
    (false, cb)
  else
    (true,
      { cb with
        mBuffer := memcpy cb.mBuffer (cb.mBRegionPointer.getD 0 + cb.mBRegionSize)
          (data.take bytes)
        mBRegionSize := cb.mBRegionSize + bytes })

def write (cb : CircularBuffer) (data : List UInt8) (bytes : Nat) :
    Bool × CircularBuffer :=
  if cb.mBRegionPointer.isSome then
    cb.writeB data bytes
  else if cb.getAFreeSpace < cb.getSpaceBeforeA then
    cb.allocateB.writeB data bytes
  else if cb.getAFreeSpace < bytes then
    (false, cb)
  else
    (true,
      { cb with
        mBuffer := memcpy cb.mBuffer (cb.mARegionPointer + cb.mARegionSize)
          (data.take bytes)
        mARegionSize := cb.mARegionSize + bytes })

/-- `Remove`: unlike `Read` it never refuses, it drops what there is. -/
def remove (cb : CircularBuffer) (len : Nat) : CircularBuffer :=
  let aRemove :=
    if cb.mARegionSize > 0 then
      (if len > cb.mARegionSize then cb.mARegionSize else len)
    else 0
  let cnt := len - aRemove
  let bRemove :=
    if cnt > 0 ∧ cb.mBRegionSize > 0 then
      (if cnt > cb.mBRegionSize then cb.mBRegionSize else cnt)
    else 0
  (cb.advance aRemove bRemove).collapse

end CircularBuffer
end EasyGameServer
