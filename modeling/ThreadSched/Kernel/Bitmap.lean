import Mathlib.Data.BitVec

/-!
# The bitmap (`lib/bitmap.c`)

`bits` is the memory at `btmp->bits`: byte `i` for every `i`, also past `btmp_bytes_len`, which is
where an index that is out of range reads and writes.

* `uint32_t` and `int` values are `Nat` and `Int`, converted as the source converts them; `int` is
  two's complement.
* The loops of `bitmap_scan` return what they compute together with the bytes they read, in order.
* A failed assertion is `none`.  The first two loops have no counter: running out of fuel is `none`
  as well.
-/

set_option autoImplicit false

namespace ThreadSched

/-- An `int` constant: a shifted mask is an `int`, and a byte it meets is promoted to one. -/
abbrev BITMAP_MASK : BitVec 32 := 1

/-- Conversion to `uint32_t`. -/
def uint32 (x : Int) : Nat := (x % 4294967296).toNat

/-- Conversion to `int`. -/
def int32 (x : Int) : Int := x.bmod 4294967296

/-- `struct bitmap`. -/
structure Bitmap where
  btmpBytesLen : Nat
  bits : Nat → BitVec 8

/-- `bitmap_init`. -/
def bitmapInit (btmp : Bitmap) : Bitmap :=
  { btmp with bits := fun i => if i < btmp.btmpBytesLen then 0 else btmp.bits i }

/-- `bitmap_scan_test`. -/
def bitmapScanTest (btmp : Bitmap) (bitIdx : Nat) : Bool :=
  let byteIdx := bitIdx / 8
  let bitOdd := bitIdx % 8
  (btmp.bits byteIdx).setWidth 32 &&& BITMAP_MASK <<< bitOdd ≠ 0

/-- The first loop of `bitmap_scan`: the first byte from `idxByte` on that is not `0xff`. -/
def scanByte (btmp : Bitmap) : Nat → Nat → Option (Nat × List Nat)
  | 0, _ => none
  | fuel + 1, idxByte =>
    if btmp.bits idxByte = 0xff ∧ idxByte < btmp.btmpBytesLen then do
      let (found, reads) ← scanByte btmp fuel (idxByte + 1)
      pure (found, idxByte :: reads)
    else pure (idxByte, [idxByte])

/-- The second loop: the first clear bit of the byte.  `(uint8_t)(1 << 8)` is `0`. -/
def scanBit (byte : BitVec 8) : Nat → Nat → Option Nat
  | 0, _ => none
  | fuel + 1, idxBit =>
    if (BITMAP_MASK <<< idxBit).setWidth 8 &&& byte ≠ 0 then scanBit byte fuel (idxBit + 1)
    else pure idxBit

/-- The third loop: `bit_left` more bits, `count` clear ones so far. -/
def scanRun (btmp : Bitmap) (cnt : Nat) : Nat → Nat → Nat → Int × List Nat
  | 0, _, _ => (-1, [])
  | bitLeft + 1, nextBit, count =>
    let count := if bitmapScanTest btmp nextBit then 0 else uint32 (count + 1)
    if count = cnt then (int32 ((nextBit : Int) - cnt + 1), [nextBit / 8])
    else
      let rest := scanRun btmp cnt bitLeft (uint32 (nextBit + 1)) count
      (rest.1, nextBit / 8 :: rest.2)

/-- `bitmap_scan`: its value and the bytes it reads. -/
def bitmapScanReads (btmp : Bitmap) (cnt : Nat) : Option (Int × List Nat) := do
  let (idxByte, reads) ← scanByte btmp (btmp.btmpBytesLen + 1) 0
  if idxByte < btmp.btmpBytesLen then
    let idxBit ← scanBit (btmp.bits idxByte) 9 0
    let reads := reads ++ [idxByte]
    let bitIdxStart := int32 (uint32 (idxByte * 8) + idxBit)
    if cnt = 1 then pure (bitIdxStart, reads)
    else
      let bitLeft := uint32 (uint32 (btmp.btmpBytesLen * 8) - bitIdxStart)
      let nextBit := uint32 (bitIdxStart + 1)
      let run := scanRun btmp cnt bitLeft nextBit 1
      pure (run.1, reads ++ run.2)
  else none

/-- `bitmap_scan`. -/
def bitmapScan (btmp : Bitmap) (cnt : Nat) : Option Int := (bitmapScanReads btmp cnt).map Prod.fst

/-- `bitmap_set`.  The `int` result is stored as `uint8_t`. -/
def bitmapSet (btmp : Bitmap) (bitIdx : Nat) (value : Bool) : Bitmap :=
  let byteIdx := bitIdx / 8
  let bitOdd := bitIdx % 8
  let byte := (btmp.bits byteIdx).setWidth 32
  let result :=
    if value then byte ||| BITMAP_MASK <<< bitOdd else byte &&& ~~~(BITMAP_MASK <<< bitOdd)
  { btmp with bits := Function.update btmp.bits byteIdx (result.setWidth 8) }

end ThreadSched
