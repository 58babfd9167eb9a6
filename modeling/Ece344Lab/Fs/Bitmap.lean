import Ece344Lab.Fs.Block
import Ece344Lab.Lib.Search

set_option autoImplicit false

/- `bitmap.c`: arrays of bits packed into bytes. -/
namespace Ece344Lab.Fs

open Outcome Search

/-- `struct bitmap`; `v` is the array that `bitmap_getdata` hands out. -/
structure Bitmap where
  nbits : Nat
  v : Nat → Byte

abbrev wordAllBits : Byte := 0xff#8

/-- `DIVROUNDUP(nbits, BITS_PER_WORD)` in unsigned 32-bit arithmetic. -/
def bitmapWords (nbits : Nat) : Nat := (nbits + bitsPerWord - 1) % 2 ^ 32 / bitsPerWord

def wordMask (offset : Nat) : Byte := 1#8 <<< offset

/-- `bitmap_create`; memory allocation is taken to succeed. -/
def bitmapCreate (nbits : Nat) : Except Halt Bitmap :=
  let words := bitmapWords nbits
  if nbits / bitsPerWord < words then do
    let ix := words - 1
    let overbits := nbits - ix * bitsPerWord
    cAssert (nbits / bitsPerWord = words - 1)
    cAssert (0 < overbits ∧ overbits < bitsPerWord)
    -- the leftover bits at the end are marked in use
    let last := (List.range' overbits (bitsPerWord - overbits)).foldl
      (fun word j => word ||| wordMask j) 0
    .ok ⟨nbits, fun i => if i = ix then last else 0⟩
  else .ok ⟨nbits, fun _ => 0⟩

def Bitmap.setWord (b : Bitmap) (ix : Nat) (word : Byte) : Bitmap :=
  { b with v := fun i => if i = ix then word else b.v i }

/-- `bitmap_alloc`: the first clear bit and the bitmap with it set, or `none` for `-ENOSPC`. -/
def bitmapAlloc (b : Bitmap) : Except Halt (Option (Nat × Bitmap)) :=
  match firstFrom (fun ix => b.v ix ≠ wordAllBits) (bitmapWords b.nbits) 0 with
  | none => .ok none
  | some ix =>
      match firstFrom (fun offset => b.v ix &&& wordMask offset = 0) bitsPerWord 0 with
      | none => .error .assertion
      | some offset => do
          let index := ix * bitsPerWord + offset
          cAssert (index < b.nbits)
          .ok (some (index, b.setWord ix (b.v ix ||| wordMask offset)))

def bitmapMark (b : Bitmap) (index : Nat) : Except Halt Bitmap := do
  cAssert (index < b.nbits)
  let ix := index / bitsPerWord
  let mask := wordMask (index % bitsPerWord)
  cAssert (b.v ix &&& mask = 0)
  .ok (b.setWord ix (b.v ix ||| mask))

def bitmapUnmark (b : Bitmap) (index : Nat) : Except Halt Bitmap := do
  cAssert (index < b.nbits)
  let ix := index / bitsPerWord
  let mask := wordMask (index % bitsPerWord)
  cAssert (b.v ix &&& mask ≠ 0)
  .ok (b.setWord ix (b.v ix &&& ~~~mask))

def bitmapIsset (b : Bitmap) (index : Nat) : Bool :=
  b.v (index / bitsPerWord) &&& wordMask (index % bitsPerWord) ≠ 0

/-- `bitmap_nr_allocated`; it counts with an `int`. -/
def bitmapNrAllocated (b : Bitmap) : Except Halt Nat :=
  let nr := (List.range b.nbits).countP (bitmapIsset b)
  if nr < 2 ^ 31 then .ok nr else .error .undefined

end Ece344Lab.Fs
