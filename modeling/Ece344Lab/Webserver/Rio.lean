import Ece344Lab.Lib.Buffer
import Ece344Lab.Lib.Line
import Ece344Lab.Lib.Outcome

set_option autoImplicit false

/- The buffered reading of `common.c`. -/
namespace Ece344Lab.Webserver

open Line Outcome

abbrev rioBufsize : Nat := 8192

abbrev newline : Byte := 10#8

/-- What one call of `read` into a buffer of `rioBufsize` bytes gives. -/
inductive ReadResult
  | interrupted
  | failed
  | data (bytes : List Byte) (some : bytes ≠ []) (fits : bytes.length ≤ rioBufsize)

/-- `struct rio`, with what `read` will give for its descriptor; behind that is the end of file. -/
structure Rio where
  rioCnt : Int
  rioBufptr : Nat
  rioBuf : List Byte
  reads : List ReadResult
  size : rioBuf.length = rioBufsize
  inside : rioBufptr + rioCnt.toNat ≤ rioBufsize

namespace Rio

/-- The bytes of a `read` are stored at the start of the buffer. -/
def refilled (rp : Rio) (bytes : List Byte) (fits : bytes.length ≤ rioBufsize)
    (reads : List ReadResult) : Rio where
  rioCnt := bytes.length
  rioBufptr := 0
  rioBuf := bytes ++ rp.rioBuf.drop bytes.length
  reads := reads
  size := by
    have size := rp.size
    rw [List.length_append, List.length_drop]
    omega
  inside := by
    rw [Int.toNat_natCast]
    omega

/-- A `read` gave no bytes. -/
def emptied (rp : Rio) (cnt : Int) (none : cnt ≤ 0) (reads : List ReadResult) : Rio where
  rioCnt := cnt
  rioBufptr := rp.rioBufptr
  rioBuf := rp.rioBuf
  reads := reads
  size := rp.size
  inside := by
    have inside := rp.inside
    omega

/-- At most `n` bytes have been copied from the buffer. -/
def advanced (rp : Rio) (n : Nat) : Rio where
  rioCnt := rp.rioCnt - min n rp.rioCnt.toNat
  rioBufptr := rp.rioBufptr + min n rp.rioCnt.toNat
  rioBuf := rp.rioBuf
  reads := rp.reads
  size := rp.size
  inside := by
    have inside := rp.inside
    omega

end Rio

/-- `rio_init`; the buffer holds any bytes. -/
def rioInit (reads : List ReadResult) (rioBuf : List Byte)
    (size : rioBuf.length = rioBufsize) : Rio where
  rioCnt := 0
  rioBufptr := 0
  rioBuf := rioBuf
  reads := reads
  size := size
  inside := Nat.zero_le _

/-- The loop of `rio_readb`, when the buffer is empty. It is left with a return value, or with bytes
in the buffer. -/
def refillLoop (rp : Rio) : List ReadResult → Option Int × Rio
  | [] => (some 0, rp.emptied 0 (Int.le_refl 0) [])
  | .interrupted :: reads => refillLoop (rp.emptied (-1) (by decide) reads) reads
  | .failed :: reads => (some (-1), rp.emptied (-1) (by decide) reads)
  | .data bytes _ fits :: reads => (none, rp.refilled bytes fits reads)

/-- `rio_readb`, with the bytes stored at `usrbuf`. -/
def rioReadb (rp : Rio) (n : Nat) : Int × List Byte × Rio :=
  let (left, rp) := if rp.rioCnt ≤ 0 then refillLoop rp rp.reads else (none, rp)
  match left with
  | some ret => (ret, [], rp)
  | none =>
      let cnt := min n rp.rioCnt.toNat
      (cnt, (rp.rioBuf.drop rp.rioBufptr).take cnt, rp.advanced n)

/-- A byte is stored, `n` bytes behind `usrbuf`. -/
def storeByte (usrbuf : List Byte) (n : Nat) (c : Byte) : Except Fault (List Byte) :=
  if n < usrbuf.length then .ok (usrbuf.set n c) else .error .undefined

def increment (n : Nat) : Except Fault Nat :=
  if n + 1 < 2 ^ 31 then .ok (n + 1) else .error .undefined

/-- The end of `rio_readlineb`: a NUL is stored. -/
def finishLine (rp : Rio) (usrbuf : List Byte) (n : Nat) :
    Except Fault (Int × List Byte × Rio) := do
  let usrbuf ← storeByte usrbuf n 0
  .ok (n, usrbuf, rp)

/-- The loop of `rio_readlineb`, when `n` bytes have been read and `left` more are wanted. -/
def lineLoop : Nat → Rio → List Byte → Nat → Except Fault (Int × List Byte × Rio)
  | 0, rp, usrbuf, n => finishLine rp usrbuf n
  | left + 1, rp, usrbuf, n =>
      let (rc, bytes, rp) := rioReadb rp 1
      if rc = 1 then do
        let c := bytes.headD 0
        let usrbuf ← storeByte usrbuf n c
        let n ← increment n
        if c = newline then finishLine rp usrbuf n else lineLoop left rp usrbuf n
      else if rc = 0 then
        if n = 0 then .ok (0, usrbuf, rp) else finishLine rp usrbuf n
      else .ok (-1, usrbuf, rp)

/-- `rio_readlineb`: what it returns, and the memory at `usrbuf`. -/
def rioReadlineb (rp : Rio) (usrbuf : List Byte) (maxlen : Nat) :
    Except Fault (Int × List Byte × Rio) :=
  lineLoop maxlen rp usrbuf 0

end Ece344Lab.Webserver
