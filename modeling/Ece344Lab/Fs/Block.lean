import Ece344Lab.Lib.Buffer
import Ece344Lab.Lib.Outcome

set_option autoImplicit false

/- The constants of `testfs.h`, the ways the program stops, and `block.c`. -/
namespace Ece344Lab.Fs

abbrev blockSize : Nat := 8192
abbrev superBlockSize : Nat := 1
abbrev inodeFreemapSize : Nat := 1
abbrev blockFreemapSize : Nat := 16
abbrev nrInodeBlocks : Nat := 128
abbrev bitsPerWord : Nat := 8

def eNOENT : Int := 2
def eNOMEM : Int := 12
def eEXIST : Int := 17
def eNOTDIR : Int := 20
def eISDIR : Int := 21
def eINVAL : Int := 22
def eFBIG : Int := 27
def eNOSPC : Int := 28
def eNOTEMPTY : Int := 39

/-- Why the program does not come back from a call. -/
inductive Halt
  /-- an `assert` failed -/
  | assertion
  /-- `EXIT` was called -/
  | exit
  /-- the C program has no defined behaviour from here on -/
  | undefined
  /-- a loop or recursion that does not end -/
  | diverges
  deriving DecidableEq, Repr

/-- `assert(condition)`. -/
def cAssert (condition : Prop) [Decidable condition] : Except Halt Unit :=
  if condition then .ok () else .error .assertion

theorem cAssert_pos {condition : Prop} [Decidable condition] (holds : condition) :
    cAssert condition = .ok () :=
  if_pos holds

theorem cAssert_neg {condition : Prop} [Decidable condition] (fails : ¬ condition) :
    cAssert condition = .error .assertion :=
  if_neg fails

abbrev Block := Buffer blockSize

/-- The image file: `nr` blocks, and nothing after them. -/
@[ext] structure Device where
  block : Nat → Block
  nr : Nat
  sparse : ∀ n, nr ≤ n → block n = Buffer.zero

namespace Device

/-- The file as `fopen(dev, "w")` leaves it. -/
def empty : Device where
  block := fun _ => Buffer.zero
  nr := 0
  sparse := fun _ _ => rfl

/-- One `fwrite` of a whole block. Seeking past the end leaves a hole of zeros. -/
def set (dev : Device) (n : Nat) (b : Block) : Device where
  block := fun k => if k = n then b else dev.block k
  nr := max dev.nr (n + 1)
  sparse := by
    intro k beyond
    have other : k ≠ n := by omega
    simp only [other, ↓reduceIte]
    exact dev.sparse k (by omega)

@[simp] theorem block_set (dev : Device) (n : Nat) (b : Block) (k : Nat) :
    (dev.set n b).block k = if k = n then b else dev.block k := rfl

@[simp] theorem nr_set (dev : Device) (n : Nat) (b : Block) :
    (dev.set n b).nr = max dev.nr (n + 1) := rfl

theorem block_set_same (dev : Device) (n : Nat) (b : Block) :
    (dev.set n b).block n = b := by
  simp

theorem block_set_of_ne (dev : Device) (n : Nat) (b : Block) (k : Nat) (other : k ≠ n) :
    (dev.set n b).block k = dev.block k := by
  simp [other]

end Device

/-- `read_blocks(sb, block, start, 1)`: a short `fread` or a bad seek exits. -/
def readBlocks (dev : Device) (start : Int) : Except Halt Block :=
  if 0 ≤ start ∧ start < dev.nr then .ok (dev.block start.toNat) else .error .exit

/-- `write_blocks(sb, block, start, 1)`. -/
def writeBlocks (dev : Device) (b : Block) (start : Int) : Except Halt Device :=
  if start < 0 then .error .exit else .ok (dev.set start.toNat b)

/-- `zero_blocks(sb, start, nr)`. -/
def zeroBlocks (dev : Device) (start : Int) : Nat → Except Halt Device
  | 0 => .ok dev
  | nr + 1 => do
      let dev ← writeBlocks dev Buffer.zero start
      zeroBlocks dev (start + 1) nr

theorem readBlocks_of_lt (dev : Device) (n : Nat) (inside : n < dev.nr) :
    readBlocks dev n = .ok (dev.block n) := by
  unfold readBlocks
  rw [if_pos (by omega), Int.toNat_natCast]

theorem readBlocks_sat (dev : Device) (n : Nat) :
    Outcome.Sat (readBlocks dev n) (fun b => b = dev.block n ∧ n < dev.nr)
      (fun e => e = .exit ∧ dev.nr ≤ n) := by
  unfold readBlocks
  split
  · rename_i inside
    exact ⟨by rw [Int.toNat_natCast], by omega⟩
  · rename_i outside
    exact ⟨rfl, by omega⟩

theorem writeBlocks_nat (dev : Device) (b : Block) (n : Nat) :
    writeBlocks dev b n = .ok (dev.set n b) := by
  unfold writeBlocks
  rw [if_neg (by omega), Int.toNat_natCast]

theorem zeroBlocks_one (dev : Device) (n : Nat) :
    zeroBlocks dev n 1 = .ok (dev.set n Buffer.zero) := by
  unfold zeroBlocks
  rw [writeBlocks_nat]
  rfl

end Ece344Lab.Fs
