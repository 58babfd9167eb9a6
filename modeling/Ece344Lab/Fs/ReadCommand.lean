import Ece344Lab.Fs.Runs
import Ece344Lab.Fs.ReadData

set_option autoImplicit false

/- `cmd_read`: the check of offset and size in front of `testfs_read_data`. -/
namespace Ece344Lab.Fs

open Outcome

theorem strToOffset_lt {str : List Byte} {offset : Int} (parsed : strToOffset str = some offset) :
    offset < 2 ^ 63 := by
  have below : (strtoll str).1 < 2 ^ 63 := by
    unfold strtoll
    split
    · exact (by decide : (0 : Int) < 2 ^ 63)
    · split <;> omega
  change (if 0 < (strtoll str).2.length then none else some (strtoll str).1) = _ at parsed
  split at parsed
  · cases parsed
  · cases parsed
    exact below

theorem strToSize_lt {str : List Byte} {size : Nat} (parsed : strToSize str = some size) :
    size < 2 ^ 64 := by
  have below : (strtoull str).1 < 2 ^ 64 := by
    unfold strtoull
    split
    · exact (by decide : 0 < 2 ^ 64)
    · dsimp only
      split
      · omega
      · split <;> omega
  change (if 0 < (strtoull str).2.length then none else some (strtoull str).1) = _ at parsed
  split at parsed
  · cases parsed
  · cases parsed
    exact below

/-- The call of `testfs_read_data` in `cmd_read`; `buf` has `room` bytes. -/
structure ReadCall where
  fs : State
  inodeNr : Nat
  inode : Inode
  offset : Int
  size : Nat
  room : Nat

def ReadCall.finish (c : ReadCall) (r : ReadResult) : Except Halt (Int × State) :=
  if c.room < r.stored.length then .error .undefined
  else if 0 ≤ r.ret then
    if c.room ≤ c.size ∨ r.stored.length < c.size then .error .undefined
    else .ok (r.ret, c.fs.print (.text (cString r.stored ++ [10])))
  else .ok (r.ret, c.fs)

namespace Session

/-- `cmd_read` up to its call of `testfs_read_data`, or the result when it does not get there.
`malloc` says which sizes it serves. -/
def readCall (malloc : Nat → Bool) (s : Session) (args : List Arg) :
    Except Halt ((Int × Session) ⊕ ReadCall) :=
  match args with
  | [filename, offset, size] =>
      match strToOffset offset.bytes with
      | none => .ok (.inl (-eINVAL, s))
      | some offset =>
          if offset < 0 then .ok (.inl (-eINVAL, s))
          else match strToSize size.bytes with
            | none => .ok (.inl (-eINVAL, s))
            | some size => do
                let (ret, inodeNr, fs) ← s.testfsGetFileInode filename.bytes
                if ret < 0 then .ok (.inl (ret, { s with fs := fs }))
                else
                  let inode ← fs.inode inodeNr
                  if inode.dinode.size < Int.bmod (offset + size) (2 ^ 64) then do
                    let fs ← testfsPutInode fs inodeNr
                    .ok (.inl (-eINVAL, { s with fs := fs }))
                  else if malloc ((size + 1) % 2 ^ 64) then
                    .ok (.inr ⟨fs, inodeNr, inode, offset, size, (size + 1) % 2 ^ 64⟩)
                  else do
                    let fs ← testfsPutInode fs inodeNr
                    .ok (.inl (-eNOMEM, { s with fs := fs }))
  | _ => .ok (.inl (-eINVAL, s))

def readCalled (s : Session) (c : ReadCall) : Except Halt (Int × Session) := do
  let r ← testfsReadData c.fs.sb c.inode.dinode c.offset.toNat c.size
  let (ret, fs) ← c.finish r
  let fs ← testfsPutInode fs c.inodeNr
  .ok (ret, { s with fs := fs })

theorem cmdRead_eq (s : Session) (args : List Arg) :
    s.cmdRead args = s.readCall (fun n => n < 2 ^ 63) args >>= Sum.elim .ok s.readCalled := by
  unfold cmdRead readCall
  rcases args with _ | ⟨filename, _ | ⟨offset, _ | ⟨size, _ | ⟨_, _⟩⟩⟩⟩
  · rfl
  · rfl
  · rfl
  · dsimp only
    cases strToOffset offset.bytes with
    | none => rfl
    | some offset =>
        dsimp only
        by_cases negative : offset < 0
        · rw [if_pos negative, if_pos negative]
          rfl
        · rw [if_neg negative, if_neg negative]
          cases strToSize size.bytes with
          | none => rfl
          | some size =>
              dsimp only
              cases s.testfsGetFileInode filename.bytes with
              | error e => rfl
              | ok got =>
                  obtain ⟨ret, inodeNr, fs⟩ := got
                  rw [ok_bind, ok_bind]
                  dsimp only
                  by_cases failed : ret < 0
                  · rw [if_pos failed, if_pos failed]
                    rfl
                  · rw [if_neg failed, if_neg failed]
                    unfold readFile
                    cases fs.inode inodeNr with
                    | error e => rfl
                    | ok inode =>
                        rw [ok_bind, ok_bind]
                        by_cases beyond : inode.dinode.size < Int.bmod (offset + size) (2 ^ 64)
                        · rw [if_pos beyond, if_pos beyond, ok_bind]
                          cases testfsPutInode fs inodeNr <;> rfl
                        · rw [if_neg beyond, if_neg beyond]
                          by_cases large : 2 ^ 63 ≤ (size + 1) % 2 ^ 64
                          · rw [if_pos large, if_neg (by simpa using large), ok_bind]
                            cases testfsPutInode fs inodeNr <;> rfl
                          · rw [if_neg large, if_pos (by simpa using large), ok_bind]
                            change _ = readCalled s _
                            unfold readCalled ReadCall.finish
                            dsimp only
                            cases testfsReadData fs.sb inode.dinode offset.toNat size <;> rfl
  · rfl

end Session

/-- The read lies in the file, and `buf` has room for it and for the NUL. -/
structure ReadCall.Sound (c : ReadCall) : Prop where
  inside : c.offset + c.size ≤ c.inode.dinode.size
  room : c.size + 1 ≤ c.room

section Found

variable {s : Session} {filename offsetArg sizeArg : Arg} {offset : Int}
  {size : Nat} {fs : State} {inodeNr : Nat} {inode : Inode}

/-- The call for a file that is found. -/
theorem readCall_eq_iff (malloc : Nat → Bool) (parsed : strToOffset offsetArg.bytes = some offset)
    (parsed' : strToSize sizeArg.bytes = some size)
    (found : s.testfsGetFileInode filename.bytes = .ok (0, inodeNr, fs))
    (read : fs.inode inodeNr = .ok inode) (c : ReadCall) :
    s.readCall malloc [filename, offsetArg, sizeArg] = .ok (.inr c) ↔
      0 ≤ offset ∧ Int.bmod (offset + size) (2 ^ 64) ≤ inode.dinode.size ∧
        malloc ((size + 1) % 2 ^ 64) = true ∧
        c = ⟨fs, inodeNr, inode, offset, size, (size + 1) % 2 ^ 64⟩ := by
  unfold Session.readCall
  dsimp only
  rw [parsed, parsed']
  dsimp only
  rw [found, ok_bind]
  dsimp only
  rw [if_neg (Int.lt_irrefl 0), read, ok_bind]
  by_cases negative : offset < 0
  · rw [if_pos negative]
    constructor
    · intro same
      cases same
    · intro calls
      omega
  · rw [if_neg negative, and_iff_right (Int.not_lt.mp negative)]
    by_cases beyond : inode.dinode.size < Int.bmod (offset + size) (2 ^ 64)
    · rw [if_pos beyond]
      constructor
      · cases testfsPutInode fs inodeNr <;>
        · intro same
          cases same
      · exact fun calls => absurd beyond (Int.not_lt.mpr calls.1)
    · rw [if_neg beyond, and_iff_right (Int.not_lt.mp beyond)]
      by_cases served : malloc ((size + 1) % 2 ^ 64) = true
      · rw [if_pos served, and_iff_right served]
        constructor
        · intro same
          cases same
          rfl
        · intro same
          rw [same]
      · rw [if_neg served]
        constructor
        · cases testfsPutInode fs inodeNr <;>
          · intro same
            cases same
        · exact fun calls => absurd calls.1 served

end Found

/-- `cmd_read` makes sound calls only, for a file that it finds and these strings, exactly when the
buffer is refused or `offset + size` does not wrap around to a number inside the file. -/
theorem cmdRead_sound_iff (malloc : Nat → Bool) (s : Session) (filename offsetArg sizeArg : Arg)
    (offset : Int) (size : Nat) (parsed : strToOffset offsetArg.bytes = some offset)
    (parsed' : strToSize sizeArg.bytes = some size) (fs : State) (inodeNr : Nat) (inode : Inode)
    (found : s.testfsGetFileInode filename.bytes = .ok (0, inodeNr, fs))
    (read : fs.inode inodeNr = .ok inode) (lower : 0 ≤ inode.dinode.size)
    (upper : inode.dinode.size ≤ maxFileSize) :
    (∀ c, s.readCall malloc [filename, offsetArg, sizeArg] = .ok (.inr c) → c.Sound) ↔
      (0 ≤ offset → malloc ((size + 1) % 2 ^ 64) = true →
        offset + size < 2 ^ 63 ∨ 2 ^ 64 + inode.dinode.size < offset + size) := by
  have below := strToOffset_lt parsed
  have word := strToSize_lt parsed'
  rw [maxFileSize_eq] at upper
  have sum : 0 ≤ offset → Int.bmod (offset + size) (2 ^ 64) =
      if offset + size < 2 ^ 63 then offset + size else offset + size - 2 ^ 64 := by
    intro nonneg
    rw [Int.bmod_def]
    split <;> split <;> omega
  constructor
  · intro sound nonneg served
    by_contra wraps
    rw [not_or] at wraps
    have inside : Int.bmod (offset + size) (2 ^ 64) ≤ inode.dinode.size := by
      rw [sum nonneg, if_neg wraps.1]
      omega
    have fits := (sound _ ((readCall_eq_iff malloc parsed parsed' found read _).mpr
      ⟨nonneg, inside, served, rfl⟩)).inside
    dsimp only at fits
    omega
  · intro proper c calls
    obtain ⟨nonneg, inside, served, same⟩ :=
      (readCall_eq_iff malloc parsed parsed' found read c).mp calls
    rw [sum nonneg] at inside
    rw [same]
    have small : offset + size < 2 ^ 63 := by
      rcases proper nonneg served with small | far
      · exact small
      · split at inside
        · assumption
        · omega
    rw [if_pos small] at inside
    refine ⟨inside, ?_⟩
    dsimp only
    omega

def argZero : Arg := ⟨[48], by decide, by decide⟩
def argOne : Arg := ⟨[49], by decide, by decide⟩
def argMinusOne : Arg := ⟨[45, 49], by decide, by decide⟩

/-- The second byte of "a" is read. -/
theorem cmdRead_sound_iff_byte : ∃ start s s', Fresh 1 start ∧
    start.handleCommand (.create [nameA]) = .ok (0, s) ∧
    s.handleCommand (.write [nameA, argOne, nameB]) = .ok (1, s') ∧
    ∃ c, s'.readCall (fun n => n < 2 ^ 63) [nameA, argOne, argOne] = .ok (.inr c) ∧
      c.inode.dinode.size = 2 ∧ c.offset = 1 ∧ c.size = 1 ∧ c.room = 2 ∧ c.Sound := by
  have ends : Returns (mktestfs 1 >>= testfsStart) fun s =>
      Returns (s.handleCommand (.create [nameA])) fun r => r.1 = 0 ∧
      Returns (r.2.handleCommand (.write [nameA, argOne, nameB])) fun r => r.1 = 1 ∧
      Returns (r.2.testfsGetFileInode nameA.bytes) fun got => got.1 = 0 ∧
      Returns (got.2.2.inode got.2.1) fun inode => inode.dinode.size = 2 := by
    decide +kernel
  obtain ⟨start, fresh, ⟨_, s⟩, ran, rfl, ⟨_, s'⟩, wrote, rfl, ⟨_, inodeNr, fs⟩, found,
    rfl, inode, read, size⟩ := ends
  have parsed : strToOffset argOne.bytes = some 1 := by decide
  have parsed' : strToSize argOne.bytes = some 1 := by decide
  have calls := (readCall_eq_iff (fun n => n < 2 ^ 63) parsed parsed' found read _).mpr
    ⟨by decide, by rw [size]; decide, by decide, rfl⟩
  have iff := cmdRead_sound_iff (fun n => n < 2 ^ 63) s' nameA argOne argOne 1 1 parsed parsed' fs
    inodeNr inode found read (by omega) (by rw [maxFileSize_eq]; omega)
  exact ⟨start, s, s', fresh, ran, wrote, _, calls, size, rfl, rfl, rfl,
    iff.mpr (fun _ _ => Or.inl (by decide)) _ calls⟩

theorem nameA_found :
    ∃ start s, Fresh 1 start ∧ start.handleCommand (.create [nameA]) = .ok (0, s) ∧
    ∃ inodeNr fs inode, s.testfsGetFileInode nameA.bytes = .ok (0, inodeNr, fs) ∧
      fs.inode inodeNr = .ok inode ∧ inode.dinode.size = 0 := by
  have ends : Returns (mktestfs 1 >>= testfsStart >>= fun s => s.handleCommand (.create [nameA]))
      fun r => r.1 = 0 ∧ Returns (r.2.testfsGetFileInode nameA.bytes) fun got => got.1 = 0 ∧
        Returns (got.2.2.inode got.2.1) fun inode => inode.dinode.size = 0 := by
    decide +kernel
  obtain ⟨⟨ret, s⟩, ran, zero, ⟨ret', inodeNr, fs⟩, found, zero', inode, read, size⟩ := ends
  change ret = 0 at zero
  change ret' = 0 at zero'
  subst zero zero'
  cases made : mktestfs 1 >>= testfsStart with
  | error e =>
      rw [made] at ran
      cases ran
  | ok start =>
      rw [made] at ran
      exact ⟨start, s, made, ran, inodeNr, fs, inode, found, read, size⟩

/-- Reading `2^64 - 1` bytes from offset 1 of an empty file: the sum of the two is 0, and the buffer
has no byte. -/
theorem read_minus_one : ∃ start s, Fresh 1 start ∧
    start.handleCommand (.create [nameA]) = .ok (0, s) ∧
    ∃ c, s.readCall (fun n => n < 2 ^ 63) [nameA, argOne, argMinusOne] = .ok (.inr c) ∧
      c.inode.dinode.size = 0 ∧ c.offset = 1 ∧ c.size = 2 ^ 64 - 1 ∧ c.room = 0 ∧ ¬ c.Sound := by
  obtain ⟨start, s, fresh, ran, inodeNr, fs, inode, found, read, size⟩ := nameA_found
  have parsed : strToOffset argOne.bytes = some 1 := by decide
  have parsed' : strToSize argMinusOne.bytes = some (2 ^ 64 - 1) := by decide
  have calls := (readCall_eq_iff (fun n => n < 2 ^ 63) parsed parsed' found read _).mpr
    ⟨by decide, by rw [size]; decide, by decide, rfl⟩
  refine ⟨start, s, fresh, ran, _, calls, size, rfl, rfl, rfl, fun sound => ?_⟩
  have fits := sound.inside
  dsimp only at fits
  omega

end Ece344Lab.Fs
