import Ece344Lab.Fs.Dir

set_option autoImplicit false

/- The commands of `dir.c` and `file.c`, the number parsing of `common.c`, and the two programs
`mktestfs` and `testfs`. -/
namespace Ece344Lab.Fs

open Outcome

/-- A command-line argument, as `strtok_r` delivers it: not empty and without a NUL. -/
structure Arg where
  bytes : List Byte
  nonempty : bytes ≠ []
  noNul : ∀ b ∈ bytes, b ≠ 0

/-- The commands of `cmdtable` that reach the file system, with `c->cmd[1]` and onwards. -/
inductive Command
  | cd (args : List Arg)
  | pwd (args : List Arg)
  | ls (args : List Arg)
  | lsr (args : List Arg)
  | create (args : List Arg)
  | stat (args : List Arg)
  | rm (args : List Arg)
  | mkdir (args : List Arg)
  | read (args : List Arg)
  | write (args : List Arg)
  | fsstat (args : List Arg)

/-- The program with `c.cur_dir`. -/
structure Session where
  fs : State
  curDir : Nat

/-- `isspace` in the C locale. -/
def isSpace (b : Byte) : Bool := b = 32 || (9 ≤ b.toNat && b.toNat ≤ 13)

def isDigit (b : Byte) : Bool := 48 ≤ b.toNat && b.toNat ≤ 57

/-- The sign, the digits and the rest of a number in base 10, or `none` when there are no digits
and `strtoll` leaves `end` at the start of the string. -/
def scanNumber (str : List Byte) : Option (Bool × Nat × List Byte) :=
  let body := str.dropWhile isSpace
  let negative : Bool := body.head? = some 45
  let unsigned := if body.head? = some 45 ∨ body.head? = some 43 then body.tail else body
  let digits := unsigned.takeWhile isDigit
  if digits = [] then none
  else some (negative, digits.foldl (fun n b => 10 * n + (b.toNat - 48)) 0,
    unsigned.dropWhile isDigit)

/-- `strtoll`: the value saturates. The second component is what `end` points to. -/
def strtoll (str : List Byte) : Int × List Byte :=
  match scanNumber str with
  | none => (0, str)
  | some (negative, n, rest) =>
      (if negative then max (-(n : Int)) (-2 ^ 63) else min (n : Int) (2 ^ 63 - 1), rest)

/-- `strtoull`: a minus sign negates modulo 2^64, and the value saturates. -/
def strtoull (str : List Byte) : Nat × List Byte :=
  match scanNumber str with
  | none => (0, str)
  | some (negative, n, rest) =>
      (if 2 ^ 64 ≤ n then 2 ^ 64 - 1 else if negative then (2 ^ 64 - n) % 2 ^ 64 else n, rest)

/-- `str_to_offset`, with `none` for `-EINVAL`. -/
def strToOffset (str : List Byte) : Option Int :=
  let (val, rest) := strtoll str
  if 0 < rest.length then none else some val

/-- `str_to_size`, with `none` for `-EINVAL`. -/
def strToSize (str : List Byte) : Option Nat :=
  let (val, rest) := strtoull str
  if 0 < rest.length then none else some val

/-- Directories nest no deeper than there are inodes. -/
abbrev maxDepth : Nat := nrInodeBlocks * inodesPerBlock + 1

namespace Session

/-- `testfs_dir_name_to_inode_nr(c->cur_dir, name)`. -/
def lookup (s : Session) (name : List Byte) : Except Halt Int := do
  let dir ← s.fs.inode s.curDir
  testfsDirNameToInodeNr s.fs.sb dir.dinode name

def cmdCd (s : Session) (args : List Arg) : Except Halt (Int × Session) :=
  match args with
  | [name] => do
      let inodeNr ← s.lookup name.bytes
      if inodeNr < 0 then .ok (inodeNr, s)
      else
        let fs ← testfsGetInode s.fs inodeNr.toNat
        let dir ← fs.inode inodeNr.toNat
        if dir.dinode.iType ≠ InodeType.dir.code then do
          let fs ← testfsPutInode fs inodeNr.toNat
          .ok (-eNOTDIR, { s with fs := fs })
        else do
          let fs ← testfsPutInode fs s.curDir
          .ok (0, { fs := fs, curDir := inodeNr.toNat })
  | _ => .ok (-eINVAL, s)

def cmdPwd (s : Session) (args : List Arg) : Except Halt (Int × Session) :=
  match args with
  | [] => do
      let (_, fs) ← testfsPwd maxDepth s.fs s.curDir
      .ok (0, { s with fs := fs.print (.text [10]) })
  | _ => .ok (-eINVAL, s)

def cmdLsInternal (s : Session) (args : List Arg) (recursive : Bool) :
    Except Halt (Int × Session) :=
  match args with
  | [name] => do
      let inodeNr ← s.lookup name.bytes
      if inodeNr < 0 then .ok (inodeNr, s)
      else
        let fs ← testfsGetInode s.fs inodeNr.toNat
        let inode ← fs.inode inodeNr.toNat
        if inode.dinode.iType = InodeType.dir.code then do
          let fs ← testfsLs recursive maxDepth fs inodeNr.toNat
          let fs ← testfsPutInode fs inodeNr.toNat
          .ok (0, { s with fs := fs })
        else .ok (-eNOTDIR, { s with fs := fs })
  | _ => .ok (-eINVAL, s)

def cmdCreateOrMkdir (s : Session) (args : List Arg) (type : InodeType) :
    Except Halt (Int × Session) :=
  match args with
  | [name] => do
      let (ret, fs) ← testfsCreateFileOrDir s.fs (some s.curDir) type name.bytes
      .ok (ret, { s with fs := fs })
  | _ => .ok (-eINVAL, s)

def cmdCreate (s : Session) (args : List Arg) : Except Halt (Int × Session) :=
  s.cmdCreateOrMkdir args .file

def cmdMkdir (s : Session) (args : List Arg) : Except Halt (Int × Session) :=
  s.cmdCreateOrMkdir args .dir

def cmdRm (s : Session) (args : List Arg) : Except Halt (Int × Session) :=
  match args with
  | [name] => do
      let (inodeNr, fs) ← testfsRemoveDirent s.fs s.curDir name.bytes
      if inodeNr < 0 then .ok (inodeNr, { s with fs := fs })
      else
        let fs ← testfsGetInode fs inodeNr.toNat
        let fs ← testfsRemoveInode fs inodeNr.toNat
        let fs ← testfsSyncInode fs s.curDir
        .ok (0, { s with fs := fs })
  | _ => .ok (-eINVAL, s)

def cmdStat (s : Session) (args : List Arg) : Except Halt (Int × Session) :=
  match args with
  | [name] => do
      let inodeNr ← s.lookup name.bytes
      if inodeNr < 0 then .ok (inodeNr, s)
      else
        let fs ← testfsGetInode s.fs inodeNr.toNat
        let inode ← fs.inode inodeNr.toNat
        let d := inode.dinode
        let fs := fs.print (.stat name.bytes inode.iNr d.iType d.iSize d.blockCount)
        let fs ← testfsPutInode fs inodeNr.toNat
        .ok (0, { s with fs := fs })
  | _ => .ok (-eINVAL, s)

/-- `testfs_get_file_inode`: the inode is held when the result is not negative. -/
def testfsGetFileInode (s : Session) (name : List Byte) : Except Halt (Int × Nat × State) := do
  let inodeNr ← s.lookup name
  if inodeNr < 0 then .ok (inodeNr, 0, s.fs)
  else
    let fs ← testfsGetInode s.fs inodeNr.toNat
    let inode ← fs.inode inodeNr.toNat
    if inode.dinode.iType = InodeType.dir.code then do
      let fs ← testfsPutInode fs inodeNr.toNat
      .ok (-eISDIR, 0, fs)
    else .ok (0, inodeNr.toNat, fs)

/-- `cmd_read` while it holds the inode. -/
def readFile (fs : State) (inodeNr : Nat) (offset : Int) (size : Nat) :
    Except Halt (Int × State) := do
  let inode ← fs.inode inodeNr
  -- `offset + (off_t)size` in 64-bit arithmetic
  if inode.dinode.size < Int.bmod (offset + size) (2 ^ 64) then .ok (-eINVAL, fs)
  -- `malloc(size + 1)` fails for more than PTRDIFF_MAX bytes
  else if 2 ^ 63 ≤ (size + 1) % 2 ^ 64 then .ok (-eNOMEM, fs)
  else do
    let r ← testfsReadData fs.sb inode.dinode offset.toNat size
    let room := (size + 1) % 2 ^ 64
    if room < r.stored.length then .error .undefined
    else if 0 ≤ r.ret then
      if room ≤ size ∨ r.stored.length < size then .error .undefined
      else .ok (r.ret, fs.print (.text (cString r.stored ++ [10])))
    else .ok (r.ret, fs)

def cmdRead (s : Session) (args : List Arg) : Except Halt (Int × Session) :=
  match args with
  | [filename, offset, size] =>
      match strToOffset offset.bytes with
      | none => .ok (-eINVAL, s)
      | some offset =>
          if offset < 0 then .ok (-eINVAL, s)
          else match strToSize size.bytes with
            | none => .ok (-eINVAL, s)
            | some size => do
                let (ret, inodeNr, fs) ← s.testfsGetFileInode filename.bytes
                if ret < 0 then .ok (ret, { s with fs := fs })
                else
                  let (ret, fs) ← readFile fs inodeNr offset size
                  let fs ← testfsPutInode fs inodeNr
                  .ok (ret, { s with fs := fs })
  | _ => .ok (-eINVAL, s)

def cmdWrite (s : Session) (args : List Arg) : Except Halt (Int × Session) :=
  match args with
  | [filename, offset, buf] =>
      match strToOffset offset.bytes with
      | none => .ok (-eINVAL, s)
      | some offset =>
          if offset < 0 then .ok (-eINVAL, s)
          else do
            let (ret, inodeNr, fs) ← s.testfsGetFileInode filename.bytes
            if ret < 0 then .ok (ret, { s with fs := fs })
            else
              let (ret, fs) ← fs.onInode inodeNr fun sb inode =>
                testfsWriteData sb inode buf.bytes offset
              let fs ← testfsSyncInode fs inodeNr
              let fs ← testfsPutInode fs inodeNr
              .ok (ret, { s with fs := fs })
  | _ => .ok (-eINVAL, s)

def cmdFsstat (s : Session) (args : List Arg) : Except Halt (Int × Session) :=
  match args with
  | [] =>
      let d := s.fs.sb.sb
      .ok (0, { s with fs := s.fs.print (.fsstat d.usedInodeCount d.usedBlockCount) })
  | _ => .ok (-eINVAL, s)

/-- The dispatch of `handle_command`. -/
def handleCommand (s : Session) : Command → Except Halt (Int × Session)
  | .cd args => s.cmdCd args
  | .pwd args => s.cmdPwd args
  | .ls args => s.cmdLsInternal args false
  | .lsr args => s.cmdLsInternal args true
  | .create args => s.cmdCreate args
  | .stat args => s.cmdStat args
  | .rm args => s.cmdRm args
  | .mkdir args => s.cmdMkdir args
  | .read args => s.cmdRead args
  | .write args => s.cmdWrite args
  | .fsstat args => s.cmdFsstat args

/-- The end of `main` in `testfs.c`: the current directory is put and the inode hash must be empty.
-/
def shutdown (s : Session) : Except Halt Device := do
  let fs ← testfsPutInode s.fs s.curDir
  cAssert (fs.inodes = [])
  .ok (testfsCloseSuperBlock fs.sb)

end Session

/-- `main` of `mktestfs.c` for a given number of blocks. -/
def makeFs (maxFsBlocks : Nat) : Except Halt Device := do
  let sb ← freshSuperBlock maxFsBlocks
  let (_, s) ← testfsMakeRootDir { sb, inodes := [], stdout := [] }
  cAssert (s.inodes = [])
  .ok (testfsCloseSuperBlock s.sb)

/-- `mktestfs -s fsSizeMb`. -/
def mktestfs (fsSizeMb : Nat) : Except Halt Device :=
  if fsSizeMb < 1 ∨ 8192 < fsSizeMb then .error .exit
  else makeFs (fsSizeMb * 2 ^ 20 / blockSize)

/-- `main` of `testfs.c` up to the first prompt. -/
def testfsStart (dev : Device) : Except Halt Session := do
  let sb ← testfsInitSuperBlock dev
  let fs ← testfsGetInode { sb, inodes := [], stdout := [] } 0
  .ok ⟨fs, 0⟩

end Ece344Lab.Fs
