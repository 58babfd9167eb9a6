import Ece344Lab.Fs.InodeTable

set_option autoImplicit false

/- `dir.c`: directory entries, and the operations on directories below the commands. -/
namespace Ece344Lab.Fs

open Outcome

/-- `struct dirent` and the bytes at `D_NAME`. -/
structure Dirent where
  dNameLen : BitVec 32
  dInodeNr : BitVec 32
  name : List Byte

/-- The characters of a C string, without its NUL. -/
def cString (bytes : List Byte) : List Byte := bytes.takeWhile (· ≠ 0)

/-- `strcmp(D_NAME(d), name) == 0`. -/
def Dirent.named (d : Dirent) (name : List Byte) : Bool := cString d.name = name

/-- `d->d_inode_nr >= 0`: freed entries hold -1. -/
def Dirent.live (d : Dirent) : Bool := 0 ≤ d.dInodeNr.toInt

def Dirent.bytes (d : Dirent) : List Byte :=
  Bytes.le32 d.dNameLen ++ Bytes.le32 d.dInodeNr ++ d.name

def dot : List Byte := [46]
def dotDot : List Byte := [46, 46]

/-- `testfs_next_dirent`: the entry at `*offset` with the next offset, or `none` for NULL.
A read that stops short would leave parts of the entry uninitialised. -/
def testfsNextDirent (sb : SuperBlock) (dir : Dinode) (offset : Nat) :
    Except Halt (Option (Dirent × Nat)) := do
  cAssert (dir.iType = InodeType.dir.code)
  if dir.size ≤ offset then .ok none
  else
    let header ← testfsReadData sb dir offset 8
    if header.ret < 0 then .ok none
    else if header.stored.length < 8 then .error .undefined
    else
      let dNameLen := Bytes.of32 header.stored
      let dInodeNr := Bytes.of32 (header.stored.drop 4)
      cAssert (0 < dNameLen.toInt)
      let name ← testfsReadData sb dir (offset + 8) dNameLen.toNat
      if name.ret < 0 then .ok none
      else if name.stored.length < dNameLen.toNat then .error .undefined
      else .ok (some (⟨dNameLen, dInodeNr, name.stored⟩, offset + 8 + dNameLen.toNat))

/-- The loop over `testfs_next_dirent` that leaves at the first entry passing a test, and the
offset where it left. All five loops of `dir.c` that search a directory are of this form. -/
def searchDirents (sb : SuperBlock) (dir : Dinode) (test : Dirent → Bool) :
    Nat → Nat → Except Halt (Option Dirent × Nat)
  | 0, _ => .error .diverges
  | fuel + 1, offset => do
      match ← testfsNextDirent sb dir offset with
      | none => .ok (none, offset)
      | some (d, next) =>
          if test d then .ok (some d, offset) else searchDirents sb dir test fuel next

/-- An entry takes at least nine bytes, so the loop ends before the fuel does. -/
def firstDirent (sb : SuperBlock) (dir : Dinode) (test : Dirent → Bool) :
    Except Halt (Option Dirent × Nat) :=
  searchDirents sb dir test (dir.size.toNat + 1) 0

def testfsFindDirent (sb : SuperBlock) (dir : Dinode) (inodeNr : Nat) :
    Except Halt (Option Dirent) := do
  cAssert (dir.iType = InodeType.dir.code)
  let (d, _) ← firstDirent sb dir fun d => d.dInodeNr.toInt = inodeNr
  .ok d

def testfsDirNameToInodeNr (sb : SuperBlock) (dir : Dinode) (name : List Byte) :
    Except Halt Int := do
  cAssert (dir.iType = InodeType.dir.code)
  let (d, _) ← firstDirent sb dir fun d => d.live && d.named name
  .ok (match d with
    | some d => d.dInodeNr.toInt
    | none => -eNOENT)

/-- The bytes that `testfs_write_dirent` hands to `testfs_write_data`. -/
def direntBytes (name : List Byte) (inodeNr : Nat) : List Byte :=
  Dirent.bytes ⟨BitVec.ofNat 32 (name.length + 1), BitVec.ofNat 32 inodeNr, name ++ [0]⟩

/-- `testfs_write_dirent`. `len` is `strlen(name) + 1` as an `int`; once it is negative the
allocation of `sizeof(struct dirent) + len` bytes fails, unless that sum wraps around to a
small size that `strcpy` then overruns. The offset is an `int` as well. -/
@[irreducible] def testfsWriteDirent (s : State) (dir : Nat) (name : List Byte) (inodeNr : Nat)
    (offset : Nat) : Except Halt (Int × State) :=
  let len := toInt32 (name.length + 1 : Nat)
  if len < -8 then .ok (-eNOMEM, s)
  else if len ≠ (name.length + 1 : Nat) then .error .undefined
  else s.onInode dir fun sb inode =>
    testfsWriteData sb inode (direntBytes name inodeNr) (toInt32 offset)

/-- The loop of `testfs_add_dirent`: it stops at a live entry of that name or at a freed entry
of that length. -/
def addDirentTest (name : List Byte) (d : Dirent) : Bool :=
  if d.live then d.named name else d.dNameLen.toInt = toInt32 (name.length + 1 : Nat)

def testfsAddDirent (s : State) (dir : Nat) (name : List Byte) (inodeNr : Nat) :
    Except Halt (Int × State) := do
  let inode ← s.inode dir
  cAssert (inode.dinode.iType = InodeType.dir.code)
  let (d, offset) ← firstDirent s.sb inode.dinode (addDirentTest name)
  match d with
  | some d => if d.live then .ok (-eEXIST, s) else testfsWriteDirent s dir name inodeNr offset
  | none => do
      cAssert ((offset : Int) = inode.dinode.size)
      testfsWriteDirent s dir name inodeNr offset

def testfsRemoveDirentAllowed (s : State) (inodeNr : Nat) : Except Halt (Int × State) := do
  let s ← testfsGetInode s inodeNr
  let dir ← s.inode inodeNr
  if dir.dinode.iType ≠ InodeType.dir.code then
    let s ← testfsPutInode s inodeNr
    .ok (0, s)
  else
    let (d, _) ← firstDirent s.sb dir.dinode
      fun d => d.live && !(d.named dot || d.named dotDot)
    let s ← testfsPutInode s inodeNr
    .ok (if d.isSome then -eNOTEMPTY else 0, s)

/-- `testfs_remove_dirent`: the inode number of the removed entry, or a negative value. -/
def testfsRemoveDirent (s : State) (dir : Nat) (name : List Byte) : Except Halt (Int × State) :=
  if name = dot ∨ name = dotDot then .ok (-eINVAL, s)
  else do
    let inode ← s.inode dir
    let (d, offset) ← firstDirent s.sb inode.dinode fun d => d.live && d.named name
    match d with
    | none => .ok (-eNOENT, s)
    | some d => do
        let inodeNr := d.dInodeNr.toInt
        let (ret, s) ← testfsRemoveDirentAllowed s inodeNr.toNat
        if ret < 0 then .ok (ret, s)
        else
          let (ret, s) ← s.onInode dir fun sb inode =>
            testfsWriteData sb inode ({ d with dInodeNr := -1 } : Dirent).bytes offset
          .ok (if 0 ≤ ret then inodeNr else ret, s)

def testfsCreateEmptyDir (s : State) (pInodeNr : Nat) (cdir : Nat) :
    Except Halt (Int × State) := do
  let inode ← s.inode cdir
  cAssert (inode.dinode.iType = InodeType.dir.code)
  let (ret, s) ← testfsAddDirent s cdir dot cdir
  if ret < 0 then .ok (ret, s)
  else
    let (ret, s) ← testfsAddDirent s cdir dotDot pInodeNr
    if ret < 0 then
      let (_, s) ← testfsRemoveDirent s cdir dot
      .ok (ret, s)
    else .ok (0, s)

/-- The search for `name` at the start of `testfs_create_file_or_dir`; `dir` is `none` for the
root directory. -/
def createLookup (s : State) (dir : Option Nat) (name : List Byte) : Except Halt Int :=
  match dir with
  | some dir => do
      let inode ← s.inode dir
      testfsDirNameToInodeNr s.sb inode.dinode name
  | none => .ok (-1)

/-- What a new inode contains. -/
def createContents (s : State) (dir : Option Nat) (type : InodeType) (inodeNr : Nat) :
    Except Halt (Int × State) :=
  if type = .dir then testfsCreateEmptyDir s (dir.getD inodeNr) inodeNr else .ok (0, s)

/-- The directory entry for the newly created inode. -/
def createEntry (s : State) (dir : Option Nat) (name : List Byte) (inodeNr : Nat) :
    Except Halt (Int × State) :=
  match dir with
  | some dir => do
      let (ret, s) ← testfsAddDirent s dir name inodeNr
      if ret < 0 then .ok (ret, s)
      else
        let s ← testfsSyncInode s dir
        .ok (0, s)
  | none => .ok (0, s)

def testfsCreateFileOrDir (s : State) (dir : Option Nat) (type : InodeType) (name : List Byte) :
    Except Halt (Int × State) := do
  let found ← createLookup s dir name
  if 0 ≤ found then .ok (-eEXIST, s)
  else
    -- first create inode
    let (ret, inodeNr, s) ← testfsCreateInode s type
    if ret < 0 then .ok (ret, s)
    else
      let (ret, s) ← createContents s dir type inodeNr
      if ret < 0 then
        let s ← testfsRemoveInode s inodeNr
        .ok (ret, s)
      else
        -- then add directory entry in dir for the newly created inode
        let (ret, s) ← createEntry s dir name inodeNr
        if ret < 0 then
          let s ← testfsRemoveInode s inodeNr
          .ok (ret, s)
        else
          let s ← testfsSyncInode s inodeNr
          let s ← testfsPutInode s inodeNr
          .ok (0, s)

def testfsMakeRootDir (s : State) : Except Halt (Int × State) :=
  testfsCreateFileOrDir s none .dir []

/-- `testfs_pwd`; a chain of parents longer than the fuel does not end. -/
def testfsPwd : Nat → State → Nat → Except Halt (Int × State)
  | 0, _, _ => .error .diverges
  | fuel + 1, s, inodeNr => do
      let inode ← s.inode inodeNr
      let pInodeNr ← testfsDirNameToInodeNr s.sb inode.dinode dotDot
      cAssert (0 ≤ pInodeNr)
      if pInodeNr = inodeNr then .ok (1, s.print (.text [47]))
      else
        let s ← testfsGetInode s pInodeNr.toNat
        let parent ← s.inode pInodeNr.toNat
        match ← testfsFindDirent s.sb parent.dinode inodeNr with
        | none => .error .assertion
        | some d => do
            let (ret, s) ← testfsPwd fuel s pInodeNr.toNat
            let s ← testfsPutInode s pInodeNr.toNat
            .ok (0, s.print (.text ((if ret = 1 then [] else [47]) ++ cString d.name)))

/-- What `testfs_ls` does with a live entry: the inode is held while its line is printed and,
when asked for, the subdirectory is listed by `descend`. -/
def lsEntry (descend : State → Nat → Except Halt State) (recursive : Bool) (s : State)
    (d : Dirent) : Except Halt State := do
  let cNr := d.dInodeNr.toInt.toNat
  let s ← testfsGetInode s cNr
  let cin ← s.inode cNr
  let isDir : Bool := cin.dinode.iType = InodeType.dir.code
  let s := s.print (.text (cString d.name ++ if isDir then [47, 10] else [10]))
  if recursive ∧ isDir ∧ ¬ d.named dot ∧ ¬ d.named dotDot then do
    let s ← descend s cNr
    testfsPutInode s cNr
  else testfsPutInode s cNr

/-- The loop of `testfs_ls` over the entries of one directory. -/
def lsLoop (descend : State → Nat → Except Halt State) (inodeNr : Nat) (recursive : Bool) :
    Nat → State → Nat → Except Halt State
  | 0, _, _ => .error .diverges
  | fuel + 1, s, offset => do
      let inode ← s.inode inodeNr
      match ← testfsNextDirent s.sb inode.dinode offset with
      | none => .ok s
      | some (d, next) =>
          if d.live then do
            let s ← lsEntry descend recursive s d
            lsLoop descend inodeNr recursive fuel s next
          else lsLoop descend inodeNr recursive fuel s next

/-- `testfs_ls`; directories nested deeper than the fuel form a cycle. -/
def testfsLs (recursive : Bool) : Nat → State → Nat → Except Halt State
  | 0, _, _ => .error .diverges
  | depth + 1, s, inodeNr => do
      let inode ← s.inode inodeNr
      lsLoop (testfsLs recursive depth) inodeNr recursive (inode.dinode.size.toNat + 1) s 0

end Ece344Lab.Fs
