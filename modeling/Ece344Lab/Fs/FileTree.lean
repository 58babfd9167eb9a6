import Ece344Lab.Fs.WorkingDir
import Ece344Lab.Fs.WriteLimit

set_option autoImplicit false

/- What a file system is for: directories that give names to files and directories, and files that
are sequences of bytes. There are no blocks and no inodes in memory here, only numbers by which
directories refer to what they name. -/
namespace Ece344Lab.Fs

/-- `buf` put into a file at a position. A gap behind the old end is filled with zeros. -/
def patch (bytes : List Byte) (start : Nat) (buf : List Byte) : List Byte :=
  (bytes ++ List.replicate (start - bytes.length) 0).take start ++ buf ++
    bytes.drop (start + buf.length)

section Patch

variable {bytes buf : List Byte} {start : Nat}

theorem length_patch : (patch bytes start buf).length = max bytes.length (start + buf.length) := by
  unfold patch
  simp only [List.length_append, List.length_take, List.length_replicate, List.length_drop]
  omega

theorem getD_patch (q : Nat) :
    (patch bytes start buf).getD q 0 = overlay (fun q => bytes.getD q 0) start buf q := by
  have front : ((bytes ++ List.replicate (start - bytes.length) 0).take start).length = start := by
    simp only [List.length_take, List.length_append, List.length_replicate]
    omega
  unfold patch overlay
  simp only [List.getD_eq_getElem?_getD]
  by_cases before : q < start
  · rw [if_neg (by omega), List.append_assoc, List.getElem?_append_left (by omega),
      List.getElem?_take_of_lt before]
    by_cases inside : q < bytes.length
    · rw [List.getElem?_append_left inside]
    · rw [List.getElem?_append_right (by omega), List.getElem?_replicate,
        List.getElem?_eq_none (Nat.not_lt.mp inside)]
      split <;> rfl
  · by_cases within : q < start + buf.length
    · rw [if_pos ⟨by omega, within⟩, List.getElem?_append_left (by rw [List.length_append]; omega),
        List.getElem?_append_right (by omega), front]
    · rw [if_neg (by omega), List.getElem?_append_right (by rw [List.length_append]; omega),
        List.length_append, front, List.getElem?_drop]
      congr 2
      omega

end Patch

/-- A range inside the file is printed up to its first NUL, unless its length is negative as an
`int`; a range that ends behind the file is refused, as long as its end is a 64-bit number. The end
of the largest file gives a number that no range has. -/
structure ReadsRange (bytes : List Byte) (start size : Nat) (ret : Int) (said said' : List Output) :
    Prop where
  inside : start + size ≤ bytes.length →
    ret = (if start < maxFileSize then toInt32 size else eFBIG) ∧
      said' = if 0 ≤ ret then said ++ [.text (cString ((bytes.drop start).take size) ++ [10])]
        else said
  behind : bytes.length < start + size → start + size < 2 ^ 63 → ret = -eINVAL ∧ said' = said

/-- A file or a directory. -/
inductive Node
  | file (bytes : List Byte)
  | dir (names : List Byte → Option Nat)

/-- The files and directories by their numbers, and the current directory. -/
@[ext] structure FileTree where
  node : Nat → Option Node
  cur : Nat

namespace FileTree

variable (t : FileTree)

/-- A new file system: the root directory is its own parent. -/
def new : FileTree := ⟨fun n => if n = 0 then some (.dir (newNames 0 0)) else none, 0⟩

/-- What a name means in the current directory. -/
def find (name : List Byte) : Option Nat :=
  match t.node t.cur with
  | some (.dir names) => names name
  | _ => none

def set (n : Nat) (node : Option Node) : FileTree :=
  { t with node := Function.update t.node n node }

@[simp] theorem set_cur (n : Nat) (node : Option Node) : (t.set n node).cur = t.cur := rfl

@[simp] theorem set_node (n : Nat) (node : Option Node) :
    (t.set n node).node = Function.update t.node n node := rfl

/-- The current directory gives a name a meaning, or takes it away. -/
def enter (name : List Byte) (target : Option Nat) : FileTree :=
  match t.node t.cur with
  | some (.dir names) => t.set t.cur (some (.dir (Function.update names name target)))
  | _ => t

theorem enter_eq {names : List Byte → Option Nat} (here : t.node t.cur = some (.dir names))
    (name : List Byte) (target : Option Nat) :
    t.enter name target = t.set t.cur (some (.dir (Function.update names name target))) := by
  unfold enter
  rw [here]

/-- Number `n` is a directory that names something besides itself and its parent. -/
def Occupied (n : Nat) : Prop :=
  ∃ names name, t.node n = some (.dir names) ∧ name ≠ dot ∧ name ≠ dotDot ∧ names name ≠ none

def isDir (n : Nat) : Bool :=
  match t.node n with
  | some (.dir _) => true
  | _ => false

/-- Directory `p` gives directory `n` a name. -/
def NamesDir (p : Nat) (name : List Byte) (n : Nat) : Prop :=
  (∃ names, t.node p = some (.dir names) ∧ names name = some n) ∧ t.isDir n = true ∧
    name ≠ dot ∧ name ≠ dotDot

/-- The line of `ls` about an entry. -/
def line (name : List Byte) (n : Nat) : Output :=
  .text (name ++ if t.isDir n then [47, 10] else [10])

/-- The names of a directory with what they stand for, each once. -/
structure Entries (names : List Byte → Option Nat) (es : List (List Byte × Nat)) : Prop where
  once : (es.map Prod.fst).Nodup
  mem : ∀ name n, (name, n) ∈ es ↔ names name = some n

/-- The lines about the entries of a directory; in a recursive listing, those about a directory
below it follow the line about that directory. -/
inductive Lists (recursive : Bool) : List (List Byte × Nat) → List Output → Prop
  | nil : Lists recursive [] []
  | entry {name : List Byte} {n : Nat} {es : List (List Byte × Nat)} {out : List Output}
      (flat : recursive = false ∨ t.isDir n = false ∨ name = dot ∨ name = dotDot)
      (rest : Lists recursive es out) :
      Lists recursive ((name, n) :: es) (t.line name n :: out)
  | nested {name : List Byte} {n : Nat} {es es' : List (List Byte × Nat)}
      {names : List Byte → Option Nat} {inner out : List Output} (deep : recursive = true)
      (plain : name ≠ dot ∧ name ≠ dotDot) (node : t.node n = some (.dir names))
      (entries : Entries names es') (inside : Lists recursive es' inner)
      (rest : Lists recursive es out) :
      Lists recursive ((name, n) :: es) (t.line name n :: (inner ++ out))

/- The commands, by what they return, what standard output is before and after, and the tree
afterwards. -/
section Commands

variable (ret : Int) (t' : FileTree) (said said' : List Output) (name : List Byte)

def Cds : Prop :=
  said' = said ∧
    match t.find name with
    | none => ret = -eNOENT ∧ t' = t
    | some n =>
        match t.node n with
        | some (.dir _) => ret = 0 ∧ t' = { t with cur := n }
        | _ => ret = -eNOTDIR ∧ t' = t

/-- A creation fails when the name is taken or every number is; else it takes the least unused one.
-/
def Makes (node : Nat → Node) : Prop :=
  said' = said ∧
    match t.find name with
    | some _ => ret = -eEXIST ∧ t' = t
    | none =>
        (∀ n < 16384, t.node n ≠ none) ∧ ret = -eNOSPC ∧ t' = t ∨
          ∃ n < 16384, t.node n = none ∧ (∀ m < n, t.node m ≠ none) ∧ ret = 0 ∧
            t' = (t.set n (some (node n))).enter name (some n)

def Removes : Prop :=
  said' = said ∧
    if name = dot ∨ name = dotDot then ret = -eINVAL ∧ t' = t
    else
      match t.find name with
      | none => ret = -eNOENT ∧ t' = t
      | some n => t.Occupied n ∧ ret = -eNOTEMPTY ∧ t' = t ∨
          ¬ t.Occupied n ∧ ret = 0 ∧ t' = (t.set n none).enter name none

/-- A write stops at the largest file size. Behind it, the number that is returned is not negative.
-/
def Writes (start : Nat) (buf : List Byte) : Prop :=
  said' = said ∧
    match t.find name with
    | none => ret = -eNOENT ∧ t' = t
    | some n =>
        match t.node n with
        | some (.file bytes) =>
            if start + buf.length ≤ maxFileSize then
              ret = buf.length ∧ t' = t.set n (some (.file (patch bytes start buf)))
            else if start < maxFileSize then
              ret = -eFBIG ∧
                t' = t.set n (some (.file (patch bytes start (buf.take (maxFileSize - start)))))
            else ret = eFBIG ∧ t' = t
        | _ => ret = -eISDIR ∧ t' = t

def Reads (start size : Nat) : Prop :=
  t' = t ∧
    match t.find name with
    | none => ret = -eNOENT ∧ said' = said
    | some n =>
        match t.node n with
        | some (.file bytes) => ReadsRange bytes start size ret said said'
        | _ => ret = -eISDIR ∧ said' = said

def Pwds : Prop :=
  t' = t ∧ ret = 0 ∧ ∃ names, Rooted.Path 0 t.NamesDir names t.cur ∧
    said' = said ++ pathOutput names ++ [.text [10]]

def Ls (recursive : Bool) : Prop :=
  t' = t ∧
    match t.find name with
    | none => ret = -eNOENT ∧ said' = said
    | some n =>
        match t.node n with
        | some (.dir names) => ret = 0 ∧
            ∃ es out, Entries names es ∧ t.Lists recursive es out ∧ said' = said ++ out
        | _ => ret = -eNOTDIR ∧ said' = said

def Stats : Prop :=
  t' = t ∧
    match t.find name with
    | none => ret = -eNOENT ∧ said' = said
    | some n => ret = 0 ∧ ∃ (size : BitVec 64) (blocks : BitVec 32),
        said' = said ++
          [.stat name n (if t.isDir n then InodeType.dir else .file).code size blocks] ∧
        ∀ bytes, t.node n = some (.file bytes) → size.toInt = bytes.length

def Fsstats : Prop :=
  t' = t ∧ ret = 0 ∧ ∃ blocks, said' = said ++
    [.fsstat ((Finset.range 16384).filter fun n => (t.node n).isSome).card blocks]

/-- One command of the program. Anything but the right number of arguments is invalid. -/
def Step : Command → Prop
  | .cd [name] => t.Cds ret t' said said' name.bytes
  | .create [name] => t.Makes ret t' said said' name.bytes fun _ => .file []
  | .mkdir [name] => t.Makes ret t' said said' name.bytes fun n => .dir (newNames n t.cur)
  | .rm [name] => t.Removes ret t' said said' name.bytes
  | .write [filename, offset, buf] =>
      match strToOffset offset.bytes with
      | some (.ofNat start) => t.Writes ret t' said said' filename.bytes start buf.bytes
      | _ => ret = -eINVAL ∧ t' = t ∧ said' = said
  | .read [filename, offset, size] =>
      match strToOffset offset.bytes, strToSize size.bytes with
      | some (.ofNat start), some size => t.Reads ret t' said said' filename.bytes start size
      | _, _ => ret = -eINVAL ∧ t' = t ∧ said' = said
  | .pwd [] => t.Pwds ret t' said said'
  | .ls [name] => t.Ls ret t' said said' name.bytes false
  | .lsr [name] => t.Ls ret t' said said' name.bytes true
  | .stat [name] => t.Stats ret t' said said' name.bytes
  | .fsstat [] => t.Fsstats ret t' said said'
  | _ => ret = -eINVAL ∧ t' = t ∧ said' = said

end Commands

/-- A command that has returned a number, or the end of the program and a new start of it. -/
inductive Event
  | command (c : Command) (ret : Int)
  | restart

/-- Commands and restarts one after the other, with the tree that they leave and what has been
printed since the last restart. -/
inductive Runs : List Event → FileTree → List Output → Prop
  | new : Runs [] new []
  | command {events : List Event} {t t' : FileTree} {said said' : List Output} {c : Command}
      {ret : Int} (run : Runs events t said) (step : t.Step ret t' said said' c) :
      Runs (events ++ [.command c ret]) t' said'
  | restart {events : List Event} {t : FileTree} {said : List Output} (run : Runs events t said) :
      Runs (events ++ [.restart]) { t with cur := 0 } []

end FileTree

end Ece344Lab.Fs
