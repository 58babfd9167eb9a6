import Ece344Lab.Lib.Buffer
import Ece344Lab.Lib.Keyed
import Ece344Lab.Lib.Outcome

set_option autoImplicit false

/- The hash table of `server_thread.c`. A string is the list of its bytes before the NUL, and a
chain is the list of its pairs; a chain that is `NULL` and one without linkers are the same here. -/
namespace Ece344Lab.Webserver

abbrev hashtableIncrementSize : Nat := 4096
abbrev hashtableScaleFactor : Nat := 2
abbrev hashtableMoveCount : Nat := 2

structure Pair (β : Type) where
  first : List Byte
  second : β

structure BucketBuffer (β : Type) where
  list : Nat → List (Pair β)
  size : Nat
  bucketNumber : Nat
  reallocateCursor : Nat

structure HashTable (β : Type) where
  mainBuffer : BucketBuffer β
  subBuffer : Option (BucketBuffer β)

/-- `HashTable_strHash`. Characters are signed. -/
def strHash (str : List Byte) (size : Nat) : Nat :=
  let key :=
    str.foldl (fun (key : BitVec 64) c => (key <<< 5) + key + c.signExtend 64) 4294979861#64
  (key &&& BitVec.ofNat 64 (size - 1)).toNat

variable {β : Type}

/-- `BucketBuffer_new`; the buckets are counted by an `int`. -/
def bucketBufferNew (size : Nat) : Except Fault (BucketBuffer β) :=
  if size < 2 ^ 31 then .ok ⟨fun _ => [], size, 0, 0⟩ else .error .undefined

/-- `BucketBuffer_find`, for a buffer that is not `NULL`. -/
def bucketBufferFind (buffer : BucketBuffer β) (key : List Byte) : Option β :=
  let mainKey := strHash key buffer.size
  (Keyed.lookup Pair.first (buffer.list mainKey) key).map Pair.second

/-- `BucketBuffer_delete`, for a buffer that is not `NULL`. -/
def bucketBufferDelete (buffer : BucketBuffer β) (key : List Byte) : Int × BucketBuffer β :=
  let mainKey := strHash key buffer.size
  match Keyed.lookup Pair.first (buffer.list mainKey) key with
  | none => (0, buffer)
  | some _ =>
      (1, { buffer with
        list := Function.update buffer.list mainKey
          (Keyed.remove Pair.first (buffer.list mainKey) key) })

/-- Chain `i` of the sub buffer, behind the chain of the main buffer where its first key belongs. -/
def moveList (main sub : BucketBuffer β) (i : Nat) : BucketBuffer β × BucketBuffer β :=
  match sub.list i with
  | [] => (main, sub)
  | temp :: rest =>
      let subList := temp :: rest
      let key := strHash temp.first main.size
      ({ main with
          list := Function.update main.list key (main.list key ++ subList)
          bucketNumber := main.bucketNumber + subList.length },
        { sub with
          list := Function.update sub.list i []
          bucketNumber := sub.bucketNumber - subList.length })

/-- The loop of `HashTable_reallocate` over the `n` chains from `i` on. -/
def reallocateLoop : Nat → Nat → Nat → BucketBuffer β → BucketBuffer β →
    BucketBuffer β × BucketBuffer β
  | 0, _, _, main, sub => (main, sub)
  | n + 1, i, count, main, sub =>
      if sub.list i = [] then reallocateLoop n (i + 1) count main sub
      else
        let moved := moveList main sub i
        if hashtableMoveCount ≤ count + 1 then
          (moved.1, { moved.2 with reallocateCursor := i })
        else reallocateLoop n (i + 1) (count + 1) moved.1 moved.2

def hashTableReallocate (table : HashTable β) : Int × HashTable β :=
  match table.subBuffer with
  | none => (0, table)
  | some sub =>
      let moved := reallocateLoop (sub.size - sub.reallocateCursor) sub.reallocateCursor 0
        table.mainBuffer sub
      (1, ⟨moved.1, if moved.2.size = 0 then none else some moved.2⟩)

def hashTableNew : HashTable β where
  mainBuffer := ⟨fun _ => [], hashtableIncrementSize, 0, 0⟩
  subBuffer := none

/-- `HashTable_insert`. A main buffer that is half full becomes the sub buffer. -/
def hashTableInsert (table : HashTable β) (key : List Byte) (bucket : β) :
    Except Fault (Int × HashTable β) :=
  let main := table.mainBuffer
  let mainKey := strHash key main.size
  let pushed := { main with
    list := Function.update main.list mainKey (main.list mainKey ++ [⟨key, bucket⟩])
    bucketNumber := main.bucketNumber + 1 }
  let table := (hashTableReallocate { table with mainBuffer := pushed }).2
  if table.mainBuffer.size ≤ 2 * table.mainBuffer.bucketNumber then do
    let main ← bucketBufferNew (hashtableScaleFactor * table.mainBuffer.size)
    .ok (1, ⟨main, some table.mainBuffer⟩)
  else .ok (1, table)

def hashTableFind (table : HashTable β) (key : List Byte) : Option β :=
  match bucketBufferFind table.mainBuffer key with
  | some bucket => some bucket
  | none =>
      match table.subBuffer with
      | none => none
      | some sub => bucketBufferFind sub key

def hashTableDelete (table : HashTable β) (key : List Byte) : Int × HashTable β :=
  let deleted := bucketBufferDelete table.mainBuffer key
  if deleted.1 ≠ 0 then (deleted.1, { table with mainBuffer := deleted.2 })
  else
    match table.subBuffer with
    | none => (0, table)
    | some sub =>
        let deleted := bucketBufferDelete sub key
        (deleted.1, { table with subBuffer := some deleted.2 })

end Ece344Lab.Webserver
