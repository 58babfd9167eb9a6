import Ece344Lab.Webserver.HashTable

set_option autoImplicit false

/- `wc.c`. It has its own copy of the hash table of the web server, with another first size and
another way to count the chains that move; the rest of the table is the same text. -/
namespace Ece344Lab.Warmup

open Bytes Webserver

abbrev hashtableIncrementSize : Nat := 1073741824

section HashTable

variable {β : Type}

/-- Chain `i` of the sub buffer, behind the chain of the main buffer where its first key belongs.
The whole chain counts as one bucket. -/
def moveList (main sub : BucketBuffer β) (i : Nat) : BucketBuffer β × BucketBuffer β :=
  match sub.list i with
  | [] => (main, sub)
  | temp :: rest =>
      let key := strHash temp.first main.size
      ({ main with
          list := Function.update main.list key (main.list key ++ temp :: rest)
          bucketNumber := main.bucketNumber + 1 },
        { sub with
          list := Function.update sub.list i []
          bucketNumber := sub.bucketNumber - 1 })

/-- The loop of `HashTable_reallocate` over the `n` chains from `i` on. -/
def reallocateLoop : Nat → Nat → Nat → BucketBuffer β → BucketBuffer β →
    BucketBuffer β × BucketBuffer β
  | 0, _, _, main, sub => (main, sub)
  | n + 1, i, count, main, sub =>
      if sub.list i = [] then reallocateLoop n (i + 1) count main sub
      else
        let moved := moveList main sub i
        if hashtableMoveCount ≤ count + 1 then
          (moved.1, { moved.2 with reallocateCursor := i })
        else reallocateLoop n (i + 1) (count + 1) moved.1 moved.2

def hashTableReallocate (table : HashTable β) : HashTable β :=
  match table.subBuffer with
  | none => table
  | some sub =>
      let moved := reallocateLoop (sub.size - sub.reallocateCursor) sub.reallocateCursor 0
        table.mainBuffer sub
      ⟨moved.1, if moved.2.size = 0 then none else some moved.2⟩

def hashTableNew : HashTable β where
  mainBuffer := ⟨fun _ => [], hashtableIncrementSize, 0, 0⟩
  subBuffer := none

/-- `HashTable_insert`. A main buffer that is half full becomes the sub buffer. -/
def hashTableInsert (table : HashTable β) (key : List Byte) (bucket : β) :
    Except Fault (HashTable β) :=
  let main := table.mainBuffer
  let mainKey := strHash key main.size
  let pushed := { main with
    list := Function.update main.list mainKey (main.list mainKey ++ [⟨key, bucket⟩])
    bucketNumber := main.bucketNumber + 1 }
  let table := hashTableReallocate { table with mainBuffer := pushed }
  if table.mainBuffer.size ≤ 2 * table.mainBuffer.bucketNumber then do
    let main ← bucketBufferNew (hashtableScaleFactor * table.mainBuffer.size)
    .ok ⟨main, some table.mainBuffer⟩
  else .ok table

end HashTable

def isSpace (c : Byte) : Bool := c = 32#8 ∨ 9 ≤ c.toNat ∧ c.toNat ≤ 13

/-- `struct wc`. A bucket points to an allocated `int`, here by its place among them. -/
structure Wc where
  hashTable : HashTable Nat
  wordCounts : List Nat

/-- What is done for a word that is not empty. -/
def countWord (wc : Wc) (inputWord : List Byte) : Except Fault Wc :=
  match hashTableFind wc.hashTable inputWord with
  | none => do
      let table ← hashTableInsert wc.hashTable inputWord wc.wordCounts.length
      .ok ⟨table, wc.wordCounts ++ [1]⟩
  | some wordCount => .ok { wc with wordCounts := wc.wordCounts.modify wordCount (· + 1) }

/-- The `wordSize` characters at `source` as a string. -/
def inputWord (wordArray : List Byte) (source wordSize : Nat) : List Byte :=
  ((wordArray.drop source).take wordSize).takeWhile (· ≠ 0)

/-- The first place from `i` on that is not white space; the NUL behind the array is none. -/
def skipSpaces (wordArray : List Byte) (i : Nat) : Nat :=
  i + ((wordArray.drop i).takeWhile isSpace).length

/-- The loop of `wc_init` over the characters from `counter` on; the counter is an `int`. -/
def wcLoop (wordArray : List Byte) : List Byte → Nat → Nat → Nat → Wc → Except Fault Wc
  | [], _, _, _, wc => .ok wc
  | c :: rest, counter, source, wordSize, wc =>
      if c = 0 then .ok wc
      else if isSpace c then do
        let word := inputWord wordArray source wordSize
        let wc ← if word ≠ [] then countWord wc word else .ok wc
        if 2 ^ 31 ≤ counter + 1 then .error .undefined
        else wcLoop wordArray rest (counter + 1) (skipSpaces wordArray (counter + 1)) 0 wc
      else if 2 ^ 31 ≤ counter + 1 then .error .undefined
      else wcLoop wordArray rest (counter + 1) source (wordSize + 1) wc

/-- `wc_init`, for an array with a NUL behind it. -/
def wcInit (wordArray : List Byte) : Except Fault Wc :=
  wcLoop wordArray wordArray 0 0 0 ⟨hashTableNew, []⟩

def wordLine (word : List Byte) (count : Nat) : List Byte :=
  word ++ text ":" ++ decimal count ++ text "\n"

/-- What `wc_output` prints for one buffer. -/
def bufferOutput (wc : Wc) (buffer : BucketBuffer Nat) : List Byte :=
  (List.range buffer.size).flatMap fun i =>
    (buffer.list i).flatMap fun entry => wordLine entry.first (wc.wordCounts.getD entry.second 0)

def wcOutput (wc : Wc) : List Byte :=
  bufferOutput wc wc.hashTable.mainBuffer ++
    match wc.hashTable.subBuffer with
    | none => []
    | some sub => bufferOutput wc sub

end Ece344Lab.Warmup
