import Ece344Lab.Webserver.HashTable
import Ece344Lab.Webserver.LinkerList

set_option autoImplicit false

/- The file cache of `server_thread.c`: a hash table from names to blocks, and a list of the blocks
with the one used last in front. Blocks and linkers have addresses; the counters are integers. -/
namespace Ece344Lab.Webserver

open Linked

/-- `struct file_data`. The bytes at `file_buf` are none when it is `NULL`. -/
structure FileData where
  fileName : List Byte
  fileBuf : List Byte
  fileSize : Int
  deriving DecidableEq

/-- `Cache_block`. -/
structure CacheBlock where
  nPinned : Int
  linkPos : Option Nat
  data : FileData
  deriving DecidableEq

/-- `Cache`, with the blocks it leads to. The blocks at `blockBrk` and above have not been allocated
yet. -/
structure Cache where
  fileTable : HashTable Nat
  nameList : LinkerList
  totalSize : Int
  currentSize : Int
  nPinned : Int
  blocks : Nat → Option CacheBlock
  blockBrk : Nat

/-- The block at an address. -/
def loadBlock (blocks : Nat → Option CacheBlock) (p : Nat) : Except Fault CacheBlock :=
  match blocks p with
  | none => .error .undefined
  | some block => .ok block

/-- `HashTable_delete` for a table of blocks: it frees the block as well. -/
def deleteBlock (cache : Cache) (name : List Byte) : Cache :=
  { cache with
    fileTable := (hashTableDelete cache.fileTable name).2
    blocks :=
      match hashTableFind cache.fileTable name with
      | none => cache.blocks
      | some p => Function.update cache.blocks p none }

def evictLoop : Nat → Cache → Int → Except Fault (Int × Cache)
  | 0, _, _ => .error .diverges
  | fuel + 1, cache, ammount =>
      if 0 < ammount then do
        let p ← listBot cache.nameList
        let blk ← loadBlock cache.blocks p
        if 0 < blk.nPinned then do
          let moved ← listPmovetop cache.nameList blk.linkPos
          let cache := { cache with nameList := moved.2 }
          if cache.nPinned = cache.nameList.size then .ok (0, cache)
          else evictLoop fuel cache ammount
        else do
          let file := blk.data
          let pulled ← listPull cache.nameList
          let cache := { cache with
            currentSize := cache.currentSize - file.fileSize, nameList := pulled.2 }
          evictLoop fuel (deleteBlock cache file.fileName) (ammount - file.fileSize)
      else .ok (1, cache)

/-- `Cache_evict`. A list of `n` blocks is gone round at most once for each block evicted. -/
def cacheEvict (cache : Cache) (ammount : Int) : Except Fault (Int × Cache) :=
  if cache.totalSize < ammount ∨ ammount ≤ 0 then .ok (0, cache)
  else
    let n := cache.nameList.size.toNat
    evictLoop ((n + 1) * (n + 1)) cache ammount

def cacheInit (size : Int) : Cache where
  fileTable := hashTableNew
  nameList := listNew
  totalSize := size
  currentSize := 0
  nPinned := 0
  blocks _ := none
  blockBrk := 0

/-- `Cache_lookup`, between locking and unlocking `m_lFileTableLock`. It returns the data as well.
-/
def cacheLookup (cache : Cache) (data : FileData) : Except Fault (Int × FileData × Cache) :=
  if cache.totalSize / 2 ≤ data.fileSize then .ok (0, data, cache)
  else
    match hashTableFind cache.fileTable data.fileName with
    | none => .ok (0, data, cache)
    | some p => do
        let blk ← loadBlock cache.blocks p
        let moved ← listPmovetop cache.nameList blk.linkPos
        .ok (1, { data with fileBuf := blk.data.fileBuf, fileSize := blk.data.fileSize },
          { cache with
            nPinned := if blk.nPinned = 0 then cache.nPinned + 1 else cache.nPinned
            blocks := Function.update cache.blocks p (some { blk with nPinned := blk.nPinned + 1 })
            nameList := moved.2 })

/-- `Cache_insert` when there is room: a new block that is not pinned. -/
def addBlock (cache : Cache) (data : FileData) : Except Fault (Int × Cache) := do
  let new := cache.blockBrk
  let inserted ← hashTableInsert cache.fileTable data.fileName new
  let put ← listPut cache.nameList new
  .ok (1, { cache with
    fileTable := inserted.2
    nameList := put.2
    currentSize := cache.currentSize + data.fileSize
    blocks := Function.update cache.blocks new (some ⟨0, put.2.startLinker, data⟩)
    blockBrk := cache.blockBrk + 1 })

/-- `Cache_insert`, between locking and unlocking `m_lFileTableLock`. -/
def cacheInsert (cache : Cache) (data : FileData) : Except Fault (Int × Cache) :=
  if cache.totalSize / 2 ≤ data.fileSize then .ok (0, cache)
  else
    match hashTableFind cache.fileTable data.fileName with
    | none =>
        if cache.totalSize - cache.currentSize < data.fileSize then do
          let evicted ← cacheEvict cache data.fileSize
          if evicted.1 = 0 then .ok (0, evicted.2) else addBlock evicted.2 data
        else addBlock cache data
    | some p => do
        let blk ← loadBlock cache.blocks p
        let nPinned := blk.nPinned - 1
        .ok (1, { cache with
          blocks := Function.update cache.blocks p (some { blk with nPinned := nPinned })
          nPinned := if nPinned = 0 then cache.nPinned - 1 else cache.nPinned })

end Ece344Lab.Webserver
