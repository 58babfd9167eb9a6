import Ece344Lab.Lib.Linked

set_option autoImplicit false

/- The doubly linked lists of `server_thread.c`. -/
namespace Ece344Lab.Webserver

open Linked

/-- `List`, with the linkers it leads to. A linker points to a block. The linkers at `brk` and above
have not been allocated yet. -/
structure LinkerList where
  startLinker : Option Nat
  endLinker : Option Nat
  size : Int
  linkers : Heap Nat
  brk : Nat

def listNew : LinkerList where
  startLinker := none
  endLinker := none
  size := 0
  linkers _ := none
  brk := 0

/-- `List_push`: a new linker at the end. -/
def listPush (list : LinkerList) (p : Nat) : Except Fault (Int × LinkerList) :=
  let newlinker := list.brk
  if list.size = 0 then
    .ok (1, { list with
      startLinker := some newlinker
      endLinker := some newlinker
      size := list.size + 1
      linkers := Function.update list.linkers newlinker (some ⟨p, none, none⟩)
      brk := list.brk + 1 })
  else do
    let linkers := Function.update list.linkers newlinker (some ⟨p, none, list.endLinker⟩)
    let linkers ← storeNext linkers list.endLinker (some newlinker)
    .ok (1, { list with
      endLinker := some newlinker
      size := list.size + 1
      linkers := linkers
      brk := list.brk + 1 })

/-- `List_put`: a new linker in front. -/
def listPut (list : LinkerList) (p : Nat) : Except Fault (Int × LinkerList) :=
  let newlinker := list.brk
  if list.size = 0 then
    .ok (1, { list with
      startLinker := some newlinker
      endLinker := some newlinker
      size := list.size + 1
      linkers := Function.update list.linkers newlinker (some ⟨p, none, none⟩)
      brk := list.brk + 1 })
  else do
    let linkers := Function.update list.linkers newlinker (some ⟨p, list.startLinker, none⟩)
    let linkers ← storePrior linkers list.startLinker (some newlinker)
    .ok (1, { list with
      startLinker := some newlinker
      size := list.size + 1
      linkers := linkers
      brk := list.brk + 1 })

/-- `List_pop`: the linker at the start taken out. -/
def listPop (list : LinkerList) : Except Fault (Int × LinkerList) :=
  if list.size = 1 then do
    let linkers ← free list.linkers list.startLinker
    .ok (1, { list with
      startLinker := none, endLinker := none, size := list.size - 1, linkers := linkers })
  else do
    let temp ← deref list.linkers list.startLinker
    let linkers ← storePrior list.linkers temp.next none
    let linkers ← free linkers list.startLinker
    .ok (1, { list with startLinker := temp.next, size := list.size - 1, linkers := linkers })

/-- `List_pull`: the linker at the end taken out. -/
def listPull (list : LinkerList) : Except Fault (Int × LinkerList) :=
  if list.size = 1 then do
    let linkers ← free list.linkers list.startLinker
    .ok (1, { list with
      startLinker := none, endLinker := none, size := list.size - 1, linkers := linkers })
  else do
    let temp ← deref list.linkers list.endLinker
    let linkers ← storeNext list.linkers temp.prior none
    let linkers ← free linkers list.endLinker
    .ok (1, { list with endLinker := temp.prior, size := list.size - 1, linkers := linkers })

def listTop (list : LinkerList) : Except Fault Nat := do
  let linker ← deref list.linkers list.startLinker
  .ok linker.val

def listBot (list : LinkerList) : Except Fault Nat := do
  let linker ← deref list.linkers list.endLinker
  .ok linker.val

/-- `List_pmovetop`: a linker of the list moved to its front. -/
def listPmovetop (list : LinkerList) (pos : Option Nat) : Except Fault (Int × LinkerList) :=
  if pos = none then .ok (0, list)
  else if list.size = 1 then .ok (1, list)
  else if pos = list.startLinker then .ok (1, list)
  else do
    let linker ← deref list.linkers pos
    let atEnd := pos = list.endLinker
    let unlinked ←
      if atEnd then storeNext list.linkers linker.prior none
      else do
        let linkers ← storeNext list.linkers linker.prior linker.next
        storePrior linkers linker.next linker.prior
    let linkers ← storePrior unlinked pos none
    let linkers ← storeNext linkers pos list.startLinker
    let linkers ← storePrior linkers list.startLinker pos
    .ok (1, { list with
      startLinker := pos
      endLinker := if atEnd then linker.prior else list.endLinker
      linkers := linkers })

/-- The loop of `List_movetop`: `count` linkers further on, with the linker before. -/
def linkerLoop (linkers : Heap Nat) :
    Nat → Option Nat → Option Nat → Except Fault (Option Nat × Option Nat)
  | 0, previous, current => .ok (previous, current)
  | count + 1, _, current => do
      let linker ← deref linkers current
      linkerLoop linkers count current linker.next

/-- `List_movetop`: the linker at a position moved to the front. -/
def listMovetop (list : LinkerList) (pos : Int) : Except Fault (Int × LinkerList) :=
  if pos < 0 then .ok (0, list)
  else if pos = 0 then .ok (1, list)
  else if list.size = 1 then .ok (1, list)
  else if list.size ≤ pos then .ok (0, list)
  else do
    let start ← deref list.linkers list.startLinker
    let (previous, current) ←
      linkerLoop list.linkers (pos.toNat - 1) list.startLinker start.next
    let endLinker := if current = list.endLinker then previous else list.endLinker
    let linker ← deref list.linkers current
    let linkers ← storeNext list.linkers previous linker.next
    -- `previous_linker->m_pNextLinker`, as it is now
    let before ← deref linkers previous
    let linkers ← storePrior linkers before.next previous
    let linkers ← storeNext linkers current list.startLinker
    let linkers ← storePrior linkers current none
    let linkers ← storePrior linkers list.startLinker current
    .ok (1, { list with startLinker := current, endLinker := endLinker, linkers := linkers })

/-- `List_concatenate`: the linkers of the second list, which are in the same memory, put behind
those of the first. -/
def listConcatenate (list1 list2 : LinkerList) : Except Fault LinkerList :=
  if list1.size = 0 then
    .ok { list1 with
      startLinker := list2.startLinker, endLinker := list2.endLinker, size := list2.size }
  else do
    let linkers ← storeNext list1.linkers list1.endLinker list2.startLinker
    let linkers ← storePrior linkers list2.startLinker list1.endLinker
    .ok { list1 with
      endLinker := list2.endLinker, size := list1.size + list2.size, linkers := linkers }

/-- How `BucketBuffer_delete` takes the linker `start` out of the middle of a chain. -/
def unlink (list : LinkerList) (start : Option Nat) : Except Fault LinkerList := do
  let linker ← deref list.linkers start
  let linkers ← storeNext list.linkers linker.prior linker.next
  -- `start->m_pNextLinker` and `start->m_pPrevLinker` are read again
  let linker ← deref linkers start
  let linkers ← storePrior linkers linker.next linker.prior
  let linkers ← free linkers start
  .ok { list with size := list.size - 1, linkers := linkers }

/-- How `BucketBuffer_delete` takes out the linker `start` that it has found, with `count` linkers
before it. -/
def takeOut (list : LinkerList) (count : Int) (start : Option Nat) : Except Fault LinkerList :=
  if count = 0 then do
    let (_, list) ← listPop list
    .ok list
  else if count = list.size - 1 then do
    let (_, list) ← listPull list
    .ok list
  else unlink list start

/-- The loop of `BucketBuffer_delete` over a chain. The test says whether the key of the pair that a
linker points to is the one to delete. -/
def deleteLoop (list : LinkerList) (test : Nat → Bool) :
    Nat → Int → Option Nat → Except Fault (Int × LinkerList)
  | 0, _, _ => .error .diverges
  | fuel + 1, count, start =>
      if start = none then .ok (0, list)
      else do
        let linker ← deref list.linkers start
        if test linker.val then do
          let list ← takeOut list count start
          .ok (1, list)
        else deleteLoop list test fuel (count + 1) linker.next

/-- What `BucketBuffer_delete` does to the chain of the key. -/
def chainDelete (list : LinkerList) (test : Nat → Bool) : Except Fault (Int × LinkerList) :=
  if list.size ≠ 0 then deleteLoop list test (list.size.toNat + 1) 0 list.startLinker
  else .ok (0, list)

end Ece344Lab.Webserver
