import Ece344Lab.Lib.Chain

set_option autoImplicit false

/- The queues of `thread.c`, with linked nodes. -/
namespace Ece344Lab.Threads

open Chain

variable {α : Type}

/-- `Queue`, with the linkers it leads to. The linkers at `brk` and above have not been allocated
yet. -/
structure Queue (α : Type) where
  startLinker : Option Nat
  endLinker : Option Nat
  size : Int
  linkers : Heap α
  brk : Nat

def queueNew : Queue α where
  startLinker := none
  endLinker := none
  size := 0
  linkers _ := none
  brk := 0

def queuePush (queue : Queue α) (p : α) : Except Fault (Int × Queue α) :=
  let newlinker := queue.brk
  let linkers := Function.update queue.linkers newlinker (some ⟨p, none⟩)
  if queue.size = 0 then
    .ok (1, {
      startLinker := some newlinker
      endLinker := some newlinker
      size := queue.size + 1
      linkers := linkers
      brk := queue.brk + 1 })
  else do
    let linkers ← storeNext linkers queue.endLinker (some newlinker)
    .ok (1, { queue with
      endLinker := some newlinker
      size := queue.size + 1
      linkers := linkers
      brk := queue.brk + 1 })

def queuePop (queue : Queue α) : Except Fault (Int × Queue α) :=
  if queue.size = 1 then do
    let linkers ← free queue.linkers queue.startLinker
    .ok (1, { queue with
      startLinker := none, endLinker := none, size := queue.size - 1, linkers := linkers })
  else do
    let temp ← deref queue.linkers queue.startLinker
    let linkers ← free queue.linkers queue.startLinker
    .ok (1, { queue with startLinker := temp.next, size := queue.size - 1, linkers := linkers })

def queueTop (queue : Queue α) : Except Fault α := do
  let linker ← deref queue.linkers queue.startLinker
  .ok linker.val

/-- What the linker behind the first one points to. -/
def queueSecond (queue : Queue α) : Except Fault α := do
  let start ← deref queue.linkers queue.startLinker
  let linker ← deref queue.linkers start.next
  .ok linker.val

/-- The condition of the assertions in `thread_yield`: `m_pEndLinker->m_pNextLinker==NULL`. -/
def queueEnded (queue : Queue α) : Except Fault Bool := do
  let linker ← deref queue.linkers queue.endLinker
  .ok linker.next.isNone

/-- The loop of `Queue_movetop`: `count` linkers further on, with the linker before. -/
def movetopLoop (linkers : Heap α) :
    Nat → Option Nat → Option Nat → Except Fault (Option Nat × Option Nat)
  | 0, previous, current => .ok (previous, current)
  | count + 1, _, current => do
      let linker ← deref linkers current
      movetopLoop linkers count current linker.next

def queueMovetop (queue : Queue α) (pos : Int) : Except Fault (Int × Queue α) :=
  if pos < 0 then .ok (0, queue)
  else if pos = 0 then .ok (1, queue)
  else if queue.size = 1 then .ok (1, queue)
  else if queue.size ≤ pos then .ok (0, queue)
  else do
    let start ← deref queue.linkers queue.startLinker
    let (previous, current) ←
      movetopLoop queue.linkers (pos.toNat - 1) queue.startLinker start.next
    let endLinker := if current = queue.endLinker then previous else queue.endLinker
    let linker ← deref queue.linkers current
    let linkers ← storeNext queue.linkers previous linker.next
    let linkers ← storeNext linkers current queue.startLinker
    .ok (1, { queue with startLinker := current, endLinker := endLinker, linkers := linkers })

/-- Where a search loop stopped. -/
structure Found (α : Type) where
  position : Nat
  prior : Option Nat
  current : Option Nat
  val : α

/-- The search loops of `thread_yield` and `thread_exit`: the first linker from `current` on whose
thread passes the test. -/
def searchLoop (linkers : Heap α) (test : α → Bool) :
    Nat → Nat → Option Nat → Option Nat → Except Fault (Option (Found α))
  | 0, _, _, _ => .error .diverges
  | fuel + 1, position, prior, current =>
      if current = none then .ok none
      else do
        let linker ← deref linkers current
        if test linker.val then .ok (some ⟨position, prior, current, linker.val⟩)
        else searchLoop linkers test fuel (position + 1) current linker.next

def queueSearch (queue : Queue α) (test : α → Bool) : Except Fault (Option (Found α)) :=
  searchLoop queue.linkers test (queue.size.toNat + 1) 0 none queue.startLinker

/-- How `thread_exit` takes the linker that it has found out of the ready queue. -/
def exitSplice (queue : Queue α) (found : Found α) : Except Fault (Queue α) := do
  let linker ← deref queue.linkers found.current
  let queue ←
    if found.current = queue.startLinker then
      .ok { queue with startLinker := linker.next }
    else if found.current = queue.endLinker then do
      let linkers ← storeNext queue.linkers found.prior none
      .ok { queue with endLinker := found.prior, linkers := linkers }
    else do
      let linkers ← storeNext queue.linkers found.prior linker.next
      .ok { queue with linkers := linkers }
  let linkers ← free queue.linkers found.current
  .ok { queue with linkers := linkers, size := queue.size - 1 }

/-- `thread_exit` with an identifier: the linker of the first thread that passes the test is looked
for and taken out. -/
def exitFound (queue : Queue α) (test : α → Bool) : Except Fault (Option α × Queue α) := do
  match ← queueSearch queue test with
  | none => .ok (none, queue)
  | some found => do
      let queue ← exitSplice queue found
      .ok (some found.val, queue)

/-- The loop of `thread_exit(THREAD_ANY)`: the last linker from `current` on, with the one
before. -/
def lastLoop (linkers : Heap α) :
    Nat → Option Nat → Option Nat → Except Fault (Option Nat × Option Nat)
  | 0, _, _ => .error .diverges
  | fuel + 1, prior, current => do
      let linker ← deref linkers current
      if linker.next = none then .ok (prior, current)
      else lastLoop linkers fuel current linker.next

/-- How `thread_exit(THREAD_ANY)` takes the last linker out of the ready queue. -/
def exitLast (queue : Queue α) : Except Fault (α × Queue α) := do
  let (prior, current) ←
    lastLoop queue.linkers (queue.size.toNat + 1) none queue.startLinker
  let linkers ← storeNext queue.linkers prior none
  let linker ← deref linkers current
  let linkers ← free linkers current
  .ok (linker.val, { queue with endLinker := prior, size := queue.size - 1, linkers := linkers })

/-- The linkers of a queue with what they point to, in order. The end pointer of an empty queue
may lead anywhere. -/
structure Queue.Ok (queue : Queue α) (cells : List (Nat × α)) : Prop where
  chain : IsChain queue.linkers queue.startLinker cells
  finish : cells ≠ [] → queue.endLinker = Linked.last none cells
  size : queue.size = cells.length
  below : ∀ a ∈ cells.map Prod.fst, a < queue.brk

/-- What `Queue_movetop` does to the sequence. -/
def movedTop {β : Type} (xs : List β) (pos : Int) : List β :=
  if pos ≤ 0 then xs
  else
    match xs[pos.toNat]? with
    | none => xs
    | some x => x :: xs.eraseIdx pos.toNat

end Ece344Lab.Threads
