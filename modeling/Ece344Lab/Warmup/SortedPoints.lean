import Mathlib.Order.Lattice
import Ece344Lab.Lib.Linked

set_option autoImplicit false

/- `sorted_points.c`. Coordinates are of any linearly ordered type, and `point_compare` compares the
points by a key. -/
namespace Ece344Lab.Warmup

open Linked

@[ext] structure Point (α : Type) where
  x : α
  y : α
  deriving DecidableEq

/-- `struct sorted_points` with the linkers it leads to; the linkers at `brk` and above have not
been allocated yet. -/
structure SortedPoints (α : Type) where
  startLinker : Option Nat
  endLinker : Option Nat
  size : Int
  heap : Heap (Point α)
  brk : Nat

variable {α κ : Type} [LinearOrder α] [LinearOrder κ] (key : Point α → κ)

/-- `point_compare`, for points whose distances from the origin compare like `key`. -/
def pointCompare (p1 p2 : Point α) : Int :=
  if key p1 = key p2 then 0 else if key p1 < key p2 then -1 else 1

def detailPointCompare (p1 p2 : Point α) : Int :=
  let result := pointCompare key p1 p2
  if result ≠ 0 then result
  else if p1.x < p2.x then -1
  else if p2.x < p1.x then 1
  else if p1.y < p2.y then -1
  else if p2.y < p1.y then 1
  else 0

def spInit : SortedPoints α where
  startLinker := none
  endLinker := none
  size := 0
  heap _ := none
  brk := 0

/-- The loop of `sp_add_point`: the first linker that is not below the new point, and the one before
it. -/
def findPlace (h : Heap (Point α)) (np : Point α) :
    Nat → Option Nat → Option Nat → Except Fault (Option Nat × Option Nat)
  | _, none, prior => .ok (none, prior)
  | 0, some _, _ => .error .diverges
  | fuel + 1, some current, prior => do
      let linker ← deref h (some current)
      let status := detailPointCompare key linker.val np
      if status = 1 ∨ status = 0 then .ok (some current, prior)
      else findPlace h np fuel linker.next (some current)

/-- `sp_add_point`, when memory can be allocated. -/
def spAddPoint (s : SortedPoints α) (x y : α) : Except Fault (Int × SortedPoints α) :=
  let np : Point α := ⟨x, y⟩
  let newLinker := s.brk
  if s.startLinker = none then
    .ok (1, { s with
      startLinker := some newLinker
      endLinker := some newLinker
      size := s.size + 1
      heap := Function.update s.heap newLinker (some ⟨np, none, none⟩)
      brk := s.brk + 1 })
  else do
    let start ← deref s.heap s.startLinker
    let (current, prior) ← findPlace key s.heap np (s.size.toNat + 1) s.startLinker start.prior
    if current = none then
      -- insertion at the end
      let heap ← storeNext s.heap prior (some newLinker)
      .ok (1, { s with
        endLinker := some newLinker
        size := s.size + 1
        heap := Function.update heap newLinker (some ⟨np, none, prior⟩)
        brk := s.brk + 1 })
    else if current = s.startLinker then
      let heap := Function.update s.heap newLinker (some ⟨np, s.startLinker, none⟩)
      let heap ← storePrior heap s.startLinker (some newLinker)
      .ok (1, { s with
        startLinker := some newLinker, size := s.size + 1, heap := heap, brk := s.brk + 1 })
    else
      let heap ← storeNext s.heap prior (some newLinker)
      let heap ← storePrior heap current (some newLinker)
      .ok (1, { s with
        size := s.size + 1
        heap := Function.update heap newLinker (some ⟨np, current, prior⟩)
        brk := s.brk + 1 })

/-- What a removal returns, and what it stores in `*ret`. -/
structure RemoveResult (α : Type) where
  ret : Int
  stored : Option (Point α)
  sp : SortedPoints α

def spRemoveFirst (s : SortedPoints α) : Except Fault (RemoveResult α) :=
  if s.size = 0 then .ok ⟨0, none, s⟩
  else if s.size = 1 then do
    let linker ← deref s.heap s.startLinker
    let heap ← free s.heap s.startLinker
    .ok ⟨1, some linker.val, { s with
      startLinker := none, endLinker := none, size := s.size - 1, heap := heap }⟩
  else do
    let temp ← deref s.heap s.startLinker
    let heap ← storePrior s.heap temp.next none
    let heap ← free heap s.startLinker
    .ok ⟨1, some temp.val, { s with
      startLinker := temp.next, size := s.size - 1, heap := heap }⟩

def spRemoveLast (s : SortedPoints α) : Except Fault (RemoveResult α) :=
  if s.size = 0 then .ok ⟨0, none, s⟩
  else if s.size = 1 then do
    let linker ← deref s.heap s.startLinker
    let heap ← free s.heap s.startLinker
    .ok ⟨1, some linker.val, { s with
      startLinker := none, endLinker := none, size := s.size - 1, heap := heap }⟩
  else do
    let temp ← deref s.heap s.endLinker
    let heap ← storeNext s.heap temp.prior none
    let heap ← free heap s.endLinker
    .ok ⟨1, some temp.val, { s with
      endLinker := temp.prior, size := s.size - 1, heap := heap }⟩

/-- The linker `n` places behind another one. -/
def walk (h : Heap (Point α)) : Nat → Option Nat → Except Fault (Option Nat)
  | 0, p => .ok p
  | n + 1, p => do
      let linker ← deref h p
      walk h n linker.next

def spRemoveByIndex (s : SortedPoints α) (index : Int) : Except Fault (RemoveResult α) :=
  if s.size - 1 < index ∨ index < 0 then .ok ⟨0, none, s⟩
  else if index = 0 then spRemoveFirst s
  else if index = s.size - 1 then spRemoveLast s
  else do
    let temp ← walk s.heap index.toNat s.startLinker
    let linker ← deref s.heap temp
    let heap ← storeNext s.heap linker.prior linker.next
    let heap ← storePrior heap linker.next linker.prior
    let heap ← free heap temp
    .ok ⟨1, some linker.val, { s with size := s.size - 1, heap := heap }⟩

/-- The loop of `sp_delete_duplicates`; `p` is the point before the current one. -/
def deleteLoop : Nat → SortedPoints α → Option Nat → Point α → Int →
    Except Fault (Int × SortedPoints α)
  | 0, _, _, _, _ => .error .diverges
  | fuel + 1, s, current, p, numOfDeletion =>
      if 1 < s.size ∧ current ≠ none then do
        let linker ← deref s.heap current
        if linker.val.x = p.x ∧ linker.val.y = p.y then
          if current ≠ s.endLinker then do
            let heap ← storePrior s.heap linker.next linker.prior
            let heap ← storeNext heap linker.prior linker.next
            let heap ← free heap current
            deleteLoop fuel { s with size := s.size - 1, heap := heap } linker.next p
              (numOfDeletion + 1)
          else do
            let r ← spRemoveLast s
            .ok (numOfDeletion + 1, r.sp)
        else deleteLoop fuel s linker.next linker.val numOfDeletion
      else .ok (numOfDeletion, s)

def spDeleteDuplicates (s : SortedPoints α) : Except Fault (Int × SortedPoints α) :=
  if s.size ≤ 1 then .ok (0, s)
  else do
    let linker ← deref s.heap s.startLinker
    deleteLoop (s.size.toNat + 1) s linker.next linker.val 0

end Ece344Lab.Warmup
