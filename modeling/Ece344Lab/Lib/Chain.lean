import Mathlib.Data.List.Nodup
import Ece344Lab.Lib.Linked

set_option autoImplicit false

/- Singly linked lists on a heap of nodes: which nodes make up a stretch of a list, and what the
usual changes of pointers do to it. -/
namespace Ece344Lab.Chain

open Linked (first last first_append last_append last_mem)

variable {α : Type*}

/-- A value with the address of the node behind it. -/
structure Node (α : Type*) where
  val : α
  next : Option Nat

/-- The nodes that have been allocated and not freed. -/
abbrev Heap (α : Type*) := Nat → Option (Node α)

/-- The nodes at the addresses of the cells hold their values and lead to each other. -/
def Segment (h : Heap α) : List (Nat × α) → Option Nat → Prop
  | [], _ => True
  | c :: rest, after => h c.1 = some ⟨c.2, first rest after⟩ ∧ Segment h rest after

theorem segment_append (h : Heap α) (after : Option Nat) (xs ys : List (Nat × α)) :
    Segment h (xs ++ ys) after ↔ Segment h xs (first ys after) ∧ Segment h ys after := by
  induction xs with
  | nil => exact ⟨fun held => ⟨trivial, held⟩, fun held => held.2⟩
  | cons c rest ih => simp only [List.cons_append, Segment, first_append, ih, and_assoc]

theorem Segment.congr {h h' : Heap α} {after : Option Nat} {cells : List (Nat × α)}
    (segment : Segment h cells after) (same : ∀ a ∈ cells.map Prod.fst, h' a = h a) :
    Segment h' cells after := by
  induction cells with
  | nil => trivial
  | cons c rest ih =>
      refine ⟨?_, ih segment.2 fun a member => same a (List.mem_cons_of_mem _ member)⟩
      rw [same c.1 (by simp)]
      exact segment.1

/-- The last node is made to lead to something else. -/
theorem Segment.relink {h : Heap α} {after : Option Nat} {cells : List (Nat × α)} {c : Nat × α}
    (segment : Segment h (cells ++ [c]) after) (distinct : ((cells ++ [c]).map Prod.fst).Nodup)
    (after' : Option Nat) :
    Segment (Function.update h c.1 (some ⟨c.2, after'⟩)) (cells ++ [c]) after' := by
  rw [List.map_append, List.nodup_append] at distinct
  obtain ⟨front, back⟩ := (segment_append h after cells [c]).mp segment
  refine (segment_append _ _ _ _).mpr ⟨?_, Function.update_self _ _ _, trivial⟩
  apply front.congr
  intro a member
  have apart : a ≠ c.1 := distinct.2.2 a member c.1 (by simp)
  rw [Function.update_of_ne apart]

/-- The cells make up the list that the pointer leads to. -/
structure IsChain (h : Heap α) (start : Option Nat) (cells : List (Nat × α)) : Prop where
  segment : Segment h cells none
  distinct : (cells.map Prod.fst).Nodup
  start : start = first cells none

theorem isChain_nil (h : Heap α) : IsChain h none [] := ⟨trivial, List.nodup_nil, rfl⟩

section Splice

variable {h : Heap α} {start : Option Nat} {xs ys cells : List (Nat × α)} {b c : Nat × α}

theorem IsChain.congr {h' : Heap α} (chain : IsChain h start cells)
    (same : ∀ a ∈ cells.map Prod.fst, h' a = h a) : IsChain h' start cells :=
  ⟨chain.segment.congr same, chain.distinct, chain.start⟩

theorem IsChain.freed (chain : IsChain h start cells) {a : Nat} (apart : a ∉ cells.map Prod.fst) :
    IsChain (Function.update h a none) start cells := by
  apply chain.congr
  intro d member
  have other : d ≠ a := fun same => apart (same ▸ member)
  exact Function.update_of_ne other _ _

theorem IsChain.node (chain : IsChain h start (xs ++ c :: ys)) :
    h c.1 = some ⟨c.2, first ys none⟩ :=
  ((segment_append h none xs _).mp chain.segment).2.1

theorem IsChain.apart (chain : IsChain h start (xs ++ ys)) :
    (xs.map Prod.fst).Nodup ∧ (ys.map Prod.fst).Nodup ∧
      ∀ a ∈ xs.map Prod.fst, a ∉ ys.map Prod.fst := by
  have distinct := chain.distinct
  rw [List.map_append, List.nodup_append] at distinct
  obtain ⟨left, right, apart⟩ := distinct
  exact ⟨left, right, fun a here there => apart a here a there rfl⟩

theorem IsChain.last_ne {l : List (Nat × α)} (chain : IsChain h start (l ++ c :: ys))
    (more : ys ≠ []) :
    last (some c.1) ys ≠ some c.1 := by
  obtain ⟨_, distinct, _⟩ := chain.apart
  obtain ⟨a, member, same⟩ := (last_mem (some c.1) ys).resolve_left fun none => more none.1
  rw [same]
  intro equal
  exact (List.nodup_cons.mp distinct).1 (Option.some.inj equal ▸ member)

/-- A node with others before it is not the first one. -/
theorem IsChain.ne_start (chain : IsChain h start (xs ++ c :: ys)) (more : xs ≠ []) :
    start ≠ some c.1 := by
  rw [chain.start]
  cases xs with
  | nil => exact absurd rfl more
  | cons d xs =>
      intro equal
      exact chain.apart.2.2 d.1 (by simp) (by simp [Option.some.inj equal])

theorem IsChain.tail (chain : IsChain h start (c :: ys)) : IsChain h (first ys none) ys :=
  ⟨chain.segment.2, (List.nodup_cons.mp chain.distinct).2, rfl⟩

/-- A node of its own put in front. -/
theorem IsChain.cons (chain : IsChain h start cells) (fresh : c.1 ∉ cells.map Prod.fst) :
    IsChain (Function.update h c.1 (some ⟨c.2, start⟩)) (some c.1) (c :: cells) := by
  refine ⟨⟨?_, ?_⟩, List.nodup_cons.mpr ⟨fresh, chain.distinct⟩, rfl⟩
  · rw [Function.update_self, chain.start]
  · apply chain.segment.congr
    intro a member
    have other : a ≠ c.1 := fun same => fresh (same ▸ member)
    rw [Function.update_of_ne other]

/-- A node of its own put behind the last one. -/
theorem IsChain.append (chain : IsChain h start (xs ++ [b]))
    (fresh : c.1 ∉ (xs ++ [b]).map Prod.fst) (new : h c.1 = some ⟨c.2, none⟩) :
    IsChain (Function.update h b.1 (some ⟨b.2, some c.1⟩)) start (xs ++ [b] ++ [c]) := by
  refine ⟨?_, ?_, ?_⟩
  · rw [segment_append]
    refine ⟨chain.segment.relink chain.distinct _, ?_, trivial⟩
    have other : c.1 ≠ b.1 := fun same => fresh (by simp [same])
    rw [Function.update_of_ne other]
    exact new
  · rw [List.map_append, List.nodup_append]
    refine ⟨chain.distinct, List.nodup_singleton _, ?_⟩
    intro a here d there same
    rw [List.mem_singleton.mp there] at same
    exact fresh (same ▸ here)
  · rw [chain.start, first_append (xs ++ [b])]
    cases xs <;> rfl

/-- The node before a node is made to lead past it. -/
theorem IsChain.remove (chain : IsChain h start (xs ++ b :: c :: ys)) :
    IsChain (Function.update h b.1 (some ⟨b.2, first ys none⟩)) start (xs ++ b :: ys) := by
  have split : xs ++ b :: c :: ys = (xs ++ [b]) ++ c :: ys := by simp
  rw [split] at chain
  obtain ⟨front, _, behind⟩ := (segment_append h none (xs ++ [b]) (c :: ys)).mp chain.segment
  obtain ⟨left, right, apart⟩ := chain.apart
  obtain ⟨_, right⟩ := List.nodup_cons.mp right
  have apart' : ∀ a ∈ (xs ++ [b]).map Prod.fst, a ∉ ys.map Prod.fst :=
    fun a here there => apart a here (List.mem_cons_of_mem _ there)
  have join : xs ++ b :: ys = (xs ++ [b]) ++ ys := by simp
  rw [join]
  refine ⟨?_, ?_, ?_⟩
  · rw [segment_append]
    refine ⟨front.relink left _, behind.congr ?_⟩
    intro a member
    have other : a ≠ b.1 := fun same => apart' b.1 (by simp) (same ▸ member)
    rw [Function.update_of_ne other]
  · rw [List.map_append, List.nodup_append]
    exact ⟨left, right, fun a here d there same => apart' a here (same ▸ there)⟩
  · rw [chain.start]
    cases xs <;> rfl

/-- A node is taken from its place and put in front. -/
theorem IsChain.moveFront (chain : IsChain h start (xs ++ b :: c :: ys)) :
    IsChain (Function.update (Function.update h b.1 (some ⟨b.2, first ys none⟩)) c.1
      (some ⟨c.2, start⟩)) (some c.1) (c :: (xs ++ b :: ys)) := by
  have split : xs ++ b :: c :: ys = (xs ++ [b]) ++ c :: ys := by simp
  have join : xs ++ b :: ys = (xs ++ [b]) ++ ys := by simp
  apply chain.remove.cons
  rw [split] at chain
  obtain ⟨_, right, apart⟩ := chain.apart
  rw [join, List.map_append, List.mem_append, not_or]
  exact ⟨fun member => apart _ member (by simp), (List.nodup_cons.mp right).1⟩

end Splice

/-- Following the pointers from `p` on leads to these addresses and values, and then to `NULL`. -/
inductive Walk (h : Heap α) : Option Nat → List (Nat × α) → Prop
  | nil : Walk h none []
  | cons {a : Nat} {node : Node α} {rest : List (Nat × α)} (here : h a = some node)
      (behind : Walk h node.next rest) : Walk h (some a) ((a, node.val) :: rest)

theorem Segment.walk {h : Heap α} {cells : List (Nat × α)} (segment : Segment h cells none) :
    Walk h (first cells none) cells := by
  induction cells with
  | nil => exact .nil
  | cons c rest ih => exact .cons segment.1 (ih segment.2)

theorem IsChain.walk {h : Heap α} {start : Option Nat} {cells : List (Nat × α)}
    (chain : IsChain h start cells) : Walk h start cells :=
  chain.start ▸ chain.segment.walk

section Access

/-- The node behind a pointer. -/
def deref (h : Heap α) (p : Option Nat) : Except Fault (Node α) :=
  match p with
  | none => .error .undefined
  | some a =>
      match h a with
      | none => .error .undefined
      | some node => .ok node

/-- The node behind a pointer is made to lead to another one. -/
def storeNext (h : Heap α) (p n : Option Nat) : Except Fault (Heap α) :=
  match p with
  | none => .error .undefined
  | some a =>
      match h a with
      | none => .error .undefined
      | some node => .ok (Function.update h a (some { node with next := n }))

/-- `free` of a node. -/
def free (h : Heap α) (p : Option Nat) : Except Fault (Heap α) :=
  match p with
  | none => .ok h
  | some a =>
      match h a with
      | none => .error .undefined
      | some _ => .ok (Function.update h a none)

theorem deref_some {h : Heap α} {a : Nat} {node : Node α} (found : h a = some node) :
    deref h (some a) = .ok node := by
  simp only [deref, found]

theorem storeNext_some {h : Heap α} {a : Nat} {node : Node α} (found : h a = some node)
    (n : Option Nat) :
    storeNext h (some a) n = .ok (Function.update h a (some { node with next := n })) := by
  simp only [storeNext, found]

theorem free_some {h : Heap α} {a : Nat} {node : Node α} (found : h a = some node) :
    free h (some a) = .ok (Function.update h a none) := by
  simp only [free, found]

def values (h : Heap α) : Nat → Option Nat → List α
  | 0, _ => []
  | _ + 1, none => []
  | fuel + 1, some a =>
      match h a with
      | none => []
      | some node => node.val :: values h fuel node.next

theorem Segment.values {h : Heap α} {cells : List (Nat × α)} (segment : Segment h cells none) :
    Chain.values h cells.length (first cells none) = cells.map Prod.snd := by
  induction cells with
  | nil => rfl
  | cons c rest ih =>
      change Chain.values h (rest.length + 1) (some c.1) = _
      rw [Chain.values, segment.1, List.map_cons, ← ih segment.2]

end Access

end Ece344Lab.Chain
