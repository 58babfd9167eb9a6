import Mathlib.Data.List.Basic
import Mathlib.Logic.Function.Basic
import Ece344Lab.Lib.Outcome

set_option autoImplicit false

/- Doubly linked lists on a heap of nodes. `Segment` says which nodes make up a stretch of a list;
`IsList` adds the two end pointers. -/
namespace Ece344Lab.Linked

variable {α : Type*}

/-- A value with the addresses of the nodes behind and before it. -/
structure Node (α : Type*) where
  val : α
  next : Option Nat
  prior : Option Nat

/-- The nodes that have been allocated and not freed. -/
abbrev Heap (α : Type*) := Nat → Option (Node α)

/-- The address of the first cell, or what comes behind the cells. -/
def first (cells : List (Nat × α)) (after : Option Nat) : Option Nat :=
  match cells with
  | [] => after
  | c :: _ => some c.1

/-- The address of the last cell, or what comes before the cells. -/
def last (before : Option Nat) : List (Nat × α) → Option Nat
  | [] => before
  | c :: rest => last (some c.1) rest

/-- The nodes at the addresses of the cells hold their values and are linked both ways. -/
def Segment (h : Heap α) : Option Nat → List (Nat × α) → Option Nat → Prop
  | _, [], _ => True
  | before, c :: rest, after =>
      h c.1 = some ⟨c.2, first rest after, before⟩ ∧ Segment h (some c.1) rest after

@[simp] theorem first_nil (after : Option Nat) : first ([] : List (Nat × α)) after = after := rfl

@[simp] theorem first_cons (c : Nat × α) (rest : List (Nat × α)) (after : Option Nat) :
    first (c :: rest) after = some c.1 := rfl

@[simp] theorem last_nil (before : Option Nat) : last before ([] : List (Nat × α)) = before := rfl

@[simp] theorem last_cons (c : Nat × α) (rest : List (Nat × α)) (before : Option Nat) :
    last before (c :: rest) = last (some c.1) rest := rfl

theorem first_append (xs ys : List (Nat × α)) (after : Option Nat) :
    first (xs ++ ys) after = first xs (first ys after) := by
  cases xs <;> rfl

theorem last_append (before : Option Nat) (xs ys : List (Nat × α)) :
    last before (xs ++ ys) = last (last before xs) ys := by
  induction xs generalizing before with
  | nil => rfl
  | cons c rest ih => exact ih (some c.1)

theorem last_eq_getLast? (before : Option Nat) (cells : List (Nat × α)) :
    last before cells = (cells.map Prod.fst).getLast?.or before := by
  induction cells generalizing before with
  | nil => rfl
  | cons c rest ih =>
      rw [last_cons, ih, List.map_cons, List.getLast?_cons]
      cases (rest.map Prod.fst).getLast? <;> rfl

/-- The last address is among the addresses, or there are no cells. -/
theorem last_mem (before : Option Nat) (cells : List (Nat × α)) :
    (cells = [] ∧ last before cells = before) ∨
      ∃ a ∈ cells.map Prod.fst, last before cells = some a := by
  induction cells generalizing before with
  | nil => exact Or.inl ⟨rfl, rfl⟩
  | cons c rest ih =>
      refine Or.inr ?_
      cases ih (some c.1) with
      | inl none => exact ⟨c.1, by simp, none.2⟩
      | inr some =>
          obtain ⟨a, member, same⟩ := some
          exact ⟨a, by simp only [List.map_cons, List.mem_cons]; exact Or.inr member, same⟩

theorem first_mem (cells : List (Nat × α)) (after : Option Nat) :
    (cells = [] ∧ first cells after = after) ∨
      ∃ a ∈ cells.map Prod.fst, first cells after = some a := by
  cases cells with
  | nil => exact Or.inl ⟨rfl, rfl⟩
  | cons c rest => exact Or.inr ⟨c.1, by simp, rfl⟩

theorem first_ne_of_apart {xs ys : List (Nat × α)}
    (apart : ∀ c ∈ xs.map Prod.fst, c ∉ ys.map Prod.fst) :
    ∀ c ∈ xs.map Prod.fst, first ys none ≠ some c := by
  intro c member equal
  cases first_mem ys none with
  | inl nil =>
      rw [nil.2] at equal
      cases equal
  | inr some =>
      obtain ⟨d, member', same⟩ := some
      rw [same] at equal
      exact apart c member (Option.some.inj equal ▸ member')

theorem last_ne_of_apart {xs ys : List (Nat × α)}
    (apart : ∀ c ∈ xs.map Prod.fst, c ∉ ys.map Prod.fst) :
    ∀ c ∈ ys.map Prod.fst, last none xs ≠ some c := by
  intro c member equal
  cases last_mem none xs with
  | inl nil =>
      rw [nil.2] at equal
      cases equal
  | inr some =>
      obtain ⟨d, member', same⟩ := some
      rw [same] at equal
      exact apart d member' ((Option.some.inj equal).symm ▸ member)

theorem segment_append (h : Heap α) (before after : Option Nat) (xs ys : List (Nat × α)) :
    Segment h before (xs ++ ys) after ↔
      Segment h before xs (first ys after) ∧ Segment h (last before xs) ys after := by
  induction xs generalizing before with
  | nil => exact ⟨fun held => ⟨trivial, held⟩, fun held => held.2⟩
  | cons c rest ih =>
      simp only [List.cons_append, Segment, first_append, ih, last_cons, and_assoc]

theorem Segment.congr {h h' : Heap α} {before after : Option Nat} {cells : List (Nat × α)}
    (segment : Segment h before cells after) (same : ∀ a ∈ cells.map Prod.fst, h' a = h a) :
    Segment h' before cells after := by
  induction cells generalizing before with
  | nil => trivial
  | cons c rest ih =>
      refine ⟨?_, ih segment.2 fun a member => same a (List.mem_cons_of_mem _ member)⟩
      rw [same c.1 (by simp)]
      exact segment.1

/-- The last node is linked to something else. -/
theorem Segment.relink_next {h h' : Heap α} {before after after' : Option Nat}
    {cells : List (Nat × α)} (segment : Segment h before cells after)
    (distinct : (cells.map Prod.fst).Nodup)
    (changed : cells ≠ [] → ∀ a node, last before cells = some a → h a = some node →
      h' a = some { node with next := after' })
    (same : ∀ a ∈ cells.map Prod.fst, last before cells ≠ some a → h' a = h a) :
    Segment h' before cells after' := by
  induction cells generalizing before with
  | nil => trivial
  | cons c rest ih =>
      obtain ⟨here, behind⟩ := segment
      obtain ⟨apart, distinct⟩ := List.nodup_cons.mp distinct
      cases rest with
      | nil => exact ⟨changed (by simp) _ _ rfl here, trivial⟩
      | cons d rest =>
          constructor
          · rw [same c.1 (by simp), here]
            · rfl
            · intro equal
              cases last_mem (some c.1) (d :: rest) with
              | inl none => exact absurd none.1 (by simp)
              | inr some =>
                  obtain ⟨a, member, other⟩ := some
                  rw [last_cons, other] at equal
                  exact apart (Option.some.inj equal ▸ member)
          · apply ih behind distinct
            · exact fun _ a node equal => changed (by simp) a node equal
            · exact fun a member => same a (List.mem_cons_of_mem _ member)

/-- The first node is linked back to something else. -/
theorem Segment.relink_prior {h h' : Heap α} {before before' after : Option Nat}
    {cells : List (Nat × α)} (segment : Segment h before cells after)
    (distinct : (cells.map Prod.fst).Nodup)
    (changed : ∀ a node, first cells none = some a → h a = some node →
      h' a = some { node with prior := before' })
    (same : ∀ a ∈ cells.map Prod.fst, first cells none ≠ some a → h' a = h a) :
    Segment h' before' cells after := by
  cases cells with
  | nil => trivial
  | cons c rest =>
      obtain ⟨here, behind⟩ := segment
      obtain ⟨apart, _⟩ := List.nodup_cons.mp distinct
      refine ⟨changed _ _ rfl here, behind.congr fun a member => ?_⟩
      apply same a (List.mem_cons_of_mem _ member)
      intro equal
      exact apart (Option.some.inj equal ▸ member)

theorem Segment.found {h : Heap α} {before after : Option Nat} {cells : List (Nat × α)}
    (segment : Segment h before cells after) {a : Nat} (member : a ∈ cells.map Prod.fst) :
    ∃ node, h a = some node := by
  induction cells generalizing before with
  | nil => cases member
  | cons c rest ih =>
      cases List.mem_cons.mp member with
      | inl same =>
          rw [same]
          exact ⟨_, segment.1⟩
      | inr later => exact ih segment.2 later

/-- The cells make up the list that the two pointers lead to. -/
structure IsList (h : Heap α) (start finish : Option Nat) (cells : List (Nat × α)) : Prop where
  segment : Segment h none cells none
  distinct : (cells.map Prod.fst).Nodup
  start : start = first cells none
  finish : finish = last none cells

section Splice

variable {h h' : Heap α} {start start' finish finish' : Option Nat} {xs ys : List (Nat × α)}
    {a : Nat} {v : α}

theorem IsList.node (list : IsList h start finish (xs ++ (a, v) :: ys)) :
    h a = some ⟨v, first ys none, last none xs⟩ :=
  ((segment_append h none none xs _).mp list.segment).2.1

theorem IsList.apart (list : IsList h start finish (xs ++ ys)) :
    (xs.map Prod.fst).Nodup ∧ (ys.map Prod.fst).Nodup ∧
      ∀ c ∈ xs.map Prod.fst, c ∉ ys.map Prod.fst := by
  have distinct := list.distinct
  rw [List.map_append, List.nodup_append] at distinct
  obtain ⟨left, right, apart⟩ := distinct
  exact ⟨left, right, fun c here there => apart c here c there rfl⟩

/-- A node of its own put between two neighbours. -/
theorem IsList.insert (list : IsList h start finish (xs ++ ys))
    (fresh : a ∉ (xs ++ ys).map Prod.fst)
    (new : h' a = some ⟨v, first ys none, last none xs⟩)
    (left : ∀ c node, last none xs = some c → h c = some node →
      h' c = some { node with next := some a })
    (right : ∀ c node, first ys none = some c → h c = some node →
      h' c = some { node with prior := some a })
    (others : ∀ c, c ≠ a → last none xs ≠ some c → first ys none ≠ some c → h' c = h c)
    (begins : start' = first (xs ++ (a, v) :: ys) none)
    (ends : finish' = last none (xs ++ (a, v) :: ys)) :
    IsList h' start' finish' (xs ++ (a, v) :: ys) := by
  obtain ⟨front, behind⟩ := (segment_append h none none xs ys).mp list.segment
  obtain ⟨distinct, distinct', apart⟩ := list.apart
  rw [List.map_append, List.mem_append, not_or] at fresh
  have before := first_ne_of_apart apart
  have after := last_ne_of_apart apart
  refine ⟨?_, ?_, begins, ends⟩
  · rw [segment_append]
    refine ⟨?_, new, ?_⟩
    · apply front.relink_next distinct
      · exact fun _ c node equal found => left c node equal found
      · intro c member other
        exact others c (fun same => fresh.1 (same ▸ member)) other (before c member)
    · apply behind.relink_prior distinct' right
      intro c member other
      exact others c (fun same => fresh.2 (same ▸ member)) (after c member) other
  · rw [List.map_append, List.map_cons, List.nodup_append]
    refine ⟨distinct, List.nodup_cons.mpr ⟨fresh.2, distinct'⟩, ?_⟩
    intro c here d there same
    cases List.mem_cons.mp there with
    | inl equal =>
        rw [same, equal] at here
        exact fresh.1 here
    | inr member => exact apart c here (same ▸ member)

/-- The neighbours of a node linked to each other. -/
theorem IsList.remove (list : IsList h start finish (xs ++ (a, v) :: ys))
    (left : ∀ c node, last none xs = some c → h c = some node →
      h' c = some { node with next := first ys none })
    (right : ∀ c node, first ys none = some c → h c = some node →
      h' c = some { node with prior := last none xs })
    (others : ∀ c, c ≠ a → last none xs ≠ some c → first ys none ≠ some c → h' c = h c)
    (begins : start' = first (xs ++ ys) none) (ends : finish' = last none (xs ++ ys)) :
    IsList h' start' finish' (xs ++ ys) := by
  obtain ⟨front, _, behind⟩ := (segment_append h none none xs _).mp list.segment
  obtain ⟨distinct, distinct', apart⟩ := list.apart
  obtain ⟨fresh, distinct'⟩ := List.nodup_cons.mp distinct'
  have apart' : ∀ c ∈ xs.map Prod.fst, c ∉ ys.map Prod.fst :=
    fun c here there => apart c here (List.mem_cons_of_mem _ there)
  have before := first_ne_of_apart apart'
  have after := last_ne_of_apart apart'
  refine ⟨?_, ?_, begins, ends⟩
  · rw [segment_append]
    constructor
    · apply front.relink_next distinct
      · exact fun _ c node equal found => left c node equal found
      · intro c member other
        refine others c (fun same => ?_) other (before c member)
        exact apart c member (same ▸ List.mem_cons_self)
    · apply behind.relink_prior distinct' right
      intro c member other
      exact others c (fun same => fresh (same ▸ member)) (after c member) other
  · rw [List.map_append, List.nodup_append]
    exact ⟨distinct, distinct', fun c here d there same => apart' c here (same ▸ there)⟩

theorem IsList.append {ys : List (Nat × α)} {start₂ finish₂ : Option Nat}
    (front : IsList h start finish xs) (back : IsList h start₂ finish₂ ys)
    (apart : ∀ c ∈ xs.map Prod.fst, c ∉ ys.map Prod.fst)
    (left : ∀ c node, last none xs = some c → h c = some node →
      h' c = some { node with next := first ys none })
    (right : ∀ c node, first ys none = some c → h c = some node →
      h' c = some { node with prior := last none xs })
    (others : ∀ c, last none xs ≠ some c → first ys none ≠ some c → h' c = h c)
    (begins : start' = first (xs ++ ys) none) (ends : finish' = last none (xs ++ ys)) :
    IsList h' start' finish' (xs ++ ys) := by
  have before := first_ne_of_apart apart
  have after := last_ne_of_apart apart
  refine ⟨(segment_append _ _ _ _ _).mpr ⟨?_, ?_⟩, ?_, begins, ends⟩
  · apply front.segment.relink_next front.distinct
    · exact fun _ c node equal found => left c node equal found
    · exact fun c member other => others c other (before c member)
  · apply back.segment.relink_prior back.distinct right
    exact fun c member other => others c (after c member) other
  · rw [List.map_append, List.nodup_append]
    exact ⟨front.distinct, back.distinct, fun c here d there same => apart c here (same ▸ there)⟩

end Splice

/-- The values that following `next` leads to. -/
inductive Forward (h : Heap α) : Option Nat → List α → Prop
  | nil : Forward h none []
  | cons {a : Nat} {node : Node α} {rest : List α} (here : h a = some node)
      (behind : Forward h node.next rest) : Forward h (some a) (node.val :: rest)

/-- The values that following `prior` leads to. -/
inductive Backward (h : Heap α) : Option Nat → List α → Prop
  | nil : Backward h none []
  | cons {a : Nat} {node : Node α} {rest : List α} (here : h a = some node)
      (before : Backward h node.prior rest) : Backward h (some a) (node.val :: rest)

theorem Segment.forward {h : Heap α} {before : Option Nat} {cells : List (Nat × α)}
    (segment : Segment h before cells none) :
    Forward h (first cells none) (cells.map Prod.snd) := by
  induction cells generalizing before with
  | nil => exact .nil
  | cons c rest ih => exact .cons segment.1 (ih segment.2)

theorem Segment.backward {h : Heap α} {cells : List (Nat × α)} :
    ∀ {before after : Option Nat} {values : List α}, Segment h before cells after →
      Backward h before values →
      Backward h (last before cells) ((cells.map Prod.snd).reverse ++ values) := by
  induction cells with
  | nil => exact fun _ behind => behind
  | cons c rest ih =>
      intro before after values segment behind
      have step : Backward h (some c.1) (c.2 :: values) := .cons segment.1 behind
      have whole := ih segment.2 step
      rw [List.map_cons, List.reverse_cons, List.append_assoc]
      exact whole

theorem IsList.forward {h : Heap α} {start finish : Option Nat} {cells : List (Nat × α)}
    (list : IsList h start finish cells) : Forward h start (cells.map Prod.snd) := by
  rw [list.start]
  exact list.segment.forward

theorem IsList.backward {h : Heap α} {start finish : Option Nat} {cells : List (Nat × α)}
    (list : IsList h start finish cells) : Backward h finish (cells.map Prod.snd).reverse := by
  have whole := list.segment.backward .nil
  rw [List.append_nil, ← list.finish] at whole
  exact whole

/-- Following `next` from a pointer on leads to these addresses and values, and then to `NULL`. -/
inductive Walk (h : Heap α) : Option Nat → List (Nat × α) → Prop
  | nil : Walk h none []
  | cons {a : Nat} {node : Node α} {rest : List (Nat × α)} (here : h a = some node)
      (behind : Walk h node.next rest) : Walk h (some a) ((a, node.val) :: rest)

/-- Following `prior` from a pointer on leads to these addresses and values, and then to `NULL`. -/
inductive WalkBack (h : Heap α) : Option Nat → List (Nat × α) → Prop
  | nil : WalkBack h none []
  | cons {a : Nat} {node : Node α} {rest : List (Nat × α)} (here : h a = some node)
      (before : WalkBack h node.prior rest) : WalkBack h (some a) ((a, node.val) :: rest)

theorem Segment.walk {h : Heap α} {before : Option Nat} {cells : List (Nat × α)}
    (segment : Segment h before cells none) : Walk h (first cells none) cells := by
  induction cells generalizing before with
  | nil => exact .nil
  | cons c rest ih => exact .cons segment.1 (ih segment.2)

theorem Segment.walkBack {h : Heap α} {cells : List (Nat × α)} :
    ∀ {before after : Option Nat} {front : List (Nat × α)}, Segment h before cells after →
      WalkBack h before front → WalkBack h (last before cells) (cells.reverse ++ front) := by
  induction cells with
  | nil => exact fun _ behind => behind
  | cons c rest ih =>
      intro before after front segment behind
      have step : WalkBack h (some c.1) (c :: front) := .cons segment.1 behind
      rw [List.reverse_cons, List.append_assoc]
      exact ih segment.2 step

theorem IsList.walk {h : Heap α} {start finish : Option Nat} {cells : List (Nat × α)}
    (list : IsList h start finish cells) : Walk h start cells :=
  list.start ▸ list.segment.walk

theorem IsList.walkBack {h : Heap α} {start finish : Option Nat} {cells : List (Nat × α)}
    (list : IsList h start finish cells) : WalkBack h finish cells.reverse := by
  have whole := list.segment.walkBack .nil
  rwa [List.append_nil, ← list.finish] at whole

/-- Only nodes at some addresses have changed. -/
def Within (own : List Nat) (h h' : Heap α) : Prop := ∀ a, a ∉ own → h' a = h a

section Within

variable {h h' : Heap α} {own : List Nat} {a : Nat} {start finish : Option Nat}
  {cells : List (Nat × α)}

theorem Within.refl (own : List Nat) (h : Heap α) : Within own h h := fun _ _ => rfl

theorem Within.update (within : Within own h h') (member : a ∈ own) (node : Option (Node α)) :
    Within own h (Function.update h' a node) := by
  intro c outside
  have other : c ≠ a := fun same => outside (same ▸ member)
  rw [Function.update_of_ne other]
  exact within c outside

theorem Within.trans {h'' : Heap α} (first : Within own h h') (second : Within own h' h'') :
    Within own h h'' :=
  fun a outside => (second a outside).trans (first a outside)

theorem Within.mono {own' : List Nat} (within : Within own h h') (more : ∀ a ∈ own, a ∈ own') :
    Within own' h h' :=
  fun a outside => within a fun member => outside (more a member)

/-- A list elsewhere is as it was. -/
theorem IsList.within (list : IsList h start finish cells) (within : Within own h h')
    (apart : ∀ a ∈ cells.map Prod.fst, a ∉ own) : IsList h' start finish cells :=
  ⟨list.segment.congr fun a member => within a (apart a member), list.distinct, list.start,
    list.finish⟩

end Within

section Access

def deref (h : Heap α) (p : Option Nat) : Except Fault (Node α) :=
  match p with
  | none => .error .undefined
  | some a =>
      match h a with
      | none => .error .undefined
      | some node => .ok node

/-- The node behind a pointer is linked to another one. -/
def storeNext (h : Heap α) (p n : Option Nat) : Except Fault (Heap α) :=
  match p with
  | none => .error .undefined
  | some a =>
      match h a with
      | none => .error .undefined
      | some node => .ok (Function.update h a (some { node with next := n }))

/-- The node behind a pointer is linked back to another one. -/
def storePrior (h : Heap α) (p n : Option Nat) : Except Fault (Heap α) :=
  match p with
  | none => .error .undefined
  | some a =>
      match h a with
      | none => .error .undefined
      | some node => .ok (Function.update h a (some { node with prior := n }))

def free (h : Heap α) (p : Option Nat) : Except Fault (Heap α) :=
  match p with
  | none => .ok h
  | some a =>
      match h a with
      | none => .error .undefined
      | some _ => .ok (Function.update h a none)

theorem deref_some {h : Heap α} {a : Nat} {node : Node α} (found : h a = some node) :
    deref h (some a) = .ok node := by
  simp only [deref, found]

theorem storeNext_some {h : Heap α} {a : Nat} {node : Node α} (found : h a = some node)
    (n : Option Nat) :
    storeNext h (some a) n = .ok (Function.update h a (some { node with next := n })) := by
  simp only [storeNext, found]

theorem storePrior_some {h : Heap α} {a : Nat} {node : Node α} (found : h a = some node)
    (n : Option Nat) :
    storePrior h (some a) n = .ok (Function.update h a (some { node with prior := n })) := by
  simp only [storePrior, found]

theorem free_some {h : Heap α} {a : Nat} {node : Node α} (found : h a = some node) :
    free h (some a) = .ok (Function.update h a none) := by
  simp only [free, found]

theorem deref_storeNext {h h' : Heap α} {p n : Option Nat} (stored : storeNext h p n = .ok h') :
    ∃ node, deref h' p = .ok node ∧ node.next = n := by
  cases p with
  | none => cases stored
  | some a =>
      cases found : h a with
      | none =>
          simp only [storeNext, found] at stored
          cases stored
      | some node =>
          rw [storeNext_some found] at stored
          obtain rfl := Except.ok.inj stored
          exact ⟨_, deref_some (Function.update_self _ _ _), rfl⟩

/-- The two links of a node can be stored in either order. -/
theorem storeNext_storePrior (h : Heap α) (p n m : Option Nat) :
    (storeNext h p n >>= fun h => storePrior h p m) =
      storePrior h p m >>= fun h => storeNext h p n := by
  cases p with
  | none => rfl
  | some a =>
      cases found : h a with
      | none => simp only [storeNext, storePrior, found, Outcome.error_bind]
      | some node =>
          rw [storeNext_some found, storePrior_some found, Outcome.ok_bind, Outcome.ok_bind,
            storePrior_some (Function.update_self _ _ _),
            storeNext_some (Function.update_self _ _ _), Function.update_idem,
            Function.update_idem]

end Access

end Ece344Lab.Linked
