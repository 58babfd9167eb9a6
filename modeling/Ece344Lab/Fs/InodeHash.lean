import Ece344Lab.Lib.Chained
import Ece344Lab.Lib.Linked
import Ece344Lab.Fs.InodeTable

set_option autoImplicit false

/- The inode hash table with its pointers. -/
namespace Ece344Lab.Fs

open Outcome
open Linked (first first_append first_nil first_cons)

/-- What the `pprev` of a node points to: the head of a chain, or the `next` of the node before it.
-/
inductive Pprev
  | head (bucket : Nat)
  | next (node : Nat)

/-- A `struct inode` with its `hnode`. -/
structure HlistNode where
  inode : Inode
  next : Option Nat
  pprev : Option Pprev

/-- `inode_hash_table`, and the inodes that have been allocated and not freed. -/
structure InodeHash where
  heads : Nat → Option Nat
  nodes : Nat → Option HlistNode

def hashInt (val bits : Nat) : Nat := (val * 0x9e370001 % 2 ^ 32) >>> (32 - bits)

def inodeHashfn (nr : Nat) : Nat := hashInt (nr % 2 ^ 32) 8

def inodeHashInit : InodeHash where
  heads _ := none
  nodes _ := none

namespace InodeHash

/-- `*pprev = p`. -/
def store (t : InodeHash) (pprev : Pprev) (p : Option Nat) : Except Halt InodeHash :=
  match pprev with
  | .head b => .ok { t with heads := Function.update t.heads b p }
  | .next m =>
      match t.nodes m with
      | none => .error .undefined
      | some node =>
        .ok { t with nodes := Function.update t.nodes m (some { node with next := p }) }

/-- `p->pprev = pprev`. -/
def storePprev (t : InodeHash) (p : Nat) (pprev : Option Pprev) : Except Halt InodeHash :=
  match t.nodes p with
  | none => .error .undefined
  | some node => .ok { t with nodes := Function.update t.nodes p (some { node with pprev }) }

/-- `if (p) p->pprev = pprev`. -/
def storePprevIf (t : InodeHash) (p : Option Nat) (pprev : Pprev) : Except Halt InodeHash :=
  match p with
  | none => .ok t
  | some p => t.storePprev p (some pprev)

def hlistAddHead (t : InodeHash) (n bucket : Nat) : Except Halt InodeHash := do
  let first := t.heads bucket
  let t ← t.store (.next n) first
  let t ← t.storePprevIf first (.next n)
  let t ← t.store (.head bucket) (some n)
  t.storePprev n (some (.head bucket))

def hlistDel (t : InodeHash) (n : Nat) : Except Halt InodeHash :=
  match t.nodes n with
  | none => .error .undefined
  | some node =>
      match node.pprev with
      | none => .error .undefined
      | some pprev => do
          let t ← t.store pprev node.next
          let t ← t.storePprevIf node.next pprev
          let t ← t.store (.next n) none
          t.storePprev n none

/-- `inode_hash_insert`, for an inode that has been allocated at `n`. -/
def insert (t : InodeHash) (n : Nat) (inode : Inode) : Except Halt InodeHash :=
  let t := { t with nodes := Function.update t.nodes n (some ⟨inode, none, none⟩) }
  t.hlistAddHead n (inodeHashfn inode.iNr)

/-- `inode_hash_remove`, and the `free` behind it. -/
def remove (t : InodeHash) (n : Nat) : Except Halt InodeHash := do
  let t ← t.hlistDel n
  .ok { t with nodes := Function.update t.nodes n none }

/-- A write through a `struct inode *`. -/
def write (t : InodeHash) (n : Nat) (inode : Inode) : Except Halt InodeHash :=
  match t.nodes n with
  | none => .error .undefined
  | some node => .ok { t with nodes := Function.update t.nodes n (some { node with inode }) }

/-- The loop of `inode_hash_find`. -/
def findLoop (t : InodeHash) (nr : Nat) : Nat → Option Nat → Except Halt (Option Nat)
  | _, none => .ok none
  | 0, some _ => .error .diverges
  | fuel + 1, some n =>
      match t.nodes n with
      | none => .error .undefined
      | some node => if node.inode.iNr = nr then .ok (some n) else findLoop t nr fuel node.next

/-- `inode_hash_find`, with as many rounds as it may take. -/
def find (t : InodeHash) (fuel nr : Nat) : Except Halt (Option Nat) :=
  t.findLoop nr fuel (t.heads (inodeHashfn nr))

/-- The assertions of `inode_hash_destroy`. -/
def allEmpty (t : InodeHash) : Prop := ∀ b < 256, t.heads b = none

/-- A stretch of a chain: the nodes at the addresses of the cells hold their inodes, and `pprev` of
each one points to what leads to it. -/
def Segment (nodes : Nat → Option HlistNode) : Pprev → List (Nat × Inode) → Option Nat → Prop
  | _, [], _ => True
  | pprev, c :: rest, after =>
      nodes c.1 = some ⟨c.2, first rest after, some pprev⟩ ∧ Segment nodes (.next c.1) rest after

/-- What leads to the node behind a stretch. -/
def behind (pprev : Pprev) : List (Nat × Inode) → Pprev
  | [] => pprev
  | c :: rest => behind (.next c.1) rest

section Segments

variable {nodes nodes' : Nat → Option HlistNode} {pprev : Pprev} {xs ys : List (Nat × Inode)}
    {after : Option Nat}

theorem segment_append : Segment nodes pprev (xs ++ ys) after ↔
    Segment nodes pprev xs (first ys after) ∧ Segment nodes (behind pprev xs) ys after := by
  induction xs generalizing pprev with
  | nil => exact ⟨fun segment => ⟨trivial, segment⟩, And.right⟩
  | cons c xs ih =>
      simp only [List.cons_append, Segment, behind, first_append, ih, and_assoc]

theorem behind_concat (c : Nat × Inode) : behind pprev (xs ++ [c]) = .next c.1 := by
  induction xs generalizing pprev with
  | nil => rfl
  | cons d xs ih => exact ih

theorem Segment.congr (segment : Segment nodes pprev xs after)
    (same : ∀ a ∈ xs.map Prod.fst, nodes' a = nodes a) : Segment nodes' pprev xs after := by
  induction xs generalizing pprev with
  | nil => trivial
  | cons c xs ih =>
      obtain ⟨node, later⟩ := segment
      rw [List.map_cons] at same
      refine ⟨(same c.1 List.mem_cons_self).trans node, ih later ?_⟩
      exact fun a member => same a (List.mem_cons_of_mem _ member)

theorem Segment.found (segment : Segment nodes pprev xs after) {c : Nat × Inode} (member : c ∈ xs) :
    ∃ node, nodes c.1 = some node ∧ node.inode = c.2 := by
  induction xs generalizing pprev with
  | nil => exact absurd member List.not_mem_nil
  | cons d xs ih =>
      obtain ⟨node, later⟩ := segment
      rcases List.mem_cons.mp member with rfl | inner
      · exact ⟨_, node, rfl⟩
      · exact ih later inner

/-- The pointer that leads behind a stretch is written. -/
theorem Segment.store {t : InodeHash} {b : Nat} (segment : Segment t.nodes (.head b) xs after)
    (distinct : (xs.map Prod.fst).Nodup) (start : t.heads b = first xs after) (p : Option Nat) :
    ∃ t', t.store (behind (.head b) xs) p = .ok t' ∧ Segment t'.nodes (.head b) xs p ∧
      t'.heads = Function.update t.heads b (first xs p) ∧
      ∀ a ∉ xs.map Prod.fst, t'.nodes a = t.nodes a := by
  rcases List.eq_nil_or_concat' xs with rfl | ⟨front, c, rfl⟩
  · exact ⟨_, rfl, trivial, rfl, fun _ _ => rfl⟩
  · obtain ⟨inner, node, _⟩ := segment_append.mp segment
    rw [List.map_append, List.map_singleton] at distinct
    have outside : c.1 ∉ front.map Prod.fst := fun inside =>
      (List.nodup_append.mp distinct).2.2 c.1 inside c.1 (List.mem_singleton_self _) rfl
    have head : first (front ++ [c]) after = first (front ++ [c]) p := by
      cases front <;> rfl
    refine ⟨{ t with
        nodes := Function.update t.nodes c.1 (some ⟨c.2, p, some (behind (.head b) front)⟩) }, ?_,
      segment_append.mpr ⟨inner.congr ?_, Function.update_self _ _ _, trivial⟩, ?_, ?_⟩
    · rw [behind_concat]
      unfold InodeHash.store
      dsimp only
      rw [node]
    · intro a member
      exact Function.update_of_ne (fun same : a = c.1 => outside (same ▸ member)) _ _
    · rw [← head, ← start, Function.update_eq_self]
    · intro a absent
      rw [List.map_append, List.mem_append, not_or] at absent
      have other : a ≠ c.1 := fun same => absent.2 (List.mem_singleton.mpr same)
      exact Function.update_of_ne other _ _

/-- The first node of a stretch is led to from elsewhere. -/
theorem Segment.storePprev {t : InodeHash} (segment : Segment t.nodes pprev xs none)
    (distinct : (xs.map Prod.fst).Nodup) (pprev' : Pprev) :
    ∃ t', t.storePprevIf (first xs none) pprev' = .ok t' ∧ Segment t'.nodes pprev' xs none ∧
      t'.heads = t.heads ∧ ∀ a ∉ xs.map Prod.fst, t'.nodes a = t.nodes a := by
  cases xs with
  | nil => exact ⟨t, rfl, trivial, rfl, fun _ _ => rfl⟩
  | cons c xs =>
      obtain ⟨node, later⟩ := segment
      rw [List.map_cons, List.nodup_cons] at distinct
      refine ⟨{ t with
          nodes := Function.update t.nodes c.1 (some ⟨c.2, first xs none, some pprev'⟩) }, ?_,
        ⟨Function.update_self _ _ _, later.congr ?_⟩, rfl, ?_⟩
      · unfold InodeHash.storePprevIf InodeHash.storePprev
        rw [first_cons]
        dsimp only
        rw [node]
      · intro a member
        exact Function.update_of_ne (fun same : a = c.1 => distinct.1 (same ▸ member)) _ _
      · intro a absent
        rw [List.map_cons, List.mem_cons, not_or] at absent
        exact Function.update_of_ne absent.1 _ _

end Segments

/-- The number that an inode is found by. -/
def number (c : Nat × Inode) : Nat := c.2.iNr

/-- The chains that the pointers make up. -/
structure Represents (t : InodeHash) (chains : Chained.Chains (Nat × Inode)) : Prop where
  heads : ∀ b, t.heads b = first (chains b) none
  chain : ∀ b, Segment t.nodes (.head b) (chains b) none
  distinct : ∀ b, ((chains b).map Prod.fst).Nodup
  apart : ∀ b b', b ≠ b' → ∀ a ∈ (chains b).map Prod.fst, a ∉ (chains b').map Prod.fst
  placed : Chained.Placed number inodeHashfn chains

section Steps

variable {t : InodeHash} {chains : Chained.Chains (Nat × Inode)}

theorem represents_init : inodeHashInit.Represents fun _ => [] where
  heads _ := rfl
  chain _ := trivial
  distinct _ := List.nodup_nil
  apart _ _ _ _ member := absurd member List.not_mem_nil
  placed := Chained.placed_empty

theorem Represents.fresh (represents : t.Represents chains) {n : Nat}
    (fresh : t.nodes n = none) (b : Nat) :
    n ∉ (chains b).map Prod.fst := by
  intro member
  obtain ⟨c, inside, rfl⟩ := List.mem_map.mp member
  obtain ⟨node, found, _⟩ := (represents.chain b).found inside
  rw [fresh] at found
  cases found

/-- `inode_hash_insert` links the new node in before the chain. -/
theorem Segment.insert {b n : Nat} {inode : Inode} {xs : List (Nat × Inode)}
    (chain : Segment t.nodes (.head b) xs none) (distinct : (xs.map Prod.fst).Nodup)
    (start : t.heads b = first xs none) (outside : n ∉ xs.map Prod.fst)
    (home : inodeHashfn inode.iNr = b) :
    ∃ t', t.insert n inode = .ok t' ∧ Segment t'.nodes (.head b) ((n, inode) :: xs) none ∧
      t'.heads = Function.update t.heads b (some n) ∧
      ∀ a ∉ ((n, inode) :: xs).map Prod.fst, t'.nodes a = t.nodes a := by
  let t₁ : InodeHash :=
    { t with nodes := Function.update t.nodes n (some ⟨inode, first xs none, none⟩) }
  have old : Segment t₁.nodes (.head b) xs none := chain.congr fun a member =>
    Function.update_of_ne (fun same : a = n => outside (same ▸ member)) _ _
  obtain ⟨t₂, ran, later, heads, same⟩ := old.storePprev distinct (.next n)
  have own : t₂.nodes n = some ⟨inode, first xs none, none⟩ := by
    rw [same n outside]
    exact Function.update_self _ _ _
  refine ⟨⟨Function.update t₂.heads b (some n),
    Function.update t₂.nodes n (some ⟨inode, first xs none, some (.head b)⟩)⟩, ?_, ?_, ?_, ?_⟩
  · unfold InodeHash.insert hlistAddHead InodeHash.store InodeHash.storePprev
    rw [home]
    dsimp only
    rw [start, Function.update_self, ok_bind]
    dsimp only
    rw [Function.update_idem, ran, ok_bind, ok_bind]
    dsimp only
    rw [own]
  · exact ⟨Function.update_self _ _ _, later.congr fun a member =>
      Function.update_of_ne (fun equal : a = n => outside (equal ▸ member)) _ _⟩
  · rw [heads]
  · intro a absent
    rw [List.map_cons, List.mem_cons, not_or] at absent
    exact (Function.update_of_ne absent.1 _ _).trans
      ((same a absent.2).trans (Function.update_of_ne absent.1 _ _))

/-- `inode_hash_remove` leads past the node, which is then free. -/
theorem Segment.remove {b n : Nat} {inode : Inode} {front back : List (Nat × Inode)}
    (chain : Segment t.nodes (.head b) (front ++ (n, inode) :: back) none)
    (distinct : ((front ++ (n, inode) :: back).map Prod.fst).Nodup)
    (start : t.heads b = first (front ++ (n, inode) :: back) none) :
    ∃ t', t.remove n = .ok t' ∧ Segment t'.nodes (.head b) (front ++ back) none ∧
      t'.heads = Function.update t.heads b (first (front ++ back) none) ∧
      ∀ a ∉ (front ++ (n, inode) :: back).map Prod.fst, t'.nodes a = t.nodes a := by
  rw [List.map_append, List.map_cons] at distinct
  obtain ⟨before, node, after⟩ := segment_append.mp chain
  obtain ⟨frontDistinct, inner, crossed⟩ := List.nodup_append.mp distinct
  obtain ⟨notBack, backDistinct⟩ := List.nodup_cons.mp inner
  have notFront : n ∉ front.map Prod.fst := fun inside => crossed n inside n List.mem_cons_self rfl
  have disjoint : ∀ a ∈ back.map Prod.fst, a ∉ front.map Prod.fst := fun a inside inside' =>
    crossed a inside' a (List.mem_cons_of_mem _ inside) rfl
  rw [first_append] at start
  -- the pointer behind the front, then the one back from the node behind
  obtain ⟨t₁, ran₁, before₁, heads₁, same₁⟩ := before.store frontDistinct start (first back none)
  have after₁ : Segment t₁.nodes (.next n) back none :=
    after.congr fun a inside => same₁ a (disjoint a inside)
  obtain ⟨t₂, ran₂, after₂, heads₂, same₂⟩ :=
    after₁.storePprev backDistinct (behind (.head b) front)
  have before₂ : Segment t₂.nodes (.head b) front (first back none) :=
    before₁.congr fun a inside => same₂ a fun inside' => disjoint a inside' inside
  have node₂ : t₂.nodes n = some ⟨inode, first back none, some (behind (.head b) front)⟩ := by
    rw [same₂ n notBack, same₁ n notFront]
    exact node
  have outside : ∀ a ∈ (front ++ back).map Prod.fst, a ≠ n := by
    intro a inside
    rw [List.map_append, List.mem_append] at inside
    rintro rfl
    exact inside.elim notFront notBack
  refine ⟨⟨t₂.heads, Function.update t₂.nodes n none⟩, ?_, ?_, ?_, ?_⟩
  · unfold InodeHash.remove hlistDel
    rw [node]
    dsimp only
    rw [ran₁, ok_bind, ran₂, ok_bind]
    unfold InodeHash.store InodeHash.storePprev
    dsimp only
    rw [node₂]
    dsimp only
    rw [ok_bind]
    dsimp only
    rw [Function.update_self]
    dsimp only
    rw [ok_bind, Function.update_idem, Function.update_idem]
  · exact (segment_append.mpr ⟨before₂, after₂⟩).congr fun a inside =>
      Function.update_of_ne (outside a inside) _ _
  · rw [first_append]
    exact heads₂.trans heads₁
  · intro a absent
    rw [List.map_append, List.map_cons, List.mem_append, List.mem_cons, not_or, not_or] at absent
    exact (Function.update_of_ne absent.2.1 _ _).trans
      ((same₂ a absent.2.2).trans (same₁ a absent.1))

/-- One chain changes, to nodes of its own and nodes of no chain. -/
theorem Represents.change (represents : t.Represents chains) {t' : InodeHash} {b : Nat}
    {cells : List (Nat × Inode)} (chain : Segment t'.nodes (.head b) cells none)
    (distinct : (cells.map Prod.fst).Nodup)
    (heads : t'.heads = Function.update t.heads b (first cells none))
    (own : ∀ a ∈ cells.map Prod.fst, a ∈ (chains b).map Prod.fst ∨
      ∀ b', a ∉ (chains b').map Prod.fst)
    (same : ∀ b' ≠ b, ∀ a ∈ (chains b').map Prod.fst, t'.nodes a = t.nodes a)
    (placed : Chained.Placed number inodeHashfn (Function.update chains b cells)) :
    t'.Represents (Function.update chains b cells) := by
  have foreign : ∀ b' ≠ b, ∀ a ∈ cells.map Prod.fst, a ∉ (chains b').map Prod.fst := by
    intro b' other a member
    exact (own a member).elim (represents.apart b b' other.symm a) fun none => none b'
  have each : ∀ b', t'.heads b' = first (Function.update chains b cells b') none ∧
      Segment t'.nodes (.head b') (Function.update chains b cells b') none ∧
      ((Function.update chains b cells b').map Prod.fst).Nodup := by
    intro b'
    rw [heads]
    by_cases own' : b' = b
    · subst own'
      rw [Function.update_self, Function.update_self]
      exact ⟨rfl, chain, distinct⟩
    · rw [Function.update_of_ne own', Function.update_of_ne own']
      exact ⟨represents.heads b', (represents.chain b').congr (same b' own'),
        represents.distinct b'⟩
  refine ⟨fun b' => (each b').1, fun b' => (each b').2.1, fun b' => (each b').2.2, ?_, placed⟩
  intro b₁ b₂ other a member member'
  by_cases own₁ : b₁ = b
  · subst own₁
    rw [Function.update_self] at member
    rw [Function.update_of_ne other.symm] at member'
    exact foreign b₂ other.symm a member member'
  · rw [Function.update_of_ne own₁] at member
    by_cases own₂ : b₂ = b
    · subst own₂
      rw [Function.update_self] at member'
      exact foreign b₁ own₁ a member' member
    · rw [Function.update_of_ne own₂] at member'
      exact represents.apart b₁ b₂ other a member member'

/-- An inode whose number is not in the table becomes the first of its chain. -/
theorem Represents.insert (represents : t.Represents chains) {n : Nat} {inode : Inode}
    (fresh : t.nodes n = none) (absent : Chained.find number inodeHashfn chains inode.iNr = none) :
    ∃ t', t.insert n inode = .ok t' ∧ t'.Represents (Function.update chains (inodeHashfn inode.iNr)
      ((n, inode) :: chains (inodeHashfn inode.iNr))) := by
  have outside := represents.fresh fresh
  have placed : Chained.Placed number inodeHashfn (Function.update chains (inodeHashfn inode.iNr)
      ((n, inode) :: chains (inodeHashfn inode.iNr))) :=
    represents.placed.cons (a := (n, inode)) absent
  obtain ⟨t', ran, chain, heads, same⟩ := (represents.chain _).insert (represents.distinct _)
    (represents.heads _) (outside _) rfl
  refine ⟨t', ran, represents.change chain ?_ heads ?_ ?_ placed⟩
  · exact List.nodup_cons.mpr ⟨outside _, represents.distinct _⟩
  · intro a member
    rcases List.mem_cons.mp member with rfl | old
    · exact Or.inr outside
    · exact Or.inl old
  · intro b' other a member
    apply same
    rw [List.map_cons, List.mem_cons, not_or]
    exact ⟨fun equal : a = n => outside b' (equal ▸ member), represents.apart b' _ other a member⟩

/-- An inode in the table is taken out of its chain, and its memory is free. -/
theorem Represents.remove (represents : t.Represents chains) {n : Nat} {inode : Inode}
    (member : (n, inode) ∈ chains (inodeHashfn inode.iNr)) :
    ∃ t', t.remove n = .ok t' ∧ t'.Represents (Function.update chains (inodeHashfn inode.iNr)
      (Keyed.remove number (chains (inodeHashfn inode.iNr)) inode.iNr)) := by
  obtain ⟨front, back, split⟩ := List.append_of_mem member
  have whole := represents.chain (inodeHashfn inode.iNr)
  have distinct := represents.distinct (inodeHashfn inode.iNr)
  have start := represents.heads (inodeHashfn inode.iNr)
  have keys := represents.placed.distinct (inodeHashfn inode.iNr)
  have placed := represents.placed.remove inode.iNr
  rw [split] at whole distinct start keys
  have removed : Keyed.remove number (chains (inodeHashfn inode.iNr)) inode.iNr =
      front ++ back := by
    rw [split]
    exact Keyed.remove_append_cons keys
  rw [removed] at placed ⊢
  obtain ⟨t', ran, chain, heads, same⟩ := whole.remove distinct start
  have shorter : (front ++ back).Sublist (front ++ (n, inode) :: back) :=
    (List.sublist_cons_self _ back).append_left front
  refine ⟨t', ran,
    represents.change chain (distinct.sublist (shorter.map Prod.fst)) heads ?_ ?_ placed⟩
  · intro a inside
    rw [split]
    exact Or.inl ((shorter.map Prod.fst).subset inside)
  · intro b' other a inside
    apply same
    rw [← split]
    exact represents.apart b' _ other a inside

/-- The loop of `inode_hash_find`; by induction on the rest of the chain. -/
theorem Segment.findLoop {xs : List (Nat × Inode)} {pprev : Pprev}
    (segment : Segment t.nodes pprev xs none) (nr fuel : Nat) :
    t.findLoop nr fuel (first xs none) = .ok ((Keyed.lookup number xs nr).map Prod.fst) ∨
      fuel < xs.length ∧ t.findLoop nr fuel (first xs none) = .error .diverges := by
  induction xs generalizing pprev fuel with
  | nil => exact Or.inl (by cases fuel <;> rfl)
  | cons c xs ih =>
      obtain ⟨node, later⟩ := segment
      cases fuel with
      | zero => exact Or.inr ⟨Nat.succ_pos _, rfl⟩
      | succ fuel =>
          rw [first_cons, Keyed.lookup_cons]
          unfold InodeHash.findLoop
          rw [node]
          dsimp only
          by_cases same : number c = nr
          · have same' : c.2.iNr = nr := same
            rw [if_pos same, if_pos same']
            exact Or.inl rfl
          · have other : ¬ c.2.iNr = nr := same
            rw [if_neg same, if_neg other]
            exact (ih later fuel).imp id (And.imp Nat.succ_lt_succ id)

/-- `inode_hash_find` finds what the chains hold. -/
theorem Represents.find (represents : t.Represents chains) (nr : Nat) :
    (∃ fuel, t.find fuel nr = .ok ((Chained.find number inodeHashfn chains nr).map Prod.fst)) ∧
      ∀ fuel found, t.find fuel nr = .ok found →
        found = (Chained.find number inodeHashfn chains nr).map Prod.fst := by
  have loop := (represents.chain (inodeHashfn nr)).findLoop nr
  rw [← represents.heads] at loop
  constructor
  · refine ⟨(chains (inodeHashfn nr)).length, (loop _).resolve_right ?_⟩
    exact fun short => Nat.lt_irrefl _ short.1
  · intro fuel found ran
    unfold InodeHash.find at ran
    rcases loop fuel with right | ⟨_, wrong⟩
    · rw [right] at ran
      exact (Except.ok.inj ran).symm
    · rw [wrong] at ran
      cases ran

theorem Segment.map {nodes nodes' : Nat → Option HlistNode} {xs : List (Nat × Inode)}
    {pprev : Pprev} {f : Nat × Inode → Nat × Inode} (segment : Segment nodes pprev xs none)
    (kept : ∀ c ∈ xs, (f c).1 = c.1)
    (written : ∀ c ∈ xs, nodes' c.1 = (nodes c.1).map fun node => { node with inode := (f c).2 }) :
    Segment nodes' pprev (xs.map f) none ∧ first (xs.map f) none = first xs none := by
  induction xs generalizing pprev with
  | nil => exact ⟨trivial, rfl⟩
  | cons c xs ih =>
      obtain ⟨node, later⟩ := segment
      have own := kept c List.mem_cons_self
      obtain ⟨rest, start⟩ := ih later (fun d member => kept d (List.mem_cons_of_mem _ member))
        fun d member => written d (List.mem_cons_of_mem _ member)
      have at' := written c List.mem_cons_self
      rw [node, Option.map_some] at at'
      refine ⟨⟨?_, ?_⟩, congrArg some own⟩
      · rw [own, start]
        exact at'
      · rw [own]
        exact rest

theorem Represents.write (represents : t.Represents chains) {n : Nat} {inode inode' : Inode}
    (member : (n, inode) ∈ chains (inodeHashfn inode.iNr)) (same : inode'.iNr = inode.iNr) :
    ∃ t', t.write n inode' = .ok t' ∧
      t'.Represents fun b => Keyed.replace number (chains b) (n, inode') := by
  obtain ⟨node, found, _⟩ := (represents.chain _).found member
  have only : ∀ b, ∀ c ∈ chains b, number c = number (n, inode') ↔ c.1 = n := by
    intro b c inside
    constructor
    · intro equal
      have here := represents.placed.find_of_mem inside
      have there := represents.placed.find_of_mem member
      have key : number c = number (n, inode) := equal.trans same
      rw [key, there] at here
      exact (congrArg Prod.fst (Option.some.inj here)).symm
    · intro equal
      by_cases home : b = inodeHashfn inode.iNr
      · subst home
        have same' : c = (n, inode) :=
          List.inj_on_of_nodup_map (represents.distinct _) inside member equal
        rw [same']
        exact same.symm
      · have apart := represents.apart b _ home c.1 (List.mem_map_of_mem inside)
        rw [equal] at apart
        exact absurd (List.mem_map_of_mem member) apart
  have kept : ∀ b, ∀ c ∈ chains b,
      (if number c = number (n, inode') then (n, inode') else c).1 = c.1 := by
    intro b c inside
    split_ifs with own
    · exact ((only b c inside).mp own).symm
    · rfl
  have written : ∀ b, ∀ c ∈ chains b,
      Function.update t.nodes n (some { node with inode := inode' }) c.1 = (t.nodes c.1).map
        fun node =>
          { node with inode := (if number c = number (n, inode') then (n, inode') else c).2 } := by
    intro b c inside
    by_cases own : c.1 = n
    · rw [own, Function.update_self, found, if_pos ((only b c inside).mpr own)]
      rfl
    · obtain ⟨other, at', value⟩ := (represents.chain b).found inside
      rw [Function.update_of_ne own, at',
        if_neg fun equal => own ((only b c inside).mp equal), ← value]
      rfl
  have addresses : ∀ b, (Keyed.replace number (chains b) (n, inode')).map Prod.fst =
      (chains b).map Prod.fst := by
    intro b
    unfold Keyed.replace
    rw [List.map_map]
    exact List.map_congr_left (kept b)
  have mapped := fun b => (represents.chain b).map (kept b) (written b)
  refine ⟨⟨t.heads, Function.update t.nodes n (some { node with inode := inode' })⟩, ?_, ?_⟩
  · unfold InodeHash.write
    rw [found]
  · refine ⟨fun b => (represents.heads b).trans (mapped b).2.symm, fun b => (mapped b).1,
      ?_, ?_, ?_, ?_⟩
    · intro b
      rw [addresses]
      exact represents.distinct b
    · intro b b' other
      rw [addresses, addresses]
      exact represents.apart b b' other
    · intro b c inside
      obtain ⟨d, inside', rfl⟩ := List.mem_map.mp inside
      have home := represents.placed.home b d inside'
      split_ifs with own
      · rw [← own]
        exact home
      · exact home
    · intro b
      rw [Keyed.keys_replace]
      exact represents.placed.distinct b

end Steps

end InodeHash

end Ece344Lab.Fs
