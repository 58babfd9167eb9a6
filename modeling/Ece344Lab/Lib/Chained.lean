import Mathlib.Algebra.BigOperators.Group.Finset.Basic
import Mathlib.Algebra.Order.BigOperators.Group.Finset
import Mathlib.Algebra.BigOperators.Group.Multiset.Basic
import Mathlib.Algebra.Order.Group.Multiset
import Mathlib.Logic.Function.Basic
import Ece344Lab.Lib.Keyed

set_option autoImplicit false

/- Arrays of chains of records. A record stands in the chain its key is hashed to. -/
namespace Ece344Lab.Chained

universe u v

variable {α : Type u} {κ : Type v} [DecidableEq κ] (key : α → κ) (hash : κ → Nat)

abbrev Chains (α : Type u) := Nat → List α

/-- The record that the chain of a key leads to. -/
def find (chains : Chains α) (k : κ) : Option α := Keyed.lookup key (chains (hash k)) k

/-- Every record is in its chain, and the keys are distinct. -/
structure Placed (chains : Chains α) : Prop where
  home : ∀ i, ∀ a ∈ chains i, hash (key a) = i
  distinct : ∀ i, ((chains i).map key).Nodup

variable {key hash} {chains : Chains α}

omit [DecidableEq κ] in
theorem placed_empty : Placed key hash fun _ => [] where
  home i a member := by cases member
  distinct i := List.nodup_nil

theorem find_key {k : κ} {a : α} (found : find key hash chains k = some a) : key a = k :=
  Keyed.lookup_key found

theorem find_mem {k : κ} {a : α} (found : find key hash chains k = some a) :
    a ∈ chains (hash k) :=
  Keyed.lookup_mem found

theorem Placed.find_of_mem (placed : Placed key hash chains) {i : Nat} {a : α}
    (member : a ∈ chains i) : find key hash chains (key a) = some a := by
  unfold find
  rw [placed.home i a member]
  exact Keyed.lookup_of_mem (placed.distinct i) member

/-- Records with keys not yet present appended to their chain. -/
theorem Placed.append (placed : Placed key hash chains) {j : Nat} {added : List α}
    (home : ∀ a ∈ added, hash (key a) = j) (distinct : (added.map key).Nodup)
    (absent : ∀ a ∈ added, find key hash chains (key a) = none) :
    Placed key hash (Function.update chains j (chains j ++ added)) := by
  constructor
  · intro i a member
    by_cases same : i = j
    · subst same
      rw [Function.update_self, List.mem_append] at member
      exact member.elim (placed.home i a) (home a)
    · rw [Function.update_of_ne same] at member
      exact placed.home i a member
  · intro i
    by_cases same : i = j
    · subst same
      rw [Function.update_self, List.map_append, List.nodup_append]
      refine ⟨placed.distinct i, distinct, ?_⟩
      intro k here k' there equal
      obtain ⟨a, member, rfl⟩ := List.mem_map.mp there
      have none := absent a member
      unfold find at none
      rw [home a member, Keyed.lookup_eq_none] at none
      exact none (equal ▸ here)
    · rw [Function.update_of_ne same]
      exact placed.distinct i

theorem find_append {j : Nat} {added : List α} (home : ∀ a ∈ added, hash (key a) = j) (k : κ) :
    find key hash (Function.update chains j (chains j ++ added)) k =
      (find key hash chains k).or (Keyed.lookup key added k) := by
  unfold find
  by_cases same : hash k = j
  · subst same
    rw [Function.update_self]
    exact List.find?_append
  · have elsewhere : Keyed.lookup key added k = none := by
      rw [Keyed.lookup_eq_none, List.mem_map]
      intro present
      obtain ⟨a, member, rfl⟩ := present
      exact same (home a member)
    rw [Function.update_of_ne same, elsewhere, Option.or_none]

/-- A record with a key not yet present appended to its chain. -/
theorem Placed.push (placed : Placed key hash chains) {a : α}
    (absent : find key hash chains (key a) = none) :
    Placed key hash
      (Function.update chains (hash (key a)) (chains (hash (key a)) ++ [a])) := by
  apply placed.append
  · intro b member
    rw [List.mem_singleton.mp member]
  · exact List.nodup_singleton _
  · intro b member
    rw [List.mem_singleton.mp member]
    exact absent

theorem find_push {a : α} (absent : find key hash chains (key a) = none) (k : κ) :
    find key hash (Function.update chains (hash (key a)) (chains (hash (key a)) ++ [a])) k =
      if k = key a then some a else find key hash chains k := by
  rw [find_append (fun b member => by rw [List.mem_singleton.mp member]), Keyed.lookup_cons]
  by_cases same : k = key a
  · rw [if_pos same, if_pos same.symm, same, absent, Option.none_or]
  · rw [if_neg same, if_neg fun equal => same equal.symm]
    exact Option.or_none

/-- A record with a key not yet present at the front of its chain. -/
theorem Placed.cons (placed : Placed key hash chains) {a : α}
    (absent : find key hash chains (key a) = none) :
    Placed key hash (Function.update chains (hash (key a)) (a :: chains (hash (key a)))) := by
  constructor
  · intro i b member
    by_cases same : i = hash (key a)
    · subst same
      rw [Function.update_self] at member
      rcases List.mem_cons.mp member with rfl | old
      · rfl
      · exact placed.home _ b old
    · rw [Function.update_of_ne same] at member
      exact placed.home i b member
  · intro i
    by_cases same : i = hash (key a)
    · subst same
      rw [Function.update_self, List.map_cons]
      exact List.nodup_cons.mpr ⟨Keyed.lookup_eq_none.mp absent, placed.distinct _⟩
    · rw [Function.update_of_ne same]
      exact placed.distinct i

theorem find_cons (a : α) (k : κ) :
    find key hash (Function.update chains (hash (key a)) (a :: chains (hash (key a)))) k =
      if key a = k then some a else find key hash chains k := by
  unfold find
  by_cases chain : hash k = hash (key a)
  · rw [chain, Function.update_self, Keyed.lookup_cons]
  · rw [Function.update_of_ne chain, if_neg]
    rintro rfl
    exact chain rfl

omit [DecidableEq κ] in
/-- No key is in two chains. -/
theorem Placed.nodup_keys (placed : Placed key hash chains) (n : Nat) :
    (((List.range n).flatMap chains).map key).Nodup := by
  rw [List.map_flatMap, List.nodup_flatMap]
  refine ⟨fun i _ => placed.distinct i, ?_⟩
  apply List.nodup_range.imp
  intro i j apart k here there
  obtain ⟨a, inI, rfl⟩ := List.mem_map.mp here
  obtain ⟨b, inJ, same⟩ := List.mem_map.mp there
  apply apart
  rw [← placed.home i a inI, ← placed.home j b inJ, same]

/-- The records of the first `n` chains are those that are found. -/
theorem Placed.mem_flatMap (placed : Placed key hash chains) {n : Nat} (bound : ∀ k, hash k < n)
    (a : α) : a ∈ (List.range n).flatMap chains ↔ find key hash chains (key a) = some a := by
  rw [List.mem_flatMap]
  constructor
  · rintro ⟨i, _, member⟩
    exact placed.find_of_mem member
  · intro found
    exact ⟨_, List.mem_range.mpr (bound _), find_mem found⟩

/-- The record of a key taken out of its chain. -/
theorem Placed.remove (placed : Placed key hash chains) (k : κ) :
    Placed key hash
      (Function.update chains (hash k) (Keyed.remove key (chains (hash k)) k)) := by
  constructor
  · intro i a member
    by_cases same : i = hash k
    · subst same
      rw [Function.update_self] at member
      exact placed.home _ a (List.mem_of_mem_eraseP member)
    · rw [Function.update_of_ne same] at member
      exact placed.home i a member
  · intro i
    by_cases same : i = hash k
    · subst same
      rw [Function.update_self]
      exact Keyed.nodup_remove (placed.distinct _) k
    · rw [Function.update_of_ne same]
      exact placed.distinct i

theorem Placed.find_remove (placed : Placed key hash chains) (k k' : κ) :
    find key hash (Function.update chains (hash k) (Keyed.remove key (chains (hash k)) k)) k' =
      if k' = k then none else find key hash chains k' := by
  unfold find
  by_cases same : k' = k
  · subst same
    rw [if_pos rfl, Function.update_self, Keyed.lookup_remove_same _ _ (placed.distinct _)]
  · rw [if_neg same]
    by_cases chain : hash k' = hash k
    · rw [chain, Function.update_self, Keyed.lookup_remove_of_ne _ _ _ same]
    · rw [Function.update_of_ne chain]

omit [DecidableEq κ] in
/-- A whole chain taken out. -/
theorem Placed.clear (placed : Placed key hash chains) (i : Nat) :
    Placed key hash (Function.update chains i []) := by
  constructor
  · intro j a member
    by_cases same : j = i
    · rw [same, Function.update_self] at member
      cases member
    · rw [Function.update_of_ne same] at member
      exact placed.home j a member
  · intro j
    by_cases same : j = i
    · rw [same, Function.update_self]
      exact List.nodup_nil
    · rw [Function.update_of_ne same]
      exact placed.distinct j

theorem find_clear (i : Nat) (k : κ) :
    find key hash (Function.update chains i []) k =
      if hash k = i then none else find key hash chains k := by
  unfold find
  by_cases same : hash k = i
  · rw [if_pos same, same, Function.update_self]
    rfl
  · rw [if_neg same, Function.update_of_ne same]

section Counting

open Finset

omit [DecidableEq κ] in
def total (n : Nat) (chains : Chains α) : Nat := ∑ i ∈ range n, (chains i).length

/-- The number of chains with records among the first `n`. -/
def inUse (n : Nat) (chains : Chains α) : Nat := ∑ i ∈ range n, if chains i = [] then 0 else 1

theorem total_update (chains : Chains α) {n i : Nat} (inside : i < n) (chain : List α) :
    total n (Function.update chains i chain) + (chains i).length =
      total n chains + chain.length := by
  have member := mem_range.mpr inside
  unfold total
  rw [← add_sum_erase _ _ member, ← add_sum_erase _ (fun i => (chains i).length) member,
    Function.update_self]
  have others : ∀ j ∈ (range n).erase i,
      (Function.update chains i chain j).length = (chains j).length :=
    fun j away => by rw [Function.update_of_ne (ne_of_mem_erase away)]
  rw [sum_congr rfl others]
  omega

omit [DecidableEq κ] in
def records (n : Nat) (chains : Chains α) : Multiset α := ∑ i ∈ range n, (chains i : Multiset α)

theorem records_update (chains : Chains α) {n i : Nat} (inside : i < n) (chain : List α) :
    records n (Function.update chains i chain) + (chains i : Multiset α) =
      records n chains + (chain : Multiset α) := by
  have member := mem_range.mpr inside
  have others : ∀ j ∈ (range n).erase i,
      (Function.update chains i chain j : Multiset α) = (chains j : Multiset α) :=
    fun j away => by rw [Function.update_of_ne (ne_of_mem_erase away)]
  unfold records
  rw [← add_sum_erase _ _ member, ← add_sum_erase _ (fun i => (chains i : Multiset α)) member,
    Function.update_self, sum_congr rfl others]
  ac_rfl

theorem card_records (n : Nat) (chains : Chains α) : (records n chains).card = total n chains :=
  Multiset.card_sum _ _

theorem records_eq_zero {n : Nat} (empty : ∀ i < n, chains i = []) : records n chains = 0 := by
  apply sum_eq_zero
  intro i member
  rw [empty i (mem_range.mp member), Multiset.coe_nil]

theorem inUse_clear (chains : Chains α) {n i : Nat} (inside : i < n) (used : chains i ≠ []) :
    inUse n (Function.update chains i []) + 1 = inUse n chains := by
  have member := mem_range.mpr inside
  unfold inUse
  rw [← add_sum_erase _ _ member,
    ← add_sum_erase _ (fun i => if chains i = [] then 0 else 1) member,
    Function.update_self, if_pos rfl, if_neg used]
  have others : ∀ j ∈ (range n).erase i, (if Function.update chains i [] j = [] then 0 else 1) =
      if chains j = [] then 0 else 1 :=
    fun j away => by rw [Function.update_of_ne (ne_of_mem_erase away)]
  rw [sum_congr rfl others]
  omega

theorem inUse_le {chains' : Chains α} (n : Nat)
    (less : ∀ i, chains i = [] → chains' i = []) : inUse n chains' ≤ inUse n chains := by
  apply sum_le_sum
  intro i _
  by_cases empty : chains i = []
  · rw [if_pos (less i empty)]
    exact Nat.zero_le _
  · rw [if_neg empty]
    split <;> omega

theorem inUse_le_total (n : Nat) (chains : Chains α) : inUse n chains ≤ total n chains := by
  apply sum_le_sum
  intro i _
  cases chains i with
  | nil => exact Nat.le_refl _
  | cons a rest =>
      rw [if_neg (List.cons_ne_nil a rest), List.length_cons]
      omega

theorem inUse_eq_zero {n : Nat} : inUse n chains = 0 ↔ ∀ i < n, chains i = [] := by
  unfold inUse
  rw [sum_eq_zero_iff]
  constructor
  · intro none i inside
    by_contra used
    have zero := none i (mem_range.mpr inside)
    rw [if_neg used] at zero
    cases zero
  · intro empty i member
    exact if_pos (empty i (mem_range.mp member))

theorem total_eq_zero {n : Nat} (empty : ∀ i < n, chains i = []) : total n chains = 0 := by
  apply sum_eq_zero
  intro i member
  rw [empty i (mem_range.mp member), List.length_nil]

end Counting

end Ece344Lab.Chained
