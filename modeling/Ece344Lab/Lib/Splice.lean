import Ece344Lab.Lib.Linked

set_option autoImplicit false

/- Nodes put into a doubly linked list and taken out of it, at either end and in the middle, with
the nodes that are written. -/
namespace Ece344Lab.Linked

universe u

variable {α : Type u} {h : Heap α} {start finish : Option Nat} {xs ys : List (Nat × α)}
  {b c d : Nat × α} {a : Nat} {v : α}

theorem last_concat (before : Option Nat) (xs : List (Nat × α)) (b : Nat × α) :
    last before (xs ++ [b]) = some b.1 := by
  rw [last_append]
  rfl

theorem first_concat (xs ys : List (Nat × α)) (b : Nat × α) (after after' : Option Nat) :
    first (xs ++ b :: ys) after = first (xs ++ [b]) after' := by
  rw [first_append, first_append]
  rfl

/-- The two sides of a node have other addresses. -/
theorem IsList.outside (list : IsList h start finish (xs ++ c :: ys)) :
    c.1 ∉ (xs ++ ys).map Prod.fst := by
  obtain ⟨_, distinct, apart⟩ := list.apart
  rw [List.map_append, List.mem_append, not_or]
  exact ⟨fun member => apart _ member (by simp), (List.nodup_cons.mp distinct).1⟩

/-- A node that belongs to no list is given back. -/
theorem IsList.free (list : IsList h start finish xs) (outside : a ∉ xs.map Prod.fst) :
    IsList (Function.update h a none) start finish xs := by
  apply list.within ((Within.refl [a] h).update (List.mem_singleton_self a) none)
  intro c member same
  exact outside (List.mem_singleton.mp same ▸ member)

theorem IsList.insert_first (list : IsList h start finish (b :: ys))
    (fresh : a ∉ (b :: ys).map Prod.fst) :
    IsList (Function.update (Function.update h a (some ⟨v, some b.1, none⟩)) b.1
      (some ⟨b.2, first ys none, some a⟩)) (some a) finish ((a, v) :: b :: ys) := by
  have here : h b.1 = some ⟨b.2, first ys none, none⟩ := list.segment.1
  have apart : b.1 ≠ a := fun same => fresh (by simp [same])
  apply IsList.insert (show IsList _ _ _ ([] ++ b :: ys) from list) fresh
  · rw [Function.update_of_ne apart.symm, Function.update_self]
    rfl
  · intro e node none
    cases none
  · intro e node same found
    obtain rfl := Option.some.inj same
    rw [here] at found
    rw [Function.update_self, ← Option.some.inj found]
  · intro e other _ other'
    have different : e ≠ b.1 := fun same => other' (congrArg some same.symm)
    rw [Function.update_of_ne different, Function.update_of_ne other]
  · rfl
  · exact list.finish

theorem IsList.insert_last (list : IsList h start finish (xs ++ [b]))
    (fresh : a ∉ (xs ++ [b]).map Prod.fst) :
    IsList (Function.update (Function.update h b.1 (some ⟨b.2, some a, last none xs⟩)) a
      (some ⟨v, none, some b.1⟩)) start (some a) (xs ++ [b] ++ [(a, v)]) := by
  have here := list.node
  have before := last_concat none xs b
  have apart : b.1 ≠ a := fun same => fresh (by simp [same])
  apply IsList.insert (show IsList _ _ _ ((xs ++ [b]) ++ []) by rwa [List.append_nil])
    (by rwa [List.append_nil])
  · rw [Function.update_self, before]
    rfl
  · intro e node same found
    rw [before] at same
    obtain rfl := Option.some.inj same
    rw [here] at found
    rw [Function.update_of_ne apart, Function.update_self, ← Option.some.inj found]
  · intro e node none
    cases none
  · intro e other other' _
    have different : e ≠ b.1 := fun same => other' (same ▸ before)
    rw [Function.update_of_ne other, Function.update_of_ne different]
  · rw [list.start, List.append_assoc]
    exact (first_concat xs [(a, v)] b none none).symm
  · rw [last_concat]

theorem IsList.insert_between (list : IsList h start finish (xs ++ b :: d :: ys))
    (fresh : a ∉ (xs ++ b :: d :: ys).map Prod.fst) :
    IsList (Function.update
      (Function.update (Function.update h b.1 (some ⟨b.2, some a, last none xs⟩))
        d.1 (some ⟨d.2, first ys none, some a⟩)) a (some ⟨v, some d.1, some b.1⟩)) start finish
      (xs ++ b :: (a, v) :: d :: ys) := by
  have split : xs ++ b :: d :: ys = (xs ++ [b]) ++ d :: ys := by simp
  have here := list.node
  have outside := list.outside
  have list' := list
  rw [split] at list' fresh
  have there := list'.node
  have before := last_concat none xs b
  have apart : b.1 ≠ a := fun same => fresh (by simp [same])
  have apart' : d.1 ≠ a := fun same => fresh (by simp [same])
  have different : b.1 ≠ d.1 := fun same => outside (by simp [same])
  rw [before] at there
  have split' : xs ++ b :: (a, v) :: d :: ys = (xs ++ [b]) ++ (a, v) :: d :: ys := by simp
  rw [split']
  apply IsList.insert list' fresh
  · rw [Function.update_self, before]
    rfl
  · intro e node same found
    rw [before] at same
    obtain rfl := Option.some.inj same
    rw [here] at found
    rw [Function.update_of_ne apart, Function.update_of_ne different, Function.update_self,
      ← Option.some.inj found]
  · intro e node same found
    obtain rfl := Option.some.inj same
    rw [there] at found
    rw [Function.update_of_ne apart', Function.update_self, ← Option.some.inj found]
  · intro e other last' first'
    have left : e ≠ b.1 := fun same => last' (same ▸ before)
    have right : e ≠ d.1 := fun same => first' (congrArg some same.symm)
    rw [Function.update_of_ne other, Function.update_of_ne right, Function.update_of_ne left]
  · rw [list'.start, first_append (xs ++ [b]), first_append (xs ++ [b])]
    cases xs <;> rfl
  · rw [list'.finish, last_append none (xs ++ [b]), last_append none (xs ++ [b])]
    rfl

theorem IsList.remove_first (list : IsList h start finish (c :: b :: ys)) :
    IsList (Function.update h b.1 (some ⟨b.2, first ys none, none⟩)) (some b.1) finish
      (b :: ys) := by
  have there : h b.1 = some ⟨b.2, first ys none, some c.1⟩ := list.segment.2.1
  apply IsList.remove (show IsList _ _ _ ([] ++ (c.1, c.2) :: b :: ys) from list)
  · intro e node none
    cases none
  · intro e node same found
    obtain rfl := Option.some.inj same
    rw [there] at found
    rw [Function.update_self, ← Option.some.inj found]
    rfl
  · intro e _ _ first'
    have different : e ≠ b.1 := fun same => first' (congrArg some same.symm)
    rw [Function.update_of_ne different]
  · rfl
  · exact list.finish

theorem IsList.remove_last (list : IsList h start finish (xs ++ [b] ++ [c])) :
    IsList (Function.update h b.1 (some ⟨b.2, none, last none xs⟩)) start (some b.1)
      (xs ++ [b]) := by
  have before := last_concat none xs b
  have here : h b.1 = some ⟨b.2, some c.1, last none xs⟩ := by
    rw [List.append_assoc] at list
    exact list.node
  have removed : IsList (Function.update h b.1 (some ⟨b.2, none, last none xs⟩)) start (some b.1)
      (xs ++ [b] ++ []) := by
    apply IsList.remove (a := c.1) (v := c.2) list
    · intro e node same found
      rw [before] at same
      obtain rfl := Option.some.inj same
      rw [here] at found
      rw [Function.update_self, ← Option.some.inj found]
      rfl
    · intro e node none
      cases none
    · intro e _ last' _
      have different : e ≠ b.1 := fun same => last' (same ▸ before)
      rw [Function.update_of_ne different]
    · rw [list.start, List.append_assoc, List.append_nil]
      exact first_concat xs [c] b none none
    · rw [List.append_nil, before]
  rwa [List.append_nil] at removed

theorem IsList.remove_between (list : IsList h start finish (xs ++ b :: c :: d :: ys)) :
    IsList (Function.update (Function.update h b.1 (some ⟨b.2, some d.1, last none xs⟩)) d.1
      (some ⟨d.2, first ys none, some b.1⟩)) start finish (xs ++ b :: d :: ys) := by
  have split : xs ++ b :: c :: d :: ys = (xs ++ [b]) ++ c :: d :: ys := by simp
  have split' : xs ++ b :: d :: ys = (xs ++ [b]) ++ d :: ys := by simp
  have here := list.node
  have outside := list.outside
  have before := last_concat none xs b
  have different : b.1 ≠ d.1 := fun same => outside (by simp [same])
  have there : h d.1 = some ⟨d.2, first ys none, some c.1⟩ := by
    have list' := list
    rw [show xs ++ b :: c :: d :: ys = (xs ++ [b] ++ [c]) ++ d :: ys by simp] at list'
    have node := list'.node
    rwa [last_concat] at node
  rw [split] at list
  rw [split']
  apply IsList.remove (a := c.1) (v := c.2) list
  · intro e node same found
    rw [before] at same
    obtain rfl := Option.some.inj same
    rw [here] at found
    rw [Function.update_of_ne different, Function.update_self, ← Option.some.inj found]
    rfl
  · intro e node same found
    obtain rfl := Option.some.inj same
    rw [there] at found
    rw [Function.update_self, ← Option.some.inj found, before]
  · intro e _ last' first'
    have left : e ≠ b.1 := fun same => last' (same ▸ before)
    have right : e ≠ d.1 := fun same => first' (congrArg some same.symm)
    rw [Function.update_of_ne right, Function.update_of_ne left]
  · rw [list.start, first_append (xs ++ [b]), first_append (xs ++ [b])]
    cases xs <;> rfl
  · rw [list.finish, last_append none (xs ++ [b]), last_append none (xs ++ [b])]
    rfl

end Ece344Lab.Linked
