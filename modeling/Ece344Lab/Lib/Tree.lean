import Mathlib.Data.List.Perm.Basic
import Mathlib.Data.List.Nodup

set_option autoImplicit false

/- Rooted trees given by a list of children for each node. -/
namespace Ece344Lab.Rooted

universe u

variable {ν : Type u} {nodes : ν → Prop} {root : ν} {kids kids' : ν → List ν}

/-- The nodes that following the child lists leads to. -/
inductive Reach (root : ν) (kids : ν → List ν) : ν → Prop
  | root : Reach root kids root
  | child {d n : ν} (parent : Reach root kids d) (named : n ∈ kids d) : Reach root kids n

/-- Entries that only lead back to what is reached anyway add nothing. -/
theorem Reach.of_more (extra : ∀ d n, Reach root kids d → n ∈ kids' d → Reach root kids n) {n : ν}
    (reach : Reach root kids' n) : Reach root kids n := by
  induction reach with
  | root => exact .root
  | child _ named ih => exact extra _ _ ih named

theorem Reach.mono (more : ∀ d n, n ∈ kids d → n ∈ kids' d) {n : ν} (reach : Reach root kids n) :
    Reach root kids' n :=
  reach.of_more fun _ _ parent named => .child parent (more _ _ named)

/-- Every node is reached from the root, and every node but the root is one entry of one list. -/
structure IsTree (nodes : ν → Prop) (root : ν) (kids : ν → List ν) : Prop where
  rooted : nodes root
  inside : ∀ d n, n ∈ kids d → nodes d ∧ nodes n
  orphan : ∀ d, root ∉ kids d
  once : ∀ d, (kids d).Nodup
  single : ∀ d d' n, n ∈ kids d → n ∈ kids d' → d = d'
  reach : ∀ n, nodes n → Reach root kids n

namespace IsTree

theorem nodes_iff (tree : IsTree nodes root kids) (n : ν) : nodes n ↔ Reach root kids n := by
  constructor
  · exact tree.reach n
  · intro reach
    cases reach with
    | root => exact tree.rooted
    | child _ named => exact (tree.inside _ _ named).2

/-- Every node but the root has a parent. -/
theorem exists_parent (tree : IsTree nodes root kids) {n : ν} (node : nodes n) (other : n ≠ root) :
    ∃ d, n ∈ kids d := by
  have reach := tree.reach n node
  cases reach with
  | root => exact absurd rfl other
  | child _ named => exact ⟨_, named⟩

/-- No node is its own child; by induction on the path from the root. -/
theorem not_self (tree : IsTree nodes root kids) (d : ν) : d ∉ kids d := by
  intro named
  have reach := tree.reach d (tree.inside d d named).1
  induction reach with
  | root => exact tree.orphan root named
  | child _ above ih =>
      have same := tree.single _ _ _ above named
      subst same
      exact ih above

/-- A new leaf under an existing node. -/
theorem add (tree : IsTree nodes root kids) {d m : ν} (node : nodes d) (fresh : ¬ nodes m)
    (here : (kids' d).Perm (m :: kids d)) (there : ∀ n, n ≠ d → kids' n = kids n) :
    IsTree (fun n => nodes n ∨ n = m) root kids' := by
  have member : ∀ e n, n ∈ kids' e ↔ n ∈ kids e ∨ e = d ∧ n = m := by
    intro e n
    by_cases same : e = d
    · subst same
      rw [here.mem_iff, List.mem_cons]
      tauto
    · rw [there e same]
      tauto
  have unnamed : ∀ e, m ∉ kids e := fun e named => fresh (tree.inside e m named).2
  have kept : ∀ n, Reach root kids n → Reach root kids' n :=
    fun n reach => reach.mono fun e k named => (member e k).mpr (Or.inl named)
  refine ⟨Or.inl tree.rooted, ?_, ?_, ?_, ?_, ?_⟩
  · intro e n named
    cases (member e n).mp named with
    | inl before => exact ⟨Or.inl (tree.inside e n before).1, Or.inl (tree.inside e n before).2⟩
    | inr new => exact ⟨Or.inl (new.1 ▸ node), Or.inr new.2⟩
  · intro e named
    cases (member e root).mp named with
    | inl before => exact tree.orphan e before
    | inr new => exact fresh (new.2 ▸ tree.rooted)
  · intro e
    by_cases same : e = d
    · subst same
      exact here.nodup_iff.mpr (List.nodup_cons.mpr ⟨unnamed e, tree.once e⟩)
    · rw [there e same]
      exact tree.once e
  · intro e e' n named named'
    cases (member e n).mp named with
    | inl before =>
        cases (member e' n).mp named' with
        | inl before' => exact tree.single e e' n before before'
        | inr new => exact absurd (new.2 ▸ before) (unnamed e)
    | inr new =>
        cases (member e' n).mp named' with
        | inl before' => exact absurd (new.2 ▸ before') (unnamed e')
        | inr new' => exact new.1.trans new'.1.symm
  · intro n held
    cases held with
    | inl before => exact kept n (tree.reach n before)
    | inr same =>
        subst same
        exact .child (kept d (tree.reach d node)) ((member d n).mpr (Or.inr ⟨rfl, rfl⟩))

/-- A leaf taken off its parent. -/
theorem remove (tree : IsTree nodes root kids) {d m : ν} (leaf : kids m = [])
    (here : (kids d).Perm (m :: kids' d)) (there : ∀ n, n ≠ d → kids' n = kids n) :
    IsTree (fun n => nodes n ∧ n ≠ m) root kids' := by
  have member : ∀ e n, n ∈ kids e ↔ n ∈ kids' e ∨ e = d ∧ n = m := by
    intro e n
    by_cases same : e = d
    · subst same
      rw [here.mem_iff, List.mem_cons]
      tauto
    · rw [there e same]
      tauto
  have named : m ∈ kids d := (member d m).mpr (Or.inr ⟨rfl, rfl⟩)
  have nodup := here.nodup_iff.mp (tree.once d)
  have gone : ∀ e, m ∉ kids' e := by
    intro e still
    have same := tree.single e d m ((member e m).mpr (Or.inl still)) named
    subst same
    exact (List.nodup_cons.mp nodup).1 still
  have kept : ∀ n, Reach root kids n → n ≠ m → Reach root kids' n := by
    intro n reach
    induction reach with
    | root => exact fun _ => .root
    | @child e _ parent below ih =>
        intro other
        have before : e ≠ m := by
          intro same
          rw [same, leaf] at below
          cases below
        cases (member _ _).mp below with
        | inl still => exact .child (ih before) still
        | inr taken => exact absurd taken.2 other
  refine ⟨⟨tree.rooted, ?_⟩, ?_, ?_, ?_, ?_, ?_⟩
  · intro same
    exact tree.orphan d (same ▸ named)
  · intro e n below
    have before := (member e n).mpr (Or.inl below)
    refine ⟨⟨(tree.inside e n before).1, ?_⟩, (tree.inside e n before).2, ?_⟩
    · intro same
      rw [same, leaf] at before
      cases before
    · intro same
      exact gone e (same ▸ below)
  · exact fun e below => tree.orphan e ((member e root).mpr (Or.inl below))
  · intro e
    by_cases same : e = d
    · subst same
      exact (List.nodup_cons.mp nodup).2
    · rw [there e same]
      exact tree.once e
  · exact fun e e' n below below' => tree.single e e' n ((member e n).mpr (Or.inl below))
      ((member e' n).mpr (Or.inl below'))
  · exact fun n held => kept n (tree.reach n held.1) held.2

end IsTree

end Ece344Lab.Rooted
