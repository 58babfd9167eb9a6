import Mathlib.Data.Finset.Card
import Ece344Lab.Lib.Tree

set_option autoImplicit false

/- The way from the root of a tree to a node, as the labels of the edges along it. -/
namespace Ece344Lab.Rooted

universe u v

variable {ν : Type u} {ℓ : Type v} {root : ν} {edge : ν → ℓ → ν → Prop}

/-- The labels from the root to a node. -/
inductive Path (root : ν) (edge : ν → ℓ → ν → Prop) : List ℓ → ν → Prop
  | root : Path root edge [] root
  | child {labels : List ℓ} {d n : ν} {label : ℓ} (above : Path root edge labels d)
      (step : edge d label n) (other : n ≠ root) : Path root edge (labels ++ [label]) n

/-- One edge at most leads to a node other than the root. -/
def OneEdge (root : ν) (edge : ν → ℓ → ν → Prop) : Prop :=
  ∀ d d' label label' n, n ≠ root → edge d label n → edge d' label' n → d = d' ∧ label = label'

namespace Path

variable {labels labels' : List ℓ} {d n : ν} {label : ℓ}

/-- A node with an edge into it lies behind the node that the edge comes from. -/
theorem last (one : OneEdge root edge) (path : Path root edge labels n) (step : edge d label n)
    (other : n ≠ root) : ∃ above, labels = above ++ [label] ∧ Path root edge above d := by
  cases path with
  | root => exact absurd rfl other
  | child above step' _ =>
      obtain ⟨same, same'⟩ := one _ _ _ _ _ other step step'
      subst same same'
      exact ⟨_, rfl, above⟩

/-- There is one way to a node; by induction along it. -/
theorem unique (one : OneEdge root edge) (path : Path root edge labels n)
    (path' : Path root edge labels' n) : labels = labels' := by
  induction path generalizing labels' with
  | root =>
      cases path' with
      | root => rfl
      | child _ _ other => exact absurd rfl other
  | child above step other ih =>
      obtain ⟨above', same, rest⟩ := path'.last one step other
      rw [same, ih rest]

theorem not_self (one : OneEdge root edge) (path : Path root edge labels d) (step : edge d label n)
    (other : n ≠ root) : n ≠ d := by
  intro same
  subst same
  have longer := congrArg List.length (path.unique one (path.child step other))
  rw [List.length_append] at longer
  exact Nat.ne_of_lt (Nat.lt_add_of_pos_right Nat.one_pos) longer

theorem not_back (one : OneEdge root edge) {above : ν} {label' : ℓ}
    (path : Path root edge labels above)
    (step : edge above label' d) (other : d ≠ root) (step' : edge d label n) (other' : n ≠ root) :
    n ≠ above := by
  intro same
  subst same
  have longer := congrArg List.length
    (path.unique one ((path.child step other).child step' other'))
  rw [List.length_append, List.length_append, List.length_singleton] at longer
  omega

/-- Every node that following the child lists leads to has a path, when the nodes above it are of
the same kind and have edges to it. -/
theorem of_reach {kids : ν → List ν} (good : ν → Prop)
    (up : ∀ d n, n ∈ kids d → good n → good d ∧ ∃ label, edge d label n)
    (reach : Reach root kids n) (here : good n) : ∃ labels, Path root edge labels n := by
  induction reach with
  | root => exact ⟨[], .root⟩
  | @child d n _ named ih =>
      by_cases same : n = root
      · subst same
        exact ⟨[], .root⟩
      · obtain ⟨above, label, step⟩ := up d n named here
        obtain ⟨labels, path⟩ := ih above
        exact ⟨_, path.child step same⟩

/-- The nodes along a path, all different. -/
theorem nodes (one : OneEdge root edge) (path : Path root edge labels n) :
    ∃ nodes : List ν, nodes.length = labels.length + 1 ∧ nodes.Nodup ∧
      ∀ m ∈ nodes, ∃ before, Path root edge before m ∧ before.length ≤ labels.length := by
  induction path with
  | root =>
      refine ⟨[root], rfl, List.nodup_singleton _, ?_⟩
      intro m member
      rw [List.mem_singleton.mp member]
      exact ⟨[], .root, Nat.le_refl _⟩
  | @child labels d n label above step other ih =>
      obtain ⟨nodes, length, distinct, inside⟩ := ih
      have size : (labels ++ [label]).length = labels.length + 1 := List.length_append
      refine ⟨n :: nodes, ?_, List.nodup_cons.mpr ⟨?_, distinct⟩, ?_⟩
      · rw [List.length_cons, length, size]
      · intro member
        obtain ⟨before, path, shorter⟩ := inside n member
        rw [path.unique one (above.child step other), size] at shorter
        exact Nat.not_succ_le_self _ shorter
      · intro m member
        cases List.mem_cons.mp member with
        | inl same =>
            subst same
            exact ⟨_, above.child step other, Nat.le_refl _⟩
        | inr earlier =>
            obtain ⟨before, path, shorter⟩ := inside m earlier
            exact ⟨before, path, by omega⟩

theorem length_lt [DecidableEq ν] (one : OneEdge root edge) (path : Path root edge labels n)
    (all : Finset ν) (inside : ∀ labels m, Path root edge labels m → m ∈ all) :
    labels.length < all.card := by
  obtain ⟨nodes, length, distinct, reached⟩ := path.nodes one
  have subset : nodes.toFinset ⊆ all := by
    intro m member
    obtain ⟨before, path, _⟩ := reached m (List.mem_toFinset.mp member)
    exact inside before m path
  have card := Finset.card_le_card subset
  rw [List.toFinset_card_of_nodup distinct, length] at card
  exact card

end Path

end Ece344Lab.Rooted
