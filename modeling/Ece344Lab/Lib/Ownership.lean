import Mathlib.Data.Fintype.Card
import Mathlib.Data.Finset.Card
import Mathlib.Tactic

set_option autoImplicit false

/- Tables of pointers into a set of allocated objects. Zero is the null pointer; a nonzero entry
owns the object it names. -/
namespace Ece344Lab.Ownership

universe u

variable {ι : Type u} {A A' A'' : Nat → Prop} {P P' P'' : ι → Nat}

/-- Every pointer names an allocated object, and no object has two pointers. -/
structure Owns (A : Nat → Prop) (P : ι → Nat) : Prop where
  inside : ∀ i, P i ≠ 0 → A (P i)
  distinct : ∀ i j, P i ≠ 0 → P i = P j → i = j

theorem Owns.ne (owns : Owns A P) {i j : ι} (other : i ≠ j) (nonzero : P j ≠ 0) : P i ≠ P j :=
  fun same => other (owns.distinct i j (same ▸ nonzero) same)

/-- Some null pointers of the table have received newly allocated objects of their own. -/
structure Grows (A : Nat → Prop) (P : ι → Nat) (A' : Nat → Prop) (P' : ι → Nat) : Prop where
  keeps : ∀ i, P i ≠ 0 → P' i = P i
  fresh : ∀ i, P i = 0 → P' i ≠ 0 → ¬ A (P' i)
  distinct : ∀ i j, P i = 0 → P' i ≠ 0 → P j = 0 → P' i = P' j → i = j
  taken : ∀ n, A' n ↔ A n ∨ ∃ i, P i = 0 ∧ P' i ≠ 0 ∧ P' i = n

theorem Grows.refl (A : Nat → Prop) (P : ι → Nat) : Grows A P A P where
  keeps _ _ := rfl
  fresh _ zero nonzero := absurd zero nonzero
  distinct _ _ zero nonzero := absurd zero nonzero
  taken n := by
    constructor
    · exact Or.inl
    · rintro (held | ⟨i, zero, nonzero, _⟩)
      · exact held
      · exact absurd zero nonzero

theorem Grows.allocated (grows : Grows A P A' P') {n : Nat} (held : A n) : A' n :=
  (grows.taken n).mpr (Or.inl held)

theorem Grows.of_ne_zero (grows : Grows A P A' P') {i : ι} (nonzero : P i ≠ 0) : P' i ≠ 0 := by
  rw [grows.keeps i nonzero]
  exact nonzero

theorem Grows.trans (first : Grows A P A' P') (second : Grows A' P' A'' P'') :
    Grows A P A'' P'' where
  keeps i nonzero := by
    rw [second.keeps i (first.of_ne_zero nonzero), first.keeps i nonzero]
  fresh i zero nonzero := by
    by_cases before : P' i = 0
    · exact fun held => second.fresh i before nonzero (first.allocated held)
    · rw [second.keeps i before]
      exact first.fresh i zero before
  distinct i j zero nonzero zero' same := by
    by_cases before : P' i = 0
    · by_cases other : P' j = 0
      · exact second.distinct i j before nonzero other same
      · -- the object of `j` was allocated before that of `i`
        have held : A' (P' j) := (first.taken _).mpr (Or.inr ⟨j, zero', other, rfl⟩)
        rw [second.keeps j other] at same
        exact absurd (same ▸ held) (second.fresh i before nonzero)
    · by_cases other : P' j = 0
      · have held : A' (P' i) := (first.taken _).mpr (Or.inr ⟨i, zero, before, rfl⟩)
        rw [second.keeps i before] at same
        have nonzero' : P'' j ≠ 0 := same ▸ before
        exact absurd (same ▸ held) (second.fresh j other nonzero')
      · rw [second.keeps i before, second.keeps j other] at same
        exact first.distinct i j zero before zero' same
  taken n := by
    rw [second.taken, first.taken]
    constructor
    · rintro ((held | ⟨i, zero, nonzero, same⟩) | ⟨i, zero, nonzero, same⟩)
      · exact Or.inl held
      · refine Or.inr ⟨i, zero, second.of_ne_zero nonzero, ?_⟩
        rw [second.keeps i nonzero, same]
      · refine Or.inr ⟨i, ?_, nonzero, same⟩
        by_contra held
        exact first.of_ne_zero held zero
    · rintro (held | ⟨i, zero, nonzero, same⟩)
      · exact Or.inl (Or.inl held)
      · by_cases before : P' i = 0
        · exact Or.inr ⟨i, before, nonzero, same⟩
        · refine Or.inl (Or.inr ⟨i, zero, before, ?_⟩)
          rw [← second.keeps i before, same]

theorem Grows.owns (grows : Grows A P A' P') (owns : Owns A P) : Owns A' P' where
  inside i nonzero := by
    by_cases before : P i = 0
    · exact (grows.taken _).mpr (Or.inr ⟨i, before, nonzero, rfl⟩)
    · rw [grows.keeps i before]
      exact grows.allocated (owns.inside i before)
  distinct i j nonzero same := by
    by_cases before : P i = 0
    · by_cases other : P j = 0
      · exact grows.distinct i j before nonzero other same
      · rw [grows.keeps j other] at same
        exact absurd (same ▸ owns.inside j other) (grows.fresh i before nonzero)
    · by_cases other : P j = 0
      · rw [grows.keeps i before] at same
        have nonzero' : P' j ≠ 0 := same ▸ before
        exact absurd (same ▸ owns.inside i before) (grows.fresh j other nonzero')
      · rw [grows.keeps i before, grows.keeps j other] at same
        exact owns.distinct i j before same

/-- A table that owned nothing in common with this one still does not. -/
theorem Grows.disjoint {κ : Type u} {Q : κ → Nat} (grows : Grows A P A' P') (owns : Owns A Q)
    (apart : ∀ i k, P i ≠ 0 → P i ≠ Q k) (i : ι) (k : κ) (nonzero : P' i ≠ 0) : P' i ≠ Q k := by
  by_cases before : P i = 0
  · intro same
    have held : Q k ≠ 0 := same ▸ nonzero
    exact grows.fresh i before nonzero (same ▸ owns.inside k held)
  · rw [grows.keeps i before]
    exact apart i k before

/-- One table of a family grows. -/
theorem Grows.family {κ : Type u} (F F' : κ → ι → Nat) (k : κ) (grows : Grows A (F k) A' (F' k))
    (others : ∀ j, j ≠ k → F' j = F j) :
    Grows A (fun p : κ × ι => F p.1 p.2) A' (fun p => F' p.1 p.2) where
  keeps p nonzero := by
    by_cases same : p.1 = k
    · simp only [same] at nonzero ⊢
      exact grows.keeps p.2 nonzero
    · simp only [others p.1 same]
  fresh p zero nonzero := by
    have same : p.1 = k := by
      by_contra other
      exact nonzero ((congrFun (others p.1 other) p.2).trans zero)
    simp only [same] at zero nonzero ⊢
    exact grows.fresh p.2 zero nonzero
  distinct p q zero nonzero zero' equal := by
    have first : p.1 = k := by
      by_contra other
      exact nonzero ((congrFun (others p.1 other) p.2).trans zero)
    have second : q.1 = k := by
      by_contra other
      exact nonzero (equal.trans ((congrFun (others q.1 other) q.2).trans zero'))
    simp only [first, second] at zero nonzero zero' equal
    exact Prod.ext (first.trans second.symm)
      (grows.distinct p.2 q.2 zero nonzero zero' equal)
  taken n := by
    rw [grows.taken]
    constructor
    · rintro (held | ⟨i, spec⟩)
      · exact Or.inl held
      · exact Or.inr ⟨(k, i), spec⟩
    · rintro (held | ⟨p, zero, nonzero, named⟩)
      · exact Or.inl held
      · have same : p.1 = k := by
          by_contra other
          exact nonzero ((congrFun (others p.1 other) p.2).trans zero)
        simp only [same] at zero nonzero named
        exact Or.inr ⟨p.2, zero, nonzero, named⟩

/-- Objects without an owner do not appear. -/
theorem Grows.owned (grows : Grows A P A' P') (full : ∀ n, A n → n ≠ 0 ∧ ∃ i, P i = n) :
    ∀ n, A' n → n ≠ 0 ∧ ∃ i, P' i = n := by
  intro n held
  rcases (grows.taken n).mp held with before | ⟨i, _, nonzero, named⟩
  · obtain ⟨nonzero, i, named⟩ := full n before
    exact ⟨nonzero, i, (grows.keeps i (named ▸ nonzero)).trans named⟩
  · exact ⟨named ▸ nonzero, i, named⟩

/-- One table of a family gives back everything it owns. -/
structure Releases {κ : Type u} (A : Nat → Prop) (F : κ → ι → Nat) (k : κ) (A' : Nat → Prop)
    (F' : κ → ι → Nat) : Prop where
  gone : ∀ i, F' k i = 0
  others : ∀ j, j ≠ k → F' j = F j
  left : ∀ n, A' n ↔ A n ∧ ∀ i, F k i ≠ n

section Release

variable {κ : Type u} {F F' : κ → ι → Nat} {k : κ}

theorem Releases.kept (releases : Releases A F k A' F') {p : κ × ι} (nonzero : F' p.1 p.2 ≠ 0) :
    p.1 ≠ k ∧ F' p.1 p.2 = F p.1 p.2 := by
  have other : p.1 ≠ k := by
    intro same
    rw [same] at nonzero
    exact nonzero (releases.gone p.2)
  exact ⟨other, congrFun (releases.others p.1 other) p.2⟩

/-- What the other tables own stays allocated, and stays theirs. -/
theorem Releases.owns (releases : Releases A F k A' F')
    (owns : Owns A fun p : κ × ι => F p.1 p.2) : Owns A' fun p : κ × ι => F' p.1 p.2 where
  inside p nonzero := by
    obtain ⟨other, same⟩ := releases.kept nonzero
    simp only [same] at nonzero ⊢
    refine (releases.left _).mpr ⟨owns.inside p nonzero, fun i equal => ?_⟩
    have twice : p = (k, i) := owns.distinct p (k, i) nonzero equal.symm
    exact other (congrArg Prod.fst twice)
  distinct p q nonzero equal := by
    have first := (releases.kept nonzero).2
    have second := (releases.kept (p := q) (equal ▸ nonzero)).2
    simp only [first] at nonzero equal
    exact owns.distinct p q nonzero (equal.trans second)

/-- Every object that is left had an owner among the other tables. -/
theorem Releases.full (releases : Releases A F k A' F')
    (full : ∀ n, A n → ∃ p : κ × ι, F p.1 p.2 = n) :
    ∀ n, A' n → ∃ p : κ × ι, F' p.1 p.2 = n := by
  intro n held
  obtain ⟨before, free⟩ := (releases.left n).mp held
  obtain ⟨p, named⟩ := full n before
  have other : p.1 ≠ k := by
    intro same
    rw [same] at named
    exact free p.2 named
  exact ⟨p, (congrFun (releases.others p.1 other) p.2).trans named⟩

end Release

section Update

variable [DecidableEq ι]

theorem Owns.single (i : ι) (n : Nat) (held : A n) : Owns A (Function.update (fun _ => 0) i n) := by
  have only : ∀ j, Function.update (fun _ => 0) i n j ≠ 0 → j = i := by
    intro j nonzero
    by_contra other
    rw [Function.update_of_ne other] at nonzero
    exact nonzero rfl
  refine ⟨fun j nonzero => ?_, fun j k nonzero same => ?_⟩
  · rw [only j nonzero, Function.update_self]
    exact held
  · rw [only j nonzero, only k (same ▸ nonzero)]

/-- One null pointer receives one new object. -/
theorem Grows.one (P : ι → Nat) (i : ι) (n : Nat) (zero : P i = 0) (nonzero : n ≠ 0)
    (clear : ¬ A n) (after : ∀ k, A' k ↔ A k ∨ k = n) : Grows A P A' (Function.update P i n) where
  keeps j held := by
    have other : j ≠ i := by
      rintro rfl
      exact held zero
    exact Function.update_of_ne other _ _
  fresh j before held := by
    by_cases same : j = i
    · subst same
      rwa [Function.update_self]
    · rw [Function.update_of_ne same] at held
      exact absurd before held
  distinct j k before held before' _ := by
    have first : j = i := by
      by_contra other
      rw [Function.update_of_ne other] at held
      exact held before
    by_contra apart
    rename_i same
    have other : k ≠ i := fun second => apart (first.trans second.symm)
    rw [Function.update_of_ne other, before'] at same
    exact held same
  taken k := by
    rw [after]
    constructor
    · rintro (held | rfl)
      · exact Or.inl held
      · exact Or.inr ⟨i, zero, by rwa [Function.update_self], Function.update_self _ _ _⟩
    · rintro (held | ⟨j, before, held, same⟩)
      · exact Or.inl held
      · by_cases first : j = i
        · subst first
          rw [Function.update_self] at same
          exact Or.inr same.symm
        · rw [Function.update_of_ne first] at held
          exact absurd before held

variable [Fintype ι]

def held (P : ι → Nat) : Nat := (Finset.univ.filter fun i => P i ≠ 0).card

theorem held_update (P : ι → Nat) (i : ι) (n : Nat) (zero : P i = 0) (nonzero : n ≠ 0) :
    held (Function.update P i n) = held P + 1 := by
  have grown : (Finset.univ.filter fun j => Function.update P i n j ≠ 0) =
      insert i (Finset.univ.filter fun j => P j ≠ 0) := by
    ext j
    by_cases same : j = i
    · subst same
      simp [nonzero]
    · simp [same]
  unfold held
  rw [grown, Finset.card_insert_of_notMem (by simp [zero])]

/-- The count after the null pointers of a set of entries have been filled in. -/
theorem held_fill (P P' : ι → Nat) (F : Finset ι) (off : ∀ i, i ∉ F → P' i = P i)
    (on : ∀ i ∈ F, P' i ≠ 0) : held P' = held P + (F.filter fun i => P i = 0).card := by
  have grown : (Finset.univ.filter fun i => P' i ≠ 0) =
      (Finset.univ.filter fun i => P i ≠ 0) ∪ F.filter fun i => P i = 0 := by
    ext i
    by_cases member : i ∈ F
    · simpa [member, on i member] using (Decidable.em (P i = 0)).symm
    · simp [member, off i member]
  have apart : Disjoint (Finset.univ.filter fun i => P i ≠ 0) (F.filter fun i => P i = 0) := by
    rw [Finset.disjoint_left]
    intro i nonzero zero
    exact (Finset.mem_filter.mp nonzero).2 (Finset.mem_filter.mp zero).2
  unfold held
  rw [grown, Finset.card_union_of_disjoint apart]

omit [DecidableEq ι] in
theorem held_null : held (fun _ : ι => 0) = 0 := by
  simp [held]

omit [DecidableEq ι] in
theorem card_filter_le_held (P : ι → Nat) (F : Finset ι) :
    (F.filter fun i => P i ≠ 0).card ≤ held P :=
  Finset.card_le_card (Finset.filter_subset_filter _ (Finset.subset_univ F))

omit [DecidableEq ι] in
/-- A table that owns no more than before is the same. -/
theorem Grows.eq_of_held {A A' : Nat → Prop} {P P' : ι → Nat} (grows : Grows A P A' P')
    (few : held P' ≤ held P) : P' = P := by
  have subset : (Finset.univ.filter fun i => P i ≠ 0) ⊆ Finset.univ.filter fun i => P' i ≠ 0 := by
    intro i member
    rw [Finset.mem_filter] at member ⊢
    exact ⟨member.1, grows.of_ne_zero member.2⟩
  have same := Finset.eq_of_subset_of_card_le subset few
  funext i
  by_cases zero : P i = 0
  · by_contra other
    have member : i ∈ Finset.univ.filter fun i => P' i ≠ 0 := by
      rw [Finset.mem_filter]
      exact ⟨Finset.mem_univ i, fun zero' => other (zero'.trans zero.symm)⟩
    rw [← same, Finset.mem_filter] at member
    exact member.2 zero
  · exact grows.keeps i zero

omit [DecidableEq ι] in
/-- A set of entries that accounts for as many objects as the table owns has all of them. -/
theorem mem_of_held (P : ι → Nat) (F : Finset ι) (full : held P = (F.filter fun i => P i ≠ 0).card)
    (i : ι) (nonzero : P i ≠ 0) : i ∈ F := by
  have same : (F.filter fun i => P i ≠ 0) = Finset.univ.filter fun i => P i ≠ 0 :=
    Finset.eq_of_subset_of_card_le (Finset.filter_subset_filter _ (Finset.subset_univ F))
      (Nat.le_of_eq full)
  have member : i ∈ Finset.univ.filter fun i => P i ≠ 0 := by simpa using nonzero
  rw [← same] at member
  exact (Finset.mem_filter.mp member).1

omit [DecidableEq ι] in
/-- Giving back everything a table owns makes the set of objects smaller by that number. -/
theorem Owns.card_freed {S S' : Finset Nat} (owns : Owns (· ∈ S) P)
    (left : ∀ n, n ∈ S' ↔ n ∈ S ∧ ∀ i, P i ≠ n) (nonzero : 0 ∉ S) :
    S'.card + held P = S.card := by
  have injective : Set.InjOn P (Finset.univ.filter fun i => P i ≠ 0) := by
    intro i member j _ same
    exact owns.distinct i j (by simpa using member) same
  have subset : (Finset.univ.filter fun i => P i ≠ 0).image P ⊆ S := by
    intro n member
    obtain ⟨i, present, same⟩ := Finset.mem_image.mp member
    rw [← same]
    exact owns.inside i (by simpa using present)
  have rest : S' = S \ (Finset.univ.filter fun i => P i ≠ 0).image P := by
    ext n
    rw [left, Finset.mem_sdiff]
    refine and_congr_right fun inside => ?_
    have present : n ≠ 0 := fun zero => nonzero (zero ▸ inside)
    simp only [Finset.mem_image, Finset.mem_filter, Finset.mem_univ, true_and, not_exists, not_and]
    exact ⟨fun away i _ => away i, fun away i same => away i (same ▸ present) same⟩
  have fewer := Finset.card_sdiff_add_card_eq_card subset
  rw [Finset.card_image_of_injOn injective] at fewer
  rw [rest]
  exact fewer

omit [DecidableEq ι] in
/-- A table cannot own more objects than there are. -/
theorem Owns.held_le (owns : Owns A P) (bound : Nat) (below : ∀ n, A n → n < bound) :
    held P ≤ bound := by
  have injective : Set.InjOn P (Finset.univ.filter fun i => P i ≠ 0) := by
    intro i member j _ same
    exact owns.distinct i j (by simpa using member) same
  have image : (Finset.univ.filter fun i => P i ≠ 0).image P ⊆ Finset.range bound := by
    intro n member
    obtain ⟨i, nonzero, same⟩ := Finset.mem_image.mp member
    rw [Finset.mem_range, ← same]
    exact below _ (owns.inside i (by simpa using nonzero))
  have few := Finset.card_le_card image
  rwa [Finset.card_image_of_injOn injective, Finset.card_range] at few

end Update

end Ece344Lab.Ownership
