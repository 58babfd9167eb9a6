import Mathlib.Data.List.Basic
import Mathlib.Data.List.Nodup

set_option autoImplicit false

/- Lists of records that are looked up by a key. -/
namespace Ece344Lab.Keyed

universe u v

variable {α : Type u} {κ : Type v} [DecidableEq κ] (key : α → κ)

def lookup (items : List α) (k : κ) : Option α := items.find? fun a => key a = k

/-- Every record with the key of `item` replaced by it. -/
def replace (items : List α) (item : α) : List α :=
  items.map fun other => if key other = key item then item else other

def remove (items : List α) (k : κ) : List α := items.eraseP fun a => key a = k

variable {key}

theorem lookup_key {items : List α} {k : κ} {a : α} (found : lookup key items k = some a) :
    key a = k := by
  simpa using List.find?_some found

theorem lookup_mem {items : List α} {k : κ} {a : α} (found : lookup key items k = some a) :
    a ∈ items :=
  List.mem_of_find?_eq_some found

theorem lookup_eq_none {items : List α} {k : κ} :
    lookup key items k = none ↔ k ∉ items.map key := by
  rw [lookup, List.find?_eq_none, List.mem_map]
  constructor
  · rintro none ⟨a, member, same⟩
    exact none a member (decide_eq_true same)
  · intro none a member same
    exact none ⟨a, member, of_decide_eq_true same⟩

theorem lookup_cons (item : α) (items : List α) (k : κ) :
    lookup key (item :: items) k = if key item = k then some item else lookup key items k := by
  unfold lookup
  by_cases same : key item = k <;> simp [same]

theorem keys_replace (items : List α) (item : α) :
    (replace key items item).map key = items.map key := by
  unfold replace
  rw [List.map_map]
  apply List.map_congr_left
  intro other _
  by_cases same : key other = key item <;> simp [same]

theorem lookup_replace_of_ne (items : List α) (item : α) (k : κ) (other : k ≠ key item) :
    lookup key (replace key items item) k = lookup key items k := by
  induction items with
  | nil => rfl
  | cons first rest ih =>
      unfold replace at ih ⊢
      rw [List.map_cons, lookup_cons, lookup_cons, ih]
      by_cases same : key first = key item
      · rw [if_pos same, same, if_neg fun equal => other equal.symm,
          if_neg fun equal => other equal.symm]
      · rw [if_neg same]

theorem lookup_replace_same (items : List α) (item : α) (present : key item ∈ items.map key) :
    lookup key (replace key items item) (key item) = some item := by
  induction items with
  | nil => simp at present
  | cons first rest ih =>
      unfold replace at ih ⊢
      rw [List.map_cons, lookup_cons]
      by_cases same : key first = key item
      · rw [if_pos same, if_pos rfl]
      · rw [if_neg same, if_neg same]
        apply ih
        rw [List.map_cons, List.mem_cons] at present
        exact present.resolve_left fun equal => same equal.symm

theorem lookup_remove_of_ne (items : List α) (k other : κ) (apart : other ≠ k) :
    lookup key (remove key items k) other = lookup key items other := by
  induction items with
  | nil => rfl
  | cons first rest ih =>
      unfold remove at ih ⊢
      rw [List.eraseP_cons]
      by_cases same : key first = k
      · have distinct : key first ≠ other := fun equal => apart (equal.symm.trans same)
        rw [lookup_cons, if_neg distinct]
        simp [same]
      · simp [same, lookup_cons, ih]

theorem keys_remove (items : List α) (k : κ) :
    (remove key items k).map key = (items.map key).erase k := by
  induction items with
  | nil => rfl
  | cons first rest ih =>
      unfold remove at ih ⊢
      rw [List.eraseP_cons, List.map_cons, List.erase_cons]
      by_cases same : key first = k <;> simp [same, ih]

theorem lookup_remove_same (items : List α) (k : κ) (distinct : (items.map key).Nodup) :
    lookup key (remove key items k) k = none := by
  rw [lookup_eq_none, keys_remove]
  exact distinct.not_mem_erase

theorem remove_append_cons {front back : List α} {a : α}
    (distinct : ((front ++ a :: back).map key).Nodup) :
    remove key (front ++ a :: back) (key a) = front ++ back := by
  rw [List.map_append, List.map_cons] at distinct
  have other : ∀ b ∈ front, ¬ decide (key b = key a) = true := by
    intro b member same
    exact (List.nodup_append.mp distinct).2.2 _ (List.mem_map_of_mem member) _ List.mem_cons_self
      (of_decide_eq_true same)
  unfold remove
  rw [List.eraseP_append_right _ other]
  simp

theorem nodup_cons {items : List α} {item : α} (distinct : (items.map key).Nodup)
    (absent : lookup key items (key item) = none) : ((item :: items).map key).Nodup := by
  rw [List.map_cons, List.nodup_cons]
  exact ⟨lookup_eq_none.mp absent, distinct⟩

theorem nodup_replace {items : List α} (distinct : (items.map key).Nodup) (item : α) :
    ((replace key items item).map key).Nodup := by
  rwa [keys_replace]

theorem nodup_remove {items : List α} (distinct : (items.map key).Nodup) (k : κ) :
    ((remove key items k).map key).Nodup := by
  rw [keys_remove]
  exact distinct.erase k

theorem lookup_of_mem {items : List α} (distinct : (items.map key).Nodup) {a : α}
    (member : a ∈ items) : lookup key items (key a) = some a := by
  induction items with
  | nil => simp at member
  | cons first rest ih =>
      rw [List.map_cons, List.nodup_cons] at distinct
      rw [lookup_cons]
      rcases List.mem_cons.mp member with rfl | later
      · rw [if_pos rfl]
      · have apart : key first ≠ key a := by
          intro same
          exact distinct.1 (same ▸ List.mem_map_of_mem later)
        rw [if_neg apart]
        exact ih distinct.2 later

omit [DecidableEq κ] in
/-- Among the records passing a test, whose keys are distinct, one position has a given key. -/
theorem existsUnique_index {items : List α} (test : α → Bool)
    (distinct : ((items.filter test).map key).Nodup) {k : κ}
    (present : k ∈ (items.filter test).map key) :
    ∃! i : Nat, ∃ a, items[i]? = some a ∧ test a = true ∧ key a = k := by
  induction items with
  | nil => simp at present
  | cons first rest ih =>
      by_cases passes : test first = true
      · rw [List.filter_cons_of_pos passes, List.map_cons] at distinct present
        obtain ⟨new, later⟩ := List.nodup_cons.mp distinct
        cases List.mem_cons.mp present with
        | inl here =>
            refine ⟨0, ⟨first, rfl, passes, here.symm⟩, ?_⟩
            intro i found
            obtain ⟨a, at', passes', same⟩ := found
            cases i with
            | zero => rfl
            | succ i =>
                rw [List.getElem?_cons_succ] at at'
                have member := List.mem_of_getElem? at'
                refine absurd ?_ new
                rw [← here, ← same]
                exact List.mem_map_of_mem (List.mem_filter.mpr ⟨member, passes'⟩)
        | inr there =>
            obtain ⟨i, found, unique⟩ := ih later there
            refine ⟨i + 1, by simpa using found, ?_⟩
            intro j found'
            cases j with
            | zero =>
                obtain ⟨a, at', _, same⟩ := found'
                obtain rfl := Option.some.inj at'
                exact absurd (same ▸ there) new
            | succ j =>
                simp only [List.getElem?_cons_succ] at found'
                rw [unique j found']
      · rw [List.filter_cons_of_neg passes] at distinct present
        obtain ⟨i, found, unique⟩ := ih distinct present
        refine ⟨i + 1, by simpa using found, ?_⟩
        intro j found'
        cases j with
        | zero =>
            obtain ⟨a, at', passes', _⟩ := found'
            obtain rfl := Option.some.inj at'
            exact absurd passes' passes
        | succ j =>
            simp only [List.getElem?_cons_succ] at found'
            rw [unique j found']

end Ece344Lab.Keyed
