import Ece344Lab.Fs.IndexPath
import Ece344Lab.Lib.Ownership
import Mathlib.Tactic.DeriveFintype

set_option autoImplicit false

/- The block pointers of one inode as a table. -/
namespace Ece344Lab.Fs

open Ownership

/-- The places where an inode and its index blocks keep a pointer. -/
inductive Slot
  | direct (i : Fin 10)
  | indirect
  | entry (i : Fin 2048)
  | dindirect
  | page (i : Fin 2048)
  | dentry (i j : Fin 2048)
  deriving DecidableEq, Fintype

/-- The pointer at one position of an index block; where there is no index block it is null. -/
def indexEntry (dev : Device) (n i : Nat) : Nat :=
  if n = 0 then 0 else ((dev.block n).getInt i).toNat

/-- The pointer table of an inode. -/
def ptr (dev : Device) (d : Dinode) : Slot → Nat
  | .direct i => (d.iBlockNr i).toNat
  | .indirect => d.iIndirect.toNat
  | .entry i => indexEntry dev d.iIndirect.toNat i
  | .dindirect => d.iDindirect.toNat
  | .page i => indexEntry dev d.iDindirect.toNat i
  | .dentry i j => indexEntry dev (indexEntry dev d.iDindirect.toNat i) j

def path : Slot → List Slot
  | .direct i => [.direct i]
  | .indirect => [.indirect]
  | .entry i => [.indirect, .entry i]
  | .dindirect => [.dindirect]
  | .page i => [.dindirect, .page i]
  | .dentry i j => [.dindirect, .page i, .dentry i j]

theorem mem_path (s : Slot) : s ∈ path s := by
  cases s <;> simp [path]

/-- How many blocks it takes to reach a slot that has none. -/
def lacking (dev : Device) (d : Dinode) (s : Slot) : Nat :=
  ((path s).toFinset.filter fun t => ptr dev d t = 0).card

/-- The slot of a logical block. -/
def leaf (log : Nat) : Slot :=
  if direct : log < 10 then .direct ⟨log, direct⟩
  else if log < 2058 then .entry (Fin.ofNat 2048 (log - 10))
  else .dentry (Fin.ofNat 2048 ((log - 2058) / 2048)) (Fin.ofNat 2048 ((log - 2058) % 2048))

theorem leaf_direct (log : Nat) (small : log < 10) : leaf log = .direct ⟨log, small⟩ :=
  dif_pos small

theorem leaf_entry (log : Nat) (lower : 10 ≤ log) (upper : log < 2058) :
    leaf log = .entry ⟨log - 10, by omega⟩ := by
  have index : Fin.ofNat 2048 (log - 10) = ⟨log - 10, by omega⟩ :=
    Fin.ext (Nat.mod_eq_of_lt (by omega))
  rw [leaf, dif_neg (by omega), if_pos upper, index]

theorem leaf_dentry (log : Nat) (lower : 2058 ≤ log) (upper : log < 4196362) :
    leaf log = .dentry ⟨(log - 2058) / 2048, by omega⟩ ⟨(log - 2058) % 2048, by omega⟩ := by
  have row : Fin.ofNat 2048 ((log - 2058) / 2048) = ⟨(log - 2058) / 2048, by omega⟩ :=
    Fin.ext (Nat.mod_eq_of_lt (by omega))
  have column : Fin.ofNat 2048 ((log - 2058) % 2048) = ⟨(log - 2058) % 2048, by omega⟩ :=
    Fin.ext (Nat.mod_eq_of_lt (by omega))
  rw [leaf, dif_neg (by omega), if_neg (by omega), row, column]

/-- The slot that the indices of a path lead to. -/
inductive IndexPath.Leads : IndexPath → Slot → Prop
  | direct (i : Fin 10) : Leads (.direct i) (.direct i)
  | indirect (i : Fin 2048) : Leads (.indirect i) (.entry i)
  | dindirect (i j : Fin 2048) : Leads (.dindirect i j) (.dentry i j)

theorem IndexPath.Leads.unique {left right : IndexPath} {s : Slot} (first : left.Leads s)
    (second : right.Leads s) : left = right := by
  cases first <;> cases second <;> rfl

theorem indexPath_leads {log : Nat} (inside : log < 4196362) :
    (indexPath log).Leads (leaf log) := by
  rcases range_cases log with low | ⟨low, high⟩ | low
  · rw [leaf_direct log low, indexPath_direct low]
    exact .direct ⟨log, low⟩
  · rw [leaf_entry log low high, indexPath_indirect low high]
    exact .indirect ⟨log - 10, by omega⟩
  · rw [leaf_dentry log low inside, indexPath_dindirect low]
    exact .dindirect ⟨(log - 2058) / 2048, by omega⟩ ⟨(log - 2058) % 2048, by omega⟩

theorem leaf_injective {left right : Nat} (first : left < 4196362) (second : right < 4196362)
    (same : leaf left = leaf right) : left = right := by
  apply indexPath_injective
  have leads := indexPath_leads first
  rw [same] at leads
  exact leads.unique (indexPath_leads second)

/-- The three ranges of logical blocks. -/
theorem leaf_cases {log : Nat} (inside : log < 4196362) :
    (log < 10 ∧ ∃ i, leaf log = .direct i) ∨ (10 ≤ log ∧ log < 2058 ∧ ∃ i, leaf log = .entry i) ∨
      (2058 ≤ log ∧ ∃ i j, leaf log = .dentry i j) := by
  by_cases low : log < 10
  · exact Or.inl ⟨low, _, leaf_direct log low⟩
  · by_cases high : log < 2058
    · exact Or.inr (Or.inl ⟨by omega, high, _, leaf_entry log (by omega) high⟩)
    · exact Or.inr (Or.inr ⟨by omega, _, _, leaf_dentry log (by omega) inside⟩)

theorem range_of_leaf_direct {log : Nat} {i : Fin 10} (inside : log < 4196362)
    (shape : leaf log = .direct i) : log < 10 := by
  rcases leaf_cases inside with ⟨low, _⟩ | ⟨_, _, k, other⟩ | ⟨_, k, l, other⟩
  · exact low
  · cases shape.symm.trans other
  · cases shape.symm.trans other

/-- The logical blocks behind the single-indirect block. -/
theorem range_of_leaf_entry {log : Nat} {i : Fin 2048} (inside : log < 4196362)
    (shape : leaf log = .entry i) : 10 ≤ log ∧ log < 2058 := by
  rcases leaf_cases inside with ⟨_, k, other⟩ | ⟨low, high, _⟩ | ⟨_, k, l, other⟩
  · cases shape.symm.trans other
  · exact ⟨low, high⟩
  · cases shape.symm.trans other

theorem range_of_leaf_dentry {log : Nat} {i j : Fin 2048} (inside : log < 4196362)
    (shape : leaf log = .dentry i j) : 2058 ≤ log := by
  rcases leaf_cases inside with ⟨_, k, other⟩ | ⟨_, _, k, other⟩ | ⟨low, _⟩
  · cases shape.symm.trans other
  · cases shape.symm.trans other
  · exact low

/-- The slot of a logical block lies on no path to another one. -/
theorem leaf_mem_path {left right : Nat} (first : left < 4196362) (second : right < 4196362)
    (member : leaf left ∈ path (leaf right)) : left = right := by
  apply leaf_injective first second
  rcases leaf_cases first with ⟨_, i, shape⟩ | ⟨_, _, i, shape⟩ | ⟨_, i, j, shape⟩ <;>
    rcases leaf_cases second with ⟨_, k, shape'⟩ | ⟨_, _, k, shape'⟩ | ⟨_, k, l, shape'⟩ <;>
    rw [shape, shape'] at member ⊢ <;>
    simp_all [path]

theorem indexEntry_zero (dev : Device) (i : Nat) : indexEntry dev 0 i = 0 := rfl

theorem indexEntry_of_ne_zero (dev : Device) (n i : Nat) (nonzero : n ≠ 0) :
    indexEntry dev n i = ((dev.block n).getInt i).toNat :=
  if_neg nonzero

theorem indexEntry_congr {dev dev' : Device} {n : Nat} (same : n ≠ 0 → dev'.block n = dev.block n)
    (i : Nat) : indexEntry dev' n i = indexEntry dev n i := by
  unfold indexEntry
  split
  · rfl
  · rename_i nonzero
    rw [same nonzero]

theorem lacking_dentry (dev : Device) (d : Dinode) (i j : Fin 2048)
    (page : ptr dev d (.page i) = 0) (entry : ptr dev d (.dentry i j) = 0) :
    lacking dev d (.dentry i j) = if ptr dev d .dindirect = 0 then 3 else 2 := by
  have slots : (path (.dentry i j)).toFinset = {.dindirect, .page i, .dentry i j} := rfl
  unfold lacking
  rw [slots, Finset.filter_insert, Finset.filter_insert, Finset.filter_singleton, if_pos page,
    if_pos entry]
  split <;> rfl

theorem lacking_entry (dev : Device) (d : Dinode) (i : Fin 2048)
    (entry : ptr dev d (.entry i) = 0) :
    lacking dev d (.entry i) = if ptr dev d .indirect = 0 then 2 else 1 := by
  have slots : (path (.entry i)).toFinset = {.indirect, .entry i} := rfl
  unfold lacking
  rw [slots, Finset.filter_insert, Finset.filter_singleton, if_pos entry]
  split <;> rfl

theorem lacking_direct (dev : Device) (d : Dinode) (i : Fin 10) :
    lacking dev d (.direct i) = if ptr dev d (.direct i) = 0 then 1 else 0 := by
  have slots : (path (.direct i)).toFinset = {.direct i} := rfl
  unfold lacking
  rw [slots, Finset.filter_singleton]
  split <;> rfl

theorem ptr_ne_zero_of_lacking {dev : Device} {d : Dinode} {s : Slot}
    (none : lacking dev d s = 0) : ptr dev d s ≠ 0 := by
  intro null
  have member : s ∈ (path s).toFinset.filter fun t => ptr dev d t = 0 :=
    Finset.mem_filter.mpr ⟨List.mem_toFinset.mpr (mem_path s), null⟩
  rw [Finset.card_eq_zero.mp none] at member
  cases member

theorem length_path (s : Slot) : (path s).length ≤ 3 := by
  cases s <;> simp [path]

theorem lacking_le (dev : Device) (d : Dinode) (s : Slot) : lacking dev d s ≤ 3 :=
  (Finset.card_filter_le _ _).trans ((List.toFinset_card_le _).trans (length_path s))

/-- The slots whose pointer names an index block. -/
def Slot.index : Slot → Bool
  | .indirect => true
  | .dindirect => true
  | .page _ => true
  | _ => false

theorem ptr_zero (dev : Device) (s : Slot) : ptr dev Dinode.zero s = 0 := by
  cases s <;> rfl

/-- The table depends on the device through the index blocks only. -/
theorem ptr_congr {dev dev' : Device} {d : Dinode}
    (same : ∀ s, s.index = true → ptr dev d s ≠ 0 →
      dev'.block (ptr dev d s) = dev.block (ptr dev d s)) : ptr dev' d = ptr dev d := by
  have indirect := same .indirect rfl
  have dindirect := same .dindirect rfl
  funext s
  cases s with
  | direct i => rfl
  | indirect => rfl
  | entry i => exact indexEntry_congr indirect i
  | dindirect => rfl
  | page i => exact indexEntry_congr dindirect i
  | dentry i j =>
      change indexEntry dev' (indexEntry dev' d.iDindirect.toNat i) j = _
      have page : indexEntry dev' d.iDindirect.toNat i = indexEntry dev d.iDindirect.toNat i :=
        indexEntry_congr dindirect i
      rw [page]
      exact indexEntry_congr (same (.page i) rfl) j

section Attach

variable (dev : Device) (d : Dinode)

theorem ptr_setDirect (i : Fin nrDirectBlocks) (n : BitVec 32) :
    ptr dev { d with iBlockNr := fun j => if j = i then n else d.iBlockNr j } =
      Function.update (ptr dev d) (.direct i) n.toNat := by
  funext s
  by_cases same : s = .direct i
  · subst same
    simp [ptr]
  · rw [Function.update_of_ne same]
    cases s with
    | direct j =>
        have other : j ≠ i := fun equal => same (congrArg Slot.direct equal)
        simp [ptr, other]
    | _ => rfl

theorem toNat_eq_zero (w : BitVec 32) : w.toNat = 0 ↔ w = 0 := by
  constructor
  · intro zero
    exact BitVec.eq_of_toNat_eq (by simpa using zero)
  · rintro rfl
    rfl

/-- A single-indirect block of null pointers attached. -/
theorem ptr_setIndirect (m : BitVec 32) (absent : d.iIndirect = 0)
    (blank : dev.block m.toNat = Buffer.zero) :
    ptr dev { d with iIndirect := m } = Function.update (ptr dev d) .indirect m.toNat := by
  funext s
  cases s with
  | entry i =>
      have before : ptr dev d (.entry i) = 0 := by simp [ptr, absent, indexEntry]
      rw [Function.update_of_ne (by simp), before]
      simp only [ptr, indexEntry, blank, Buffer.getInt_zero]
      split <;> rfl
  | indirect => rw [Function.update_self]; rfl
  | _ => rw [Function.update_of_ne (by simp)]; rfl

/-- A double-indirect block of null pointers attached. -/
theorem ptr_setDindirect (m : BitVec 32) (absent : d.iDindirect = 0)
    (blank : dev.block m.toNat = Buffer.zero) :
    ptr dev { d with iDindirect := m } = Function.update (ptr dev d) .dindirect m.toNat := by
  have page : ∀ i : Fin 2048, indexEntry dev m.toNat i = 0 := by
    intro i
    simp only [indexEntry, blank, Buffer.getInt_zero]
    split <;> rfl
  funext s
  cases s with
  | page i =>
      have before : ptr dev d (.page i) = 0 := by simp [ptr, absent, indexEntry]
      rw [Function.update_of_ne (by simp), before]
      exact page i
  | dentry i j =>
      have before : ptr dev d (.dentry i j) = 0 := by simp [ptr, absent, indexEntry]
      rw [Function.update_of_ne (by simp), before]
      change indexEntry dev (indexEntry dev m.toNat i) j = 0
      rw [page i, indexEntry_zero]
  | dindirect => rw [Function.update_self]; rfl
  | _ => rw [Function.update_of_ne (by simp)]; rfl

variable {dev d} {A : Nat → Prop}

theorem indexEntry_set_of_ne (n k i : Nat) (b : Block) (apart : k ≠ n) :
    indexEntry (dev.set n b) k i = indexEntry dev k i :=
  indexEntry_congr (fun _ => Device.block_set_of_ne _ _ _ _ apart) i

theorem indexEntry_setInt (n : Nat) (i k : Fin 2048) (w : BitVec 32) (nonzero : n ≠ 0) :
    indexEntry (dev.set n ((dev.block n).setInt i w)) n k =
      if k = i then w.toNat else indexEntry dev n k := by
  have fits : 4 * i.val + 4 ≤ blockSize := by
    have inside := i.isLt
    simp only [blockSize]
    omega
  rw [indexEntry_of_ne_zero _ _ _ nonzero, Device.block_set_same,
    indexEntry_of_ne_zero _ _ _ nonzero]
  split
  · rename_i same
    rw [same, Buffer.getInt_setInt_same _ _ _ fits]
  · rename_i other
    rw [Buffer.getInt_setInt_of_ne _ _ _ _ fun equal => other (Fin.ext equal.symm)]

/-- One entry of the single-indirect block set. -/
theorem ptr_setEntry (owned : Owns A (ptr dev d)) (i : Fin 2048) (n : BitVec 32)
    (present : ptr dev d .indirect ≠ 0) :
    ptr (dev.set (ptr dev d .indirect) ((dev.block (ptr dev d .indirect)).setInt i n)) d =
      Function.update (ptr dev d) (.entry i) n.toNat := by
  have page : ∀ k : Fin 2048, indexEntry (dev.set (ptr dev d .indirect)
      ((dev.block (ptr dev d .indirect)).setInt i n)) (ptr dev d .dindirect) k =
        ptr dev d (.page k) :=
    fun k => indexEntry_set_of_ne _ _ _ _ (owned.ne (by simp) present)
  funext s
  cases s with
  | entry k =>
      change indexEntry _ (ptr dev d .indirect) k = _
      rw [indexEntry_setInt _ _ _ _ present, Function.update_apply]
      simp only [Slot.entry.injEq]
      rfl
  | page k =>
      rw [Function.update_of_ne (by simp)]
      exact page k
  | dentry k l =>
      rw [Function.update_of_ne (by simp)]
      change indexEntry _ (indexEntry _ (ptr dev d .dindirect) k) l = _
      rw [page k, indexEntry_set_of_ne _ _ _ _ (owned.ne (by simp) present)]
      rfl
  | _ => rw [Function.update_of_ne (by simp)]; rfl

/-- One entry of a page of the double-indirect block set. -/
theorem ptr_setDentry (owned : Owns A (ptr dev d)) (i j : Fin 2048) (n : BitVec 32)
    (present : ptr dev d (.page i) ≠ 0) :
    ptr (dev.set (ptr dev d (.page i)) ((dev.block (ptr dev d (.page i))).setInt j n)) d =
      Function.update (ptr dev d) (.dentry i j) n.toNat := by
  have page : ∀ k : Fin 2048, indexEntry (dev.set (ptr dev d (.page i))
      ((dev.block (ptr dev d (.page i))).setInt j n)) (ptr dev d .dindirect) k =
        ptr dev d (.page k) :=
    fun k => indexEntry_set_of_ne _ _ _ _ (owned.ne (by simp) present)
  funext s
  cases s with
  | entry k =>
      rw [Function.update_of_ne (by simp)]
      exact indexEntry_set_of_ne _ _ _ _ (owned.ne (i := .indirect) (by simp) present)
  | page k =>
      rw [Function.update_of_ne (by simp)]
      exact page k
  | dentry k l =>
      change indexEntry _ (indexEntry _ (ptr dev d .dindirect) k) l = _
      rw [page k, Function.update_apply]
      by_cases same : k = i
      · subst same
        rw [indexEntry_setInt _ _ _ _ present]
        simp only [Slot.dentry.injEq, true_and]
        rfl
      · rw [indexEntry_set_of_ne _ _ _ _ (owned.ne (by simpa using same) present),
          if_neg (by simp [same])]
        rfl
  | _ => rw [Function.update_of_ne (by simp)]; rfl

/-- A page of null pointers attached to the double-indirect block. -/
theorem ptr_setPage (owned : Owns A (ptr dev d)) (i : Fin 2048) (n : BitVec 32)
    (present : ptr dev d .dindirect ≠ 0) (absent : ptr dev d (.page i) = 0)
    (apart : n.toNat ≠ ptr dev d .dindirect) (blank : dev.block n.toNat = Buffer.zero) :
    ptr (dev.set (ptr dev d .dindirect) ((dev.block (ptr dev d .dindirect)).setInt i n)) d =
      Function.update (ptr dev d) (.page i) n.toNat := by
  have page : ∀ k : Fin 2048, indexEntry (dev.set (ptr dev d .dindirect)
      ((dev.block (ptr dev d .dindirect)).setInt i n)) (ptr dev d .dindirect) k =
        if k = i then n.toNat else ptr dev d (.page k) :=
    fun k => indexEntry_setInt _ _ _ _ present
  funext s
  cases s with
  | entry k =>
      rw [Function.update_of_ne (by simp)]
      exact indexEntry_set_of_ne _ _ _ _ (owned.ne (i := .indirect) (by simp) present)
  | page k =>
      rw [Function.update_apply]
      simp only [Slot.page.injEq]
      exact page k
  | dentry k l =>
      rw [Function.update_of_ne (by simp)]
      change indexEntry _ (indexEntry _ (ptr dev d .dindirect) k) l =
        indexEntry dev (ptr dev d (.page k)) l
      rw [page k]
      by_cases same : k = i
      · subst same
        rw [if_pos rfl, indexEntry_set_of_ne _ _ _ _ apart, absent, indexEntry_zero]
        simp only [indexEntry, blank, Buffer.getInt_zero]
        split <;> rfl
      · rw [if_neg same, indexEntry_set_of_ne _ _ _ _ (owned.ne (by simp) present)]
  | _ => rw [Function.update_of_ne (by simp)]; rfl

end Attach

end Ece344Lab.Fs
