import Ece344Lab.Fs.Session

set_option autoImplicit false

/- A directory as a finite map from names to inode numbers. -/
namespace Ece344Lab.Fs

open Outcome Ownership

/-- The inode number that the entries give a name. -/
def lookupEntry (es : List Dirent) (name : List Byte) : Option Nat :=
  (es.find? fun d => d.live && d.named name).map Dirent.target

/-- No two live entries have the same name. -/
def DistinctNames (es : List Dirent) : Prop :=
  ((es.filter Dirent.live).map fun d => cString d.name).Nodup

section Entries

variable {d : Dirent} {es es' : List Dirent} {name : List Byte}

theorem lookupEntry_cons (d : Dirent) (es : List Dirent) (name : List Byte) :
    lookupEntry (d :: es) name =
      if d.live = true ∧ d.named name = true then some d.target else lookupEntry es name := by
  unfold lookupEntry
  rw [List.find?_cons]
  cases d.live <;> cases d.named name <;> rfl

theorem lookupEntry_dead (d : Dirent) (es : List Dirent) (name : List Byte)
    (dead : d.live = false) : lookupEntry (d :: es) name = lookupEntry es name := by
  rw [lookupEntry_cons, dead, if_neg]
  exact fun both => Bool.false_ne_true both.1

theorem lookupEntry_live (d : Dirent) (es : List Dirent) (name : List Byte)
    (live : d.live = true) :
    lookupEntry (d :: es) name = if d.named name = true then some d.target
      else lookupEntry es name := by
  rw [lookupEntry_cons]
  simp only [live, true_and]

theorem lookupEntry_eq_none : lookupEntry es name = none ↔
    ∀ d ∈ es, d.live = true → cString d.name ≠ name := by
  unfold lookupEntry
  rw [Option.map_eq_none_iff, List.find?_eq_none]
  unfold Dirent.named
  simp only [Bool.and_eq_true, decide_eq_true_eq, not_and]

theorem named_iff : d.named name = true ↔ cString d.name = name := decide_eq_true_iff

theorem InsertedAt.lookup (place : InsertedAt d es es') (live : d.live = true)
    (absent : lookupEntry es (cString d.name) = none) (name : List Byte) :
    lookupEntry es' name = if d.named name = true then some d.target else lookupEntry es name := by
  induction place with
  | append => exact lookupEntry_live d [] name live
  | reuse old after freed _ => rw [lookupEntry_live d after name live, lookupEntry_dead _ _ _ freed]
  | later e rest ih =>
      rename_i es es'
      rw [lookupEntry_cons] at absent ⊢
      rw [lookupEntry_cons e es]
      by_cases same : e.live = true ∧ e.named name = true
      · have other : ¬ d.named name = true := by
          intro named
          rw [named_iff.mp named, if_pos same] at absent
          cases absent
        rw [if_pos same, if_pos same, if_neg other]
      · rw [if_neg same, if_neg same]
        apply ih
        by_cases same' : e.live = true ∧ e.named (cString d.name) = true
        · rw [if_pos same'] at absent
          cases absent
        · rw [if_neg same'] at absent
          exact absent

theorem InsertedAt.distinct (place : InsertedAt d es es') (live : d.live = true)
    (absent : lookupEntry es (cString d.name) = none) (distinct : DistinctNames es) :
    DistinctNames es' := by
  unfold DistinctNames at distinct ⊢
  rw [((place.perm live).map fun d => cString d.name).nodup_iff, List.map_cons, List.nodup_cons]
  refine ⟨?_, distinct⟩
  intro taken
  obtain ⟨e, member, same⟩ := List.mem_map.mp taken
  have both := List.mem_filter.mp member
  exact lookupEntry_eq_none.mp absent e both.1 both.2 same

theorem FreedAt.distinct (place : FreedAt d es es') (distinct : DistinctNames es) :
    DistinctNames es' := by
  unfold DistinctNames at distinct ⊢
  rw [(place.perm.map fun d => cString d.name).nodup_iff, List.map_cons,
    List.nodup_cons] at distinct
  exact distinct.2

/-- No other live entry has the name of the one that is freed. -/
theorem FreedAt.gone (place : FreedAt d es es') (distinct : DistinctNames es) :
    lookupEntry es' (cString d.name) = none := by
  unfold DistinctNames at distinct
  rw [(place.perm.map fun d => cString d.name).nodup_iff, List.map_cons,
    List.nodup_cons] at distinct
  apply lookupEntry_eq_none.mpr
  intro e member live same
  exact distinct.1 (List.mem_map.mpr ⟨e, List.mem_filter.mpr ⟨member, live⟩, same⟩)

theorem FreedAt.lookup (place : FreedAt d es es') (distinct : DistinctNames es)
    (name : List Byte) :
    lookupEntry es' name = if d.named name = true then none else lookupEntry es name := by
  by_cases named : d.named name = true
  · rw [if_pos named, ← named_iff.mp named]
    exact place.gone distinct
  · rw [if_neg named]
    clear distinct
    induction place with
    | here after live =>
        rw [lookupEntry_live d after name live, if_neg named]
        exact lookupEntry_dead _ _ _ d.freed_live
    | later e rest ih => rw [lookupEntry_cons, lookupEntry_cons, ih]

end Entries

/-- At most one record differs: one has been added at the end, or one has been replaced by another
of the same length. -/
def OneChanged (es es' : List Dirent) : Prop :=
  es' = es ∨ (∃ d, es' = es ++ [d]) ∨
    ∃ before old new after, es = before ++ old :: after ∧ es' = before ++ new :: after ∧
      new.bytes.length = old.bytes.length

theorem OneChanged.behind {es es' : List Dirent} (changed : OneChanged es es') (e : Dirent) :
    OneChanged (e :: es) (e :: es') := by
  rcases changed with same | ⟨d, same⟩ | ⟨before, old, new, after, same, same', length⟩
  · exact Or.inl (same ▸ rfl)
  · exact Or.inr (Or.inl ⟨d, same ▸ rfl⟩)
  · exact Or.inr (Or.inr ⟨e :: before, old, new, after, same ▸ rfl, same' ▸ rfl, length⟩)

theorem InsertedAt.oneChanged {d : Dirent} {es es' : List Dirent} (place : InsertedAt d es es') :
    OneChanged es es' := by
  induction place with
  | append => exact Or.inr (Or.inl ⟨d, rfl⟩)
  | reuse old after freed length =>
      refine Or.inr (Or.inr ⟨[], old, d, after, rfl, rfl, ?_⟩)
      rw [Dirent.length_bytes, Dirent.length_bytes, length]
  | later e rest ih => exact ih.behind e

theorem FreedAt.oneChanged {d : Dirent} {es es' : List Dirent} (place : FreedAt d es es') :
    OneChanged es es' := by
  induction place with
  | here after live =>
      refine Or.inr (Or.inr ⟨[], d, d.freed, after, rfl, rfl, ?_⟩)
      rw [Dirent.length_bytes, Dirent.length_bytes]
      rfl
  | later e rest ih => exact ih.behind e

/-- The records that `testfs_next_dirent` finds from offset 0 on. Each starts where the one before
ends, the last ends with the directory, and together they are its bytes. -/
structure Records (sb : SuperBlock) (dir : Dinode) (es : List Dirent) : Prop where
  next : ∀ before d after, es = before ++ d :: after →
    testfsNextDirent sb dir (direntsSize before) = .ok (some (d, direntsSize (before ++ [d])))
  stop : testfsNextDirent sb dir (direntsSize es) = .ok none
  size : dir.size = direntsSize es
  bytes : fileBytes sb.dev dir 0 (direntsSize es) = direntsBytes es

section Records

variable {sb : SuperBlock} {dir : Dinode} {es es' : List Dirent}

/-- The code finds one sequence of records only. -/
theorem Records.unique (records : Records sb dir es) (records' : Records sb dir es') :
    es = es' := by
  have same : ∀ rest rest' before, es = before ++ rest → es' = before ++ rest' → rest = rest' := by
    intro rest
    induction rest with
    | nil =>
        intro rest' before split split'
        cases rest' with
        | nil => rfl
        | cons d after =>
            have stop := records.stop
            rw [split, List.append_nil, records'.next before d after split'] at stop
            cases stop
    | cons d after ih =>
        intro rest' before split split'
        have next := records.next before d after split
        cases rest' with
        | nil =>
            have stop := records'.stop
            rw [split', List.append_nil, next] at stop
            cases stop
        | cons d' after' =>
            rw [records'.next before d' after' split'] at next
            have first : d' = d := congrArg Prod.fst (Option.some.inj (Except.ok.inj next))
            subst first
            rw [ih after' (before ++ [d']) (by simp [split]) (by simp [split'])]
  exact same es es' [] rfl rfl

/-- A call that could only fail at the end of the image returns. -/
theorem returns_of_stored {α : Type} {x : Except Halt α} {v : α} {dev : Device}
    (spec : Sat x (fun r => r = v) fun e => e = .exit ∧ ¬ Stored dev dir)
    (stored : Stored dev dir) : x = .ok v := by
  obtain ⟨r, ran, same⟩ := spec.exists_of fun e stop => stop.2 stored
  rw [ran, same]

theorem Listing.records (listing : Listing sb dir es) (stored : Stored sb.dev dir) :
    Records sb dir es where
  next before d after split := returns_of_stored (listing.next before after d split) stored
  stop := listing.next_end
  size := listing.size
  bytes := listing.bytes

/-- The inode number that `testfs_dir_name_to_inode_nr` returns for what a map gives a name. -/
def nameResult : Option Nat → Int
  | some n => n
  | none => -eNOENT

theorem Listing.lookup (listing : Listing sb dir es) (stored : Stored sb.dev dir)
    (name : List Byte) :
    testfsDirNameToInodeNr sb dir name = .ok (nameResult (lookupEntry es name)) := by
  rw [returns_of_stored (listing.nameToInodeNr name) stored]
  unfold lookupEntry
  cases found : es.find? fun d => d.live && d.named name with
  | none => rfl
  | some d =>
      have live := List.find?_some found
      rw [Bool.and_eq_true] at live
      have nonneg : 0 ≤ d.dInodeNr.toInt := of_decide_eq_true live.1
      congr 1
      exact (Int.toNat_of_nonneg nonneg).symm

end Records

/-- What each directory says of each name. -/
abbrev NameMap := Nat → List Byte → Option Nat

def newNames (n parent : Nat) : List Byte → Option Nat := fun name =>
  if name = dot then some n else if name = dotDot then some parent else none

/-- The directory `p` gives a name to an inode or takes it away. -/
def NameMap.enter (g : NameMap) (p : Nat) (name : List Byte) (target : Option Nat) : NameMap :=
  Function.update g p (Function.update (g p) name target)

theorem lookupEntry_emptyDir {n parent : Nat} (inside : n < 16384) (inside' : parent < 16384) :
    lookupEntry (emptyDir n parent) = newNames n parent := by
  funext name
  unfold emptyDir newNames
  rw [lookupEntry_live _ _ _ (newDirent_live inside),
    lookupEntry_live _ _ _ (newDirent_live inside'),
    target_newDirent inside, target_newDirent inside']
  simp only [newDirent_named dot_noNul, newDirent_named dotDot_noNul, eq_comm (a := name)]
  rfl

theorem distinct_emptyDir {n parent : Nat} (inside : n < 16384) (inside' : parent < 16384) :
    DistinctNames (emptyDir n parent) := by
  unfold DistinctNames emptyDir
  rw [List.filter_cons_of_pos (newDirent_live inside),
    List.filter_cons_of_pos (newDirent_live inside')]
  have first : cString (newDirent dot n).name = dot := cString_terminated dot_noNul
  have second : cString (newDirent dotDot parent).name = dotDot := cString_terminated dotDot_noNul
  simp only [List.filter_nil, List.map_cons, List.map_nil, first, second]
  decide

end Ece344Lab.Fs
