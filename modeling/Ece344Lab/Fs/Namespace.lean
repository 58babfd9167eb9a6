import Ece344Lab.Lib.Tree
import Ece344Lab.Fs.CreateFile

set_option autoImplicit false

/- The directories of a state as one tree. -/
namespace Ece344Lab.Fs

open Outcome Ownership Rooted

def State.IsDir (s : State) (n : Nat) : Prop :=
  s.sb.InodeAllocated n ∧ (s.view n).iType = InodeType.dir.code

/-- The inode that an entry names. -/
def Dirent.target (d : Dirent) : Nat := d.dInodeNr.toInt.toNat

/-- The inodes named behind "." and "..". -/
def kids (dirs : Nat → List Dirent) (n : Nat) : List Nat :=
  (((dirs n).drop 2).filter Dirent.live).map Dirent.target

/-- The entries of a directory: ".", "..", and no live entry of these names behind them. -/
structure Shape (n parent : Nat) (es : List Dirent) : Prop where
  split : es = emptyDir n parent ++ es.drop 2
  names : ∀ d ∈ es.drop 2, d.live = true → d.named dot = false ∧ d.named dotDot = false

/-- `dirs` are the entries of the directories, and they form a tree over the inodes in use. -/
structure Namespace (s : State) (dirs : Nat → List Dirent) : Prop where
  intact : Intact s
  kinds : ∀ n, s.sb.InodeAllocated n →
    (s.view n).iType = InodeType.file.code ∨ (s.view n).iType = InodeType.dir.code
  listed : ∀ n, s.IsDir n → DirOk s n (dirs n)
  others : ∀ n, ¬ s.IsDir n → dirs n = []
  shape : ∀ n, s.IsDir n → ∃ parent, Shape n parent (dirs n) ∧
    (n = 0 ∧ parent = 0 ∨ n ∈ kids dirs parent)
  tree : IsTree s.sb.InodeAllocated 0 (kids dirs)
  root : s.IsDir 0

namespace Shape

variable {n parent : Nat} {es es' : List Dirent}

theorem drop_two (shape : Shape n parent es) :
    es = newDirent dot n :: newDirent dotDot parent :: es.drop 2 := shape.split

theorem inserted {name : List Byte} {m : Nat} (shape : Shape n parent es) (inside : n < 16384)
    (inside' : parent < 16384) (small : m < 16384) (noNul : ∀ b ∈ name, b ≠ 0)
    (other : name ≠ dot) (other' : name ≠ dotDot)
    (place : InsertedAt (newDirent name m) es es') :
    Shape n parent es' ∧ ((es'.drop 2).filter Dirent.live).Perm
      (newDirent name m :: (es.drop 2).filter Dirent.live) := by
  have live : (newDirent dot n).live = true := newDirent_live inside
  have live' : (newDirent dotDot parent).live = true := newDirent_live inside'
  rw [shape.drop_two] at place
  cases place with
  | reuse _ _ freed _ => exact absurd live (by rw [freed]; decide)
  | later _ place =>
      cases place with
      | reuse _ _ freed _ => exact absurd live' (by rw [freed]; decide)
      | later _ place =>
          rename_i rest
          refine ⟨⟨rfl, ?_⟩, place.perm (newDirent_live small)⟩
          intro d member alive
          cases place.mem member with
          | inl before => exact shape.names d before alive
          | inr same =>
              rw [same]
              refine ⟨Bool.eq_false_iff.mpr fun named => ?_, Bool.eq_false_iff.mpr fun named => ?_⟩
              · exact other ((newDirent_named noNul _).mp named)
              · exact other' ((newDirent_named noNul _).mp named)

/-- The freed entry was one behind "..". -/
theorem freed {name : List Byte} {d : Dirent} (shape : Shape n parent es)
    (named : d.named name = true) (other : name ≠ dot) (other' : name ≠ dotDot)
    (place : FreedAt d es es') :
    Shape n parent es' ∧ ((es.drop 2).filter Dirent.live).Perm
      (d :: (es'.drop 2).filter Dirent.live) := by
  rw [shape.drop_two] at place
  cases place with
  | here _ _ =>
      rw [newDirent_named dot_noNul] at named
      exact absurd named.symm other
  | later _ place =>
      cases place with
      | here _ _ =>
          rw [newDirent_named dotDot_noNul] at named
          exact absurd named.symm other'
      | later _ place =>
          refine ⟨⟨rfl, ?_⟩, place.perm⟩
          intro e member alive
          cases place.mem member with
          | inl before => exact shape.names e before alive
          | inr same =>
              rw [same, Dirent.freed_live] at alive
              cases alive

/-- A directory without entries that block its removal has none behind "..". -/
theorem leaf (shape : Shape n parent es) (none : es.find? blocksRemoval = none) :
    (es.drop 2).filter Dirent.live = [] := by
  rw [List.filter_eq_nil_iff]
  intro d member alive
  obtain ⟨first, second⟩ := shape.names d member alive
  have blocked := List.find?_eq_none.mp none d (List.mem_of_mem_drop member)
  unfold blocksRemoval at blocked
  rw [alive, first, second] at blocked
  exact blocked rfl

end Shape

section Steps

variable {s s' : State} {dirs : Nat → List Dirent}

theorem Namespace.carried (space : Namespace s dirs) (intact : Intact s')
    (inodes : ∀ m, s'.sb.InodeAllocated m ↔ s.sb.InodeAllocated m)
    (kinds : ∀ m, s.sb.InodeAllocated m → (s'.view m).iType = (s.view m).iType)
    (listed : ∀ m, s.IsDir m → DirOk s' m (dirs m)) : Namespace s' dirs := by
  have same : ∀ m, s'.IsDir m ↔ s.IsDir m := by
    intro m
    unfold State.IsDir
    rw [inodes]
    constructor
    · intro dir
      exact ⟨dir.1, (kinds m dir.1) ▸ dir.2⟩
    · intro dir
      exact ⟨dir.1, (kinds m dir.1).trans dir.2⟩
  refine ⟨intact, ?_, ?_, ?_, ?_, ?_, (same 0).mpr space.root⟩
  · intro m held
    have before := (inodes m).mp held
    rw [kinds m before]
    exact space.kinds m before
  · exact fun m dir => listed m ((same m).mp dir)
  · exact fun m other => space.others m fun dir => other ((same m).mpr dir)
  · exact fun m dir => space.shape m ((same m).mp dir)
  · have allocated : s'.sb.InodeAllocated = s.sb.InodeAllocated :=
      funext fun m => propext (inodes m)
    rw [allocated]
    exact space.tree

theorem Namespace.quiet (space : Namespace s dirs) (step : Quiet s s') : Namespace s' dirs :=
  space.carried (step.intact space.intact) step.inodeAllocated_iff
    (fun m held => by rw [step.view m held.1])
    fun m dir => (space.listed m dir).quiet step space.intact

/-- One inode is written to, and if it is a directory it keeps its entries. -/
theorem Namespace.rewritten (space : Namespace s dirs) {n : Nat} (step : Rewritten n s s')
    (self : s.IsDir n → DirOk s' n (dirs n)) : Namespace s' dirs := by
  apply space.carried step.intact step.inodes
  · intro m held
    by_cases here : m = n
    · rw [here]
      exact step.kind
    · rw [(step.others m held here).view]
  · intro m dir
    by_cases here : m = n
    · rw [here] at dir ⊢
      exact self dir
    · exact step.dirOk (space.listed m dir) here

theorem Namespace.inside (space : Namespace s dirs) {n m : Nat} (named : m ∈ kids dirs n) :
    s.IsDir n ∧ s.sb.InodeAllocated m := by
  refine ⟨?_, (space.tree.inside n m named).2⟩
  by_contra other
  unfold kids at named
  rw [space.others n other] at named
  cases named

theorem target_newDirent {name : List Byte} {n : Nat} (inside : n < 16384) :
    (newDirent name n).target = n := by
  unfold Dirent.target
  rw [newDirent_number inside, Int.toNat_natCast]

theorem kids_perm {dirs dirs' : Nat → List Dirent} {n : Nat} {d : Dirent}
    (perm : (((dirs' n).drop 2).filter Dirent.live).Perm
      (d :: ((dirs n).drop 2).filter Dirent.live)) :
    (kids dirs' n).Perm (d.target :: kids dirs n) := by
  unfold kids
  exact perm.map Dirent.target

/-- The parent of a directory is in range. -/
theorem Namespace.parent_inside (space : Namespace s dirs) {n parent : Nat}
    (place : n = 0 ∧ parent = 0 ∨ n ∈ kids dirs parent) : parent < 16384 := by
  cases place with
  | inl root =>
      rw [root.2]
      decide
  | inr named => exact (space.inside named).1.1.1

def contents (type : InodeType) (n p : Nat) : List Dirent :=
  if type = .dir then emptyDir n p else []

theorem contents_drop (type : InodeType) (n p : Nat) : (contents type n p).drop 2 = [] := by
  unfold contents
  by_cases kind : type = .dir
  · rw [if_pos kind]
    rfl
  · rw [if_neg kind]
    rfl

/-- The directories after a creation in directory `p`. -/
def entered (dirs : Nat → List Dirent) (p n : Nat) (type : InodeType) (es' : List Dirent) :
    Nat → List Dirent :=
  Function.update (Function.update dirs p es') n (contents type n p)

section Entered

variable {p n : Nat} {name : List Byte} {type : InodeType} {es es' : List Dirent}

theorem entered_self : entered dirs p n type es' n = contents type n p :=
  Function.update_self _ _ _

theorem entered_parent (apart : p ≠ n) : entered dirs p n type es' p = es' :=
  (Function.update_of_ne apart _ _).trans (Function.update_self _ _ _)

theorem entered_other {m : Nat} (apart : m ≠ n) (apart' : m ≠ p) :
    entered dirs p n type es' m = dirs m :=
  (Function.update_of_ne apart _ _).trans (Function.update_of_ne apart' _ _)

theorem kids_entered_self : kids (entered dirs p n type es') n = [] := by
  unfold kids
  rw [entered_self, contents_drop]
  rfl

/-- The new entry is one more child of the parent. -/
theorem kids_entered_parent (type : InodeType) (apart : p ≠ n) (small : n < 16384)
    (perm : ((es'.drop 2).filter Dirent.live).Perm
      (newDirent name n :: ((dirs p).drop 2).filter Dirent.live)) :
    (kids (entered dirs p n type es') p).Perm (n :: kids dirs p) := by
  have own : entered dirs p n type es' p = es' := entered_parent apart
  rw [← own] at perm
  have step := kids_perm perm
  rw [target_newDirent small] at step
  exact step

theorem kids_entered_other (fresh : dirs n = []) {m : Nat} (other : m ≠ p) :
    kids (entered dirs p n type es') m = kids dirs m := by
  by_cases same : m = n
  · rw [same, kids_entered_self]
    unfold kids
    rw [fresh]
    rfl
  · unfold kids
    rw [entered_other same other]

theorem NewEntry.isDir_iff (new : NewEntry p n name type es es' s s') {m : Nat} (other : m ≠ n) :
    s'.IsDir m ↔ s.IsDir m := by
  have allocated : s'.sb.InodeAllocated m ↔ s.sb.InodeAllocated m := by
    rw [new.inodes]
    exact or_iff_left other
  unfold State.IsDir
  rw [allocated]
  by_cases same : m = p
  · rw [same, new.kind]
  · constructor
    · intro held
      exact ⟨held.1, (new.others m held.1 same).view ▸ held.2⟩
    · intro held
      exact ⟨held.1, (new.others m held.1 same).view ▸ held.2⟩

theorem NewEntry.isDir_self (new : NewEntry p n name type es es' s s')
    (kind : type = .file ∨ type = .dir) : s'.IsDir n ↔ type = .dir := by
  unfold State.IsDir
  rw [new.own]
  constructor
  · intro held
    cases kind with
    | inl file =>
        rw [file] at held
        exact absurd held.2 (by decide)
    | inr dir => exact dir
  · intro dir
    exact ⟨(new.inodes n).mpr (Or.inr rfl), by rw [dir]⟩

theorem NewEntry.unreserved (new : NewEntry p n name type es es' s s') {parent : Nat}
    (shape : Shape p parent es) (inside : p < 16384) (inside' : parent < 16384) :
    name ≠ dot ∧ name ≠ dotDot := by
  have absent := fun d member => List.find?_eq_none.mp new.new d member
  constructor
  · intro same
    apply absent (newDirent dot p)
    · rw [shape.drop_two]
      exact List.mem_cons_self
    · rw [newDirent_live inside, (newDirent_named dot_noNul name).mpr same.symm]
      rfl
  · intro same
    apply absent (newDirent dotDot parent)
    · rw [shape.drop_two]
      exact List.mem_cons_of_mem _ List.mem_cons_self
    · rw [newDirent_live inside', (newDirent_named dotDot_noNul name).mpr same.symm]
      rfl

end Entered

section NewEntry

variable {p n : Nat} {name : List Byte} {type : InodeType} {es' : List Dirent}

theorem NewEntry.kinds (new : NewEntry p n name type (dirs p) es' s s') (space : Namespace s dirs)
    (dir : s.IsDir p) (kind : type = .file ∨ type = .dir) : ∀ m, s'.sb.InodeAllocated m →
      (s'.view m).iType = InodeType.file.code ∨ (s'.view m).iType = InodeType.dir.code := by
  intro m held
  by_cases same : m = n
  · rw [same, new.own]
    cases kind with
    | inl file => exact Or.inl (by rw [file])
    | inr dir => exact Or.inr (by rw [dir])
  · have held' := ((new.inodes m).mp held).resolve_right same
    by_cases here : m = p
    · rw [here, new.kind]
      exact space.kinds p dir.1
    · rw [(new.others m held' here).view]
      exact space.kinds m held'

theorem NewEntry.listed (new : NewEntry p n name type (dirs p) es' s s') (space : Namespace s dirs)
    (dir : s.IsDir p) (kind : type = .file ∨ type = .dir) :
    ∀ m, s'.IsDir m → DirOk s' m (entered dirs p n type es' m) := by
  have apart : p ≠ n := fun same => new.fresh (same ▸ dir.1)
  intro m held
  by_cases same : m = n
  · rw [same] at held ⊢
    have isDirectory := (new.isDir_self kind).mp held
    rw [entered_self, contents, if_pos isDirectory]
    exact new.inner isDirectory
  · by_cases here : m = p
    · rw [here, entered_parent apart]
      exact new.dir
    · have held' := (new.isDir_iff same).mp held
      rw [entered_other same here]
      exact (space.listed m held').untouched (new.others m held'.1 here) new.intact.owns held.1

end NewEntry

theorem Namespace.newEntry (space : Namespace s dirs) {p n : Nat} {name : List Byte}
    {type : InodeType} {es' : List Dirent} (dir : s.IsDir p)
    (new : NewEntry p n name type (dirs p) es' s s') (noNul : ∀ b ∈ name, b ≠ 0)
    (kind : type = .file ∨ type = .dir) : Namespace s' (entered dirs p n type es') := by
  obtain ⟨parent, shape, parentPlace⟩ := space.shape p dir
  have inside' := space.parent_inside parentPlace
  have small := new.inside
  obtain ⟨other, other'⟩ := new.unreserved shape dir.1.1 inside'
  obtain ⟨shape', perm⟩ := shape.inserted dir.1.1 inside' small noNul other other' new.place
  have apart : p ≠ n := fun same => new.fresh (same ▸ dir.1)
  have freshDir : ¬ s.IsDir n := fun dir => new.fresh dir.1
  have here := kids_entered_parent type apart small perm
  have there : ∀ m, m ≠ p → kids (entered dirs p n type es') m = kids dirs m := fun m other =>
    kids_entered_other (space.others n freshDir) other
  have grown : ∀ m e, m ∈ kids dirs e → m ∈ kids (entered dirs p n type es') e := by
    intro m e named
    by_cases same : e = p
    · rw [same] at named ⊢
      rw [here.mem_iff]
      exact List.mem_cons_of_mem _ named
    · rw [there e same]
      exact named
  have tree := space.tree.add dir.1 new.fresh here there
  have allocated : s'.sb.InodeAllocated = fun m => s.sb.InodeAllocated m ∨ m = n :=
    funext fun m => propext (new.inodes m)
  refine ⟨new.intact, new.kinds space dir kind, new.listed space dir kind, ?_, ?_,
    allocated ▸ tree, ?_⟩
  · intro m other
    by_cases same : m = n
    · rw [same] at other ⊢
      rw [entered_self]
      exact if_neg fun isDirectory => other ((new.isDir_self kind).mpr isDirectory)
    · have other' := fun held => other ((new.isDir_iff same).mpr held)
      have here : m ≠ p := fun same => other' (same ▸ dir)
      rw [entered_other same here]
      exact space.others m other'
  · intro m held
    by_cases same : m = n
    · rw [same] at held ⊢
      have isDirectory := (new.isDir_self kind).mp held
      refine ⟨p, ?_, Or.inr ?_⟩
      · rw [entered_self, contents, if_pos isDirectory]
        refine ⟨rfl, ?_⟩
        intro d member
        cases member
      · rw [here.mem_iff]
        exact List.mem_cons_self
    · by_cases here : m = p
      · rw [here, entered_parent apart]
        exact ⟨parent, shape', parentPlace.imp id (grown p parent)⟩
      · obtain ⟨parent, shape, place⟩ := space.shape m ((new.isDir_iff same).mp held)
        rw [entered_other same here]
        exact ⟨parent, shape, place.imp id (grown m parent)⟩
  · have root := space.root
    exact (new.isDir_iff fun same => freshDir (same ▸ root)).mpr root

/-- The directories after the removal of inode `n` from directory `p`. -/
def removed (dirs : Nat → List Dirent) (p n : Nat) (es' : List Dirent) : Nat → List Dirent :=
  Function.update (Function.update dirs p es') n []

section Removed

variable {p n : Nat} {es' : List Dirent}

theorem removed_parent (apart : p ≠ n) : removed dirs p n es' p = es' :=
  (Function.update_of_ne apart _ _).trans (Function.update_self _ _ _)

theorem removed_other {m : Nat} (apart : m ≠ n) (apart' : m ≠ p) :
    removed dirs p n es' m = dirs m :=
  (Function.update_of_ne apart _ _).trans (Function.update_of_ne apart' _ _)

theorem kids_removed_self : kids (removed dirs p n es') n = [] := by
  unfold kids removed
  rw [Function.update_self]
  rfl

/-- Files and empty directories have no children. -/
theorem Namespace.leaf (space : Namespace s dirs)
    (empty : s.IsDir n → (dirs n).find? blocksRemoval = none) : kids dirs n = [] := by
  unfold kids
  by_cases dir : s.IsDir n
  · obtain ⟨_, shape, _⟩ := space.shape n dir
    rw [shape.leaf (empty dir)]
    rfl
  · rw [space.others n dir]
    rfl

/-- The entry freed in the parent is the one child that is gone. -/
theorem kids_removed_parent {d : Dirent} (apart : p ≠ n) (target : d.target = n)
    (perm : (((dirs p).drop 2).filter Dirent.live).Perm (d :: (es'.drop 2).filter Dirent.live)) :
    (kids dirs p).Perm (n :: kids (removed dirs p n es') p) := by
  have own : removed dirs p n es' p = es' := removed_parent apart
  rw [← own] at perm
  have step : (kids dirs p).Perm (_ :: kids (removed dirs p n es') p) := kids_perm perm
  rw [target] at step
  exact step

theorem kids_removed_other (leaf : kids dirs n = []) {m : Nat} (other : m ≠ p) :
    kids (removed dirs p n es') m = kids dirs m := by
  by_cases same : m = n
  · rw [same, kids_removed_self, leaf]
  · unfold kids
    rw [removed_other same other]

/-- Inode `n` is gone, and its entry in directory `p` has been freed. -/
structure Departed (p n : Nat) (es' : List Dirent) (s s' : State) : Prop where
  intact : Intact s'
  inodes : ∀ m, s'.sb.InodeAllocated m ↔ s.sb.InodeAllocated m ∧ m ≠ n
  others : ∀ m, s.sb.InodeAllocated m → m ≠ p → m ≠ n → Untouched s s' m
  kind : (s'.view p).iType = (s.view p).iType
  dir : DirOk s' p es'

theorem Unlinked.departed {name : List Byte} {inodeNr : Int} {s₁ s₂ : State}
    (unlinked : Unlinked p name dirs s inodeNr s₁) (dir₁ : DirOk s₁ p es') (got : Quiet s₁ s₂)
    (gone : Removed n s₂ s') (apart : p ≠ n) : Departed p n es' s s' := by
  have step := unlinked.rewritten
  have before : ∀ m, s₂.sb.InodeAllocated m ↔ s.sb.InodeAllocated m := fun m =>
    (got.inodeAllocated_iff m).trans (step.inodes m)
  have dir₂ := dir₁.quiet got step.intact
  have same₂ := gone.others p dir₂.allocated apart
  refine ⟨gone.intact,
    fun m => (gone.inodes m).trans (and_congr_left fun _ => before m), ?_, ?_, ?_⟩
  · intro m held first second
    have held₁ := (step.inodes m).mpr held
    exact (step.others m held first).trans ((got.untouched step.intact.owns held₁).trans
      (gone.others m ((before m).mpr held) second))
  · rw [same₂.view, got.view p dir₁.allocated.1, step.kind]
  · exact dir₂.untouched same₂ gone.intact.owns ((gone.inodes p).mpr ⟨dir₂.allocated, apart⟩)

theorem Departed.isDir_iff (gone : Departed p n es' s s') (m : Nat) :
    s'.IsDir m ↔ s.IsDir m ∧ m ≠ n := by
  unfold State.IsDir
  rw [gone.inodes]
  by_cases same : m = p
  · rw [same, gone.kind]
    tauto
  · constructor
    · intro held
      have view := (gone.others m held.1.1 same held.1.2).view
      exact ⟨⟨held.1.1, view ▸ held.2⟩, held.1.2⟩
    · intro held
      have view := (gone.others m held.1.1 same held.2).view
      exact ⟨⟨held.1.1, held.2⟩, view ▸ held.1.2⟩

/-- The tree without a leaf. -/
theorem Namespace.departed (space : Namespace s dirs) (dir : s.IsDir p)
    (gone : Departed p n es' s s')
    {d : Dirent} (target : d.target = n) (inKids : n ∈ kids dirs p) (leaf : kids dirs n = [])
    (shape' : ∀ parent, Shape p parent (dirs p) → Shape p parent es')
    (perm : (((dirs p).drop 2).filter Dirent.live).Perm (d :: (es'.drop 2).filter Dirent.live)) :
    Namespace s' (removed dirs p n es') := by
  have apart : p ≠ n := fun same => space.tree.not_self p (same ▸ inKids)
  have notRoot : n ≠ 0 := fun same => space.tree.orphan p (same ▸ inKids)
  have here := kids_removed_parent apart target perm
  have tree := space.tree.remove leaf here fun m other => kids_removed_other leaf other
  have kept : ∀ m e, m ≠ n → m ∈ kids dirs e → m ∈ kids (removed dirs p n es') e := by
    intro m e other named
    by_cases same : e = p
    · rw [same, here.mem_iff] at named
      rw [same]
      exact (List.mem_cons.mp named).resolve_left other
    · rw [kids_removed_other leaf same]
      exact named
  have allocated : s'.sb.InodeAllocated = fun m => s.sb.InodeAllocated m ∧ m ≠ n :=
    funext fun m => propext (gone.inodes m)
  refine ⟨gone.intact, ?_, ?_, ?_, ?_, allocated ▸ tree,
    (gone.isDir_iff 0).mpr ⟨space.root, notRoot.symm⟩⟩
  · intro m held
    have held' := (gone.inodes m).mp held
    by_cases same : m = p
    · rw [same, gone.kind]
      exact space.kinds p dir.1
    · rw [(gone.others m held'.1 same held'.2).view]
      exact space.kinds m held'.1
  · intro m held
    have held' := (gone.isDir_iff m).mp held
    by_cases same : m = p
    · rw [same, removed_parent apart]
      exact gone.dir
    · rw [removed_other held'.2 same]
      exact (space.listed m held'.1).untouched (gone.others m held'.1.1 same held'.2)
        gone.intact.owns held.1
  · intro m other
    by_cases same : m = n
    · rw [same]
      exact Function.update_self _ _ _
    · have other' : ¬ s.IsDir m := fun held => other ((gone.isDir_iff m).mpr ⟨held, same⟩)
      have here : m ≠ p := fun same => other' (same ▸ dir)
      rw [removed_other same here]
      exact space.others m other'
  · intro m held
    have held' := (gone.isDir_iff m).mp held
    obtain ⟨parent, shape, place⟩ := space.shape m held'.1
    refine ⟨parent, ?_, place.imp id (kept m parent held'.2)⟩
    by_cases same : m = p
    · rw [same] at shape ⊢
      rw [removed_parent apart]
      exact shape' parent shape
    · rw [removed_other held'.2 same]
      exact shape

end Removed

/-- Removing the inode whose entry in directory `p` has been freed. -/
theorem Namespace.remove (space : Namespace s dirs) {p : Nat} {name : List Byte} {inodeNr : Int}
    {s₁ s₂ : State} (dir : s.IsDir p) (unlinked : Unlinked p name dirs s inodeNr s₁)
    (got : Quiet s₁ s₂) (gone : Removed inodeNr.toNat s₂ s') :
    ∃ d es', FreedAt d (dirs p) es' ∧ d.named name = true ∧
      Namespace s' (removed dirs p inodeNr.toNat es') ∧ p ≠ inodeNr.toNat ∧
      ∀ m, s'.IsDir m ↔ s.IsDir m ∧ m ≠ inodeNr.toNat := by
  obtain ⟨parent, shape, _⟩ := space.shape p dir
  obtain ⟨d, es', place, _, named, number, dir₁⟩ := unlinked.place
  have freed : ∀ parent, Shape p parent (dirs p) → _ := fun _ shape =>
    shape.freed named unlinked.other.1 unlinked.other.2 place
  have perm := (freed parent shape).2
  have target : d.target = inodeNr.toNat := congrArg Int.toNat number
  have inKids : inodeNr.toNat ∈ kids dirs p := by
    unfold kids
    rw [(perm.map Dirent.target).mem_iff, ← target]
    exact List.mem_cons_self
  have apart : p ≠ inodeNr.toNat := fun same => space.tree.not_self p (same ▸ inKids)
  have leaf : kids dirs inodeNr.toNat = [] := space.leaf fun dir => unlinked.empty dir.2
  have departed := unlinked.departed dir₁ got gone apart
  exact ⟨d, es', place, named, space.departed dir departed target inKids leaf
    (fun parent shape => (freed parent shape).1) perm, apart, departed.isDir_iff⟩

end Steps

/-- The targets of a directory's live entries are inodes in use. -/
theorem Namespace.target_allocated {s : State} {dirs : Nat → List Dirent}
    (space : Namespace s dirs) {n : Nat} (dir : s.IsDir n) {d : Dirent} (member : d ∈ dirs n)
    (live : d.live = true) : s.sb.InodeAllocated d.target := by
  obtain ⟨parent, shape, place⟩ := space.shape n dir
  have inside' := space.parent_inside place
  rw [shape.drop_two] at member
  cases List.mem_cons.mp member with
  | inl same =>
      rw [same, target_newDirent dir.1.1]
      exact dir.1
  | inr later =>
      cases List.mem_cons.mp later with
      | inl same =>
          rw [same, target_newDirent inside']
          cases place with
          | inl root =>
              rw [root.2]
              exact space.root.1
          | inr named => exact (space.inside named).1.1
      | inr rest =>
          have named : d.target ∈ kids dirs n :=
            List.mem_map_of_mem (List.mem_filter.mpr ⟨rest, live⟩)
          exact (space.inside named).2

theorem Namespace.unlinked_allocated {s s' : State} {dirs : Nat → List Dirent}
    (space : Namespace s dirs) {n : Nat} (dir : s.IsDir n) {name : List Byte} {inodeNr : Int}
    (unlinked : Unlinked n name dirs s inodeNr s') : s.sb.InodeAllocated inodeNr.toNat := by
  obtain ⟨d, es', place, live, _, number, _⟩ := unlinked.place
  have member : d ∈ dirs n := List.mem_of_mem_filter (place.perm.mem_iff.mpr List.mem_cons_self)
  have target : d.target = inodeNr.toNat := congrArg Int.toNat number
  rw [← target]
  exact space.target_allocated dir member live

end Ece344Lab.Fs
