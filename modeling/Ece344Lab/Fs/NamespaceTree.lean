import Mathlib.Data.Set.Card
import Ece344Lab.Fs.Runs

set_option autoImplicit false

/- The directories as one tree. -/
namespace Ece344Lab.Fs

open Outcome Ownership Rooted Keyed

/-- The test for entries that name a child: live, and neither "." nor "..". -/
def namesChild (d : Dirent) : Bool := d.live && !(d.named dot || d.named dotDot)

/-- Entry number `p.2` of directory `p.1` names the inode `n`. -/
def NamedAt (dirs : Nat → List Dirent) (n : Nat) (p : Nat × Nat) : Prop :=
  ∃ d, (dirs p.1)[p.2]? = some d ∧ namesChild d = true ∧ d.target = n

/-- What following live entries leads to from inode 0. -/
def Reaches (dirs : Nat → List Dirent) : Nat → Prop :=
  Reach 0 fun n => ((dirs n).filter Dirent.live).map Dirent.target

/-- The directories with the entries `dirs` form one tree. -/
structure NamespaceTree (s : Session) (dirs : Nat → List Dirent) : Prop where
  entries : ∀ n, s.fs.IsDir n → Listing s.fs.sb (s.fs.view n) (dirs n)
  files : ∀ n, ¬ s.fs.IsDir n → dirs n = []
  marked : ∀ n, bitmapIsset s.fs.sb.inodeFreemap n = true ↔ Reaches dirs n
  counted : {n | Reaches dirs n}.ncard = s.fs.sb.sb.usedInodeCount
  named : ∀ n, s.fs.sb.InodeAllocated n → n ≠ 0 → ∃! p, NamedAt dirs n p
  self : ∀ n, s.fs.IsDir n → (∃ d ∈ dirs n, d.live = true ∧ d.named dot = true) ∧
    ∀ d ∈ dirs n, d.live = true → d.named dot = true → d.target = n
  parent : ∀ n, s.fs.IsDir n → (∃ d ∈ dirs n, d.live = true ∧ d.named dotDot = true) ∧
    ∀ d ∈ dirs n, d.live = true → d.named dotDot = true →
      if n = 0 then d.target = 0 else ∃ i, NamedAt dirs n (d.target, i)
  curDir : s.fs.IsDir s.curDir

section Tree

variable {s : State} {dirs : Nat → List Dirent} {n parent : Nat} {es : List Dirent}

theorem dot_self (inside : n < 16384) : (newDirent dot n).live = true ∧
    (newDirent dot n).named dot = true ∧ (newDirent dot n).named dotDot = false := by
  refine ⟨newDirent_live inside, (newDirent_named dot_noNul _).mpr rfl, ?_⟩
  rw [Bool.eq_false_iff, ne_eq, newDirent_named dot_noNul]
  decide

theorem dotDot_self (inside : n < 16384) : (newDirent dotDot n).live = true ∧
    (newDirent dotDot n).named dotDot = true ∧ (newDirent dotDot n).named dot = false := by
  refine ⟨newDirent_live inside, (newDirent_named dotDot_noNul _).mpr rfl, ?_⟩
  rw [Bool.eq_false_iff, ne_eq, newDirent_named dotDot_noNul]
  decide

/-- The entries that name children are the live ones behind "..". -/
theorem Shape.children (shape : Shape n parent es) (inside : n < 16384)
    (inside' : parent < 16384) : es.filter namesChild = (es.drop 2).filter Dirent.live := by
  have first := dot_self inside
  have second := dotDot_self inside'
  have rest : (es.drop 2).filter namesChild = (es.drop 2).filter Dirent.live := by
    apply List.filter_congr
    intro d member
    unfold namesChild
    cases live : d.live with
    | false => rfl
    | true =>
        obtain ⟨notDot, notDotDot⟩ := shape.names d member live
        rw [notDot, notDotDot]
        rfl
  have split := shape.drop_two
  rw [split, List.filter_cons_of_neg (by simp [namesChild, first]),
    List.filter_cons_of_neg (by simp [namesChild, second])]
  exact rest

/-- The live entry "." of a directory is its first one. -/
theorem Shape.dot_target (shape : Shape n parent es) (inside : n < 16384)
    (inside' : parent < 16384) {d : Dirent} (member : d ∈ es) (live : d.live = true)
    (named : d.named dot = true) : d.target = n := by
  rw [shape.drop_two] at member
  cases List.mem_cons.mp member with
  | inl same => rw [same, target_newDirent inside]
  | inr later =>
      cases List.mem_cons.mp later with
      | inl same =>
          rw [same, (dotDot_self inside').2.2] at named
          cases named
      | inr rest =>
          rw [(shape.names d rest live).1] at named
          cases named

/-- The live entry ".." of a directory is its second one. -/
theorem Shape.dotDot_target (shape : Shape n parent es) (inside : n < 16384)
    (inside' : parent < 16384) {d : Dirent} (member : d ∈ es) (live : d.live = true)
    (named : d.named dotDot = true) : d.target = parent := by
  rw [shape.drop_two] at member
  cases List.mem_cons.mp member with
  | inl same =>
      rw [same, (dot_self inside).2.2] at named
      cases named
  | inr later =>
      cases List.mem_cons.mp later with
      | inl same => rw [same, target_newDirent inside']
      | inr rest =>
          rw [(shape.names d rest live).2] at named
          cases named

theorem Namespace.kids_eq (space : Namespace s dirs) (n : Nat) :
    kids dirs n = ((dirs n).filter namesChild).map Dirent.target := by
  unfold kids
  by_cases dir : s.IsDir n
  · obtain ⟨parent, shape, place⟩ := space.shape n dir
    rw [shape.children dir.1.1 (space.parent_inside place)]
  · rw [space.others n dir]
    rfl

/-- Going by "." and ".." as well leads to no other inodes. -/
theorem Namespace.reaches_iff (space : Namespace s dirs) (n : Nat) :
    Reaches dirs n ↔ s.sb.InodeAllocated n := by
  rw [space.tree.nodes_iff]
  constructor
  · apply Reach.of_more
    intro d m reach named
    obtain ⟨e, member, same⟩ := List.mem_map.mp named
    obtain ⟨member, live⟩ := List.mem_filter.mp member
    by_cases dir : s.IsDir d
    · rw [← space.tree.nodes_iff, ← same]
      exact space.target_allocated dir member live
    · rw [space.others d dir] at member
      cases member
  · apply Reach.mono
    intro d m named
    rw [space.kids_eq] at named
    obtain ⟨e, member, same⟩ := List.mem_map.mp named
    obtain ⟨member, child⟩ := List.mem_filter.mp member
    unfold namesChild at child
    rw [Bool.and_eq_true] at child
    exact List.mem_map.mpr ⟨e, List.mem_filter.mpr ⟨member, child.1⟩, same⟩

/-- One position names a child of a directory. -/
theorem Namespace.named (space : Namespace s dirs) {d n : Nat} (named : n ∈ kids dirs d) :
    ∃! i, NamedAt dirs n (d, i) := by
  have distinct := space.tree.once d
  rw [space.kids_eq] at named distinct
  exact existsUnique_index namesChild distinct named

theorem Namespace.namedAt (space : Namespace s dirs) {n : Nat} {p : Nat × Nat}
    (found : NamedAt dirs n p) : n ∈ kids dirs p.1 := by
  obtain ⟨d, at', child, same⟩ := found
  rw [space.kids_eq]
  exact List.mem_map.mpr ⟨d, List.mem_filter.mpr ⟨List.mem_of_getElem? at', child⟩, same⟩

/-- One place in all directories names an inode other than the root. -/
theorem Namespace.namedOnce (space : Namespace s dirs) {n : Nat} (allocated : s.sb.InodeAllocated n)
    (other : n ≠ 0) : ∃! p, NamedAt dirs n p := by
  obtain ⟨d, named⟩ := space.tree.exists_parent allocated other
  obtain ⟨i, found, unique⟩ := space.named named
  refine ⟨(d, i), found, ?_⟩
  intro p found'
  have same := space.tree.single _ _ n (space.namedAt found') named
  obtain ⟨d', i'⟩ := p
  change d' = d at same
  subst same
  rw [unique i' found']

end Tree

/-- The invariant of the directories, as a statement about entries and inode numbers. -/
theorem Session.Ok.tree {s : Session} (ok : s.Ok) : ∃ dirs, NamespaceTree s dirs := by
  obtain ⟨dirs, space⟩ := ok.space
  have intact := space.intact
  have marked : ∀ n, bitmapIsset s.fs.sb.inodeFreemap n = true ↔ Reaches dirs n := by
    intro n
    rw [space.reaches_iff]
    exact ⟨fun set => ⟨intact.bits n set, set⟩, fun held => held.2⟩
  refine ⟨dirs, fun n dir => (space.listed n dir).listing, space.others, marked, ?_, ?_, ?_, ?_,
    ok.dir⟩
  · have same : {n | Reaches dirs n} = (s.fs.sb.inodeFreemap.elems : Set Nat) := by
      ext n
      have range : bitmapIsset s.fs.sb.inodeFreemap n = true → n < s.fs.sb.inodeFreemap.nbits := by
        intro set
        have inside := intact.bits n set
        rw [intact.consistent.inodeBits]
        omega
      rw [Set.mem_ofPred_eq, ← marked, Finset.mem_coe, Bitmap.mem_elems]
      exact ⟨fun set => ⟨range set, set⟩, fun held => held.2⟩
    rw [same, Set.ncard_coe_finset, intact.consistent.inodeCount]
  · exact fun n allocated other => space.namedOnce allocated other
  · intro n dir
    obtain ⟨parent, shape, place⟩ := space.shape n dir
    have inside' := space.parent_inside place
    refine ⟨⟨newDirent dot n, ?_, (dot_self dir.1.1).1, (dot_self dir.1.1).2.1⟩, ?_⟩
    · rw [shape.drop_two]
      exact List.mem_cons_self
    · exact fun d member live named => shape.dot_target dir.1.1 inside' member live named
  · intro n dir
    obtain ⟨parent, shape, place⟩ := space.shape n dir
    have inside' := space.parent_inside place
    refine ⟨⟨newDirent dotDot parent, ?_, (dotDot_self inside').1, (dotDot_self inside').2.1⟩, ?_⟩
    · rw [shape.drop_two]
      exact List.mem_cons_of_mem _ List.mem_cons_self
    · intro d member live named
      have target := shape.dotDot_target dir.1.1 inside' member live named
      rw [target]
      cases place with
      | inl root =>
          rw [if_pos root.1]
          exact root.2
      | inr child =>
          have other : n ≠ 0 := fun same => space.tree.orphan parent (same ▸ child)
          rw [if_neg other]
          exact (space.named child).exists

/-- As long as no block allocation fails, the directories form one tree over the inodes in use. -/
theorem run_namespace_tree (fsSizeMb : Nat) (start s : Session) (fresh : Fresh fsSizeMb start)
    (run : Run (fun _ _ s' => s'.fs.sb.allocFailed = false) start s) :
    ∃ dirs, NamespaceTree s dirs := by
  have ok := run.ok fresh fun s c s' allows stranded => by
    rw [stranded.2] at allows
    cases allows
  exact ok.tree

theorem run_namespace_tree_create : ∃ start s dirs, Fresh 1 start ∧
    start.handleCommand (.create [nameA]) = .ok (0, s) ∧ NamespaceTree s dirs := by
  obtain ⟨start, s, fresh, ran, unfailed⟩ := create_run
  obtain ⟨dirs, tree⟩ := run_namespace_tree 1 start s fresh (.command .start ran unfailed)
  exact ⟨start, s, dirs, fresh, ran, tree⟩

end Ece344Lab.Fs
