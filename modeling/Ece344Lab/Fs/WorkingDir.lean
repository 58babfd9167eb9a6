import Ece344Lab.Lib.Path
import Ece344Lab.Fs.DirectoryRuns
import Ece344Lab.Fs.NamespaceTree

set_option autoImplicit false

/- `testfs_pwd` and the way back from the root. -/
namespace Ece344Lab.Fs

open Outcome Ownership Rooted Keyed

def children (dirs : Nat → List Dirent) (n : Nat) : List Nat :=
  ((dirs n).filter namesChild).map Dirent.target

/-- The directories of `s` have the entries `dirs` and form a tree: "." is the directory itself,
".." is the one that names it, one entry names each but the root, and each is reached from the root.
-/
structure DirTree (s : State) (dirs : Nat → List Dirent) : Prop where
  consistent : Consistent s.sb
  listed : ∀ n, s.IsDir n → Listing s.sb (s.view n) (dirs n)
  stored : ∀ n, s.IsDir n → Stored s.sb.dev (s.view n)
  files : ∀ n, ¬ s.IsDir n → dirs n = []
  distinct : ∀ n, s.IsDir n → DistinctNames (dirs n)
  root : s.IsDir 0
  self : ∀ n, s.IsDir n → lookupEntry (dirs n) dot = some n
  parent : ∀ n, s.IsDir n → ∃ p, lookupEntry (dirs n) dotDot = some p ∧
    if n = 0 then p = 0 else ∃ i, NamedAt dirs n (p, i)
  named : ∀ n, s.IsDir n → n ≠ 0 → ∃! p, NamedAt dirs n p
  reached : ∀ n, s.IsDir n → Reach 0 (children dirs) n

/-- Looking names up one after the other, from one directory to the next. -/
def walk (s : State) : Nat → List (List Byte) → Except Halt Int
  | n, [] => .ok n
  | n, name :: names => do
      let found ← testfsDirNameToInodeNr s.sb (s.view n) name
      if found < 0 then .ok found else walk s found.toNat names

def pathOutput (names : List (List Byte)) : List Output :=
  .text [47] :: names.mapIdx fun i name => .text ((if i = 0 then [] else [47]) ++ name)

/-- Nothing has changed except that something has been printed. -/
structure Printed (out : List Output) (s s' : State) : Prop where
  sb : s'.sb = s.sb
  table : TableOk s'
  view : ∀ m < 16384, s'.view m = s.view m
  refs : ∀ m, s'.refs m = s.refs m
  dirty : ∀ m, s'.dirty m = s.dirty m
  stdout : s'.stdout = s.stdout ++ out

/-- Directory `p` has an entry of that name for the directory `n`. -/
def NamesDir (s : State) (dirs : Nat → List Dirent) (p : Nat) (name : List Byte) (n : Nat) : Prop :=
  s.IsDir n ∧ ∃ d ∈ dirs p, namesChild d = true ∧ cString d.name = name ∧ d.target = n

section Entries

variable {es : List Dirent} {d : Dirent} {name : List Byte}

theorem DistinctNames.eq (distinct : DistinctNames es) {e : Dirent} (member : d ∈ es)
    (live : d.live = true) (member' : e ∈ es) (live' : e.live = true)
    (same : cString e.name = cString d.name) : e = d :=
  List.inj_on_of_nodup_map distinct (List.mem_filter.mpr ⟨member', live'⟩)
    (List.mem_filter.mpr ⟨member, live⟩) same

/-- A live entry is what its name is looked up as. -/
theorem DistinctNames.lookup (distinct : DistinctNames es) (member : d ∈ es)
    (live : d.live = true) : lookupEntry es (cString d.name) = some d.target := by
  unfold lookupEntry
  cases found : es.find? fun e => e.live && e.named (cString d.name) with
  | none =>
      have fails := List.find?_eq_none.mp found d member
      rw [live, named_iff.mpr rfl] at fails
      exact absurd rfl fails
  | some e =>
      have both := List.find?_some found
      rw [Bool.and_eq_true] at both
      rw [distinct.eq member live (List.mem_of_find?_eq_some found) both.1 (named_iff.mp both.2)]
      rfl

/-- What a name is looked up as is what every live entry of that name says. -/
theorem DistinctNames.target (distinct : DistinctNames es) (member : d ∈ es)
    (live : d.live = true) (named : d.named name = true) {n : Nat}
    (found : lookupEntry es name = some n) : d.target = n := by
  rw [← named_iff.mp named, distinct.lookup member live] at found
  exact Option.some.inj found

theorem namesChild_iff : namesChild d = true ↔
    d.live = true ∧ d.named dot = false ∧ d.named dotDot = false := by
  unfold namesChild
  cases d.live <;> cases d.named dot <;> cases d.named dotDot <;> decide

end Entries

namespace DirTree

variable {s : State} {dirs : Nat → List Dirent} {n p : Nat} {name : List Byte}
  {names : List (List Byte)}

/-- What has entries is a directory. -/
theorem isDir (tree : DirTree s dirs) {d : Dirent} (member : d ∈ dirs n) : s.IsDir n := by
  by_contra other
  rw [tree.files n other] at member
  cases member

theorem one (tree : DirTree s dirs) (dir : s.IsDir n) (other : n ≠ 0) {p q : Nat × Nat}
    (named : NamedAt dirs n p) (named' : NamedAt dirs n q) : p = q :=
  (tree.named n dir other).unique named named'

theorem namedAt {d : Dirent} (member : d ∈ dirs p) (child : namesChild d = true) :
    ∃ i, (dirs p)[i]? = some d ∧ NamedAt dirs d.target (p, i) := by
  obtain ⟨i, at'⟩ := List.getElem?_of_mem member
  exact ⟨i, at', d, at', child, rfl⟩

theorem oneEdge (tree : DirTree s dirs) : OneEdge 0 (NamesDir s dirs) := by
  intro p p' name name' n other step step'
  obtain ⟨dir, d, member, child, same, target⟩ := step
  obtain ⟨_, d', member', child', same', target'⟩ := step'
  obtain ⟨i, at', named⟩ := namedAt member child
  obtain ⟨i', at'', named'⟩ := namedAt member' child'
  rw [target] at named
  rw [target'] at named'
  cases tree.one dir other named named'
  rw [at'] at at''
  cases at''
  exact ⟨rfl, same.symm.trans same'⟩

/-- Each directory has its way from the root. -/
theorem path (tree : DirTree s dirs) (dir : s.IsDir n) :
    ∃ names, Path 0 (NamesDir s dirs) names n := by
  apply Path.of_reach s.IsDir _ (tree.reached n dir) dir
  intro p m named dir
  obtain ⟨d, member, same⟩ := List.mem_map.mp named
  obtain ⟨member, child⟩ := List.mem_filter.mp member
  exact ⟨tree.isDir member, _, dir, d, member, child, rfl, same⟩

theorem path_isDir (tree : DirTree s dirs) (path : Path 0 (NamesDir s dirs) names n) :
    s.IsDir n := by
  cases path with
  | root => exact tree.root
  | child _ step _ => exact step.1

/-- The way to a directory has fewer names than there are inodes. -/
theorem path_length (tree : DirTree s dirs) (path : Path 0 (NamesDir s dirs) names n) :
    names.length < 16384 := by
  have short := path.length_lt tree.oneEdge (Finset.range 16384) fun _ _ path =>
    Finset.mem_range.mpr (tree.path_isDir path).1.1
  rw [Finset.card_range] at short
  exact short

/-- ".." in a directory is the directory that names it. -/
theorem up (tree : DirTree s dirs) (step : NamesDir s dirs p name n) (other : n ≠ 0) :
    lookupEntry (dirs n) dotDot = some p := by
  obtain ⟨q, found, place⟩ := tree.parent n step.1
  rw [if_neg other] at place
  obtain ⟨i, named⟩ := place
  obtain ⟨dir, d, member, child, _, target⟩ := step
  obtain ⟨j, _, named'⟩ := namedAt member child
  rw [target] at named'
  cases tree.one dir other named named'
  exact found

/-- The entry that names a directory is the only one in its parent that has its number: "." has the
number of the parent itself, and ".." that of the one above. -/
theorem find_child (tree : DirTree s dirs) (path : Path 0 (NamesDir s dirs) names p)
    (step : NamesDir s dirs p name n) (other : n ≠ 0) :
    ∃ d, (dirs p).find? (fun d : Dirent => d.dInodeNr.toInt = (n : Int)) = some d ∧
      cString d.name = name := by
  have above := tree.path_isDir path
  obtain ⟨dir, d, member, child, same, target⟩ := step
  have live := (namesChild_iff.mp child).1
  have number : ∀ e : Dirent, e.live = true → e.target = n → e.dInodeNr.toInt = n := by
    intro e live target
    rw [← target]
    exact (Int.toNat_of_nonneg (of_decide_eq_true live)).symm
  cases found : (dirs p).find? fun d : Dirent => d.dInodeNr.toInt = (n : Int) with
  | none =>
      have fails := List.find?_eq_none.mp found d member
      exact absurd (decide_eq_true (number d live target)) fails
  | some e =>
      have passes := List.find?_some found
      have value : e.dInodeNr.toInt = n := of_decide_eq_true passes
      have member' := List.mem_of_find?_eq_some found
      have live' : e.live = true := by
        apply decide_eq_true
        rw [value]
        exact Int.natCast_nonneg n
      have target' : e.target = n := by
        unfold Dirent.target
        rw [value, Int.toNat_natCast]
      have notDot : e.named dot = false := by
        rw [Bool.eq_false_iff]
        intro named
        have self := (tree.distinct p above).target member' live' named (tree.self p above)
        exact path.not_self tree.oneEdge ⟨dir, d, member, child, same, target⟩ other
          (target'.symm.trans self)
      have notDotDot : e.named dotDot = false := by
        rw [Bool.eq_false_iff]
        intro named
        cases path with
        | root =>
            obtain ⟨q, up, root⟩ := tree.parent 0 above
            rw [if_pos rfl] at root
            have zero := (tree.distinct 0 above).target member' live' named up
            exact other (target'.symm.trans (zero.trans root))
        | child way step' other' =>
            have up := (tree.distinct p above).target member' live' named (tree.up step' other')
            exact way.not_back tree.oneEdge step' other' ⟨dir, d, member, child, same, target⟩ other
              (target'.symm.trans up)
      have child' := namesChild_iff.mpr ⟨live', notDot, notDotDot⟩
      obtain ⟨i, at', named⟩ := namedAt member child
      obtain ⟨j, at'', named'⟩ := namedAt member' child'
      rw [target] at named
      rw [target'] at named'
      cases tree.one dir other named named'
      rw [at'] at at''
      cases at''
      exact ⟨_, rfl, same⟩

/-- What `testfs_find_dirent` finds for a child. -/
theorem findDirent (tree : DirTree s dirs) (path : Path 0 (NamesDir s dirs) names p)
    (step : NamesDir s dirs p name n) (other : n ≠ 0) :
    ∃ d, testfsFindDirent s.sb (s.view p) n = .ok (some d) ∧ cString d.name = name := by
  have above := tree.path_isDir path
  have listing := tree.listed p above
  obtain ⟨d, found, same⟩ := tree.find_child path step other
  refine ⟨d, ?_, same⟩
  unfold testfsFindDirent
  rw [cAssert_pos listing.kind, ok_bind,
    returns_of_stored (listing.first _) (tree.stored p above), ok_bind, found]

/-- What a name of a child is looked up as. -/
theorem lookup_child (tree : DirTree s dirs) (step : NamesDir s dirs p name n) :
    testfsDirNameToInodeNr s.sb (s.view p) name = .ok n := by
  obtain ⟨dir, d, member, child, same, target⟩ := step
  have above := tree.isDir member
  rw [(tree.listed p above).lookup (tree.stored p above), ← same,
    (tree.distinct p above).lookup member (namesChild_iff.mp child).1, target]
  rfl

/-- What ".." is looked up as. -/
theorem lookup_up (tree : DirTree s dirs) (dir : s.IsDir n) {parent : Nat}
    (found : lookupEntry (dirs n) dotDot = some parent) :
    testfsDirNameToInodeNr s.sb (s.view n) dotDot = .ok parent := by
  rw [(tree.listed n dir).lookup (tree.stored n dir), found]
  rfl

end DirTree

section Walk

variable {s : State} {n m k : Nat} {names names' : List (List Byte)}

theorem walk_append (first : walk s n names = .ok m) (second : walk s m names' = .ok k) :
    walk s n (names ++ names') = .ok k := by
  induction names generalizing n with
  | nil =>
      have same : n = m := Int.ofNat_inj.mp (Except.ok.inj first)
      rw [same]
      exact second
  | cons name names ih =>
      unfold walk at first
      rw [List.cons_append]
      unfold walk
      cases found : testfsDirNameToInodeNr s.sb (s.view n) name with
      | error e =>
          rw [found] at first
          cases first
      | ok number =>
          rw [found, ok_bind] at first
          rw [ok_bind]
          by_cases negative : number < 0
          · rw [if_pos negative] at first
            have value := Except.ok.inj first
            omega
          · rw [if_neg negative] at first ⊢
            exact ih first

/-- The names on the way to a directory lead to it; by induction along the way. -/
theorem DirTree.walk_path {dirs : Nat → List Dirent} (tree : DirTree s dirs)
    (path : Path 0 (NamesDir s dirs) names n) : walk s 0 names = .ok n := by
  induction path with
  | root => rfl
  | @child names p n name _ step _ ih =>
      apply walk_append ih
      unfold walk
      rw [tree.lookup_child step, ok_bind, if_neg (Int.not_lt.mpr (Int.natCast_nonneg n))]
      unfold walk
      rw [Int.toNat_natCast]

end Walk

theorem pathOutput_append (names : List (List Byte)) (name : List Byte) :
    pathOutput (names ++ [name]) =
      pathOutput names ++ [.text ((if names.length = 0 then [] else [47]) ++ name)] := by
  unfold pathOutput
  rw [List.mapIdx_concat]
  rfl

namespace Printed

variable {s s' s₁ s₂ s₃ : State} {out : List Output} {n : Nat}

theorem refl (table : TableOk s) : Printed [] s s :=
  ⟨rfl, table, fun _ _ => rfl, fun _ => rfl, fun _ => rfl, (List.append_nil _).symm⟩

theorem print (step : Printed out s s') (output : Output) :
    Printed (out ++ [output]) s (s'.print output) := by
  have table := step.table
  refine ⟨step.sb, ⟨table.distinct, table.counted, table.range, table.clean⟩, step.view, step.refs,
    step.dirty, ?_⟩
  change s'.stdout ++ [output] = _
  rw [step.stdout, List.append_assoc]

theorem around (sb : s₁.sb = s.sb)
    (got : Retabled s s₁ s.view (Function.update s.refs n (s.refs n + 1)) s.dirty)
    (inner : Printed out s₁ s₂) (sb' : s₃.sb = s₂.sb)
    (put : Retabled s₂ s₃ s₂.view (Function.update s₂.refs n (s₂.refs n - 1)) s₂.dirty) :
    Printed out s s₃ := by
  refine ⟨sb'.trans (inner.sb.trans sb), put.ok, ?_, ?_, ?_, ?_⟩
  · exact fun m inside =>
      (put.view m inside).trans ((inner.view m inside).trans (got.view m inside))
  · intro m
    rw [put.refs]
    by_cases same : m = n
    · subst same
      rw [Function.update_self, inner.refs, got.refs, Function.update_self]
      exact Nat.add_sub_cancel _ _
    · rw [Function.update_of_ne same, inner.refs, got.refs, Function.update_of_ne same]
  · exact fun m => (put.dirty m).trans ((inner.dirty m).trans (got.dirty m))
  · rw [put.stdout, inner.stdout, got.stdout]

end Printed

/-- `t` has the super block and the inodes of `s`, whoever holds them. -/
structure Sees (s t : State) : Prop where
  sb : t.sb = s.sb
  table : TableOk t
  view : ∀ m < 16384, t.view m = s.view m
  dirty : ∀ m, t.dirty m = s.dirty m

theorem Sees.retabled {s t t' : State} {refs : Nat → Nat} (sees : Sees s t) (sb : t'.sb = t.sb)
    (step : Retabled t t' t.view refs t.dirty) : Sees s t' :=
  ⟨sb.trans sees.sb, step.ok, fun m inside => (step.view m inside).trans (sees.view m inside),
    fun m => (step.dirty m).trans (sees.dirty m)⟩

theorem Sees.inode {s t : State} (sees : Sees s t) {n : Nat} (inside : n < 16384)
    (held : 0 < t.refs n) : ∃ inode, t.inode n = .ok inode ∧ inode.dinode = s.view n := by
  obtain ⟨inode, _, read, view, _⟩ := sees.table.inode_eq held
  exact ⟨inode, read, view.trans (sees.view n inside)⟩

/-- `testfs_pwd` prints the way from the root; by induction along it. -/
theorem testfsPwd_path {s : State} {dirs : Nat → List Dirent} (tree : DirTree s dirs) {n : Nat}
    {names : List (List Byte)} (path : Path 0 (NamesDir s dirs) names n) (fuel : Nat) (t : State)
    (enough : names.length < fuel) (sees : Sees s t) (held : 0 < t.refs n)
    (clean : ∀ before m, Path 0 (NamesDir s dirs) before m → before.length < names.length →
      s.dirty m = false) :
    ∃ t', testfsPwd fuel t n = .ok (if names.length = 0 then 1 else 0, t') ∧
      Printed (pathOutput names) t t' := by
  induction path generalizing fuel t with
  | root =>
      obtain ⟨fuel, rfl⟩ := Nat.exists_eq_succ_of_ne_zero (Nat.ne_of_gt enough)
      obtain ⟨inode, read, view⟩ := sees.inode tree.root.1.1 held
      obtain ⟨p, found, zero⟩ := tree.parent 0 tree.root
      rw [if_pos rfl] at zero
      subst zero
      refine ⟨t.print (.text [47]), ?_, (Printed.refl sees.table).print _⟩
      unfold testfsPwd
      rw [read, ok_bind, view, sees.sb, tree.lookup_up tree.root found, ok_bind,
        cAssert_pos (Int.natCast_nonneg 0), ok_bind, if_pos rfl]
      rfl
  | @child names p n name above step other ih =>
      obtain ⟨fuel, rfl⟩ := Nat.exists_eq_succ_of_ne_zero
        (Nat.ne_of_gt (Nat.zero_lt_of_lt enough))
      have length : (names ++ [name]).length = names.length + 1 := List.length_append
      rw [length] at enough clean
      have dir := tree.path_isDir above
      have apart : n ≠ p := above.not_self tree.oneEdge step other
      obtain ⟨inode, read, view⟩ := sees.inode step.1.1.1 held
      have up := tree.lookup_up step.1 (tree.up step other)
      obtain ⟨t₁, got, sb, retabled⟩ := testfsGetInode_eq t (sees.sb ▸ tree.consistent) sees.table p
        dir.1.1
      have sees₁ := sees.retabled sb retabled
      have held₁ : 0 < t₁.refs p := by
        rw [retabled.refs, Function.update_self]
        exact Nat.succ_pos _
      obtain ⟨parent, read', view'⟩ := sees₁.inode dir.1.1 held₁
      obtain ⟨d, found, same⟩ := tree.findDirent above step other
      obtain ⟨t₂, ran, printed⟩ := ih fuel t₁ (by omega) sees₁ held₁
        fun before m path shorter => clean before m path (by omega)
      have put := testfsPutInode_eq t₂ printed.table p (by rw [printed.refs]; exact held₁)
      have flag : t₂.dirty p = false := by
        rw [printed.dirty, sees₁.dirty]
        exact clean names p above (Nat.lt_succ_self _)
      rw [flag, if_neg Bool.false_ne_true] at put
      obtain ⟨t₃, put, sb', retabled'⟩ := put
      have around := Printed.around sb retabled printed sb' retabled'
      refine ⟨t₃.print (.text ((if names.length = 0 then [] else [47]) ++ name)), ?_, ?_⟩
      · unfold testfsPwd
        rw [read, ok_bind, view, sees.sb, up, ok_bind, cAssert_pos (Int.natCast_nonneg p), ok_bind,
          if_neg (fun same => apart (Int.ofNat_inj.mp same).symm), Int.toNat_natCast, got, ok_bind,
          read', ok_bind, view', sees₁.sb, found, ok_bind]
        dsimp only
        rw [ran, ok_bind]
        dsimp only
        rw [put, ok_bind, same, length, if_neg (Nat.succ_ne_zero _)]
        by_cases root : names.length = 0
        · rw [if_pos root, if_pos root, if_pos rfl]
        · rw [if_neg root, if_neg root, if_neg (by decide)]
      · rw [pathOutput_append]
        exact around.print _

/-- In a tree of directories `testfs_pwd` comes to its end, and what it prints are the names that
lead from the root to the directory. -/
theorem testfsPwd_inverse (s : State) (dirs : Nat → List Dirent) (tree : DirTree s dirs)
    (table : TableOk s) (n : Nat) (dir : s.IsDir n) (held : 0 < s.refs n)
    (clean : ∀ m, s.IsDir m → m ≠ n → s.dirty m = false) :
    ∃ names, names.length < 16384 ∧ walk s 0 names = .ok n ∧
      ∀ fuel, names.length < fuel → ∃ ret s', testfsPwd fuel s n = .ok (ret, s') ∧
        Printed (pathOutput names) s s' := by
  obtain ⟨names, path⟩ := tree.path dir
  have above : ∀ before m, Path 0 (NamesDir s dirs) before m → before.length < names.length →
      s.dirty m = false := by
    intro before m path' shorter
    apply clean m (tree.path_isDir path')
    intro same
    subst same
    have equal := congrArg List.length (path'.unique tree.oneEdge path)
    omega
  refine ⟨names, tree.path_length path, tree.walk_path path, fun fuel enough => ?_⟩
  obtain ⟨s', ran, printed⟩ := testfsPwd_path tree path fuel s enough
    ⟨rfl, table, fun _ _ => rfl, fun _ => rfl⟩ held above
  exact ⟨_, s', ran, printed⟩

section Runs

variable {s : Session} {g : NameMap} {dirs : Nat → List Dirent} {n parent : Nat} {es : List Dirent}

theorem Shape.lookup_dot (shape : Shape n parent es) (inside : n < 16384) :
    lookupEntry es dot = some n := by
  rw [shape.drop_two, lookupEntry_live _ _ _ (newDirent_live inside), if_pos (dot_self inside).2.1,
    target_newDirent inside]

theorem Shape.lookup_dotDot (shape : Shape n parent es) (inside : n < 16384)
    (inside' : parent < 16384) : lookupEntry es dotDot = some parent := by
  rw [shape.drop_two, lookupEntry_live _ _ _ (newDirent_live inside),
    if_neg (Bool.eq_false_iff.mp (dot_self inside).2.2),
    lookupEntry_live _ _ _ (newDirent_live inside'), if_pos (dotDot_self inside').2.1,
    target_newDirent inside']

/-- The directories of a run form a tree. -/
theorem Mapped.dirTree (mapped : Mapped s g dirs) : DirTree s.fs dirs := by
  have space := mapped.space
  refine ⟨space.intact.consistent, fun n dir => (space.listed n dir).listing,
    fun n dir => mapped.backed.stored space.intact.owns dir.1, space.others, mapped.distinct,
    space.root, ?_, ?_, fun n dir => space.namedOnce dir.1, ?_⟩
  · intro n dir
    obtain ⟨parent, shape, _⟩ := space.shape n dir
    exact shape.lookup_dot dir.1.1
  · intro n dir
    obtain ⟨parent, shape, place⟩ := space.shape n dir
    refine ⟨parent, shape.lookup_dotDot dir.1.1 (space.parent_inside place), ?_⟩
    cases place with
    | inl root =>
        rw [if_pos root.1]
        exact root.2
    | inr child =>
        have other : n ≠ 0 := fun same => space.tree.orphan parent (same ▸ child)
        rw [if_neg other]
        exact (space.named child).exists
  · intro n dir
    apply (space.tree.reach n dir.1).mono
    intro d m named
    rw [space.kids_eq] at named
    exact named

/-- `pwd` in the directory "a" of the root. -/
theorem testfsPwd_inverse_child : ∃ s : Session, s.fs.IsDir 1 ∧ ∃ names, names.length < 16384 ∧
    walk s.fs 0 names = .ok 1 ∧ ∀ fuel, names.length < fuel → ∃ ret s',
      testfsPwd fuel s.fs 1 = .ok (ret, s') ∧ Printed (pathOutput names) s.fs s' := by
  have ends : Returns (mktestfs 1 >>= testfsStart) fun s =>
      Returns (s.handleCommand (.mkdir [nameA])) fun r => r.2.fs.sb.allocFailed = false ∧
      Returns (r.2.handleCommand (.cd [nameA])) fun r => r.2.fs.sb.allocFailed = false ∧
      r.2.curDir = 1 ∧ 0 < r.2.fs.refs 1 := by
    decide +kernel
  obtain ⟨start, fresh, r₁, ran₁, unfailed₁, r₂, ran₂, unfailed₂, curDir, held⟩ := ends
  have named : NamedRun start r₂.2 _ :=
    (NamedRun.start.command ran₁ unfailed₁).command ran₂ unfailed₂
  obtain ⟨dirs, mapped⟩ := named.mapped (show Fresh 1 start from fresh)
  have dir := mapped.ok.dir
  rw [curDir] at dir
  refine ⟨r₂.2, dir, testfsPwd_inverse r₂.2.fs dirs mapped.dirTree mapped.space.intact.table 1 dir
    held fun m _ other => ?_⟩
  rw [Bool.eq_false_iff]
  intro flag
  exact other ((mapped.ok.clean m flag).trans curDir)

end Runs

end Ece344Lab.Fs
