import Ece344Lab.Fs.FileNodes
import Ece344Lab.Fs.Silent

set_option autoImplicit false

/- What `pwd`, `ls`, `lsr`, `stat` and `fsstat` print about the tree of files. -/
namespace Ece344Lab.Fs

open Outcome Ownership

theorem Session.isDir_tree (s : Session) (n : Nat) : s.tree.isDir n = true ↔ s.fs.IsDir n := by
  unfold FileTree.isDir
  rw [s.tree_node]
  unfold State.node
  split_ifs with held kind
  · exact iff_of_true rfl ⟨held, kind⟩
  · exact iff_of_false (fun equal => by cases equal) fun dir => kind dir.2
  · exact iff_of_false (fun equal => by cases equal) fun dir => held dir.1

def entriesOf (es : List Dirent) : List (List Byte × Nat) :=
  (es.filter Dirent.live).map fun d => (cString d.name, d.target)

section Listing

variable {s : Session} {g : NameMap} {dirs : Nat → List Dirent} {n : Nat} {recursive : Bool}
  {descend : State → Nat → Except Halt State} {fs : State}

theorem entriesOf_live (d : Dirent) (es : List Dirent) (live : d.live = true) :
    entriesOf (d :: es) = (cString d.name, d.target) :: entriesOf es := by
  unfold entriesOf
  rw [List.filter_cons_of_pos live, List.map_cons]

theorem entriesOf_dead (d : Dirent) (es : List Dirent) (dead : ¬ d.live = true) :
    entriesOf (d :: es) = entriesOf es := by
  unfold entriesOf
  rw [List.filter_cons_of_neg dead]

theorem Mapped.entries (mapped : Mapped s g dirs) (dir : s.fs.IsDir n) :
    FileTree.Entries (g n) (entriesOf (dirs n)) where
  once := by
    have distinct := mapped.distinct n dir
    unfold DistinctNames at distinct
    unfold entriesOf
    rw [List.map_map]
    exact distinct
  mem name m := by
    rw [← mapped.names n dir]
    unfold entriesOf
    rw [List.mem_map]
    constructor
    · rintro ⟨d, member, equal⟩
      obtain ⟨member, live⟩ := List.mem_filter.mp member
      cases equal
      exact (mapped.distinct n dir).lookup member live
    · intro found
      obtain ⟨d, search, rfl⟩ := Option.map_eq_some_iff.mp found
      have both := List.find?_some search
      rw [Bool.and_eq_true] at both
      refine ⟨d, List.mem_filter.mpr ⟨List.mem_of_find?_eq_some search, both.1⟩, ?_⟩
      rw [named_iff.mp both.2]

def Listed (s : Session) (recursive : Bool) (es : List Dirent) (fs fs' : State) : Prop :=
  Quiet fs fs' ∧ ∃ out, s.tree.Lists recursive (entriesOf es) out ∧ fs'.stdout = fs.stdout ++ out

/-- What `testfs_ls` does for one directory below. -/
abbrev Descends (s : Session) (dirs : Nat → List Dirent) (recursive : Bool)
    (descend : State → Nat → Except Halt State) : Prop :=
  ∀ fs m, Quiet s.fs fs → s.fs.IsDir m →
    Sat (descend fs m) (Listed s recursive (dirs m) fs) fun _ => True

/-- The line of one entry, with what is printed below it. -/
theorem Shown.lsEntry (shown : Shown s g dirs) (below : Descends s dirs recursive descend)
    (quiet : Quiet s.fs fs) (dir : s.fs.IsDir n) {d : Dirent} (member : d ∈ dirs n)
    (live : d.live = true) :
    Sat (Fs.lsEntry descend recursive fs d) (fun fs' => Quiet fs fs' ∧ ∃ inner,
      fs'.stdout = fs.stdout ++ s.tree.line (cString d.name) d.target :: inner ∧
      ∀ es out, s.tree.Lists recursive es out → s.tree.Lists recursive
        ((cString d.name, d.target) :: es)
        (s.tree.line (cString d.name) d.target :: (inner ++ out))) (fun _ => True) := by
  have allocated := shown.space.target_allocated dir member live
  have intact := quiet.intact shown.space.intact
  unfold Fs.lsEntry
  change Sat (testfsGetInode fs d.target >>= _) _ _
  apply Sat.bind ((testfsGetInode_sat fs intact.consistent intact.table d.target).and
    (testfsGetInode_silent fs d.target))
  intro fs₁ got
  obtain ⟨got, silent₁⟩ := got
  apply Sat.bind (Session.inode_got got.2.2 d.target got.1)
  intro cin view
  rw [quiet.view d.target allocated.1] at view
  have flag : decide (cin.dinode.iType = InodeType.dir.code) = s.tree.isDir d.target := by
    rw [Bool.eq_iff_iff, decide_eq_true_eq, s.isDir_tree, view]
    exact ⟨fun kind => ⟨allocated, kind⟩, And.right⟩
  dsimp only
  rw [flag]
  change Sat (if _ then descend (fs₁.print (s.tree.line (cString d.name) d.target)) d.target >>= _
    else testfsPutInode (fs₁.print (s.tree.line (cString d.name) d.target)) d.target) _ _
  have step := got.2.2.quiet
  have quiet₁ := step.trans ((Kept.refl step.consistent step.table).print
    (s.tree.line (cString d.name) d.target)).quiet
  have said : (fs₁.print (s.tree.line (cString d.name) d.target)).stdout =
      fs.stdout ++ [s.tree.line (cString d.name) d.target] := by
    change fs₁.stdout ++ _ = _
    rw [show fs₁.stdout = fs.stdout from silent₁]
  generalize fs₁.print (s.tree.line (cString d.name) d.target) = fs₂ at said quiet₁ ⊢
  apply Sat.ite
  · rintro ⟨deep, isDir, notDot, notDotDot⟩
    have dir' := (s.isDir_tree d.target).mp isDir
    apply Sat.bind (below fs₂ d.target (quiet.trans quiet₁) dir')
    intro fs₃ listed
    obtain ⟨quiet₂, inner, lists, said₂⟩ := listed
    apply ((testfsPutInode_sat fs₃ quiet₂.consistent quiet₂.table d.target).and
      (testfsPutInode_silent fs₃ d.target)).weaken
    intro fs₄ put
    obtain ⟨put, silent₂⟩ := put
    refine ⟨quiet₁.trans (quiet₂.trans put.2.2.2.quiet), inner, ?_, fun es out rest => ?_⟩
    · change fs₄.stdout = fs₃.stdout at silent₂
      rw [silent₂, said₂, said, List.append_assoc]
      rfl
    · exact .nested deep ⟨fun same => notDot (named_iff.mpr same),
        fun same => notDotDot (named_iff.mpr same)⟩ (shown.node_dir dir')
        (shown.entries dir') lists rest
  · intro flat
    apply ((testfsPutInode_sat fs₂ quiet₁.consistent quiet₁.table d.target).and
      (testfsPutInode_silent fs₂ d.target)).weaken
    intro fs₃ put
    obtain ⟨put, silent₂⟩ := put
    refine ⟨quiet₁.trans put.2.2.2.quiet, [], silent₂.trans said, fun es out rest => ?_⟩
    refine .entry ?_ rest
    by_contra other
    simp only [not_or, Bool.not_eq_false] at other
    exact flat ⟨other.1, other.2.1, fun named => other.2.2.1 (named_iff.mp named),
      fun named => other.2.2.2 (named_iff.mp named)⟩

/-- The loop of `testfs_ls`; by induction on its fuel, with the entries that are left. -/
theorem Shown.lsLoop (shown : Shown s g dirs) (below : Descends s dirs recursive descend)
    (dir : s.fs.IsDir n) (fuel : Nat) (fs : State) (quiet : Quiet s.fs fs)
    (before after : List Dirent) (split : dirs n = before ++ after) :
    Sat (Fs.lsLoop descend n recursive fuel fs (direntsSize before))
      (Listed s recursive after fs) (fun _ => True) := by
  induction fuel generalizing fs before after with
  | zero => trivial
  | succ fuel ih =>
      have intact := quiet.intact shown.space.intact
      have listing := ((shown.space.listed n dir).quiet quiet shown.space.intact).listing
      unfold Fs.lsLoop
      cases read : fs.inode n with
      | error e => trivial
      | ok inode =>
          obtain ⟨_, view, _⟩ := intact.table.of_read read
          rw [ok_bind, view]
          cases after with
          | nil =>
              rw [List.append_nil] at split
              rw [← split, listing.next_end, ok_bind]
              exact ⟨.refl intact.consistent intact.table, [], .nil, (List.append_nil _).symm⟩
          | cons d rest =>
              have split' : dirs n = (before ++ [d]) ++ rest := by
                rw [split, List.append_assoc]
                rfl
              apply Sat.bind (listing.next before rest d split).anyStop
              rintro _ rfl
              dsimp only
              apply Sat.ite
              · intro live
                have member : d ∈ dirs n := by
                  rw [split]
                  exact List.mem_append_right before List.mem_cons_self
                apply Sat.bind (shown.lsEntry below quiet dir member live)
                intro fs₁ entry
                obtain ⟨quiet₁, inner, said₁, lists⟩ := entry
                apply (ih fs₁ (quiet.trans quiet₁) (before ++ [d]) rest split').weaken
                intro fs₂ listed
                obtain ⟨quiet₂, out, lists₂, said₂⟩ := listed
                refine ⟨quiet₁.trans quiet₂,
                  s.tree.line (cString d.name) d.target :: (inner ++ out), ?_, ?_⟩
                · rw [entriesOf_live d rest live]
                  exact lists _ _ lists₂
                · rw [said₂, said₁, List.append_assoc]
                  rfl
              · intro dead
                apply (ih fs quiet (before ++ [d]) rest split').weaken
                intro fs₁ listed
                unfold Listed at listed ⊢
                rw [entriesOf_dead d rest dead]
                exact listed

/-- `testfs_ls`; by induction on the depth. -/
theorem Shown.testfsLs (shown : Shown s g dirs) (recursive : Bool) (depth : Nat) :
    Descends s dirs recursive (Fs.testfsLs recursive depth) := by
  induction depth with
  | zero => exact fun _ _ _ _ => trivial
  | succ depth ih =>
      intro fs n quiet dir
      unfold Fs.testfsLs
      apply Sat.bind (sat_true _)
      intro inode _
      exact shown.lsLoop ih dir _ fs quiet [] (dirs n) rfl

end Listing

section Commands

variable {s s' : Session} {g : NameMap} {dirs : Nat → List Dirent} {ret : Int}

theorem Shown.ls (shown : Shown s g dirs) (name : Arg) (recursive : Bool) (same : s'.tree = s.tree)
    (ran : s.cmdLsInternal [name] recursive = .ok (ret, s')) :
    s.tree.Ls ret s'.tree s.fs.stdout s'.fs.stdout name.bytes recursive := by
  have walk : Sat (s.cmdLsInternal [name] recursive) (fun r => s.tree.Ls r.1 s.tree s.fs.stdout
      r.2.fs.stdout name.bytes recursive) (fun _ => True) := by
    unfold FileTree.Ls
    rw [shown.find]
    unfold Session.cmdLsInternal
    apply Sat.bind (shown.lookup name.bytes)
    rintro _ rfl
    cases found : g s.curDir name.bytes with
    | none => exact ⟨rfl, rfl, rfl⟩
    | some n =>
        have held := shown.named shown.ok.dir found
        unfold nameResult
        dsimp only
        rw [if_neg (Int.not_lt.mpr (Int.natCast_nonneg n)), Int.toNat_natCast, s.tree_node]
        apply Sat.bind ((shown.ok.get n).and (testfsGetInode_silent s.fs n))
        intro fs got
        obtain ⟨got, silent⟩ := got
        change fs.stdout = s.fs.stdout at silent
        have quiet := got.2.quiet
        apply Sat.bind (Session.inode_got got.2 n got.1)
        intro inode view
        rw [view]
        apply Sat.ite
        · intro kind
          have dir : s.fs.IsDir n := ⟨held, kind⟩
          rw [shown.node_dir dir]
          apply Sat.bind (shown.testfsLs recursive maxDepth fs n quiet dir)
          intro fs₁ listed
          obtain ⟨quiet₁, out, lists, said⟩ := listed
          apply Sat.bind (testfsPutInode_silent fs₁ n)
          intro fs₂ silent₂
          change fs₂.stdout = fs₁.stdout at silent₂
          refine ⟨rfl, rfl, entriesOf (dirs n), out, shown.entries dir, lists, ?_⟩
          change fs₂.stdout = _
          rw [silent₂, said, silent]
        · intro kind
          rw [State.node_file held fun dir => kind dir.2]
          exact ⟨rfl, rfl, silent⟩
  rw [same]
  exact walk.of_ok ran

theorem Shown.stat (shown : Shown s g dirs) (name : Arg) (same : s'.tree = s.tree)
    (ran : s.cmdStat [name] = .ok (ret, s')) :
    s.tree.Stats ret s'.tree s.fs.stdout s'.fs.stdout name.bytes := by
  have walk : Sat (s.cmdStat [name]) (fun r => s.tree.Stats r.1 s.tree s.fs.stdout
      r.2.fs.stdout name.bytes) (fun _ => True) := by
    unfold FileTree.Stats
    rw [shown.find]
    unfold Session.cmdStat
    apply Sat.bind (shown.lookup name.bytes)
    rintro _ rfl
    cases found : g s.curDir name.bytes with
    | none => exact ⟨rfl, rfl, rfl⟩
    | some n =>
        have held := shown.named shown.ok.dir found
        unfold nameResult
        dsimp only
        rw [if_neg (Int.not_lt.mpr (Int.natCast_nonneg n)), Int.toNat_natCast]
        apply Sat.bind ((shown.ok.get n).and (testfsGetInode_silent s.fs n))
        intro fs got
        obtain ⟨got, silent⟩ := got
        change fs.stdout = s.fs.stdout at silent
        cases read : fs.inode n with
        | error e => trivial
        | ok inode =>
            obtain ⟨_, view, _, number, _⟩ := got.2.quiet.table.of_read read
            rw [got.2.quiet.view n got.1] at view
            rw [ok_bind, view, number]
            apply Sat.bind (testfsPutInode_silent _ n)
            intro fs₁ silent₁
            have kind : (if s.tree.isDir n then InodeType.dir else .file).code =
                (s.fs.view n).iType := by
              by_cases dir : s.fs.IsDir n
              · rw [if_pos ((s.isDir_tree n).mpr dir)]
                exact dir.2.symm
              · rw [if_neg fun kind => dir ((s.isDir_tree n).mp kind)]
                exact (shown.files n held dir).kind.symm
            refine ⟨rfl, rfl, (s.fs.view n).iSize, (s.fs.view n).blockCount, silent₁.trans ?_,
              fun bytes node => ?_⟩
            · change fs.stdout ++ _ = _
              rw [silent, kind]
            · have file : ¬ s.fs.IsDir n := by
                intro dir
                rw [s.tree_node, shown.node_dir dir] at node
                cases node
              rw [s.tree_node, State.node_file held file] at node
              cases node
              rw [State.length_bytes]
              exact (Int.toNat_of_nonneg (shown.files n held file).lower).symm
  rw [same]
  exact walk.of_ok ran

/-- A way through the directories is a way through the tree. -/
theorem Mapped.way (mapped : Mapped s g dirs) {names : List (List Byte)} {n : Nat}
    (path : Rooted.Path 0 (NamesDir s.fs dirs) names n) :
    Rooted.Path 0 s.tree.NamesDir names n := by
  induction path with
  | root => exact .root
  | @child names p n name above step other ih =>
      refine ih.child ?_ other
      obtain ⟨dir, d, member, child, named, target⟩ := step
      obtain ⟨live, notDot, notDotDot⟩ := namesChild_iff.mp child
      have parent := mapped.dirTree.isDir member
      refine ⟨⟨g p, ?_, ?_⟩, (s.isDir_tree n).mpr dir, ?_, ?_⟩
      · exact mapped.node_dir parent
      · rw [← mapped.names p parent, ← named, ← target]
        exact (mapped.distinct p parent).lookup member live
      · rintro rfl
        rw [named_iff.mpr named] at notDot
        cases notDot
      · rintro rfl
        rw [named_iff.mpr named] at notDotDot
        cases notDotDot

theorem Shown.pwd (shown : Shown s g dirs) (same : s'.tree = s.tree)
    (ran : s.cmdPwd [] = .ok (ret, s')) : s.tree.Pwds ret s'.tree s.fs.stdout s'.fs.stdout := by
  have tree := shown.dirTree
  have table := shown.space.intact.table
  obtain ⟨names, path⟩ := tree.path shown.ok.dir
  have length := tree.path_length path
  have enough : names.length < maxDepth := by
    change names.length < 16385
    omega
  have held : 0 < s.fs.refs s.curDir := by
    cases read : s.fs.inode s.curDir with
    | error e =>
        unfold Session.cmdPwd at ran
        dsimp only at ran
        unfold testfsPwd at ran
        rw [read] at ran
        cases ran
    | ok inode => exact table.refs_pos read
  have above : ∀ before m, Rooted.Path 0 (NamesDir s.fs dirs) before m →
      before.length < names.length → s.fs.dirty m = false := by
    intro before m path' shorter
    rw [Bool.eq_false_iff]
    intro flag
    have here := shown.ok.clean m flag
    subst here
    have equal := congrArg List.length (path'.unique tree.oneEdge path)
    omega
  obtain ⟨fs, printed, step⟩ := testfsPwd_path tree path maxDepth s.fs enough
    ⟨rfl, table, fun _ _ => rfl, fun _ => rfl⟩ held above
  unfold Session.cmdPwd at ran
  dsimp only at ran
  rw [printed, ok_bind] at ran
  cases ran
  refine ⟨same, rfl, names, shown.way path, ?_⟩
  change fs.stdout ++ _ = _
  rw [step.stdout]

theorem Shown.fsstat (shown : Shown s g dirs) (same : s'.tree = s.tree)
    (ran : s.cmdFsstat [] = .ok (ret, s')) :
    s.tree.Fsstats ret s'.tree s.fs.stdout s'.fs.stdout := by
  have intact := shown.space.intact
  have used : ∀ n, n ∈ s.fs.sb.inodeFreemap.elems ↔ s.fs.sb.InodeAllocated n := by
    intro n
    rw [Bitmap.mem_elems, intact.consistent.inodeBits]
    constructor
    · exact fun set => ⟨intact.bits n set.2, set.2⟩
    · exact fun held => ⟨held.1.trans (by decide), held.2⟩
  have inodes : s.fs.sb.sb.usedInodeCount =
      ((Finset.range 16384).filter fun n => (s.tree.node n).isSome).card := by
    rw [intact.consistent.inodeCount]
    refine congrArg Finset.card (Finset.ext fun n => ?_)
    rw [Finset.mem_filter, Finset.mem_range, s.tree_node, Option.isSome_iff_ne_none, ne_eq,
      State.node_eq_none_iff, not_not, used]
    exact ⟨fun held => ⟨held.1, held⟩, And.right⟩
  cases ran
  refine ⟨same, rfl, s.fs.sb.sb.usedBlockCount, ?_⟩
  rw [← inodes]
  rfl

end Commands

end Ece344Lab.Fs
