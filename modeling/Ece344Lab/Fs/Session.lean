import Ece344Lab.Fs.Quietly
import Ece344Lab.Fs.Start

set_option autoImplicit false

/- One command of `testfs`: what it does to the directories, to the references on inodes and to
their dirty flags. -/
namespace Ece344Lab.Fs

open Outcome Ownership

namespace Session

/-- The invariant between commands, with whatever references. -/
structure Ok (s : Session) : Prop where
  space : ∃ dirs, Namespace s.fs dirs
  dir : s.fs.IsDir s.curDir
  clean : ∀ m, s.fs.dirty m = true → m = s.curDir

/-- `name` names inode `n` in the current directory. -/
def Names (s : Session) (name : List Byte) (n : Nat) : Prop :=
  ∃ es d, Listing s.fs.sb (s.fs.view s.curDir) es ∧
    es.find? (fun d => d.live && d.named name) = some d ∧ d.target = n

/-- The command creates a file or directory under a condition on the state before it. -/
def Creates (s : Session)
    (condition : State → Nat → List Byte → InodeType → List Dirent → Prop) : Command → Prop
  | .create [name] => ∃ es, Listing s.fs.sb (s.fs.view s.curDir) es ∧
      condition s.fs s.curDir name.bytes .file es
  | .mkdir [name] => ∃ es, Listing s.fs.sb (s.fs.view s.curDir) es ∧
      condition s.fs s.curDir name.bytes .dir es
  | _ => False

/-- The command writes into a file in such a way that an indirect block is stranded. -/
def WriteStrands (s : Session) : Command → Prop
  | .write [filename, offset, buf] => ∃ n pos : Nat, s.Names filename.bytes n ∧ ¬ s.fs.IsDir n ∧
      strToOffset offset.bytes = some (pos : Int) ∧
      StrandsAt s.fs s.fs.sb.free n pos buf.bytes.length
  | _ => False

/-- The command strands an indirect block. -/
def Strands (s : Session) (c : Command) : Prop := s.Creates CreateStrands c ∨ s.WriteStrands c

/-- The command lists something that is not a directory. -/
def ListsFile (s : Session) : Command → Prop
  | .ls [name] => ∃ n, s.Names name.bytes n ∧ ¬ s.fs.IsDir n
  | .lsr [name] => ∃ n, s.Names name.bytes n ∧ ¬ s.fs.IsDir n
  | _ => False

/-- The references are as before, except that the one on the current directory moves with it. -/
def Balanced (s s' : Session) : Prop :=
  ∀ m, s'.fs.refs m + (if m = s.curDir then 1 else 0) =
    s.fs.refs m + (if m = s'.curDir then 1 else 0)

/-- What a command does that strands nothing. -/
structure Stepped (c : Command) (s s' : Session) : Prop where
  ok : s'.Ok
  balance : s.ListsFile c ∨ Balanced s s'
  soils : ∀ m, s'.fs.dirty m = true → s.fs.dirty m = true ∨ s.Creates CreateMiscounts c ∨
    s'.fs.sb.allocFailed = true ∧ s.Creates CreateStarves c

/-- What a command does. -/
def Handled (c : Command) (s s' : Session) : Prop :=
  Stepped c s s' ∨ s.Strands c ∧ s'.fs.sb.allocFailed = true

section Step

variable {s : Session} {c : Command} {dirs : Nat → List Dirent}

theorem isDir_quiet {fs fs' : State} (step : Quiet fs fs') (n : Nat) :
    fs'.IsDir n ↔ fs.IsDir n := by
  unfold State.IsDir
  rw [step.inodeAllocated_iff]
  constructor
  · intro held
    exact ⟨held.1, step.view n held.1.1 ▸ held.2⟩
  · intro held
    exact ⟨held.1, (step.view n held.1.1).symm ▸ held.2⟩

theorem Ok.clean_free (ok : s.Ok) (m : Nat) (free : ¬ s.fs.sb.InodeAllocated m) :
    s.fs.dirty m = false := by
  apply Bool.eq_false_iff.mpr
  intro flag
  rw [ok.clean m flag] at free
  exact free ok.dir.1

theorem Ok.quiet (ok : s.Ok) {fs : State} (step : Quiet s.fs fs)
    (clean : ∀ m, fs.dirty m = true → s.fs.dirty m = true) : Ok { s with fs := fs } := by
  obtain ⟨dirs, space⟩ := ok.space
  exact ⟨⟨dirs, space.quiet step⟩, (isDir_quiet step _).mpr ok.dir,
    fun m flag => ok.clean m (clean m flag)⟩

theorem Ok.looked (ok : s.Ok) {fs : State} (step : Kept s.fs fs) :
    Stepped c s { s with fs := fs } := by
  have same : ∀ m, fs.dirty m = true → s.fs.dirty m = true := by
    intro m flag
    rw [step.dirty] at flag
    exact flag
  refine ⟨ok.quiet step.quiet same, Or.inr ?_, fun m flag => Or.inl (same m flag)⟩
  intro m
  change fs.refs m + _ = _
  rw [step.refs]

theorem Ok.kept (ok : s.Ok) {fs : State} (step : Kept s.fs fs) :
    Handled c s { s with fs := fs } :=
  Or.inl (ok.looked step)

theorem Ok.stays (ok : s.Ok) : Stepped c s s := by
  obtain ⟨_, space⟩ := ok.space
  exact ok.looked (.refl space.intact.consistent space.intact.table)

theorem Ok.unchanged (ok : s.Ok) : Handled c s s := Or.inl ok.stays

/-- `testfs_dir_name_to_inode_nr(c->cur_dir, name)` finds inodes in use. -/
theorem Ok.lookup (ok : s.Ok) (name : List Byte) :
    Sat (s.lookup name)
      (fun r => 0 ≤ r → s.Names name r.toNat ∧ s.fs.sb.InodeAllocated r.toNat)
      (fun _ => True) := by
  obtain ⟨dirs, space⟩ := ok.space
  have intact := space.intact
  have listing := (space.listed s.curDir ok.dir).listing
  unfold Session.lookup
  cases read : s.fs.inode s.curDir with
  | error e => trivial
  | ok inode =>
      obtain ⟨_, view, _⟩ := intact.table.of_read read
      rw [ok_bind, view]
      apply (listing.nameToInodeNr name).mono _ fun _ _ => trivial
      intro r same nonneg
      cases search : (dirs s.curDir).find? fun d => d.live && d.named name with
      | none =>
          have negative : ¬ (0 : Int) ≤ -eNOENT := by decide
          rw [same, search] at nonneg
          exact absurd nonneg negative
      | some d =>
          have live := List.find?_some search
          rw [Bool.and_eq_true] at live
          have member := List.mem_of_find?_eq_some search
          rw [search] at same
          rw [same]
          exact ⟨⟨_, d, listing, search, rfl⟩, space.target_allocated ok.dir member live.1⟩

theorem inode_got {fs fs' : State} {refs : Nat → Nat} {dirty : Nat → Bool}
    (step : Shuffled fs fs' refs dirty) (n : Nat) (inside : n < 16384) :
    Sat (fs'.inode n) (fun inode => inode.dinode = fs.view n) (fun _ => True) := by
  have table := step.quiet.table
  cases read : fs'.inode n with
  | error e => trivial
  | ok inode =>
      obtain ⟨_, view, _⟩ := table.of_read read
      exact view.trans (step.quiet.view n inside)

theorem Ok.get (ok : s.Ok) (n : Nat) :
    Sat (testfsGetInode s.fs n)
      (fun fs => n < 16384 ∧
        Shuffled s.fs fs (Function.update s.fs.refs n (s.fs.refs n + 1)) s.fs.dirty)
      (fun _ => True) := by
  obtain ⟨_, space⟩ := ok.space
  apply (testfsGetInode_sat s.fs space.intact.consistent space.intact.table n).weaken
  exact fun fs spec => ⟨spec.1, spec.2.2⟩

theorem Ok.cmdCd (ok : s.Ok) (args : List Arg) :
    Sat (s.cmdCd args) (fun r => Handled (.cd args) s r.2) (fun _ => True) := by
  unfold Session.cmdCd
  split
  · rename_i name
    apply Sat.bind (ok.lookup name.bytes)
    intro found spec
    apply Sat.ite
    · exact fun _ => ok.unchanged
    · intro nonneg
      obtain ⟨_, allocated⟩ := spec (Int.not_lt.mp nonneg)
      apply Sat.bind (ok.get found.toNat)
      intro fs got
      obtain ⟨inside, step⟩ := got
      have quiet := step.quiet
      apply Sat.bind (inode_got step _ inside)
      intro dir view
      have put := testfsPutInode_sat fs quiet.consistent quiet.table
      apply Sat.ite
      · intro _
        apply Sat.bind (put found.toNat)
        intro fs' spec
        exact ok.kept (step.put spec.2.2.2)
      · intro kind
        have isDir : s.fs.IsDir found.toNat := ⟨allocated, view ▸ not_not.mp kind⟩
        apply Sat.bind (put s.curDir)
        intro fs' spec
        obtain ⟨held, clean, _, back⟩ := spec
        obtain ⟨dirs, space⟩ := ok.space
        have whole := quiet.trans back.quiet
        -- the old current directory was clean, and nothing else can be dirty
        have none : ∀ m, fs'.dirty m = false := by
          intro m
          rw [back.dirty, step.dirty]
          apply Bool.eq_false_iff.mpr
          intro flag
          rw [step.dirty, ← ok.clean m flag, flag] at clean
          cases clean
        refine Or.inl ⟨⟨⟨dirs, space.quiet whole⟩, (isDir_quiet whole _).mpr isDir, ?_⟩,
          Or.inr ?_, ?_⟩
        · intro m flag
          change fs'.dirty m = true at flag
          rw [none] at flag
          cases flag
        · intro m
          change fs'.refs m + _ = s.fs.refs m + (if m = found.toNat then 1 else 0)
          rw [step.refs] at held
          rw [back.refs, step.refs]
          simp only [Function.update_apply] at held ⊢
          split_ifs at held ⊢ <;> simp_all
          all_goals omega
        · intro m flag
          change fs'.dirty m = true at flag
          rw [none] at flag
          cases flag
  · exact ok.unchanged

theorem Ok.cmdPwd (ok : s.Ok) (args : List Arg) :
    Sat (s.cmdPwd args) (fun r => Handled (.pwd args) s r.2) (fun _ => True) := by
  obtain ⟨_, space⟩ := ok.space
  unfold Session.cmdPwd
  split
  · apply Sat.bind (testfsPwd_sat maxDepth s.fs s.curDir space.intact.consistent
      space.intact.table)
    exact fun r step => ok.kept (step.print _)
  · exact ok.unchanged

/-- `cmd_ls_internal`: the inode of something that is no directory is not put. -/
theorem Ok.cmdLsInternal (ok : s.Ok) (args : List Arg) (recursive : Bool) :
    Sat (s.cmdLsInternal args recursive)
      (fun r => Handled (if recursive then .lsr args else .ls args) s r.2) (fun _ => True) := by
  unfold Session.cmdLsInternal
  split
  · rename_i name
    apply Sat.bind (ok.lookup name.bytes)
    intro found spec
    apply Sat.ite
    · exact fun _ => ok.unchanged
    · intro nonneg
      obtain ⟨names, allocated⟩ := spec (Int.not_lt.mp nonneg)
      apply Sat.bind (ok.get found.toNat)
      intro fs got
      obtain ⟨inside, step⟩ := got
      have quiet := step.quiet
      apply Sat.bind (inode_got step _ inside)
      intro inode view
      apply Sat.ite
      · intro _
        apply Sat.bind (testfsLs_sat recursive maxDepth fs _ quiet.consistent quiet.table)
        intro fs₁ listed
        apply Sat.bind (testfsPutInode_sat fs₁ listed.quiet.consistent listed.quiet.table _)
        intro fs₂ spec
        exact ok.kept (Kept.around step listed spec.2.2.2)
      · intro kind
        have file : ¬ s.fs.IsDir found.toNat := fun dir => kind (view.symm ▸ dir.2)
        refine Or.inl ⟨ok.quiet quiet ?_, Or.inl ?_, ?_⟩
        · intro m flag
          rw [step.dirty] at flag
          exact flag
        · cases recursive
          · exact ⟨_, names, file⟩
          · exact ⟨_, names, file⟩
        · intro m flag
          change fs.dirty m = true at flag
          rw [step.dirty] at flag
          exact Or.inl flag
  · exact ok.unchanged

theorem Ok.cmdStat (ok : s.Ok) (args : List Arg) :
    Sat (s.cmdStat args) (fun r => Handled (.stat args) s r.2) (fun _ => True) := by
  unfold Session.cmdStat
  split
  · rename_i name
    apply Sat.bind (ok.lookup name.bytes)
    intro found _
    apply Sat.ite
    · exact fun _ => ok.unchanged
    · intro _
      apply Sat.bind (ok.get found.toNat)
      intro fs got
      obtain ⟨inside, step⟩ := got
      apply Sat.bind (sat_true _)
      intro inode _
      have printed := (Kept.refl step.quiet.consistent step.quiet.table).print
        (.stat name.bytes inode.iNr inode.dinode.iType inode.dinode.iSize inode.dinode.blockCount)
      apply Sat.bind (testfsPutInode_sat _ printed.quiet.consistent printed.quiet.table _)
      intro fs' spec
      exact ok.kept (Kept.around step printed spec.2.2.2)
  · exact ok.unchanged

theorem Ok.cmdFsstat (ok : s.Ok) (args : List Arg) :
    Sat (s.cmdFsstat args) (fun r => Handled (.fsstat args) s r.2) (fun _ => True) := by
  obtain ⟨_, space⟩ := ok.space
  unfold Session.cmdFsstat
  split
  · exact ok.kept ((Kept.refl space.intact.consistent space.intact.table).print _)
  · exact ok.unchanged

theorem Ok.testfsGetFileInode (ok : s.Ok) (name : List Byte) :
    Sat (s.testfsGetFileInode name)
      (fun r => (r.1 < 0 ∧ Kept s.fs r.2.2) ∨ (0 ≤ r.1 ∧ r.2.1 < 16384 ∧
        s.Names name r.2.1 ∧ s.fs.sb.InodeAllocated r.2.1 ∧ ¬ s.fs.IsDir r.2.1 ∧
        Shuffled s.fs r.2.2 (Function.update s.fs.refs r.2.1 (s.fs.refs r.2.1 + 1)) s.fs.dirty))
      (fun _ => True) := by
  obtain ⟨_, space⟩ := ok.space
  have unchanged := Kept.refl space.intact.consistent space.intact.table
  have negative : -eISDIR < 0 := by decide
  unfold Session.testfsGetFileInode
  apply Sat.bind (ok.lookup name)
  intro found spec
  apply Sat.ite
  · exact fun absent => Or.inl ⟨absent, unchanged⟩
  · intro nonneg
    obtain ⟨names, allocated⟩ := spec (Int.not_lt.mp nonneg)
    apply Sat.bind (ok.get found.toNat)
    intro fs got
    obtain ⟨inside, step⟩ := got
    apply Sat.bind (inode_got step _ inside)
    intro inode view
    apply Sat.ite
    · intro _
      apply Sat.bind (testfsPutInode_sat fs step.quiet.consistent step.quiet.table _)
      intro fs' spec
      exact Or.inl ⟨negative, step.put spec.2.2.2⟩
    · intro kind
      have file : ¬ s.fs.IsDir found.toNat := fun dir => kind (view.symm ▸ dir.2)
      exact Or.inr ⟨Int.le_refl 0, inside, names, allocated, file, step⟩

theorem readFile_sat (fs : State) (n : Nat) (offset : Int) (size : Nat)
    (consistent : Consistent fs.sb) (table : TableOk fs) :
    Sat (readFile fs n offset size) (fun r => Kept fs r.2) (fun _ => True) := by
  have unchanged := Kept.refl consistent table
  unfold readFile
  apply Sat.bind (sat_true _)
  intro inode _
  apply Sat.ite
  · exact fun _ => unchanged
  · intro _
    apply Sat.ite
    · exact fun _ => unchanged
    · intro _
      apply Sat.bind (sat_true _)
      intro r _
      dsimp only
      apply Sat.ite
      · exact fun _ => trivial
      · intro _
        apply Sat.ite
        · intro _
          apply Sat.ite
          · exact fun _ => trivial
          · exact fun _ => unchanged.print _
        · exact fun _ => unchanged

theorem Ok.cmdRead (ok : s.Ok) (args : List Arg) :
    Sat (s.cmdRead args) (fun r => Handled (.read args) s r.2) (fun _ => True) := by
  unfold Session.cmdRead
  split
  · split
    · exact ok.unchanged
    · apply Sat.ite
      · exact fun _ => ok.unchanged
      · intro _
        split
        · exact ok.unchanged
        · apply Sat.bind (ok.testfsGetFileInode _)
          intro r spec
          obtain ⟨ret, n, fs⟩ := r
          change Sat (if ret < 0 then _ else _) _ _
          cases spec with
          | inl failed =>
              rw [if_pos failed.1]
              exact ok.kept failed.2
          | inr got =>
              obtain ⟨nonneg, _, _, _, _, step⟩ := got
              rw [if_neg (Int.not_lt.mpr nonneg)]
              apply Sat.bind (readFile_sat fs n _ _ step.quiet.consistent step.quiet.table)
              intro r inner
              obtain ⟨ret', fs'⟩ := r
              apply Sat.bind (testfsPutInode_sat fs' inner.quiet.consistent inner.quiet.table n)
              intro fs'' spec
              exact ok.kept (Kept.around step inner spec.2.2.2)
  · exact ok.unchanged

/-- A write to any inode, unless it strands an indirect block. -/
theorem file_write (fs : State) (n pos : Nat) (buf : List Byte) (intact : Intact fs)
    (allocated : fs.sb.InodeAllocated n) :
    Sat (fs.onInode n fun sb inode => testfsWriteData sb inode buf pos)
      (fun r => Rewritten n fs r.2 ∨ r.1 < 0 ∧ StrandedAt n pos buf.length fs r.2)
      (fun _ => True) := by
  by_cases inside : pos / 8192 < 4196362
  · refine (onInode_write_sat fs n buf pos intact allocated inside).mono ?_ fun _ _ => trivial
    intro r spec
    obtain ⟨inode, w, read, view, _, outcome, same⟩ := spec
    have owned := owned_of_owns intact.owns allocated
    rw [← view] at owned
    rw [same]
    cases outcome with
    | done spliced _ _ _ =>
        exact Or.inl (.of_extended (spliced.ext.onInode intact.table read owned) intact allocated
          view fun _ => spliced.stored)
    | tooBig spliced _ _ _ =>
        exact Or.inl (.of_extended (spliced.ext.onInode intact.table read owned) intact allocated
          view fun _ => spliced.stored)
    | failed failed =>
        have full := failed.ghost
        refine Or.inl (.of_extended ((failed.ext intact.zeros).onInode intact.table read owned)
          intact allocated view fun unfailed => ?_)
        change w.sb.allocFailed = false at unfailed
        rw [full] at unfailed
        cases unfailed
    | stranded strands ret ghost _ =>
        rw [view] at strands
        exact Or.inr ⟨ret, strands, ghost⟩
  · -- the largest file ends before `pos`
    unfold State.onInode
    cases read : fs.inode n with
    | error e => trivial
    | ok inode =>
        obtain ⟨_, view, _⟩ := intact.table.of_read read
        have owned := owned_of_owns intact.owns allocated
        rw [← view] at owned
        have same : testfsWriteData fs.sb inode buf pos = .ok ⟨eFBIG, inode, fs.sb⟩ := by
          have beyond : nrMaxBlock ≤ ((pos : Int).toNat) / blockSize := Nat.not_lt.mp inside
          unfold testfsWriteData
          rw [if_neg (by omega), if_neg (by omega)]
          exact if_pos beyond
        have step := (Extends.refl (fun _ => False) intact.consistent inode).onInode
          (r := ⟨eFBIG, inode, fs.sb⟩) intact.table read owned
        rw [ok_bind]
        dsimp only
        rw [same]
        exact Or.inl (.of_extended step intact allocated view fun _ stored => stored)

/-- A file that has been got and written to is written back and put. -/
theorem Ok.written (ok : s.Ok) {args : List Arg} {n : Nat} {fs fs₂ fs₃ fs₄ : State}
    (file : ¬ s.fs.IsDir n)
    (step : Shuffled s.fs fs (Function.update s.fs.refs n (s.fs.refs n + 1)) s.fs.dirty)
    (rewritten : Rewritten n fs fs₂)
    (sync : Shuffled fs₂ fs₃ fs₂.refs (Function.update fs₂.dirty n false))
    (put : Shuffled fs₃ fs₄ (Function.update fs₃.refs n (fs₃.refs n - 1)) fs₃.dirty) :
    Stepped (.write args) s { s with fs := fs₄ } := by
  obtain ⟨dirs, space⟩ := ok.space
  have quiet := step.quiet
  have whole := sync.quiet.trans put.quiet
  have file₁ : ¬ fs.IsDir n := fun dir => file ((isDir_quiet quiet n).mp dir)
  have space₂ := (space.quiet quiet).rewritten rewritten fun dir => absurd dir file₁
  have isDir : ∀ m, s.fs.IsDir m → fs₂.IsDir m := by
    intro m dir
    have dir₁ := (isDir_quiet quiet m).mpr dir
    have other : m ≠ n := fun same => file (same ▸ dir)
    refine ⟨(rewritten.inodes m).mpr dir₁.1, ?_⟩
    rw [(rewritten.others m dir₁.1 other).view]
    exact dir₁.2
  have soils : ∀ m, fs₄.dirty m = true → s.fs.dirty m = true := by
    intro m flag
    rw [put.dirty, sync.dirty] at flag
    by_cases here : m = n
    · rw [here, Function.update_self] at flag
      cases flag
    · rw [Function.update_of_ne here, rewritten.dirty m here, step.dirty] at flag
      exact flag
  have refs : fs₄.refs = s.fs.refs := by
    rw [put.refs, sync.refs, rewritten.refs, step.refs, Function.update_self, Function.update_idem,
      Nat.add_sub_cancel, Function.update_eq_self]
  refine ⟨⟨⟨dirs, space₂.quiet whole⟩, ?_, ?_⟩, Or.inr ?_, ?_⟩
  · exact (isDir_quiet whole _).mpr (isDir _ ok.dir)
  · exact fun m flag => ok.clean m (soils m flag)
  · intro m
    change fs₄.refs m + _ = _
    rw [refs]
  · exact fun m flag => Or.inl (soils m flag)

/-- `cmd_write`; a write that strands an indirect block fails. -/
theorem Ok.cmdWrite_returns (ok : s.Ok) (args : List Arg) :
    Sat (s.cmdWrite args)
      (fun r => Stepped (.write args) s r.2 ∨
        r.1 < 0 ∧ s.Strands (.write args) ∧ r.2.fs.sb.allocFailed = true)
      (fun _ => True) := by
  unfold Session.cmdWrite
  split
  · rename_i filename offset buf
    split
    · exact Or.inl ok.stays
    · rename_i start parsed
      apply Sat.ite
      · exact fun _ => Or.inl ok.stays
      · intro positive
        obtain ⟨pos, same⟩ := Int.eq_ofNat_of_zero_le (Int.not_lt.mp positive)
        subst same
        apply Sat.bind (ok.testfsGetFileInode filename.bytes)
        intro r spec
        obtain ⟨ret, n, fs⟩ := r
        change Sat (if ret < 0 then _ else _) _ _
        cases spec with
        | inl failed =>
            rw [if_pos failed.1]
            exact Or.inl (ok.looked failed.2)
        | inr got =>
            obtain ⟨nonneg, inside, names, allocated, file, step⟩ := got
            obtain ⟨dirs, space⟩ := ok.space
            have quiet := step.quiet
            have space₁ := space.quiet quiet
            have allocated₁ := (quiet.inodeAllocated_iff n).mpr allocated
            rw [if_neg (Int.not_lt.mpr nonneg)]
            apply Sat.bind (file_write fs n pos buf.bytes space₁.intact allocated₁)
            intro r written
            obtain ⟨ret', fs₂⟩ := r
            cases written with
            | inr stranded =>
                obtain ⟨negative, strands, ghost⟩ := stranded
                apply Sat.bind (testfsSyncInode_unfailing fs₂ n)
                intro fs₃ same₃
                apply Sat.bind (testfsPutInode_unfailing fs₃ n)
                intro fs₄ same₄
                refine Or.inr ⟨negative, Or.inr ⟨n, pos, names, file, parsed, ?_⟩,
                  same₄.trans (same₃.trans ghost)⟩
                unfold StrandsAt at strands ⊢
                rw [quiet.free_eq, quiet.view n inside] at strands
                exact strands
            | inl rewritten =>
                change Rewritten n fs fs₂ at rewritten
                have intact₂ := rewritten.intact
                apply Sat.bind (testfsSyncInode_sat fs₂ intact₂.consistent intact₂.table n)
                intro fs₃ spec
                have sync := spec.2
                apply Sat.bind (testfsPutInode_sat fs₃ sync.quiet.consistent sync.quiet.table n)
                intro fs₄ spec
                exact Or.inl (ok.written file step rewritten sync spec.2.2.2)
  · exact Or.inl ok.stays

theorem Ok.cmdWrite (ok : s.Ok) (args : List Arg) :
    Sat (s.cmdWrite args) (fun r => Handled (.write args) s r.2) (fun _ => True) :=
  (ok.cmdWrite_returns args).weaken fun _ spec => spec.imp id And.right

theorem Ok.cmdRm (ok : s.Ok) (args : List Arg) :
    Sat (s.cmdRm args) (fun r => Handled (.rm args) s r.2) (fun _ => True) := by
  unfold Session.cmdRm
  split
  · rename_i name
    obtain ⟨dirs, space⟩ := ok.space
    apply Sat.bind (testfsRemoveDirent_sat s.fs s.curDir name.bytes dirs space.intact
      (space.listed _ ok.dir) fun m allocated kind => space.listed m ⟨allocated, kind⟩)
    intro r spec
    obtain ⟨inodeNr, fs₁⟩ := r
    change Sat (if inodeNr < 0 then _ else _) _ _
    cases spec with
    | inl refused =>
        rw [if_pos refused.1]
        exact ok.kept refused.2
    | inr done =>
        obtain ⟨nonneg, unlinked⟩ := done
        change Unlinked s.curDir name.bytes dirs s.fs inodeNr fs₁ at unlinked
        rw [if_neg (Int.not_lt.mpr nonneg)]
        have step := unlinked.rewritten
        have intact₁ := step.intact
        apply Sat.bind (testfsGetInode_sat fs₁ intact₁.consistent intact₁.table inodeNr.toNat)
        intro fs₂ spec
        have got := spec.2.2
        have intact₂ := got.quiet.intact intact₁
        have allocated := space.unlinked_allocated ok.dir unlinked
        have allocated₂ : fs₂.sb.InodeAllocated inodeNr.toNat :=
          (got.quiet.inodeAllocated_iff _).mpr ((step.inodes _).mpr allocated)
        apply Sat.bind (testfsRemoveInode_sat fs₂ inodeNr.toNat intact₂ allocated₂)
        intro fs₃ gone
        have intact₃ := gone.intact
        apply Sat.bind (testfsSyncInode_sat fs₃ intact₃.consistent intact₃.table s.curDir)
        intro fs₄ spec
        have sync := spec.2
        obtain ⟨_, _, _, _, space', apart, isDir⟩ := space.remove ok.dir unlinked got.quiet gone
        have curDir := (isDir s.curDir).mpr ⟨ok.dir, apart⟩
        have dirty : ∀ m, fs₄.dirty m = true → s.fs.dirty m = true := by
          intro m flag
          rw [sync.dirty] at flag
          by_cases here : m = s.curDir
          · rw [here, Function.update_self] at flag
            cases flag
          · rw [Function.update_of_ne here, gone.dirty] at flag
            by_cases there : m = inodeNr.toNat
            · rw [there, Function.update_self] at flag
              cases flag
            · rw [Function.update_of_ne there, got.dirty, step.dirty m here] at flag
              exact flag
        refine Or.inl ⟨⟨⟨_, space'.quiet sync.quiet⟩, (isDir_quiet sync.quiet _).mpr curDir,
          fun m flag => ok.clean m (dirty m flag)⟩, Or.inr ?_, fun m flag => Or.inl (dirty m flag)⟩
        intro m
        have refs : fs₄.refs = s.fs.refs := by
          rw [sync.refs, gone.refs, got.refs, step.refs, Function.update_self,
            Function.update_idem, Nat.add_sub_cancel, Function.update_eq_self]
        change fs₄.refs m + _ = _
        rw [refs]
  · exact ok.unchanged

theorem Ok.entered (ok : s.Ok) {fs : State} {name : List Byte} {type : InodeType} {n : Nat}
    {es' : List Dirent} (noNul : ∀ b ∈ name, b ≠ 0) (space : Namespace s.fs dirs)
    (kind : type = .file ∨ type = .dir)
    (new : NewEntry s.curDir n name type (dirs s.curDir) es' s.fs fs) :
    Stepped c s { s with fs := fs } := by
  refine ⟨⟨⟨_, space.newEntry ok.dir new noNul kind⟩, ?_, ?_⟩, Or.inr ?_, ?_⟩
  · exact ⟨new.dir.allocated, new.dir.listing.kind⟩
  · exact fun m flag => ok.clean m (new.dirty m flag).1
  · intro m
    change fs.refs m + _ = _
    rw [new.refs]
  · exact fun m flag => Or.inl (new.dirty m flag).1

theorem Ok.createOrMkdir (ok : s.Ok) (name : Arg) (type : InodeType)
    (kind : type = .file ∨ type = .dir) (c : Command)
    (creates : ∀ P, s.Creates P c ↔ ∃ es, Listing s.fs.sb (s.fs.view s.curDir) es ∧
      P s.fs s.curDir name.bytes type es) :
    Sat (s.cmdCreateOrMkdir [name] type) (fun r => Handled c s r.2) (fun _ => True) := by
  obtain ⟨dirs, space⟩ := ok.space
  have dir := space.listed _ ok.dir
  unfold Session.cmdCreateOrMkdir
  apply Sat.bind (testfsCreateFileOrDir_sat s.fs s.curDir type name.bytes _ space.intact dir
    name.noNul ok.clean_free)
  intro r outcome
  obtain ⟨ret, fs⟩ := r
  cases outcome with
  | failed _ failed =>
      have step := failed.rewritten
      have soils : ∀ m, fs.dirty m = true → s.fs.dirty m = true ∨ s.Creates CreateMiscounts c ∨
          fs.sb.allocFailed = true ∧ s.Creates CreateStarves c := by
        intro m flag
        by_cases here : m = s.curDir
        · rw [here] at flag ⊢
          rcases failed.soils flag with before | starves | miscounts
          · exact Or.inl before
          · exact Or.inr (Or.inr ⟨starves.1, (creates _).mpr ⟨_, dir.listing, starves.2⟩⟩)
          · exact Or.inr (Or.inl ((creates _).mpr ⟨_, dir.listing, miscounts⟩))
        · have same : fs.dirty m = s.fs.dirty m := step.dirty m here
          exact Or.inl (same ▸ flag)
      refine Or.inl ⟨⟨⟨dirs, space.rewritten step fun _ => failed.dir⟩, ?_, ?_⟩, Or.inr ?_, soils⟩
      · exact ⟨failed.dir.allocated, failed.dir.listing.kind⟩
      · intro m flag
        by_cases here : m = s.curDir
        · exact here
        · have same : fs.dirty m = s.fs.dirty m := step.dirty m here
          exact ok.clean m (same ▸ flag)
      · intro m
        change fs.refs m + _ = _
        rw [step.refs]
  | created _ n es' new => exact Or.inl (ok.entered name.noNul space kind new)
  | stranded _ strands ghost =>
      exact Or.inr ⟨Or.inl ((creates _).mpr ⟨_, dir.listing, strands⟩), ghost⟩

theorem Ok.cmdCreate (ok : s.Ok) (args : List Arg) :
    Sat (s.cmdCreate args) (fun r => Handled (.create args) s r.2) (fun _ => True) := by
  match args with
  | [name] => exact ok.createOrMkdir name .file (Or.inl rfl) _ fun _ => Iff.rfl
  | [] => exact ok.unchanged
  | _ :: _ :: _ => exact ok.unchanged

theorem Ok.cmdMkdir (ok : s.Ok) (args : List Arg) :
    Sat (s.cmdMkdir args) (fun r => Handled (.mkdir args) s r.2) (fun _ => True) := by
  match args with
  | [name] => exact ok.createOrMkdir name .dir (Or.inr rfl) _ fun _ => Iff.rfl
  | [] => exact ok.unchanged
  | _ :: _ :: _ => exact ok.unchanged

/-- Every command keeps the invariant, unless it strands an indirect block. -/
theorem Ok.handleCommand (ok : s.Ok) (c : Command) :
    Sat (s.handleCommand c) (fun r => Handled c s r.2) (fun _ => True) := by
  cases c with
  | cd args => exact ok.cmdCd args
  | pwd args => exact ok.cmdPwd args
  | ls args => exact ok.cmdLsInternal args false
  | lsr args => exact ok.cmdLsInternal args true
  | create args => exact ok.cmdCreate args
  | stat args => exact ok.cmdStat args
  | rm args => exact ok.cmdRm args
  | mkdir args => exact ok.cmdMkdir args
  | read args => exact ok.cmdRead args
  | write args => exact ok.cmdWrite args
  | fsstat args => exact ok.cmdFsstat args

end Step

end Session

end Ece344Lab.Fs
