import Ece344Lab.Fs.DirectoryMap
import Ece344Lab.Fs.Runs

set_option autoImplicit false

/- What every command does to the names in every directory, as long as no block allocation fails. -/
namespace Ece344Lab.Fs

open Outcome Ownership

def newInode (s s' : State) : Option Nat :=
  (List.range 16384).find? fun n => decide (¬ s.sb.InodeAllocated n ∧ s'.sb.InodeAllocated n)

/-- What the successful creations and removals do to the names. -/
def NameMap.after (g : NameMap) (s : Session) (c : Command) (ret : Int) (s' : Session) : NameMap :=
  if ret < 0 then g
  else match c with
    | .create [name] => g.enter s.curDir name.bytes (newInode s.fs s'.fs)
    | .mkdir [name] =>
        match newInode s.fs s'.fs with
        | some n =>
          NameMap.enter (Function.update g n (newNames n s.curDir)) s.curDir name.bytes (some n)
        | none => g
    | .rm [name] => g.enter s.curDir name.bytes none
    | _ => g

/-- A step after which the directories have the entries that they had. -/
structure DirsKept (dirs : Nat → List Dirent) (s s' : State) : Prop where
  space : Namespace s' dirs
  isDir : ∀ n, s'.IsDir n ↔ s.IsDir n
  backed : Backed s → Backed s'

namespace DirsKept

variable {dirs : Nat → List Dirent} {s s' s'' : State}

theorem trans (first : DirsKept dirs s s') (second : DirsKept dirs s' s'') :
    DirsKept dirs s s'' where
  space := second.space
  isDir n := (second.isDir n).trans (first.isDir n)
  backed before := second.backed (first.backed before)

theorem of_quiet (space : Namespace s dirs) (step : Quiet s s') : DirsKept dirs s s' where
  space := space.quiet step
  isDir n := Session.isDir_quiet step n
  backed := step.backed

theorem of_rewritten {n : Nat} (space : Namespace s dirs) (step : Rewritten n s s')
    (unfailed : s'.sb.allocFailed = false) (self : s.IsDir n → DirOk s' n (dirs n)) :
    DirsKept dirs s s' where
  space := space.rewritten step self
  isDir m := by
    have kinds : s.sb.InodeAllocated m → (s'.view m).iType = (s.view m).iType := by
      intro held
      by_cases here : m = n
      · rw [here]
        exact step.kind
      · rw [(step.others m held here).view]
    unfold State.IsDir
    rw [step.inodes m]
    constructor
    · exact fun dir => ⟨dir.1, (kinds dir.1).symm.trans dir.2⟩
    · exact fun dir => ⟨dir.1, (kinds dir.1).trans dir.2⟩
  backed := step.backed unfailed

end DirsKept

section Looking

variable {s : Session}

theorem testfsGetFileInode_quiet (consistent : Consistent s.fs.sb) (table : TableOk s.fs)
    (name : List Byte) :
    Sat (s.testfsGetFileInode name) (fun r => Quiet s.fs r.2.2) (fun _ => True) := by
  have refl := Quiet.refl consistent table
  unfold Session.testfsGetFileInode
  apply Sat.bind (sat_true _)
  intro found _
  apply Sat.ite
  · exact fun _ => refl
  · intro _
    apply Sat.bind (testfsGetInode_sat s.fs consistent table _)
    intro fs got
    have step := got.2.2.quiet
    apply Sat.bind (sat_true _)
    intro inode _
    apply Sat.ite
    · intro _
      apply Sat.bind (testfsPutInode_sat fs step.consistent step.table _)
      exact fun _ put => step.trans put.2.2.2.quiet
    · exact fun _ => step

theorem cmdCd_quiet (consistent : Consistent s.fs.sb) (table : TableOk s.fs) (args : List Arg) :
    Sat (s.cmdCd args) (fun r => Quiet s.fs r.2.fs) (fun _ => True) := by
  have refl := Quiet.refl consistent table
  unfold Session.cmdCd
  split
  · apply Sat.bind (sat_true _)
    intro found _
    apply Sat.ite
    · exact fun _ => refl
    · intro _
      apply Sat.bind (testfsGetInode_sat s.fs consistent table _)
      intro fs got
      have step := got.2.2.quiet
      have put := testfsPutInode_sat fs step.consistent step.table
      apply Sat.bind (sat_true _)
      intro dir _
      apply Sat.ite
      · intro _
        apply Sat.bind (put _)
        exact fun _ put => step.trans put.2.2.2.quiet
      · intro _
        apply Sat.bind (put _)
        exact fun _ put => step.trans put.2.2.2.quiet
  · exact refl

theorem cmdPwd_quiet (consistent : Consistent s.fs.sb) (table : TableOk s.fs) (args : List Arg) :
    Sat (s.cmdPwd args) (fun r => Quiet s.fs r.2.fs) (fun _ => True) := by
  unfold Session.cmdPwd
  split
  · apply Sat.bind (testfsPwd_sat maxDepth s.fs s.curDir consistent table)
    exact fun r step => (step.print _).quiet
  · exact Quiet.refl consistent table

theorem cmdLsInternal_quiet (consistent : Consistent s.fs.sb) (table : TableOk s.fs)
    (args : List Arg) (recursive : Bool) :
    Sat (s.cmdLsInternal args recursive) (fun r => Quiet s.fs r.2.fs) (fun _ => True) := by
  have refl := Quiet.refl consistent table
  unfold Session.cmdLsInternal
  split
  · apply Sat.bind (sat_true _)
    intro found _
    apply Sat.ite
    · exact fun _ => refl
    · intro _
      apply Sat.bind (testfsGetInode_sat s.fs consistent table _)
      intro fs got
      have step := got.2.2.quiet
      apply Sat.bind (sat_true _)
      intro inode _
      apply Sat.ite
      · intro _
        apply Sat.bind (testfsLs_sat recursive maxDepth fs _ step.consistent step.table)
        intro fs₁ listed
        have quiet := listed.quiet
        apply Sat.bind (testfsPutInode_sat fs₁ quiet.consistent quiet.table _)
        exact fun _ put => step.trans (quiet.trans put.2.2.2.quiet)
      · exact fun _ => step
  · exact refl

theorem cmdStat_quiet (consistent : Consistent s.fs.sb) (table : TableOk s.fs) (args : List Arg) :
    Sat (s.cmdStat args) (fun r => Quiet s.fs r.2.fs) (fun _ => True) := by
  have refl := Quiet.refl consistent table
  unfold Session.cmdStat
  split
  · rename_i name
    apply Sat.bind (sat_true _)
    intro found _
    apply Sat.ite
    · exact fun _ => refl
    · intro _
      apply Sat.bind (testfsGetInode_sat s.fs consistent table _)
      intro fs got
      have step := got.2.2.quiet
      apply Sat.bind (sat_true _)
      intro inode _
      have printed := (Kept.refl step.consistent step.table).print
        (.stat name.bytes inode.iNr inode.dinode.iType inode.dinode.iSize inode.dinode.blockCount)
      apply Sat.bind (testfsPutInode_sat _ printed.quiet.consistent printed.quiet.table _)
      exact fun _ put => step.trans (printed.quiet.trans put.2.2.2.quiet)
  · exact refl

theorem cmdRead_quiet (consistent : Consistent s.fs.sb) (table : TableOk s.fs) (args : List Arg) :
    Sat (s.cmdRead args) (fun r => Quiet s.fs r.2.fs) (fun _ => True) := by
  have refl := Quiet.refl consistent table
  unfold Session.cmdRead
  split
  · split
    · exact refl
    · apply Sat.ite
      · exact fun _ => refl
      · intro _
        split
        · exact refl
        · apply Sat.bind (testfsGetFileInode_quiet consistent table _)
          intro r step
          obtain ⟨ret, n, fs⟩ := r
          change Quiet s.fs fs at step
          apply Sat.ite
          · exact fun _ => step
          · intro _
            apply Sat.bind (Session.readFile_sat fs n _ _ step.consistent step.table)
            intro r inner
            obtain ⟨ret', fs'⟩ := r
            have quiet : Quiet fs fs' := inner.quiet
            apply Sat.bind (testfsPutInode_sat fs' quiet.consistent quiet.table n)
            exact fun _ put => step.trans (quiet.trans put.2.2.2.quiet)
  · exact refl

theorem cmdFsstat_quiet (consistent : Consistent s.fs.sb) (table : TableOk s.fs) (args : List Arg) :
    Sat (s.cmdFsstat args) (fun r => Quiet s.fs r.2.fs) (fun _ => True) := by
  have refl := Kept.refl consistent table
  unfold Session.cmdFsstat
  split
  · exact (refl.print _).quiet
  · exact refl.quiet

end Looking

/-- What a command does to the entries of the directories. -/
inductive EntriesStep (c : Command) (s : Session) (ret : Int) (s' : Session)
    (dirs : Nat → List Dirent) : Prop
  | kept (kept : DirsKept dirs s.fs s'.fs) (idle : ∀ g : NameMap, g.after s c ret s' = g)
  | created (name : Arg) (type : InodeType) (n : Nat) (es' : List Dirent) (zero : ret = 0)
      (command : c = .create [name] ∧ type = .file ∨ c = .mkdir [name] ∧ type = .dir)
      (new : NewEntry s.curDir n name.bytes type (dirs s.curDir) es' s.fs s'.fs)
  | removed (name : Arg) (n : Nat) (d : Dirent) (es' : List Dirent) (zero : ret = 0)
      (command : c = .rm [name]) (place : FreedAt d (dirs s.curDir) es')
      (named : d.named name.bytes = true) (space : Namespace s'.fs (removed dirs s.curDir n es'))
      (apart : s.curDir ≠ n) (isDir : ∀ m, s'.fs.IsDir m ↔ s.fs.IsDir m ∧ m ≠ n)
      (backed : Backed s.fs → Backed s'.fs)

section Commands

variable {s : Session} {dirs : Nat → List Dirent} {c : Command}

theorem NameMap.after_of_neg (g : NameMap) (s : Session) (c : Command) {ret : Int} (s' : Session)
    (negative : ret < 0) : g.after s c ret s' = g :=
  if_pos negative

/-- Whether a command has the arguments of a creation or a removal. -/
def Command.names : Command → Bool
  | .create [_] => true
  | .mkdir [_] => true
  | .rm [_] => true
  | _ => false

theorem NameMap.after_other (g : NameMap) (s : Session) {c : Command} (ret : Int) (s' : Session)
    (other : c.names = false) : g.after s c ret s' = g := by
  unfold NameMap.after
  split
  · rfl
  · split
    · cases other
    · cases other
    · cases other
    · rfl

theorem EntriesStep.unchanged (space : Namespace s.fs dirs) (ret : Int)
    (idle : ∀ g : NameMap, g.after s c ret s = g) : EntriesStep c s ret s dirs :=
  .kept (.of_quiet space (.refl space.intact.consistent space.intact.table)) idle

theorem cmdWrite_kept (ok : s.Ok) (space : Namespace s.fs dirs) (args : List Arg) :
    Sat (s.cmdWrite args)
      (fun r => r.2.fs.sb.allocFailed = false → DirsKept dirs s.fs r.2.fs) (fun _ => True) := by
  have refl := DirsKept.of_quiet space (.refl space.intact.consistent space.intact.table)
  unfold Session.cmdWrite
  split
  · rename_i filename offset buf
    split
    · exact fun _ => refl
    · apply Sat.ite
      · exact fun _ _ => refl
      · intro positive
        obtain ⟨pos, rfl⟩ := Int.eq_ofNat_of_zero_le (Int.not_lt.mp positive)
        apply Sat.bind (ok.testfsGetFileInode filename.bytes)
        intro r spec
        obtain ⟨ret, n, fs⟩ := r
        change Sat (if ret < 0 then _ else _) _ _
        cases spec with
        | inl failed =>
            rw [if_pos failed.1]
            exact fun _ => .of_quiet space failed.2.quiet
        | inr got =>
            obtain ⟨nonneg, inside, names, allocated, file, step⟩ := got
            have first := DirsKept.of_quiet space step.quiet
            have allocated₁ := (step.quiet.inodeAllocated_iff n).mpr allocated
            rw [if_neg (Int.not_lt.mpr nonneg)]
            apply Sat.bind (Session.file_write fs n pos buf.bytes first.space.intact allocated₁)
            intro r written
            obtain ⟨ret', fs₂⟩ := r
            cases written with
            | inr stranded =>
                apply Sat.bind (testfsSyncInode_unfailing fs₂ n)
                intro fs₃ same₃
                apply Sat.bind (testfsPutInode_unfailing fs₃ n)
                intro fs₄ same₄ unfailed
                rw [same₄.trans (same₃.trans stranded.2.2)] at unfailed
                cases unfailed
            | inl rewritten =>
                change Rewritten n fs fs₂ at rewritten
                have intact₂ := rewritten.intact
                apply Sat.bind (testfsSyncInode_sat fs₂ intact₂.consistent intact₂.table n)
                intro fs₃ spec
                have sync := spec.2.quiet
                apply Sat.bind (testfsPutInode_sat fs₃ sync.consistent sync.table n)
                intro fs₄ spec unfailed
                have quiet := sync.trans spec.2.2.2.quiet
                have unfailed₂ : fs₂.sb.allocFailed = false := quiet.ghost.symm.trans unfailed
                have second := DirsKept.of_rewritten first.space rewritten unfailed₂
                  fun dir => absurd ((first.isDir n).mp dir) file
                exact first.trans (second.trans (.of_quiet second.space quiet))
  · exact fun _ => refl

theorem cmdCreateOrMkdir_entries (ok : s.Ok) (space : Namespace s.fs dirs) (name : Arg)
    (type : InodeType)
    (command : c = .create [name] ∧ type = .file ∨ c = .mkdir [name] ∧ type = .dir) :
    Sat (s.cmdCreateOrMkdir [name] type)
      (fun r => r.2.fs.sb.allocFailed = false → EntriesStep c s r.1 r.2 dirs) (fun _ => True) := by
  unfold Session.cmdCreateOrMkdir
  apply Sat.bind (testfsCreateFileOrDir_sat s.fs s.curDir type name.bytes _ space.intact
    (space.listed _ ok.dir) name.noNul ok.clean_free)
  intro r outcome unfailed
  obtain ⟨ret, fs⟩ := r
  cases outcome with
  | failed negative failed =>
      exact .kept (.of_rewritten space failed.rewritten unfailed fun _ => failed.dir)
        fun g => g.after_of_neg _ _ _ negative
  | created zero n es' new => exact .created name type n es' zero command new
  | stranded _ _ ghost =>
      change fs.sb.allocFailed = true at ghost
      change fs.sb.allocFailed = false at unfailed
      rw [ghost] at unfailed
      cases unfailed

theorem cmdRm_entries (ok : s.Ok) (space : Namespace s.fs dirs) (name : Arg) :
    Sat (s.cmdRm [name])
      (fun r => r.2.fs.sb.allocFailed = false → EntriesStep (.rm [name]) s r.1 r.2 dirs)
      (fun _ => True) := by
  unfold Session.cmdRm
  apply Sat.bind (testfsRemoveDirent_sat s.fs s.curDir name.bytes dirs space.intact
    (space.listed _ ok.dir) fun m allocated kind => space.listed m ⟨allocated, kind⟩)
  intro r spec
  obtain ⟨inodeNr, fs₁⟩ := r
  change Sat (if inodeNr < 0 then _ else _) _ _
  cases spec with
  | inl refused =>
      rw [if_pos refused.1]
      exact fun _ => .kept (.of_quiet space refused.2.quiet)
        fun g => g.after_of_neg _ _ _ refused.1
  | inr done =>
      obtain ⟨nonneg, unlinked⟩ := done
      change Unlinked s.curDir name.bytes dirs s.fs inodeNr fs₁ at unlinked
      rw [if_neg (Int.not_lt.mpr nonneg)]
      have step := unlinked.rewritten
      have intact₁ := step.intact
      apply Sat.bind (testfsGetInode_sat fs₁ intact₁.consistent intact₁.table inodeNr.toNat)
      intro fs₂ spec
      have got := spec.2.2.quiet
      have intact₂ := got.intact intact₁
      have allocated := space.unlinked_allocated ok.dir unlinked
      have allocated₂ : fs₂.sb.InodeAllocated inodeNr.toNat :=
        (got.inodeAllocated_iff _).mpr ((step.inodes _).mpr allocated)
      apply Sat.bind (testfsRemoveInode_sat fs₂ inodeNr.toNat intact₂ allocated₂)
      intro fs₃ gone
      have intact₃ := gone.intact
      apply Sat.bind (testfsSyncInode_sat fs₃ intact₃.consistent intact₃.table s.curDir)
      intro fs₄ spec unfailed
      have sync := spec.2.quiet
      obtain ⟨d, es', place, named, space', apart, isDir⟩ :=
        space.remove ok.dir unlinked got gone
      refine .removed name inodeNr.toNat d es' rfl rfl place named (space'.quiet sync) apart ?_ ?_
      · exact fun m => (Session.isDir_quiet sync m).trans (isDir m)
      · intro backed
        have same : fs₁.sb.allocFailed = false := by
          rw [← unfailed, ← got.ghost, ← gone.ghost]
          exact sync.ghost.symm
        apply sync.backed
        apply gone.backed intact₂.owns
        exact got.backed (step.backed same backed)

theorem handleCommand_entries (ok : s.Ok) (space : Namespace s.fs dirs) (c : Command) :
    Sat (s.handleCommand c)
      (fun r => r.2.fs.sb.allocFailed = false → EntriesStep c s r.1 r.2 dirs) (fun _ => True) := by
  have consistent := space.intact.consistent
  have table := space.intact.table
  have looked : ∀ {x : Except Halt (Int × Session)}, c.names = false →
      Sat x (fun r => Quiet s.fs r.2.fs) (fun _ => True) →
      Sat x (fun r => r.2.fs.sb.allocFailed = false → EntriesStep c s r.1 r.2 dirs)
        (fun _ => True) :=
    fun other quiet => quiet.weaken fun r step _ =>
      .kept (.of_quiet space step) fun g => g.after_other _ _ _ other
  have usage : ∀ ret, c.names = false → EntriesStep c s ret s dirs :=
    fun ret other => .unchanged space ret fun g => g.after_other _ _ _ other
  cases c with
  | cd args => exact looked rfl (cmdCd_quiet consistent table args)
  | pwd args => exact looked rfl (cmdPwd_quiet consistent table args)
  | ls args => exact looked rfl (cmdLsInternal_quiet consistent table args false)
  | lsr args => exact looked rfl (cmdLsInternal_quiet consistent table args true)
  | stat args => exact looked rfl (cmdStat_quiet consistent table args)
  | read args => exact looked rfl (cmdRead_quiet consistent table args)
  | fsstat args => exact looked rfl (cmdFsstat_quiet consistent table args)
  | write args =>
      apply (cmdWrite_kept ok space args).weaken
      exact fun r kept unfailed => .kept (kept unfailed) fun g => g.after_other _ _ _ rfl
  | create args =>
      match args with
      | [name] => exact cmdCreateOrMkdir_entries ok space name .file (Or.inl ⟨rfl, rfl⟩)
      | [] => exact fun _ => usage _ rfl
      | _ :: _ :: _ => exact fun _ => usage _ rfl
  | mkdir args =>
      match args with
      | [name] => exact cmdCreateOrMkdir_entries ok space name .dir (Or.inr ⟨rfl, rfl⟩)
      | [] => exact fun _ => usage _ rfl
      | _ :: _ :: _ => exact fun _ => usage _ rfl
  | rm args =>
      match args with
      | [name] => exact cmdRm_entries ok space name
      | [] => exact fun _ => usage _ rfl
      | _ :: _ :: _ => exact fun _ => usage _ rfl

end Commands

/-- The entries of the directories give the names of a map. -/
structure Mapped (s : Session) (g : NameMap) (dirs : Nat → List Dirent) : Prop where
  ok : s.Ok
  space : Namespace s.fs dirs
  backed : Backed s.fs
  names : ∀ n, s.fs.IsDir n → lookupEntry (dirs n) = g n
  distinct : ∀ n, s.fs.IsDir n → DistinctNames (dirs n)

namespace NameMap

variable {g : NameMap} {p n : Nat} {name : List Byte} {target : Option Nat}

theorem enter_self : g.enter p name target p = Function.update (g p) name target :=
  Function.update_self _ _ _

theorem enter_other (other : n ≠ p) : g.enter p name target n = g n :=
  Function.update_of_ne other _ _

end NameMap

section Steps

variable {s s' : Session} {g : NameMap} {dirs : Nat → List Dirent} {c : Command} {ret : Int}

theorem newInode_eq {s s' : State} {n : Nat} (inside : n < 16384) (fresh : ¬ s.sb.InodeAllocated n)
    (inodes : ∀ m, s'.sb.InodeAllocated m ↔ s.sb.InodeAllocated m ∨ m = n) :
    newInode s s' = some n := by
  have member := List.mem_range.mpr inside
  unfold newInode
  generalize List.range 16384 = numbers at member ⊢
  cases found : numbers.find? fun m =>
      decide (¬ s.sb.InodeAllocated m ∧ s'.sb.InodeAllocated m) with
  | none =>
      have absent := List.find?_eq_none.mp found n member
      exact absurd (decide_eq_true ⟨fresh, (inodes n).mpr (Or.inr rfl)⟩) absent
  | some m =>
      have passed := List.find?_some found
      have new := of_decide_eq_true passed
      rw [((inodes m).mp new.2).resolve_left new.1]

theorem NewEntry.names {p n : Nat} {name : List Byte} {type : InodeType} {es es' : List Dirent}
    {s s' : State} (new : NewEntry p n name type es es' s s') (noNul : ∀ b ∈ name, b ≠ 0)
    (distinct : DistinctNames es) :
    lookupEntry es' = Function.update (lookupEntry es) name (some n) ∧ DistinctNames es' := by
  have live : (newDirent name n).live = true := newDirent_live new.inside
  have own : cString (newDirent name n).name = name := cString_terminated noNul
  have absent : lookupEntry es (cString (newDirent name n).name) = none := by
    rw [own]
    unfold lookupEntry
    rw [new.new]
    rfl
  refine ⟨?_, new.place.distinct live absent distinct⟩
  funext other
  rw [new.place.lookup live absent, target_newDirent new.inside]
  by_cases same : name = other
  · rw [if_pos ((newDirent_named noNul other).mpr same), same, Function.update_self]
  · rw [if_neg fun named => same ((newDirent_named noNul other).mp named),
      Function.update_of_ne (Ne.symm same)]

theorem FreedAt.names {d : Dirent} {es es' : List Dirent} {name : List Byte}
    (place : FreedAt d es es') (named : d.named name = true) (distinct : DistinctNames es) :
    lookupEntry es' = Function.update (lookupEntry es) name none ∧ DistinctNames es' := by
  refine ⟨?_, place.distinct distinct⟩
  have own := named_iff.mp named
  funext other
  rw [place.lookup distinct]
  by_cases same : name = other
  · rw [if_pos (named_iff.mpr (own.trans same)), same, Function.update_self]
  · rw [if_neg fun named => same (own.symm.trans (named_iff.mp named)),
      Function.update_of_ne (Ne.symm same)]

theorem Mapped.created (mapped : Mapped s g dirs) (ok : s'.Ok) {name : Arg} {type : InodeType}
    {n : Nat} {es' : List Dirent}
    (command : c = .create [name] ∧ type = .file ∨ c = .mkdir [name] ∧ type = .dir)
    (new : NewEntry s.curDir n name.bytes type (dirs s.curDir) es' s.fs s'.fs)
    (unfailed : s'.fs.sb.allocFailed = false) :
    Mapped s' (g.after s c 0 s') (entered dirs s.curDir n type es') ∧
      ∀ m, s.fs.IsDir m → OneChanged (dirs m) (entered dirs s.curDir n type es' m) := by
  have here := mapped.ok.dir
  have apart : s.curDir ≠ n := fun same => new.fresh (same ▸ here.1)
  have kind : type = .file ∨ type = .dir := command.imp And.right And.right
  obtain ⟨names, distinct⟩ := new.names name.noNul (mapped.distinct _ here)
  have found := newInode_eq new.inside new.fresh new.inodes
  have after : (g.after s c 0 s') s.curDir = Function.update (g s.curDir) name.bytes (some n) ∧
      (type = .dir → (g.after s c 0 s') n = newNames n s.curDir) ∧
      ∀ m, m ≠ s.curDir → m ≠ n → (g.after s c 0 s') m = g m := by
    unfold NameMap.after
    rw [if_neg (Int.lt_irrefl 0), found]
    cases command with
    | inl file =>
        rw [file.1]
        refine ⟨NameMap.enter_self, ?_, fun m other _ => NameMap.enter_other other⟩
        intro dir
        rw [file.2] at dir
        cases dir
    | inr dir =>
        rw [dir.1]
        dsimp only
        refine ⟨?_, fun _ => ?_, fun m other other' => ?_⟩
        · rw [NameMap.enter_self, Function.update_of_ne apart]
        · rw [NameMap.enter_other apart.symm, Function.update_self]
        · rw [NameMap.enter_other other, Function.update_of_ne other']
  have entries : ∀ m, s'.fs.IsDir m → lookupEntry (entered dirs s.curDir n type es' m) =
      (g.after s c 0 s') m ∧ DistinctNames (entered dirs s.curDir n type es' m) := by
    intro m dir
    by_cases own : m = n
    · subst own
      have isDir := (new.isDir_self kind).mp dir
      rw [entered_self, after.2.1 isDir, contents, if_pos isDir]
      exact ⟨lookupEntry_emptyDir new.inside here.1.1, distinct_emptyDir new.inside here.1.1⟩
    · by_cases parent : m = s.curDir
      · rw [parent, entered_parent apart, after.1, names, mapped.names _ here]
        exact ⟨rfl, distinct⟩
      · have dir' := (new.isDir_iff own).mp dir
        rw [entered_other own parent, after.2.2 m parent own]
        exact ⟨mapped.names m dir', mapped.distinct m dir'⟩
  refine ⟨⟨ok, mapped.space.newEntry here new name.noNul kind, new.backed unfailed mapped.backed,
    fun m dir => (entries m dir).1, fun m dir => (entries m dir).2⟩, ?_⟩
  intro m dir
  have own : m ≠ n := fun same => new.fresh (same ▸ dir.1)
  by_cases parent : m = s.curDir
  · rw [parent, entered_parent apart]
    exact new.place.oneChanged
  · rw [entered_other own parent]
    exact Or.inl rfl

theorem Mapped.removed (mapped : Mapped s g dirs) (ok : s'.Ok) {name : Arg} {n : Nat} {d : Dirent}
    {es' : List Dirent} (place : FreedAt d (dirs s.curDir) es') (named : d.named name.bytes = true)
    (space : Namespace s'.fs (removed dirs s.curDir n es')) (apart : s.curDir ≠ n)
    (isDir : ∀ m, s'.fs.IsDir m ↔ s.fs.IsDir m ∧ m ≠ n) (backed : Backed s'.fs) :
    Mapped s' (g.after s (.rm [name]) 0 s') (Fs.removed dirs s.curDir n es') ∧
      ∀ m, s.fs.IsDir m → m ≠ n → OneChanged (dirs m) (Fs.removed dirs s.curDir n es' m) := by
  have here := mapped.ok.dir
  obtain ⟨names, distinct⟩ := place.names named (mapped.distinct _ here)
  have after : g.after s (.rm [name]) 0 s' = g.enter s.curDir name.bytes none := by
    unfold NameMap.after
    rw [if_neg (Int.lt_irrefl 0)]
  rw [after]
  have entries : ∀ m, s'.fs.IsDir m → lookupEntry (Fs.removed dirs s.curDir n es' m) =
      g.enter s.curDir name.bytes none m ∧ DistinctNames (Fs.removed dirs s.curDir n es' m) := by
    intro m dir
    obtain ⟨before, other⟩ := (isDir m).mp dir
    by_cases parent : m = s.curDir
    · rw [parent, removed_parent apart, NameMap.enter_self, names, mapped.names _ here]
      exact ⟨rfl, distinct⟩
    · rw [removed_other other parent, NameMap.enter_other parent]
      exact ⟨mapped.names m before, mapped.distinct m before⟩
  refine ⟨⟨ok, space, backed, fun m dir => (entries m dir).1, fun m dir => (entries m dir).2⟩, ?_⟩
  intro m dir other
  by_cases parent : m = s.curDir
  · rw [parent, removed_parent apart]
    exact place.oneChanged
  · rw [removed_other other parent]
    exact Or.inl rfl

/-- One command: the map goes on, and in each directory at most one record changes. -/
theorem Mapped.step (mapped : Mapped s g dirs) (ran : s.handleCommand c = .ok (ret, s'))
    (unfailed : s'.fs.sb.allocFailed = false) :
    ∃ dirs', Mapped s' (g.after s c ret s') dirs' ∧
      ∀ m, s.fs.IsDir m → s'.fs.IsDir m → OneChanged (dirs m) (dirs' m) := by
  have ok' : s'.Ok := by
    cases (mapped.ok.handleCommand c).of_ok ran with
    | inl stepped => exact stepped.ok
    | inr stranded =>
        have ghost := stranded.2
        change s'.fs.sb.allocFailed = true at ghost
        rw [ghost] at unfailed
        cases unfailed
  have step : EntriesStep c s ret s' dirs :=
    (handleCommand_entries mapped.ok mapped.space c).of_ok ran unfailed
  cases step with
  | kept kept idle =>
      rw [idle g]
      refine ⟨dirs, ⟨ok', kept.space, kept.backed mapped.backed, ?_, ?_⟩, fun _ _ _ => Or.inl rfl⟩
      · exact fun n dir => mapped.names n ((kept.isDir n).mp dir)
      · exact fun n dir => mapped.distinct n ((kept.isDir n).mp dir)
  | created name type n es' zero command new =>
      subst zero
      obtain ⟨mapped', changed⟩ := mapped.created ok' command new unfailed
      exact ⟨_, mapped', fun m dir _ => changed m dir⟩
  | removed name n d es' zero command place named space apart isDir backed =>
      subst zero command
      obtain ⟨mapped', changed⟩ :=
        mapped.removed ok' place named space apart isDir (backed mapped.backed)
      exact ⟨_, mapped', fun m dir dir' => changed m dir ((isDir m).mp dir').2⟩

end Steps

/-- The sessions that commands lead to without a failed allocation, with the names that their
creations and removals have left. -/
inductive NamedRun (start : Session) : Session → NameMap → Prop
  | start : NamedRun start start (Function.update (fun _ _ => none) 0 (newNames 0 0))
  | command {s s' : Session} {g : NameMap} {c : Command} {ret : Int} (run : NamedRun start s g)
      (ran : s.handleCommand c = .ok (ret, s')) (unfailed : s'.fs.sb.allocFailed = false) :
      NamedRun start s' (g.after s c ret s')

/-- Directory `n` is a finite map: its bytes are a sequence of records, the live ones have distinct
names, and the names are looked up as the map has them. -/
structure IsMap (s : State) (n : Nat) (names : List Byte → Option Nat)
    (es : List Dirent) : Prop where
  records : Records s.sb (s.view n) es
  distinct : DistinctNames es
  lookup : ∀ name, testfsDirNameToInodeNr s.sb (s.view n) name = .ok (nameResult (names name))

theorem Mapped.isMap {s : Session} {g : NameMap} {dirs : Nat → List Dirent}
    (mapped : Mapped s g dirs) {n : Nat} (dir : s.fs.IsDir n) : IsMap s.fs n (g n) (dirs n) := by
  have listing := (mapped.space.listed n dir).listing
  have stored := mapped.backed.stored mapped.space.intact.owns dir.1
  refine ⟨listing.records stored, mapped.distinct n dir, ?_⟩
  intro name
  rw [listing.lookup stored, mapped.names n dir]

theorem Started.mapped {maxFsBlocks : Nat} {s : Session} (started : Started maxFsBlocks s) :
    Mapped s (Function.update (fun _ _ => none) 0 (newNames 0 0)) rootOnly := by
  have root : ∀ n, s.fs.IsDir n → n = 0 := fun n dir => (started.inodes n).mp dir.1
  have entries : rootOnly 0 = emptyDir 0 0 := Function.update_self _ _ _
  refine ⟨started.ok, started.space, started.backed, ?_, ?_⟩
  · intro n dir
    rw [root n dir, entries, Function.update_self]
    exact lookupEntry_emptyDir (by decide) (by decide)
  · intro n dir
    rw [root n dir, entries]
    exact distinct_emptyDir (by decide) (by decide)

theorem NamedRun.mapped {start s : Session} {g : NameMap} (run : NamedRun start s g)
    {fsSizeMb : Nat} (fresh : Fresh fsSizeMb start) : ∃ dirs, Mapped s g dirs := by
  induction run with
  | start => exact ⟨_, fresh.started.mapped⟩
  | command _ ran unfailed ih =>
      obtain ⟨dirs, mapped⟩ := ih
      obtain ⟨dirs', mapped', _⟩ := mapped.step ran unfailed
      exact ⟨dirs', mapped'⟩

end Ece344Lab.Fs
