import Ece344Lab.Fs.Command
import Ece344Lab.Fs.Mount
import Ece344Lab.Fs.Namespace

set_option autoImplicit false

/- A new file system: the root directory is the only inode. -/
namespace Ece344Lab.Fs

open Outcome Ownership Rooted

/-- The program with nothing in the inode table. -/
def State.initial (sb : SuperBlock) : State := { sb, inodes := [], stdout := [] }

theorem State.initial_table (sb : SuperBlock) : TableOk (State.initial sb) := by
  refine ⟨List.nodup_nil, ?_, ?_, ?_⟩
  all_goals
    intro n inode found
    cases found

theorem Blank.notAllocated {sb : SuperBlock} {maxFsBlocks : Nat} (blank : Blank sb maxFsBlocks)
    (n : Nat) : ¬ sb.InodeAllocated n := by
  intro held
  have marked := held.2
  rw [blank.noInodes] at marked
  cases marked

theorem Blank.intact {sb : SuperBlock} {maxFsBlocks : Nat} (blank : Blank sb maxFsBlocks) :
    Intact (State.initial sb) := by
  have none : (State.initial sb).pointers = fun _ => 0 := by
    funext p
    exact congrFun (State.slots_free (blank.notAllocated p.1)) p.2
  refine ⟨blank.consistent, State.initial_table sb, ?_, ?_, ?_, ?_, ?_, ?_⟩
  · rw [none]
    exact ⟨fun _ nonzero => absurd rfl nonzero, fun _ _ nonzero => absurd rfl nonzero⟩
  · exact fun k held => absurd held (blank.clear k)
  · exact fun n held => absurd held (blank.notAllocated n)
  · exact fun k data _ => blank.zeros k (by omega)
  · intro n _ _
    change diskInode sb.dev n = Dinode.zero
    unfold diskInode
    rw [blank.zeros _ (by omega), Buffer.slice_zero, Dinode.ofBytes_zero]
  · intro n marked
    have clear := blank.noInodes n
    change bitmapIsset sb.inodeFreemap n = true at marked
    rw [marked] at clear
    cases clear

/-- The entries of a file system that has a root directory only. -/
def rootOnly : Nat → List Dirent := Function.update (fun _ => []) 0 (emptyDir 0 0)

theorem kids_rootOnly (n : Nat) : kids rootOnly n = [] := by
  unfold kids rootOnly
  by_cases root : n = 0
  · rw [root, Function.update_self]
    rfl
  · rw [Function.update_of_ne root]
    rfl

/-- The state that `testfs_make_root_dir` leaves. -/
structure RootMade (s s' : State) : Prop where
  space : Namespace s' rootOnly
  inodes : ∀ n, s'.sb.InodeAllocated n ↔ n = 0
  refs : s'.refs = s.refs
  dirty : ∀ n, s'.dirty n = true → s.dirty n = true
  ghost : s'.sb.allocFailed = s.sb.allocFailed
  free : s'.sb.free + 1 = s.sb.free
  backed : s'.sb.allocFailed = false → Backed s'

theorem rootOnly_space {s : State} (intact : Intact s) (inodes : ∀ n, s.sb.InodeAllocated n ↔ n = 0)
    (kind : (s.view 0).iType = InodeType.dir.code) (dir : DirOk s 0 (emptyDir 0 0)) :
    Namespace s rootOnly := by
  have isDir : ∀ n, s.IsDir n ↔ n = 0 := by
    intro n
    unfold State.IsDir
    rw [inodes]
    constructor
    · exact fun held => held.1
    · exact fun root => ⟨root, root ▸ kind⟩
  have root : rootOnly 0 = emptyDir 0 0 := Function.update_self _ _ _
  refine ⟨intact, ?_, ?_, ?_, ?_, ?_, (isDir 0).mpr rfl⟩
  · intro n held
    rw [(inodes n).mp held]
    exact Or.inr kind
  · intro n held
    rw [(isDir n).mp held, root]
    exact dir
  · exact fun n other => Function.update_of_ne (fun root => other ((isDir n).mpr root)) _ _
  · intro n held
    rw [(isDir n).mp held]
    refine ⟨0, ?_, Or.inl ⟨rfl, rfl⟩⟩
    rw [root]
    refine ⟨rfl, ?_⟩
    intro d member
    cases member
  · refine ⟨(inodes 0).mpr rfl, ?_, ?_, ?_, ?_, ?_⟩
    · intro d n named
      rw [kids_rootOnly] at named
      cases named
    · intro d named
      rw [kids_rootOnly] at named
      cases named
    · intro d
      rw [kids_rootOnly]
      exact List.nodup_nil
    · intro d d' n named
      rw [kids_rootOnly] at named
      cases named
    · intro n held
      rw [(inodes n).mp held]
      exact .root

/-- `testfs_make_root_dir` on an empty file system. -/
theorem testfsMakeRootDir_sat (s : State) (intact : Intact s)
    (none : ∀ n, ¬ s.sb.InodeAllocated n) (room : 1 ≤ s.sb.free) :
    Sat (testfsMakeRootDir s) (fun r => RootMade s r.2) (fun _ => True) := by
  have absent : ¬ (0 : Int) ≤ -1 := by decide
  have lookup : createLookup s Option.none [] = .ok (-1) := rfl
  unfold testfsMakeRootDir testfsCreateFileOrDir
  rw [lookup, ok_bind, if_neg absent]
  apply Sat.bind (testfsCreateInode_sat s .dir intact).total
  intro r spec
  obtain ⟨ret, n, s₁⟩ := r
  change Sat (if ret < 0 then _ else _) _ _
  cases spec with
  | inl full => exact absurd (full.2.1 0 (by decide)) (none 0)
  | inr made =>
      obtain ⟨zero, created⟩ := made
      change ret = 0 at zero
      change Created n .dir s s₁ at created
      have first : n = 0 := by
        by_contra later
        exact none 0 (created.least 0 (Nat.pos_of_ne_zero later))
      subst first
      rw [if_neg (by omega)]
      apply Sat.bind (created.fill Option.none)
      intro r spec
      obtain ⟨ret₁, s₂⟩ := r
      change Sat (if ret₁ < 0 then _ else _) _ _
      cases spec with
      | inl full =>
          have short : s.sb.free < 1 := full.2.2
          omega
      | inr done =>
          obtain ⟨nonneg, filled⟩ := done
          change Filled 0 0 .dir s₁ s₂ at filled
          have entry : createEntry s₂ Option.none [] 0 = .ok (0, s₂) := rfl
          rw [if_neg (Int.not_lt.mpr nonneg), entry, ok_bind]
          dsimp only
          rw [if_neg (Int.lt_irrefl 0)]
          have intact₂ := filled.rewritten.intact
          apply Sat.bind (testfsSyncInode_sat s₂ intact₂.consistent intact₂.table 0)
          intro s₃ spec
          have sync := spec.2
          have intact₃ := sync.quiet.intact intact₂
          apply Sat.bind (testfsPutInode_sat s₃ intact₃.consistent intact₃.table 0)
          intro s₄ spec
          have put := spec.2.2.2
          have quiet := sync.quiet.trans put.quiet
          have inodes : ∀ n, s₄.sb.InodeAllocated n ↔ n = 0 := by
            intro n
            rw [quiet.inodeAllocated_iff, filled.rewritten.inodes, created.inodes]
            exact or_iff_right (none n)
          have kind : (s₄.view 0).iType = InodeType.dir.code := by
            rw [quiet.view 0 (by decide), filled.rewritten.kind, created.view]
          refine ⟨rootOnly_space (quiet.intact intact₂) inodes kind
            ((filled.inner rfl).quiet quiet intact₂), inodes, ?_, ?_, ?_, ?_, ?_⟩
          · rw [put.refs, sync.refs, filled.rewritten.refs, created.refs, Function.update_self,
              Function.update_idem, Nat.add_sub_cancel, Function.update_eq_self]
          · intro n flag
            rw [put.dirty, sync.dirty] at flag
            by_cases here : n = 0
            · rw [here, Function.update_self] at flag
              cases flag
            · rw [Function.update_of_ne here, filled.rewritten.dirty n here, created.dirty,
                Function.update_of_ne here] at flag
              exact flag
          · rw [quiet.ghost, filled.ghost, created.ghost]
          · have free := filled.free
            rw [created.free] at free
            rw [quiet.free_eq]
            exact free
          · intro unfailed
            have backed : Backed s := Backed.of_stored intact fun n held => absurd held (none n)
            rw [quiet.ghost] at unfailed
            apply quiet.backed
            apply filled.rewritten.backed unfailed
            exact created.backed intact.owns backed

theorem Device.set_self (dev : Device) (k : Nat) (block : Block) (same : dev.block k = block)
    (inside : k < dev.nr) : dev.set k block = dev := by
  apply Device.ext
  · funext j
    by_cases here : j = k
    · rw [here, Device.block_set_same, same]
    · rw [Device.block_set_of_ne _ _ _ _ here]
  · rw [Device.nr_set]
    omega

theorem foldl_set_self (dev : Device) (start : Nat) (page : Nat → Block) (items : List Nat)
    (same : ∀ nr ∈ items, dev.block (start + nr) = page nr ∧ start + nr < dev.nr) :
    items.foldl (fun dev nr => dev.set (start + nr) (page nr)) dev = dev := by
  induction items with
  | nil => rfl
  | cons nr rest ih =>
      obtain ⟨here, inside⟩ := same nr List.mem_cons_self
      rw [List.foldl_cons, Device.set_self dev _ _ here inside]
      exact ih fun nr member => same nr (List.mem_cons_of_mem _ member)

/-- Closing writes what is on the device already. -/
theorem testfsCloseSuperBlock_eq (sb : SuperBlock) (ok : Consistent sb) :
    testfsCloseSuperBlock sb = sb.dev := by
  have image := ok.image
  unfold testfsCloseSuperBlock
  rw [Device.set_self sb.dev 0 _ ok.superOnDisk (by omega), ok.layout.inodeFreemap,
    ok.layout.blockFreemap]
  dsimp only
  rw [foldl_set_self sb.dev 1]
  · apply foldl_set_self sb.dev 2
    intro nr member
    have below := List.mem_range.mp member
    refine ⟨ok.blocksOnDisk nr below, ?_⟩
    simp only [blockFreemapSize] at below
    omega
  · intro nr member
    obtain rfl : nr = 0 := Nat.lt_one_iff.mp (List.mem_range.mp member)
    exact ⟨ok.inodesOnDisk, by omega⟩

/-- A session on a file system that has just been made. -/
structure Started (maxFsBlocks : Nat) (s : Session) : Prop where
  space : Namespace s.fs rootOnly
  inodes : ∀ n, s.fs.sb.InodeAllocated n ↔ n = 0
  curDir : s.curDir = 0
  refs : s.fs.refs = Function.update (fun _ => 0) 0 1
  dirty : ∀ n, s.fs.dirty n = false
  ghost : s.fs.sb.allocFailed = false
  free : s.fs.sb.free + 1 = maxFsBlocks
  backed : Backed s.fs

theorem makeFs_started (maxFsBlocks : Nat) (limit : maxFsBlocks ≤ 1048576)
    (room : 1 ≤ maxFsBlocks) (s' : Session) (run : (makeFs maxFsBlocks >>= testfsStart) = .ok s') :
    Started maxFsBlocks s' := by
  obtain ⟨sb, made, blank⟩ := freshSuperBlock_eq maxFsBlocks limit
  have free := blank.free
  unfold makeFs at run
  rw [made, ok_bind] at run
  refine Sat.of_ok (E := fun _ => True) ?_ run
  have root := testfsMakeRootDir_sat (State.initial sb) blank.intact blank.notAllocated
    (by change 1 ≤ sb.free; omega)
  change Sat ((testfsMakeRootDir (State.initial sb) >>= _) >>= _) _ _
  rw [sat_bind_iff]
  apply Sat.bind root
  intro r spec
  obtain ⟨ret, s⟩ := r
  change Sat (cAssert (s.inodes = []) >>= _) _ _
  change RootMade (State.initial sb) s at spec
  by_cases empty : s.inodes = []
  · have intact := spec.space.intact
    have consistent := intact.consistent
    rw [cAssert_pos empty, ok_bind, testfsCloseSuperBlock_eq s.sb consistent]
    change Sat (testfsStart s.sb.dev) _ _
    unfold testfsStart
    rw [consistent.remount, ok_bind]
    -- the state in which the root directory has been made, apart from what was printed
    let s₁ : State := State.initial { s.sb with allocFailed := false }
    have unfailed : s.sb.allocFailed = false := spec.ghost.trans blank.unfailed
    have same : s₁.sb = s.sb := by
      change { s.sb with allocFailed := false } = s.sb
      rw [← unfailed]
    have table : s₁.inodes = s.inodes := empty.symm
    have quiet : Quiet s s₁ := by
      refine ⟨same ▸ consistent, State.initial_table _, ?_, ?_, ?_, ?_, ?_, ?_, ?_⟩
      · intro n _
        unfold State.view
        rw [table, same]
      all_goals rw [same]
      exact fun _ _ => rfl
    have refs : s₁.refs = fun _ => 0 := rfl
    have dirty : s₁.dirty = fun _ => false := rfl
    have intact₁ := quiet.intact intact
    apply Sat.bind (testfsGetInode_sat s₁ intact₁.consistent intact₁.table 0)
    intro s₂ got
    have step := got.2.2
    have whole := quiet.trans step.quiet
    refine ⟨spec.space.quiet whole, ?_, rfl, ?_, ?_, ?_, ?_, whole.backed (spec.backed unfailed)⟩
    · intro n
      rw [whole.inodeAllocated_iff, spec.inodes]
    · rw [step.refs, refs]
    · intro n
      rw [step.dirty, dirty]
    · exact step.quiet.ghost
    · have count := spec.free
      change s.sb.free + 1 = sb.free at count
      rw [whole.free_eq, count, free]
  · rw [cAssert_neg empty]
    trivial

/-- A session of `testfs` on the device that `mktestfs -s fsSizeMb` has made. -/
def Fresh (fsSizeMb : Nat) (s : Session) : Prop :=
  (mktestfs fsSizeMb >>= testfsStart) = .ok s

theorem Fresh.started {fsSizeMb : Nat} {s : Session} (fresh : Fresh fsSizeMb s) :
    Started (fsSizeMb * 128) s := by
  unfold Fresh mktestfs at fresh
  by_cases bad : fsSizeMb < 1 ∨ 8192 < fsSizeMb
  · rw [if_pos bad] at fresh
    cases fresh
  · have size : fsSizeMb * 2 ^ 20 / blockSize = fsSizeMb * 128 := by
      simp only [blockSize]
      omega
    rw [if_neg bad, size] at fresh
    exact makeFs_started (fsSizeMb * 128) (by omega) (by omega) s fresh

end Ece344Lab.Fs
