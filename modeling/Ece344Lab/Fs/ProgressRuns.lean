import Ece344Lab.Fs.FileTreeRuns
import Ece344Lab.Fs.ProgressWrites
import Ece344Lab.Fs.References

set_option autoImplicit false

/- A session in which no block allocation fails does not get stuck, and ends when nothing is held.
-/
namespace Ece344Lab.Fs

open Outcome Ownership

/-- A command has listed something that is not a directory. -/
def FileTree.Event.ListsFile : FileTree.Event → Prop
  | .command (.ls _) ret | .command (.lsr _) ret => ret = -eNOTDIR
  | _ => False

section Step

variable {s s' : Session} {g : NameMap} {dirs : Nat → List Dirent} {c : Command} {ret : Int}

/-- Inode `n` has a reference that is not the one on the current directory. -/
def Session.Excess (s : Session) (n : Nat) : Prop :=
  (if n = s.curDir then 1 else 0) < s.fs.refs n

/-- What a command does to the references. -/
inductive StepRefs (s : Session) (e : FileTree.Event) (s' : Session) : Prop
  | even (balanced : Session.Balanced s s') (other : ¬ e.ListsFile)
  | kept (lists : e.ListsFile) (n : Nat) (apart : n ≠ s.curDir) (stays : s'.curDir = s.curDir)
      (refs : ∀ m, s'.fs.refs m = Function.update s.fs.refs n (s.fs.refs n + 1) m)

theorem Shown.lsRefs (shown : Shown s g dirs) (stays : s'.curDir = s.curDir)
    (listed : LsRefs s ret s') {e : FileTree.Event} (code : e.ListsFile ↔ ret = -eNOTDIR) :
    StepRefs s e s' := by
  cases listed with
  | even other refs =>
      refine .even (fun m => ?_) fun lists => other (code.mp lists)
      rw [refs, stays]
  | kept ret n file refs =>
      refine .kept (code.mpr ret) n (fun same => file ?_) stays refs
      rw [same]
      exact shown.ok.dir

theorem Shown.stepRefs (shown : Shown s g dirs) (lively : s.Lively)
    (ran : s.handleCommand c = .ok (ret, s')) (unfailed : s'.fs.sb.allocFailed = false) :
    StepRefs s (.command c ret) s' := by
  have even : (∀ args, c ≠ .ls args ∧ c ≠ .lsr args) → StepRefs s (.command c ret) s' := by
    intro other
    refine .even ?_ ?_
    · rcases (shown.ok.handleCommand c).of_ok ran with stepped | stranded
      · refine stepped.balance.resolve_left fun lists => ?_
        cases c <;> first | exact (other _).1 rfl | exact (other _).2 rfl | exact lists
      · rw [stranded.2] at unfailed
        cases unfailed
    · intro lists
      cases c <;> first | exact (other _).1 rfl | exact (other _).2 rfl | exact lists
  have ls : ∀ args recursive, s.cmdLsInternal args recursive = .ok (ret, s') →
      s'.curDir = s.curDir ∧ LsRefs s ret s' := fun args recursive ran =>
    ⟨(cmdLsInternal_stays args recursive).of_ok ran,
      (shown.cmdLsInternal_ends lively args recursive).of_ok ran⟩
  cases c with
  | ls args =>
      obtain ⟨stays, listed⟩ := ls args false ran
      exact shown.lsRefs stays listed Iff.rfl
  | lsr args =>
      obtain ⟨stays, listed⟩ := ls args true ran
      exact shown.lsRefs stays listed Iff.rfl
  | _ =>
      apply even
      intro args
      constructor <;> (intro same; cases same)

theorem StepRefs.held {e : FileTree.Event} (step : StepRefs s e s')
    (held : 0 < s.fs.refs s.curDir) :
    0 < s'.fs.refs s'.curDir := by
  cases step with
  | even balanced _ =>
      have sum := balanced s'.curDir
      rw [if_pos rfl] at sum
      by_cases same : s'.curDir = s.curDir
      · rw [if_pos same, same] at sum
        rw [same]
        omega
      · rw [if_neg same] at sum
        omega
  | kept _ n apart stays refs =>
      rw [refs, stays, Function.update_of_ne apart.symm]
      exact held

/-- A reference too many stays. -/
theorem StepRefs.excess {e : FileTree.Event} (step : StepRefs s e s') {n : Nat}
    (before : s.Excess n) : s'.Excess n := by
  unfold Session.Excess at before ⊢
  cases step with
  | even balanced _ =>
      have sum := balanced n
      omega
  | kept _ m apart stays refs =>
      rw [refs, stays, Function.update_apply]
      by_cases here : n = m
      · rw [if_pos here, ← here]
        omega
      · rw [if_neg here]
        exact before

/-- The length of a record whose name is an argument is an `int`. -/
theorem not_miscounts (small : c.Small) : ¬ s.Creates CreateMiscounts c := by
  have narrow : ∀ name : Arg, name.Small → ¬ Giant name.bytes := fun name short giant =>
    absurd short (Nat.not_lt.mpr giant.1)
  intro miscounts
  unfold Session.Creates at miscounts
  split at miscounts
  · obtain ⟨_, _, miscounts⟩ := miscounts
    exact narrow _ (small _ List.mem_cons_self) miscounts.giant
  · obtain ⟨_, _, miscounts⟩ := miscounts
    exact narrow _ (small _ List.mem_cons_self) miscounts.giant
  · exact miscounts

theorem Shown.stepClean (shown : Shown s g dirs) (lively : s.Lively) (small : c.Small)
    (ran : s.handleCommand c = .ok (ret, s')) (unfailed : s'.fs.sb.allocFailed = false) (n : Nat) :
    s'.fs.dirty n = false := by
  rcases (shown.ok.handleCommand c).of_ok ran with stepped | stranded
  · refine Bool.eq_false_iff.mpr fun flag => ?_
    rcases stepped.soils n flag with before | miscounts | starves
    · rw [lively.clean] at before
      cases before
    · exact not_miscounts small miscounts
    · rw [starves.1] at unfailed
      cases unfailed
  · rw [stranded.2] at unfailed
    cases unfailed

theorem Shown.stepLively (shown : Shown s g dirs) (lively : s.Lively) (small : c.Small)
    (ran : s.handleCommand c = .ok (ret, s')) (unfailed : s'.fs.sb.allocFailed = false) :
    s'.Lively where
  held := (shown.stepRefs lively ran unfailed).held lively.held
  clean := shown.stepClean lively small ran unfailed
  tight := ((shown.handleCommand_tight c small).of_ok ran unfailed).2 lively.tight

/-- `main` can end when the current directory is all that is held. -/
theorem Session.Lively.shutdown_iff (lively : s.Lively) (shown : Shown s g dirs) :
    (∃ dev, s.shutdown = .ok dev) ↔ ∀ n, ¬ s.Excess n := by
  have table := shown.space.intact.table
  constructor
  · rintro ⟨dev, ended⟩ n excess
    obtain ⟨fs, put, rest⟩ := ok_of_bind ended
    obtain ⟨_, empty, _⟩ := ok_of_bind rest
    have step := (testfsPutInode_comes s.fs table s.curDir lively.held (lively.clean _)).of_ok put
    have none : fs.inodes = [] := by
      by_contra left
      rw [cAssert_neg left] at empty
      cases empty
    have gone : fs.refs n = 0 := by
      unfold State.refs
      rw [none]
      rfl
    rw [step.2.refs, Function.update_apply] at gone
    unfold Session.Excess at excess
    split at gone
    · rename_i here
      rw [if_pos here, here] at excess
      omega
    · rename_i apart
      rw [if_neg apart] at excess
      omega
  · intro even
    have refs : ∀ m, s.fs.refs m = if m = s.curDir then 1 else 0 := by
      intro m
      have most := Nat.not_lt.mp (even m)
      have held := lively.held
      split at most
      · rename_i here
        rw [if_pos here]
        rw [here] at most ⊢
        omega
      · rename_i apart
        rw [if_neg apart]
        omega
    have only : OnlyCurDir s := table.only s.curDir refs (lively.clean _)
    exact only.shutdown

/-- The program starts again on what `main` has left, and holds the root directory once. -/
theorem Shown.starts (shown : Shown s g dirs) (unfailed : s.fs.sb.allocFailed = false)
    {dev : Device} (ended : s.shutdown = .ok dev) :
    Sat (testfsStart dev) (fun s' => ∀ n, s'.fs.refs n = if n = s'.curDir then 1 else 0)
      (fun _ => False) := by
  have consistent := shown.space.intact.consistent
  obtain ⟨fs, put, rest⟩ := ok_of_bind ended
  obtain ⟨_, _, closed⟩ := ok_of_bind rest
  have step := (testfsPutInode_sat s.fs consistent shown.space.intact.table s.curDir).of_ok put
  have quiet : Quiet s.fs fs := step.2.2.2.quiet
  rw [testfsCloseSuperBlock_eq fs.sb quiet.consistent] at closed
  cases closed
  have same : { fs.sb with allocFailed := false } = fs.sb := by
    rw [← quiet.ghost.trans unfailed]
  unfold testfsStart
  rw [quiet.consistent.remount, ok_bind, same]
  have table := State.initial_table fs.sb
  apply Sat.bind (testfsGetInode_comes (State.initial fs.sb) quiet.consistent table 0 (by decide))
  rintro fs' ⟨_, got⟩ n
  exact (got.refs n).trans (Function.update_apply _ _ _ _)

end Step

/-- What holds in every session of a run without a failed allocation. -/
structure Steady (events : List FileTree.Event) (s : Session) : Prop where
  shown : ∃ g dirs, Shown s g dirs
  unfailed : s.fs.sb.allocFailed = false
  lively : s.Lively
  even : (∀ e ∈ events, ¬ e.ListsFile) → ∀ n, ¬ s.Excess n
  excess : ∀ e ∈ events, e.ListsFile → ∃ n, s.Excess n

section Runs

variable {s s' : Session} {events : List FileTree.Event} {c : Command} {ret : Int}

theorem not_excess (refs : ∀ n, s.fs.refs n = if n = s.curDir then 1 else 0) (n : Nat) :
    ¬ s.Excess n := by
  unfold Session.Excess
  rw [refs]
  exact Nat.lt_irrefl _

/-- `testfs_make_root_dir` on an empty file system. -/
theorem testfsMakeRootDir_tight {fs : State} (intact : Intact fs)
    (none : ∀ n, ¬ fs.sb.InodeAllocated n) (room : 1 ≤ fs.sb.free) :
    Sat (testfsMakeRootDir fs) (fun r => Tightens fs r.2) (fun _ => True) := by
  have absent : ¬ (0 : Int) ≤ -1 := by decide
  have lookup : createLookup fs Option.none [] = .ok (-1) := rfl
  unfold testfsMakeRootDir testfsCreateFileOrDir
  rw [lookup, ok_bind, if_neg absent]
  apply Sat.bind (testfsCreateInode_sat fs .dir intact).total
  rintro ⟨ret, n, fs₁⟩ (full | ⟨zero, created⟩)
  · exact absurd (full.2.1 0 (by decide)) (none 0)
  · change ret = 0 at zero
    change Created n .dir fs fs₁ at created
    change Sat (if ret < 0 then _ else _) _ _
    rw [zero, if_neg (Int.lt_irrefl 0)]
    apply Sat.bind ((created.fill Option.none).and (created.fill_tight Option.none))
    rintro ⟨ret₁, fs₂⟩ ⟨full | ⟨nonneg, filled⟩, tight⟩
    · have short : fs.sb.free < 1 := full.2.2
      omega
    · change Filled n n .dir fs₁ fs₂ at filled
      change Tightens fs₁ fs₂ at tight
      have entry : createEntry fs₂ Option.none [] n = .ok (0, fs₂) := rfl
      change Sat (if ret₁ < 0 then _ else _) _ _
      rw [if_neg (Int.not_lt.mpr nonneg), entry, ok_bind]
      dsimp only
      rw [if_neg (Int.lt_irrefl 0)]
      have intact₂ := filled.rewritten.intact
      apply Sat.bind (testfsSyncInode_sat fs₂ intact₂.consistent intact₂.table n)
      intro fs₃ spec
      have sync := spec.2.quiet
      apply Sat.bind (testfsPutInode_sat fs₃ sync.consistent sync.table n)
      intro fs₄ spec
      have quiet := sync.trans spec.2.2.2.quiet
      exact created.tightens.trans (tight.trans (quiet.tightens intact₂.owns))

theorem Fresh.tight {fsSizeMb : Nat} (fresh : Fresh fsSizeMb s) : s.fs.Tight := by
  unfold Fresh mktestfs at fresh
  by_cases bad : fsSizeMb < 1 ∨ 8192 < fsSizeMb
  · rw [if_pos bad] at fresh
    cases fresh
  · have size : fsSizeMb * 2 ^ 20 / blockSize = fsSizeMb * 128 := by
      simp only [blockSize]
      omega
    rw [if_neg bad, size] at fresh
    obtain ⟨sb, made, blank⟩ := freshSuperBlock_eq (fsSizeMb * 128) (by omega)
    have free := blank.free
    unfold makeFs at fresh
    rw [made, ok_bind] at fresh
    refine Sat.of_ok (Q := fun s => s.fs.Tight) (E := fun _ => True) ?_ fresh
    have some : 1 ≤ (State.initial sb).sb.free := by
      change 1 ≤ sb.free
      omega
    have root := (testfsMakeRootDir_sat _ blank.intact blank.notAllocated some).and
      (testfsMakeRootDir_tight blank.intact blank.notAllocated some)
    change Sat ((testfsMakeRootDir (State.initial sb) >>= _) >>= _) _ _
    rw [sat_bind_iff]
    apply Sat.bind root
    rintro ⟨ret, fs⟩ ⟨made, tight⟩
    change RootMade (State.initial sb) fs at made
    change Sat (cAssert (fs.inodes = []) >>= _) _ _
    by_cases empty : fs.inodes = []
    · have intact := made.space.intact
      have unfailed : fs.sb.allocFailed = false := made.ghost.trans blank.unfailed
      have tight₀ := (tight unfailed).2 fun n held => absurd held (blank.notAllocated n)
      have same : { fs.sb with allocFailed := false } = fs.sb := by
        rw [← unfailed]
      rw [cAssert_pos empty, ok_bind, testfsCloseSuperBlock_eq fs.sb intact.consistent]
      change Sat (testfsStart fs.sb.dev) _ _
      unfold testfsStart
      rw [intact.consistent.remount, ok_bind, same]
      have between := State.reopened intact.consistent empty
      apply Sat.bind (testfsGetInode_sat _ between.consistent between.table 0)
      intro fs' spec
      have quiet := between.trans spec.2.2.quiet
      exact (quiet.tightens intact.owns (quiet.ghost.trans unfailed)).2 tight₀
    · rw [cAssert_neg empty]
      trivial

theorem Fresh.steady {fsSizeMb : Nat} (fresh : Fresh fsSizeMb s) : Steady [] s := by
  have started := fresh.started
  have refs : ∀ n, s.fs.refs n = if n = s.curDir then 1 else 0 := by
    intro n
    rw [started.refs, started.curDir, Function.update_apply]
  refine ⟨⟨_, _, started.shown.1⟩, started.ghost, ⟨?_, started.dirty, fresh.tight⟩,
    fun _ => not_excess refs, fun e member => absurd member List.not_mem_nil⟩
  rw [refs, if_pos rfl]
  exact Nat.zero_lt_one

theorem Steady.command (steady : Steady events s) (small : c.Small)
    (ran : s.handleCommand c = .ok (ret, s')) (unfailed : s'.fs.sb.allocFailed = false) :
    Steady (events ++ [.command c ret]) s' := by
  obtain ⟨g, dirs, shown⟩ := steady.shown
  obtain ⟨g', dirs', shown', _⟩ := shown.simulates ran unfailed small
  have step := shown.stepRefs steady.lively ran unfailed
  refine ⟨⟨g', dirs', shown'⟩, unfailed, shown.stepLively steady.lively small ran unfailed, ?_, ?_⟩
  · intro none n excess
    have before : ∀ e ∈ events, ¬ e.ListsFile := fun e member =>
      none e (List.mem_append_left _ member)
    cases step with
    | even balanced _ =>
        apply steady.even before n
        have sum := balanced n
        unfold Session.Excess at excess ⊢
        omega
    | kept lists _ _ _ _ => exact none _ (List.mem_append_right _ List.mem_cons_self) lists
  · intro e member lists
    rcases List.mem_append.mp member with before | last
    · obtain ⟨n, excess⟩ := steady.excess e before lists
      exact ⟨n, step.excess excess⟩
    · rw [List.mem_singleton.mp last] at lists
      cases step with
      | even _ other => exact absurd lists other
      | kept _ n apart stays refs =>
          refine ⟨n, ?_⟩
          unfold Session.Excess
          rw [refs, Function.update_self, stays, if_neg apart]
          exact Nat.succ_pos _

theorem Steady.restart (steady : Steady events s) {dev : Device} (ended : s.shutdown = .ok dev)
    (begun : testfsStart dev = .ok s') : Steady (events ++ [.restart]) s' := by
  obtain ⟨g, dirs, shown⟩ := steady.shown
  have unfailed := steady.unfailed
  have restarted := shown.ok.restarts unfailed ended begun
  have refs := (shown.starts unfailed ended).of_ok begun
  have none := (steady.lively.shutdown_iff shown).mp ⟨dev, ended⟩
  have ghost : s'.fs.sb.allocFailed = false := restarted.quiet.ghost.trans unfailed
  have tight := (restarted.quiet.tightens shown.space.intact.owns ghost).2 steady.lively.tight
  refine ⟨⟨g, dirs, (shown.restarts restarted).1⟩, ghost, ⟨?_, restarted.dirty, tight⟩,
    fun _ => not_excess refs, fun e member lists => ?_⟩
  · rw [refs, if_pos rfl]
    exact Nat.zero_lt_one
  · rcases List.mem_append.mp member with before | last
    · obtain ⟨n, excess⟩ := steady.excess e before lists
      exact absurd excess (none n)
    · rw [List.mem_singleton.mp last] at lists
      exact absurd lists id

theorem Traced.steady {start : Session} (run : Traced start events s) {fsSizeMb : Nat}
    (fresh : Fresh fsSizeMb start) : Steady events s := by
  induction run with
  | start => exact fresh.steady
  | command _ small ran unfailed ih => exact ih.command small ran unfailed
  | restart _ ended begun ih => exact ih.restart ended begun

/-- In a run without a failed allocation no command gets stuck that has room, and the program can
end and start again unless `ls` has listed a file. -/
theorem run_returns (fsSizeMb : Nat) (start s : Session) (events : List FileTree.Event)
    (fresh : Fresh fsSizeMb start) (run : Traced start events s) :
    (∀ c, c.Small → s.Room c →
      ∃ ret s', s.handleCommand c = .ok (ret, s') ∧ s'.fs.sb.allocFailed = false) ∧
    ((∃ dev s', s.shutdown = .ok dev ∧ testfsStart dev = .ok s') ↔
      ∀ e ∈ events, ¬ e.ListsFile) := by
  have steady := run.steady fresh
  obtain ⟨g, dirs, shown⟩ := steady.shown
  have ends := steady.lively.shutdown_iff shown
  refine ⟨fun c small room => ?_, ?_, ?_⟩
  · have goes := shown.handleCommand_goes steady.lively c steady.unfailed small room
    obtain ⟨⟨ret, s'⟩, ran, unfailed⟩ := goes.exists_ok
    exact ⟨ret, s', ran, unfailed⟩
  · rintro ⟨dev, _, ended, _⟩ e member lists
    obtain ⟨n, excess⟩ := steady.excess e member lists
    exact ends.mp ⟨dev, ended⟩ n excess
  · intro none
    obtain ⟨dev, ended⟩ := ends.mpr (steady.even none)
    obtain ⟨s', begun, _⟩ := (shown.starts steady.unfailed ended).exists_ok
    exact ⟨dev, s', ended, begun⟩

/-- "a" is made and written to, and the program restarted. The block of "a" is there for another
write, and the program can end again. -/
theorem run_returns_write : ∃ start s events, Fresh 1 start ∧ Traced start events s ∧
    events.length = 3 ∧ s.Room (.write [nameA, argZero, nameB]) ∧
    (∃ ret s', s.handleCommand (.write [nameA, argZero, nameB]) = .ok (ret, s') ∧
      s'.fs.sb.allocFailed = false) ∧
    ∃ dev s', s.shutdown = .ok dev ∧ testfsStart dev = .ok s' := by
  have ends : Returns (mktestfs 1 >>= testfsStart) fun s =>
      Returns (s.handleCommand (.create [nameA])) fun r => r.1 = 0 ∧
        r.2.fs.sb.allocFailed = false ∧
      Returns (r.2.handleCommand (.write [nameA, argZero, nameB])) fun r => 0 ≤ r.1 ∧
        r.2.fs.sb.allocFailed = false ∧
      Returns r.2.shutdown fun dev => Returns (testfsStart dev) fun s =>
        s.tree.find nameA.bytes = some 1 ∧ s.fs.need 1 0 1 = 0 := by
    decide +kernel
  obtain ⟨start, fresh, ⟨ret₁, s₁⟩, ran₁, _, unfailed₁, ⟨ret₂, s₂⟩, ran₂, _, unfailed₂, dev, ended,
    s₃, begun, named, need⟩ := ends
  have small₁ : (Command.create [nameA]).Small := by
    intro arg member
    rw [List.mem_singleton.mp member]
    decide
  have small₂ : (Command.write [nameA, argZero, nameB]).Small := by
    intro arg member
    simp only [List.mem_cons, List.not_mem_nil, or_false] at member
    rcases member with rfl | rfl | rfl <;> decide
  have traced := ((Traced.start.command small₁ ran₁ unfailed₁).command small₂ ran₂
    unfailed₂).restart ended begun
  have room : s₃.Room (.write [nameA, argZero, nameB]) := by
    intro n position ⟨found, _⟩ parsed
    have number : n = 1 := Option.some.inj (found.symm.trans named)
    have zero : strToOffset argZero.bytes = some 0 := by decide
    have origin : position = 0 := Int.ofNat.inj (Option.some.inj (parsed.symm.trans zero))
    rw [number, origin]
    exact need.trans_le (Nat.zero_le _)
  obtain ⟨returns, ends⟩ := run_returns 1 start s₃ _ fresh traced
  refine ⟨start, s₃, _, fresh, traced, rfl, room, returns _ small₂ room,
    ends.mpr fun e member => ?_⟩
  simp only [List.nil_append, List.cons_append, List.mem_cons, List.not_mem_nil, or_false] at member
  rcases member with rfl | rfl | rfl <;> exact id

end Runs

end Ece344Lab.Fs
