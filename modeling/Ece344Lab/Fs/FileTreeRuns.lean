import Ece344Lab.Fs.FileCommands
import Ece344Lab.Fs.FileListing
import Ece344Lab.Fs.ReadCommand

set_option autoImplicit false

/- The commands of `testfs` on inodes and blocks are the commands on the tree of files that the
inodes and blocks stand for. -/
namespace Ece344Lab.Fs

open Outcome Ownership

section Steps

variable {s s' : Session} {g g' : NameMap} {dirs dirs' : Nat → List Dirent}
    {c : Command} {ret : Int}

theorem Shown.looks (shown : Shown s g dirs) (ran : s.handleCommand c = .ok (ret, s'))
    (unfailed : s'.fs.sb.allocFailed = false) (plain : c.names = false)
    (quiet : Quiet s.fs s'.fs) : ∃ dirs', Shown s' g dirs' ∧ s'.fs.node = s.fs.node := by
  obtain ⟨dirs', mapped, _⟩ := shown.step ran unfailed
  rw [g.after_other _ _ _ plain] at mapped
  exact ⟨dirs', shown.quiet mapped quiet⟩

/-- What the command has returned, printed and left is what it does on the tree. -/
abbrev Simulated (s : Session) (c : Command) (ret : Int) (s' : Session) : Prop :=
  ∃ g dirs, Shown s' g dirs ∧ s.tree.Step ret s'.tree s.fs.stdout s'.fs.stdout c

theorem Shown.looked (shown : Shown s g dirs) (ran : s.handleCommand c = .ok (ret, s'))
    (unfailed : s'.fs.sb.allocFailed = false) (plain : c.names = false) (quiet : Quiet s.fs s'.fs)
    (other : ∀ args, c ≠ .cd args) : ∃ dirs', Shown s' g dirs' ∧ s'.tree = s.tree := by
  obtain ⟨dirs', shown', nodes⟩ := shown.looks ran unfailed plain quiet
  exact ⟨dirs', shown', Session.tree_eq ((handleCommand_stays c other).of_ok ran) nodes⟩

theorem Shown.invalid (shown : Shown s g dirs)
    (ran : (.ok (-eINVAL, s) : Except Halt (Int × Session)) = .ok (ret, s')) :
    ∃ g dirs, Shown s' g dirs ∧ ret = -eINVAL ∧ s'.tree = s.tree ∧ s'.fs.stdout = s.fs.stdout := by
  cases ran
  exact ⟨g, dirs, shown, rfl, rfl, rfl⟩

section Arguments

variable {args : List Arg}

theorem Shown.simulates_cd (shown : Shown s g dirs)
    (ran : s.handleCommand (.cd args) = .ok (ret, s'))
    (unfailed : s'.fs.sb.allocFailed = false) : Simulated s (.cd args) ret s' := by
  match args with
  | [] => exact shown.invalid ran
  | _ :: _ :: _ => exact shown.invalid ran
  | [name] =>
      obtain ⟨dirs', mapped, _⟩ := shown.step ran unfailed
      rw [g.after_other _ _ _ rfl] at mapped
      have quiet : Quiet s.fs s'.fs := (cmdCd_quiet shown.space.intact.consistent
        shown.space.intact.table [name]).of_ok ran
      exact ⟨g, dirs', (shown.quiet mapped quiet).1, shown.cd name mapped ran⟩

theorem Shown.simulates_pwd (shown : Shown s g dirs)
    (ran : s.handleCommand (.pwd args) = .ok (ret, s'))
    (unfailed : s'.fs.sb.allocFailed = false) : Simulated s (.pwd args) ret s' := by
  match args with
  | _ :: _ => exact shown.invalid ran
  | [] =>
      obtain ⟨dirs', shown', same⟩ := shown.looked ran unfailed rfl
        ((cmdPwd_quiet shown.space.intact.consistent shown.space.intact.table []).of_ok ran)
        fun _ equal => by cases equal
      exact ⟨g, dirs', shown', shown.pwd same ran⟩

theorem Shown.simulates_ls (shown : Shown s g dirs)
    (ran : s.handleCommand (.ls args) = .ok (ret, s'))
    (unfailed : s'.fs.sb.allocFailed = false) : Simulated s (.ls args) ret s' := by
  match args with
  | [] => exact shown.invalid ran
  | _ :: _ :: _ => exact shown.invalid ran
  | [name] =>
      obtain ⟨dirs', shown', same⟩ := shown.looked ran unfailed rfl
        ((cmdLsInternal_quiet shown.space.intact.consistent shown.space.intact.table [name]
          false).of_ok ran) fun _ equal => by cases equal
      exact ⟨g, dirs', shown', shown.ls name false same ran⟩

theorem Shown.simulates_lsr (shown : Shown s g dirs)
    (ran : s.handleCommand (.lsr args) = .ok (ret, s'))
    (unfailed : s'.fs.sb.allocFailed = false) : Simulated s (.lsr args) ret s' := by
  match args with
  | [] => exact shown.invalid ran
  | _ :: _ :: _ => exact shown.invalid ran
  | [name] =>
      obtain ⟨dirs', shown', same⟩ := shown.looked ran unfailed rfl
        ((cmdLsInternal_quiet shown.space.intact.consistent shown.space.intact.table [name]
          true).of_ok ran) fun _ equal => by cases equal
      exact ⟨g, dirs', shown', shown.ls name true same ran⟩

theorem Shown.simulates_stat (shown : Shown s g dirs)
    (ran : s.handleCommand (.stat args) = .ok (ret, s')) (unfailed : s'.fs.sb.allocFailed = false) :
    Simulated s (.stat args) ret s' := by
  match args with
  | [] => exact shown.invalid ran
  | _ :: _ :: _ => exact shown.invalid ran
  | [name] =>
      obtain ⟨dirs', shown', same⟩ := shown.looked ran unfailed rfl
        ((cmdStat_quiet shown.space.intact.consistent shown.space.intact.table [name]).of_ok ran)
        fun _ equal => by cases equal
      exact ⟨g, dirs', shown', shown.stat name same ran⟩

theorem Shown.simulates_fsstat (shown : Shown s g dirs)
    (ran : s.handleCommand (.fsstat args) = .ok (ret, s'))
    (unfailed : s'.fs.sb.allocFailed = false) : Simulated s (.fsstat args) ret s' := by
  match args with
  | _ :: _ => exact shown.invalid ran
  | [] =>
      obtain ⟨dirs', shown', same⟩ := shown.looked ran unfailed rfl
        ((cmdFsstat_quiet shown.space.intact.consistent shown.space.intact.table []).of_ok ran)
        fun _ equal => by cases equal
      exact ⟨g, dirs', shown', shown.fsstat same ran⟩

theorem Shown.simulates_create (shown : Shown s g dirs)
    (ran : s.handleCommand (.create args) = .ok (ret, s'))
    (unfailed : s'.fs.sb.allocFailed = false) (small : (Command.create args).Small) :
    Simulated s (.create args) ret s' := by
  match args with
  | [] => exact shown.invalid ran
  | _ :: _ :: _ => exact shown.invalid ran
  | [name] =>
      obtain ⟨dirs', mapped, _⟩ := shown.step ran unfailed
      obtain ⟨shown', makes⟩ := shown.makes name .file (Or.inl ⟨rfl, rfl⟩)
        (small name List.mem_cons_self) mapped ran unfailed
      simp only [InodeType.node_file] at makes
      exact ⟨_, dirs', shown', makes⟩

theorem Shown.simulates_mkdir (shown : Shown s g dirs)
    (ran : s.handleCommand (.mkdir args) = .ok (ret, s'))
    (unfailed : s'.fs.sb.allocFailed = false) (small : (Command.mkdir args).Small) :
    Simulated s (.mkdir args) ret s' := by
  match args with
  | [] => exact shown.invalid ran
  | _ :: _ :: _ => exact shown.invalid ran
  | [name] =>
      obtain ⟨dirs', mapped, _⟩ := shown.step ran unfailed
      obtain ⟨shown', makes⟩ := shown.makes name .dir (Or.inr ⟨rfl, rfl⟩)
        (small name List.mem_cons_self) mapped ran unfailed
      simp only [InodeType.node_dir] at makes
      exact ⟨_, dirs', shown', makes⟩

theorem Shown.simulates_rm (shown : Shown s g dirs)
    (ran : s.handleCommand (.rm args) = .ok (ret, s'))
    (unfailed : s'.fs.sb.allocFailed = false) : Simulated s (.rm args) ret s' := by
  match args with
  | [] => exact shown.invalid ran
  | _ :: _ :: _ => exact shown.invalid ran
  | [name] =>
      obtain ⟨dirs', mapped, _⟩ := shown.step ran unfailed
      exact ⟨_, dirs', shown.removes name mapped ran⟩

theorem Shown.simulates_read (shown : Shown s g dirs)
    (ran : s.handleCommand (.read args) = .ok (ret, s')) (unfailed : s'.fs.sb.allocFailed = false) :
    Simulated s (.read args) ret s' := by
  match args with
  | [] => exact shown.invalid ran
  | [_] => exact shown.invalid ran
  | [_, _] => exact shown.invalid ran
  | _ :: _ :: _ :: _ :: _ => exact shown.invalid ran
  | [filename, offset, sizeArg] =>
      obtain ⟨dirs', shown', same⟩ := shown.looked ran unfailed rfl
        ((cmdRead_quiet shown.space.intact.consistent shown.space.intact.table
          [filename, offset, sizeArg]).of_ok ran) fun _ equal => by cases equal
      have call : s.cmdRead [filename, offset, sizeArg] = .ok (ret, s') := ran
      unfold Session.cmdRead at call
      dsimp only at call
      simp only [Simulated, FileTree.Step]
      cases parsed : strToOffset offset.bytes with
      | none =>
          rw [parsed] at call
          exact shown.invalid call
      | some value =>
          cases value with
          | negSucc k =>
              rw [parsed] at call
              dsimp only at call
              rw [if_pos (Int.negSucc_lt_zero k)] at call
              exact shown.invalid call
          | ofNat start =>
              cases parsed' : strToSize sizeArg.bytes with
              | some size =>
                  exact ⟨g, dirs', shown',
                    shown.reads filename offset sizeArg start size parsed parsed' same ran⟩
              | none =>
                  rw [parsed, parsed'] at call
                  dsimp only at call
                  rw [ite_self] at call
                  exact shown.invalid call

theorem Shown.simulates_write (shown : Shown s g dirs)
    (ran : s.handleCommand (.write args) = .ok (ret, s'))
    (unfailed : s'.fs.sb.allocFailed = false) (small : (Command.write args).Small) :
    Simulated s (.write args) ret s' := by
  match args with
  | [] => exact shown.invalid ran
  | [_] => exact shown.invalid ran
  | [_, _] => exact shown.invalid ran
  | _ :: _ :: _ :: _ :: _ => exact shown.invalid ran
  | [filename, offset, buf] =>
      obtain ⟨dirs', mapped, _⟩ := shown.step ran unfailed
      rw [g.after_other _ _ _ rfl] at mapped
      have short : buf.Small := small buf (by simp)
      have call : s.cmdWrite [filename, offset, buf] = .ok (ret, s') := ran
      unfold Session.cmdWrite at call
      dsimp only at call
      simp only [Simulated, FileTree.Step]
      cases parsed : strToOffset offset.bytes with
      | none =>
          rw [parsed] at call
          exact shown.invalid call
      | some value =>
          cases value with
          | negSucc k =>
              rw [parsed] at call
              dsimp only at call
              rw [if_pos (Int.negSucc_lt_zero k)] at call
              exact shown.invalid call
          | ofNat start =>
              obtain ⟨shown', step⟩ :=
                shown.writes filename offset buf start parsed short mapped ran unfailed
              exact ⟨g, dirs', shown', step⟩

end Arguments

/-- One command, simulated. -/
theorem Shown.simulates (shown : Shown s g dirs) (ran : s.handleCommand c = .ok (ret, s'))
    (unfailed : s'.fs.sb.allocFailed = false) (small : c.Small) : Simulated s c ret s' := by
  cases c with
  | cd args => exact shown.simulates_cd ran unfailed
  | pwd args => exact shown.simulates_pwd ran unfailed
  | ls args => exact shown.simulates_ls ran unfailed
  | lsr args => exact shown.simulates_lsr ran unfailed
  | create args => exact shown.simulates_create ran unfailed small
  | mkdir args => exact shown.simulates_mkdir ran unfailed small
  | rm args => exact shown.simulates_rm ran unfailed
  | stat args => exact shown.simulates_stat ran unfailed
  | read args => exact shown.simulates_read ran unfailed
  | write args => exact shown.simulates_write ran unfailed small
  | fsstat args => exact shown.simulates_fsstat ran unfailed

end Steps

/-- The end of `testfs` and a new start on the same device. -/
structure Restarted (s s' : Session) : Prop where
  quiet : Quiet s.fs s'.fs
  curDir : s'.curDir = 0
  dirty : ∀ n, s'.fs.dirty n = false
  stdout : s'.fs.stdout = []

/-- Nothing is lost with an empty inode table. -/
theorem State.reopened {s : State} (consistent : Consistent s.sb) (empty : s.inodes = []) :
    Quiet s (State.initial s.sb) := by
  refine ⟨consistent, State.initial_table _, fun n _ => ?_, fun _ _ => rfl, rfl, rfl, rfl, rfl,
    Nat.le_refl _⟩
  unfold State.view
  rw [empty]
  rfl

theorem Session.Ok.restarts {s s' : Session} {dev : Device} (ok : s.Ok)
    (unfailed : s.fs.sb.allocFailed = false) (ended : s.shutdown = .ok dev)
    (begun : testfsStart dev = .ok s') : Restarted s s' := by
  obtain ⟨_, space⟩ := ok.space
  have consistent := space.intact.consistent
  have table := space.intact.table
  obtain ⟨fs, put, rest⟩ := ok_of_bind ended
  obtain ⟨_, empty, closed⟩ := ok_of_bind rest
  obtain ⟨_, _, _, step⟩ := (testfsPutInode_sat s.fs consistent table s.curDir).of_ok put
  have quiet := step.quiet
  have none : fs.inodes = [] := by
    by_contra left
    rw [cAssert_neg left] at empty
    cases empty
  have handed : fs.sb.allocFailed = false := quiet.ghost.trans unfailed
  rw [testfsCloseSuperBlock_eq fs.sb quiet.consistent] at closed
  cases closed
  unfold testfsStart at begun
  rw [quiet.consistent.remount, ok_bind] at begun
  obtain ⟨fs', got, equal⟩ := ok_of_bind begun
  cases equal
  have same : { fs.sb with allocFailed := false } = fs.sb := by
    rw [← handed]
  rw [same] at got
  have between := State.reopened quiet.consistent none
  have first := (testfsGetInode_sat _ between.consistent between.table 0).of_ok got
  have held := first.2.2
  have silent : fs'.stdout = [] := (testfsGetInode_silent (State.initial fs.sb) 0).of_ok got
  refine ⟨quiet.trans (between.trans held.quiet), rfl, fun n => ?_, silent⟩
  change fs'.dirty n = false
  rw [held.dirty]
  rfl

theorem Shown.restarts {s s' : Session} {g : NameMap} {dirs : Nat → List Dirent}
    (shown : Shown s g dirs) (step : Restarted s s') :
    Shown s' g dirs ∧ s'.tree = { s.tree with cur := 0 } := by
  have quiet := step.quiet
  have dirsKept := DirsKept.of_quiet shown.space quiet
  have ok : s'.Ok := by
    refine ⟨⟨dirs, dirsKept.space⟩, ?_, fun m flag => ?_⟩
    · rw [step.curDir]
      exact dirsKept.space.root
    · rw [step.dirty] at flag
      cases flag
  have mapped : Mapped s' g dirs := by
    refine ⟨ok, dirsKept.space, dirsKept.backed shown.backed, fun n dir => ?_, fun n dir => ?_⟩
    · exact shown.names n ((dirsKept.isDir n).mp dir)
    · exact shown.distinct n ((dirsKept.isDir n).mp dir)
  obtain ⟨shown', nodes⟩ := shown.quiet mapped quiet
  exact ⟨shown', FileTree.ext nodes step.curDir⟩

/-- Commands that have been run, with what they have returned, and restarts of the program. -/
inductive Traced (start : Session) : List FileTree.Event → Session → Prop
  | start : Traced start [] start
  | command {events : List FileTree.Event} {s s' : Session} {c : Command} {ret : Int}
      (run : Traced start events s) (small : c.Small) (ran : s.handleCommand c = .ok (ret, s'))
      (unfailed : s'.fs.sb.allocFailed = false) : Traced start (events ++ [.command c ret]) s'
  | restart {events : List FileTree.Event} {s s' : Session} {dev : Device}
      (run : Traced start events s) (ended : s.shutdown = .ok dev)
      (begun : testfsStart dev = .ok s') : Traced start (events ++ [.restart]) s'

theorem Started.shown {maxFsBlocks : Nat} {s : Session} (started : Started maxFsBlocks s) :
    Shown s (Function.update (fun _ _ => none) 0 (newNames 0 0)) rootOnly ∧
      s.tree = FileTree.new := by
  have mapped := started.mapped
  have root : ∀ n, s.fs.sb.InodeAllocated n → s.fs.IsDir n := by
    intro n held
    rw [(started.inodes n).mp held]
    exact started.space.root
  refine ⟨⟨mapped, fun n held file => absurd (root n held) file⟩, FileTree.ext ?_ started.curDir⟩
  funext n
  change s.fs.node n = if n = 0 then some (.dir (newNames 0 0)) else none
  by_cases zero : n = 0
  · rw [if_pos zero, zero, mapped.node_dir started.space.root, Function.update_self]
  · rw [if_neg zero, State.node_free fun held => zero ((started.inodes n).mp held)]

theorem Fresh.silent {fsSizeMb : Nat} {s : Session} (fresh : Fresh fsSizeMb s) :
    s.fs.stdout = [] := by
  have walk : Sat (mktestfs fsSizeMb >>= testfsStart) (fun s =>
      s.fs.stdout = []) fun _ => True := by
    apply Sat.bind (sat_true _)
    intro dev _
    unfold testfsStart
    apply Sat.bind (sat_true _)
    intro sb _
    apply Sat.bind (testfsGetInode_silent _ 0)
    exact fun fs same => same
  exact walk.of_ok fresh

/-- `testfs` on a new file system is a tree of files: as long as no block allocation fails, what a
run of commands and restarts returns and prints is what the same commands and restarts return and
print on the tree. -/
theorem run_file_tree (fsSizeMb : Nat) (start s : Session) (events : List FileTree.Event)
    (fresh : Fresh fsSizeMb start) (run : Traced start events s) :
    FileTree.Runs events s.tree s.fs.stdout := by
  have all : FileTree.Runs events s.tree s.fs.stdout ∧ s.fs.sb.allocFailed = false ∧
      ∃ g dirs, Shown s g dirs := by
    induction run with
    | start =>
        obtain ⟨shown, new⟩ := fresh.started.shown
        rw [new, fresh.silent]
        exact ⟨.new, fresh.started.ghost, _, _, shown⟩
    | command _ small ran unfailed ih =>
        obtain ⟨runs, _, g, dirs, shown⟩ := ih
        obtain ⟨g', dirs', shown', step⟩ := shown.simulates ran unfailed small
        exact ⟨runs.command step, unfailed, g', dirs', shown'⟩
    | restart _ ended begun ih =>
        obtain ⟨runs, unfailed, g, dirs, shown⟩ := ih
        have restarted := shown.ok.restarts unfailed ended begun
        obtain ⟨shown', tree⟩ := shown.restarts restarted
        rw [tree, restarted.stdout]
        exact ⟨runs.restart, restarted.quiet.ghost.trans unfailed, g, dirs, shown'⟩
  exact all.1

/-- The file "a" is made and written to, and the program restarted. -/
theorem run_file_tree_write : ∃ start s events, Fresh 1 start ∧ Traced start events s ∧
    events.length = 3 ∧ FileTree.Runs events s.tree s.fs.stdout := by
  have ends : Returns (mktestfs 1 >>= testfsStart) fun s =>
      Returns (s.handleCommand (.create [nameA])) fun r => r.2.fs.sb.allocFailed = false ∧
      Returns (r.2.handleCommand (.write [nameA, argZero, nameB])) fun r =>
        r.2.fs.sb.allocFailed = false ∧ Returns r.2.shutdown fun dev =>
          Returns (testfsStart dev) fun _ => True := by
    decide +kernel
  obtain ⟨start, fresh, ⟨ret₁, s₁⟩, ran₁, unfailed₁, ⟨ret₂, s₂⟩, ran₂, unfailed₂, dev, ended, s₃,
    begun, _⟩ := ends
  have small₁ : (Command.create [nameA]).Small := by
    intro arg member
    rw [List.mem_singleton.mp member]
    decide
  have small₂ : (Command.write [nameA, argZero, nameB]).Small := by
    intro arg member
    simp only [List.mem_cons, List.not_mem_nil, or_false] at member
    rcases member with rfl | rfl | rfl <;> decide
  have traced := ((Traced.start.command small₁ ran₁ unfailed₁).command small₂ ran₂
    unfailed₂).restart ended begun
  exact ⟨start, s₃, _, fresh, traced, rfl, run_file_tree 1 start s₃ _ fresh traced⟩

end Ece344Lab.Fs
