import Ece344Lab.Fs.Persistence

set_option autoImplicit false

/- The references on inodes. -/
namespace Ece344Lab.Fs

open Outcome Ownership Keyed

/-- The inode table holds the current directory once, clean, and nothing else. -/
def OnlyCurDir (s : Session) : Prop :=
  ∃ inode, s.fs.inodes = [inode] ∧ inode.iNr = s.curDir ∧ inode.iCount = 1 ∧ inode.dirty = false

theorem TableOk.only {s : State} (table : TableOk s) (n : Nat)
    (refs : ∀ m, s.refs m = if m = n then 1 else 0) (clean : s.dirty n = false) :
    ∃ inode, s.inodes = [inode] ∧ inode.iNr = n ∧ inode.iCount = 1 ∧ inode.dirty = false := by
  have here : s.refs n = 1 := by rw [refs, if_pos rfl]
  obtain ⟨inode, found, _, _, flag, number, count⟩ := table.inode_eq (n := n) (by omega)
  have all : ∀ other ∈ s.inodes, other = inode := by
    intro other member
    have found' := table.find_of_mem member
    have held := table.counted _ _ found'
    have same : other.iNr = n := by
      by_contra different
      have none := refs other.iNr
      rw [if_neg different] at none
      unfold State.refs at none
      rw [found'] at none
      change other.iCount = 0 at none
      omega
    rw [same, found] at found'
    exact (Option.some.inj found').symm
  have member : inode ∈ s.inodes := lookup_mem found
  refine ⟨inode, ?_, number, count.trans here, flag.trans clean⟩
  have distinct := table.distinct
  cases list : s.inodes with
  | nil =>
      rw [list] at member
      cases member
  | cons first rest =>
      rw [list] at all distinct
      rw [all first List.mem_cons_self]
      cases rest with
      | nil => rfl
      | cons second _ =>
          have first' := all first List.mem_cons_self
          have second' := all second (List.mem_cons_of_mem _ List.mem_cons_self)
          rw [first', second'] at distinct
          exact absurd List.mem_cons_self (List.nodup_cons.mp distinct).1

/-- The assertions at the end of `main` hold. -/
theorem OnlyCurDir.shutdown {s : Session} (only : OnlyCurDir s) : ∃ dev, s.shutdown = .ok dev := by
  obtain ⟨inode, table, number, count, clean⟩ := only
  have read : s.fs.inode s.curDir = .ok inode := by
    unfold State.inode inodeHashFind
    rw [table]
    simp [number]
  have gone : inodeHashRemove s.fs.inodes s.curDir = [] := by
    unfold inodeHashRemove
    rw [table]
    simp [number]
  have put : testfsPutInode s.fs s.curDir = .ok { s.fs with inodes := [] } := by
    unfold testfsPutInode
    rw [read, ok_bind, cAssert_pos clean, ok_bind, if_pos (by omega), gone]
  unfold Session.shutdown
  rw [put, ok_bind, cAssert_pos rfl]
  exact ⟨_, rfl⟩

/-- The commands after which a reference or a dirty flag can stay behind. -/
structure Leaves (s : Session) (c : Command) : Prop where
  leaves : s.ListsFile c ∨ s.Strands c ∨ s.Creates CreateMiscounts c ∨ s.Creates CreateStarves c

/-- As long as no command leaves a reference or a flag behind, the inode table holds the current
directory only. -/
theorem run_only_curDir (fsSizeMb : Nat) (start s : Session) (fresh : Fresh fsSizeMb start)
    (run : Run (fun s c _ => ¬ Leaves s c) start s) :
    OnlyCurDir s ∧ ∃ dev, s.shutdown = .ok dev := by
  have started := fresh.started
  have balanced : s.Ok ∧ (∀ n, s.fs.dirty n = false) ∧
      ∀ m, s.fs.refs m = if m = s.curDir then 1 else 0 := by
    refine run.invariant (I := fun s => s.Ok ∧ (∀ n, s.fs.dirty n = false) ∧
      ∀ m, s.fs.refs m = if m = s.curDir then 1 else 0) ⟨started.ok, started.dirty, ?_⟩ ?_
    · intro m
      rw [started.refs, started.curDir, Function.update_apply]
    · intro s s' c ret before ran allows
      obtain ⟨ok, clean, refs⟩ := before
      cases (ok.handleCommand c).of_ok ran with
      | inl stepped =>
          refine ⟨stepped.ok, fun n => Bool.eq_false_iff.mpr fun flag => ?_, ?_⟩
          · rcases stepped.soils n flag with before | miscounts | starves
            · rw [clean] at before
              cases before
            · exact allows ⟨Or.inr (Or.inr (Or.inl miscounts))⟩
            · exact allows ⟨Or.inr (Or.inr (Or.inr starves.2))⟩
          · intro m
            cases stepped.balance with
            | inl lists => exact absurd ⟨Or.inl lists⟩ allows
            | inr balance =>
                have sum := balance m
                change s'.fs.refs m + _ = s.fs.refs m + (if m = s'.curDir then 1 else 0) at sum
                rw [refs] at sum
                omega
      | inr stranded => exact absurd ⟨Or.inr (Or.inl stranded.1)⟩ allows
  obtain ⟨ok, clean, refs⟩ := balanced
  obtain ⟨_, space⟩ := ok.space
  have only : OnlyCurDir s := space.intact.table.only s.curDir refs (clean _)
  exact ⟨only, only.shutdown⟩

theorem run_only_curDir_create : ∃ start s, Fresh 1 start ∧
    start.handleCommand (.create [nameA]) = .ok (0, s) ∧ OnlyCurDir s ∧
    ∃ dev, s.shutdown = .ok dev := by
  obtain ⟨start, s, fresh, ran, _⟩ := create_run
  have safe : ¬ Leaves start (.create [nameA]) := by
    obtain ⟨strands, counted, fed⟩ := fresh.started.create (by decide)
    intro leaves
    rcases leaves.leaves with lists | strand | miscounts | starves
    · exact lists
    · exact strands strand
    · exact counted miscounts
    · exact fed starves
  exact ⟨start, s, fresh, ran, run_only_curDir 1 start s fresh (.command .start ran safe)⟩

/-- Listing a file keeps a reference on it. -/
theorem ls_file_leaks : ∃ start s, Fresh 1 start ∧ Run (fun _ _ _ => True) start s ∧
    ¬ OnlyCurDir s := by
  have leaks : Returns (mktestfs 1 >>= testfsStart >>=
      Session.script [.create [nameA], .ls [nameA]]) fun s => s.fs.inodes.length = 2 := by
    decide +kernel
  obtain ⟨start, s, fresh, run, two⟩ := Run.of_script leaks
  refine ⟨start, s, fresh, run, fun only => ?_⟩
  obtain ⟨inode, one, _⟩ := only
  rw [one] at two
  cases two

end Ece344Lab.Fs
