import Ece344Lab.Fs.CreateReturns

set_option autoImplicit false

/- Memory against the device. -/
namespace Ece344Lab.Fs

open Outcome Ownership Keyed

/-- Memory and device agree, and mounting the device anew shows the same file system. -/
structure Persistent (s : State) : Prop where
  single : (s.inodes.map Inode.iNr).Nodup
  clean : ∀ inode ∈ s.inodes, inode.dirty = false ∧
    inode.dinode = diskInode s.sb.dev inode.iNr
  super : s.sb.dev.block 0 = s.sb.sb.block
  inodeFreemap : ∀ nr < inodeFreemapSize,
    s.sb.dev.block (s.sb.sb.inodeFreemapStart + nr) = freemapPage s.sb.inodeFreemap nr
  blockFreemap : ∀ nr < blockFreemapSize,
    s.sb.dev.block (s.sb.sb.blockFreemapStart + nr) = freemapPage s.sb.blockFreemap nr
  remounted : testfsInitSuperBlock s.sb.dev = .ok s.sb
  views : ∀ n < nrInodeBlocks * inodesPerBlock, (State.initial s.sb).view n = s.view n

theorem TableOk.find_of_mem {s : State} (table : TableOk s) {inode : Inode}
    (member : inode ∈ s.inodes) : inodeHashFind s.inodes inode.iNr = some inode :=
  lookup_of_mem table.distinct member

theorem Intact.persistent {s : State} (intact : Intact s) (clean : ∀ n, s.dirty n = false)
    (unfailed : s.sb.allocFailed = false) : Persistent s := by
  have consistent := intact.consistent
  have table := intact.table
  refine ⟨table.distinct, ?_, consistent.superOnDisk, ?_, ?_, ?_, ?_⟩
  · intro inode member
    have found := table.find_of_mem member
    have flag := clean inode.iNr
    unfold State.dirty at flag
    rw [found] at flag
    exact ⟨flag, table.clean _ _ found flag⟩
  · intro nr below
    obtain rfl : nr = 0 := Nat.lt_one_iff.mp below
    rw [consistent.layout.inodeFreemap]
    exact consistent.inodesOnDisk
  · rw [consistent.layout.blockFreemap]
    exact consistent.blocksOnDisk
  · rw [consistent.remount, ← unfailed]
  · exact fun n _ => (table.not_dirty (clean n)).symm

/-- As long as no block allocation fails and no new entry is miscounted, the device has everything
that memory has. -/
theorem run_persistent (fsSizeMb : Nat) (start s : Session) (fresh : Fresh fsSizeMb start)
    (run : Run (fun s c s' => s'.fs.sb.allocFailed = false ∧ ¬ s.Creates CreateMiscounts c)
      start s) : Persistent s.fs := by
  have started := fresh.started
  have clean : s.Ok ∧ (∀ n, s.fs.dirty n = false) ∧ s.fs.sb.allocFailed = false := by
    apply run.invariant (I := fun s => s.Ok ∧ (∀ n, s.fs.dirty n = false) ∧
      s.fs.sb.allocFailed = false) ⟨started.ok, started.dirty, started.ghost⟩
    intro s s' c ret before ran allows
    obtain ⟨ok, clean, _⟩ := before
    obtain ⟨unfailed, counted⟩ := allows
    cases (ok.handleCommand c).of_ok ran with
    | inl stepped =>
        refine ⟨stepped.ok, fun n => Bool.eq_false_iff.mpr fun flag => ?_, unfailed⟩
        rcases stepped.soils n flag with before | miscounts | starves
        · rw [clean] at before
          cases before
        · exact counted miscounts
        · have failed := starves.1
          rw [unfailed] at failed
          cases failed
    | inr stranded =>
        have failed := stranded.2
        rw [unfailed] at failed
        cases failed
  obtain ⟨ok, flags, unfailed⟩ := clean
  obtain ⟨_, space⟩ := ok.space
  exact space.intact.persistent flags unfailed

theorem run_persistent_create : ∃ start s, Fresh 1 start ∧
    start.handleCommand (.create [nameA]) = .ok (0, s) ∧ Persistent s.fs := by
  obtain ⟨start, s, fresh, ran, unfailed⟩ := create_run
  have counted := (fresh.started.create (by decide)).2.1
  exact ⟨start, s, fresh, ran,
    run_persistent 1 start s fresh (.command .start ran ⟨unfailed, counted⟩)⟩

/-- No block takes more than three slots. -/
theorem missing_le (dev : Device) (d : Dinode) (first last : Nat) :
    missing dev d first last ≤ 3 * (last + 1 - first) := by
  have few : ∀ log ∈ List.range' first (last + 1 - first),
      (if log < 4196362 then path (leaf log) else []).length ≤ 3 := by
    intro log _
    split
    · exact length_path _
    · exact Nat.zero_le _
  have slots : (spanSlots first last).card ≤ 3 * (last + 1 - first) := by
    apply (List.toFinset_card_le _).trans
    rw [List.length_flatMap, Nat.mul_comm]
    apply (List.sum_le_card_nsmul _ 3 ?_).trans_eq
    · rw [List.length_map, List.length_range', smul_eq_mul]
    · intro size member
      obtain ⟨log, inside, same⟩ := List.mem_map.mp member
      exact same ▸ few log inside
  exact (Finset.card_filter_le _ _).trans slots

/-- A file whose record is 2^31 bytes long: no allocation fails, but the length of the record is
taken for an error, and the root directory stays dirty. -/
theorem create_soils_root : ∃ start s ret name, Fresh 8192 start ∧
    start.handleCommand (.create [name]) = .ok (ret, s) ∧ s.fs.sb.allocFailed = false ∧
    ¬ Persistent s.fs := by
  have made : Returns (mktestfs 8192 >>= testfsStart) fun _ => True := by
    decide +kernel
  obtain ⟨start, fresh, _⟩ := made
  have started := (show Fresh 8192 start from fresh).started
  have free : start.fs.sb.free = 1048575 := Nat.succ.inj started.free
  obtain ⟨bytes, same⟩ : ∃ bytes : List Byte, bytes = List.replicate (2 ^ 31 - 9) 97 := ⟨_, rfl⟩
  have length : bytes.length = 2 ^ 31 - 9 := by rw [same, List.length_replicate]
  have noNul : ∀ b ∈ bytes, b ≠ 0 := by
    intro b member
    rw [same] at member
    rw [List.eq_of_mem_replicate member]
    decide
  have nonempty : bytes ≠ [] := List.ne_nil_of_length_pos (by omega)
  have giant : Giant bytes := by
    unfold Giant
    omega
  have enough : start.fs.entryNeed 0 bytes (emptyDir 0 0) ≤ start.fs.sb.free := by
    have size : direntsSize (emptyDir 0 0) = 21 := by decide
    apply (missing_le _ _ _ _).trans
    rw [size, free]
    unfold lastBlock
    omega
  obtain ⟨r, ran, negative, soiled, unfailed⟩ := started.create_soils (by decide) (by omega)
    (by omega) noNul fun _ => giant
  have command : start.handleCommand (.create [⟨bytes, nonempty, noNul⟩]) =
      .ok (r.1, { start with fs := r.2 }) := by
    change testfsCreateFileOrDir start.fs (some start.curDir) .file bytes >>= _ = _
    rw [started.curDir, ran]
    rfl
  refine ⟨start, _, _, _, fresh, command, unfailed enough, fun persistent => ?_⟩
  unfold State.dirty at soiled
  cases found : inodeHashFind r.2.inodes 0 with
  | none =>
      rw [found] at soiled
      cases soiled
  | some inode =>
      rw [found] at soiled
      change inode.dirty = true at soiled
      have clean := (persistent.clean inode (lookup_mem found)).1
      rw [soiled] at clean
      cases clean

end Ece344Lab.Fs
