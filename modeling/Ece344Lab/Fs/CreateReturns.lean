import Ece344Lab.Fs.AllOrNothing
import Ece344Lab.Fs.ExistingName

set_option autoImplicit false

/- The creation of a file comes to its end. -/
namespace Ece344Lab.Fs

open Outcome Ownership

variable {s s' : State} {n p : Nat} {name : List Byte} {inodeNr : Nat} {es : List Dirent}

/-- A record can be written at every place that is an `int`. -/
theorem testfsAddDirent_returns (intact : Intact s) (dir : DirOk s n es) (readable : s.Readable n)
    (room : name.length + 1 < 2 ^ 31) (small : direntsSize es < 2 ^ 31) :
    ∃ r, testfsAddDirent s n name inodeNr = .ok r := by
  rw [testfsAddDirent_eq intact dir readable]
  split
  · exact ⟨_, rfl⟩
  · have place := direntPlace_le name es
    have inside : direntPlace name es / 8192 < 4196362 := by omega
    rw [testfsWriteDirent_room _ room, toInt32_small _ (by omega)]
    have wrote := onInode_write_sat s n (newDirent name inodeNr).bytes (direntPlace name es) intact
      dir.allocated inside
    obtain ⟨r, ran, _⟩ := wrote.exists_of fun e stop => stop readable
    exact ⟨r, ran⟩

/-- The record of a new name goes to the end, and there are not enough blocks for it. -/
def LacksBlocks (s : State) (n : Nat) (name : List Byte) (es : List Dirent) : Prop :=
  es.find? (addDirentTest name) = none ∧ s.sb.free < s.entryNeed n name es

/-- The record of a new name goes to the end and gets its blocks, but its length is misread. -/
def Misread (s : State) (n : Nat) (name : List Byte) (es : List Dirent) : Prop :=
  es.find? (addDirentTest name) = none ∧ s.entryNeed n name es ≤ s.sb.free ∧ Giant name

/-- What is returned in these two cases. -/
structure Refuses (s : State) (n : Nat) (name : List Byte) (es : List Dirent) (r : Int × State) :
    Prop where
  lacking : LacksBlocks s n name es → r.1 < 0
  misread : Misread s n name es → r.1 < 0 ∧ r.2.sb.allocFailed = s.sb.allocFailed

/-- What has been written before the directory is synchronised keeps the invariant. -/
theorem AddOutcome.rewritten {r : Int × State} (outcome : AddOutcome n name inodeNr es s r)
    (intact : Intact s) (sound : ¬ EntryStrands s s.sb.free n name es) : Rewritten n s r.2 := by
  cases outcome with
  | refused _ same _ => exact same ▸ .refl intact n
  | inserted _ _ done => exact done.rewritten
  | failed _ failed => exact failed.rewritten
  | stranded _ strands _ => exact absurd strands sound

theorem AddOutcome.refuses {r : Int × State} (outcome : AddOutcome n name inodeNr es s r)
    (sound : ¬ EntryStrands s s.sb.free n name es) : Refuses s n name es r := by
  cases outcome with
  | refused negative same _ => exact ⟨fun _ => negative, fun _ => ⟨negative, by rw [same]⟩⟩
  | inserted _ _ done =>
      refine ⟨fun lacks => ?_, fun misread => absurd misread.2.2 done.small⟩
      have spent := (done.free lacks.1).2
      have short := lacks.2
      omega
  | failed negative failed =>
      refine ⟨fun _ => negative, fun misread => ⟨negative, ?_⟩⟩
      cases failed.reason with
      | inl starved =>
          have short := starved.short
          change s.sb.free < s.entryNeed n name es at short
          exact absurd misread.2.1 (Nat.not_le.mpr short)
      | inr giant => exact giant.2.2
  | stranded _ strands _ => exact absurd strands sound

theorem createEntry_returns (intact : Intact s) (dir : DirOk s n es) (readable : s.Readable n)
    (noNul : ∀ b ∈ name, b ≠ 0) (room : name.length + 1 < 2 ^ 31) (small : direntsSize es < 2 ^ 31)
    (sound : ¬ EntryStrands s s.sb.free n name es) :
    ∃ r, createEntry s (some n) name inodeNr = .ok r ∧ Rewritten n s r.2 ∧
      Refuses s n name es r := by
  have returns : ∃ r, testfsAddDirent s n name inodeNr = .ok r :=
    testfsAddDirent_returns intact dir readable room small
  obtain ⟨⟨ret, s'⟩, ran⟩ := returns
  have outcome := (testfsAddDirent_sat s n name inodeNr es intact dir noNul).of_ok ran
  have rewritten : Rewritten n s s' := outcome.rewritten intact sound
  have refuses := outcome.refuses sound
  have held : 0 < s'.refs n := by
    rw [rewritten.refs]
    exact readable.inTable
  unfold createEntry
  dsimp only
  rw [ran, ok_bind]
  dsimp only
  split
  · exact ⟨_, rfl, rewritten, refuses⟩
  · rename_i nonneg
    obtain ⟨s'', synced, sync⟩ := testfsSyncInode_quiet s' rewritten.intact.consistent
      rewritten.intact.table n held
    rw [synced, ok_bind]
    exact ⟨_, rfl, rewritten.trans (sync.rewritten rewritten.intact dir.allocated.1),
      fun lacks => absurd (refuses.lacking lacks) nonneg,
      fun misread => absurd (refuses.misread misread).1 nonneg⟩

/-- An inode without blocks can be removed. -/
theorem State.Erasable.of_empty {type : InodeType} (held : 0 < s.refs n)
    (view : s.view n = { Dinode.zero with iType := type.code }) : s.Erasable n := by
  have null : ∀ slot, ptr s.sb.dev (s.view n) slot = 0 := by
    intro slot
    rw [view, ptr_iType, ptr_zero]
  refine ⟨held, fun slot nonzero => absurd (null slot) nonzero,
    ⟨fun log _ nonzero => absurd (null _) nonzero, fun nonzero => ?_⟩, ?_⟩
  · rw [view] at nonzero
    exact absurd rfl nonzero
  · rw [view]
    change Dinode.zero.endBlock < 2 ^ 31
    decide

/-- The name of a new file is entered or not, but `testfs_add_dirent` returns. -/
theorem Created.enters_returns {s₁ : State} (created : Created n .file s s₁) (intact : Intact s)
    (dir : DirOk s p es) (held : 0 < s.refs p) (backed : Backed s) (noNul : ∀ b ∈ name, b ≠ 0)
    (room : name.length + 1 < 2 ^ 31) (small : direntsSize es < 2 ^ 31)
    (sound : ¬ EntryStrands s s.sb.free p name es) :
    ∃ ret s₂, createEntry s₁ (some p) name n = .ok (ret, s₂) ∧ Rewritten p s₁ s₂ ∧
      (LacksBlocks s p name es → ret < 0) ∧
      (Misread s p name es → ret < 0 ∧ s₂.sb.allocFailed = s.sb.allocFailed) := by
  have intact₁ := created.intact
  have other : p ≠ n := fun equal => created.fresh (equal ▸ dir.allocated)
  obtain ⟨same, dir₁⟩ := created.parent (.refl intact₁ n) dir
  have refs := created.refs
  have held₁ : 0 < s₁.refs p := by
    rw [refs, Function.update_of_ne other]
    exact held
  have sound₁ : ¬ EntryStrands s₁ s₁.sb.free p name es := by
    intro strands
    have strands' := strands.strands
    unfold StrandsAt at strands'
    rw [same.view, created.free] at strands'
    exact sound ⟨room, strands.absent, strands'⟩
  have stored₁ := (created.backed intact.owns backed).stored intact₁.owns dir₁.allocated
  have returns : ∃ r, createEntry s₁ (some p) name n = .ok r ∧ Rewritten p s₁ r.2 ∧
      Refuses s₁ p name es r :=
    createEntry_returns intact₁ dir₁ ⟨held₁, stored₁⟩ noNul room small sound₁
  obtain ⟨⟨ret, s₂⟩, entered, rewritten, refuses⟩ := returns
  have need₁ : s₁.entryNeed p name es = s.entryNeed p name es :=
    need_eq dir.allocated dir₁.allocated same.slots _ _
  refine ⟨ret, s₂, entered, rewritten, fun lacks => ?_, fun misread => ?_⟩
  · unfold LacksBlocks at lacks
    rw [← need₁, ← created.free] at lacks
    exact refuses.lacking lacks
  · unfold Misread at misread
    rw [← need₁, ← created.free] at misread
    rw [← created.ghost]
    exact refuses.misread misread

/-- A file is created or not, but `testfs_create_file_or_dir` returns. -/
theorem testfsCreateFile_returns (intact : Intact s) (dir : DirOk s p es) (held : 0 < s.refs p)
    (backed : Backed s) (noNul : ∀ b ∈ name, b ≠ 0) (room : name.length + 1 < 2 ^ 31)
    (small : direntsSize es < 2 ^ 31) (sound : ¬ EntryStrands s s.sb.free p name es) :
    ∃ r, testfsCreateFileOrDir s (some p) .file name = .ok r ∧ Refuses s p name es r := by
  obtain ⟨inode, _, read, view, _⟩ := intact.table.inode_eq held
  have stored := backed.stored intact.owns dir.allocated
  have listing := dir.listing
  rw [← view] at stored listing
  obtain ⟨⟨ret, n, s₁⟩, made, spec⟩ := (testfsCreateInode_sat s .file intact).exists_ok
  unfold testfsCreateFileOrDir createLookup
  dsimp only
  rw [read, ok_bind, listing.lookup stored, ok_bind]
  have taken : -eEXIST < 0 := by decide
  split
  · exact ⟨_, rfl, fun _ => taken, fun _ => ⟨taken, rfl⟩⟩
  · rw [made, ok_bind]
    dsimp only
    cases spec with
    | inl full =>
        obtain ⟨negative, _, same⟩ := full
        rw [if_pos negative]
        exact ⟨_, rfl, fun _ => negative, fun _ => ⟨negative, congrArg (·.sb.allocFailed) same⟩⟩
    | inr both =>
        obtain ⟨zero, created⟩ := both
        change ret = 0 at zero
        change Created n .file s s₁ at created
        have other : p ≠ n := fun equal => created.fresh (equal ▸ dir.allocated)
        obtain ⟨ret₂, s₂, entered, rewritten, lacking, misread⟩ :=
          created.enters_returns intact dir held backed noNul room small sound
        have allocated₁ := (created.inodes n).mpr (Or.inr rfl)
        have allocated₂ := (rewritten.inodes n).mpr allocated₁
        have held₂ : 0 < s₂.refs n := by
          rw [rewritten.refs, created.refs, Function.update_self]
          exact Nat.succ_pos _
        have view₂ : s₂.view n = { Dinode.zero with iType := InodeType.file.code } :=
          (rewritten.others n allocated₁ other.symm).view.trans created.view
        have file : createContents s₁ (some p) .file n = .ok (0, s₁) := rfl
        rw [zero, if_neg (Int.lt_irrefl 0), file, ok_bind]
        dsimp only
        rw [if_neg (Int.lt_irrefl 0), entered, ok_bind]
        dsimp only
        split
        · rename_i negative
          have removes := testfsRemoveInode_spec s₂ n rewritten.intact allocated₂
          obtain ⟨s₃, ran, removed⟩ := removes.exists_of fun _ stop => stop (.of_empty held₂ view₂)
          rw [ran, ok_bind]
          exact ⟨_, rfl, lacking, fun giant => ⟨negative, removed.ghost.trans (misread giant).2⟩⟩
        · rename_i nonneg
          have intact₂ := rewritten.intact
          obtain ⟨s₃, s₄, synced, put, _⟩ :=
            written_back s₂ intact₂.consistent intact₂.table n held₂
          rw [synced, ok_bind, put, ok_bind]
          exact ⟨_, rfl, fun lacks => absurd (lacking lacks) nonneg,
            fun giant => absurd (misread giant).1 nonneg⟩

/-- On a new file system a creation that lacks blocks, or whose record is misread, fails and leaves
the root directory dirty. -/
theorem Started.create_soils {maxFsBlocks : Nat} {start : Session}
    (started : Started maxFsBlocks start) (several : 13 ≤ maxFsBlocks) (long : 2 < name.length)
    (room : name.length + 1 < 2 ^ 31) (noNul : ∀ b ∈ name, b ≠ 0)
    (fits : start.fs.entryNeed 0 name (emptyDir 0 0) ≤ start.fs.sb.free → Giant name) :
    Returns (testfsCreateFileOrDir start.fs (some 0) .file name) fun r =>
      r.1 < 0 ∧ r.2.dirty 0 = true ∧
        (start.fs.entryNeed 0 name (emptyDir 0 0) ≤ start.fs.sb.free →
          r.2.sb.allocFailed = false) := by
  have free := started.free
  have intact := started.space.intact
  have dir : DirOk start.fs 0 (emptyDir 0 0) := started.space.listed 0 started.space.root
  have absent : (emptyDir 0 0).find? (addDirentTest name) = none := by
    have short : ∀ d ∈ emptyDir 0 0, d.live = true ∧ (cString d.name).length ≤ 2 := by decide
    rw [List.find?_eq_none]
    intro d member passes
    obtain ⟨live, few⟩ := short d member
    rw [addDirentTest_live live] at passes
    rw [of_decide_eq_true passes] at few
    omega
  have held : 0 < start.fs.refs 0 := by
    rw [started.refs, Function.update_self]
    exact Nat.zero_lt_one
  have sound : ¬ EntryStrands start.fs start.fs.sb.free 0 name (emptyDir 0 0) := by
    intro strands
    have all : holes (start.fs.view 0) (direntsSize (emptyDir 0 0) / 8192) ≤ 10 :=
      (Finset.card_filter_le _ _).trans_eq (Finset.card_fin 10)
    have last := strands.strands.free
    omega
  have small : direntsSize (emptyDir 0 0) < 2 ^ 31 := by decide
  obtain ⟨⟨ret, fs⟩, ran, refuses⟩ := testfsCreateFile_returns intact dir held started.backed noNul
    room small sound
  have negative : ret < 0 := by
    by_cases enough : start.fs.entryNeed 0 name (emptyDir 0 0) ≤ start.fs.sb.free
    · exact (refuses.misread ⟨absent, enough, fits enough⟩).1
    · exact refuses.lacking ⟨absent, Nat.not_le.mp enough⟩
  have halfway : Halfway start.fs 0 name .file (emptyDir 0 0) := by
    have unused : ¬ start.fs.sb.InodeAllocated 1 := by
      rw [started.inodes]
      exact Nat.one_ne_zero
    refine ⟨⟨1, by decide, unused⟩, Nat.zero_le _, absent, room, ?_⟩
    change 1 ≤ start.fs.sb.free ∧ start.fs.sb.free < _ ∨ _ ∧ _ ≤ start.fs.sb.free
    by_cases enough : start.fs.entryNeed 0 name (emptyDir 0 0) ≤ start.fs.sb.free
    · exact Or.inr ⟨fits enough, enough⟩
    · exact Or.inl ⟨by omega, Nat.not_le.mp enough⟩
  refine ⟨_, ran, negative, ?_, fun enough => ?_⟩
  · have outcome := (testfsCreateFileOrDir_fails start.fs 0 .file name _ intact dir noNul
      fun m _ => started.dirty m).of_ok ran negative
    cases outcome with
    | inl gaveUp => exact absurd halfway gaveUp.2
    | inr soiled => exact soiled.1
  · exact (refuses.misread ⟨absent, enough, fits enough⟩).2.trans started.ghost

end Ece344Lab.Fs
