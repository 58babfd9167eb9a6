import Ece344Lab.Fs.DirtyWrite
import Ece344Lab.Fs.FreeFile
import Ece344Lab.Fs.Runs

set_option autoImplicit false

/- A creation that fails: what is undone, and what is not. -/
namespace Ece344Lab.Fs

open Outcome Ownership

/-- Inode `p` is as it was as far as its size goes, and so are the others. -/
structure GaveUp (p : Nat) (s s' : State) : Prop where
  rewritten : Rewritten p s s'
  view : s'.view p = s.view p
  slots : s'.slots p = s.slots p
  content : ∀ q : Nat, (q : Int) < (s.view p).size →
    content s'.sb.dev (s'.view p) q = content s.sb.dev (s.view p) q
  dirty : s'.dirty p = s.dirty p

/-- The record of a new name at the end of directory `n` is written in part, or is written whole but
its length is misread. -/
structure EntryHalfway (s : State) (free n : Nat) (name : List Byte) (es : List Dirent) : Prop where
  absent : es.find? (addDirentTest name) = none
  room : name.length + 1 < 2 ^ 31
  stuck : 1 ≤ free ∧ free < s.entryNeed n name es ∨ Giant name ∧ s.entryNeed n name es ≤ free

theorem GaveUp.refl {s : State} (intact : Intact s) (p : Nat) : GaveUp p s s :=
  ⟨.refl intact p, rfl, rfl, fun _ _ => rfl, rfl⟩

section Write

variable {s : State} {n : Nat} {es : List Dirent}

/-- Without a free block no pointer changes. -/
theorem Extends.ptr_full {p : Slot → Prop} {sb sb' : SuperBlock} {inode inode' : Inode}
    (ext : Extends p sb inode sb' inode') (none : sb.free = 0) :
    ptr sb'.dev inode'.dinode = ptr sb.dev inode.dinode := by
  apply ext.grows.eq_of_held
  have spent := ext.spent
  omega

/-- A record that finds no free block leaves the directory as it was. -/
theorem Failed.gaveUp {inode : Inode} {buf : List Byte} {w : FileResult} (intact : Intact s)
    (dir : DirOk s n es) (read : s.inode n = .ok inode) (view : inode.dinode = s.view n)
    (dirty : inode.dirty = s.dirty n) (failed : Failed (direntsSize es) buf s.sb inode w)
    (none : s.sb.free = 0) : GaveUp n s ({ s with sb := w.sb }.update w.inode) := by
  have owned := owned_of_owns intact.owns dir.allocated
  rw [← view] at owned
  have ext := failed.ext intact.zeros
  have step := ext.onInode intact.table read owned
  have same := failed.idle none
  have rewritten := (dir.starved intact read view dirty failed).1
  have view' := (step.view_self dir.allocated.1).trans ((congrArg Inode.dinode same).trans view)
  refine ⟨rewritten, view', ?_, ?_, ?_⟩
  · have table := ext.ptr_full none
    rw [same, view] at table
    rw [State.slots_eq dir.allocated,
      State.slots_eq ((rewritten.inodes n).mpr dir.allocated), view']
    exact table
  · intro q below
    have small := dir.listing.small
    rw [dir.listing.size, Int.ofNat_lt] at below
    have kept :=
      failed.contents intact.zeros q (block_in_range q (below.trans small)) (Or.inl below)
    rw [same, view] at kept
    rw [view']
    exact kept
  · rw [step.table.dirty, Function.update_self, same, dirty]

theorem dirty_update {inode : Inode} {w : FileResult} (table : TableOk s)
    (read : s.inode n = .ok inode) (dirty : w.inode.DirtyAt inode.iNr) :
    ({ s with sb := w.sb }.update w.inode).dirty n = true := by
  obtain ⟨found, _, _, number, _⟩ := table.of_read read
  have here := find_update_same s.inodes w.inode n (dirty.number.trans number)
    (by rw [found]; exact Option.some_ne_none _)
  unfold State.dirty State.update
  rw [here]
  exact dirty.flag

/-- A record at the end: either there was no block for it, or the directory is dirty. -/
theorem append_marks (buf : List Byte) (intact : Intact s) (dir : DirOk s n es) :
    Sat (s.onInode n fun sb inode => testfsWriteData sb inode buf (direntsSize es : Nat))
      (fun r => s.sb.free = 0 ∧ 0 < s.need n (direntsSize es) buf.length ∧ GaveUp n s r.2 ∨
        r.2.dirty n = true ∧ (s.sb.free = 0 → s.need n (direntsSize es) buf.length = 0))
      (fun _ => True) := by
  unfold State.onInode
  cases read : s.inode n with
  | error e => trivial
  | ok inode =>
      obtain ⟨_, view, dirty, _⟩ := intact.table.of_read read
      have owned := owned_of_owns intact.owns dir.allocated
      rw [← view] at owned
      have inside := block_in_range (direntsSize es) dir.listing.small
      have outcome := (testfsWriteData_sat s.sb inode buf (direntsSize es) intact.consistent owned
        inside).anyStop
      apply Sat.bind (outcome.and (testfsWriteData_marks s.sb inode buf (direntsSize es)
        intact.consistent owned inside))
      intro w both
      obtain ⟨outcome, marks⟩ := both
      have spliced : Spliced (direntsSize es) buf s.sb inode w →
          ({ s with sb := w.sb }.update w.inode).dirty n = true ∧
            (s.sb.free = 0 → s.need n (direntsSize es) buf.length = 0) := by
        intro spliced
        have free := spliced.free
        refine ⟨dirty_update intact.table read ⟨spliced.dirty, spliced.ext.number⟩, fun none => ?_⟩
        unfold State.need
        rw [← view]
        omega
      cases outcome with
      | done done _ _ _ => exact Or.inr (spliced done)
      | tooBig done _ _ _ => exact Or.inr (spliced done)
      | failed failed =>
          have short := failed.short
          rw [view] at short
          change s.sb.free < s.need n (direntsSize es) buf.length at short
          by_cases none : s.sb.free = 0
          · exact Or.inl ⟨none, by omega, failed.gaveUp intact dir read view dirty none⟩
          · have marked := marks.resolve_right fun full => none full.2
            exact Or.inr ⟨dirty_update intact.table read marked, fun zero => absurd zero none⟩
      | stranded strands _ _ _ =>
          have some := (strands.short s.sb.dev (le_lastBlock _ _)).1
          have marked := marks.resolve_right fun full => by
            have none := full.2
            omega
          exact Or.inr ⟨dirty_update intact.table read marked, fun zero => by omega⟩

variable {name : List Byte} {inodeNr : Nat}

/-- `testfs_add_dirent` with a new name for which there is no freed record. -/
theorem testfsAddDirent_marks (intact : Intact s) (dir : DirOk s n es)
    (absent : es.find? (addDirentTest name) = none) :
    Sat (testfsAddDirent s n name inodeNr)
      (fun r => 2 ^ 31 ≤ name.length + 1 ∨
        s.sb.free = 0 ∧ 0 < s.entryNeed n name es ∧ GaveUp n s r.2 ∨
        r.2.dirty n = true ∧ (s.sb.free = 0 → s.entryNeed n name es = 0))
      (fun _ => True) := by
  have length : (newDirent name inodeNr).bytes.length = 8 + (name.length + 1) := by
    rw [Dirent.length_bytes, length_newDirent]
  unfold testfsAddDirent
  cases read : s.inode n with
  | error e => trivial
  | ok inode =>
      obtain ⟨_, view, _⟩ := intact.table.of_read read
      have listing := dir.listing
      rw [← view] at listing
      rw [ok_bind, cAssert_pos listing.kind, ok_bind]
      have search := (listing.first (addDirentTest name)).anyStop
      apply Sat.bind search
      intro r same
      rw [same, absent]
      dsimp only
      rw [takeWhile_of_find_none absent, cAssert_pos listing.size.symm, ok_bind]
      refine testfsWriteDirent_sat s n name inodeNr _ (fun long => Or.inl long) fun room => ?_
      by_cases start : direntsSize es < 2 ^ 31
      · have marks := append_marks (newDirent name inodeNr).bytes intact dir
        rw [length] at marks
        rw [toInt32_small _ start]
        exact marks.weaken fun r spec => Or.inr spec
      · have small := dir.listing.small
        obtain ⟨e, stopped⟩ := write_wrapped s n (newDirent name inodeNr).bytes (direntsSize es)
          (by omega) (by omega)
        rw [stopped]
        trivial

/-- How a new entry fails: nothing has happened, or the directory is dirty. -/
theorem testfsAddDirent_fails (intact : Intact s) (dir : DirOk s n es)
    (noNul : ∀ b ∈ name, b ≠ 0) :
    Sat (testfsAddDirent s n name inodeNr)
      (fun r => r.1 < 0 → GaveUp n s r.2 ∧ ¬ EntryHalfway s s.sb.free n name es ∨
        r.2.dirty n = true ∧ EntryHalfway s s.sb.free n name es)
      (fun _ => True) := by
  have outcome := testfsAddDirent_sat s n name inodeNr es intact dir noNul
  by_cases absent : es.find? (addDirentTest name) = none
  · apply (outcome.and (testfsAddDirent_marks intact dir absent)).weaken
    intro r both negative
    obtain ⟨outcome, marks⟩ := both
    cases outcome with
    | refused _ same reason =>
        rw [same]
        refine Or.inl ⟨.refl intact n, fun halfway => ?_⟩
        cases reason with
        | inl long => exact absurd halfway.room (Nat.not_lt.mpr long)
        | inr taken =>
            obtain ⟨d, member, live, named⟩ := taken
            have fails := List.find?_eq_none.mp absent d member
            unfold addDirentTest at fails
            rw [if_pos live] at fails
            exact fails named
    | inserted nonneg _ _ => omega
    | failed _ failed =>
        have room := failed.room
        rcases marks with long | ⟨none, needs, gaveUp⟩ | ⟨dirty, full⟩
        · omega
        · refine Or.inl ⟨gaveUp, fun halfway => ?_⟩
          rcases halfway.stuck with some | giant
          · omega
          · omega
        · refine Or.inr ⟨dirty, absent, room, ?_⟩
          cases failed.reason with
          | inl starved =>
              have short := starved.short
              change s.sb.free < s.entryNeed n name es at short
              refine Or.inl ⟨Nat.one_le_iff_ne_zero.mpr fun none => ?_, short⟩
              have needs := full none
              omega
          | inr giant => exact Or.inr ⟨giant.1, giant.2.1⟩
    | stranded _ strands _ =>
        have room := strands.room
        have short := Strands.short strands.strands s.sb.dev (le_lastBlock _ _)
        change 1 ≤ s.sb.free ∧ s.sb.free < s.entryNeed n name es at short
        rcases marks with long | ⟨none, _, _⟩ | ⟨dirty, _⟩
        · omega
        · omega
        · exact Or.inr ⟨dirty, absent, room, Or.inl short⟩
  · apply outcome.weaken
    intro r outcome negative
    refine Or.inl ⟨?_, fun halfway => absent halfway.absent⟩
    cases outcome with
    | refused _ same _ =>
        rw [same]
        exact .refl intact n
    | inserted nonneg _ _ => omega
    | failed _ failed => exact absurd failed.absent absent
    | stranded _ strands _ => exact absurd strands.absent absent

theorem createEntry_fails (intact : Intact s) (dir : DirOk s n es)
    (noNul : ∀ b ∈ name, b ≠ 0) :
    Sat (createEntry s (some n) name inodeNr)
      (fun r => r.1 < 0 → GaveUp n s r.2 ∧ ¬ EntryHalfway s s.sb.free n name es ∨
        r.2.dirty n = true ∧ EntryHalfway s s.sb.free n name es)
      (fun _ => True) := by
  unfold createEntry
  apply Sat.bind (testfsAddDirent_fails intact dir noNul)
  intro r fails
  obtain ⟨ret, s'⟩ := r
  change Sat (if ret < 0 then _ else _) _ _
  apply Sat.ite
  · exact fun _ => fails
  · intro _
    apply Sat.bind (sat_true _)
    intro s'' _ negative
    exact absurd negative (Int.lt_irrefl 0)

end Write

section Number

abbrev Numbered (k : Nat) (x : Except Halt (Inode × SuperBlock)) : Prop :=
  Sat x (fun r => r.1.iNr = k) fun _ => True

theorem Recounted.number {inode inode' : Inode} (same : Recounted inode inode') :
    inode'.iNr = inode.iNr := by
  obtain ⟨_, _, equal⟩ := same
  rw [equal]

theorem freeDirectBlocks_numbered (eBlockNr : Int) (sb : SuperBlock) (inode : Inode) :
    Numbered inode.iNr (freeDirectBlocks eBlockNr sb inode) := by
  unfold freeDirectBlocks
  apply sat_foldlM (I := fun _ r => r.1.iNr = inode.iNr) (List.finRange nrDirectBlocks) (inode, sb)
    ?_ rfl
  intro i rest r same
  apply Sat.ite
  · intro _
    apply Sat.bind (testfsFreeBlockFromInode_recounted r.2 r.1 _)
    exact fun r' same' => same'.number.trans same
  · exact fun _ => same

theorem freeIndirectBlocks_numbered (eBlockNr : Int) (sb : SuperBlock) (inode : Inode) :
    Numbered inode.iNr (freeIndirectBlocks eBlockNr sb inode) := by
  unfold freeIndirectBlocks
  apply Sat.ite
  · intro _
    apply Sat.bind (sat_true _)
    intro block _
    apply Sat.bind (freeEntries_recounted block _ sb inode)
    intro r same
    apply Sat.bind (testfsFreeBlockFromInode_recounted r.2 r.1 _)
    exact fun r' same' => (same.trans same').number
  · exact fun _ => rfl

theorem freeDindirectBlocks_numbered (eBlockNr : Int) (sb : SuperBlock) (inode : Inode) :
    Numbered inode.iNr (freeDindirectBlocks eBlockNr sb inode) := by
  unfold freeDindirectBlocks
  generalize List.range nrIndirectBlocks = indices
  apply Sat.ite
  · intro _
    apply Sat.bind (sat_true _)
    intro index _
    apply Sat.bind (Q := fun r => r.1.iNr = inode.iNr)
    · apply sat_foldlM (I := fun _ (r : Inode × SuperBlock) => r.1.iNr = inode.iNr) indices
        (inode, sb) ?_ rfl
      intro j rest r same
      apply Sat.ite
      · exact fun _ => same
      · intro _
        apply Sat.bind (sat_true _)
        intro entries _
        apply Sat.bind (freeEntries_recounted entries _ r.2 r.1)
        intro r' same'
        exact (testfsFreeBlockFromInode_recounted r'.2 r'.1 _).weaken
          fun r'' same'' => (same'.trans same'').number.trans same
    · intro r same
      apply Sat.bind (testfsFreeBlockFromInode_recounted r.2 r.1 _)
      exact fun r' same' => same'.number.trans same
  · exact fun _ => rfl

theorem testfsFreeBlocks_numbered (sb : SuperBlock) (inode : Inode) :
    Numbered inode.iNr (testfsFreeBlocks sb inode) := by
  unfold testfsFreeBlocks
  apply Sat.bind (freeDirectBlocks_numbered _ sb inode)
  intro r first
  apply Sat.bind (freeIndirectBlocks_numbered _ r.2 r.1)
  intro r' second
  apply Sat.bind (freeDindirectBlocks_numbered _ r'.2 r'.1)
  exact fun r'' third => third.trans (second.trans first)

theorem State.inode_number {s : State} {n : Nat} {inode : Inode} (read : s.inode n = .ok inode) :
    inode.iNr = n := by
  unfold State.inode at read
  cases found : inodeHashFind s.inodes n with
  | none =>
      rw [found] at read
      cases read
  | some other =>
      rw [found] at read
      cases read
      exact find_number found

theorem testfsSyncInode_frame (s : State) (n p : Nat) (other : p ≠ n) :
    Sat (testfsSyncInode s n)
      (fun s' => inodeHashFind s'.inodes p = inodeHashFind s.inodes p) (fun _ => True) := by
  unfold testfsSyncInode
  cases read : s.inode n with
  | error e => trivial
  | ok inode =>
      have number := State.inode_number read
      rw [ok_bind]
      apply Sat.ite
      · intro _
        apply Sat.bind (sat_true _)
        intro block _
        apply Sat.bind (sat_true _)
        intro sb _
        exact find_update_of_ne _ _ _ (number ▸ other)
      · exact fun _ => rfl

theorem testfsPutInode_frame (s : State) (n p : Nat) (other : p ≠ n) :
    Sat (testfsPutInode s n)
      (fun s' => inodeHashFind s'.inodes p = inodeHashFind s.inodes p) (fun _ => True) := by
  unfold testfsPutInode
  cases read : s.inode n with
  | error e => trivial
  | ok inode =>
      have number := State.inode_number read
      rw [ok_bind]
      apply Sat.bind (sat_true _)
      intro _ _
      apply Sat.ite
      · exact fun _ => Keyed.lookup_remove_of_ne s.inodes n p other
      · exact fun _ => find_update_of_ne _ _ _ (number ▸ other)

/-- The other inodes of the table stay as they are when one is removed, in any state. -/
theorem testfsRemoveInode_frame (s : State) (n p : Nat) (other : p ≠ n) :
    Sat (testfsRemoveInode s n)
      (fun s' => inodeHashFind s'.inodes p = inodeHashFind s.inodes p) (fun _ => True) := by
  unfold testfsRemoveInode
  cases read : s.inode n with
  | error e => trivial
  | ok inode =>
      have number := State.inode_number read
      rw [ok_bind]
      apply Sat.bind (testfsFreeBlocks_numbered s.sb inode)
      intro r same
      obtain ⟨inode', sb⟩ := r
      apply Sat.bind (sat_true _)
      intro _ _
      apply Sat.bind (sat_true _)
      intro sb' _
      apply Sat.bind (testfsSyncInode_frame _ n p other)
      intro s' synced
      apply (testfsPutInode_frame s' n p other).weaken
      intro s'' put
      rw [put, synced]
      exact find_update_of_ne _ _ _ ((same.trans number) ▸ other)

end Number

section Create

variable {s s₁ s₂ s₃ : State} {n p : Nat} {name : List Byte} {type : InodeType} {es : List Dirent}

/-- The creation stops between the new inode and its record in directory `p`. -/
structure Halfway (s : State) (p : Nat) (name : List Byte) (type : InodeType) (es : List Dirent) :
    Prop where
  available : ∃ m < 16384, ¬ s.sb.InodeAllocated m
  enough : type.cost ≤ s.sb.free
  entry : EntryHalfway s (s.sb.free - type.cost) p name es

/-- A creation that failed leaves things as they were, or directory `p` dirty. -/
def Fails (p : Nat) (name : List Byte) (type : InodeType) (es : List Dirent)
    (s s' : State) : Prop :=
  GaveUp p s s' ∧ ¬ Halfway s p name type es ∨ s'.dirty p = true ∧ Halfway s p name type es

theorem Created.halfway_iff (created : Created n type s s₁) (filled : Filled n p type s₁ s₂)
    (dir : DirOk s p es) :
    EntryHalfway s₂ s₂.sb.free p name es ↔ Halfway s p name type es := by
  obtain ⟨enough, rest, need₂⟩ := created.leaves filled dir name
  rw [rest]
  constructor
  · intro entry
    exact ⟨⟨n, created.inside, created.fresh⟩, enough, entry.absent, entry.room,
      need₂ ▸ entry.stuck⟩
  · intro halfway
    exact ⟨halfway.entry.absent, halfway.entry.room, need₂.symm ▸ halfway.entry.stuck⟩

theorem Created.giveUp (created : Created n type s s₁) (owns : Owns s.sb.Allocated s.pointers)
    (dir : DirOk s p es) (fresh : s.dirty n = false) (filled : Rewritten n s₁ s₂)
    (tried : GaveUp p s₂ s₃) : Sat (testfsRemoveInode s₃ n) (GaveUp p s) (fun _ => True) := by
  have other : p ≠ n := fun equal => created.fresh (equal ▸ dir.allocated)
  have allocated := (created.inodes p).mpr (Or.inl dir.allocated)
  have self : s₃.sb.InodeAllocated n := (tried.rewritten.inodes n).mpr
    ((filled.inodes n).mpr ((created.inodes n).mpr (Or.inr rfl)))
  have early := (created.parent filled dir).1
  apply (testfsRemoveInode_sat s₃ n tried.rewritten.intact self).weaken
  intro s₄ removed
  have late := removed.others p
    ((tried.rewritten.inodes p).mpr ((filled.inodes p).mpr allocated)) other
  refine ⟨created.undone filled tried.rewritten removed owns dir.allocated fresh, ?_, ?_, ?_, ?_⟩
  · rw [late.view, tried.view, early.view]
  · rw [late.slots, tried.slots, early.slots]
  · intro q below
    rw [late.content, tried.content q (by rw [early.view]; exact below), early.content]
  · rw [removed.dirty, Function.update_of_ne other, tried.dirty, filled.dirty p other,
      created.dirty, Function.update_of_ne other]

/-- The new inode is removed again, which does not touch the directory. -/
theorem Created.unwound (created : Created n type s s₁) (owns : Owns s.sb.Allocated s.pointers)
    (dir : DirOk s p es) (fresh : s.dirty n = false) (filled : Rewritten n s₁ s₂)
    (tried : GaveUp p s₂ s₃ ∧ ¬ Halfway s p name type es ∨
      s₃.dirty p = true ∧ Halfway s p name type es) :
    Sat (testfsRemoveInode s₃ n) (Fails p name type es s) (fun _ => True) := by
  have other : p ≠ n := fun equal => created.fresh (equal ▸ dir.allocated)
  cases tried with
  | inl undone =>
      exact (created.giveUp owns dir fresh filled undone.1).weaken fun s₄ gaveUp =>
        Or.inl ⟨gaveUp, undone.2⟩
  | inr soiled =>
      refine (testfsRemoveInode_frame s₃ n p other).weaken fun s₄ frame => Or.inr ⟨?_, soiled.2⟩
      unfold State.dirty
      rw [frame]
      exact soiled.1

/-- `testfs_create_file_or_dir` that returns a negative value. -/
theorem testfsCreateFileOrDir_fails (s : State) (p : Nat) (type : InodeType) (name : List Byte)
    (es : List Dirent) (intact : Intact s) (dir : DirOk s p es) (noNul : ∀ b ∈ name, b ≠ 0)
    (clean : ∀ m, ¬ s.sb.InodeAllocated m → s.dirty m = false) :
    Sat (testfsCreateFileOrDir s (some p) type name)
      (fun r => r.1 < 0 → Fails p name type es s r.2) (fun _ => True) := by
  unfold testfsCreateFileOrDir
  apply Sat.bind (createLookup_sat s p name es intact dir)
  intro found same
  cases search : es.find? fun d => d.live && d.named name with
  | some d =>
      have both := List.find?_some search
      rw [Bool.and_eq_true] at both
      have nonneg : 0 ≤ d.dInodeNr.toInt := of_decide_eq_true both.1
      rw [search] at same
      rw [same, if_pos nonneg]
      refine fun _ => Or.inl ⟨.refl intact p, fun halfway => ?_⟩
      have fails := List.find?_eq_none.mp halfway.entry.absent d (List.mem_of_find?_eq_some search)
      unfold addDirentTest at fails
      rw [if_pos both.1] at fails
      exact fails both.2
  | none =>
      have absent : ¬ (0 : Int) ≤ -eNOENT := by decide
      rw [search] at same
      rw [same, if_neg absent]
      apply Sat.bind (testfsCreateInode_sat s type intact).total
      intro r spec
      obtain ⟨ret, n, s₁⟩ := r
      change Sat (if ret < 0 then _ else _) _ _
      cases spec with
      | inl full =>
          obtain ⟨negative, all, same₁⟩ := full
          change s₁ = s at same₁
          rw [if_pos negative, same₁]
          refine fun _ => Or.inl ⟨.refl intact p, fun halfway => ?_⟩
          obtain ⟨m, inside, free⟩ := halfway.available
          exact free (all m inside)
      | inr made =>
          obtain ⟨zero, created⟩ := made
          change ret = 0 at zero
          rw [if_neg (by omega)]
          have fresh := clean n created.fresh
          apply Sat.bind (created.fill (some p))
          intro r spec
          obtain ⟨ret₁, s₂⟩ := r
          change Sat (if ret₁ < 0 then _ else _) _ _
          cases spec with
          | inl full =>
              obtain ⟨negative, rewritten, short⟩ := full
              change ret₁ < 0 at negative
              rw [if_pos negative]
              refine Sat.bind (created.unwound intact.owns dir fresh rewritten
                (Or.inl ⟨.refl rewritten.intact p, fun halfway =>
                  Nat.not_lt.mpr halfway.enough short⟩)) fun _ fails _ => fails
          | inr done =>
              obtain ⟨nonneg, filled⟩ := done
              change Filled n p type s₁ s₂ at filled
              rw [if_neg (Int.not_lt.mpr nonneg)]
              have dir₂ := (created.parent filled.rewritten dir).2
              apply Sat.bind (createEntry_fails filled.rewritten.intact dir₂ noNul)
              intro r fails
              obtain ⟨ret₂, s₃⟩ := r
              rw [created.halfway_iff filled dir] at fails
              change Sat (if ret₂ < 0 then _ else _) _ _
              apply Sat.ite
              · intro negative
                exact Sat.bind (created.unwound intact.owns dir fresh filled.rewritten
                  (fails negative)) fun _ fails _ => fails
              · intro _
                apply Sat.bind (sat_true _)
                intro s₄ _
                apply Sat.bind (sat_true _)
                intro s₅ _ negative
                exact absurd negative (Int.lt_irrefl 0)

end Create

end Ece344Lab.Fs
