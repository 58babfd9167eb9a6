import Ece344Lab.Fs.InodeTable

set_option autoImplicit false

/- Freeing, writing back and putting inodes allocate nothing: in any state, damaged ones
included, they leave it recorded whether an allocation has failed. -/
namespace Ece344Lab.Fs

open Outcome

abbrev Unfailing (failed : Bool) {α : Type} (sb : α → SuperBlock) (x : Except Halt α) : Prop :=
  Sat x (fun a => (sb a).allocFailed = failed) fun _ => True

theorem testfsPutInodeFreemap_unfailing (sb : SuperBlock) (n : Nat) :
    Unfailing sb.allocFailed id (testfsPutInodeFreemap sb n) := by
  unfold testfsPutInodeFreemap
  apply Sat.bind (sat_true _)
  intro freemap _
  apply Sat.bind (sat_true _)
  intro _ _
  rfl

theorem testfsFreeBlock_unfailing (sb : SuperBlock) (n : Int) :
    Unfailing sb.allocFailed id (testfsFreeBlock sb n) := by
  unfold testfsFreeBlock
  apply Sat.bind (sat_true _)
  intro dev _
  apply Sat.bind (sat_true _)
  intro _ _
  apply Sat.bind (Q := fun sb' : SuperBlock => sb'.allocFailed = sb.allocFailed)
  · unfold testfsPutBlockFreemap
    apply Sat.bind (sat_true _)
    intro freemap _
    rfl
  · intro sb' same
    apply Sat.bind (sat_true _)
    intro _ _
    exact same

theorem testfsFreeBlockFromInode_unfailing (sb : SuperBlock) (inode : Inode) (w : BitVec 32) :
    Unfailing sb.allocFailed Prod.snd (testfsFreeBlockFromInode sb inode w) := by
  unfold testfsFreeBlockFromInode
  apply Sat.ite
  · exact fun _ => rfl
  · intro _
    apply Sat.bind (testfsFreeBlock_unfailing sb w.toInt)
    exact fun sb' same => same

/-- A loop that frees blocks. -/
theorem foldlM_unfailing {α : Type} (failed : Bool)
    (f : Inode × SuperBlock → α → Except Halt (Inode × SuperBlock))
    (body : ∀ r a, r.2.allocFailed = failed → Unfailing failed Prod.snd (f r a))
    (items : List α) (r : Inode × SuperBlock) (start : r.2.allocFailed = failed) :
    Unfailing failed Prod.snd (items.foldlM f r) :=
  sat_foldlM (I := fun _ r => r.2.allocFailed = failed) items r
    (fun a _ r same => body r a same) start

theorem freeEntries_unfailing (entries : Block) (indices : List Nat) (sb : SuperBlock)
    (inode : Inode) : Unfailing sb.allocFailed Prod.snd (freeEntries entries indices sb inode) := by
  unfold freeEntries
  apply foldlM_unfailing _ _ _ _ _ rfl
  intro r i same
  obtain ⟨inode', sb'⟩ := r
  have step := testfsFreeBlockFromInode_unfailing sb' inode' (entries.getInt i)
  change sb'.allocFailed = sb.allocFailed at same
  rw [same] at step
  exact step

theorem freeDirectBlocks_unfailing (eBlockNr : Int) (sb : SuperBlock) (inode : Inode) :
    Unfailing sb.allocFailed Prod.snd (freeDirectBlocks eBlockNr sb inode) := by
  unfold freeDirectBlocks
  apply foldlM_unfailing _ _ _ _ _ rfl
  intro r i same
  obtain ⟨inode', sb'⟩ := r
  change sb'.allocFailed = sb.allocFailed at same
  change Unfailing _ _ (if (i.val : Int) < eBlockNr then _ else _)
  apply Sat.ite
  · intro _
    have step := testfsFreeBlockFromInode_unfailing sb' inode' (inode'.dinode.iBlockNr i)
    rw [same] at step
    apply Sat.bind step
    exact fun r done => done
  · exact fun _ => same

theorem freeIndirectBlocks_unfailing (eBlockNr : Int) (sb : SuperBlock) (inode : Inode) :
    Unfailing sb.allocFailed Prod.snd (freeIndirectBlocks eBlockNr sb inode) := by
  unfold freeIndirectBlocks
  apply Sat.ite
  · intro _
    apply Sat.bind (sat_true _)
    intro block _
    apply Sat.bind (freeEntries_unfailing block _ sb inode)
    intro r same
    obtain ⟨inode', sb'⟩ := r
    change sb'.allocFailed = sb.allocFailed at same
    have step := testfsFreeBlockFromInode_unfailing sb' inode' inode'.dinode.iIndirect
    rw [same] at step
    apply Sat.bind step
    exact fun r done => done
  · exact fun _ => rfl

theorem freeDindirectBlocks_unfailing (eBlockNr : Int) (sb : SuperBlock) (inode : Inode) :
    Unfailing sb.allocFailed Prod.snd (freeDindirectBlocks eBlockNr sb inode) := by
  unfold freeDindirectBlocks
  generalize nrIndirectBlocks = width
  apply Sat.ite
  · intro _
    apply Sat.bind (sat_true _)
    intro dp1Index _
    apply Sat.bind (Q := fun r : Inode × SuperBlock => r.2.allocFailed = sb.allocFailed)
    · apply foldlM_unfailing _ _ _ _ _ rfl
      intro r j same
      obtain ⟨inode', sb'⟩ := r
      change sb'.allocFailed = sb.allocFailed at same
      change Unfailing _ _ (if dp1Index.getInt j = 0 then _ else _)
      apply Sat.ite
      · exact fun _ => same
      · intro _
        apply Sat.bind (sat_true _)
        intro dp2Index _
        have row := freeEntries_unfailing dp2Index (List.range width) sb' inode'
        rw [same] at row
        apply Sat.bind row
        intro r same'
        obtain ⟨inode'', sb''⟩ := r
        change sb''.allocFailed = sb.allocFailed at same'
        have page := testfsFreeBlockFromInode_unfailing sb'' inode'' (dp1Index.getInt j)
        rw [same'] at page
        exact page
    · intro r same
      obtain ⟨inode', sb'⟩ := r
      change sb'.allocFailed = sb.allocFailed at same
      have step := testfsFreeBlockFromInode_unfailing sb' inode' inode'.dinode.iDindirect
      rw [same] at step
      apply Sat.bind step
      exact fun r done => done
  · exact fun _ => rfl

theorem testfsFreeBlocks_unfailing (sb : SuperBlock) (inode : Inode) :
    Unfailing sb.allocFailed Prod.snd (testfsFreeBlocks sb inode) := by
  unfold testfsFreeBlocks
  apply Sat.bind (freeDirectBlocks_unfailing _ sb inode)
  intro r same
  obtain ⟨inode₁, sb₁⟩ := r
  change sb₁.allocFailed = sb.allocFailed at same
  apply Sat.bind (same ▸ freeIndirectBlocks_unfailing _ sb₁ inode₁)
  intro r same₂
  obtain ⟨inode₂, sb₂⟩ := r
  change sb₂.allocFailed = sb.allocFailed at same₂
  apply Sat.bind (same₂ ▸ freeDindirectBlocks_unfailing _ sb₂ inode₂)
  exact fun r done => done

theorem testfsSyncInode_unfailing (s : State) (n : Nat) :
    Unfailing s.sb.allocFailed State.sb (testfsSyncInode s n) := by
  unfold testfsSyncInode
  apply Sat.bind (sat_true _)
  intro inode _
  apply Sat.ite
  · intro _
    apply Sat.bind (sat_true _)
    intro block _
    unfold testfsWriteInodeBlock
    rw [sat_bind_iff]
    apply Sat.bind (sat_true _)
    intro blockNr _
    apply Sat.bind (sat_true _)
    intro dev _
    rfl
  · exact fun _ => rfl

theorem testfsPutInode_unfailing (s : State) (n : Nat) :
    Unfailing s.sb.allocFailed State.sb (testfsPutInode s n) := by
  unfold testfsPutInode
  apply Sat.bind (sat_true _)
  intro inode _
  apply Sat.bind (sat_true _)
  intro _ _
  apply Sat.ite
  · exact fun _ => rfl
  · exact fun _ => rfl

theorem testfsRemoveInode_unfailing (s : State) (n : Nat) :
    Unfailing s.sb.allocFailed State.sb (testfsRemoveInode s n) := by
  unfold testfsRemoveInode
  apply Sat.bind (sat_true _)
  intro inode _
  apply Sat.bind (testfsFreeBlocks_unfailing s.sb inode)
  intro r same
  obtain ⟨inode₁, sb₁⟩ := r
  change sb₁.allocFailed = s.sb.allocFailed at same
  apply Sat.bind (sat_true _)
  intro _ _
  apply Sat.bind (testfsPutInodeFreemap_unfailing sb₁ n)
  intro sb₂ same₂
  change sb₂.allocFailed = sb₁.allocFailed at same₂
  rw [same] at same₂
  have sync := testfsSyncInode_unfailing { ({ s with sb := sb₁ }.update
    { inode₁ with dinode := Dinode.zero, dirty := true }) with sb := sb₂ } n
  change Unfailing sb₂.allocFailed _ _ at sync
  rw [same₂] at sync
  apply Sat.bind sync
  intro s₃ same₃
  have put := testfsPutInode_unfailing s₃ n
  change s₃.sb.allocFailed = _ at same₃
  rw [same₃] at put
  exact put

end Ece344Lab.Fs
