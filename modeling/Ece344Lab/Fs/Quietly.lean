import Ece344Lab.Fs.Command
import Ece344Lab.Fs.CreateFile

set_option autoImplicit false

/- The commands that only look: whatever the directories contain, every inode that they get is
put again. -/
namespace Ece344Lab.Fs

open Outcome Ownership

/-- A step that takes no reference and leaves no flag behind. -/
abbrev Kept (s s' : State) : Prop := Shuffled s s' s.refs s.dirty

namespace Kept

variable {s s' s'' s₁ s₂ s₃ : State} {n : Nat}

theorem refl (ok : Consistent s.sb) (table : TableOk s) : Kept s s := ⟨.refl ok table, rfl, rfl⟩

theorem trans (first : Kept s s') (second : Kept s' s'') : Kept s s'' :=
  ⟨first.quiet.trans second.quiet, second.refs.trans first.refs, second.dirty.trans first.dirty⟩

theorem print (step : Kept s s') (output : Output) : Kept s (s'.print output) := by
  have quiet := step.quiet
  have table := quiet.table
  exact ⟨⟨quiet.consistent, ⟨table.distinct, table.counted, table.range, table.clean⟩, quiet.view,
    quiet.blocks, quiet.counts, quiet.inodes, quiet.freemap, quiet.ghost, quiet.longer⟩,
    step.refs, step.dirty⟩

theorem around (got : Shuffled s s₁ (Function.update s.refs n (s.refs n + 1)) s.dirty)
    (inner : Kept s₁ s₂)
    (put : Shuffled s₂ s₃ (Function.update s₂.refs n (s₂.refs n - 1)) s₂.dirty) : Kept s s₃ := by
  have put' : Shuffled s₁ s₃ (Function.update s₁.refs n (s₁.refs n - 1)) s₁.dirty := by
    refine ⟨inner.quiet.trans put.quiet, ?_, ?_⟩
    · rw [put.refs, inner.refs]
    · rw [put.dirty, inner.dirty]
  exact got.put put'

end Kept

/-- `testfs_pwd`, by induction on the path to the root. -/
theorem testfsPwd_sat (fuel : Nat) (s : State) (n : Nat) (ok : Consistent s.sb)
    (table : TableOk s) :
    Sat (testfsPwd fuel s n) (fun r => Kept s r.2) (fun _ => True) := by
  induction fuel generalizing s n with
  | zero => trivial
  | succ fuel ih =>
      unfold testfsPwd
      apply Sat.bind (sat_true _)
      intro inode _
      apply Sat.bind (sat_true _)
      intro p _
      apply Sat.bind (sat_true _)
      intro _ _
      apply Sat.ite
      · exact fun _ => (Kept.refl ok table).print _
      · intro _
        apply Sat.bind (testfsGetInode_sat s ok table p.toNat)
        intro s₁ spec
        have got := spec.2.2
        apply Sat.bind (sat_true _)
        intro parent _
        apply Sat.bind (sat_true _)
        intro found _
        cases found with
        | none => trivial
        | some d =>
            apply Sat.bind (ih s₁ p.toNat got.quiet.consistent got.quiet.table)
            intro r inner
            obtain ⟨ret, s₂⟩ := r
            apply Sat.bind (testfsPutInode_sat s₂ inner.quiet.consistent inner.quiet.table p.toNat)
            intro s₃ spec
            exact (Kept.around got inner spec.2.2.2).print _

section Listing

variable (descend : State → Nat → Except Halt State)
  (inner : ∀ s n, Consistent s.sb → TableOk s → Sat (descend s n) (Kept s) fun _ => True)

include inner

theorem lsEntry_sat (recursive : Bool) (s : State) (d : Dirent) (ok : Consistent s.sb)
    (table : TableOk s) :
    Sat (lsEntry descend recursive s d) (Kept s) (fun _ => True) := by
  unfold lsEntry
  apply Sat.bind (testfsGetInode_sat s ok table d.dInodeNr.toInt.toNat)
  intro s₁ spec
  have got := spec.2.2
  apply Sat.bind (sat_true _)
  intro child _
  have printed := (Kept.refl got.quiet.consistent got.quiet.table).print
    (.text (cString d.name ++
      if decide (child.dinode.iType = InodeType.dir.code) = true then [47, 10] else [10]))
  have ok₁ := printed.quiet.consistent
  have table₁ := printed.quiet.table
  apply Sat.ite
  · intro _
    apply Sat.bind (inner _ _ ok₁ table₁)
    intro s₂ listed
    have ok₂ := listed.quiet.consistent
    apply (testfsPutInode_sat s₂ ok₂ listed.quiet.table _).weaken
    intro s₃ spec
    exact Kept.around got (printed.trans listed) spec.2.2.2
  · intro _
    apply (testfsPutInode_sat _ ok₁ table₁ _).weaken
    intro s₃ spec
    exact Kept.around got printed spec.2.2.2

theorem lsLoop_sat
    (n : Nat) (recursive : Bool) (fuel : Nat) (s : State) (offset : Nat) (ok : Consistent s.sb)
    (table : TableOk s) :
    Sat (lsLoop descend n recursive fuel s offset) (Kept s) (fun _ => True) := by
  induction fuel generalizing s offset with
  | zero => trivial
  | succ fuel ih =>
      unfold lsLoop
      apply Sat.bind (sat_true _)
      intro inode _
      apply Sat.bind (sat_true _)
      intro entry _
      cases entry with
      | none => exact Kept.refl ok table
      | some entry =>
          obtain ⟨d, next⟩ := entry
          dsimp only
          apply Sat.ite
          · intro _
            apply Sat.bind (lsEntry_sat descend inner recursive s d ok table)
            intro s₁ listed
            apply (ih s₁ next listed.quiet.consistent listed.quiet.table).weaken
            exact fun s₂ rest => listed.trans rest
          · exact fun _ => ih s next ok table

end Listing

/-- `testfs_ls`, by induction on the depth of the directories. -/
theorem testfsLs_sat (recursive : Bool) (depth : Nat) (s : State) (n : Nat)
    (ok : Consistent s.sb) (table : TableOk s) :
    Sat (testfsLs recursive depth s n) (Kept s) (fun _ => True) := by
  induction depth generalizing s n with
  | zero => trivial
  | succ depth ih =>
      unfold testfsLs
      apply Sat.bind (sat_true _)
      intro inode _
      exact lsLoop_sat _ ih n recursive _ s 0 ok table

end Ece344Lab.Fs
