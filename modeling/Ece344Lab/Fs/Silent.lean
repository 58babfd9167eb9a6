import Ece344Lab.Fs.Runs

set_option autoImplicit false

/- Only the looking commands print. -/
namespace Ece344Lab.Fs

open Outcome

abbrev Silent {α : Type} (s : State) (out : α → State) (x : Except Halt α) : Prop :=
  Sat x (fun a => (out a).stdout = s.stdout) fun _ => True

section States

variable (s : State) (n : Nat) (name : List Byte)

theorem testfsGetInode_silent : Silent s id (testfsGetInode s n) := by
  unfold testfsGetInode
  split
  · exact rfl
  · apply Sat.bind (sat_true _)
    exact fun _ _ => rfl

theorem testfsSyncInode_silent : Silent s id (testfsSyncInode s n) := by
  unfold testfsSyncInode
  apply Sat.bind (sat_true _)
  intro inode _
  apply Sat.ite
  · intro _
    apply Sat.bind (sat_true _)
    intro block _
    apply Sat.bind (sat_true _)
    exact fun _ _ => rfl
  · exact fun _ => rfl

theorem testfsPutInode_silent : Silent s id (testfsPutInode s n) := by
  unfold testfsPutInode
  apply Sat.bind (sat_true _)
  intro inode _
  apply Sat.bind (sat_true _)
  intro _ _
  apply Sat.ite
  · exact fun _ => rfl
  · exact fun _ => rfl

theorem onInode_silent (f : SuperBlock → Inode → Except Halt FileResult) :
    Silent s Prod.snd (s.onInode n f) := by
  unfold State.onInode
  apply Sat.bind (sat_true _)
  intro inode _
  apply Sat.bind (sat_true _)
  exact fun _ _ => rfl

theorem testfsCreateInode_silent (type : InodeType) :
    Silent s (fun r => r.2.2) (testfsCreateInode s type) := by
  unfold testfsCreateInode
  apply Sat.bind (sat_true _)
  intro r _
  apply Sat.ite
  · exact fun _ => rfl
  · intro _
    apply Sat.ite
    · intro _
      apply Sat.bind (sat_true _)
      exact fun _ _ => rfl
    · intro _
      apply Sat.bind (testfsGetInode_silent _ _)
      intro s' got
      apply Sat.bind (sat_true _)
      exact fun _ _ => got

theorem testfsRemoveInode_silent : Silent s id (testfsRemoveInode s n) := by
  unfold testfsRemoveInode
  apply Sat.bind (sat_true _)
  intro inode _
  apply Sat.bind (sat_true _)
  intro r _
  apply Sat.bind (sat_true _)
  intro _ _
  apply Sat.bind (sat_true _)
  intro sb _
  apply Sat.bind (testfsSyncInode_silent _ n)
  intro s' sync
  apply (testfsPutInode_silent s' n).weaken
  exact fun _ put => put.trans sync

theorem testfsWriteDirent_silent (dir offset : Nat) :
    Silent s Prod.snd (testfsWriteDirent s dir name n offset) := by
  rcases testfsWriteDirent_eq s dir name n offset with ⟨_, same⟩ | same | ⟨_, same⟩
  · rw [same]
    exact rfl
  · rw [same]
    trivial
  · rw [same]
    exact onInode_silent s dir _

theorem testfsAddDirent_silent (dir : Nat) :
    Silent s Prod.snd (testfsAddDirent s dir name n) := by
  unfold testfsAddDirent
  apply Sat.bind (sat_true _)
  intro inode _
  apply Sat.bind (sat_true _)
  intro _ _
  apply Sat.bind (sat_true _)
  intro found _
  obtain ⟨d, offset⟩ := found
  cases d with
  | some d =>
      apply Sat.ite
      · exact fun _ => rfl
      · exact fun _ => testfsWriteDirent_silent s n name dir offset
  | none =>
      apply Sat.bind (sat_true _)
      exact fun _ _ => testfsWriteDirent_silent s n name dir offset

theorem testfsRemoveDirentAllowed_silent :
    Silent s Prod.snd (testfsRemoveDirentAllowed s n) := by
  unfold testfsRemoveDirentAllowed
  apply Sat.bind (testfsGetInode_silent s n)
  intro s₁ got
  apply Sat.bind (sat_true _)
  intro inode _
  apply Sat.ite
  · intro _
    apply Sat.bind (testfsPutInode_silent s₁ n)
    exact fun _ put => put.trans got
  · intro _
    apply Sat.bind (sat_true _)
    intro found _
    apply Sat.bind (testfsPutInode_silent s₁ n)
    exact fun _ put => put.trans got

theorem testfsRemoveDirent_silent : Silent s Prod.snd (testfsRemoveDirent s n name) := by
  unfold testfsRemoveDirent
  apply Sat.ite
  · exact fun _ => rfl
  · intro _
    apply Sat.bind (sat_true _)
    intro inode _
    apply Sat.bind (sat_true _)
    intro found _
    obtain ⟨d, offset⟩ := found
    cases d with
    | none => exact rfl
    | some d =>
        apply Sat.bind (testfsRemoveDirentAllowed_silent s _)
        intro r allowed
        apply Sat.ite
        · exact fun _ => allowed
        · intro _
          apply Sat.bind (onInode_silent r.2 n _)
          exact fun _ written => written.trans allowed

theorem testfsCreateEmptyDir_silent (parent : Nat) :
    Silent s Prod.snd (testfsCreateEmptyDir s parent n) := by
  unfold testfsCreateEmptyDir
  apply Sat.bind (sat_true _)
  intro inode _
  apply Sat.bind (sat_true _)
  intro _ _
  apply Sat.bind (testfsAddDirent_silent s n dot n)
  intro r first
  apply Sat.ite
  · exact fun _ => first
  · intro _
    apply Sat.bind (testfsAddDirent_silent r.2 parent dotDot n)
    intro r' second
    apply Sat.ite
    · intro _
      apply Sat.bind (testfsRemoveDirent_silent r'.2 n dot)
      exact fun _ removed => removed.trans (second.trans first)
    · exact fun _ => second.trans first

theorem createContents_silent (dir : Option Nat) (type : InodeType) :
    Silent s Prod.snd (createContents s dir type n) := by
  unfold createContents
  apply Sat.ite
  · exact fun _ => testfsCreateEmptyDir_silent s n _
  · exact fun _ => rfl

theorem createEntry_silent (dir : Option Nat) : Silent s Prod.snd (createEntry s dir name n) := by
  unfold createEntry
  split
  · apply Sat.bind (testfsAddDirent_silent s n name _)
    intro r added
    apply Sat.ite
    · exact fun _ => added
    · intro _
      apply Sat.bind (testfsSyncInode_silent r.2 _)
      exact fun _ sync => sync.trans added
  · exact rfl

theorem testfsCreateFileOrDir_silent (dir : Option Nat) (type : InodeType) :
    Silent s Prod.snd (testfsCreateFileOrDir s dir type name) := by
  unfold testfsCreateFileOrDir
  apply Sat.bind (sat_true _)
  intro found _
  apply Sat.ite
  · exact fun _ => rfl
  · intro _
    apply Sat.bind (testfsCreateInode_silent s type)
    intro r made
    obtain ⟨ret, n, s₁⟩ := r
    apply Sat.ite
    · exact fun _ => made
    · intro _
      apply Sat.bind (createContents_silent s₁ n dir type)
      intro r filled
      have second := filled.trans made
      apply Sat.ite
      · intro _
        apply Sat.bind (testfsRemoveInode_silent r.2 n)
        exact fun _ removed => removed.trans second
      · intro _
        apply Sat.bind (createEntry_silent r.2 n name dir)
        intro r' entered
        have third := entered.trans second
        apply Sat.ite
        · intro _
          apply Sat.bind (testfsRemoveInode_silent r'.2 n)
          exact fun _ removed => removed.trans third
        · intro _
          apply Sat.bind (testfsSyncInode_silent r'.2 n)
          intro s₄ sync
          apply Sat.bind (testfsPutInode_silent s₄ n)
          exact fun _ put => put.trans (sync.trans third)

end States

section Commands

variable (s : Session)

abbrev SilentCommand (x : Except Halt (Int × Session)) : Prop :=
  Silent s.fs (fun r => r.2.fs) x

theorem testfsGetFileInode_silent (name : List Byte) :
    Silent s.fs (fun r => r.2.2) (s.testfsGetFileInode name) := by
  unfold Session.testfsGetFileInode
  apply Sat.bind (sat_true _)
  intro found _
  apply Sat.ite
  · exact fun _ => rfl
  · intro _
    apply Sat.bind (testfsGetInode_silent s.fs _)
    intro fs got
    apply Sat.bind (sat_true _)
    intro inode _
    apply Sat.ite
    · intro _
      apply Sat.bind (testfsPutInode_silent fs _)
      exact fun _ put => put.trans got
    · exact fun _ => got

theorem cmdCd_silent (args : List Arg) : SilentCommand s (s.cmdCd args) := by
  unfold Session.cmdCd
  split
  · apply Sat.bind (sat_true _)
    intro found _
    apply Sat.ite
    · exact fun _ => rfl
    · intro _
      apply Sat.bind (testfsGetInode_silent s.fs _)
      intro fs got
      apply Sat.bind (sat_true _)
      intro dir _
      apply Sat.ite
      · intro _
        apply Sat.bind (testfsPutInode_silent fs _)
        exact fun _ put => put.trans got
      · intro _
        apply Sat.bind (testfsPutInode_silent fs _)
        exact fun _ put => put.trans got
  · exact rfl

theorem cmdCreateOrMkdir_silent (args : List Arg) (type : InodeType) :
    SilentCommand s (s.cmdCreateOrMkdir args type) := by
  unfold Session.cmdCreateOrMkdir
  split
  · apply Sat.bind (testfsCreateFileOrDir_silent s.fs _ _ type)
    exact fun _ made => made
  · exact rfl

theorem cmdRm_silent (args : List Arg) : SilentCommand s (s.cmdRm args) := by
  unfold Session.cmdRm
  split
  · apply Sat.bind (testfsRemoveDirent_silent s.fs s.curDir _)
    intro r unlinked
    apply Sat.ite
    · exact fun _ => unlinked
    · intro _
      apply Sat.bind (testfsGetInode_silent r.2 _)
      intro fs₁ got
      apply Sat.bind (testfsRemoveInode_silent fs₁ _)
      intro fs₂ removed
      apply Sat.bind (testfsSyncInode_silent fs₂ _)
      exact fun _ sync => sync.trans (removed.trans (got.trans unlinked))
  · exact rfl

theorem cmdWrite_silent (args : List Arg) : SilentCommand s (s.cmdWrite args) := by
  unfold Session.cmdWrite
  split
  · split
    · exact rfl
    · apply Sat.ite
      · exact fun _ => rfl
      · intro _
        apply Sat.bind (testfsGetFileInode_silent s _)
        intro r found
        apply Sat.ite
        · exact fun _ => found
        · intro _
          apply Sat.bind (onInode_silent r.2.2 r.2.1 _)
          intro r' written
          apply Sat.bind (testfsSyncInode_silent r'.2 _)
          intro fs sync
          apply Sat.bind (testfsPutInode_silent fs _)
          exact fun _ put => put.trans (sync.trans (written.trans found))
  · exact rfl

end Commands

end Ece344Lab.Fs
