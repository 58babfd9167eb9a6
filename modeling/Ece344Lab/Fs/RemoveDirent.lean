import Ece344Lab.Fs.AddDirent

set_option autoImplicit false

/- `testfs_remove_dirent`: the entry of a file or of an empty directory is freed. -/
namespace Ece344Lab.Fs

open Outcome Ownership

namespace Shuffled

variable {s s' s'' : State} {refs refs' : Nat → Nat} {dirty dirty' : Nat → Bool} {n : Nat}

theorem trans (first : Shuffled s s' refs dirty) (second : Shuffled s' s'' refs' dirty') :
    Shuffled s s'' refs' dirty' :=
  ⟨first.quiet.trans second.quiet, second.refs, second.dirty⟩

theorem put (got : Shuffled s s' (Function.update s.refs n (s.refs n + 1)) s.dirty)
    (put : Shuffled s' s'' (Function.update s'.refs n (s'.refs n - 1)) s'.dirty) :
    Shuffled s s'' s.refs s.dirty := by
  refine ⟨got.quiet.trans put.quiet, ?_, ?_⟩
  · rw [put.refs, got.refs, Function.update_self, Function.update_idem, Nat.add_sub_cancel,
      Function.update_eq_self]
  · rw [put.dirty, got.dirty]

end Shuffled

theorem DirOk.quiet {s s' : State} {n : Nat} {es : List Dirent} (dir : DirOk s n es)
    (step : Quiet s s') (intact : Intact s) : DirOk s' n es :=
  dir.untouched (step.untouched intact.owns dir.allocated) (step.intact intact).owns
    ((step.inodeAllocated_iff n).mpr dir.allocated)

/-- An entry that keeps its directory from being removed. -/
def blocksRemoval (d : Dirent) : Bool := d.live && !(d.named dot || d.named dotDot)

/-- `testfs_remove_dirent_allowed` leaves no trace; it allows files and directories with no other
entries than "." and "..". -/
theorem testfsRemoveDirentAllowed_sat (s : State) (n : Nat) (es : List Dirent) (intact : Intact s)
    (entries : s.sb.InodeAllocated n → (s.view n).iType = InodeType.dir.code → DirOk s n es) :
    Sat (testfsRemoveDirentAllowed s n)
      (fun r => Shuffled s r.2 s.refs s.dirty ∧ (0 ≤ r.1 →
        (s.view n).iType = InodeType.dir.code → es.find? blocksRemoval = none))
      (fun _ => True) := by
  unfold testfsRemoveDirentAllowed
  apply Sat.bind (testfsGetInode_sat s intact.consistent intact.table n)
  intro s₁ spec
  obtain ⟨inside, _, got⟩ := spec
  cases read : s₁.inode n with
  | error e => trivial
  | ok inode =>
      have intact₁ := got.quiet.intact intact
      obtain ⟨_, view, _⟩ := intact₁.table.of_read read
      have view' : inode.dinode = s.view n := view.trans (got.quiet.view n inside)
      have putting := testfsPutInode_sat s₁ intact₁.consistent intact₁.table n
      rw [ok_bind]
      apply Sat.ite
      · intro other
        apply Sat.bind putting
        intro s₂ spec
        obtain ⟨_, _, _, put⟩ := spec
        refine ⟨got.put put, fun _ kind => ?_⟩
        rw [view'] at other
        exact absurd kind other
      · intro kind
        have kind' : (s.view n).iType = InodeType.dir.code := view' ▸ not_not.mp kind
        have allocated : s.sb.InodeAllocated n := by
          by_contra free
          rw [intact.blank n inside free] at kind'
          exact absurd kind' (by decide)
        have dir : DirOk s n es := entries allocated kind'
        have listing := (dir.quiet got.quiet intact).listing
        rw [← view] at listing
        apply Sat.bind (listing.first blocksRemoval).anyStop
        intro r same
        rw [same]
        apply Sat.bind putting
        intro s₂ spec
        obtain ⟨_, _, _, put⟩ := spec
        refine ⟨got.put put, fun nonneg _ => ?_⟩
        dsimp only at nonneg
        cases found : es.find? blocksRemoval with
        | none => rfl
        | some d =>
            have negative : -eNOTEMPTY < 0 := by decide
            rw [found] at nonneg
            exact absurd nonneg (Int.not_le.mpr negative)

/-- A freed entry. -/
def Dirent.freed (d : Dirent) : Dirent := { d with dInodeNr := -1 }

theorem Dirent.freed_live (d : Dirent) : d.freed.live = false := by
  have value : (-1 : BitVec 32).toInt = -1 := by decide
  unfold Dirent.live Dirent.freed
  rw [value]
  decide

theorem Dirent.Wf.freed {d : Dirent} (wf : d.Wf) : d.freed.Wf :=
  ⟨wf.length, wf.small, wf.terminated⟩

/-- The live entry `d` is freed. -/
inductive FreedAt (d : Dirent) : List Dirent → List Dirent → Prop
  | here (after : List Dirent) (live : d.live = true) : FreedAt d (d :: after) (d.freed :: after)
  | later (e : Dirent) {es es' : List Dirent} (rest : FreedAt d es es') :
      FreedAt d (e :: es) (e :: es')

namespace FreedAt

variable {d e : Dirent} {es es' : List Dirent}

theorem behind (before : List Dirent) (rest : FreedAt d es es') :
    FreedAt d (before ++ es) (before ++ es') := by
  induction before with
  | nil => exact rest
  | cons e before ih => exact .later e ih

theorem perm (step : FreedAt d es es') :
    (es.filter Dirent.live).Perm (d :: es'.filter Dirent.live) := by
  induction step with
  | here after live => simp [live, Dirent.freed_live]
  | later e rest ih =>
      by_cases alive : e.live = true
      · rw [List.filter_cons_of_pos alive, List.filter_cons_of_pos alive]
        exact (List.Perm.cons e ih).trans (List.Perm.swap d e _)
      · rw [List.filter_cons_of_neg alive, List.filter_cons_of_neg alive]
        exact ih

theorem mem (step : FreedAt d es es') (member : e ∈ es') : e ∈ es ∨ e = d.freed := by
  induction step with
  | here after live =>
      cases List.mem_cons.mp member with
      | inl same => exact Or.inr same
      | inr later => exact Or.inl (List.mem_cons_of_mem _ later)
  | later first rest ih =>
      cases List.mem_cons.mp member with
      | inl same => exact Or.inl (same ▸ List.mem_cons_self)
      | inr later =>
          cases ih later with
          | inl before => exact Or.inl (List.mem_cons_of_mem _ before)
          | inr same => exact Or.inr same

end FreedAt

/-- An entry has been freed, and what it named may be removed. -/
structure Unlinked (n : Nat) (name : List Byte) (dirs : Nat → List Dirent) (s : State)
    (inodeNr : Int) (s' : State) : Prop where
  rewritten : Rewritten n s s'
  place : ∃ d es', FreedAt d (dirs n) es' ∧ d.live = true ∧ d.named name = true ∧
    d.dInodeNr.toInt = inodeNr ∧ DirOk s' n es'
  other : name ≠ dot ∧ name ≠ dotDot
  empty : (s.view inodeNr.toNat).iType = InodeType.dir.code →
    (dirs inodeNr.toNat).find? blocksRemoval = none
  dirty : s'.dirty n = true
  ghost : s'.sb.allocFailed = s.sb.allocFailed

theorem testfsRemoveDirent_sat (s : State) (n : Nat) (name : List Byte) (dirs : Nat → List Dirent)
    (intact : Intact s) (dir : DirOk s n (dirs n))
    (entries : ∀ m, s.sb.InodeAllocated m → (s.view m).iType = InodeType.dir.code →
      DirOk s m (dirs m)) :
    Sat (testfsRemoveDirent s n name)
      (fun r => (r.1 < 0 ∧ Shuffled s r.2 s.refs s.dirty) ∨
        (0 ≤ r.1 ∧ Unlinked n name dirs s r.1 r.2))
      (fun _ => True) := by
  have unchanged : Shuffled s s s.refs s.dirty := ⟨.refl intact.consistent intact.table, rfl, rfl⟩
  have invalid : -eINVAL < 0 := by decide
  have absent : -eNOENT < 0 := by decide
  unfold testfsRemoveDirent
  by_cases reserved : name = dot ∨ name = dotDot
  · rw [if_pos reserved]
    exact Or.inl ⟨invalid, unchanged⟩
  · rw [if_neg reserved]
    cases read : s.inode n with
    | error e => trivial
    | ok inode =>
        obtain ⟨_, view, _⟩ := intact.table.of_read read
        have listing := dir.listing
        rw [← view] at listing
        rw [ok_bind]
        apply Sat.bind (listing.first fun d => d.live && d.named name).anyStop
        intro r same
        rw [same]
        cases found : (dirs n).find? fun d => d.live && d.named name with
        | none => exact Or.inl ⟨absent, unchanged⟩
        | some d =>
            obtain ⟨passes, after, split⟩ := find_split found
            rw [Bool.and_eq_true] at passes
            have live : 0 ≤ d.dInodeNr.toInt := of_decide_eq_true passes.1
            let before := (dirs n).takeWhile fun e => !(e.live && e.named name)
            apply Sat.bind (testfsRemoveDirentAllowed_sat s d.dInodeNr.toInt.toNat _ intact
              (entries _))
            intro r spec
            obtain ⟨ret, s₁⟩ := r
            obtain ⟨shuffled, empty⟩ := spec
            change Sat (if ret < 0 then _ else _) _ _
            apply Sat.ite
            · intro negative
              exact Or.inl ⟨negative, shuffled⟩
            · intro nonneg
              have intact₁ := shuffled.quiet.intact intact
              have dir₁ := dir.quiet shuffled.quiet intact
              have wf := listing.wf d (by rw [split]; simp)
              apply Sat.bind (dir_overwrite s₁ n before after d d.freed intact₁ (split ▸ dir₁)
                wf.freed rfl).anyStop
              intro r spec
              obtain ⟨ret', s₂⟩ := r
              obtain ⟨returned, rewritten, dir₂, dirty, _, ghost⟩ := spec
              change ret' = _ at returned
              have nonneg' : 0 ≤ ret' := by
                rw [returned]
                exact Int.natCast_nonneg _
              change Sat (.ok (if 0 ≤ ret' then _ else _, s₂)) _ _
              rw [if_pos nonneg']
              have unflagged :
                  Shuffled s s₁ s.refs (Function.update s.dirty n (s.dirty n)) := by
                rw [Function.update_eq_self]
                exact shuffled
              have same := unflagged.rewritten intact dir.allocated.1
              refine Or.inr ⟨live, same.trans rewritten, ?_, ?_, ?_, dirty, ?_⟩
              · have place := (FreedAt.here (d := d) after passes.1).behind before
                rw [← split] at place
                exact ⟨d, _, place, passes.1, passes.2, rfl, dir₂⟩
              · exact not_or.mp reserved
              · exact empty (Int.not_lt.mp nonneg)
              · rw [ghost, shuffled.quiet.ghost]

end Ece344Lab.Fs
