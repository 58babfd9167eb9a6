import Ece344Lab.Fs.CreateReturns
import Ece344Lab.Fs.WorkingDir

set_option autoImplicit false

/- What creations and removals return when no block allocation fails. -/
namespace Ece344Lab.Fs

open Outcome Ownership

section Create

variable {s s₁ : State} {p n : Nat} {name : List Byte} {type : InodeType} {es : List Dirent}

theorem testfsCreateInode_full (s : State) (type : InodeType) (consistent : Consistent s.sb) :
    Sat (testfsCreateInode s type) (fun r => r.1 < 0 → r.1 = -eNOSPC) (fun _ => True) := by
  unfold testfsCreateInode
  apply Sat.bind (testfsGetInodeFreemap_sat s.sb consistent).total
  intro r spec
  obtain ⟨ret, sb⟩ := r
  change Sat (if ret < 0 then _ else _) _ _
  apply Sat.ite
  · intro negative _
    cases spec with
    | inl full => exact congrArg Prod.fst full.2
    | inr found =>
        obtain ⟨m, _, _, _, same⟩ := found
        have number : ret = m := congrArg Prod.fst same
        change ret = _
        omega
  · intro _
    apply Sat.ite
    · intro _
      apply Sat.bind (sat_true _)
      exact fun _ _ _ => rfl
    · intro _
      apply Sat.bind (sat_true _)
      intro s' _
      apply Sat.bind (sat_true _)
      intro inode _ negative
      exact absurd negative (Int.lt_irrefl 0)

theorem Created.emptyDir (created : Created n type s s₁) (kind : type = .dir) :
    DirOk s₁ n [] ∧ s₁.slots n = fun _ => 0 := by
  have allocated := (created.inodes n).mpr (Or.inr rfl)
  have view := created.view
  constructor
  · refine ⟨allocated, ⟨owned_of_owns created.intact.owns allocated, ?_, ?_, ?_, ?_, rfl⟩, ?_⟩
    · rw [view, kind]
    · rw [view]
      rfl
    · exact Nat.two_pow_pos 32
    · intro d member
      cases member
    · intro log below
      exact absurd below (Nat.not_lt_zero _)
  · funext slot
    rw [State.slots_eq allocated, view, ptr_iType, ptr_zero]

/-- The contents of a new inode fail for want of a block only; a file has none. -/
theorem Created.fill_fails (created : Created n type s s₁) (dir : Option Nat) :
    Sat (createContents s₁ dir type n)
      (fun r => (r.1 < 0 → r.2.sb.allocFailed = true) ∧ (type ≠ .dir → r.2 = s₁))
      (fun _ => True) := by
  unfold createContents
  apply Sat.ite
  · intro kind
    obtain ⟨none, empty⟩ := created.emptyDir kind
    apply (testfsCreateEmptyDir_sat s₁ _ n created.intact none empty).weaken
    intro r spec
    refine ⟨fun negative => ?_, fun other => absurd kind other⟩
    cases spec.2 with
    | inl full => exact full.2.1
    | inr done => exact absurd negative (Int.not_lt.mpr done.1)
  · exact fun _ => ⟨fun negative => absurd negative (Int.lt_irrefl 0), fun _ => rfl⟩

/-- A record of a new name fails for want of a block only, unless the name is very long. -/
theorem createEntry_fails_ghost (s : State) (p n : Nat) (name : List Byte) (es : List Dirent)
    (intact : Intact s) (dir : DirOk s p es) (noNul : ∀ b ∈ name, b ≠ 0)
    (room : 8 + (name.length + 1) < 2 ^ 31) (absent : lookupEntry es name = none) :
    Sat (createEntry s (some p) name n) (fun r => r.1 < 0 → r.2.sb.allocFailed = true)
      (fun _ => True) := by
  unfold createEntry
  apply Sat.bind (testfsAddDirent_sat s p name n es intact dir noNul)
  intro r outcome
  obtain ⟨ret, s'⟩ := r
  change Sat (if ret < 0 then _ else _) _ _
  cases outcome with
  | refused negative _ reason =>
      cases reason with
      | inl long =>
          clear negative
          omega
      | inr taken =>
          obtain ⟨d, member, live, named⟩ := taken
          exact absurd (named_iff.mp named) (lookupEntry_eq_none.mp absent d member live)
  | failed negative failed =>
      rw [if_pos negative]
      intro _
      cases failed.reason with
      | inl starved => exact starved.ghost
      | inr giant => exact absurd room (Nat.not_lt.mpr giant.1.1)
  | stranded negative _ ghost =>
      rw [if_pos negative]
      exact fun _ => ghost
  | inserted nonneg es' done =>
      rw [if_neg (Int.not_lt.mpr nonneg)]
      apply Sat.bind (sat_true _)
      exact fun _ _ negative => absurd negative (Int.lt_irrefl 0)

/-- What a creation returns for a name that is looked up as `found`, and what a new inode is. -/
structure CreateReturns (s : State) (type : InodeType) (found : Option Nat) (r : Int × State) :
    Prop where
  fails : r.1 < 0 → r.2.sb.allocFailed = true ∨ found ≠ none ∧ r.1 = -eEXIST ∨
    found = none ∧ (∀ m < 16384, s.sb.InodeAllocated m) ∧ r.1 = -eNOSPC
  works : ¬ r.1 < 0 → found = none ∧ (type = .file → ∀ m, ¬ s.sb.InodeAllocated m →
    r.2.sb.InodeAllocated m → r.2.view m = { Dinode.zero with iType := type.code })

/-- The new inode does not change while its name is entered. -/
theorem Created.enter_view {s₂ : State} (created : Created n type s s₁)
    (filled : Rewritten n s₁ s₂) (dir : DirOk s p es) (noNul : ∀ b ∈ name, b ≠ 0) :
    Sat (createEntry s₂ (some p) name n)
      (fun r => ¬ r.1 < 0 → Intact r.2 ∧ r.2.view n = s₂.view n ∧
        ∀ m, r.2.sb.InodeAllocated m ↔ s.sb.InodeAllocated m ∨ m = n) (fun _ => True) := by
  have apart : n ≠ p := fun same => created.fresh (same ▸ dir.allocated)
  have dir₂ := (created.parent filled dir).2
  have allocated := (filled.inodes n).mpr ((created.inodes n).mpr (Or.inr rfl))
  apply (createEntry_sat s₂ p n name es filled.intact dir₂ noNul).weaken
  intro r outcome nonneg
  cases outcome with
  | inl failed => exact absurd failed.1 nonneg
  | inr done =>
      obtain ⟨_, s', es', inserted, sync⟩ := done
      have step := inserted.rewritten
      refine ⟨sync.quiet.intact step.intact, ?_, fun m => ?_⟩
      · rw [sync.quiet.view n allocated.1, (step.others n allocated apart).view]
      · rw [sync.quiet.inodeAllocated_iff, step.inodes, filled.inodes, created.inodes]

theorem removed_returns {s₂ : State} {found : Option Nat} {ret : Int} (negative : ret < 0)
    (failed : s₂.sb.allocFailed = true) :
    Sat (testfsRemoveInode s₂ n >>= fun s => .ok (ret, s)) (CreateReturns s type found)
      (fun _ => True) := by
  apply Sat.bind (testfsRemoveInode_unfailing s₂ n)
  intro s₃ same
  exact ⟨fun _ => Or.inl (same.trans failed), fun works => absurd negative works⟩

theorem Created.written_returns (created : Created n type s s₁) {s₃ : State} (intact : Intact s₃)
    (inodes : ∀ m, s₃.sb.InodeAllocated m ↔ s.sb.InodeAllocated m ∨ m = n)
    (view : type = .file → s₃.view n = { Dinode.zero with iType := type.code }) :
    Sat (testfsSyncInode s₃ n >>= fun s => testfsPutInode s n >>= fun s => .ok (0, s))
      (CreateReturns s type none) (fun _ => True) := by
  apply Sat.bind (testfsSyncInode_sat s₃ intact.consistent intact.table n)
  intro s₄ spec
  have sync := spec.2.quiet
  apply Sat.bind (testfsPutInode_sat s₄ sync.consistent sync.table n)
  intro s₅ spec
  have quiet := sync.trans spec.2.2.2.quiet
  refine ⟨fun negative => absurd negative (Int.lt_irrefl 0), fun _ => ⟨rfl, ?_⟩⟩
  intro file m free held
  have new : m = n := ((inodes m).mp ((quiet.inodeAllocated_iff m).mp held)).resolve_left free
  rw [new, quiet.view n created.inside]
  exact view file

theorem testfsCreateFileOrDir_returns (s : State) (p : Nat) (type : InodeType) (name : List Byte)
    (es : List Dirent) (intact : Intact s) (dir : DirOk s p es) (noNul : ∀ b ∈ name, b ≠ 0)
    (room : 8 + (name.length + 1) < 2 ^ 31) :
    Sat (testfsCreateFileOrDir s (some p) type name)
      (CreateReturns s type (lookupEntry es name)) (fun _ => True) := by
  unfold testfsCreateFileOrDir
  apply Sat.bind (createLookup_sat s p name es intact dir)
  intro found same
  have lookup : lookupEntry es name =
      (es.find? fun d => d.live && d.named name).map Dirent.target := rfl
  cases search : es.find? fun d => d.live && d.named name with
  | some d =>
      have live := List.find?_some search
      rw [Bool.and_eq_true] at live
      have nonneg : 0 ≤ d.dInodeNr.toInt := of_decide_eq_true live.1
      rw [search] at same lookup
      rw [same, if_pos nonneg, lookup]
      exact ⟨fun _ => Or.inr (Or.inl ⟨Option.some_ne_none _, rfl⟩),
        fun works => absurd (show (-eEXIST : Int) < 0 by decide) works⟩
  | none =>
      have absent : ¬ (0 : Int) ≤ -eNOENT := by decide
      rw [search] at same lookup
      rw [same, if_neg absent]
      have missing : lookupEntry es name = none := lookup
      rw [missing]
      apply Sat.bind ((testfsCreateInode_sat s type intact).total.and
        (testfsCreateInode_full s type intact.consistent))
      rintro ⟨ret, n, s₁⟩ ⟨⟨negative, all, _⟩ | ⟨zero, created⟩, code⟩
      · change Sat (if ret < 0 then _ else _) _ _
        rw [if_pos negative]
        exact ⟨fun _ => Or.inr (Or.inr ⟨rfl, all, code negative⟩),
          fun works => absurd negative works⟩
      · change ret = 0 at zero
        change Created n type s s₁ at created
        change Sat (if ret < 0 then _ else _) _ _
        rw [zero, if_neg (Int.lt_irrefl 0)]
        apply Sat.bind ((created.fill (some p)).and (created.fill_fails (some p)))
        rintro ⟨ret₁, s₂⟩ ⟨filled, ghost, idle⟩
        change Sat (if ret₁ < 0 then _ else _) _ _
        apply Sat.ite
        · exact fun negative => removed_returns negative (ghost negative)
        · intro nonneg
          have done : Filled n p type s₁ s₂ :=
            (filled.resolve_left fun failed => nonneg failed.1).2
          have dir₂ := (created.parent done.rewritten dir).2
          apply Sat.bind ((createEntry_fails_ghost s₂ p n name es done.rewritten.intact dir₂ noNul
            room missing).and (created.enter_view done.rewritten dir noNul))
          rintro ⟨ret₂, s₃⟩ ⟨ghost₂, entered⟩
          change Sat (if ret₂ < 0 then _ else _) _ _
          apply Sat.ite
          · exact fun negative => removed_returns negative (ghost₂ negative)
          · intro nonneg₂
            obtain ⟨intact₃, view, inodes⟩ := entered nonneg₂
            change s₃.view n = s₂.view n at view
            apply created.written_returns intact₃ inodes
            intro file
            have same : s₂ = s₁ := idle (by rw [file]; decide)
            rw [view, same, created.view]

end Create

section Remove

variable {s s' : State} {n : Nat} {name : List Byte} {dirs : Nat → List Dirent}

theorem testfsRemoveDirentAllowed_refuses (s : State) (n : Nat) (es : List Dirent)
    (intact : Intact s) (entries : s.IsDir n → DirOk s n es) :
    Sat (testfsRemoveDirentAllowed s n)
      (fun r => r.1 < 0 → r.1 = -eNOTEMPTY ∧ s.IsDir n ∧ es.find? blocksRemoval ≠ none)
      (fun _ => True) := by
  unfold testfsRemoveDirentAllowed
  apply Sat.bind (testfsGetInode_sat s intact.consistent intact.table n)
  intro s₁ spec
  obtain ⟨inside, _, got⟩ := spec
  cases read : s₁.inode n with
  | error e => trivial
  | ok inode =>
      have intact₁ := got.quiet.intact intact
      obtain ⟨_, view, _⟩ := intact₁.table.of_read read
      have view' : inode.dinode = s.view n := view.trans (got.quiet.view n inside)
      rw [ok_bind]
      apply Sat.ite
      · intro _
        apply Sat.bind (sat_true _)
        exact fun _ _ negative => absurd negative (Int.lt_irrefl 0)
      · intro kind
        have kind' : (s.view n).iType = InodeType.dir.code := view' ▸ not_not.mp kind
        have dir : s.IsDir n := by
          refine ⟨?_, kind'⟩
          by_contra free
          rw [intact.blank n inside free] at kind'
          exact absurd kind' (by decide)
        have listing := ((entries dir).quiet got.quiet intact).listing
        rw [← view] at listing
        apply Sat.bind (listing.first blocksRemoval).anyStop
        intro r same
        rw [same]
        apply Sat.bind (sat_true _)
        intro s₂ _ negative
        dsimp only at negative ⊢
        cases found : es.find? blocksRemoval with
        | none =>
            rw [found] at negative
            exact absurd negative (Int.lt_irrefl 0)
        | some d => exact ⟨rfl, dir, Option.some_ne_none d⟩

/-- Why `testfs_remove_dirent` refuses. -/
inductive RefusesRemoval (s : State) (n : Nat) (name : List Byte) (dirs : Nat → List Dirent)
    (ret : Int) : Prop
  | reserved (special : name = dot ∨ name = dotDot) (ret : ret = -eINVAL)
  | absent (plain : ¬ (name = dot ∨ name = dotDot)) (found : lookupEntry (dirs n) name = none)
      (ret : ret = -eNOENT)
  | occupied (plain : ¬ (name = dot ∨ name = dotDot)) (m : Nat)
      (found : lookupEntry (dirs n) name = some m) (dir : s.IsDir m)
      (blocked : (dirs m).find? blocksRemoval ≠ none) (ret : ret = -eNOTEMPTY)

theorem testfsRemoveDirent_refuses (s : State) (n : Nat) (name : List Byte)
    (dirs : Nat → List Dirent) (intact : Intact s) (dir : s.IsDir n)
    (entries : ∀ m, s.IsDir m → DirOk s m (dirs m)) :
    Sat (testfsRemoveDirent s n name)
      (fun r => r.1 < 0 → RefusesRemoval s n name dirs r.1) (fun _ => True) := by
  unfold testfsRemoveDirent
  by_cases reserved : name = dot ∨ name = dotDot
  · rw [if_pos reserved]
    exact fun _ => .reserved reserved rfl
  · rw [if_neg reserved]
    cases read : s.inode n with
    | error e => trivial
    | ok inode =>
        obtain ⟨_, view, _⟩ := intact.table.of_read read
        have dirOk := entries n dir
        have listing := dirOk.listing
        rw [← view] at listing
        rw [ok_bind]
        apply Sat.bind (listing.first fun d => d.live && d.named name).anyStop
        intro r same
        rw [same]
        have lookup : lookupEntry (dirs n) name =
            ((dirs n).find? fun d => d.live && d.named name).map Dirent.target := rfl
        cases found : (dirs n).find? fun d => d.live && d.named name with
        | none =>
            rw [found] at lookup
            exact fun _ => .absent reserved lookup rfl
        | some d =>
            obtain ⟨passes, after, split⟩ := find_split found
            rw [Bool.and_eq_true] at passes
            have live : 0 ≤ d.dInodeNr.toInt := of_decide_eq_true passes.1
            let before := (dirs n).takeWhile fun e => !(e.live && e.named name)
            rw [found] at lookup
            apply Sat.bind ((testfsRemoveDirentAllowed_sat s d.dInodeNr.toInt.toNat _ intact
              fun held kind => entries _ ⟨held, kind⟩).and
              (testfsRemoveDirentAllowed_refuses s d.dInodeNr.toInt.toNat _ intact (entries _)))
            intro r spec
            obtain ⟨ret, s₁⟩ := r
            obtain ⟨⟨shuffled, _⟩, refuses⟩ := spec
            change Sat (if ret < 0 then _ else _) _ _
            apply Sat.ite
            · intro negative _
              obtain ⟨code, dir', blocked⟩ := refuses negative
              exact .occupied reserved _ lookup dir' blocked code
            · intro _
              have intact₁ := shuffled.quiet.intact intact
              have dir₁ := dirOk.quiet shuffled.quiet intact
              have wf := listing.wf d (by rw [split]; simp)
              apply Sat.bind (dir_overwrite s₁ n before after d d.freed intact₁ (split ▸ dir₁)
                wf.freed rfl).anyStop
              intro r spec
              obtain ⟨ret', s₂⟩ := r
              have returned : ret' = _ := spec.1
              have nonneg' : 0 ≤ ret' := by
                rw [returned]
                exact Int.natCast_nonneg _
              change Sat (.ok (if 0 ≤ ret' then _ else _, s₂)) _ _
              rw [if_pos nonneg']
              exact fun negative => absurd negative (Int.not_lt.mpr live)

/-- How `cmd_rm` ends. -/
inductive RmOutcome (s : Session) (name : List Byte) (dirs : Nat → List Dirent) (ret : Int)
    (s' : State) : Prop
  | refused (reason : RefusesRemoval s.fs s.curDir name dirs ret) (quiet : Quiet s.fs s')
  | removed (n : Nat) (zero : ret = 0) (plain : ¬ (name = dot ∨ name = dotDot))
      (found : lookupEntry (dirs s.curDir) name = some n)
      (empty : s.fs.IsDir n → (dirs n).find? blocksRemoval = none)
      (inodes : ∀ m, s'.sb.InodeAllocated m ↔ s.fs.sb.InodeAllocated m ∧ m ≠ n)
      (others : ∀ m, s.fs.sb.InodeAllocated m → m ≠ s.curDir → m ≠ n → Untouched s.fs s' m)

theorem Session.Ok.rm_returns {s : Session} (ok : s.Ok) (space : Namespace s.fs dirs)
    (distinct : DistinctNames (dirs s.curDir)) (name : Arg) :
    Sat (s.cmdRm [name]) (fun r => RmOutcome s name.bytes dirs r.1 r.2.fs) (fun _ => True) := by
  unfold Session.cmdRm
  apply Sat.bind ((testfsRemoveDirent_sat s.fs s.curDir name.bytes dirs space.intact
    (space.listed _ ok.dir) fun m allocated kind => space.listed m ⟨allocated, kind⟩).and
    (testfsRemoveDirent_refuses s.fs s.curDir name.bytes dirs space.intact ok.dir space.listed))
  intro r spec
  obtain ⟨inodeNr, fs₁⟩ := r
  obtain ⟨spec, refuses⟩ := spec
  change Sat (if inodeNr < 0 then _ else _) _ _
  cases spec with
  | inl refused =>
      rw [if_pos refused.1]
      exact .refused (refuses refused.1) refused.2.quiet
  | inr done =>
      obtain ⟨nonneg, unlinked⟩ := done
      change Unlinked s.curDir name.bytes dirs s.fs inodeNr fs₁ at unlinked
      rw [if_neg (Int.not_lt.mpr nonneg)]
      have step := unlinked.rewritten
      have intact₁ := step.intact
      apply Sat.bind (testfsGetInode_sat fs₁ intact₁.consistent intact₁.table inodeNr.toNat)
      intro fs₂ spec
      have got := spec.2.2.quiet
      have intact₂ := got.intact intact₁
      have allocated := space.unlinked_allocated ok.dir unlinked
      have allocated₂ : fs₂.sb.InodeAllocated inodeNr.toNat :=
        (got.inodeAllocated_iff _).mpr ((step.inodes _).mpr allocated)
      apply Sat.bind (testfsRemoveInode_sat fs₂ inodeNr.toNat intact₂ allocated₂)
      intro fs₃ gone
      have intact₃ := gone.intact
      apply Sat.bind (testfsSyncInode_sat fs₃ intact₃.consistent intact₃.table s.curDir)
      intro fs₄ spec
      have sync := spec.2.quiet
      obtain ⟨d, es', place, live, named, number, _⟩ := unlinked.place
      have member : d ∈ dirs s.curDir :=
        (List.mem_filter.mp (place.perm.mem_iff.mpr List.mem_cons_self)).1
      have found : lookupEntry (dirs s.curDir) name.bytes = some inodeNr.toNat := by
        rw [← named_iff.mp named, distinct.lookup member live, ← number]
        rfl
      have inodes : ∀ m, fs₃.sb.InodeAllocated m ↔
          s.fs.sb.InodeAllocated m ∧ m ≠ inodeNr.toNat := by
        intro m
        rw [gone.inodes, got.inodeAllocated_iff, step.inodes]
      refine .removed inodeNr.toNat rfl (fun bad => not_or.mpr unlinked.other bad) found
        (fun dir => unlinked.empty dir.2) ?_ ?_
      · exact fun m => (sync.inodeAllocated_iff m).trans (inodes m)
      · intro m held other other'
        have held₁ := (step.inodes m).mpr held
        have held₂ := (got.inodeAllocated_iff m).mpr held₁
        exact (step.others m held other).trans ((got.untouched intact₁.owns held₁).trans
          ((gone.others m held₂ other').trans
            (sync.untouched intact₃.owns ((inodes m).mpr ⟨held, other'⟩))))

end Remove

end Ece344Lab.Fs
