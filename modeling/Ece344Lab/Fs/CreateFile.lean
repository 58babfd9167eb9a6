import Ece344Lab.Fs.AllocFailed
import Ece344Lab.Fs.RemoveDirent

set_option autoImplicit false

/- `testfs_create_empty_dir` and `testfs_create_file_or_dir`. -/
namespace Ece344Lab.Fs

open Outcome Ownership

theorem need_eq {s s' : State} {n : Nat} (allocated : s.sb.InodeAllocated n)
    (allocated' : s'.sb.InodeAllocated n) (same : s'.slots n = s.slots n) (pos size : Nat) :
    s'.need n pos size = s.need n pos size := by
  rw [State.slots_eq allocated, State.slots_eq allocated'] at same
  exact missing_congr same _ _

theorem dot_noNul : ∀ b ∈ dot, b ≠ 0 := by decide

theorem dotDot_noNul : ∀ b ∈ dotDot, b ≠ 0 := by decide

def emptyDir (n parent : Nat) : List Dirent := [newDirent dot n, newDirent dotDot parent]

/-- A write within the first block strands nothing. -/
theorem not_strands_first (s : State) (free n pos size : Nat) (inside : pos + size ≤ 8192) :
    ¬ StrandsAt s free n pos size := by
  intro strands
  have reaches := strands.reaches
  unfold lastBlock at reaches
  omega

theorem need_first (s : State) (n pos size : Nat) (allocated : s.sb.InodeAllocated n)
    (inside : pos + size ≤ 8192) (positive : 0 < size) :
    s.need n pos size = if s.slots n (.direct 0) = 0 then 1 else 0 := by
  have first : pos / 8192 = 0 := by omega
  have last : lastBlock pos size = 0 := by
    unfold lastBlock
    omega
  unfold State.need
  rw [first, last, missing_one _ _ 0 (by decide), leaf_direct 0 (by decide),
    State.slots_eq allocated]
  exact lacking_direct _ _ 0

/-- A new entry that goes to the end of a directory, within its first block: it is there, or the
disk is full. -/
theorem AddOutcome.first_block {s : State} {n inodeNr : Nat} {name : List Byte} {es : List Dirent}
    {r : Int × State} (outcome : AddOutcome n name inodeNr es s r)
    (absent : es.find? (addDirentTest name) = none)
    (inside : direntsSize es + (8 + (name.length + 1)) ≤ 8192) :
    (r.1 < 0 ∧ Rewritten n s r.2 ∧ r.2.sb.allocFailed = true ∧
        s.sb.free < s.entryNeed n name es) ∨
      (0 ≤ r.1 ∧ Inserted n name inodeNr es s r.2 (es ++ [newDirent name inodeNr]) ∧
        r.2.sb.free + s.entryNeed n name es = s.sb.free) := by
  cases outcome with
  | refused _ _ reason =>
      cases reason with
      | inl long => omega
      | inr taken =>
          obtain ⟨d, member, live, named⟩ := taken
          have test : addDirentTest name d = true := by
            rw [addDirentTest, if_pos live]
            exact named
          exact absurd test (List.find?_eq_none.mp absent d member)
  | stranded _ strands _ =>
      exact absurd strands.strands (not_strands_first _ _ _ _ _ inside)
  | failed negative failed =>
      cases failed.reason with
      | inl starved => exact Or.inl ⟨negative, failed.rewritten, starved.ghost, starved.short⟩
      | inr giant =>
          have large := giant.1.1
          omega
  | inserted nonneg es' done =>
      obtain ⟨same, free⟩ := done.free absent
      exact Or.inr ⟨nonneg, same ▸ done, free⟩

theorem entryNeed_dot {s : State} {n : Nat} (dir : DirOk s n []) (empty : s.slots n = fun _ => 0) :
    s.entryNeed n dot [] = 1 := by
  unfold State.entryNeed
  rw [need_first s n _ _ dir.allocated (by decide) (by decide), empty, if_pos rfl]

theorem direntsSize_dot (n : Nat) : direntsSize [newDirent dot n] = 10 := by
  rw [direntsSize_cons, length_newDirent]
  rfl

theorem entryNeed_dotDot {s : State} {n : Nat} (dir : DirOk s n [newDirent dot n]) :
    s.entryNeed n dotDot [newDirent dot n] = 0 := by
  have size := direntsSize_dot n
  have present := dir.present 0 (by rw [size]; decide) (.direct 0)
    (by rw [leaf_direct 0 (by decide)]; exact mem_path _)
  unfold State.entryNeed
  rw [size, need_first s n _ _ dir.allocated (by decide) (by decide), if_neg present]

theorem dotDot_absent {n : Nat} (inside : n < 16384) :
    [newDirent dot n].find? (addDirentTest dotDot) = none := by
  rw [List.find?_singleton, addDirentTest, if_pos (newDirent_live inside), if_neg]
  rw [newDirent_named dot_noNul]
  decide

theorem testfsCreateEmptyDir_sat (s : State) (parent n : Nat) (intact : Intact s)
    (dir : DirOk s n []) (empty : s.slots n = fun _ => 0) :
    Sat (testfsCreateEmptyDir s parent n)
      (fun r => Rewritten n s r.2 ∧
        ((r.1 < 0 ∧ r.2.sb.allocFailed = true ∧ s.sb.free = 0) ∨
        (0 ≤ r.1 ∧ DirOk r.2 n (emptyDir n parent) ∧ r.2.dirty n = true ∧
          r.2.sb.free + 1 = s.sb.free ∧ r.2.sb.allocFailed = s.sb.allocFailed)))
      (fun _ => True) := by
  unfold testfsCreateEmptyDir
  cases read : s.inode n with
  | error e => trivial
  | ok inode =>
      obtain ⟨_, view, _⟩ := intact.table.of_read read
      have kind := dir.listing.kind
      rw [← view] at kind
      rw [ok_bind, cAssert_pos kind, ok_bind]
      apply Sat.bind (testfsAddDirent_sat s n dot n [] intact dir dot_noNul)
      intro r outcome
      obtain ⟨ret, s₁⟩ := r
      change Sat (if ret < 0 then _ else _) _ _
      have first := outcome.first_block rfl (by decide)
      rw [entryNeed_dot dir empty] at first
      cases first with
      | inl full =>
          obtain ⟨negative, rewritten, ghost, short⟩ := full
          rw [if_pos negative]
          exact ⟨rewritten, Or.inl ⟨negative, ghost, Nat.lt_one_iff.mp short⟩⟩
      | inr done =>
          obtain ⟨nonneg, done, free⟩ := done
          change s₁.sb.free + 1 = s.sb.free at free
          have step := done.rewritten
          have dir₁ : DirOk s₁ n [newDirent dot n] := done.dir
          have absent := dotDot_absent dir.allocated.1
          rw [if_neg (Int.not_lt.mpr nonneg)]
          apply Sat.bind (testfsAddDirent_sat s₁ n dotDot parent _ step.intact dir₁ dotDot_noNul)
          intro r outcome
          obtain ⟨ret', s₂⟩ := r
          change Sat (if ret' < 0 then _ else _) _ _
          have second := outcome.first_block absent (by rw [direntsSize_dot]; decide)
          rw [entryNeed_dotDot dir₁] at second
          cases second with
          | inl full => exact absurd full.2.2.2 (Nat.not_lt_zero _)
          | inr done' =>
              obtain ⟨nonneg', done', free'⟩ := done'
              change s₂.sb.free = s₁.sb.free at free'
              rw [if_neg (Int.not_lt.mpr nonneg')]
              refine ⟨step.trans done'.rewritten,
                Or.inr ⟨Int.le_refl 0, done'.dir, done'.dirty, ?_, done'.ghost.trans done.ghost⟩⟩
              change s₂.sb.free + 1 = s.sb.free
              rw [free']
              exact free

theorem testfsSyncInode_sat (s : State) (ok : Consistent s.sb) (table : TableOk s) (n : Nat) :
    Sat (testfsSyncInode s n)
      (fun s' => 0 < s.refs n ∧ Shuffled s s' s.refs (Function.update s.dirty n false))
      (fun _ => True) := by
  by_cases held : 0 < s.refs n
  · obtain ⟨s', synced, step⟩ := testfsSyncInode_quiet s ok table n held
    rw [synced]
    exact ⟨held, step⟩
  · unfold testfsSyncInode State.inode
    rw [table.find_none (by omega)]
    trivial

theorem Created.undone {s s₁ s₂ s₃ s₄ : State} {n p : Nat} {type : InodeType}
    (created : Created n type s s₁) (filled : Rewritten n s₁ s₂) (tried : Rewritten p s₂ s₃)
    (removed : Removed n s₃ s₄) (owns : Owns s.sb.Allocated s.pointers)
    (allocated : s.sb.InodeAllocated p) (clean : s.dirty n = false) :
    Rewritten p s s₄ := by
  have before : ∀ m, s₃.sb.InodeAllocated m ↔ s.sb.InodeAllocated m ∨ m = n :=
    fun m => (tried.inodes m).trans ((filled.inodes m).trans (created.inodes m))
  have apart : ∀ m, s.sb.InodeAllocated m → m ≠ n :=
    fun m held same => created.fresh (same ▸ held)
  have early : ∀ m, s.sb.InodeAllocated m → Untouched s s₂ m := fun m held =>
    (created.others m held).trans
      (filled.others m ((created.inodes m).mpr (Or.inl held)) (apart m held))
  have late : ∀ m, s.sb.InodeAllocated m → Untouched s₃ s₄ m := fun m held =>
    removed.others m ((before m).mpr (Or.inl held)) (apart m held)
  refine ⟨removed.intact, ?_, ?_, ?_, ?_, ?_, ?_, ?_⟩
  · intro m
    rw [removed.inodes, before]
    constructor
    · exact fun both => both.1.resolve_right both.2
    · exact fun held => ⟨Or.inl held, apart m held⟩
  · intro m held other
    have middle :=
      tried.others m ((filled.inodes m).mpr ((created.inodes m).mpr (Or.inl held))) other
    exact (early m held).trans (middle.trans (late m held))
  · rw [(late p allocated).view, tried.kind, (early p allocated).view]
  · rw [removed.refs, tried.refs, filled.refs, created.refs, Function.update_self,
      Function.update_idem, Nat.add_sub_cancel, Function.update_eq_self]
  · intro m other
    rw [removed.dirty]
    by_cases here : m = n
    · rw [here, Function.update_self, clean]
    · rw [Function.update_of_ne here, tried.dirty m other, filled.dirty m here, created.dirty,
        Function.update_of_ne here]
  · intro failed
    rw [removed.ghost]
    apply tried.ghost
    apply filled.ghost
    rw [created.ghost]
    exact failed
  · intro unfailed backed
    rw [removed.ghost] at unfailed
    apply removed.backed tried.intact.owns
    apply tried.backed unfailed
    apply filled.backed (tried.unfailed unfailed)
    exact created.backed owns backed

def InodeType.cost : InodeType → Nat
  | .dir => 1
  | _ => 0

/-- An inode is left for a new file or directory, and its entry goes to the end of directory `p`. -/
structure Enters (s : State) (p : Nat) (name : List Byte) (type : InodeType) (es : List Dirent) :
    Prop where
  available : ∃ m < 16384, ¬ s.sb.InodeAllocated m
  enough : type.cost ≤ s.sb.free
  absent : es.find? (addDirentTest name) = none
  room : name.length + 1 < 2 ^ 31

/-- The new entry strands an indirect block of directory `p`. -/
structure CreateStrands (s : State) (p : Nat) (name : List Byte) (type : InodeType)
    (es : List Dirent) : Prop where
  enters : Enters s p name type es
  strands : StrandsAt s (s.sb.free - type.cost) p (direntsSize es) (8 + (name.length + 1))

/-- Some blocks are left for the new entry, but not enough of them. -/
structure CreateStarves (s : State) (p : Nat) (name : List Byte) (type : InodeType)
    (es : List Dirent) : Prop where
  enters : Enters s p name type es
  some : 1 ≤ s.sb.free - type.cost
  short : s.sb.free - type.cost < s.entryNeed p name es

/-- The new entry is written, but its length is misread. -/
structure CreateMiscounts (s : State) (p : Nat) (name : List Byte) (type : InodeType)
    (es : List Dirent) : Prop where
  enters : Enters s p name type es
  giant : Giant name
  fits : s.entryNeed p name es ≤ s.sb.free - type.cost

/-- A creation that failed leaves the parent dirty in two cases only. -/
def SoilsOnly (p : Nat) (name : List Byte) (type : InodeType) (es : List Dirent) (s s' : State) :
    Prop :=
  s'.dirty p = true → s.dirty p = true ∨
    s'.sb.allocFailed = true ∧ CreateStarves s p name type es ∨ CreateMiscounts s p name type es

/-- A creation that failed. -/
structure NotCreated (p : Nat) (name : List Byte) (type : InodeType) (es : List Dirent)
    (s s' : State) : Prop where
  rewritten : Rewritten p s s'
  dir : DirOk s' p es
  soils : SoilsOnly p name type es s s'

/-- A creation that succeeded. -/
structure NewEntry (p n : Nat) (name : List Byte) (type : InodeType) (es es' : List Dirent)
    (s s' : State) : Prop where
  intact : Intact s'
  inside : n < 16384
  fresh : ¬ s.sb.InodeAllocated n
  least : ∀ m < n, s.sb.InodeAllocated m
  inodes : ∀ m, s'.sb.InodeAllocated m ↔ s.sb.InodeAllocated m ∨ m = n
  others : ∀ m, s.sb.InodeAllocated m → m ≠ p → Untouched s s' m
  kind : (s'.view p).iType = (s.view p).iType
  dir : DirOk s' p es'
  place : InsertedAt (newDirent name n) es es'
  own : (s'.view n).iType = type.code
  inner : type = .dir → DirOk s' n (emptyDir n p)
  new : es.find? (fun d => d.live && d.named name) = none
  refs : s'.refs = s.refs
  dirty : ∀ m, s'.dirty m = true → s.dirty m = true ∧ m ≠ p
  ghost : s'.sb.allocFailed = s.sb.allocFailed
  backed : s'.sb.allocFailed = false → Backed s → Backed s'

/-- How `testfs_create_file_or_dir` can return. -/
inductive CreateOutcome (p : Nat) (name : List Byte) (type : InodeType) (es : List Dirent)
    (s : State) (r : Int × State) : Prop
  | failed (ret : r.1 < 0) (failed : NotCreated p name type es s r.2)
  | created (ret : r.1 = 0) (n : Nat) (es' : List Dirent)
      (created : NewEntry p n name type es es' s r.2)
  | stranded (ret : r.1 < 0) (strands : CreateStrands s p name type es)
      (ghost : r.2.sb.allocFailed = true)

section Create

variable {s s₁ s₂ s₃ : State} {n p : Nat} {name : List Byte} {type : InodeType}
  {es : List Dirent}

/-- The new inode has what a new file or directory needs. -/
structure Filled (n parent : Nat) (type : InodeType) (s s' : State) : Prop where
  rewritten : Rewritten n s s'
  inner : type = .dir → DirOk s' n (emptyDir n parent)
  free : s'.sb.free + type.cost = s.sb.free
  ghost : s'.sb.allocFailed = s.sb.allocFailed

theorem Created.fill (created : Created n type s s₁) (dir : Option Nat) :
    Sat (createContents s₁ dir type n)
      (fun r => (r.1 < 0 ∧ Rewritten n s₁ r.2 ∧ s.sb.free < type.cost) ∨
        (0 ≤ r.1 ∧ Filled n (dir.getD n) type s₁ r.2))
      (fun _ => True) := by
  unfold createContents
  by_cases kind : type = .dir
  · have allocated := (created.inodes n).mpr (Or.inr rfl)
    have view := created.view
    have empty : s₁.slots n = fun _ => 0 := by
      funext slot
      rw [State.slots_eq allocated, view, ptr_iType, ptr_zero]
    have none : DirOk s₁ n [] := by
      refine ⟨allocated, ⟨owned_of_owns created.intact.owns allocated, ?_, ?_, ?_, ?_, rfl⟩, ?_⟩
      · rw [view, kind]
      · rw [view]
        rfl
      · exact Nat.two_pow_pos 32
      · intro d member
        cases member
      · intro log below
        exact absurd below (Nat.not_lt_zero _)
    rw [if_pos kind]
    apply (testfsCreateEmptyDir_sat s₁ _ n created.intact none empty).weaken
    intro r spec
    obtain ⟨rewritten, outcome⟩ := spec
    have cost : type.cost = 1 := by rw [kind]; rfl
    cases outcome with
    | inl full =>
        have empty := full.2.2
        rw [created.free] at empty
        exact Or.inl ⟨full.1, rewritten, by omega⟩
    | inr done =>
        obtain ⟨nonneg, inner, _, free, ghost⟩ := done
        exact Or.inr ⟨nonneg, rewritten, fun _ => inner, cost ▸ free, ghost⟩
  · rw [if_neg kind]
    have cost : type.cost = 0 := by
      cases type with
      | dir => exact absurd rfl kind
      | file => rfl
      | none => rfl
    exact Or.inr ⟨Int.le_refl 0, .refl created.intact n, fun same => absurd same kind,
      by rw [cost]; rfl, rfl⟩

theorem Created.parent (created : Created n type s s₁) (filled : Rewritten n s₁ s₂)
    (dir : DirOk s p es) : Untouched s s₂ p ∧ DirOk s₂ p es := by
  have other : p ≠ n := fun same => created.fresh (same ▸ dir.allocated)
  have allocated := (created.inodes p).mpr (Or.inl dir.allocated)
  have same := (created.others p dir.allocated).trans (filled.others p allocated other)
  exact ⟨same, dir.untouched same filled.intact.owns ((filled.inodes p).mpr allocated)⟩

theorem Created.newEntry {s₄ s₅ s₆ : State} {es' : List Dirent} (created : Created n type s s₁)
    (filled : Filled n p type s₁ s₂) (dir : DirOk s p es)
    (done : Inserted p name n es s₂ s₃ es')
    (parent : Shuffled s₃ s₄ s₃.refs (Function.update s₃.dirty p false))
    (child : Shuffled s₄ s₅ s₄.refs (Function.update s₄.dirty n false))
    (put : Shuffled s₅ s₆ (Function.update s₅.refs n (s₅.refs n - 1)) s₅.dirty)
    (owns : Owns s.sb.Allocated s.pointers)
    (new : es.find? (fun d => d.live && d.named name) = none) :
    NewEntry p n name type es es' s s₆ := by
  have written := done.rewritten
  have quiet := parent.quiet.trans (child.quiet.trans put.quiet)
  have intact := quiet.intact written.intact
  have other : ∀ m, s.sb.InodeAllocated m → m ≠ n :=
    fun m held same => created.fresh (same ▸ held)
  have before : ∀ m, s₃.sb.InodeAllocated m ↔ s.sb.InodeAllocated m ∨ m = n := fun m =>
    (written.inodes m).trans ((filled.rewritten.inodes m).trans (created.inodes m))
  have self : s₃.sb.InodeAllocated n := (before n).mpr (Or.inr rfl)
  have self₂ : s₂.sb.InodeAllocated n := (written.inodes n).mp self
  have apart : n ≠ p := fun same => created.fresh (same ▸ dir.allocated)
  have own := written.others n self₂ apart
  have last : ∀ m, s₃.sb.InodeAllocated m → Untouched s₃ s₆ m := fun m held =>
    quiet.untouched written.intact.owns held
  have dirty : s₆.dirty = Function.update (Function.update s₃.dirty p false) n false := by
    rw [put.dirty, child.dirty, parent.dirty]
  refine ⟨intact, created.inside, created.fresh, created.least, ?_, ?_, ?_, ?_, done.place, ?_, ?_,
    new, ?_, ?_, ?_, ?_⟩
  · intro m
    rw [quiet.inodeAllocated_iff, before]
  · intro m held different
    have held₂ := (filled.rewritten.inodes m).mpr ((created.inodes m).mpr (Or.inl held))
    have first := (created.others m held).trans
      (filled.rewritten.others m ((created.inodes m).mpr (Or.inl held)) (other m held))
    have second := written.others m held₂ different
    exact first.trans (second.trans (last m ((written.inodes m).mpr held₂)))
  · rw [quiet.view p dir.allocated.1, written.kind,
      (created.parent filled.rewritten dir).1.view]
  · exact done.dir.quiet quiet written.intact
  · rw [quiet.view n created.inside, own.view, filled.rewritten.kind, created.view]
  · intro kind
    have inner := (filled.inner kind).untouched own written.intact.owns self
    exact inner.quiet quiet written.intact
  · have same : s₅.refs = Function.update s.refs n (s.refs n + 1) := by
      rw [child.refs, parent.refs, written.refs, filled.rewritten.refs, created.refs]
    rw [put.refs, same, Function.update_self, Function.update_idem, Nat.add_sub_cancel,
      Function.update_eq_self]
  · intro m flag
    rw [dirty] at flag
    by_cases here : m = n
    · rw [here, Function.update_self] at flag
      cases flag
    · rw [Function.update_of_ne here] at flag
      by_cases there : m = p
      · rw [there, Function.update_self] at flag
        cases flag
      · rw [Function.update_of_ne there, written.dirty m there, filled.rewritten.dirty m here,
          created.dirty, Function.update_of_ne here] at flag
        exact ⟨flag, there⟩
  · rw [quiet.ghost, done.ghost, filled.ghost, created.ghost]
  · intro unfailed backed
    rw [quiet.ghost] at unfailed
    have before : s₂.sb.allocFailed = false := done.ghost.symm.trans unfailed
    apply quiet.backed
    apply written.backed unfailed
    apply filled.rewritten.backed before
    exact created.backed owns backed

theorem createEntry_sat (s : State) (p n : Nat) (name : List Byte) (es : List Dirent)
    (intact : Intact s) (dir : DirOk s p es) (noNul : ∀ b ∈ name, b ≠ 0) :
    Sat (createEntry s (some p) name n)
      (fun r => (r.1 < 0 ∧ (r.2 = s ∨ NotInserted p name es s r.2 ∨
          EntryStrands s s.sb.free p name es ∧ r.2.sb.allocFailed = true)) ∨
        (r.1 = 0 ∧ ∃ s' es', Inserted p name n es s s' es' ∧
          Shuffled s' r.2 s'.refs (Function.update s'.dirty p false)))
      (fun _ => True) := by
  unfold createEntry
  apply Sat.bind (testfsAddDirent_sat s p name n es intact dir noNul)
  intro r outcome
  obtain ⟨ret, s'⟩ := r
  change Sat (if ret < 0 then _ else _) _ _
  cases outcome with
  | refused negative same _ =>
      rw [if_pos negative]
      exact Or.inl ⟨negative, Or.inl same⟩
  | failed negative failed =>
      rw [if_pos negative]
      exact Or.inl ⟨negative, Or.inr (Or.inl failed)⟩
  | stranded negative strands ghost =>
      rw [if_pos negative]
      exact Or.inl ⟨negative, Or.inr (Or.inr ⟨strands, ghost⟩)⟩
  | inserted nonneg es' done =>
      rw [if_neg (Int.not_lt.mpr nonneg)]
      have intact' := done.rewritten.intact
      apply Sat.bind (testfsSyncInode_sat s' intact'.consistent intact'.table p)
      intro s'' spec
      exact Or.inr ⟨rfl, s', es', done, spec.2⟩

/-- Whatever goes wrong behind the creation of the inode is undone. -/
theorem Created.undo (created : Created n type s s₁) (owns : Owns s.sb.Allocated s.pointers)
    (dir : DirOk s p es)
    (clean : s.dirty n = false) (filled : Rewritten n s₁ s₂) (tried : Rewritten p s₂ s₃)
    (dir₃ : DirOk s₃ p es) :
    Sat (testfsRemoveInode s₃ n) (fun s₄ => Rewritten p s s₄ ∧ DirOk s₄ p es ∧
      s₄.dirty p = s₃.dirty p ∧ s₄.sb.allocFailed = s₃.sb.allocFailed) (fun _ => True) := by
  have other : p ≠ n := fun equal => created.fresh (equal ▸ dir.allocated)
  have self : s₃.sb.InodeAllocated n := (tried.inodes n).mpr
    ((filled.inodes n).mpr ((created.inodes n).mpr (Or.inr rfl)))
  apply (testfsRemoveInode_sat s₃ n tried.intact self).weaken
  intro s₄ removed
  have same := removed.others p dir₃.allocated other
  refine ⟨created.undone filled tried removed owns dir.allocated clean, ?_, ?_, removed.ghost⟩
  · exact dir₃.untouched same removed.intact.owns
      ((removed.inodes p).mpr ⟨dir₃.allocated, other⟩)
  · rw [removed.dirty, Function.update_of_ne other]

/-- What is left for the record when the new inode has its blocks. -/
theorem Created.leaves (created : Created n type s s₁) (filled : Filled n p type s₁ s₂)
    (dir : DirOk s p es) (name : List Byte) : type.cost ≤ s.sb.free ∧
      s₂.sb.free = s.sb.free - type.cost ∧ s₂.entryNeed p name es = s.entryNeed p name es := by
  obtain ⟨same₂, dir₂⟩ := created.parent filled.rewritten dir
  have free₂ : s₂.sb.free + type.cost = s.sb.free := by
    rw [filled.free, created.free]
  exact ⟨by omega, by omega, need_eq dir.allocated dir₂.allocated same₂.slots _ _⟩

/-- `testfs_create_file_or_dir` behind the creation of the inode. -/
theorem Created.enter (created : Created n type s s₁) (filled : Filled n p type s₁ s₂)
    (dir : DirOk s p es) (noNul : ∀ b ∈ name, b ≠ 0) :
    Sat (createEntry s₂ (some p) name n)
      (fun r => (r.1 < 0 ∧ (Rewritten p s₂ r.2 ∧ DirOk r.2 p es ∧
          SoilsOnly p name type es s r.2 ∨
          CreateStrands s p name type es ∧ r.2.sb.allocFailed = true)) ∨
        (r.1 = 0 ∧ ∃ s' es', Inserted p name n es s₂ s' es' ∧
          Shuffled s' r.2 s'.refs (Function.update s'.dirty p false)))
      (fun _ => True) := by
  have other : p ≠ n := fun equal => created.fresh (equal ▸ dir.allocated)
  obtain ⟨same₂, dir₂⟩ := created.parent filled.rewritten dir
  obtain ⟨enough, rest, need₂⟩ := created.leaves filled dir name
  have enters : name.length + 1 < 2 ^ 31 → es.find? (addDirentTest name) = none →
      Enters s p name type es :=
    fun room absent => ⟨⟨n, created.inside, created.fresh⟩, enough, absent, room⟩
  have dirty₂ : s₂.dirty p = s.dirty p := by
    rw [filled.rewritten.dirty p other, created.dirty, Function.update_of_ne other]
  apply (createEntry_sat s₂ p n name es filled.rewritten.intact dir₂ noNul).weaken
  intro r outcome
  cases outcome with
  | inr done => exact Or.inr done
  | inl stopped =>
      obtain ⟨negative, reason⟩ := stopped
      refine Or.inl ⟨negative, ?_⟩
      cases reason with
      | inl same =>
          rw [same]
          exact Or.inl ⟨.refl filled.rewritten.intact p, dir₂, fun flag => Or.inl (dirty₂ ▸ flag)⟩
      | inr tried =>
          cases tried with
          | inl failed =>
              refine Or.inl ⟨failed.rewritten, failed.dir, fun flag => ?_⟩
              have entering := enters failed.room failed.absent
              cases failed.reason with
              | inl starved =>
                  have short := starved.short
                  change s₂.sb.free < s₂.entryNeed p name es at short
                  rw [need₂, rest] at short
                  cases starved.dirty flag with
                  | inl before => exact Or.inl (dirty₂ ▸ before)
                  | inr some =>
                      exact Or.inr (Or.inl ⟨starved.ghost, entering, rest ▸ some, short⟩)
              | inr giant =>
                  obtain ⟨long, fits, _⟩ := giant
                  rw [need₂, rest] at fits
                  exact Or.inr (Or.inr ⟨entering, long, fits⟩)
          | inr stranded =>
              obtain ⟨strands, ghost⟩ := stranded
              refine Or.inr ⟨⟨enters strands.room strands.absent, ?_⟩, ghost⟩
              have strands' := strands.strands
              unfold StrandsAt at strands' ⊢
              rw [same₂.view, rest] at strands'
              exact strands'

theorem createLookup_sat (s : State) (p : Nat) (name : List Byte) (es : List Dirent)
    (intact : Intact s) (dir : DirOk s p es) :
    Sat (createLookup s (some p) name)
      (fun r => r = match es.find? fun d => d.live && d.named name with
        | some d => d.dInodeNr.toInt
        | none => -eNOENT)
      (fun _ => True) := by
  unfold createLookup
  dsimp only
  cases read : s.inode p with
  | error e => trivial
  | ok inode =>
      obtain ⟨_, view, _⟩ := intact.table.of_read read
      have listing := dir.listing
      rw [← view] at listing
      exact (listing.nameToInodeNr name).anyStop

theorem Created.unfilled (created : Created n type s s₁) (intact : Intact s) (dir : DirOk s p es)
    (fresh : s.dirty n = false) (rewritten : Rewritten n s₁ s₂) {ret : Int} (negative : ret < 0) :
    Sat (testfsRemoveInode s₂ n >>= fun s => .ok (ret, s)) (CreateOutcome p name type es s)
      (fun _ => True) := by
  have other : p ≠ n := fun equal => created.fresh (equal ▸ dir.allocated)
  apply Sat.bind (created.undo intact.owns dir fresh rewritten (.refl rewritten.intact p)
    (created.parent rewritten dir).2)
  intro s₄ spec
  obtain ⟨back, dir₄, dirty, _⟩ := spec
  refine .failed negative ⟨back, dir₄, fun flag => Or.inl ?_⟩
  change s₄.dirty p = true at flag
  rw [dirty, rewritten.dirty p other, created.dirty, Function.update_of_ne other] at flag
  exact flag

theorem Created.unentered (created : Created n type s s₁) (intact : Intact s) (dir : DirOk s p es)
    (fresh : s.dirty n = false) (filled : Filled n p type s₁ s₂) {ret : Int} (negative : ret < 0)
    (reason : Rewritten p s₂ s₃ ∧ DirOk s₃ p es ∧ SoilsOnly p name type es s s₃ ∨
      CreateStrands s p name type es ∧ s₃.sb.allocFailed = true) :
    Sat (testfsRemoveInode s₃ n >>= fun s => .ok (ret, s)) (CreateOutcome p name type es s)
      (fun _ => True) := by
  cases reason with
  | inl undone =>
      obtain ⟨tried, dir₃, soils⟩ := undone
      apply Sat.bind (created.undo intact.owns dir fresh filled.rewritten tried dir₃)
      intro s₄ spec
      obtain ⟨back, dir₄, dirty, ghost⟩ := spec
      refine .failed negative ⟨back, dir₄, ?_⟩
      unfold SoilsOnly at soils ⊢
      change s₄.dirty p = s₃.dirty p at dirty
      change s₄.sb.allocFailed = s₃.sb.allocFailed at ghost
      change s₄.dirty p = true → s.dirty p = true ∨ s₄.sb.allocFailed = true ∧ _ ∨ _
      rw [dirty, ghost]
      exact soils
  | inr stranded =>
      obtain ⟨strands, ghost⟩ := stranded
      apply Sat.bind (testfsRemoveInode_unfailing s₃ n)
      intro s₄ same
      exact .stranded negative strands (same.trans ghost)

theorem Created.entered (created : Created n type s s₁) (intact : Intact s) (dir : DirOk s p es)
    (filled : Filled n p type s₁ s₂) (new : es.find? (fun d => d.live && d.named name) = none)
    {s' : State} {es' : List Dirent} (done : Inserted p name n es s₂ s' es')
    (parent : Shuffled s' s₃ s'.refs (Function.update s'.dirty p false)) :
    Sat (testfsSyncInode s₃ n >>= fun s => testfsPutInode s n >>= fun s => .ok (0, s))
      (CreateOutcome p name type es s) (fun _ => True) := by
  have intact₃ := parent.quiet.intact done.rewritten.intact
  apply Sat.bind (testfsSyncInode_sat s₃ intact₃.consistent intact₃.table n)
  intro s₄ spec
  have child := spec.2
  have intact₄ := child.quiet.intact intact₃
  apply Sat.bind (testfsPutInode_sat s₄ intact₄.consistent intact₄.table n)
  intro s₅ spec
  exact .created rfl n es'
    (created.newEntry filled dir done parent child spec.2.2.2 intact.owns new)

theorem testfsCreateFileOrDir_sat (s : State) (p : Nat) (type : InodeType) (name : List Byte)
    (es : List Dirent) (intact : Intact s) (dir : DirOk s p es) (noNul : ∀ b ∈ name, b ≠ 0)
    (clean : ∀ m, ¬ s.sb.InodeAllocated m → s.dirty m = false) :
    Sat (testfsCreateFileOrDir s (some p) type name)
      (CreateOutcome p name type es s) (fun _ => True) := by
  have unchanged : NotCreated p name type es s s := ⟨.refl intact p, dir, Or.inl⟩
  unfold testfsCreateFileOrDir
  apply Sat.bind (createLookup_sat s p name es intact dir)
  intro found same
  cases search : es.find? fun d => d.live && d.named name with
  | some d =>
      have live := List.find?_some search
      rw [Bool.and_eq_true] at live
      have nonneg : 0 ≤ d.dInodeNr.toInt := of_decide_eq_true live.1
      have negative : -eEXIST < 0 := by decide
      rw [search] at same
      rw [same, if_pos nonneg]
      exact .failed negative unchanged
  | none =>
      have absent : ¬ (0 : Int) ≤ -eNOENT := by decide
      rw [search] at same
      rw [same, if_neg absent]
      apply Sat.bind (testfsCreateInode_sat s type intact).total
      rintro ⟨ret, n, s₁⟩ (⟨negative, _, same₁⟩ | ⟨zero, created⟩)
      · change ret < 0 at negative
        change s₁ = s at same₁
        change Sat (if ret < 0 then _ else _) _ _
        rw [if_pos negative, same₁]
        exact .failed negative unchanged
      · change ret = 0 at zero
        change Created n type s s₁ at created
        have fresh := clean n created.fresh
        change Sat (if ret < 0 then _ else _) _ _
        rw [zero, if_neg (Int.lt_irrefl 0)]
        apply Sat.bind (created.fill (some p))
        rintro ⟨ret₁, s₂⟩ (⟨negative, rewritten, _⟩ | ⟨nonneg, filled⟩)
        · change ret₁ < 0 at negative
          change Sat (if ret₁ < 0 then _ else _) _ _
          rw [if_pos negative]
          exact created.unfilled intact dir fresh rewritten negative
        · change Filled n p type s₁ s₂ at filled
          change Sat (if ret₁ < 0 then _ else _) _ _
          rw [if_neg (Int.not_lt.mpr nonneg)]
          apply Sat.bind (created.enter filled dir noNul)
          rintro ⟨ret₂, s₃⟩ (⟨negative, reason⟩ | ⟨zero₂, s', es', done, parent⟩)
          · change ret₂ < 0 at negative
            change Sat (if ret₂ < 0 then _ else _) _ _
            rw [if_pos negative]
            exact created.unentered intact dir fresh filled negative reason
          · change ret₂ = 0 at zero₂
            change Sat (if ret₂ < 0 then _ else _) _ _
            rw [zero₂, if_neg (Int.lt_irrefl 0)]
            exact created.entered intact dir filled search done parent

end Create

end Ece344Lab.Fs
