import Ece344Lab.Fs.Intact

set_option autoImplicit false

/- Getting, putting, creating and removing inodes. -/
namespace Ece344Lab.Fs

open Outcome Ownership

/-- A quiet step with the references and dirty flags afterwards. -/
structure Shuffled (s s' : State) (refs : Nat → Nat) (dirty : Nat → Bool) : Prop where
  quiet : Quiet s s'
  refs : s'.refs = refs
  dirty : s'.dirty = dirty

theorem testfsGetInode_sat (s : State) (ok : Consistent s.sb) (table : TableOk s) (n : Nat) :
    Sat (testfsGetInode s n)
      (fun s' => n < 16384 ∧ s'.sb = s.sb ∧
        Shuffled s s' (Function.update s.refs n (s.refs n + 1)) s.dirty)
      (fun _ => True) := by
  by_cases inside : n < 16384
  · obtain ⟨s', returned, same, step⟩ := testfsGetInode_eq s ok table n inside
    rw [returned]
    exact ⟨inside, same, .of_retabled ok same step, funext step.refs, funext step.dirty⟩
  · have absent : inodeHashFind s.inodes n = none := by
      cases found : inodeHashFind s.inodes n with
      | none => rfl
      | some inode => exact absurd (table.range n inode found) inside
    have beyond : ¬ n / inodesPerBlock < nrInodeBlocks := by
      change ¬ n / 128 < 128
      omega
    unfold testfsGetInode testfsReadInodeBlock testfsInodeToBlockNr
    rw [absent]
    simp only [cAssert_neg beyond, error_bind, sat_error]

theorem testfsPutInode_quiet (s : State) (ok : Consistent s.sb) (table : TableOk s) (n : Nat)
    (held : 0 < s.refs n) (clean : s.dirty n = false) :
    ∃ s', testfsPutInode s n = .ok s' ∧ s'.sb = s.sb ∧
      Shuffled s s' (Function.update s.refs n (s.refs n - 1)) s.dirty := by
  have spec := testfsPutInode_eq s table n held
  rw [if_neg (Bool.eq_false_iff.mp clean)] at spec
  obtain ⟨s', returned, same, step⟩ := spec
  exact ⟨s', returned, same, .of_retabled ok same step, funext step.refs, funext step.dirty⟩

theorem testfsPutInode_sat (s : State) (ok : Consistent s.sb) (table : TableOk s) (n : Nat) :
    Sat (testfsPutInode s n)
      (fun s' => 0 < s.refs n ∧ s.dirty n = false ∧ s'.sb = s.sb ∧
        Shuffled s s' (Function.update s.refs n (s.refs n - 1)) s.dirty)
      (fun _ => True) := by
  by_cases held : 0 < s.refs n
  · by_cases dirty : s.dirty n = true
    · have spec := testfsPutInode_eq s table n held
      rw [if_pos dirty] at spec
      rw [spec]
      trivial
    · have clean := Bool.eq_false_iff.mpr dirty
      obtain ⟨s', returned, step⟩ := testfsPutInode_quiet s ok table n held clean
      rw [returned]
      exact ⟨held, clean, step⟩
  · unfold testfsPutInode State.inode
    rw [table.find_none (by omega)]
    trivial

theorem testfsSyncInode_quiet (s : State) (ok : Consistent s.sb) (table : TableOk s) (n : Nat)
    (held : 0 < s.refs n) :
    ∃ s', testfsSyncInode s n = .ok s' ∧
      Shuffled s s' s.refs (Function.update s.dirty n false) := by
  obtain ⟨s', returned, same, step⟩ := testfsSyncInode_eq s ok table n held
  have inside := table.in_range held
  refine ⟨s', returned, ⟨?_, step.ok, step.view, ?_, ?_, ?_, ?_, ?_, ?_⟩, funext step.refs,
    funext step.dirty⟩
  · rw [same]
    split
    · exact ok.written _ _ (by omega)
    · exact ok
  · intro k data
    rw [same]
    split
    · exact if_neg (by omega)
    · rfl
  · rw [same]
    split <;> rfl
  · rw [same]
    split <;> rfl
  · rw [same]
    split <;> rfl
  · rw [same]
    split <;> rfl
  · rw [same]
    split
    · exact Nat.le_max_left _ _
    · exact Nat.le_refl _

theorem written_back (s : State) (ok : Consistent s.sb) (table : TableOk s) (n : Nat)
    (held : 0 < s.refs n) :
    ∃ s₁ s₂, testfsSyncInode s n = .ok s₁ ∧ testfsPutInode s₁ n = .ok s₂ ∧
      Shuffled s s₂ (Function.update s.refs n (s.refs n - 1))
        (Function.update s.dirty n false) := by
  obtain ⟨s₁, synced, sync⟩ := testfsSyncInode_quiet s ok table n held
  have held₁ : 0 < s₁.refs n := by
    rw [sync.refs]
    exact held
  have clean : s₁.dirty n = false := by
    rw [sync.dirty, Function.update_self]
  obtain ⟨s₂, returned, _, put⟩ :=
    testfsPutInode_quiet s₁ sync.quiet.consistent sync.quiet.table n held₁ clean
  refine ⟨s₁, s₂, synced, returned, sync.quiet.trans put.quiet, ?_, put.dirty.trans sync.dirty⟩
  rw [put.refs, sync.refs]

/-- What `testfs_remove_inode` does when it returns. -/
structure Removed (n : Nat) (s s' : State) : Prop where
  intact : Intact s'
  inodes : ∀ m, s'.sb.InodeAllocated m ↔ s.sb.InodeAllocated m ∧ m ≠ n
  others : ∀ m, s.sb.InodeAllocated m → m ≠ n → Untouched s s' m
  refs : s'.refs = Function.update s.refs n (s.refs n - 1)
  dirty : s'.dirty = Function.update s.dirty n false
  ghost : s'.sb.allocFailed = s.sb.allocFailed
  longer : s.sb.dev.nr ≤ s'.sb.dev.nr

theorem eq_of_zero_eq_sub {a b : Nat} (small : a < 2 ^ 32) (small' : b < 2 ^ 32)
    (zero : (0 : BitVec 32) = BitVec.ofNat 32 a - BitVec.ofNat 32 b) : a = b := by
  have value := congrArg BitVec.toNat zero
  rw [BitVec.toNat_sub, BitVec.toNat_ofNat, BitVec.toNat_ofNat, Nat.mod_eq_of_lt small,
    Nat.mod_eq_of_lt small'] at value
  have none : (0 : BitVec 32).toNat = 0 := rfl
  omega

/-- A block count that comes down to zero has been charged for every block. -/
theorem Freeing.all {sb₀ sb : SuperBlock} {inode₀ inode : Inode} {F : Finset Slot}
    (freeing : Freeing sb₀ inode₀ F sb inode) (owned : Owned sb₀ inode₀.dinode)
    (count : inode₀.dinode.blockCount = BitVec.ofNat 32 (held (ptr sb₀.dev inode₀.dinode)))
    (zero : inode.dinode.blockCount = 0) (s : Slot)
    (nonzero : ptr sb₀.dev inode₀.dinode s ≠ 0) : s ∈ F := by
  have most : held (ptr sb₀.dev inode₀.dinode) ≤ 1048722 := by
    apply owned.held_le
    intro n allocated
    exact allocated.2.1
  have few := card_filter_le_held (ptr sb₀.dev inode₀.dinode) F
  have charge := freeing.charge
  rw [zero, count] at charge
  exact mem_of_held _ F (eq_of_zero_eq_sub (by omega) (by omega) charge) s nonzero

section Remove

variable {s s' : State} {n : Nat} {inode inode' : Inode} {F : Finset Slot} {sb : SuperBlock}

theorem Freeing.inodeAllocated_iff (freeing : Freeing s.sb inode F sb inode')
    (super : s'.sb = sb.inodeReleased n) (m : Nat) :
    s'.sb.InodeAllocated m ↔ s.sb.InodeAllocated m ∧ m ≠ n := by
  rw [super, SuperBlock.inodeAllocated_inodeReleased]
  unfold SuperBlock.InodeAllocated
  rw [freeing.inodes]

/-- Blocks from 18 on, after the inode number has been given back as well. -/
theorem Freeing.block_released (freeing : Freeing s.sb inode F sb inode')
    (super : s'.sb = sb.inodeReleased n) (small : n < 16384) (k : Nat) (data : 18 ≤ k) :
    s'.sb.dev.block k = sb.dev.block k := by
  rw [super]
  exact SuperBlock.block_inodeReleased freeing.consistent.layout (by omega) k (by omega)

/-- The inodes that are not removed. -/
theorem Freeing.untouched (freeing : Freeing s.sb inode F sb inode')
    (super : s'.sb = sb.inodeReleased n) (owns : Owns s.sb.Allocated s.pointers)
    (allocated : s.sb.InodeAllocated n) (view : inode.dinode = s.view n)
    (views : ∀ m < 16384, s'.view m = Function.update s.view n Dinode.zero m) {m : Nat}
    (allocated' : s.sb.InodeAllocated m) (other : m ≠ n) : Untouched s s' m := by
  have owned := owned_of_owns owns allocated'
  apply Untouched.of_blocks allocated'
    ((freeing.inodeAllocated_iff super m).mpr ⟨allocated', other⟩)
  · rw [views m allocated'.1, Function.update_of_ne other]
  · intro slot nonzero
    have range := (owned.range nonzero).1
    rw [freeing.block_released super allocated.1 _ (by omega)]
    apply freeing.kept _ (by omega)
    intro slot' _
    rw [view]
    exact apart_of_owns owns allocated allocated' other slot' slot nonzero

/-- The state in which an inode has lost its blocks, its number and its contents. -/
theorem Freeing.intact (freeing : Freeing s.sb inode F sb inode')
    (super : s'.sb = sb.inodeReleased n) (intact : Intact s)
    (allocated : s.sb.InodeAllocated n) (view : inode.dinode = s.view n)
    (all : ∀ slot, ptr s.sb.dev inode.dinode slot ≠ 0 → slot ∈ F) (table : TableOk s')
    (views : ∀ m < 16384, s'.view m = Function.update s.view n Dinode.zero m) : Intact s' := by
  have owns := intact.owns
  have inodes : ∀ m, s'.sb.InodeAllocated m ↔ s.sb.InodeAllocated m ∧ m ≠ n :=
    freeing.inodeAllocated_iff super
  have gone : ∀ m, ¬ (s.sb.InodeAllocated m ∧ m ≠ n) → s'.slots m = fun _ => 0 :=
    fun m free => State.slots_free fun held => free ((inodes m).mp held)
  have others : ∀ m, m ≠ n → s'.slots m = s.slots m := by
    intro m other
    by_cases held : s.sb.InodeAllocated m
    · exact (freeing.untouched super owns allocated view views held other).slots
    · rw [gone m fun both => held both.1, State.slots_free held]
  have blocks : ∀ k, s'.sb.Allocated k ↔
      s.sb.Allocated k ∧ ∀ slot, s.slots n slot ≠ k := by
    intro k
    rw [super, SuperBlock.allocated_inodeReleased, freeing.allocated, State.slots_eq allocated,
      ← view]
    constructor
    · intro held
      have lower := held.1.1
      refine ⟨held.1, fun slot => ?_⟩
      by_cases null : ptr s.sb.dev inode.dinode slot = 0
      · omega
      · exact held.2 slot (all slot null)
    · exact fun held => ⟨held.1, fun slot _ => held.2 slot⟩
  have releases : Releases s.sb.Allocated s.slots n s'.sb.Allocated s'.slots :=
    ⟨fun slot => congrFun (gone n fun both => both.2 rfl) slot, others, blocks⟩
  have present : bitmapIsset sb.inodeFreemap n = true := by
    rw [freeing.inodes]
    exact allocated.2
  have small := allocated.1
  refine ⟨super ▸ freeing.consistent.inodeReleased (by omega) present, table, releases.owns owns,
    releases.full intact.full, ?_, ?_, ?_, ?_⟩
  · intro m held
    have before := (inodes m).mp held
    have same := freeing.untouched super owns allocated view views before.1 before.2
    rw [same.view, same.slots]
    exact intact.counts m before.1
  · intro k data clear
    rw [freeing.block_released super small k (by omega)]
    rw [blocks] at clear
    by_cases freed : ∃ slot ∈ F, ptr s.sb.dev inode.dinode slot = k
    · obtain ⟨slot, member, same⟩ := freed
      rw [← same]
      exact freeing.zeros slot member (by omega)
    · push Not at freed
      rw [freeing.kept k (by omega) freed]
      apply intact.zeros k data
      intro held
      refine clear ⟨held, fun slot same => ?_⟩
      rw [State.slots_eq allocated, ← view] at same
      exact freed slot (all slot (by omega)) same
  · intro m inside free
    rw [views m inside]
    by_cases same : m = n
    · rw [same, Function.update_self]
    · rw [Function.update_of_ne same]
      exact intact.blank m inside fun held => free ((inodes m).mpr ⟨held, same⟩)
  · intro m marked
    rw [super] at marked
    simp only [SuperBlock.inodeReleased, Bitmap.isset_unmark, Bool.and_eq_true] at marked
    rw [freeing.inodes] at marked
    exact intact.bits m marked.1

/-- The inode has lost its blocks, its number and its contents, but has not been written back. -/
structure Erased (n : Nat) (s s' : State) : Prop where
  intact : Intact s'
  inodes : ∀ m, s'.sb.InodeAllocated m ↔ s.sb.InodeAllocated m ∧ m ≠ n
  others : ∀ m, s.sb.InodeAllocated m → m ≠ n → Untouched s s' m
  refs : s'.refs = s.refs
  dirty : s'.dirty = Function.update s.dirty n true
  ghost : s'.sb.allocFailed = s.sb.allocFailed
  longer : s.sb.dev.nr ≤ s'.sb.dev.nr

theorem Freeing.erased (freeing : Freeing s.sb inode F sb inode') (read : s.inode n = .ok inode)
    (intact : Intact s) (allocated : s.sb.InodeAllocated n)
    (all : ∀ slot, ptr s.sb.dev inode.dinode slot ≠ 0 → slot ∈ F) :
    ∃ sb', testfsPutInodeFreemap sb n = .ok sb' ∧
      Erased n s { ({ s with sb := sb }.update
        { inode' with dinode := Dinode.zero, dirty := true }) with sb := sb' } := by
  obtain ⟨_, view, _⟩ := intact.table.of_read read
  have owned := owned_of_owns intact.owns allocated
  rw [← view] at owned
  let blank : Inode := { inode' with dinode := Dinode.zero, dirty := true }
  have kept : ∀ k, 18 ≤ k → k < 146 → sb.dev.block k = s.sb.dev.block k := by
    intro k lower upper
    apply freeing.kept k lower
    intro slot _ same
    have := owned.range (s := slot) (by omega)
    omega
  have first : Retabled s ({ s with sb := sb }.update blank)
      (Function.update s.view n Dinode.zero) s.refs (Function.update s.dirty n true) :=
    Retabled.onInode intact.table ⟨0, blank, sb⟩ read freeing.number freeing.count
      (fun clean => by cases clean) kept
  have small : n < 65536 := by
    have inside := allocated.1
    omega
  have present : bitmapIsset sb.inodeFreemap n = true := by
    rw [freeing.inodes]
    exact allocated.2
  refine ⟨sb.inodeReleased n, testfsPutInodeFreemap_eq sb freeing.consistent n small present, ?_⟩
  have second := Retabled.of_blocks first.ok (sb.inodeReleased n) fun k lower upper =>
    SuperBlock.block_inodeReleased freeing.consistent.layout small k (by omega)
  have views := fun m inside => (second.view m inside).trans (first.view m inside)
  refine ⟨freeing.intact rfl intact allocated view all second.ok views,
    freeing.inodeAllocated_iff rfl, fun m before other =>
    freeing.untouched rfl intact.owns allocated view views before other, ?_, ?_, freeing.ghost, ?_⟩
  · funext m
    exact (second.refs m).trans (first.refs m)
  · funext m
    exact (second.dirty m).trans (first.dirty m)
  · exact freeing.longer.trans (by simp [SuperBlock.inodeReleased])

/-- The second half: the blank inode is written and let go. -/
theorem Erased.removed (erased : Erased n s s') (held : 0 < s.refs n) :
    ∃ s₁ s₂, testfsSyncInode s' n = .ok s₁ ∧ testfsPutInode s₁ n = .ok s₂ ∧ Removed n s s₂ := by
  have intact := erased.intact
  obtain ⟨s₁, s₂, synced, returned, step⟩ := written_back s' intact.consistent intact.table n
    (by rw [erased.refs]; exact held)
  have quiet := step.quiet
  refine ⟨s₁, s₂, synced, returned, quiet.intact intact, ?_, ?_, ?_, ?_, ?_, ?_⟩
  · intro m
    rw [quiet.inodeAllocated_iff]
    exact erased.inodes m
  · intro m before other
    have after := (erased.inodes m).mpr ⟨before, other⟩
    exact (erased.others m before other).trans (quiet.untouched intact.owns after)
  · rw [step.refs, erased.refs]
  · rw [step.dirty, erased.dirty, Function.update_idem]
  · rw [quiet.ghost]
    exact erased.ghost
  · exact erased.longer.trans quiet.longer

end Remove

/-- Inode `n` is in memory, and `testfs_free_blocks` can read and give back all of its blocks. -/
structure State.Erasable (s : State) (n : Nat) : Prop where
  inTable : 0 < s.refs n
  stored : Stored s.sb.dev (s.view n)
  within : WithinSize s.sb.dev (s.view n)
  bounded : (s.view n).endBlock < 2 ^ 31

/-- `testfs_remove_inode` on an allocated inode, and when it returns. -/
theorem testfsRemoveInode_spec (s : State) (n : Nat) (intact : Intact s)
    (allocated : s.sb.InodeAllocated n) :
    Sat (testfsRemoveInode s n) (Removed n s) (fun _ => ¬ s.Erasable n) := by
  unfold testfsRemoveInode
  cases read : s.inode n with
  | error e =>
      intro erasable
      obtain ⟨_, _, read', _⟩ := intact.table.inode_eq erasable.inTable
      rw [read] at read'
      cases read'
  | ok inode =>
      have held := intact.table.refs_pos read
      obtain ⟨_, view, _, number, count⟩ := intact.table.of_read read
      have owned := owned_of_owns intact.owns allocated
      rw [← view] at owned
      rw [ok_bind]
      apply Sat.bind ((testfsFreeBlocks_sat s.sb inode intact.consistent owned).mono
        (fun _ spec => spec) fun _ stop erasable => stop.2 (view ▸ erasable.stored))
      intro r spec
      obtain ⟨inode', sb⟩ := r
      obtain ⟨F, freeing, covers⟩ := spec
      have counts := intact.counts n allocated
      rw [State.slots_eq allocated, ← view] at counts
      change Sat (cAssert (inode'.dinode.blockCount = 0) >>= _) _ _
      by_cases zero : inode'.dinode.blockCount = 0
      · obtain ⟨sb', given, erased⟩ := freeing.erased read intact allocated
          (freeing.all owned counts zero)
        obtain ⟨s₁, s₂, synced, returned, removed⟩ := erased.removed held
        rw [cAssert_pos zero, ok_bind]
        change Sat (testfsPutInodeFreemap sb n >>= _) _ _
        rw [given, ok_bind, synced, ok_bind, returned]
        exact removed
      · rw [cAssert_neg zero]
        intro erasable
        have within := erasable.within
        have bounded := erasable.bounded
        rw [← view] at within bounded
        exact zero (freeing.emptied counts (covers within bounded))

theorem testfsRemoveInode_sat (s : State) (n : Nat) (intact : Intact s)
    (allocated : s.sb.InodeAllocated n) :
    Sat (testfsRemoveInode s n) (Removed n s) (fun _ => True) :=
  (testfsRemoveInode_spec s n intact allocated).anyStop

/-- What `testfs_create_inode` does when it succeeds. -/
structure Created (n : Nat) (type : InodeType) (s s' : State) : Prop where
  intact : Intact s'
  inside : n < 16384
  fresh : ¬ s.sb.InodeAllocated n
  least : ∀ m < n, s.sb.InodeAllocated m
  inodes : ∀ m, s'.sb.InodeAllocated m ↔ s.sb.InodeAllocated m ∨ m = n
  view : s'.view n = { Dinode.zero with iType := type.code }
  others : ∀ m, s.sb.InodeAllocated m → Untouched s s' m
  refs : s'.refs = Function.update s.refs n (s.refs n + 1)
  dirty : s'.dirty = Function.update s.dirty n true
  free : s'.sb.free = s.sb.free
  ghost : s'.sb.allocFailed = s.sb.allocFailed
  longer : s.sb.dev.nr ≤ s'.sb.dev.nr

theorem ptr_iType (dev : Device) (d : Dinode) (type : BitVec 32) :
    ptr dev { d with iType := type } = ptr dev d := by
  funext s
  cases s <;> rfl

section Taken

variable {s s' : State} {n : Nat}

/-- The inodes in use, after one more number has been handed out. -/
theorem untouched_of_taken (intact : Intact s) (inside : n < 16384)
    (super : s'.sb = s.sb.inodeTaken n) (fresh : ¬ s.sb.InodeAllocated n)
    (view : ∀ m < 16384, m ≠ n → s'.view m = s.view m) {m : Nat} (held : s.sb.InodeAllocated m) :
    Untouched s s' m := by
  have owned := owned_of_owns intact.owns held
  have after : s'.sb.InodeAllocated m := by
    rw [super]
    exact (s.sb.inodeAllocated_inodeTaken n inside m).mpr (Or.inl held)
  apply Untouched.of_blocks held after
  · apply view m held.1
    intro same
    exact fresh (same ▸ held)
  · intro slot nonzero
    have range := (owned.range nonzero).1
    rw [super]
    exact SuperBlock.block_inodeTaken intact.consistent.layout (by omega) _ (by omega)

/-- An inode without blocks brings no pointers. -/
theorem slots_of_taken {type : InodeType} (inside : n < 16384)
    (super : s'.sb = s.sb.inodeTaken n)
    (view : s'.view n = { Dinode.zero with iType := type.code })
    (others : ∀ m, s.sb.InodeAllocated m → Untouched s s' m) (m : Nat) :
    s'.slots m = s.slots m := by
  have inodes : ∀ k, s'.sb.InodeAllocated k ↔ s.sb.InodeAllocated k ∨ k = n := by
    intro k
    rw [super]
    exact s.sb.inodeAllocated_inodeTaken n inside k
  by_cases held : s.sb.InodeAllocated m
  · exact (others m held).slots
  · rw [State.slots_free held]
    by_cases same : m = n
    · funext slot
      rw [same, State.slots_eq ((inodes n).mpr (Or.inr rfl)), view, ptr_iType, ptr_zero]
    · exact State.slots_free fun after => held (((inodes m).mp after).resolve_right same)

end Taken

/-- The state in which an inode number has been handed out and the inode has a type. -/
theorem created_of_taken {s s' : State} {n : Nat} {type : InodeType} (intact : Intact s)
    (inside : n < 16384) (clear : bitmapIsset s.sb.inodeFreemap n = false)
    (least : ∀ m < n, bitmapIsset s.sb.inodeFreemap m = true)
    (super : s'.sb = s.sb.inodeTaken n)
    (step : Retabled s s' (Function.update s.view n { Dinode.zero with iType := type.code })
      (Function.update s.refs n (s.refs n + 1)) (Function.update s.dirty n true)) :
    Created n type s s' := by
  have fresh : ¬ s.sb.InodeAllocated n := by
    intro held
    rw [held.2] at clear
    cases clear
  have inodes : ∀ m, s'.sb.InodeAllocated m ↔ s.sb.InodeAllocated m ∨ m = n := by
    intro m
    rw [super]
    exact s.sb.inodeAllocated_inodeTaken n inside m
  have view : s'.view n = { Dinode.zero with iType := type.code } := by
    rw [step.view n inside, Function.update_self]
  have view' : ∀ m < 16384, m ≠ n → s'.view m = s.view m := by
    intro m small other
    rw [step.view m small, Function.update_of_ne other]
  have others : ∀ m, s.sb.InodeAllocated m → Untouched s s' m :=
    fun m held => untouched_of_taken intact inside super fresh view' held
  have slots := slots_of_taken inside super view others
  have pointers : s'.pointers = s.pointers := by
    funext p
    exact congrFun (slots p.1) p.2
  have allocated : s'.sb.Allocated = s.sb.Allocated := by
    rw [super]
    rfl
  refine ⟨⟨?_, step.ok, ?_, ?_, ?_, ?_, ?_, ?_⟩, inside, fresh,
    fun m below => ⟨below.trans inside, least m below⟩, inodes, view, others,
    funext step.refs, funext step.dirty, ?_, ?_, ?_⟩
  · rw [super]
    exact intact.consistent.inodeTaken (by omega) clear
  · rw [allocated, pointers]
    exact intact.owns
  · rw [allocated, pointers]
    exact intact.full
  · intro m after
    rw [slots]
    by_cases same : m = n
    · have none : held (s.slots n) = 0 := by
        rw [State.slots_free fresh]
        exact held_null
      rw [same, view, none]
      rfl
    · have before := ((inodes m).mp after).resolve_right same
      rw [(others m before).view]
      exact intact.counts m before
  · intro k data clear
    rw [allocated] at clear
    rw [super, SuperBlock.block_inodeTaken intact.consistent.layout (by omega) k (by omega)]
    exact intact.zeros k data clear
  · intro m small free
    have before : ¬ s.sb.InodeAllocated m := fun held => free ((inodes m).mpr (Or.inl held))
    rw [view' m small fun same => free ((inodes m).mpr (Or.inr same))]
    exact intact.blank m small before
  · intro m marked
    rw [super] at marked
    simp only [SuperBlock.inodeTaken, Bitmap.isset_mark, Bool.or_eq_true,
      decide_eq_true_eq] at marked
    cases marked with
    | inl before => exact intact.bits m before
    | inr same => exact same ▸ inside
  · rw [super]
    rfl
  · rw [super]
    rfl
  · rw [super]
    simp [SuperBlock.inodeTaken]

/-- An inode is handed out with one more reference, and then written to in the table. -/
theorem Retabled.edited {s s₁ s₂ s₃ : State} {n count : Nat} {d : Dinode} {flag : Bool}
    (first : Retabled s s₁ s.view s.refs s.dirty)
    (second : Retabled s₁ s₂ s₁.view (Function.update s₁.refs n (s₁.refs n + 1)) s₁.dirty)
    (third : Retabled s₂ s₃ (Function.update s₂.view n d) (Function.update s₂.refs n count)
      (Function.update s₂.dirty n flag)) (amount : count = s₂.refs n) :
    Retabled s s₃ (Function.update s.view n d) (Function.update s.refs n (s.refs n + 1))
      (Function.update s.dirty n flag) := by
  refine ⟨third.ok, ?_, ?_, ?_, third.stdout.trans (second.stdout.trans first.stdout)⟩
  · intro m small
    rw [third.view m small]
    by_cases here : m = n
    · rw [here, Function.update_self, Function.update_self]
    · rw [Function.update_of_ne here, Function.update_of_ne here, second.view m small,
        first.view m small]
  · intro m
    rw [third.refs, amount, second.refs, Function.update_self, first.refs]
    by_cases here : m = n
    · rw [here, Function.update_self, Function.update_self]
    · rw [Function.update_of_ne here, Function.update_of_ne here, second.refs,
        Function.update_of_ne here, first.refs]
  · intro m
    rw [third.dirty]
    by_cases here : m = n
    · rw [here, Function.update_self, Function.update_self]
    · rw [Function.update_of_ne here, Function.update_of_ne here, second.dirty, first.dirty]

/-- `testfs_create_inode` gives out a new inode of the wanted type, or all numbers are in use and
nothing changes. -/
theorem testfsCreateInode_sat (s : State) (type : InodeType) (intact : Intact s) :
    Sat (testfsCreateInode s type)
      (fun r => (r.1 < 0 ∧ (∀ m < 16384, s.sb.InodeAllocated m) ∧ r.2.2 = s) ∨
        (r.1 = 0 ∧ Created r.2.1 type s r.2.2))
      (fun _ => False) := by
  have negative : -eNOSPC < 0 := by decide
  unfold testfsCreateInode
  apply Sat.bind (testfsGetInodeFreemap_sat s.sb intact.consistent)
  intro r spec
  cases spec with
  | inl full =>
      rw [full.2]
      simp only [negative, ↓reduceIte]
      exact Or.inl ⟨negative, fun m inside => ⟨inside, full.1 m (by omega)⟩, rfl⟩
  | inr found =>
      obtain ⟨n, small, clear, least, same⟩ := found
      rw [same]
      have nonneg : ¬ (n : Int) < 0 := by omega
      simp only [nonneg, ↓reduceIte, Int.toNat_natCast]
      have taken := intact.consistent.inodeTaken small clear
      apply Sat.ite
      · intro full
        have present : bitmapIsset (s.sb.inodeTaken n).inodeFreemap n = true := by
          simp [SuperBlock.inodeTaken, Bitmap.isset_mark]
        rw [testfsPutInodeFreemap_eq _ taken n small present,
          inodeReleased_inodeTaken intact.consistent small clear]
        refine Or.inl ⟨negative, fun m inside => ⟨inside, least m ?_⟩, rfl⟩
        have behind : 128 ≤ n / 128 := full
        omega
      · intro room
        have inside : n < 16384 := by
          have below : n / 128 < 128 := Nat.not_le.mp room
          omega
        have first := Retabled.of_blocks intact.table (s.sb.inodeTaken n) fun k lower _ =>
          SuperBlock.block_inodeTaken intact.consistent.layout small k (by omega)
        obtain ⟨s₂, returned, same', second⟩ :=
          testfsGetInode_eq { s with sb := s.sb.inodeTaken n } taken first.ok n inside
        rw [returned, ok_bind]
        have held : 0 < s₂.refs n := by
          rw [second.refs, Function.update_self]
          omega
        obtain ⟨inode, found, read, view, _, number, count⟩ := second.ok.inode_eq held
        rw [read, ok_bind]
        let inode' : Inode := { inode with dinode.iType := type.code, dirty := true }
        have fresh : ¬ s.sb.InodeAllocated n := by
          intro held
          rw [held.2] at clear
          cases clear
        have blank : inode.dinode = Dinode.zero := by
          rw [view, second.view n inside, first.view n inside]
          exact intact.blank n inside fresh
        have positive : 0 < inode.iCount := by
          rw [count]
          exact held
        have third := Retabled.of_update (s₂.update inode') second.ok inode' rfl number found
          (fun _ _ _ => rfl) positive inside (fun clean => by cases clean) rfl
        have content : inode'.dinode = { Dinode.zero with iType := type.code } :=
          congrArg (fun d : Dinode => { d with iType := type.code }) blank
        rw [content] at third
        exact Or.inr ⟨rfl, created_of_taken intact inside clear least same'
          (first.edited second third count)⟩

theorem Created.backed {n : Nat} {type : InodeType} {s s' : State} (created : Created n type s s')
    (owns : Owns s.sb.Allocated s.pointers) (backed : Backed s) : Backed s' := by
  apply Backed.of_stored created.intact
  intro m held
  by_cases same : m = n
  · rw [same, created.view]
    intro slot nonzero
    rw [ptr_iType, ptr_zero] at nonzero
    exact absurd rfl nonzero
  · have before := ((created.inodes m).mp held).resolve_right same
    exact (created.others m before).stored before held created.longer
      (backed.stored owns before)

theorem Removed.backed {n : Nat} {s s' : State} (removed : Removed n s s')
    (owns : Owns s.sb.Allocated s.pointers) (backed : Backed s) : Backed s' := by
  apply Backed.of_stored removed.intact
  intro m held
  have before := (removed.inodes m).mp held
  exact (removed.others m before.1 before.2).stored before.1 held removed.longer
    (backed.stored owns before.1)

end Ece344Lab.Fs
