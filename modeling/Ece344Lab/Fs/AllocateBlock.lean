import Ece344Lab.Fs.AllocateOutcomes

set_option autoImplicit false

/- `testfs_allocate_block`: the ways it can end. -/
namespace Ece344Lab.Fs

open Outcome Ownership

/-- The block behind slot `s` is there. -/
structure Reached (s : Slot) (sb : SuperBlock) (inode : Inode) (block : Block)
    (r : BlockResult) : Prop where
  ext : Extends (fun t => t ∈ path s) sb inode r.sb r.inode
  present : ∀ t ∈ path s, ptr r.sb.dev r.inode.dinode t ≠ 0
  stored : ∀ t ∈ path s, t ≠ s → ptr r.sb.dev r.inode.dinode t < r.sb.dev.nr
  ret : r.ret = ptr r.sb.dev r.inode.dinode s
  block : r.block = block
  size : r.inode.dinode.iSize = inode.dinode.iSize
  ghost : r.sb.allocFailed = sb.allocFailed
  idle : ptr sb.dev inode.dinode s ≠ 0 → r.inode = inode

/-- No block could be had for slot `s`, and the inode still owns what it names. -/
structure Refused (s : Slot) (sb : SuperBlock) (inode : Inode) (block : Block)
    (r : BlockResult) : Prop where
  ext : FreeZero sb → Extends (fun t => t ∈ path s ∧ t ≠ s) sb inode r.sb r.inode
  ret : r.ret < 0
  block : r.block = block
  size : r.inode.dinode.iSize = inode.dinode.iSize
  ghost : r.sb.allocFailed = true
  null : ptr sb.dev inode.dinode s = 0
  short : sb.free < lacking sb.dev inode.dinode s
  idle : sb.free = 0 → r.inode = inode
  intact : ∀ i, s = .entry i → inode.dinode.iIndirect = 0 → sb.free ≠ 1

/-- The single-indirect block was freed again but the inode still names it. -/
structure Stranded (s : Slot) (sb : SuperBlock) (inode : Inode) (r : BlockResult) : Prop where
  entry : ∃ i, s = .entry i
  null : ptr sb.dev inode.dinode s = 0
  absent : inode.dinode.iIndirect = 0
  last : sb.free = 1
  ret : r.ret < 0
  dangling : ∃ n, sb.Next n ∧ r.inode.dinode.iIndirect = pointer n ∧
    r.sb = (sb.taken n).failed.released n

/-- A failed allocation that changed nothing. -/
theorem Refused.of_full {s : Slot} {sb : SuperBlock} {inode : Inode} {block : Block}
    (ok : Consistent sb) (null : ptr sb.dev inode.dinode s = 0) (full : sb.free = 0) :
    Refused s sb inode block ⟨-eNOSPC, block, inode, sb.failed⟩ where
  ext _ := { Extends.refl _ ok inode with
    consistent := ok.failed
    ghost := fun _ => rfl }
  ret := show -eNOSPC < 0 by decide
  block := rfl
  size := rfl
  ghost := rfl
  null := null
  short := by
    rw [full, lacking, Finset.card_pos]
    exact ⟨s, Finset.mem_filter.mpr ⟨List.mem_toFinset.mpr (mem_path s), null⟩⟩
  idle _ := rfl
  intact _ _ _ := by omega

theorem Attached.reached {s : Slot} {n : Nat} {sb sb' sb'' : SuperBlock}
    {inode inode' inode'' : Inode} (attached : Attached s n sb' inode' sb'' inode'')
    (next : sb'.Next n) (before : Extends (fun t => t ∈ path s) sb inode sb' inode')
    (present : ∀ t ∈ path s, t ≠ s → ptr sb'.dev inode'.dinode t ≠ 0 ∧
      ptr sb'.dev inode'.dinode t < sb''.dev.nr)
    (size : inode'.dinode.iSize = inode.dinode.iSize) (ghost : sb'.allocFailed = sb.allocFailed)
    (absent : ptr sb.dev inode.dinode s = 0) (block : Block) :
    Reached s sb inode block ⟨n, block, inode'', sb''⟩ := by
  have lower := next.lower
  have other : ∀ t, t ≠ s →
      ptr sb''.dev inode''.dinode t = ptr sb'.dev inode'.dinode t := by
    intro t different
    rw [attached.table, Function.update_of_ne different]
  have last : ptr sb''.dev inode''.dinode s = n := by
    rw [attached.table, Function.update_self]
  refine ⟨before.trans attached.ext, ?_, ?_, ?_, rfl, attached.size.trans size,
    attached.ghost.trans ghost, fun held => absurd absent held⟩
  · intro t inside
    by_cases same : t = s
    · subst same
      change ptr sb''.dev inode''.dinode t ≠ 0
      omega
    · change ptr sb''.dev inode''.dinode t ≠ 0
      rw [other t same]
      exact (present t inside same).1
  · intro t inside different
    change ptr sb''.dev inode''.dinode t < sb''.dev.nr
    rw [other t different]
    exact (present t inside different).2
  · exact congrArg Int.ofNat last.symm

/-- Only `.indirect` is before an entry. -/
theorem eq_indirect_of_mem_path {i : Fin 2048} {t : Slot} (member : t ∈ path (.entry i))
    (other : t ≠ .entry i) :
    t = .indirect := by
  simpa [path, other] using member

theorem reached_entry {sb : SuperBlock} {inode : Inode} {i : Fin 2048} {n : Nat}
    (ok : Consistent sb)
    (owned : Owned sb inode.dinode) (absent : ptr sb.dev inode.dinode (.entry i) = 0)
    (present : ptr sb.dev inode.dinode .indirect ≠ 0) (next : sb.Next n) (block : Block) :
    Reached (.entry i) sb inode block ⟨n, block, inode.charged,
      (sb.taken n).written (ptr sb.dev inode.dinode .indirect)
        ((sb.dev.block (ptr sb.dev inode.dinode .indirect)).setInt i (pointer n))⟩ := by
  have attached := Extends.attachEntry ok owned next i present absent
  refine attached.reached next (Extends.refl _ ok inode) ?_ rfl rfl absent block
  intro t member other
  obtain rfl := eq_indirect_of_mem_path member other
  refine ⟨present, ?_⟩
  rw [SuperBlock.nr_written]
  omega

/-- A new single-indirect block, with its first entry. -/
theorem reached_indirect {sb : SuperBlock} {inode : Inode} {i : Fin 2048} {m n : Nat}
    (ok : Consistent sb)
    (owned : Owned sb inode.dinode) (absent : ptr sb.dev inode.dinode (.entry i) = 0)
    (missing : inode.dinode.iIndirect = 0) (next : sb.Next m) (next' : (sb.taken m).Next n)
    (block : Block) :
    Reached (.entry i) sb inode block ⟨n, block, (inode.charged.setIndirect m).charged,
      ((sb.taken m).taken n).written m (Buffer.zero.setInt i (pointer n))⟩ := by
  have ok' := next.consistent ok
  have lower := next.lower
  have attached := Extends.attachIndirect ok owned next missing
  have here : ptr ((sb.taken m).written m Buffer.zero).dev
      (inode.charged.setIndirect m).dinode .indirect = m := by
    rw [attached.table, Function.update_self]
  have attached' := Extends.attachEntry attached.ext.consistent (attached.ext.owned owned)
    (next'.written m Buffer.zero) i (by omega)
    (by rw [attached.table, Function.update_of_ne (by simp), absent])
  have shape : (((sb.taken m).written m Buffer.zero).taken n).written m
      (Buffer.zero.setInt i (pointer n)) =
        ((sb.taken m).taken n).written m (Buffer.zero.setInt i (pointer n)) := by
    rw [SuperBlock.written_taken _ _ _ _ ok'.layout (by omega) next'.upper,
      SuperBlock.written_written]
  rw [here, SuperBlock.block_written, if_pos rfl, shape] at attached'
  refine attached'.reached (next'.written m Buffer.zero) (attached.ext.mono ?_) ?_ rfl rfl
    absent block
  · intro t member
    simp only [path, List.mem_cons, List.not_mem_nil, or_false] at member ⊢
    exact Or.inl member
  · intro t member other
    obtain rfl := eq_indirect_of_mem_path member other
    rw [here, SuperBlock.nr_written]
    omega

theorem Reached.after {s : Slot} {sb sb' : SuperBlock} {inode inode' : Inode} {block : Block}
    {r : BlockResult} (reached : Reached s sb' inode' block r)
    (before : Extends (fun t => t ∈ path s) sb inode sb' inode')
    (size : inode'.dinode.iSize = inode.dinode.iSize) (ghost : sb'.allocFailed = sb.allocFailed)
    (absent : ptr sb.dev inode.dinode s = 0) : Reached s sb inode block r :=
  { reached with
    ext := before.trans reached.ext
    size := reached.size.trans size
    ghost := reached.ghost.trans ghost
    idle := fun held => absurd absent held }

theorem SuperBlock.written_page (sb : SuperBlock) (p q n : Nat) (blank entries index : Block)
    (layout : Layout sb.sb) (page : 18 ≤ p) (dindirect : 18 ≤ q) (below : n < 1048722)
    (apart : p ≠ q) :
    ((((sb.written p blank).written q index).taken n).written p entries) =
      ((sb.taken n).written p entries).written q index := by
  rw [written_taken _ _ _ _ (by exact layout) dindirect below,
    written_taken _ _ _ _ layout page below, written_comm _ _ _ _ _ apart.symm, written_written]

/-- Two index blocks are before an entry of a page. -/
theorem eq_of_mem_path_dentry {i j : Fin 2048} {t : Slot} (member : t ∈ path (.dentry i j))
    (other : t ≠ .dentry i j) : t = .dindirect ∨ t = .page i := by
  simpa [path, other] using member

theorem ptr_page_of_missing {dev : Device} {d : Dinode} (missing : d.iDindirect = 0)
    (i : Fin 2048) :
    ptr dev d (.page i) = 0 := by
  simp [ptr, missing, indexEntry]

theorem lacking_of_missing {dev : Device} {d : Dinode} {i j : Fin 2048} (missing : d.iDindirect = 0)
    (absent : ptr dev d (.dentry i j) = 0) : lacking dev d (.dentry i j) = 3 := by
  have null : ptr dev d .dindirect = 0 := (toNat_eq_zero _).mpr missing
  have short := lacking_dentry dev d i j (ptr_page_of_missing missing i) absent
  rwa [if_pos null] at short

/-- A new page under the double-indirect block, with its first entry. -/
theorem reached_newPage {sb : SuperBlock} {inode : Inode} {p n : Nat} (ok : Consistent sb)
    (owned : Owned sb inode.dinode) (next : sb.Next p) (next' : (sb.taken p).Next n)
    (i j : Fin 2048) (present : ptr sb.dev inode.dinode .dindirect ≠ 0)
    (null : ptr sb.dev inode.dinode (.page i) = 0)
    (absent : ptr sb.dev inode.dinode (.dentry i j) = 0) (block : Block) :
    Reached (.dentry i j) sb inode block ⟨n, block, inode.charged.charged,
      (((sb.taken p).taken n).written p (Buffer.zero.setInt j (pointer n))).written
        (ptr sb.dev inode.dinode .dindirect)
        ((sb.dev.block (ptr sb.dev inode.dinode .dindirect)).setInt i (pointer p))⟩ := by
  have lower := next.lower
  have range := owned.range present
  have apart := next.ptr_ne owned .dindirect
  have attached := Extends.attachPage ok owned next i present null
  have next'' := (next'.written p Buffer.zero).written (ptr sb.dev inode.dinode .dindirect)
    ((sb.dev.block (ptr sb.dev inode.dinode .dindirect)).setInt i (pointer p))
  have here := congrFun attached.table (.page i)
  rw [Function.update_self] at here
  have attached' := Extends.attachDentry attached.ext.consistent (attached.ext.owned owned) next''
    i j (by omega) (by rw [attached.table, Function.update_of_ne (by simp), absent])
  rw [here, SuperBlock.block_written, if_neg apart.symm, SuperBlock.block_written, if_pos rfl,
    SuperBlock.written_page _ _ _ _ _ _ _ (next.consistent ok).layout (by omega) (by omega)
      next'.upper apart.symm] at attached'
  refine attached'.reached next'' (attached.ext.mono ?_) ?_ rfl rfl absent block
  · intro t member
    simp only [path, List.mem_cons, List.not_mem_nil, or_false] at member ⊢
    exact member.imp id Or.inl
  · intro t member other
    rcases eq_of_mem_path_dentry member other with rfl | rfl
    · rw [attached.table, Function.update_of_ne (by simp), SuperBlock.nr_written]
      exact ⟨present, by omega⟩
    · rw [here, SuperBlock.nr_written, SuperBlock.nr_written]
      omega

theorem reached_dentry {sb : SuperBlock} {inode : Inode} {i j : Fin 2048} {n : Nat}
    (ok : Consistent sb)
    (owned : Owned sb inode.dinode) (absent : ptr sb.dev inode.dinode (.dentry i j) = 0)
    (stored : ptr sb.dev inode.dinode .dindirect < sb.dev.nr)
    (present : ptr sb.dev inode.dinode (.page i) ≠ 0) (next : sb.Next n) (block : Block) :
    Reached (.dentry i j) sb inode block ⟨n, block, inode.charged,
      (sb.taken n).written (ptr sb.dev inode.dinode (.page i))
        ((sb.dev.block (ptr sb.dev inode.dinode (.page i))).setInt j (pointer n))⟩ := by
  have attached := Extends.attachDentry ok owned next i j present absent
  have longer := sb.nr_taken n
  refine attached.reached next (Extends.refl _ ok inode) ?_ rfl rfl absent block
  intro t member other
  rw [SuperBlock.nr_written]
  rcases eq_of_mem_path_dentry member other with rfl | rfl
  · exact ⟨ptr_path_ne_zero present (by simp [path]), by omega⟩
  · exact ⟨present, by omega⟩

/-- A new double-indirect block and a new page, with their first entries. -/
theorem reached_dindirect {sb : SuperBlock} {inode : Inode} {i j : Fin 2048} {q p n : Nat}
    (ok : Consistent sb) (owned : Owned sb inode.dinode)
    (absent : ptr sb.dev inode.dinode (.dentry i j) = 0) (missing : inode.dinode.iDindirect = 0)
    (next : sb.Next q) (next' : (sb.taken q).Next p) (next'' : ((sb.taken q).taken p).Next n)
    (block : Block) :
    Reached (.dentry i j) sb inode block ⟨n, block, (inode.charged.setDindirect q).charged.charged,
      ((((sb.taken q).taken p).taken n).written p (Buffer.zero.setInt j (pointer n))).written q
        (Buffer.zero.setInt i (pointer p))⟩ := by
  have ok' := next.consistent ok
  have ok'' := next'.consistent ok'
  have lower := next.lower
  have lower' := next'.lower
  have attached := Extends.attachDindirect ok owned next missing
  have here := congrFun attached.table .dindirect
  rw [Function.update_self] at here
  have table : ∀ t, t ≠ .dindirect → ptr ((sb.taken q).written q Buffer.zero).dev
      (inode.charged.setDindirect q).dinode t = ptr sb.dev inode.dinode t := by
    intro t other
    rw [attached.table, Function.update_of_ne other]
  have shape : ((sb.taken q).written q Buffer.zero).taken p =
      ((sb.taken q).taken p).written q Buffer.zero :=
    SuperBlock.written_taken _ _ _ _ ok'.layout (by omega) next'.upper
  have fresh : (((sb.taken q).written q Buffer.zero).taken p).Next n := by
    rw [shape]
    exact next''.written q Buffer.zero
  have apart : p ≠ q := by
    rintro rfl
    exact next'.clear ((next.allocated p).mpr (Or.inr rfl))
  have null : ptr sb.dev inode.dinode (.page i) = 0 := ptr_page_of_missing missing i
  have reached := reached_newPage attached.ext.consistent (attached.ext.owned owned)
    (next'.written q Buffer.zero) fresh i j (by omega)
    (by rw [table _ (by simp), null]) (by rw [table _ (by simp), absent]) block
  have final : ((((sb.taken q).written q Buffer.zero).taken p).taken n).written p
      (Buffer.zero.setInt j (pointer n)) =
        ((((sb.taken q).taken p).taken n).written p
          (Buffer.zero.setInt j (pointer n))).written q Buffer.zero := by
    rw [shape, SuperBlock.written_taken _ _ _ _ ok''.layout (by omega) next''.upper,
      SuperBlock.written_comm _ _ _ _ _ apart.symm]
  rw [here, SuperBlock.block_written, if_pos rfl, final, SuperBlock.written_written] at reached
  refine reached.after (attached.ext.mono ?_) rfl rfl absent
  intro t member
  simp only [path, List.mem_cons, List.not_mem_nil, or_false] at member ⊢
  exact Or.inl member

theorem refused_of_undone {sb sb' : SuperBlock} {inode : Inode} {i j : Fin 2048} (block : Block)
    (owned : Owned sb inode.dinode) (undone : Undone sb sb')
    (absent : ptr sb.dev inode.dinode (.dentry i j) = 0) (some : 0 < sb.free)
    (short : sb.free < lacking sb.dev inode.dinode (.dentry i j)) :
    Refused (.dentry i j) sb inode block ⟨-eNOSPC, block, { inode with dirty := true }, sb'⟩ where
  ext _ := undone.extends owned _
  ret := show -eNOSPC < 0 by decide
  block := rfl
  size := rfl
  ghost := undone.failed
  null := absent
  short := short
  idle none := by omega
  intact _ shape := by cases shape

theorem refused_kept {sb : SuperBlock} {inode : Inode} {i j : Fin 2048} {q : Nat} (block : Block)
    (ok : Consistent sb) (owned : Owned sb inode.dinode)
    (absent : ptr sb.dev inode.dinode (.dentry i j) = 0) (missing : inode.dinode.iDindirect = 0)
    (next : sb.Next q) (short : sb.free < lacking sb.dev inode.dinode (.dentry i j)) :
    Refused (.dentry i j) sb inode block
      ⟨-eNOSPC, block, inode.charged.setDindirect q, (sb.taken q).failed⟩ where
  ext free := by
    refine ((Extends.attachDindirect_unwritten ok owned next missing free).ext.mono ?_).failed
    intro t member
    obtain rfl : t = .dindirect := by simpa [path] using member
    exact ⟨by simp [path], by simp⟩
  ret := show -eNOSPC < 0 by decide
  block := rfl
  size := rfl
  ghost := rfl
  null := absent
  short := short
  idle none := by
    have room := next.room
    omega
  intact _ shape := by cases shape

/-- A stored block is not touched. -/
theorem reached_held {sb : SuperBlock} {inode : Inode} {s : Slot} (ok : Consistent sb)
    (present : ptr sb.dev inode.dinode s ≠ 0) (whole : ¬ Cut sb.dev inode.dinode s)
    (block : Block) :
    Reached s sb inode block ⟨ptr sb.dev inode.dinode s, block, inode, sb⟩ where
  ext := Extends.refl _ ok inode
  present _ member := ptr_path_ne_zero present member
  stored t member _ := by
    by_contra beyond
    exact whole ⟨t, member, ptr_path_ne_zero present member, Nat.not_lt.mp beyond⟩
  ret := rfl
  block := rfl
  size := rfl
  ghost := rfl
  idle _ := rfl

theorem BlockOutcome.ends {sb : SuperBlock} {inode : Inode} {block : Block} {s : Slot}
    {r : BlockResult} (ok : Consistent sb) (owned : Owned sb inode.dinode)
    (outcome : BlockOutcome sb inode block s r) :
    Reached s sb inode block r ∨ Refused s sb inode block r ∨ Stranded s sb inode r := by
  cases outcome with
  | held present whole => exact Or.inl (reached_held ok present whole block)
  | full absent none => exact Or.inr (Or.inl (Refused.of_full ok absent none))
  | @direct i _ absent next =>
      have attached := Extends.attachDirect ok owned next i absent
      refine Or.inl (attached.reached next (Extends.refl _ ok inode) ?_ rfl rfl absent block)
      intro t member other
      simp [path, other] at member
  | entry absent present next => exact Or.inl (reached_entry ok owned absent present next block)
  | indirect absent missing next next' =>
      exact Or.inl (reached_indirect ok owned absent missing next next' block)
  | @stranded i m absent missing next none =>
      have last := next.free
      exact Or.inr
        (Or.inr ⟨⟨i, rfl⟩, absent, missing, by omega, show -eNOSPC < 0 by decide, m, next,
        rfl, rfl⟩)
  | dentry absent stored present next =>
      exact Or.inl (reached_dentry ok owned absent stored present next block)
  | page absent null present next next' =>
      exact Or.inl (reached_newPage ok owned next next' _ _ present null absent block)
  | pageBack absent null present next none =>
      have last := next.free
      have range := owned.range present
      have short := lacking_dentry sb.dev inode.dinode _ _ null absent
      rw [if_neg present] at short
      have undone := (next.undone ok).written (ptr sb.dev inode.dinode .dindirect) _ (by omega) rfl
      exact Or.inr (Or.inl (refused_of_undone block owned undone absent (by omega) (by omega)))
  | dindirect absent missing next next' next'' =>
      exact Or.inl (reached_dindirect ok owned absent missing next next' next'' block)
  | bothBack absent missing next next' none =>
      have last := next.free
      have last' := next'.free
      have short := lacking_of_missing missing absent
      have undone := next'.undone (next.consistent ok)
      exact Or.inr
        (Or.inl (refused_of_undone block owned (undone.around next ok _) absent (by omega)
        (by omega)))
  | kept absent missing next none =>
      have last := next.free
      have short := lacking_of_missing missing absent
      exact Or.inr (Or.inl (refused_kept block ok owned absent missing next (by omega)))

/-- Every outcome of `testfs_allocate_block` for a block number in range. -/
theorem testfsAllocateBlock_sat (sb : SuperBlock) (inode : Inode) (log : Nat) (block : Block)
    (ok : Consistent sb) (owned : Owned sb inode.dinode) (inside : log < nrMaxBlock) :
    Sat (testfsAllocateBlock sb inode log block)
      (fun r => Reached (leaf log) sb inode (fileBlock sb.dev inode.dinode log) r ∨
        Refused (leaf log) sb inode (fileBlock sb.dev inode.dinode log) r ∨
        Stranded (leaf log) sb inode r)
      (fun e => e = .exit ∧ Cut sb.dev inode.dinode (leaf log)) :=
  (testfsAllocateBlock_outcome sb inode log block ok owned inside).weaken fun _ => (·.ends ok owned)

end Ece344Lab.Fs
