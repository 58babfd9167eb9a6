import Ece344Lab.Fs.WriteData

set_option autoImplicit false

/- The loop of `testfs_write_data` and its outcomes. -/
namespace Ece344Lab.Fs

open Outcome Ownership

def lastBlock (pos size : Nat) : Nat := (pos + (size - 1)) / 8192

theorem div_position (log ix : Nat) (small : ix < 8192) : (log * 8192 + ix) / 8192 = log := by
  omega

theorem le_lastBlock (pos size : Nat) : pos / 8192 ≤ lastBlock pos size :=
  Nat.div_le_div_right (Nat.le_add_right _ _)

theorem lastBlock_of_fits (log ix size : Nat) (small : ix < 8192) (fits : ix + size ≤ 8192) :
    lastBlock (log * 8192 + ix) size = log := by
  unfold lastBlock
  omega

/-- The rest behind the first block ends in the same block. -/
theorem lastBlock_rest (log ix size : Nat) (small : ix < 8192) (more : 8192 < ix + size) :
    lastBlock ((log + 1) * 8192) (size - (8192 - ix)) = lastBlock (log * 8192 + ix) size := by
  have same : (log + 1) * 8192 + (size - (8192 - ix) - 1) = log * 8192 + ix + (size - 1) := by
    omega
  rw [lastBlock, same, lastBlock]

/-- The new `i_size` of a write that stays below the largest file size. -/
theorem size_grown (old : Int) (start size : Nat) (bounded : old ≤ 4196362 * 8192)
    (fits : start + size ≤ 4196362 * 8192) :
    (BitVec.ofInt 64 (max old (start + size))).toInt = max old (start + size : Nat) := by
  rw [BitVec.toInt_ofInt, ← Nat.cast_add]
  apply Int.bmod_eq_of_le <;> omega

/-- The state in which writing the blocks `first` to `last` strands an indirect block: the disk
has one block left for it when the holes among the direct blocks have been filled. -/
structure Strands (free : Nat) (d : Dinode) (first last : Nat) : Prop where
  absent : d.iIndirect = 0
  before : first < 2058
  reaches : 10 ≤ last
  free : free = 1 + holes d first

/-- `buf` is in the file at `pos`, as far as a file may reach. -/
structure Spliced (pos : Nat) (buf : List Byte) (sb : SuperBlock) (inode : Inode)
    (r : FileResult) : Prop where
  ext : Extends (Span (pos / 8192) (lastBlock pos buf.length)) sb inode r.sb r.inode
  contents : ∀ q, q / 8192 < 4196362 →
    content r.sb.dev r.inode.dinode q = overlay (content sb.dev inode.dinode) pos buf q
  present : ∀ s, Span (pos / 8192) (lastBlock pos buf.length) s →
    ptr r.sb.dev r.inode.dinode s ≠ 0
  stored : Stored sb.dev inode.dinode → Stored r.sb.dev r.inode.dinode
  ghost : r.sb.allocFailed = sb.allocFailed
  dirty : r.inode.dirty = true

/-- Every block that was missing has been taken. -/
theorem Spliced.free {pos : Nat} {buf : List Byte} {sb : SuperBlock} {inode : Inode}
    {r : FileResult} (spliced : Spliced pos buf sb inode r) :
    r.sb.free + missing sb.dev inode.dinode (pos / 8192) (lastBlock pos buf.length) = sb.free := by
  have spent := spliced.ext.spent
  have filled := held_fill (ptr sb.dev inode.dinode) (ptr r.sb.dev r.inode.dinode)
    (spanSlots (pos / 8192) (lastBlock pos buf.length))
    (fun s outside => spliced.ext.off s fun member =>
      outside ((mem_spanSlots _ _ s).mpr member))
    fun s member => spliced.present s ((mem_spanSlots _ _ s).mp member)
  unfold missing
  omega

/-- Some of `buf` may be in the file, and the rest found no block. -/
structure Failed (pos : Nat) (buf : List Byte) (sb : SuperBlock) (inode : Inode)
    (r : FileResult) : Prop where
  ext : FreeZero sb →
    Extends (Span (pos / 8192) (lastBlock pos buf.length)) sb inode r.sb r.inode
  contents : FreeZero sb → ∀ q, q / 8192 < 4196362 → q < pos ∨ pos + buf.length ≤ q →
    content r.sb.dev r.inode.dinode q = content sb.dev inode.dinode q
  ret : r.ret < 0
  size : r.inode.dinode.iSize = inode.dinode.iSize
  ghost : r.sb.allocFailed = true
  null : ∃ s, Span (pos / 8192) (lastBlock pos buf.length) s ∧ ptr sb.dev inode.dinode s = 0
  short : sb.free < missing sb.dev inode.dinode (pos / 8192) (lastBlock pos buf.length)
  idle : sb.free = 0 → r.inode = inode
  intact : 10 ≤ pos / 8192 → pos / 8192 < 2058 → inode.dinode.iIndirect = 0 → sb.free ≠ 1

/-- How `testfs_write_data` can return. -/
inductive WriteOutcome (start oSize : Int) (pos : Nat) (buf : List Byte) (sb : SuperBlock)
    (inode : Inode) (r : FileResult) : Prop
  | done (spliced : Spliced pos buf sb inode r) (ret : r.ret = oSize)
      (fits : lastBlock pos buf.length < 4196362)
      (size : r.inode.dinode.iSize = if 0 < buf.length then
        BitVec.ofInt 64 (max inode.dinode.size (start + oSize)) else inode.dinode.iSize)
  | tooBig (spliced : Spliced pos buf sb inode r) (ret : r.ret = -eFBIG)
      (beyond : 4196362 ≤ lastBlock pos buf.length)
      (size : r.inode.dinode.iSize = BitVec.ofNat 64 (8192 * 4196362))
  | failed (failed : Failed pos buf sb inode r)
  | stranded (strands : Strands sb.free inode.dinode (pos / 8192) (lastBlock pos buf.length))
      (ret : r.ret < 0) (ghost : r.sb.allocFailed = true)
      (dangling : r.inode.dinode.iIndirect.toNat ≠ 0 ∧
        ¬ r.sb.Allocated r.inode.dinode.iIndirect.toNat)

theorem Wrote.strands {log ix last : Nat} {bytes : List Byte} {sb sb' : SuperBlock}
    {inode inode' : Inode} (wrote : Wrote log ix bytes sb inode sb' inode')
    (strands : Strands sb'.free inode'.dinode (log + 1) last) :
    Strands sb.free inode.dinode log last := by
  have absent : ptr sb'.dev inode'.dinode .indirect = 0 := (toNat_eq_zero _).mpr strands.absent
  have before := strands.before
  by_cases direct : log < 10
  · have holes := wrote.holes direct
    have free := strands.free
    refine ⟨?_, by omega, strands.reaches, by omega⟩
    rw [← toNat_eq_zero, ← absent]
    refine (wrote.ext.off .indirect ?_).symm
    rw [leaf_direct log direct]
    simp [path]
  · have member : Slot.indirect ∈ path (leaf log) := by
      rw [leaf_entry log (Nat.not_lt.mp direct) (Nat.lt_of_succ_lt before)]
      exact List.mem_cons_self
    have present := wrote.present .indirect member
    exact absurd absent present

/-- A write that strands an indirect block runs out of blocks, after it has taken some. -/
theorem Strands.short {free : Nat} {d : Dinode} {first last : Nat}
    (strands : Strands free d first last) (dev : Device) (upper : first ≤ last) :
    1 ≤ free ∧ free < missing dev d first last := by
  have absent : ptr dev d .indirect = 0 := (toNat_eq_zero _).mpr strands.absent
  have before := strands.before
  have reaches := strands.reaches
  have amount := strands.free
  -- the first block behind the single-indirect block
  let log := max first 10
  have row : log - 10 < 2048 := by omega
  have shape : leaf log = .entry ⟨log - 10, row⟩ := leaf_entry log (by omega) (by omega)
  have absent' : ptr dev d (.entry ⟨log - 10, row⟩) = 0 := by
    change indexEntry dev (ptr dev d .indirect) _ = 0
    rw [absent, indexEntry_zero]
  have indirect : ∀ s ∈ path (leaf log), Span first last s :=
    fun s member => Span.block (by omega) (by omega) (by omega) member
  rw [shape] at indirect
  let direct := (Finset.univ.filter fun i : Fin nrDirectBlocks =>
    first ≤ i.val ∧ d.iBlockNr i = 0).image Slot.direct
  have size : direct.card = holes d first :=
    Finset.card_image_of_injective _ fun _ _ same => Slot.direct.inj same
  have sub : insert Slot.indirect (insert (Slot.entry ⟨log - 10, row⟩) direct) ⊆
      (spanSlots first last).filter fun s => ptr dev d s = 0 := by
    intro s member
    rw [Finset.mem_filter, mem_spanSlots]
    rw [Finset.mem_insert, Finset.mem_insert] at member
    rcases member with same | same | member
    · rw [same]
      exact ⟨indirect _ (by simp [path]), absent⟩
    · rw [same]
      exact ⟨indirect _ (by simp [path]), absent'⟩
    · obtain ⟨i, hole, same⟩ := Finset.mem_image.mp member
      have hole' := (Finset.mem_filter.mp hole).2
      have small : i.val < 10 := i.isLt
      rw [← same]
      refine ⟨Span.block hole'.1 (by omega) (by omega) ?_, (toNat_eq_zero _).mpr hole'.2⟩
      rw [leaf_direct i.val small]
      exact mem_path _
  have most := Finset.card_le_card sub
  have new : Slot.entry ⟨log - 10, row⟩ ∉ direct := by
    intro member
    obtain ⟨_, _, same⟩ := Finset.mem_image.mp member
    cases same
  have new' : Slot.indirect ∉ insert (Slot.entry ⟨log - 10, row⟩) direct := by
    rw [Finset.mem_insert, not_or]
    refine ⟨by simp, fun member => ?_⟩
    obtain ⟨_, _, same⟩ := Finset.mem_image.mp member
    cases same
  rw [Finset.card_insert_of_notMem new', Finset.card_insert_of_notMem new, size] at most
  unfold missing
  omega

section After

variable {start oSize : Int} {pos log ix : Nat} {buf : List Byte} {sb sb' : SuperBlock}
  {inode inode' : Inode} {r : FileResult}

theorem lastBlock_drop (position : pos = log * 8192 + ix) (small : ix < 8192)
    (more : 8192 < ix + buf.length) :
    lastBlock ((log + 1) * 8192) (buf.drop (8192 - ix)).length = lastBlock pos buf.length := by
  rw [List.length_drop, position, lastBlock_rest log ix buf.length small more]

theorem Span.after (position : pos = log * 8192 + ix) (small : ix < 8192)
    (more : 8192 < ix + buf.length) {s : Slot}
    (span : Span ((log + 1) * 8192 / 8192)
      (lastBlock ((log + 1) * 8192) (buf.drop (8192 - ix)).length) s) :
    Span (pos / 8192) (lastBlock pos buf.length) s := by
  have first : pos / 8192 = log := by omega
  have next : (log + 1) * 8192 / 8192 = log + 1 := by omega
  rw [lastBlock_drop position small more, next] at span
  rw [first]
  exact span.later

/-- The first block is written, and then the others. -/
theorem Wrote.extends_after (wrote : Wrote log ix (buf.take (8192 - ix)) sb inode sb' inode')
    (position : pos = log * 8192 + ix) (small : ix < 8192) (inside : log < 4196362)
    (more : 8192 < ix + buf.length) {sb'' : SuperBlock} {inode'' : Inode}
    (ext : Extends (Span ((log + 1) * 8192 / 8192)
      (lastBlock ((log + 1) * 8192) (buf.drop (8192 - ix)).length)) sb' inode' sb'' inode'') :
    Extends (Span (pos / 8192) (lastBlock pos buf.length)) sb inode sb'' inode'' := by
  have first : pos / 8192 = log := by omega
  have reaches : log ≤ lastBlock pos buf.length := first ▸ le_lastBlock pos buf.length
  have here : ∀ s ∈ path (leaf log), Span (pos / 8192) (lastBlock pos buf.length) s :=
    fun s member => Span.block (by omega) reaches inside member
  exact (wrote.ext.mono here).trans (ext.mono fun s => Span.after position small more)

/-- What the first block holds, in a file that has it at `pos`. -/
theorem Wrote.contents_at (wrote : Wrote log ix (buf.take (8192 - ix)) sb inode sb' inode')
    (owned : Owned sb inode.dinode) (position : pos = log * 8192 + ix) (small : ix < 8192)
    (inside : log < 4196362) (q : Nat) (bound : q / 8192 < 4196362) :
    content sb'.dev inode'.dinode q =
      overlay (content sb.dev inode.dinode) pos (buf.take (8192 - ix)) q := by
  have contents := wrote.contents owned inside (by rw [List.length_take]; omega) q bound
  rwa [← position] at contents

theorem Spliced.after (wrote : Wrote log ix (buf.take (8192 - ix)) sb inode sb' inode')
    (owned : Owned sb inode.dinode) (position : pos = log * 8192 + ix) (small : ix < 8192)
    (inside : log < 4196362) (more : 8192 < ix + buf.length)
    (spliced : Spliced ((log + 1) * 8192) (buf.drop (8192 - ix)) sb' inode' r) :
    Spliced pos buf sb inode r := by
  have next : (log + 1) * 8192 = pos + (8192 - ix) := by omega
  refine ⟨wrote.extends_after position small inside more spliced.ext, ?_, ?_,
    fun stored => spliced.stored (wrote.stored stored), spliced.ghost.trans wrote.ghost,
    spliced.dirty⟩
  · intro q bound
    rw [spliced.contents q bound, next, ← overlay_take_drop _ pos (8192 - ix) buf (by omega) q]
    unfold overlay
    split
    · rfl
    · exact wrote.contents_at owned position small inside q bound
  · rintro s ⟨other, lower, upper, bound, member⟩
    by_cases same : other = log
    · rw [same] at member
      exact spliced.ext.grows.of_ne_zero (wrote.present s member)
    · refine spliced.present s ⟨other, ?_, ?_, bound, member⟩
      · omega
      · rw [lastBlock_drop position small more]
        exact upper

theorem Failed.after (wrote : Wrote log ix (buf.take (8192 - ix)) sb inode sb' inode')
    (owned : Owned sb inode.dinode) (position : pos = log * 8192 + ix) (small : ix < 8192)
    (inside : log < 4196362) (more : 8192 < ix + buf.length)
    (failed : Failed ((log + 1) * 8192) (buf.drop (8192 - ix)) sb' inode' r) :
    Failed pos buf sb inode r := by
  have length : (buf.drop (8192 - ix)).length = buf.length - (8192 - ix) := List.length_drop
  have first : pos / 8192 = log := by omega
  have first' : (log + 1) * 8192 / 8192 = log + 1 := by omega
  have reaches : log ≤ lastBlock pos buf.length := first ▸ le_lastBlock pos buf.length
  have free := wrote.free_le
  have amount := wrote.held
  refine ⟨fun zeros =>
    wrote.extends_after position small inside more (failed.ext (wrote.ext.zeros zeros)), ?_,
    failed.ret, failed.size.trans wrote.size, failed.ghost, ?_, ?_, ?_, ?_⟩
  · intro zeros q bound outside
    rw [failed.contents (wrote.ext.zeros zeros) q bound (by omega),
      wrote.contents_at owned position small inside q bound,
      overlay_outside _ _ _ _ (by rw [List.length_take]; omega)]
  · obtain ⟨s, span, null⟩ := failed.null
    refine ⟨s, span.after position small more, ?_⟩
    by_contra before
    exact wrote.ext.grows.of_ne_zero before null
  · have short := failed.short
    rw [lastBlock_drop position small more, first'] at short
    rw [first, wrote.missing inside reaches]
    omega
  · intro none
    have none' : sb'.free = 0 := by omega
    have full : lacking sb.dev inode.dinode (leaf log) = 0 := by omega
    rw [failed.idle none']
    exact wrote.idle full
  · intro lower upper absent
    have two := wrote.two (by omega) (by omega) absent
    omega

/-- What follows the first block, seen from before it was written. -/
theorem WriteOutcome.after
    (wrote : Wrote log ix (buf.take (8192 - ix)) sb inode sb' inode')
    (owned : Owned sb inode.dinode) (position : pos = log * 8192 + ix) (small : ix < 8192)
    (inside : log < 4196362) (more : 8192 < ix + buf.length)
    (outcome : WriteOutcome start oSize ((log + 1) * 8192) (buf.drop (8192 - ix)) sb' inode' r) :
    WriteOutcome start oSize pos buf sb inode r := by
  have length : (buf.drop (8192 - ix)).length = buf.length - (8192 - ix) := List.length_drop
  have first : pos / 8192 = log := by omega
  have first' : (log + 1) * 8192 / 8192 = log + 1 := by omega
  have last := lastBlock_drop position small more
  cases outcome with
  | done spliced ret fits size =>
      refine .done (spliced.after wrote owned position small inside more) ret (last ▸ fits) ?_
      have sizes : inode'.dinode.size = inode.dinode.size := congrArg BitVec.toInt wrote.size
      rw [size, if_pos (by omega), if_pos (by omega), sizes]
  | tooBig spliced ret beyond size =>
      exact .tooBig (spliced.after wrote owned position small inside more) ret (last ▸ beyond) size
  | failed failed => exact .failed (failed.after wrote owned position small inside more)
  | stranded strands ret ghost dangling =>
      rw [first', last] at strands
      exact .stranded (first.symm ▸ wrote.strands strands) ret ghost dangling

end After

theorem content_iSize (dev : Device) (d : Dinode) (size : BitVec 64) (q : Nat) :
    content dev { d with iSize := size } q = content dev d q := by
  unfold content fileBlock
  rw [ptr_iSize]

theorem writeTooBig_outcome {start oSize : Int} {blockNr ix : Nat} {buf : List Byte}
    {sb : SuperBlock} {inode : Inode} (ok : Consistent sb) (bound : blockNr ≤ 4196362)
    (small : ix < 8192) (full : 4196362 ≤ blockNr) :
    WriteOutcome start oSize (blockNr * 8192 + ix) buf sb inode (writeTooBig sb inode blockNr) := by
  obtain rfl : blockNr = 4196362 := by omega
  have first : (4196362 * 8192 + ix) / 8192 = 4196362 := by omega
  refine .tooBig ⟨(Extends.refl _ ok inode).resize _, ?_, ?_, ?_, rfl, rfl⟩ rfl ?_ rfl
  · intro q bound
    rw [overlay_outside _ _ _ _ (by omega)]
    exact content_iSize _ _ _ q
  · rintro s ⟨log, lower, _, inside, _⟩
    omega
  · intro stored s nonzero
    change ptr sb.dev { inode.dinode with iSize := _ } s ≠ 0 at nonzero
    change ptr sb.dev { inode.dinode with iSize := _ } s < sb.dev.nr
    rw [ptr_iSize] at nonzero ⊢
    exact stored s nonzero
  · unfold lastBlock
    omega

theorem Refused.failed {pos log : Nat} {buf : List Byte} {sb : SuperBlock} {inode : Inode}
    {r : BlockResult} {block : Block} (refused : Refused (leaf log) sb inode block r)
    (owned : Owned sb inode.dinode) (first : pos / 8192 = log) (inside : log < 4196362) :
    Failed pos buf sb inode ⟨r.ret, r.inode, r.sb⟩ := by
  have reaches : log ≤ lastBlock pos buf.length := first ▸ le_lastBlock pos buf.length
  have member : ∀ s ∈ path (leaf log), Span (pos / 8192) (lastBlock pos buf.length) s :=
    fun s inside' => Span.block (by omega) reaches inside inside'
  refine ⟨fun zeros => (refused.ext zeros).mono fun s inside' => member s inside'.1, ?_,
    refused.ret, refused.size, refused.ghost, ⟨_, member _ (mem_path _), refused.null⟩, ?_, ?_, ?_⟩
  · intro zeros q bound _
    have outside : ¬ (leaf (q / 8192) ∈ path (leaf log) ∧ leaf (q / 8192) ≠ leaf log) := by
      rintro ⟨inside', other⟩
      exact other (congrArg leaf (leaf_mem_path bound inside inside'))
    have same := (refused.ext zeros).fileBlock_eq owned _ outside
    exact congrArg (fun b : Block => b.get (q % 8192)) same
  · have short := refused.short
    have most :=
      lacking_le_missing sb.dev inode.dinode log (lastBlock pos buf.length) inside reaches
    rw [first]
    omega
  · exact refused.idle
  · intro lower upper absent
    exact refused.intact _ (leaf_entry log (by omega) (by omega)) absent

theorem Stranded.outcome {start oSize : Int} {pos log : Nat} {buf : List Byte} {sb : SuperBlock}
    {inode : Inode} {r : BlockResult} (stranded : Stranded (leaf log) sb inode r)
    (ok : Consistent sb) (first : pos / 8192 = log) (inside : log < 4196362) :
    WriteOutcome start oSize pos buf sb inode ⟨r.ret, r.inode, r.sb⟩ := by
  obtain ⟨i, shape⟩ := stranded.entry
  have range := range_of_leaf_entry inside shape
  have reaches : log ≤ lastBlock pos buf.length := first ▸ le_lastBlock pos buf.length
  obtain ⟨n, next, named, taken⟩ := stranded.dangling
  have undone := next.undone ok
  refine .stranded ⟨stranded.absent, by omega, by omega, ?_⟩ stranded.ret ?_ ?_
  · rw [first, holes_of_ge _ _ range.1, stranded.last]
  · rw [taken]
    exact undone.failed
  · have lower := next.lower
    rw [named, taken, toNat_pointer n next.upper]
    refine ⟨by omega, ?_⟩
    rw [undone.allocated]
    exact next.clear

/-- The last or only block. -/
theorem writeLast_sat (sb : SuperBlock) (inode : Inode) (start oSize : Int) (buf : List Byte)
    (blockNr ix : Nat) (ok : Consistent sb) (owned : Owned sb inode.dinode)
    (bound : blockNr ≤ 4196362) (small : ix < 8192) (fits : ix + buf.length ≤ 8192) :
    Sat (writeLast sb inode start oSize buf blockNr ix)
      (WriteOutcome start oSize (blockNr * 8192 + ix) buf sb inode)
      (fun e => e = .exit ∧ ¬ Stored sb.dev inode.dinode) := by
  unfold writeLast
  refine Sat.ite (fun full => writeTooBig_outcome ok bound small full) ?_
  intro room
  have inside : blockNr < 4196362 := Nat.not_le.mp room
  have first := div_position blockNr ix small
  have last := lastBlock_of_fits blockNr ix buf.length small fits
  refine Sat.bind ((testfsAllocateBlock_sat sb inode blockNr Buffer.zero ok owned inside).mono
    (fun _ spec => spec) ?_) ?_
  · rintro e ⟨rfl, cut⟩
    exact ⟨rfl, fun stored => stored.not_cut _ cut⟩
  rintro r (reached | refused | stranded)
  · have wrote := reached.wrote owned ix buf
    have nonneg : ¬ r.ret < 0 := by
      rw [reached.ret]
      omega
    have contents := wrote.contents owned inside fits
    rw [if_neg nonneg, reached.ret, writeBlocks_nat, ok_bind]
    refine .done ⟨(wrote.ext.resize _).mono ?_, ?_, ?_, ?_, wrote.ghost, rfl⟩ rfl (by omega) ?_
    · intro s member
      exact Span.block (by omega) (by omega) inside member
    · intro q small
      rw [← contents q small]
      exact content_iSize _ _ _ q
    · rintro s ⟨log, lower, upper, _, member⟩
      obtain rfl : log = blockNr := by omega
      change ptr _ { r.inode.dinode with iSize := _ } s ≠ 0
      rw [ptr_iSize]
      exact wrote.present s member
    · intro stored s nonzero
      change ptr _ { r.inode.dinode with iSize := _ } s ≠ 0 at nonzero
      change ptr _ { r.inode.dinode with iSize := _ } s < _
      rw [ptr_iSize] at nonzero ⊢
      exact wrote.stored stored s nonzero
    · have size : r.inode.dinode.size = inode.dinode.size := congrArg BitVec.toInt wrote.size
      change (if _ then _ else _) = _
      rw [size, show r.inode.dinode.iSize = inode.dinode.iSize from wrote.size]
  · rw [if_pos refused.ret]
    exact .failed (refused.failed owned first inside)
  · rw [if_pos stranded.ret]
    exact stranded.outcome ok first inside

/-- The loop, by induction on its fuel: each round writes to the end of one block. -/
theorem writeLoop_sat (start oSize : Int) (fuel : Nat) (sb : SuperBlock) (inode : Inode)
    (buf : List Byte) (blockNr ix : Nat) (ok : Consistent sb) (owned : Owned sb inode.dinode)
    (bound : blockNr ≤ 4196362) (small : ix < 8192) (enough : buf.length < fuel) :
    Sat (writeLoop start oSize fuel sb inode buf blockNr ix)
      (WriteOutcome start oSize (blockNr * 8192 + ix) buf sb inode)
      (fun e => e = .exit ∧ ¬ Stored sb.dev inode.dinode) := by
  induction fuel generalizing sb inode buf blockNr ix with
  | zero => omega
  | succ fuel ih =>
      unfold writeLoop
      refine Sat.ite ?_ fun fits => writeLast_sat sb inode start oSize buf blockNr ix ok owned
        bound small (Nat.not_lt.mp fits)
      intro more
      have more' : 8192 < ix + buf.length := more
      refine Sat.ite (fun full => writeTooBig_outcome ok bound small full) ?_
      intro room
      have inside : blockNr < 4196362 := Nat.not_le.mp room
      have first := div_position blockNr ix small
      refine Sat.bind ((testfsAllocateBlock_sat sb inode blockNr Buffer.zero ok owned inside).mono
        (fun _ spec => spec) ?_) ?_
      · rintro e ⟨rfl, cut⟩
        exact ⟨rfl, fun stored => stored.not_cut _ cut⟩
      rintro r (reached | refused | stranded)
      · have nonneg : ¬ r.ret < 0 := by
          rw [reached.ret]
          omega
        have wrote := reached.wrote owned ix (buf.take (8192 - ix))
        have length : (buf.drop (8192 - ix)).length = buf.length - (8192 - ix) :=
          List.length_drop
        have shorter : (buf.drop (8192 - ix)).length < fuel := by
          clear inside bound
          omega
        have upper : blockNr + 1 ≤ 4196362 := Nat.succ_le_of_lt inside
        have rest : ∀ sb', Wrote blockNr ix (buf.take (8192 - ix)) sb inode sb' r.inode →
            Sat (if blockSize < (buf.drop (8192 - ix)).length then
                writeLoop start oSize fuel sb' r.inode (buf.drop (8192 - ix)) (blockNr + 1) 0
              else writeLast sb' r.inode start oSize (buf.drop (8192 - ix)) (blockNr + 1) 0)
              (WriteOutcome start oSize ((blockNr + 1) * 8192) (buf.drop (8192 - ix)) sb' r.inode)
              (fun e => e = .exit ∧ ¬ Stored sb'.dev r.inode.dinode) := by
          intro sb' wrote'
          have owned' := wrote'.ext.owned owned
          refine Sat.ite (fun _ => ?_) fun fits => ?_
          · have loop := ih sb' r.inode (buf.drop (8192 - ix)) (blockNr + 1) 0
              wrote'.ext.consistent owned' upper (by decide) shorter
            rw [Nat.add_zero ((blockNr + 1) * 8192)] at loop
            exact loop
          · have last :=
              writeLast_sat sb' r.inode start oSize (buf.drop (8192 - ix)) (blockNr + 1) 0
              wrote'.ext.consistent owned' upper (by decide)
              (by rw [Nat.zero_add]; exact Nat.not_lt.mp fits)
            rw [Nat.add_zero ((blockNr + 1) * 8192)] at last
            exact last
        rw [if_neg nonneg, reached.ret, writeBlocks_nat, ok_bind]
        refine (rest _ wrote).mono (fun r' outcome => outcome.after wrote owned rfl small inside
          more') ?_
        rintro e ⟨rfl, cut⟩
        exact ⟨rfl, fun stored => cut (wrote.stored stored)⟩
      · rw [if_pos refused.ret]
        exact .failed (refused.failed owned first inside)
      · rw [if_pos stranded.ret]
        exact stranded.outcome ok first inside

/-- Every outcome of a write that starts inside the largest file. -/
theorem testfsWriteData_sat (sb : SuperBlock) (inode : Inode) (buf : List Byte) (start : Nat)
    (ok : Consistent sb) (owned : Owned sb inode.dinode) (inside : start / 8192 < 4196362) :
    Sat (testfsWriteData sb inode buf start)
      (WriteOutcome start (toInt32 buf.length) start buf sb inode)
      (fun e => e = .exit ∧ ¬ Stored sb.dev inode.dinode) := by
  unfold testfsWriteData
  have room : ¬ nrMaxBlock ≤ start / blockSize := Nat.not_le.mpr inside
  have below : ¬ (start : Int) ≤ -(blockSize : Int) := by
    simp only [blockSize]
    omega
  rw [if_neg below, if_neg (by omega)]
  simp only [Int.toNat_natCast, room, ↓reduceIte]
  have loop := writeLoop_sat start (toInt32 buf.length) (buf.length + 1) sb inode buf (start / 8192)
    (start % 8192) ok owned (by omega) (Nat.mod_lt _ (by decide)) (Nat.lt_succ_self _)
  rw [Nat.div_add_mod'] at loop
  exact loop

/-- A write that starts behind the largest file does nothing and reports success. -/
theorem testfsWriteData_beyond (sb : SuperBlock) (inode : Inode) (buf : List Byte) (start : Nat)
    (beyond : 4196362 ≤ start / 8192) :
    testfsWriteData sb inode buf start = .ok ⟨eFBIG, inode, sb⟩ := by
  unfold testfsWriteData
  have room : nrMaxBlock ≤ start / blockSize := beyond
  have below : ¬ (start : Int) ≤ -(blockSize : Int) := by
    simp only [blockSize]
    omega
  rw [if_neg below, if_neg (by omega)]
  simp only [Int.toNat_natCast, room, ↓reduceIte]

end Ece344Lab.Fs
