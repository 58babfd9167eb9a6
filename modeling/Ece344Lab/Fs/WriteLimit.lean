import Ece344Lab.Fs.WithinSize

set_option autoImplicit false

/- `testfs_write_data` against the largest file size. -/
namespace Ece344Lab.Fs

open Outcome Ownership

theorem lastBlock_lt_iff (start size n : Nat) (positive : 0 < size) :
    lastBlock start size < n ↔ start + size ≤ n * 8192 := by
  unfold lastBlock
  omega

/-- Below a bound only the bytes in front of it matter. -/
theorem overlay_take (f : Nat → Byte) (pos bound : Nat) (buf : List Byte) (q : Nat)
    (below : q < bound) : overlay f pos buf q = overlay f pos (buf.take (bound - pos)) q := by
  unfold overlay
  rw [List.length_take]
  by_cases inside : pos ≤ q ∧ q < pos + buf.length
  · rw [if_pos inside, if_pos (by omega), List.getD_eq_getElem?_getD, List.getD_eq_getElem?_getD,
      List.getElem?_take_of_lt (by omega)]
  · rw [if_neg inside, if_neg (by omega)]

/-- What a write of `buf` at `start` owes its caller when every block it asks for is handed out. -/
structure WriteContract (sb : SuperBlock) (inode : Inode) (buf : List Byte) (start : Nat)
    (r : FileResult) : Prop where
  fits : start + buf.length ≤ maxFileSize → r.ret = buf.length ∧
    ∀ q < maxFileSize, content r.sb.dev r.inode.dinode q =
      overlay (content sb.dev inode.dinode) start buf q
  crosses : start < maxFileSize → maxFileSize < start + buf.length → r.ret = -eFBIG ∧
    (∀ q < maxFileSize, content r.sb.dev r.inode.dinode q =
      overlay (content sb.dev inode.dinode) start (buf.take (maxFileSize - start)) q) ∧
    r.inode.dinode.size = maxFileSize
  beyond : maxFileSize ≤ start → r.ret < 0 ∧ r.inode = inode ∧ r.sb = sb
  most : r.inode.dinode.size ≤ maxFileSize
  grows : inode.dinode.size ≤ r.inode.dinode.size

theorem Spliced.content_below {pos : Nat} {buf : List Byte} {sb : SuperBlock} {inode : Inode}
    {r : FileResult} (spliced : Spliced pos buf sb inode r) (q : Nat) (below : q < maxFileSize) :
    content r.sb.dev r.inode.dinode q = overlay (content sb.dev inode.dinode) pos buf q := by
  rw [maxFileSize_eq] at below
  exact spliced.contents q (by omega)

/-- A write that begins inside the largest file keeps to this. -/
theorem WriteOutcome.contract {sb : SuperBlock} {inode : Inode} {buf : List Byte} {start : Nat}
    {r : FileResult} (outcome : WriteOutcome start (toInt32 buf.length) start buf sb inode r)
    (bounded : inode.dinode.size ≤ maxFileSize) (inside : start < maxFileSize)
    (positive : 0 < buf.length) (small : buf.length < 2 ^ 31)
    (handed : r.sb.allocFailed = false) : WriteContract sb inode buf start r := by
  rw [maxFileSize_eq] at bounded inside
  cases outcome with
  | done spliced ret fits size =>
      have whole : start + buf.length ≤ 4196362 * 8192 :=
        (lastBlock_lt_iff start buf.length _ positive).mp fits
      have exact : toInt32 buf.length = buf.length := toInt32_of_lt _ (by omega) (by omega)
      rw [if_pos positive, exact] at size
      have size' : r.inode.dinode.size = max inode.dinode.size (start + buf.length : Nat) := by
        rw [← size_grown _ _ _ (by omega) whole]
        exact congrArg BitVec.toInt size
      refine ⟨fun _ => ⟨ret.trans exact, spliced.content_below⟩, fun _ beyond => ?_,
        fun beyond => ?_, ?_, ?_⟩
      · rw [maxFileSize_eq] at beyond
        omega
      · rw [maxFileSize_eq] at beyond
        omega
      · rw [size', maxFileSize_eq]
        omega
      · rw [size']
        exact le_max_left _ _
  | tooBig spliced ret beyond size =>
      have longer : ¬ start + buf.length ≤ 4196362 * 8192 := by
        rw [← lastBlock_lt_iff start buf.length _ positive]
        exact Nat.not_lt.mpr beyond
      have size' : r.inode.dinode.size = (4196362 * 8192 : Nat) := by
        unfold Dinode.size
        rw [size]
        decide
      refine ⟨fun fits => absurd fits longer, fun _ _ => ⟨ret, fun q below => ?_, size'⟩,
        fun beyond => ?_, ?_, ?_⟩
      · rw [spliced.content_below q below]
        exact overlay_take _ _ _ _ _ below
      · rw [maxFileSize_eq] at beyond
        omega
      · rw [size', maxFileSize_eq]
      · rw [size']
        omega
  | failed failed =>
      rw [failed.ghost] at handed
      cases handed
  | stranded strands ret ghost dangling =>
      rw [ghost] at handed
      cases handed

/-- With every block handed out, a write keeps to this exactly when it begins inside the largest
file: behind it, the write does nothing and returns a positive number. -/
theorem testfsWriteData_contract_iff (sb : SuperBlock) (inode : Inode) (buf : List Byte)
    (start : Nat) (ok : Consistent sb) (owned : Owned sb inode.dinode)
    (bounded : inode.dinode.size ≤ maxFileSize) (nonempty : buf ≠ [])
    (small : buf.length < 2 ^ 31) :
    Sat (testfsWriteData sb inode buf start)
      (fun r => r.sb.allocFailed = false →
        (WriteContract sb inode buf start r ↔ start < maxFileSize))
      (fun e => e = .exit ∧ ¬ Stored sb.dev inode.dinode) := by
  have positive := List.length_pos_of_ne_nil nonempty
  by_cases inside : start < maxFileSize
  · have room : start / 8192 < 4196362 := by
      rw [maxFileSize_eq] at inside
      omega
    apply (testfsWriteData_sat sb inode buf start ok owned room).weaken
    intro r outcome handed
    exact ⟨fun _ => inside, fun _ => outcome.contract bounded inside positive small handed⟩
  · have beyond : 4196362 ≤ start / 8192 := by
      rw [maxFileSize_eq] at inside
      omega
    rw [testfsWriteData_beyond sb inode buf start beyond]
    intro _
    refine ⟨fun contract => ?_, fun below => absurd below inside⟩
    have negative : eFBIG < 0 := (contract.beyond (Nat.not_lt.mp inside)).1
    exact absurd negative (by decide)

theorem testfsWriteData_contract_iff_first : ∃ sb, freshSuperBlock 1 = .ok sb ∧
    Sat (testfsWriteData sb emptyFile [7] 0)
      (fun r => r.sb.allocFailed = false → WriteContract sb emptyFile [7] 0 r)
      (fun e => e = .exit ∧ ¬ Stored sb.dev emptyFile.dinode) := by
  obtain ⟨sb, made, ok, _⟩ := fresh_emptyFile
  have spec := testfsWriteData_contract_iff sb emptyFile [7] 0 ok (emptyFile_owned sb) (by decide)
    (by decide) (by decide)
  exact ⟨sb, made, spec.weaken fun r keeps handed => (keeps handed).mpr (by decide)⟩

/-- The first byte behind the largest file: `testfs_write_data` returns `EFBIG`, not `-EFBIG`. -/
theorem write_behind_limit : ∃ sb, freshSuperBlock 1 = .ok sb ∧ Consistent sb ∧
    Owned sb emptyFile.dinode ∧ sb.allocFailed = false ∧
    testfsWriteData sb emptyFile [7] maxFileSize = .ok ⟨27, emptyFile, sb⟩ ∧
    ¬ WriteContract sb emptyFile [7] maxFileSize ⟨27, emptyFile, sb⟩ := by
  obtain ⟨sb, made, blank⟩ := freshSuperBlock_eq 1 (by decide)
  refine ⟨sb, made, blank.consistent, emptyFile_owned sb, ?_, ?_, fun contract => ?_⟩
  · exact blank.unfailed
  · exact testfsWriteData_beyond sb emptyFile [7] maxFileSize (by decide)
  · have negative : (27 : Int) < 0 := (contract.beyond (Nat.le_refl _)).1
    exact absurd negative (by decide)

end Ece344Lab.Fs
