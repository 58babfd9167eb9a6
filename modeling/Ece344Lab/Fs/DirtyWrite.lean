import Ece344Lab.Fs.WriteLoop

set_option autoImplicit false

/- A write that takes a block, or only tries to while there is one, leaves the inode dirty. -/
namespace Ece344Lab.Fs

open Outcome

/-- Inode `k`, with the flag set. -/
structure Inode.DirtyAt (inode : Inode) (k : Nat) : Prop where
  flag : inode.dirty = true
  number : inode.iNr = k

/-- Unless the block was there or there is none, the inode is dirty. -/
theorem BlockOutcome.marks {sb : SuperBlock} {inode : Inode} {block : Block} {s : Slot}
    {r : BlockResult} (outcome : BlockOutcome sb inode block s r) :
    r.inode.DirtyAt inode.iNr ∨ r.inode = inode ∧
      (sb.free = 0 ∨ r.sb.free = sb.free ∧ ptr sb.dev inode.dinode s ≠ 0) := by
  cases outcome with
  | held present _ => exact Or.inr ⟨rfl, Or.inr ⟨rfl, present⟩⟩
  | full _ none => exact Or.inr ⟨rfl, Or.inl none⟩
  | direct | entry | indirect | stranded | dentry | page | pageBack | dindirect | bothBack | kept =>
      exact Or.inl ⟨rfl, rfl⟩

/-- The block is reached, or the inode is dirty, or no block is left. -/
theorem testfsAllocateBlock_step (sb : SuperBlock) (inode : Inode) (log : Nat) (ok : Consistent sb)
    (owned : Owned sb inode.dinode) (inside : log < nrMaxBlock) :
    Sat (testfsAllocateBlock sb inode log Buffer.zero)
      (fun r => (Reached (leaf log) sb inode (fileBlock sb.dev inode.dinode log) r ∧
          (r.inode.DirtyAt inode.iNr ∨ r.inode = inode ∧ (sb.free = 0 ∨ r.sb.free = sb.free))) ∨
        r.ret < 0 ∧ (r.inode.DirtyAt inode.iNr ∨ r.inode = inode ∧ sb.free = 0))
      (fun _ => True) := by
  apply (testfsAllocateBlock_outcome sb inode log Buffer.zero ok owned inside).anyStop.weaken
  intro r outcome
  have marks := outcome.marks
  have refused : ptr sb.dev inode.dinode (leaf log) = 0 → r.inode.DirtyAt inode.iNr ∨
      r.inode = inode ∧ sb.free = 0 := by
    intro null
    rcases marks with dirty | ⟨same, none | ⟨_, present⟩⟩
    · exact Or.inl dirty
    · exact Or.inr ⟨same, none⟩
    · exact absurd null present
  rcases outcome.ends ok owned with reached | failed | stranded
  · refine Or.inl ⟨reached, ?_⟩
    rcases marks with dirty | ⟨same, none | ⟨free, _⟩⟩
    · exact Or.inl dirty
    · exact Or.inr ⟨same, Or.inl none⟩
    · exact Or.inr ⟨same, Or.inr free⟩
  · exact Or.inr ⟨failed.ret, refused failed.null⟩
  · exact Or.inr ⟨stranded.ret, refused stranded.null⟩

/-- The inode is dirty after a write, or it was clean and there was no block. -/
abbrev Marked (sb : SuperBlock) (inode : Inode) (r : FileResult) : Prop :=
  r.inode.DirtyAt inode.iNr ∨ inode.dirty = false ∧ sb.free = 0

theorem marked_of_refused {sb : SuperBlock} {inode : Inode} {r : BlockResult}
    (refused : r.inode.DirtyAt inode.iNr ∨ r.inode = inode ∧ sb.free = 0) :
    Marked sb inode ⟨r.ret, r.inode, r.sb⟩ := by
  cases refused with
  | inl dirty => exact Or.inl dirty
  | inr none =>
      cases flag : inode.dirty with
      | true =>
          refine Or.inl ?_
          change r.inode.DirtyAt inode.iNr
          rw [none.1]
          exact ⟨flag, rfl⟩
      | false => exact Or.inr ⟨flag, none.2⟩

theorem writeLast_marks (sb : SuperBlock) (inode : Inode) (start oSize : Int) (buf : List Byte)
    (blockNr ix : Nat) (ok : Consistent sb) (owned : Owned sb inode.dinode) :
    Sat (writeLast sb inode start oSize buf blockNr ix) (Marked sb inode) (fun _ => True) := by
  unfold writeLast
  apply Sat.ite
  · exact fun _ => Or.inl ⟨rfl, rfl⟩
  · intro room
    apply Sat.bind (testfsAllocateBlock_step sb inode blockNr ok owned (Nat.not_le.mp room))
    intro r spec
    cases spec with
    | inr refused =>
        rw [if_pos refused.1]
        exact marked_of_refused refused.2
    | inl reached =>
        apply Sat.ite
        · intro negative
          have ret := reached.1.ret
          omega
        · intro _
          apply Sat.bind (sat_true _)
          exact fun _ _ => Or.inl ⟨rfl, reached.1.ext.number⟩

theorem Marked.after {sb sb' : SuperBlock} {inode : Inode} {r : BlockResult} {w : FileResult}
    (first : r.inode.DirtyAt inode.iNr ∨ r.inode = inode ∧ (sb.free = 0 ∨ r.sb.free = sb.free))
    (number : r.inode.iNr = inode.iNr) (free : sb'.free = r.sb.free)
    (later : Marked sb' r.inode w) : Marked sb inode w := by
  cases later with
  | inl dirty => exact Or.inl ⟨dirty.flag, dirty.number.trans number⟩
  | inr none =>
      rcases first with dirty | ⟨same, before | free'⟩
      · have flag := dirty.flag
        rw [none.1] at flag
        cases flag
      · exact Or.inr ⟨same ▸ none.1, before⟩
      · exact Or.inr ⟨same ▸ none.1, by omega⟩

theorem writeLoop_marks (start oSize : Int) (fuel : Nat) (sb : SuperBlock) (inode : Inode)
    (buf : List Byte) (blockNr ix : Nat) (ok : Consistent sb) (owned : Owned sb inode.dinode) :
    Sat (writeLoop start oSize fuel sb inode buf blockNr ix) (Marked sb inode) (fun _ => True) := by
  induction fuel generalizing sb inode buf blockNr ix with
  | zero => trivial
  | succ fuel ih =>
      unfold writeLoop
      apply Sat.ite
      · intro _
        apply Sat.ite
        · exact fun _ => Or.inl ⟨rfl, rfl⟩
        · intro room
          apply Sat.bind (testfsAllocateBlock_step sb inode blockNr ok owned (Nat.not_le.mp room))
          intro r spec
          cases spec with
          | inr refused =>
              rw [if_pos refused.1]
              exact marked_of_refused refused.2
          | inl reached =>
              obtain ⟨reached, marks⟩ := reached
              have wrote := reached.wrote owned ix (buf.take (8192 - ix))
              have ok' := wrote.ext.consistent
              have owned' := wrote.ext.owned owned
              have nonneg : ¬ r.ret < 0 := by
                rw [reached.ret]
                omega
              rw [if_neg nonneg, reached.ret, writeBlocks_nat, ok_bind]
              apply Sat.ite
              · intro _
                exact (ih _ r.inode _ (blockNr + 1) 0 ok' owned').weaken
                  fun _ later => Marked.after marks reached.ext.number rfl later
              · intro _
                exact (writeLast_marks _ r.inode start oSize _ (blockNr + 1) 0 ok' owned').weaken
                  fun _ later => Marked.after marks reached.ext.number rfl later
      · exact fun _ => writeLast_marks sb inode start oSize buf blockNr ix ok owned

/-- A write that finds a free block leaves its inode dirty, whatever it returns. -/
theorem testfsWriteData_marks (sb : SuperBlock) (inode : Inode) (buf : List Byte) (start : Nat)
    (ok : Consistent sb) (owned : Owned sb inode.dinode) (inside : start / 8192 < 4196362) :
    Sat (testfsWriteData sb inode buf start) (Marked sb inode) (fun _ => True) := by
  have room : ¬ nrMaxBlock ≤ start / blockSize := Nat.not_le.mpr inside
  have below : ¬ (start : Int) ≤ -(blockSize : Int) := by
    simp only [blockSize]
    omega
  unfold testfsWriteData
  rw [if_neg below, if_neg (by omega)]
  simp only [Int.toNat_natCast, room, ↓reduceIte]
  exact writeLoop_marks start _ _ sb inode buf _ _ ok owned

end Ece344Lab.Fs
