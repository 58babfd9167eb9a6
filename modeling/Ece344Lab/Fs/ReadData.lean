import Ece344Lab.Fs.ReadBlock

set_option autoImplicit false

/- `testfs_read_data` delivers the contents of the file. -/
namespace Ece344Lab.Fs

open Outcome Ownership

/-- `NR_MAX_BLOCK*BLOCK_SIZE`. -/
abbrev maxFileSize : Nat := nrMaxBlock * blockSize

theorem maxFileSize_eq : maxFileSize = 4196362 * 8192 := rfl

/-- Every block of the inode lies inside the image. -/
def Stored (dev : Device) (d : Dinode) : Prop := ∀ s, ptr dev d s ≠ 0 → ptr dev d s < dev.nr

theorem Stored.not_cut {dev : Device} {d : Dinode} (stored : Stored dev d) (s : Slot) :
    ¬ Cut dev d s := by
  rintro ⟨t, _, nonzero, beyond⟩
  exact absurd (stored t nonzero) (Nat.not_lt.mpr beyond)

/-- The bytes of the file in a range. -/
def fileBytes (dev : Device) (d : Dinode) (start size : Nat) : List Byte :=
  (List.range size).map fun i => content dev d (start + i)

@[simp] theorem length_fileBytes (dev : Device) (d : Dinode) (start size : Nat) :
    (fileBytes dev d start size).length = size := by
  simp [fileBytes]

theorem fileBytes_congr {dev dev' : Device} {d d' : Dinode} {start size : Nat}
    (same : ∀ q, start ≤ q → q < start + size → content dev' d' q = content dev d q) :
    fileBytes dev' d' start size = fileBytes dev d start size := by
  apply List.map_congr_left
  intro i member
  have inside := List.mem_range.mp member
  exact same _ (by omega) (by omega)

theorem fileBytes_add (dev : Device) (d : Dinode) (start first second : Nat) :
    fileBytes dev d start (first + second) =
      fileBytes dev d start first ++ fileBytes dev d (start + first) second := by
  unfold fileBytes
  rw [List.range_add, List.map_append, List.map_map]
  congr 1
  apply List.map_congr_left
  intro i _
  simp only [Function.comp_apply, Nat.add_assoc]

theorem content_block (dev : Device) (d : Dinode) (log ix : Nat) (small : ix < 8192) :
    content dev d (log * 8192 + ix) = (fileBlock dev d log).get ix := by
  have quotient : (log * 8192 + ix) / blockSize = log := by
    simp only [blockSize]
    omega
  have remainder : (log * 8192 + ix) % blockSize = ix := by
    simp only [blockSize]
    omega
  rw [content, quotient, remainder]

theorem slice_fileBlock (dev : Device) (d : Dinode) (log ix size : Nat)
    (fits : ix + size ≤ 8192) :
    (fileBlock dev d log).slice ix size = fileBytes dev d (log * 8192 + ix) size := by
  apply List.map_congr_left
  intro i member
  have inside := List.mem_range.mp member
  rw [Nat.add_assoc, content_block _ _ _ _ (by omega)]

theorem readLast_sat (sb : SuperBlock) (d : Dinode) (oSize : Int) (done : List Byte)
    (blockNr ix size : Nat) (owned : Owned sb d) (inside : blockNr < 4196362)
    (fits : ix + size ≤ 8192) :
    Sat (readLast sb d oSize done blockNr ix size)
      (fun r => r = ⟨oSize, done ++ fileBytes sb.dev d (blockNr * 8192 + ix) size⟩)
      (fun e => e = .exit ∧ ¬ Stored sb.dev d) := by
  have room : ¬ nrMaxBlock ≤ blockNr := Nat.not_le.mpr inside
  unfold readLast
  rw [if_neg room]
  refine Sat.bind ((testfsReadBlock_sat sb d blockNr Buffer.zero owned inside).mono
    (fun _ spec => spec) ?_) ?_
  · rintro e ⟨rfl, cut⟩
    exact ⟨rfl, fun stored => stored.not_cut _ cut⟩
  rintro _ ⟨rfl, _⟩
  have small : ¬ blockSize < ix + size := Nat.not_lt.mpr fits
  simp only [Int.natCast_nonneg, Int.not_lt.mpr, ↓reduceIte, small]
  rw [slice_fileBlock _ _ _ _ _ fits]
  rfl

/-- The loop, by induction on its fuel: each round copies to the end of one block. -/
theorem readLoop_sat (sb : SuperBlock) (d : Dinode) (oSize : Int) (fuel : Nat)
    (done : List Byte) (blockNr ix size : Nat) (owned : Owned sb d) (small : ix < 8192)
    (inside : blockNr < 4196362) (fits : blockNr * 8192 + ix + size ≤ 4196362 * 8192)
    (enough : 4196362 < blockNr + fuel) :
    Sat (readLoop sb d oSize fuel done blockNr ix size)
      (fun r => r = ⟨oSize, done ++ fileBytes sb.dev d (blockNr * 8192 + ix) size⟩)
      (fun e => e = .exit ∧ ¬ Stored sb.dev d) := by
  induction fuel generalizing done blockNr ix size with
  | zero => omega
  | succ fuel ih =>
      unfold readLoop
      have modulus : (ix + size) % 2 ^ 64 = ix + size := Nat.mod_eq_of_lt (by omega)
      rw [modulus]
      refine Sat.ite ?_ fun last => readLast_sat sb d oSize done blockNr ix size owned inside
        (Nat.not_lt.mp last)
      intro more
      have more' : 8192 < ix + size := more
      have room : ¬ nrMaxBlock ≤ blockNr := Nat.not_le.mpr inside
      rw [if_neg room]
      refine Sat.bind ((testfsReadBlock_sat sb d blockNr Buffer.zero owned inside).mono
        (fun _ spec => spec) ?_) ?_
      · rintro e ⟨rfl, cut⟩
        exact ⟨rfl, fun stored => stored.not_cut _ cut⟩
      rintro _ ⟨rfl, _⟩
      have next : blockNr + 1 < 4196362 := by omega
      have joined : ∀ p, p = blockNr * 8192 + ix + (8192 - ix) →
          done ++ fileBytes sb.dev d (blockNr * 8192 + ix) size =
            done ++ (fileBlock sb.dev d blockNr).slice ix (8192 - ix) ++
              fileBytes sb.dev d p (size - (8192 - ix)) := by
        rintro _ rfl
        have whole : size = (8192 - ix) + (size - (8192 - ix)) := by omega
        rw [slice_fileBlock _ _ _ _ _ (Nat.le_of_eq (Nat.add_sub_cancel' (Nat.le_of_lt small))),
          List.append_assoc, ← fileBytes_add, ← whole]
      have position : (blockNr + 1) * 8192 + 0 = blockNr * 8192 + ix + (8192 - ix) := by
        clear next inside fits enough
        omega
      have fits' : (blockNr + 1) * 8192 + 0 + (size - (8192 - ix)) ≤ 4196362 * 8192 := by
        have whole : (8192 - ix) + (size - (8192 - ix)) = size := by
          clear fits next position
          omega
        rw [position, Nat.add_assoc, whole]
        exact fits
      have enough' : 4196362 < blockNr + 1 + fuel := by omega
      have nonneg : ¬ ((ptr sb.dev d (leaf blockNr) : Nat) : Int) < 0 := by omega
      simp only [nonneg, ↓reduceIte]
      rw [joined _ position]
      refine Sat.ite (fun _ => ?_) fun last => ?_
      · exact ih _ (blockNr + 1) 0 _ (by decide) next fits' enough'
      · exact readLast_sat sb d oSize _ (blockNr + 1) 0 _ owned next
          (by rw [Nat.zero_add]; exact Nat.not_lt.mp last)

/-- Reading a range inside the file gives its bytes. -/
theorem testfsReadData_sat (sb : SuperBlock) (d : Dinode) (start size : Nat) (owned : Owned sb d)
    (inside : (start + size : Nat) ≤ d.size) (room : start / 8192 < 4196362)
    (fits : start + size ≤ 4196362 * 8192) :
    Sat (testfsReadData sb d start size)
      (fun r => r = ⟨toInt32 size, fileBytes sb.dev d start size⟩)
      (fun e => e = .exit ∧ ¬ Stored sb.dev d) := by
  have room' : ¬ nrMaxBlock ≤ start / blockSize := Nat.not_le.mpr room
  unfold testfsReadData
  rw [if_neg room']
  have wanted : Int.bmod (start + size) (2 ^ 64) = start + size := by
    apply Int.bmod_eq_of_le <;> omega
  have whole : ¬ d.size < Int.bmod (start + size) (2 ^ 64) := by
    rw [wanted]
    omega
  simp only [whole, ↓reduceIte]
  have loop := readLoop_sat sb d (toInt32 size) (4196362 + 1) [] (start / 8192) (start % 8192)
    size owned (Nat.mod_lt _ (by decide)) room (by omega) (by omega)
  rw [Nat.div_add_mod', List.nil_append] at loop
  exact loop

end Ece344Lab.Fs
