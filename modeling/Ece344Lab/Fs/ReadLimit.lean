import Ece344Lab.Fs.WithinSize

set_option autoImplicit false

/- `testfs_read_data`: when the number it returns is the number of bytes it delivers. -/
namespace Ece344Lab.Fs

open Outcome Ownership

/-- How many of `size` bytes from `start` on the file has. -/
def deliverable (d : Dinode) (start size : Nat) : Nat := min size (d.size - start).toNat

/-- What a read owes its caller. -/
structure ReadContract (sb : SuperBlock) (d : Dinode) (start size : Nat)
    (r : ReadResult) : Prop where
  delivers : 0 ≤ r.ret → r.ret = deliverable d start size ∧
    r.stored = fileBytes sb.dev d start (deliverable d start size)
  beyond : maxFileSize ≤ start → r.stored = [] ∧ r.ret ≤ 0

section Loop

variable {sb : SuperBlock} {d : Dinode}

/-- A size that has wrapped around makes the loop copy everything up to the largest file size, by
induction on its fuel. -/
theorem readLoop_runaway (oSize : Int) (fuel : Nat) (done : List Byte) (blockNr ix size : Nat)
    (owned : Owned sb d) (small : ix < 8192) (inside : blockNr ≤ 4196362)
    (aligned : blockNr = 4196362 → ix = 0) (word : ix + size < 2 ^ 64)
    (far : 4196362 * 8192 + 8192 < blockNr * 8192 + ix + size) (enough : 4196362 < blockNr + fuel) :
    Sat (readLoop sb d oSize fuel done blockNr ix size)
      (fun r => r = ⟨eFBIG, done ++ fileBytes sb.dev d (blockNr * 8192 + ix)
        (4196362 * 8192 - (blockNr * 8192 + ix))⟩)
      (fun e => e = .exit ∧ ¬ Stored sb.dev d) := by
  induction fuel generalizing done blockNr ix size with
  | zero => omega
  | succ fuel ih =>
      have more : 8192 < ix + size := by omega
      unfold readLoop
      rw [Nat.mod_eq_of_lt word, if_pos more]
      by_cases full : blockNr = 4196362
      · have zero := aligned full
        have room : nrMaxBlock ≤ blockNr := Nat.le_of_eq full.symm
        rw [if_pos room, full, zero]
        change _ = _
        simp [fileBytes]
      · have below : blockNr < 4196362 := by omega
        have room : ¬ nrMaxBlock ≤ blockNr := Nat.not_le.mpr below
        rw [if_neg room]
        refine Sat.bind ((testfsReadBlock_sat sb d blockNr Buffer.zero owned below).mono
          (fun _ spec => spec) ?_) ?_
        · rintro e ⟨rfl, cut⟩
          exact ⟨rfl, fun stored => stored.not_cut _ cut⟩
        rintro _ ⟨rfl, _⟩
        have nonneg : ¬ ((ptr sb.dev d (leaf blockNr) : Nat) : Int) < 0 := by omega
        have again : blockSize < size - (blockSize - ix) := by
          change 8192 < size - (8192 - ix)
          omega
        simp only [nonneg, ↓reduceIte, again]
        have next : (blockNr + 1) * 8192 + 0 = blockNr * 8192 + ix + (8192 - ix) := by omega
        have enough' : 4196362 < blockNr + 1 + fuel := by omega
        have word' : 0 + (size - (8192 - ix)) < 2 ^ 64 := by
          clear enough enough'
          omega
        have far' : 4196362 * 8192 + 8192 < (blockNr + 1) * 8192 + 0 + (size - (8192 - ix)) := by
          have rest : (8192 - ix) + (size - (8192 - ix)) = size := by
            clear far next
            omega
          rw [next, Nat.add_assoc, rest]
          exact far
        have rest := ih (done ++ (fileBlock sb.dev d blockNr).slice ix (8192 - ix)) (blockNr + 1) 0
          (size - (8192 - ix)) (by decide) (Nat.succ_le_of_lt below) (fun _ => rfl) word'
            far' enough'
        apply rest.weaken
        intro r same
        have whole : 4196362 * 8192 - (blockNr * 8192 + ix) =
            (8192 - ix) + (4196362 * 8192 - ((blockNr + 1) * 8192 + 0)) := by omega
        have copied : (fileBlock sb.dev d blockNr).slice ix (8192 - ix) =
            fileBytes sb.dev d (blockNr * 8192 + ix) (8192 - ix) :=
          slice_fileBlock _ _ _ _ _ (Nat.le_of_eq (Nat.add_sub_cancel' (Nat.le_of_lt small)))
        rw [same, whole, fileBytes_add, ← next, List.append_assoc, copied]

/-- When `block_ix + size` wraps around as well, `memcpy` leaves the block. -/
theorem readLoop_overrun (oSize : Int) (fuel : Nat) (done : List Byte) (blockNr ix size : Nat)
    (owned : Owned sb d) (stored : Stored sb.dev d) (small : ix < 8192) (inside : blockNr < 4196362)
    (wrap : 2 ^ 64 ≤ ix + size) (word : size < 2 ^ 64) :
    readLoop sb d oSize (fuel + 1) done blockNr ix size = .error .undefined := by
  have value : (ix + size) % 2 ^ 64 = ix + size - 2 ^ 64 := by omega
  have last : ¬ blockSize < ix + size - 2 ^ 64 := by
    change ¬ 8192 < _
    omega
  have outside : blockSize < ix + size := by
    change 8192 < _
    omega
  have room : ¬ nrMaxBlock ≤ blockNr := Nat.not_le.mpr inside
  unfold readLoop readLast
  rw [value, if_neg last, if_neg room]
  have read := testfsReadBlock_sat sb d blockNr Buffer.zero owned inside
  cases run : testfsReadBlock sb d blockNr Buffer.zero with
  | error e =>
      rw [run] at read
      exact absurd read.2 (stored.not_cut _)
  | ok r =>
      rw [run] at read
      have nonneg : ¬ r.1 < 0 := by
        rw [read.1]
        exact Int.not_lt.mpr (Int.natCast_nonneg _)
      rw [ok_bind]
      simp only [nonneg, ↓reduceIte, outside]

end Loop

section Data

variable {sb : SuperBlock} {d : Dinode} {start size : Nat}

/-- The `size_t` that `testfs_read_data` works with. -/
def clampedSize (d : Dinode) (start size : Nat) : Nat :=
  if d.size < Int.bmod (start + size) (2 ^ 64) then ((d.size - start) % 2 ^ 64).toNat else size

theorem testfsReadData_inside (inside : start < maxFileSize) :
    testfsReadData sb d start size = readLoop sb d (toInt32 size) (nrMaxBlock + 1) []
      (start / 8192) (start % 8192) (clampedSize d start size) := by
  rw [maxFileSize_eq] at inside
  have below : start / 8192 < 4196362 := by omega
  have room : ¬ nrMaxBlock ≤ start / blockSize := Nat.not_le.mpr below
  unfold testfsReadData clampedSize
  rw [if_neg room]

theorem clampedSize_of_le (lower : 0 ≤ d.size) (upper : d.size ≤ maxFileSize)
    (inside : start ≤ d.size) (small : start + size < 2 ^ 63) :
    clampedSize d start size = deliverable d start size := by
  have wanted : Int.bmod (start + size) (2 ^ 64) = start + size := by
    apply Int.bmod_eq_of_le <;> omega
  have rest : (d.size - start) % 2 ^ 64 = d.size - start := by
    rw [maxFileSize_eq] at upper
    apply Int.emod_eq_of_lt <;> omega
  unfold clampedSize deliverable
  rw [wanted, rest]
  split <;> omega

/-- Behind the end of the file, or when `start + size` leaves the `off_t`, the size is no size of a
file. -/
theorem clampedSize_wrapped (lower : 0 ≤ d.size) (upper : d.size ≤ maxFileSize)
    (inside : start < maxFileSize) (word : size < 2 ^ 64)
    (odd : d.size < start ∨ 2 ^ 63 ≤ start + size) :
    2 ^ 62 ≤ clampedSize d start size ∧ clampedSize d start size < 2 ^ 64 ∧
      (start ≤ d.size → clampedSize d start size = size) := by
  rw [maxFileSize_eq] at upper inside
  have wanted : Int.bmod (start + size) (2 ^ 64) =
      if start + size < 2 ^ 63 then (start + size : Int)
      else if start + size < 2 ^ 64 + 2 ^ 63 then start + size - 2 ^ 64
      else start + size - 2 ^ 65 := by
    rw [Int.bmod_def]
    split <;> split <;> (try split) <;> omega
  unfold clampedSize
  rw [wanted]
  split <;> split <;> (try split) <;> omega

/-- A read that begins inside the file returns `(int) size`, whatever it delivers. -/
theorem testfsReadData_within (owned : Owned sb d) (lower : 0 ≤ d.size)
    (upper : d.size ≤ maxFileSize) (inside : start < maxFileSize) (before : start ≤ d.size)
    (small : start + size < 2 ^ 63) :
    Sat (testfsReadData sb d start size)
      (fun r => r = ⟨toInt32 size, fileBytes sb.dev d start (deliverable d start size)⟩)
      (fun e => e = .exit ∧ ¬ Stored sb.dev d) := by
  rw [testfsReadData_inside inside, clampedSize_of_le lower upper before small]
  rw [maxFileSize_eq] at upper inside
  have reach : start + deliverable d start size ≤ 4196362 * 8192 := by
    unfold deliverable
    omega
  have loop := readLoop_sat sb d (toInt32 size) (4196362 + 1) [] (start / 8192) (start % 8192)
    (deliverable d start size) owned (Nat.mod_lt _ (by decide)) (by omega) (by omega) (by omega)
  rw [Nat.div_add_mod', List.nil_append] at loop
  exact loop

/-- Any other read runs up to the largest file size or out of its block. -/
theorem testfsReadData_wrapped (owned : Owned sb d) (stored : Stored sb.dev d) (lower : 0 ≤ d.size)
    (upper : d.size ≤ maxFileSize) (inside : start < maxFileSize) (word : size < 2 ^ 64)
    (odd : d.size < start ∨ 2 ^ 63 ≤ start + size) :
    testfsReadData sb d start size =
      if start % 8192 + clampedSize d start size < 2 ^ 64 then
        .ok ⟨eFBIG, fileBytes sb.dev d start (maxFileSize - start)⟩
      else .error .undefined := by
  obtain ⟨huge, word', _⟩ := clampedSize_wrapped lower upper inside word odd
  rw [testfsReadData_inside inside]
  generalize clampedSize d start size = wrapped at huge word' ⊢
  rw [maxFileSize_eq] at inside
  have below : start / 8192 < 4196362 := by omega
  have small : start % 8192 < 8192 := Nat.mod_lt _ (by decide)
  split
  · rename_i fits
    have loop := readLoop_runaway (toInt32 size) (4196362 + 1) [] (start / 8192) (start % 8192)
      wrapped owned small (Nat.le_of_lt below) (fun same => absurd same (Nat.ne_of_lt below)) fits
      (by omega) (by omega)
    obtain ⟨r, run, same⟩ := loop.exists_of fun e stop => stop.2 stored
    change readLoop sb d (toInt32 size) (nrMaxBlock + 1) _ _ _ _ = _ at run
    rw [run, same, Nat.div_add_mod', List.nil_append, ← maxFileSize_eq]
  · rename_i wrap
    exact readLoop_overrun (toInt32 size) nrMaxBlock [] _ _ _ owned stored small below
      (Nat.not_lt.mp wrap) word'

/-- The reads that report what they deliver. They begin inside the file and below the largest file
size; `start + size` stays an `off_t`; and the low word of `size`, an `int`, is negative or the
number of bytes delivered. One more read gets away by chance: when `start + size` wraps around, the
27 bytes up to the largest file size are as many as `EFBIG`. -/
def Delivers (d : Dinode) (start size : Nat) : Prop :=
  start < maxFileSize ∧ (start : Int) ≤ d.size ∧
    if start + size < 2 ^ 63 then
      2 ^ 31 ≤ size % 2 ^ 32 ∨ size % 2 ^ 32 = deliverable d start size
    else d.size = maxFileSize ∧ start + 27 = maxFileSize ∧ size < 2 ^ 64 - 8165

theorem toInt32_nat (n : Nat) : toInt32 n =
    if n % 2 ^ 32 < 2 ^ 31 then ((n % 2 ^ 32 : Nat) : Int)
      else ((n % 2 ^ 32 : Nat) : Int) - 2 ^ 32 := by
  unfold toInt32
  rw [Int.bmod_def]
  split <;> split <;> omega

/-- A read that begins behind the end of the file, or whose end wraps around. -/
theorem contract_wrapped_iff (owned : Owned sb d) (stored : Stored sb.dev d) (lower : 0 ≤ d.size)
    (upper : d.size ≤ maxFileSize) (inside : start < maxFileSize) (word : size < 2 ^ 64)
    (odd : d.size < start ∨ 2 ^ 63 ≤ start + size) :
    Returns (testfsReadData sb d start size) (ReadContract sb d start size) ↔
      Delivers d start size := by
  have wrapped := testfsReadData_wrapped owned stored lower upper inside word odd
  have size' := (clampedSize_wrapped lower upper inside word odd).2.2
  unfold Delivers deliverable
  constructor
  · intro returns
    obtain ⟨r, run, contract⟩ := returns
    rw [wrapped] at run
    split at run
    · rename_i fits
      cases run
      have positive : 0 ≤ eFBIG := by decide
      obtain ⟨count, bytes⟩ := contract.delivers positive
      have number := congrArg List.length bytes
      rw [length_fileBytes, length_fileBytes] at number
      change (27 : Int) = _ at count
      unfold deliverable at count number
      rw [maxFileSize_eq] at upper inside number ⊢
      have before : start ≤ d.size := by omega
      rw [size' before] at fits
      refine ⟨inside, before, ?_⟩
      rw [if_neg (by omega)]
      omega
    · cases run
  · intro delivers
    obtain ⟨_, before, rest⟩ := delivers
    rw [if_neg (by omega)] at rest
    rw [size' before] at wrapped
    rw [maxFileSize_eq] at rest
    have fits : start % 8192 + size < 2 ^ 64 := by omega
    rw [if_pos fits] at wrapped
    have count : deliverable d start size = 27 := by
      unfold deliverable
      omega
    have whole : maxFileSize - start = 27 := by
      rw [maxFileSize_eq]
      omega
    refine ⟨_, wrapped, fun _ => ?_, fun beyond => absurd beyond (Nat.not_le.mpr inside)⟩
    rw [count, whole]
    exact ⟨rfl, rfl⟩

/-- A read that begins inside the file. -/
theorem contract_within_iff (owned : Owned sb d) (stored : Stored sb.dev d) (lower : 0 ≤ d.size)
    (upper : d.size ≤ maxFileSize) (inside : start < maxFileSize) (before : start ≤ d.size)
    (small : start + size < 2 ^ 63) :
    Returns (testfsReadData sb d start size) (ReadContract sb d start size) ↔
      Delivers d start size := by
  obtain ⟨r, run, same⟩ := (testfsReadData_within owned lower upper inside before small).exists_of
    fun e stop => stop.2 stored
  have number := toInt32_nat size
  unfold Delivers
  rw [if_pos small]
  constructor
  · intro returns
    obtain ⟨r', run', contract⟩ := returns
    rw [run] at run'
    cases run'
    refine ⟨inside, before, ?_⟩
    by_contra neither
    rw [not_or] at neither
    rw [if_pos (by omega)] at number
    have count := (contract.delivers (by rw [same, number]; exact Int.natCast_nonneg _)).1
    rw [same, number] at count
    exact neither.2 (Int.ofNat.inj count)
  · intro delivers
    refine ⟨r, run, fun nonneg => ?_, fun beyond => absurd beyond (Nat.not_le.mpr inside)⟩
    rw [same] at nonneg ⊢
    dsimp only at nonneg ⊢
    split at number
    · refine ⟨?_, rfl⟩
      rw [number]
      exact congrArg Int.ofNat (delivers.2.2.resolve_left (by omega))
    · omega

/-- A read that begins behind the largest file size returns a positive error. -/
theorem contract_beyond (beyond : maxFileSize ≤ start) :
    ¬ Returns (testfsReadData sb d start size) (ReadContract sb d start size) := by
  have run : testfsReadData sb d start size = .ok ⟨eFBIG, []⟩ := by
    have room : nrMaxBlock ≤ start / blockSize := by
      rw [maxFileSize_eq] at beyond
      change 4196362 ≤ start / 8192
      omega
    unfold testfsReadData
    exact if_pos room
  intro returns
  obtain ⟨r, run', contract⟩ := returns
  rw [run] at run'
  cases run'
  exact absurd (contract.beyond beyond).2 (by decide)

/-- A read of a file reports what it delivers exactly in these cases. -/
theorem testfsReadData_contract_iff (sb : SuperBlock) (d : Dinode) (start size : Nat)
    (owned : Owned sb d) (stored : Stored sb.dev d) (lower : 0 ≤ d.size)
    (upper : d.size ≤ maxFileSize) (word : size < 2 ^ 64) :
    Returns (testfsReadData sb d start size) (ReadContract sb d start size) ↔
      Delivers d start size := by
  by_cases inside : start < maxFileSize
  · by_cases odd : d.size < start ∨ 2 ^ 63 ≤ start + size
    · exact contract_wrapped_iff owned stored lower upper inside word odd
    · exact contract_within_iff owned stored lower upper inside (by omega) (by omega)
  · exact iff_of_false (contract_beyond (Nat.not_lt.mp inside)) fun delivers => inside delivers.1

end Data

theorem stored_emptyFile (dev : Device) : Stored dev emptyFile.dinode :=
  fun s nonzero => absurd (ptr_zero dev s) nonzero

/-- The byte of a file that has one. -/
theorem testfsReadData_contract_iff_byte : ∃ sb r, freshSuperBlock 1 = .ok sb ∧
    testfsWriteData sb emptyFile [7] 0 = .ok r ∧ r.inode.dinode.size = 1 ∧
    content r.sb.dev r.inode.dinode 0 = 7 ∧
    Returns (testfsReadData r.sb r.inode.dinode 0 1) (ReadContract r.sb r.inode.dinode 0 1) := by
  obtain ⟨sb, r, made, run, owned, stored, size, byte⟩ := fresh_written
  have upper : r.inode.dinode.size ≤ maxFileSize := size.trans_le (by decide)
  refine ⟨sb, r, made, run, size, byte, (testfsReadData_contract_iff r.sb r.inode.dinode 0 1 owned
    stored (by omega) upper (by decide)).mpr ⟨by decide, by omega, ?_⟩⟩
  rw [if_pos (by decide)]
  refine Or.inr ?_
  unfold deliverable
  rw [size]
  rfl

/-- One byte asked for at the end of an empty file: the read returns 1 and delivers nothing. -/
theorem read_past_end : ∃ sb, freshSuperBlock 1 = .ok sb ∧ Owned sb emptyFile.dinode ∧
    Stored sb.dev emptyFile.dinode ∧ emptyFile.dinode.size = 0 ∧
    testfsReadData sb emptyFile.dinode 0 1 = .ok ⟨1, []⟩ ∧
    ¬ ReadContract sb emptyFile.dinode 0 1 ⟨1, []⟩ := by
  obtain ⟨sb, made, _⟩ := freshSuperBlock_eq 1 (by decide)
  have owned := emptyFile_owned sb
  have stored := stored_emptyFile sb.dev
  refine ⟨sb, made, owned, stored, rfl, ?_, fun contract => ?_⟩
  · obtain ⟨r, run, same⟩ := (@testfsReadData_within sb emptyFile.dinode 0 1 owned (by decide)
      (by decide) (by decide) (by decide) (by decide)).exists_of fun e stop => stop.2 stored
    rw [run, same]
    rfl
  · have count := (contract.delivers (by decide)).1
    exact absurd count (by decide)

end Ece344Lab.Fs
