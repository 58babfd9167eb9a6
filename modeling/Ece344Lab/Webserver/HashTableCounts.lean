import Ece344Lab.Lib.Chained
import Ece344Lab.Webserver.HashTable

set_option autoImplicit false

/- What the hash table counts, whatever the keys are and wherever the chains go. -/
namespace Ece344Lab.Webserver

open Chained

variable {β : Type}

theorem strHash_lt (str : List Byte) {size : Nat} (some : 0 < size) (fits : size < 2 ^ 64) :
    strHash str size < size := by
  unfold strHash
  rw [BitVec.toNat_and, BitVec.toNat_ofNat, Nat.mod_eq_of_lt (by omega)]
  have masked := Nat.and_le_right (n := (str.foldl (fun (key : BitVec 64) c =>
    (key <<< 5) + key + c.signExtend 64) 4294979861#64).toNat) (m := size - 1)
  omega

namespace BucketBuffer

abbrev total (b : BucketBuffer β) : Nat := Chained.total b.size b.list

abbrev inUse (b : BucketBuffer β) : Nat := Chained.inUse b.size b.list

end BucketBuffer

section Move

variable {main sub : BucketBuffer β} {i : Nat}

/-- What moving some chains changes. -/
structure Advanced (main sub main' sub' : BucketBuffer β) (chains : Nat) : Prop where
  size : main'.size = main.size
  subSize : sub'.size = sub.size
  number : main'.bucketNumber + sub'.total = main.bucketNumber + sub.total
  total : main'.total + sub'.total = main.total + sub.total
  inUse : sub'.inUse = sub.inUse - chains
  cursor : main'.reallocateCursor = main.reallocateCursor

theorem moveList_of_ne (main sub : BucketBuffer β) {i : Nat} (used : sub.list i ≠ []) :
    ∃ key, (0 < main.size → main.size < 2 ^ 64 → key < main.size) ∧ moveList main sub i =
      ({ main with
          list := Function.update main.list key (main.list key ++ sub.list i)
          bucketNumber := main.bucketNumber + (sub.list i).length },
        { sub with
          list := Function.update sub.list i []
          bucketNumber := sub.bucketNumber - (sub.list i).length }) := by
  unfold moveList
  cases chain : sub.list i with
  | nil => exact absurd chain used
  | cons temp rest => exact ⟨_, strHash_lt temp.first, rfl⟩

theorem moveList_advanced (main sub : BucketBuffer β) {i : Nat} (used : sub.list i ≠ [])
    (inside : i < sub.size) (some : 0 < main.size) (fits : main.size < 2 ^ 64) :
    Advanced main sub (moveList main sub i).1 (moveList main sub i).2 1 := by
  obtain ⟨key, bound, moved⟩ := moveList_of_ne main sub used
  rw [moved]
  have added := total_update main.list (bound some fits) (main.list key ++ sub.list i)
  have cleared := total_update sub.list inside []
  have fewer := inUse_clear sub.list inside used
  rw [List.length_append] at added
  rw [List.length_nil] at cleared
  refine ⟨rfl, rfl, ?_, ?_, ?_, rfl⟩
  · dsimp only [BucketBuffer.total]
    omega
  · dsimp only [BucketBuffer.total]
    omega
  · dsimp only [BucketBuffer.inUse]
    omega

theorem Advanced.trans {main sub main' sub' main'' sub'' : BucketBuffer β} {m n : Nat}
    (first : Advanced main sub main' sub' m) (second : Advanced main' sub' main'' sub'' n) :
    Advanced main sub main'' sub'' (m + n) where
  size := second.size.trans first.size
  subSize := second.subSize.trans first.subSize
  number := second.number.trans first.number
  total := second.total.trans first.total
  inUse := by rw [second.inUse, first.inUse, Nat.sub_sub]
  cursor := second.cursor.trans first.cursor

/-- A rule for the loop: what moving a chain keeps, and the cursor does not matter to, it keeps. -/
theorem reallocateLoop_keeps {P : BucketBuffer β → BucketBuffer β → Prop} {size : Nat}
    (move : ∀ main sub i, i < size → P main sub → P (moveList main sub i).1 (moveList main sub i).2)
    (cursor : ∀ main sub i, P main sub → P main { sub with reallocateCursor := i }) (n : Nat) :
    ∀ (i count : Nat) (main sub : BucketBuffer β), i + n ≤ size → P main sub →
      P (reallocateLoop n i count main sub).1 (reallocateLoop n i count main sub).2 := by
  induction n with
  | zero => exact fun _ _ _ _ _ held => held
  | succ n ih =>
      intro i count main sub inside held
      unfold reallocateLoop
      by_cases empty : sub.list i = []
      · rw [if_pos empty]
        exact ih (i + 1) count main sub (by omega) held
      · rw [if_neg empty]
        have moved := move main sub i (by omega) held
        dsimp only
        by_cases last : hashtableMoveCount ≤ count + 1
        · rw [if_pos last]
          exact cursor _ _ i moved
        · rw [if_neg last]
          exact ih (i + 1) (count + 1) _ _ (by omega) moved

/-- The loop moves the next chains in use, as long as there are such. -/
theorem reallocateLoop_advanced (n : Nat) : ∀ (i count : Nat) (main sub : BucketBuffer β),
    count < hashtableMoveCount → sub.reallocateCursor ≤ i → (∀ j < i, sub.list j = []) →
    i + n = sub.size → 0 < main.size → main.size < 2 ^ 64 →
    Advanced main sub (reallocateLoop n i count main sub).1 (reallocateLoop n i count main sub).2
        (hashtableMoveCount - count) ∧
      (reallocateLoop n i count main sub).2.reallocateCursor ≤ sub.size ∧
      ∀ j < (reallocateLoop n i count main sub).2.reallocateCursor,
        (reallocateLoop n i count main sub).2.list j = [] := by
  induction n with
  | zero =>
      intro i count main sub _ cursor passed reached _ _
      have none : sub.inUse = 0 := inUse_eq_zero.mpr fun j inside => passed j (by omega)
      refine ⟨⟨rfl, rfl, rfl, rfl, ?_, rfl⟩, ?_, ?_⟩
      · change sub.inUse = sub.inUse - _
        rw [none, Nat.zero_sub]
      · change sub.reallocateCursor ≤ sub.size
        omega
      · exact fun j before => passed j (Nat.lt_of_lt_of_le before cursor)
  | succ n ih =>
      intro i count main sub few cursor passed reached some fits
      unfold reallocateLoop
      by_cases empty : sub.list i = []
      · rw [if_pos empty]
        apply ih (i + 1) count main sub few (by omega) ?_ (by omega) some fits
        intro j before
        by_cases same : j = i
        · rw [same]
          exact empty
        · exact passed j (by omega)
      · rw [if_neg empty]
        have advanced := moveList_advanced main sub empty (by omega) some fits
        obtain ⟨key, _, moved⟩ := moveList_of_ne main sub empty
        have list : (moveList main sub i).2.list = Function.update sub.list i [] := by rw [moved]
        have size : (moveList main sub i).1.size = main.size := by rw [moved]
        have cursor' : (moveList main sub i).2.reallocateCursor =
            sub.reallocateCursor := by rw [moved]
        have passed' : ∀ j < i + 1, (moveList main sub i).2.list j = [] := by
          intro j before
          rw [list]
          by_cases same : j = i
          · rw [same, Function.update_self]
          · rw [Function.update_of_ne same]
            exact passed j (by omega)
        dsimp only
        by_cases last : hashtableMoveCount ≤ count + 1
        · have one : hashtableMoveCount - count = 1 := by omega
          rw [if_pos last, one]
          refine ⟨⟨advanced.size, advanced.subSize, advanced.number, advanced.total, advanced.inUse,
            advanced.cursor⟩, ?_, fun j before => passed' j (Nat.lt_succ_of_lt before)⟩
          change i ≤ sub.size
          omega
        · rw [if_neg last]
          have rest :=
            ih (i + 1) (count + 1) (moveList main sub i).1 (moveList main sub i).2 (by omega)
            (by omega) passed' (by rw [advanced.subSize]; omega) (by omega) (by omega)
          refine ⟨?_, rest.2.1.trans_eq advanced.subSize, rest.2.2⟩
          have whole := advanced.trans rest.1
          have sum : 1 + (hashtableMoveCount - (count + 1)) = hashtableMoveCount - count := by omega
          rw [sum] at whole
          exact whole

end Move

def BucketBuffer.push (main : BucketBuffer β) (k : List Byte) (b : β) : BucketBuffer β :=
  { main with
    list := Function.update main.list (strHash k main.size)
      (main.list (strHash k main.size) ++ [⟨k, b⟩])
    bucketNumber := main.bucketNumber + 1 }

theorem hashTableInsert_eq (t : HashTable β) (k : List Byte) (b : β) :
    hashTableInsert t k b =
      let t' := (hashTableReallocate ⟨t.mainBuffer.push k b, t.subBuffer⟩).2
      if t'.mainBuffer.size ≤ 2 * t'.mainBuffer.bucketNumber then do
        let main ← bucketBufferNew (hashtableScaleFactor * t'.mainBuffer.size)
        .ok (1, ⟨main, some t'.mainBuffer⟩)
      else .ok (1, t') := rfl

/-- The table when `HashTable_insert` compares the load factor. -/
def HashTable.pushed (t : HashTable β) (k : List Byte) (b : β) : HashTable β :=
  (hashTableReallocate ⟨t.mainBuffer.push k b, t.subBuffer⟩).2

/-- What an insertion can do. -/
theorem hashTableInsert_cases {t t' : HashTable β} {k : List Byte} {b : β} {ret : Int}
    (run : hashTableInsert t k b = .ok (ret, t')) :
    ((t.pushed k b).mainBuffer.size ≤ 2 * (t.pushed k b).mainBuffer.bucketNumber ∧
      2 * (t.pushed k b).mainBuffer.size < 2 ^ 31 ∧
      t' = ⟨⟨fun _ => [], 2 * (t.pushed k b).mainBuffer.size, 0, 0⟩,
        some (t.pushed k b).mainBuffer⟩) ∨
    (2 * (t.pushed k b).mainBuffer.bucketNumber < (t.pushed k b).mainBuffer.size ∧
      t' = t.pushed k b) := by
  rw [hashTableInsert_eq] at run
  unfold HashTable.pushed
  generalize (hashTableReallocate ⟨t.mainBuffer.push k b, t.subBuffer⟩).2 = t₁ at run ⊢
  dsimp only at run
  by_cases full : t₁.mainBuffer.size ≤ 2 * t₁.mainBuffer.bucketNumber
  · rw [if_pos full, bucketBufferNew] at run
    by_cases fits : hashtableScaleFactor * t₁.mainBuffer.size < 2 ^ 31
    · rw [if_pos fits] at run
      exact Or.inl ⟨full, fits, (Prod.mk.inj (Except.ok.inj run)).2.symm⟩
    · rw [if_neg fits] at run
      cases run
  · rw [if_neg full] at run
    exact Or.inr ⟨Nat.lt_of_not_le full, (Prod.mk.inj (Except.ok.inj run)).2.symm⟩

theorem BucketBuffer.total_push (main : BucketBuffer β) (k : List Byte) (b : β)
    (some : 0 < main.size) (fits : main.size < 2 ^ 64) :
    (main.push k b).total = main.total + 1 := by
  have counted := total_update main.list (strHash_lt k some fits)
    (main.list (strHash k main.size) ++ [⟨k, b⟩])
  rw [List.length_append, List.length_singleton] at counted
  dsimp only [BucketBuffer.total, BucketBuffer.push]
  omega

/-- A sub buffer that can only have lost pairs. -/
structure Thinned (sub sub' : BucketBuffer β) : Prop where
  size : sub'.size = sub.size
  cursor : sub'.reallocateCursor = sub.reallocateCursor
  chains : ∀ i, (sub'.list i).Sublist (sub.list i)

theorem Thinned.empty {sub sub' : BucketBuffer β} (thinned : Thinned sub sub') {i : Nat}
    (empty : sub.list i = []) : sub'.list i = [] := by
  have less := thinned.chains i
  rw [empty, List.sublist_nil] at less
  exact less

theorem bucketBufferDelete_found (buffer : BucketBuffer β) (k : List Byte) :
    0 ≤ (bucketBufferDelete buffer k).1 := by
  unfold bucketBufferDelete
  dsimp only
  cases Keyed.lookup Pair.first (buffer.list (strHash k buffer.size)) k with
  | none => exact Int.le_refl 0
  | some p => exact Int.zero_le_ofNat 1

/-- What `BucketBuffer_delete` does to the counts. -/
theorem bucketBufferDelete_thinned {buffer : BucketBuffer β} (positive : 0 < buffer.size)
    (fits : buffer.size < 2 ^ 64) (k : List Byte) :
    Thinned buffer (bucketBufferDelete buffer k).2 ∧
      (bucketBufferDelete buffer k).2.bucketNumber = buffer.bucketNumber ∧
      ((bucketBufferDelete buffer k).2.total : Int) + (bucketBufferDelete buffer k).1 =
      buffer.total := by
  have inside := strHash_lt k positive fits
  have count := total_update buffer.list inside
    (Keyed.remove Pair.first (buffer.list (strHash k buffer.size)) k)
  unfold bucketBufferDelete
  dsimp only
  cases found : Keyed.lookup Pair.first (buffer.list (strHash k buffer.size)) k with
  | none => exact ⟨⟨rfl, rfl, fun i => List.Sublist.refl _⟩, rfl, Int.add_zero _⟩
  | some p =>
      have less : (Keyed.remove Pair.first (buffer.list (strHash k buffer.size)) k).length + 1 =
          (buffer.list (strHash k buffer.size)).length := by
        have one := Keyed.lookup_mem found
        have key := Keyed.lookup_key found
        unfold Keyed.remove
        rw [List.length_eraseP_of_mem one (decide_eq_true key)]
        have some := List.length_pos_of_mem one
        omega
      refine ⟨⟨rfl, rfl, fun i => ?_⟩, rfl, ?_⟩
      · by_cases same : i = strHash k buffer.size
        · dsimp only
          rw [same, Function.update_self]
          exact List.eraseP_sublist
        · dsimp only
          rw [Function.update_of_ne same]
      · dsimp only [BucketBuffer.total]
        omega

/-- The sub buffer while its chains move. Each insertion moves two chains, so that all have moved
before the main buffer is half full. -/
structure SubCounts (main sub : BucketBuffer β) : Prop where
  double : main.size = 2 * sub.size
  passed : ∀ j < sub.reallocateCursor, sub.list j = []
  cursor : sub.reallocateCursor ≤ sub.size
  ahead : sub.inUse ≠ 0 → 8 * (main.bucketNumber + sub.total + (sub.inUse + 1) / 2) ≤ 3 * main.size

namespace SubCounts

variable {main sub : BucketBuffer β}

theorem of_main (subCounts : SubCounts main sub) {main' : BucketBuffer β}
    (size : main'.size = main.size)
    (number : main'.bucketNumber = main.bucketNumber) : SubCounts main' sub where
  double := size.trans subCounts.double
  passed := subCounts.passed
  cursor := subCounts.cursor
  ahead used := by
    rw [number, size]
    exact subCounts.ahead used

theorem thin (subCounts : SubCounts main sub) {sub' : BucketBuffer β} (thinned : Thinned sub sub')
    (total : sub'.total ≤ sub.total) : SubCounts main sub' where
  double := by rw [thinned.size, subCounts.double]
  passed j before := thinned.empty (subCounts.passed j (thinned.cursor ▸ before))
  cursor := by rw [thinned.cursor, thinned.size]; exact subCounts.cursor
  ahead used := by
    have fewer : sub'.inUse ≤ sub.inUse := by
      unfold BucketBuffer.inUse
      rw [thinned.size]
      exact inUse_le _ fun i => thinned.empty
    have ahead := subCounts.ahead (by omega)
    omega

end SubCounts

/-- The counts of a table. -/
structure HashTable.Counts (t : HashTable β) : Prop where
  size : ∃ a, 12 ≤ a ∧ a ≤ 30 ∧ t.mainBuffer.size = 2 ^ a
  young : t.subBuffer = none → t.mainBuffer.size = hashtableIncrementSize
  room : t.mainBuffer.total ≤ t.mainBuffer.bucketNumber
  below : 2 * t.mainBuffer.bucketNumber < t.mainBuffer.size
  cursor : t.mainBuffer.reallocateCursor = 0
  sub : ∀ sub, t.subBuffer = some sub → SubCounts t.mainBuffer sub

/-- A table whose chains have been moved on, with the size and the number its main buffer had. A
full main buffer has all pairs. -/
structure HashTable.Moved (buckets number : Nat) (t : HashTable β) : Prop where
  size : t.mainBuffer.size = buckets
  room : t.mainBuffer.total ≤ t.mainBuffer.bucketNumber
  cursor : t.mainBuffer.reallocateCursor = 0
  sub : ∀ sub, t.subBuffer = some sub → SubCounts t.mainBuffer sub
  full : buckets ≤ 2 * t.mainBuffer.bucketNumber →
    t.mainBuffer.bucketNumber = number ∧ ∀ sub, t.subBuffer = some sub → sub.inUse = 0

variable {t t' : HashTable β}

theorem hashTableNew_counts : (hashTableNew : HashTable β).Counts where
  size := ⟨12, by omega, by omega, rfl⟩
  young _ := rfl
  room := (total_eq_zero fun _ _ => rfl).le
  below := show 2 * 0 < 4096 by decide
  cursor := rfl
  sub sub none := by cases none

/-- Two chains are moved, or all that are left. A pair may have been added before. -/
theorem hashTableReallocate_moved {main sub : BucketBuffer β} (positive : 0 < main.size)
    (fits : main.size < 2 ^ 64) (double : main.size = 2 * sub.size)
    (passed : ∀ j < sub.reallocateCursor, sub.list j = [])
    (inside : sub.reallocateCursor ≤ sub.size)
    (room : main.total ≤ main.bucketNumber) (cursor : main.reallocateCursor = 0)
    (near : sub.inUse ≠ 0 →
      8 * (main.bucketNumber + sub.total + (sub.inUse - 1) / 2) ≤ 3 * main.size) :
    (hashTableReallocate ⟨main, some sub⟩).2.Moved main.size main.bucketNumber ∧
      (hashTableReallocate ⟨main, some sub⟩).2.subBuffer ≠ none := by
  obtain ⟨advanced, cursor', passed'⟩ := reallocateLoop_advanced (sub.size - sub.reallocateCursor)
    sub.reallocateCursor 0 main sub (by decide) (Nat.le_refl _) passed (Nat.add_sub_of_le inside)
    positive fits
  unfold hashTableReallocate
  dsimp only
  generalize reallocateLoop (sub.size - sub.reallocateCursor) sub.reallocateCursor 0
    main sub = moved at advanced cursor' passed' ⊢
  have subSize := advanced.subSize
  have size := advanced.size
  have number := advanced.number
  have totals := advanced.total
  have used : moved.2.inUse = sub.inUse - 2 := advanced.inUse
  have start : sub.inUse = 0 → sub.total = 0 :=
    fun unused => total_eq_zero (inUse_eq_zero.mp unused)
  rw [if_neg (by omega)]
  refine ⟨⟨size, ?_, advanced.cursor.trans cursor, fun sub' same => ?_, fun full => ?_⟩, nofun⟩
  · dsimp only
    omega
  · obtain rfl := Option.some.inj same
    refine ⟨by dsimp only; omega, passed', cursor'.trans_eq subSize.symm, fun rest => ?_⟩
    dsimp only
    omega
  · dsimp only at full ⊢
    have unused : moved.2.inUse = 0 := by omega
    have empty : moved.2.total = 0 := total_eq_zero (inUse_eq_zero.mp unused)
    refine ⟨by omega, fun sub' same => ?_⟩
    obtain rfl := Option.some.inj same
    exact unused

namespace HashTable.Counts

theorem bounds (counts : t.Counts) : 0 < t.mainBuffer.size ∧ t.mainBuffer.size < 2 ^ 64 ∧
    ∃ q, t.mainBuffer.size = 4 * q := by
  obtain ⟨a, low, high, size⟩ := counts.size
  rw [size]
  refine ⟨Nat.two_pow_pos a, Nat.pow_lt_pow_right (by omega) (by omega), 2 ^ (a - 2), ?_⟩
  rw [show a = a - 2 + 2 by omega, Nat.pow_add, Nat.add_sub_cancel]
  omega

theorem pushed (counts : t.Counts) (k : List Byte) (b : β) :
    (t.pushed k b).Moved t.mainBuffer.size (t.mainBuffer.bucketNumber + 1) ∧
      ((t.pushed k b).subBuffer = none → t.subBuffer = none) := by
  obtain ⟨positive, fits, _⟩ := counts.bounds
  have total := t.mainBuffer.total_push k b positive fits
  have room := counts.room
  have room' : (t.mainBuffer.push k b).total ≤ t.mainBuffer.bucketNumber + 1 := by omega
  unfold HashTable.pushed
  cases moving : t.subBuffer with
  | none => exact ⟨⟨rfl, room', counts.cursor, nofun, fun _ => ⟨rfl, nofun⟩⟩, fun _ => rfl⟩
  | some sub =>
      have subCounts := counts.sub sub moving
      have ahead := subCounts.ahead
      have near : sub.inUse ≠ 0 →
          8 * (t.mainBuffer.bucketNumber + 1 + sub.total + (sub.inUse - 1) / 2) ≤
            3 * t.mainBuffer.size := by
        omega
      have positive' : 0 < (t.mainBuffer.push k b).size := positive
      obtain ⟨moved, some⟩ := hashTableReallocate_moved positive' fits
        subCounts.double subCounts.passed subCounts.cursor room' counts.cursor near
      exact ⟨moved, fun none => absurd none some⟩

theorem insert (counts : t.Counts) {k : List Byte} {b : β} {ret : Int}
    (run : hashTableInsert t k b = .ok (ret, t')) : t'.Counts := by
  obtain ⟨moved, alone⟩ := counts.pushed k b
  obtain ⟨a, low, high, power⟩ := counts.size
  have below := counts.below
  obtain ⟨_, _, q, quarter⟩ := counts.bounds
  have cases := hashTableInsert_cases run
  generalize t.pushed k b = t₁ at moved alone cases
  obtain ⟨size, room, cursor, sub, full⟩ := moved
  rcases cases with ⟨switch, fits, rfl⟩ | ⟨less, rfl⟩
  · obtain ⟨number, unused⟩ := full (size ▸ switch)
    have few : t₁.mainBuffer.inUse ≤ t₁.mainBuffer.total := inUse_le_total _ _
    refine ⟨⟨a + 1, by omega, ?_, ?_⟩, nofun, ?_, ?_, rfl, fun sub' same => ?_⟩
    · by_contra large
      have equal : a = 30 := by omega
      subst equal
      omega
    · change 2 * _ = _
      rw [size, power, Nat.pow_succ, Nat.mul_comm]
    · exact (total_eq_zero fun _ _ => rfl).le
    · change 2 * 0 < 2 * t₁.mainBuffer.size
      omega
    · obtain rfl := Option.some.inj same
      refine ⟨rfl, fun j before => by omega, by omega, fun used => ?_⟩
      change 8 * (0 + _ + _) ≤ 3 * (2 * _)
      omega
  · exact ⟨⟨a, low, high, size.trans power⟩,
      fun none => size.trans (counts.young (alone none)), room,
      size ▸ less, cursor, sub⟩

theorem reallocate (counts : t.Counts) : (hashTableReallocate t).2.Counts := by
  obtain ⟨positive, fits, q, quarter⟩ := counts.bounds
  have below := counts.below
  obtain ⟨main, subBuffer⟩ := t
  cases subBuffer with
  | none => exact counts
  | some sub =>
      have subCounts := counts.sub sub rfl
      have ahead := subCounts.ahead
      have positive' : 0 < main.size := positive
      obtain ⟨moved, some⟩ := hashTableReallocate_moved positive' fits
        subCounts.double subCounts.passed subCounts.cursor counts.room counts.cursor
        (fun used => by have ahead := ahead used; dsimp only at ahead; omega)
      have size := moved.size
      refine ⟨size ▸ counts.size, fun none => absurd none some, moved.room, ?_,
        moved.cursor, moved.sub⟩
      by_contra full
      have number := (moved.full (by omega)).1
      dsimp only at below
      omega

theorem delete (counts : t.Counts) (k : List Byte) : (hashTableDelete t k).2.Counts := by
  obtain ⟨positive, fits, _⟩ := counts.bounds
  obtain ⟨thinned, number, total⟩ := bucketBufferDelete_thinned positive fits k
  have found := bucketBufferDelete_found t.mainBuffer k
  have room := counts.room
  unfold hashTableDelete
  dsimp only
  by_cases inMain : (bucketBufferDelete t.mainBuffer k).1 ≠ 0
  · rw [if_pos inMain]
    refine ⟨thinned.size ▸ counts.size,
      fun alone => thinned.size.trans (counts.young alone), ?_, ?_,
      thinned.cursor.trans counts.cursor, fun sub same => ?_⟩
    · dsimp only
      omega
    · dsimp only
      rw [number, thinned.size]
      exact counts.below
    · exact (counts.sub sub same).of_main thinned.size number
  · rw [if_neg inMain]
    cases moving : t.subBuffer with
    | none => exact counts
    | some sub =>
        have subCounts := counts.sub sub moving
        have double := subCounts.double
        obtain ⟨thinned', _, total'⟩ :=
          bucketBufferDelete_thinned (show 0 < sub.size by omega) (by omega) k
        have found' := bucketBufferDelete_found sub k
        refine ⟨counts.size, nofun, room, counts.below, counts.cursor, fun sub' same => ?_⟩
        obtain rfl := Option.some.inj same
        exact subCounts.thin thinned' (by omega)

end HashTable.Counts

end Ece344Lab.Webserver
