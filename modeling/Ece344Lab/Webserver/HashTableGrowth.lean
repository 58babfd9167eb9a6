import Ece344Lab.Webserver.HashTableRuns

set_option autoImplicit false

/- How the hash table grows, over any sequence of calls and with any keys. -/
namespace Ece344Lab.Webserver

open Chained

variable {β : Type}

/-- The tables that insertions, rehashes and the deletions that are `allowed` lead to. A search
leaves the table as it is. -/
inductive HashTable.Uses (allowed : HashTable β → List Byte → Prop) : HashTable β → Prop
  | new : Uses allowed hashTableNew
  | insert {t t' k b ret} (before : Uses allowed t) (run : hashTableInsert t k b = .ok (ret, t')) :
      Uses allowed t'
  | delete {t k} (before : Uses allowed t) (held : allowed t k) :
      Uses allowed (hashTableDelete t k).2
  | reallocate {t} (before : Uses allowed t) : Uses allowed (hashTableReallocate t).2

variable {t : HashTable β} {allowed : HashTable β → List Byte → Prop}

theorem HashTable.Uses.counts (uses : HashTable.Uses allowed t) : t.Counts := by
  induction uses with
  | new => exact hashTableNew_counts
  | insert _ run ih => exact ih.insert run
  | delete _ _ ih => exact ih.delete _
  | reallocate _ ih => exact ih.reallocate

abbrev BucketBuffer.records (b : BucketBuffer β) : Multiset (Pair β) :=
  Chained.records b.size b.list

def HashTable.records (t : HashTable β) : Multiset (Pair β) :=
  t.mainBuffer.records + t.subBuffer.elim 0 BucketBuffer.records

section Move

variable {main sub : BucketBuffer β} {size subSize : Nat} {records : Multiset (Pair β)}

/-- Two buffers of given sizes that hold the given pairs between them. -/
structure Hold (size subSize : Nat) (records : Multiset (Pair β))
    (main sub : BucketBuffer β) : Prop where
  size : main.size = size
  subSize : sub.size = subSize
  records : main.records + sub.records = records

theorem moveList_nil (main : BucketBuffer β) {i : Nat} (unused : sub.list i = []) :
    moveList main sub i = (main, sub) := by
  unfold moveList
  rw [unused]

theorem Hold.move (positive : 0 < size) (fits : size < 2 ^ 64) (main sub : BucketBuffer β) (i : Nat)
    (inside : i < subSize) (hold : Hold size subSize records main sub) :
    Hold size subSize records (moveList main sub i).1 (moveList main sub i).2 := by
  by_cases used : sub.list i = []
  · rw [moveList_nil main used]
    exact hold
  · obtain ⟨rfl, rfl, rfl⟩ := hold
    obtain ⟨key, bound, moved⟩ := moveList_of_ne main sub used
    have added := records_update main.list (bound positive fits) (main.list key ++ sub.list i)
    have cleared := records_update sub.list inside []
    rw [← Multiset.coe_add, ← add_assoc, add_right_comm] at added
    rw [Multiset.coe_nil, add_zero] at cleared
    rw [moved]
    refine ⟨rfl, rfl, ?_⟩
    dsimp only [BucketBuffer.records]
    rw [add_right_cancel added, ← cleared]
    ac_rfl

/-- The count of a buffer is the number of its pairs. -/
def BucketBuffer.Exact (b : BucketBuffer β) : Prop := b.bucketNumber = b.total

/-- Two buffers of given sizes whose counts are exact. -/
structure BothExact (size subSize : Nat) (main sub : BucketBuffer β) : Prop where
  size : main.size = size
  subSize : sub.size = subSize
  main : main.Exact
  sub : sub.Exact

/-- Whole chains are moved with their pairs counted. -/
theorem BothExact.move (positive : 0 < size) (fits : size < 2 ^ 64)
    (main sub : BucketBuffer β) (i : Nat)
    (inside : i < subSize) (exact : BothExact size subSize main sub) :
    BothExact size subSize (moveList main sub i).1 (moveList main sub i).2 := by
  by_cases used : sub.list i = []
  · rw [moveList_nil main used]
    exact exact
  · obtain ⟨rfl, rfl, inMain, inSub⟩ := exact
    obtain ⟨key, bound, moved⟩ := moveList_of_ne main sub used
    have added := total_update main.list (bound positive fits) (main.list key ++ sub.list i)
    have cleared := total_update sub.list inside []
    rw [List.length_append] at added
    rw [List.length_nil] at cleared
    rw [moved]
    unfold BucketBuffer.Exact BucketBuffer.total at inMain inSub
    refine ⟨rfl, rfl, ?_, ?_⟩
    · dsimp only [BucketBuffer.Exact, BucketBuffer.total]
      omega
    · dsimp only [BucketBuffer.Exact, BucketBuffer.total]
      omega

/-- A rule for `HashTable_reallocate`: what `reallocateLoop` keeps, it keeps. -/
theorem hashTableReallocate_keeps {P : BucketBuffer β → BucketBuffer β → Prop}
    (move : ∀ main' sub' i, i < sub.size → P main' sub' →
      P (moveList main' sub' i).1 (moveList main' sub' i).2)
    (cursor : ∀ main' sub' i, P main' sub' → P main' { sub' with reallocateCursor := i })
    (inside : sub.reallocateCursor ≤ sub.size) (held : P main sub) :
    ∃ main' sub', P main' sub' ∧ hashTableReallocate ⟨main, some sub⟩ =
      (1, ⟨main', if sub'.size = 0 then none else some sub'⟩) :=
  ⟨_, _, reallocateLoop_keeps move cursor _ _ 0 main sub (Nat.add_sub_of_le inside).le held, rfl⟩

end Move

/-- Moving chains keeps the pairs of the table. -/
theorem hashTableReallocate_records (positive : 0 < t.mainBuffer.size)
    (fits : t.mainBuffer.size < 2 ^ 64)
    (inside : ∀ sub, t.subBuffer = some sub → sub.reallocateCursor ≤ sub.size) :
    (hashTableReallocate t).2.records = t.records := by
  obtain ⟨main, subBuffer⟩ := t
  cases subBuffer with
  | none => rfl
  | some sub =>
      have held : Hold main.size sub.size (main.records + sub.records) main sub := ⟨rfl, rfl, rfl⟩
      obtain ⟨main', sub', hold, run⟩ := hashTableReallocate_keeps (Hold.move positive fits)
        (fun _ _ _ hold => ⟨hold.size, hold.subSize, hold.records⟩) (inside sub rfl) held
      rw [run]
      change main'.records + _ = main.records + sub.records
      rw [← hold.records]
      by_cases none : sub'.size = 0
      · have empty : sub'.records = 0 := records_eq_zero fun i before => by omega
        rw [if_pos none, empty]
        rfl
      · rw [if_neg none]
        rfl

theorem BucketBuffer.records_push (main : BucketBuffer β) (k : List Byte) (b : β)
    (positive : 0 < main.size) (fits : main.size < 2 ^ 64) :
    (main.push k b).records = ⟨k, b⟩ ::ₘ main.records := by
  have added := records_update main.list (strHash_lt k positive fits)
    (main.list (strHash k main.size) ++ [⟨k, b⟩])
  rw [← Multiset.coe_add, ← add_assoc, add_right_comm] at added
  exact (add_right_cancel added).trans (add_comm _ _)

namespace HashTable.Counts

theorem pushed_records (counts : t.Counts) (k : List Byte) (b : β) :
    (t.pushed k b).records = ⟨k, b⟩ ::ₘ t.records := by
  obtain ⟨positive, fits, _⟩ := counts.bounds
  have moved :=
    hashTableReallocate_records (t := ⟨t.mainBuffer.push k b, t.subBuffer⟩) positive fits
    fun sub same => (counts.sub sub same).cursor
  unfold HashTable.pushed
  rw [moved, HashTable.records, HashTable.records, BucketBuffer.records_push _ _ _ positive fits,
    Multiset.cons_add]

/-- The sub buffer is empty when the main buffer is half full. -/
theorem pushed_unused (counts : t.Counts) (k : List Byte) (b : β)
    (full : (t.pushed k b).mainBuffer.size ≤ 2 * (t.pushed k b).mainBuffer.bucketNumber)
    {sub : BucketBuffer β} (same : (t.pushed k b).subBuffer = some sub) : sub.inUse = 0 := by
  obtain ⟨moved, _⟩ := counts.pushed k b
  have size : (t.pushed k b).mainBuffer.size = t.mainBuffer.size := moved.size
  exact (moved.full (size ▸ full)).2 sub same

/-- An insertion adds its pair and keeps all others, also when the table grows. -/
theorem insert_records (counts : t.Counts) {t' : HashTable β} {k : List Byte} {b : β} {ret : Int}
    (run : hashTableInsert t k b = .ok (ret, t')) : t'.records = ⟨k, b⟩ ::ₘ t.records := by
  rw [← counts.pushed_records k b]
  cases hashTableInsert_cases run with
  | inl grown =>
      obtain ⟨full, _, rfl⟩ := grown
      have freed : (t.pushed k b).subBuffer.elim 0 BucketBuffer.records = 0 := by
        cases moving : (t.pushed k b).subBuffer with
        | none => rfl
        | some sub =>
            exact records_eq_zero (inUse_eq_zero.mp (counts.pushed_unused k b full moving))
      have empty : Chained.records (2 * (t.pushed k b).mainBuffer.size) (fun _ =>
          ([] : List (Pair β))) = 0 :=
        records_eq_zero fun _ _ => rfl
      change Chained.records _ _ + (t.pushed k b).mainBuffer.records = _ + _
      rw [freed, empty]
      exact add_comm _ _
  | inr kept => rw [kept.2]

end HashTable.Counts

/-- When an insertion frees the sub buffer no pair is in it, so that the table has all pairs that
were inserted. -/
theorem rehash_finishes (uses : HashTable.Uses (fun _ _ => True) t) (k : List Byte) (b : β) :
    ((t.pushed k b).mainBuffer.size ≤ 2 * (t.pushed k b).mainBuffer.bucketNumber →
      ∀ sub, (t.pushed k b).subBuffer = some sub → ∀ i < sub.size, sub.list i = []) ∧
    ∀ ret t', hashTableInsert t k b = .ok (ret, t') → t'.records = ⟨k, b⟩ ::ₘ t.records :=
  ⟨fun full _ same => inUse_eq_zero.mp (uses.counts.pushed_unused k b full same),
    fun _ _ run => uses.counts.insert_records run⟩

theorem HashTable.Run.uses {held : HashTable β → Prop} {m : List Byte → Option β}
    (run : HashTable.Run held t m) : HashTable.Uses (fun _ _ => True) t := by
  induction run with
  | new => exact .new
  | insert _ _ _ run ih => exact ih.insert run
  | delete _ ih => exact ih.delete trivial

theorem rehash_finishes_misplaced : misplaced.records = ⟨[2#8], 0⟩ ::ₘ crowdedSub.records :=
  (rehash_finishes crowdedSub_run.uses [2#8] 0).2 1 _ crowdedSub_insert

/-- The counts of both buffers are exact. -/
structure HashTable.Exact (t : HashTable β) : Prop where
  main : t.mainBuffer.Exact
  sub : ∀ sub, t.subBuffer = some sub → sub.Exact

theorem BucketBuffer.exact_empty (size : Nat) :
    BucketBuffer.Exact (β := β) ⟨fun _ => [], size, 0, 0⟩ :=
  (total_eq_zero fun _ _ => rfl).symm

namespace HashTable.Exact

theorem reallocate (exact : t.Exact) (positive : 0 < t.mainBuffer.size)
    (fits : t.mainBuffer.size < 2 ^ 64)
    (inside : ∀ sub, t.subBuffer = some sub → sub.reallocateCursor ≤ sub.size) :
    (hashTableReallocate t).2.Exact := by
  obtain ⟨main, subBuffer⟩ := t
  cases subBuffer with
  | none => exact exact
  | some sub =>
      have held : BothExact main.size sub.size main sub := ⟨rfl, rfl, exact.main, exact.sub sub rfl⟩
      obtain ⟨main', sub', both, run⟩ := hashTableReallocate_keeps (BothExact.move positive fits)
        (fun _ _ _ both => ⟨both.size, both.subSize, both.main, both.sub⟩) (inside sub rfl) held
      rw [run]
      refine ⟨both.main, fun sub'' same => ?_⟩
      dsimp only at same
      by_cases none : sub'.size = 0
      · rw [if_pos none] at same
        cases same
      · rw [if_neg none] at same
        obtain rfl := Option.some.inj same
        exact both.sub

theorem pushed (exact : t.Exact) (counts : t.Counts) (k : List Byte) (b : β) :
    (t.pushed k b).Exact := by
  obtain ⟨positive, fits, _⟩ := counts.bounds
  have inside : ∀ sub, t.subBuffer = some sub → sub.reallocateCursor ≤ sub.size :=
    fun sub same => (counts.sub sub same).cursor
  have main : (t.mainBuffer.push k b).Exact := by
    have total := t.mainBuffer.total_push k b positive fits
    exact (congrArg (· + 1) exact.main).trans total.symm
  exact reallocate (t := ⟨t.mainBuffer.push k b, t.subBuffer⟩) ⟨main, exact.sub⟩
    positive fits inside

theorem insert (exact : t.Exact) (counts : t.Counts) {t' : HashTable β} {k : List Byte} {b : β}
    {ret : Int} (run : hashTableInsert t k b = .ok (ret, t')) : t'.Exact := by
  have pushed := exact.pushed counts k b
  cases hashTableInsert_cases run with
  | inl grown =>
      obtain ⟨_, _, rfl⟩ := grown
      refine ⟨BucketBuffer.exact_empty _, fun sub same => ?_⟩
      obtain rfl := Option.some.inj same
      exact pushed.main
  | inr kept =>
      rw [kept.2]
      exact pushed

end HashTable.Exact

theorem bucketBufferDelete_nothing {buffer : BucketBuffer β} {k : List Byte}
    (nothing : (bucketBufferDelete buffer k).1 = 0) : (bucketBufferDelete buffer k).2 = buffer := by
  unfold bucketBufferDelete at nothing ⊢
  dsimp only at nothing ⊢
  cases found : Keyed.lookup Pair.first (buffer.list (strHash k buffer.size)) k with
  | none => rfl
  | some p =>
      rw [found] at nothing
      cases nothing

/-- A deletion that does not find its key leaves the table as it is. -/
theorem hashTableDelete_nothing {k : List Byte} (nothing : (hashTableDelete t k).1 = 0) :
    (hashTableDelete t k).2 = t := by
  unfold hashTableDelete at nothing ⊢
  dsimp only at nothing ⊢
  by_cases inMain : (bucketBufferDelete t.mainBuffer k).1 ≠ 0
  · rw [if_pos inMain] at nothing
    exact absurd nothing inMain
  · rw [if_neg inMain] at nothing ⊢
    cases moving : t.subBuffer with
    | none => rfl
    | some sub =>
        rw [moving] at nothing
        dsimp only at nothing ⊢
        rw [bucketBufferDelete_nothing nothing, ← moving]

/-- The count of a buffer is wrong when a pair has been deleted. -/
theorem BucketBuffer.Exact.delete {buffer : BucketBuffer β} (exact : buffer.Exact)
    (positive : 0 < buffer.size) (fits : buffer.size < 2 ^ 64) {k : List Byte}
    (found : (bucketBufferDelete buffer k).1 ≠ 0) : ¬ (bucketBufferDelete buffer k).2.Exact := by
  obtain ⟨_, number, total⟩ := bucketBufferDelete_thinned positive fits k
  intro same
  unfold BucketBuffer.Exact at exact same
  omega

theorem HashTable.Exact.delete (exact : t.Exact) (counts : t.Counts) {k : List Byte}
    (found : (hashTableDelete t k).1 ≠ 0) : ¬ (hashTableDelete t k).2.Exact := by
  obtain ⟨positive, fits, _⟩ := counts.bounds
  unfold hashTableDelete at found ⊢
  dsimp only at found ⊢
  by_cases inMain : (bucketBufferDelete t.mainBuffer k).1 ≠ 0
  · rw [if_pos inMain]
    exact fun same => exact.main.delete positive fits inMain same.main
  · rw [if_neg inMain] at found ⊢
    cases moving : t.subBuffer with
    | none =>
        rw [moving] at found
        exact absurd rfl found
    | some sub =>
        rw [moving] at found
        have double := (counts.sub sub moving).double
        exact fun same => (exact.sub sub moving).delete (by omega) (by omega) found (same.sub _ rfl)

theorem bucketBufferDelete_eq_zero_iff {buffer : BucketBuffer β} {k : List Byte} :
    (bucketBufferDelete buffer k).1 = 0 ↔ bucketBufferFind buffer k = none := by
  unfold bucketBufferDelete bucketBufferFind
  dsimp only
  cases Keyed.lookup Pair.first (buffer.list (strHash k buffer.size)) k with
  | none => exact iff_of_true rfl rfl
  | some p => exact iff_of_false Int.one_ne_zero (Option.some_ne_none _)

/-- A deletion returns 0 exactly when its key is not found. -/
theorem hashTableDelete_eq_zero_iff {k : List Byte} :
    (hashTableDelete t k).1 = 0 ↔ hashTableFind t k = none := by
  unfold hashTableDelete hashTableFind
  dsimp only
  by_cases inMain : (bucketBufferDelete t.mainBuffer k).1 = 0
  · rw [if_neg (not_not_intro inMain), bucketBufferDelete_eq_zero_iff.mp inMain]
    cases t.subBuffer with
    | none => exact iff_of_true rfl rfl
    | some sub => exact bucketBufferDelete_eq_zero_iff
  · rw [if_pos inMain]
    refine iff_of_false inMain fun absent => inMain (bucketBufferDelete_eq_zero_iff.mpr ?_)
    cases found : bucketBufferFind t.mainBuffer k with
    | none => rfl
    | some b =>
        rw [found] at absent
        cases absent

theorem HashTable.Uses.exact (uses : HashTable.Uses (fun t k => hashTableFind t k = none) t) :
    t.Exact := by
  induction uses with
  | new => exact ⟨BucketBuffer.exact_empty _, nofun⟩
  | insert before run ih => exact ih.insert before.counts run
  | delete _ absent ih =>
      rw [hashTableDelete_nothing (hashTableDelete_eq_zero_iff.mpr absent)]
      exact ih
  | reallocate before ih =>
      obtain ⟨positive, fits, _⟩ := before.counts.bounds
      exact ih.reallocate positive fits fun sub same => (before.counts.sub sub same).cursor

/-- The pairs of a table that has just doubled are those of the buffer that was full. -/
theorem card_records_grown (size : Nat) (full : BucketBuffer β) :
    (HashTable.records ⟨⟨fun _ => [], size, 0, 0⟩, some full⟩).card = full.total := by
  have empty : Chained.records size (fun _ => ([] : List (Pair β))) = 0 :=
    records_eq_zero fun _ _ => rfl
  change (Chained.records size (fun _ => ([] : List (Pair β))) + full.records).card = _
  rw [empty, zero_add]
  exact card_records _ _

/-- Until a deletion finds its key, the count of each buffer is the number of its pairs, and the
table doubles only with half as many pairs as buckets. Such a deletion makes a count wrong. -/
theorem entry_counts_exact (uses : HashTable.Uses (fun t k => hashTableFind t k = none) t) :
    t.Exact ∧
      (∀ k b ret t', hashTableInsert t k b = .ok (ret, t') →
        t'.mainBuffer.size ≠ t.mainBuffer.size →
        t.mainBuffer.size ≤ 2 * t'.records.card) ∧
      ∀ k, hashTableFind t k ≠ none → ¬ (hashTableDelete t k).2.Exact := by
  refine ⟨uses.exact, fun k b ret t' run doubled => ?_, fun k present =>
    uses.exact.delete uses.counts fun nothing => present (hashTableDelete_eq_zero_iff.mp nothing)⟩
  have pushed := uses.exact.pushed uses.counts k b
  have size : (t.pushed k b).mainBuffer.size = t.mainBuffer.size := (uses.counts.pushed k b).1.size
  cases hashTableInsert_cases run with
  | inl grown =>
      obtain ⟨full, _, rfl⟩ := grown
      rw [card_records_grown, ← pushed.main, ← size]
      exact full
  | inr kept =>
      rw [kept.2] at doubled
      exact absurd size doubled

/-- The keys a and b are inserted and c is not found. The count is 2 then, and wrong when a has been
deleted. -/
theorem entry_counts_exact_two : ∃ t : HashTable Nat,
    HashTable.Uses (fun t k => hashTableFind t k = none) t ∧
      t.mainBuffer.bucketNumber = 2 ∧ t.Exact ∧
      ¬ (hashTableDelete t [97#8]).2.Exact := by
  let one := BucketBuffer.push (⟨fun _ => [], 4096, 0, 0⟩ : BucketBuffer Nat) [97#8] 1
  have first := hashTableInsert_alone ⟨fun _ => [], 4096, 0, 0⟩ (k := [97#8]) 1 (by decide)
  have second := hashTableInsert_alone one (k := [98#8]) 2 (by decide)
  have absent : hashTableFind ⟨one.push [98#8] 2, none⟩ [99#8] = none := by decide
  have uses : HashTable.Uses (fun t k => hashTableFind t k = none) _ :=
    ((HashTable.Uses.new.insert first).insert second).delete absent
  obtain ⟨exact, _, wrong⟩ := entry_counts_exact uses
  exact ⟨_, uses, by decide, exact, wrong [97#8] (by decide)⟩

/-- Two pairs are left of the 2047 that the table counts, and it doubles. -/
theorem entry_counts_drift : ∃ t t' : HashTable Nat, HashTable.Uses (fun _ _ => True) t ∧
    t.mainBuffer.bucketNumber = 2047 ∧ t.mainBuffer.total = 2 ∧
    hashTableInsert t [2#8] 0 = .ok (1, t') ∧ t'.mainBuffer.size = 2 * t.mainBuffer.size ∧
    t'.records.card = 3 := by
  have run := (crowded_runs 2045 (by decide)).uses
  have switched := hashTableInsert_switch (crowded 2047).mainBuffer (k := [2#8]) 0
    (by decide) (by decide)
  have total : (crowded 2047).mainBuffer.total = 2 := by
    have empty : Chained.total 4096 (fun _ => ([] : List (Pair Nat))) = 0 :=
      total_eq_zero fun _ _ => rfl
    have added := total_update (fun _ => ([] : List (Pair Nat))) (n := 4096) (i := 2679) (by decide)
      [⟨[1#8, 1#8], 0⟩, ⟨[125#8, 5#8], 0⟩]
    rw [empty, List.length_nil, Nat.add_zero, Nat.zero_add] at added
    exact added
  refine ⟨_, _, run, rfl, total, switched, rfl, ?_⟩
  rw [card_records_grown, BucketBuffer.total_push _ _ _ (by decide) (by decide), total]

end Ece344Lab.Webserver
