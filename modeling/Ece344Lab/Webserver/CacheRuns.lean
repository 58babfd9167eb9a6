import Ece344Lab.Webserver.CacheFacts

set_option autoImplicit false

/- The accounts of the cache over any sequence of lookups and insertions, as long as the hash table
has not begun a rehash. -/
namespace Ece344Lab.Webserver

open Linked Outcome

/-- The blocks of a cache, once in its list and once in its table, with the counters about them. -/
structure Cache.Accounted (c : Cache) (es : List Entry) : Prop where
  forward : Forward c.nameList.linkers c.nameList.startLinker (es.map Entry.block)
  backward : Backward c.nameList.linkers c.nameList.endLinker (es.map Entry.block).reverse
  length : c.nameList.size = es.length
  blocks : ∀ e ∈ es, c.blocks e.block = some ⟨e.pinned, some e.linker, e.data⟩
  linkers : ∀ e ∈ es, ∃ next prior, c.nameList.linkers e.linker = some ⟨e.block, next, prior⟩
  once : (es.map Entry.block).Nodup
  names : (es.map Entry.name).Nodup
  table : ∀ name b, (∃ i, ⟨name, b⟩ ∈ c.fileTable.mainBuffer.list i) ↔ ∃ e ∈ es, e.name = name ∧
    e.block = b
  tableOnce : ∀ i, ((c.fileTable.mainBuffer.list i).map Pair.first).Nodup
  tableApart : ∀ i j, ∀ p ∈ c.fileTable.mainBuffer.list i, ∀ q ∈ c.fileTable.mainBuffer.list j,
    p.first = q.first → i = j
  current : c.currentSize = (es.map fun e => e.data.fileSize).sum
  nonneg : 0 ≤ c.currentSize
  within : c.currentSize ≤ c.totalSize
  pinned : c.nPinned = es.countP fun e => decide (0 < e.pinned)

theorem Cache.Holds.accounted {c : Cache} {es : List Entry} (holds : c.Holds es)
    (capacity : 0 ≤ c.totalSize) (young : c.fileTable.subBuffer = none) : c.Accounted es where
  forward := by
    have forward := holds.list.list.forward
    rw [List.map_map] at forward
    exact forward
  backward := by
    have backward := holds.list.list.backward
    rw [List.map_map] at backward
    exact backward
  length := by
    have size := holds.list.size
    rw [List.length_map] at size
    exact size
  blocks := holds.facts.blocks
  linkers e member := by
    obtain ⟨xs, ys, rfl⟩ := List.append_of_mem member
    have list := holds.list.list
    rw [List.map_append, List.map_cons] at list
    exact ⟨_, _, IsList.node (a := e.linker) (v := e.block) list⟩
  once := holds.facts.distinct
  names := holds.facts.names
  table name b := by
    have placed := holds.facts.table.placed
    have finds := holds.facts.table.finds name
    unfold HashTable.pair at finds
    rw [young, Option.bind_none, Option.or_none] at finds
    have known : blockOf es name = some b ↔ ∃ e ∈ es, e.name = name ∧ e.block = b := by
      rw [blockOf_eq_some holds.facts.names, List.mem_map]
      unfold Entry.tag
      simp only [Prod.mk.injEq]
    rw [← known, ← finds]
    constructor
    · intro present
      obtain ⟨i, member⟩ := present
      have found : c.fileTable.mainBuffer.pair name = some ⟨name, b⟩ := placed.find_of_mem member
      rw [found]
      rfl
    · intro found
      obtain ⟨p, pair, rfl⟩ := Option.map_eq_some_iff.mp found
      obtain rfl : p.first = name := Chained.find_key pair
      exact ⟨_, Chained.find_mem pair⟩
  tableOnce := holds.facts.table.placed.distinct
  tableApart i j p here q there same := by
    rw [← holds.facts.table.placed.home i p here, ← holds.facts.table.placed.home j q there, same]
  current := holds.facts.current
  nonneg := by
    rw [holds.facts.current]
    apply List.sum_nonneg
    intro n member
    obtain ⟨e, there, rfl⟩ := List.mem_map.mp member
    exact (holds.facts.sizes e there).1
  within := holds.facts.within capacity
  pinned := holds.facts.pinned

theorem cacheInit_holds (n : Int) : (cacheInit n).Holds [] where
  list := LinkerList.Ok.new
  facts := ⟨nofun, List.nodup_nil, nofun, List.nodup_nil, hashTableNew_ok, rfl, nofun, id, rfl⟩

/-- The caches that calls of any threads lead to, one call at a time, while the hash table has no
sub buffer. -/
inductive CacheRun (n : Int) : Cache → Prop
  | init : CacheRun n (cacheInit n)
  | lookup {c c' data data' ret} (before : CacheRun n c)
      (run : cacheLookup c data = .ok (ret, data', c')) : CacheRun n c'
  | insert {c c' data ret} (before : CacheRun n c) (nonneg : 0 ≤ data.fileSize)
      (run : cacheInsert c data = .ok (ret, c')) (young : c'.fileTable.subBuffer = none) :
      CacheRun n c'

section Calls

variable {c : Cache} {es : List Entry}

theorem Cache.Holds.lookup (holds : c.Holds es) (data : FileData) :
    ∃ ret data' c' es', cacheLookup c data = .ok (ret, data', c') ∧ c'.Holds es' ∧
      c'.fileTable = c.fileTable ∧ c'.totalSize = c.totalSize ∧
      (∀ e' ∈ es', ∃ e ∈ es, e'.data = e.data) ∧
      (ret = 0 ∧ data' = data ∨ ret ≠ 0 ∧ ∃ e ∈ es, e.name = data.fileName ∧
        hashTableFind c.fileTable data.fileName = some e.block ∧
        data' = { data with fileBuf := e.data.fileBuf, fileSize := e.data.fileSize }) := by
  by_cases miss : c.totalSize / 2 ≤ data.fileSize ∨ data.fileName ∉ es.map Entry.name
  · exact ⟨0, data, c, es, holds.lookup_miss miss, holds, rfl, rfl,
      fun e member => ⟨e, member, rfl⟩, Or.inl ⟨rfl, rfl⟩⟩
  · rw [not_or, not_not] at miss
    obtain ⟨e, member, same⟩ := List.mem_map.mp miss.2
    obtain ⟨xs, ys, rfl⟩ := List.append_of_mem member
    obtain ⟨c', run, holds', table, total⟩ := holds.lookup_hit miss.1 same.symm
    refine ⟨1, _, c', _, run, holds', table, total, ?_, Or.inr ⟨by decide, e, member, same,
      (holds.find_middle same.symm).1, rfl⟩⟩
    intro f there
    cases List.mem_cons.mp there with
    | inl here => exact ⟨e, member, by rw [here]⟩
    | inr other =>
        exact ⟨f, List.perm_middle.mem_iff.mpr (List.mem_cons_of_mem _ other), rfl⟩

theorem Cache.Holds.insert (holds : c.Holds es) (young : c.fileTable.subBuffer = none)
    {data : FileData} (nonneg : 0 ≤ data.fileSize) :
    ∃ ret c' es', cacheInsert c data = .ok (ret, c') ∧ c'.Holds es' ∧
      c'.totalSize = c.totalSize ∧ ∀ e' ∈ es', e'.data = data ∨ ∃ e ∈ es, e'.data = e.data := by
  by_cases large : c.totalSize / 2 ≤ data.fileSize
  · exact ⟨0, c, es, Cache.Holds.insert_large large, holds, rfl,
      fun e member => Or.inr ⟨e, member, rfl⟩⟩
  · by_cases present : data.fileName ∈ es.map Entry.name
    · obtain ⟨e, member, same⟩ := List.mem_map.mp present
      obtain ⟨xs, ys, rfl⟩ := List.append_of_mem member
      obtain ⟨c', run, holds', _, total⟩ := holds.insert_present large same.symm
      refine ⟨1, c', _, run, holds', total, fun f there => Or.inr ?_⟩
      cases List.mem_cons.mp (List.perm_middle.mem_iff.mp there) with
      | inl here => exact ⟨e, member, by rw [here]⟩
      | inr other =>
          exact ⟨f, List.perm_middle.mem_iff.mpr (List.mem_cons_of_mem _ other), rfl⟩
    · obtain ⟨ret, c', es', kept, gone, run, inserted⟩ :=
        holds.insert_absent (holds.facts.table.settled young) nonneg large present
      have old : ∀ f ∈ kept, ∃ e ∈ es, f.data = e.data :=
        fun f there => ⟨f, inserted.perm.mem_iff.mpr (List.mem_append_left _ there), rfl⟩
      refine ⟨ret, c', es', run, inserted.holds, inserted.total, fun f there => ?_⟩
      cases inserted.new with
      | inl same => exact Or.inr (old f (same ▸ there))
      | inr new =>
          obtain ⟨linker, block, rfl⟩ := new
          cases List.mem_cons.mp there with
          | inl here => exact Or.inl (by rw [here])
          | inr later => exact Or.inr (old f later)

end Calls

theorem CacheRun.holds {n : Int} {c : Cache} (run : CacheRun n c) :
    c.fileTable.subBuffer = none ∧ c.totalSize = n ∧ ∃ es, c.Holds es := by
  induction run with
  | init => exact ⟨rfl, rfl, [], cacheInit_holds n⟩
  | lookup before run ih =>
      obtain ⟨young, capacity, es, holds⟩ := ih
      obtain ⟨ret, data', c', es', run', holds', table, total, _⟩ := holds.lookup _
      rw [run] at run'
      obtain ⟨rfl, rfl, rfl⟩ := Prod.mk.inj (Except.ok.inj run')
      exact ⟨table ▸ young, total.trans capacity, es', holds'⟩
  | insert before nonneg run young' ih =>
      obtain ⟨young, capacity, es, holds⟩ := ih
      obtain ⟨ret, c', es', run', holds', total, _⟩ := holds.insert young nonneg
      rw [run] at run'
      obtain ⟨rfl, rfl⟩ := Prod.mk.inj (Except.ok.inj run')
      exact ⟨young', total.trans capacity, es', holds'⟩

/-- The accounts of the cache are right in every run, and the next call returns. -/
theorem cache_run_accounted {n : Int} (capacity : 0 ≤ n) {c : Cache} (run : CacheRun n c) :
    (∃ es, c.Accounted es) ∧ (∀ data, ∃ r, cacheLookup c data = .ok r) ∧
      ∀ data, 0 ≤ data.fileSize → ∃ r, cacheInsert c data = .ok r := by
  obtain ⟨young, total, es, holds⟩ := run.holds
  refine ⟨⟨es, holds.accounted (total ▸ capacity) young⟩, ?_, ?_⟩
  · intro data
    obtain ⟨ret, data', c', es', run, _⟩ := holds.lookup data
    exact ⟨_, run⟩
  · intro data nonneg
    obtain ⟨ret, c', es', run, _⟩ := holds.insert young nonneg
    exact ⟨_, run⟩

/-- Ten bytes hold the file a, which is pinned, and the file c, for which b had to go. -/
theorem cache_run_accounted_three : ∃ c, (CacheRun 10 c ∧ c.currentSize = 8 ∧
    c.blocks 0 = some ⟨1, some 0, ⟨[97#8], [1#8], 4⟩⟩ ∧ c.blocks 1 = none ∧
      hashTableFind c.fileTable [99#8] = some 2) ∧ (∃ es, c.Accounted es) ∧
    (∀ data, ∃ r, cacheLookup c data = .ok r) ∧
      ∀ data, 0 ≤ data.fileSize → ∃ r, cacheInsert c data = .ok r := by
  have ends : Returns (cacheInsert (cacheInit 10) ⟨[97#8], [1#8], 4⟩) fun r =>
      r.2.fileTable.subBuffer.isNone ∧
      Returns (cacheLookup r.2 ⟨[97#8], [], 0⟩) fun r =>
      Returns (cacheInsert r.2.2 ⟨[98#8], [2#8], 4⟩) fun r => r.2.fileTable.subBuffer.isNone ∧
      Returns (cacheInsert r.2 ⟨[99#8], [3#8], 4⟩) fun r => r.2.fileTable.subBuffer.isNone ∧
        r.2.currentSize = 8 ∧ r.2.blocks 0 = some ⟨1, some 0, ⟨[97#8], [1#8], 4⟩⟩ ∧
        r.2.blocks 1 = none ∧ hashTableFind r.2.fileTable [99#8] = some 2 := by
    decide +kernel
  obtain ⟨_, ran₁, young₁, _, ran₂, _, ran₃, young₃, _, ran₄, young₄, facts⟩ := ends
  have nonneg : (0 : Int) ≤ 4 := by decide
  have run := (((CacheRun.init (n := 10)).insert nonneg ran₁
    (Option.isNone_iff_eq_none.mp young₁)).lookup ran₂).insert nonneg ran₃
      (Option.isNone_iff_eq_none.mp young₃)
  have run := run.insert nonneg ran₄ (Option.isNone_iff_eq_none.mp young₄)
  exact ⟨_, ⟨run, facts⟩, cache_run_accounted (by decide) run⟩

end Ece344Lab.Webserver
