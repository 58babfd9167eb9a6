import Ece344Lab.Webserver.Eviction
import Ece344Lab.Webserver.HashTableFacts

set_option autoImplicit false

/- The cache as a list of entries, and what looking up, inserting and evicting do to the list. -/
namespace Ece344Lab.Webserver

open Linked Outcome

def blockOf (es : List Entry) (k : List Byte) : Option Nat :=
  (Keyed.lookup Entry.name es k).map Entry.block

/-- The entries of a cache in any order, with its counters. -/
structure Cache.Facts (c : Cache) (es : List Entry) : Prop where
  blocks : ∀ e ∈ es, c.blocks e.block = some ⟨e.pinned, some e.linker, e.data⟩
  distinct : (es.map Entry.block).Nodup
  old : ∀ e ∈ es, e.block < c.blockBrk
  names : (es.map Entry.name).Nodup
  table : c.fileTable.Ok (blockOf es)
  current : c.currentSize = (es.map fun e => e.data.fileSize).sum
  sizes : ∀ e ∈ es, 0 ≤ e.data.fileSize ∧ e.data.fileSize < c.totalSize / 2
  within : 0 ≤ c.totalSize → c.currentSize ≤ c.totalSize
  pinned : c.nPinned = es.countP fun e => decide (0 < e.pinned)

/-- The entries of a cache in the order of its list. -/
structure Cache.Holds (c : Cache) (es : List Entry) : Prop where
  list : c.nameList.Ok (es.map Entry.cell)
  facts : c.Facts es

section Names

variable {es es' : List Entry} {e : Entry}

theorem blockOf_eq_some (names : (es.map Entry.name).Nodup) {k : List Byte} {b : Nat} :
    blockOf es k = some b ↔ (k, b) ∈ es.map Entry.tag := by
  unfold blockOf
  rw [Option.map_eq_some_iff, List.mem_map]
  constructor
  · intro found
    obtain ⟨e, found, same⟩ := found
    refine ⟨e, Keyed.lookup_mem found, ?_⟩
    rw [← same, ← Keyed.lookup_key found]
    rfl
  · intro present
    obtain ⟨e, member, same⟩ := present
    obtain ⟨rfl, rfl⟩ := Prod.mk.inj same
    exact ⟨e, Keyed.lookup_of_mem names member, rfl⟩

theorem names_eq_tags (es : List Entry) : es.map Entry.name = (es.map Entry.tag).map Prod.fst := by
  rw [List.map_map]
  rfl

theorem names_perm (same : (es.map Entry.tag).Perm (es'.map Entry.tag))
    (names : (es.map Entry.name).Nodup) : (es'.map Entry.name).Nodup := by
  rw [names_eq_tags] at names ⊢
  exact (same.map Prod.fst).nodup_iff.mp names

/-- The order of the entries does not matter. -/
theorem blockOf_perm (same : (es.map Entry.tag).Perm (es'.map Entry.tag))
    (names : (es.map Entry.name).Nodup) : blockOf es = blockOf es' := by
  funext k
  apply Option.ext
  intro b
  rw [blockOf_eq_some names, blockOf_eq_some (names_perm same names), same.mem_iff]

theorem blockOf_cons (e : Entry) (es : List Entry) :
    blockOf (e :: es) = Function.update (blockOf es) e.name (some e.block) := by
  funext k
  unfold blockOf
  rw [Keyed.lookup_cons]
  by_cases same : e.name = k
  · rw [if_pos same, ← same, Function.update_self]
    rfl
  · rw [if_neg same, Function.update_of_ne fun equal => same equal.symm]

theorem blockOf_eq_none {k : List Byte} : blockOf es k = none ↔ k ∉ es.map Entry.name := by
  unfold blockOf
  rw [Option.map_eq_none_iff, Keyed.lookup_eq_none]

/-- The first entry taken out. -/
theorem blockOf_tail (names : ((e :: es).map Entry.name).Nodup) :
    Function.update (blockOf (e :: es)) e.name none = blockOf es := by
  have absent := blockOf_eq_none.mpr (List.nodup_cons.mp names).1
  rw [blockOf_cons, Function.update_idem, ← absent, Function.update_eq_self]

end Names

namespace Cache.Facts

variable {c : Cache} {e : Entry} {es es' : List Entry}

theorem perm (facts : c.Facts es) (same : es.Perm es') : c.Facts es' where
  blocks e member := facts.blocks e (same.mem_iff.mpr member)
  distinct := (same.map _).nodup_iff.mp facts.distinct
  old e member := facts.old e (same.mem_iff.mpr member)
  names := (same.map _).nodup_iff.mp facts.names
  table := blockOf_perm (same.map _) facts.names ▸ facts.table
  current := facts.current.trans (same.map _).sum_eq
  sizes e member := facts.sizes e (same.mem_iff.mpr member)
  within := facts.within
  pinned := by rw [facts.pinned, same.countP_eq]

theorem find (facts : c.Facts es) (k : List Byte) :
    hashTableFind c.fileTable k = blockOf es k :=
  facts.table.find k

theorem find_head (facts : c.Facts (e :: es)) :
    hashTableFind c.fileTable e.name = some e.block := by
  rw [facts.find, blockOf_cons, Function.update_self]

theorem apart (facts : c.Facts (e :: es)) {f : Entry} (member : f ∈ es) : f.block ≠ e.block := by
  intro same
  have distinct := facts.distinct
  rw [List.map_cons, List.nodup_cons] at distinct
  exact distinct.1 (same ▸ List.mem_map_of_mem member)

/-- The pins of an entry are changed, and the list is in any order. -/
theorem repin (facts : c.Facts (e :: es)) (l : LinkerList) {n p : Int}
    (count : n = ({ e with pinned := p } :: es).countP fun e => decide (0 < e.pinned)) :
    Cache.Facts { c with
      nPinned := n
      blocks := Function.update c.blocks e.block (some ⟨p, some e.linker, e.data⟩)
      nameList := l } ({ e with pinned := p } :: es) where
  blocks f member := by
    cases List.mem_cons.mp member with
    | inl same =>
        rw [same]
        exact Function.update_self _ _ _
    | inr later =>
        exact (Function.update_of_ne (facts.apart later) _ _).trans
          (facts.blocks f (List.mem_cons_of_mem _ later))
  distinct := facts.distinct
  old f member := by
    cases List.mem_cons.mp member with
    | inl same =>
        rw [same]
        exact facts.old e List.mem_cons_self
    | inr later => exact facts.old f (List.mem_cons_of_mem _ later)
  names := facts.names
  table := by
    have table := facts.table
    rw [blockOf_cons] at table ⊢
    exact table
  current := facts.current
  sizes f member := by
    cases List.mem_cons.mp member with
    | inl same =>
        rw [same]
        exact facts.sizes e List.mem_cons_self
    | inr later => exact facts.sizes f (List.mem_cons_of_mem _ later)
  within := facts.within
  pinned := count

theorem pin (facts : c.Facts (e :: es)) (l : LinkerList) : Cache.Facts { c with
    nPinned := if e.pinned = 0 then c.nPinned + 1 else c.nPinned
    blocks := Function.update c.blocks e.block (some ⟨e.pinned + 1, some e.linker, e.data⟩)
    nameList := l } ({ e with pinned := e.pinned + 1 } :: es) := by
  apply facts.repin l
  have pinned := facts.pinned
  simp only [List.countP_cons, decide_eq_true_eq] at pinned ⊢
  split at pinned <;> split <;> split <;> push_cast at pinned ⊢ <;> omega

theorem unpin (facts : c.Facts (e :: es)) : Cache.Facts { c with
    blocks := Function.update c.blocks e.block (some ⟨e.pinned - 1, some e.linker, e.data⟩)
    nPinned := if e.pinned - 1 = 0 then c.nPinned - 1 else c.nPinned }
      ({ e with pinned := e.pinned - 1 } :: es) := by
  apply facts.repin c.nameList
  have pinned := facts.pinned
  simp only [List.countP_cons, decide_eq_true_eq] at pinned ⊢
  split at pinned <;> split <;> split <;> push_cast at pinned ⊢ <;> omega

theorem drop (facts : c.Facts (e :: es)) (l : LinkerList) (free : ¬ 0 < e.pinned) :
    Cache.Facts (deleteBlock { c with
      currentSize := c.currentSize - e.data.fileSize, nameList := l } e.name) es ∧
    c.fileTable.Lessened (hashTableDelete c.fileTable e.name).2 := by
  obtain ⟨t, run, done, less⟩ := facts.table.delete e.name
  have current := facts.current
  have within := facts.within
  have sizes := facts.sizes e List.mem_cons_self
  have pinned := facts.pinned
  rw [List.map_cons, List.sum_cons] at current
  rw [List.countP_cons, if_neg (by simpa using free), Nat.add_zero] at pinned
  rw [blockOf_tail facts.names] at done
  constructor
  · unfold deleteBlock
    dsimp only
    rw [facts.find_head, run]
    refine ⟨fun f member => ?_, (List.nodup_cons.mp facts.distinct).2,
      fun f member => facts.old f (List.mem_cons_of_mem _ member),
      (List.nodup_cons.mp facts.names).2, done, ?_,
      fun f member => facts.sizes f (List.mem_cons_of_mem _ member), ?_, pinned⟩
    · exact (Function.update_of_ne (facts.apart member) _ _).trans
        (facts.blocks f (List.mem_cons_of_mem _ member))
    · change c.currentSize - e.data.fileSize = _
      omega
    · intro capacity
      change c.currentSize - e.data.fileSize ≤ c.totalSize
      have before := within capacity
      omega
  · rw [run]
    exact less

theorem add (facts : c.Facts es) {data : FileData} (new : data.fileName ∉ es.map Entry.name)
    (steady : c.fileTable.Steady) (small : 0 ≤ data.fileSize ∧ data.fileSize < c.totalSize / 2)
    (room : c.currentSize + data.fileSize ≤ c.totalSize) (l : LinkerList) (linker : Nat) :
    ∃ t, hashTableInsert c.fileTable data.fileName c.blockBrk = .ok (1, t) ∧
      Cache.Facts { c with
        fileTable := t
        nameList := l
        currentSize := c.currentSize + data.fileSize
        blocks := Function.update c.blocks c.blockBrk (some ⟨0, some linker, data⟩)
        blockBrk := c.blockBrk + 1 } (⟨linker, c.blockBrk, 0, data⟩ :: es) := by
  obtain ⟨t, run, done⟩ := facts.table.insert (blockOf_eq_none.mpr new) steady c.blockBrk
  have fresh : c.blockBrk ∉ es.map Entry.block := by
    intro member
    obtain ⟨f, member, same⟩ := List.mem_map.mp member
    have old := facts.old f member
    omega
  refine ⟨t, run, fun f member => ?_, List.nodup_cons.mpr ⟨fresh, facts.distinct⟩,
    fun f member => ?_, List.nodup_cons.mpr ⟨new, facts.names⟩, ?_, ?_, fun f member => ?_,
    fun _ => room, ?_⟩
  · cases List.mem_cons.mp member with
    | inl same =>
        rw [same]
        exact Function.update_self _ _ _
    | inr later =>
        have other : f.block ≠ c.blockBrk := fun same => fresh (same ▸ List.mem_map_of_mem later)
        exact (Function.update_of_ne other _ _).trans (facts.blocks f later)
  · cases List.mem_cons.mp member with
    | inl same =>
        rw [same]
        exact Nat.lt_succ_self _
    | inr later => exact Nat.lt_succ_of_lt (facts.old f later)
  · rw [blockOf_cons]
    exact done
  · rw [List.map_cons, List.sum_cons, ← facts.current, Int.add_comm]
  · cases List.mem_cons.mp member with
    | inl same =>
        rw [same]
        exact small
    | inr later => exact facts.sizes f later
  · rw [List.countP_cons, if_neg (by simp)]
    exact facts.pinned

end Cache.Facts

namespace HashTable.Lessened

variable {t t' t'' : HashTable Nat}

theorem refl (t : HashTable Nat) : t.Lessened t :=
  ⟨rfl, rfl, fun alone => alone,
    fun sub same => ⟨sub, same, rfl, rfl, fun _ => List.Sublist.refl _⟩⟩

theorem trans (first : t.Lessened t') (second : t'.Lessened t'') : t.Lessened t'' where
  size := second.size.trans first.size
  number := second.number.trans first.number
  alone none := second.alone (first.alone none)
  sub sub'' same := by
    obtain ⟨sub', same', thin'⟩ := second.sub sub'' same
    obtain ⟨sub, same'', thin⟩ := first.sub sub' same'
    exact ⟨sub, same'', thin'.size.trans thin.size, thin'.cursor.trans thin.cursor,
      fun i => (thin'.chains i).trans (thin.chains i)⟩

end HashTable.Lessened

/-- The blocks of `gone` have been evicted, the others moved. -/
structure Evicted (c c' : Cache) (es kept gone : List Entry) : Prop where
  holds : c'.Holds kept
  perm : es.Perm (kept ++ gone)
  free : ∀ e ∈ gone, ¬ 0 < e.pinned
  table : c.fileTable.Lessened c'.fileTable
  total : c'.totalSize = c.totalSize

namespace Cache.Holds

variable {c : Cache} {e z : Entry} {es xs ys : List Entry}

theorem listed (holds : c.Holds es) : c.Listed es where
  list := holds.list.spells
  blocks := holds.facts.blocks
  names := holds.facts.names
  found e member b found := by
    have table :=
      (blockOf_eq_some holds.facts.names).mpr (List.mem_map_of_mem (f := Entry.tag) member)
    rw [holds.facts.find] at found
    exact Option.some.inj (found.symm.trans table)
  current := holds.facts.current
  nonneg e member := (holds.facts.sizes e member).1
  pinned := holds.facts.pinned

theorem sum_perm {kept gone : List Entry} (perm : es.Perm (kept ++ gone)) :
    sizes es = sizes kept + sizes gone := by
  unfold sizes
  rw [(perm.map _).sum_eq, List.map_append, List.sum_append]

/-- The names of evicted blocks are taken out of the table one after the other. -/
theorem table_foldl {t : HashTable Nat} {kept : List Entry} (gone : List Entry)
    (names : ((gone ++ kept).map Entry.name).Nodup) (ok : t.Ok (blockOf (gone ++ kept))) :
    (gone.foldl (fun t e => (hashTableDelete t e.name).2) t).Ok (blockOf kept) ∧
      t.Lessened (gone.foldl (fun t e => (hashTableDelete t e.name).2) t) := by
  induction gone generalizing t with
  | nil => exact ⟨ok, .refl t⟩
  | cons e gone ih =>
      obtain ⟨t', run, done, less⟩ := ok.delete e.name
      rw [List.cons_append] at names done
      rw [blockOf_tail names] at done
      rw [List.foldl_cons, run]
      obtain ⟨ok', less'⟩ := ih (List.nodup_cons.mp names).2 done
      exact ⟨ok', less.trans less'⟩

/-- What is left in the cache when blocks have been evicted. -/
theorem evicted (holds : c.Holds es) {c' : Cache} {kept gone : List Entry}
    (evicts : Evicts c c' kept gone) (perm : es.Perm (kept ++ gone))
    (free : ∀ e ∈ gone, ¬ 0 < e.pinned) : Evicted c c' es kept gone := by
  have old : ∀ {e}, e ∈ kept → e ∈ es :=
    fun member => perm.mem_iff.mpr (List.mem_append_left _ member)
  have order := perm.trans List.perm_append_comm
  have facts := holds.facts.perm order
  obtain ⟨table, less⟩ := table_foldl gone facts.names facts.table
  rw [← evicts.table] at table less
  refine ⟨⟨⟨evicts.listed.list.list, evicts.listed.list.size, fun a member => ?_⟩,
    evicts.listed.blocks, ?_, fun e member => ?_, ?_, table, evicts.listed.current,
      fun e member => ?_, fun capacity => ?_, evicts.listed.pinned⟩, perm, free, less, evicts.total⟩
  · rw [evicts.brk]
    obtain ⟨cell, cells, rfl⟩ := List.mem_map.mp member
    obtain ⟨e, entry, rfl⟩ := List.mem_map.mp cells
    exact holds.list.below _ (List.mem_map_of_mem (List.mem_map_of_mem (old entry)))
  · exact (List.nodup_append.mp (List.map_append ▸ facts.distinct)).2.1
  · exact evicts.blockBrk ▸ holds.facts.old e (old member)
  · exact (List.nodup_append.mp (List.map_append ▸ facts.names)).2.1
  · exact evicts.total ▸ holds.facts.sizes e (old member)
  · have before := holds.facts.within (evicts.total ▸ capacity)
    have current := holds.listed.current
    have current' := evicts.listed.current
    have sums := sum_perm perm
    have nonneg : 0 ≤ sizes gone := Takes.sizes_nonneg fun e member =>
      (holds.facts.sizes e (perm.mem_iff.mpr (List.mem_append_right _ member))).1
    have total := evicts.total
    omega

variable {data : FileData}

/-- A file that is too large, or not in the cache, is not found. -/
theorem lookup_miss (holds : c.Holds es)
    (miss : c.totalSize / 2 ≤ data.fileSize ∨ data.fileName ∉ es.map Entry.name) :
    cacheLookup c data = .ok (0, data, c) := by
  unfold cacheLookup
  by_cases large : c.totalSize / 2 ≤ data.fileSize
  · rw [if_pos large]
  · have absent : hashTableFind c.fileTable data.fileName = none := by
      rw [holds.facts.find, blockOf_eq_none]
      exact miss.resolve_left large
    simp only [if_neg large, absent]

theorem find_middle (holds : c.Holds (xs ++ e :: ys)) (same : data.fileName = e.name) :
    hashTableFind c.fileTable data.fileName = some e.block ∧
      c.blocks e.block = some ⟨e.pinned, some e.linker, e.data⟩ := by
  have facts : c.Facts (e :: (xs ++ ys)) := holds.facts.perm List.perm_middle
  rw [same]
  exact ⟨facts.find_head, facts.blocks e List.mem_cons_self⟩

/-- A file that is found is pinned and moved to the front. -/
theorem lookup_hit (holds : c.Holds (xs ++ e :: ys)) (small : ¬ c.totalSize / 2 ≤ data.fileSize)
    (same : data.fileName = e.name) :
    ∃ c', cacheLookup c data =
        .ok (1, { data with fileBuf := e.data.fileBuf, fileSize := e.data.fileSize }, c') ∧
      c'.Holds ({ e with pinned := e.pinned + 1 } :: (xs ++ ys)) ∧
      c'.fileTable = c.fileTable ∧ c'.totalSize = c.totalSize := by
  obtain ⟨found, block⟩ := holds.find_middle same
  have facts : c.Facts (e :: (xs ++ ys)) := holds.facts.perm List.perm_middle
  have list := holds.list
  rw [List.map_append, List.map_cons] at list
  obtain ⟨l, ret, run, ok, _⟩ := LinkerList.Ok.pmovetop (c := e.cell) list
  have moved : listPmovetop c.nameList (some e.linker) = .ok (ret, l) := run
  unfold cacheLookup
  simp only [if_neg small, found, loadBlock, block, ok_bind, moved]
  refine ⟨_, rfl, ⟨?_, facts.pin l⟩, rfl, rfl⟩
  rw [List.map_cons, List.map_append]
  exact ok

/-- A file that is present loses a pin. -/
theorem insert_present (holds : c.Holds (xs ++ e :: ys))
    (small : ¬ c.totalSize / 2 ≤ data.fileSize) (same : data.fileName = e.name) :
    ∃ c', cacheInsert c data = .ok (1, c') ∧
      c'.Holds (xs ++ { e with pinned := e.pinned - 1 } :: ys) ∧
      c'.fileTable = c.fileTable ∧ c'.totalSize = c.totalSize := by
  obtain ⟨found, block⟩ := holds.find_middle same
  have facts : c.Facts (e :: (xs ++ ys)) := holds.facts.perm List.perm_middle
  unfold cacheInsert
  simp only [if_neg small, found, loadBlock, block, ok_bind]
  refine ⟨_, rfl, ⟨?_, facts.unpin.perm List.perm_middle.symm⟩, rfl, rfl⟩
  have list := holds.list
  rw [List.map_append, List.map_cons] at list ⊢
  exact list

theorem addBlock (holds : c.Holds es) (absent : data.fileName ∉ es.map Entry.name)
    (steady : c.fileTable.Steady) (small : 0 ≤ data.fileSize ∧ data.fileSize < c.totalSize / 2)
    (room : c.currentSize + data.fileSize ≤ c.totalSize) :
    ∃ c' linker block, addBlock c data = .ok (1, c') ∧
      c'.Holds (⟨linker, block, 0, data⟩ :: es) ∧ c'.totalSize = c.totalSize := by
  obtain ⟨l, run, ok, start⟩ := holds.list.put c.blockBrk
  obtain ⟨t, run', facts⟩ := holds.facts.add absent steady small room l c.nameList.brk
  unfold Webserver.addBlock
  simp only [run', run, ok_bind, start]
  exact ⟨_, c.nameList.brk, c.blockBrk, rfl, ⟨ok, facts⟩, rfl⟩

/-- What `Cache_insert` does with a file that is not present. -/
structure Inserted (c c' : Cache) (es es' kept gone : List Entry) (data : FileData) : Prop where
  holds : c'.Holds es'
  perm : es.Perm (kept ++ gone)
  free : ∀ e ∈ gone, ¬ 0 < e.pinned
  total : c'.totalSize = c.totalSize
  new : es' = kept ∨ ∃ linker block, es' = ⟨linker, block, 0, data⟩ :: kept

theorem insert_absent (holds : c.Holds es) (settled : c.fileTable.Settled)
    (nonneg : 0 ≤ data.fileSize) (small : ¬ c.totalSize / 2 ≤ data.fileSize)
    (absent : data.fileName ∉ es.map Entry.name) :
    ∃ ret c' es' kept gone, cacheInsert c data = .ok (ret, c') ∧
      Inserted c c' es es' kept gone data := by
  have found : hashTableFind c.fileTable data.fileName = none := by
    rw [holds.facts.find, blockOf_eq_none]
    exact absent
  have within := holds.facts.within (by omega)
  have current := holds.listed.current
  unfold cacheInsert
  simp only [if_neg small, found]
  by_cases crowded : c.totalSize - c.currentSize < data.fileSize
  · obtain ⟨ret, c', kept, gone, run, evicts, perm, free, takes⟩ :=
      holds.listed.evict (show 0 < data.fileSize by omega) (by omega) (by omega)
    have evicted := holds.evicted evicts perm free
    have sums := sum_perm perm
    have current' := evicts.listed.current
    rw [if_pos crowded, run, ok_bind]
    dsimp only
    cases takes.enough_or_not with
    | inl freed =>
        have absent' : data.fileName ∉ kept.map Entry.name := by
          intro member
          obtain ⟨e, member, same⟩ := List.mem_map.mp member
          have old := evicted.perm.mem_iff.mpr (List.mem_append_left _ member)
          exact absent (same ▸ List.mem_map_of_mem old)
        have steady := (settled.lessened evicted.table).steady
        have total := evicted.total
        obtain ⟨c'', linker, block, run', done, total'⟩ := evicted.holds.addBlock absent' steady
          ⟨nonneg, by omega⟩ (by omega)
        rw [freed.1, if_neg (show ¬ (1 : Int) = 0 by decide), run']
        exact ⟨1, c'', _, kept, gone, rfl, done, evicted.perm, evicted.free, total'.trans total,
          Or.inr ⟨linker, block, rfl⟩⟩
    | inr stuck =>
        rw [if_pos stuck]
        exact ⟨0, c', kept, kept, gone, rfl, evicted.holds, evicted.perm, evicted.free,
          evicted.total, Or.inl rfl⟩
  · rw [if_neg crowded]
    obtain ⟨c', linker, block, run, done, total⟩ := holds.addBlock absent settled.steady
      ⟨nonneg, by omega⟩ (by omega)
    rw [run]
    exact ⟨1, c', _, es, [], rfl, done, by rw [List.append_nil], nofun, total,
      Or.inr ⟨linker, block, rfl⟩⟩

theorem insert_large (large : c.totalSize / 2 ≤ data.fileSize) :
    cacheInsert c data = .ok (0, c) :=
  if_pos large

end Cache.Holds

end Ece344Lab.Webserver
