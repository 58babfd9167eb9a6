import Mathlib.Algebra.BigOperators.Group.List.Basic
import Mathlib.Algebra.Order.Ring.Int
import Mathlib.Data.List.Perm.Basic
import Ece344Lab.Webserver.CacheList

set_option autoImplicit false

/- What `Cache_evict` evicts. -/
namespace Ece344Lab.Webserver

open Linked Outcome

/-- A block of the cache with its address and that of its linker. -/
structure Entry where
  linker : Nat
  block : Nat
  pinned : Int
  data : FileData

namespace Entry

def cell (e : Entry) : Nat × Nat := (e.linker, e.block)

def name (e : Entry) : List Byte := e.data.fileName

/-- What the file table knows of an entry. -/
def tag (e : Entry) : List Byte × Nat := (e.name, e.block)

end Entry

/-- Whether a block may be evicted. -/
def Entry.free (e : Entry) : Bool := decide (e.pinned ≤ 0)

def sizes (es : List Entry) : Int := (es.map fun e => e.data.fileSize).sum

/-- The blocks of the list of a cache have different names, under which the table finds no other
blocks, and the counters are right for them. -/
structure Cache.Listed (c : Cache) (es : List Entry) : Prop where
  list : c.nameList.Spells (es.map Entry.cell)
  blocks : ∀ e ∈ es, c.blocks e.block = some ⟨e.pinned, some e.linker, e.data⟩
  names : (es.map Entry.name).Nodup
  found : ∀ e ∈ es, ∀ b, hashTableFind c.fileTable e.name = some b → b = e.block
  current : c.currentSize = sizes es
  nonneg : ∀ e ∈ es, 0 ≤ e.data.fileSize
  pinned : c.nPinned = es.countP fun e => decide (0 < e.pinned)

/-- A pair is in a chain of a table, perhaps not in the one where it would be found. -/
def HashTable.Has {β : Type} (t : HashTable β) (k : List Byte) (b : β) : Prop :=
  (∃ i, ⟨k, b⟩ ∈ t.mainBuffer.list i) ∨ ∃ sub, t.subBuffer = some sub ∧ ∃ i, ⟨k, b⟩ ∈ sub.list i

/-- The list and the table of a cache hold the same blocks, each under a name of its own, and the
counters are right for them. -/
structure Cache.Balanced (c : Cache) (es : List Entry) : Prop where
  list : c.nameList.Spells (es.map Entry.cell)
  blocks : ∀ e ∈ es, c.blocks e.block = some ⟨e.pinned, some e.linker, e.data⟩
  names : (es.map Entry.name).Nodup
  same : ∀ k b, c.fileTable.Has k b ↔ (k, b) ∈ es.map Entry.tag
  current : c.currentSize = sizes es
  nonneg : ∀ e ∈ es, 0 ≤ e.data.fileSize
  pinned : c.nPinned = es.countP fun e => decide (0 < e.pinned)

/-- The first ones of a queue that together have a size, or all of them when they have less. -/
structure Takes (queue : List Entry) (ammount : Int) (ret : Int) (gone : List Entry) : Prop where
  returned : ret = if ammount ≤ sizes queue then 1 else 0
  front : gone <+: queue
  enough : ret = 1 → ammount ≤ sizes gone
  least : ret = 1 → ∀ front, front <+: queue → ammount ≤ sizes front → gone.length ≤ front.length
  rest : ret = 0 → gone = queue

namespace Takes

variable {queue gone : List Entry} {ammount ret : Int} {e : Entry}

theorem sizes_cons (e : Entry) (es : List Entry) :
    sizes (e :: es) = e.data.fileSize + sizes es := rfl

theorem sizes_nonneg {es : List Entry} (nonneg : ∀ e ∈ es, 0 ≤ e.data.fileSize) : 0 ≤ sizes es := by
  induction es with
  | nil => exact Int.le_refl 0
  | cons e es ih =>
      have first := nonneg e List.mem_cons_self
      have later := ih fun f member => nonneg f (List.mem_cons_of_mem _ member)
      rw [sizes_cons]
      omega

theorem nothing (nonneg : ∀ e ∈ queue, 0 ≤ e.data.fileSize) (done : ammount ≤ 0) :
    Takes queue ammount 1 [] where
  returned := (if_pos (done.trans (sizes_nonneg nonneg))).symm
  front := List.nil_prefix
  enough _ := done
  least _ _ _ _ := Nat.zero_le _
  rest absurd := by cases absurd

theorem empty (more : 0 < ammount) : Takes [] ammount 0 [] where
  returned := (if_neg (Int.not_le.mpr more)).symm
  front := List.nil_prefix
  enough absurd := by cases absurd
  least absurd := by cases absurd
  rest _ := rfl

theorem cons (takes : Takes queue (ammount - e.data.fileSize) ret gone) (more : 0 < ammount) :
    Takes (e :: queue) ammount ret (e :: gone) where
  returned := by
    have same : ammount ≤ sizes (e :: queue) ↔ ammount - e.data.fileSize ≤ sizes queue := by
      rw [sizes_cons]
      omega
    rw [takes.returned]
    simp only [same]
  front := List.cons_prefix_cons.mpr ⟨rfl, takes.front⟩
  enough done := by
    have enough := takes.enough done
    rw [sizes_cons]
    omega
  least done front first enough := by
    cases front with
    | nil => exact absurd (Int.lt_of_lt_of_le more enough) (Int.lt_irrefl 0)
    | cons f front =>
        obtain ⟨rfl, later⟩ := List.cons_prefix_cons.mp first
        rw [sizes_cons] at enough
        have least := takes.least done front later (by omega)
        rw [List.length_cons, List.length_cons]
        omega
  rest stuck := by rw [takes.rest stuck]

theorem enough_or_not (takes : Takes queue ammount ret gone) :
    ret = 1 ∧ ammount ≤ sizes gone ∨ ret = 0 := by
  have returned := takes.returned
  by_cases some : ammount ≤ sizes queue
  · rw [if_pos some] at returned
    exact Or.inl ⟨returned, takes.enough returned⟩
  · rw [if_neg some] at returned
    exact Or.inr returned

end Takes

/-- At most `k` entries at the end are pinned, or all are. -/
def Trailing (es : List Entry) (k : Nat) : Prop :=
  (∀ e ∈ es, 0 < e.pinned) ∨
    ∃ xs e ys, es = xs ++ e :: ys ∧ ¬ 0 < e.pinned ∧ ys.length ≤ k

theorem trailing_length (es : List Entry) : Trailing es es.length := by
  by_cases all : ∀ e ∈ es, 0 < e.pinned
  · exact Or.inl all
  · simp only [not_forall] at all
    obtain ⟨e, member, free⟩ := all
    obtain ⟨xs, ys, rfl⟩ := List.append_of_mem member
    refine Or.inr ⟨xs, e, ys, rfl, free, ?_⟩
    rw [List.length_append, List.length_cons]
    omega

/-- The last entry, when it is pinned, is one of those at the end. -/
theorem Trailing.rotate {es : List Entry} {z : Entry} {k : Nat} (trailing : Trailing (es ++ [z]) k)
    (pinned : 0 < z.pinned) (some : ∃ e ∈ es ++ [z], ¬ 0 < e.pinned) :
    0 < k ∧ Trailing (z :: es) (k - 1) := by
  cases trailing with
  | inl all =>
      obtain ⟨e, member, free⟩ := some
      exact absurd (all e member) free
  | inr last =>
      obtain ⟨xs, e, ys, shape, free, few⟩ := last
      cases ys using List.reverseRecOn with
      | nil =>
          have same := (List.append_inj' shape rfl).2
          exact absurd (List.head_eq_of_cons_eq same ▸ pinned) free
      | append_singleton ys y =>
          rw [← List.cons_append, ← List.append_assoc] at shape
          obtain ⟨rfl, _⟩ := List.append_inj' shape rfl
          rw [List.length_append, List.length_singleton] at few
          exact ⟨by omega, Or.inr ⟨z :: xs, e, ys, rfl, free, by omega⟩⟩


section Delete

variable {β : Type}

/-- A deletion leaves the buckets of other keys as they were. -/
theorem bucketBufferFind_delete (buffer : BucketBuffer β) {k k' : List Byte} (apart : k' ≠ k) :
    bucketBufferFind (bucketBufferDelete buffer k).2 k' = bucketBufferFind buffer k' := by
  unfold bucketBufferDelete
  dsimp only
  cases Keyed.lookup Pair.first (buffer.list (strHash k buffer.size)) k with
  | none => rfl
  | some p =>
      unfold bucketBufferFind
      dsimp only
      by_cases same : strHash k' buffer.size = strHash k buffer.size
      · rw [same, Function.update_self, Keyed.lookup_remove_of_ne _ _ _ apart]
      · rw [Function.update_of_ne same]

theorem hashTableFind_delete (t : HashTable β) {k k' : List Byte} (apart : k' ≠ k) :
    hashTableFind (hashTableDelete t k).2 k' = hashTableFind t k' := by
  unfold hashTableDelete
  dsimp only
  by_cases inMain : (bucketBufferDelete t.mainBuffer k).1 ≠ 0
  · rw [if_pos inMain]
    unfold hashTableFind
    dsimp only
    rw [bucketBufferFind_delete _ apart]
  · rw [if_neg inMain]
    cases moving : t.subBuffer with
    | none => rfl
    | some sub =>
        unfold hashTableFind
        dsimp only
        rw [moving]
        dsimp only
        rw [bucketBufferFind_delete _ apart]

end Delete

theorem bucketBufferFind_mem {β : Type} {buffer : BucketBuffer β} {k : List Byte} {b : β}
    (found : bucketBufferFind buffer k = some b) : ∃ i, ⟨k, b⟩ ∈ buffer.list i := by
  obtain ⟨p, pair, rfl⟩ := Option.map_eq_some_iff.mp found
  obtain rfl : p.first = k := Keyed.lookup_key pair
  exact ⟨_, Keyed.lookup_mem pair⟩

theorem hashTableFind_has {β : Type} {t : HashTable β} {k : List Byte} {b : β}
    (found : hashTableFind t k = some b) : t.Has k b := by
  unfold hashTableFind at found
  cases inMain : bucketBufferFind t.mainBuffer k with
  | some p =>
      rw [inMain] at found
      obtain rfl := Option.some.inj found
      exact Or.inl (bucketBufferFind_mem inMain)
  | none =>
      rw [inMain] at found
      cases moving : t.subBuffer with
      | none =>
          rw [moving] at found
          cases found
      | some sub =>
          rw [moving] at found
          exact Or.inr ⟨sub, moving, bucketBufferFind_mem found⟩

theorem Cache.Balanced.listed {c : Cache} {es : List Entry} (balanced : c.Balanced es) :
    c.Listed es where
  list := balanced.list
  blocks := balanced.blocks
  names := balanced.names
  found e member b found := by
    obtain ⟨f, there, same⟩ := List.mem_map.mp ((balanced.same _ _).mp (hashTableFind_has found))
    obtain ⟨name, block⟩ := Prod.mk.inj same
    obtain rfl : f = e := List.inj_on_of_nodup_map balanced.names there member name
    exact block.symm
  current := balanced.current
  nonneg := balanced.nonneg
  pinned := balanced.pinned

/-- The blocks of `gone` have been taken out of the list, and their names out of the table. -/
structure Evicts (c c' : Cache) (kept gone : List Entry) : Prop where
  listed : c'.Listed kept
  table : c'.fileTable = gone.foldl (fun t e => (hashTableDelete t e.name).2) c.fileTable
  total : c'.totalSize = c.totalSize
  brk : c'.nameList.brk = c.nameList.brk
  blockBrk : c'.blockBrk = c.blockBrk

namespace Cache.Listed

variable {c : Cache} {z : Entry} {es : List Entry}

theorem bottom (listed : c.Listed (es ++ [z])) : listBot c.nameList = .ok z.block ∧
    c.blocks z.block = some ⟨z.pinned, some z.linker, z.data⟩ := by
  have list := listed.list
  rw [List.map_append] at list
  exact ⟨list.bot, listed.blocks z (List.mem_append_right _ List.mem_cons_self)⟩

theorem full (listed : c.Listed es) : c.nPinned = c.nameList.size ↔ ∀ e ∈ es, 0 < e.pinned := by
  have size := listed.list.size
  rw [List.length_map] at size
  rw [listed.pinned, size, Int.natCast_inj, List.countP_eq_length]
  simp only [decide_eq_true_eq]

/-- The block at the end is moved to the front. -/
theorem rotate (listed : c.Listed (es ++ [z])) :
    ∃ l, listPmovetop c.nameList (some z.linker) = .ok (1, l) ∧ l.brk = c.nameList.brk ∧
      Cache.Listed { c with nameList := l } (z :: es) := by
  have list := listed.list
  rw [List.map_append] at list
  rw [← List.append_nil (_ ++ _), List.append_assoc] at list
  obtain ⟨l, run, spells, _, brk⟩ := LinkerList.Spells.pmovetop (c := z.cell)
    (show c.nameList.Spells (es.map Entry.cell ++ z.cell :: []) from list)
  rw [List.append_nil] at spells
  have same : (z :: es).Perm (es ++ [z]) := (List.perm_append_singleton z es).symm
  refine ⟨l, run, brk, spells, fun e member => listed.blocks e (same.mem_iff.mp member),
    (same.map _).nodup_iff.mpr listed.names,
      fun e member => listed.found e (same.mem_iff.mp member), ?_,
    fun e member => listed.nonneg e (same.mem_iff.mp member), ?_⟩
  · exact listed.current.trans (same.map _).sum_eq.symm
  · rw [same.countP_eq]
    exact listed.pinned

/-- A block has one place in the list, and its name is its own. -/
theorem apart (listed : c.Listed (es ++ [z])) {e : Entry} (member : e ∈ es) :
    e.block ≠ z.block ∧ e.name ≠ z.name := by
  have old := List.mem_append_left [z] member
  have last : z ∈ es ++ [z] := List.mem_append_right _ List.mem_cons_self
  have apart : e.block ≠ z.block := by
    intro same
    have block := listed.blocks e old
    rw [same, listed.blocks z last] at block
    have linker : z.linker = e.linker := by
      simpa using congrArg CacheBlock.linkPos (Option.some.inj block)
    have distinct := listed.list.list.distinct
    rw [List.map_append, List.map_append, List.nodup_append] at distinct
    exact distinct.2.2 e.linker (List.mem_map_of_mem (List.mem_map_of_mem member)) z.linker
      List.mem_cons_self linker.symm
  have names := listed.names
  rw [List.map_append, List.nodup_append] at names
  exact ⟨apart, names.2.2 e.name (List.mem_map_of_mem member) z.name List.mem_cons_self⟩

theorem pull (listed : c.Listed (es ++ [z])) (free : ¬ 0 < z.pinned) :
    ∃ l, listPull c.nameList = .ok (1, l) ∧ l.brk = c.nameList.brk ∧
      Cache.Listed (deleteBlock { c with
        currentSize := c.currentSize - z.data.fileSize, nameList := l } z.name) es := by
  have list := listed.list
  rw [List.map_append] at list
  obtain ⟨l, run, spells, _, brk⟩ := list.pull (c := z.cell)
  have current := listed.current
  have pinned := listed.pinned
  have old : ∀ {e}, e ∈ es → e ∈ es ++ [z] := List.mem_append_left _
  have last : z ∈ es ++ [z] := List.mem_append_right _ List.mem_cons_self
  refine ⟨l, run, brk, spells, fun e member => ?_,
    (List.nodup_append.mp (List.map_append ▸ listed.names)).1, fun e member => ?_, ?_,
    fun e member => listed.nonneg e (old member), ?_⟩
  · unfold deleteBlock
    dsimp only
    cases found : hashTableFind c.fileTable z.name with
    | none => exact listed.blocks e (old member)
    | some b =>
        obtain rfl := listed.found z last b found
        exact (Function.update_of_ne (listed.apart member).1 _ _).trans
          (listed.blocks e (old member))
  · intro b found
    exact listed.found e (old member) b
      ((hashTableFind_delete _ (listed.apart member).2).symm.trans found)
  · unfold sizes at current ⊢
    rw [List.map_append, List.sum_append, List.map_singleton, List.sum_singleton] at current
    change c.currentSize - z.data.fileSize = _
    omega
  · rw [List.countP_append, List.countP_singleton, if_neg (by simpa using free),
      Nat.add_zero] at pinned
    exact pinned

theorem free_reverse_singleton (es : List Entry) (z : Entry) :
    ((es ++ [z]).filter Entry.free).reverse =
      if z.free then z :: (es.filter Entry.free).reverse else (es.filter Entry.free).reverse := by
  rw [List.filter_append, List.reverse_append]
  by_cases free : z.free = true
  · rw [if_pos free, List.filter_cons_of_pos free]
    rfl
  · rw [if_neg free, List.filter_cons_of_neg free]
    rfl

/-- The loop of `Cache_evict` evicts the blocks from the end that are not pinned, until it has
enough or only pinned blocks are left. -/
theorem evictLoop (fuel : Nat) : ∀ (c : Cache) (es : List Entry) (ammount : Int) (k : Nat),
    c.Listed es → Trailing es k → es.length * es.length + k < fuel → ammount ≤ sizes es →
    ∃ ret c' kept gone, evictLoop fuel c ammount = .ok (ret, c') ∧ Evicts c c' kept gone ∧
      es.Perm (kept ++ gone) ∧ Takes (es.filter Entry.free).reverse ammount ret gone := by
  induction fuel with
  | zero => exact fun _ _ _ _ _ _ enough => absurd enough (Nat.not_lt_zero _)
  | succ fuel ih =>
      intro c es ammount k listed trailing enough within
      unfold Webserver.evictLoop
      by_cases positive : 0 < ammount
      · rw [if_pos positive]
        cases es using List.reverseRecOn with
        | nil => exact absurd (Int.lt_of_lt_of_le positive within) (Int.lt_irrefl 0)
        | append_singleton es z =>
            obtain ⟨bottom, block⟩ := listed.bottom
            rw [List.length_append, List.length_singleton] at enough
            have turn : (es ++ [z]).Perm (z :: es) := List.perm_append_singleton z es
            simp only [bottom, ok_bind, loadBlock, block]
            rw [free_reverse_singleton]
            by_cases pinned : 0 < z.pinned
            · obtain ⟨l, run, brk, turned⟩ := listed.rotate
              have held : ¬ z.free = true := by simpa [Entry.free] using pinned
              rw [if_pos pinned, run, ok_bind, if_neg held]
              dsimp only
              by_cases all : c.nPinned = l.size
              · have pins := turned.full.mp all
                have none : es.filter Entry.free = [] := by
                  rw [List.filter_eq_nil_iff]
                  intro e member free
                  have pin := pins e (List.mem_cons_of_mem _ member)
                  exact absurd (of_decide_eq_true free) (Int.not_le.mpr pin)
                rw [if_pos all, none]
                exact ⟨0, _, z :: es, [], rfl, ⟨turned, rfl, rfl, brk, rfl⟩,
                  (List.append_nil (z :: es)).symm ▸ turn, .empty positive⟩
              · have some : ∃ e ∈ es ++ [z], ¬ 0 < e.pinned := by
                  by_contra none
                  simp only [not_exists, not_and, not_not] at none
                  exact all (turned.full.mpr fun e member => none e (turn.mem_iff.mpr member))
                obtain ⟨more, trailing'⟩ := trailing.rotate pinned some
                have size : (z :: es).length = es.length + 1 := rfl
                obtain ⟨ret, c', kept, gone, run', evicts, perm, takes⟩ :=
                  ih _ (z :: es) ammount (k - 1)
                  turned trailing' (by rw [size]; omega) (within.trans_eq (turn.map _).sum_eq)
                rw [List.filter_cons_of_neg held] at takes
                rw [if_neg all]
                exact ⟨ret, c', kept, gone, run', ⟨evicts.listed, evicts.table, evicts.total,
                  evicts.brk.trans brk, evicts.blockBrk⟩, turn.trans perm, takes⟩
            · obtain ⟨l, run, brk, pulled⟩ := listed.pull pinned
              have free : z.free = true := decide_eq_true (Int.not_lt.mp pinned)
              have square : es.length * es.length + es.length < fuel := by
                have expand : (es.length + 1) * (es.length + 1) =
                    es.length * es.length + es.length + (es.length + 1) := by
                  rw [Nat.add_mul, Nat.mul_add, Nat.mul_one, Nat.one_mul]
                omega
              have less : ammount - z.data.fileSize ≤ sizes es := by
                have sum : sizes (es ++ [z]) = sizes (z :: es) := (turn.map _).sum_eq
                rw [sum, Takes.sizes_cons] at within
                omega
              obtain ⟨ret, c', kept, gone, run', evicts, perm, takes⟩ := ih _ es
                (ammount - z.data.fileSize) es.length pulled (trailing_length es) square less
              rw [if_neg pinned, run, ok_bind, if_pos free]
              exact ⟨ret, c', kept, z :: gone, run', ⟨evicts.listed, evicts.table, evicts.total,
                evicts.brk.trans brk, evicts.blockBrk⟩,
                turn.trans ((perm.cons z).trans List.perm_middle.symm), takes.cons positive⟩
      · rw [if_neg positive]
        have nonneg : ∀ e ∈ (es.filter Entry.free).reverse, 0 ≤ e.data.fileSize := fun e member =>
          listed.nonneg e (List.mem_filter.mp (List.mem_reverse.mp member)).1
        exact ⟨1, c, es, [], rfl, ⟨listed, rfl, rfl, rfl, rfl⟩,
          (List.append_nil es).symm ▸ .refl es, .nothing nonneg (Int.not_lt.mp positive)⟩

/-- As many steps as `Cache_evict` may need. -/
theorem enough (listed : c.Listed es) : es.length * es.length + es.length <
    (c.nameList.size.toNat + 1) * (c.nameList.size.toNat + 1) := by
  have size := listed.list.size
  rw [List.length_map] at size
  rw [size, Int.toNat_natCast, Nat.add_mul, Nat.mul_add, Nat.mul_one, Nat.one_mul]
  omega

end Cache.Listed

theorem Cache.Listed.evict {c : Cache} {es : List Entry} (listed : c.Listed es) {ammount : Int}
    (positive : 0 < ammount) (within : ammount ≤ c.totalSize) (held : ammount ≤ sizes es) :
    ∃ ret c' kept gone, cacheEvict c ammount = .ok (ret, c') ∧ Evicts c c' kept gone ∧
      es.Perm (kept ++ gone) ∧ (∀ e ∈ gone, ¬ 0 < e.pinned) ∧
      Takes (es.filter Entry.free).reverse ammount ret gone := by
  obtain ⟨ret, c', kept, gone, run, evicts, perm, takes⟩ :=
    listed.evictLoop _ c es ammount es.length (trailing_length es) listed.enough held
  refine ⟨ret, c', kept, gone, ?_, evicts, perm, fun e member => ?_, takes⟩
  · rw [cacheEvict, if_neg (by omega)]
    exact run
  · have free := (List.mem_filter.mp (List.mem_reverse.mp (takes.front.subset member))).2
    exact Int.not_lt.mpr (of_decide_eq_true free)

/-- `Cache_evict` returns, whatever is pinned. It has evicted the first blocks, from the end of the
list, that are not pinned and have the amount, and says whether there are such. -/
theorem cache_evict {c : Cache} {es : List Entry} (balanced : c.Balanced es) {ammount : Int}
    (positive : 0 < ammount) (small : ammount < c.totalSize / 2)
    (short : c.totalSize - c.currentSize < ammount) :
    ∃ ret c' kept gone, cacheEvict c ammount = .ok (ret, c') ∧
      (ret = 1 ↔ ammount ≤ sizes (es.filter Entry.free)) ∧
      Takes (es.filter Entry.free).reverse ammount ret gone ∧ es.Perm (kept ++ gone) ∧
      (∀ e ∈ gone, ¬ 0 < e.pinned) ∧ Evicts c c' kept gone := by
  have current := balanced.current
  obtain ⟨ret, c', kept, gone, run, evicts, perm, free, takes⟩ :=
    balanced.listed.evict positive (by omega) (by omega)
  refine ⟨ret, c', kept, gone, run, ?_, takes, perm, free, evicts⟩
  have same : sizes (es.filter Entry.free).reverse = sizes (es.filter Entry.free) :=
    ((List.reverse_perm _).map _).sum_eq
  have returned := takes.returned
  rw [same] at returned
  by_cases some : ammount ≤ sizes (es.filter Entry.free)
  · rw [if_pos some] at returned
    exact iff_of_true returned some
  · rw [if_neg some] at returned
    rw [returned]
    exact iff_of_false (by decide) some

section TwoBlocks

/-- The block in front is free, the one at the end is pinned. -/
def blockB : Entry := ⟨1, 1, 0, ⟨[98#8], [], 4⟩⟩

def blockA : Entry := ⟨0, 0, 1, ⟨[97#8], [], 4⟩⟩

/-- A cache of ten bytes with two blocks of four. -/
def twoBlocks : Cache where
  fileTable := ⟨⟨Function.update (Function.update (fun _ => []) (strHash [97#8] 4096) [⟨[97#8], 0⟩])
    (strHash [98#8] 4096) [⟨[98#8], 1⟩], 4096, 2, 0⟩, none⟩
  nameList := ⟨some 1, some 0, 2, Function.update (Function.update (fun _ => none)
    0 (some ⟨0, none, some 1⟩)) 1 (some ⟨1, some 0, none⟩), 2⟩
  totalSize := 10
  currentSize := 8
  nPinned := 1
  blocks := Function.update (Function.update (fun _ => none) 0 (some ⟨1, some 0, blockA.data⟩))
    1 (some ⟨0, some 1, blockB.data⟩)
  blockBrk := 2

theorem twoBlocks_balanced : twoBlocks.Balanced [blockB, blockA] where
  list := ⟨⟨⟨rfl, rfl, trivial⟩, by decide, rfl, rfl⟩, rfl⟩
  blocks e member := by
    simp only [List.mem_cons, List.not_mem_nil, or_false] at member
    obtain rfl | rfl := member <;> rfl
  names := by decide
  same k b := by
    have chains : ∀ i, twoBlocks.fileTable.mainBuffer.list i = if i = strHash [98#8] 4096 then
        [⟨[98#8], 1⟩] else if i = strHash [97#8] 4096 then [⟨[97#8], 0⟩] else [] := by
      intro i
      simp only [twoBlocks, Function.update_apply]
    constructor
    · rintro (⟨i, member⟩ | ⟨_, moving, _⟩)
      · rw [chains] at member
        split at member
        · obtain ⟨rfl, rfl⟩ := Pair.mk.inj (List.mem_singleton.mp member)
          exact List.mem_cons_self
        · split at member
          · obtain ⟨rfl, rfl⟩ := Pair.mk.inj (List.mem_singleton.mp member)
            exact List.mem_cons_of_mem _ List.mem_cons_self
          · cases member
      · cases moving
    · intro member
      rcases List.mem_cons.mp member with this | rest
      · obtain ⟨rfl, rfl⟩ := Prod.mk.inj this
        refine Or.inl ⟨strHash [98#8] 4096, ?_⟩
        rw [chains, if_pos rfl]
        exact List.mem_singleton_self _
      · obtain ⟨rfl, rfl⟩ := Prod.mk.inj (List.mem_singleton.mp rest)
        refine Or.inl ⟨strHash [97#8] 4096, ?_⟩
        rw [chains, if_neg (by decide), if_pos rfl]
        exact List.mem_singleton_self _
  current := rfl
  nonneg e member := by
    simp only [List.mem_cons, List.not_mem_nil, or_false] at member
    obtain rfl | rfl := member <;> decide
  pinned := rfl

/-- The pinned block at the end is passed over, and the free one evicted. -/
theorem cache_evict_two : ∃ c' kept, cacheEvict twoBlocks 4 = .ok (1, c') ∧
    [blockB, blockA].Perm (kept ++ [blockB]) ∧ Evicts twoBlocks c' kept [blockB] := by
  obtain ⟨ret, c', kept, gone, run, some, takes, perm, _, evicts⟩ := cache_evict twoBlocks_balanced
    (show (0 : Int) < 4 by decide) (by decide) (by decide)
  obtain rfl := some.mpr (by decide)
  have front : gone <+: [blockB] := takes.front
  have enough := takes.enough rfl
  obtain rfl | rfl : gone = [] ∨ gone = [blockB] := by
    cases gone with
    | nil => exact Or.inl rfl
    | cons e rest =>
        obtain ⟨rfl, none⟩ := List.cons_prefix_cons.mp front
        exact Or.inr (by rw [List.prefix_nil.mp none])
  · exact absurd enough (by decide)
  · exact ⟨c', kept, run, perm, evicts⟩

end TwoBlocks

end Ece344Lab.Webserver
