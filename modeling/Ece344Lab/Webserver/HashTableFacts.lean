import Ece344Lab.Webserver.HashTableCounts

set_option autoImplicit false

/- The hash table while chains move from the sub buffer to the main buffer. -/
namespace Ece344Lab.Webserver

open Chained

variable {β : Type}

namespace BucketBuffer

/-- Every pair is in the chain its key is hashed to, and keys are distinct. -/
abbrev Placed (b : BucketBuffer β) : Prop :=
  Chained.Placed Pair.first (fun k => strHash k b.size) b.list

def pair (b : BucketBuffer β) (k : List Byte) : Option (Pair β) :=
  Chained.find Pair.first (fun k => strHash k b.size) b.list k

end BucketBuffer

theorem bucketBufferFind_eq (b : BucketBuffer β) (k : List Byte) :
    bucketBufferFind b k = (b.pair k).map Pair.second := rfl

/-- All keys of a chain are hashed to one bucket. -/
def Uniform (size : Nat) (chain : List (Pair β)) : Prop :=
  ∀ a ∈ chain, ∀ b ∈ chain, strHash a.first size = strHash b.first size

/-- Two buffers that share out the pairs of a map. -/
structure Paired (main sub : BucketBuffer β) (p : List Byte → Option (Pair β)) : Prop where
  inMain : main.Placed
  inSub : sub.Placed
  apart : ∀ k, main.pair k = none ∨ sub.pair k = none
  pair : ∀ k, (main.pair k).or (sub.pair k) = p k

section Move

variable {main sub : BucketBuffer β} {p : List Byte → Option (Pair β)} {i : Nat}

/-- A chain whose keys all go to one bucket is moved there. -/
theorem Paired.move (paired : Paired main sub p) (uniform : Uniform main.size (sub.list i)) :
    Paired (moveList main sub i).1 (moveList main sub i).2 p := by
  unfold moveList
  cases chain : sub.list i with
  | nil => exact paired
  | cons temp rest =>
      rw [chain] at uniform
      have home : ∀ a ∈ temp :: rest, strHash a.first main.size = strHash temp.first main.size :=
        fun a member => uniform a member temp List.mem_cons_self
      have held : ∀ a ∈ temp :: rest, sub.pair a.first = some a :=
        fun a member => paired.inSub.find_of_mem (chain.symm ▸ member)
      have distinct : ((temp :: rest).map Pair.first).Nodup := chain ▸ paired.inSub.distinct i
      have moved : ∀ k, Keyed.lookup Pair.first (temp :: rest) k =
          if strHash k sub.size = i then sub.pair k else none := by
        intro k
        by_cases here : strHash k sub.size = i
        · rw [if_pos here, ← chain, ← here]
          rfl
        · rw [if_neg here, Keyed.lookup_eq_none, List.mem_map]
          intro present
          obtain ⟨a, member, rfl⟩ := present
          exact here (paired.inSub.home i a (chain.symm ▸ member))
      have absent : ∀ a ∈ temp :: rest, main.pair a.first = none := by
        intro a member
        cases paired.apart a.first with
        | inl none => exact none
        | inr none =>
            rw [held a member] at none
            cases none
      have found : ∀ k, Chained.find Pair.first (fun k => strHash k main.size)
          (Function.update main.list (strHash temp.first main.size)
            (main.list (strHash temp.first main.size) ++ temp :: rest)) k =
          (main.pair k).or (Keyed.lookup Pair.first (temp :: rest) k) := find_append home
      refine ⟨paired.inMain.append home distinct absent, paired.inSub.clear i, ?_, ?_⟩
      · intro k
        by_cases here : strHash k sub.size = i
        · exact Or.inr ((find_clear i k).trans (if_pos here))
        · cases paired.apart k with
          | inl none =>
              refine Or.inl ((found k).trans ?_)
              rw [moved, if_neg here, Option.or_none]
              exact none
          | inr none => exact Or.inr ((find_clear i k).trans ((if_neg here).trans none))
      · intro k
        rw [← paired.pair k]
        change (Chained.find _ _ _ k).or (Chained.find _ _ _ k) = _
        rw [found k, find_clear, moved]
        by_cases here : strHash k sub.size = i
        · rw [if_pos here, if_pos here, Option.or_none]
        · rw [if_neg here, if_neg here, Option.or_none]
          rfl

/-- The chains in use among the `n` from `i` on. -/
def chainsFrom (sub : BucketBuffer β) (i n : Nat) : List (List (Pair β)) :=
  ((List.range' i n).map sub.list).filter (· ≠ [])

theorem chainsFrom_succ (sub : BucketBuffer β) (i n : Nat) :
    chainsFrom sub i (n + 1) =
      if sub.list i = [] then chainsFrom sub (i + 1) n
      else sub.list i :: chainsFrom sub (i + 1) n := by
  unfold chainsFrom
  rw [List.range'_succ, List.map_cons, List.filter_cons]
  by_cases empty : sub.list i = [] <;> simp [empty]

theorem chainsFrom_congr {sub sub' : BucketBuffer β} {i n : Nat}
    (same : ∀ j, i ≤ j → sub'.list j = sub.list j) : chainsFrom sub' i n = chainsFrom sub i n := by
  unfold chainsFrom
  congr 1
  apply List.map_congr_left
  intro j member
  exact same j (List.mem_range'_1.mp member).1

/-- The loop moves the next chains in use. -/
theorem Paired.reallocateLoop (n : Nat) : ∀ (i count : Nat) (main sub : BucketBuffer β),
    Paired main sub p → count < hashtableMoveCount →
    (∀ chain ∈ (chainsFrom sub i n).take (hashtableMoveCount - count), Uniform main.size chain) →
    Paired (reallocateLoop n i count main sub).1 (reallocateLoop n i count main sub).2 p := by
  induction n with
  | zero => exact fun _ _ _ _ paired _ _ => paired
  | succ n ih =>
      intro i count main sub paired few uniform
      rw [chainsFrom_succ] at uniform
      unfold Webserver.reallocateLoop
      by_cases empty : sub.list i = []
      · rw [if_pos empty] at uniform ⊢
        exact ih (i + 1) count main sub paired few uniform
      · rw [if_neg empty] at uniform ⊢
        obtain ⟨k, left⟩ : ∃ k, hashtableMoveCount - count = k + 1 :=
          ⟨hashtableMoveCount - count - 1, by omega⟩
        rw [left, List.take_succ_cons] at uniform
        have paired' := paired.move (uniform _ List.mem_cons_self)
        obtain ⟨key, _, moved⟩ := moveList_of_ne main sub empty
        have list : (moveList main sub i).2.list = Function.update sub.list i [] := by rw [moved]
        have size : (moveList main sub i).1.size = main.size := by rw [moved]
        dsimp only
        by_cases last : hashtableMoveCount ≤ count + 1
        · rw [if_pos last]
          exact ⟨paired'.inMain, paired'.inSub, paired'.apart, paired'.pair⟩
        · rw [if_neg last]
          apply ih (i + 1) (count + 1) _ _ paired' (by omega)
          have fewer : hashtableMoveCount - (count + 1) = k := by omega
          have later : chainsFrom (moveList main sub i).2 (i + 1) n = chainsFrom sub (i + 1) n := by
            apply chainsFrom_congr
            intro j behind
            rw [list, Function.update_of_ne (by omega)]
          rw [fewer, later, size]
          exact fun chain member => uniform chain (List.mem_cons_of_mem _ member)

end Move

/-- The sub buffer while its chains move. Each insertion moves two chains, so that all have moved
before the main buffer is half full. -/
structure SubOk (main sub : BucketBuffer β) : Prop where
  placed : sub.Placed
  apart : ∀ k, main.pair k = none ∨ sub.pair k = none
  double : main.size = 2 * sub.size
  passed : ∀ j < sub.reallocateCursor, sub.list j = []
  cursor : sub.reallocateCursor ≤ sub.size
  ahead : sub.inUse ≠ 0 → 8 * (main.bucketNumber + sub.total + (sub.inUse + 1) / 2) ≤ 3 * main.size

theorem SubOk.counts {main sub : BucketBuffer β} (subOk : SubOk main sub) : SubCounts main sub :=
  ⟨subOk.double, subOk.passed, subOk.cursor, subOk.ahead⟩

theorem SubCounts.ok {main sub : BucketBuffer β} (counts : SubCounts main sub) (placed : sub.Placed)
    (apart : ∀ k, main.pair k = none ∨ sub.pair k = none) : SubOk main sub :=
  ⟨placed, apart, counts.double, counts.passed, counts.cursor, counts.ahead⟩

namespace HashTable

def pair (t : HashTable β) (k : List Byte) : Option (Pair β) :=
  (t.mainBuffer.pair k).or (t.subBuffer.bind fun sub => sub.pair k)

/-- The table holds the buckets of a finite map. -/
structure Ok (t : HashTable β) (m : List Byte → Option β) : Prop where
  size : ∃ a, 12 ≤ a ∧ a ≤ 30 ∧ t.mainBuffer.size = 2 ^ a
  young : t.subBuffer = none → t.mainBuffer.size = hashtableIncrementSize
  placed : t.mainBuffer.Placed
  room : t.mainBuffer.total ≤ t.mainBuffer.bucketNumber
  below : 2 * t.mainBuffer.bucketNumber < t.mainBuffer.size
  cursor : t.mainBuffer.reallocateCursor = 0
  sub : ∀ sub, t.subBuffer = some sub → SubOk t.mainBuffer sub
  finds : ∀ k, (t.pair k).map Pair.second = m k

def nextChains (t : HashTable β) : List (List (Pair β)) :=
  match t.subBuffer with
  | none => []
  | some sub =>
      (chainsFrom sub sub.reallocateCursor (sub.size - sub.reallocateCursor)).take
        hashtableMoveCount

/-- The next insertion moves no chain whose keys belong in different buckets, and asks for no more
buckets than an `int` counts. -/
structure Steady (t : HashTable β) : Prop where
  uniform : ∀ chain ∈ t.nextChains, Uniform t.mainBuffer.size chain
  counted : t.mainBuffer.size < 2 ^ 30 ∨
    2 * (t.mainBuffer.bucketNumber + 1) < t.mainBuffer.size

end HashTable

variable {t : HashTable β} {m : List Byte → Option β}

theorem hashTableFind_eq (t : HashTable β) (k : List Byte) :
    hashTableFind t k = (t.pair k).map Pair.second := by
  unfold hashTableFind HashTable.pair
  rw [bucketBufferFind_eq]
  cases t.mainBuffer.pair k with
  | some pair => rfl
  | none =>
      cases t.subBuffer with
      | none => rfl
      | some sub => rfl

theorem hashTableNew_ok : (hashTableNew : HashTable β).Ok fun _ => none where
  size := ⟨12, by omega, by omega, rfl⟩
  young _ := rfl
  placed := placed_empty
  room := (total_eq_zero fun _ _ => rfl).le
  below := show 2 * 0 < 4096 by decide
  cursor := rfl
  sub sub none := by cases none
  finds k := rfl

namespace HashTable.Ok

theorem counts (ok : t.Ok m) : t.Counts :=
  ⟨ok.size, ok.young, ok.room, ok.below, ok.cursor, fun sub same => (ok.sub sub same).counts⟩

theorem find (ok : t.Ok m) (k : List Byte) : hashTableFind t k = m k :=
  (hashTableFind_eq t k).trans (ok.finds k)

theorem absent (ok : t.Ok m) {k : List Byte} (none : m k = none) :
    t.mainBuffer.pair k = Option.none ∧
      ∀ sub, t.subBuffer = some sub → sub.pair k = Option.none := by
  have found := ok.finds k
  rw [none, Option.map_eq_none_iff] at found
  obtain ⟨inMain, inSub⟩ := Option.or_eq_none_iff.mp found
  refine ⟨inMain, fun sub same => ?_⟩
  rw [same] at inSub
  exact inSub

end HashTable.Ok

theorem BucketBuffer.placed_push {main : BucketBuffer β} {k : List Byte} (b : β)
    (placed : main.Placed) (absent : main.pair k = none) : (main.push k b).Placed :=
  placed.push (a := (⟨k, b⟩ : Pair β)) absent

theorem BucketBuffer.pair_push {main : BucketBuffer β} {k : List Byte} (b : β)
    (absent : main.pair k = none) (k' : List Byte) :
    (main.push k b).pair k' = if k' = k then some ⟨k, b⟩ else main.pair k' :=
  find_push (a := (⟨k, b⟩ : Pair β)) absent k'

/-- A table whose insertion has moved its chains, with the number of its main buffer if none had to
be moved. A full main buffer holds all pairs. -/
structure Grown (buckets number : Nat) (t : HashTable β)
    (p : List Byte → Option (Pair β)) : Prop where
  size : t.mainBuffer.size = buckets
  young : t.subBuffer = none → buckets = hashtableIncrementSize
  placed : t.mainBuffer.Placed
  room : t.mainBuffer.total ≤ t.mainBuffer.bucketNumber
  cursor : t.mainBuffer.reallocateCursor = 0
  sub : ∀ sub, t.subBuffer = some sub → SubOk t.mainBuffer sub
  pair : ∀ k, t.pair k = p k
  full : buckets ≤ 2 * t.mainBuffer.bucketNumber →
    t.mainBuffer.bucketNumber = number ∧ buckets = 2 * number ∧ ∀ k, t.mainBuffer.pair k = p k

/-- Nothing is in a buffer without chains in use. -/
theorem pair_of_unused {sub : BucketBuffer β} (some : 0 < sub.size) (fits : sub.size < 2 ^ 64)
    (unused : sub.inUse = 0) (k : List Byte) : sub.pair k = none := by
  unfold BucketBuffer.pair Chained.find
  rw [inUse_eq_zero.mp unused _ (strHash_lt k some fits)]
  rfl

namespace HashTable.Ok

variable {k : List Byte}

def inserted (t : HashTable β) (k : List Byte) (b : β) (k' : List Byte) : Option (Pair β) :=
  if k' = k then some ⟨k, b⟩ else t.pair k'

/-- The pushed pair and the pairs that were there, before chains are moved. -/
theorem paired_push (ok : t.Ok m) (new : m k = none) (b : β) {sub : BucketBuffer β}
    (moving : t.subBuffer = some sub) : Paired (t.mainBuffer.push k b) sub (inserted t k b) := by
  obtain ⟨absent, absent'⟩ := ok.absent new
  have subOk := ok.sub sub moving
  refine ⟨BucketBuffer.placed_push b ok.placed absent, subOk.placed, fun k' => ?_, fun k' => ?_⟩
  · rw [BucketBuffer.pair_push b absent]
    by_cases same : k' = k
    · rw [same]
      exact Or.inr (absent' sub moving)
    · rw [if_neg same]
      exact subOk.apart k'
  · unfold inserted HashTable.pair
    rw [BucketBuffer.pair_push b absent, moving]
    by_cases same : k' = k
    · rw [if_pos same, if_pos same]
      rfl
    · rw [if_neg same, if_neg same]
      rfl

theorem grown (ok : t.Ok m) (new : m k = none) (b : β) (uniform : ∀ chain ∈ t.nextChains,
    Uniform t.mainBuffer.size chain) :
    Grown t.mainBuffer.size (t.mainBuffer.bucketNumber + 1) (t.pushed k b) (inserted t k b) := by
  obtain ⟨positive, fits, q, size⟩ := ok.counts.bounds
  obtain ⟨moved, alone⟩ := ok.counts.pushed k b
  have below := ok.below
  have half : t.mainBuffer.size ≤ 2 * (t.mainBuffer.bucketNumber + 1) →
      t.mainBuffer.size = 2 * (t.mainBuffer.bucketNumber + 1) := by omega
  unfold HashTable.pushed at moved alone ⊢
  cases moving : t.subBuffer with
  | none =>
      have absent := (ok.absent new).1
      have pairs : ∀ k', (t.mainBuffer.push k b).pair k' = inserted t k b k' := by
        intro k'
        unfold inserted HashTable.pair
        rw [BucketBuffer.pair_push b absent, moving]
        exact congrArg _ (Option.or_none.symm)
      rw [moving] at moved
      exact ⟨rfl, fun _ => ok.young moving, BucketBuffer.placed_push b ok.placed absent, moved.room,
        ok.cursor, nofun, fun k' => Option.or_none.trans (pairs k'),
          fun full => ⟨rfl, half full, pairs⟩⟩
  | some sub =>
      have chains : t.nextChains = (chainsFrom sub sub.reallocateCursor
          (sub.size - sub.reallocateCursor)).take hashtableMoveCount := by
        unfold HashTable.nextChains
        rw [moving]
      rw [chains] at uniform
      have paired := (ok.paired_push new b moving).reallocateLoop _ sub.reallocateCursor 0 _ _
        (by decide) uniform
      rw [moving] at moved alone
      unfold hashTableReallocate at moved alone ⊢
      dsimp only at moved alone ⊢
      generalize reallocateLoop (sub.size - sub.reallocateCursor) sub.reallocateCursor 0
        (t.mainBuffer.push k b) sub = loop at paired moved alone ⊢
      by_cases none : loop.2.size = 0
      · rw [if_pos none] at alone
        cases alone rfl
      rw [if_neg none] at moved ⊢
      have counts := moved.sub _ rfl
      refine ⟨moved.size, nofun, paired.inMain, moved.room, moved.cursor, fun sub' same => ?_,
        paired.pair, fun full => ?_⟩
      · obtain rfl := Option.some.inj same
        exact counts.ok paired.inSub paired.apart
      · obtain ⟨number, unused⟩ := moved.full full
        have double := counts.double
        have mainSize := moved.size
        dsimp only at full number double mainSize
        refine ⟨number, half (number ▸ full), fun k' => ?_⟩
        rw [← paired.pair k', pair_of_unused (by omega) (by omega) (unused _ rfl), Option.or_none]

theorem inserted_finds (ok : t.Ok m) (b : β) (k' : List Byte) :
    (inserted t k b k').map Pair.second = Function.update m k (some b) k' := by
  unfold inserted
  by_cases same : k' = k
  · rw [if_pos same, same, Function.update_self]
    rfl
  · rw [if_neg same, Function.update_of_ne same]
    exact ok.finds k'

theorem insert (ok : t.Ok m) (new : m k = none) (steady : t.Steady) (b : β) :
    ∃ t', hashTableInsert t k b = .ok (1, t') ∧ t'.Ok (Function.update m k (some b)) := by
  have grown := ok.grown new b steady.uniform
  have finds := ok.inserted_finds (k := k) b
  have counted := steady.counted
  have counts : ∀ t', hashTableInsert t k b = .ok (1, t') → t'.Counts := fun t' => ok.counts.insert
  rw [hashTableInsert_eq] at counts ⊢
  change Grown _ _ (hashTableReallocate ⟨t.mainBuffer.push k b, t.subBuffer⟩).2 _ at grown
  generalize (hashTableReallocate ⟨t.mainBuffer.push k b, t.subBuffer⟩).2 = t₁ at grown counts ⊢
  obtain ⟨size, young, placed, room, cursor, sub, pair, full⟩ := grown
  dsimp only at counts ⊢
  by_cases switch : t₁.mainBuffer.size ≤ 2 * t₁.mainBuffer.bucketNumber
  · obtain ⟨number, half, pairs⟩ := full (size ▸ switch)
    have doubled : hashtableScaleFactor * t₁.mainBuffer.size < 2 ^ 31 := by
      change 2 * _ < _
      omega
    rw [if_pos switch, bucketBufferNew, if_pos doubled] at counts ⊢
    obtain ⟨size', young', room', below', cursor', sub'⟩ := counts _ rfl
    refine ⟨_, rfl, size', young', placed_empty, room', below', cursor', fun sub₁ same => ?_,
      fun k' => ?_⟩
    · obtain rfl := Option.some.inj same
      exact (sub' _ rfl).ok placed fun k' => Or.inl rfl
    · rw [← finds, ← pairs]
      rfl
  · rw [if_neg switch] at counts ⊢
    obtain ⟨size', young', room', below', cursor', _⟩ := counts _ rfl
    exact ⟨_, rfl, size', young', placed, room', below', cursor', sub,
      fun k' => by rw [pair, finds]⟩

end HashTable.Ok

/-- A buffer and the same buffer without the pair of a key. -/
structure Deleted (buffer buffer' : BucketBuffer β) (k : List Byte) : Prop where
  placed : buffer'.Placed
  pair : ∀ k', buffer'.pair k' = if k' = k then none else buffer.pair k'
  size : buffer'.size = buffer.size
  number : buffer'.bucketNumber = buffer.bucketNumber
  cursor : buffer'.reallocateCursor = buffer.reallocateCursor
  chains : ∀ i, (buffer'.list i).Sublist (buffer.list i)
  total : buffer'.total ≤ buffer.total

theorem bucketBufferDelete_eq {buffer : BucketBuffer β} (placed : buffer.Placed)
    (positive : 0 < buffer.size) (fits : buffer.size < 2 ^ 64) (k : List Byte) :
    ∃ buffer', bucketBufferDelete buffer k = (if (buffer.pair k).isSome then 1 else 0, buffer') ∧
      Deleted buffer buffer' k := by
  obtain ⟨thinned, number, total⟩ := bucketBufferDelete_thinned positive fits k
  cases found : buffer.pair k with
  | none =>
      have run : bucketBufferDelete buffer k = (0, buffer) := by
        unfold BucketBuffer.pair Chained.find at found
        simp only [bucketBufferDelete, found]
      refine ⟨buffer, run, placed, fun k' => ?_, rfl, rfl, rfl, fun i => List.Sublist.refl _,
        Nat.le_refl _⟩
      by_cases same : k' = k
      · rw [if_pos same, same, found]
      · rw [if_neg same]
  | some p =>
      have run : bucketBufferDelete buffer k = (1, { buffer with
          list := Function.update buffer.list (strHash k buffer.size)
            (Keyed.remove Pair.first (buffer.list (strHash k buffer.size)) k) }) := by
        unfold BucketBuffer.pair Chained.find at found
        simp only [bucketBufferDelete, found]
      rw [run] at thinned number total
      exact ⟨_, run, placed.remove k, placed.find_remove k, thinned.size, number, thinned.cursor,
        thinned.chains, by dsimp only at total; omega⟩

theorem Deleted.pair_none {buffer buffer' : BucketBuffer β} {k : List Byte}
    (deleted : Deleted buffer buffer' k) {k' : List Byte} (none : buffer.pair k' = none) :
    buffer'.pair k' = Option.none := by
  rw [deleted.pair k', none, ite_self]

/-- What a deletion leaves as it was. -/
structure HashTable.Lessened (t t' : HashTable β) : Prop where
  size : t'.mainBuffer.size = t.mainBuffer.size
  number : t'.mainBuffer.bucketNumber = t.mainBuffer.bucketNumber
  alone : t.subBuffer = none → t'.subBuffer = none
  sub : ∀ sub', t'.subBuffer = some sub' → ∃ sub, t.subBuffer = some sub ∧ Thinned sub sub'

theorem Deleted.thinned {buffer buffer' : BucketBuffer β} {k : List Byte}
    (deleted : Deleted buffer buffer' k) : Thinned buffer buffer' :=
  ⟨deleted.size, deleted.cursor, deleted.chains⟩

namespace SubOk

variable {main sub : BucketBuffer β} {k : List Byte}

theorem delete_main (subOk : SubOk main sub) {main' : BucketBuffer β}
    (deleted : Deleted main main' k) : SubOk main' sub :=
  (subOk.counts.of_main deleted.size deleted.number).ok subOk.placed fun k' =>
    (subOk.apart k').imp_left deleted.pair_none

theorem delete_sub (subOk : SubOk main sub) {sub' : BucketBuffer β}
    (deleted : Deleted sub sub' k) : SubOk main sub' :=
  (subOk.counts.thin deleted.thinned deleted.total).ok deleted.placed fun k' =>
    (subOk.apart k').imp_right deleted.pair_none

end SubOk

namespace HashTable.Ok

theorem without (ok : t.Ok m) (k k' : List Byte) :
    (if k' = k then none else t.pair k').map Pair.second = Function.update m k none k' := by
  by_cases same : k' = k
  · rw [if_pos same, same, Function.update_self]
    rfl
  · rw [if_neg same, Function.update_of_ne same, ok.finds k']

/-- A pair of the main buffer is taken out of the map. -/
theorem delete_main (ok : t.Ok m) {main : BucketBuffer β} {k : List Byte}
    (deleted : Deleted t.mainBuffer main k) (present : t.mainBuffer.pair k ≠ none) :
    ({ t with mainBuffer := main } : HashTable β).Ok (Function.update m k none) := by
  refine ⟨deleted.size ▸ ok.size, fun alone => deleted.size.trans (ok.young alone),
    deleted.placed, ?_, ?_, deleted.cursor.trans ok.cursor,
    fun sub same => (ok.sub sub same).delete_main deleted, fun k' => ?_⟩
  · exact deleted.total.trans (ok.room.trans_eq deleted.number.symm)
  · dsimp only
    rw [deleted.number, deleted.size]
    exact ok.below
  · rw [← ok.without k k']
    congr 1
    change (main.pair k').or _ = _
    rw [deleted.pair k']
    by_cases same : k' = k
    · rw [if_pos same, if_pos same, same, Option.none_or]
      cases moving : t.subBuffer with
      | none => rfl
      | some sub => exact ((ok.sub sub moving).apart k).resolve_left present
    · rw [if_neg same, if_neg same]
      rfl

/-- A pair of the sub buffer is taken out of the map. -/
theorem delete_sub (ok : t.Ok m) {sub sub' : BucketBuffer β} {k : List Byte}
    (moving : t.subBuffer = some sub) (absent : t.mainBuffer.pair k = none)
    (deleted : Deleted sub sub' k) :
    ({ t with subBuffer := some sub' } : HashTable β).Ok (Function.update m k none) := by
  refine ⟨ok.size, (fun alone => by cases alone), ok.placed, ok.room, ok.below, ok.cursor, ?_,
    fun k' => ?_⟩
  · intro sub'' same
    obtain rfl := Option.some.inj same
    exact (ok.sub sub moving).delete_sub deleted
  · rw [← ok.without k k']
    congr 1
    change (t.mainBuffer.pair k').or (sub'.pair k') = _
    rw [deleted.pair k']
    by_cases same : k' = k
    · rw [if_pos same, if_pos same, same, absent]
      rfl
    · rw [if_neg same, if_neg same]
      unfold HashTable.pair
      rw [moving]
      rfl

/-- A key that no bucket has is not in the map. -/
theorem update_missing (ok : t.Ok m) {k : List Byte} (missing : t.pair k = none) :
    Function.update m k none = m := by
  rw [Function.update_eq_self_iff, ← ok.finds k, missing]
  rfl

theorem delete (ok : t.Ok m) (k : List Byte) :
    ∃ t', hashTableDelete t k = (if (m k).isSome then 1 else 0, t') ∧
      t'.Ok (Function.update m k none) ∧ t.Lessened t' := by
  obtain ⟨positive, fits, q, quarter⟩ := ok.counts.bounds
  obtain ⟨main, run, deleted⟩ := bucketBufferDelete_eq ok.placed positive fits k
  rw [← ok.finds k]
  unfold hashTableDelete
  rw [run]
  dsimp only
  cases inMain : t.mainBuffer.pair k with
  | some p =>
      have present : t.pair k = some p := by
        unfold HashTable.pair
        rw [inMain]
        rfl
      rw [present]
      refine ⟨_, rfl, ok.delete_main deleted (by rw [inMain]; exact Option.some_ne_none p),
        deleted.size, deleted.number, fun alone => alone, fun sub same => ?_⟩
      exact ⟨sub, same, rfl, rfl, fun i => List.Sublist.refl _⟩
  | none =>
      rw [if_neg (by simp)]
      cases moving : t.subBuffer with
      | none =>
          have missing : t.pair k = none := by
            unfold HashTable.pair
            rw [inMain, moving]
            rfl
          rw [missing, ok.update_missing missing]
          exact ⟨t, rfl, ok, rfl, rfl, fun alone => alone, fun sub there =>
            ⟨sub, there, rfl, rfl, fun i => List.Sublist.refl _⟩⟩
      | some sub =>
          have subOk := ok.sub sub moving
          have double := subOk.double
          obtain ⟨sub', run', deleted'⟩ :=
            bucketBufferDelete_eq subOk.placed (by omega) (by omega) k
          have inSub : t.pair k = sub.pair k := by
            unfold HashTable.pair
            rw [inMain, moving]
            rfl
          dsimp only
          rw [run', inSub, Option.isSome_map]
          refine ⟨_, rfl, ok.delete_sub moving inMain deleted', rfl, rfl, ?_, ?_⟩
          · intro alone
            rw [alone] at moving
            cases moving
          · intro sub'' same
            obtain rfl := Option.some.inj same
            exact ⟨sub, moving, deleted'.thinned⟩

end HashTable.Ok

/-- No chain that is left to move has keys that belong in different buckets, and the next insertion
asks for no more buckets than an `int` counts. -/
structure HashTable.Settled (t : HashTable β) : Prop where
  uniform : ∀ sub, t.subBuffer = some sub → ∀ i, sub.reallocateCursor ≤ i →
    Uniform t.mainBuffer.size (sub.list i)
  counted : t.mainBuffer.size < 2 ^ 30 ∨
    2 * (t.mainBuffer.bucketNumber + 1) < t.mainBuffer.size

namespace HashTable.Settled

theorem lessened {t' : HashTable β} (settled : t.Settled) (less : t.Lessened t') : t'.Settled where
  uniform sub' same i behind := by
    obtain ⟨sub, same', thinned⟩ := less.sub sub' same
    have uniform := settled.uniform sub same' i (thinned.cursor ▸ behind)
    intro a here b there
    rw [less.size]
    exact uniform a ((thinned.chains i).subset here) b ((thinned.chains i).subset there)
  counted := by
    rw [less.size, less.number]
    exact settled.counted

theorem steady (settled : t.Settled) : t.Steady where
  uniform chain member := by
    unfold HashTable.nextChains at member
    cases moving : t.subBuffer with
    | none =>
        rw [moving] at member
        cases member
    | some sub =>
        rw [moving] at member
        have used := (List.mem_filter.mp (List.mem_of_mem_take member)).1
        obtain ⟨i, inside, rfl⟩ := List.mem_map.mp used
        exact settled.uniform sub moving i (List.mem_range'_1.mp inside).1
  counted := settled.counted

end HashTable.Settled

/-- A table that has not begun to move its chains. -/
theorem HashTable.Ok.settled (ok : t.Ok m) (alone : t.subBuffer = none) : t.Settled where
  uniform sub same := by
    rw [alone] at same
    cases same
  counted := by
    have young := ok.young alone
    exact Or.inl (by rw [young]; decide)

end Ece344Lab.Webserver
